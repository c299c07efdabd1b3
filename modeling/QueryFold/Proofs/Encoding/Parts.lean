import QueryFold.Proofs.Encoding.Record

/-!
# Types, literals and names are read back

The parts from which expressions and clauses are made. A float is the one literal whose
number is read as it is only if it is finite.
-/

namespace QueryFold

open Json (Undoes items?_map height_object heightMembers_cons height_array)

/-! ### Types -/

namespace Ty

theorem argsToJson_eq_map (ts : List Ty) : argsToJson ts = ts.map toJson :=
  eq_map_of_cons rfl (fun _ _ => rfl) ts

/-- A type is read back within its height. -/
theorem readWithin_toJson (fuel : Nat) :
    Undoes (readWithin fuel) toJson (fun _ => true) fuel := by
  induction fuel with
  | zero => exact .zero
  | succ fuel ih =>
    rintro ⟨name, args⟩ - hlow
    cases args with
    | nil => simp [toJson, readWithin]
    | cons arg args =>
      rw [toJson, ← argsToJson, argsToJson_eq_map] at hlow ⊢
      simp only [height_object, heightMembers_cons, height_array] at hlow
      have hargs : Json.items? (readWithin fuel) (.array ((arg :: args).map toJson)) =
          some (arg :: args) :=
        items?_map (ih.list (by simp) (by omega))
      rw [List.map_cons] at hargs ⊢
      simp [readWithin, hargs]

@[simp] theorem ofJson?_toJson (t : Ty) : ofJson? t.toJson = some t :=
  readWithin_toJson _ t rfl (Nat.lt_succ_self _)

end Ty

/-! ### Literals -/

namespace Literal

/-- Whether a literal is something else than a float. -/
def floatFree : Literal → Bool
  | float _ => false
  | _ => true

theorem ofJson?_toJson {l : Literal} (h : l.floatFree) : ofJson? l.toJson = some l := by
  cases l with
  | float => cases h
  | _ => simp [toJson, ofJson?]

end Literal

/-! ### Names -/

@[simp] theorem Param.ofJson?_toJson (p : Param) : Param.ofJson? p.toJson = some p := by
  simp [Param.toJson, Param.ofJson?]

@[simp] theorem SourceId.ofJson?_toJson (id : SourceId) : SourceId.ofJson? id.toJson = some id := by
  simp [SourceId.toJson, SourceId.ofJson?]

@[simp] theorem Source.ofJson?_toJson (s : Source) : Source.ofJson? s.toJson = some s := by
  simp [Source.toJson, Source.ofJson?]

@[simp] theorem ItemRef.ofJson?_toJson (r : ItemRef) : ItemRef.ofJson? r.toJson = some r := by
  simp [ItemRef.toJson, ItemRef.ofJson?]

@[simp] theorem Position.ofJson?_toJson (p : Position) : Position.ofJson? p.toJson = some p := by
  cases p <;> simp [Position.toJson, Position.ofJson?]

theorem Position.toJson_ne_null (p : Position) : p.toJson ≠ .null := by
  cases p <;> simp [Position.toJson]

/-! ### Operators -/

@[simp] theorem UnaryOp.ofJson?_tag (op : UnaryOp) :
    UnaryOp.ofJson? (.string op.tag) = some op := by
  cases op <;> simp [UnaryOp.tag, UnaryOp.ofJson?]

@[simp] theorem BinaryOp.ofJson?_tag (op : BinaryOp) :
    BinaryOp.ofJson? (.string op.tag) = some op := by
  cases op <;> simp [BinaryOp.tag, BinaryOp.ofJson?]

@[simp] theorem Direction.ofJson?_tag (d : Direction) :
    Direction.ofJson? (.string d.tag) = some d := by
  cases d <;> simp [Direction.tag, Direction.ofJson?]

@[simp] theorem CastKind.ofJson?_name (kind : CastKind) :
    CastKind.ofJson? (.string kind.name) = some kind := by
  cases kind <;> simp [CastKind.name, CastKind.ofJson?]

end QueryFold
