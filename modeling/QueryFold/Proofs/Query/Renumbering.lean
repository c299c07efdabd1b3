import QueryFold.Proofs.Expr.Renumbering
import QueryFold.Proofs.Query.Validity

/-!
# Queries with other identities

Operations on queries and the validation of queries do with other identities what they do with the
identities there are, if different identities stay different. So a query with other identities is
valid among sources with other identities exactly if the query is, and what is wrong with it is the
same but for the identities in the error (`Query.validateWithin_renumber`).
-/

namespace QueryFold

/-! ### Results carried over -/

section

variable {ε ε' α α' β β' : Type}

/-- A result with its value carried over by one function and its error by another one. -/
def carry (err : ε → ε') (val : α → α') : Except ε α → Except ε' α'
  | .ok a => .ok (val a)
  | .error e => .error (err e)

variable {err : ε → ε'} {val : α → α'} {val' : β → β'}

/-- What goes on with a result that is carried over. -/
theorem bind_eq_carry {x : Except ε α} {x' : Except ε' α'} {f : α → Except ε β}
    {f' : α' → Except ε' β'} (first : x' = carry err val x)
    (rest : ∀ a, f' (val a) = carry err val' (f a)) : (x' >>= f') = carry err val' (x >>= f) := by
  subst first
  cases x with
  | ok a => exact rest a
  | error e => rfl

end

variable (ρ : SourceId → SourceId)

/-- The error with other identities. -/
def QueryError.renumber : QueryError → QueryError
  | .duplicateSource itemName id => .duplicateSource itemName (ρ id)
  | .danglingReference place id => .danglingReference place (ρ id)
  | e => e

/-! ### Clauses -/

@[simp] theorem SortKey.key_renumber (k : SortKey) : (k.renumber ρ).key = k.key.renumber ρ := by
  cases k
  rw [renumber]

@[simp] theorem SortKey.owner_renumber (k : SortKey) : (k.renumber ρ).owner = k.owner := by
  cases k
  rw [renumber]

theorem SortKey.renumber_eq (k : SortKey) : k.renumber ρ = { k with key := k.key.renumber ρ } := by
  cases k
  rw [renumber]

namespace Clause

variable (c : Clause)

@[simp] theorem previous_renumber : (c.renumber ρ).previous = c.previous := by
  cases c <;> rfl

@[simp] theorem isFrom_renumber : (c.renumber ρ).isFrom = c.isFrom := by
  cases c <;> rfl

@[simp] theorem source?_renumber : (c.renumber ρ).source? = c.source?.map (·.renumber ρ) := by
  cases c <;> simp [renumber, source?]

@[simp] theorem projection?_renumber :
    (c.renumber ρ).projection? = c.projection?.map (·.renumber ρ) := by
  cases c <;> simp [renumber, projection?, renumberReceiver_eq_map]

@[simp] theorem expressions_renumber :
    (c.renumber ρ).expressions = c.expressions.map (·.renumber ρ) := by
  cases c with
  | fromExpr _ _ _ projection _ =>
    cases projection <;> simp [renumber, expressions, renumberReceiver]
  | fromQuery _ _ projection _ =>
    cases projection <;> simp [renumber, expressions, renumberReceiver]
  | orderBy keys _ => simp [renumber, expressions, renumberKeys_eq_map]
  | _ => rfl

theorem attach_renumber (position previous : Position) :
    (c.attach position previous).renumber ρ = (c.renumber ρ).attach position previous := by
  cases c with
  | orderBy keys _ =>
    simp [renumber, attach, renumberKeys_eq_map, SortKey.renumber_eq]
  | _ => rfl

theorem withProjection?_renumber (e : Expr) :
    (c.renumber ρ).withProjection? (e.renumber ρ) =
      (c.withProjection? e).map (·.renumber ρ) := by
  cases c <;> rfl

theorem withKey?_renumber (position : Position) (k : SortKey) :
    (c.renumber ρ).withKey? position (k.renumber ρ) =
      (c.withKey? position k).map (·.renumber ρ) := by
  cases c with
  | orderBy keys _ =>
    simp [renumber, withKey?, renumberKeys_eq_map, SortKey.renumber_eq]
  | _ => rfl

end Clause

namespace Terminal

variable (t : Terminal)

@[simp] theorem previous_renumber : (t.renumber ρ).previous = t.previous := by
  cases t <;> rfl

@[simp] theorem expressions_renumber :
    (t.renumber ρ).expressions = t.expressions.map (·.renumber ρ) := by
  cases t <;> rfl

@[simp] theorem outputType_renumber : (t.renumber ρ).outputType = t.outputType := by
  cases t <;> simp [renumber, outputType]

theorem attach_renumber (previous : Position) :
    (t.attach previous).renumber ρ = (t.renumber ρ).attach previous := by
  cases t <;> rfl

end Terminal

namespace ResultOp

variable (op : ResultOp)

@[simp] theorem name_renumber : (op.renumber ρ).name = op.name := by
  cases op <;> rfl

@[simp] theorem castType?_renumber : (op.renumber ρ).castType? = op.castType? := by
  cases op <;> rfl

@[simp] theorem expressions_renumber :
    (op.renumber ρ).expressions = op.expressions.map (·.renumber ρ) := by
  cases op <;> rfl

end ResultOp

/-! ### Operations on queries -/

namespace Query

variable (q : Query)

@[simp] theorem source_renumber : (q.renumber ρ).source = q.source.renumber ρ := by
  cases q
  rw [renumber]

@[simp] theorem generator_renumber : (q.renumber ρ).generator = q.generator.renumber ρ := by
  cases q
  rw [renumber]

@[simp] theorem body_renumber : (q.renumber ρ).body = q.body.map (·.renumber ρ) := by
  cases q
  rw [renumber, renumberBody_eq_map]

@[simp] theorem terminal_renumber : (q.renumber ρ).terminal = q.terminal.map (·.renumber ρ) := by
  cases q
  rw [renumber, renumberTerminal_eq_map]

@[simp] theorem operators_renumber :
    (q.renumber ρ).operators = q.operators.map (·.renumber ρ) := by
  cases q
  rw [renumber, renumberOperators_eq_map]

@[simp] theorem next_renumber : (q.renumber ρ).next = q.next := by
  simp [next]

@[simp] theorem last_renumber : (q.renumber ρ).last = q.last := by
  simp [last]

/-- A query is renumbered part by part. -/
theorem renumber_eq : q.renumber ρ = ⟨q.source.renumber ρ, q.generator.renumber ρ,
    q.body.map (·.renumber ρ), q.terminal.map (·.renumber ρ), q.operators.map (·.renumber ρ),
    q.resultType⟩ := by
  cases q
  rw [renumber, renumberBody_eq_map, renumberTerminal_eq_map, renumberOperators_eq_map]

theorem start_renumber (s : Source) (e : Expr) (t : Ty) :
    (start s e t).renumber ρ = start (s.renumber ρ) (e.renumber ρ) t := by
  rw [start, renumber_eq]
  rfl

theorem addClause_renumber (c : Clause) :
    (q.addClause c).renumber ρ = (q.renumber ρ).addClause (c.renumber ρ) := by
  simp only [renumber_eq, addClause, next, last, List.map_append, List.map_singleton,
    Clause.attach_renumber, List.length_map]

theorem addOperator_renumber (op : ResultOp) :
    (q.addOperator op).renumber ρ = (q.renumber ρ).addOperator (op.renumber ρ) := by
  simp only [renumber_eq, addOperator, List.map_append, List.map_singleton]

theorem setTerminal_renumber (t : Terminal) :
    (q.renumber ρ).setTerminal (t.renumber ρ) =
      carry (QueryError.renumber ρ) (·.renumber ρ) (q.setTerminal t) := by
  unfold setTerminal
  rw [terminal_renumber]
  cases q.terminal with
  | some _ => rfl
  | none =>
    rw [last_renumber]
    simp only [Option.map_none, carry, renumber_eq, Option.map_some, Terminal.attach_renumber]

theorem modifyClause_renumber (position : Position) {refused : Position → QueryError}
    {change change' : Clause → Option Clause}
    (own : (refused position).renumber ρ = refused position)
    (h : ∀ c : Clause, change' (c.renumber ρ) = (change c).map (·.renumber ρ)) :
    (q.renumber ρ).modifyClause position refused change' =
      carry (QueryError.renumber ρ) (·.renumber ρ) (q.modifyClause position refused change) := by
  unfold modifyClause
  cases position with
  | main => exact congrArg Except.error own.symm
  | body index =>
    simp only [body_renumber, List.getElem?_map]
    cases q.body[index]? with
    | none => rfl
    | some c =>
      simp only [Option.map_some, h]
      cases change c with
      | none => exact congrArg Except.error own.symm
      | some c' => simp only [Option.map_some, carry, renumber_eq, List.map_set]

theorem addKey_renumber (position : Position) (k : SortKey) :
    (q.renumber ρ).addKey position (k.renumber ρ) =
      carry (QueryError.renumber ρ) (·.renumber ρ) (q.addKey position k) :=
  q.modifyClause_renumber ρ position rfl fun c => c.withKey?_renumber ρ position k

theorem setProjection_renumber (position : Position) (e : Expr) :
    (q.renumber ρ).setProjection position (e.renumber ρ) =
      carry (QueryError.renumber ρ) (·.renumber ρ) (q.setProjection position e) :=
  q.modifyClause_renumber ρ position rfl fun c => c.withProjection?_renumber ρ e

@[simp] theorem itemType?_renumber : (q.renumber ρ).itemType? = q.itemType? := by
  simp [itemType?, outputType?, ← List.map_reverse, List.findSome?_map, Function.comp_def]

end Query

/-! ### Checks -/

theorem checkKeys_renumber (position : Position) (index : Nat) (ks : List SortKey) :
    checkKeys position index (ks.map (·.renumber ρ)) =
      carry (QueryError.renumber ρ) id (checkKeys position index ks) := by
  induction ks generalizing index with
  | nil => rfl
  | cons k ks ih =>
    rw [List.map_cons, checkKeys, checkKeys, k.owner_renumber]
    split_ifs
    · exact ih (index + 1)
    · rfl

theorem checkInside_renumber (visible : List SourceId) (index : Nat) {c : Clause}
    (nested : ∀ q, c.query? = some q → (q.renumber ρ).validateWithin (visible.map ρ) =
      carry (QueryError.renumber ρ) id (q.validateWithin visible)) :
    (c.renumber ρ).checkInside (visible.map ρ) index =
      carry (QueryError.renumber ρ) id (c.checkInside visible index) := by
  cases c with
  | orderBy keys _ =>
    rw [Clause.renumber, renumberKeys_eq_map]
    exact checkKeys_renumber ρ _ _ keys
  | fromQuery _ query _ _ => exact nested query rfl
  | _ => rfl

section

variable {ρ} (inj : Function.Injective ρ) (visible : List SourceId)

include inj

theorem checkReferences_renumber (place : String) (es : List Expr) :
    checkReferences place (visible.map ρ) (es.map (·.renumber ρ)) =
      carry (QueryError.renumber ρ) id (checkReferences place visible es) := by
  induction es with
  | nil => rfl
  | cons e es ih =>
    have found : (e.renumber ρ).sources.find? (· ∉ visible.map ρ) =
        (e.sources.find? (· ∉ visible)).map ρ := by
      rw [e.sources_renumber inj, List.find?_map]
      simp only [Function.comp_def, List.mem_map_of_injective inj]
    rw [List.map_cons, checkReferences, checkReferences, found]
    cases e.sources.find? (· ∉ visible) with
    | some id => rfl
    | none => exact ih

theorem register_renumber (s : Source) :
    register (visible.map ρ) (s.renumber ρ) =
      carry (QueryError.renumber ρ) (List.map ρ) (register visible s) := by
  unfold register
  simp only [Source.renumber, List.mem_map_of_injective inj]
  split_ifs
  · rfl
  · rw [carry, List.map_append, List.map_singleton]

theorem introduce_renumber (c : Clause) :
    (c.renumber ρ).introduce (visible.map ρ) =
      carry (QueryError.renumber ρ) (List.map ρ) (c.introduce visible) := by
  unfold Clause.introduce
  rw [c.source?_renumber]
  cases c.source? with
  | none => rfl
  | some s =>
    refine bind_eq_carry (register_renumber inj visible s) fun visible' => ?_
    simp only [Clause.isFrom_renumber, Clause.projection?_renumber, Option.isNone_map]
    split_ifs <;> rfl

theorem checkOperators_renumber (ops : List ResultOp) :
    checkOperators (visible.map ρ) (ops.map (·.renumber ρ)) =
      carry (QueryError.renumber ρ) id (checkOperators visible ops) := by
  induction ops with
  | nil => rfl
  | cons op ops ih =>
    rw [List.map_cons, checkOperators, op.name_renumber, op.expressions_renumber]
    exact bind_eq_carry (checkReferences_renumber inj visible _ _) fun _ => ih

theorem checkTerminal_renumber (count : Nat) (t? : Option Terminal) :
    checkTerminal (visible.map ρ) count (t?.map (·.renumber ρ)) =
      carry (QueryError.renumber ρ) id (checkTerminal visible count t?) := by
  cases t? with
  | none => rfl
  | some t =>
    simp only [Option.map_some, checkTerminal, Terminal.previous_renumber,
      Terminal.expressions_renumber]
    split_ifs
    · rfl
    · exact checkReferences_renumber inj visible _ _

theorem validate_renumber (index : Nat) {c : Clause}
    (nested : ∀ visible q, c.query? = some q → (q.renumber ρ).validateWithin (visible.map ρ) =
      carry (QueryError.renumber ρ) id (q.validateWithin visible)) :
    (c.renumber ρ).validate (visible.map ρ) index =
      carry (QueryError.renumber ρ) (List.map ρ) (c.validate visible index) := by
  rw [validate_eq, validate_eq, c.previous_renumber, c.expressions_renumber]
  split_ifs
  · rfl
  · refine bind_eq_carry (introduce_renumber inj visible c) fun visible' => ?_
    refine bind_eq_carry (checkInside_renumber ρ visible' index (nested visible')) fun _ => ?_
    exact bind_eq_carry (checkReferences_renumber inj visible' _ _) fun _ => rfl

theorem validateBody_renumber (index : Nat) {cs : List Clause}
    (nested : ∀ c ∈ cs, ∀ visible q, c.query? = some q →
      (q.renumber ρ).validateWithin (visible.map ρ) =
        carry (QueryError.renumber ρ) id (q.validateWithin visible)) :
    validateBody (visible.map ρ) index (cs.map (·.renumber ρ)) =
      carry (QueryError.renumber ρ) (List.map ρ) (validateBody visible index cs) := by
  induction cs generalizing visible index with
  | nil => rfl
  | cons c cs ih =>
    rw [List.map_cons, validateBody, validateBody]
    refine bind_eq_carry (validate_renumber inj visible index (nested c List.mem_cons_self))
      fun visible' => ?_
    exact ih visible' (index + 1) fun d hd => nested d (List.mem_cons_of_mem _ hd)

/-- **Validation** does with other identities what it does with the identities there are, if
different identities stay different. -/
theorem Query.validateWithin_renumber (q : Query) :
    (q.renumber ρ).validateWithin (visible.map ρ) =
      carry (QueryError.renumber ρ) id (q.validateWithin visible) := by
  induction q using Query.induction generalizing visible with
  | step q ih =>
    rw [validateWithin_eq, validateWithin_eq, source_renumber, generator_renumber, body_renumber,
      terminal_renumber, operators_renumber, List.length_map]
    refine bind_eq_carry (checkReferences_renumber inj visible _ [q.generator]) fun _ => ?_
    refine bind_eq_carry (register_renumber inj visible q.source) fun visible₁ => ?_
    refine bind_eq_carry (validateBody_renumber inj visible₁ 0 fun c hc visible q' hq =>
      ih c hc q' hq visible) fun visible₂ => ?_
    refine bind_eq_carry (checkTerminal_renumber inj visible₂ _ q.terminal) fun _ => ?_
    exact checkOperators_renumber inj visible₂ q.operators

end

end QueryFold
