import QueryFold.Expr.Substitution
import QueryFold.Proofs.Expr.Occurrence
import Mathlib.Data.List.Perm.Basic

/-!
# Laws of substitution

What a substitution does at each kind of expression, what it leaves alone, and what may occur
in its result. Most of them go by induction on the subexpressions: an expression that is
`Plain` is what its subexpressions make of it, and the four other kinds are looked at one by
one.
-/

namespace QueryFold

namespace Expr

/-! ### Subexpressions -/

theorem mapChildren_congr {f g : Expr → Expr} {e : Expr} (h : ∀ c ∈ e.children, f c = g c) :
    e.mapChildren f = e.mapChildren g := by
  cases e with
  | call object method args type =>
    simp only [children, List.mem_append, Option.mem_toList] at h
    simp only [mapChildren, call.injEq, true_and, and_true]
    refine ⟨?_, List.map_congr_left fun c hc => h c (.inr hc)⟩
    cases object with
    | none => rfl
    | some e => simpa using h e (.inl rfl)
  | create type members args =>
    simp only [mapChildren, create.injEq, true_and]
    exact List.map_congr_left h
  | _ => simp_all [mapChildren, children]

theorem mapChildren_mapChildren (f g : Expr → Expr) (e : Expr) :
    (e.mapChildren f).mapChildren g = e.mapChildren fun c => g (f c) := by
  cases e <;> simp [mapChildren, Function.comp_def]

theorem plain_mapChildren {e : Expr} (he : e.Plain) (f : Expr → Expr) : (e.mapChildren f).Plain := by
  cases e <;> first | exact he.elim | trivial

/-! ### Substitution at each kind of expression -/

theorem substituteParam_param (p q : Param) (r : Expr) :
    (param q).substituteParam p r = if q = p then r else param q := by
  simp only [substituteParam, substitute, same_param, param.injEq]

@[simp] theorem substituteParam_item (p : Param) (i : ItemRef) (r : Expr) :
    (item i).substituteParam p r = item i := by
  simp [substituteParam, substitute, same_param]

@[simp] theorem substituteParam_subQuery (p : Param) (q : Query) (r : Expr) :
    (subQuery q).substituteParam p r = subQuery q := by
  simp [substituteParam, substitute, same_param]

theorem substituteParam_lambda (p : Param) (ps : List Param) (body r : Expr) :
    (lambda ps body).substituteParam p r =
      if p ∈ ps then lambda ps body else lambda ps (body.substituteParam p r) := by
  simp [substituteParam, substitute, same_param, hides]

@[simp] theorem substituteParam_param_self (p : Param) (r : Expr) :
    (param p).substituteParam p r = r := by
  rw [substituteParam_param, if_pos rfl]

/-- A lambda with another parameter hides nothing. -/
theorem substituteParam_lambda_of_ne {p q : Param} (h : p ≠ q) (body r : Expr) :
    (lambda [q] body).substituteParam p r = lambda [q] (body.substituteParam p r) := by
  rw [substituteParam_lambda, if_neg (by simpa using h)]

@[simp] theorem substituteParam_convert (p : Param) (e r : Expr) (t : Ty) :
    (convert e t).substituteParam p r = convert (e.substituteParam p r) t := by
  simp [substituteParam, substitute, same_param]

theorem substituteParam_plain {e : Expr} (he : e.Plain) (p : Param) (r : Expr) :
    e.substituteParam p r = e.mapChildren fun c => c.substituteParam p r := by
  have hs : ¬ e.same (param p) = true := by
    rw [same_param]
    rintro rfl
    exact he
  rw [substituteParam, substitute_eq, if_neg hs]
  cases e with
  | lambda _ _ => exact he.elim
  | _ => rfl

/-! ### What is left alone -/

theorem substituteParam_of_not_freeIn {p : Param} {e : Expr} (r : Expr) (h : ¬ FreeIn p e) :
    e.substituteParam p r = e := by
  induction e using Expr.induction with
  | step e ih =>
    by_cases he : e.Plain
    · rw [freeIn_iff_children he] at h
      rw [substituteParam_plain he]
      refine (mapChildren_congr fun c hc => ih c hc fun hf => h ⟨c, hc, hf⟩).trans e.mapChildren_id
    cases e with
    | param q =>
      rw [freeIn_param_iff] at h
      rw [substituteParam_param, if_neg h]
    | lambda ps body =>
      rw [freeIn_lambda_iff] at h
      rw [substituteParam_lambda]
      split_ifs with hp
      · rfl
      · rw [ih body (by simp [children]) fun hf => h ⟨hp, hf⟩]
    | item r => exact substituteParam_item ..
    | subQuery q => exact substituteParam_subQuery ..
    | _ => exact absurd trivial he

theorem substituteParam_self (p : Param) (e : Expr) : e.substituteParam p (param p) = e := by
  induction e using Expr.induction with
  | step e ih =>
    by_cases he : e.Plain
    · rw [substituteParam_plain he]
      exact (mapChildren_congr ih).trans e.mapChildren_id
    cases e with
    | param q =>
      rw [substituteParam_param]
      split_ifs with h
      · rw [h]
      · rfl
    | lambda ps body =>
      rw [substituteParam_lambda, ih body (by simp [children]), ite_self]
    | item r => exact substituteParam_item ..
    | subQuery q => exact substituteParam_subQuery ..
    | _ => exact absurd trivial he

/-! ### What may occur in the result -/

/-- A property of expressions that is one of their parts, with an exception for parameters and
queries, passes from an expression and a replacement to the result. -/
theorem substituteParam_induction {P : Expr → Prop}
    (parts : ∀ e, (∀ q, e ≠ param q) → (∀ i, e ≠ item i) → (∀ q, e ≠ subQuery q) →
      (P e ↔ ∀ c ∈ e.children, P c))
    {e r : Expr} {p : Param} (he : P e) (hr : P r) : P (e.substituteParam p r) := by
  induction e using Expr.induction with
  | step e ih =>
    by_cases hp : e.Plain
    · have hm : ∀ f, P (e.mapChildren f) ↔ ∀ c ∈ e.children, P (f c) := by
        intro f
        rw [parts, children_mapChildren]
        · simp
        all_goals
          rintro x hx
          have := plain_mapChildren hp f
          rw [hx] at this
          exact this
      have h₀ := hm fun e => e
      rw [mapChildren_id] at h₀
      rw [substituteParam_plain hp, hm]
      exact fun c hc => ih c hc (h₀.mp he c hc)
    cases e with
    | param q =>
      rw [substituteParam_param]
      split_ifs
      · exact hr
      · exact he
    | lambda ps body =>
      rw [substituteParam_lambda]
      split_ifs
      · exact he
      · rw [parts _ (by simp) (by simp) (by simp)] at he ⊢
        simp only [children, List.mem_singleton, forall_eq] at he ⊢
        exact ih body (by simp [children]) he
    | item i => exact (substituteParam_item ..).symm ▸ he
    | subQuery q => exact (substituteParam_subQuery ..).symm ▸ he
    | _ => exact absurd trivial hp

theorem not_refersTo_substituteParam {id : SourceId} {e r : Expr} {p : Param}
    (he : ¬ RefersTo id e) (hr : ¬ RefersTo id r) : ¬ RefersTo id (e.substituteParam p r) :=
  substituteParam_induction (P := fun e => ¬ RefersTo id e)
    (fun e _ hi _ => by rw [refersTo_iff_children hi]; simp) he hr

theorem not_holdsQuery_substituteParam {e r : Expr} {p : Param}
    (he : ¬ HoldsQuery e) (hr : ¬ HoldsQuery r) : ¬ HoldsQuery (e.substituteParam p r) :=
  substituteParam_induction (P := fun e => ¬ HoldsQuery e)
    (fun e _ _ hq => by rw [not_holdsQuery_iff]; simp [hq]) he hr

end Expr

end QueryFold
