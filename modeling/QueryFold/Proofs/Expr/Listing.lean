import QueryFold.Proofs.Expr.Instantiation

/-!
# The order of free parameters

The free parameters of an expression are listed in the order in which they are met. To put in
something without free parameters for one of them takes that one out of the list, and leaves the
others in their order (`freeParams_substituteParam`). So of several parameters that are replaced the
list keeps what is left (`freeParams_substituteAll`).

The walks over an expression and over the result of the substitution are compared step by step. What
they have found differs by the one parameter (`ParamScope.Lacks`), and inside of a lambda that binds
the parameter they walk over the same expression (`Expr.replacedUnder`).
-/

namespace QueryFold

/-- What was found in the scope `s'` is what was found in `s` without the parameter `p`. -/
structure ParamScope.Lacks (p : Param) (s s' : ParamScope) : Prop where
  bound : s'.bound = s.bound
  free : s'.free = s.free.filter (· ≠ p)

/-- The expression with a parameter replaced, unless a lambda around the expression binds it. -/
def Expr.replacedUnder (e : Expr) (bound : List Param) (p : Param) (r : Expr) : Expr :=
  if p ∈ bound then e else e.substituteParam p r

section

variable {e r : Expr} {p : Param} {s s' : ParamScope}

theorem Expr.replacedUnder_lambda (bound ps : List Param) (body : Expr) :
    (lambda ps body).replacedUnder bound p r =
      lambda ps (body.replacedUnder (bound ++ ps) p r) := by
  simp only [replacedUnder, substituteParam_lambda, List.mem_append]
  split_ifs <;> simp_all

/-- A walk finds nothing in an expression all of whose free parameters are bound. -/
theorem after_eq_self (h : ∀ x, FreeIn x e → x ∈ s.bound) : e.after freeParamVisitor s = s := by
  induction e using Expr.induction generalizing s with
  | step e ih =>
    by_cases plain : e.Plain
    · rw [Expr.after_eq_children _ (fun _ => rfl) plain]
      refine List.foldlRecOn (motive := (· = s)) _ _ rfl fun t same c hc => ?_
      rw [same, ih c hc fun x hx => h x (.child plain hc hx)]
    cases e with
    | param q => exact if_pos (.inl (h q .param))
    | lambda ps body =>
      rw [after_lambda, ih body (by simp [Expr.children]) fun x hx => ?_]
      · simp
      · by_cases hp : x ∈ ps
        · exact List.mem_append_right _ hp
        · exact List.mem_append_left _ (h x (.lambda hp hx))
    | item _ | subQuery _ => rfl
    | _ => exact absurd trivial plain

theorem Expr.Closed.after_eq (hr : r.Closed) (s : ParamScope) : r.after freeParamVisitor s = s :=
  after_eq_self fun x hx => absurd hx (hr x)

/-- A parameter that is not replaced is found by both walks or by none. -/
theorem ParamScope.Lacks.param (h : s.Lacks p s') {q : Param} (hq : q ≠ p) :
    ((Expr.param q).after freeParamVisitor s).Lacks p
      ((Expr.param q).after freeParamVisitor s') := by
  have same : q ∈ s'.bound ∨ q ∈ s'.free ↔ q ∈ s.bound ∨ q ∈ s.free := by
    rw [h.bound, h.free, List.mem_filter]
    simp [hq]
  by_cases found : q ∈ s.bound ∨ q ∈ s.free
  · rw [show (Expr.param q).after freeParamVisitor s = s from if_pos found,
      show (Expr.param q).after freeParamVisitor s' = s' from if_pos (same.mpr found)]
    exact h
  · rw [show (Expr.param q).after freeParamVisitor s = { s with free := s.free ++ [q] } from
        if_neg found,
      show (Expr.param q).after freeParamVisitor s' = { s' with free := s'.free ++ [q] } from
        if_neg (mt same.mp found)]
    exact ⟨h.bound, by simp [h.free, hq]⟩

/-- The parameter that is replaced is not found in its replacement. -/
theorem ParamScope.Lacks.replaced (h : s.Lacks p s') (hr : r.Closed) :
    ((Expr.param p).after freeParamVisitor s).Lacks p
      (((Expr.param p).replacedUnder s.bound p r).after freeParamVisitor s') := by
  by_cases bound : p ∈ s.bound
  · rw [Expr.replacedUnder, if_pos bound, after_eq_self (s := s), after_eq_self (s := s')]
    · exact h
    · intro x hx
      rw [h.bound, ← freeIn_param_iff.mp hx]
      exact bound
    · intro x hx
      rw [← freeIn_param_iff.mp hx]
      exact bound
  · rw [Expr.replacedUnder, if_neg bound, Expr.substituteParam_param_self, hr.after_eq]
    by_cases found : p ∈ s.free
    · rw [show (Expr.param p).after freeParamVisitor s = s from if_pos (.inr found)]
      exact h
    · rw [show (Expr.param p).after freeParamVisitor s = { s with free := s.free ++ [p] } from
        if_neg (not_or.mpr ⟨bound, found⟩)]
      exact ⟨h.bound, by simp [h.free]⟩

/-- **The walks keep pace**: they go on to differ by the parameter that is replaced. -/
theorem ParamScope.Lacks.after (hr : r.Closed) (h : s.Lacks p s') :
    (e.after freeParamVisitor s).Lacks p
      ((e.replacedUnder s.bound p r).after freeParamVisitor s') := by
  induction e using Expr.induction generalizing s s' with
  | step e ih =>
    by_cases plain : e.Plain
    · have parts : (e.replacedUnder s.bound p r).after freeParamVisitor s' =
          e.children.foldl
            (fun t c => (c.replacedUnder s.bound p r).after freeParamVisitor t) s' := by
        unfold Expr.replacedUnder
        split_ifs
        · exact Expr.after_eq_children freeParamVisitor (fun _ => rfl) plain
        · rw [Expr.substituteParam_plain plain, Expr.after_eq_children _ (fun _ => rfl)
            (Expr.plain_mapChildren plain _), Expr.children_mapChildren, List.foldl_map]
      rw [parts, Expr.after_eq_children _ (fun _ => rfl) plain]
      -- What is bound stays the same from one subexpression to the next.
      have both := List.foldl_rel (r := fun t t' => t.bound = s.bound ∧ t.Lacks p t')
        (l := e.children) (f := fun t c => c.after freeParamVisitor t)
        (g := fun t c => (c.replacedUnder s.bound p r).after freeParamVisitor t) ⟨rfl, h⟩
        fun c hc t t' ⟨same, lacks⟩ =>
          ⟨(after_findsFree c t).bound.trans same, same ▸ ih c hc lacks⟩
      exact both.2
    cases e with
    | param q =>
      by_cases hq : q = p
      · subst hq
        exact h.replaced hr
      · have alone : (Expr.param q).replacedUnder s.bound p r = .param q := by
          rw [Expr.replacedUnder, Expr.substituteParam_param, if_neg hq, ite_self]
        rw [alone]
        exact h.param hq
    | lambda ps body =>
      have inside : ({ s with bound := s.bound ++ ps } : ParamScope).Lacks p
          { s' with bound := s'.bound ++ ps } := ⟨by rw [h.bound], h.free⟩
      obtain ⟨bound, free⟩ := ih body (by simp [Expr.children]) inside
      rw [Expr.replacedUnder_lambda, after_lambda, after_lambda]
      exact ⟨by simp only [bound], free⟩
    | item i =>
      rw [Expr.replacedUnder, Expr.substituteParam_item, ite_self]
      exact h
    | subQuery q =>
      rw [Expr.replacedUnder, Expr.substituteParam_subQuery, ite_self]
      exact h
    | _ => exact absurd trivial plain

end

namespace Expr

/-- **Substitution keeps the order** of free parameters: what is put in has none, and the one for
which it is put in is gone. -/
theorem freeParams_substituteParam {r : Expr} (hr : r.Closed) (p : Param) (e : Expr) :
    (e.substituteParam p r).freeParams = e.freeParams.filter (· ≠ p) := by
  have start : (ParamScope.mk [] []).Lacks p ⟨[], []⟩ := ⟨rfl, rfl⟩
  exact (start.after (e := e) hr).free

/-- To replace several parameters takes them out of the list. -/
theorem freeParams_substituteAll {σ : List (Param × Expr)} (hσ : ∀ b ∈ σ, b.2.Closed) (e : Expr) :
    (e.substituteAll σ).freeParams = e.freeParams.filter (· ∉ σ.map Prod.fst) := by
  induction σ generalizing e with
  | nil => simp [substituteAll]
  | cons b σ ih =>
    obtain ⟨hb, hσ⟩ := List.forall_mem_cons.mp hσ
    rw [substituteAll, List.foldl_cons, ← substituteAll, ih hσ, freeParams_substituteParam hb,
      List.filter_filter]
    refine List.filter_congr fun x _ => ?_
    rw [← Bool.decide_and, decide_eq_decide, List.map_cons, List.mem_cons, not_or, and_comm]

end Expr

end QueryFold
