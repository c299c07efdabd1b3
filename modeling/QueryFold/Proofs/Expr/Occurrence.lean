import QueryFold.Expr.Basic
import QueryFold.Expr.Walk
import Mathlib.Tactic.SplitIfs

/-!
# What occurs in an expression

Three relations say what an expression holds: a parameter that no enclosing lambda binds, a
reference to a source, a query as a value. The two analyses of `Expr.Walk` are lists; here
it is shown that they list what these relations say: `mem_freeParams_iff` and
`mem_sources_iff`. A nested query is a leaf throughout.
-/

namespace QueryFold

namespace Expr

/-! ### Induction -/

theorem sizeOf_child {c e : Expr} (h : c ∈ e.children) : sizeOf c < sizeOf e := by
  cases e with
  | call object method args type =>
    simp only [children, List.mem_append, Option.mem_toList] at h
    rcases h with h | h
    · subst h
      simp
      omega
    · have := List.sizeOf_lt_of_mem h
      simp
      omega
  | create type members args =>
    simp only [children] at h
    have := List.sizeOf_lt_of_mem h
    simp
    omega
  | binary op left right type =>
    simp only [children, List.mem_cons, List.not_mem_nil, or_false] at h
    rcases h with rfl | rfl <;> simp <;> omega
  | constant _ _ | param _ | item _ | subQuery _ => simp [children] at h
  | member _ _ _ | convert _ _ | unary _ _ _ | lambda _ _ =>
    simp only [children, List.mem_singleton] at h
    subst h
    simp
    try omega

/-- What holds of an expression whenever it holds of its immediate subexpressions holds of every
expression. -/
theorem induction {motive : Expr → Prop}
    (step : ∀ e, (∀ c ∈ e.children, motive c) → motive e) (e : Expr) : motive e :=
  step e fun c hc =>
    have := sizeOf_child hc
    induction step c
termination_by sizeOf e

end Expr

/-! ### The relations -/

/-- The expressions that are what their subexpressions make of them: all but parameters, references,
lambdas and queries. -/
def Expr.Plain : Expr → Prop
  | .param _ | .item _ | .lambda _ _ | .subQuery _ => False
  | _ => True

/-- The parameter `p` occurs in an expression outside of the lambdas that bind it. -/
inductive FreeIn (p : Param) : Expr → Prop where
  /-- The parameter itself. -/
  | param : FreeIn p (.param p)
  /-- In the body of a lambda that does not bind it. -/
  | lambda {ps : List Param} {body : Expr} : p ∉ ps → FreeIn p body → FreeIn p (.lambda ps body)
  /-- In a subexpression of anything else. -/
  | child {e c : Expr} : e.Plain → c ∈ e.children → FreeIn p c → FreeIn p e

/-- The parameter `p` occurs in an expression, free or bound or as the parameter of a lambda. -/
inductive OccursIn (p : Param) : Expr → Prop where
  /-- The parameter itself. -/
  | param : OccursIn p (.param p)
  /-- As a parameter of a lambda. -/
  | binder {ps : List Param} {body : Expr} : p ∈ ps → OccursIn p (.lambda ps body)
  /-- In a subexpression. -/
  | child {e c : Expr} : c ∈ e.children → OccursIn p c → OccursIn p e

/-- An expression refers to the current item of the source `id`. -/
inductive RefersTo (id : SourceId) : Expr → Prop where
  /-- By a reference. -/
  | item {r : ItemRef} : r.source = id → RefersTo id (.item r)
  /-- In a subexpression. -/
  | child {e c : Expr} : c ∈ e.children → RefersTo id c → RefersTo id e

/-- An expression refers to the current items of some of the sources `ids` only. -/
def RefersWithin (ids : List SourceId) (e : Expr) : Prop := ∀ id, RefersTo id e → id ∈ ids

theorem RefersWithin.subset {ids ids' : List SourceId} {e : Expr} (h : RefersWithin ids e)
    (hs : ids ⊆ ids') : RefersWithin ids' e :=
  fun id hid => hs (h id hid)

/-- An expression holds a query as a value. -/
inductive HoldsQuery : Expr → Prop where
  /-- The query itself. -/
  | query (q : Query) : HoldsQuery (.subQuery q)
  /-- In a subexpression. -/
  | child {e c : Expr} : c ∈ e.children → HoldsQuery c → HoldsQuery e

theorem FreeIn.occursIn {p : Param} {e : Expr} (h : FreeIn p e) : OccursIn p e := by
  induction h with
  | param => exact .param
  | lambda _ _ ih => exact .child List.mem_cons_self ih
  | child _ hc _ ih => exact .child hc ih

theorem freeIn_param_iff {p q : Param} : FreeIn p (.param q) ↔ q = p := by
  constructor
  · intro h
    cases h with
    | param => rfl
    | child hp _ _ => exact hp.elim
  · rintro rfl
    exact .param

theorem freeIn_lambda_iff {p : Param} {ps : List Param} {body : Expr} :
    FreeIn p (.lambda ps body) ↔ p ∉ ps ∧ FreeIn p body := by
  constructor
  · intro h
    cases h with
    | lambda hp hb => exact ⟨hp, hb⟩
    | child hp _ _ => exact hp.elim
  · rintro ⟨hp, hb⟩
    exact .lambda hp hb

theorem not_freeIn_item (p : Param) (r : ItemRef) : ¬ FreeIn p (.item r) := by
  intro h
  cases h with
  | child hp _ _ => exact hp.elim

theorem not_freeIn_subQuery (p : Param) (q : Query) : ¬ FreeIn p (.subQuery q) := by
  intro h
  cases h with
  | child hp _ _ => exact hp.elim

theorem freeIn_iff_children {p : Param} {e : Expr} (he : e.Plain) :
    FreeIn p e ↔ ∃ c ∈ e.children, FreeIn p c := by
  constructor
  · intro h
    cases h with
    | param | lambda _ _ => exact he.elim
    | child _ hc h => exact ⟨_, hc, h⟩
  · rintro ⟨c, hc, h⟩
    exact .child he hc h

theorem refersTo_item_iff {id : SourceId} {r : ItemRef} : RefersTo id (.item r) ↔ r.source = id := by
  constructor
  · intro h
    cases h with
    | item h => exact h
    | child hc _ => simp [Expr.children] at hc
  · exact .item

theorem refersTo_iff_children {id : SourceId} {e : Expr} (he : ∀ r, e ≠ .item r) :
    RefersTo id e ↔ ∃ c ∈ e.children, RefersTo id c := by
  constructor
  · intro h
    cases h with
    | item _ => exact absurd rfl (he _)
    | child hc h => exact ⟨_, hc, h⟩
  · rintro ⟨c, hc, h⟩
    exact .child hc h

theorem not_holdsQuery_iff {e : Expr} :
    ¬ HoldsQuery e ↔ (∀ q, e ≠ .subQuery q) ∧ ∀ c ∈ e.children, ¬ HoldsQuery c := by
  constructor
  · exact fun h => ⟨fun q hq => h (hq ▸ .query q), fun c hc h' => h (.child hc h')⟩
  · rintro ⟨hq, hc⟩ h
    cases h with
    | query q => exact hq q rfl
    | child hm h => exact hc _ hm h

/-- An expression without subexpressions holds no query unless it is one. -/
theorem not_holdsQuery_of_leaf {e : Expr} (hq : ∀ q, e ≠ .subQuery q) (hc : e.children = []) :
    ¬ HoldsQuery e :=
  not_holdsQuery_iff.mpr ⟨hq, by simp [hc]⟩

/-! ### Walks, part by part -/

section Walk

variable {σ : Type} (v : Visitor σ Unit)

/-- The state after a walk from the state `s`. -/
def Expr.after (e : Expr) (s : σ) : σ := ((e.walk v).run s).run.2

theorem walkExprs_run (es : List Expr) (s : σ) :
    ((walkExprs v es).run s).run.2 = es.foldl (fun s e => e.after v s) s := by
  induction es generalizing s with
  | nil => rfl
  | cons e es ih => exact ih _

/-- If nothing is done at other expressions, a walk only goes through their subexpressions, in
order. -/
theorem Expr.after_eq_children {e : Expr} {s : σ} (hv : ∀ e, v.other e = pure ()) (he : e.Plain) :
    e.after v s = e.children.foldl (fun s c => c.after v s) s := by
  cases e with
  | param _ | item _ | lambda _ _ | subQuery _ => exact he.elim
  | call object method args type =>
    rw [← walkExprs_run]
    cases object <;> simp [Expr.after, Expr.walk, walkReceiver, Expr.children, walkExprs, hv]
  | _ => simp [Expr.after, Expr.walk, Expr.children, walkExprs_run, hv]

end Walk

/-! ### Free parameters -/

/-- What a walk in search of free parameters does: the bound ones are as before, and those that are
found are added to the ones that were there. -/
structure FindsFree (found : Param → Prop) (s s' : ParamScope) : Prop where
  bound : s'.bound = s.bound
  free : ∀ p, p ∈ s'.free ↔ p ∈ s.free ∨ p ∉ s.bound ∧ found p

theorem FindsFree.refl {found : Param → Prop} (h : ∀ p, ¬ found p) (s : ParamScope) :
    FindsFree found s s :=
  ⟨rfl, fun p => by simp [h]⟩

theorem foldl_findsFree {es : List Expr}
    (h : ∀ e ∈ es, ∀ s, FindsFree (FreeIn · e) s (e.after freeParamVisitor s)) (s : ParamScope) :
    FindsFree (fun p => ∃ e ∈ es, FreeIn p e) s
      (es.foldl (fun s e => e.after freeParamVisitor s) s) := by
  induction es generalizing s with
  | nil => exact .refl (by simp) s
  | cons e es ih =>
    have h₁ := h e List.mem_cons_self s
    have h₂ := ih (fun e' h' => h e' (List.mem_cons_of_mem _ h')) (e.after freeParamVisitor s)
    refine ⟨h₂.bound.trans h₁.bound, fun p => ?_⟩
    rw [List.foldl_cons, h₂.free, h₁.free, h₁.bound]
    simp only [List.mem_cons, exists_eq_or_imp, or_assoc, and_or_left]

/-- A lambda binds its parameters in its body and nowhere else. -/
theorem after_lambda (ps : List Param) (body : Expr) (s : ParamScope) :
    (Expr.lambda ps body).after freeParamVisitor s =
      let s' := body.after freeParamVisitor { s with bound := s.bound ++ ps }
      { s' with bound := s'.bound.take (s'.bound.length - ps.length) } :=
  rfl

theorem after_findsFree (e : Expr) (s : ParamScope) :
    FindsFree (FreeIn · e) s (e.after freeParamVisitor s) := by
  induction e using Expr.induction generalizing s with
  | step e ih =>
    by_cases he : e.Plain
    · rw [Expr.after_eq_children _ (fun _ => rfl) he]
      have h := foldl_findsFree ih s
      exact ⟨h.bound, fun p => by rw [h.free, freeIn_iff_children he]⟩
    cases e with
    | param q =>
      rw [show (Expr.param q).after freeParamVisitor s =
        if q ∈ s.bound ∨ q ∈ s.free then s else { s with free := s.free ++ [q] } from rfl]
      split_ifs with h
      · refine ⟨rfl, fun p => ⟨.inl, ?_⟩⟩
        rintro (hp | ⟨hp, hq⟩)
        · exact hp
        · rw [freeIn_param_iff] at hq
          exact (hq ▸ h).resolve_left hp
      · refine ⟨rfl, fun p => ?_⟩
        rw [freeIn_param_iff, List.mem_append, List.mem_singleton]
        constructor
        · rintro (hp | rfl)
          · exact .inl hp
          · exact .inr ⟨fun hp => h (.inl hp), rfl⟩
        · rintro (hp | ⟨-, rfl⟩)
          · exact .inl hp
          · exact .inr rfl
    | lambda ps body =>
      have h := ih body (by simp [Expr.children]) { s with bound := s.bound ++ ps }
      rw [after_lambda]
      refine ⟨by simp [h.bound], fun p => ?_⟩
      simp only [h.free, List.mem_append, not_or, freeIn_lambda_iff, and_assoc]
    | item r => exact .refl (not_freeIn_item · r) s
    | subQuery q => exact .refl (not_freeIn_subQuery · q) s
    | _ => exact absurd trivial he

/-- **Free parameters**: the analysis lists those that occur outside of the lambdas that bind
them. -/
theorem mem_freeParams_iff {p : Param} {e : Expr} : p ∈ e.freeParams ↔ FreeIn p e := by
  refine ((after_findsFree e ⟨[], []⟩).free p).trans ?_
  simp

/-! ### Sources -/

theorem foldl_mem_iff {id : SourceId} {es : List Expr}
    (h : ∀ e ∈ es, ∀ s, id ∈ e.after sourceVisitor s ↔ id ∈ s ∨ RefersTo id e)
    (s : List SourceId) :
    id ∈ es.foldl (fun s e => e.after sourceVisitor s) s ↔ id ∈ s ∨ ∃ e ∈ es, RefersTo id e := by
  induction es generalizing s with
  | nil => simp
  | cons e es ih =>
    rw [List.foldl_cons, ih (fun e' h' => h e' (List.mem_cons_of_mem _ h')),
      h e List.mem_cons_self]
    simp only [List.mem_cons, exists_eq_or_imp, or_assoc]

theorem mem_after_iff {id : SourceId} (e : Expr) (s : List SourceId) :
    id ∈ e.after sourceVisitor s ↔ id ∈ s ∨ RefersTo id e := by
  induction e using Expr.induction generalizing s with
  | step e ih =>
    by_cases he : e.Plain
    · rw [Expr.after_eq_children _ (fun _ => rfl) he, foldl_mem_iff ih,
        refersTo_iff_children (by rintro r rfl; exact he)]
    cases e with
    | item r =>
      rw [show (Expr.item r).after sourceVisitor s =
        if r.source ∈ s then s else s ++ [r.source] from rfl, refersTo_item_iff]
      split_ifs with h
      · refine ⟨.inl, ?_⟩
        rintro (hs | rfl)
        · exact hs
        · exact h
      · simp [eq_comm]
    | param p =>
      rw [show (Expr.param p).after sourceVisitor s = s from rfl, refersTo_iff_children (by simp)]
      simp [Expr.children]
    | subQuery q =>
      rw [show (Expr.subQuery q).after sourceVisitor s = s from rfl,
        refersTo_iff_children (by simp)]
      simp [Expr.children]
    | lambda ps body =>
      rw [show (Expr.lambda ps body).after sourceVisitor s = body.after sourceVisitor s from rfl,
        refersTo_iff_children (by simp), ih body (by simp [Expr.children])]
      simp [Expr.children]
    | _ => exact absurd trivial he

/-- **Sources**: the analysis lists those to which the expression refers. -/
theorem mem_sources_iff {id : SourceId} {e : Expr} : id ∈ e.sources ↔ RefersTo id e := by
  refine (mem_after_iff e []).trans ?_
  simp

end QueryFold
