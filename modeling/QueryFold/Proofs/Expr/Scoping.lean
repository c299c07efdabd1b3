import QueryFold.Proofs.Expr.Listing

/-!
# Laws of scope

How substitution and the two analyses of expressions fit together. What is put in for a parameter
has no free parameters itself, so it can neither be caught nor add anything to what is free: the
parameter leaves the list of free ones, another one may be replaced before or after it, and the
sources of what is put in are added exactly if there is a place for it (`substitution_scopes`).

The analysis of free parameters keeps a stack of those that are bound. At the end of a lambda it
takes away as many as the lambda has parameters, and the stack never holds less than that. To say
so, the walk is made once more with a visitor that notes the stack each time (`Visitor.noting`).
-/

namespace QueryFold

/-! ### Occurrences and sources -/

/-- Sources are those of the expression, and those of what is put in where there is a place for
it. -/
theorem refersTo_substituteParam_iff {id : SourceId} {p : Param} {e r : Expr} :
    RefersTo id (e.substituteParam p r) ↔ RefersTo id e ∨ FreeIn p e ∧ RefersTo id r := by
  induction e using Expr.induction with
  | step e ih =>
    by_cases plain : e.Plain
    · have parts : ∀ {e : Expr}, e.Plain → (RefersTo id e ↔ ∃ c ∈ e.children, RefersTo id c) :=
        fun plain => refersTo_iff_children (by rintro r rfl; exact plain)
      rw [Expr.substituteParam_plain plain, parts (Expr.plain_mapChildren plain _),
        Expr.children_mapChildren, parts plain, freeIn_iff_children plain]
      constructor
      · rintro ⟨_, mem, refers⟩
        obtain ⟨c, hc, rfl⟩ := List.mem_map.mp mem
        rcases (ih c hc).mp refers with refers | ⟨free, refers⟩
        · exact .inl ⟨c, hc, refers⟩
        · exact .inr ⟨⟨c, hc, free⟩, refers⟩
      · rintro (⟨c, hc, refers⟩ | ⟨⟨c, hc, free⟩, refers⟩)
        · exact ⟨_, List.mem_map_of_mem hc, (ih c hc).mpr (.inl refers)⟩
        · exact ⟨_, List.mem_map_of_mem hc, (ih c hc).mpr (.inr ⟨free, refers⟩)⟩
    have alone : ∀ q, ¬ RefersTo id (.param q) := by
      intro q refers
      rw [refersTo_iff_children (by simp)] at refers
      simp [Expr.children] at refers
    cases e with
    | param q =>
      rw [Expr.substituteParam_param, freeIn_param_iff]
      split_ifs with hq
      · simp [hq, alone]
      · simp [hq]
    | lambda ps body =>
      have inside : ∀ body, RefersTo id (.lambda ps body) ↔ RefersTo id body := by
        intro body
        rw [refersTo_iff_children (by simp)]
        simp [Expr.children]
      rw [Expr.substituteParam_lambda, freeIn_lambda_iff, inside]
      split_ifs with hp
      · simp [hp, inside]
      · rw [inside, ih body (by simp [Expr.children])]
        simp [hp]
    | item i =>
      rw [Expr.substituteParam_item]
      simp [not_freeIn_item]
    | subQuery q =>
      rw [Expr.substituteParam_subQuery]
      simp [not_freeIn_subQuery]
    | _ => exact absurd trivial plain

/-- A walk lists no free parameter twice. -/
theorem nodup_after {e : Expr} {s : ParamScope} (h : s.free.Nodup) :
    (e.after freeParamVisitor s).free.Nodup := by
  induction e using Expr.induction generalizing s with
  | step e ih =>
    by_cases plain : e.Plain
    · rw [Expr.after_eq_children _ (fun _ => rfl) plain]
      exact List.foldlRecOn (motive := fun (t : ParamScope) => t.free.Nodup) _ _ h
        fun t ht c hc => ih c hc ht
    cases e with
    | param q =>
      rw [show (Expr.param q).after freeParamVisitor s =
        if q ∈ s.bound ∨ q ∈ s.free then s else { s with free := s.free ++ [q] } from rfl]
      split_ifs with found
      · exact h
      · exact (List.perm_append_singleton q s.free).nodup_iff.mpr
          (List.nodup_cons.mpr ⟨(not_or.mp found).2, h⟩)
    | lambda ps body =>
      rw [after_lambda]
      exact ih body (by simp [Expr.children]) h
    | item _ | subQuery _ => exact h
    | _ => exact absurd trivial plain

theorem Expr.nodup_freeParams (e : Expr) : e.freeParams.Nodup :=
  nodup_after (e := e) (s := ⟨[], []⟩) List.nodup_nil

/-- Two parameters that are different may be replaced in any order. -/
theorem Expr.substituteParam_comm {p q : Param} (hpq : p ≠ q) {r s : Expr} (hr : r.Closed)
    (hs : s.Closed) (e : Expr) :
    (e.substituteParam p r).substituteParam q s = (e.substituteParam q s).substituteParam p r := by
  have closed : ∀ b ∈ [(p, r), (q, s)], b.2.Closed := by simp [hr, hs]
  have distinct : ([(p, r), (q, s)].map Prod.fst).Nodup := by simpa using hpq
  calc (e.substituteParam p r).substituteParam q s
      = e.substituteAll [(p, r), (q, s)] := rfl
    _ = e.instantiate fun x => [(p, r), (q, s)].lookup x := substituteAll_eq_instantiate closed e
    _ = e.substituteAll [(q, s), (p, r)] :=
        (substituteAll_eq_of_perm closed distinct (.swap ..) e).symm
    _ = (e.substituteParam q s).substituteParam p r := rfl

/-! ### The stack of bound parameters -/

/-- A computation on a state to which something is added that it leaves alone. -/
def besides {σ τ α : Type} (x : StateM σ α) : StateM (σ × τ) α := fun (s, t) =>
  let (a, s') := (x.run s).run
  (a, (s', t))

/-- The visitor that does what `v` does, and notes each lambda that it leaves with the state in
which it leaves it. -/
def Visitor.noting {σ α : Type} (v : Visitor σ α) : Visitor (σ × List (Lambda × σ)) α where
  param p := besides (v.param p)
  item r := besides (v.item r)
  enter l := besides (v.enter l)
  leave l := do
    modify fun (s, left) => (s, left ++ [(l, s)])
    besides (v.leave l)
  query q := besides (v.query q)
  other e := besides (v.other e)

/-- At the end of the lambda the stack holds enough to take the parameters of the lambda away. -/
def EndsInScope (end_ : Lambda × ParamScope) : Prop := end_.1.params.length ≤ end_.2.bound.length

/-- **The stack never underflows**: the walk that takes notes finds what the walk without them
finds, and each lambda that it has left then ended in its scope. -/
theorem after_noting {e : Expr} {s : ParamScope} {left : List (Lambda × ParamScope)}
    (before : ∀ x ∈ left, EndsInScope x) :
    (e.after freeParamVisitor.noting (s, left)).1 = e.after freeParamVisitor s ∧
      ∀ x ∈ (e.after freeParamVisitor.noting (s, left)).2, EndsInScope x := by
  induction e using Expr.induction generalizing s left with
  | step e ih =>
    by_cases plain : e.Plain
    · rw [Expr.after_eq_children _ (fun _ => rfl) plain,
        Expr.after_eq_children _ (fun _ => rfl) plain]
      refine List.foldl_rel (r := fun (t : ParamScope × List (Lambda × ParamScope))
        (t' : ParamScope) => t.1 = t' ∧ ∀ x ∈ t.2, EndsInScope x) ⟨rfl, before⟩ ?_
      rintro c hc ⟨t, left⟩ _ ⟨rfl, noted⟩
      exact ih c hc noted
    cases e with
    | lambda ps body =>
      obtain ⟨same, noted⟩ := ih body (by simp [Expr.children])
        (s := { s with bound := s.bound ++ ps }) before
      have bound := (after_findsFree body { s with bound := s.bound ++ ps }).bound
      generalize inside : body.after freeParamVisitor.noting
        ({ s with bound := s.bound ++ ps }, left) = t at same noted
      have ends : (Expr.lambda ps body).after freeParamVisitor.noting (s, left) =
          ({ t.1 with bound := t.1.bound.take (t.1.bound.length - ps.length) },
            t.2 ++ [(⟨ps, body⟩, t.1)]) := by
        rw [← inside]
        rfl
      rw [ends, after_lambda, ← same]
      refine ⟨rfl, fun x hx => ?_⟩
      rcases List.mem_append.mp hx with hx | hx
      · exact noted x hx
      · obtain rfl := List.mem_singleton.mp hx
        rw [EndsInScope, same, bound, List.length_append]
        exact Nat.le_add_left _ _
    | param _ | item _ | subQuery _ => exact ⟨rfl, before⟩
    | _ => exact absurd trivial plain

/-! ### The laws -/

/-- **Laws of scope.** Let what is put in have no free parameters. Then the parameter that is
replaced leaves the list of free parameters, which keeps its order and names nothing twice; two
different parameters may be replaced in any order; and the sources of the result are those of the
expression, together with those of what is put in if the parameter was free. A parameter that is
not free is not replaced, whatever is put in. The list of free parameters is that of the parameters
with an occurrence outside of the lambdas that bind them, and each time a lambda ends, the stack
of bound parameters holds as many as are taken away. -/
theorem substitution_scopes (e : Expr) :
    (∀ p r, r.freeParams = [] →
      (e.substituteParam p r).freeParams = e.freeParams.filter (· ≠ p) ∧
        (e.substituteParam p r).freeParams.Nodup) ∧
    (∀ p r, p ∉ e.freeParams → e.substituteParam p r = e) ∧
    (∀ p q r s, p ≠ q → r.freeParams = [] → s.freeParams = [] →
      (e.substituteParam p r).substituteParam q s = (e.substituteParam q s).substituteParam p r) ∧
    (∀ p r, r.freeParams = [] → ∀ id, id ∈ (e.substituteParam p r).sources ↔
      id ∈ e.sources ∨ p ∈ e.freeParams ∧ id ∈ r.sources) ∧
    (e.freeParams.Nodup ∧ ∀ p, p ∈ e.freeParams ↔ FreeIn p e) ∧
    (e.after freeParamVisitor.noting (⟨[], []⟩, [])).1.free = e.freeParams ∧
    ∀ x ∈ (e.after freeParamVisitor.noting (⟨[], []⟩, [])).2,
      x.1.params.length ≤ x.2.bound.length := by
  have closed : ∀ {r : Expr}, r.freeParams = [] → r.Closed := Expr.freeParams_eq_nil_iff.mp
  have noted : ∀ x ∈ ([] : List (Lambda × ParamScope)), EndsInScope x := nofun
  obtain ⟨same, ends⟩ := after_noting (e := e) (s := ⟨[], []⟩) noted
  refine ⟨fun p r hr => ?_, fun p r hp => ?_, fun p q r s hpq hr hs => ?_, fun p r _ id => ?_,
    ⟨e.nodup_freeParams, fun p => mem_freeParams_iff⟩, congrArg ParamScope.free same, ends⟩
  · exact ⟨Expr.freeParams_substituteParam (closed hr) p e, Expr.nodup_freeParams _⟩
  · exact Expr.substituteParam_of_not_freeIn r fun hf => hp (mem_freeParams_iff.mpr hf)
  · exact Expr.substituteParam_comm hpq (closed hr) (closed hs) e
  · rw [mem_sources_iff, refersTo_substituteParam_iff, mem_sources_iff, mem_freeParams_iff,
      mem_sources_iff]

namespace Sample

/-- A cook. -/
def anyone : Param := ⟨"c", Ty.plain "Cook"⟩

/-- Another cook. -/
def someone : Param := ⟨"d", Ty.plain "Cook"⟩

/-- The one who won. -/
def winner : Expr := .item ⟨⟨1⟩, "k", Ty.plain "Cook"⟩

/-- Whether two cooks are the same, in a lambda that names the first of them twice. -/
def rivals : Expr :=
  .lambda [anyone, anyone] (.operate .equal (.param anyone) (.param someone))

/-- A call with a cook and that lambda. -/
def contest : Expr := .call none "Contest" [.param anyone, rivals] Ty.bool

end Sample

/-- Only the first of two occurrences is free. -/
theorem contest_substitution_scopes :
    (Sample.contest.substituteParam Sample.anyone Sample.winner).freeParams = [Sample.someone] ∧
      (Sample.contest.substituteParam Sample.anyone Sample.winner).substituteParam
          Sample.someone Sample.winner =
        (Sample.contest.substituteParam Sample.someone Sample.winner).substituteParam
          Sample.anyone Sample.winner ∧
      Sample.rivals.substituteParam Sample.anyone Sample.winner = Sample.rivals ∧
      ⟨1⟩ ∈ (Sample.contest.substituteParam Sample.anyone Sample.winner).sources := by
  have closed : Sample.winner.freeParams = [] := by decide
  obtain ⟨free, -, swap, sources, -⟩ := substitution_scopes Sample.contest
  refine ⟨(free _ _ closed).1.trans (by decide), swap _ _ _ _ (by decide) closed closed,
    (substitution_scopes Sample.rivals).2.1 _ _ (by decide), (sources _ _ closed _).mpr ?_⟩
  exact .inr ⟨by decide, by decide⟩

end QueryFold
