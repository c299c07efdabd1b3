import Mathlib.Data.List.Forall2
import QueryFold.Proofs.Query.Traversal

/-!
# Rewriting expressions

A query is rewritten when other expressions take the places of its own and nothing else moves. What
validation asks of a query apart from its references can be read off its clauses when they are
blank, so a rewriting keeps it; and each expression is checked against what is visible at its place,
which is the same before and after. So a rewriting that adds no references keeps a query valid
(`Query.Rewritten.validateWithin`).

This holds at every level of nesting, because the levels of the rewritten query are the levels of
the query, rewritten (`Query.Rewritten.level`).
-/

namespace QueryFold

/-! ### What can be read off a blank query -/

theorem introduced_map_blank (cs : List Clause) :
    introduced (cs.map Clause.blank) = introduced cs := by
  simp [introduced, List.filterMap_map]

namespace Query

@[simp] theorem source_blank (q : Query) : q.blank.source = q.source := by
  cases q
  rw [blank]

@[simp] theorem operators_blank (q : Query) : q.blank.operators = q.operators.map ResultOp.blank := by
  cases q
  rw [blank]

@[simp] theorem visible_blank (outer : List SourceId) (q : Query) (i : Nat) :
    q.blank.visible outer i = q.visible outer i := by
  simp [visible, ← List.map_take, introduced_map_blank]

end Query

/-! ### Rewriting, part by part -/

section

variable {R : Expr → Expr → Prop} {α β : Type} {expressions : α → List Expr} {rest : α → β}

theorem forall₂_of_append {es es' fs fs' : List Expr} (h : List.Forall₂ R (es ++ fs) (es' ++ fs'))
    (lengths : es.length = es'.length) : List.Forall₂ R es es' ∧ List.Forall₂ R fs fs' := by
  have front := List.forall₂_take_append _ _ _ h
  have back := List.forall₂_drop_append _ _ _ h
  rw [← lengths, List.take_left] at front
  rw [← lengths, List.drop_left] at back
  exact ⟨front, back⟩

variable (R) in
/-- What is left of `x'` without its expressions is what is left of `x`, and the expressions of `x'`
are related to those of `x` one by one. -/
structure Rewritten (expressions : α → List Expr) (rest : α → β) (x x' : α) : Prop where
  kept : rest x = rest x'
  each : List.Forall₂ R (expressions x) (expressions x')

namespace Rewritten

theorem symm {x x' : α} (h : Rewritten R expressions rest x x') :
    Rewritten (fun e e' => R e' e) expressions rest x' x :=
  ⟨h.kept.symm, h.each.flip⟩

theorem flatMap {xs xs' : List α} (separates : ∀ x ∈ xs, Separates expressions rest x)
    (h : Rewritten R (List.flatMap expressions) (List.map rest) xs xs') :
    List.Forall₂ (Rewritten R expressions rest) xs xs' := by
  obtain ⟨kept, each⟩ := h
  induction xs generalizing xs' with
  | nil =>
    rw [List.map_eq_nil_iff.mp kept.symm]
    exact .nil
  | cons x xs ih =>
    cases xs' with
    | nil => exact absurd kept (List.cons_ne_nil _ _)
    | cons x' xs' =>
      rw [List.map_cons, List.map_cons, List.cons.injEq] at kept
      rw [List.flatMap_cons, List.flatMap_cons] at each
      obtain ⟨first, others⟩ :=
        forall₂_of_append each (separates x List.mem_cons_self x' kept.1).1
      exact .cons ⟨kept.1, first⟩
        (ih (fun y hy => separates y (List.mem_cons_of_mem _ hy)) kept.2 others)

theorem option {o o' : Option α} {x' : α}
    (h : Rewritten R (fun o => o.toList.flatMap expressions) (Option.map rest) o o')
    (hx : o' = some x') : ∃ x, o = some x ∧ Rewritten R expressions rest x x' := by
  subst hx
  obtain ⟨kept, each⟩ := h
  cases o with
  | none => simp at kept
  | some x => exact ⟨x, rfl, by simpa using kept, by simpa using each⟩

end Rewritten

variable (R) in
/-- The clause `c'` is the clause `c` with its expressions rewritten, those of a nested query
included. -/
abbrev Clause.Rewritten (c c' : Clause) : Prop :=
  QueryFold.Rewritten R Clause.allExpressions Clause.blank c c'

variable (R) in
/-- The query `q'` is the query `q` with its expressions rewritten. -/
abbrev Query.Rewritten (q q' : Query) : Prop :=
  QueryFold.Rewritten R Query.expressions Query.blank q q'

theorem Clause.Rewritten.split {c c' : Clause} (h : c.Rewritten R c') :
    QueryFold.Rewritten R (fun q? => q?.toList.flatMap Query.expressions) (Option.map Query.blank)
        c.query? c'.query? ∧
      List.Forall₂ R c.expressions c'.expressions := by
  obtain ⟨kept, each⟩ := h
  have nested : c.query?.map Query.blank = c'.query?.map Query.blank := by
    rw [← query?_blank, kept, query?_blank]
  rw [allExpressions_eq, allExpressions_eq] at each
  obtain ⟨inner, own⟩ := forall₂_of_append each (Separates.option Query.separates _ _ nested).1
  exact ⟨⟨nested, inner⟩, own⟩

namespace Query.Rewritten

variable {q q' : Query} {outer : List SourceId}

theorem visible (h : q.Rewritten R q') (i : Nat) : q'.visible outer i = q.visible outer i := by
  rw [← visible_blank, ← h.kept, visible_blank]

/-- A rewriting acts on the parts of a query. -/
theorem parts (h : q.Rewritten R q') :
    R q.generator q'.generator ∧ List.Forall₂ (Clause.Rewritten R) q.body q'.body ∧
      (∀ t', q'.terminal = some t' → ∃ t, q.terminal = some t ∧
        QueryFold.Rewritten R Terminal.expressions Terminal.blank t t') ∧
      List.Forall₂ (QueryFold.Rewritten R ResultOp.expressions ResultOp.blank)
        q.operators q'.operators := by
  obtain ⟨kept, each⟩ := h
  have bodies : q.body.map Clause.blank = q'.body.map Clause.blank := by
    rw [← body_blank, kept, body_blank]
  have terminals : q.terminal.map Terminal.blank = q'.terminal.map Terminal.blank := by
    rw [← terminal_blank, kept, terminal_blank]
  have operators : q.operators.map ResultOp.blank = q'.operators.map ResultOp.blank := by
    rw [← operators_blank, kept, operators_blank]
  have clauses : ∀ c ∈ q.body, Separates Clause.allExpressions Clause.blank c :=
    fun c _ => c.separates fun q _ => q.separates
  rw [expressions_eq, expressions_eq, List.append_assoc, List.append_assoc] at each
  cases each with
  | cons generator each =>
    obtain ⟨ofBody, each⟩ := forall₂_of_append each (Separates.flatMap clauses _ bodies).1
    obtain ⟨ofTerminal, ofOperators⟩ :=
      forall₂_of_append each (Separates.option Terminal.separates _ _ terminals).1
    exact ⟨generator, QueryFold.Rewritten.flatMap clauses ⟨bodies, ofBody⟩,
      fun t' ht => QueryFold.Rewritten.option ⟨terminals, ofTerminal⟩ ht,
      QueryFold.Rewritten.flatMap (fun op _ => op.separates) ⟨operators, ofOperators⟩⟩

theorem clause (h : q.Rewritten R q') {i : Nat} {c' : Clause} (hc : q'.body[i]? = some c') :
    ∃ c, q.body[i]? = some c ∧ c.Rewritten R c' := by
  obtain ⟨lt, rfl⟩ := List.getElem?_eq_some_iff.mp hc
  have bodies := h.parts.2.1
  have lt' : i < q.body.length := bodies.length_eq ▸ lt
  exact ⟨q.body[i], List.getElem?_eq_getElem lt', bodies.get lt' lt⟩

/-- The nested query of a clause is rewritten, and it keeps its place. -/
theorem nested (h : q.Rewritten R q') {i : Nat} {c' : Clause} {v' : Query}
    (hc : q'.body[i]? = some c') (hv : c'.query? = some v') :
    ∃ c v, q.body[i]? = some c ∧ c.query? = some v ∧ v.Rewritten R v' := by
  obtain ⟨c, hc, rewritten⟩ := h.clause hc
  obtain ⟨v, hv, inner⟩ := rewritten.split.1.option hv
  exact ⟨c, v, hc, hv, inner⟩

/-! ### What validation checks -/

/-- A rewriting keeps the query standing as it should. -/
theorem sound (h : q.Rewritten R q') (sound : q.Sound outer) : q'.Sound outer := by
  induction sound generalizing q' with
  | @intro outer q fresh stands distinct projected _ ended ih =>
    have source : q'.source = q.source := by rw [← source_blank, ← h.kept, source_blank]
    refine .intro (source ▸ fresh) (fun i c' hc => ?_) (fun i c' s hc hs => ?_) (fun c' hc => ?_)
      (fun i c' v' hc hv => ?_) ?_
    · obtain ⟨c, hc, same, -⟩ := h.clause hc
      exact Clause.standsAt_blank.mp (same ▸ Clause.standsAt_blank.mpr (stands i c hc))
    · obtain ⟨c, hc, same, -⟩ := h.clause hc
      rw [h.visible]
      rw [← Clause.source?_blank, ← same, Clause.source?_blank] at hs
      exact distinct i c s hc hs
    · obtain ⟨i, hi⟩ := List.getElem?_of_mem hc
      obtain ⟨c, hc, same, -⟩ := h.clause hi
      exact Clause.projected_blank.mp
        (same ▸ Clause.projected_blank.mpr (projected c (List.mem_of_getElem? hc)))
    · obtain ⟨c, v, hc, hv, inner⟩ := h.nested hc hv
      rw [h.visible]
      exact ih i c v hc hv inner
    · obtain ⟨t, ht, link⟩ := ended
      have terminals : q'.terminal.map Terminal.blank = some t.blank := by
        rw [← terminal_blank, ← h.kept, terminal_blank, ht, Option.map_some]
      obtain ⟨t', ht', same⟩ := Option.map_eq_some_iff.mp terminals
      refine ⟨t', ht', ?_⟩
      rw [← t'.previous_blank, same, t.previous_blank, link, h.parts.2.1.length_eq]

/-- A rewriting that adds no references keeps them within what is visible. -/
theorem grounded (h : q.Rewritten R q') (narrow : ∀ e e', R e e' → e'.sources ⊆ e.sources)
    (grounded : q.Grounded outer) : q'.Grounded outer := by
  have refers : ∀ {ids e e'}, R e e' → RefersWithin ids e → RefersWithin ids e' := by
    intro ids e e' related within id mem
    exact within id (mem_sources_iff.mp (narrow e e' related (mem_sources_iff.mpr mem)))
  have each : ∀ {ids es es'}, List.Forall₂ R es es' → (∀ e ∈ es, RefersWithin ids e) →
      ∀ e ∈ es', RefersWithin ids e := by
    intro ids es es' related within e' mem
    obtain ⟨i, hi, rfl⟩ := List.getElem_of_mem mem
    have hi' : i < es.length := related.length_eq ▸ hi
    exact refers (related.get hi' hi) (within _ (List.getElem_mem hi'))
  induction grounded generalizing q' with
  | @intro outer q generator clauses _ terminal operators ih =>
    obtain ⟨ofGenerator, bodies, ofTerminal, ofOperators⟩ := h.parts
    refine .intro (refers ofGenerator generator) (fun i c' hc => ?_) (fun i c' v' hc hv => ?_)
      (fun t' ht => ?_) (fun op' hop => ?_)
    · obtain ⟨c, hc, rewritten⟩ := h.clause hc
      rw [h.visible]
      exact each rewritten.split.2 (clauses i c hc)
    · obtain ⟨c, v, hc, hv, inner⟩ := h.nested hc hv
      rw [h.visible]
      exact ih i c v hc hv inner
    · obtain ⟨t, ht, rewritten⟩ := ofTerminal t' ht
      rw [h.visible, ← bodies.length_eq]
      exact each rewritten.each (terminal t ht)
    · obtain ⟨i, hi, rfl⟩ := List.getElem_of_mem hop
      have hi' : i < q.operators.length := ofOperators.length_eq ▸ hi
      rw [h.visible, ← bodies.length_eq]
      exact each (ofOperators.get hi' hi).each (operators _ (List.getElem_mem hi'))

theorem validateWithin (h : q.Rewritten R q') (narrow : ∀ e e', R e e' → e'.sources ⊆ e.sources)
    (valid : q.validateWithin outer = .ok ()) : q'.validateWithin outer = .ok () := by
  obtain ⟨sound, grounded⟩ := validateWithin_eq_ok_iff.mp valid
  exact validateWithin_eq_ok_iff.mpr ⟨h.sound sound, h.grounded narrow grounded⟩

end Query.Rewritten

end

/-! ### Levels of nesting -/

namespace Query

/-- The query `v` is a level of a query around which the sources `outer` are visible: that query
itself, or a nested query at any depth. Around `v` the sources `scope` are visible. -/
inductive Level (scope : List SourceId) (v : Query) : (outer : List SourceId) → Query → Prop where
  /-- The query itself. -/
  | self : Level scope v scope v
  /-- A level of the nested query of a from clause. -/
  | nested {outer : List SourceId} {q q' : Query} {i : Nat} {c : Clause} (hc : q.body[i]? = some c)
      (hq : c.query? = some q') (h : Level scope v (q.visible outer (i + 1)) q') :
      Level scope v outer q

variable {scope outer : List SourceId} {v q q' : Query} {R : Expr → Expr → Prop}

/-- Validation reaches every level. -/
theorem Level.validateWithin (h : Level scope v outer q) (valid : q.validateWithin outer = .ok ()) :
    v.validateWithin scope = .ok () := by
  induction h with
  | self => exact valid
  | nested hc hq _ ih =>
    obtain ⟨sound, grounded⟩ := validateWithin_eq_ok_iff.mp valid
    exact ih (validateWithin_eq_ok_iff.mpr ⟨sound.nested hc hq, grounded.nested hc hq⟩)

/-- The levels of a rewritten query are those of the query, rewritten where they are. -/
theorem Rewritten.level {v' : Query} (h : q.Rewritten R q') (level : Level scope v' outer q') :
    ∃ v, Level scope v outer q ∧ v.Rewritten R v' := by
  induction level generalizing q with
  | self => exact ⟨q, .self, h⟩
  | nested hc hq _ ih =>
    obtain ⟨c, w, hc, hq, inner⟩ := h.nested hc hq
    obtain ⟨v, level, rewritten⟩ := ih inner
    rw [h.visible] at level
    exact ⟨v, .nested hc hq level, rewritten⟩

/-! ### Rewriting by a function -/

theorem rewritten_replace (f : Expr → Expr) (q : Query) :
    q.Rewritten (fun e e' => f e = e') (q.replace f) where
  kept := (q.blank_replace f).symm
  each := by
    rw [expressions_replace, List.forall₂_map_right_iff]
    exact List.forall₂_same.mpr fun _ _ => rfl

/-- What is rewritten by a function is replaced by it. -/
theorem Rewritten.eq_replace {f : Expr → Expr} (h : q.Rewritten (fun e e' => f e = e') q') :
    q' = q.replace f := by
  have each : List.Forall₂ (· = ·) (q.expressions.map f) q'.expressions :=
    List.forall₂_map_left_iff.mpr h.each
  rw [List.forall₂_eq_eq_eq] at each
  exact eq_of_expressions_of_blank (by rw [expressions_replace, each])
    (by rw [blank_replace, h.kept])

theorem level_replace_iff {f : Expr → Expr} {v' : Query} :
    Level scope v' outer (q.replace f) ↔ ∃ v, Level scope v outer q ∧ v' = v.replace f := by
  constructor
  · intro level
    obtain ⟨v, level, rewritten⟩ := (rewritten_replace f q).level level
    exact ⟨v, level, rewritten.eq_replace⟩
  · rintro ⟨v, level, rfl⟩
    have back : (q.replace f).Rewritten (fun e e' => f e' = e) q := (rewritten_replace f q).symm
    obtain ⟨v', level, rewritten⟩ := back.level level
    exact Rewritten.eq_replace rewritten.symm ▸ level

theorem forall₂_mapM {σ : Type} (f : Expr → StateM σ Expr) (es : List Expr) (s : σ) :
    List.Forall₂ (fun e e' => ∃ s, ((f e).run s).run.1 = e') es ((es.mapM f).run s).run.1 := by
  induction es generalizing s with
  | nil => exact .nil
  | cons e es ih =>
    rw [List.mapM_cons]
    exact .cons ⟨s, rfl⟩ (ih _)

/-- A function that keeps a state rewrites each expression by what it is in one of its states. -/
theorem rewritten_replaceM {σ : Type} (f : Expr → StateM σ Expr) (q : Query) (s : σ) :
    q.Rewritten (fun e e' => ∃ s, ((f e).run s).run.1 = e') ((q.replaceM f).run s).run.1 := by
  have run := congrArg (fun x : StateM σ (List Expr × Query) => (x.run s).run.1) (q.replaceM_eq f)
  constructor
  · exact (congrArg Prod.snd run).symm
  · have expressions : ((q.replaceM f).run s).run.1.expressions =
        ((q.expressions.mapM f).run s).run.1 := congrArg Prod.fst run
    exact expressions ▸ forall₂_mapM f q.expressions s

/-- **Rewriting keeps a query valid.** When each expression of a valid query is replaced by its
image under a function that adds no references, the query is still valid, and so is every level of
it among the sources around it; these levels are the levels of the query before, with their
expressions replaced. This is so as well when the function keeps a state. -/
theorem validate_replaced (valid : q.validate = .ok ()) :
    (∀ f : Expr → Expr, (∀ e, (f e).sources ⊆ e.sources) →
      (q.replace f).validate = .ok () ∧
        ∀ scope v', Level scope v' [] (q.replace f) →
          v'.validateWithin scope = .ok () ∧ ∃ v, Level scope v [] q ∧ v' = v.replace f) ∧
    ∀ (σ : Type) (f : Expr → StateM σ Expr) (s : σ),
      (∀ e s, ((f e).run s).run.1.sources ⊆ e.sources) →
        ((q.replaceM f).run s).run.1.validate = .ok () ∧
          ∀ scope v', Level scope v' [] ((q.replaceM f).run s).run.1 →
            v'.validateWithin scope = .ok () := by
  constructor
  · intro f narrow
    have still : (q.replace f).validate = .ok () :=
      (rewritten_replace f q).validateWithin (by rintro e _ rfl; exact narrow e) valid
    exact ⟨still, fun scope v' level => ⟨level.validateWithin still, level_replace_iff.mp level⟩⟩
  · intro σ f s narrow
    have still : ((q.replaceM f).run s).run.1.validate = .ok () :=
      (rewritten_replaceM f q s).validateWithin (by rintro e _ ⟨s, rfl⟩; exact narrow e s) valid
    exact ⟨still, fun scope v' level => level.validateWithin still⟩

end Query

/-- Every expression of a query is converted, those of the nested query too. -/
theorem brigade_validate_replaced :
    Sample.brigade.validate = .ok () ∧
      (∀ e : Expr, (Expr.convert e Ty.object).sources ⊆ e.sources) ∧
      (Sample.crew.replace fun e => .convert e Ty.object).validateWithin
        [Sample.station.id, Sample.member.id] = .ok () := by
  have valid : Sample.brigade.validate = .ok () := by decide
  have narrow : ∀ e : Expr, (Expr.convert e Ty.object).sources ⊆ e.sources :=
    fun e => (rfl : (Expr.convert e Ty.object).sources = e.sources) ▸ List.Subset.refl _
  have level : Query.Level [Sample.station.id, Sample.member.id] Sample.crew [] Sample.brigade :=
    .nested (i := 0) rfl rfl .self
  refine ⟨valid, narrow, ?_⟩
  exact (((Query.validate_replaced valid).1 _ narrow).2 _ _
    (Query.level_replace_iff.mpr ⟨_, level, rfl⟩)).1

end QueryFold
