import QueryFold.Proofs.Query.WellFormed

/-!
# What sources are made from

A source gets its items from a sequence, a value or a nested query. It should depend only on
what is there before it: the sources of the clauses before and of the enclosing queries, and
inside a nested query that query's own sources. `Query.Founded` says so of all sources of a
query and of its nested queries.

Validation does not ensure this. It makes the source of a clause visible before it looks into the
clause, so that a clause may be made from its own source; only the main from clause is checked
first. That is all that can go wrong: a valid query is founded exactly if no source in it is made
from itself (`founded_iff_not_circular`).

As everywhere in validation, a query that is written as a value is a leaf of its expression.
-/

namespace QueryFold

/-- The sequence or the value from which a clause makes its source. -/
def Clause.generator? : Clause → Option Expr
  | .fromExpr _ _ generator _ _ => some generator
  | .define _ value _ => some value
  | _ => none

theorem Clause.generator?_mem {c : Clause} {e : Expr} (h : c.generator? = some e) :
    e ∈ c.expressions := by
  cases c <;> simp_all [generator?, expressions]

namespace Query

/-! ### Expressions of one query -/

/-- The expressions of a query, without those of the nested queries of its from clauses. -/
def ownExpressions (q : Query) : List Expr :=
  q.generator :: (q.body.flatMap Clause.expressions ++
    (q.terminal.toList.flatMap Terminal.expressions ++ q.operators.flatMap ResultOp.expressions))

theorem mem_ownExpressions_iff {q : Query} {e : Expr} :
    e ∈ q.ownExpressions ↔ e = q.generator ∨ (∃ c ∈ q.body, e ∈ c.expressions) ∨
      (∃ t, q.terminal = some t ∧ e ∈ t.expressions) ∨ ∃ op ∈ q.operators, e ∈ op.expressions := by
  simp [ownExpressions]

/-- The expressions of a grounded query refer to its sources and to those around it. -/
theorem Grounded.refersWithin_own {outer : List SourceId} {q : Query} (h : q.Grounded outer) :
    ∀ e ∈ q.ownExpressions, RefersWithin (outer ++ q.sourceIds) e := by
  intro e he
  cases h with
  | intro generator clauses _ terminal operators =>
  rcases mem_ownExpressions_iff.mp he with rfl | ⟨c, hc, he⟩ | ⟨t, ht, he⟩ | ⟨op, hop, he⟩
  · exact generator.subset (List.subset_append_left ..)
  · obtain ⟨i, hi⟩ := List.getElem?_of_mem hc
    exact (clauses i c hi e he).subset (visible_subset_sourceIds ..)
  · exact (terminal t ht e he).subset (visible_subset_sourceIds ..)
  · exact (operators op hop e he).subset (visible_subset_sourceIds ..)

/-! ### Dependence on sources -/

/-- An expression of the query, or of a query nested in its from clauses, refers to the source
`id`. -/
inductive Mentions (id : SourceId) : Query → Prop where
  /-- An expression of its own. -/
  | own {q : Query} {e : Expr} (mem : e ∈ q.ownExpressions) (refers : RefersTo id e) : Mentions id q
  /-- One of a nested query. -/
  | nested {q q' : Query} {c : Clause} (mem : c ∈ q.body) (iterates : c.query? = some q')
      (h : Mentions id q') : Mentions id q

end Query

/-- What the clause makes its source from refers to the source `id`. -/
inductive Clause.DependsOn (id : SourceId) (c : Clause) : Prop where
  /-- A sequence or a value. -/
  | generator {e : Expr} (made : c.generator? = some e) (refers : RefersTo id e) : DependsOn id c
  /-- A nested query. -/
  | query {q : Query} (iterates : c.query? = some q) (mentions : q.Mentions id) : DependsOn id c

namespace Query

/-- A source of the query, or of a query nested in its from clauses, is made from itself. -/
inductive Circular : Query → Prop where
  /-- The source of a clause. -/
  | own {q : Query} {c : Clause} {s : Source} (mem : c ∈ q.body) (introduces : c.source? = some s)
      (depends : c.DependsOn s.id) : Circular q
  /-- One of a nested query. -/
  | nested {q q' : Query} {c : Clause} (mem : c ∈ q.body) (iterates : c.query? = some q')
      (h : Circular q') : Circular q

/-- Each source of the query is made from what is there before it, when the sources `outer` are
there before the query. -/
inductive Founded : List SourceId → Query → Prop where
  /-- The conditions on the clauses, and on the nested queries of from clauses. -/
  | intro {outer : List SourceId} {q : Query}
      -- Sequences and values are made from the sources of the clauses before.
      (generators : ∀ (i : Nat) (c : Clause) (e : Expr), q.body[i]? = some c →
        c.generator? = some e → RefersWithin (q.visible outer i) e)
      -- So are nested queries, but for references to their own sources,
      (queries : ∀ (i : Nat) (c : Clause) (q' : Query), q.body[i]? = some c →
        c.query? = some q' →
          ∀ e ∈ q'.ownExpressions, RefersWithin (q.visible outer i ++ q'.sourceIds) e)
      -- which are made in the same way.
      (nested : ∀ (i : Nat) (c : Clause) (q' : Query), q.body[i]? = some c →
        c.query? = some q' → Founded (q.visible outer i) q') : Founded outer q

variable {outer outer' : List SourceId} {q : Query} {id : SourceId}

/-! ### Founded queries are not circular -/

/-- A founded query does not mention a source that is around it but hidden from it. -/
theorem Founded.not_mentions (h : q.Founded outer')
    (own : ∀ e ∈ q.ownExpressions, RefersWithin (outer' ++ q.sourceIds) e) (sound : q.Sound outer)
    (around : id ∈ outer) (hidden : id ∉ outer') : ¬ q.Mentions id := by
  intro hm
  induction h generalizing outer with
  | @intro outer' q _ queries _ ih =>
    have foreign : id ∉ outer' ++ q.sourceIds := by
      rw [List.mem_append, not_or]
      exact ⟨hidden, fun hid => sound.disjoint around hid⟩
    cases hm with
    | own he refers => exact foreign (own _ he id refers)
    | nested hc hq hm =>
      obtain ⟨i, hi⟩ := List.getElem?_of_mem hc
      exact ih i _ _ hi hq (queries i _ _ hi hq) (sound.nested hi hq)
        (subset_visible outer q (i + 1) around)
        (fun hid => foreign (visible_subset_sourceIds _ _ _ hid)) hm

theorem Founded.not_circular (h : q.Founded outer') (sound : q.Sound outer)
    (sub : outer' ⊆ outer) : ¬ q.Circular := by
  intro hc
  induction hc generalizing outer outer' with
  | @own q c s mem introduces depends =>
    obtain ⟨i, hi⟩ := List.getElem?_of_mem mem
    obtain ⟨generators, queries, nested⟩ := h
    have hidden : s.id ∉ q.visible outer' i := fun hid =>
      sound.id_not_mem_visible hi introduces (visible_subset sub _ _ hid)
    cases depends with
    | generator made refers => exact hidden (generators i c _ hi made _ refers)
    | query iterates mentions =>
      have around : s.id ∈ q.visible outer (i + 1) := by
        simp [visible_succ outer hi, introduced_of_source? introduces]
      exact (nested i c _ hi iterates).not_mentions (queries i c _ hi iterates)
        (sound.nested hi iterates) around hidden mentions
  | @nested q q' c mem iterates _ ih =>
    obtain ⟨i, hi⟩ := List.getElem?_of_mem mem
    obtain ⟨_, _, nested⟩ := h
    refine ih (nested i c q' hi iterates) (sound.nested hi iterates) ?_
    rw [visible_succ outer hi]
    exact List.Subset.trans (visible_subset sub _ _) (List.subset_append_left ..)

/-! ### Valid queries are founded unless they are circular -/

/-- What is visible behind a clause and is neither hidden nor the source of the clause was visible
before it, without what is hidden. -/
theorem mem_visible_of_succ {i : Nat} {c : Clause} (hc : q.body[i]? = some c)
    (h : id ∈ q.visible outer (i + 1)) (hidden : id ∈ outer → id ∈ outer')
    (own : ∀ s, c.source? = some s → s.id ≠ id) : id ∈ q.visible outer' i := by
  rw [visible_succ outer hc, List.mem_append] at h
  rcases h with h | h
  · simp only [visible, List.mem_append] at h ⊢
    exact h.imp_left hidden
  · cases hs : c.source? with
    | none => simp [introduced_of_source?_eq_none hs] at h
    | some s =>
      rw [introduced_of_source? hs, List.mem_singleton] at h
      exact absurd h.symm (own s hs)

/-- The expressions of a grounded query refer to its sources and to what it mentions of those around
it. -/
theorem Grounded.refersWithin_own_of_hidden (h : q.Grounded outer)
    (hidden : ∀ id ∈ outer, q.Mentions id → id ∈ outer') :
    ∀ e ∈ q.ownExpressions, RefersWithin (outer' ++ q.sourceIds) e := by
  intro e he id refers
  have := h.refersWithin_own e he id refers
  rw [List.mem_append] at this ⊢
  exact this.imp_left fun hid => hidden id hid (.own he refers)

/-- A grounded query that is not circular is founded, also when the sources that it does not mention
are hidden from it. -/
theorem Grounded.founded (h : q.Grounded outer) (straight : ¬ q.Circular)
    (hidden : ∀ id ∈ outer, q.Mentions id → id ∈ outer') : q.Founded outer' := by
  induction h generalizing outer' with
  | @intro outer q _ clauses grounded _ _ ih =>
    -- The nested query of a clause mentions neither what is hidden nor the source of the clause.
    have inner : ∀ {i : Nat} {c : Clause} {q' : Query}, q.body[i]? = some c →
        c.query? = some q' → ∀ id ∈ q.visible outer (i + 1), q'.Mentions id →
          id ∈ q.visible outer' i := by
      intro i c q' hc hq id hid hm
      have mem := List.mem_of_getElem? hc
      exact mem_visible_of_succ hc hid (fun ho => hidden id ho (.nested mem hq hm))
        fun s hs heq => straight (.own mem hs (.query hq (heq ▸ hm)))
    have generators : ∀ (i : Nat) (c : Clause) (e : Expr), q.body[i]? = some c →
        c.generator? = some e → RefersWithin (q.visible outer' i) e := by
      intro i c e hc made id refers
      have mem := List.mem_of_getElem? hc
      have held := Clause.generator?_mem made
      have own : e ∈ q.ownExpressions := mem_ownExpressions_iff.mpr (.inr (.inl ⟨c, mem, held⟩))
      exact mem_visible_of_succ hc (clauses i c hc e held id refers)
        (fun ho => hidden id ho (.own own refers))
        fun s hs heq => straight (.own mem hs (.generator made (heq ▸ refers)))
    refine .intro generators (fun i c q' hc hq => ?_) fun i c q' hc hq => ?_
    · exact (grounded i c q' hc hq).refersWithin_own_of_hidden (inner hc hq)
    · have straight' : ¬ q'.Circular := fun h =>
        straight (.nested (List.mem_of_getElem? hc) hq h)
      exact ih i c q' hc hq straight' (inner hc hq)

/-- **Sources depend on what is before them**: in a valid query every source is made from earlier
sources only, in nested queries as well, exactly if no source is made from itself. -/
theorem founded_iff_not_circular (valid : q.validate = .ok ()) : q.Founded [] ↔ ¬ q.Circular := by
  obtain ⟨sound, grounded⟩ := validateWithin_eq_ok_iff.mp valid
  exact ⟨fun h => h.not_circular sound (List.Subset.refl _),
    fun h => grounded.founded h (by simp)⟩

end Query

namespace Sample

/-- A value that is defined by itself. -/
def mirror : Query where
  source := ⟨⟨1⟩, "s", Ty.plain "Cook"⟩
  generator := .external "Cook[]" (Ty.array (Ty.plain "Cook"))
  body := [.define ⟨⟨2⟩, "x", Ty.plain "Cook"⟩ (.item ⟨⟨2⟩, "x", Ty.plain "Cook"⟩) .main]
  terminal := some (.select (.item ⟨⟨1⟩, "s", Ty.plain "Cook"⟩) (.body 0))
  operators := []
  resultType := Ty.queryable (Ty.plain "Cook")

end Sample

theorem brigade_founded_iff_not_circular :
    Sample.brigade.validate = .ok () ∧ (Sample.brigade.Founded [] ↔ ¬ Sample.brigade.Circular) :=
  ⟨by decide, Query.founded_iff_not_circular (by decide)⟩

/-- A value that is defined by itself is valid. -/
theorem mirror_not_founded : Sample.mirror.validate = .ok () ∧ ¬ Sample.mirror.Founded [] := by
  refine ⟨by decide, fun h => ?_⟩
  cases h with
  | intro generators _ _ =>
    have : (⟨2⟩ : SourceId) ∈ Sample.mirror.visible [] 0 :=
      generators 0 _ _ rfl rfl ⟨2⟩ (.item rfl)
    exact absurd this (by decide)

end QueryFold
