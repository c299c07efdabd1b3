import Mathlib.Data.List.Pairwise
import QueryFold.Proofs.Chain.Built
import QueryFold.Proofs.Chain.Resolution

/-!
# Sources are drawn one after the other

Each source that a build introduces has an identity that was not drawn before, also where nested
queries are built in between. So the items that are recorded for different nodes belong to different
sources (`Chain.Built.source_ne`), whatever the chain is like.
-/

namespace QueryFold

/-- What is found in a list is in it. -/
theorem mem_of_lookup_eq_some {α β : Type} [BEq α] [LawfulBEq α] {l : List (α × β)} {a : α} {b : β}
    (h : l.lookup a = some b) : (a, b) ∈ l := by
  obtain ⟨before, after, rfl, -⟩ := List.lookup_eq_some_iff.mp h
  simp

/-- Nested queries draw identities and put none back. -/
def Nested.Draws (nested : Nested) : Prop :=
  ∀ settings depth k q k', Runs (nested settings depth) k q k' → k ≤ k'

/-- The items that are recorded belong to different sources, and their identities are among the
first `drawn` ones. -/
structure Ledger.Apart (ids : Nat → SourceId) (drawn : Nat) (l : Ledger) : Prop where
  within : ∀ b ∈ l.records, ∀ i, b.2.item = some i → ∃ j < drawn, i.source = ids j
  apart : l.records.Pairwise fun b c =>
    ∀ i, b.2.item = some i → ∀ j, c.2.item = some j → i.source ≠ j.source

section

variable {ids : Nat → SourceId} {nested : Nested} {settings : Settings} {depth : UInt32}
  {chain : Chain} {n : Node} {b b' : Build}

/-! ### Steps -/

/-- A step records its node, with an item of a source that it has drawn, if with any. -/
theorem Node.Step.draws (hn : nested.Draws) (h : n.Step ids nested chain b b') :
    b.drawn ≤ b'.drawn ∧ ∃ r, b'.ledger.records = b.ledger.records ++ [(n.id, r)] ∧
      ∀ i, r.item = some i → ∃ j, b.drawn ≤ j ∧ j < b'.drawn ∧ i.source = ids j := by
  have next : ∀ {r : NodeRecord} {s : Source} {k : Nat}, s.id = ids k → b.drawn ≤ k →
      ∀ i, (⟨r.clause, some s.ref⟩ : NodeRecord).item = some i →
        ∃ j, b.drawn ≤ j ∧ j < k + 1 ∧ i.source = ids j := by
    rintro r s k hs hk i hi
    cases hi
    exact ⟨k, hk, Nat.lt_succ_self k, hs⟩
  cases h with
  | mainSource | define =>
    exact ⟨Nat.le_succ _, _, rfl, next (r := {}) rfl (Nat.le_refl _)⟩
  | subQuerySource _ _ built =>
    have hk := hn _ _ _ _ _ built
    exact ⟨Nat.le_succ_of_le hk, _, rfl, next (r := {}) rfl hk⟩
  | selectMany =>
    rw [Build.added_of_source (source?_fromClause _ _)]
    exact ⟨Nat.le_succ _, _, rfl, next (r := {}) rfl (Nat.le_refl _)⟩
  | selectManyResult =>
    rw [Build.added_of_source (source?_projectedFrom _ _ _)]
    exact ⟨Nat.le_succ _, _, rfl, next (r := {}) rfl (Nat.le_refl _)⟩
  | _ => exact ⟨Nat.le_refl _, _, rfl, nofun⟩

theorem Ledger.Apart.step (inj : Function.Injective ids) (hb : b.ledger.Apart ids b.drawn)
    (hn : nested.Draws) (h : n.Step ids nested chain b b') : b'.ledger.Apart ids b'.drawn := by
  obtain ⟨hd, r, records, fresh⟩ := h.draws hn
  refine ⟨fun c hc i hi => ?_, ?_⟩
  · rw [records] at hc
    rcases List.mem_append.mp hc with hc | hc
    · obtain ⟨j, hj, hi⟩ := hb.within c hc i hi
      exact ⟨j, Nat.lt_of_lt_of_le hj hd, hi⟩
    · obtain rfl := List.mem_singleton.mp hc
      obtain ⟨j, -, hj, hi⟩ := fresh i hi
      exact ⟨j, hj, hi⟩
  · rw [records]
    refine List.pairwise_append.mpr ⟨hb.apart, List.pairwise_singleton _ _, fun c hc d hd => ?_⟩
    obtain rfl := List.mem_singleton.mp hd
    intro i hi j hj heq
    obtain ⟨k, hk, hi⟩ := hb.within c hc i hi
    obtain ⟨k', hk', -, hj⟩ := fresh j hj
    have := inj (hi.symm.trans (heq.trans hj))
    omega

/-- The first node draws a source and records its item. -/
theorem Node.Start.draws {resultType : Ty} {k : Nat} (hn : nested.Draws)
    (h : n.Start ids nested settings depth resultType k b) :
    k ≤ b.drawn ∧ b.ledger.Apart ids b.drawn := by
  cases h with
  | mainSource op =>
    refine ⟨Nat.le_succ k, ?_, List.pairwise_singleton _ _⟩
    rintro c hc i hi
    obtain rfl := List.mem_singleton.mp hc
    cases hi
    exact ⟨k, Nat.lt_succ_self k, rfl⟩
  | @subQuerySource _ _ _ k' op built =>
    refine ⟨Nat.le_succ_of_le (hn _ _ _ _ _ built), ?_, List.pairwise_singleton _ _⟩
    rintro c hc i hi
    obtain rfl := List.mem_singleton.mp hc
    cases hi
    exact ⟨k', Nat.lt_succ_self k', rfl⟩

end

/-! ### Chains -/

namespace Chain

variable {ids : Nat → SourceId} {settings : Settings} {depth : UInt32} {c : Chain} {k k' : Nat}
  {q : Query} {l : Ledger}

theorem Built.drawn_le (h : c.Built ids settings depth k q l k') : k ≤ k' := by
  induction c using Chain.induction generalizing settings depth k q l k' with
  | step c ih =>
    have nested : ∀ n ∈ c.nodes, (n.nested ids).Draws := by
      intro n hn _ _ _ _ _ run
      obtain ⟨inner, _, op, built⟩ := Node.nested_runs_iff.mp run
      exact ih inner ⟨n, hn, op⟩ built
    obtain @⟨first, rest, b, b', _, _, nodes, _, start, steps⟩ := h
    rw [nodes, List.forall_mem_cons] at nested
    exact steps.invariant [] (I := fun _ b => k ≤ b.drawn)
      (fun _ n _ _ hn hI _ step => Nat.le_trans hI (step.draws (nested.2 n hn)).1)
      (start.draws nested.1).1

theorem Built.apart (inj : Function.Injective ids) (h : c.Built ids settings depth k q l k') :
    l.Apart ids k' := by
  have nested : ∀ n : Node, (n.nested ids).Draws := by
    intro n _ _ _ _ _ run
    obtain ⟨_, _, _, built⟩ := Node.nested_runs_iff.mp run
    exact built.drawn_le
  obtain @⟨first, rest, b, b', _, _, nodes, _, start, steps⟩ := h
  exact steps.invariant [] (I := fun _ b => b.ledger.Apart ids b.drawn)
    (fun _ n _ _ _ hI _ step => hI.step inj (nested n) step) (start.draws (nested first)).2

/-- **Different nodes have different sources.** -/
theorem Built.source_ne (inj : Function.Injective ids) (h : c.Built ids settings depth k q l k')
    {id id' : NodeId} {r r' : ItemRef} (hi : l.item id = .ok r) (hi' : l.item id' = .ok r')
    (ne : id ≠ id') : r.source ≠ r'.source := by
  obtain ⟨rec, hr, item⟩ := Ledger.item_eq_ok_iff.mp hi
  obtain ⟨rec', hr', item'⟩ := Ledger.item_eq_ok_iff.mp hi'
  have : Std.Symm fun b c : NodeId × NodeRecord =>
      ∀ i, b.2.item = some i → ∀ j, c.2.item = some j → i.source ≠ j.source :=
    ⟨fun _ _ h i hi j hj heq => h j hj i hi heq.symm⟩
  exact (h.apart inj).apart.forall (mem_of_lookup_eq_some hr) (mem_of_lookup_eq_some hr')
    (by simp [ne]) r item r' item'

end Chain

end QueryFold
