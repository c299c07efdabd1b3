import QueryFold.Proofs.Chain.Soundness

/-!
# Queries nested in a query that is built

A query that is built iterates over the queries of the chains nested in its chain and over no
other ones, unless a query is written as a value in an expression (`Chain.Built.nests`). So
what holds of every query that is built from a chain holds of every query nested in one. In
particular all of them are sound by themselves, and validation finds nothing wrong with any of
them but references to sources that are not visible (`validate_within_built`).
-/

namespace QueryFold

/-! ### Nested queries -/

/-- The query iterates over `inner`, in a body clause or in the main from clause. -/
def Query.Nests (q inner : Query) : Prop :=
  (∃ c ∈ q.body, c.query? = some inner) ∨ q.generator = .subQuery inner

/-- The query `q'` is `q` itself or is nested in it, however deeply. -/
inductive Query.Within (q' : Query) : Query → Prop where
  /-- The query itself. -/
  | self : Within q' q'
  /-- In a query over which the query iterates. -/
  | nested {q inner : Query} (hn : q.Nests inner) (h : Within q' inner) : Within q' q

namespace Query

theorem nests_addClause_iff {q inner : Query} {c : Clause} :
    (q.addClause c).Nests inner ↔ q.Nests inner ∨ c.query? = some inner := by
  have hc := (Clause.alike_attach q.next q.last c).query?
  constructor
  · rintro (⟨d, hd, hq⟩ | h)
    · rw [addClause, List.mem_append, List.mem_singleton] at hd
      rcases hd with hd | rfl
      · exact .inl (.inl ⟨d, hd, hq⟩)
      · exact .inr (hc ▸ hq)
    · exact .inl (.inr h)
  · rintro ((⟨d, hd, hq⟩ | h) | h)
    · exact .inl ⟨d, List.mem_append_left _ hd, hq⟩
    · exact .inr h
    · exact .inl ⟨_, List.mem_append_right _ List.mem_cons_self, hc.trans h⟩

theorem nests_set_iff {q inner : Query} {i : Nat} {c c' : Clause} (hc : q.body[i]? = some c)
    (alike : c.Alike c') :
    ({ q with body := q.body.set i c' } : Query).Nests inner ↔ q.Nests inner := by
  refine or_congr_left ⟨?_, ?_⟩
  · rintro ⟨d, hd, hq⟩
    rcases List.mem_or_eq_of_mem_set hd with hd | rfl
    · exact ⟨d, hd, hq⟩
    · exact ⟨c, List.mem_of_getElem? hc, alike.query? ▸ hq⟩
  · rintro ⟨d, hd, hq⟩
    obtain ⟨j, hj⟩ := List.getElem?_of_mem hd
    by_cases hij : i = j
    · subst hij
      rw [hc, Option.some.injEq] at hj
      subst hj
      obtain ⟨hlt, -⟩ := List.getElem?_eq_some_iff.mp hc
      exact ⟨c', List.mem_set hlt c', alike.query?.trans hq⟩
    · exact ⟨d, List.mem_of_getElem? (i := j) (by simpa [hij] using hj), hq⟩

end Query

theorem nests_fill_iff {q q' inner : Query} {o? : Option OpenFrom} {e : Expr}
    (filled : q.fill o? e = .ok q') : q'.Nests inner ↔ q.Nests inner := by
  rcases Query.fill_eq_ok_iff.mp filled with ⟨-, rfl⟩ | ⟨o, i, c, c', -, -, hc, hc', rfl⟩
  · rfl
  · exact Query.nests_set_iff hc (Clause.alike_of_withProjection? hc')

/-- A step nests a query only if the query is computed in it. -/
theorem Node.Step.nests {ids : Nat → SourceId} {nested : Nested} {chain : Chain} {n : Node}
    {b b' : Build} (plain : ∀ m ∈ chain.nodes, ∀ e ∈ m.operation.expressions, ¬ HoldsQuery e)
    (mem : n ∈ chain.nodes) (h : n.Step ids nested chain b b') {inner : Query}
    (hi : b'.query.Nests inner) :
    b.query.Nests inner ∨ ∃ c k, n.operation = .subQuerySource c ∧
      b.ledger.ensureClause n.callSite = .ok () ∧
      Runs (nested b.ledger.settings (b.ledger.depth + 1)) b.drawn inner k := by
  cases h with
  | @subQuerySource c q _ k op allowed built =>
    refine (Query.nests_addClause_iff.mp hi).imp_right fun hq => ?_
    cases hq
    exact ⟨c, k, op, allowed, built⟩
  | selectMany op _ _ resolved =>
    have he := resolved_plain plain mem resolved (by rw [op]; simp [Operation.expressions])
    refine (Query.nests_addClause_iff.mp hi).imp_right fun hq => ?_
    rw [query?_fromClause he] at hq
    cases hq
  | selectManyResult op _ _ _ resolved =>
    have he := resolved_plain plain mem resolved (by rw [op]; simp [Operation.expressions])
    refine (Query.nests_addClause_iff.mp hi).imp_right fun hq => ?_
    rw [query?_projectedFrom he] at hq
    cases hq
  | mainSource | filter | define | orderBy =>
    refine (Query.nests_addClause_iff.mp hi).imp_right fun hq => ?_
    cases hq
  | thenBy _ _ _ _ _ extended =>
    obtain ⟨i, c, c', rfl, hc, hc', rfl⟩ := Query.modifyClause_eq_ok_iff.mp extended
    exact .inl ((Query.nests_set_iff hc (Clause.alike_of_withKey? hc')).mp hi)
  | select _ _ _ _ filled => exact .inl ((nests_fill_iff filled).mp hi)
  | groupBy | cast | ofType | resultOperator => exact .inl hi

/-- What a query iterates over when it starts is computed there. -/
theorem Node.Start.nests {ids : Nat → SourceId} {nested : Nested} {settings : Settings}
    {depth : UInt32} {resultType : Ty} {n : Node} {k : Nat} {b : Build}
    (plain : ∀ e ∈ n.operation.expressions, ¬ HoldsQuery e)
    (h : n.Start ids nested settings depth resultType k b) {inner : Query}
    (hi : b.query.Nests inner) :
    ∃ c k', n.operation = .subQuerySource c ∧ Runs (nested settings (depth + 1)) k inner k' := by
  cases h with
  | @mainSource e _ op =>
    rcases hi with ⟨_, hc, _⟩ | hg
    · simp [Query.start] at hc
    · obtain rfl : e = .subQuery inner := hg
      exact absurd (.query inner) (plain _ (by simp [op, Operation.expressions]))
  | @subQuerySource c _ _ k op built =>
    rcases hi with ⟨_, hc, _⟩ | hg
    · simp [Query.start] at hc
    · cases hg
      exact ⟨c, k, op, built⟩

/-- What is nested stays nested. -/
theorem Node.Step.nests_mono {ids : Nat → SourceId} {nested : Nested} {chain : Chain} {n : Node}
    {b b' : Build} (h : n.Step ids nested chain b b') {inner : Query}
    (hi : b.query.Nests inner) : b'.query.Nests inner := by
  cases h with
  | mainSource | subQuerySource | selectMany | selectManyResult | filter | define | orderBy =>
    exact Query.nests_addClause_iff.mpr (.inl hi)
  | thenBy _ _ _ _ _ extended =>
    obtain ⟨i, c, c', rfl, hc, hc', rfl⟩ := Query.modifyClause_eq_ok_iff.mp extended
    exact (Query.nests_set_iff hc (Clause.alike_of_withKey? hc')).mpr hi
  | select _ _ _ _ filled => exact (nests_fill_iff filled).mpr hi
  | groupBy | cast | ofType | resultOperator => exact hi

theorem NodeSteps.nests_mono {ids : Nat → SourceId} {chain : Chain} {ns : List Node} {b b' : Build}
    (h : NodeSteps ids chain ns b b') {inner : Query} (hi : b.query.Nests inner) :
    b'.query.Nests inner := by
  induction h with
  | nil => exact hi
  | cons _ step _ ih => exact ih (step.nests_mono hi)

/-- What is nested in the query of a chain is the query of a chain that is nested in the chain. -/
theorem Chain.Built.nests {ids : Nat → SourceId} {settings : Settings} {depth : UInt32}
    {chain : Chain} {k k' : Nat} {q inner : Query} {l : Ledger}
    (plain : chain.Throughout fun e => ¬ HoldsQuery e)
    (h : chain.Built ids settings depth k q l k') (hi : q.Nests inner) :
    ∃ chain' settings' depth' k₁ l' k₂, chain.Nests chain' ∧
      chain'.Built ids settings' depth' k₁ inner l' k₂ := by
  obtain ⟨own, -⟩ := plain
  have computed : ∀ n ∈ chain.nodes,
      (∃ settings depth k k', Runs (n.nested ids settings depth) k inner k') →
      ∃ chain' settings' depth' k₁ l' k₂, chain.Nests chain' ∧
        chain'.Built ids settings' depth' k₁ inner l' k₂ := by
    rintro n hm ⟨settings, depth, k, k', hr⟩
    obtain ⟨chain', l, op, hb⟩ := Node.nested_runs_iff.mp hr
    exact ⟨chain', settings, depth, k, l, k', ⟨n, hm, op⟩, hb⟩
  cases h with
  | @intro first rest b b' p _ nodes _ start steps =>
    refine steps.invariant [] (I := fun _ b => b.query.Nests inner →
      ∃ chain' settings' depth' k₁ l' k₂, chain.Nests chain' ∧
        chain'.Built ids settings' depth' k₁ inner l' k₂) (fun done n b b' hm hI _ step hi => ?_)
      (fun hi => ?_) hi
    · have mem : n ∈ chain.nodes := nodes ▸ List.mem_cons_of_mem _ hm
      refine (step.nests own mem hi).elim hI ?_
      rintro ⟨_, _, -, -, hr⟩
      exact computed n mem ⟨_, _, _, _, hr⟩
    · have mem : first ∈ chain.nodes := nodes ▸ List.mem_cons_self
      obtain ⟨_, _, -, hr⟩ := start.nests (own first mem) hi
      exact computed first mem ⟨_, _, _, _, hr⟩

/-- Every query in a query that is built, however deeply nested, is sound by itself. -/
theorem Chain.Built.within_sound {ids : Nat → SourceId} (inj : Function.Injective ids)
    {settings : Settings} {depth : UInt32} {chain : Chain} {k k' : Nat} {q q' : Query} {l : Ledger}
    (plain : chain.Throughout fun e => ¬ HoldsQuery e)
    (h : chain.Built ids settings depth k q l k') (hw : q'.Within q) : q'.Sound [] := by
  induction hw generalizing chain settings depth k l k' with
  | self => exact (h.soundApart inj plain).2 [] (by simp [Avoids])
  | nested hn _ ih =>
    obtain ⟨chain', settings', depth', k₁, l', k₂, hc, hb⟩ := h.nests plain hn
    obtain ⟨_, nested⟩ := plain
    exact ih (nested chain' hc) hb

theorem SourceId.countUp_injective : Function.Injective SourceId.countUp := by
  intro i j h
  simpa [countUp] using h

/-! ### An example -/

namespace Sample

/-- The sequence of cooks, known by its description. -/
def cooks : Expr := .external "Cook[]" (Ty.array (Ty.plain "Cook"))

/-- A cook. -/
def cook : Param := ⟨"c", Ty.plain "Cook"⟩

/-- Whether a cook is an assistant. -/
def assistant : Expr := .member (.param cook) "IsAssistant" Ty.bool

/-- The assistants among the cooks. -/
def assistants : Chain where
  nodes := [⟨⟨0⟩, none, "c", "", .mainSource cooks⟩,
    ⟨⟨1⟩, some ⟨0⟩, "c", "", .filter ⟨[cook], assistant⟩⟩,
    ⟨⟨2⟩, some ⟨1⟩, "c", "", .select ⟨[cook], .param cook⟩⟩]
  resultType := Ty.queryable (Ty.plain "Cook")

/-- All pairs of a cook and an assistant. -/
def pairs : Chain where
  nodes := [⟨⟨0⟩, none, "c", "", .mainSource cooks⟩,
    ⟨⟨1⟩, some ⟨0⟩, "a", "", .subQuerySource assistants⟩,
    ⟨⟨2⟩, some ⟨1⟩, "c", "", .select ⟨[cook], .param cook⟩⟩]
  resultType := Ty.queryable (Ty.plain "Cook")

theorem plain_assistants : assistants.Throughout fun e => ¬ HoldsQuery e := by
  have hs : ¬ HoldsQuery cooks := not_holdsQuery_of_leaf (by simp [cooks, Expr.external]) rfl
  have hp : ¬ HoldsQuery (.param cook) := not_holdsQuery_of_leaf (by simp) rfl
  have hm : ¬ HoldsQuery assistant := by
    rw [assistant, not_holdsQuery_iff]
    simp [Expr.children, hp]
  refine .intro ?_ ?_
  · simp [assistants, Operation.expressions, hs, hm, hp]
  · rintro inner ⟨n, hn, op⟩
    simp only [assistants, List.mem_cons, List.not_mem_nil, or_false] at hn
    rcases hn with rfl | rfl | rfl <;> cases op

theorem plain_pairs : pairs.Throughout fun e => ¬ HoldsQuery e := by
  have hs : ¬ HoldsQuery cooks := not_holdsQuery_of_leaf (by simp [cooks, Expr.external]) rfl
  have hp : ¬ HoldsQuery (.param cook) := not_holdsQuery_of_leaf (by simp) rfl
  refine .intro ?_ ?_
  · simp [pairs, Operation.expressions, hs, hp]
  · rintro inner ⟨n, hn, op⟩
    simp only [pairs, List.mem_cons, List.not_mem_nil, or_false] at hn
    rcases hn with rfl | rfl | rfl
    · cases op
    · cases op
      exact plain_assistants
    · cases op

end Sample

/-! ### Validation of what is built -/

/-- **Builds make valid queries but for references**: if no query is written as a value in a chain,
then in the query that is built from it, and in every query nested there, validation finds nothing
wrong but a reference to a source that is not visible. -/
theorem validate_within_built {ids : Nat → SourceId} (inj : Function.Injective ids)
    {settings : Settings} {chain : Chain} {k k' : Nat} {q q' : Query} {l : Ledger}
    (plain : chain.Throughout fun e => ¬ HoldsQuery e)
    (h : Runs (chain.toQuery ids settings) k (q, l) k') (hw : q'.Within q) :
    q'.validate = .ok () ∨ ∃ place id, q'.validate = .error (.danglingReference place id) :=
  ((Chain.build_runs_iff.mp h).within_sound inj plain hw).dangles

theorem validate_within_pairs : ∃ q l k, Runs (Sample.pairs.toQuery SourceId.countUp {}) 0 (q, l) k ∧
    ∀ q' : Query, q'.Within q →
      q'.validate = .ok () ∨ ∃ place id, q'.validate = .error (.danglingReference place id) := by
  obtain ⟨⟨q, l⟩, k, h⟩ := exists_runs
    (x := Sample.pairs.toQuery SourceId.countUp {}) (s := 0) (by decide +kernel)
  exact ⟨q, l, k, h, fun q' hw =>
    validate_within_built SourceId.countUp_injective Sample.plain_pairs h hw⟩

end QueryFold
