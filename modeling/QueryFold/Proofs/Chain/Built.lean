import QueryFold.Proofs.Chain.Step

/-!
# Builds of whole chains

A build starts from the first node of a chain (`Node.Start`), applies the others in order
(`NodeSteps`), and ends the query. `Chain.Built` says when this succeeds and with which
query; `Chain.build_runs_iff` says that this is what building a chain is. A property of builds
that every step preserves holds at the end (`NodeSteps.invariant`), and what holds of a chain
whenever it holds of the chains nested in it holds of every chain (`Chain.induction`).
-/

namespace QueryFold

/-! ### Nested chains -/

/-- The chain `inner` is the source of a node of the chain. -/
def Chain.Nests (c inner : Chain) : Prop :=
  ∃ n ∈ c.nodes, n.operation = .subQuerySource inner

theorem Chain.Nests.sizeOf_lt {c inner : Chain} (h : c.Nests inner) : sizeOf inner < sizeOf c := by
  obtain ⟨n, hn, op⟩ := h
  obtain ⟨nodes, resultType⟩ := c
  obtain ⟨id, source, identifier, callSite, operation⟩ := n
  have := List.sizeOf_lt_of_mem hn
  simp_all
  omega

/-- What holds of a chain whenever it holds of the chains nested in it holds of every chain. -/
theorem Chain.induction {motive : Chain → Prop}
    (step : ∀ c, (∀ inner, c.Nests inner → motive inner) → motive c) (c : Chain) : motive c :=
  step c fun inner h =>
    have := h.sizeOf_lt
    induction step inner
termination_by sizeOf c

/-! ### Several nodes -/

section

variable (ids : Nat → SourceId) (chain : Chain)

/-- The nodes are applied one after the other, each for the first time. -/
inductive NodeSteps : List Node → Build → Build → Prop where
  /-- No nodes. -/
  | nil {b : Build} : NodeSteps [] b b
  /-- A node, and then the others. -/
  | cons {n : Node} {ns : List Node} {b b₁ b' : Build} (fresh : b.ledger.record? n.id = none)
      (step : n.Step ids (n.nested ids) chain b b₁) (rest : NodeSteps ns b₁ b') :
      NodeSteps (n :: ns) b b'

variable {ids chain}

theorem applyNodes_runs_iff {ns : List Node} {b b' : Build} :
    Runs (applyNodes ids chain ns) b () b' ↔ NodeSteps ids chain ns b b' := by
  induction ns generalizing b with
  | nil =>
    rw [applyNodes, runs_pure]
    constructor
    · rintro ⟨-, rfl⟩
      exact .nil
    · intro h
      cases h
      exact ⟨rfl, rfl⟩
  | cons n ns ih =>
    simp only [applyNodes, runs_bind, exists_unit, Node.applyWith_runs_iff, ih]
    constructor
    · rintro ⟨b₁, ⟨fresh, step⟩, rest⟩
      exact .cons fresh step rest
    · intro h
      cases h with
      | cons fresh step rest => exact ⟨_, ⟨fresh, step⟩, rest⟩

theorem applyNodes_append (ns ms : List Node) :
    applyNodes (m := Id) ids chain (ns ++ ms) =
      (do applyNodes ids chain ns; applyNodes ids chain ms) := by
  induction ns with
  | nil =>
    rw [List.nil_append, applyNodes]
    exact (pure_bind _ _).symm
  | cons n ns ih => rw [List.cons_append, applyNodes, ih, applyNodes, bind_assoc]

/-- What holds before and is preserved by every step holds at the end. The statement may speak of
the nodes that were applied. -/
theorem NodeSteps.invariant {I : List Node → Build → Prop} {ns : List Node} {b b' : Build}
    (h : NodeSteps ids chain ns b b') (done : List Node)
    (step : ∀ (done : List Node) (n : Node) (b b' : Build), n ∈ ns → I done b →
      b.ledger.record? n.id = none → n.Step ids (n.nested ids) chain b b' → I (done ++ [n]) b')
    (initial : I done b) : I (done ++ ns) b' := by
  induction h generalizing done with
  | nil => simpa using initial
  | cons fresh first rest ih =>
    have := ih _ (fun done n b b' hn => step done n b b' (List.mem_cons_of_mem _ hn))
      (step done _ _ _ List.mem_cons_self initial fresh first)
    simpa using this

end

/-! ### The first node -/

/-- The build that a node starts when `drawn` identities are drawn; the node must be a source. -/
inductive Node.Start (ids : Nat → SourceId) (nested : Nested) (settings : Settings)
    (depth : UInt32) (resultType : Ty) (n : Node) (drawn : Nat) : Build → Prop where
  /-- The query iterates over a sequence. -/
  | mainSource {e : Expr} {type : Ty} (op : n.operation = .mainSource e)
      (items : e.type.element? = some type) (named : n.identifier ≠ "") :
      Start ids nested settings depth resultType n drawn
        ⟨.start ⟨ids drawn, n.identifier, type⟩ e resultType,
          (Ledger.start settings depth).noted n.id
            ⟨some .main, some (Source.ref ⟨ids drawn, n.identifier, type⟩)⟩, drawn + 1⟩
  /-- The query iterates over a nested query. -/
  | subQuerySource {inner : Chain} {q : Query} {type : Ty} {k : Nat}
      (op : n.operation = .subQuerySource inner)
      (built : Runs (nested settings (depth + 1)) drawn q k)
      (items : q.itemType? = some type) (named : n.identifier ≠ "") :
      Start ids nested settings depth resultType n drawn
        ⟨.start ⟨ids k, n.identifier, type⟩ (.subQuery q) resultType,
          (Ledger.start settings depth).noted n.id
            ⟨some .main, some (Source.ref ⟨ids k, n.identifier, type⟩)⟩, k + 1⟩

section

variable {ids : Nat → SourceId} {nested : Nested} {settings : Settings} {depth : UInt32}
  {resultType : Ty} {n : Node} {drawn : Nat}

theorem Node.startWith_runs_iff (resultType : Ty) {s : Source} {e : Expr} {l : Ledger} {k : Nat} :
    Runs (n.startWith ids nested (.start settings depth)) drawn (s, e, l) k ↔
      n.Start ids nested settings depth resultType drawn ⟨.start s e resultType, l, k⟩ := by
  have fresh : (Ledger.start settings depth).record? n.id = none := rfl
  constructor
  · intro h
    rw [startWith] at h
    cases op : n.operation with
    | mainSource e =>
      simp only [op, runs_bind, runs_lift, runs_pure, runs_createSource, sourceItemType_eq_ok_iff,
        Ledger.record_eq_ok_iff, and_assoc, exists_and_left, exists_eq_left, Prod.mk.injEq] at h
      obtain ⟨type, items, named, -, rfl, rfl, rfl, rfl⟩ := h
      exact .mainSource op items named
    | subQuerySource inner =>
      simp only [op, runs_bind, runs_lift, runs_pure, runs_createSource, Prod.exists,
        runs_nestedItems, Ledger.record_eq_ok_iff, and_assoc, exists_and_left, exists_eq_left,
        Prod.mk.injEq] at h
      obtain ⟨q, type, k, built, items, named, -, rfl, rfl, rfl, rfl⟩ := h
      exact .subQuerySource op built items named
    | _ => simp [op] at h
  · intro h
    rw [startWith]
    cases h with
    | mainSource op items named =>
      simp only [op, runs_bind, runs_lift, runs_pure, runs_createSource, sourceItemType_eq_ok_iff,
        Ledger.record_eq_ok_iff, and_assoc, exists_and_left, exists_eq_left]
      exact ⟨_, items, named, fresh, rfl, trivial⟩
    | subQuerySource op built items named =>
      simp only [op, runs_bind, runs_lift, runs_pure, runs_createSource, Prod.exists,
        runs_nestedItems, Ledger.record_eq_ok_iff, and_assoc, exists_and_left, exists_eq_left]
      exact ⟨_, _, _, built, items, named, fresh, rfl, rfl⟩

theorem Node.Start.exists_eq {b : Build} (h : n.Start ids nested settings depth resultType drawn b) :
    ∃ s e l k, b = ⟨.start s e resultType, l, k⟩ := by
  cases h <;> exact ⟨_, _, _, _, rfl⟩

theorem Node.Start.settings_eq {b : Build}
    (h : n.Start ids nested settings depth resultType drawn b) : b.ledger.settings = settings := by
  cases h <;> rfl

theorem Node.Start.depth_eq {b : Build}
    (h : n.Start ids nested settings depth resultType drawn b) : b.ledger.depth = depth := by
  cases h <;> rfl

end

/-! ### The end -/

namespace Build

/-- The query with the projection `p` as the clause that ends it. -/
def ended (b : Build) (p : Projection) : Query :=
  { b.query with terminal := some (p.terminal.attach b.query.last) }

theorem finish_eq_ok_iff {b : Build} {q : Query} {l : Ledger} :
    b.finish = .ok (q, l) ↔
      ∃ p, b.ledger.projection = some p ∧ b.ledger.openFrom = none ∧ b.query.terminal = none ∧
        (b.ledger.settings.validate = true → (b.ended p).validate = .ok ()) ∧ q = b.ended p ∧
        l = b.ledger := by
  rw [finish]
  cases projects : b.ledger.projection with
  | none => simp [except_throw_eq_ok_iff]
  | some p =>
    cases settled : b.ledger.openFrom with
    | some waiting => simp [except_bind_eq_ok_iff, except_throw_eq_ok_iff]
    | none =>
      simp only [except_bind_eq_ok_iff, ofQueryResult_eq_ok_iff, Query.setTerminal]
      cases unended : b.query.terminal with
      | some t => simp
      | none =>
        simp only [Except.ok.injEq, exists_eq_left', Option.some.injEq, true_and]
        rw [ended]
        split_ifs with validates
        · simp only [except_bind_eq_ok_iff, ofQueryResult_eq_ok_iff, except_pure_eq_ok_iff,
            exists_unit, validates, forall_const, Prod.mk.injEq]
        · simp [except_pure_eq_ok_iff, validates]

theorem execute_complete (step : BuildM Unit) (q : Query) (l : Ledger) (k : Nat) :
    execute (complete step q l) k =
      ((do (execute step ⟨q, l, k⟩).1; (execute step ⟨q, l, k⟩).2.finish),
        (execute step ⟨q, l, k⟩).2.drawn) :=
  rfl

theorem complete_runs_iff {step : BuildM Unit} {q q' : Query} {l l' : Ledger} {k k' : Nat} :
    Runs (complete step q l) k (q', l') k' ↔
      ∃ b, Runs step ⟨q, l, k⟩ () b ∧ b.finish = .ok (q', l') ∧ k' = b.drawn := by
  unfold Runs
  rw [execute_complete]
  rcases execute step ⟨q, l, k⟩ with ⟨_ | _, b⟩
  · simp [bind, Except.bind]
  · simp [bind, Except.bind, eq_comm]

end Build

/-- The chain is built at a depth, when `drawn` identities are drawn before: the query, the ledger,
and how many are drawn after. -/
inductive Chain.Built (ids : Nat → SourceId) (settings : Settings) (depth : UInt32) (chain : Chain)
    (drawn : Nat) : Query → Ledger → Nat → Prop where
  /-- The first node starts the build, the others are applied, and the projection registered last
  ends the query. -/
  | intro {first : Node} {rest : List Node} {b b' : Build} {p : Projection}
      (shallow : depth ≤ settings.maxDepth) (nodes : chain.nodes = first :: rest)
      (linked : chain.checkLinks = .ok ())
      (start : first.Start ids (first.nested ids) settings depth chain.resultType drawn b)
      (steps : NodeSteps ids chain rest b b') (projects : b'.ledger.projection = some p)
      (settled : b'.ledger.openFrom = none) (unended : b'.query.terminal = none)
      (valid : b'.ledger.settings.validate = true → (b'.ended p).validate = .ok ()) :
      Built ids settings depth chain drawn (b'.ended p) b'.ledger b'.drawn

/-- **Building a chain** succeeds in this way only. -/
theorem Chain.build_runs_iff {ids : Nat → SourceId} {settings : Settings} {depth : UInt32}
    {chain : Chain} {k k' : Nat} {q : Query} {l : Ledger} :
    Runs (chain.build ids settings depth) k (q, l) k' ↔
      chain.Built ids settings depth k q l k' := by
  obtain ⟨nodes, resultType⟩ := chain
  rw [Chain.build.eq_def]
  split_ifs with deep
  · simp only [runs_bind, runs_throw, false_and, exists_false, false_iff]
    intro h
    cases h with
    | intro shallow => exact absurd deep (UInt32.not_lt.mpr shallow)
  cases nodes with
  | nil =>
    simp only [runs_throw, false_iff]
    intro h
    cases h with
    | intro _ nodes => cases nodes
  | cons first rest =>
    simp only [runs_bind, runs_lift, asking_eq_lift, Prod.exists, and_assoc, exists_and_left,
      exists_eq_left, exists_unit, Build.complete_runs_iff, applyNodes_runs_iff,
      Build.finish_eq_ok_iff, Node.startWith_runs_iff resultType]
    constructor
    · rintro ⟨linked, s, e, l₀, k₀, start, b, steps,
        ⟨p, projects, settled, unended, valid, rfl, rfl⟩, rfl⟩
      exact .intro (UInt32.not_lt.mp deep) rfl linked start steps projects settled unended valid
    · intro h
      cases h with
      | intro _ nodes linked start steps projects settled unended valid =>
        cases nodes
        obtain ⟨s, e, l₀, k₀, rfl⟩ := start.exists_eq
        exact ⟨linked, s, e, l₀, k₀, start, _, steps,
          ⟨_, projects, settled, unended, valid, rfl, rfl⟩, rfl⟩

/-- A chain is built by its first node, the others, and the end of the query. -/
theorem Chain.execute_build {ids : Nat → SourceId} {settings : Settings} {depth : UInt32}
    {chain : Chain} {first : Node} {rest : List Node} (shallow : depth ≤ settings.maxDepth)
    (nodes : chain.nodes = first :: rest) (linked : chain.checkLinks = .ok ()) (k : Nat) :
    execute (chain.build ids settings depth) k =
      match execute (first.startWith ids (first.nested ids) (.start settings depth)) k with
      | (.ok (s, e, l), k') => execute (Build.complete (applyNodes ids chain rest)
        (.start s e chain.resultType) l) k'
      | (.error err, k') => (.error err, k') := by
  obtain ⟨_, resultType⟩ := chain
  obtain rfl : _ = first :: rest := nodes
  rw [Chain.build.eq_def]
  split_ifs with deep
  · exact absurd deep (UInt32.not_lt.mpr shallow)
  simp only [execute_bind, asking_eq_lift, execute_lift, Resolver.checkLinks_id, linked]
  rcases execute (first.startWith ids (first.nested ids) (.start settings depth)) k with
    ⟨_ | ⟨s, e, l⟩, k'⟩ <;> rfl

/-- The nested query of a node is that of its chain. -/
theorem Node.nested_runs_iff {ids : Nat → SourceId} {settings : Settings} {depth : UInt32} {n : Node}
    {k k' : Nat} {q : Query} :
    Runs (n.nested ids settings depth) k q k' ↔
      ∃ inner l, n.operation = .subQuerySource inner ∧ inner.Built ids settings depth k q l k' := by
  obtain ⟨_, _, _, _, operation⟩ := n
  cases operation with
  | subQuerySource inner =>
    simp only [Node.nested, Operation.nested, runs_bind, Prod.exists, runs_pure,
      Chain.build_runs_iff, Operation.subQuerySource.injEq]
    constructor
    · rintro ⟨q', l, k₁, h, rfl, rfl⟩
      exact ⟨inner, l, rfl, h⟩
    · rintro ⟨_, l, rfl, h⟩
      exact ⟨q, l, k', h, rfl, rfl⟩
  | _ => simp [Node.nested, Operation.nested]

/-! ### Failures -/

theorem Build.complete_fails_iff {step : BuildM Unit} {q : Query} {l : Ledger} {k : Nat}
    {e : BuildError} :
    Fails (Build.complete step q l) k e ↔
      Fails step ⟨q, l, k⟩ e ∨ ∃ b, Runs step ⟨q, l, k⟩ () b ∧ b.finish = .error e := by
  unfold Fails Runs
  rw [Build.execute_complete]
  rcases execute step ⟨q, l, k⟩ with ⟨_ | _, b⟩
  · simp [bind, Except.bind]
  · simp [bind, Except.bind]

theorem Build.finish_eq_error {b : Build} {p : Projection} {e : QueryError}
    (projects : b.ledger.projection = some p) (settled : b.ledger.openFrom = none)
    (unended : b.query.terminal = none) (checks : b.ledger.settings.validate = true)
    (invalid : (b.ended p).validate = .error e) : b.finish = .error (.query e) := by
  rw [ended] at invalid
  simp only [finish, projects, settled, Query.setTerminal, unended, ofQueryResult, checks, if_true]
  simp [bind, Except.bind, invalid]

theorem Node.startWith_fails_of_nested {ids : Nat → SourceId} {nested : Nested} {settings : Settings}
    {depth : UInt32} {n : Node} {k : Nat} {inner : Chain} {e : BuildError}
    (op : n.operation = .subQuerySource inner) (h : Fails (nested settings (depth + 1)) k e) :
    Fails (n.startWith ids nested (.start settings depth)) k e := by
  rw [startWith, op]
  exact fails_bind.mpr (.inl (fails_bind.mpr (.inl h)))

theorem Node.applyWith_fails_of_nested {ids : Nat → SourceId} {nested : Nested} {chain : Chain}
    {n : Node} {b : Build} {inner : Chain} {e : BuildError}
    (op : n.operation = .subQuerySource inner) (fresh : b.ledger.record? n.id = none)
    (allowed : b.ledger.ensureClause n.callSite = .ok ())
    (h : Fails (nested b.ledger.settings (b.ledger.depth + 1)) b.drawn e) :
    Fails (n.applyWith ids nested chain) b e := by
  have applied : ¬ b.ledger.isApplied n.id = true := by simp [Ledger.isApplied, fresh]
  rw [applyWith]
  refine fails_bind.mpr (.inr ⟨b, b, runs_get.mpr ⟨rfl, rfl⟩, ?_⟩)
  rw [if_neg applied]
  simp only [op, applySubQuerySource]
  refine fails_bind.mpr (.inr ⟨b, b, runs_get.mpr ⟨rfl, rfl⟩, ?_⟩)
  refine fails_bind.mpr (.inr ⟨(), b, runs_lift.mpr ⟨allowed, rfl⟩, ?_⟩)
  exact fails_bind.mpr (.inl (fails_bind.mpr (.inl h)))

theorem applyNodes_fails_cons {ids : Nat → SourceId} {chain : Chain} {n : Node} {ns : List Node}
    {b : Build} {e : BuildError}
    (h : Fails (n.applyWith ids (n.nested ids) chain) b e ∨
      ∃ b', b.ledger.record? n.id = none ∧ n.Step ids (n.nested ids) chain b b' ∧
        Fails (applyNodes ids chain ns) b' e) :
    Fails (applyNodes ids chain (n :: ns)) b e := by
  rw [applyNodes]
  refine fails_bind.mpr (h.imp_right ?_)
  rintro ⟨b', fresh, step, h⟩
  exact ⟨(), b', step.runs fresh, h⟩

theorem Node.nested_fails {ids : Nat → SourceId} {settings : Settings} {depth : UInt32} {n : Node}
    {inner : Chain} {k : Nat} {e : BuildError} (op : n.operation = .subQuerySource inner)
    (h : Fails (inner.build ids settings depth) k e) : Fails (n.nested ids settings depth) k e := by
  obtain ⟨_, _, _, _, operation⟩ := n
  obtain rfl : operation = .subQuerySource inner := op
  exact fails_bind.mpr (.inl h)

/-- A build fails where its start, one of its steps, or its end fails. -/
theorem Chain.build_fails {ids : Nat → SourceId} {settings : Settings} {depth : UInt32}
    {chain : Chain} {k : Nat} {e : BuildError} {first : Node} {rest : List Node}
    (shallow : depth ≤ settings.maxDepth) (nodes : chain.nodes = first :: rest)
    (linked : chain.checkLinks = .ok ())
    (h : Fails (first.startWith ids (first.nested ids) (.start settings depth)) k e ∨
      ∃ b, first.Start ids (first.nested ids) settings depth chain.resultType k b ∧
        (Fails (applyNodes ids chain rest) b e ∨
          ∃ b', NodeSteps ids chain rest b b' ∧ b'.finish = .error e)) :
    Fails (chain.build ids settings depth) k e := by
  obtain ⟨_, resultType⟩ := chain
  obtain rfl : _ = first :: rest := nodes
  rw [Chain.build.eq_def]
  split_ifs with deep
  · exact absurd deep (UInt32.not_lt.mpr shallow)
  refine fails_bind.mpr (.inr ⟨(), k, runs_lift.mpr ⟨linked, rfl⟩, fails_bind.mpr ?_⟩)
  refine h.imp_right ?_
  rintro ⟨b, start, h⟩
  obtain ⟨s, g, l, k', rfl⟩ := start.exists_eq
  refine ⟨(s, g, l), k', (Node.startWith_runs_iff _).mpr start, Build.complete_fails_iff.mpr ?_⟩
  exact h.imp_right fun ⟨b', steps, hf⟩ => ⟨b', applyNodes_runs_iff.mpr steps, hf⟩

end QueryFold
