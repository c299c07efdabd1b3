import QueryFold.Proofs.Chain.Limit
import QueryFold.Proofs.Chain.Nesting

/-!
# The limit on nesting

How deeply chains are nested in a chain is a property of the chain alone (`Chain.nesting`). The
limit of the settings cuts a build off at the level below it. So a chain that is built is nested
within the limit, a build that fails for the depth fails one level below the limit, and a build
that does not fail in this way does the same under every larger limit (`toQuery_within_limit`).

For the last two, builds under two limits run side by side. They differ in the limit that their
ledgers carry and in nothing else, until the one with the smaller limit is cut off.
-/

namespace QueryFold

/-! ### How deeply chains are nested -/

mutual

/-- How deeply chains are nested in a chain. -/
def Chain.nesting : Chain → Nat
  | ⟨nodes, _⟩ => nodesNesting nodes

/-- The greatest nesting in some nodes. -/
def nodesNesting : List Node → Nat
  | [] => 0
  | n :: ns => max n.nesting (nodesNesting ns)

/-- The nesting in a node. -/
def Node.nesting : Node → Nat
  | ⟨_, _, _, _, operation⟩ => operation.nesting

/-- The nesting in an operation: that of the chain of a sub-query source, and one more. -/
def Operation.nesting : Operation → Nat
  | .subQuerySource chain => chain.nesting + 1
  | _ => 0

end

theorem nodesNesting_le_iff {ns : List Node} {d : Nat} :
    nodesNesting ns ≤ d ↔ ∀ n ∈ ns, n.nesting ≤ d := by
  induction ns with
  | nil => simp [nodesNesting]
  | cons n ns ih => rw [nodesNesting, Nat.max_le, ih, List.forall_mem_cons]

theorem Operation.nesting_le_iff {op : Operation} {d : Nat} :
    op.nesting ≤ d ↔ ∀ inner, op = .subQuerySource inner → inner.nesting < d := by
  cases op with
  | subQuerySource chain =>
    simp only [nesting, Operation.subQuerySource.injEq, forall_eq', Nat.succ_le_iff]
  | _ => simp [nesting]

/-- The nesting in a chain is bounded exactly if that in the chains nested there is. -/
theorem Chain.nesting_le_iff {chain : Chain} {d : Nat} :
    chain.nesting ≤ d ↔ ∀ inner, chain.Nests inner → inner.nesting < d := by
  obtain ⟨nodes, resultType⟩ := chain
  rw [nesting, nodesNesting_le_iff]
  constructor
  · rintro h inner ⟨⟨_, _, _, _, operation⟩, hn, rfl⟩
    exact Operation.nesting_le_iff.mp (h _ hn) inner rfl
  · rintro h ⟨_, _, _, _, operation⟩ hn
    rw [Node.nesting, Operation.nesting_le_iff]
    rintro inner rfl
    exact h inner ⟨_, hn, rfl⟩

theorem Chain.Nests.nesting_lt {chain inner : Chain} (h : chain.Nests inner) :
    inner.nesting < chain.nesting :=
  Chain.nesting_le_iff.mp (Nat.le_refl _) inner h

/-! ### Chains under two limits -/

section

variable {settings : Settings} {depth limit : UInt32} {excused : BuildError → Prop}
  {ids : Nat → SourceId} {chain : Chain}

theorem couples_applyNodes {ns : List Node}
    (hn : ∀ n ∈ ns, (drawsAlike excused).Couples Eq (n.nested ids settings (depth + 1))
      (n.nested ids (settings.limited limit) (depth + 1))) :
    (buildsAlike settings depth limit excused).Couples Eq (applyNodes ids chain ns)
      (applyNodes ids chain ns) := by
  induction ns with
  | nil => exact .pure rfl
  | cons n ns ih =>
    rw [List.forall_mem_cons] at hn
    exact .bind (n.couples_applyWith ids chain hn.1) fun _ _ _ => ih hn.2

theorem Build.finish_limited (b : Build) :
    (b.limited limit).finish = (fun p => (p.1, p.2.limited limit)) <$> b.finish := by
  have validate : (b.ledger.limited limit).settings.validate = b.ledger.settings.validate := rfl
  rw [finish, finish, ledger_limited, Ledger.projection_limited, Ledger.openFrom_limited,
    query_limited, validate]
  cases b.ledger.projection with
  | none => rfl
  | some p =>
    cases b.ledger.openFrom with
    | some waiting => rfl
    | none =>
      dsimp only
      rw [map_bind]
      refine congrArg (ofQueryResult _ >>= ·) (funext fun q => ?_)
      split_ifs
      · rw [map_bind]
        rfl
      · rfl

theorem Build.sober_finish (b : Build) : Sober b.finish := by
  rw [finish]
  cases b.ledger.projection with
  | none => exact sober_throw.mpr BuildError.sober_noProjection
  | some p =>
    cases b.ledger.openFrom with
    | some waiting => exact sober_throw.mpr (OpenFrom.sober_error _)
    | none =>
      refine (sober_ofQueryResult _).bind fun q _ => ?_
      split_ifs
      · exact (sober_ofQueryResult _).bind fun _ _ => sober_pure _
      · exact sober_pure _

theorem Build.couples_complete {step : BuildM Unit} {q : Query} {l : Ledger}
    (h : (buildsAlike l.settings l.depth limit excused).Couples Eq step step) :
    (drawsAlike excused).Couples (fun p p' => p'.1 = p.1) (complete step q l)
      (complete step q (l.limited limit)) := by
  rintro _ k rfl
  have ends := h ⟨q, l, k⟩ ⟨q, l.limited limit, k⟩ ⟨rfl, rfl, rfl⟩
  rw [execute_complete, execute_complete]
  generalize execute step ⟨q, l, k⟩ = r, execute step ⟨q, l.limited limit, k⟩ = r' at ends ⊢
  cases ends with
  | @values _ _ b _ _ states =>
    obtain ⟨-, -, rfl⟩ := states
    show (drawsAlike excused).Ends _ (b.finish, b.drawn) ((b.limited limit).finish, b.drawn)
    rw [finish_limited]
    cases hb : b.finish with
    | ok p => exact .values rfl rfl
    | error e => exact .failure (b.sober_finish e hb) rfl
  | failure shared states => exact .failure shared (by rw [states.2.2]; rfl)
  | excused h => exact .excused h

end

/-- The error of a build under a limit that is less than a nesting. -/
def TooDeepFor (limit : UInt32) (nesting : Nat) (e : BuildError) : Prop :=
  e = .tooDeep (limit + 1) limit ∧ limit.toNat < nesting

/-- More may be excused. -/
theorem drawsAlike_mono {α β : Type} {excused excused' : BuildError → Prop}
    {values : α → β → Prop} {x : DrawM BuildError α} {y : DrawM BuildError β}
    (h : (drawsAlike excused).Couples values x y) (more : ∀ e, excused e → excused' e) :
    (drawsAlike excused').Couples values x y := by
  intro k k' same
  have ends := h k k' same
  generalize execute x k = r, execute y k' = r' at ends ⊢
  cases ends with
  | values related states => exact .values related states
  | failure shared states => exact .failure shared states
  | excused h => exact .excused (more _ h)

/-- Runs whose first components agree do the same, unless the first one stops early. -/
theorem execute_fst_eq {α β : Type} {excused : BuildError → Prop} {x y : DrawM BuildError (α × β)}
    {k : Nat} (h : (drawsAlike excused).Couples (fun p p' => p'.1 = p.1) x y)
    (goesOn : ∀ e, excused e → ¬ Fails x k e) :
    execute (Prod.fst <$> y) k = execute (Prod.fst <$> x) k := by
  have ends := h k k rfl
  simp only [Fails] at goesOn
  rw [execute_map, execute_map]
  generalize execute x k = r, execute y k = r' at ends goesOn ⊢
  cases ends with
  | values same states =>
    obtain rfl := states
    exact Prod.ext (congrArg Except.ok same) rfl
  | failure _ states =>
    obtain rfl := states
    rfl
  | excused h => exact absurd rfl (goesOn _ h)

theorem toNat_succ_of_lt {d : UInt32} (h : d.toNat + 1 < UInt32.size) :
    (d + 1).toNat = d.toNat + 1 := by
  rw [UInt32.toNat_add, UInt32.toNat_one, Nat.mod_eq_of_lt h]

/-- **Building a chain** does the same under two limits, unless the build under the smaller one
fails for the nesting of the chain. -/
theorem Chain.couples_build {ids : Nat → SourceId} {settings : Settings} {limit depth : UInt32}
    {chain : Chain} (bounded : settings.maxDepth.toNat + 1 < UInt32.size)
    (le : settings.maxDepth ≤ limit) (hd : depth.toNat ≤ settings.maxDepth.toNat + 1) :
    (drawsAlike (TooDeepFor settings.maxDepth (depth.toNat + chain.nesting))).Couples
      (fun p p' => p'.1 = p.1) (chain.build ids settings depth)
      (chain.build ids (settings.limited limit) depth) := by
  induction chain using Chain.induction generalizing depth with
  | step chain ih =>
    by_cases deep : settings.maxDepth < depth
    · -- The build is one level deeper than the limit, and stops here.
      rintro _ k rfl
      have deepest : depth = settings.maxDepth + 1 := by
        apply UInt32.toNat_inj.mp
        rw [toNat_succ_of_lt bounded]
        have := UInt32.lt_iff_toNat_lt.mp deep
        omega
      have stops : execute (chain.build ids settings depth) k =
          (.error (.tooDeep depth settings.maxDepth), k) := by
        cases chain
        rw [Chain.build.eq_def]
        split_ifs
        rfl
      rw [stops]
      refine .excused ⟨by rw [deepest], ?_⟩
      have := UInt32.lt_iff_toNat_lt.mp deep
      omega
    · have shallow : depth.toNat ≤ settings.maxDepth.toNat :=
        UInt32.le_iff_toNat_le.mp (UInt32.not_lt.mp deep)
      have next : (depth + 1).toNat = depth.toNat + 1 := toNat_succ_of_lt (by omega)
      have shallow' : ¬ (settings.limited limit).maxDepth < depth := by
        have := UInt32.le_iff_toNat_le.mp le
        rw [UInt32.lt_iff_toNat_lt]
        show ¬ limit.toNat < depth.toNat
        omega
      have hn : ∀ n ∈ chain.nodes,
          (drawsAlike (TooDeepFor settings.maxDepth (depth.toNat + chain.nesting))).Couples Eq
            (n.nested ids settings (depth + 1))
            (n.nested ids (settings.limited limit) (depth + 1)) := by
        rintro ⟨_, _, _, _, operation⟩ hn
        cases operation with
        | subQuerySource inner =>
          have nests : chain.Nests inner := ⟨_, hn, rfl⟩
          have lt := nests.nesting_lt
          have hd' : (depth + 1).toNat ≤ settings.maxDepth.toNat + 1 := by omega
          have built := ih inner nests hd'
          refine .bind (drawsAlike_mono built fun e he => ⟨he.1, ?_⟩) fun p p' h => .pure h.symm
          have := he.2
          omega
        | _ => exact .throw BuildError.sober_noProjection
      obtain ⟨nodes, resultType⟩ := chain
      rw [Chain.build.eq_def, Chain.build.eq_def]
      split_ifs
      cases nodes with
      | nil => exact .throw BuildError.sober_noProjection
      | cons first rest =>
        rw [List.forall_mem_cons] at hn
        refine .bind (.lift (sober_checkLinks _)) ?_
        rintro _ _ -
        refine .bind (first.couples_startWith ids hn.1) ?_
        rintro ⟨source, generator, l⟩ _ ⟨rfl, rfl, rfl⟩
        exact Build.couples_complete (couples_applyNodes hn.2)

/-! ### Builds that succeed -/

section

variable {ids : Nat → SourceId} {chain : Chain} {n : Node} {inner : Chain}

theorem Node.Step.nested_runs {nested : Nested} {b b' : Build} (h : n.Step ids nested chain b b')
    (op : n.operation = .subQuerySource inner) :
    ∃ q k, Runs (nested b.ledger.settings (b.ledger.depth + 1)) b.drawn q k := by
  cases h with
  | subQuerySource _ _ built _ _ _ => exact ⟨_, _, built⟩
  | _ => simp_all

theorem Node.Start.nested_runs {nested : Nested} {settings : Settings} {depth : UInt32}
    {resultType : Ty} {k : Nat} {b : Build} (h : n.Start ids nested settings depth resultType k b)
    (op : n.operation = .subQuerySource inner) :
    ∃ q k', Runs (nested settings (depth + 1)) k q k' := by
  cases h with
  | subQuerySource _ built _ _ => exact ⟨_, _, built⟩
  | _ => simp_all

/-- Every nested chain of the nodes that were applied was built, one level deeper. -/
theorem NodeSteps.nested_runs {ns : List Node} {b b' : Build} (h : NodeSteps ids chain ns b b')
    (hn : n ∈ ns) (op : n.operation = .subQuerySource inner) :
    ∃ k q k', Runs (n.nested ids b.ledger.settings (b.ledger.depth + 1)) k q k' := by
  induction h with
  | nil => simp at hn
  | cons fresh step rest ih =>
    rcases List.mem_cons.mp hn with rfl | hn
    · exact ⟨_, step.nested_runs op⟩
    · rw [← step.settings_eq, ← step.depth_eq]
      exact ih hn

end

namespace Chain

variable {ids : Nat → SourceId} {settings : Settings} {chain : Chain}

/-- Every nested chain of a chain that is built is built as well, one level deeper. -/
theorem Built.nested {depth : UInt32} {k k' : Nat} {q : Query} {l : Ledger} {inner : Chain}
    (h : chain.Built ids settings depth k q l k') (nests : chain.Nests inner) :
    ∃ k q l k', inner.Built ids settings (depth + 1) k q l k' := by
  obtain ⟨n, hn, op⟩ := nests
  have runs : ∃ k q k', Runs (n.nested ids settings (depth + 1)) k q k' := by
    cases h with
    | @intro first rest b b' p _ nodes _ start steps _ _ _ _ =>
      rw [nodes] at hn
      rcases List.mem_cons.mp hn with rfl | hn
      · exact ⟨_, start.nested_runs op⟩
      · have := steps.nested_runs hn op
        rwa [start.settings_eq, start.depth_eq] at this
  obtain ⟨k, q, k', hr⟩ := runs
  obtain ⟨inner', l, op', built⟩ := Node.nested_runs_iff.mp hr
  cases op.symm.trans op'
  exact ⟨k, q, l, k', built⟩

/-- A chain that is built is not nested beyond the limit. -/
theorem Built.nesting_le {depth : UInt32} {k k' : Nat} {q : Query} {l : Ledger}
    (bounded : settings.maxDepth.toNat + 1 < UInt32.size)
    (h : chain.Built ids settings depth k q l k') :
    depth.toNat + chain.nesting ≤ settings.maxDepth.toNat := by
  induction chain using Chain.induction generalizing depth k k' q l with
  | step chain ih =>
    have shallow : depth.toNat ≤ settings.maxDepth.toNat := by
      cases h with
      | intro shallow => exact UInt32.le_iff_toNat_le.mp shallow
    have next : (depth + 1).toNat = depth.toNat + 1 := toNat_succ_of_lt (by omega)
    have within : chain.nesting ≤ settings.maxDepth.toNat - depth.toNat := by
      rw [nesting_le_iff]
      intro inner nests
      obtain ⟨_, _, _, _, built⟩ := h.nested nests
      have := ih inner nests built
      omega
    omega

end Chain

/-- **The limit on nesting.** Under a limit below the greatest number of thirty-two bits, a chain
that is built is nested at most as deeply as the limit says; a build that fails for the depth fails
one level below the limit, and the chain is nested more deeply than the limit allows; and a build
that does not fail for the depth does the same under every larger limit: it gives the same query or
fails with the same error, and draws as many identities. -/
theorem toQuery_within_limit {ids : Nat → SourceId} {settings : Settings}
    (bounded : settings.maxDepth.toNat + 1 < UInt32.size) (chain : Chain) (k : Nat) :
    (∀ q l k', Runs (chain.toQuery ids settings) k (q, l) k' →
      chain.nesting ≤ settings.maxDepth.toNat) ∧
    (∀ depth limit, Fails (chain.toQuery ids settings) k (.tooDeep depth limit) →
      limit = settings.maxDepth ∧ depth.toNat = settings.maxDepth.toNat + 1 ∧
        settings.maxDepth.toNat < chain.nesting) ∧
    ((∀ depth limit, ¬ Fails (chain.toQuery ids settings) k (.tooDeep depth limit)) →
      ∀ limit, settings.maxDepth ≤ limit →
        execute (Prod.fst <$> chain.toQuery ids { settings with maxDepth := limit }) k =
          execute (Prod.fst <$> chain.toQuery ids settings) k) := by
  -- The two builds end alike, unless the chain is nested more deeply than the smaller limit.
  have ends (limit : UInt32) (le : settings.maxDepth ≤ limit) :
      (drawsAlike (TooDeepFor settings.maxDepth chain.nesting)).Couples
        (fun p p' => p'.1 = p.1) (chain.build ids settings 0)
        (chain.build ids (settings.limited limit) 0) := by
    have nesting : (0 : UInt32).toNat + chain.nesting = chain.nesting := Nat.zero_add _
    rw [← nesting]
    exact chain.couples_build bounded le (Nat.zero_le _)
  refine ⟨fun q l k' h => ?_, fun depth limit h => ?_, fun sober limit le => ?_⟩
  · have := (Chain.build_runs_iff.mp h).nesting_le bounded
    simpa using this
  · have same := ends settings.maxDepth (UInt32.le_refl _)
    obtain ⟨deepest, deep⟩ := same.excused_of_fails rfl h fun shared => shared depth limit rfl
    cases deepest
    exact ⟨rfl, toNat_succ_of_lt bounded, deep⟩
  · refine execute_fst_eq (ends limit le) fun e tooDeep => ?_
    rw [tooDeep.1]
    exact sober _ _

/-- The pairs are nested once: the limit zero is too small for them, and from the limit one on
nothing changes. -/
theorem pairs_within_limit :
    Fails (Sample.pairs.toQuery SourceId.countUp ⟨0, true⟩) 0 (.tooDeep 1 0) ∧
      0 < Sample.pairs.nesting ∧
      ∀ limit, 1 ≤ limit →
        execute (Prod.fst <$> Sample.pairs.toQuery SourceId.countUp ⟨limit, true⟩) 0 =
          execute (Prod.fst <$> Sample.pairs.toQuery SourceId.countUp ⟨1, true⟩) 0 := by
  have failed : Fails (Sample.pairs.toQuery SourceId.countUp ⟨0, true⟩) 0 (.tooDeep 1 0) :=
    fails_of_failure? (by decide +kernel)
  obtain ⟨q, k, built⟩ := exists_runs
    (x := Sample.pairs.toQuery SourceId.countUp ⟨1, true⟩) (s := 0) (by decide +kernel)
  refine ⟨failed, ?_, ?_⟩
  · exact ((toQuery_within_limit (by decide) Sample.pairs 0).2.1 1 0 failed).2.2
  · exact (toQuery_within_limit (by decide) Sample.pairs 0).2.2 fun _ _ => built.not_fails

end QueryFold
