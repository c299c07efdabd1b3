import QueryFold.Proofs.Chain.Grounding

/-!
# Builds with and without validation

The settings may ask for the validation of every query that is built. For a chain without
references of its own this changes nothing as long as the query is tidy; a query that is not
tidy is refused for a dangling reference (`build_validating_iff_tidy`). That there are such
queries is shown by `Sample.sizes`: a named value between a source and the selector that
gives the source its projection.

The proof runs both builds side by side. They differ in the settings of their ledgers only,
until the first nested query that is not tidy, where the validating build fails.
-/

namespace QueryFold

/-- The settings with validation. -/
def Settings.validating (s : Settings) : Settings := { s with validate := true }

/-- The ledger of a build with validation. -/
def Ledger.validating (l : Ledger) : Ledger := { l with settings := l.settings.validating }

/-- The build with validation. -/
def Build.validating (b : Build) : Build := { b with ledger := b.ledger.validating }

/-- The computation fails for a reference to a source that is not visible. -/
def FailsDangling {α : Type} (x : DrawM BuildError α) (k : Nat) : Prop :=
  ∃ place id, Fails x k (.query (.danglingReference place id))

theorem Ledger.extends_validating (l : Ledger) : l.Extends l.validating := fun _ _ h => h

/-! ### Steps side by side -/

namespace Node.Step

variable {ids : Nat → SourceId} {nested : Nested} {chain : Chain} {n : Node} {b b' : Build}

theorem validating (h : n.Step ids nested chain b b')
    (hn : ∀ inner k, b'.query.Nests inner →
      Runs (nested b.ledger.settings (b.ledger.depth + 1)) b.drawn inner k →
      Runs (nested b.ledger.settings.validating (b.ledger.depth + 1)) b.drawn inner k) :
    n.Step ids nested chain b.validating b'.validating := by
  have hx := b.ledger.extends_validating
  have hx' : ∀ id r, (b.ledger.noted id r).Extends (b.validating.ledger.noted id r) :=
    fun _ _ _ _ h => h
  cases h with
  | mainSource op allowed items named settled =>
    exact .mainSource (b := b.validating) op allowed items named settled
  | subQuerySource op allowed built items named settled =>
    have hi := hn _ _ (Query.nests_addClause_iff.mpr (.inr rfl)) built
    exact .subQuerySource (b := b.validating) op allowed hi items named settled
  | selectMany op allowed source resolved items named settled =>
    exact .selectMany (b := b.validating) op allowed source
      (Chain.resolveLambda_extends hx resolved) items named settled
  | selectManyResult op allowed projects source resolved items params named result =>
    exact .selectManyResult (b := b.validating) op allowed projects source
      (Chain.resolveLambda_extends hx resolved) items params named
      (resolveResult_extends (hx' _ _) result)
  | filter op allowed source resolved =>
    exact .filter (b := b.validating) op allowed source (Chain.resolveLambda_extends hx resolved)
  | define op allowed source resolved named =>
    exact .define (b := b.validating) op allowed source (Chain.resolveLambda_extends hx resolved)
      named
  | orderBy op allowed source resolved opens =>
    exact .orderBy (b := b.validating) op allowed source (Chain.resolveLambda_extends hx resolved)
      opens
  | thenBy op allowed source resolved joins extended =>
    exact .thenBy (b := b.validating) op allowed source (Chain.resolveLambda_extends hx resolved)
      joins extended
  | select op projects source resolved filled =>
    exact .select (b := b.validating) op projects source (Chain.resolveLambda_extends hx resolved)
      filled
  | groupBy op allowed projects source resolved grouped settled =>
    exact .groupBy (b := b.validating) op allowed projects source
      (Chain.resolveLambda_extends hx resolved) (groupElement_extends hx grouped) settled
  | cast op => exact .cast (b := b.validating) op
  | ofType op => exact .ofType (b := b.validating) op
  | resultOperator op plain source result =>
    exact .resultOperator (b := b.validating) op plain source (ResultOp.replaceM_extends hx result)

end Node.Step

theorem Node.Start.validating {ids : Nat → SourceId} {nested : Nested} {settings : Settings}
    {depth : UInt32} {resultType : Ty} {n : Node} {k : Nat} {b : Build}
    (h : n.Start ids nested settings depth resultType k b)
    (hn : ∀ inner k', b.query.Nests inner → Runs (nested settings (depth + 1)) k inner k' →
      Runs (nested settings.validating (depth + 1)) k inner k') :
    n.Start ids nested settings.validating depth resultType k b.validating := by
  cases h with
  | mainSource op items named => exact .mainSource op items named
  | subQuerySource op built items named =>
    exact .subQuerySource op (hn _ _ (.inr rfl) built) items named

/-! ### Runs side by side -/

/-- With validation, a computation of nested queries gives the tidy ones and refuses the others. -/
def Nested.Validates (nested : Nested) : Prop :=
  ∀ settings depth k q k', settings.validate = false → Runs (nested settings depth) k q k' →
    (q.Tidy → Runs (nested settings.validating depth) k q k') ∧
      (¬ q.Tidy → FailsDangling (nested settings.validating depth) k)

section

variable {ids : Nat → SourceId} {chain : Chain} {ns : List Node} {b b' : Build}

theorem NodeSteps.validating (h : NodeSteps ids chain ns b b')
    (hn : ∀ n ∈ ns, (n.nested ids).Validates) (off : b.ledger.settings.validate = false)
    (tidy : ∀ inner, b'.query.Nests inner → inner.Tidy) :
    NodeSteps ids chain ns b.validating b'.validating := by
  induction h with
  | nil => exact .nil
  | @cons n ns b b₁ b' fresh step rest ih =>
    refine .cons fresh (step.validating fun inner k hi built => ?_)
      (ih (fun n hm => hn n (List.mem_cons_of_mem _ hm)) (step.settings_eq ▸ off) tidy)
    exact (hn n List.mem_cons_self _ _ _ _ _ off built).1 (tidy inner (rest.nests_mono hi))

/-- The first nested query that is not tidy makes the steps fail. -/
theorem NodeSteps.failsDangling (h : NodeSteps ids chain ns b b')
    (plain : ∀ n ∈ chain.nodes, ∀ e ∈ n.operation.expressions, ¬ HoldsQuery e)
    (mem : ∀ n ∈ ns, n ∈ chain.nodes) (hn : ∀ n ∈ ns, (n.nested ids).Validates)
    (off : b.ledger.settings.validate = false)
    (tidy : ∀ inner, b.query.Nests inner → inner.Tidy)
    (untidy : ∃ inner, b'.query.Nests inner ∧ ¬ inner.Tidy) :
    ∃ place id, Fails (applyNodes ids chain ns) b.validating
      (.query (.danglingReference place id)) := by
  induction h with
  | nil =>
    obtain ⟨inner, hi, ht⟩ := untidy
    exact absurd (tidy inner hi) ht
  | @cons n ns b b₁ b' fresh step rest ih =>
    have here := hn n List.mem_cons_self
    by_cases tidy₁ : ∀ inner, b₁.query.Nests inner → inner.Tidy
    · obtain ⟨place, id, hf⟩ := ih (fun n hm => mem n (List.mem_cons_of_mem _ hm))
        (fun n hm => hn n (List.mem_cons_of_mem _ hm)) (step.settings_eq ▸ off) tidy₁ untidy
      refine ⟨place, id, applyNodes_fails_cons (.inr ⟨b₁.validating, fresh, ?_, hf⟩)⟩
      exact step.validating fun inner k hi built =>
        (here _ _ _ _ _ off built).1 (tidy₁ inner hi)
    · -- The step has nested a query that is not tidy, so it is the one that fails.
      simp only [not_forall] at tidy₁
      obtain ⟨inner, hi, ht⟩ := tidy₁
      obtain hb | ⟨c, k, op, allowed, built⟩ := step.nests plain (mem n List.mem_cons_self) hi
      · exact absurd (tidy inner hb) ht
      obtain ⟨place, id, hf⟩ := (here _ _ _ _ _ off built).2 ht
      exact ⟨place, id, applyNodes_fails_cons
        (.inl (Node.applyWith_fails_of_nested (b := b.validating) op fresh allowed hf))⟩

end

/-! ### Chains -/

namespace Chain

variable {ids : Nat → SourceId} {settings : Settings} {depth : UInt32} {chain : Chain} {k k' : Nat}
  {q : Query} {l : Ledger}

/-- The validation at the end finds a dangling reference, or nothing if the query is tidy. -/
theorem validate_of_built (inj : Function.Injective ids) (bare : chain.Throughout Expr.Bare)
    (h : chain.Built ids settings depth k q l k') :
    (q.Tidy → q.validate = .ok ()) ∧
      (¬ q.Timely → ∃ place id, q.validate = .error (.danglingReference place id)) := by
  have sound := h.within_sound inj (bare.mono fun _ he => he.plain) .self
  refine ⟨fun tidy => Query.validateWithin_eq_ok_iff.mpr ⟨sound, h.grounded bare tidy⟩,
    fun untimely => sound.dangles.resolve_left fun hok => untimely ?_⟩
  exact (Query.validateWithin_eq_ok_iff.mp hok).2.timely

/-- With validation, the nested chains of a chain are built if their queries are tidy. -/
theorem nested_validates {n : Node}
    (h : ∀ inner settings depth k q l k', n.operation = .subQuerySource inner →
      settings.validate = false → inner.Built ids settings depth k q l k' →
        (q.Tidy → inner.Built ids settings.validating depth k q l.validating k') ∧
          (¬ q.Tidy → FailsDangling (inner.build ids settings.validating depth) k)) :
    (n.nested ids).Validates := by
  intro settings depth k q k' off hr
  obtain ⟨inner, l, op, hb⟩ := Node.nested_runs_iff.mp hr
  obtain ⟨htidy, huntidy⟩ := h inner settings depth k q l k' op off hb
  refine ⟨fun tidy => Node.nested_runs_iff.mpr ⟨inner, _, op, htidy tidy⟩, fun untidy => ?_⟩
  obtain ⟨place, id, hf⟩ := huntidy untidy
  exact ⟨place, id, Node.nested_fails op hf⟩

/-- With validation, a bare chain is built to the same query if that is tidy; else it is refused. -/
theorem Built.validating (inj : Function.Injective ids) (bare : chain.Throughout Expr.Bare)
    (off : settings.validate = false) (h : chain.Built ids settings depth k q l k') :
    (q.Tidy → chain.Built ids settings.validating depth k q l.validating k') ∧
      (¬ q.Tidy → FailsDangling (chain.build ids settings.validating depth) k) := by
  induction chain using Chain.induction generalizing settings depth k q l k' with
  | step chain ih =>
    have valid := validate_of_built inj bare h
    obtain ⟨own, inner⟩ := bare
    have plain : ∀ n ∈ chain.nodes, ∀ e ∈ n.operation.expressions, ¬ HoldsQuery e :=
      fun n hm e he => (own n hm e he).plain
    have hn : ∀ n ∈ chain.nodes, (n.nested ids).Validates := fun n hm =>
      nested_validates fun c _ _ _ _ _ _ op off hb => ih c ⟨n, hm, op⟩ (inner c ⟨n, hm, op⟩) off hb
    cases h with
    | @intro first rest b b' p shallow nodes linked start steps projects settled unended _ =>
      have hfirst := hn first (nodes ▸ List.mem_cons_self)
      have mem : ∀ n ∈ rest, n ∈ chain.nodes := fun n hm => nodes ▸ List.mem_cons_of_mem _ hm
      have hrest := fun n hm => hn n (mem n hm)
      have off' : b.ledger.settings.validate = false := start.settings_eq ▸ off
      have start' : (∀ inner, b.query.Nests inner → inner.Tidy) →
          first.Start ids (first.nested ids) settings.validating depth chain.resultType k
            b.validating :=
        fun tidy => start.validating fun inner k' hi hr =>
          (hfirst _ _ _ _ _ off hr).1 (tidy inner hi)
      constructor
      · intro tidy
        have tidy' := (Query.tidy_iff.mp tidy).2
        have started := start' fun inner hi => tidy' inner (steps.nests_mono hi)
        exact @Built.intro ids settings.validating depth chain k first rest b.validating
          b'.validating p shallow nodes linked started (steps.validating hrest off' tidy') projects
          settled unended fun _ => valid.1 tidy
      · intro untidy
        by_cases tidy₁ : ∀ inner, b.query.Nests inner → inner.Tidy
        · by_cases tidy₂ : ∀ inner, b'.query.Nests inner → inner.Tidy
          · obtain ⟨place, id, hv⟩ := valid.2 fun timely =>
              untidy (Query.tidy_iff.mpr ⟨timely, tidy₂⟩)
            refine ⟨place, id, build_fails shallow nodes linked (.inr ⟨_, start' tidy₁, .inr
              ⟨_, steps.validating hrest off' tidy₂, ?_⟩⟩)⟩
            exact Build.finish_eq_error projects settled unended rfl hv
          · simp only [not_forall, exists_prop] at tidy₂
            obtain ⟨place, id, hf⟩ := steps.failsDangling plain mem hrest off' tidy₁ tidy₂
            exact ⟨place, id, build_fails shallow nodes linked
              (.inr ⟨_, start' tidy₁, .inl hf⟩)⟩
        · simp only [not_forall] at tidy₁
          obtain ⟨inner, hi, ht⟩ := tidy₁
          obtain ⟨c, k₁, op, hr⟩ := start.nests (plain first (nodes ▸ List.mem_cons_self)) hi
          obtain ⟨place, id, hf⟩ := (hfirst _ _ _ _ _ off hr).2 ht
          exact ⟨place, id, build_fails shallow nodes linked
            (.inl (Node.startWith_fails_of_nested op hf))⟩

end Chain

/-- **Validation of builds**: without validation a chain that refers to no sources itself may be
built to a query that is not tidy. With validation the build gives the same query exactly if it is
tidy, and otherwise fails for a reference to a source that is not visible. -/
theorem build_validating_iff_tidy {ids : Nat → SourceId} (inj : Function.Injective ids)
    {settings : Settings} (off : settings.validate = false) {chain : Chain}
    (bare : chain.Throughout Expr.Bare) {k k' : Nat} {q : Query} {l : Ledger}
    (h : Runs (chain.toQuery ids settings) k (q, l) k') :
    (Runs (chain.toQuery ids settings.validating) k (q, l.validating) k' ↔ q.Tidy) ∧
      (FailsDangling (chain.toQuery ids settings.validating) k ↔ ¬ q.Tidy) := by
  obtain ⟨htidy, huntidy⟩ := (Chain.build_runs_iff.mp h).validating inj bare off
  have hruns := fun tidy => Chain.build_runs_iff.mpr (htidy tidy)
  refine ⟨⟨fun hr => ?_, hruns⟩, ⟨?_, huntidy⟩⟩
  · by_contra untidy
    obtain ⟨place, id, hf⟩ := huntidy untidy
    exact hr.not_fails hf
  · rintro ⟨place, id, hf⟩ tidy
    exact (hruns tidy).not_fails hf

namespace Sample

/-- Settings without validation. -/
def unchecked : Settings := { validate := false }

/-- A kitchen. -/
def kitchen : Param := ⟨"k", Ty.plain "Kitchen"⟩

/-- The size of a kitchen, by its name. -/
def size : Param := ⟨"x", Ty.plain "int"⟩

/-- The sizes of the kitchens, named before they are selected, for each cook. -/
def sizes : Chain where
  nodes := [⟨⟨0⟩, none, "s", "MainSource", .mainSource cooks⟩,
    ⟨⟨1⟩, some ⟨0⟩, "k", "MainSource",
      .mainSource (.external "Kitchen[]" (Ty.array (Ty.plain "Kitchen")))⟩,
    ⟨⟨2⟩, some ⟨1⟩, "k", "Let",
      .define size ⟨[kitchen], .member (.param kitchen) "Size" (Ty.plain "int")⟩⟩,
    ⟨⟨3⟩, some ⟨2⟩, "k", "Select", .select ⟨[kitchen], .param size⟩⟩]
  resultType := Ty.queryable (Ty.plain "int")

theorem bare_sizes : sizes.Throughout Expr.Bare := by
  have leaf : ∀ {e : Expr}, (∀ q, e ≠ .subQuery q) → (∀ r, e ≠ .item r) → e.children = [] →
      e.Bare := by
    intro e hq hi hc
    simp [Expr.bare_iff_children hq hi, hc]
  have hm : (Expr.member (.param kitchen) "Size" (Ty.plain "int")).Bare := by
    rw [Expr.bare_iff_children (by simp) (by simp)]
    rintro c hc
    obtain rfl := List.mem_singleton.mp hc
    exact leaf (by simp) (by simp) rfl
  refine .intro ?_ ?_
  · have hs : cooks.Bare :=
      leaf (by simp [cooks, Expr.external]) (by simp [cooks, Expr.external]) rfl
    have hk : (Expr.external "Kitchen[]" (Ty.array (Ty.plain "Kitchen"))).Bare :=
      leaf (by simp [Expr.external]) (by simp [Expr.external]) rfl
    have hp : (Expr.param size).Bare := leaf (by simp) (by simp) rfl
    simp [sizes, Operation.expressions, hs, hk, hm, hp]
  · rintro inner ⟨n, hn, op⟩
    simp only [sizes, List.mem_cons, List.not_mem_nil, or_false] at hn
    rcases hn with rfl | rfl | rfl | rfl <;> cases op

end Sample

theorem sizes_validating_iff_tidy : ∃ q l k,
    Runs (Sample.sizes.toQuery SourceId.countUp Sample.unchecked) 0 (q, l) k ∧
      (Runs (Sample.sizes.toQuery SourceId.countUp Sample.unchecked.validating) 0
        (q, l.validating) k ↔ q.Tidy) ∧
      (FailsDangling (Sample.sizes.toQuery SourceId.countUp Sample.unchecked.validating) 0 ↔
        ¬ q.Tidy) := by
  obtain ⟨⟨q, l⟩, k, h⟩ := exists_runs
    (x := Sample.sizes.toQuery SourceId.countUp Sample.unchecked) (s := 0) (by decide +kernel)
  exact ⟨q, l, k, h,
    build_validating_iff_tidy SourceId.countUp_injective rfl Sample.bare_sizes h⟩

/-- The projection of the kitchens speaks of the named sizes, which come after the kitchens. -/
theorem sizes_refused : Sample.sizes.Throughout Expr.Bare ∧
    (∃ q l k, Runs (Sample.sizes.toQuery SourceId.countUp Sample.unchecked) 0 (q, l) k) ∧
    Fails (Sample.sizes.toQuery SourceId.countUp Sample.unchecked.validating) 0
      (.query (.danglingReference "body clause 0" ⟨3⟩)) := by
  refine ⟨Sample.bare_sizes, ?_, ?_⟩
  · obtain ⟨⟨q, l⟩, k, h⟩ := exists_runs
      (x := Sample.sizes.toQuery SourceId.countUp Sample.unchecked) (s := 0) (by decide +kernel)
    exact ⟨q, l, k, h⟩
  · exact fails_of_failure? (by decide +kernel)

end QueryFold
