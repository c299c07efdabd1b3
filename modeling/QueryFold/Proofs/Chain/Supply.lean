import QueryFold.Proofs.Chain.Checking
import QueryFold.Proofs.Chain.Transport

/-!
# The supply of identities

Which identities a supply hands out does not matter, as long as it hands out none twice. Every
injective supply is compared with the one that counts from zero: the build from the supply is that
build with other identities (`Chain.execute_toQuery`). Two builds from injective supplies are then
the same but for their identities, and the k-th identity drawn for the one stands in the places of
the k-th identity drawn for the other (`toQuery_renumber`).

The two are not compared directly, because the function between their identities need not extend to
an injective one: a supply may leave out identities where the other one leaves out none.
-/

namespace QueryFold

variable {ρ : SourceId → SourceId} {m : Nat} {ids ids' : Nat → SourceId}

/-! ### Whole builds -/

/-- The query and the ledger of a build with other identities. -/
def renumberBuilt (ρ : SourceId → SourceId) : Query × Ledger → Query × Ledger :=
  Prod.map (·.renumber ρ) (·.renumber ρ)

theorem Build.finish_renumber (inj : Function.Injective ρ) (b : Build) :
    (b.renumber ρ m).finish = carry (BuildError.renumber ρ) (renumberBuilt ρ) b.finish := by
  have projects : (b.renumber ρ m).ledger.projection = b.ledger.projection.map (·.renumber ρ) := rfl
  have waits : (b.renumber ρ m).ledger.openFrom = b.ledger.openFrom := rfl
  have settings : (b.renumber ρ m).ledger.settings = b.ledger.settings := rfl
  unfold finish
  rw [projects, waits, settings]
  cases b.ledger.projection with
  | none => rfl
  | some p =>
    dsimp only [Option.map_some]
    cases b.ledger.openFrom with
    | some _ => rfl
    | none =>
      have ended := b.query.setTerminal_renumber ρ p.terminal
      rw [← p.terminal_renumber] at ended
      refine bind_eq_carry (ofQueryResult_renumber ended) fun q => ?_
      split_ifs
      · have valid := Query.validateWithin_renumber inj [] q
        exact bind_eq_carry (ofQueryResult_renumber valid) fun _ => rfl
      · rfl

theorem Build.carries_complete (inj : Function.Injective ρ) {step step' : BuildM Unit}
    (h : (buildsRenumbered ρ m).Repeats step step') (q : Query) (l : Ledger) :
    (drawsRenumbered ρ m).Carries (renumberBuilt ρ) (complete step q l)
      (complete step' (q.renumber ρ) (l.renumber ρ)) := by
  intro k
  have ran : execute step' ⟨q.renumber ρ, l.renumber ρ, (drawsRenumbered ρ m).state k⟩ = _ :=
    h ⟨q, l, k⟩
  rw [execute_complete, execute_complete, ran]
  refine Prod.ext ?_ rfl
  exact bind_eq_carry rfl fun _ => finish_renumber inj _

theorem carries_applyNodes {chain : Chain} (supplied : ∀ k, ids' (m + k) = ρ (ids k))
    (fixed : ∀ n ∈ chain.nodes, ∀ e ∈ n.operation.expressions, e.Fixed ρ) {ns : List Node}
    (own : ∀ n ∈ ns, ∀ e ∈ n.operation.expressions, e.Fixed ρ)
    (nested : ∀ n ∈ ns, ∀ settings depth, (drawsRenumbered ρ m).Carries (·.renumber ρ)
      (n.nested ids settings depth) (n.nested ids' settings depth)) :
    (buildsRenumbered ρ m).Repeats (applyNodes ids chain ns) (applyNodes ids' chain ns) := by
  induction ns with
  | nil => exact .pure rfl
  | cons n ns ih =>
    have first := n.carries_applyWith supplied fixed (own n List.mem_cons_self)
      (nested n List.mem_cons_self)
    exact .seq first (ih (fun n' h => own n' (List.mem_cons_of_mem _ h))
      fun n' h => nested n' (List.mem_cons_of_mem _ h))

namespace Chain

/-- **Building a chain** is carried over to a supply that hands out the images of the identities by
an injective function, if the chain holds no identities itself. -/
theorem carries_build (inj : Function.Injective ρ) (supplied : ∀ k, ids' (m + k) = ρ (ids k))
    {chain : Chain} (fixed : chain.Throughout (Expr.Fixed ρ)) (settings : Settings)
    (depth : UInt32) :
    (drawsRenumbered ρ m).Carries (renumberBuilt ρ) (chain.build ids settings depth)
      (chain.build ids' settings depth) := by
  induction chain using Chain.induction generalizing settings depth with
  | step chain ih =>
    obtain ⟨own, inner⟩ := fixed
    -- the nested computation of a node that is no sub-query source fails, whatever the supply
    have nested : ∀ n ∈ chain.nodes, ∀ settings depth,
        (drawsRenumbered ρ m).Carries (·.renumber ρ) (n.nested ids settings depth)
          (n.nested ids' settings depth) := by
      rintro ⟨id, source, identifier, callSite, operation⟩ hn settings depth
      cases operation with
      | subQuerySource c =>
        have hc : chain.Nests c := ⟨_, hn, rfl⟩
        exact .bind (ih c hc (inner c hc) settings depth) fun _ => .pure rfl
      | _ => exact .throw rfl
    obtain ⟨nodes, resultType⟩ := chain
    rw [Chain.build.eq_def, Chain.build.eq_def]
    split_ifs
    · exact .throw rfl
    cases nodes with
    | nil => exact .throw rfl
    | cons first rest =>
      refine .seq (.lift (checkLinks_renumber ρ ⟨first :: rest, resultType⟩)) ?_
      have starts := first.carries_startWith supplied (own first List.mem_cons_self)
        (nested first List.mem_cons_self) (.start settings depth)
      refine .bind starts ?_
      rintro ⟨source, generator, l⟩
      have steps := carries_applyNodes supplied own
        (fun n hn => own n (List.mem_cons_of_mem _ hn))
        fun n hn => nested n (List.mem_cons_of_mem _ hn)
      have built := Build.carries_complete inj steps (.start source generator resultType) l
      rwa [Query.start_renumber] at built

end Chain

/-! ### Two renumberings of a build -/

section

variable (ρ σ : SourceId → SourceId)

theorem BuildError.renumber_renumber (e : BuildError) :
    (e.renumber ρ).renumber σ = e.renumber (σ ∘ ρ) := by
  cases e with
  | query cause => cases cause <;> rfl
  | _ => rfl

theorem Ledger.renumber_renumber (l : Ledger) :
    (l.renumber ρ).renumber σ = l.renumber (σ ∘ ρ) := by
  have records : ∀ r : NodeRecord, (r.renumber ρ).renumber σ = r.renumber (σ ∘ ρ) := by
    rintro ⟨_, _ | _⟩ <;> rfl
  have projection : ∀ p : Projection, (p.renumber ρ).renumber σ = p.renumber (σ ∘ ρ) := by
    rintro (_ | _) <;> simp only [Projection.renumber, Expr.renumber_renumber]
  simp only [renumber, List.map_map, Option.map_map, Function.comp_def, records, projection]

theorem renumberBuilt_renumberBuilt (x : Query × Ledger) :
    renumberBuilt σ (renumberBuilt ρ x) = renumberBuilt (σ ∘ ρ) x :=
  Prod.ext (x.1.renumber_renumber ρ σ) (x.2.renumber_renumber ρ σ)

end

/-! ### Supplies -/

/-- The identity that a supply hands out after `m` others and as many more as the number of this
one. -/
def SourceId.assigned (ids : Nat → SourceId) (m : Nat) (id : SourceId) : SourceId :=
  ids (m + id.value)

theorem SourceId.assigned_injective (inj : Function.Injective ids) (m : Nat) :
    Function.Injective (assigned ids m) := by
  rintro ⟨a⟩ ⟨b⟩ h
  have : m + a = m + b := inj h
  rw [Nat.add_left_cancel this]

namespace Chain

variable {chain : Chain}

/-- A chain that holds no identities is built from an injective supply as from the one that counts
from zero, but for the identities. -/
theorem execute_toQuery (inj : Function.Injective ids) (bare : chain.Throughout Expr.Bare)
    (settings : Settings) (m : Nat) :
    execute (chain.toQuery ids settings) m =
      (carry (BuildError.renumber (.assigned ids m)) (renumberBuilt (.assigned ids m))
        (execute (chain.toQuery SourceId.mk settings) 0).1,
        m + (execute (chain.toQuery SourceId.mk settings) 0).2) := by
  have fixed : chain.Throughout (Expr.Fixed (.assigned ids m)) :=
    bare.mono fun e he =>
      e.renumber_eq_self _ he.plain fun id h => List.not_mem_nil (he.closed id h)
  exact carries_build (SourceId.assigned_injective inj m) (fun _ => rfl) fixed settings 0 0

/-- Two injective supplies, and any function that takes each identity drawn from the one to the
identity drawn from the other at the same time. -/
theorem execute_toQuery_renumber (inj : Function.Injective ids) (inj' : Function.Injective ids')
    (bare : chain.Throughout Expr.Bare) (settings : Settings) {m m' : Nat}
    (h : ∀ i, ρ (ids (m + i)) = ids' (m' + i)) :
    ∃ n, (execute (chain.toQuery ids settings) m).2 = m + n ∧
      execute (chain.toQuery ids' settings) m' =
        (carry (BuildError.renumber ρ) (renumberBuilt ρ)
          (execute (chain.toQuery ids settings) m).1, m' + n) := by
  have composed : ρ ∘ .assigned ids m = .assigned ids' m' := funext fun id => h id.value
  rw [execute_toQuery inj bare settings m, execute_toQuery inj' bare settings m']
  refine ⟨_, rfl, Prod.ext ?_ rfl⟩
  dsimp only
  rw [← composed]
  cases (execute (chain.toQuery SourceId.mk settings) 0).1 with
  | ok x => exact congrArg Except.ok (renumberBuilt_renumberBuilt _ _ x).symm
  | error e => exact congrArg Except.error (e.renumber_renumber _ _).symm

end Chain

/-- **Supply of identities**: the query of a chain that holds no identities and no queries as values
does not depend on the supply, if no supply hands out an identity twice. Let `ρ` take the k-th
identity that is drawn from one supply to the k-th that is drawn from another one. Then the chain is
built from the one exactly if it is built from the other, with the same query and ledger up to `ρ`
and as many identities drawn; and where it is not built, the error is the same up to `ρ`. -/
theorem toQuery_renumber (inj : Function.Injective ids) (inj' : Function.Injective ids')
    {chain : Chain} (bare : chain.Throughout Expr.Bare) (settings : Settings) (m m' : Nat) :
    (∃ ρ : SourceId → SourceId, ∀ i, ρ (ids (m + i)) = ids' (m' + i)) ∧
      ∀ ρ : SourceId → SourceId, (∀ i, ρ (ids (m + i)) = ids' (m' + i)) →
        ((∃ q l k, Runs (chain.toQuery ids settings) m (q, l) k) ↔
          ∃ q l k, Runs (chain.toQuery ids' settings) m' (q, l) k) ∧
        (∀ q l k, Runs (chain.toQuery ids settings) m (q, l) k → ∃ n, k = m + n ∧
          Runs (chain.toQuery ids' settings) m' (q.renumber ρ, l.renumber ρ) (m' + n)) ∧
        ∀ e, Fails (chain.toQuery ids settings) m e →
          Fails (chain.toQuery ids' settings) m' (e.renumber ρ) := by
  constructor
  · refine ⟨fun id => ids' (m' + (Function.invFun (fun i => ids (m + i)) id)), fun i => ?_⟩
    have shifted : Function.Injective fun i => ids (m + i) :=
      fun _ _ h => Nat.add_left_cancel (inj h)
    exact congrArg (fun i => ids' (m' + i)) (Function.leftInverse_invFun shifted i)
  · intro ρ h
    obtain ⟨n, drawn, ends⟩ := Chain.execute_toQuery_renumber inj inj' bare settings h
    have success : ∀ q l k, Runs (chain.toQuery ids settings) m (q, l) k → k = m + n ∧
        Runs (chain.toQuery ids' settings) m' (q.renumber ρ, l.renumber ρ) (m' + n) := by
      intro q l k hr
      rw [Runs] at hr
      rw [hr] at drawn ends
      exact ⟨drawn, ends⟩
    have failure : ∀ e, Fails (chain.toQuery ids settings) m e →
        Fails (chain.toQuery ids' settings) m' (e.renumber ρ) := by
      intro e hf
      rw [Fails] at hf ⊢
      rw [ends, hf]
      rfl
    refine ⟨⟨?_, ?_⟩, fun q l k hr => ⟨n, success q l k hr⟩, failure⟩
    · rintro ⟨q, l, k, hr⟩
      exact ⟨_, _, _, (success q l k hr).2⟩
    · rintro ⟨q', l', k', hr'⟩
      cases hx : (execute (chain.toQuery ids settings) m).1 with
      | ok x => exact ⟨x.1, x.2, _, Prod.ext hx rfl⟩
      | error e => exact absurd (failure e hx) hr'.not_fails

namespace Sample

/-- A supply of which another thread draws nine identities out of ten. -/
def shared (drawn : Nat) : SourceId := ⟨10 * drawn + 7⟩

theorem shared_injective : Function.Injective shared := by
  intro j k h
  have : 10 * j + 7 = 10 * k + 7 := congrArg SourceId.value h
  omega

end Sample

/-- The identities of the sizes, drawn from a shared supply: without validation the sizes are built,
and with it the error shows the third identity of that supply. -/
theorem toQuery_renumber_sizes : Sample.sizes.Throughout Expr.Bare ∧
    Function.Injective SourceId.countUp ∧ Function.Injective Sample.shared ∧
    (∃ q l k, Runs (Sample.sizes.toQuery SourceId.countUp Sample.unchecked) 0 (q, l) k ∧
      ∃ n, k = 0 + n ∧ Runs (Sample.sizes.toQuery Sample.shared Sample.unchecked) 5
        (q.renumber fun id => Sample.shared (id.value + 4),
          l.renumber fun id => Sample.shared (id.value + 4)) (5 + n)) ∧
    Fails (Sample.sizes.toQuery SourceId.countUp Sample.unchecked.validating) 0
      (.query (.danglingReference "body clause 0" ⟨3⟩)) ∧
    Fails (Sample.sizes.toQuery Sample.shared Sample.unchecked.validating) 5
      (.query (.danglingReference "body clause 0" ⟨77⟩)) := by
  have drawn : ∀ i,
      Sample.shared ((SourceId.countUp (0 + i)).value + 4) = Sample.shared (5 + i) := by
    intro i
    simp only [SourceId.countUp]
    congr 1
    omega
  have alike := fun settings => (toQuery_renumber SourceId.countUp_injective
    Sample.shared_injective Sample.bare_sizes settings 0 5).2
      (fun id => Sample.shared (id.value + 4)) drawn
  have refused : Fails (Sample.sizes.toQuery SourceId.countUp Sample.unchecked.validating) 0
      (.query (.danglingReference "body clause 0" ⟨3⟩)) :=
    fails_of_failure? (by decide +kernel)
  obtain ⟨⟨q, l⟩, k, h⟩ := exists_runs
    (x := Sample.sizes.toQuery SourceId.countUp Sample.unchecked) (s := 0) (by decide +kernel)
  exact ⟨Sample.bare_sizes, SourceId.countUp_injective, Sample.shared_injective,
    ⟨q, l, k, h, (alike Sample.unchecked).2.1 q l k h⟩, refused,
    (alike Sample.unchecked.validating).2.2 _ refused⟩

end QueryFold
