import QueryFold.Proofs.Chain.Layout

/-!
# The order of operations

A build remembers of the operations that were applied whether one of them sealed the query
against further clauses, whether one of them cast the items, whether a from clause waits for its
projection, and whether the query yields something. This is its `Stage`. Every step needs its
operation to be allowed at the stage, and takes the stage to the next one (`Node.Step.stage`).

`Ordered` says of the whole list what the stages say one by one (`Stage.start_accepts_iff`), so it
can be decided by going through them.
-/

namespace QueryFold

/-! ### Operations -/

namespace Operation

/-- Whether an operation groups. -/
def groups : Operation → Bool
  | groupBy _ _ => true
  | _ => false

/-- Whether an operation closes the query: only operations on the result may follow. -/
def seals : Operation → Bool
  | groupBy _ _ | cast .ofType _ | resultOperator _ => true
  | _ => false

/-- Whether an operation converts the items of the result. -/
def converts : Operation → Bool
  | cast .cast _ => true
  | _ => false

/-- Whether an operation is a selection. -/
def selects : Operation → Bool
  | select _ => true
  | _ => false

/-- Whether an operation makes the query yield something else than its items. -/
def reprojects : Operation → Bool
  | select selector => !Node.isIdentity selector
  | groupBy _ _ | selectMany _ (some _) => true
  | _ => false

end Operation

/-! ### Stages -/

/-- What a build remembers of the operations that were applied. -/
structure Stage where
  /-- The query is closed against clauses and projections. -/
  sealed : Bool
  /-- The items of the result were converted. -/
  converted : Bool
  /-- A from clause waits for its projection. -/
  waits : Bool
  /-- The query yields something. -/
  projected : Bool

namespace Stage

/-- At the start of a query. -/
def start : Stage := ⟨false, false, false, false⟩

/-- The operation may be applied at the stage. -/
structure Allows (s : Stage) (op : Operation) : Prop where
  unsealed : s.sealed = true → op.onResult = true
  unconverted : s.converted = true → op.reprojects = false
  settled : s.waits = true → op.bindsItem = false ∧ op.groups = false

/-- The stage after an operation. -/
def after (s : Stage) (op : Operation) : Stage where
  sealed := s.sealed || op.seals
  converted := s.converted || op.converts
  waits := op.bindsItem || s.waits && !op.selects
  projected := s.projected || op.projects

/-- The query can be ended after the operations. -/
def Accepts (s : Stage) : List Operation → Prop
  | [] => s.projected = true ∧ s.waits = false
  | op :: ops => s.Allows op ∧ (s.after op).Accepts ops

instance (s : Stage) (op : Operation) : Decidable (s.Allows op) :=
  decidable_of_iff ((s.sealed = true → op.onResult = true) ∧
      (s.converted = true → op.reprojects = false) ∧
      (s.waits = true → op.bindsItem = false ∧ op.groups = false))
    ⟨fun ⟨h₁, h₂, h₃⟩ => ⟨h₁, h₂, h₃⟩, fun ⟨h₁, h₂, h₃⟩ => ⟨h₁, h₂, h₃⟩⟩

instance decidableAccepts : (s : Stage) → (ops : List Operation) → Decidable (s.Accepts ops)
  | s, [] => inferInstanceAs (Decidable (s.projected = true ∧ s.waits = false))
  | s, op :: ops =>
    have := decidableAccepts (s.after op) ops
    inferInstanceAs (Decidable (s.Allows op ∧ (s.after op).Accepts ops))

end Stage

/-- The stage of a ledger. -/
def Ledger.stage (l : Ledger) : Stage where
  sealed := l.grouped || l.closed
  converted := l.castApplied
  waits := l.openFrom.isSome
  projected := l.projection.isSome

/-! ### Steps -/

section

variable {l : Ledger} {callSite : String}

theorem ensureClause_eq_ok_iff :
    l.ensureClause callSite = .ok () ↔ l.stage.sealed = false := by
  simp only [Ledger.ensureClause, Ledger.stage]
  cases l.grouped <;> cases l.closed <;> simp

theorem ensureProjection_eq_ok_iff {identity : Bool} :
    l.ensureProjection callSite identity = .ok () ↔
      l.stage.sealed = false ∧ (l.stage.converted = true → identity = true) := by
  simp only [Ledger.ensureProjection, Ledger.stage]
  cases l.grouped <;> cases l.closed <;> cases l.castApplied <;> cases identity <;> simp

theorem stage_waits_eq_false_iff : l.stage.waits = false ↔ l.openFrom = none := by
  simp [Ledger.stage]

theorem Stage.Allows.of_unsealed {s : Stage} {op : Operation} (h : s.sealed = false)
    (converted : s.converted = true → op.reprojects = false)
    (waits : s.waits = true → op.bindsItem = false ∧ op.groups = false) : s.Allows op :=
  ⟨fun hs => absurd (h.symm.trans hs) nofun, converted, waits⟩

end

/-- **Steps follow the stages**: the operation is allowed, and leads to the next stage. -/
theorem Node.Step.stage {ids : Nat → SourceId} {nested : Nested} {chain : Chain} {n : Node}
    {b b' : Build} (h : n.Step ids nested chain b b') :
    b.ledger.stage.Allows n.operation ∧ b'.ledger.stage = b.ledger.stage.after n.operation := by
  cases h with
  | mainSource op allowed _ _ settled | subQuerySource op allowed _ _ _ settled
  | selectMany op allowed _ _ _ _ settled =>
    have unsealed := ensureClause_eq_ok_iff.mp allowed
    have ready := stage_waits_eq_false_iff.mpr settled
    rw [op]
    refine ⟨.of_unsealed unsealed (fun _ => rfl) (by simp [ready]), ?_⟩
    simp [Stage.after, Ledger.stage, Build.awaiting, Build.added, Ledger.noted, Operation.seals,
      Operation.converts, Operation.bindsItem, Operation.projects]
  | selectManyResult op allowed projects =>
    have unsealed := ensureClause_eq_ok_iff.mp allowed
    have pinned := (ensureProjection_eq_ok_iff.mp projects).2
    rw [op]
    refine ⟨.of_unsealed unsealed (fun h => absurd (pinned h) Bool.false_ne_true)
      (fun _ => ⟨rfl, rfl⟩), ?_⟩
    simp [Stage.after, Ledger.stage, Build.registering, Build.added, Ledger.register, Ledger.noted,
      Operation.seals, Operation.converts, Operation.bindsItem, Operation.projects,
      Operation.selects]
  | filter op allowed | define op allowed | orderBy op allowed | thenBy op allowed =>
    have unsealed := ensureClause_eq_ok_iff.mp allowed
    rw [op]
    refine ⟨.of_unsealed unsealed (fun _ => rfl) (fun _ => ⟨rfl, rfl⟩), ?_⟩
    simp [Stage.after, Ledger.stage, Build.added, Ledger.noted, Operation.seals,
      Operation.converts, Operation.bindsItem, Operation.projects, Operation.selects]
  | select op projects =>
    obtain ⟨unsealed, pinned⟩ := ensureProjection_eq_ok_iff.mp projects
    rw [op]
    refine ⟨.of_unsealed unsealed (fun h => ?_) (fun _ => ⟨rfl, rfl⟩), ?_⟩
    · simp [Operation.reprojects, pinned h]
    · simp [Stage.after, Ledger.stage, Ledger.register, Ledger.noted, Operation.seals,
        Operation.converts, Operation.bindsItem, Operation.projects, Operation.selects]
  | groupBy op allowed projects _ _ _ settled =>
    have unsealed := ensureClause_eq_ok_iff.mp allowed
    have pinned := (ensureProjection_eq_ok_iff.mp projects).2
    have ready := stage_waits_eq_false_iff.mpr settled
    rw [op]
    refine ⟨.of_unsealed unsealed (fun h => absurd (pinned h) Bool.false_ne_true)
      (by simp [ready]), ?_⟩
    simp [Stage.after, Ledger.stage, Ledger.register, Ledger.noted, Operation.seals,
      Operation.converts, Operation.bindsItem, Operation.projects, Operation.selects]
  | cast op | ofType op | resultOperator op =>
    rw [op]
    refine ⟨⟨fun _ => rfl, fun _ => rfl, fun _ => ⟨rfl, rfl⟩⟩, ?_⟩
    simp [Stage.after, Ledger.stage, Ledger.noteCast, Ledger.close, Ledger.noted, Operation.seals,
      Operation.converts, Operation.bindsItem, Operation.projects, Operation.selects]

/-- The run of several steps goes through the stages that their operations lead to. -/
theorem NodeSteps.accepts {ids : Nat → SourceId} {chain : Chain} {ns : List Node} {b b' : Build}
    (h : NodeSteps ids chain ns b b') (projects : b'.ledger.stage.projected = true)
    (settled : b'.ledger.stage.waits = false) :
    b.ledger.stage.Accepts (ns.map Node.operation) := by
  induction h with
  | nil => exact ⟨projects, settled⟩
  | cons _ step _ ih =>
    obtain ⟨allowed, next⟩ := step.stage
    exact ⟨allowed, next ▸ ih projects settled⟩

/-! ### Lists of operations -/

/-- Of the operations that give a projection to a waiting from clause or let a further one wait, the
first one gives a projection. -/
def Answered (ops : List Operation) : Prop :=
  ∃ between selector after, ops = between ++ .select selector :: after ∧
    ∀ op ∈ between, op.bindsItem = false

theorem answered_cons_iff {op : Operation} {ops : List Operation} :
    Answered (op :: ops) ↔ op.selects = true ∨ op.bindsItem = false ∧ Answered ops := by
  constructor
  · rintro ⟨between, selector, after, h, passes⟩
    cases between with
    | nil =>
      cases h
      exact .inl rfl
    | cons o between =>
      cases h
      exact .inr ⟨passes op List.mem_cons_self, between, selector, after, rfl,
        fun o ho => passes o (List.mem_cons_of_mem _ ho)⟩
  · rintro (h | ⟨h, between, selector, after, rfl, passes⟩)
    · cases op with
      | select selector => exact ⟨[], selector, ops, rfl, nofun⟩
      | _ => cases h
    · exact ⟨op :: between, selector, after, rfl, List.forall_mem_cons.mpr ⟨h, passes⟩⟩

/-- Every from clause that waits gets its projection. -/
def EachAnswered (ops : List Operation) : Prop :=
  ∀ before op after, ops = before ++ op :: after → op.bindsItem = true → Answered after

theorem eachAnswered_cons_iff {op : Operation} {ops : List Operation} :
    EachAnswered (op :: ops) ↔ (op.bindsItem = true → Answered ops) ∧ EachAnswered ops := by
  constructor
  · intro h
    refine ⟨h [] op ops rfl, fun before o after split => ?_⟩
    exact h (op :: before) o after (by rw [split]; rfl)
  · rintro ⟨here, later⟩ before o after split
    cases before with
    | nil =>
      cases split
      exact here
    | cons p before =>
      cases split
      exact later before o after rfl

/-- The operations stand in an order in which they can be applied behind a source. -/
structure Ordered (ops : List Operation) : Prop where
  /-- When the query is closed, only operations on the result follow. -/
  closed : ops.Pairwise fun a b => a.seals = true → b.onResult = true
  /-- When the items are converted, what the query yields is not changed. -/
  pinned : ops.Pairwise fun a b => a.converts = true → b.reprojects = false
  /-- Every from clause that waits gets its projection before another one waits. -/
  answered : EachAnswered ops
  /-- The query yields something. -/
  projected : ∃ op ∈ ops, op.projects = true

namespace Stage

/-- The operations stand in an order in which they can be applied at the stage. -/
structure Admits (s : Stage) (ops : List Operation) : Prop where
  sealed : s.sealed = true → ∀ op ∈ ops, op.onResult = true
  closed : ops.Pairwise fun a b => a.seals = true → b.onResult = true
  converted : s.converted = true → ∀ op ∈ ops, op.reprojects = false
  pinned : ops.Pairwise fun a b => a.converts = true → b.reprojects = false
  waits : s.waits = true → Answered ops
  answered : EachAnswered ops
  projected : s.projected = true ∨ ∃ op ∈ ops, op.projects = true

theorem start_admits_iff {ops : List Operation} : start.Admits ops ↔ Ordered ops := by
  constructor
  · rintro ⟨-, closed, -, pinned, -, answered, projected⟩
    exact ⟨closed, pinned, answered, projected.resolve_left nofun⟩
  · rintro ⟨closed, pinned, answered, projected⟩
    exact ⟨nofun, closed, nofun, pinned, nofun, answered, .inr projected⟩

theorem admits_nil_iff {s : Stage} : s.Admits [] ↔ s.projected = true ∧ s.waits = false := by
  constructor
  · intro h
    refine ⟨h.projected.resolve_right (by simp), ?_⟩
    by_contra hw
    obtain ⟨between, _, _, h, -⟩ := h.waits (by simpa using hw)
    simp at h
  · rintro ⟨projected, settled⟩
    refine ⟨nofun, .nil, nofun, .nil, fun hw => absurd (settled.symm.trans hw) nofun, ?_,
      .inl projected⟩
    intro before _ _ h
    simp at h

theorem bindsItem_of_selects {op : Operation} (h : op.selects = true) :
    op.bindsItem = false ∧ op.groups = false := by
  cases op with
  | select _ => exact ⟨rfl, rfl⟩
  | _ => cases h

theorem admits_cons_iff {s : Stage} {op : Operation} {ops : List Operation} :
    s.Admits (op :: ops) ↔ s.Allows op ∧ (s.after op).Admits ops := by
  constructor
  · intro h
    obtain ⟨closes, closed⟩ := List.pairwise_cons.mp h.closed
    obtain ⟨pins, pinned⟩ := List.pairwise_cons.mp h.pinned
    obtain ⟨opens, answered⟩ := eachAnswered_cons_iff.mp h.answered
    refine ⟨⟨fun hs => h.sealed hs op List.mem_cons_self,
      fun hc => h.converted hc op List.mem_cons_self, fun hw => ?_⟩,
      ⟨fun hs o ho => ?_, closed, fun hc o ho => ?_, pinned, fun hw => ?_, answered, ?_⟩⟩
    · rcases answered_cons_iff.mp (h.waits hw) with selects | ⟨passes, between, _, _, rfl, -⟩
      · exact bindsItem_of_selects selects
      · -- A grouping would close the query before the selection that is to come.
        refine ⟨passes, ?_⟩
        by_contra grouped
        have seals : op.seals = true := by
          cases op with
          | groupBy _ _ => rfl
          | _ => exact absurd rfl grouped
        have := closes _ (List.mem_append_right _ List.mem_cons_self) seals
        simp [Operation.onResult] at this
    · rcases Bool.or_eq_true_iff.mp hs with hs | hs
      · exact h.sealed hs o (List.mem_cons_of_mem _ ho)
      · exact closes o ho hs
    · rcases Bool.or_eq_true_iff.mp hc with hc | hc
      · exact h.converted hc o (List.mem_cons_of_mem _ ho)
      · exact pins o ho hc
    · rcases Bool.or_eq_true_iff.mp hw with hw | hw
      · exact opens hw
      · obtain ⟨hw, hs⟩ := Bool.and_eq_true_iff.mp hw
        rcases answered_cons_iff.mp (h.waits hw) with selects | ⟨-, answered⟩
        · simp [selects] at hs
        · exact answered
    · rcases h.projected with hp | ⟨o, ho, hp⟩
      · exact .inl (by simp [after, hp])
      · rcases List.mem_cons.mp ho with rfl | ho
        · exact .inl (by simp [after, hp])
        · exact .inr ⟨o, ho, hp⟩
  · rintro ⟨allowed, h⟩
    refine ⟨fun hs o ho => ?_, List.pairwise_cons.mpr ⟨fun o ho hs => ?_, h.closed⟩,
      fun hc o ho => ?_, List.pairwise_cons.mpr ⟨fun o ho hc => ?_, h.pinned⟩, fun hw => ?_,
      eachAnswered_cons_iff.mpr ⟨fun hb => ?_, h.answered⟩, ?_⟩
    · rcases List.mem_cons.mp ho with rfl | ho
      · exact allowed.unsealed hs
      · exact h.sealed (by simp [after, hs]) o ho
    · exact h.sealed (by simp [after, hs]) o ho
    · rcases List.mem_cons.mp ho with rfl | ho
      · exact allowed.unconverted hc
      · exact h.converted (by simp [after, hc]) o ho
    · exact h.converted (by simp [after, hc]) o ho
    · by_cases selects : op.selects = true
      · exact answered_cons_iff.mpr (.inl selects)
      · exact answered_cons_iff.mpr
          (.inr ⟨(allowed.settled hw).1, h.waits (by simp [after, hw, selects])⟩)
    · exact h.waits (by simp [after, hb])
    · rcases h.projected with hp | ⟨o, ho, hp⟩
      · rcases Bool.or_eq_true_iff.mp hp with hp | hp
        · exact .inl hp
        · exact .inr ⟨op, List.mem_cons_self, hp⟩
      · exact .inr ⟨o, List.mem_cons_of_mem _ ho, hp⟩

/-- **Stages and orders agree**: the operations can be applied one after the other exactly if they
stand in the right order. -/
theorem accepts_iff_admits {s : Stage} {ops : List Operation} : s.Accepts ops ↔ s.Admits ops := by
  induction ops generalizing s with
  | nil => exact admits_nil_iff.symm
  | cons op ops ih => exact (and_congr_right fun _ => ih).trans admits_cons_iff.symm

theorem start_accepts_iff {ops : List Operation} : start.Accepts ops ↔ Ordered ops :=
  accepts_iff_admits.trans start_admits_iff

end Stage

instance (ops : List Operation) : Decidable (Ordered ops) :=
  decidable_of_iff (Stage.start.Accepts ops) Stage.start_accepts_iff

/-- Items may be converted once they are selected, but not the other way round. -/
example : Ordered [.select ⟨[], .ofInt 1⟩, .cast .cast Ty.int] ∧
    ¬ Ordered [.cast .cast Ty.int, .select ⟨[], .ofInt 1⟩] := by
  decide

/-! ### Chains that were built -/

/-- A build starts at the first stage. -/
theorem Node.Start.stage {ids : Nat → SourceId} {nested : Nested} {settings : Settings}
    {depth : UInt32} {resultType : Ty} {n : Node} {k : Nat} {b : Build}
    (h : n.Start ids nested settings depth resultType k b) : b.ledger.stage = .start := by
  cases h <;> rfl

/-- The operations of a chain that was built are in order behind its first node. -/
theorem Chain.Built.ordered {ids : Nat → SourceId} {settings : Settings} {depth : UInt32}
    {chain : Chain} {k k' : Nat} {q : Query} {l : Ledger}
    (h : chain.Built ids settings depth k q l k') :
    Ordered (chain.nodes.tail.map Node.operation) := by
  obtain @⟨first, rest, b, b', p, _, nodes, _, start, steps, projects, settled⟩ := h
  have accepted := steps.accepts (by simp [Ledger.stage, projects])
    (stage_waits_eq_false_iff.mpr settled)
  rw [start.stage, Stage.start_accepts_iff] at accepted
  rwa [nodes, List.tail_cons]

end QueryFold
