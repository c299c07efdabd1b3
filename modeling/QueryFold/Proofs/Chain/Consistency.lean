import QueryFold.Proofs.Chain.Acceptance
import QueryFold.Proofs.Chain.Failure

/-!
# Errors that no build raises

Some errors say that a build has lost track of itself: a node is applied twice or asked for before
it was applied, a clause is not there or not of the kind it was taken for, the query is ended
twice. They can be raised where nodes are applied one by one from outside. A build of a chain
never raises them, whatever the chain is like (`toQuery_consistent`).

Each of these errors is kept away by another part of what is known of a build that is under way
(`Build.Underway`): the nodes that were applied are those before, the items of the nodes on every
route are recorded, the from clause that waits is one that takes a projection, the query has no
end yet. Nested queries have an item type because they were built.
-/

namespace QueryFold

/-! ### Inconsistencies -/

/-- Whether a misuse is one that only a build which has lost track of itself can show. -/
def Misuse.isInconsistency : Misuse → Bool
  | appliedTwice _ | recordedTwice _ | notApplied _ | sourceless _ | resolvedEarly _ => true
  | noResultSelector _ | fromWithoutSource | noItemType _ => true
  | _ => false

/-- Whether an error is one of an operation on a query that cannot meet what it is for. -/
def QueryError.isInconsistency : QueryError → Bool
  | clauseOutOfRange _ | notOrderBy _ | notProjecting _ | terminalAlreadySet => true
  | _ => false

/-- Whether an error says that the build has lost track of itself. -/
def BuildError.isInconsistency : BuildError → Bool
  | misuse cause => cause.isInconsistency
  | query cause => cause.isInconsistency
  | _ => false

section

variable {ε α β : Type} {P : ε → Prop}

/-- Every error of the result is one of those that `P` allows. -/
def Raises (P : ε → Prop) (x : Except ε α) : Prop := ∀ e, x = .error e → P e

@[simp] theorem raises_ok (a : α) : Raises P (.ok a) := nofun

@[simp] theorem raises_pure (a : α) : Raises P (pure a : Except ε α) := nofun

@[simp] theorem raises_error_iff {e : ε} : Raises P (.error e : Except ε α) ↔ P e :=
  ⟨fun h => h e rfl, fun h _ he => by cases he; exact h⟩

theorem Raises.bind {x : Except ε α} {f : α → Except ε β} (hx : Raises P x)
    (hf : ∀ a, x = .ok a → Raises P (f a)) : Raises P (x >>= f) := by
  cases x with
  | ok a => exact hf a rfl
  | error e => exact raises_error_iff.mpr (hx e rfl)

end

/-- No error of the result is an inconsistency. -/
abbrev Consistent {α : Type} (x : Except BuildError α) : Prop :=
  Raises (fun e => e.isInconsistency = false) x

/-- No error of the result is an inconsistency of a query. -/
abbrev ConsistentQuery {α : Type} (x : Except QueryError α) : Prop :=
  Raises (fun e => e.isInconsistency = false) x

/-! ### Validation -/

section

variable (visible : List SourceId)

theorem consistent_checkReferences (place : String) (es : List Expr) :
    ConsistentQuery (checkReferences place visible es) := by
  induction es with
  | nil => exact raises_ok _
  | cons e es ih =>
    rw [checkReferences]
    split
    · exact raises_error_iff.mpr rfl
    · exact ih

theorem consistent_register (s : Source) : ConsistentQuery (register visible s) := by
  unfold register
  split_ifs
  · exact raises_error_iff.mpr rfl
  · exact raises_ok _

theorem consistent_checkKeys (position : Position) (index : Nat) (keys : List SortKey) :
    ConsistentQuery (checkKeys position index keys) := by
  induction keys generalizing index with
  | nil => exact raises_ok _
  | cons k ks ih =>
    rw [checkKeys]
    split_ifs
    · exact ih _
    · exact raises_error_iff.mpr rfl

theorem consistent_introduce (c : Clause) : ConsistentQuery (c.introduce visible) := by
  unfold Clause.introduce
  split
  · exact raises_ok _
  · refine (consistent_register visible _).bind fun _ _ => ?_
    split_ifs
    · exact raises_error_iff.mpr rfl
    · exact raises_pure _

theorem consistent_checkOperators (ops : List ResultOp) :
    ConsistentQuery (checkOperators visible ops) := by
  induction ops with
  | nil => exact raises_ok _
  | cons op ops ih => exact (consistent_checkReferences visible _ _).bind fun _ _ => ih

theorem consistent_checkTerminal (count : Nat) (t? : Option Terminal) :
    ConsistentQuery (checkTerminal visible count t?) := by
  unfold checkTerminal
  split
  · exact raises_error_iff.mpr rfl
  · split_ifs
    · exact raises_error_iff.mpr rfl
    · exact consistent_checkReferences visible _ _

variable {visible}

theorem consistent_validate {index : Nat} {c : Clause}
    (nested : ∀ q, c.query? = some q → ∀ visible, ConsistentQuery (q.validateWithin visible)) :
    ConsistentQuery (c.validate visible index) := by
  rw [validate_eq]
  split_ifs
  · exact raises_error_iff.mpr rfl
  refine (consistent_introduce visible c).bind fun visible' _ => Raises.bind ?_ fun _ _ =>
    (consistent_checkReferences visible' _ _).bind fun _ _ => raises_pure _
  cases c with
  | orderBy keys previous => exact consistent_checkKeys _ _ _
  | fromQuery source query projection previous => exact nested query rfl visible'
  | _ => exact raises_pure _

theorem consistent_validateBody {index : Nat} {cs : List Clause}
    (nested : ∀ c ∈ cs, ∀ q, c.query? = some q →
      ∀ visible, ConsistentQuery (q.validateWithin visible)) :
    ConsistentQuery (validateBody visible index cs) := by
  induction cs generalizing visible index with
  | nil => exact raises_ok _
  | cons c cs ih =>
    obtain ⟨here, others⟩ := List.forall_mem_cons.mp nested
    rw [validateBody]
    exact (consistent_validate here).bind fun _ _ => ih others

theorem consistent_validateWithin (q : Query) :
    ∀ visible, ConsistentQuery (q.validateWithin visible) := by
  induction q using Query.induction with
  | step q ih =>
    intro visible
    rw [Query.validateWithin_eq]
    exact (consistent_checkReferences visible _ _).bind fun _ _ =>
      (consistent_register visible _).bind fun _ _ => (consistent_validateBody ih).bind fun _ _ =>
        (consistent_checkTerminal _ _ _).bind fun _ _ => consistent_checkOperators _ _

end

/-! ### Checks of a build -/

section

variable (chain : Chain) (l : Ledger) (n : Node) (id : NodeId) (lambda : Lambda)

theorem consistent_ofQueryResult {α : Type} {x : Except QueryError α} (h : ConsistentQuery x) :
    Consistent (ofQueryResult x) := by
  cases x with
  | ok a => exact raises_ok a
  | error e => exact raises_error_iff.mpr (h e rfl)

theorem consistent_link : Consistent n.link := by
  unfold Node.link
  split
  · exact raises_ok _
  · exact raises_error_iff.mpr rfl

theorem consistent_ensureClause (callSite : String) : Consistent (l.ensureClause callSite) := by
  unfold Ledger.ensureClause
  split_ifs <;> simp [BuildError.isInconsistency, Misuse.isInconsistency]

theorem consistent_ensureProjection (callSite : String) (identity : Bool) :
    Consistent (l.ensureProjection callSite identity) := by
  unfold Ledger.ensureProjection
  split_ifs <;> simp [BuildError.isInconsistency, Misuse.isInconsistency]

theorem consistent_sourceItemType (e : Expr) : Consistent (sourceItemType e) := by
  unfold sourceItemType
  split
  · exact raises_ok _
  · exact raises_error_iff.mpr rfl

theorem consistent_unary : Consistent lambda.unary := by
  unfold Lambda.unary
  split
  · exact raises_ok _
  · exact raises_error_iff.mpr rfl

theorem consistent_binary : Consistent lambda.binary := by
  unfold Lambda.binary
  split
  · exact raises_ok _
  · exact raises_error_iff.mpr rfl

theorem consistent_ensureResolved (e : Expr) : Consistent e.ensureResolved := by
  unfold Expr.ensureResolved
  split
  · exact raises_error_iff.mpr rfl
  · exact raises_ok _

theorem consistent_linked (route : Route) : Consistent route.linked := by
  cases route with
  | ended node => exact raises_error_iff.mpr rfl
  | _ => exact raises_ok _

theorem consistent_checkLinks : Consistent chain.checkLinks := by
  have from_ (position : Nat) (ns : List Node) : Consistent (Chain.checkLinksFrom position ns) := by
    induction ns generalizing position with
    | nil => exact raises_ok _
    | cons n ns ih =>
      rw [Chain.checkLinksFrom]
      split_ifs
      · exact raises_error_iff.mpr rfl
      · split
        · exact ih _
        · split_ifs
          · exact raises_error_iff.mpr rfl
          · exact ih _
  exact from_ 0 chain.nodes

variable {lambda}

theorem consistent_resolveBy {resolve : Param → Expr → Except BuildError Expr}
    (h : ∀ p e, Consistent (resolve p e)) : Consistent (lambda.resolveBy resolve) :=
  (consistent_unary lambda).bind fun p _ => (h p lambda.body).bind fun e _ =>
    (consistent_ensureResolved e).bind fun _ _ => raises_pure e

theorem consistent_replaceM {resolve : Expr → Except BuildError Expr}
    (h : ∀ e, Consistent (resolve e)) (op : ResultOp) : Consistent (op.replaceM resolve) := by
  cases op with
  | argument o e => exact (h e).bind fun _ _ => raises_pure _
  | _ => exact raises_pure _

variable {l n}

theorem consistent_of_exists_ok {α : Type} {x : Except BuildError α} (h : ∃ a, x = .ok a) :
    Consistent x := by
  obtain ⟨a, rfl⟩ := h
  exact raises_ok a

/-- A result selector needs the item of its node. -/
theorem consistent_resolveResult {linked : Except BuildError Unit}
    {resolve : Param → Expr → Except BuildError Expr} (item : ∃ r, l.item n.id = .ok r)
    (hl : Consistent linked) (h : ∀ p e, Consistent (resolve p e)) :
    Consistent (lambda.resolveResult l n linked resolve) :=
  (consistent_binary lambda).bind fun p _ => (consistent_of_exists_ok item).bind fun _ _ =>
    hl.bind fun _ _ => (h p.1 _).bind fun e _ =>
      (consistent_ensureResolved e).bind fun _ _ => raises_pure e

end

/-! ### Resolution -/

namespace Route

/-- The sources that the nodes of the route introduce are recorded. -/
def Known (l : Ledger) (route : Route) : Prop :=
  ∀ n ∈ route.nodes, n.operation.introduces = true → ∃ r, l.item n.id = .ok r

variable {l l' : Ledger} {n : Node} {rest route : Route}

theorem Known.tail (h : (via n rest).Known l) : rest.Known l :=
  fun m hm => h m (List.mem_cons_of_mem _ hm)

theorem Known.extends (h : route.Known l) (ext : l.Extends l') : route.Known l' :=
  fun m hm op => (h m hm op).imp fun _ => ext.item

/-- The item type of a known route. -/
theorem Known.consistent_itemType (h : route.Known l) : Consistent (route.itemType l) := by
  induction route with
  | via node rest ih =>
    have item : node.operation.introduces = true → Consistent (l.item node.id) :=
      fun op => consistent_of_exists_ok (h node List.mem_cons_self op)
    have before := ih h.tail
    rw [itemType]
    cases op : node.operation with
    | mainSource _ | subQuerySource _ =>
      exact (item (by rw [op]; rfl)).bind fun _ _ => raises_pure _
    | selectMany collection result =>
      cases result with
      | none => exact (item (by rw [op]; rfl)).bind fun _ _ => raises_pure _
      | some selector => exact raises_ok _
    | groupBy key element =>
      cases element with
      | none => exact before.bind fun _ _ => raises_pure _
      | some selector => exact raises_ok _
    | select _ | cast _ _ => exact raises_ok _
    | filter _ | orderBy _ _ _ | define _ _ | resultOperator _ => exact before
  | _ => exact raises_error_iff.mpr rfl

/-- Resolution on a known route. -/
theorem Known.consistent_resolve (h : route.Known l) (p : Param) (body : Expr) :
    Consistent (route.resolve l p body) := by
  induction route generalizing p body with
  | via node rest ih =>
    have item : node.operation.introduces = true → ∃ r, l.item node.id = .ok r :=
      h node List.mem_cons_self
    have before := ih h.tail
    rw [resolve]
    cases op : node.operation with
    | mainSource _ | subQuerySource _ =>
      obtain ⟨r, hr⟩ := item (by rw [op]; rfl)
      exact (consistent_of_exists_ok ⟨r, by rw [Ledger.sourceItem, hr]⟩).bind
        fun _ _ => raises_pure _
    | selectMany collection result =>
      have recorded := item (by rw [op]; rfl)
      cases result with
      | none => exact (consistent_of_exists_ok recorded).bind fun _ _ => raises_pure _
      | some selector =>
        exact (consistent_resolveResult recorded (consistent_linked rest) before).bind
          fun _ _ => raises_pure _
    | select selector =>
      exact (consistent_linked rest).bind fun _ _ => (consistent_resolveBy before).bind
        fun _ _ => raises_pure _
    | define name value =>
      exact (before p body).bind fun _ _ =>
        (consistent_of_exists_ok (item (by rw [op]; rfl))).bind fun _ _ => raises_pure _
    | groupBy key element => exact raises_error_iff.mpr rfl
    | cast kind type => exact h.tail.consistent_itemType.bind fun _ _ => before _ _
    | filter _ | orderBy _ _ _ | resultOperator _ => exact before p body
  | _ => exact raises_error_iff.mpr rfl

end Route

/-! ### Nodes -/

section

variable {ids : Nat → SourceId} {settings : Settings} {depth : UInt32} {chain : Chain}
  {first n : Node} {done ns : List Node} {b b' : Build} {e : BuildError}

/-- The nested query of a node, if it cannot be built, fails with no inconsistency. -/
def Node.NestsConsistently (ids : Nat → SourceId) (n : Node) : Prop :=
  ∀ inner, n.operation = .subQuerySource inner → ∀ settings depth k e,
    Fails (inner.build ids settings depth) k e → e.isInconsistency = false

theorem Node.nested_halts {inner : Chain} {k k' : Nat} (op : n.operation = .subQuerySource inner)
    (h : Halts (n.nested ids settings depth) k e k') : Fails (inner.build ids settings depth) k e := by
  obtain ⟨_, _, _, _, operation⟩ := n
  obtain rfl : operation = .subQuerySource inner := op
  simp only [Node.nested, Operation.nested, halts_bind, not_halts_pure, and_false, exists_false,
    or_false] at h
  exact fails_iff_exists_halts.mpr ⟨k', h⟩

/-- A nested query that was built has an item type. -/
theorem Node.NestsConsistently.nestedItems (hn : n.NestsConsistently ids) {inner : Chain}
    {l : Ledger} {k k' : Nat} (op : n.operation = .subQuerySource inner)
    (h : Halts (nestedItems (n.nested ids) l) k e k') : e.isInconsistency = false := by
  rcases halts_bind.mp h with h | ⟨q, k₁, built, h⟩
  · exact hn inner op _ _ _ e (Node.nested_halts op h)
  · obtain ⟨_, _, -, built⟩ := Node.nested_runs_iff.mp built
    obtain ⟨t, ht⟩ := built.exists_itemType
    simp [ht] at h

namespace Build.Underway

/-- Every route from a node that comes next leads to nodes that were applied. -/
theorem known (hb : b.Underway ids settings depth chain first done) (linked : chain.Linked)
    (nodes : chain.nodes = first :: done ++ n :: ns) {link : NodeId} (source : n.source = some link) :
    (chain.route link).Known b.ledger := by
  have here : chain.nodes[done.length + 1]? = some n := by
    rw [nodes, List.getElem?_append_right (by simp)]
    simp
  have hlt := linked.backward _ n link here source
  intro m hm op
  obtain ⟨i, hi, hmi⟩ := linked.exists_le_of_mem_route hm
  rw [nodes, List.getElem?_append_left (by simp; omega)] at hmi
  exact (hb.settled m (List.mem_of_getElem? hmi)).item op

/-- What refuses to apply the node that comes next is no inconsistency. -/
theorem consistent_refuses (hb : b.Underway ids settings depth chain first done)
    (linked : chain.Linked) (nodes : chain.nodes = first :: done ++ n :: ns)
    (hn : n.NestsConsistently ids) (h : n.Refuses (n.nested ids) chain b e) :
    e.isInconsistency = false := by
  have lambda : ∀ {link l}, n.source = some link → Consistent (chain.resolveLambda b.ledger link l) :=
    fun source => consistent_resolveBy (hb.known linked nodes source).consistent_resolve
  cases h with
  | applied h => exact absurd (hb.fresh_of_linked linked nodes) h
  | clause h => exact consistent_ensureClause _ _ e h
  | projection h => exact consistent_ensureProjection _ _ _ e h
  | unlinked h => exact consistent_link n e h
  | sequence _ h => exact consistent_sourceItemType _ e h
  | nested op h => exact hn.nestedItems op h
  | lambda source h => exact lambda source e h
  | selector h => exact consistent_binary _ e h
  | @element link key l _ source h =>
    cases l with
    | some selector => exact lambda source e h
    | none =>
      rw [Node.groupElement] at h
      split at h
      · exact (hb.known linked nodes source).consistent_resolve _ _ e h
      · cases h
        rfl
  | argument source h =>
    refine consistent_replaceM (fun x => ?_) _ e h
    unfold Node.resolveArgument
    split
    · exact lambda source
    · exact raises_ok _
  | unnamed | collection _ | waiting _ | converts _ => rfl

/-- A late failure of the node that comes next is no inconsistency. -/
theorem consistent_halfway (hb : b.Underway ids settings depth chain first done)
    (linked : chain.Linked) (nodes : chain.nodes = first :: done ++ n :: ns)
    (h : n.Halfway ids (n.nested ids) chain b e b') : e.isInconsistency = false := by
  cases h with
  | mainSource | subQuerySource | selectMany => rfl
  | selectManyResult _ _ _ source _ _ _ _ failed =>
    have fresh := hb.fresh_of_linked linked nodes
    have known := hb.known linked nodes source
    exact consistent_resolveResult ⟨_, Ledger.item_noted_self fresh _ _⟩ (raises_ok ())
      (known.extends (Ledger.extends_of_records rfl)).consistent_resolve e failed
  | select _ _ _ _ waits failed =>
    obtain ⟨q, filled⟩ := hb.imaged.laid.exists_fill hb.waitsInBody _
    rw [waits, Query.fill, failed] at filled
    cases filled

theorem consistent_applyNodes (hb : b.Underway ids settings depth chain first done)
    (linked : chain.Linked) (nodes : chain.nodes = first :: done ++ ns)
    (hn : ∀ n ∈ ns, n.NestsConsistently ids) (h : Fails (applyNodes ids chain ns) b e) :
    e.isInconsistency = false := by
  induction ns generalizing done b with
  | nil => cases h
  | cons n ns ih =>
    obtain ⟨here, others⟩ := List.forall_mem_cons.mp hn
    rw [applyNodes, fails_bind] at h
    rcases h with h | ⟨_, b₁, run, h⟩
    · obtain ⟨b', h⟩ := fails_iff_exists_halts.mp h
      rcases Node.applyWith_halts h with ⟨refused, -⟩ | ⟨-, halfway⟩
      · exact hb.consistent_refuses linked nodes here refused
      · exact hb.consistent_halfway linked nodes halfway
    · obtain ⟨fresh, step⟩ := Node.applyWith_runs_iff.mp run
      exact ih (step.underway hb fresh) (by simp [nodes]) others h

theorem steps (hb : b.Underway ids settings depth chain first done) (h : NodeSteps ids chain ns b b') :
    b'.Underway ids settings depth chain first (done ++ ns) :=
  h.invariant done (fun _ _ _ _ _ hI fresh step => step.underway hI fresh) hb

/-- The end of the query is not set twice, and validation finds no inconsistency. -/
theorem consistent_finish (hb : b.Underway ids settings depth chain first done) :
    Consistent b.finish := by
  rw [Build.finish]
  cases b.ledger.projection with
  | none => exact raises_error_iff.mpr rfl
  | some p =>
    cases b.ledger.openFrom with
    | some waiting => exact raises_error_iff.mpr rfl
    | none =>
      simp only [Query.setTerminal, hb.unended]
      refine Raises.bind (raises_ok _) fun q _ => ?_
      split_ifs
      · exact (consistent_ofQueryResult (consistent_validateWithin q [])).bind
          fun _ _ => raises_pure _
      · exact raises_pure _

end Build.Underway

/-- The first node does not raise an inconsistency either. -/
theorem Node.NestsConsistently.startWith (hn : n.NestsConsistently ids) {k : Nat}
    (h : Fails (n.startWith ids (n.nested ids) (.start settings depth)) k e) :
    e.isInconsistency = false := by
  obtain ⟨k', h⟩ := fails_iff_exists_halts.mp h
  have recorded : ∀ r, Consistent ((Ledger.start settings depth).record n.id r) :=
    fun r => consistent_of_exists_ok ⟨_, Ledger.record_eq_ok_iff.mpr ⟨rfl, rfl⟩⟩
  rw [Node.startWith] at h
  cases op : n.operation with
  | mainSource x =>
    simp only [op, halts_bind, halts_lift, halts_createSource, not_halts_pure, and_false,
      exists_false, or_false] at h
    rcases h with ⟨refused, -⟩ | ⟨_, _, -, ⟨-, rfl, -⟩ | ⟨_, _, -, refused, -⟩⟩
    · exact consistent_sourceItemType x e refused
    · rfl
    · exact recorded _ e refused
  | subQuerySource inner =>
    simp only [op, halts_bind, halts_lift, halts_createSource, not_halts_pure, and_false,
      exists_false, or_false, Prod.exists] at h
    rcases h with refused | ⟨_, _, _, -, ⟨-, rfl, -⟩ | ⟨_, _, -, refused, -⟩⟩
    · exact hn.nestedItems op refused
    · rfl
    · exact recorded _ e refused
  | _ =>
    simp only [op, halts_throw] at h
    rw [h.1]
    rfl

end

/-! ### Chains -/

theorem Chain.consistent_build {ids : Nat → SourceId} (chain : Chain) :
    ∀ settings depth k e, Fails (chain.build ids settings depth) k e →
      e.isInconsistency = false := by
  induction chain using Chain.induction with
  | step chain ih =>
    intro settings depth k e h
    have nests : ∀ n ∈ chain.nodes, n.NestsConsistently ids :=
      fun n hn inner op => ih inner ⟨n, hn, op⟩
    obtain ⟨nodes, resultType⟩ := chain
    rw [Chain.build.eq_def] at h
    split_ifs at h with deep
    · simp only [fails_bind, fails_throw, runs_throw, false_and, exists_false, or_false] at h
      rw [← h]
      rfl
    cases nodes with
    | nil =>
      rw [fails_throw] at h
      rw [← h]
      rfl
    | cons first rest =>
      obtain ⟨here, others⟩ := List.forall_mem_cons.mp nests
      dsimp only at h
      rcases fails_bind.mp h with unlinked | ⟨_, _, run, build⟩
      · obtain ⟨_, unlinked⟩ := fails_iff_exists_halts.mp unlinked
        exact consistent_checkLinks _ e (halts_lift.mp unlinked).1
      have linked := linked_of_checkLinks (runs_lift.mp run).1
      rcases fails_bind.mp build with start | ⟨⟨s, x, l⟩, k₁, start, complete⟩
      · exact here.startWith start
      have hb : Build.Underway ids settings depth ⟨first :: rest, resultType⟩ first [] _ :=
        Node.Start.underway ((Node.startWith_runs_iff resultType).mp start)
      rcases Build.complete_fails_iff.mp complete with steps | ⟨b, steps, finish⟩
      · exact hb.consistent_applyNodes linked rfl others steps
      · exact (hb.steps (applyNodes_runs_iff.mp steps)).consistent_finish e finish

/-- **Builds do not lose track of themselves**: whatever a chain is like, no build of it fails with
an error that says so. -/
theorem toQuery_consistent {ids : Nat → SourceId} {settings : Settings} {chain : Chain} {k : Nat}
    {e : BuildError} (h : Fails (chain.toQuery ids settings) k e) : e.isInconsistency = false :=
  chain.consistent_build settings 0 k e h

theorem lineup_consistent :
    Fails ((Sample.lineup Sample.third).toQuery SourceId.countUp {}) 0
        (.missingProjection "c" "value(Cook[])") ∧
      (BuildError.missingProjection "c" "value(Cook[])").isInconsistency = false :=
  have h : Fails ((Sample.lineup Sample.third).toQuery SourceId.countUp {}) 0
      (.missingProjection "c" "value(Cook[])") := fails_of_failure? (by decide +kernel)
  ⟨h, toQuery_consistent h⟩

end QueryFold
