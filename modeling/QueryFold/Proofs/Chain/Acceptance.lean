import QueryFold.Proofs.Chain.Casting
import QueryFold.Proofs.Expr.Capture

/-!
# Chains that can be built

Whether a chain can be built depends on the order of its operations alone, once each operation is
well formed by itself: the lambdas take what the operation gives them, the names are not empty, and
what is iterated over is a sequence (`Operation.Fits`). Then nothing that a step asks for can be
missing but what its stage forbids, so every list of operations that the stages allow is applied to
its end.

Together with the soundness of the stages (`Chain.Built.ordered`) this decides which chains are
built: `toQuery_runs_iff_ordered`.
-/

namespace QueryFold

/-! ### Well-formed operations -/

/-- The lambda has so many parameters, and no other ones are free in its body. -/
structure Lambda.Takes (arity : Nat) (l : Lambda) : Prop where
  length : l.params.length = arity
  covers : ∀ p, FreeIn p l.body → p ∈ l.params

instance (arity : Nat) (l : Lambda) : Decidable (l.Takes arity) :=
  decidable_of_iff (l.params.length = arity ∧ ∀ p ∈ l.body.freeParams, p ∈ l.params)
    ⟨fun ⟨length, covers⟩ => ⟨length, fun p hp => covers p (mem_freeParams_iff.mpr hp)⟩,
      fun ⟨length, covers⟩ => ⟨length, fun p hp => covers p (mem_freeParams_iff.mp hp)⟩⟩

/-- An expression that stays what it is, with the type that it has, when parameters are replaced. -/
def Expr.Rigid : Expr → Prop
  | .param _ | .lambda _ _ => False
  | _ => True

/-- The operation is well formed; `builds` says of nested chains that they can be built. -/
def Operation.Fits (builds : Chain → Prop) : Operation → Prop
  | mainSource e => ∃ t, e.type.element? = some t
  | subQuerySource inner => builds inner
  | selectMany collection result =>
    (collection.Takes 1 ∧ collection.body.Rigid ∧ ∃ t, collection.body.type.element? = some t) ∧
      ∀ selector, result = some selector →
        selector.Takes 2 ∧ ∀ inner, selector.params[1]? = some inner → inner.name ≠ ""
  | filter predicate => predicate.Takes 1
  | orderBy key _ _ => key.Takes 1
  | select selector => selector.Takes 1
  | define name value => name.name ≠ "" ∧ value.Takes 1
  | groupBy key element => key.Takes 1 ∧ ∀ selector, element = some selector → selector.Takes 1
  | cast _ _ => True
  | resultOperator op =>
    op.castType? = none ∧ ∀ arg ∈ op.expressions, ∀ p body, arg ≠ .lambda [p] body

/-- The node has a name for items of its own, and a well-formed operation. Nested chains can be
built one level down, whatever was drawn before. -/
structure Node.Fits (ids : Nat → SourceId) (settings : Settings) (depth : UInt32) (n : Node) :
    Prop where
  named : n.operation.bindsItem = true → n.identifier ≠ ""
  operation : n.operation.Fits fun inner =>
    ∀ k, ∃ q l k', Runs (inner.build ids settings (depth + 1)) k (q, l) k'

/-! ### Resolved lambdas -/

theorem Lambda.Takes.exists_param {l : Lambda} (h : l.Takes 1) :
    ∃ p, l.params = [p] ∧ ∀ q, FreeIn q l.body → q = p := by
  obtain ⟨p, params⟩ := List.length_eq_one_iff.mp h.length
  refine ⟨p, params, fun q hq => ?_⟩
  have := h.covers q hq
  rwa [params, List.mem_singleton] at this

theorem Lambda.Takes.exists_params {l : Lambda} (h : l.Takes 2) :
    ∃ outer inner, l.params = [outer, inner] ∧ ∀ q, FreeIn q l.body → q = outer ∨ q = inner := by
  obtain ⟨outer, inner, params⟩ := List.length_eq_two.mp h.length
  refine ⟨outer, inner, params, fun q hq => ?_⟩
  have := h.covers q hq
  rwa [params, List.mem_pair] at this

theorem Expr.Rigid.substituteParam {e : Expr} (h : e.Rigid) (p : Param) (r : Expr) :
    (e.substituteParam p r).Rigid ∧ (e.substituteParam p r).type = e.type := by
  by_cases he : e.Plain
  · rw [substituteParam_plain he]
    cases e with
    | param _ | item _ | lambda _ _ | subQuery _ => exact he.elim
    | _ => exact ⟨trivial, rfl⟩
  · cases e with
    | param _ | lambda _ _ => exact h.elim
    | item _ =>
      rw [substituteParam_item]
      exact ⟨trivial, rfl⟩
    | subQuery _ =>
      rw [substituteParam_subQuery]
      exact ⟨trivial, rfl⟩
    | _ => exact absurd trivial he

namespace Route

variable {l : Ledger} {route : Route} {p : Param} {body e : Expr}

/-- Resolution keeps the type of what is more than a parameter. -/
theorem Resolves.type_eq (h : route.Resolves l p body e) (rigid : body.Rigid) :
    e.Rigid ∧ e.type = body.type := by
  induction h with
  | item _ _ | result _ _ _ _ _ _ | select _ _ _ _ _ => exact rigid.substituteParam _ _
  | define _ _ _ ih =>
    obtain ⟨before, type⟩ := ih rigid
    obtain ⟨after, same⟩ := before.substituteParam _ _
    exact ⟨after, same.trans type⟩
  | cast _ _ _ ih =>
    obtain ⟨before, type⟩ := rigid.substituteParam _ _
    obtain ⟨after, same⟩ := ih before
    exact ⟨after, same.trans type⟩
  | pass _ _ ih => exact ih rigid

end Route

namespace Chain

variable {c : Chain} {l : Ledger} {link : NodeId} {lambda : Lambda}

/-- On a settled route every lambda that takes an item can be resolved. -/
theorem resolveLambda_of_settled (settled : (c.route link).Settled l) (takes : lambda.Takes 1) :
    ∃ e, c.resolveLambda l link lambda = .ok e ∧
      (lambda.body.Rigid → e.type = lambda.body.type) := by
  obtain ⟨p, params, covers⟩ := takes.exists_param
  obtain ⟨e, resolves⟩ := settled.resolves p lambda.body
  refine ⟨e, resolveLambda_eq_ok_iff.mpr ⟨p, params, resolves, fun q hq => ?_⟩,
    fun rigid => (resolves.type_eq rigid).2⟩
  obtain ⟨hne, hq⟩ := resolves.freeIn hq
  exact hne (covers q hq)

/-- A result selector can be resolved once the item of its node is recorded. -/
theorem resolveResult_of_settled {l' : Ledger} {n : Node} {r : ItemRef}
    (settled : (c.route link).Settled l) (ext : l.Extends l') (recorded : l'.item n.id = .ok r)
    (takes : lambda.Takes 2) :
    ∃ e, lambda.resolveResult l' n (.ok ()) (c.resolve l' link) = .ok e := by
  obtain ⟨outer, inner, params, covers⟩ := takes.exists_params
  obtain ⟨e, resolves⟩ := settled.resolves outer (lambda.body.substituteParam inner (.item r))
  refine ⟨e, Lambda.resolveResult_eq_ok_iff.mpr ⟨outer, inner, r, params, recorded, rfl,
    Route.resolve_eq_ok_iff.mpr (resolves.extends ext), fun q hq => ?_⟩⟩
  obtain ⟨houter, hq⟩ := resolves.freeIn hq
  obtain ⟨hinner, hq⟩ :=
    (freeIn_of_freeIn_substituteParam hq).resolve_right (not_freeIn_item q r)
  exact (covers q hq).elim houter hinner

end Chain

theorem Node.groupElement_of_settled {c : Chain} {l : Ledger} {link : NodeId} {key : Lambda}
    {element : Option Lambda} (settled : (c.route link).Settled l) (takes : key.Takes 1)
    (elements : ∀ selector, element = some selector → selector.Takes 1) :
    ∃ e, groupElement (m := Id) c l link key element = .ok e := by
  cases element with
  | some selector =>
    obtain ⟨e, resolved, -⟩ := Chain.resolveLambda_of_settled settled (elements selector rfl)
    exact ⟨e, resolved⟩
  | none =>
    obtain ⟨p, params, -⟩ := takes.exists_param
    obtain ⟨e, -, -, resolves⟩ := settled.resolves_item
    refine ⟨e, ?_⟩
    simp only [groupElement, Lambda.single?_eq_some_iff.mpr params]
    exact Route.resolve_eq_ok_iff.mpr (resolves p)

/-- An argument that is no lambda with one parameter stands for itself. -/
theorem Node.replaceM_resolveArgument {c : Chain} {l : Ledger} {link : NodeId} {o : ResultOp}
    (h : ∀ arg ∈ o.expressions, ∀ p body, arg ≠ .lambda [p] body) :
    o.replaceM (resolveArgument (m := Id) c l link) = .ok o := by
  refine ResultOp.replaceM_eq_ok_iff.mpr ?_
  cases o with
  | argument op arg =>
    refine .inl ⟨op, arg, arg, rfl, ?_, rfl⟩
    unfold resolveArgument
    split
    · exact absurd rfl (h _ List.mem_cons_self _ _)
    · rfl
  | _ => exact .inr ⟨rfl, rfl⟩

theorem Ledger.item_noted_self {l : Ledger} {id : NodeId} (fresh : l.record? id = none)
    (position : Option Position) (r : ItemRef) : (l.noted id ⟨position, some r⟩).item id = .ok r :=
  item_eq_ok_iff.mpr ⟨_, record?_of_records fresh rfl, rfl⟩

/-! ### What a stage allows -/

namespace Stage.Allows

variable {l : Ledger} {op : Operation} {callSite : String}

theorem unsealed_of_clause (h : l.stage.Allows op) (clause : op.onResult = false) :
    l.stage.sealed = false := by
  by_contra hs
  exact absurd (clause.symm.trans (h.unsealed (by simpa using hs))) nofun

theorem ensureProjection (h : l.stage.Allows op) (clause : op.onResult = false) {identity : Bool}
    (yields : op.reprojects = false → identity = true) :
    l.ensureProjection callSite identity = .ok () :=
  ensureProjection_eq_ok_iff.mpr
    ⟨h.unsealed_of_clause clause, fun hc => yields (h.unconverted hc)⟩

theorem openFrom_eq_none (h : l.stage.Allows op)
    (binds : op.bindsItem = true ∨ op.groups = true) : l.openFrom = none := by
  refine stage_waits_eq_false_iff.mp ?_
  by_contra hw
  obtain ⟨unbound, ungrouped⟩ := h.settled (by simpa using hw)
  simp [unbound, ungrouped] at binds

end Stage.Allows

/-- The items of a query that was built have a type. -/
theorem Chain.Built.exists_itemType {ids : Nat → SourceId} {settings : Settings} {depth : UInt32}
    {chain : Chain} {k k' : Nat} {q : Query} {l : Ledger}
    (h : chain.Built ids settings depth k q l k') : ∃ t, q.itemType? = some t := by
  cases h with
  | @intro _ _ _ b p =>
    rw [Query.itemType?]
    cases (b.ended p).operators.reverse.findSome? ResultOp.castType? with
    | none => exact ⟨_, rfl⟩
    | some t => exact ⟨t, rfl⟩

/-! ### Builds under way -/

/-- The from clause that waits stands in the body. -/
def Ledger.WaitsInBody (l : Ledger) : Prop := ∀ o, l.openFrom = some o → ∃ i, o.clause = .body i

theorem Node.Iterates.exists_withProjection? {chain : Chain} {l : Ledger} {ids : Nat → SourceId}
    {settings : Settings} {depth : UInt32} {n : Node} {c : Clause}
    {projection : Option Expr} {previous : Position}
    (h : n.Iterates chain l ids settings depth projection previous c) (e : Expr) :
    ∃ c', c.withProjection? e = some c' := by
  cases h with
  | mainSource | subQuerySource => exact ⟨_, rfl⟩
  | selectMany _ _ _ ranges => cases ranges <;> exact ⟨_, rfl⟩

/-- The from clause that waits can get its projection. -/
theorem Build.Laid.exists_fill {ids : Nat → SourceId} {settings : Settings} {depth : UInt32}
    {chain : Chain} {b : Build} {gs : List Group} (hb : b.Laid ids settings depth chain gs)
    (h : b.ledger.WaitsInBody) (e : Expr) : ∃ q, b.query.fill b.ledger.openFrom e = .ok q := by
  cases waits : b.ledger.openFrom with
  | none => exact ⟨_, rfl⟩
  | some o =>
    obtain ⟨i, clause⟩ := h o waits
    have hw : b.ledger.WaitsAt i := ⟨o, waits, clause⟩
    have hi := hb.within i hw
    obtain ⟨c, hc⟩ : ∃ c, b.query.body[i]? = some c := ⟨_, List.getElem?_eq_getElem hi⟩
    obtain ⟨g, hg⟩ : ∃ g, gs[i]? = some g := ⟨_, List.getElem?_eq_getElem (hb.length ▸ hi)⟩
    obtain ⟨c', hc'⟩ := ((hb.explains i g c hg hc).awaits hw).head.exists_withProjection? e
    exact ⟨_, Query.fill_eq_ok_iff.mpr (.inr ⟨o, i, _, c', rfl, clause, hc, hc', rfl⟩)⟩

/-- A key can be added where subordinate keys go. -/
theorem Query.exists_addKey {q : Query} {position : Position}
    (h : Node.lastOrderBy? q = some position) (k : SortKey) :
    ∃ q', q.addKey position k = .ok q' := by
  obtain ⟨i, rfl, -, keys, previous, hc⟩ := Node.lastOrderBy?_eq_some_iff.mp h
  exact ⟨_, Query.modifyClause_eq_ok_iff.mpr ⟨i, _, _, rfl, hc, rfl, rfl⟩⟩

namespace Node.Step

variable {ids : Nat → SourceId} {nested : Nested} {chain : Chain} {n : Node} {b b' : Build}

/-- A step does not end the query. -/
theorem terminal_eq (h : n.Step ids nested chain b b') : b'.query.terminal = b.query.terminal := by
  cases h with
  | thenBy _ _ _ _ _ extended =>
    obtain ⟨_, _, _, _, _, _, rfl⟩ := Query.modifyClause_eq_ok_iff.mp extended
    rfl
  | select _ _ _ _ filled =>
    rcases Query.fill_eq_ok_iff.mp filled with ⟨-, rfl⟩ | ⟨_, _, _, _, _, _, _, _, rfl⟩ <;> rfl
  | _ => rfl

theorem waitsInBody (hb : b.ledger.WaitsInBody) (h : n.Step ids nested chain b b') :
    b'.ledger.WaitsInBody := by
  cases h with
  | mainSource | subQuerySource | selectMany =>
    intro o ho
    cases ho
    exact ⟨_, rfl⟩
  | select =>
    intro o ho
    cases ho
  | _ => exact hb

end Node.Step

/-- The build of a chain after its first node and others were applied. -/
structure Build.Underway (ids : Nat → SourceId) (settings : Settings) (depth : UInt32)
    (chain : Chain) (first : Node) (done : List Node) (b : Build) : Prop where
  imaged : b.Imaged ids settings depth chain first done
  settled : ∀ n ∈ first :: done, n.Settled chain b.ledger
  waitsInBody : b.ledger.WaitsInBody
  unended : b.query.terminal = none
  ungrouped : b.ledger.stage.sealed = false → ∀ n ∈ done, n.operation.groups = false

section

variable {ids : Nat → SourceId} {settings : Settings} {depth : UInt32} {chain : Chain}
  {first n : Node} {done ns : List Node} {b b' : Build}

theorem Node.Start.underway {k : Nat}
    (h : first.Start ids (first.nested ids) settings depth chain.resultType k b) :
    b.Underway ids settings depth chain first [] where
  imaged := h.imaged
  settled m hm := List.mem_singleton.mp hm ▸ h.settled
  waitsInBody o ho := by cases h <;> cases ho
  unended := by cases h <;> rfl
  ungrouped := by simp

theorem Node.Step.underway (hb : b.Underway ids settings depth chain first done)
    (fresh : b.ledger.record? n.id = none) (h : n.Step ids (n.nested ids) chain b b') :
    b'.Underway ids settings depth chain first (done ++ [n]) where
  imaged := h.imaged hb.imaged fresh
  settled m hm := by
    rw [← List.cons_append] at hm
    rcases List.mem_append.mp hm with hm | hm
    · exact (hb.settled m hm).extends h.extends
    · exact List.mem_singleton.mp hm ▸ h.settled fresh
  waitsInBody := h.waitsInBody hb.waitsInBody
  unended := h.terminal_eq.trans hb.unended
  ungrouped unsealed m hm := by
    rw [h.stage.2] at unsealed
    obtain ⟨before, open'⟩ := Bool.or_eq_false_iff.mp unsealed
    rcases List.mem_append.mp hm with hm | hm
    · exact hb.ungrouped before m hm
    · rw [List.mem_singleton.mp hm]
      cases op : n.operation <;> simp_all [Operation.seals, Operation.groups]

namespace Build.Underway

/-- A node is applied for the first time. -/
theorem fresh_of_linked (hb : b.Underway ids settings depth chain first done) (linked : chain.Linked)
    (nodes : chain.nodes = first :: done ++ n :: ns) : b.ledger.record? n.id = none := by
  have distinct := linked.distinct
  rw [nodes, List.map_append, List.map_cons] at distinct
  have apart : n.id ∉ (first :: done).map Node.id := fun hm =>
    (List.nodup_append.mp distinct).2.2 _ hm _ List.mem_cons_self rfl
  rw [← hb.imaged.records] at apart
  rw [Ledger.record?, List.lookup_eq_none_iff]
  intro r hr
  rw [bne_iff_ne]
  intro hid
  exact apart (hid ▸ List.mem_map_of_mem hr)

theorem fresh (hb : b.Underway ids settings depth chain first done) (pushed : chain.Pushed)
    (nodes : chain.nodes = first :: done ++ n :: ns) : b.ledger.record? n.id = none :=
  hb.fresh_of_linked pushed.linked nodes

theorem source (pushed : chain.Pushed) (nodes : chain.nodes = first :: done ++ n :: ns) :
    n.source = some ⟨done.length⟩ := by
  refine pushed.source_eq (i := done.length) ?_
  rw [nodes, List.getElem?_append_right (by simp)]
  simp

/-- As long as the query is open, the items of the node before are known. -/
theorem settled_route (hb : b.Underway ids settings depth chain first done) (pushed : chain.Pushed)
    (nodes : chain.nodes = first :: done ++ n :: ns) (begins : first.operation.isSource = true)
    (unsealed : b.ledger.stage.sealed = false) :
    (chain.route ⟨done.length⟩).Settled b.ledger := by
  have front : ∀ {i m}, i < done.length + 1 → chain.nodes[i]? = some m → m ∈ first :: done := by
    intro i m hi hm
    rw [nodes, List.getElem?_append_left (by simpa using hi)] at hm
    exact List.mem_of_getElem? hm
  have within : done.length < chain.nodes.length := by
    rw [nodes, List.length_append, List.length_cons, List.length_cons]
    omega
  refine pushed.linked.settled_below (fun i m hi hm => hb.settled m (front hi hm))
    (Nat.lt_succ_self _) (pushed.leads (fun m hm => ?_) within fun i m hi hm => ?_)
  · obtain rfl : first = m := by simpa [nodes] using hm
    exact begins
  · rcases List.mem_cons.mp (front (Nat.lt_succ_of_le hi) hm) with rfl | hm
    · cases op : m.operation <;> simp_all [Operation.isSource, Operation.groups]
    · exact hb.ungrouped unsealed m hm

/-- **Progress**: a well-formed node that the stage allows can be applied. -/
theorem exists_step (hb : b.Underway ids settings depth chain first done) (pushed : chain.Pushed)
    (nodes : chain.nodes = first :: done ++ n :: ns) (begins : first.operation.isSource = true)
    (fits : n.Fits ids settings depth) (allowed : b.ledger.stage.Allows n.operation) :
    ∃ b', n.Step ids (n.nested ids) chain b b' := by
  obtain ⟨named, fits⟩ := fits
  have source := source pushed nodes
  have settled : n.operation.onResult = false → (chain.route ⟨done.length⟩).Settled b.ledger :=
    fun h => hb.settled_route pushed nodes begins (allowed.unsealed_of_clause h)
  have clause : n.operation.onResult = false → b.ledger.ensureClause n.callSite = .ok () :=
    fun h => ensureClause_eq_ok_iff.mpr (allowed.unsealed_of_clause h)
  cases op : n.operation with
  | mainSource e =>
    rw [op] at named fits allowed clause
    obtain ⟨t, items⟩ := fits
    exact ⟨_, .mainSource op (clause rfl) items (named rfl) (allowed.openFrom_eq_none (.inl rfl))⟩
  | subQuerySource inner =>
    rw [op] at named fits allowed clause
    obtain ⟨q, l, k, built⟩ := fits b.drawn
    have built := Chain.build_runs_iff.mp built
    obtain ⟨t, items⟩ := built.exists_itemType
    have nested : Runs (n.nested ids b.ledger.settings (b.ledger.depth + 1)) b.drawn q k := by
      rw [hb.imaged.settings_eq, hb.imaged.depth_eq]
      exact Node.nested_runs_iff.mpr ⟨inner, l, op, built⟩
    exact ⟨_, .subQuerySource op (clause rfl) nested items (named rfl)
      (allowed.openFrom_eq_none (.inl rfl))⟩
  | selectMany collection result =>
    rw [op] at named fits allowed settled clause
    obtain ⟨⟨takes, rigid, t, items⟩, results⟩ := fits
    obtain ⟨e, resolved, type⟩ := Chain.resolveLambda_of_settled (settled rfl) takes
    rw [← type rigid] at items
    cases result with
    | none =>
      exact ⟨_, .selectMany op (clause rfl) source resolved items (named rfl)
        (allowed.openFrom_eq_none (.inl rfl))⟩
    | some selector =>
      obtain ⟨binary, inner⟩ := results selector rfl
      obtain ⟨outer, x, params, -⟩ := binary.exists_params
      have recorded := Ledger.item_noted_self (hb.fresh pushed nodes) (some b.query.next)
        (Source.ref ⟨ids b.drawn, x⟩)
      obtain ⟨projected, result⟩ := Chain.resolveResult_of_settled (settled rfl)
        (Ledger.extends_of_records rfl) recorded binary
      exact ⟨_, .selectManyResult op (clause rfl)
        (allowed.ensureProjection rfl (by simp [Operation.reprojects])) source resolved
        items params (inner x (by rw [params]; rfl)) result⟩
  | filter predicate =>
    rw [op] at fits settled clause
    obtain ⟨e, resolved, -⟩ := Chain.resolveLambda_of_settled (settled rfl) fits
    exact ⟨_, .filter op (clause rfl) source resolved⟩
  | orderBy key direction thenBy =>
    rw [op] at fits settled clause
    obtain ⟨e, resolved, -⟩ := Chain.resolveLambda_of_settled (settled rfl) fits
    cases joins : (if thenBy = true then Node.lastOrderBy? b.query else none) with
    | none =>
      exact ⟨_, .orderBy op (clause rfl) source resolved fun ht => by simpa [ht] using joins⟩
    | some position =>
      cases thenBy with
      | false => simp at joins
      | true =>
        obtain ⟨q, extended⟩ := Query.exists_addKey (by simpa using joins) ⟨e, direction, none⟩
        exact ⟨_, .thenBy op (clause rfl) source resolved (by simpa using joins) extended⟩
  | select selector =>
    rw [op] at fits allowed settled
    obtain ⟨e, resolved, -⟩ := Chain.resolveLambda_of_settled (settled rfl) fits
    obtain ⟨q, filled⟩ := hb.imaged.laid.exists_fill hb.waitsInBody e
    exact ⟨_, .select op (allowed.ensureProjection rfl (by simp [Operation.reprojects])) source
      resolved filled⟩
  | define name value =>
    rw [op] at fits settled clause
    obtain ⟨e, resolved, -⟩ := Chain.resolveLambda_of_settled (settled rfl) fits.2
    exact ⟨_, .define op (clause rfl) source resolved fits.1⟩
  | groupBy key element =>
    rw [op] at fits allowed settled clause
    obtain ⟨k, resolved, -⟩ := Chain.resolveLambda_of_settled (settled rfl) fits.1
    obtain ⟨e, grouped⟩ := Node.groupElement_of_settled (settled rfl) fits.1 fits.2
    exact ⟨_, .groupBy op (clause rfl)
      (allowed.ensureProjection rfl (by simp [Operation.reprojects])) source resolved grouped
      (allowed.openFrom_eq_none (.inr rfl))⟩
  | cast kind type =>
    cases kind with
    | cast => exact ⟨_, .cast op⟩
    | ofType => exact ⟨_, .ofType op⟩
  | resultOperator o =>
    rw [op] at fits
    exact ⟨_, .resultOperator op fits.1 source (Node.replaceM_resolveArgument fits.2)⟩

/-- Well-formed nodes that the stages allow one after the other can all be applied. -/
theorem exists_steps (hb : b.Underway ids settings depth chain first done) (pushed : chain.Pushed)
    (nodes : chain.nodes = first :: done ++ ns) (begins : first.operation.isSource = true)
    (fits : ∀ n ∈ ns, n.Fits ids settings depth)
    (accepted : b.ledger.stage.Accepts (ns.map Node.operation)) :
    ∃ b', NodeSteps ids chain ns b b' ∧ b'.Underway ids settings depth chain first (done ++ ns) ∧
      b'.ledger.stage.projected = true ∧ b'.ledger.stage.waits = false := by
  induction ns generalizing done b with
  | nil => exact ⟨b, .nil, by rwa [List.append_nil], accepted⟩
  | cons n ns ih =>
    obtain ⟨allowed, accepted⟩ := accepted
    obtain ⟨fits, others⟩ := List.forall_mem_cons.mp fits
    obtain ⟨b₁, step⟩ := hb.exists_step pushed nodes begins fits allowed
    have fresh := hb.fresh pushed nodes
    rw [← step.stage.2] at accepted
    obtain ⟨b', steps, hb', done⟩ :=
      ih (step.underway hb fresh) (by simp [nodes]) others accepted
    exact ⟨b', .cons fresh step steps, by simpa using hb', done⟩

end Build.Underway

/-- A well-formed source starts a build. -/
theorem Node.Fits.exists_start (h : n.Fits ids settings depth)
    (source : n.operation.isSource = true) (resultType : Ty) (k : Nat) :
    ∃ b, n.Start ids (n.nested ids) settings depth resultType k b := by
  obtain ⟨named, fits⟩ := h
  cases op : n.operation with
  | mainSource e =>
    rw [op] at named fits
    obtain ⟨t, items⟩ := fits
    exact ⟨_, .mainSource op items (named rfl)⟩
  | subQuerySource inner =>
    rw [op] at named fits
    obtain ⟨q, l, k', built⟩ := fits k
    have built := Chain.build_runs_iff.mp built
    obtain ⟨t, items⟩ := built.exists_itemType
    exact ⟨_, .subQuerySource op (Node.nested_runs_iff.mpr ⟨inner, l, op, built⟩) items
      (named rfl)⟩
  | _ => simp [op, Operation.isSource] at source

end

/-! ### Chains -/

/-- Of the chains of well-formed nodes in a row behind a source, those are built at a depth that is
allowed whose operations are in order, and no other ones. -/
theorem Chain.build_runs_iff_ordered {ids : Nat → SourceId} {settings : Settings} {depth : UInt32}
    {chain : Chain} (checks : settings.validate = false) (shallow : depth ≤ settings.maxDepth)
    (pushed : chain.Pushed) {first : Node} {rest : List Node} (nodes : chain.nodes = first :: rest)
    (source : first.operation.isSource = true)
    (fits : ∀ n ∈ chain.nodes, n.Fits ids settings depth) (k : Nat) :
    (∃ q l k', Runs (chain.build ids settings depth) k (q, l) k') ↔
      Ordered (rest.map Node.operation) := by
  constructor
  · rintro ⟨q, l, k', h⟩
    have := (Chain.build_runs_iff.mp h).ordered
    rwa [nodes, List.tail_cons] at this
  · intro ordered
    rw [nodes, List.forall_mem_cons] at fits
    obtain ⟨b, start⟩ := fits.1.exists_start source chain.resultType k
    have accepted : b.ledger.stage.Accepts (rest.map Node.operation) := by
      rwa [start.stage, Stage.start_accepts_iff]
    obtain ⟨b', steps, hb', projects, settled⟩ :=
      start.underway.exists_steps pushed nodes source fits.2 accepted
    obtain ⟨p, projects⟩ := Option.isSome_iff_exists.mp projects
    have unchecked : b'.ledger.settings.validate = false := by rw [hb'.imaged.settings_eq, checks]
    exact ⟨_, _, _, Chain.build_runs_iff.mpr (.intro shallow nodes
      (Chain.checkLinks_eq_ok_iff.mpr pushed.linked) start steps projects
      (stage_waits_eq_false_iff.mp settled) hb'.unended
      fun validates => absurd (unchecked.symm.trans validates) nofun)⟩

/-- **Which chains are built**: of the chains of well-formed nodes in a row behind a source, exactly
those whose operations are in order, if the queries are not validated. -/
theorem toQuery_runs_iff_ordered {ids : Nat → SourceId} {settings : Settings} {chain : Chain}
    (checks : settings.validate = false) (pushed : chain.Pushed) {first : Node} {rest : List Node}
    (nodes : chain.nodes = first :: rest) (source : first.operation.isSource = true)
    (fits : ∀ n ∈ chain.nodes, n.Fits ids settings 0) (k : Nat) :
    (∃ q l k', Runs (chain.toQuery ids settings) k (q, l) k') ↔
      Ordered (rest.map Node.operation) :=
  chain.build_runs_iff_ordered checks UInt32.zero_le pushed nodes source fits k

namespace Sample

/-- The cooks who are assistants. -/
def trainees : Chain :=
  Chain.empty (Ty.queryable cook.type)
    |>.push "c" (.mainSource cooks)
    |>.push "c" (.filter ⟨[cook], assistant⟩)
    |>.push "c" (.select ⟨[cook], .param cook⟩)

/-- For each cook the names of the trainees, without repetition. -/
def crews : Chain :=
  Chain.empty (Ty.queryable (Ty.plain "string"))
    |>.push "c" (.mainSource cooks)
    |>.push "t" (.subQuerySource trainees)
    |>.push "t" (.select ⟨[cook], name⟩)
    |>.push "t" (.resultOperator (.plain .distinct))

theorem exists_runs_trainees (k : Nat) : ∃ q l k',
    Runs (trainees.build SourceId.countUp { validate := false } 1) k (q, l) k' := by
  have pushed : trainees.Pushed := .push (.push (.push (.empty _) _ _) _ _) _ _
  refine (Chain.build_runs_iff_ordered rfl (by decide) pushed rfl rfl (fun n hn => ?_) k).mpr
    (by decide)
  simp only [trainees, Chain.push, Chain.pushFrom, Chain.empty, List.nil_append,
    List.cons_append, List.mem_cons, List.not_mem_nil, or_false] at hn
  rcases hn with rfl | rfl | rfl
  · exact ⟨by decide, _, rfl⟩
  · exact ⟨by decide, show Lambda.Takes 1 _ by decide⟩
  · exact ⟨by decide, show Lambda.Takes 1 _ by decide⟩

end Sample

theorem toQuery_runs_iff_ordered_crews :
    (∃ q l k', Runs (Sample.crews.toQuery SourceId.countUp { validate := false }) 0 (q, l) k') ↔
      Ordered (Sample.crews.nodes.tail.map Node.operation) := by
  have pushed : Sample.crews.Pushed := .push (.push (.push (.push (.empty _) _ _) _ _) _ _) _ _
  refine toQuery_runs_iff_ordered rfl pushed rfl rfl (fun n hn => ?_) 0
  simp only [Sample.crews, Chain.push, Chain.pushFrom, Chain.empty, List.nil_append,
    List.cons_append, List.mem_cons, List.not_mem_nil, or_false] at hn
  rcases hn with rfl | rfl | rfl | rfl
  · exact ⟨by decide, _, rfl⟩
  · exact ⟨by decide, Sample.exists_runs_trainees⟩
  · exact ⟨by decide, show Lambda.Takes 1 _ by decide⟩
  · exact ⟨by decide, rfl, by simp [ResultOp.expressions]⟩

end QueryFold
