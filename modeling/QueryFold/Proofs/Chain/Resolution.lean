import QueryFold.Chain.Resolution
import QueryFold.Proofs.Chain.Step
import QueryFold.Proofs.Expr.Instantiation

/-!
# What resolution does

`Route.Resolves` says for each kind of node on a route how an expression about its items is
resolved; `Route.resolve_eq_ok_iff` says that this is what resolution does when it succeeds.
The rest goes by induction on this relation: a ledger with further records gives the same
result (`Route.Resolves.extends`), and a property that substitution hands on passes from the
lambdas of a chain to what they are resolved to (`Route.Resolves.inherits`).

The links of a chain that passed the check lead from every node to earlier nodes only, so a
route is the nodes that are met, down to one without a link (`Chain.Linked.route_eq`).
-/

namespace QueryFold

/-! ### Checks on expressions and lambdas -/

theorem ensureResolved_eq_ok_iff {e : Expr} : e.ensureResolved = .ok () ↔ e.Closed := by
  rw [← Expr.freeParams_eq_nil_iff, Expr.ensureResolved]
  cases e.freeParams <;> simp

namespace Lambda

variable {l : Lambda} {e : Expr} {resolve : Param → Expr → Except BuildError Expr}

theorem single?_eq_some_iff {p : Param} : l.single? = some p ↔ l.params = [p] := by
  unfold single?
  split <;> simp_all

theorem resolveBy_eq_ok_iff :
    l.resolveBy resolve = .ok e ↔
      ∃ p, l.params = [p] ∧ resolve p l.body = .ok e ∧ e.Closed := by
  have hu : ∀ p, l.unary = .ok p ↔ l.params = [p] := by
    intro p
    rw [← single?_eq_some_iff, unary]
    cases l.single? <;> simp
  simp only [resolveBy, except_bind_eq_ok_iff, exists_unit, except_pure_eq_ok_iff,
    ensureResolved_eq_ok_iff, hu]
  constructor
  · rintro ⟨p, hp, e', he, hc, rfl⟩
    exact ⟨p, hp, he, hc⟩
  · rintro ⟨p, hp, he, hc⟩
    exact ⟨p, hp, e, he, hc, rfl⟩

theorem resolveResult_eq_ok_iff {ledger : Ledger} {n : Node} {linked : Except BuildError Unit} :
    l.resolveResult ledger n linked resolve = .ok e ↔
      ∃ outer inner r, l.params = [outer, inner] ∧ ledger.item n.id = .ok r ∧ linked = .ok () ∧
        resolve outer (l.body.substituteParam inner (.item r)) = .ok e ∧ e.Closed := by
  have hb : ∀ ps, l.binary = .ok ps ↔ l.params = [ps.1, ps.2] := by
    intro ps
    unfold binary
    split <;> simp_all [Prod.ext_iff]
  simp only [resolveResult, monadLift_self, except_bind_eq_ok_iff, exists_unit,
    except_pure_eq_ok_iff, ensureResolved_eq_ok_iff, hb, Prod.exists]
  constructor
  · rintro ⟨outer, inner, hp, r, hr, hl, e', he, hc, rfl⟩
    exact ⟨outer, inner, r, hp, hr, hl, he, hc⟩
  · rintro ⟨outer, inner, r, hp, hr, hl, he, hc⟩
    exact ⟨outer, inner, hp, r, hr, hl, e, he, hc, rfl⟩

end Lambda

/-! ### Inherited properties -/

/-- A property of expressions that parameters have, and that conversions and substitutions hand on
from their parts. -/
structure Inherited (P : Expr → Prop) : Prop where
  param : ∀ {q : Param}, P (.param q)
  convert : ∀ {e : Expr} {t : Ty}, P e → P (.convert e t)
  substitute : ∀ {e r : Expr} {q : Param}, P e → P r → P (e.substituteParam q r)

theorem inherited_not_holdsQuery : Inherited fun e => ¬ HoldsQuery e where
  param := by
    intro q
    rw [not_holdsQuery_iff]
    simp [Expr.children]
  convert := by
    intro e t he
    rw [not_holdsQuery_iff]
    simpa [Expr.children] using he
  substitute := Expr.not_holdsQuery_substituteParam

theorem inherited_refersWithin (ids : List SourceId) : Inherited (RefersWithin ids) where
  param := by
    intro q id h
    rw [refersTo_iff_children (by simp)] at h
    simp [Expr.children] at h
  convert := by
    intro e t he id h
    rw [refersTo_iff_children (by simp)] at h
    exact he id (by simpa [Expr.children] using h)
  substitute := by
    intro e r q he hr id h
    by_contra hid
    exact Expr.not_refersTo_substituteParam (fun h' => hid (he id h')) (fun h' => hid (hr id h')) h

/-! ### Ledgers -/

namespace Ledger

/-- Every record of `l` is a record of `l'`. -/
def Extends (l l' : Ledger) : Prop := ∀ id r, l.record? id = some r → l'.record? id = some r

theorem item_eq_ok_iff {l : Ledger} {id : NodeId} {r : ItemRef} :
    l.item id = .ok r ↔ ∃ record, l.record? id = some record ∧ record.item = some r := by
  unfold item lookup
  cases l.record? id with
  | none => simp [except_bind_eq_ok_iff]
  | some record =>
    cases h : record.item <;> simp [except_bind_eq_ok_iff, h]

theorem sourceItem_eq_ok_iff {l : Ledger} {n : Node} {r : ItemRef} :
    l.sourceItem n = .ok r ↔ l.item n.id = .ok r := by
  unfold sourceItem
  cases l.item n.id <;> simp

/-- What is recorded of a node is what was recorded before, unless it is the node itself. -/
theorem item_noted {l : Ledger} {id id' : NodeId} {r : NodeRecord} {i : ItemRef}
    (h : (l.noted id r).item id' = .ok i) : l.item id' = .ok i ∨ id' = id ∧ r.item = some i := by
  obtain ⟨record, hr, hi⟩ := item_eq_ok_iff.mp h
  rw [record?, noted, List.lookup_append] at hr
  cases hl : l.records.lookup id' with
  | some record' =>
    rw [hl, Option.some_or, Option.some.injEq] at hr
    exact .inl (item_eq_ok_iff.mpr ⟨record', hl, hr ▸ hi⟩)
  | none =>
    rw [hl, Option.none_or, List.lookup_cons] at hr
    split at hr
    · cases hr
      exact .inr ⟨by simp_all, hi⟩
    · simp at hr

theorem Extends.item {l l' : Ledger} (h : l.Extends l') {id : NodeId} {r : ItemRef}
    (hr : l.item id = .ok r) : l'.item id = .ok r := by
  obtain ⟨record, hrec, hi⟩ := item_eq_ok_iff.mp hr
  exact item_eq_ok_iff.mpr ⟨record, h id record hrec, hi⟩

end Ledger

/-! ### Operations -/

namespace Operation

/-- The expressions of an operation: the bodies of its lambdas, its sequence, its argument. -/
def expressions : Operation → List Expr
  | mainSource e => [e]
  | selectMany collection result => collection.body :: (result.map Lambda.body).toList
  | filter predicate => [predicate.body]
  | orderBy key _ _ => [key.body]
  | select selector => [selector.body]
  | define _ value => [value.body]
  | groupBy key element => key.body :: (element.map Lambda.body).toList
  | resultOperator op => op.expressions
  | _ => []

/-- The lambdas of an operation by which it says what its items are. -/
def selectors : Operation → List Lambda
  | select selector => [selector]
  | selectMany _ result => result.toList
  | groupBy key element => key :: element.toList
  | _ => []

theorem body_mem_expressions {op : Operation} {selector : Lambda} (h : selector ∈ op.selectors) :
    selector.body ∈ op.expressions := by
  cases op with
  | select _ | selectMany _ _ => simp_all [selectors, expressions]
  | groupBy _ _ =>
    rcases List.mem_cons.mp h with rfl | h
    · exact List.mem_cons_self
    · simp_all [expressions]
  | _ => cases h

/-- The items of a node are those of the source that it introduces. -/
def bindsItem : Operation → Bool
  | mainSource _ | subQuerySource _ | selectMany _ none => true
  | _ => false

/-- The items of a node are those of the node before. -/
def passesItem : Operation → Bool
  | filter _ | orderBy _ _ _ | resultOperator _ => true
  | _ => false

end Operation

/-! ### Resolution along a route -/

namespace Route

/-- The nodes of a route. -/
def nodes : Route → List Node
  | via n rest => n :: rest.nodes
  | _ => []

/-- The expression `body` about an item of the first node, for which `p` stands, is resolved to the
last argument. -/
inductive Resolves (l : Ledger) : Route → Param → Expr → Expr → Prop where
  /-- At a source its item is put in. -/
  | item {n : Node} {rest : Route} {p : Param} {body : Expr} {r : ItemRef}
      (op : n.operation.bindsItem = true) (recorded : l.item n.id = .ok r) :
      Resolves l (via n rest) p body (body.substituteParam p (.item r))
  /-- At a result selector what it yields is put in. -/
  | result {n : Node} {rest : Route} {p : Param} {body e : Expr} {collection selector : Lambda}
      {outer inner : Param} {r : ItemRef}
      (op : n.operation = .selectMany collection (some selector))
      (params : selector.params = [outer, inner]) (recorded : l.item n.id = .ok r)
      (linked : rest.linked = .ok ())
      (selected : Resolves l rest outer (selector.body.substituteParam inner (.item r)) e)
      (closed : e.Closed) : Resolves l (via n rest) p body (body.substituteParam p e)
  /-- At a selector what it yields is put in. -/
  | select {n : Node} {rest : Route} {p : Param} {body e : Expr} {selector : Lambda} {param : Param}
      (op : n.operation = .select selector) (params : selector.params = [param])
      (linked : rest.linked = .ok ()) (selected : Resolves l rest param selector.body e)
      (closed : e.Closed) : Resolves l (via n rest) p body (body.substituteParam p e)
  /-- A named value replaces its name at last. -/
  | define {n : Node} {rest : Route} {p : Param} {body e : Expr} {name : Param} {value : Lambda}
      {r : ItemRef} (op : n.operation = .define name value) (before : Resolves l rest p body e)
      (recorded : l.item n.id = .ok r) :
      Resolves l (via n rest) p body (e.substituteParam name (.item r))
  /-- The converted item of the node before is put in, and resolved there. -/
  | cast {n : Node} {rest : Route} {p : Param} {body e : Expr} {kind : CastKind} {type t : Ty}
      (op : n.operation = .cast kind type) (items : rest.itemType l = .ok t)
      (before : Resolves l rest ⟨p.name, t⟩
        (body.substituteParam p (.convert (.param ⟨p.name, t⟩) type)) e) :
      Resolves l (via n rest) p body e
  /-- Other nodes pass their items on. -/
  | pass {n : Node} {rest : Route} {p : Param} {body e : Expr}
      (op : n.operation.passesItem = true) (before : Resolves l rest p body e) :
      Resolves l (via n rest) p body e

variable {l l' : Ledger} {route : Route} {p : Param} {body e : Expr}

theorem Resolves.of_resolve (h : route.resolve l p body = .ok e) : route.Resolves l p body e := by
  induction route generalizing p body e with
  | via n rest ih =>
    rw [resolve] at h
    cases op : n.operation with
    | mainSource _ | subQuerySource _ =>
      simp only [op, except_bind_eq_ok_iff, except_pure_eq_ok_iff,
        Ledger.sourceItem_eq_ok_iff] at h
      obtain ⟨r, hr, rfl⟩ := h
      exact .item (by rw [op]; rfl) hr
    | selectMany collection result =>
      cases result with
      | none =>
        simp only [op, except_bind_eq_ok_iff, except_pure_eq_ok_iff] at h
        obtain ⟨r, hr, rfl⟩ := h
        exact .item (by rw [op]; rfl) hr
      | some selector =>
        simp only [op, except_bind_eq_ok_iff, except_pure_eq_ok_iff,
          Lambda.resolveResult_eq_ok_iff] at h
        obtain ⟨e', ⟨outer, inner, r, params, hr, linked, selected, closed⟩, rfl⟩ := h
        exact .result op params hr linked (ih selected) closed
    | select selector =>
      simp only [op, except_bind_eq_ok_iff, except_pure_eq_ok_iff, exists_unit,
        Lambda.resolveBy_eq_ok_iff] at h
      obtain ⟨linked, e', ⟨param, params, selected, closed⟩, rfl⟩ := h
      exact .select op params linked (ih selected) closed
    | define name value =>
      simp only [op, except_bind_eq_ok_iff, except_pure_eq_ok_iff] at h
      obtain ⟨e', before, r, hr, rfl⟩ := h
      exact .define op (ih before) hr
    | cast kind type =>
      simp only [op, except_bind_eq_ok_iff] at h
      obtain ⟨t, items, before⟩ := h
      exact .cast op items (ih before)
    | groupBy key element => simp [op] at h
    | filter _ | orderBy _ _ _ | resultOperator _ =>
      simp only [op] at h
      exact .pass (by rw [op]; rfl) (ih h)
  | _ => simp [resolve] at h

theorem Resolves.resolve (h : route.Resolves l p body e) : route.resolve l p body = .ok e := by
  induction h with
  | @item n rest p body r op recorded =>
    have hs : l.sourceItem n = .ok r := Ledger.sourceItem_eq_ok_iff.mpr recorded
    rw [Route.resolve]
    split <;> simp_all [Operation.bindsItem]
  | result op params recorded linked _ closed ih =>
    simp only [Route.resolve, op, except_bind_eq_ok_iff, except_pure_eq_ok_iff,
      Lambda.resolveResult_eq_ok_iff]
    exact ⟨_, ⟨_, _, _, params, recorded, linked, ih, closed⟩, rfl⟩
  | select op params linked _ closed ih =>
    simp only [Route.resolve, op, except_bind_eq_ok_iff, except_pure_eq_ok_iff, exists_unit,
      Lambda.resolveBy_eq_ok_iff]
    exact ⟨linked, _, ⟨_, params, ih, closed⟩, rfl⟩
  | define op _ recorded ih =>
    simp only [Route.resolve, op, except_bind_eq_ok_iff, except_pure_eq_ok_iff]
    exact ⟨_, ih, _, recorded, rfl⟩
  | cast op items _ ih =>
    simp only [Route.resolve, op, except_bind_eq_ok_iff]
    exact ⟨_, items, ih⟩
  | pass op _ ih =>
    rw [Route.resolve]
    split <;> simp_all [Operation.passesItem]

/-- **Resolution** succeeds in this way only. -/
theorem resolve_eq_ok_iff : route.resolve l p body = .ok e ↔ route.Resolves l p body e :=
  ⟨Resolves.of_resolve, Resolves.resolve⟩

theorem itemType_extends (h : l.Extends l') {t : Ty} (ht : route.itemType l = .ok t) :
    route.itemType l' = .ok t := by
  induction route generalizing t with
  | via n rest ih =>
    have item : ∀ {t : Ty}, (do return (← l.item n.id).type : Except BuildError Ty) = .ok t →
        (do return (← l'.item n.id).type : Except BuildError Ty) = .ok t := by
      intro t ht
      simp only [except_bind_eq_ok_iff, except_pure_eq_ok_iff] at ht ⊢
      obtain ⟨r, hr, rfl⟩ := ht
      exact ⟨r, h.item hr, rfl⟩
    rw [itemType] at ht ⊢
    cases op : n.operation with
    | mainSource _ | subQuerySource _ =>
      simp only [op] at ht ⊢
      exact item ht
    | selectMany _ result =>
      cases result with
      | none =>
        simp only [op] at ht ⊢
        exact item ht
      | some _ => simpa only [op] using ht
    | groupBy key element =>
      cases element with
      | none =>
        simp only [op, except_bind_eq_ok_iff, except_pure_eq_ok_iff] at ht ⊢
        obtain ⟨t', ht', rfl⟩ := ht
        exact ⟨t', ih ht', rfl⟩
      | some _ => simpa only [op] using ht
    | filter _ | orderBy _ _ _ | define _ _ | resultOperator _ =>
      simp only [op] at ht ⊢
      exact ih ht
    | select _ | cast _ _ => simpa only [op] using ht
  | _ => exact ht

/-- **Resolution is stable**: further records do not change what an expression is resolved to. -/
theorem Resolves.extends (h : l.Extends l') (hr : route.Resolves l p body e) :
    route.Resolves l' p body e := by
  induction hr with
  | item op recorded => exact .item op (h.item recorded)
  | result op params recorded linked _ closed ih =>
    exact .result op params (h.item recorded) linked ih closed
  | select op params linked _ closed ih => exact .select op params linked ih closed
  | define op _ recorded ih => exact .define op ih (h.item recorded)
  | cast op items _ ih => exact .cast op (itemType_extends h items) ih
  | pass op _ ih => exact .pass op ih

/-- An inherited property passes from the items of sources, and from the selectors along a route, to
what is resolved. -/
theorem Resolves.inherits_of_selectors {P : Expr → Prop} (hr : route.Resolves l p body e)
    (hP : Inherited P) (items : ∀ id r, l.item id = .ok r → P (.item r))
    (lambdas : ∀ n ∈ route.nodes, ∀ selector ∈ n.operation.selectors, P selector.body)
    (hb : P body) : P e := by
  have first : ∀ {n : Node} {rest : Route},
      (∀ m ∈ (via n rest).nodes, ∀ selector ∈ m.operation.selectors, P selector.body) →
        ∀ selector ∈ n.operation.selectors, P selector.body :=
    fun h => h _ List.mem_cons_self
  have others : ∀ {n : Node} {rest : Route},
      (∀ m ∈ (via n rest).nodes, ∀ selector ∈ m.operation.selectors, P selector.body) →
        ∀ m ∈ rest.nodes, ∀ selector ∈ m.operation.selectors, P selector.body :=
    fun h m hm => h m (List.mem_cons_of_mem _ hm)
  induction hr with
  | item _ recorded => exact hP.substitute hb (items _ _ recorded)
  | result op _ recorded _ _ _ ih =>
    refine hP.substitute hb
      (ih (others lambdas) (hP.substitute (first lambdas _ ?_) (items _ _ recorded)))
    rw [op]
    simp [Operation.selectors]
  | select op _ _ _ _ ih =>
    refine hP.substitute hb (ih (others lambdas) (first lambdas _ ?_))
    rw [op]
    simp [Operation.selectors]
  | define op _ recorded ih =>
    exact hP.substitute (ih (others lambdas) hb) (items _ _ recorded)
  | cast op _ _ ih => exact ih (others lambdas) (hP.substitute hb (hP.convert hP.param))
  | pass op _ ih => exact ih (others lambdas) hb

theorem Resolves.inherits {P : Expr → Prop} (hr : route.Resolves l p body e) (hP : Inherited P)
    (items : ∀ id r, l.item id = .ok r → P (.item r))
    (lambdas : ∀ n ∈ route.nodes, ∀ e ∈ n.operation.expressions, P e) (hb : P body) : P e :=
  hr.inherits_of_selectors hP items
    (fun n hn _ hs => lambdas n hn _ (Operation.body_mem_expressions hs)) hb

/-- Resolution leaves no free parameters but those of the body, and not the one that it resolves. -/
theorem Resolves.freeIn (h : route.Resolves l p body e) {q : Param} (hq : FreeIn q e) :
    q ≠ p ∧ FreeIn q body := by
  induction h with
  | item _ _ =>
    exact (freeIn_of_freeIn_substituteParam hq).resolve_right (not_freeIn_item q _)
  | result _ _ _ _ _ closed _ | select _ _ _ _ closed _ =>
    exact (freeIn_of_freeIn_substituteParam hq).resolve_right (closed q)
  | define _ _ _ ih =>
    exact ih ((freeIn_of_freeIn_substituteParam hq).resolve_right (not_freeIn_item q _)).2
  | cast _ _ _ ih =>
    obtain ⟨hne, hq⟩ := ih hq
    refine (freeIn_of_freeIn_substituteParam hq).resolve_right fun hc => hne ?_
    exact (freeIn_param_iff.mp (freeIn_convert_iff.mp hc)).symm
  | pass _ _ ih => exact ih hq

end Route

/-! ### Links in order -/

namespace Chain

/-- The nodes of a chain carry their positions as their numbers and are linked to earlier nodes. -/
structure Linked (c : Chain) : Prop where
  numbered : ∀ (i : Nat) (n : Node), c.nodes[i]? = some n → n.id = ⟨i⟩
  backward : ∀ (i : Nat) (n : Node) (id : NodeId), c.nodes[i]? = some n → n.source = some id →
    id.value < i

theorem checkLinksFrom_eq_ok {position : Nat} {ns : List Node}
    (h : checkLinksFrom position ns = .ok ()) {i : Nat} {n : Node} (hn : ns[i]? = some n) :
    n.id = ⟨position + i⟩ ∧ ∀ id, n.source = some id → id.value < position + i := by
  induction ns generalizing position i with
  | nil => simp at hn
  | cons m ns ih =>
    rw [checkLinksFrom] at h
    split_ifs at h with hid
    have hrest : checkLinksFrom (position + 1) ns = .ok () ∧
        ∀ id, m.source = some id → id.value < position := by
      cases hs : m.source with
      | none =>
        rw [hs] at h
        exact ⟨h, by simp⟩
      | some id =>
        simp only [hs] at h
        split_ifs at h with hle
        exact ⟨h, by simpa using hle⟩
    cases i with
    | zero =>
      obtain rfl : m = n := by simpa using hn
      refine ⟨?_, hrest.2⟩
      rw [← Decidable.not_not.mp hid]
      rfl
    | succ i =>
      have := ih hrest.1 (i := i) (by simpa using hn)
      rwa [Nat.add_assoc, Nat.add_comm 1] at this

theorem linked_of_checkLinks {c : Chain} (h : c.checkLinks = .ok ()) : c.Linked := by
  refine ⟨fun i n hn => ?_, fun i n id hn hs => ?_⟩
  · have := (checkLinksFrom_eq_ok h hn).1
    rwa [Nat.zero_add] at this
  · have := (checkLinksFrom_eq_ok h hn).2 id hs
    rwa [Nat.zero_add] at this

variable {c : Chain}

/-- More steps than a route has nodes make no difference. -/
theorem Linked.routeWithin_eq (h : c.Linked) {id : NodeId} {steps steps' : Nat}
    (hs : id.value < steps) (hs' : id.value < steps') :
    c.routeWithin steps id = c.routeWithin steps' id := by
  induction steps generalizing id steps' with
  | zero => omega
  | succ steps ih =>
    cases steps' with
    | zero => omega
    | succ steps' =>
      rw [routeWithin, routeWithin]
      cases hn : c.nodes[id.value]? with
      | none => rfl
      | some n =>
        refine congrArg (Route.via n) ?_
        cases hl : n.source with
        | none => rfl
        | some source =>
          have := h.backward _ n source hn hl
          exact ih (by omega) (by omega)

/-- What follows a node on a route. -/
def routeAfter (c : Chain) (n : Node) : Route :=
  match n.source with
  | none => .ended n.describe
  | some source => c.route source

theorem Linked.route_eq (h : c.Linked) {i : Nat} {n : Node} (hn : c.nodes[i]? = some n) :
    c.route ⟨i⟩ = .via n (c.routeAfter n) := by
  have hi : i < c.nodes.length := (List.getElem?_eq_some_iff.mp hn).1
  rw [route, routeWithin, hn]
  refine congrArg (Route.via n) ?_
  rw [routeAfter]
  cases hl : n.source with
  | none => rfl
  | some source =>
    have := h.backward _ n source hn hl
    exact h.routeWithin_eq (by omega) (by omega)

theorem mem_of_mem_routeWithin {steps : Nat} {id : NodeId} {n : Node}
    (h : n ∈ (c.routeWithin steps id).nodes) : n ∈ c.nodes := by
  induction steps generalizing id with
  | zero => simp [routeWithin, Route.nodes] at h
  | succ steps ih =>
    rw [routeWithin] at h
    cases hn : c.nodes[id.value]? with
    | none => simp [hn, Route.nodes] at h
    | some m =>
      simp only [hn, Route.nodes, List.mem_cons] at h
      rcases h with rfl | h
      · exact List.mem_of_getElem? hn
      · cases hl : m.source with
        | none => simp [hl, Route.nodes] at h
        | some source =>
          rw [hl] at h
          exact ih h

theorem mem_of_mem_route {id : NodeId} {n : Node} (h : n ∈ (c.route id).nodes) : n ∈ c.nodes :=
  mem_of_mem_routeWithin h

/-- A route leads to the node that it starts from and to earlier ones. -/
theorem Linked.exists_le_of_mem_route (hc : c.Linked) {id : NodeId} {n : Node}
    (hn : n ∈ (c.route id).nodes) : ∃ i ≤ id.value, c.nodes[i]? = some n := by
  induction hi : id.value using Nat.strongRecOn generalizing id with
  | _ i ih =>
    cases here : c.nodes[id.value]? with
    | none => simp [Chain.route, Chain.routeWithin, here, Route.nodes] at hn
    | some m =>
      rw [hc.route_eq here, Route.nodes, List.mem_cons] at hn
      rcases hn with rfl | hn
      · exact ⟨id.value, by omega, here⟩
      · rw [Chain.routeAfter] at hn
        cases source : m.source with
        | none => simp [source, Route.nodes] at hn
        | some link =>
          rw [source] at hn
          have hlt := hc.backward _ m link here source
          obtain ⟨j, hj, hm⟩ := ih link.value (hi ▸ hlt) hn rfl
          exact ⟨j, by omega, hm⟩

theorem resolveLambda_eq_ok_iff {l : Ledger} {id : NodeId} {lambda : Lambda} {e : Expr} :
    c.resolveLambda l id lambda = .ok e ↔
      ∃ p, lambda.params = [p] ∧ (c.route id).Resolves l p lambda.body e ∧ e.Closed := by
  simp only [resolveLambda, Lambda.resolveBy_eq_ok_iff, resolve, Route.resolve_eq_ok_iff]

theorem resolveLambda_extends {l l' : Ledger} (h : l.Extends l') {id : NodeId} {lambda : Lambda}
    {e : Expr} (hr : c.resolveLambda l id lambda = .ok e) :
    c.resolveLambda l' id lambda = .ok e := by
  obtain ⟨p, params, hr, closed⟩ := resolveLambda_eq_ok_iff.mp hr
  exact resolveLambda_eq_ok_iff.mpr ⟨p, params, hr.extends h, closed⟩

theorem resolveLambda_inherits {P : Expr → Prop} {l : Ledger} {id : NodeId} {lambda : Lambda}
    {e : Expr} (hr : c.resolveLambda l id lambda = .ok e) (hP : Inherited P)
    (items : ∀ id r, l.item id = .ok r → P (.item r))
    (own : ∀ n ∈ c.nodes, ∀ e ∈ n.operation.expressions, P e) (hb : P lambda.body) : P e := by
  obtain ⟨p, -, hr, -⟩ := resolveLambda_eq_ok_iff.mp hr
  exact hr.inherits hP items (fun n hn => own n (mem_of_mem_route hn)) hb

theorem resolve_extends {l l' : Ledger} (h : l.Extends l') {id : NodeId} {p : Param} {body e : Expr}
    (hr : c.resolve l id p body = .ok e) : c.resolve l' id p body = .ok e :=
  Route.resolve_eq_ok_iff.mpr ((Route.resolve_eq_ok_iff.mp hr).extends h)

theorem resolve_inherits {P : Expr → Prop} {l : Ledger} {id : NodeId} {p : Param} {body e : Expr}
    (hr : c.resolve l id p body = .ok e) (hP : Inherited P)
    (items : ∀ id r, l.item id = .ok r → P (.item r))
    (own : ∀ n ∈ c.nodes, ∀ e ∈ n.operation.expressions, P e) (hb : P body) : P e :=
  (Route.resolve_eq_ok_iff.mp hr).inherits hP items (fun n hn => own n (mem_of_mem_route hn)) hb

end Chain

/-! ### Result selectors, elements of groupings, and arguments -/

namespace Node

variable {c : Chain} {l l' : Ledger} {n : Node} {link : NodeId} {e : Expr} {P : Expr → Prop}

theorem resolveResult_extends (h : l.Extends l') {selector : Lambda}
    {linked : Except BuildError Unit}
    (hr : selector.resolveResult l n linked (c.resolve l link) = .ok e) :
    selector.resolveResult l' n linked (c.resolve l' link) = .ok e := by
  obtain ⟨outer, inner, r, params, hi, hl, hr, closed⟩ := Lambda.resolveResult_eq_ok_iff.mp hr
  exact Lambda.resolveResult_eq_ok_iff.mpr
    ⟨outer, inner, r, params, h.item hi, hl, Chain.resolve_extends h hr, closed⟩

theorem resolveResult_inherits {selector : Lambda} {linked : Except BuildError Unit}
    (hr : selector.resolveResult l n linked (c.resolve l link) = .ok e) (hP : Inherited P)
    (items : ∀ id r, l.item id = .ok r → P (.item r))
    (own : ∀ n ∈ c.nodes, ∀ e ∈ n.operation.expressions, P e) (hb : P selector.body) : P e := by
  obtain ⟨outer, inner, r, -, hi, -, hr, -⟩ := Lambda.resolveResult_eq_ok_iff.mp hr
  exact Chain.resolve_inherits hr hP items own (hP.substitute hb (items _ _ hi))

theorem groupElement_extends (h : l.Extends l') {key : Lambda} {element : Option Lambda}
    (hr : groupElement (m := Id) c l link key element = .ok e) :
    groupElement (m := Id) c l' link key element = .ok e := by
  cases element with
  | some selector => exact Chain.resolveLambda_extends h hr
  | none =>
    rw [groupElement.eq_def] at hr ⊢
    cases hs : key.single? with
    | none => simp [hs] at hr
    | some p =>
      simp only [hs] at hr ⊢
      exact Chain.resolve_extends h hr

theorem groupElement_inherits {key : Lambda} {element : Option Lambda}
    (hr : groupElement (m := Id) c l link key element = .ok e) (hP : Inherited P)
    (items : ∀ id r, l.item id = .ok r → P (.item r))
    (own : ∀ n ∈ c.nodes, ∀ e ∈ n.operation.expressions, P e)
    (hb : ∀ selector, element = some selector → P selector.body) : P e := by
  cases element with
  | some selector => exact Chain.resolveLambda_inherits hr hP items own (hb selector rfl)
  | none =>
    rw [groupElement.eq_def] at hr
    cases hs : key.single? with
    | none => simp [hs] at hr
    | some p =>
      simp only [hs] at hr
      exact Chain.resolve_inherits hr hP items own hP.param

theorem resolveArgument_extends (h : l.Extends l') {arg : Expr}
    (hr : resolveArgument (m := Id) c l link arg = .ok e) :
    resolveArgument (m := Id) c l' link arg = .ok e := by
  unfold resolveArgument at hr ⊢
  split at hr
  · exact Chain.resolveLambda_extends h hr
  · exact hr

/-- An argument has the property as a whole, and its body if it is a lambda. -/
theorem resolveArgument_inherits {arg : Expr} (hr : resolveArgument (m := Id) c l link arg = .ok e)
    (hP : Inherited P) (items : ∀ id r, l.item id = .ok r → P (.item r))
    (own : ∀ n ∈ c.nodes, ∀ e ∈ n.operation.expressions, P e) (hb : P arg)
    (body : ∀ ps b, arg = .lambda ps b → P b) : P e := by
  unfold resolveArgument at hr
  split at hr
  · exact Chain.resolveLambda_inherits hr hP items own (body _ _ rfl)
  · cases hr
    exact hb

end Node

namespace ResultOp

/-- An operator is replaced in its argument, if it has one. -/
theorem replaceM_eq_ok_iff {f : Expr → Except BuildError Expr} {o o' : ResultOp} :
    o.replaceM f = .ok o' ↔
      (∃ op arg e, o = .argument op arg ∧ f arg = .ok e ∧ o' = .argument op e) ∨
        o.expressions = [] ∧ o' = o := by
  cases o with
  | argument op arg =>
    simp only [replaceM, except_bind_eq_ok_iff, except_pure_eq_ok_iff, argument.injEq, expressions,
      List.cons_ne_nil, false_and, or_false]
    constructor
    · rintro ⟨e, he, rfl⟩
      exact ⟨op, arg, e, ⟨rfl, rfl⟩, he, rfl⟩
    · rintro ⟨_, _, e, ⟨rfl, rfl⟩, he, rfl⟩
      exact ⟨e, he, rfl⟩
  | _ => simp [replaceM, except_pure_eq_ok_iff, expressions]

theorem replaceM_extends {c : Chain} {l l' : Ledger} (h : l.Extends l') {link : NodeId}
    {o o' : ResultOp} (hr : o.replaceM (Node.resolveArgument (m := Id) c l link) = .ok o') :
    o.replaceM (Node.resolveArgument (m := Id) c l' link) = .ok o' := by
  refine replaceM_eq_ok_iff.mpr ((replaceM_eq_ok_iff.mp hr).imp_left ?_)
  rintro ⟨op, arg, e, rfl, he, rfl⟩
  exact ⟨op, arg, e, rfl, Node.resolveArgument_extends h he, rfl⟩

end ResultOp

end QueryFold
