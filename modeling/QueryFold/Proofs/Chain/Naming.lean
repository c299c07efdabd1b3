import QueryFold.Proofs.Chain.Discharge
import QueryFold.Proofs.Chain.Drawing
import QueryFold.Proofs.Chain.Renaming
import QueryFold.Proofs.Chain.Walk

/-!
# Names that are given twice

A node that names a value makes a let clause, and from there on the name should stand for the source
of that clause. An expression is resolved against the nodes before, though, and only then the name
is replaced in what comes back. A name that was given on the way is gone by then: of the nodes on
the walk that give it, the farthest one replaces it. So a name stands for its own let clause exactly
if it is a new one there (`resolve_name_iff`).
-/

namespace QueryFold

/-! ### Names on the way -/

namespace Route

variable {l : Ledger} {route : Route} {item : Expr} {lets : List (Param × Expr)}

/-- A node that gives no name adds none. -/
theorem names_of_unnamed {n : Node} {rest : Route} (renews : n.operation.renews = false)
    (unnamed : n.operation.name? = none) : (via n rest).names = rest.names := by
  rw [names_of_not_renews renews, unnamed]
  rfl

/-- The named values that are met are those of the nodes on the walk. -/
theorem Settled.of_lets_eq_ok (h : route.Settled l) (hl : route.lets l = .ok lets) :
    lets.map Prod.fst = route.names ∧
      ∀ b ∈ lets, ∃ m ∈ route.walk, ∃ r, l.item m.id = .ok r ∧ b.2 = .item r := by
  have further : ∀ {n : Node} {rest : Route} {b : Param × Expr}, n.operation.renews = false →
      (∃ m ∈ rest.walk, ∃ r, l.item m.id = .ok r ∧ b.2 = .item r) →
        ∃ m ∈ (via n rest).walk, ∃ r, l.item m.id = .ok r ∧ b.2 = .item r := by
    rintro n rest b renews ⟨m, hm, known⟩
    exact ⟨m, by simp [walk, renews, hm], known⟩
  induction h generalizing lets with
  | item op _ =>
    cases (lets_of_bindsItem op).symm.trans hl
    exact ⟨(names_of_renews (Operation.renews_of_bindsItem op)).symm, List.forall_mem_nil _⟩
  | result op _ | select op _ _ =>
    simp only [Route.lets, op, Except.ok.injEq] at hl
    subst hl
    exact ⟨(names_of_renews (by rw [op]; rfl)).symm, List.forall_mem_nil _⟩
  | @define n rest name value r op recorded _ ih =>
    simp only [Route.lets, op, except_bind_eq_ok_iff, except_pure_eq_ok_iff] at hl
    obtain ⟨r, hr, lets, hl, rfl⟩ := hl
    obtain ⟨names, known⟩ := ih hl
    have renews : n.operation.renews = false := by rw [op]; rfl
    refine ⟨?_, List.forall_mem_cons.mpr ⟨⟨n, List.mem_cons_self, r, hr, rfl⟩, fun b hb =>
      further renews (known b hb)⟩⟩
    rw [names_of_not_renews renews, op, ← names]
    rfl
  | @cast n rest kind type op _ ih =>
    obtain ⟨names, known⟩ := ih (by simpa only [Route.lets, op] using hl)
    have renews : n.operation.renews = false := by rw [op]; rfl
    exact ⟨names.trans (names_of_unnamed renews (by rw [op]; rfl)).symm,
      fun b hb => further renews (known b hb)⟩
  | pass op _ ih =>
    obtain ⟨names, known⟩ := ih ((lets_of_passesItem op).symm.trans hl)
    obtain ⟨renews, unnamed⟩ := Operation.goesOn_of_passesItem op
    exact ⟨names.trans (names_of_unnamed renews unnamed).symm,
      fun b hb => further renews (known b hb)⟩

/-- A name is resolved to the reference that is put in for it first, whatever the parameter is
called that stands for the item. -/
theorem Substitutes.resolves_name (h : route.Substitutes l item lets) {p x : Param}
    (hp : p.name ≠ x.name) :
    route.Resolves l p (.param x) ((lets.reverse.lookup x).getD (.param x)) := by
  have resolved := h.resolves p p [] (.param x) rfl fun t _ ho =>
    hp (congrArg Param.name (occursIn_param_iff.mp ho)).symm
  have closed : ∀ b ∈ lets.reverse, b.2.Closed := fun b hb => h.lets_closed b (List.mem_reverse.mp hb)
  have other : x ≠ p := fun hx => hp (by rw [hx])
  rw [Expr.converted, List.foldl_nil, Expr.substituteParam_self, Expr.converted, List.foldl_nil,
    Expr.substituteParam_param, if_neg other, Expr.substituteAll_eq_instantiate closed] at resolved
  simpa [Expr.instantiate] using resolved

end Route

/-- What stands last in a list is found if it is not found before. -/
theorem lookup_reverse_cons {α β : Type} [BEq α] [LawfulBEq α] (a : α) (b : β) (l : List (α × β)) :
    ((a, b) :: l).reverse.lookup a = some ((l.reverse.lookup a).getD b) := by
  rw [List.reverse_cons, List.lookup_append]
  cases l.reverse.lookup a <;> simp

/-! ### Let clauses -/

/-- The source of the let clause at a position. -/
def Query.named? (q : Query) : Position → Option Source
  | .main => none
  | .body i =>
    match q.body[i]? with
    | some (.define source _ _) => some source
    | _ => none

namespace Chain

variable {ids : Nat → SourceId} {settings : Settings} {depth : UInt32} {c : Chain} {l : Ledger}
  {k k' : Nat} {q : Query} {n : Node} {x : Param} {value : Lambda}

/-- A node that names a value resolves it and makes a let clause, whose source is recorded. -/
theorem Built.exists_named (h : c.Built ids settings depth k q l k') (hn : n ∈ c.nodes)
    (op : n.operation = .define x value) :
    ∃ s e, (l.clause? n.id).bind q.named? = some s ∧ l.item n.id = .ok s.ref ∧
      n.Resolved c l value e := by
  obtain ⟨first, rest, nodes, image⟩ := h.image
  rcases List.mem_cons.mp (nodes ▸ hn) with rfl | hn
  · have started := h.isSource (n := n) (by simp [nodes])
    rw [op] at started
    cases started
  obtain ⟨i, g, clause, mem, hc, makes, recorded⟩ := image.exists_clause hn (by rw [op]; rfl)
  obtain ⟨rfl, -⟩ := makes.eq_head mem (by rw [op]; rfl)
  cases makes with
  | iterates head => cases head with
    | mainSource op' | subQuerySource op' | selectMany op' => cases op.symm.trans op'
  | adds head => cases head with
    | selectMany op' | filter op' => cases op.symm.trans op'
    | define op' resolved =>
      cases op.symm.trans op'
      refine ⟨_, _, ?_, Ledger.item_eq_ok_iff.mpr ⟨_, recorded, rfl⟩, resolved⟩
      simp [Ledger.clause?, recorded, Query.named?, hc]
  | sorts made =>
    obtain ⟨_, -, ⟨op', -⟩⟩ := exists_related made.flip _ mem
    cases op.symm.trans op'

/-- The route from before such a node is settled. -/
theorem Built.settled_before_define (h : c.Built ids settings depth k q l k') (hn : n ∈ c.nodes)
    (op : n.operation = .define x value) : (c.routeAfter n).Settled l := by
  obtain ⟨_, e, -, -, link, source, resolved⟩ := h.exists_named hn op
  obtain ⟨p, -, resolved, -⟩ := resolveLambda_eq_ok_iff.mp resolved
  rw [routeAfter, source]
  refine h.settled_route ?_
  by_contra leads
  obtain ⟨err, fails⟩ := Route.resolve_of_not_leads (l := l) leads
  cases (fails p value.body).symm.trans (Route.resolve_eq_ok_iff.mpr resolved)

/-- A route from before a node does not come back to it. -/
theorem Linked.id_ne_of_mem_routeAfter (hc : c.Linked) (hn : n ∈ c.nodes) {m : Node}
    (hm : m ∈ (c.routeAfter n).nodes) : m.id ≠ n.id := by
  obtain ⟨i, here⟩ := List.getElem?_of_mem hn
  rw [routeAfter] at hm
  cases source : n.source with
  | none => simp [source, Route.nodes] at hm
  | some link =>
    rw [source] at hm
    have hlt := hc.backward i n link here source
    obtain ⟨j, hj, there⟩ := hc.exists_le_of_mem_route hm
    rw [hc.numbered j m there, hc.numbered i n here, ne_eq, NodeId.mk.injEq]
    omega

section

variable {r : ItemRef} {lets : List (Param × Expr)} (h : c.Built ids settings depth k q l k')
  (hn : n ∈ c.nodes) (op : n.operation = .define x value) (recorded : l.item n.id = .ok r)
  (met : (c.routeAfter n).lets l = .ok lets)

include h hn op recorded met

/-- At a node that names a value, the name is resolved to the value that has it on the way there,
and to the node's own value if none has. -/
theorem Built.resolve_name {p : Param} (hp : p.name ≠ x.name) :
    c.resolve l n.id p (.param x) = .ok ((lets.reverse.lookup x).getD (.item r)) := by
  have before := h.settled_before_define hn op
  have here : c.route n.id = .via n (c.routeAfter n) := by
    obtain ⟨i, hi⟩ := List.getElem?_of_mem hn
    rw [h.linked.numbered i n hi, h.linked.route_eq hi]
  obtain ⟨_, lets', substitutes⟩ := (Route.Settled.define op recorded before).substitutes
  obtain rfl : (x, .item r) :: lets = lets' := by
    have := substitutes.lets_eq
    simp only [Route.lets, op, recorded, met] at this
    exact Except.ok.inj this
  have resolved := Route.resolve_eq_ok_iff.mpr (substitutes.resolves_name hp)
  rwa [lookup_reverse_cons, Option.getD_some, ← here] at resolved

/-- The values that are met on the way to such a node are not the node's own. -/
theorem Built.ne_item_of_mem_lets (inj : Function.Injective ids) {e : Expr} (he : (x, e) ∈ lets) :
    e ≠ .item r := by
  obtain ⟨-, known⟩ := (h.settled_before_define hn op).of_lets_eq_ok met
  obtain ⟨m, hm, r', hr', rfl⟩ := known (x, e) he
  have other := h.source_ne inj hr' recorded
    (h.linked.id_ne_of_mem_routeAfter hn (Route.walk_subset_nodes _ hm))
  exact fun same => other (by rw [Expr.item.inj same])

end

end Chain

/-- **A name stands for its own let clause** where it is given exactly if none of the nodes before
gives the same name to a value, up to the first one with items of its own. Otherwise it stands for
the source of the farthest of these nodes. -/
theorem resolve_name_iff {ids : Nat → SourceId} (inj : Function.Injective ids) {settings : Settings}
    {chain : Chain} {k k' : Nat} {q : Query} {l : Ledger}
    (h : Runs (chain.toQuery ids settings) k (q, l) k') {n : Node} (hn : n ∈ chain.nodes) {x : Param}
    {value : Lambda} (op : n.operation = .define x value) :
    ∃ s lets, (l.clause? n.id).bind q.named? = some s ∧ (chain.routeAfter n).lets l = .ok lets ∧
      ∀ p : Param, p.name ≠ x.name →
        chain.resolve l n.id p (.param x) = .ok ((lets.reverse.lookup x).getD (.item s.ref)) ∧
          (chain.resolve l n.id p (.param x) = .ok (.item s.ref) ↔
            x ∉ (chain.routeAfter n).names) := by
  have built := Chain.build_runs_iff.mp h
  obtain ⟨s, -, named, recorded, -⟩ := built.exists_named hn op
  have before := built.settled_before_define hn op
  obtain ⟨_, lets, substitutes⟩ := before.substitutes
  have met := substitutes.lets_eq
  obtain ⟨names, -⟩ := before.of_lets_eq_ok met
  refine ⟨s, lets, named, met, fun p hp => ?_⟩
  have resolved := built.resolve_name hn op recorded met hp
  refine ⟨resolved, ?_⟩
  rw [resolved, Except.ok.injEq, ← names]
  cases given : lets.reverse.lookup x with
  | none =>
    have new := List.lookup_eq_none_iff.mp given
    simpa using fun e he => by simpa using new (x, e) (List.mem_reverse.mpr he)
  | some e =>
    have mem : (x, e) ∈ lets := List.mem_reverse.mp (mem_of_lookup_eq_some given)
    simpa [built.ne_item_of_mem_lets hn op recorded met inj mem] using ⟨e, mem⟩

namespace Sample

/-- Another name of a cook. -/
def nickname : Expr := .member (.param cook) "Nickname" (Ty.plain "string")

/-- The cooks, whose names and then nicknames are known as `title`. -/
def nicknames : Chain :=
  Chain.empty (Ty.queryable (Ty.plain "string"))
    |>.push "c" (.mainSource cooks)
    |>.push "c" (.define title ⟨[cook], name⟩)
    |>.push "c" (.define title ⟨[cook], nickname⟩)
    |>.push "c" (.select ⟨[cook], .param title⟩)

/-- The node that gives the nicknames their name. -/
def naming : Node := ⟨⟨2⟩, some ⟨1⟩, "c", "Let", .define title ⟨[cook], nickname⟩⟩

/-- The reference to the nickname. -/
def nicknameItem : ItemRef := ⟨SourceId.countUp 2, "t", title.type⟩

theorem naming_mem : naming ∈ nicknames.nodes := List.mem_of_getElem? (i := 2) rfl

end Sample

theorem resolve_name_iff_nicknames : ∃ q l k s lets,
    Runs (Sample.nicknames.toQuery SourceId.countUp {}) 0 (q, l) k ∧
      (l.clause? ⟨2⟩).bind q.named? = some s ∧
      (Sample.nicknames.routeAfter Sample.naming).lets l = .ok lets ∧
      Sample.nicknames.resolve l ⟨2⟩ Sample.cook (.param Sample.title) =
        .ok ((lets.reverse.lookup Sample.title).getD (.item s.ref)) ∧
      (Sample.nicknames.resolve l ⟨2⟩ Sample.cook (.param Sample.title) = .ok (.item s.ref) ↔
        Sample.title ∉ (Sample.nicknames.routeAfter Sample.naming).names) := by
  obtain ⟨⟨q, l⟩, k, h⟩ := exists_runs
    (x := Sample.nicknames.toQuery SourceId.countUp {}) (s := 0) (by decide +kernel)
  obtain ⟨s, lets, named, met, resolved⟩ :=
    resolve_name_iff SourceId.countUp_injective h Sample.naming_mem rfl
  obtain ⟨first, own⟩ := resolved Sample.cook (by decide)
  exact ⟨q, l, k, s, lets, h, named, met, first, own⟩

/-- The nicknames have a let clause of their own, but at the node that makes it the name still
stands for the names of the cooks. -/
theorem nicknames_keep_name : ∃ q l k s,
    Runs (Sample.nicknames.toQuery SourceId.countUp {}) 0 (q, l) k ∧
      Sample.naming ∈ Sample.nicknames.nodes ∧
      (l.clause? Sample.naming.id).bind q.named? = some s ∧
      ∀ p : Param, p.name ≠ Sample.title.name →
        Sample.nicknames.resolve l Sample.naming.id p (.param Sample.title) =
            .ok (.item Sample.titleItem) ∧
          Sample.nicknames.resolve l Sample.naming.id p (.param Sample.title) ≠ .ok (.item s.ref) := by
  obtain ⟨q, l, k, h, items⟩ := Sample.exists_runs_recording Sample.nicknames
    [(⟨0⟩, Sample.cookItem), (⟨1⟩, Sample.titleItem), (⟨2⟩, Sample.nicknameItem)] (by decide +kernel)
  simp only [List.forall_mem_cons] at items
  obtain ⟨cooks, titles, nicknames, -⟩ := items
  obtain ⟨s, _, named, recorded, -⟩ :=
    (Chain.build_runs_iff.mp h).exists_named Sample.naming_mem rfl
  have own : s.ref = Sample.nicknameItem := Except.ok.inj (recorded.symm.trans nicknames)
  refine ⟨q, l, k, s, h, Sample.naming_mem, named, fun p hp => ?_⟩
  have ne : Sample.title ≠ p := fun heq => hp (by rw [heq])
  have resolved : (Sample.nicknames.route ⟨2⟩).Resolves l p (.param Sample.title)
      ((((Expr.param Sample.title).substituteParam p (.item Sample.cookItem)).substituteParam
        Sample.title (.item Sample.titleItem)).substituteParam Sample.title
          (.item Sample.nicknameItem)) :=
    .define rfl (.define rfl (.item rfl cooks) titles) nicknames
  rw [Expr.substituteParam_param, if_neg ne, Expr.substituteParam_param_self,
    Expr.substituteParam_item] at resolved
  have first := Route.resolve_eq_ok_iff.mpr resolved
  refine ⟨first, fun h => ?_⟩
  have same := Expr.item.inj (Except.ok.inj (first.symm.trans h))
  rw [own] at same
  exact absurd same (by decide)

end QueryFold
