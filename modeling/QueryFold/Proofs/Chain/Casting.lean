import QueryFold.Proofs.Chain.Items
import QueryFold.Proofs.Chain.Order
import QueryFold.Proofs.Chain.Pushed
import QueryFold.Proofs.Chain.Renaming

/-!
# Selections behind a cast

A cast is an operator on the result, and the clauses of a query come before it. So what a query
yields must not change behind a cast, and a build admits only a selection whose selector yields its
parameter. That parameter stands for the converted item as long as the nodes in between pass the
item on. A further source among them gives it another meaning, and the selection then yields the
items of that source: `select_after_cast_iff`.
-/

namespace QueryFold

/-! ### Items that are handed on -/

namespace Route

variable {l : Ledger} {n : Node} {rest : Route}

/-- A parameter alone is resolved to the item that it stands for. -/
theorem Settled.resolves_item (h : rest.Settled l) :
    ∃ e, rest.item l = .ok e ∧ e.Closed ∧ ∀ p, rest.Resolves l p (.param p) e := by
  obtain ⟨e, lets, item, -, closed, -, resolves⟩ := h.substitutes
  refine ⟨e, item, closed, fun p => ?_⟩
  have := resolves p p [] (.param p) rfl fun t ht ho =>
    ht (congrArg Param.type (occursIn_param_iff.mp ho)).symm
  simpa only [Expr.converted, List.foldl_nil, Expr.substituteParam_param_self,
    closed.substituteAll] using this

theorem isIdentity_eq_true_iff {selector : Lambda} :
    Node.isIdentity selector = true ↔ ∃ p, selector = ⟨[p], .param p⟩ := by
  constructor
  · intro h
    unfold Node.isIdentity at h
    split at h
    · rename_i p q params body
      obtain rfl := of_decide_eq_true h
      obtain ⟨ps, b⟩ := selector
      obtain rfl : ps = [p] := Lambda.single?_eq_some_iff.mp params
      obtain rfl : b = .param p := body
      exact ⟨p, rfl⟩
    · cases h
  · rintro ⟨p, rfl⟩
    simp [Node.isIdentity, Lambda.single?]

/-- An operation that neither closes the query nor converts or changes what it yields either starts
with items of its own or hands on the item of the node before. -/
theorem item_via (settled : rest.Settled l)
    (unsealed : n.operation.seals = false) (unconverted : n.operation.converts = false)
    (pinned : n.operation.reprojects = false) (binds : n.operation.bindsItem = false) :
    (via n rest).item l = rest.item l := by
  cases op : n.operation with
  | mainSource _ | subQuerySource _ => simp [op, Operation.bindsItem] at binds
  | selectMany _ result =>
    cases result with
    | none => simp [op, Operation.bindsItem] at binds
    | some _ => simp [op, Operation.reprojects] at pinned
  | groupBy _ _ | resultOperator _ => simp [op, Operation.seals] at unsealed
  | cast kind _ =>
    cases kind with
    | cast => simp [op, Operation.converts] at unconverted
    | ofType => simp [op, Operation.seals] at unsealed
  | filter _ | orderBy _ _ _ | define _ _ => simp only [item, op]
  | select selector =>
    rw [op, Operation.reprojects, Bool.not_eq_false'] at pinned
    obtain ⟨p, rfl⟩ := isIdentity_eq_true_iff.mp pinned
    obtain ⟨e, he, closed, resolves⟩ := settled.resolves_item
    rw [he]
    simp only [item, op]
    exact Lambda.resolveBy_eq_ok_iff.mpr ⟨p, rfl, resolve_eq_ok_iff.mpr (resolves p), closed⟩

end Route

/-! ### The nodes before a selection -/

theorem Operation.unsealed_of_isSource {op : Operation} (h : op.isSource = true) :
    op.seals = false ∧ op.converts = false := by
  cases op with
  | mainSource _ | subQuerySource _ => exact ⟨rfl, rfl⟩
  | _ => cases h

namespace Chain

variable {ids : Nat → SourceId} {settings : Settings} {depth : UInt32} {c : Chain} {l : Ledger}
  {k k' : Nat} {q : Query}

/-- The first node of a chain that was built is a source. -/
theorem Built.isSource (h : c.Built ids settings depth k q l k') {n : Node}
    (hn : c.nodes[0]? = some n) : n.operation.isSource = true := by
  obtain @⟨first, rest, _, _, _, _, nodes, _, start⟩ := h
  obtain rfl : first = n := by simpa [nodes] using hn
  cases start with
  | mainSource op | subQuerySource op => rw [op]; rfl

/-- Of two nodes the one in front is a source, or both stand behind the first node. -/
theorem Built.pairwise (h : c.Built ids settings depth k q l k') {R : Operation → Operation → Prop}
    (source : ∀ a b, a.isSource = true → R a b)
    (others : (c.nodes.tail.map Node.operation).Pairwise R) {i j : Nat} {n m : Node} (hij : i < j)
    (hn : c.nodes[i]? = some n) (hm : c.nodes[j]? = some m) : R n.operation m.operation := by
  cases i with
  | zero => exact source _ _ (h.isSource hn)
  | succ i =>
    obtain ⟨j, rfl⟩ : ∃ j', j = j' + 1 := ⟨j - 1, by omega⟩
    obtain ⟨hi, rfl⟩ := List.getElem?_eq_some_iff.mp hn
    obtain ⟨hj, rfl⟩ := List.getElem?_eq_some_iff.mp hm
    have := List.pairwise_iff_getElem.mp others i j (by simp; omega) (by simp; omega) (by omega)
    simpa using this

/-- Before an operation that is not on the result nothing closes the query. -/
theorem Built.unsealed (h : c.Built ids settings depth k q l k') {i j : Nat} {n m : Node}
    (hij : i < j) (hn : c.nodes[i]? = some n) (hm : c.nodes[j]? = some m)
    (clause : m.operation.onResult = false) : n.operation.seals = false := by
  have closes : n.operation.seals = true → m.operation.onResult = true := by
    refine h.pairwise (fun a b ha hs => ?_) h.ordered.closed hij hn hm
    rw [(Operation.unsealed_of_isSource ha).1] at hs
    cases hs
  by_contra hs
  exact absurd (clause.symm.trans (closes (by simpa using hs))) nofun

/-- Behind a conversion what the query yields is not changed. -/
theorem Built.pinned (h : c.Built ids settings depth k q l k') {i j : Nat} {n m : Node}
    (hij : i < j) (hn : c.nodes[i]? = some n) (hm : c.nodes[j]? = some m)
    (converts : n.operation.converts = true) : m.operation.reprojects = false := by
  refine h.pairwise (fun a b ha hc => ?_) h.ordered.pinned hij hn hm converts
  rw [(Operation.unsealed_of_isSource ha).2] at hc
  cases hc

/-- In a row of nodes behind a source, the route from a node leads to an item if nothing groups up
to it. -/
theorem Pushed.leads (pushed : c.Pushed)
    (source : ∀ n, c.nodes[0]? = some n → n.operation.isSource = true) {i : Nat}
    (hi : i < c.nodes.length)
    (ungrouped : ∀ m n, m ≤ i → c.nodes[m]? = some n → n.operation.groups = false) :
    (c.route ⟨i⟩).Leads := by
  induction i with
  | zero =>
    have hn := List.getElem?_eq_getElem hi
    have hs := source _ hn
    rw [pushed.linked.route_eq hn, Route.Leads]
    split <;> simp_all [Operation.isSource]
  | succ i ih =>
    have hn := List.getElem?_eq_getElem hi
    have hg := ungrouped _ _ (Nat.le_refl _) hn
    have before := ih (by omega) fun m n hm => ungrouped m n (by omega)
    rw [pushed.route_eq hn, Route.Leads]
    split <;> first | trivial | exact before | simp_all [Operation.groups]

/-- The items up to a selection are known. -/
theorem Built.settled_before (h : c.Built ids settings depth k q l k') (pushed : c.Pushed)
    {i j : Nat} {m : Node} (hij : i < j) (hm : c.nodes[j]? = some m)
    (clause : m.operation.onResult = false) : (c.route ⟨i⟩).Settled l := by
  have hj := (List.getElem?_eq_some_iff.mp hm).1
  apply h.settled_route
  apply pushed.leads (fun n => h.isSource) (by omega)
  intro m' n hm' hn
  have := h.unsealed (by omega) hn hm clause
  cases op : n.operation <;> simp_all [Operation.seals, Operation.groups]

/-- From a cast on, an item is the converted one as long as no node starts with items of its own,
and then an item of that node's source. -/
theorem Built.item_after_cast (h : c.Built ids settings depth k q l k') (pushed : c.Pushed)
    {i j : Nat} {n m : Node} {type : Ty} {x : Expr} (hn : c.nodes[i]? = some n)
    (cast : n.operation = .cast .cast type) (hm : c.nodes[j]? = some m)
    (select : m.operation.selects = true)
    (last : ∀ k n, i < k → k < j → c.nodes[k]? = some n → n.operation.converts = false)
    (item : (c.route ⟨i⟩).item l = .ok (.convert x type)) {k : Nat} (hik : i ≤ k) (hkj : k < j) :
    ∃ e, (c.route ⟨k⟩).item l = .ok e ∧ (e = .convert x type ↔
      ∀ k' n, i < k' → k' ≤ k → c.nodes[k']? = some n → n.operation.bindsItem = false) := by
  have clause : m.operation.onResult = false := by
    cases op : m.operation <;> simp_all [Operation.selects, Operation.onResult]
  induction hik with
  | refl =>
    refine ⟨_, item, ?_⟩
    simp only [true_iff]
    intro k' _ h₁ h₂
    omega
  | @step k hik ih =>
    have hik : i ≤ k := hik
    obtain ⟨e, he, same⟩ := ih (by omega)
    have hj := (List.getElem?_eq_some_iff.mp hm).1
    have hk := List.getElem?_eq_getElem (show k + 1 < c.nodes.length by omega)
    generalize c.nodes[k + 1] = next at hk
    have unsealed := h.unsealed hkj hk hm clause
    have unconverted := last (k + 1) next (by omega) hkj hk
    have pinned := h.pinned (show i < k + 1 by omega) hn hk (by rw [cast]; rfl)
    rw [pushed.route_eq hk]
    by_cases binds : next.operation.bindsItem = true
    · obtain ⟨r, hr⟩ := (h.settled next (List.mem_of_getElem? hk)).item
        (by cases op : next.operation <;> simp_all [Operation.bindsItem, Operation.introduces])
      refine ⟨.item r, Route.item_of_bindsItem binds hr, ?_⟩
      simp only [reduceCtorEq, false_iff]
      intro unbound
      have := unbound (k + 1) next (by omega) (Nat.le_refl _) hk
      rw [binds] at this
      cases this
    · have binds : next.operation.bindsItem = false := by simpa using binds
      have settled := h.settled_before pushed (show k < j by omega) hm clause
      refine ⟨e, (Route.item_via settled unsealed unconverted pinned binds).trans he, ?_⟩
      rw [same]
      constructor
      · intro unbound k' n' h₁ h₂ hn'
        by_cases hk' : k' = k + 1
        · subst hk'
          rw [hk, Option.some.injEq] at hn'
          exact hn' ▸ binds
        · exact unbound k' n' h₁ (by omega) hn'
      · exact fun unbound k' n' h₁ h₂ => unbound k' n' h₁ (by omega)

end Chain

/-- **A selection behind a cast** yields the converted item exactly if no node between the two
starts with items of its own. The cast is the last one before the selection. -/
theorem select_after_cast_iff {ids : Nat → SourceId} {settings : Settings} {chain : Chain}
    {k k' : Nat} {q : Query} {l : Ledger} (h : Runs (chain.toQuery ids settings) k (q, l) k')
    (pushed : chain.Pushed) {i j : Nat} (hij : i < j) {n m : Node} {type : Ty} {selector : Lambda}
    (hn : chain.nodes[i + 1]? = some n) (cast : n.operation = .cast .cast type)
    (hm : chain.nodes[j + 1]? = some m) (select : m.operation = .select selector)
    (last : ∀ k n, i + 1 < k → k < j + 1 → chain.nodes[k]? = some n →
      n.operation.converts = false) :
    ∃ x e, (chain.route ⟨i⟩).item l = .ok x ∧
      (∀ p, chain.resolve l ⟨i + 1⟩ p (.param p) = .ok (.convert x type)) ∧
      chain.resolveLambda l ⟨j⟩ selector = .ok e ∧
      (e = .convert x type ↔ ∀ k n, i + 1 < k → k < j + 1 → chain.nodes[k]? = some n →
        n.operation.bindsItem = false) := by
  have built := Chain.build_runs_iff.mp h
  have clause : m.operation.onResult = false := by rw [select]; rfl
  have known : ∀ {i}, i < j + 1 → (chain.route ⟨i⟩).Settled l :=
    fun hij => built.settled_before pushed hij hm clause
  obtain ⟨x, item, -⟩ := (known (show i < j + 1 by omega)).resolves_item
  have converted : (chain.route ⟨i + 1⟩).item l = .ok (.convert x type) := by
    simp only [pushed.route_eq hn, Route.item, cast, item]
    rfl
  obtain ⟨e, he, same⟩ := built.item_after_cast pushed hn cast hm (by rw [select]; rfl) last
    converted (show i + 1 ≤ j by omega) (Nat.lt_succ_self j)
  refine ⟨x, e, item, fun p => ?_, ?_, ?_⟩
  · obtain ⟨e', he', -, resolves⟩ := (known (show i + 1 < j + 1 by omega)).resolves_item
    rw [converted, Except.ok.injEq] at he'
    exact Route.resolve_eq_ok_iff.mpr (he' ▸ resolves p)
  · obtain ⟨e', he', closed, resolves⟩ := (known (Nat.lt_succ_self j)).resolves_item
    obtain rfl : e = e' := by simpa [he] using he'
    have pinned := built.pinned (show i + 1 < j + 1 by omega) hn hm (by rw [cast]; rfl)
    rw [select, Operation.reprojects, Bool.not_eq_false'] at pinned
    obtain ⟨p, rfl⟩ := Route.isIdentity_eq_true_iff.mp pinned
    exact Chain.resolveLambda_eq_ok_iff.mpr ⟨p, rfl, resolves p, closed⟩
  · rw [same]
    constructor
    · exact fun unbound k n h₁ h₂ => unbound k n h₁ (by omega)
    · exact fun unbound k n h₁ h₂ => unbound k n h₁ (by omega)

namespace Sample

/-- An assistant. -/
def helper : Param := ⟨"a", cook.type⟩

/-- The assistants of a chef. -/
def helpersOf : Lambda := ⟨[chef], .member (.param chef) "Assistants" (Ty.array cook.type)⟩

/-- The cooks as chefs, and then the assistants of each. -/
def helpers : Chain :=
  Chain.empty (Ty.queryable cook.type)
    |>.push "c" (.mainSource cooks)
    |>.push "c" (.cast .cast chef.type)
    |>.push "a" (.selectMany helpersOf none)
    |>.push "a" (.select ⟨[helper], .param helper⟩)

theorem pushed_helpers : helpers.Pushed :=
  .push (.push (.push (.push (.empty _) _ _) _ _) _ _) _ _

end Sample

theorem select_after_cast_iff_helpers : ∃ q l k x e,
    Runs (Sample.helpers.toQuery SourceId.countUp {}) 0 (q, l) k ∧
    (Sample.helpers.route ⟨0⟩).item l = .ok x ∧
    (∀ p, Sample.helpers.resolve l ⟨1⟩ p (.param p) = .ok (.convert x Sample.chef.type)) ∧
    Sample.helpers.resolveLambda l ⟨2⟩ ⟨[Sample.helper], .param Sample.helper⟩ = .ok e ∧
    (e = .convert x Sample.chef.type ↔ ∀ k n, 1 < k → k < 3 → Sample.helpers.nodes[k]? = some n →
      n.operation.bindsItem = false) := by
  obtain ⟨⟨q, l⟩, k, h⟩ := exists_runs
    (x := Sample.helpers.toQuery SourceId.countUp {}) (s := 0) (by decide +kernel)
  obtain ⟨x, e, item, converted, resolved, same⟩ :=
    select_after_cast_iff h Sample.pushed_helpers (i := 0) (j := 2) (by decide) rfl rfl rfl rfl
      fun k n h₁ h₂ hn => by
        obtain rfl : k = 2 := by omega
        cases hn
        rfl
  exact ⟨q, l, k, x, e, h, item, converted, resolved, same⟩

/-- The selection behind the cast yields the assistants of chefs, so it is to them that the cast is
applied. -/
theorem helpers_replace_chefs : ∃ q l k,
    Runs (Sample.helpers.toQuery SourceId.countUp {}) 0 (q, l) k ∧
    (∀ p, Sample.helpers.resolve l ⟨1⟩ p (.param p) =
      .ok (.convert (.item Sample.cookItem) Sample.chef.type)) ∧
    Sample.helpers.resolveLambda l ⟨2⟩ ⟨[Sample.helper], .param Sample.helper⟩ =
      .ok (.item ⟨SourceId.countUp 1, "a", Sample.cook.type⟩) := by
  obtain ⟨q, l, k, h, items⟩ := Sample.exists_runs_recording Sample.helpers
    [(⟨0⟩, Sample.cookItem), (⟨2⟩, ⟨SourceId.countUp 1, "a", Sample.cook.type⟩)] (by decide +kernel)
  have cooks := items _ List.mem_cons_self
  have helpers := items _ (List.mem_cons_of_mem _ List.mem_cons_self)
  have atCooks : ∀ p body, (Sample.helpers.route ⟨0⟩).Resolves l p body
      (body.substituteParam p (.item Sample.cookItem)) := fun p body =>
    Route.Resolves.item (n := ⟨⟨0⟩, none, "c", "MainSource", .mainSource Sample.cooks⟩) rfl cooks
  have items : (Sample.helpers.route ⟨0⟩).itemType l = .ok Sample.cook.type :=
    Route.itemType_of_bindsItem (n := ⟨⟨0⟩, none, "c", "MainSource", .mainSource Sample.cooks⟩)
      rfl cooks
  refine ⟨q, l, k, h, fun p => Route.resolve_eq_ok_iff.mpr ?_,
    Chain.resolveLambda_eq_ok_iff.mpr ⟨Sample.helper, rfl, ?_, Expr.closed_item _⟩⟩
  · have resolved := Route.Resolves.cast
      (n := ⟨⟨1⟩, some ⟨0⟩, "c", "Cast", .cast .cast Sample.chef.type⟩) rfl items
      (atCooks ⟨p.name, Sample.cook.type⟩ ((Expr.param p).substituteParam p _))
    rwa [Expr.substituteParam_param_self, Expr.substituteParam_convert,
      Expr.substituteParam_param_self] at resolved
  · have resolved : (Sample.helpers.route ⟨2⟩).Resolves l Sample.helper (.param Sample.helper)
        ((Expr.param Sample.helper).substituteParam Sample.helper _) :=
      .item (n := ⟨⟨2⟩, some ⟨1⟩, "a", "SelectMany", .selectMany Sample.helpersOf none⟩) rfl helpers
    rwa [Expr.substituteParam_param_self] at resolved

end QueryFold
