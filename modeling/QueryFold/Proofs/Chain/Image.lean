import QueryFold.Proofs.Chain.Layout
import QueryFold.Proofs.Chain.Nesting

/-!
# The query of a chain is its image

Whatever is in the query that a chain is built to comes from the nodes of the chain, and
everything in the chain is in the query: the body has a clause for each group of nodes, in the
order of the chain, the last node that says what the query yields makes its end, and each node
that applies to the result makes an operator. The ledger has a record for each node, which
tells where its clause stands and which source it introduced (`toQuery_image`).

The invariant of the build is that this holds of the nodes that were applied so far, but for
the one from clause that may wait for its projection (`Build.Laid`).
-/

namespace QueryFold

/-! ### Records -/

namespace Ledger

variable {l l' : Ledger} {id : NodeId} {r : NodeRecord}

theorem extends_of_records (h : l'.records = l.records ++ [(id, r)]) : l.Extends l' := by
  intro id' r' h'
  rw [record?] at h' ⊢
  rw [h, List.lookup_append, h']
  rfl

theorem record?_of_records (fresh : l.record? id = none)
    (h : l'.records = l.records ++ [(id, r)]) : l'.record? id = some r := by
  rw [record?] at fresh ⊢
  rw [h, List.lookup_append, fresh]
  simp

/-- The from clause at the index `i` waits for its projection. -/
def WaitsAt (l : Ledger) (i : Nat) : Prop := ∃ o, l.openFrom = some o ∧ o.clause = .body i

theorem waitsAt_congr (h : l'.openFrom = l.openFrom) (i : Nat) : l'.WaitsAt i ↔ l.WaitsAt i := by
  rw [WaitsAt, WaitsAt, h]

theorem not_waitsAt (h : l.openFrom = none) (i : Nat) : ¬ l.WaitsAt i := by
  rintro ⟨o, ho, -⟩
  rw [h] at ho
  cases ho

end Ledger

section

variable {ids : Nat → SourceId} {nested : Nested} {chain : Chain} {n : Node} {b b' : Build}

/-- A step records the node, and nothing of it if it does not change the body. -/
theorem Node.Step.records (h : n.Step ids nested chain b b') :
    ∃ r, b'.ledger.records = b.ledger.records ++ [(n.id, r)] ∧
      (n.operation.inBody = false → r = ({} : NodeRecord)) := by
  cases h with
  | mainSource op | subQuerySource op | selectMany op | selectManyResult op | filter op | define op
  | orderBy op | thenBy op => exact ⟨_, rfl, by simp [op, Operation.inBody]⟩
  | select | groupBy | cast | ofType | resultOperator => exact ⟨_, rfl, fun _ => rfl⟩

/-- What is known when a result selector is resolved is known afterwards. -/
theorem Node.extends_registering {s : Source} {e projection : Expr} {k : Nat} :
    (b.ledger.noted n.id ⟨some b.query.next, some s.ref⟩).Extends
      ((b.added n (projectedFrom s e projection) k).registering (.select projection)).ledger := by
  rw [Build.added_of_source (source?_projectedFrom _ _ _)]
  exact fun _ _ h => h

theorem Node.Step.extends (h : n.Step ids nested chain b b') : b.ledger.Extends b'.ledger := by
  obtain ⟨r, hr, -⟩ := h.records
  exact Ledger.extends_of_records hr

end

/-! ### The clauses so far -/

section

variable (ids : Nat → SourceId) (settings : Settings) (depth : UInt32) (chain : Chain)

/-- The group makes the clause at the index `i`, unless this is the one that waits, and its nodes
are recorded there. -/
structure Group.Explains (l : Ledger) (i : Nat) (g : Group) (c : Clause) : Prop where
  awaits : l.WaitsAt i → g.Awaits chain l ids settings depth i c
  makes : ¬ l.WaitsAt i → g.Makes chain l ids settings depth i c
  recorded : ∀ n ∈ g.nodes, l.record? n.id = some ⟨some (.body i), c.source?.map Source.ref⟩

/-- The groups make the clauses of the body. -/
structure Build.Laid (b : Build) (gs : List Group) : Prop where
  length : gs.length = b.query.body.length
  within : ∀ i, b.ledger.WaitsAt i → i < b.query.body.length
  explains : ∀ (i : Nat) (g : Group) (c : Clause), gs[i]? = some g → b.query.body[i]? = some c →
    g.Explains ids settings depth chain b.ledger i c

end

section

variable {ids : Nat → SourceId} {settings : Settings} {depth : UInt32} {chain : Chain}

section

variable {l l' : Ledger} {i : Nat} {g : Group} {c : Clause}

theorem Group.Explains.extends (he : g.Explains ids settings depth chain l i c) (h : l.Extends l')
    (waits : l'.WaitsAt i ↔ l.WaitsAt i) : g.Explains ids settings depth chain l' i c where
  awaits hw := (he.awaits (waits.mp hw)).extends h
  makes hw := (he.makes (mt waits.mpr hw)).extends h
  recorded n hn := h _ _ (he.recorded n hn)

/-- A clause that does not wait is made before and after a selection. -/
theorem Group.Explains.select (he : g.Explains ids settings depth chain l i c) (h : l.Extends l')
    (made : ¬ l.WaitsAt i) (settled : ¬ l'.WaitsAt i) (n : Node) :
    (g.select n).Explains ids settings depth chain l' i c where
  awaits hw := absurd hw settled
  makes _ := ((he.makes made).select n).extends h
  recorded m hm := h _ _ (he.recorded m hm)

/-- A group that sorts makes an order by clause, and no other one does. -/
theorem Group.Explains.sorts_iff (he : g.Explains ids settings depth chain l i c) :
    g.head.operation.sorts = true ↔ ∃ keys previous, c = .orderBy keys previous := by
  have unsorted (h : g.head.operation.sorts = false ∧ c.keys? = none) :
      g.head.operation.sorts = true ↔ ∃ keys previous, c = .orderBy keys previous := by
    obtain ⟨hn, hk⟩ := h
    refine ⟨fun hs => absurd (hn.symm.trans hs) Bool.false_ne_true, ?_⟩
    rintro ⟨keys, previous, rfl⟩
    cases hk
  by_cases hw : l.WaitsAt i
  · exact unsorted (he.awaits hw).head.not_sorts
  · cases he.makes hw with
    | iterates head _ _ _ => exact unsorted head.not_sorts
    | adds head _ => exact unsorted head.not_sorts
    | sorts made =>
      cases made with
      | cons first _ =>
        obtain ⟨op, -⟩ := first
        exact ⟨fun _ => ⟨_, _, rfl⟩, fun _ => by rw [op]; rfl⟩

end

namespace Build.Laid

variable {b : Build} {gs : List Group} {l : Ledger} {n : Node}

/-- A clause may be added that a further node opens. -/
theorem add (hb : b.Laid ids settings depth chain gs) {c : Clause} {k : Nat}
    (h : b.ledger.Extends l) (others : ∀ i < b.query.body.length, l.WaitsAt i ↔ b.ledger.WaitsAt i)
    (within : ∀ i, l.WaitsAt i → i ≤ b.query.body.length)
    (new : (Group.opened n).Explains ids settings depth chain l b.query.body.length
      (c.attach b.query.next b.query.last)) :
    Build.Laid ids settings depth chain ⟨b.query.addClause c, l, k⟩ (gs ++ [.opened n]) where
  length := by simp [hb.length]
  within i hw := by
    have := within i hw
    simp only [Query.length_addClause]
    omega
  explains i g d hg hd := by
    rcases Query.getElem?_addClause.mp hd with hd | ⟨rfl, rfl⟩
    · have hi := (List.getElem?_eq_some_iff.mp hd).1
      rw [List.getElem?_append_left (by rw [hb.length]; exact hi)] at hg
      exact (hb.explains i g d hg hd).extends h (others i hi)
    · rw [← hb.length, List.getElem?_concat_length, Option.some.injEq] at hg
      exact hg ▸ new

/-- A clause may be added that needs no projection from elsewhere. -/
theorem add_made (hb : b.Laid ids settings depth chain gs) {c : Clause} {k : Nat}
    (h : b.ledger.Extends l) (same : l.openFrom = b.ledger.openFrom)
    (made : (Group.opened n).Makes chain l ids settings depth b.query.body.length
      (c.attach b.query.next b.query.last))
    (recorded : l.record? n.id = some ⟨some b.query.next, c.source?.map Source.ref⟩) :
    Build.Laid ids settings depth chain ⟨b.query.addClause c, l, k⟩ (gs ++ [.opened n]) := by
  have waits := Ledger.waitsAt_congr same
  refine hb.add h (fun i _ => waits i) (fun i hw => Nat.le_of_lt (hb.within i ((waits i).mp hw))) ?_
  refine ⟨fun hw => ?_, fun _ => made, fun m hm => ?_⟩
  · exact absurd (hb.within _ ((waits _).mp hw)) (Nat.lt_irrefl _)
  · rw [List.mem_singleton.mp hm, Clause.source?_attach]
    exact recorded

/-- A from clause may be added to wait if no other one waits. -/
theorem add_awaiting (hb : b.Laid ids settings depth chain gs) {c : Clause} {k : Nat} {o : OpenFrom}
    (h : b.ledger.Extends l) (settled : b.ledger.openFrom = none) (waits : l.openFrom = some o)
    (there : o.clause = b.query.next)
    (head : n.Iterates chain l ids settings depth none b.query.last
      (c.attach b.query.next b.query.last))
    (recorded : l.record? n.id = some ⟨some b.query.next, c.source?.map Source.ref⟩) :
    Build.Laid ids settings depth chain ⟨b.query.addClause c, l, k⟩ (gs ++ [.opened n]) := by
  have only : ∀ i, l.WaitsAt i ↔ i = b.query.body.length := by
    intro i
    rw [Ledger.WaitsAt, waits]
    simp [there, Query.next, eq_comm]
  have before := Ledger.not_waitsAt settled
  refine hb.add h (fun i hi => ?_) (fun i hw => Nat.le_of_eq ((only i).mp hw)) ?_
  · simp only [only, before, iff_false]
    exact Nat.ne_of_lt hi
  · refine ⟨fun _ => ⟨head, rfl, rfl⟩, fun hw => absurd ((only _).mpr rfl) hw, fun m hm => ?_⟩
    rw [List.mem_singleton.mp hm, Clause.source?_attach]
    exact recorded

/-- A clause may be changed together with its group, if the others still make theirs. -/
theorem change (hb : b.Laid ids settings depth chain gs) {i : Nat} {c : Clause} {gs' : List Group}
    (length : gs'.length = gs.length) (within : ∀ j, l.WaitsAt j → j < b.query.body.length)
    (changed : ∀ g, gs'[i]? = some g → g.Explains ids settings depth chain l i c)
    (others : ∀ (j : Nat) (g : Group) (d : Clause), i ≠ j → gs'[j]? = some g →
      b.query.body[j]? = some d → g.Explains ids settings depth chain l j d) :
    Build.Laid ids settings depth chain
      ⟨{ b.query with body := b.query.body.set i c }, l, b.drawn⟩ gs' where
  length := by simp [length, hb.length]
  within := by simpa using within
  explains j g d hg hd := by
    rw [List.getElem?_set] at hd
    split_ifs at hd with hij hi
    · cases hd
      exact hij ▸ changed g (hij ▸ hg)
    · exact others j g d hij hg hd

/-- The body may stay as it is. -/
theorem keep (hb : b.Laid ids settings depth chain gs) {q : Query} {k : Nat}
    (h : b.ledger.Extends l) (same : l.openFrom = b.ledger.openFrom)
    (body : q.body = b.query.body) :
    Build.Laid ids settings depth chain ⟨q, l, k⟩ gs := by
  have waits := Ledger.waitsAt_congr same
  refine ⟨by rw [body, hb.length], fun i hw => body ▸ hb.within i ((waits i).mp hw), ?_⟩
  intro i g c hg hc
  exact (hb.explains i g c hg (body ▸ hc)).extends h (waits i)

end Build.Laid

/-! ### Steps -/

theorem Group.Makes.of_orderBy {l : Ledger} {i : Nat} {g : Group} {keys : List SortKey}
    {previous : Position} (h : g.Makes chain l ids settings depth i (.orderBy keys previous)) :
    List.Forall₂ (Node.Sorts chain l i) g.nodes keys ∧ previous = .before i := by
  generalize hc : Clause.orderBy keys previous = c at h
  cases h with
  | iterates head _ _ _ =>
    rw [← hc] at head
    cases head.not_sorts.2
  | adds head _ =>
    rw [← hc] at head
    cases head.not_sorts.2
  | sorts made =>
    cases hc
    exact ⟨made, rfl⟩

theorem Group.Awaits.not_sorts {l : Ledger} {i : Nat} {g : Group} {c : Clause}
    (h : g.Awaits chain l ids settings depth i c) : g.head.operation.sorts = false := by
  exact h.head.not_sorts.1

namespace Node.Step

variable {n : Node} {b b' : Build} {gs : List Group}

/-- A key opens a clause if it need not join one, or if there is none to join. -/
theorem place_opened (hb : b.Laid ids settings depth chain gs) {key : Lambda}
    {direction : Direction} {thenBy : Bool} (op : n.operation = .orderBy key direction thenBy)
    (opens : thenBy = true → lastOrderBy? b.query = none) :
    Group.place gs n = gs ++ [.opened n] := by
  cases thenBy with
  | false => simp [Group.place, op]
  | true =>
    simp only [Group.place, op]
    cases last : gs.getLast? with
    | none => rfl
    | some g =>
      simp only
      split_ifs with sorts
      · rw [List.getLast?_eq_getElem?] at last
        have hlt := (List.getElem?_eq_some_iff.mp last).1
        obtain ⟨c, hc⟩ : ∃ c, b.query.body[gs.length - 1]? = some c :=
          ⟨_, List.getElem?_eq_getElem (hb.length ▸ hlt)⟩
        obtain ⟨keys, previous, rfl⟩ := (hb.explains _ g c last hc).sorts_iff.mp sorts
        have joins := lastOrderBy?_eq_some_iff.mpr
          ⟨_, rfl, by rw [← hb.length]; omega, keys, previous, hc⟩
        rw [opens rfl] at joins
        cases joins
      · rfl

/-- A subordinate key joins the last group where it joins the last clause. -/
theorem place_joined (hb : b.Laid ids settings depth chain gs) {key : Lambda}
    {direction : Direction} (op : n.operation = .orderBy key direction true) {position : Position}
    (joins : lastOrderBy? b.query = some position) :
    ∃ i g keys previous, position = .body i ∧ gs[i]? = some g ∧
      b.query.body[i]? = some (.orderBy keys previous) ∧ g.head.operation.sorts = true ∧
      Group.place gs n = gs.set i (g.join n) := by
  obtain ⟨i, rfl, hi, keys, previous, hc⟩ := lastOrderBy?_eq_some_iff.mp joins
  rw [← hb.length] at hi
  obtain ⟨g, hg⟩ : ∃ g, gs[i]? = some g := ⟨_, List.getElem?_eq_getElem (by omega)⟩
  have sorts := (hb.explains i g _ hg hc).sorts_iff.mpr ⟨keys, previous, rfl⟩
  refine ⟨i, g, keys, previous, rfl, hg, hc, sorts, ?_⟩
  have last : gs.getLast? = some g := by
    rw [List.getLast?_eq_getElem?, ← hi, Nat.add_sub_cancel, hg]
  simp only [Group.place, op, last, sorts, if_true, ← hi, Nat.add_sub_cancel]

theorem laid_thenBy (hb : b.Laid ids settings depth chain gs) {l : Ledger} {key : Lambda}
    {direction : Direction} {position : Position} {e : Expr} {q : Query}
    (op : n.operation = .orderBy key direction true)
    (joins : lastOrderBy? b.query = some position)
    (extended : b.query.addKey position ⟨e, direction, none⟩ = .ok q) (h : b.ledger.Extends l)
    (same : l.openFrom = b.ledger.openFrom) (resolved : n.Resolved chain l key e)
    (recorded : l.record? n.id = some ⟨some position, none⟩) :
    Build.Laid ids settings depth chain ⟨q, l, b.drawn⟩ (Group.place gs n) := by
  obtain ⟨i, g, keys, previous, rfl, hg, hc, sorts, hp⟩ := place_joined hb op joins
  obtain ⟨j, c, c', hj, hc₁, hc', rfl⟩ := Query.modifyClause_eq_ok_iff.mp extended
  cases hj
  rw [hc, Option.some.injEq] at hc₁
  subst hc₁
  cases hc'
  have waits := Ledger.waitsAt_congr same
  have he := hb.explains i g _ hg hc
  have made : ¬ b.ledger.WaitsAt i := by
    intro hw
    rw [(he.awaits hw).not_sorts] at sorts
    cases sorts
  obtain ⟨made', rfl⟩ := (he.makes made).of_orderBy
  rw [hp]
  refine hb.change (List.length_set ..) (fun j hw => hb.within j ((waits j).mp hw)) ?_ ?_
  · intro g' hg'
    rw [List.getElem?_set_self (List.getElem?_eq_some_iff.mp hg).1, Option.some.injEq] at hg'
    subst hg'
    refine ⟨fun hw => absurd ((waits i).mp hw) made, fun _ => .sorts ?_, fun m hm => ?_⟩
    · have made' := made'.imp fun _ _ => Sorts.extends h
      exact List.rel_append made' (.cons ⟨op, resolved⟩ .nil)
    · rcases List.mem_append.mp (show m ∈ g.nodes ++ [n] from hm) with hm | hm
      · exact h _ _ (he.recorded m hm)
      · rw [List.mem_singleton.mp hm]
        exact recorded
  · intro j g' d hij hg' hd
    rw [List.getElem?_set_ne hij] at hg'
    exact (hb.explains j g' d hg' hd).extends h (waits j)

theorem laid_select (hb : b.Laid ids settings depth chain gs) {l : Ledger} {e : Expr} {q : Query}
    (filled : b.query.fill b.ledger.openFrom e = .ok q) (h : b.ledger.Extends l)
    (settled : l.openFrom = none) (selects : n.Selects chain l e) :
    Build.Laid ids settings depth chain ⟨q, l, b.drawn⟩ (gs.map fun g => g.select n) := by
  have after := Ledger.not_waitsAt settled
  have others : ∀ (i : Nat) (g : Group) (c : Clause), ¬ b.ledger.WaitsAt i →
      (gs.map fun g => g.select n)[i]? = some g → b.query.body[i]? = some c →
      g.Explains ids settings depth chain l i c := by
    intro i g c hw hg hc
    rw [List.getElem?_map, Option.map_eq_some_iff] at hg
    obtain ⟨g, hg, rfl⟩ := hg
    exact (hb.explains i g c hg hc).select h hw (after i) n
  rcases Query.fill_eq_ok_iff.mp filled with ⟨none, rfl⟩ | ⟨o, i, c, c', waiting, ho, hc, hc', rfl⟩
  · refine ⟨by simp [hb.length], fun i hw => absurd hw (after i), fun i g c => others i g c ?_⟩
    exact Ledger.not_waitsAt none i
  · refine hb.change (List.length_map ..) (fun i hw => absurd hw (after i)) ?_ ?_
    · intro g hg
      rw [List.getElem?_map, Option.map_eq_some_iff] at hg
      obtain ⟨g, hg, rfl⟩ := hg
      have he := hb.explains i g c hg hc
      refine ⟨fun hw => absurd hw (after i), fun _ => ?_, fun m hm => ?_⟩
      · exact ((he.awaits ⟨o, waiting, ho⟩).extends h).select selects hc'
      · rw [(Clause.alike_of_withProjection? hc').source?]
        exact h _ _ (he.recorded m hm)
    · intro j g d hij
      refine others j g d ?_
      rintro ⟨o', ho', hj⟩
      rw [waiting, Option.some.injEq] at ho'
      rw [← ho', ho] at hj
      exact hij (by simpa using hj)

/-- **Steps keep the image**: what the groups of the nodes so far make are the clauses so far. -/
theorem laid (hs : b.ledger.settings = settings) (hd : b.ledger.depth = depth)
    (fresh : b.ledger.record? n.id = none) (hb : b.Laid ids settings depth chain gs)
    (h : n.Step ids (n.nested ids) chain b b') :
    b'.Laid ids settings depth chain (Group.place gs n) := by
  have ext := h.extends
  have recorded : ∀ {r : NodeRecord}, b'.ledger.records = b.ledger.records ++ [(n.id, r)] →
      b'.ledger.record? n.id = some r := Ledger.record?_of_records fresh
  cases h with
  | mainSource op _ items _ settled =>
    rw [show Group.place gs n = gs ++ [.opened n] by simp [Group.place, op]]
    exact hb.add_awaiting ext settled rfl rfl (.mainSource op items) (recorded rfl)
  | subQuerySource op _ built items _ settled =>
    rw [show Group.place gs n = gs ++ [.opened n] by simp [Group.place, op]]
    obtain ⟨inner, l', op', built⟩ := nested_runs_iff.mp built
    rw [hs, hd] at built
    exact hb.add_awaiting ext settled rfl rfl
      (.subQuerySource op' (Chain.build_runs_iff.mpr built) items) (recorded rfl)
  | selectMany op _ source resolved items _ settled =>
    rw [show Group.place gs n = gs ++ [.opened n] by simp [Group.place, op]]
    have resolved := Chain.resolveLambda_extends ext resolved
    exact hb.add_awaiting ext settled rfl rfl (.selectMany op ⟨_, source, resolved⟩ items
      (Source.RangesOver.fromClause.attach _ _)) (recorded rfl)
  | selectManyResult op _ _ source resolved _ params _ result =>
    rw [show Group.place gs n = gs ++ [.opened n] by simp [Group.place, op]]
    have resolved := Chain.resolveLambda_extends ext resolved
    refine hb.add_made ext rfl (.adds ?_ rfl) (recorded rfl)
    exact .selectMany op params ⟨_, source, resolved⟩
      (resolvedResult_iff.mpr ⟨_, source, resolveResult_extends extends_registering result⟩)
      ((Source.RangesOver.projectedFrom _).attach _ _)
  | filter op _ source resolved =>
    rw [show Group.place gs n = gs ++ [.opened n] by simp [Group.place, op]]
    have resolved := Chain.resolveLambda_extends ext resolved
    exact hb.add_made ext rfl (.adds (.filter op ⟨_, source, resolved⟩) rfl) (recorded rfl)
  | define op _ source resolved =>
    rw [show Group.place gs n = gs ++ [.opened n] by simp [Group.place, op]]
    have resolved := Chain.resolveLambda_extends ext resolved
    exact hb.add_made ext rfl (.adds (.define op ⟨_, source, resolved⟩) rfl) (recorded rfl)
  | orderBy op _ source resolved opens =>
    have resolved := Chain.resolveLambda_extends ext resolved
    rw [place_opened hb op opens]
    exact hb.add_made ext rfl (.sorts (.cons ⟨op, _, source, resolved⟩ .nil)) (recorded rfl)
  | thenBy op _ source resolved joins extended =>
    exact laid_thenBy hb op joins extended ext rfl
      ⟨_, source, Chain.resolveLambda_extends ext resolved⟩ (recorded rfl)
  | select op _ source resolved filled =>
    rw [show Group.place gs n = gs.map fun g => g.select n by simp [Group.place, op]]
    exact laid_select hb filled ext rfl
      ⟨op, _, source, Chain.resolveLambda_extends ext resolved⟩
  | groupBy op | resultOperator op =>
    rw [show Group.place gs n = gs by simp [Group.place, op]]
    exact hb.keep ext rfl rfl
  | cast op | ofType op =>
    rw [show Group.place gs n = gs by simp [Group.place, op]]
    exact hb.keep ext rfl rfl

section

variable {nested : Nested}

/-- A step leaves alone what was fixed when the build started. -/
theorem fixed (h : n.Step ids nested chain b b') :
    b'.ledger.settings = b.ledger.settings ∧ b'.ledger.depth = b.ledger.depth ∧
      b'.query.source = b.query.source ∧ b'.query.generator = b.query.generator ∧
      b'.query.resultType = b.query.resultType := by
  cases h with
  | thenBy _ _ _ _ _ extended =>
    obtain ⟨_, _, _, _, _, _, rfl⟩ := Query.modifyClause_eq_ok_iff.mp extended
    exact ⟨rfl, rfl, rfl, rfl, rfl⟩
  | select _ _ _ _ filled =>
    rcases Query.fill_eq_ok_iff.mp filled with ⟨-, rfl⟩ | ⟨_, _, _, _, _, _, _, _, rfl⟩ <;>
      exact ⟨rfl, rfl, rfl, rfl, rfl⟩
  | _ => exact ⟨rfl, rfl, rfl, rfl, rfl⟩

/-- A step registers what the node yields, if it says what the query yields. -/
theorem projection (h : n.Step ids nested chain b b') :
    n.operation.projects = false ∧ b'.ledger.projection = b.ledger.projection ∨
      n.operation.projects = true ∧
        ∃ p, b'.ledger.projection = some p ∧ n.Projects chain b'.ledger p := by
  have ext := h.extends
  cases h with
  | selectManyResult op _ _ source _ _ _ _ result =>
    exact .inr ⟨by rw [op]; rfl, _, rfl,
      .selectMany op
        (resolvedResult_iff.mpr ⟨_, source, resolveResult_extends extends_registering result⟩)⟩
  | select op _ source resolved =>
    exact .inr ⟨by rw [op]; rfl, _, rfl,
      .select op ⟨_, source, Chain.resolveLambda_extends ext resolved⟩⟩
  | groupBy op _ _ source resolved grouped =>
    exact .inr ⟨by rw [op]; rfl, _, rfl,
      .groupBy op ⟨_, source, Chain.resolveLambda_extends ext resolved⟩
        (.of_groupElement source (groupElement_extends ext grouped))⟩
  | mainSource op | subQuerySource op | selectMany op | filter op | define op | orderBy op
  | thenBy op | cast op | ofType op | resultOperator op => exact .inl ⟨by rw [op]; rfl, rfl⟩

/-- A step adds the operator that the node makes, if it applies to the result. -/
theorem operators (h : n.Step ids nested chain b b') :
    n.operation.onResult = false ∧ b'.query.operators = b.query.operators ∨
      n.operation.onResult = true ∧
        ∃ o, b'.query.operators = b.query.operators ++ [o] ∧ n.Operates chain b'.ledger o := by
  have ext := h.extends
  cases h with
  | cast op | ofType op => exact .inr ⟨by rw [op]; rfl, _, rfl, .cast op⟩
  | resultOperator op plain source result =>
    exact .inr ⟨by rw [op]; rfl, _, rfl,
      .of_replaceM op plain source (ResultOp.replaceM_extends ext result)⟩
  | thenBy op _ _ _ _ extended =>
    obtain ⟨_, _, _, _, _, _, rfl⟩ := Query.modifyClause_eq_ok_iff.mp extended
    exact .inl ⟨by rw [op]; rfl, rfl⟩
  | select op _ _ _ filled =>
    rcases Query.fill_eq_ok_iff.mp filled with ⟨-, rfl⟩ | ⟨_, _, _, _, _, _, _, _, rfl⟩ <;>
      exact .inl ⟨by rw [op]; rfl, rfl⟩
  | mainSource op | subQuerySource op | selectMany op | selectManyResult op | filter op | define op
  | orderBy op | groupBy op => exact .inl ⟨by rw [op]; rfl, rfl⟩

end

end Node.Step

/-- The first node and the others that were applied so far make what is in the build. -/
structure Build.Imaged (ids : Nat → SourceId) (settings : Settings) (depth : UInt32) (chain : Chain)
    (first : Node) (done : List Node) (b : Build) : Prop where
  settings_eq : b.ledger.settings = settings
  depth_eq : b.ledger.depth = depth
  resultType : b.query.resultType = chain.resultType
  begins : first.Begins ids settings depth b.query.source b.query.generator
  recorded : b.ledger.record? first.id = some ⟨some .main, some b.query.source.ref⟩
  records : b.ledger.records.map Prod.fst = (first :: done).map Node.id
  laid : b.Laid ids settings depth chain (layout done)
  others : ∀ n ∈ done, n.operation.inBody = false → b.ledger.record? n.id = some {}
  projection : ∀ p, b.ledger.projection = some p →
    ∃ n, (done.filter fun n => n.operation.projects).getLast? = some n ∧
      n.Projects chain b.ledger p
  operators : List.Forall₂ (Node.Operates chain b.ledger)
    (done.filter fun n => n.operation.onResult) b.query.operators

/-- A build starts with what its first node makes. -/
theorem Node.Start.imaged {n : Node} {k : Nat} {b : Build}
    (h : n.Start ids (n.nested ids) settings depth chain.resultType k b) :
    b.Imaged ids settings depth chain n [] := by
  have laid : ∀ {s : Source} {e : Expr} {r : NodeRecord} {k : Nat}, Build.Laid ids settings depth
      chain ⟨.start s e chain.resultType, (Ledger.start settings depth).noted n.id r, k⟩ [] := by
    refine ⟨rfl, ?_, nofun⟩
    rintro _ ⟨_, ho, -⟩
    cases ho
  cases h with
  | mainSource op items =>
    exact ⟨rfl, rfl, rfl, .mainSource op items, Ledger.record?_of_records rfl rfl, rfl, laid, nofun,
      nofun, .nil⟩
  | subQuerySource op built items =>
    obtain ⟨inner, l, op', built⟩ := nested_runs_iff.mp built
    exact ⟨rfl, rfl, rfl, .subQuerySource op' (Chain.build_runs_iff.mpr built) items,
      Ledger.record?_of_records rfl rfl, rfl, laid, nofun, nofun, .nil⟩

/-- A step adds what its node makes. -/
theorem Node.Step.imaged {first n : Node} {done : List Node} {b b' : Build}
    (hb : b.Imaged ids settings depth chain first done) (fresh : b.ledger.record? n.id = none)
    (h : n.Step ids (n.nested ids) chain b b') :
    b'.Imaged ids settings depth chain first (done ++ [n]) := by
  have ext := h.extends
  obtain ⟨hs, hd, source, generator, resultType⟩ := h.fixed
  obtain ⟨r, hr, silent⟩ := h.records
  refine ⟨hs.trans hb.settings_eq, hd.trans hb.depth_eq, resultType.trans hb.resultType, ?_, ?_, ?_,
    ?_, ?_, ?_, ?_⟩
  · rw [source, generator]
    exact hb.begins
  · rw [source]
    exact ext _ _ hb.recorded
  · rw [hr, List.map_append, hb.records]
    simp
  · rw [layout_append]
    exact h.laid hb.settings_eq hb.depth_eq fresh hb.laid
  · intro m hm hi
    rcases List.mem_append.mp hm with hm | hm
    · exact ext _ _ (hb.others m hm hi)
    · rw [List.mem_singleton] at hm
      subst hm
      rw [← silent hi]
      exact Ledger.record?_of_records fresh hr
  · intro p hp
    rw [List.filter_append, List.filter_singleton]
    rcases h.projection with ⟨hn, same⟩ | ⟨hn, p', hp', made⟩
    · obtain ⟨m, hm, made⟩ := hb.projection p (same ▸ hp)
      exact ⟨m, by simpa [hn] using hm, made.extends ext⟩
    · rw [hp', Option.some.injEq] at hp
      exact ⟨n, by simp [hn], hp ▸ made⟩
  · have before := hb.operators.imp fun _ _ => Node.Operates.extends ext
    rw [List.filter_append, List.filter_singleton]
    rcases h.operators with ⟨hn, same⟩ | ⟨hn, o, ho, made⟩
    · simpa [hn, same] using before
    · rw [hn, ho]
      exact List.rel_append before (.cons made .nil)

end

/-! ### Chains -/

/-- The query and the ledger are what the first node and the others make of a chain, in a build at a
depth. -/
structure Chain.Image (ids : Nat → SourceId) (settings : Settings) (depth : UInt32) (chain : Chain)
    (first : Node) (rest : List Node) (q : Query) (l : Ledger) : Prop where
  /-- There is one record for each node. -/
  records : l.records.map Prod.fst = chain.nodes.map Node.id
  /-- The nodes have different numbers. -/
  distinct : (chain.nodes.map Node.id).Nodup
  /-- The first node makes the main from clause. -/
  begins : first.Begins ids settings depth q.source q.generator
  /-- It is recorded with the position of that clause and its source. -/
  recorded : l.record? first.id =
    some ⟨some .main, some ⟨q.source.id, q.source.item.name, q.source.item.type⟩⟩
  /-- The groups hold each node that has a place in the body once. -/
  nodes : (layout rest).flatMap Group.nodes = rest.filter fun n => n.operation.inBody
  /-- There are as many groups as clauses. -/
  clauses : (layout rest).length = q.body.length
  /-- Each group makes the clause at its index, and its nodes are recorded with that clause. -/
  groups : ∀ (i : Nat) (g : Group) (c : Clause), (layout rest)[i]? = some g → q.body[i]? = some c →
    g.Makes chain l ids settings depth i c ∧
      ∀ n ∈ g.nodes, ∃ r, l.record? n.id = some r ∧ c.Recorded i r
  /-- Of the other nodes nothing is recorded but that they were applied. -/
  others : ∀ n ∈ rest, n.operation.inBody = false → l.record? n.id = some {}
  /-- The last node that says what the query yields makes its end. -/
  terminal : ∃ n p t, (rest.filter fun n => n.operation.projects).getLast? = some n ∧
    n.Projects chain l p ∧ p.Ends (.before q.body.length) t ∧ q.terminal = some t
  /-- Each node that applies to the result makes an operator. -/
  operators : List.Forall₂ (Node.Operates chain l) (rest.filter fun n => n.operation.onResult)
    q.operators
  /-- The query has the result type of the chain. -/
  resultType : q.resultType = chain.resultType

section

variable {ids : Nat → SourceId} {settings : Settings} {depth : UInt32} {chain : Chain}
  {first n : Node} {rest : List Node} {q : Query} {l : Ledger}

/-- Every clause of the body is made by a group. -/
theorem Chain.Image.exists_group (h : chain.Image ids settings depth first rest q l) {i : Nat}
    {c : Clause} (hc : q.body[i]? = some c) :
    ∃ g : Group, g.Makes chain l ids settings depth i c := by
  have hi : i < (layout rest).length := by
    rw [h.clauses]
    exact (List.getElem?_eq_some_iff.mp hc).1
  exact ⟨_, (h.groups i _ c (List.getElem?_eq_getElem hi) hc).1⟩

/-- Every node with a place in the body is in the group that makes the clause recorded for it. -/
theorem Chain.Image.exists_clause (h : chain.Image ids settings depth first rest q l)
    (hn : n ∈ rest) (placed : n.operation.inBody = true) :
    ∃ (i : Nat) (g : Group) (c : Clause), n ∈ g.nodes ∧ q.body[i]? = some c ∧
      g.Makes chain l ids settings depth i c ∧
      l.record? n.id = some ⟨some (.body i), c.source?.map Source.ref⟩ := by
  have hm : n ∈ (layout rest).flatMap Group.nodes := by
    rw [h.nodes]
    exact List.mem_filter.mpr ⟨hn, placed⟩
  obtain ⟨g, hg, hgn⟩ := List.mem_flatMap.mp hm
  obtain ⟨i, hi, hgi⟩ := List.getElem_of_mem hg
  have hlt : i < q.body.length := h.clauses ▸ hi
  have hc := List.getElem?_eq_getElem hlt
  obtain ⟨makes, recorded⟩ := h.groups i g _ (List.getElem?_eq_some_iff.mpr ⟨hi, hgi⟩) hc
  obtain ⟨r, hr, is⟩ := recorded n hgn
  exact ⟨i, g, _, hgn, hc, makes, Clause.recorded_iff.mp is ▸ hr⟩

end

theorem Chain.Linked.distinct {c : Chain} (h : c.Linked) : (c.nodes.map Node.id).Nodup := by
  have number : ∀ (i : Nat) (hi : i < (c.nodes.map Node.id).length),
      (c.nodes.map Node.id)[i] = ⟨i⟩ := by
    intro i hi
    rw [List.getElem_map]
    exact h.numbered i _ (List.getElem?_eq_getElem (by simpa using hi))
  refine List.pairwise_iff_getElem.mpr fun i j hi hj hij heq => ?_
  rw [number i hi, number j hj, NodeId.mk.injEq] at heq
  exact Nat.ne_of_lt hij heq

theorem Chain.Built.image {ids : Nat → SourceId} {settings : Settings} {depth : UInt32}
    {chain : Chain} {k k' : Nat} {q : Query} {l : Ledger}
    (h : chain.Built ids settings depth k q l k') :
    ∃ first rest, chain.nodes = first :: rest ∧
      chain.Image ids settings depth first rest q l := by
  obtain @⟨first, rest, b, b', p, _, nodes, linked, start, steps, projects, settled⟩ := h
  have hb : b'.Imaged ids settings depth chain first rest :=
    steps.invariant [] (I := fun done b => b.Imaged ids settings depth chain first done)
      (fun _ _ _ _ _ hI fresh step => step.imaged hI fresh) start.imaged
  refine ⟨first, rest, nodes, ?_⟩
  exact {
    records := nodes ▸ hb.records
    distinct := (Chain.linked_of_checkLinks linked).distinct
    begins := hb.begins
    recorded := hb.recorded
    nodes := layout_nodes rest
    clauses := hb.laid.length
    groups := fun i g c hg hc =>
      have he := hb.laid.explains i g c hg hc
      ⟨he.makes (Ledger.not_waitsAt settled i),
        fun n hn => ⟨_, he.recorded n hn, Clause.recorded_iff.mpr rfl⟩⟩
    others := hb.others
    terminal := by
      obtain ⟨n, hn, made⟩ := hb.projection p projects
      exact ⟨n, p, _, hn, made, p.ends _, rfl⟩
    operators := hb.operators
    resultType := hb.resultType }

/-- **The query of a chain is its image**: a query that is built has what the nodes of the chain
make, in their order, and nothing else, and the ledger says of each node where that is. Whatever was
resolved on the way is what the ledger of the finished build still resolves it to. -/
theorem toQuery_image {ids : Nat → SourceId} {settings : Settings} {chain : Chain} {k k' : Nat}
    {q : Query} {l : Ledger} (h : Runs (chain.toQuery ids settings) k (q, l) k') :
    ∃ first rest, chain.nodes = first :: rest ∧ chain.Image ids settings 0 first rest q l :=
  (Chain.build_runs_iff.mp h).image

namespace Sample

/-- The name of a cook. -/
def name : Expr := .member (.param cook) "Name" (Ty.plain "string")

/-- A kitchen by the name of its galley. -/
def galley : Param := ⟨"k", Ty.plain "Kitchen"⟩

/-- A duty of a cook. -/
def duty : Param := ⟨"d", Ty.plain "Duty"⟩

/-- The duties of the cooks of each kitchen, those of assistants last, and by name among
themselves. -/
def roster : Chain where
  nodes := [
    ⟨⟨0⟩, none, "k", "", .mainSource (.external "Kitchen[]" (Ty.array (Ty.plain "Kitchen")))⟩,
    ⟨⟨1⟩, some ⟨0⟩, "c", "",
      .selectMany ⟨[galley], .member (.param galley) "Cooks" (Ty.array cook.type)⟩ none⟩,
    ⟨⟨2⟩, some ⟨1⟩, "c", "", .orderBy ⟨[cook], assistant⟩ .ascending false⟩,
    ⟨⟨3⟩, some ⟨2⟩, "c", "", .orderBy ⟨[cook], name⟩ .ascending true⟩,
    ⟨⟨4⟩, some ⟨3⟩, "c", "", .select ⟨[cook], .param cook⟩⟩,
    ⟨⟨5⟩, some ⟨4⟩, "d", "",
      .selectMany ⟨[cook], .convert (.param cook) (Ty.array duty.type)⟩
        (some ⟨[cook, duty], .param duty⟩)⟩]
  resultType := Ty.queryable duty.type

end Sample

theorem toQuery_image_roster : ∃ q l k first rest,
    Runs (Sample.roster.toQuery SourceId.countUp {}) 0 (q, l) k ∧
      Sample.roster.nodes = first :: rest ∧
      Sample.roster.Image SourceId.countUp {} 0 first rest q l := by
  obtain ⟨⟨q, l⟩, k, h⟩ := exists_runs
    (x := Sample.roster.toQuery SourceId.countUp {}) (s := 0) (by decide +kernel)
  obtain ⟨first, rest, nodes, image⟩ := toQuery_image h
  exact ⟨q, l, k, first, rest, h, nodes, image⟩

/-- The two keys of the roster belong to one clause. -/
example : (layout Sample.roster.nodes.tail).map (fun g => g.nodes.map fun n => n.id.value) =
    [[1], [2, 3], [5]] := rfl

/-- The cooks are members of a kitchen. The duties of a cook are not written as members. -/
example : yields (Sample.roster.toQuery SourceId.countUp {}) 0 (fun (q, _) =>
    match q.body with
    | [.fromExpr .member _ _ (some _) _, .orderBy [_, _] _, .fromExpr .additional _ _ (some _) _] =>
      true
    | _ => false) = true := by
  decide +kernel

end QueryFold
