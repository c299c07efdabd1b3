import QueryFold.Proofs.Chain.Nesting

/-!
# References in what is built

If a chain refers to no sources itself, then every reference in the query that is built from
it was put there by resolution, and so refers to a source of the nodes that were applied
before. That makes it visible where it stands, but for one place: a from clause that waits
gets its projection from a later selector, which may speak of sources that came in between.
`Query.Tidy` says that no projection does; the queries of such chains are grounded exactly if
they are tidy (`Chain.Built.grounded`, `Query.Grounded.timely`).
-/

namespace QueryFold

/-! ### Expressions but projections -/

/-- The expressions of a clause without its projection. -/
def Clause.basis : Clause → List Expr
  | .fromExpr _ _ generator _ _ => [generator]
  | .fromQuery _ _ _ _ => []
  | .filter predicate _ => [predicate]
  | .define _ value _ => [value]
  | .orderBy keys _ => keys.map SortKey.key

namespace Clause

variable {c c' : Clause} {e : Expr}

theorem mem_expressions_iff : e ∈ c.expressions ↔ e ∈ c.basis ∨ c.projection? = some e := by
  cases c <;> simp [expressions, basis, projection?, eq_comm]

theorem basis_attach (position previous : Position) (c : Clause) :
    (c.attach position previous).basis = c.basis := by
  cases c <;> simp [attach, basis]

theorem basis_of_withProjection? (h : c.withProjection? e = some c') : c'.basis = c.basis := by
  cases c <;> cases h <;> rfl

theorem basis_of_withKey? {position : Position} {k : SortKey} (h : c.withKey? position k = some c') :
    c'.basis = c.basis ++ [k.key] := by
  cases c <;> cases h
  simp [basis]

end Clause

/-- The expressions of a projection. -/
def Projection.expressions : Projection → List Expr
  | select selector => [selector]
  | group key element => [key, element]

theorem Projection.expressions_terminal (p : Projection) : p.terminal.expressions = p.expressions := by
  cases p <;> rfl

namespace Query

theorem visible_addClause {outer : List SourceId} {q : Query} {c : Clause} {i : Nat}
    (h : i ≤ q.body.length) : (q.addClause c).visible outer i = q.visible outer i := by
  simp only [visible, addClause]
  rw [List.take_append_of_le_length h]

theorem visible_set {outer : List SourceId} {q : Query} {i : Nat} {c c' : Clause}
    (hc : q.body[i]? = some c) (alike : c.Alike c') (j : Nat) :
    ({ q with body := q.body.set i c' } : Query).visible outer j = q.visible outer j := by
  simp only [visible, List.take_set]
  by_cases hij : i < j
  · rw [introduced_set (by rwa [List.getElem?_take_of_lt hij]) alike]
  · rw [List.set_eq_of_length_le (by simp; omega)]

end Query

/-! ### The invariant -/

/-- The references in a build are to sources of its query: in a clause to those up to the clause,
but for its projection. -/
structure Build.Grounded (b : Build) : Prop where
  generator : RefersWithin [] b.query.generator
  items : ∀ id r, b.ledger.item id = .ok r → r.source ∈ b.query.sourceIds
  clauses : ∀ (i : Nat) (c : Clause), b.query.body[i]? = some c → ∀ e ∈ c.basis,
    RefersWithin (b.query.visible [] (i + 1)) e
  projection : ∀ p, b.ledger.projection = some p → ∀ e ∈ p.expressions,
    RefersWithin b.query.sourceIds e
  operators : ∀ op ∈ b.query.operators, ∀ e ∈ op.expressions, RefersWithin b.query.sourceIds e

namespace Build.Grounded

variable {b : Build}

/-- A clause may be added that refers to the sources so far and to its own. -/
theorem addClause (hb : b.Grounded) {c : Clause} {l : Ledger} {k : Nat}
    (basis : ∀ e ∈ c.basis, RefersWithin (b.query.addClause c).sourceIds e)
    (items : ∀ id r, l.item id = .ok r → b.ledger.item id = .ok r ∨ r.source ∈ introduced [c])
    (projection : ∀ p, l.projection = some p → ∀ e ∈ p.expressions,
      RefersWithin (b.query.addClause c).sourceIds e) :
    Build.Grounded ⟨b.query.addClause c, l, k⟩ where
  generator := hb.generator
  items := by
    intro id r hr
    rw [Query.sourceIds_addClause, List.mem_append]
    exact (items id r hr).imp_left (hb.items id r)
  clauses := by
    intro i d hd e he
    rcases Query.getElem?_addClause.mp hd with hd | ⟨rfl, rfl⟩
    · have hi := (List.getElem?_eq_some_iff.mp hd).1
      rw [Query.visible_addClause (by omega)]
      exact hb.clauses i d hd e he
    · rw [Clause.basis_attach] at he
      have := Query.visible_length [] (b.query.addClause c)
      rw [Query.length_addClause, List.nil_append] at this
      exact this ▸ basis e he
  projection := projection
  operators := by
    intro op hop e he
    rw [Query.sourceIds_addClause]
    exact (hb.operators op hop e he).subset (List.subset_append_left _ _)

/-- A clause may be changed if it refers to the sources up to it. -/
theorem set (hb : b.Grounded) {i : Nat} {c c' : Clause} {l : Ledger}
    (hc : b.query.body[i]? = some c) (alike : c.Alike c')
    (basis : ∀ e ∈ c'.basis, e ∈ c.basis ∨ RefersWithin (b.query.visible [] (i + 1)) e)
    (items : ∀ id r, l.item id = .ok r → b.ledger.item id = .ok r)
    (projection : ∀ p, l.projection = some p → ∀ e ∈ p.expressions,
      RefersWithin b.query.sourceIds e) :
    Build.Grounded ⟨{ b.query with body := b.query.body.set i c' }, l, b.drawn⟩ := by
  have hids : ({ b.query with body := b.query.body.set i c' } : Query).sourceIds =
      b.query.sourceIds := by
    simp only [Query.sourceIds, Query.introduced_set hc alike]
  refine ⟨hb.generator, fun id r hr => hids ▸ hb.items id r (items id r hr), ?_, hids ▸ projection,
    hids ▸ hb.operators⟩
  intro j d hd e he
  rw [Query.visible_set hc alike]
  rw [List.getElem?_set] at hd
  split_ifs at hd with hij hi
  · cases hd
    subst hij
    exact (basis e he).elim (hb.clauses i c hc e) id
  · exact hb.clauses j d hd e he

end Build.Grounded

/-! ### Steps -/

namespace Node.Step

variable {ids : Nat → SourceId} {nested : Nested} {chain : Chain} {n : Node} {b b' : Build}

theorem basis_fromClause {s : Source} {e e' : Expr} (h : e' ∈ (fromClause s e).basis) : e' = e := by
  cases e <;> simp_all [fromClause, Clause.basis]

theorem basis_projectedFrom {s : Source} {e e' projection : Expr}
    (h : e' ∈ (projectedFrom s e projection).basis) : e' = e := by
  rw [Clause.basis_of_withProjection? (withProjection?_fromClause s e projection)] at h
  exact basis_fromClause h

/-- The records after a clause is added name its source and what was there. -/
theorem items_added {c : Clause} {id : NodeId} {r : ItemRef}
    (h : (b.added n c b.drawn).ledger.item id = .ok r) :
    b.ledger.item id = .ok r ∨ r.source ∈ introduced [c] := by
  refine (Ledger.item_noted h).imp_right ?_
  rintro ⟨-, hr⟩
  cases hs : c.source? with
  | none => simp [hs] at hr
  | some s =>
    rw [hs, Option.map_some, Option.some.injEq] at hr
    rw [introduced_of_source? hs, ← hr]
    exact List.mem_singleton_self _

theorem items_noted {l : Ledger} {r : NodeRecord} (hr : r.item = none) {id id' : NodeId}
    {i : ItemRef} (h : (l.noted id r).item id' = .ok i) : l.item id' = .ok i := by
  refine (Ledger.item_noted h).resolve_right ?_
  rintro ⟨-, hi⟩
  rw [hr] at hi
  cases hi

/-- **Steps keep references grounded**, if the chain refers to no sources itself. -/
theorem grounded (bare : ∀ m ∈ chain.nodes, ∀ e ∈ m.operation.expressions, RefersWithin [] e)
    (mem : n ∈ chain.nodes) (hb : b.Grounded) (h : n.Step ids nested chain b b') : b'.Grounded := by
  have own : ∀ m ∈ chain.nodes, ∀ e ∈ m.operation.expressions, RefersWithin b.query.sourceIds e :=
    fun m hm e he => (bare m hm e he).subset (List.nil_subset _)
  have items : ∀ id r, b.ledger.item id = .ok r → RefersWithin b.query.sourceIds (.item r) := by
    intro id r hr id' h'
    rw [refersTo_item_iff] at h'
    exact h' ▸ hb.items id r hr
  have resolved : ∀ {link : NodeId} {l : Lambda} {e : Expr},
      chain.resolveLambda b.ledger link l = .ok e → l.body ∈ n.operation.expressions →
        RefersWithin b.query.sourceIds e :=
    fun hr hm => Chain.resolveLambda_inherits hr (inherited_refersWithin _) items own
      (own n mem _ hm)
  have wider : ∀ {c : Clause} {e : Expr}, RefersWithin b.query.sourceIds e →
      RefersWithin (b.query.addClause c).sourceIds e := by
    intro c e he
    rw [Query.sourceIds_addClause]
    exact he.subset (List.subset_append_left _ _)
  have projected : ∀ {c : Clause} p, b.ledger.projection = some p → ∀ e ∈ p.expressions,
      RefersWithin (b.query.addClause c).sourceIds e :=
    fun p hp e he => wider (hb.projection p hp e he)
  cases h with
  | @mainSource e _ op =>
    refine hb.addClause (fun e' he' => ?_) (fun id r hr => items_added hr) projected
    obtain rfl : e' = e := by simpa [Clause.basis] using he'
    exact wider (own n mem _ (by rw [op]; exact List.mem_singleton_self _))
  | subQuerySource =>
    exact hb.addClause (by simp [Clause.basis]) (fun id r hr => items_added hr) projected
  | selectMany op _ _ hr =>
    refine hb.addClause (fun e' he' => ?_) (fun id r hr => items_added hr) projected
    obtain rfl := basis_fromClause he'
    exact wider (resolved hr (by rw [op]; simp [Operation.expressions]))
  | @selectManyResult _ selector link e projection _ outer inner op _ _ _ hr _ _ _ result =>
    refine hb.addClause (fun e' he' => ?_) (fun id r hr => items_added hr) ?_
    · obtain rfl := basis_projectedFrom he'
      exact wider (resolved hr (by rw [op]; simp [Operation.expressions]))
    · rintro p hp e' he'
      cases hp
      obtain rfl := List.mem_singleton.mp he'
      refine resolveResult_inherits result (inherited_refersWithin _) (fun id r hr => ?_)
        (fun m hm e he => wider (own m hm e he))
        (wider (own n mem _ (by rw [op]; simp [Operation.expressions])))
      rcases Ledger.item_noted hr with hr | ⟨-, hr⟩
      · exact wider (items id r hr)
      · rintro id' h'
        rw [refersTo_item_iff] at h'
        rw [Query.sourceIds_addClause, introduced_of_source? (source?_projectedFrom _ _ _),
          ← h', ← Option.some.inj hr]
        exact List.mem_append_right _ (List.mem_singleton_self _)
  | filter op _ _ hr =>
    refine hb.addClause (fun e' he' => ?_) (fun id r hr => items_added hr) projected
    obtain rfl := List.mem_singleton.mp he'
    exact wider (resolved hr (by rw [op]; simp [Operation.expressions]))
  | define op _ _ hr =>
    refine hb.addClause (fun e' he' => ?_) (fun id r hr => items_added hr) projected
    obtain rfl := List.mem_singleton.mp he'
    exact wider (resolved hr (by rw [op]; simp [Operation.expressions]))
  | orderBy op _ _ hr =>
    refine hb.addClause (fun e' he' => ?_) (fun id r hr => items_added hr) projected
    obtain rfl := List.mem_singleton.mp he'
    exact wider (resolved hr (by rw [op]; simp [Operation.expressions]))
  | thenBy op _ _ hr joins extended =>
    obtain ⟨i, c, c', rfl, hc, hc', rfl⟩ := Query.modifyClause_eq_ok_iff.mp extended
    refine hb.set hc (Clause.alike_of_withKey? hc') (fun e he => ?_)
      (fun id r hr => items_noted rfl hr) hb.projection
    rw [Clause.basis_of_withKey? hc', List.mem_append, List.mem_singleton] at he
    refine he.imp_right ?_
    rintro rfl
    obtain ⟨j, hj, hlast, -⟩ := lastOrderBy?_eq_some_iff.mp joins
    cases hj
    have hv := Query.visible_length [] b.query
    rw [List.nil_append, ← hlast] at hv
    exact hv ▸ resolved hr (by rw [op]; simp [Operation.expressions])
  | @select _ _ e _ op _ _ hr filled =>
    have registered : ∀ p, some (Projection.select e) = some p → ∀ e ∈ p.expressions,
        RefersWithin b.query.sourceIds e := by
      rintro p hp e' he'
      cases hp
      obtain rfl := List.mem_singleton.mp he'
      exact resolved hr (by rw [op]; simp [Operation.expressions])
    rcases Query.fill_eq_ok_iff.mp filled with ⟨-, rfl⟩ | ⟨o, i, c, c', -, -, hc, hc', rfl⟩
    · exact ⟨hb.generator, fun id r hr => hb.items id r (items_noted rfl hr), hb.clauses, registered,
        hb.operators⟩
    · exact hb.set hc (Clause.alike_of_withProjection? hc')
        (fun e he => .inl (Clause.basis_of_withProjection? hc' ▸ he))
        (fun id r hr => items_noted rfl hr) registered
  | groupBy op _ _ _ hr hg =>
    refine ⟨hb.generator, fun id r hr => hb.items id r (items_noted rfl hr), hb.clauses, ?_,
      hb.operators⟩
    rintro p hp e he
    cases hp
    rw [Projection.expressions, List.mem_cons, List.mem_singleton] at he
    rcases he with rfl | rfl
    · exact resolved hr (by rw [op]; simp [Operation.expressions])
    · refine groupElement_inherits hg (inherited_refersWithin _) items own fun selector hs => ?_
      exact own n mem _ (by rw [op, hs]; simp [Operation.expressions])
  | cast | ofType =>
    refine ⟨hb.generator, fun id r hr => hb.items id r (items_noted rfl hr), hb.clauses,
      hb.projection, fun o ho e he => ?_⟩
    rcases List.mem_append.mp ho with ho | ho
    · exact hb.operators o ho e he
    · rw [List.mem_singleton.mp ho] at he
      cases he
  | resultOperator op _ _ hr =>
    refine ⟨hb.generator, fun id r hr => hb.items id r (items_noted rfl hr), hb.clauses,
      hb.projection, fun o ho e he => ?_⟩
    rcases List.mem_append.mp ho with ho | ho
    · exact hb.operators o ho e he
    · rw [List.mem_singleton.mp ho] at he
      rcases ResultOp.replaceM_eq_ok_iff.mp hr with ⟨o', arg, e', rfl, ha, rfl⟩ | ⟨hn, rfl⟩
      · obtain rfl := List.mem_singleton.mp he
        have harg := own n mem arg (by rw [op]; exact List.mem_singleton_self _)
        refine resolveArgument_inherits ha (inherited_refersWithin _) items own harg ?_
        rintro ps body rfl id hid
        exact harg id (.child List.mem_cons_self hid)
      · rw [hn] at he
        cases he

end Node.Step

/-! ### Chains -/

/-- An expression that refers to no source and in which no query is written as a value. -/
structure Expr.Bare (e : Expr) : Prop where
  plain : ¬ HoldsQuery e
  closed : RefersWithin [] e

theorem Expr.bare_iff_children {e : Expr} (hq : ∀ q, e ≠ .subQuery q) (hi : ∀ r, e ≠ .item r) :
    e.Bare ↔ ∀ c ∈ e.children, c.Bare := by
  constructor
  · rintro ⟨plain, closed⟩ c hc
    exact ⟨fun h => plain (.child hc h), fun id h => closed id (.child hc h)⟩
  · refine fun h => ⟨not_holdsQuery_iff.mpr ⟨hq, fun c hc => (h c hc).plain⟩, fun id hid => ?_⟩
    obtain ⟨c, hc, h'⟩ := (refersTo_iff_children hi).mp hid
    exact (h c hc).closed id h'

/-- The projections of a query refer to the sources up to their from clauses only. -/
def Query.Timely (q : Query) : Prop :=
  ∀ (i : Nat) (c : Clause) (e : Expr), q.body[i]? = some c → c.projection? = some e →
    RefersWithin (q.visible [] (i + 1)) e

/-- No projection refers to a source that comes after its from clause, in the query itself or in one
that is nested in it. -/
def Query.Tidy (q : Query) : Prop := ∀ q' : Query, q'.Within q → q'.Timely

theorem Query.tidy_iff {q : Query} :
    q.Tidy ↔ q.Timely ∧ ∀ inner, q.Nests inner → inner.Tidy := by
  constructor
  · exact fun h => ⟨h q .self, fun inner hn q' hw => h q' (.nested hn hw)⟩
  · rintro ⟨hq, hn⟩ q' hw
    cases hw with
    | self => exact hq
    | nested hi hw => exact hn _ hi q' hw

theorem Query.Grounded.timely {q : Query} (h : q.Grounded []) : q.Timely := by
  cases h with
  | intro _ clauses _ _ _ =>
    exact fun i c e hc he => clauses i c hc e (Clause.mem_expressions_iff.mpr (.inr he))

namespace Chain

theorem Throughout.mono {P Q : Expr → Prop} (h : ∀ e, P e → Q e) {c : Chain}
    (hc : c.Throughout P) : c.Throughout Q := by
  induction hc with
  | intro own _ ih => exact .intro (fun n hn e he => h e (own n hn e he)) ih

variable {ids : Nat → SourceId} {settings : Settings} {depth : UInt32} {chain : Chain} {k k' : Nat}
  {q : Query} {l : Ledger}

/-- Before it ends, the query of a bare chain is grounded but for its projections. -/
theorem grounded_of_steps {first : Node} {rest : List Node} {b b' : Build}
    (bare : ∀ n ∈ chain.nodes, ∀ e ∈ n.operation.expressions, RefersWithin [] e)
    (nodes : chain.nodes = first :: rest)
    (start : first.Start ids (first.nested ids) settings depth chain.resultType k b)
    (steps : NodeSteps ids chain rest b b') : b'.Grounded := by
  refine steps.invariant [] (I := fun _ b => b.Grounded)
    (fun _ n _ _ hm hI _ step => step.grounded bare (nodes ▸ List.mem_cons_of_mem _ hm) hI) ?_
  have own := bare first (nodes ▸ List.mem_cons_self)
  have items : ∀ {s : Source} {id : NodeId} {r : ItemRef},
      ((Ledger.start settings depth).noted first.id ⟨some .main, some s.ref⟩).item id = .ok r →
        r.source ∈ [s.id] := by
    intro s id r hr
    rcases Ledger.item_noted hr with hr | ⟨-, hr⟩
    · obtain ⟨_, h, -⟩ := Ledger.item_eq_ok_iff.mp hr
      cases h
    · rw [← Option.some.inj hr]
      exact List.mem_singleton_self _
  cases start with
  | @mainSource e _ op =>
    exact ⟨own e (by rw [op]; exact List.mem_singleton_self _), fun id r hr => items hr,
      by simp [Query.start], by simp [Ledger.start, Ledger.noted], by simp [Query.start]⟩
  | subQuerySource op =>
    refine ⟨fun id hid => ?_, fun id r hr => items hr, by simp [Query.start],
      by simp [Ledger.start, Ledger.noted], by simp [Query.start]⟩
    rw [refersTo_iff_children (by simp [Query.start])] at hid
    simp [Query.start, Expr.children] at hid

/-- The query of a bare chain is grounded if it is tidy. -/
theorem Built.grounded (bare : chain.Throughout Expr.Bare)
    (h : chain.Built ids settings depth k q l k') (tidy : q.Tidy) : q.Grounded [] := by
  induction chain using Chain.induction generalizing settings depth k q l k' with
  | step chain ih =>
    have nested : ∀ (i : Nat) (c : Clause) (q' : Query), q.body[i]? = some c →
        c.query? = some q' → q'.Grounded (q.visible [] (i + 1)) := by
      intro i c q' hc hq
      have hn : q.Nests q' := .inl ⟨c, List.mem_of_getElem? hc, hq⟩
      obtain ⟨chain', _, _, _, _, _, hi, hb⟩ := h.nests (bare.mono fun _ he => he.plain) hn
      obtain ⟨_, inner⟩ := bare
      exact (ih chain' hi (inner chain' hi) hb ((Query.tidy_iff.mp tidy).2 q' hn)).subset
        (List.nil_subset _)
    cases h with
    | @intro first rest b b' p _ nodes _ start steps projects =>
      obtain ⟨own, -⟩ := bare
      have hb := grounded_of_steps (fun n hn e he => (own n hn e he).closed) nodes start steps
      have hv := Query.visible_length [] b'.query
      rw [List.nil_append] at hv
      refine .intro hb.generator (fun i c hc e he => ?_) nested ?_ ?_
      · exact (Clause.mem_expressions_iff.mp he).elim (hb.clauses i c hc e)
          (tidy _ .self i c e hc)
      · rintro t ht e he
        cases ht
        rw [Terminal.expressions_attach, Projection.expressions_terminal] at he
        exact hv ▸ hb.projection p projects e he
      · exact fun o ho e he => hv ▸ hb.operators o ho e he

end Chain

end QueryFold
