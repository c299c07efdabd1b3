import QueryFold.Proofs.Chain.Built
import QueryFold.Proofs.Chain.Resolution
import QueryFold.Proofs.Query.Growth

/-!
# Builds make sound queries

Every identity that a query holds was drawn while the query was built. If the supply never
gives an identity twice, a query is therefore sound among any sources whose identities were
drawn before or afterwards (`Query.SoundApart`), which is what the enclosing query needs.

While the nodes of a chain are applied, the query is sound but for its end, and for the
projection of the one from clause that waits for it: `Query.Growing` and `Build.Waits` are
the two parts of this invariant. What makes it fail is a query that is written as a value in
an expression: iterating over it puts it into a clause as it is.
-/

namespace QueryFold

/-! ### Identities apart -/

/-- None of the identities that are drawn from the count `lo` up to the count `hi` is in a list. -/
def Avoids (ids : Nat → SourceId) (lo hi : Nat) (outer : List SourceId) : Prop :=
  ∀ j, lo ≤ j → j < hi → ids j ∉ outer

/-- A query that is sound wherever none of the identities that were drawn for it is visible. -/
def Query.SoundApart (ids : Nat → SourceId) (lo hi : Nat) (q : Query) : Prop :=
  ∀ outer, Avoids ids lo hi outer → q.Sound outer

/-- The identities of a list were drawn from the count `lo` up to the count `hi`. -/
def DrawnIn (ids : Nat → SourceId) (lo hi : Nat) (l : List SourceId) : Prop :=
  ∀ id ∈ l, ∃ j, lo ≤ j ∧ j < hi ∧ id = ids j

section

variable {ids : Nat → SourceId} {lo hi lo' hi' : Nat} {l outer : List SourceId}

theorem DrawnIn.mono (h : DrawnIn ids lo hi l) (hl : lo' ≤ lo) (hh : hi ≤ hi') :
    DrawnIn ids lo' hi' l := by
  intro id hid
  obtain ⟨j, h₁, h₂, rfl⟩ := h id hid
  exact ⟨j, by omega, by omega, rfl⟩

theorem DrawnIn.append {l' : List SourceId} (h : DrawnIn ids lo hi l) (h' : DrawnIn ids lo hi l') :
    DrawnIn ids lo hi (l ++ l') := by
  intro id hid
  exact (List.mem_append.mp hid).elim (h id) (h' id)

theorem Avoids.mono (h : Avoids ids lo hi outer) (hl : lo ≤ lo') (hh : hi' ≤ hi) :
    Avoids ids lo' hi' outer :=
  fun j h₁ h₂ => h j (by omega) (by omega)

theorem Avoids.append {outer' : List SourceId} (h : Avoids ids lo hi outer)
    (h' : Avoids ids lo hi outer') : Avoids ids lo hi (outer ++ outer') := by
  intro j h₁ h₂ hm
  exact (List.mem_append.mp hm).elim (h j h₁ h₂) (h' j h₁ h₂)

theorem Avoids.not_mem (h : Avoids ids lo hi outer) (hl : DrawnIn ids lo hi l) {id : SourceId}
    (hid : id ∈ l) : id ∉ outer := by
  obtain ⟨j, h₁, h₂, rfl⟩ := hl id hid
  exact h j h₁ h₂

/-- Identities drawn before or afterwards are different ones. -/
theorem DrawnIn.avoids (inj : Function.Injective ids) (h : DrawnIn ids lo' hi' l)
    (apart : hi' ≤ lo ∨ hi ≤ lo') : Avoids ids lo hi l := by
  intro j h₁ h₂ hm
  obtain ⟨j', h₁', h₂', he⟩ := h _ hm
  have := inj he
  omega

end

/-! ### Queries under construction -/

/-- A query that is sound so far, but for its end and its projections; its identities were drawn
from the count `lo` up to the count `hi`. -/
structure Query.Growing (ids : Nat → SourceId) (lo hi : Nat) (q : Query) : Prop where
  drawn : DrawnIn ids lo hi q.sourceIds
  distinct : q.sourceIds.Nodup
  stands : ∀ (i : Nat) (c : Clause), q.body[i]? = some c → c.StandsAt i
  nested : ∀ c ∈ q.body, ∀ q', c.query? = some q' → ∀ outer, Avoids ids lo hi outer →
    q'.Sound (outer ++ q.sourceIds)
  unended : q.terminal = none

namespace Query.Growing

variable {ids : Nat → SourceId} {lo hi hi' : Nat} {q q' : Query}

theorem start (s : Source) (e : Expr) (resultType : Ty) (h : s.id = ids hi) (hl : lo ≤ hi) :
    (Query.start s e resultType).Growing ids lo (hi + 1) where
  drawn := by
    intro id hid
    obtain rfl : id = s.id := by simpa [Query.start, sourceIds] using hid
    exact ⟨hi, hl, by omega, h⟩
  distinct := by simp [Query.start, sourceIds]
  stands := by simp [Query.start]
  nested := by simp [Query.start]
  unended := rfl

/-- A clause may be added if its source is new and its nested query is sound there. -/
theorem addClause (inj : Function.Injective ids) (h : q.Growing ids lo hi) {c : Clause}
    (hl : lo ≤ hi) (hh : hi ≤ hi') (new : DrawnIn ids hi hi' (introduced [c]))
    (inner : ∀ q', c.query? = some q' → ∀ outer, Avoids ids lo hi' outer →
      q'.Sound (outer ++ (q.addClause c).sourceIds)) :
    (q.addClause c).Growing ids lo hi' where
  drawn := by
    rw [sourceIds_addClause]
    exact (h.drawn.mono (Nat.le_refl _) hh).append (new.mono hl (Nat.le_refl _))
  distinct := by
    rw [sourceIds_addClause, List.nodup_append]
    refine ⟨h.distinct, ?_, ?_⟩
    · cases hs : c.source? with
      | none => simp [introduced_of_source?_eq_none hs]
      | some s => simp [introduced_of_source? hs]
    · rintro id hid _ hid' rfl
      have apart : Avoids ids lo hi (introduced [c]) := new.avoids inj (.inr (Nat.le_refl _))
      exact apart.not_mem h.drawn hid hid'
  stands := by
    intro i d hd
    rcases getElem?_addClause.mp hd with hd | ⟨rfl, rfl⟩
    · exact h.stands i d hd
    · exact Clause.standsAt_attach _ c
  nested := by
    intro d hd q' hq' outer ho
    rw [Query.addClause, List.mem_append, List.mem_singleton] at hd
    rcases hd with hd | rfl
    · rw [sourceIds_addClause]
      have := h.nested d hd q' hq' (outer ++ introduced [c])
        ((ho.mono (Nat.le_refl _) hh).append (new.avoids inj (.inr (Nat.le_refl _))))
      refine this.subset fun id hid => ?_
      simp only [List.mem_append] at hid ⊢
      tauto
    · exact inner q' ((Clause.alike_attach _ _ c).query? ▸ hq') outer ho
  unended := h.unended

/-- A clause may be changed in its expressions. -/
theorem set (h : q.Growing ids lo hi) {i : Nat} {c c' : Clause} (hc : q.body[i]? = some c)
    (alike : c.Alike c') (hs : c'.StandsAt i) :
    ({ q with body := q.body.set i c' } : Query).Growing ids lo hi := by
  have hids : ({ q with body := q.body.set i c' } : Query).sourceIds = q.sourceIds := by
    simp only [sourceIds, introduced_set hc alike]
  refine ⟨hids ▸ h.drawn, hids ▸ h.distinct, fun j d hd => ?_, fun d hd q' hq' => ?_, h.unended⟩
  · rw [List.getElem?_set] at hd
    split_ifs at hd with hij hi
    · cases hd
      exact hij ▸ hs
    · exact h.stands j d hd
  · rw [hids]
    rcases List.mem_or_eq_of_mem_set hd with hd | rfl
    · exact h.nested d hd q' hq'
    · exact h.nested c (List.mem_of_getElem? hc) q' (alike.query? ▸ hq')

/-- Once every from clause has its projection, the query may be ended. -/
theorem soundApart (h : q.Growing ids lo hi) (projected : ∀ c ∈ q.body, c.Projected)
    (t : Terminal) :
    ({ q with terminal := some (t.attach q.last) } : Query).SoundApart ids lo hi := by
  intro outer ho
  refine .intro (ho.not_mem h.drawn List.mem_cons_self) h.stands (fun i c s hc hs => ?_) projected
    (fun i c q' hc hq' => ?_) ⟨_, rfl, Terminal.previous_attach ..⟩
  · refine id_not_mem_visible h.distinct hc hs (ho.not_mem h.drawn ?_)
    refine List.mem_cons_of_mem _ (List.mem_map_of_mem ?_)
    exact List.mem_filterMap.mpr ⟨c, List.mem_of_getElem? hc, hs⟩
  · exact (h.nested c (List.mem_of_getElem? hc) q' hq' outer ho).subset
      (visible_subset_sourceIds outer q (i + 1))

end Query.Growing

/-! ### Steps -/

/-- What filling in a projection changes: nothing, or a clause that gets the projection. -/
theorem Query.fill_eq_ok_iff {q q' : Query} {o? : Option OpenFrom} {e : Expr} :
    q.fill o? e = .ok q' ↔ o? = none ∧ q' = q ∨
      ∃ o i c c', o? = some o ∧ o.clause = .body i ∧ q.body[i]? = some c ∧
        c.withProjection? e = some c' ∧ q' = { q with body := q.body.set i c' } := by
  cases o? with
  | none => simp [fill, eq_comm]
  | some o => simp [fill, setProjection, modifyClause_eq_ok_iff]

/-- A computation of nested queries draws identities for sound queries. -/
def Nested.Sound (ids : Nat → SourceId) (nested : Nested) : Prop :=
  ∀ settings depth k q k', Runs (nested settings depth) k q k' → k ≤ k' ∧ q.SoundApart ids k k'

namespace Node.Step

variable {ids : Nat → SourceId} {nested : Nested} {chain : Chain} {n : Node} {b b' : Build}

theorem drawn_le (hn : nested.Sound ids) (h : n.Step ids nested chain b b') :
    b.drawn ≤ b'.drawn := by
  cases h with
  | subQuerySource _ _ built _ _ _ => exact Nat.le_succ_of_le (hn _ _ _ _ _ built).1
  | mainSource | selectMany | selectManyResult | define => exact Nat.le_succ _
  | _ => exact Nat.le_refl _

theorem drawnIn_introduced {c : Clause} {s : Source} {k : Nat} (hs : c.source? = some s)
    (hid : s.id = ids k) : DrawnIn ids k (k + 1) (introduced [c]) := by
  intro id hm
  rw [introduced_of_source? hs, List.mem_singleton] at hm
  exact ⟨k, Nat.le_refl _, Nat.lt_succ_self _, hm.trans hid⟩

theorem query?_fromClause {s : Source} {e : Expr} (he : ¬ HoldsQuery e) :
    (fromClause s e).query? = none := by
  cases e with
  | subQuery q => exact absurd (.query q) he
  | _ => rfl

/-- The clause of a select-many has no nested query, since none is written as a value. -/
theorem query?_projectedFrom {s : Source} {e projection : Expr} (he : ¬ HoldsQuery e) :
    (projectedFrom s e projection).query? = none := by
  cases e with
  | subQuery q => exact absurd (.query q) he
  | _ => rfl

/-- Resolution puts in no query, if none is written as a value. -/
theorem resolved_plain (plain : ∀ m ∈ chain.nodes, ∀ e ∈ m.operation.expressions, ¬ HoldsQuery e)
    (mem : n ∈ chain.nodes) {l : Ledger} {link : NodeId} {lambda : Lambda} {e : Expr}
    (hr : chain.resolveLambda l link lambda = .ok e)
    (hm : lambda.body ∈ n.operation.expressions) : ¬ HoldsQuery e :=
  Chain.resolveLambda_inherits hr inherited_not_holdsQuery (fun _ _ _ => nofun) plain
    (plain n mem _ hm)

/-- **Steps keep queries sound** so far. -/
theorem growing (inj : Function.Injective ids) (hn : nested.Sound ids)
    (plain : ∀ m ∈ chain.nodes, ∀ e ∈ m.operation.expressions, ¬ HoldsQuery e)
    (mem : n ∈ chain.nodes) {lo : Nat} (hl : lo ≤ b.drawn)
    (hb : b.query.Growing ids lo b.drawn) (h : n.Step ids nested chain b b') :
    b'.query.Growing ids lo b'.drawn := by
  have none_inner : ∀ {c : Clause} {k : Nat}, c.query? = none → ∀ q', c.query? = some q' →
      ∀ outer, Avoids ids lo k outer → q'.Sound (outer ++ (b.query.addClause c).sourceIds) :=
    fun h q' hq => by simp [h] at hq
  cases h with
  | mainSource op _ _ _ _ =>
    exact hb.addClause inj hl (Nat.le_succ _) (drawnIn_introduced rfl rfl) (none_inner rfl)
  | @subQuerySource inner q type k op _ built _ _ _ =>
    obtain ⟨hk, apart⟩ := hn _ _ _ _ _ built
    have new := drawnIn_introduced (c := .fromQuery ⟨ids k, n.identifier, type⟩ q none .main)
      rfl rfl
    refine hb.addClause inj hl (Nat.le_succ_of_le hk) (new.mono hk (Nat.le_refl _)) ?_
    rintro q' hq' outer ho
    cases hq'
    refine apart _ ((ho.mono hl (Nat.le_succ _)).append ?_)
    rw [Query.sourceIds_addClause]
    exact (hb.drawn.avoids inj (.inl (Nat.le_refl _))).append
      (new.avoids inj (.inr (Nat.le_refl _)))
  | selectMany op _ _ resolved _ _ _ =>
    have he := resolved_plain plain mem resolved (by rw [op]; simp [Operation.expressions])
    exact hb.addClause inj hl (Nat.le_succ _) (drawnIn_introduced (source?_fromClause _ _) rfl)
      (none_inner (query?_fromClause he))
  | selectManyResult op _ _ _ resolved _ _ _ _ =>
    have he := resolved_plain plain mem resolved (by rw [op]; simp [Operation.expressions])
    exact hb.addClause inj hl (Nat.le_succ _) (drawnIn_introduced (source?_projectedFrom _ _ _) rfl)
      (none_inner (query?_projectedFrom he))
  | filter _ _ _ _ =>
    exact hb.addClause inj hl (Nat.le_refl _) (by simp [DrawnIn, introduced, Clause.source?])
      (none_inner rfl)
  | define _ _ _ _ _ =>
    exact hb.addClause inj hl (Nat.le_succ _) (drawnIn_introduced rfl rfl) (none_inner rfl)
  | orderBy _ _ _ _ _ =>
    exact hb.addClause inj hl (Nat.le_refl _) (by simp [DrawnIn, introduced, Clause.source?])
      (none_inner rfl)
  | thenBy _ _ _ _ _ extended =>
    obtain ⟨i, c, c', rfl, hc, hc', rfl⟩ := Query.modifyClause_eq_ok_iff.mp extended
    exact hb.set hc (Clause.alike_of_withKey? hc') ((hb.stands i c hc).withKey? hc')
  | select _ _ _ _ filled =>
    rcases Query.fill_eq_ok_iff.mp filled with ⟨-, rfl⟩ | ⟨o, i, c, c', -, -, hc, hc', rfl⟩
    · exact hb
    · exact hb.set hc (Clause.alike_of_withProjection? hc')
        ((hb.stands i c hc).withProjection? hc')
  | groupBy => exact hb
  | cast | ofType | resultOperator => exact ⟨hb.drawn, hb.distinct, hb.stands, hb.nested, hb.unended⟩

end Node.Step

/-! ### The waiting from clause -/

/-- Only the from clause that waits lacks its projection. -/
def Build.Waits (b : Build) : Prop :=
  ∀ (i : Nat) (c : Clause), b.query.body[i]? = some c → ¬ c.Projected →
    ∃ o, b.ledger.openFrom = some o ∧ o.clause = .body i

namespace Node.Step

variable {ids : Nat → SourceId} {nested : Nested} {chain : Chain} {n : Node} {b b' : Build}

theorem openFrom_register (l : Ledger) (p : Projection) : (l.register p).openFrom = l.openFrom := by
  cases p <;> rfl

/-- A clause that needs no projection may be added while another one waits. -/
theorem waits_added {c : Clause} {l : Ledger} {k : Nat} (hb : b.Waits) (hc : c.Projected)
    (hl : l.openFrom = b.ledger.openFrom) : Build.Waits ⟨b.query.addClause c, l, k⟩ := by
  intro i d hd hp
  rcases Query.getElem?_addClause.mp hd with hd | ⟨-, rfl⟩
  · simpa only [hl] using hb i d hd hp
  · exact absurd (Clause.projected_attach.mpr hc) hp

/-- A clause may be added to wait itself if no other one waits. -/
theorem waits_awaiting {c : Clause} {l : Ledger} {k : Nat} {o : OpenFrom} (hb : b.Waits)
    (settled : b.ledger.openFrom = none) (hl : l.openFrom = some o) (ho : o.clause = b.query.next) :
    Build.Waits ⟨b.query.addClause c, l, k⟩ := by
  intro i d hd hp
  rcases Query.getElem?_addClause.mp hd with hd | ⟨rfl, -⟩
  · obtain ⟨o', h, -⟩ := hb i d hd hp
    rw [settled] at h
    cases h
  · exact ⟨o, hl, ho⟩

/-- A changed clause that has its projection waits no longer, and nothing else starts to. -/
theorem waits_set {i : Nat} {c : Clause} {l : Ledger} (hb : b.Waits) (hc : c.Projected)
    (hl : ∀ o, b.ledger.openFrom = some o → o.clause ≠ .body i → l.openFrom = some o) :
    Build.Waits ⟨{ b.query with body := b.query.body.set i c }, l, b.drawn⟩ := by
  intro j d hd hp
  rw [List.getElem?_set] at hd
  split_ifs at hd with hij hi
  · cases hd
    exact absurd hc hp
  · obtain ⟨o, h, ho⟩ := hb j d hd hp
    refine ⟨o, hl o h ?_, ho⟩
    rw [ho]
    exact fun h => hij (by simpa using h.symm)

/-- **Steps keep one from clause waiting** at most. -/
theorem waits (hb : b.Waits) (h : n.Step ids nested chain b b') : b'.Waits := by
  cases h with
  | mainSource _ _ _ _ settled => exact waits_awaiting hb settled rfl rfl
  | subQuerySource _ _ _ _ _ settled => exact waits_awaiting hb settled rfl rfl
  | selectMany _ _ _ _ _ _ settled => exact waits_awaiting hb settled rfl rfl
  | selectManyResult =>
    exact waits_added hb (Clause.projected_of_withProjection? (withProjection?_fromClause _ _ _))
      (openFrom_register ..)
  | filter => exact waits_added hb (Clause.projected_of_isFrom_eq_false rfl) rfl
  | define => exact waits_added hb (Clause.projected_of_isFrom_eq_false rfl) rfl
  | orderBy => exact waits_added hb (Clause.projected_of_isFrom_eq_false rfl) rfl
  | thenBy _ _ _ _ _ extended =>
    obtain ⟨i, c, c', rfl, hc, hc', rfl⟩ := Query.modifyClause_eq_ok_iff.mp extended
    exact waits_set hb (Clause.projected_of_withKey? hc') fun _ h _ => h
  | select _ _ _ _ filled =>
    rcases Query.fill_eq_ok_iff.mp filled with ⟨hw, rfl⟩ | ⟨o, i, c, c', hw, ho, hc, hc', rfl⟩
    · intro i c hc hp
      obtain ⟨o, h, -⟩ := hb i c hc hp
      rw [hw] at h
      cases h
    · refine waits_set hb (Clause.projected_of_withProjection? hc') fun o' h hne => ?_
      rw [hw, Option.some.injEq] at h
      exact absurd (h ▸ ho) hne
  | groupBy | cast | ofType | resultOperator => exact hb

end Node.Step

/-! ### Chains -/

/-- Every expression of the nodes of a chain, and of the chains nested in it, has a property. -/
inductive Chain.Throughout (P : Expr → Prop) : Chain → Prop where
  /-- The nodes of the chain, and the nested chains. -/
  | intro {c : Chain} (own : ∀ n ∈ c.nodes, ∀ e ∈ n.operation.expressions, P e)
      (nested : ∀ inner, c.Nests inner → Throughout P inner) : Throughout P c

/-- **Builds make sound queries**: if no query is written as a value in the chain, a query that is
built from it is sound apart from what was drawn for it. -/
theorem Chain.Built.soundApart {ids : Nat → SourceId} (inj : Function.Injective ids)
    {settings : Settings} {depth : UInt32} {chain : Chain} {k k' : Nat} {q : Query} {l : Ledger}
    (plain : chain.Throughout fun e => ¬ HoldsQuery e)
    (h : chain.Built ids settings depth k q l k') : k ≤ k' ∧ q.SoundApart ids k k' := by
  induction chain using Chain.induction generalizing settings depth k q l k' with
  | step chain ih =>
  obtain ⟨own, nested⟩ := plain
  have hn : ∀ n ∈ chain.nodes, (n.nested ids).Sound ids := by
    intro n hm settings depth k q k' hr
    obtain ⟨inner, l, op, hb⟩ := Node.nested_runs_iff.mp hr
    exact ih inner ⟨n, hm, op⟩ (nested inner ⟨n, hm, op⟩) hb
  cases h with
  | @intro first rest b b' p shallow nodes linked start steps projects settled unended valid =>
    have initial : k ≤ b.drawn ∧ b.query.Growing ids k b.drawn ∧ b.Waits := by
      cases start with
      | mainSource =>
        exact ⟨Nat.le_succ k, .start _ _ _ rfl (Nat.le_refl k), by simp [Build.Waits, Query.start]⟩
      | subQuerySource _ built =>
        have hk := (hn first (nodes ▸ List.mem_cons_self) _ _ _ _ _ built).1
        exact ⟨Nat.le_succ_of_le hk, .start _ _ _ rfl hk, by simp [Build.Waits, Query.start]⟩
    obtain ⟨hk, growing, waits⟩ := steps.invariant []
      (I := fun _ b => k ≤ b.drawn ∧ b.query.Growing ids k b.drawn ∧ b.Waits)
      (fun done n b b' hm hI _ step =>
        have mem : n ∈ chain.nodes := nodes ▸ List.mem_cons_of_mem _ hm
        ⟨Nat.le_trans hI.1 (step.drawn_le (hn n mem)),
          step.growing inj (hn n mem) own mem hI.1 hI.2.1, step.waits hI.2.2⟩) initial
    refine ⟨hk, growing.soundApart (fun c hc => ?_) p.terminal⟩
    by_contra hp
    obtain ⟨i, hi⟩ := List.getElem?_of_mem hc
    obtain ⟨o, ho, -⟩ := waits i c hi hp
    rw [settled] at ho
    cases ho

end QueryFold
