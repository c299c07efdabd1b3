import QueryFold.Proofs.Chain.Run
import QueryFold.Proofs.Expr.Occurrence
import QueryFold.Query.Validation

/-!
# What validation checks

The conditions of a valid query, apart from the order in which they are checked. A query is
*sound* if its clauses stand as they should: linked in a row, with sort keys and projections
in place, an end, and sources of different identities. It is *grounded* if its expressions
refer to visible sources only. Both go down into the nested queries of from clauses.

Validation accepts exactly the queries that are sound and grounded
(`validateWithin_eq_ok_iff`), and all that can be wrong with a sound query is a dangling
reference (`Query.Sound.dangles`).
-/

namespace QueryFold

/-! ### Visible sources -/

/-- The identities of the sources that clauses introduce, in order. -/
def introduced (cs : List Clause) : List SourceId := (cs.filterMap Clause.source?).map Source.id

@[simp] theorem introduced_nil : introduced [] = [] := rfl

theorem introduced_append (cs ds : List Clause) :
    introduced (cs ++ ds) = introduced cs ++ introduced ds := by
  simp [introduced]

theorem introduced_cons (c : Clause) (cs : List Clause) :
    introduced (c :: cs) = introduced [c] ++ introduced cs :=
  introduced_append [c] cs

theorem introduced_of_source? {c : Clause} {s : Source} (h : c.source? = some s) :
    introduced [c] = [s.id] := by
  simp [introduced, h]

theorem introduced_of_source?_eq_none {c : Clause} (h : c.source? = none) :
    introduced [c] = [] := by
  simp [introduced, h]

/-- The nested query of a from clause. -/
def Clause.query? : Clause → Option Query
  | .fromQuery _ query _ _ => some query
  | _ => none

namespace Query

/-- The identities visible behind the first `count` clauses of the body, when those of `outer` are
visible around the query. -/
def visible (outer : List SourceId) (q : Query) (count : Nat) : List SourceId :=
  outer ++ q.source.id :: introduced (q.body.take count)

theorem visible_succ (outer : List SourceId) {q : Query} {i : Nat} {c : Clause}
    (h : q.body[i]? = some c) : q.visible outer (i + 1) = q.visible outer i ++ introduced [c] := by
  simp [visible, List.take_add_one, h, introduced_append]

end Query

/-! ### Sound and grounded queries -/

/-- A clause that stands as it should at `index` of a body: it names the clause before it, and its
sort keys name itself. -/
structure Clause.StandsAt (index : Nat) (c : Clause) : Prop where
  linked : c.previous = .before index
  owned : ∀ keys, c.keys? = some keys → ∀ k ∈ keys, k.owner = some (.body index)

/-- A from clause has a projection. -/
def Clause.Projected (c : Clause) : Prop := c.isFrom = true → c.projection? ≠ none

namespace Query

/-- A query that stands as it should among the sources `outer` of the enclosing queries. -/
inductive Sound : List SourceId → Query → Prop where
  /-- The conditions on the query itself, and on the nested queries of its from clauses. -/
  | intro {outer : List SourceId} {q : Query} (fresh : q.source.id ∉ outer)
      (stands : ∀ (i : Nat) (c : Clause), q.body[i]? = some c → c.StandsAt i)
      (distinct : ∀ (i : Nat) (c : Clause) (s : Source), q.body[i]? = some c →
        c.source? = some s → s.id ∉ q.visible outer i)
      (projected : ∀ c ∈ q.body, c.Projected)
      (nested : ∀ (i : Nat) (c : Clause) (q' : Query), q.body[i]? = some c →
        c.query? = some q' → Sound (q.visible outer (i + 1)) q')
      (ended : ∃ t : Terminal, q.terminal = some t ∧ t.previous = .before q.body.length) :
      Sound outer q

/-- A query whose expressions refer to visible sources only, when the sources `outer` of the
enclosing queries are visible. -/
inductive Grounded : List SourceId → Query → Prop where
  /-- The conditions on the query itself, and on the nested queries of its from clauses. -/
  | intro {outer : List SourceId} {q : Query}
      (generator : RefersWithin outer q.generator)
      (clauses : ∀ (i : Nat) (c : Clause), q.body[i]? = some c → ∀ e ∈ c.expressions,
        RefersWithin (q.visible outer (i + 1)) e)
      (nested : ∀ (i : Nat) (c : Clause) (q' : Query), q.body[i]? = some c →
        c.query? = some q' → Grounded (q.visible outer (i + 1)) q')
      (terminal : ∀ t, q.terminal = some t → ∀ e ∈ t.expressions,
        RefersWithin (q.visible outer q.body.length) e)
      (operators : ∀ op ∈ q.operators, ∀ e ∈ op.expressions,
        RefersWithin (q.visible outer q.body.length) e) : Grounded outer q

theorem subset_visible (outer : List SourceId) (q : Query) (i : Nat) : outer ⊆ q.visible outer i :=
  List.subset_append_left ..

theorem visible_subset {outer outer' : List SourceId} (h : outer ⊆ outer') (q : Query) (i : Nat) :
    q.visible outer i ⊆ q.visible outer' i := by
  intro id hid
  simp only [visible, List.mem_append] at hid ⊢
  exact hid.imp (fun h' => h h') fun h' => h'

theorem Sound.nested {outer : List SourceId} {q q' : Query} {i : Nat} {c : Clause}
    (h : q.Sound outer) (hc : q.body[i]? = some c) (hq : c.query? = some q') :
    q'.Sound (q.visible outer (i + 1)) := by
  cases h with
  | intro _ _ _ _ nested _ => exact nested i c q' hc hq

theorem Grounded.nested {outer : List SourceId} {q q' : Query} {i : Nat} {c : Clause}
    (h : q.Grounded outer) (hc : q.body[i]? = some c) (hq : c.query? = some q') :
    q'.Grounded (q.visible outer (i + 1)) := by
  cases h with
  | intro _ _ nested _ _ => exact nested i c q' hc hq

/-- A query that stands as it should does so as well among fewer sources. -/
theorem Sound.subset {outer : List SourceId} {q : Query} (hq : q.Sound outer) :
    ∀ {outer'}, outer' ⊆ outer → q.Sound outer' := by
  induction hq with
  | intro fresh stands distinct projected _ ended ih =>
    intro outer' h
    exact .intro (fun hm => fresh (h hm)) stands
      (fun i c s hc hs hm => distinct i c s hc hs (visible_subset h _ i hm)) projected
      (fun i c q' hc hq => ih i c q' hc hq (visible_subset h _ _)) ended

/-- A query whose references are visible keeps them so when more is visible. -/
theorem Grounded.subset {outer : List SourceId} {q : Query} (hq : q.Grounded outer) :
    ∀ {outer'}, outer ⊆ outer' → q.Grounded outer' := by
  induction hq with
  | intro generator clauses _ terminal operators ih =>
    intro outer' h
    exact .intro (generator.subset h)
      (fun i c hc e he => (clauses i c hc e he).subset (visible_subset h _ _))
      (fun i c q' hc hq => ih i c q' hc hq (visible_subset h _ _))
      (fun t ht e he => (terminal t ht e he).subset (visible_subset h _ _))
      fun op hop e he => (operators op hop e he).subset (visible_subset h _ _)

/-! ### Induction -/

theorem sizeOf_nested {q q' : Query} {c : Clause} (hc : c ∈ q.body) (hq : c.query? = some q') :
    sizeOf q' < sizeOf q := by
  obtain ⟨source, generator, body, terminal, operators, resultType⟩ := q
  have := List.sizeOf_lt_of_mem hc
  cases c with
  | fromQuery s q₁ projection previous =>
    rw [Clause.query?, Option.some.injEq] at hq
    simp_all
    omega
  | _ => simp [Clause.query?] at hq

/-- What holds of a query whenever it holds of the nested queries of its from clauses holds of every
query. -/
theorem induction {motive : Query → Prop}
    (step : ∀ q, (∀ c ∈ q.body, ∀ q', c.query? = some q' → motive q') → motive q) (q : Query) :
    motive q :=
  step q fun c hc q' hq =>
    have := sizeOf_nested hc hq
    induction step q'
termination_by sizeOf q

end Query

/-! ### Checks, one by one -/

/-- The result of a check is `a`, or the check finds a dangling reference. -/
def Dangles {α : Type} (x : Except QueryError α) (a : α) : Prop :=
  x = .ok a ∨ ∃ place id, x = .error (.danglingReference place id)

theorem Dangles.ok {α : Type} (a : α) : Dangles (.ok a) a := .inl rfl

theorem Dangles.bind {α β : Type} {x : Except QueryError α} {f : α → Except QueryError β} {a : α}
    {b : β} (hx : Dangles x a) (hf : Dangles (f a) b) : Dangles (x >>= f) b := by
  rcases hx with rfl | ⟨place, id, rfl⟩
  · exact hf
  · exact .inr ⟨place, id, rfl⟩

theorem checkReferences_eq_ok_iff {place : String} {visible : List SourceId} {es : List Expr} :
    checkReferences place visible es = .ok () ↔
      ∀ e ∈ es, RefersWithin visible e := by
  induction es with
  | nil => simp [checkReferences]
  | cons e es ih =>
    rw [checkReferences]
    cases h : e.sources.find? (· ∉ visible) with
    | some id =>
      have hid := List.find?_some h
      have := mem_sources_iff.mp (List.mem_of_find?_eq_some h)
      simp only [decide_eq_true_eq] at hid
      simp only [reduceCtorEq, List.mem_cons, forall_eq_or_imp, false_iff, not_and]
      exact fun hall => absurd (hall id this) hid
    | none =>
      rw [ih]
      simp only [List.find?_eq_none, decide_not, Bool.not_eq_true', decide_eq_false_iff_not,
        Decidable.not_not, mem_sources_iff] at h
      simp only [List.mem_cons, forall_eq_or_imp]
      exact ⟨fun h' => ⟨h, h'⟩, And.right⟩

theorem checkReferences_dangles (place : String) (visible : List SourceId) (es : List Expr) :
    Dangles (checkReferences place visible es) () := by
  induction es with
  | nil => exact .ok ()
  | cons e es ih =>
    rw [checkReferences]
    cases e.sources.find? (· ∉ visible) with
    | some id => exact .inr ⟨place, id, rfl⟩
    | none => exact ih

theorem checkKeys_eq_ok_iff {position : Position} {index : Nat} {keys : List SortKey} :
    checkKeys position index keys = .ok () ↔ ∀ k ∈ keys, k.owner = some position := by
  induction keys generalizing index with
  | nil => simp [checkKeys]
  | cons k ks ih =>
    rw [checkKeys]
    split_ifs with h <;> simp [h, ih]

theorem checkOperators_eq_ok_iff {visible : List SourceId} {ops : List ResultOp} :
    checkOperators visible ops = .ok () ↔
      ∀ op ∈ ops, ∀ e ∈ op.expressions, RefersWithin visible e := by
  induction ops with
  | nil => simp [checkOperators]
  | cons op ops ih =>
    rw [checkOperators, except_bind_eq_ok_iff]
    simp [checkReferences_eq_ok_iff, ih]

theorem checkOperators_dangles (visible : List SourceId) (ops : List ResultOp) :
    Dangles (checkOperators visible ops) () := by
  induction ops with
  | nil => exact .ok ()
  | cons op ops ih => exact (checkReferences_dangles ..).bind ih

/-! ### Clauses -/

theorem introduce_eq_ok_iff {visible visible' : List SourceId} {c : Clause} :
    c.introduce visible = .ok visible' ↔
      (∀ s, c.source? = some s → s.id ∉ visible) ∧ c.Projected ∧
        visible' = visible ++ introduced [c] := by
  unfold Clause.introduce Clause.Projected
  cases hs : c.source? with
  | none =>
    have hf : ¬ c.isFrom = true := by cases c <;> simp_all [Clause.source?, Clause.isFrom]
    simp [introduced_of_source?_eq_none hs, hf, eq_comm]
  | some s =>
    simp only [except_bind_eq_ok_iff, register, introduced_of_source? hs, Option.some.injEq,
      forall_eq']
    by_cases hv : s.id ∈ visible
    · simp [hv]
    simp only [if_neg hv, Except.ok.injEq, exists_eq_left']
    split_ifs with hp
    · simp only [Option.isNone_iff_eq_none] at hp
      simp [hp, except_map_eq_ok_iff, except_throw_eq_ok_iff]
    · simp only [not_and, Option.isNone_iff_eq_none] at hp
      simp only [except_pure_eq_ok_iff, hv, not_false_eq_true, true_and, ne_eq]
      exact ⟨fun h => ⟨hp, h⟩, And.right⟩

/-- What a check finds inside of a clause: its sort keys, or its nested query. -/
def Clause.checkInside (visible : List SourceId) (index : Nat) : Clause → Except QueryError Unit
  | .orderBy keys _ => checkKeys (.body index) 0 keys
  | .fromQuery _ query _ _ => query.validateWithin visible
  | _ => pure ()

theorem validate_eq (visible : List SourceId) (index : Nat) (c : Clause) :
    c.validate visible index = (do
      if c.previous ≠ .before index then
        throw (.brokenChain (.body index) (.before index) c.previous)
      let visible ← c.introduce visible
      c.checkInside visible index
      checkReferences (Position.body index).render visible c.expressions
      return visible) := by
  rw [Clause.validate.eq_def]
  cases c <;> rfl

theorem checkInside_eq_ok_iff {visible : List SourceId} {index : Nat} {c : Clause} :
    c.checkInside visible index = .ok () ↔
      (∀ keys, c.keys? = some keys → ∀ k ∈ keys, k.owner = some (.body index)) ∧
        ∀ q, c.query? = some q → q.validateWithin visible = .ok () := by
  cases c <;>
    simp [Clause.checkInside, Clause.keys?, Clause.query?, checkKeys_eq_ok_iff,
      except_pure_eq_ok_iff]

theorem validate_eq_ok_iff {visible visible' : List SourceId} {index : Nat} {c : Clause} :
    c.validate visible index = .ok visible' ↔
      c.StandsAt index ∧ (∀ s, c.source? = some s → s.id ∉ visible) ∧ c.Projected ∧
        (∀ q, c.query? = some q → q.validateWithin (visible ++ introduced [c]) = .ok ()) ∧
        (∀ e ∈ c.expressions, RefersWithin (visible ++ introduced [c]) e) ∧
        visible' = visible ++ introduced [c] := by
  rw [validate_eq]
  by_cases hl : c.previous = .before index
  · simp only [hl, ne_eq, not_true_eq_false, if_false, except_bind_eq_ok_iff, exists_unit,
      introduce_eq_ok_iff, checkInside_eq_ok_iff, checkReferences_eq_ok_iff, except_pure_eq_ok_iff]
    constructor
    · rintro ⟨_, ⟨fresh, projected, rfl⟩, ⟨owned, nested⟩, refers, rfl⟩
      exact ⟨⟨hl, owned⟩, fresh, projected, nested, refers, rfl⟩
    · rintro ⟨stands, fresh, projected, nested, refers, rfl⟩
      exact ⟨_, ⟨fresh, projected, rfl⟩, ⟨stands.owned, nested⟩, refers, rfl⟩
  · rw [if_pos hl, except_bind_eq_ok_iff]
    constructor
    · rintro ⟨_, h, -⟩
      exact (except_throw_eq_ok_iff.mp h).elim
    · rintro ⟨stands, -⟩
      exact absurd stands.linked hl

/-- A clause that is as it should be may still refer to a source that is not visible. -/
theorem validate_dangles {visible : List SourceId} {index : Nat} {c : Clause}
    (stands : c.StandsAt index) (fresh : ∀ s, c.source? = some s → s.id ∉ visible)
    (projected : c.Projected)
    (nested : ∀ q, c.query? = some q → Dangles (q.validateWithin (visible ++ introduced [c])) ()) :
    Dangles (c.validate visible index) (visible ++ introduced [c]) := by
  rw [validate_eq, if_neg (not_not_intro stands.linked)]
  have hi : c.introduce visible = .ok (visible ++ introduced [c]) :=
    introduce_eq_ok_iff.mpr ⟨fresh, projected, rfl⟩
  rw [hi]
  refine Dangles.bind (a := ()) ?_ ((checkReferences_dangles ..).bind (.ok _))
  cases c with
  | orderBy keys previous => exact .inl (checkKeys_eq_ok_iff.mpr (stands.owned keys rfl))
  | fromQuery source query projection previous => exact nested query rfl
  | _ => exact .ok ()

/-! ### Bodies -/

theorem validateBody_eq_ok_iff {visible visible' : List SourceId} {index : Nat} {cs : List Clause} :
    validateBody visible index cs = .ok visible' ↔
      (∀ (j : Nat) (c : Clause), cs[j]? = some c →
        c.validate (visible ++ introduced (cs.take j)) (index + j) =
          .ok (visible ++ introduced (cs.take (j + 1)))) ∧
      visible' = visible ++ introduced cs := by
  induction cs generalizing visible index with
  | nil => simp [validateBody, eq_comm]
  | cons c cs ih =>
    rw [validateBody, except_bind_eq_ok_iff]
    constructor
    · rintro ⟨visible₁, hc, h⟩
      obtain rfl := (validate_eq_ok_iff.mp hc).2.2.2.2.2
      obtain ⟨hcs, rfl⟩ := ih.mp h
      refine ⟨fun j d hd => ?_, by rw [List.append_assoc, ← introduced_cons]⟩
      cases j with
      | zero =>
        obtain rfl : c = d := by simpa using hd
        simpa using hc
      | succ j =>
        have := hcs j d (by simpa using hd)
        rw [List.append_assoc, List.append_assoc, ← introduced_cons, ← introduced_cons] at this
        rwa [List.take_succ_cons, List.take_succ_cons, ← Nat.add_assoc, Nat.add_right_comm]
    · rintro ⟨hcs, rfl⟩
      refine ⟨_, by simpa using hcs 0 c rfl, ih.mpr ⟨fun j d hd => ?_, ?_⟩⟩
      · have := hcs (j + 1) d (by simpa using hd)
        rw [List.take_succ_cons, List.take_succ_cons] at this
        rw [List.append_assoc, List.append_assoc, ← introduced_cons, ← introduced_cons]
        rwa [Nat.add_assoc, Nat.add_comm 1]
      · rw [List.append_assoc, ← introduced_cons]

theorem validateBody_dangles {visible : List SourceId} {index : Nat} {cs : List Clause}
    (h : ∀ (j : Nat) (c : Clause), cs[j]? = some c →
      Dangles (c.validate (visible ++ introduced (cs.take j)) (index + j))
        (visible ++ introduced (cs.take (j + 1)))) :
    Dangles (validateBody visible index cs) (visible ++ introduced cs) := by
  induction cs generalizing visible index with
  | nil => simpa [validateBody] using Dangles.ok visible
  | cons c cs ih =>
    rw [validateBody, introduced_cons, ← List.append_assoc]
    refine Dangles.bind (by simpa using h 0 c rfl) (ih fun j d hd => ?_)
    have := h (j + 1) d (by simpa using hd)
    rw [List.take_succ_cons, List.take_succ_cons] at this
    rw [List.append_assoc, List.append_assoc, ← introduced_cons, ← introduced_cons]
    rwa [Nat.add_assoc, Nat.add_comm 1]

/-! ### Queries -/

namespace Query

variable {outer : List SourceId} {q : Query}

theorem validateBody_body_eq_ok_iff {visible' : List SourceId} :
    validateBody (outer ++ [q.source.id]) 0 q.body = .ok visible' ↔
      (∀ (i : Nat) (c : Clause), q.body[i]? = some c →
        c.validate (q.visible outer i) i = .ok (q.visible outer (i + 1))) ∧
      visible' = q.visible outer q.body.length := by
  simp [validateBody_eq_ok_iff, visible]

theorem checkTerminal_eq_ok_iff {visible : List SourceId} {count : Nat} {t? : Option Terminal} :
    checkTerminal visible count t? = .ok () ↔
      (∃ t : Terminal, t? = some t ∧ t.previous = .before count) ∧
        ∀ t, t? = some t → ∀ e ∈ t.expressions, RefersWithin visible e := by
  cases t? with
  | none => simp [checkTerminal]
  | some t =>
    rw [checkTerminal]
    by_cases hl : t.previous = .before count
    · simp [checkReferences_eq_ok_iff, hl]
    · simp [except_bind_eq_ok_iff, except_throw_eq_ok_iff, hl]

theorem validateWithin_eq (outer : List SourceId) (q : Query) :
    q.validateWithin outer = (do
      checkReferences "main from clause" outer [q.generator]
      let visible ← register outer q.source
      let visible ← validateBody visible 0 q.body
      checkTerminal visible q.body.length q.terminal
      checkOperators visible q.operators) := by
  cases q
  rw [validateWithin]

theorem validate_visible_iff {i : Nat} {c : Clause} (hc : q.body[i]? = some c) :
    c.validate (q.visible outer i) i = .ok (q.visible outer (i + 1)) ↔
      c.StandsAt i ∧ (∀ s, c.source? = some s → s.id ∉ q.visible outer i) ∧ c.Projected ∧
        (∀ q', c.query? = some q' → q'.validateWithin (q.visible outer (i + 1)) = .ok ()) ∧
        ∀ e ∈ c.expressions, RefersWithin (q.visible outer (i + 1)) e := by
  rw [validate_eq_ok_iff, visible_succ _ hc]
  simp only [and_true]

/-- **Validation** accepts exactly the queries that are sound and grounded. -/
theorem validateWithin_eq_ok_iff :
    q.validateWithin outer = .ok () ↔ q.Sound outer ∧ q.Grounded outer := by
  induction q using Query.induction generalizing outer with
  | step q ih =>
    have ih' : ∀ {i : Nat} {c : Clause} {q' : Query} {visible : List SourceId},
        q.body[i]? = some c → c.query? = some q' →
          (q'.validateWithin visible = .ok () ↔ q'.Sound visible ∧ q'.Grounded visible) :=
      fun hc hq => ih _ (List.mem_of_getElem? hc) _ hq
    rw [validateWithin_eq]
    simp only [except_bind_eq_ok_iff, exists_unit, checkReferences_eq_ok_iff, List.mem_singleton,
      forall_eq, register, checkTerminal_eq_ok_iff, checkOperators_eq_ok_iff]
    constructor
    · rintro ⟨generator, visible, hv, visible', hb, ⟨ended, terminal⟩, operators⟩
      split_ifs at hv with fresh
      cases hv
      obtain ⟨clauses, rfl⟩ := validateBody_body_eq_ok_iff.mp hb
      have clauses := fun i c hc => (validate_visible_iff hc).mp (clauses i c hc)
      refine ⟨.intro fresh (fun i c hc => (clauses i c hc).1)
        (fun i c s hc => (clauses i c hc).2.1 s) ?_ ?_ ended, .intro generator
        (fun i c hc => (clauses i c hc).2.2.2.2) ?_ terminal operators⟩
      · intro c hc
        obtain ⟨i, hi⟩ := List.getElem?_of_mem hc
        exact (clauses i c hi).2.2.1
      · exact fun i c q' hc hq => ((ih' hc hq).mp ((clauses i c hc).2.2.2.1 q' hq)).1
      · exact fun i c q' hc hq => ((ih' hc hq).mp ((clauses i c hc).2.2.2.1 q' hq)).2
    · rintro ⟨sound, grounded⟩
      cases sound with
      | intro fresh stands distinct projected nested ended =>
      cases grounded with
      | intro generator clauses grounded terminal operators =>
      refine ⟨generator, _, if_neg fresh, _,
        validateBody_body_eq_ok_iff.mpr ⟨fun i c hc => ?_, rfl⟩, ⟨ended, terminal⟩, operators⟩
      refine (validate_visible_iff hc).mpr ⟨stands i c hc, fun s => distinct i c s hc,
        projected c (List.mem_of_getElem? hc), fun q' hq => ?_, clauses i c hc⟩
      exact (ih' hc hq).mpr ⟨nested i c q' hc hq, grounded i c q' hc hq⟩

/-- All that can be wrong with a sound query is a dangling reference. -/
theorem Sound.dangles (h : q.Sound outer) : Dangles (q.validateWithin outer) () := by
  induction h with
  | @intro outer q fresh stands distinct projected _ ended ih =>
    rw [validateWithin_eq]
    refine (checkReferences_dangles ..).bind ?_
    rw [register, if_neg fresh]
    refine (Dangles.ok _).bind (Dangles.bind (a := q.visible outer q.body.length) ?_ ?_)
    · have := @validateBody_dangles (outer ++ [q.source.id]) 0 q.body
      simp only [Nat.zero_add, List.append_assoc, List.singleton_append] at this
      rw [visible, List.take_length]
      refine this fun i c hc => ?_
      have hd := validate_dangles (stands i c hc) (distinct i c · hc)
        (projected c (List.mem_of_getElem? hc))
        fun q' hq => visible_succ outer hc ▸ ih i c q' hc hq
      rwa [← visible_succ outer hc] at hd
    · obtain ⟨t, ht, hl⟩ := ended
      refine Dangles.bind (a := ()) ?_ (checkOperators_dangles ..)
      rw [ht, checkTerminal, if_neg (not_not_intro hl)]
      exact checkReferences_dangles ..

end Query

end QueryFold
