import QueryFold.Proofs.Query.Dependence
import QueryFold.Proofs.Query.Editing

/-!
# Changing the source of a valid query

References name a source by its identity. A new item name keeps the identity, so that a query is as
valid with it as without (`validate_rename`). A new item type comes with a new identity, so that
the references to the old one are stale: the query stays valid exactly if there are none, and
otherwise validation finds one of them and nothing else (`validate_retype`).

That nothing else is wrong then is due to the identities. In a valid query those of nested
queries differ from all that are visible around them, so neither the old identity nor the new
one can mean another source.
-/

namespace QueryFold

/-! ### Errors about references -/

theorem checkReferences_error {place place' : String} {visible : List SourceId} {es : List Expr}
    {id : SourceId} (h : checkReferences place visible es = .error (.danglingReference place' id)) :
    ∃ e ∈ es, RefersTo id e ∧ id ∉ visible := by
  induction es with
  | nil => cases h
  | cons e es ih =>
    rw [checkReferences] at h
    cases hf : e.sources.find? (· ∉ visible) with
    | some hidden =>
      rw [hf] at h
      cases h
      have := List.find?_some hf
      exact ⟨e, List.mem_cons_self, mem_sources_iff.mp (List.mem_of_find?_eq_some hf),
        by simpa using this⟩
    | none =>
      rw [hf] at h
      obtain ⟨e', he, found⟩ := ih h
      exact ⟨e', List.mem_cons_of_mem e he, found⟩

theorem checkOperators_error {visible : List SourceId} {ops : List ResultOp} {place : String}
    {id : SourceId} (h : checkOperators visible ops = .error (.danglingReference place id)) :
    ∃ op ∈ ops, ∃ e ∈ op.expressions, RefersTo id e ∧ id ∉ visible := by
  induction ops with
  | nil => cases h
  | cons op ops ih =>
    rcases except_bind_eq_error_iff.mp h with h | ⟨_, -, h⟩
    · exact ⟨op, List.mem_cons_self, checkReferences_error h⟩
    · obtain ⟨op', hop, found⟩ := ih h
      exact ⟨op', List.mem_cons_of_mem op hop, found⟩

theorem checkTerminal_error {visible : List SourceId} {count : Nat} {t? : Option Terminal}
    {place : String} {id : SourceId}
    (h : checkTerminal visible count t? = .error (.danglingReference place id)) :
    ∃ t, t? = some t ∧ ∃ e ∈ t.expressions, RefersTo id e ∧ id ∉ visible := by
  cases t? with
  | none => cases h
  | some t =>
    rw [checkTerminal] at h
    split_ifs at h with linked
    · cases h
    · exact ⟨t, rfl, checkReferences_error h⟩

theorem checkKeys_ne_dangling {position : Position} {index : Nat} {keys : List SortKey}
    {place : String} {id : SourceId} :
    checkKeys position index keys ≠ .error (.danglingReference place id) := by
  induction keys generalizing index with
  | nil => rintro ⟨⟩
  | cons k ks ih =>
    rw [checkKeys]
    split_ifs
    · exact ih
    · rintro ⟨⟩

theorem register_ne_dangling {visible : List SourceId} {s : Source} {place : String}
    {id : SourceId} : register visible s ≠ .error (.danglingReference place id) := by
  rw [register]
  split_ifs <;> rintro ⟨⟩

theorem introduce_ne_dangling {visible : List SourceId} {c : Clause} {place : String}
    {id : SourceId} : c.introduce visible ≠ .error (.danglingReference place id) := by
  rw [Clause.introduce]
  split
  · nofun
  · intro h
    rcases except_bind_eq_error_iff.mp h with h | ⟨_, -, h⟩
    · exact register_ne_dangling h
    · split_ifs at h <;> cases h

/-- A clause with a reference that is found to dangle holds it, or its nested query does. -/
theorem validate_error {visible : List SourceId} {index : Nat} {c : Clause} {place : String}
    {id : SourceId} (h : c.validate visible index = .error (.danglingReference place id)) :
    (∃ q, c.query? = some q ∧
        q.validateWithin (visible ++ introduced [c]) = .error (.danglingReference place id)) ∨
      ∃ e ∈ c.expressions, RefersTo id e ∧ id ∉ visible ++ introduced [c] := by
  rw [validate_eq] at h
  split_ifs at h with linked
  · cases h
  rcases except_bind_eq_error_iff.mp h with h | ⟨visible', hv, h⟩
  · exact absurd h introduce_ne_dangling
  obtain rfl := (introduce_eq_ok_iff.mp hv).2.2
  rcases except_bind_eq_error_iff.mp h with h | ⟨_, -, h⟩
  · cases c with
    | orderBy keys previous => exact absurd h checkKeys_ne_dangling
    | fromQuery source query projection previous => exact .inl ⟨query, rfl, h⟩
    | _ => cases h
  · rcases except_bind_eq_error_iff.mp h with h | ⟨_, -, h⟩
    · exact .inr (checkReferences_error h)
    · cases h

/-- A body that is refused has a clause that is refused where it stands. -/
theorem validateBody_error {visible : List SourceId} {index : Nat} {cs : List Clause}
    {e : QueryError} (h : validateBody visible index cs = .error e) :
    ∃ (i : Nat) (c : Clause), cs[i]? = some c ∧
      c.validate (visible ++ introduced (cs.take i)) (index + i) = .error e := by
  induction cs generalizing visible index with
  | nil => cases h
  | cons c cs ih =>
    rw [validateBody] at h
    rcases except_bind_eq_error_iff.mp h with h | ⟨visible', hv, h⟩
    · exact ⟨0, c, rfl, by simpa using h⟩
    · obtain rfl := (validate_eq_ok_iff.mp hv).2.2.2.2.2
      obtain ⟨i, d, hd, h⟩ := ih h
      refine ⟨i + 1, d, by simpa using hd, ?_⟩
      rw [List.take_succ_cons, introduced_cons, ← List.append_assoc]
      rwa [Nat.add_assoc, Nat.add_comm 1] at h

namespace Query

variable {outer outer' : List SourceId} {q : Query} {id : SourceId}

/-! ### Missed sources -/

/-- An expression of the query, or of a query nested in its from clauses, refers to the source `id`
where it is not visible. -/
inductive Misses (id : SourceId) : List SourceId → Query → Prop where
  /-- The sequence of the main from clause. -/
  | generator {outer : List SourceId} {q : Query} (refers : RefersTo id q.generator)
      (hidden : id ∉ outer) : Misses id outer q
  /-- An expression of a clause. -/
  | clause {outer : List SourceId} {q : Query} {i : Nat} {c : Clause} {e : Expr}
      (stands : q.body[i]? = some c) (held : e ∈ c.expressions) (refers : RefersTo id e)
      (hidden : id ∉ q.visible outer (i + 1)) : Misses id outer q
  /-- An expression of a nested query. -/
  | nested {outer : List SourceId} {q q' : Query} {i : Nat} {c : Clause}
      (stands : q.body[i]? = some c) (iterates : c.query? = some q')
      (misses : Misses id (q.visible outer (i + 1)) q') : Misses id outer q
  /-- An expression at the end of the query. -/
  | terminal {outer : List SourceId} {q : Query} {t : Terminal} {e : Expr}
      (ended : q.terminal = some t) (held : e ∈ t.expressions) (refers : RefersTo id e)
      (hidden : id ∉ q.visible outer q.body.length) : Misses id outer q
  /-- An expression of an operator. -/
  | operator {outer : List SourceId} {q : Query} {op : ResultOp} {e : Expr}
      (mem : op ∈ q.operators) (held : e ∈ op.expressions) (refers : RefersTo id e)
      (hidden : id ∉ q.visible outer q.body.length) : Misses id outer q

/-- The reference that validation finds to dangle is one to a source that is not visible there. -/
theorem misses_of_dangling {place : String}
    (h : q.validateWithin outer = .error (.danglingReference place id)) : q.Misses id outer := by
  induction q using Query.induction generalizing outer with
  | step q ih =>
    rw [validateWithin_eq] at h
    rcases except_bind_eq_error_iff.mp h with h | ⟨_, -, h⟩
    · obtain ⟨e, he, refers, hidden⟩ := checkReferences_error h
      cases List.mem_singleton.mp he
      exact .generator refers hidden
    rcases except_bind_eq_error_iff.mp h with h | ⟨visible, hv, h⟩
    · exact absurd h register_ne_dangling
    rw [register] at hv
    split_ifs at hv
    cases hv
    rcases except_bind_eq_error_iff.mp h with h | ⟨visible, hb, h⟩
    · obtain ⟨i, c, hc, h⟩ := validateBody_error h
      rw [List.append_assoc, List.singleton_append, ← visible, Nat.zero_add] at h
      rcases validate_error h with ⟨q', hq, h⟩ | ⟨e, he, refers, hidden⟩
      · rw [← visible_succ _ hc] at h
        exact .nested hc hq (ih c (List.mem_of_getElem? hc) q' hq h)
      · rw [← visible_succ _ hc] at hidden
        exact .clause hc he refers hidden
    · obtain ⟨-, rfl⟩ := validateBody_body_eq_ok_iff.mp hb
      rcases except_bind_eq_error_iff.mp h with h | ⟨_, -, h⟩
      · obtain ⟨t, ht, e, he, refers, hidden⟩ := checkTerminal_error h
        exact .terminal ht he refers hidden
      · obtain ⟨op, hop, e, he, refers, hidden⟩ := checkOperators_error h
        exact .operator hop he refers hidden

theorem Misses.mentions (h : q.Misses id outer) : q.Mentions id := by
  induction h with
  | generator refers _ => exact .own (mem_ownExpressions_iff.mpr (.inl rfl)) refers
  | clause stands held refers _ =>
    exact .own (mem_ownExpressions_iff.mpr
      (.inr (.inl ⟨_, List.mem_of_getElem? stands, held⟩))) refers
  | nested stands iterates _ ih => exact .nested (List.mem_of_getElem? stands) iterates ih
  | terminal ended held refers _ =>
    exact .own (mem_ownExpressions_iff.mpr (.inr (.inr (.inl ⟨_, ended, held⟩)))) refers
  | operator mem held refers _ =>
    exact .own (mem_ownExpressions_iff.mpr (.inr (.inr (.inr ⟨_, mem, held⟩)))) refers

theorem Misses.not_mem (h : q.Misses id outer) : id ∉ outer := by
  induction h with
  | generator _ hidden => exact hidden
  | nested _ _ _ ih => exact fun hid => ih (subset_visible _ _ _ hid)
  | clause _ _ _ hidden | terminal _ _ _ hidden | operator _ _ _ hidden =>
    exact fun hid => hidden (subset_visible _ _ _ hid)

/-- What is visible with some sources around the query, but not with others, is one of the first. -/
theorem mem_outer_of_visible {i : Nat} (h : id ∈ q.visible outer' i)
    (hidden : id ∉ q.visible outer i) : id ∈ outer' := by
  simp only [visible, List.mem_append, not_or] at h hidden
  exact h.resolve_right hidden.2

/-- Where the sources `outer'` were around a query, it can miss no other ones. -/
theorem Misses.mem_of_grounded (h : q.Misses id outer) :
    ∀ {outer'}, q.Grounded outer' → id ∈ outer' := by
  induction h with
  | generator refers _ =>
    rintro outer' ⟨generator, _, _, _, _⟩
    exact generator id refers
  | clause stands held refers hidden =>
    rintro outer' ⟨_, clauses, _, _, _⟩
    exact mem_outer_of_visible (clauses _ _ stands _ held id refers) hidden
  | nested stands iterates misses ih =>
    exact fun grounded => mem_outer_of_visible (ih (grounded.nested stands iterates)) misses.not_mem
  | terminal ended held refers hidden =>
    rintro outer' ⟨_, _, _, terminal, _⟩
    exact mem_outer_of_visible (terminal _ ended _ held id refers) hidden
  | operator mem held refers hidden =>
    rintro outer' ⟨_, _, _, _, operators⟩
    exact mem_outer_of_visible (operators _ mem _ held id refers) hidden

/-! ### Introduced sources -/

/-- The query, or a query nested in its from clauses, has a source of the identity `id`. -/
inductive Introduces (id : SourceId) : Query → Prop where
  /-- The query itself. -/
  | own {q : Query} (mem : id ∈ q.sourceIds) : Introduces id q
  /-- A nested query. -/
  | nested {q q' : Query} {c : Clause} (mem : c ∈ q.body) (iterates : c.query? = some q')
      (h : Introduces id q') : Introduces id q

theorem Introduces.of_source? {i : Nat} {c : Clause} {s : Source} (hc : q.body[i]? = some c)
    (hs : c.source? = some s) : q.Introduces s.id := by
  refine .own (List.mem_cons_of_mem _ ?_)
  exact List.mem_map_of_mem (List.mem_filterMap.mpr ⟨c, List.mem_of_getElem? hc, hs⟩)

/-- What a query mentions is around it or in it. -/
theorem Grounded.mem_or_introduces (h : q.Mentions id) :
    ∀ {outer}, q.Grounded outer → id ∈ outer ∨ q.Introduces id := by
  induction h with
  | own mem refers =>
    intro outer grounded
    have := grounded.refersWithin_own _ mem id refers
    exact (List.mem_append.mp this).imp_right .own
  | nested mem iterates _ ih =>
    intro outer grounded
    obtain ⟨i, hi⟩ := List.getElem?_of_mem mem
    rcases ih (grounded.nested hi iterates) with hid | hid
    · exact (List.mem_append.mp (visible_subset_sourceIds _ _ _ hid)).imp_right .own
    · exact .inr (.nested mem iterates hid)

/-- A sound query introduces no source that is around it. -/
theorem Sound.not_introduces (h : q.Introduces id) :
    ∀ {outer}, q.Sound outer → id ∉ outer := by
  induction h with
  | own mem => exact fun sound hid => sound.disjoint hid mem
  | nested mem iterates _ ih =>
    intro outer sound hid
    obtain ⟨i, hi⟩ := List.getElem?_of_mem mem
    exact ih (sound.nested hi iterates) (subset_visible outer _ _ hid)

/-- A sound query is sound as well among sources that it does not introduce. -/
theorem Sound.of_not_introduces (h : q.Sound outer) :
    ∀ {outer'}, (∀ id ∈ outer', id ∈ outer ∨ ¬ q.Introduces id) → q.Sound outer' := by
  induction h with
  | @intro outer q fresh stands distinct projected _ ended ih =>
    intro outer' new
    -- What a clause of the query stands behind is new to it with `outer'` as with `outer`.
    have behind : ∀ {i : Nat} {id : SourceId}, id ∈ q.visible outer' i →
        id ∈ q.visible outer i ∨ ¬ q.Introduces id := by
      intro i id hid
      simp only [visible, List.mem_append] at hid ⊢
      rcases hid with hid | hid
      · exact (new id hid).imp_left .inl
      · exact .inl (.inr hid)
    refine .intro (fun hid => ?_) stands (fun i c s hc hs hid => ?_) projected
      (fun i c q' hc hq => ih i c q' hc hq fun id hid => ?_) ended
    · exact (new _ hid).elim fresh fun h => h (.own List.mem_cons_self)
    · exact (behind hid).elim (distinct i c s hc hs) fun h => h (.of_source? hc hs)
    · exact (behind hid).imp_right fun h hid => h (.nested (List.mem_of_getElem? hc) hq hid)

/-! ### Another source -/

/-- A sound query may get another source of an identity that is new to it. -/
theorem Sound.withSource (h : q.Sound outer) {s : Source} (fresh : s.id ∉ outer)
    (new : ¬ q.Introduces s.id) : Sound outer { q with source := s } := by
  cases h with
  | intro _ stands distinct projected nested ended =>
    refine .intro fresh stands (fun i c s' hc hs hid => ?_) projected
      (fun i c q' hc hq => ?_) ended
    · simp only [visible, List.mem_append, List.mem_cons] at hid
      rcases hid with hid | hid | hid
      · exact distinct i c s' hc hs (List.mem_append_left _ hid)
      · exact new (hid ▸ .of_source? hc hs)
      · exact distinct i c s' hc hs (List.mem_append_right _ (List.mem_cons_of_mem _ hid))
    · refine (nested i c q' hc hq).of_not_introduces fun id hid => ?_
      simp only [visible, List.mem_append, List.mem_cons] at hid ⊢
      rcases hid with hid | rfl | hid
      · exact .inl (.inl hid)
      · exact .inr fun h => new (.nested (List.mem_of_getElem? hc) hq h)
      · exact .inl (.inr (.inr hid))

/-- The references of a query are visible with another source if the old one is around it. -/
theorem Grounded.withSource (h : q.Grounded outer) (s : Source) :
    Grounded (q.source.id :: outer) { q with source := s } := by
  have wider : ∀ i, q.visible outer i ⊆
      Query.visible (q.source.id :: outer) { q with source := s } i := by
    intro i id hid
    simp only [visible, List.mem_append, List.mem_cons] at hid ⊢
    tauto
  cases h with
  | intro generator clauses nested terminal operators =>
    exact .intro (generator.subset (List.subset_cons_self ..))
      (fun i c hc e he => (clauses i c hc e he).subset (wider _))
      (fun i c q' hc hq => (nested i c q' hc hq).subset (wider _))
      (fun t ht e he => (terminal t ht e he).subset (wider _))
      fun op hop e he => (operators op hop e he).subset (wider _)

/-! ### Retyping and renaming -/

/-- Something behind the main from clause refers to the source `id`: an expression of the body, of
the end of the query or of an operator, or one of a query nested in a from clause. -/
inductive MentionsLater (id : SourceId) (q : Query) : Prop where
  /-- An expression of a clause. -/
  | clause {c : Clause} {e : Expr} (mem : c ∈ q.body) (held : e ∈ c.expressions)
      (refers : RefersTo id e) : MentionsLater id q
  /-- An expression of a nested query. -/
  | nested {c : Clause} {q' : Query} (mem : c ∈ q.body) (iterates : c.query? = some q')
      (mentions : q'.Mentions id) : MentionsLater id q
  /-- An expression at the end of the query. -/
  | terminal {t : Terminal} {e : Expr} (ended : q.terminal = some t) (held : e ∈ t.expressions)
      (refers : RefersTo id e) : MentionsLater id q
  /-- An expression of an operator. -/
  | operator {op : ResultOp} {e : Expr} (mem : op ∈ q.operators) (held : e ∈ op.expressions)
      (refers : RefersTo id e) : MentionsLater id q

theorem mentions_iff : q.Mentions id ↔ RefersTo id q.generator ∨ q.MentionsLater id := by
  constructor
  · intro h
    cases h with
    | own mem refers =>
      rcases mem_ownExpressions_iff.mp mem with rfl | ⟨c, hc, he⟩ | ⟨t, ht, he⟩ | ⟨op, hop, he⟩
      · exact .inl refers
      · exact .inr (.clause hc he refers)
      · exact .inr (.terminal ht he refers)
      · exact .inr (.operator hop he refers)
    | nested mem iterates h => exact .inr (.nested mem iterates h)
  · rintro (refers | h)
    · exact .own (mem_ownExpressions_iff.mpr (.inl rfl)) refers
    · cases h with
      | clause mem held refers =>
        exact .own (mem_ownExpressions_iff.mpr (.inr (.inl ⟨_, mem, held⟩))) refers
      | nested mem iterates h => exact .nested mem iterates h
      | terminal ended held refers =>
        exact .own (mem_ownExpressions_iff.mpr (.inr (.inr (.inl ⟨_, ended, held⟩)))) refers
      | operator mem held refers =>
        exact .own (mem_ownExpressions_iff.mpr (.inr (.inr (.inr ⟨_, mem, held⟩)))) refers

/-- In a valid query that stands alone, the sequence of the main from clause refers to nothing. -/
theorem mentions_iff_mentionsLater (grounded : q.Grounded []) :
    q.Mentions id ↔ q.MentionsLater id := by
  rw [mentions_iff, or_iff_right]
  intro refers
  cases grounded with
  | intro generator _ _ _ _ => exact List.not_mem_nil (generator id refers)

theorem mentions_withSource_iff (s : Source) :
    Mentions id { q with source := s } ↔ q.Mentions id := by
  have later : MentionsLater id { q with source := s } ↔ q.MentionsLater id := by
    constructor <;>
    · intro h
      cases h with
      | clause mem held refers => exact .clause mem held refers
      | nested mem iterates h => exact .nested mem iterates h
      | terminal ended held refers => exact .terminal ended held refers
      | operator mem held refers => exact .operator mem held refers
  rw [mentions_iff, mentions_iff, later]

/-- A sound query that introduces its source once only. -/
theorem Sound.not_introduces_withSource (h : q.Sound outer) {s : Source} (ne : q.source.id ≠ s.id) :
    ¬ Introduces q.source.id { q with source := s } := by
  intro hi
  have visible : ∀ i, q.source.id ∈ q.visible outer i := by simp [Query.visible]
  cases hi with
  | own mem =>
    rcases List.mem_cons.mp mem with hid | hid
    · exact ne hid
    · cases h with
      | intro fresh _ distinct =>
        have := (sourceIds_fresh_iff.mp ⟨fresh, distinct⟩).1
        exact (List.nodup_cons.mp this).1 hid
  | nested mem iterates hi =>
    obtain ⟨i, hc⟩ := List.getElem?_of_mem mem
    exact Sound.not_introduces hi (h.nested hc iterates) (visible (i + 1))

/-- With a source of a new identity, a valid query is valid if nothing refers to the old one.
Otherwise a reference to the old one dangles. -/
theorem validate_withSource {s : Source} (valid : q.validate = .ok ())
    (new : ¬ q.Introduces s.id) :
    (¬ q.MentionsLater q.source.id ∧ validate { q with source := s } = .ok ()) ∨
      q.MentionsLater q.source.id ∧
        ∃ place, validate { q with source := s } = .error (.danglingReference place q.source.id) := by
  obtain ⟨sound, grounded⟩ := validateWithin_eq_ok_iff.mp valid
  rw [← mentions_iff_mentionsLater grounded, ← mentions_withSource_iff s]
  rcases (sound.withSource List.not_mem_nil new).dangles with h | ⟨place, id, h⟩
  · refine .inl ⟨fun mentions => ?_, h⟩
    have ne : q.source.id ≠ s.id := fun heq => new (heq ▸ .own List.mem_cons_self)
    rcases Grounded.mem_or_introduces mentions (validateWithin_eq_ok_iff.mp h).2 with hid | hid
    · exact List.not_mem_nil hid
    · exact sound.not_introduces_withSource ne hid
  · have misses := misses_of_dangling h
    obtain rfl := List.mem_singleton.mp (misses.mem_of_grounded (grounded.withSource s))
    exact .inr ⟨misses.mentions, place, h⟩

theorem validate_withName (q : Query) (name : String) :
    validate { q with source := { q.source with item := { q.source.item with name := name } } } =
      q.validate := by
  rw [validate, validate, validateWithin_eq, validateWithin_eq]
  rfl

/-- **Retyping and renaming.** Let the main source of a query get another type, and with it an
identity that the query does not introduce. If the query was valid, it is so afterwards exactly if
nothing behind the main from clause refers to the source by its old identity; otherwise validation
finds such a reference, and no other error. Another name of the main source changes nothing of what
validation finds. -/
theorem validate_retype_rename (ids : Nat → SourceId) (q : Query) (drawn : Nat) :
    (∀ type, q.validate = .ok () → ¬ q.Introduces (ids drawn) →
      let retyped := (performAll ids [.retype type] ⟨q, drawn⟩).query
      retyped.source = ⟨ids drawn, { q.source.item with type := type }⟩ ∧
        (retyped.validate = .ok () ↔ ¬ q.MentionsLater q.source.id) ∧
        (retyped.validate ≠ .ok () →
          ∃ place, retyped.validate = .error (.danglingReference place q.source.id))) ∧
    ∀ name, name ≠ "" →
      let renamed := (performAll ids [.rename name] ⟨q, drawn⟩).query
      renamed.source = { q.source with item := { q.source.item with name := name } } ∧
        renamed.validate = q.validate := by
  refine ⟨fun type valid new => ⟨rfl, ?_⟩, fun name ne => ?_⟩
  · have step : (performAll ids [.retype type] ⟨q, drawn⟩).query =
        { q with source := ⟨ids drawn, { q.source.item with type := type }⟩ } := by
      have made : Runs (q.source.retype ids type : DrawM QueryError Source) drawn
        ⟨ids drawn, { q.source.item with type := type }⟩ (drawn + 1) := rfl
      rw [performAll_cons, Edit.perform, Draft.execute_retype ⟨q, drawn⟩ made]
      rfl
    rw [step]
    rcases validate_withSource (s := ⟨ids drawn, _⟩) valid new with ⟨no, h⟩ | ⟨yes, place, h⟩
    · exact ⟨iff_of_true h no, fun refused => absurd h refused⟩
    · exact ⟨iff_of_false (by simp [h]) (not_not_intro yes), fun _ => ⟨place, h⟩⟩
  · have step : (performAll ids [.rename name] ⟨q, drawn⟩).query =
        { q with source := { q.source with item := { q.source.item with name := name } } } := by
      have accepted : q.source.rename name =
          .ok { q.source with item := { q.source.item with name := name } } := if_neg ne
      rw [performAll_cons, Edit.perform, Draft.execute_rename, accepted]
      rfl
    rw [step]
    exact ⟨rfl, validate_withName q name⟩

end Query

/-- The nested query of a valid query refers to its source, which is found when the source gets
another type, and not when it gets another name. -/
theorem brigade_retype_rename :
    let brigade := fun edit =>
      (performAll SourceId.countUp [edit] ⟨Sample.brigade, 4⟩).query.validate
    Sample.brigade.validate = .ok () ∧ ¬ Sample.brigade.Introduces ⟨5⟩ ∧
      (∃ place, brigade (.retype Ty.object) = .error (.danglingReference place ⟨1⟩)) ∧
      brigade (.rename "r") = .ok () := by
  have valid : Sample.brigade.validate = .ok () := by decide
  have new : ¬ Sample.brigade.Introduces ⟨5⟩ := by
    intro h
    cases h with
    | own mem => exact absurd mem (by decide)
    | nested mem iterates h =>
      simp only [Sample.brigade, List.mem_cons, List.not_mem_nil, or_false] at mem
      rcases mem with rfl | rfl
      · cases iterates
        cases h with
        | own mem => exact absurd mem (by decide)
        | nested mem => cases mem
      · cases iterates
  obtain ⟨retype, rename⟩ := Query.validate_retype_rename SourceId.countUp Sample.brigade 4
  obtain ⟨-, kept, dangling⟩ := retype Ty.object valid new
  refine ⟨valid, new, dangling fun h => ?_, (rename "r" (by decide)).2.trans valid⟩
  have crew : Sample.crew.Mentions ⟨1⟩ :=
    .own (List.mem_cons_self) (mem_sources_iff.mp (by decide))
  exact kept.mp h (.nested (List.mem_cons_self) rfl crew)

end QueryFold
