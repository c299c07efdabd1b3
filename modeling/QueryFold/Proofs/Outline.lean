import QueryFold.Outline
import QueryFold.Proofs.Chain.Step
import QueryFold.Proofs.Query.Editing

/-!
# Outlines and their queries

The query of an outline is made by one loop over the entries, which hands out projections and
keeps the order by clause that a further key may join. Here it is shown what comes out of it: the
body read line by line is the entries, in order (`Lists`), the from clauses have the first
projections, and the last projection is selected. And it is shown when anything comes out of it at
all, which depends on the outline alone (`Outline.Complete`).

`Transcript.Step` says what the loop does with one entry, `Transcript.Listed` what is true of the
query between two entries. A step keeps it, so it holds at the end (`Transcript.Steps.listed`).
-/

namespace QueryFold

/-! ### Lines -/

/-- A line of the text of a query: a clause, or one key of an order by clause. -/
inductive Line where
  /-- A clause that does not sort. -/
  | clause (c : Clause)
  /-- A key; `first` says that it is the first one of its clause. -/
  | key (first : Bool) (k : SortKey)

/-- The lines of a clause: an order by clause has one for each of its keys. -/
def Clause.lines : Clause → List Line
  | .orderBy (k :: ks) _ => .key true k :: ks.map (.key false)
  | c => [.clause c]

/-- The lines of the body of a query. -/
def Query.lines (q : Query) : List Line := q.body.flatMap Clause.lines

/-- What an expression is taken for if it stands for a sequence: a lambda for its body, and any
other expression for itself. -/
inductive Expr.TakenFor : Expr → Expr → Prop where
  /-- An expression that is no lambda. -/
  | itself {e : Expr} (other : ∀ params body, e ≠ .lambda params body) : TakenFor e e
  /-- The body of a lambda. -/
  | body {params : List Param} {body : Expr} : TakenFor (.lambda params body) body

theorem Expr.takenFor_shape (e : Expr) : e.TakenFor e.shape := by
  cases e with
  | lambda _ _ => exact .body
  | _ => exact .itself nofun

namespace OutlineEntry

/-- Whether an entry sorts. -/
def sorts : OutlineEntry → Bool
  | order _ _ _ => true
  | _ => false

/-- Whether an entry iterates over a sequence. -/
def iterates : OutlineEntry → Bool
  | source _ _ => true
  | _ => false

/-- The item that an entry names. -/
def item? : OutlineEntry → Option Param
  | source item _ | define item _ => some item
  | _ => none

/-- The entry becomes the line, when `before` is the entry before it. What a sequence becomes is
decided by what its expression is taken for. -/
inductive Becomes (before : Option OutlineEntry) : OutlineEntry → Line → Prop where
  /-- An iteration over a nested query. -/
  | subQuery {item : Param} {e projection : Expr} {q : Query} {id : SourceId} {previous : Position}
      (taken : e.TakenFor (.subQuery q)) :
      Becomes before (.source item e) (.clause (.fromQuery ⟨id, item⟩ q (some projection) previous))
  /-- An iteration over a member. -/
  | member {item : Param} {e projection object : Expr} {name : String} {t : Ty} {id : SourceId}
      {previous : Position} (taken : e.TakenFor (.member object name t)) :
      Becomes before (.source item e)
        (.clause (.fromExpr .member ⟨id, item⟩ e (some projection) previous))
  /-- An iteration over any other sequence. -/
  | additional {item : Param} {e e' projection : Expr} {id : SourceId} {previous : Position}
      (taken : e.TakenFor e') (noQuery : ∀ q, e' ≠ .subQuery q)
      (noMember : ∀ object name t, e' ≠ .member object name t) :
      Becomes before (.source item e)
        (.clause (.fromExpr .additional ⟨id, item⟩ e (some projection) previous))
  /-- A predicate. -/
  | filter {predicate : Expr} {previous : Position} :
      Becomes before (.filter predicate) (.clause (.filter predicate previous))
  /-- A named value. -/
  | define {item : Param} {value : Expr} {id : SourceId} {previous : Position} :
      Becomes before (.define item value) (.clause (.define ⟨id, item⟩ value previous))
  /-- A key. It starts a clause if the entry says so, and if no entry that sorts is before it. -/
  | order {first starts : Bool} {direction : Direction} {key : Expr} {owner : Option Position}
      (opens : starts = true ↔
        first = true ∨ before = none ∨ ∃ entry, before = some entry ∧ entry.sorts = false) :
      Becomes before (.order first direction key) (.key starts ⟨key, direction, owner⟩)

end OutlineEntry

/-- The lines are what the entries become, one by one, when `before` is the entry before them. -/
inductive Lists : (before : Option OutlineEntry) → List OutlineEntry → List Line → Prop where
  /-- No entries. -/
  | nil {before : Option OutlineEntry} : Lists before [] []
  /-- An entry, and then the others. -/
  | cons {before : Option OutlineEntry} {entry : OutlineEntry} {entries : List OutlineEntry}
      {line : Line} {lines : List Line} (here : entry.Becomes before line)
      (others : Lists (some entry) entries lines) :
      Lists before (entry :: entries) (line :: lines)

theorem Lists.concat {before : Option OutlineEntry} {entries : List OutlineEntry}
    {lines : List Line} {entry : OutlineEntry} {line : Line} (h : Lists before entries lines)
    (last : entry.Becomes (entries.getLast?.or before) line) :
    Lists before (entries ++ [entry]) (lines ++ [line]) := by
  induction h with
  | nil => exact .cons last .nil
  | cons here _ ih =>
    refine .cons here (ih ?_)
    rw [List.getLast?_cons, Option.some_or] at last
    rwa [Option.or_some]

/-! ### Complete outlines, and what becomes of them -/

namespace Outline

/-- What an outline must have for a query to be made from it. -/
structure Complete (o : Outline) : Prop where
  /-- It begins with a sequence. -/
  begins : ∃ item e rest, o.entries = .source item e :: rest
  /-- The items that it names have names. -/
  named : ∀ entry ∈ o.entries, ∀ item, entry.item? = some item → item.name ≠ ""
  /-- It has a projection to be selected. -/
  projects : o.projections ≠ []
  /-- It has a projection for each sequence behind the first one. -/
  enough : o.entries.tail.countP OutlineEntry.iterates ≤ o.projections.length

/-- The query says what the outline says, when the first of its identities is the one drawn after
`drawn` others. -/
structure Transcribed (ids : Nat → SourceId) (root : Expr) (o : Outline) (drawn : Nat)
    (q : Query) : Prop where
  /-- The first entry is the main from clause. -/
  main : o.entries.head? = some (.source q.source.item q.generator)
  /-- The others are the lines of the body. -/
  lines : Lists none o.entries.tail q.lines
  /-- The from clauses of the body have the first projections. -/
  projections : (q.body.filter Clause.isFrom).map Clause.projection? =
    (o.projections.take (o.entries.tail.countP OutlineEntry.iterates)).map some
  /-- The first clause of the body names the main from clause. -/
  first : ∀ c, q.body[0]? = some c → c.previous = .main
  /-- Each further one names the one before it. -/
  linked : ∀ (i : Nat) (c : Clause), q.body[i + 1]? = some c → c.previous = .body i
  /-- Each key names its clause. -/
  owned : ∀ (i : Nat) (keys : List SortKey) (previous : Position),
    q.body[i]? = some (.orderBy keys previous) → ∀ k ∈ keys, k.owner = some (.body i)
  /-- The last projection is selected, and behind the last clause. -/
  terminal : ∃ selector previous, o.projections.getLast? = some selector ∧
    q.terminal = some (.select selector previous) ∧ (q.body = [] → previous = .main) ∧
      ∀ i, q.body.length = i + 1 → previous = .body i
  /-- Equal items are dropped if the outline says so. -/
  operators : q.operators = if o.distinct then [.plain .distinct] else []
  /-- The result has the type of what the query stands for. -/
  resultType : q.resultType = root.type
  /-- The sources have the identities that are drawn. -/
  identities : q.sourceIds = (List.range' drawn q.sourceIds.length).map ids

end Outline

/-! ### Steps -/

/-- What the loop over the entries of an outline works on. -/
structure Transcript where
  /-- The query so far. -/
  query : Query
  /-- The projections that are not yet taken. -/
  projections : List Expr
  /-- The order by clause of the entry before, if that one sorts. -/
  sorting : Option Position
  /-- How many identities were drawn. -/
  drawn : Nat

namespace Transcript

/-- Before the loop there is the main from clause only. -/
def start (ids : Nat → SourceId) (root : Expr) (projections : List Expr) (drawn : Nat)
    (item : Param) (e : Expr) : Transcript where
  query := .start ⟨ids drawn, item⟩ e root.type
  projections := projections
  sorting := none
  drawn := drawn + 1

/-- What the loop does with an entry. -/
inductive Step (ids : Nat → SourceId) (t : Transcript) : OutlineEntry → Transcript → Prop where
  /-- A sequence takes a projection. -/
  | source {item : Param} {e projection : Expr} {projections : List Expr} (named : item.name ≠ "")
      (left : t.projections = projection :: projections) :
      Step ids t (.source item e)
        ⟨t.query.addClause (Outline.fromClause ⟨ids t.drawn, item⟩ e projection), projections, none,
          t.drawn + 1⟩
  /-- A predicate is added. -/
  | filter {predicate : Expr} :
      Step ids t (.filter predicate)
        ⟨t.query.addClause (.filter predicate .main), t.projections, none, t.drawn⟩
  /-- A value is named. -/
  | define {item : Param} {value : Expr} (named : item.name ≠ "") :
      Step ids t (.define item value)
        ⟨t.query.addClause (.define ⟨ids t.drawn, item⟩ value .main), t.projections, none,
          t.drawn + 1⟩
  /-- A key opens an order by clause. -/
  | opens {first : Bool} {direction : Direction} {key : Expr}
      (alone : first = true ∨ t.sorting = none) :
      Step ids t (.order first direction key)
        ⟨t.query.addClause (.orderBy [⟨key, direction, none⟩] .main), t.projections,
          some t.query.next, t.drawn⟩
  /-- A key joins the order by clause of the entry before. -/
  | joins {direction : Direction} {key : Expr} {position : Position} {q : Query}
      (sorting : t.sorting = some position)
      (extended : t.query.addKey position ⟨key, direction, none⟩ = .ok q) :
      Step ids t (.order false direction key) ⟨q, t.projections, some position, t.drawn⟩

/-- What the loop does with several entries. -/
inductive Steps (ids : Nat → SourceId) : Transcript → List OutlineEntry → Transcript → Prop where
  /-- No entries. -/
  | nil {t : Transcript} : Steps ids t [] t
  /-- An entry, and then the others. -/
  | cons {t t₁ t' : Transcript} {entry : OutlineEntry} {entries : List OutlineEntry}
      (step : t.Step ids entry t₁) (rest : Steps ids t₁ entries t') :
      Steps ids t (entry :: entries) t'

end Transcript

variable {ids : Nat → SourceId} {t t' : Transcript} {entry : OutlineEntry}
  {entries : List OutlineEntry}

/-- The loop does with the first entry what a step does, and goes on with the others. -/
theorem Outline.addEntries_cons_runs_iff {q' : Query} {k' : Nat} :
    Runs (addEntries ids t.query t.projections t.sorting (entry :: entries)) t.drawn q' k' ↔
      ∃ t₁ : Transcript, t.Step ids entry t₁ ∧
        Runs (addEntries ids t₁.query t₁.projections t₁.sorting entries) t₁.drawn q' k' := by
  constructor
  · intro h
    rw [addEntries.eq_def] at h
    cases entry with
    | source item e =>
      cases left : t.projections with
      | nil => simp [left] at h
      | cons projection projections =>
        simp only [left, runs_bind, runs_createSource, and_assoc, exists_and_left,
          exists_eq_left] at h
        exact ⟨_, .source h.1 left, h.2⟩
    | filter predicate => exact ⟨_, .filter, h⟩
    | define item value =>
      simp only [runs_bind, runs_createSource, and_assoc, exists_and_left, exists_eq_left] at h
      exact ⟨_, .define h.1, h.2⟩
    | order first direction key =>
      simp only at h
      split at h
      · rename_i position sorting
        obtain ⟨rfl, sorting⟩ : first = false ∧ t.sorting = some position := by
          cases first <;> simp_all
        simp only [runs_bind, runs_lift, ofQueryResult_eq_ok_iff, and_assoc, exists_and_left,
          exists_eq_left] at h
        obtain ⟨q, extended, rest⟩ := h
        exact ⟨_, .joins sorting extended, rest⟩
      · rename_i sorting
        exact ⟨_, .opens (by cases first <;> simp_all), h⟩
  · rintro ⟨t₁, step, rest⟩
    rw [addEntries.eq_def]
    cases step with
    | source named left =>
      simp only [left, runs_bind, runs_createSource, and_assoc, exists_and_left, exists_eq_left]
      exact ⟨named, rest⟩
    | filter => exact rest
    | define named =>
      simp only [runs_bind, runs_createSource, and_assoc, exists_and_left, exists_eq_left]
      exact ⟨named, rest⟩
    | @opens first direction key alone =>
      have sorting : (if first = true then none else t.sorting) = none := by
        cases first <;> simp_all
      simpa only [sorting] using rest
    | joins sorting extended =>
      simp only [sorting, Bool.false_eq_true, if_false, runs_bind, runs_lift,
        ofQueryResult_eq_ok_iff, extended, and_assoc, exists_and_left, exists_eq_left]
      exact ⟨_, rfl, rest⟩

theorem Outline.addEntries_runs_iff {q' : Query} {k' : Nat} :
    Runs (addEntries ids t.query t.projections t.sorting entries) t.drawn q' k' ↔
      ∃ t', Transcript.Steps ids t entries t' ∧ t'.query = q' ∧ t'.drawn = k' := by
  induction entries generalizing t with
  | nil =>
    rw [addEntries, runs_pure]
    constructor
    · rintro ⟨rfl, rfl⟩
      exact ⟨t, .nil, rfl, rfl⟩
    · rintro ⟨_, steps, rfl, rfl⟩
      cases steps
      exact ⟨rfl, rfl⟩
  | cons entry entries ih =>
    simp only [addEntries_cons_runs_iff, ih]
    constructor
    · rintro ⟨t₁, step, t', rest, same⟩
      exact ⟨t', .cons step rest, same⟩
    · rintro ⟨t', steps, same⟩
      cases steps with
      | cons step rest => exact ⟨_, step, t', rest, same⟩

/-! ### Between two entries -/

/-- The body ends with an order by clause, which stands at the position. -/
def Query.SortsAt (q : Query) (position : Position) : Prop :=
  ∃ cs k ks previous, q.body = cs ++ [.orderBy (k :: ks) previous] ∧ position = .body cs.length

/-- What is true when the entries `done` have been put into the query `start`, with the projections
`given` at hand and `drawn` identities drawn before. -/
structure Transcript.Listed (ids : Nat → SourceId) (start : Query) (given : List Expr) (drawn : Nat)
    (done : List OutlineEntry) (t : Transcript) : Prop where
  kept : t.query = { start with body := t.query.body }
  lines : Lists none done t.query.lines
  projections : ∃ taken, given = taken ++ t.projections ∧
    taken.length = done.countP OutlineEntry.iterates ∧
    (t.query.body.filter Clause.isFrom).map Clause.projection? = taken.map some
  linked : t.query.Linked
  sortsAt : ∀ position, t.sorting = some position → t.query.SortsAt position
  sorting : t.sorting = none ↔
    done.getLast? = none ∨ ∃ entry, done.getLast? = some entry ∧ entry.sorts = false
  identities : ∃ n, t.drawn = drawn + n ∧ t.query.sourceIds = (List.range' drawn n).map ids

namespace Query

theorem lines_addClause (q : Query) (c : Clause) :
    (q.addClause c).lines = q.lines ++ (c.attach q.next q.last).lines := by
  simp [lines, addClause]

/-- A further key makes a further line. -/
theorem SortsAt.exists_addKey {q : Query} {position : Position} (h : q.SortsAt position)
    (k : SortKey) :
    ∃ q', q.addKey position k = .ok q' ∧ q' = { q with body := q'.body } ∧ q'.SortsAt position ∧
      q'.lines = q.lines ++ [.key false { k with owner := some position }] ∧
      q'.body.filter Clause.isFrom = q.body.filter Clause.isFrom := by
  obtain ⟨cs, k₀, ks, previous, body, rfl⟩ := h
  have clause : q.body[cs.length]? = some (.orderBy (k₀ :: ks) previous) := by
    rw [body, List.getElem?_concat_length]
  refine ⟨_, modifyClause_eq_ok_iff.mpr ⟨cs.length, _, _, rfl, clause, rfl, rfl⟩, rfl, ?_, ?_, ?_⟩
  · exact ⟨cs, k₀, ks ++ [{ k with owner := some (.body cs.length) }], previous, by simp [body],
      rfl⟩
  · simp [lines, body, Clause.lines]
  · simp [body, Clause.isFrom]

/-- A clause that is added to the end may be an order by clause. -/
theorem sortsAt_addClause (q : Query) (k : SortKey) :
    (q.addClause (.orderBy [k] .main)).SortsAt q.next :=
  ⟨q.body, _, [], _, rfl, rfl⟩

theorem linked_addClause {q : Query} (h : q.Linked) (c : Clause) : (q.addClause c).Linked :=
  (Edit.Makes.added c).linked h

theorem linked_addKey {q q' : Query} {position : Position} {k : SortKey} (h : q.Linked)
    (extended : q.addKey position k = .ok q') : q'.Linked := by
  obtain ⟨i, c, c', rfl, clause, change, rfl⟩ := modifyClause_eq_ok_iff.mp extended
  have makes : (Edit.addKey (.body i) k).Makes q { q with body := q.body.set i c' } :=
    .changed rfl clause fun stands => stands.withKey? change
  exact makes.linked h

theorem sourceIds_addKey {q q' : Query} {position : Position} {k : SortKey}
    (extended : q.addKey position k = .ok q') : q'.sourceIds = q.sourceIds := by
  obtain ⟨i, c, c', rfl, clause, change, rfl⟩ := modifyClause_eq_ok_iff.mp extended
  rw [sourceIds, introduced_set clause (Clause.alike_of_withKey? change), sourceIds]

end Query

/-- The clause of a sequence is of the kind of what the expression is taken for. -/
theorem Outline.becomes_fromClause (before : Option OutlineEntry) (s : Source) (e projection : Expr)
    (position previous : Position) :
    ∃ line, ((fromClause s e projection).attach position previous).lines = [line] ∧
      (OutlineEntry.source s.item e).Becomes before line := by
  have taken := e.takenFor_shape
  rw [fromClause]
  split
  · rename_i q shape
    exact ⟨_, rfl, .subQuery (shape ▸ taken)⟩
  · rename_i object name t shape
    exact ⟨_, rfl, .member (shape ▸ taken)⟩
  · rename_i noQuery noMember
    exact ⟨_, rfl, .additional taken noQuery noMember⟩

theorem Outline.isFrom_fromClause (s : Source) (e projection : Expr) :
    (fromClause s e projection).isFrom = true := by
  rw [fromClause]
  split <;> rfl

theorem Outline.projection?_fromClause (s : Source) (e projection : Expr) :
    (fromClause s e projection).projection? = some projection := by
  rw [fromClause]
  split <;> rfl

theorem Outline.source?_fromClause (s : Source) (e projection : Expr) :
    (fromClause s e projection).source? = some s := by
  rw [fromClause]
  split <;> rfl

namespace Transcript

variable {q₀ : Query} {given : List Expr} {drawn : Nat} {done : List OutlineEntry}

/-- An entry that becomes a clause of its own. -/
theorem Listed.addClause (h : t.Listed ids q₀ given drawn done) {clause : Clause} {line : Line}
    (taken : List Expr) {projections : List Expr} {sorting : Option Position} (n : Nat)
    (lines : (clause.attach t.query.next t.query.last).lines = [line])
    (becomes : entry.Becomes done.getLast? line) (left : t.projections = taken ++ projections)
    (count : taken.length = [entry].countP OutlineEntry.iterates)
    (projected : ([clause].filter Clause.isFrom).map Clause.projection? = taken.map some)
    (identities : introduced [clause] = (List.range' t.drawn n).map ids)
    (sortsAt : ∀ position, sorting = some position → (t.query.addClause clause).SortsAt position)
    (sorts : sorting = none ↔ entry.sorts = false) :
    Listed ids q₀ given drawn (done ++ [entry])
      ⟨t.query.addClause clause, projections, sorting, t.drawn + n⟩ := by
  obtain ⟨before, given_eq, before_length, projections_eq⟩ := h.projections
  obtain ⟨m, drawn_eq, ids_eq⟩ := h.identities
  have from_eq : ([clause.attach t.query.next t.query.last].filter Clause.isFrom).map
      Clause.projection? = taken.map some := by
    rw [← projected]
    have alike := Clause.alike_attach t.query.next t.query.last clause
    simp only [List.filter_singleton, alike.isFrom]
    cases clause.isFrom <;> simp
  refine ⟨?_, ?_, ⟨before ++ taken, ?_, ?_, ?_⟩, Query.linked_addClause h.linked clause, sortsAt,
    ?_, m + n, ?_, ?_⟩
  · rw [Query.addClause, h.kept]
  · rw [Query.lines_addClause, lines]
    exact h.lines.concat (by rwa [Option.or_none])
  · rw [given_eq, left, List.append_assoc]
  · rw [List.length_append, before_length, count, List.countP_append]
  · rw [Query.addClause, List.filter_append, List.map_append, projections_eq, from_eq,
      List.map_append]
  · simp [sorts]
  · rw [drawn_eq, Nat.add_assoc]
  · rw [Query.sourceIds_addClause, ids_eq, identities, drawn_eq, ← List.map_append,
      List.range'_append_1]

/-- **A step lists its entry.** -/
theorem Step.listed (h : t.Listed ids q₀ given drawn done) (step : t.Step ids entry t') :
    t'.Listed ids q₀ given drawn (done ++ [entry]) := by
  cases step with
  | @source item e projection projections named left =>
    obtain ⟨line, lines, becomes⟩ :=
      Outline.becomes_fromClause done.getLast? ⟨ids t.drawn, item⟩ e projection _ _
    refine h.addClause [projection] 1 lines becomes left rfl ?_ ?_ nofun ?_
    · simp [Outline.isFrom_fromClause, Outline.projection?_fromClause]
    · simp [introduced_of_source? (Outline.source?_fromClause _ e projection)]
    · simp [OutlineEntry.sorts]
  | filter =>
    exact h.addClause [] 0 rfl .filter rfl rfl rfl rfl nofun (by simp [OutlineEntry.sorts])
  | define named =>
    exact h.addClause [] 1 rfl .define rfl rfl rfl rfl nofun (by simp [OutlineEntry.sorts])
  | opens alone =>
    refine h.addClause [] 0 rfl (.order ?_) rfl rfl rfl rfl ?_ ?_
    · rw [← h.sorting]
      simpa using alone
    · rintro _ ⟨⟩
      exact t.query.sortsAt_addClause _
    · simp [OutlineEntry.sorts]
  | @joins direction key position q sorting extended =>
    obtain ⟨q', extended', kept, sortsAt, lines, froms⟩ :=
      (h.sortsAt position sorting).exists_addKey ⟨key, direction, none⟩
    obtain rfl : q = q' := by simpa [extended] using extended'
    obtain ⟨taken, given_eq, length, projections⟩ := h.projections
    refine ⟨?_, ?_, ⟨taken, given_eq, ?_, ?_⟩, Query.linked_addKey h.linked extended, ?_, ?_, ?_⟩
    · rw [kept, h.kept]
    · rw [lines]
      refine h.lines.concat (.order ?_)
      rw [Option.or_none, ← h.sorting, sorting]
      simp
    · simpa [OutlineEntry.iterates] using length
    · rw [froms, projections]
    · rintro _ ⟨⟩
      exact sortsAt
    · simp [OutlineEntry.sorts]
    · rw [Query.sourceIds_addKey extended]
      exact h.identities

/-- **The loop lists its entries.** -/
theorem Steps.listed (h : t.Listed ids q₀ given drawn done) (steps : Steps ids t entries t') :
    t'.Listed ids q₀ given drawn (done ++ entries) := by
  induction steps generalizing done with
  | nil => simpa using h
  | cons step _ ih => simpa using ih (step.listed h)

/-- A step can be done if the item of the entry has a name and a sequence finds a projection. -/
theorem Listed.exists_step_iff (h : t.Listed ids q₀ given drawn done) :
    (∃ t', t.Step ids entry t') ↔ (∀ item, entry.item? = some item → item.name ≠ "") ∧
      [entry].countP OutlineEntry.iterates ≤ t.projections.length := by
  constructor
  · rintro ⟨t', step⟩
    cases step with
    | source named left =>
      refine ⟨by rintro _ ⟨⟩; exact named, ?_⟩
      simp [left, OutlineEntry.iterates]
    | define named => exact ⟨by rintro _ ⟨⟩; exact named, Nat.zero_le _⟩
    | filter | opens _ | joins _ _ => exact ⟨nofun, Nat.zero_le _⟩
  · rintro ⟨named, enough⟩
    cases entry with
    | source item e =>
      cases left : t.projections with
      | nil => simp [left, OutlineEntry.iterates] at enough
      | cons projection projections => exact ⟨_, .source (named item rfl) left⟩
    | filter predicate => exact ⟨_, .filter⟩
    | define item value => exact ⟨_, .define (named item rfl)⟩
    | order first direction key =>
      by_cases alone : first = true ∨ t.sorting = none
      · exact ⟨_, .opens alone⟩
      · obtain ⟨rfl, sorting⟩ : first = false ∧ t.sorting ≠ none := by simpa using alone
        obtain ⟨position, sorting⟩ := Option.ne_none_iff_exists'.mp sorting
        obtain ⟨q, extended, -⟩ := (h.sortsAt position sorting).exists_addKey ⟨key, direction, none⟩
        exact ⟨_, .joins sorting extended⟩

theorem Step.length_projections (step : t.Step ids entry t') :
    t.projections.length = [entry].countP OutlineEntry.iterates + t'.projections.length := by
  cases step with
  | source _ left => simp [left, OutlineEntry.iterates, Nat.add_comm]
  | filter | define _ | opens _ | joins _ _ => simp [OutlineEntry.iterates]

/-- The loop can be run if the items of the entries have names and there are projections enough. -/
theorem Listed.exists_steps_iff (h : t.Listed ids q₀ given drawn done) :
    (∃ t', Steps ids t entries t') ↔
      (∀ entry ∈ entries, ∀ item, entry.item? = some item → item.name ≠ "") ∧
        entries.countP OutlineEntry.iterates ≤ t.projections.length := by
  induction entries generalizing t done with
  | nil => exact ⟨fun _ => ⟨nofun, Nat.zero_le _⟩, fun _ => ⟨t, .nil⟩⟩
  | cons entry entries ih =>
    have split : (entry :: entries).countP OutlineEntry.iterates =
        [entry].countP OutlineEntry.iterates + entries.countP OutlineEntry.iterates := by
      rw [← List.countP_append, List.singleton_append]
    rw [List.forall_mem_cons, split]
    constructor
    · rintro ⟨t', steps⟩
      cases steps with
      | cons step rest =>
        obtain ⟨named, -⟩ := h.exists_step_iff.mp ⟨_, step⟩
        obtain ⟨others, enough⟩ := (ih (step.listed h)).mp ⟨_, rest⟩
        have := step.length_projections
        exact ⟨⟨named, others⟩, by omega⟩
    · rintro ⟨⟨named, others⟩, enough⟩
      obtain ⟨t₁, step⟩ := h.exists_step_iff.mpr ⟨named, by omega⟩
      have := step.length_projections
      obtain ⟨t', rest⟩ := (ih (step.listed h)).mpr ⟨others, by omega⟩
      exact ⟨t', .cons step rest⟩

/-- Before the loop nothing is listed. -/
theorem listed_start (ids : Nat → SourceId) (root : Expr) (projections : List Expr) (k : Nat)
    (item : Param) (e : Expr) :
    (start ids root projections k item e).Listed ids (.start ⟨ids k, item⟩ e root.type) projections
      k [] where
  kept := rfl
  lines := .nil
  projections := ⟨[], rfl, rfl, rfl⟩
  linked := by simp [Query.Linked, start, Query.start]
  sortsAt := nofun
  sorting := by simp [start]
  identities := ⟨1, rfl, rfl⟩

end Transcript

/-! ### Queries -/

namespace Outline

variable {settings : Settings} {root : Expr} {o : Outline} {k k' : Nat} {q : Query}

/-- The query ended by a selector, with the operator of the outline. -/
def ended (o : Outline) (q : Query) (selector : Expr) : Query :=
  { q with
    terminal := some (.select selector q.last)
    operators := q.operators ++ if o.distinct then [.plain .distinct] else [] }

theorem runs_ended_iff (unchecked : settings.validate = false) {q₀ : Query} {selector : Expr} :
    Runs (do
      let q ← ofQueryResult (q₀.setTerminal (.select selector .main))
      let q := if o.distinct then q.addOperator (.plain .distinct) else q
      if settings.validate then ofQueryResult q.validate
      return q : DrawM BuildError Query) k q k' ↔
      q₀.terminal = none ∧ q = o.ended q₀ selector ∧ k' = k := by
  rw [Query.setTerminal, ended]
  cases unended : q₀.terminal with
  | some _ => simp [ofQueryResult]
  | none =>
    cases o.distinct <;>
      simp [ofQueryResult, unchecked, Query.addOperator, Terminal.attach, Query.last] <;> grind

/-- Without validation, the query of an outline is what the loop makes of its entries behind the
first, ended by the last projection. -/
theorem toQuery_runs_iff (unchecked : settings.validate = false) :
    Runs (o.toQuery ids settings root) k q k' ↔
      ∃ item e rest t selector, o.entries = .source item e :: rest ∧ item.name ≠ "" ∧
        Transcript.Steps ids (.start ids root o.projections k item e) rest t ∧
        o.projections.getLast? = some selector ∧ t.query.terminal = none ∧
        q = o.ended t.query selector ∧ k' = t.drawn := by
  have loop : ∀ (item : Param) (e : Expr) (rest : List OutlineEntry) (q₀ : Query) (k₁ : Nat),
      Runs (addEntries ids (.start ⟨ids k, item⟩ e root.type) o.projections none rest) (k + 1) q₀ k₁
        ↔ ∃ t, Transcript.Steps ids (.start ids root o.projections k item e) rest t ∧
          t.query = q₀ ∧ t.drawn = k₁ :=
    fun item e _ _ _ => addEntries_runs_iff (t := .start ids root o.projections k item e)
  rw [toQuery]
  constructor
  · intro h
    split at h
    · simp at h
    · rename_i item e rest entries
      simp only [runs_bind, runs_createSource, loop, and_assoc, exists_and_left,
        exists_eq_left] at h
      obtain ⟨named, q₀, k₁, ⟨t, steps, rfl, rfl⟩, h⟩ := h
      split at h
      · rename_i selector last
        obtain ⟨unended, query, drawn⟩ := (runs_ended_iff unchecked).mp h
        exact ⟨item, e, rest, t, selector, entries, named, steps, last, unended, query, drawn⟩
      · simp at h
    · simp at h
  · rintro ⟨item, e, rest, t, selector, entries, named, steps, last, unended, query, drawn⟩
    simp only [entries, runs_bind, runs_createSource, loop, and_assoc, exists_and_left,
      exists_eq_left]
    refine ⟨named, t.query, t.drawn, ⟨t, steps, rfl, rfl⟩, ?_⟩
    simp only [last]
    exact (runs_ended_iff unchecked).mpr ⟨unended, query, drawn⟩

/-- What the loop lists is transcribed once the query is ended. -/
theorem transcribed_of_steps {item : Param} {e selector : Expr} {rest : List OutlineEntry}
    (entries : o.entries = .source item e :: rest)
    (steps : Transcript.Steps ids (.start ids root o.projections k item e) rest t)
    (last : o.projections.getLast? = some selector) :
    o.Transcribed ids root k (o.ended t.query selector) := by
  have h := steps.listed (Transcript.listed_start ids root o.projections k item e)
  rw [List.nil_append] at h
  obtain ⟨taken, given_eq, length, projections⟩ := h.projections
  obtain ⟨n, -, identities⟩ := h.identities
  refine ⟨?_, ?_, ?_, fun c hc => (h.linked 0 c hc).linked,
    fun i c hc => (h.linked (i + 1) c hc).linked,
    fun i keys _ hc => (h.linked i _ hc).owned keys rfl,
    ⟨selector, _, last, rfl, fun empty => ?_, fun i length => ?_⟩, ?_, ?_, ?_⟩
  · rw [entries, h.kept]
    rfl
  · rw [entries]
    exact h.lines
  · rw [entries, List.tail_cons, ← length, given_eq, List.take_left]
    exact projections
  · rw [Query.last, show t.query.body = [] from empty]
    rfl
  · rw [Query.last, show t.query.body.length = i + 1 from length]
    rfl
  · rw [h.kept]
    rfl
  · rw [h.kept]
    rfl
  · have count : t.query.sourceIds.length = n := by
      rw [identities, List.length_map, List.length_range']
    rw [← count] at identities
    exact identities

/-- **The query of an outline**, where it need not be valid, can be made exactly if the outline is
complete, and says what the outline says. -/
theorem toQuery_runs_iff_complete (unchecked : settings.validate = false) (root : Expr)
    (o : Outline) (k : Nat) :
    ((∃ q k', Runs (o.toQuery ids settings root) k q k') ↔ o.Complete) ∧
      ∀ q k', Runs (o.toQuery ids settings root) k q k' → o.Transcribed ids root k q := by
  refine ⟨⟨?_, fun complete => ?_⟩, fun q k' h => ?_⟩
  · rintro ⟨q, k', h⟩
    obtain ⟨item, e, rest, t, selector, entries, named, steps, last, -⟩ :=
      (toQuery_runs_iff unchecked).mp h
    have listed := Transcript.listed_start ids root o.projections k item e
    obtain ⟨others, enough⟩ := listed.exists_steps_iff.mp ⟨t, steps⟩
    refine ⟨⟨item, e, rest, entries⟩, ?_, ?_, by rwa [entries]⟩
    · rw [entries, List.forall_mem_cons]
      exact ⟨by rintro _ ⟨⟩; exact named, others⟩
    · intro none
      rw [none] at last
      cases last
  · obtain ⟨item, e, rest, entries⟩ := complete.begins
    obtain ⟨first, others⟩ := List.forall_mem_cons.mp (entries ▸ complete.named)
    have enough := complete.enough
    rw [entries] at enough
    have listed := Transcript.listed_start ids root o.projections k item e
    obtain ⟨t, steps⟩ := listed.exists_steps_iff.mpr ⟨others, enough⟩
    have unended : t.query.terminal = none := by
      rw [(steps.listed listed).kept]
      rfl
    have last := List.getLast?_eq_some_getLast complete.projects
    exact ⟨_, t.drawn, (toQuery_runs_iff unchecked).mpr
      ⟨item, e, rest, t, _, entries, first item rfl, steps, last, unended, rfl, rfl⟩⟩
  · obtain ⟨item, e, rest, t, selector, entries, -, steps, last, -, rfl, -⟩ :=
      (toQuery_runs_iff unchecked).mp h
    exact transcribed_of_steps entries steps last

end Outline

namespace Sample

/-- A cook. -/
def worker : Param := ⟨"w", Ty.plain "Cook"⟩

/-- The names of the helpers of each cook, sorted by two keys, then named and sorted once more. -/
def shifts : Outline where
  entries := [.source worker (.external "Cook[]" (Ty.array worker.type)),
    .source ⟨"h", worker.type⟩
      (.lambda [worker] (.member (.param worker) "Helpers" (Ty.array worker.type))),
    .order true .ascending (.ofInt 1), .order false .descending (.ofInt 2),
    .define ⟨"n", Ty.int⟩ (.ofInt 3), .order false .ascending (.ofInt 4)]
  projections := [.ofInt 5, .ofInt 6]
  distinct := true

end Sample

/-- The helpers are members, since the body of the lambda is one. -/
theorem toQuery_runs_iff_complete_shifts : ∃ q k' s e projection previous others,
    Runs (Sample.shifts.toQuery SourceId.countUp { validate := false } (.ofInt 0)) 0 q k' ∧
      Sample.shifts.Transcribed SourceId.countUp (.ofInt 0) 0 q ∧
      q.lines = .clause (.fromExpr .member s e projection previous) :: others := by
  obtain ⟨made, transcribed⟩ := @Outline.toQuery_runs_iff_complete SourceId.countUp
    { validate := false } rfl (.ofInt 0) Sample.shifts 0
  have complete : Sample.shifts.Complete := by
    refine ⟨⟨_, _, _, rfl⟩, ?_, by simp [Sample.shifts], by decide⟩
    simp [Sample.shifts, OutlineEntry.item?, Sample.worker]
  obtain ⟨q, k', h⟩ := made.mpr complete
  have entries := (transcribed q k' h).lines
  refine ⟨q, k', ?_⟩
  generalize q.lines = lines at entries ⊢
  cases entries with
  | cons helpers _ =>
    cases helpers with
    | member _ => exact ⟨_, _, _, _, _, h, transcribed q k' h, rfl⟩
    | subQuery taken => cases taken
    | additional taken _ noMember =>
      cases taken with
      | itself other => exact absurd rfl (other _ _)
      | body => exact absurd rfl (noMember _ _ _)

/-- The two keys belong to one clause, the third one to another. -/
example : yields (Sample.shifts.toQuery SourceId.countUp { validate := false } (.ofInt 0)) 0
    (fun q => q.body.map (fun c => c.lines.length) = [1, 2, 1, 1]) = true := by
  decide +kernel

end QueryFold
