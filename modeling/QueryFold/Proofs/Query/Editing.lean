import QueryFold.Proofs.Query.Traversal
import QueryFold.Query.Source

/-!
# Links under editing

A query is edited in place: clauses are added, changed and replaced in any order. An edit reads
and writes a draft step by step and may refuse at the end what it has begun, so it has to be shown
that one that is refused leaves the query as it was (`Edit.execute_perform`). Whatever the edits
are, every clause of the body names the clause before it, and every sort key the clause that holds
it.

The clause that ends the query is the exception. It names the clause that was the last one
when it was set, and clauses that are added later do not change that: it stands where it
should exactly as long as there are none (`performAll_links`).
-/

namespace QueryFold

/-! ### Edits -/

/-- A query under construction, and how many identities were drawn so far. -/
structure Draft where
  /-- The query. -/
  query : Query
  /-- How many identities were drawn. -/
  drawn : Nat

/-- A computation on a draft. What it did before it fails is done. -/
abbrev DraftM := ExceptT QueryError (StateM Draft)

namespace Clause

/-- Set the projection of a clause in place, and say whether the clause takes one. -/
def putProjection (e : Expr) : StateM Clause Bool := do
  match ← get with
  | fromExpr kind source generator _ previous =>
    set (fromExpr kind source generator (some e) previous)
    return true
  | fromQuery source query _ previous =>
    set (fromQuery source query (some e) previous)
    return true
  | _ => return false

/-- Add a sort key to a clause in place, which belongs to the clause at `position`, and say whether
the clause takes keys. -/
def putKey (position : Position) (k : SortKey) : StateM Clause Bool := do
  match ← get with
  | orderBy keys previous =>
    set (orderBy (keys ++ [{ k with owner := some position }]) previous)
    return true
  | _ => return false

/-- The clause may be changed in place as `change` does it. It is left alone where there is no
change. -/
def Puts (put : StateM Clause Bool) (change : Clause → Option Clause) : Prop :=
  ∀ c, put.run c = (match change c with
    | some c' => (true, c')
    | none => (false, c))

theorem puts_putProjection (e : Expr) : Puts (putProjection e) (withProjection? e) := by
  rintro (_ | _ | _ | _ | _) <;> rfl

theorem puts_putKey (position : Position) (k : SortKey) :
    Puts (putKey position k) (withKey? position k) := by
  rintro (_ | _ | _ | _ | _) <;> rfl

end Clause

namespace Draft

/-- Change the query. -/
def modifyQuery (f : Query → Query) : DraftM Unit := modify fun d => { d with query := f d.query }

/-- Draw the next identity. -/
def draw (ids : Nat → SourceId) : DraftM SourceId := do
  let drawn := (← get).drawn
  modify fun d => { d with drawn := drawn + 1 }
  return ids drawn

/-- Change the clause at a position of the body in place. If it says that it does not take the
change, that is the error `refused`, as it is for the main from clause. -/
def putClause (position : Position) (refused : Position → QueryError)
    (put : StateM Clause Bool) : DraftM Unit := do
  match position with
  | .main => throw (refused position)
  | .body index =>
    match (← get).query.body[index]? with
    | none => throw (.clauseOutOfRange position)
    | some c =>
      let (taken, c') := put.run c
      modifyQuery fun q => { q with body := q.body.set index c' }
      if !taken then throw (refused position)

/-- Set the last clause. There must be none so far. -/
def putTerminal (t : Terminal) : DraftM Unit := do
  if (← get).query.terminal.isSome then throw .terminalAlreadySet
  modifyQuery fun q => { q with terminal := some (t.attach q.last) }

/-- Rename the items of the main from clause. -/
def rename (name : String) : DraftM Unit := do
  if name = "" then throw .emptyItemName
  modifyQuery fun q => { q with source := { q.source with item.name := name } }

/-- Give the items of the main from clause another type, and the source a new identity. -/
def retype (ids : Nat → SourceId) (type : Ty) : DraftM Unit := do
  modifyQuery fun q => { q with source := { q.source with item.type := type } }
  let id ← draw ids
  modifyQuery fun q => { q with source := { q.source with id := id } }

end Draft

/-- An edit of a query. -/
inductive Edit : Type 1 where
  /-- Add a clause at the end of the body, whatever links it has. -/
  | addClause (c : Clause)
  /-- Add a sort key to the order by clause at a position. -/
  | addKey (position : Position) (k : SortKey)
  /-- Set the projection of the from clause at a position. -/
  | setProjection (position : Position) (e : Expr)
  /-- End the query by a clause. -/
  | setTerminal (t : Terminal)
  /-- Add an operator on the result. -/
  | addOperator (op : ResultOp)
  /-- Set the type of the result. -/
  | setResultType (type : Ty)
  /-- Set the sequence over which the main from clause iterates. -/
  | setGenerator (e : Expr)
  /-- Rename the items of the main from clause. -/
  | rename (name : String)
  /-- Give the items of the main from clause another type. -/
  | retype (type : Ty)
  /-- Replace all expressions by a function with a state of its own. -/
  | replace {σ : Type} (f : Expr → StateM σ Expr) (s : σ)

namespace Edit

/-- Perform an edit. -/
def perform (ids : Nat → SourceId) : Edit → DraftM Unit
  | addClause c => Draft.modifyQuery (·.addClause c)
  | addKey position k => Draft.putClause position .notOrderBy (Clause.putKey position k)
  | setProjection position e => Draft.putClause position .notProjecting (Clause.putProjection e)
  | setTerminal t => Draft.putTerminal t
  | addOperator op => Draft.modifyQuery (·.addOperator op)
  | setResultType type => Draft.modifyQuery fun q => { q with resultType := type }
  | setGenerator e => Draft.modifyQuery fun q => { q with generator := e }
  | rename name => Draft.rename name
  | retype type => Draft.retype ids type
  | replace f s => Draft.modifyQuery fun q => ((q.replaceM f).run s).1

/-- Whether an edit adds a clause to the body. -/
def grows : Edit → Bool
  | addClause _ => true
  | _ => false

end Edit

/-- The draft after some edits, performed one after the other; those that are refused are
skipped. -/
def performAll (ids : Nat → SourceId) (es : List Edit) (d : Draft) : Draft :=
  es.foldl (fun d e => (execute (e.perform ids) d).2) d

/-! ### Edits in place -/

theorem Query.set_body_self {q : Query} {i : Nat} {c : Clause} (hc : q.body[i]? = some c) :
    { q with body := q.body.set i c } = q := by
  obtain ⟨hi, rfl⟩ := List.getElem?_eq_some_iff.mp hc
  cases q
  rw [List.set_getElem_self hi]

namespace Draft

variable (d : Draft)

/-- What comes of a draft by an operation that makes a new query or is refused. -/
def outcome : Except QueryError Query → Except QueryError Unit × Draft
  | .ok q => (.ok (), { d with query := q })
  | .error err => (.error err, d)

/-- To change a clause in place comes to the same as to make a new query with the changed clause:
where the change is refused, the clause that is put back is the one that was there. -/
theorem execute_putClause (position : Position) (refused : Position → QueryError)
    {put : StateM Clause Bool} {change : Clause → Option Clause} (puts : Clause.Puts put change) :
    execute (putClause position refused put) d =
      d.outcome (d.query.modifyClause position refused change) := by
  unfold putClause Query.modifyClause
  cases position with
  | main => rfl
  | body i =>
    simp only [execute_bind, execute_get]
    cases hc : d.query.body[i]? with
    | none => rfl
    | some c =>
      simp only [puts c]
      cases change c with
      | some c' => rfl
      | none =>
        show (Except.error (refused (.body i)),
          { d with query := { d.query with body := d.query.body.set i c } }) = _
        rw [Query.set_body_self hc]
        rfl

theorem execute_putTerminal (t : Terminal) :
    execute (putTerminal t) d = d.outcome (d.query.setTerminal t) := by
  unfold putTerminal Query.setTerminal
  simp only [execute_bind, execute_get]
  cases d.query.terminal with
  | none => rfl
  | some _ => rfl

theorem execute_rename (name : String) :
    execute (rename name) d =
      d.outcome (do return { d.query with source := ← d.query.source.rename name }) := by
  unfold rename Source.rename
  split <;> rfl

theorem execute_retype {ids : Nat → SourceId} {type : Ty} {s : Source} {drawn : Nat}
    (h : Runs (d.query.source.retype ids type : DrawM QueryError Source) d.drawn s drawn) :
    execute (retype ids type) d = (.ok (), ⟨{ d.query with source := s }, drawn⟩) := by
  cases h
  rfl

end Draft

/-! ### What an edit does -/

namespace Query

variable {q q' : Query}

/-- All clauses of the body stand as they should. -/
def Linked (q : Query) : Prop := ∀ (i : Nat) (c : Clause), q.body[i]? = some c → c.StandsAt i

/-- The position that the clause that ends a query gives for the clause before it. -/
def endLink? (q : Query) : Option Position := q.terminal.map Terminal.previous

theorem linked_of_blank (h : q'.body.map Clause.blank = q.body.map Clause.blank)
    (linked : q.Linked) : q'.Linked := by
  intro i c' hc'
  have hi : (q.body[i]?).map Clause.blank = some c'.blank := by
    rw [← List.getElem?_map, ← h, List.getElem?_map, hc', Option.map_some]
  obtain ⟨c, hc, same⟩ := Option.map_eq_some_iff.mp hi
  rw [← Clause.standsAt_blank, ← same, Clause.standsAt_blank]
  exact linked i c hc

theorem blank_run_replaceM {σ : Type} (f : Expr → StateM σ Expr) (s : σ) (q : Query) :
    ((q.replaceM f).run s).1.blank = q.blank :=
  congrArg (fun x => (x.run s).1.2) (q.replaceM_eq f)

end Query

/-- What an edit that is not refused makes of a query. -/
inductive Edit.Makes (q : Query) : Edit → Query → Prop where
  /-- A clause is added at the end of the body. -/
  | added (c : Clause) : Makes q (.addClause c) (q.addClause c)
  /-- A clause of the body is changed, and stands as it should if it did so before. -/
  | changed {e : Edit} {i : Nat} {c c' : Clause} (grows : e.grows = false)
      (clause : q.body[i]? = some c) (stands : c.StandsAt i → c'.StandsAt i) :
      Makes q e { q with body := q.body.set i c' }
  /-- The query is ended, as it was not before. -/
  | ended {t : Terminal} (unended : q.terminal = none) :
      Makes q (.setTerminal t) { q with terminal := some (t.attach q.last) }
  /-- Body and end keep all but their expressions. -/
  | kept {e : Edit} {q' : Query} (grows : e.grows = false)
      (body : q'.body.map Clause.blank = q.body.map Clause.blank)
      (terminal : q'.terminal.map Terminal.blank = q.terminal.map Terminal.blank) : Makes q e q'

namespace Edit

variable {ids : Nat → SourceId} {e : Edit} {d : Draft}

/-- An edit with the outcome of an operation on the query does its work, or it is refused and leaves
the draft as it was. -/
theorem execute_perform_of_outcome {r : Except QueryError Query}
    (outcome : execute (e.perform ids) d = d.outcome r) (grows : e.grows = false)
    (makes : ∀ q, r = .ok q → e.Makes d.query q) :
    (∃ d', execute (e.perform ids) d = (.ok (), d') ∧ e.Makes d.query d'.query) ∨
      ∃ err, e.grows = false ∧ execute (e.perform ids) d = (.error err, d) := by
  rw [outcome]
  cases r with
  | ok q => exact .inl ⟨_, rfl, makes q rfl⟩
  | error err => exact .inr ⟨err, grows, rfl⟩

/-- An edit does its work, or it is refused and leaves the draft as it was. Adding a clause is never
refused. -/
theorem execute_perform (ids : Nat → SourceId) (e : Edit) (d : Draft) :
    (∃ d', execute (e.perform ids) d = (.ok (), d') ∧ e.Makes d.query d'.query) ∨
      ∃ err, e.grows = false ∧ execute (e.perform ids) d = (.error err, d) := by
  cases e with
  | addClause c => exact .inl ⟨_, rfl, .added c⟩
  | addKey position k =>
    have outcome := d.execute_putClause position .notOrderBy (Clause.puts_putKey position k)
    refine execute_perform_of_outcome outcome rfl fun q h => ?_
    obtain ⟨i, c, c', rfl, clause, change, rfl⟩ := Query.modifyClause_eq_ok_iff.mp h
    exact .changed rfl clause fun stands => stands.withKey? change
  | setProjection position x =>
    have outcome := d.execute_putClause position .notProjecting (Clause.puts_putProjection x)
    refine execute_perform_of_outcome outcome rfl fun q h => ?_
    obtain ⟨i, c, c', rfl, clause, change, rfl⟩ := Query.modifyClause_eq_ok_iff.mp h
    exact .changed rfl clause fun stands => stands.withProjection? change
  | setTerminal t =>
    refine execute_perform_of_outcome (d.execute_putTerminal t) rfl fun q h => ?_
    rw [Query.setTerminal] at h
    split at h
    · cases h
    · cases h
      exact .ended ‹_›
  | addOperator op => exact .inl ⟨_, rfl, .kept rfl rfl rfl⟩
  | setResultType type => exact .inl ⟨_, rfl, .kept rfl rfl rfl⟩
  | setGenerator x => exact .inl ⟨_, rfl, .kept rfl rfl rfl⟩
  | rename name =>
    refine execute_perform_of_outcome (d.execute_rename name) rfl fun q h => ?_
    obtain ⟨source, -, rest⟩ := except_bind_eq_ok_iff.mp h
    cases rest
    exact .kept rfl rfl rfl
  | retype type => exact .inl ⟨_, rfl, .kept rfl rfl rfl⟩
  | replace f s =>
    have rest := Query.blank_run_replaceM f s d.query
    refine .inl ⟨_, rfl, .kept rfl ?_ ?_⟩
    · rw [← Query.body_blank, ← Query.body_blank, ← rest]
    · rw [← Query.terminal_blank, ← Query.terminal_blank, ← rest]

/-- An edit that is refused leaves the draft as it was. -/
theorem eq_of_refused {d' : Draft} {err : QueryError}
    (h : execute (e.perform ids) d = (.error err, d')) : d' = d := by
  rcases e.execute_perform ids d with ⟨_, run, -⟩ | ⟨_, -, run⟩
  · rw [run] at h
    cases h
  · rw [run] at h
    cases h
    rfl

end Edit

/-! ### What an edit keeps -/

namespace Edit.Makes

variable {q q' : Query} {e : Edit}

theorem linked (h : e.Makes q q') (linked : q.Linked) : q'.Linked := by
  cases h with
  | added c =>
    intro i d hd
    rcases Query.getElem?_addClause.mp hd with hd | ⟨rfl, rfl⟩
    · exact linked i d hd
    · exact Clause.standsAt_attach _ c
  | @changed _ i c c' _ clause stands =>
    intro j d hd
    by_cases hij : i = j
    · subst hij
      rw [List.getElem?_set_self (List.getElem?_eq_some_iff.mp clause).1] at hd
      cases hd
      exact stands (linked i c clause)
    · rw [List.getElem?_set_ne hij] at hd
      exact linked j d hd
  | ended _ => exact linked
  | kept _ body _ => exact Query.linked_of_blank body linked

theorem length_body (h : e.Makes q q') :
    q'.body.length = q.body.length + if e.grows then 1 else 0 := by
  cases h with
  | added c => exact q.length_addClause c
  | changed grows _ _ => simp [grows]
  | ended _ => rfl
  | kept grows body _ => simpa [grows] using congrArg List.length body

theorem endLink?_eq_some {p : Position} (h : e.Makes q q') (hp : q.endLink? = some p) :
    q'.endLink? = some p := by
  cases h with
  | added _ | changed _ _ _ => exact hp
  | ended unended => simp [Query.endLink?, unended] at hp
  | kept _ _ terminal =>
    have link (t : Option Terminal) : (t.map Terminal.blank).map Terminal.previous =
        t.map Terminal.previous := by
      simp [Option.map_map, Function.comp_def, Terminal.previous_blank]
    rw [← hp, Query.endLink?, Query.endLink?, ← link, terminal, link]

/-- The edit by which a query ends sets its end. -/
theorem ends (h : e.Makes q q') (unended : q.terminal = none) :
    q'.terminal = none ∨ (∃ t, e = .setTerminal t) ∧ q'.endLink? = some q.last := by
  cases h with
  | added _ | changed _ _ _ => exact .inl unended
  | @ended t _ => exact .inr ⟨⟨t, rfl⟩, congrArg some (Terminal.previous_attach q.last t)⟩
  | kept _ _ terminal =>
    rw [unended, Option.map_none, Option.map_eq_none_iff] at terminal
    exact .inl terminal

end Edit.Makes

/-! ### Many edits -/

section

variable (ids : Nat → SourceId) (e : Edit) (es es' : List Edit) (d : Draft)

theorem performAll_cons :
    performAll ids (e :: es) d = performAll ids es (execute (e.perform ids) d).2 :=
  List.foldl_cons ..

theorem performAll_append :
    performAll ids (es ++ es') d = performAll ids es' (performAll ids es d) :=
  List.foldl_append ..

end

variable {ids : Nat → SourceId} {es : List Edit} {d : Draft}

/-- What every edit keeps, a sequence of edits keeps. -/
theorem performAll_invariant {P : Query → Prop} (d : Draft)
    (step : ∀ (e : Edit) (q q' : Query), e.Makes q q' → P q → P q') (start : P d.query) :
    P (performAll ids es d).query := by
  induction es generalizing d with
  | nil => exact start
  | cons e es ih =>
    rw [performAll_cons]
    rcases e.execute_perform ids d with ⟨d', run, makes⟩ | ⟨_, -, run⟩
    · rw [run]
      exact ih d' (step e d.query d'.query makes start)
    · rw [run]
      exact ih d start

theorem length_performAll (ids : Nat → SourceId) (es : List Edit) (d : Draft) :
    (performAll ids es d).query.body.length = d.query.body.length + es.countP Edit.grows := by
  induction es generalizing d with
  | nil => rfl
  | cons e es ih =>
    rw [performAll_cons, ih, List.countP_cons]
    rcases e.execute_perform ids d with ⟨d', run, makes⟩ | ⟨_, grows, run⟩
    · rw [run, makes.length_body]
      omega
    · simp [run, grows]

theorem Position.before_injective : Function.Injective Position.before := by
  intro i j h
  cases i <;> cases j <;> simp_all [Position.before]

/-- The last clause is still the last one exactly if no clause was added to the body. -/
theorem last_performAll_iff (ids : Nat → SourceId) (es : List Edit) (d : Draft) :
    d.query.last = (performAll ids es d).query.last ↔ ∀ e ∈ es, e.grows = false := by
  rw [Query.last, Query.last, Position.before_injective.eq_iff, length_performAll,
    Nat.left_eq_add, List.countP_eq_zero]
  simp

/-- A query that is ended was ended by one of the edits, and it gives the position that was the last
one then. -/
theorem ended_by {t : Terminal} (unended : d.query.terminal = none)
    (ended : (performAll ids es d).query.terminal = some t) :
    ∃ before t₀ after, es = before ++ .setTerminal t₀ :: after ∧
      (performAll ids before d).query.terminal = none ∧
      t.previous = (performAll ids before d).query.last := by
  induction es generalizing d with
  | nil =>
    rw [performAll, List.foldl_nil, unended] at ended
    cases ended
  | cons e es ih =>
    rw [performAll_cons] at ended
    by_cases still : (execute (e.perform ids) d).2.query.terminal = none
    · obtain ⟨before, t₀, after, rfl, none_before, link⟩ := ih still ended
      refine ⟨e :: before, t₀, after, rfl, ?_, ?_⟩ <;> rw [performAll_cons] <;> assumption
    · -- This is the edit that ended the query, since it was not ended before.
      rcases e.execute_perform ids d with ⟨d', run, makes⟩ | ⟨_, -, run⟩
      · rw [run] at ended still
        obtain ⟨⟨t₀, rfl⟩, link⟩ := (makes.ends unended).resolve_left still
        have kept : (performAll ids es d').query.endLink? = some d.query.last :=
          performAll_invariant d' (fun _ _ _ makes hp => makes.endLink?_eq_some hp) link
        rw [Query.endLink?, ended] at kept
        exact ⟨[], t₀, es, rfl, unended, Option.some.inj kept⟩
      · rw [run] at still
        exact absurd unended still

/-- **Links under editing.** After any edits of a new query, every clause of the body names the
clause before it, and every sort key the clause that holds it. The clause that ends the query
was set by one of the edits, and it names the clause before it exactly if no clause was added to the
body after that. An edit that is refused leaves the draft as it was. -/
theorem performAll_links (ids : Nat → SourceId) (source : Source) (generator : Expr)
    (resultType : Ty) (drawn : Nat) (es : List Edit) :
    let new : Draft := ⟨.start source generator resultType, drawn⟩
    let d := performAll ids es new
    (∀ (i : Nat) (c : Clause), d.query.body[i]? = some c → c.previous = .before i ∧
      ∀ keys, c.keys? = some keys → ∀ k ∈ keys, k.owner = some (.body i)) ∧
    (∀ t, d.query.terminal = some t → ∃ before t₀ after,
      es = before ++ .setTerminal t₀ :: after ∧
        (performAll ids before new).query.terminal = none ∧
        (t.previous = d.query.last ↔ ∀ e ∈ after, e.grows = false)) ∧
    ∀ (e : Edit) (err : QueryError) (d' : Draft),
      execute (e.perform ids) d = (.error err, d') → d' = d := by
  intro new d
  refine ⟨fun i c hc => ?_, fun t ended => ?_, fun e err d' => Edit.eq_of_refused⟩
  · have linked : d.query.Linked :=
      performAll_invariant new (fun _ _ _ makes linked => makes.linked linked)
        (by simp [Query.Linked, new, Query.start])
    exact ⟨(linked i c hc).linked, (linked i c hc).owned⟩
  · obtain ⟨before, t₀, after, rfl, none_before, link⟩ := ended_by rfl ended
    refine ⟨before, t₀, after, rfl, none_before, ?_⟩
    have unmoved := last_performAll_iff ids (.setTerminal t₀ :: after) (performAll ids before new)
    rw [← performAll_append, List.forall_mem_cons] at unmoved
    rw [link]
    exact unmoved.trans (and_iff_right rfl)

/-- A clause that is added behind the end leaves the end where it was. -/
example (ids : Nat → SourceId) (source : Source) (e : Expr) :
    let q := (performAll ids [.setTerminal (.select e .main), .addClause (.filter e .main)]
      ⟨.start source e Ty.object, 0⟩).query
    q.endLink? = some .main ∧ q.last = .body 0 :=
  ⟨rfl, rfl⟩

end QueryFold
