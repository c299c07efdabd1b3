import QueryFold.Expr.Render
import QueryFold.Expr.Walk
import QueryFold.Query.Basic

/-!
# Validation of queries

A query is valid when its clauses are linked in a row, each sort key belongs to the clause
that holds it, every from clause has a projection, the query ends, no two sources share an
identity, and every expression refers to visible sources only. Visible to an expression are
the sources of the enclosing queries, and of its own query those up to the clause that
holds it; the sequence of the main from clause sees the enclosing queries only.

Checks run in the order of the clauses and stop at the first violation. Queries inside
expressions are not entered; nested queries of from clauses are.
-/

namespace QueryFold

/-- Check that some expressions refer to visible sources only. -/
def checkReferences (place : String) (visible : List SourceId) :
    List Expr → Except QueryError Unit
  | [] => .ok ()
  | e :: es =>
    match e.sources.find? (· ∉ visible) with
    | some id => .error (.danglingReference place id)
    | none => checkReferences place visible es

/-- Make a source visible that was not visible before. -/
def register (visible : List SourceId) (s : Source) : Except QueryError (List SourceId) :=
  if s.id ∈ visible then .error (.duplicateSource s.item.name s.id) else .ok (visible ++ [s.id])

/-- Check that sort keys, counted from `index`, belong to the clause at `position`. -/
def checkKeys (position : Position) : (index : Nat) → List SortKey → Except QueryError Unit
  | _, [] => .ok ()
  | index, k :: ks =>
    if k.owner = some position then checkKeys position (index + 1) ks
    else .error (.strayKey position index)

/-- Make the source of a clause visible. A from clause must have a projection. -/
def Clause.introduce (visible : List SourceId) (c : Clause) : Except QueryError (List SourceId) :=
  match c.source? with
  | none => .ok visible
  | some s => do
    let visible ← register visible s
    if c.isFrom ∧ c.projection?.isNone then throw (.missingProjection s.item.name)
    return visible

/-- Check the operators of a query one by one. -/
def checkOperators (visible : List SourceId) : List ResultOp → Except QueryError Unit
  | [] => .ok ()
  | op :: ops => do
    checkReferences op.name visible op.expressions
    checkOperators visible ops

/-- Check the end of a query whose body has `count` clauses. -/
def checkTerminal (visible : List SourceId) (count : Nat) :
    Option Terminal → Except QueryError Unit
  | none => .error .missingTerminal
  | some t => do
    if t.previous ≠ .before count then
      throw (.brokenChain (.body count) (.before count) t.previous)
    checkReferences "select or group clause" visible t.expressions

mutual

/-- Check the clause at `index` of a body and return what is visible behind it. -/
def Clause.validate (visible : List SourceId) (index : Nat) (c : Clause) :
    Except QueryError (List SourceId) := do
  if c.previous ≠ .before index then
    throw (.brokenChain (.body index) (.before index) c.previous)
  let visible ← c.introduce visible
  match c with
  | .orderBy keys _ => checkKeys (.body index) 0 keys
  | .fromQuery _ query _ _ => query.validateWithin visible
  | _ => pure ()
  checkReferences (Position.body index).render visible c.expressions
  return visible
termination_by structural c

/-- Check the clauses of a body from `index` on and return what is visible at its end. -/
def validateBody (visible : List SourceId) (index : Nat) (cs : List Clause) :
    Except QueryError (List SourceId) :=
  match cs with
  | [] => .ok visible
  | c :: cs => do
    let visible ← c.validate visible index
    validateBody visible (index + 1) cs
termination_by structural cs

/-- Check a query of which the sources `outer` of the enclosing queries are visible. -/
def Query.validateWithin (outer : List SourceId) (q : Query) : Except QueryError Unit :=
  match q with
  | ⟨source, generator, body, terminal, operators, _⟩ => do
    checkReferences "main from clause" outer [generator]
    let visible ← register outer source
    let visible ← validateBody visible 0 body
    checkTerminal visible body.length terminal
    checkOperators visible operators
termination_by structural q

end

/-- Check a query that stands alone. -/
def Query.validate (q : Query) : Except QueryError Unit := q.validateWithin []

end QueryFold
