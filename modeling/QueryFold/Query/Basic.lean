import QueryFold.Query.Clause
import QueryFold.Query.Error

/-!
# Queries under construction

A query starts with its main from clause and grows at its end: body clauses first, then
the clause that ends it, and operators on the result at any time. Each operation sets the
links that it is responsible for: a clause added to the body names the clause before it, a
sort key the clause that holds it.
-/

namespace QueryFold

/-- The position before the body clause at `index`. -/
def Position.before : (index : Nat) → Position
  | 0 => .main
  | n + 1 => .body n

namespace Query

/-- The query that only iterates over a sequence. -/
def start (source : Source) (generator : Expr) (resultType : Ty) : Query :=
  ⟨source, generator, [], none, [], resultType⟩

/-- The position of the last clause of the body, or of the main from clause if the body is
empty. -/
def last (q : Query) : Position := .before q.body.length

/-- The position that the next body clause will have. -/
def next (q : Query) : Position := .body q.body.length

/-- The query with a further clause at the end of its body. -/
def addClause (q : Query) (c : Clause) : Query :=
  { q with body := q.body ++ [c.attach q.next q.last] }

/-- The query with the body clause at a position changed; `refused` is the error for the main from
clause and for a clause that cannot be changed in this way. -/
def modifyClause (q : Query) (position : Position) (refused : Position → QueryError)
    (change : Clause → Option Clause) : Except QueryError Query :=
  match position with
  | .main => .error (refused position)
  | .body index =>
    match q.body[index]? with
    | none => .error (.clauseOutOfRange position)
    | some c =>
      match change c with
      | none => .error (refused position)
      | some c' => .ok { q with body := q.body.set index c' }

/-- The query with a further sort key in the order by clause at a position. -/
def addKey (q : Query) (position : Position) (k : SortKey) : Except QueryError Query :=
  q.modifyClause position .notOrderBy (·.withKey? position k)

/-- The query with the projection of the from clause at a position set. -/
def setProjection (q : Query) (position : Position) (e : Expr) : Except QueryError Query :=
  q.modifyClause position .notProjecting (·.withProjection? e)

/-- The query ended by a clause. -/
def setTerminal (q : Query) (t : Terminal) : Except QueryError Query :=
  match q.terminal with
  | some _ => .error .terminalAlreadySet
  | none => .ok { q with terminal := some (t.attach q.last) }

/-- The query with a further operator on its result. -/
def addOperator (q : Query) (op : ResultOp) : Query := { q with operators := q.operators ++ [op] }

/-- The number of clauses, the main from clause and the last one included. -/
def clauseCount (q : Query) : Nat := 1 + q.body.length + if q.terminal.isSome then 1 else 0

/-- The sources of a query, those of nested queries not included. -/
def sources (q : Query) : List Source := q.source :: q.body.filterMap Clause.source?

/-- The source with a given identity. -/
def source? (q : Query) (id : SourceId) : Option Source := q.sources.find? (·.id == id)

/-- The type of the items before the operators apply, known once the query ends. -/
def outputType? (q : Query) : Option Ty := q.terminal.map Terminal.outputType

/-- The type of the items of the result: that of the last cast, and without a cast that of the last
clause. -/
def itemType? (q : Query) : Option Ty :=
  (q.operators.reverse.findSome? ResultOp.castType?).or q.outputType?

end Query

end QueryFold
