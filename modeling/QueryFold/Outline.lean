import QueryFold.Chain.Application

/-!
# Outlines

An outline is a flat record of a query: the expression it stands for as a whole, the
expressions of its clauses in order, and its projections in order. A query is built from it
by putting each expression into a clause as it is; nothing is resolved.

The first entry becomes the main from clause. Each later from entry takes the next
projection, and the last projection is selected, also if a from clause has taken it.
-/

namespace QueryFold

/-- An entry of an outline. -/
inductive OutlineEntry where
  /-- Iterate over a sequence. -/
  | source (item : Param) (expression : Expr)
  /-- Keep the items that satisfy a predicate. -/
  | filter (predicate : Expr)
  /-- Name a value. -/
  | define (item : Param) (value : Expr)
  /-- Sort by a key; `first` starts a new sorting. -/
  | order (first : Bool) (direction : Direction) (key : Expr)

/-- The name of an entry. -/
def OutlineEntry.name : OutlineEntry → String
  | source _ _ => "from"
  | filter _ => "where"
  | define _ _ => "let"
  | order _ _ _ => "order"

/-- A flat record of a query. -/
structure Outline where
  /-- The expression that the query stands for; its type is the type of the result. -/
  root : Option Expr := none
  /-- The entries in order. -/
  entries : List OutlineEntry := []
  /-- The projections in order. -/
  projections : List Expr := []
  /-- Whether equal items of the result are dropped. -/
  distinct : Bool := false

/-- The part of an expression that decides about the shape of a from clause: the body of a lambda,
or the expression itself. -/
def Expr.shape : Expr → Expr
  | .lambda _ body => body
  | e => e

namespace Outline

/-- The outline of a query of which only the root is known. -/
def ofRoot (root : Expr) : Outline := { root := some root }

/-- The outline with a further entry. -/
def addEntry (o : Outline) (e : OutlineEntry) : Outline := { o with entries := o.entries ++ [e] }

/-- The outline with a further projection. -/
def addProjection (o : Outline) (e : Expr) : Outline :=
  { o with projections := o.projections ++ [e] }

/-- The outline of the query without equal items. -/
def setDistinct (o : Outline) : Outline := { o with distinct := true }

/-- The from clause of an entry, by the shape of its expression: over a nested query, over a member,
or over any other sequence. -/
def fromClause (source : Source) (e projection : Expr) : Clause :=
  match e.shape with
  | .subQuery q => .fromQuery source q (some projection) .main
  | .member _ _ _ => .fromExpr .member source e (some projection) .main
  | _ => .fromExpr .additional source e (some projection) .main

/-- Add the clauses of the entries to a query. The projections are those not yet taken, and
`sorting` is the order by clause that the entry before has produced or extended. -/
def addEntries (ids : Nat → SourceId) (q : Query) (projections : List Expr)
    (sorting : Option Position) : List OutlineEntry → DrawM BuildError Query
  | [] => return q
  | .source item e :: entries =>
    match projections with
    | [] => throw (.missingProjection item.name e.render)
    | projection :: projections => do
      let source ← createSource ids item
      addEntries ids (q.addClause (fromClause source e projection)) projections none entries
  | .filter predicate :: entries =>
    addEntries ids (q.addClause (.filter predicate .main)) projections none entries
  | .define item value :: entries => do
    let source ← createSource ids item
    addEntries ids (q.addClause (.define source value .main)) projections none entries
  | .order first direction key :: entries =>
    match if first then none else sorting with
    | some position => do
      let q ← ofQueryResult (q.addKey position ⟨key, direction, none⟩)
      addEntries ids q projections (some position) entries
    | none =>
      addEntries ids (q.addClause (.orderBy [⟨key, direction, none⟩] .main)) projections
        (some q.next) entries

/-- The query of an outline, whose result has the type of `root`. -/
def toQuery (ids : Nat → SourceId) (settings : Settings) (root : Expr) (o : Outline) :
    DrawM BuildError Query := do
  match o.entries with
  | [] => throw (.misuse .noFrom)
  | .source item e :: entries =>
    let source ← createSource ids item
    let q ← addEntries ids (Query.start source e root.type) o.projections none entries
    let some selector := o.projections.getLast? | throw .noProjection
    let q ← ofQueryResult (q.setTerminal (.select selector .main))
    let q := if o.distinct then q.addOperator (.plain .distinct) else q
    if settings.validate then ofQueryResult q.validate
    return q
  | entry :: _ => throw (.misuse (.firstNotFrom entry.name))

end Outline

end QueryFold
