import QueryFold.Language

/-!
# Errors of queries

What can be wrong with a query, or with an operation on one: clauses that are not linked in
a row, references to sources that are not there, clauses that lack data they must carry.
-/

namespace QueryFold

/-- A structural violation in a query or of an operation on it. -/
inductive QueryError where
  /-- A source would have an empty item name. -/
  | emptyItemName
  /-- There is no clause at the position. -/
  | clauseOutOfRange (clause : Position)
  /-- The clause is not an order by clause. -/
  | notOrderBy (clause : Position)
  /-- The clause is not a from clause that takes a projection. -/
  | notProjecting (clause : Position)
  /-- A clause does not name the clause before it. -/
  | brokenChain (clause expected found : Position)
  /-- A sort key does not name the clause that holds it. -/
  | strayKey (clause : Position) (index : Nat)
  /-- A from clause has no projection. -/
  | missingProjection (itemName : String)
  /-- The query does not end. -/
  | missingTerminal
  /-- The query would end twice. -/
  | terminalAlreadySet
  /-- Two sources have the same identity. -/
  | duplicateSource (itemName : String) (id : SourceId)
  /-- An expression refers to a source that is not visible to it. -/
  | danglingReference (place : String) (id : SourceId)
  deriving DecidableEq

/-- The message of an error. -/
def QueryError.message : QueryError → String
  | emptyItemName => "Query source item names must not be empty"
  | clauseOutOfRange clause => clause.render ++ " does not exist in this query model"
  | notOrderBy clause => clause.render ++ " is not an order by clause"
  | notProjecting clause => clause.render ++ " is not a from clause that takes a projection"
  | brokenChain clause expected found =>
    "Previous clause of " ++ clause.render ++ " must be " ++ expected.render ++ ", found " ++
      found.render
  | strayKey clause index =>
    "Ordering " ++ toString index ++ " of " ++ clause.render ++
      " does not point back at its order by clause"
  | missingProjection itemName => "From clause '" ++ itemName ++ "' has no projection expression"
  | missingTerminal => "Query model has no select or group clause"
  | terminalAlreadySet => "Query model already has a select or group clause"
  | duplicateSource itemName id =>
    "Query source '" ++ itemName ++ "' (" ++ id.render ++ ") appears more than once"
  | danglingReference place id =>
    "Expression in " ++ place ++ " references query source " ++ id.render ++
      ", which is not visible there"

end QueryFold
