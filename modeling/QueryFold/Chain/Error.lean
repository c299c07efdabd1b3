import QueryFold.Chain.Basic
import QueryFold.Query.Error

/-!
# Errors of builds

Why no query can be built. Most causes are misuses: an operation at a place where it cannot
stand, a lambda of the wrong shape, a link that leads nowhere. Some are inconsistencies that
a build never runs into, because it applies the nodes of a checked chain in order; they
arise only where nodes are applied one by one from outside.
-/

namespace QueryFold

/-- A misuse of the operations of a chain. -/
inductive Misuse where
  /-- A node needs the node before it but has no link. -/
  | unlinked (node : String)
  /-- A node is applied again. -/
  | appliedTwice (node : String)
  /-- What applying a node produced is recorded again. -/
  | recordedTwice (id : NodeId)
  /-- The record of a node that was not applied is asked for. -/
  | notApplied (id : NodeId)
  /-- The source of a node that introduces none is asked for. -/
  | sourceless (id : NodeId)
  /-- An expression is resolved against a source that was not applied. -/
  | resolvedEarly (node : String)
  /-- An expression is resolved against a grouping. -/
  | throughGrouping (node : String)
  /-- A node carries a number that is not its position. -/
  | misplaced (position : Nat) (id : NodeId)
  /-- A node is linked to itself or to a later node. -/
  | forwardLink (node : String) (source : NodeId)
  /-- The links of a chain lead in a circle. -/
  | endlessLinks
  /-- A chain starts with an operation that is no source. -/
  | notASource (operation : String)
  /-- A lambda must have one parameter. -/
  | notUnary (lambda : String)
  /-- A result selector must have two parameters. -/
  | notBinary (lambda : String)
  /-- A key selector must have one parameter. -/
  | keyNotUnary (lambda : String)
  /-- A source expression must be a sequence. -/
  | sourceNotSequence (expression : String) (type : Ty)
  /-- A collection selector must yield a sequence. -/
  | collectionNotSequence (expression : String) (type : Ty)
  /-- A from clause must introduce a source. -/
  | fromWithoutSource
  /-- A result selector is needed. -/
  | noResultSelector (callSite : String)
  /-- A change of the item type must be an operation of its own. -/
  | castAsOperator (operator : String)
  /-- The result of a nested query has no item type. -/
  | noItemType (query : String)
  /-- A grouping is projected. -/
  | projectsGrouping (callSite : String)
  /-- The result of an operator is projected. -/
  | projectsResult (callSite : String)
  /-- The projection is changed after a cast. -/
  | projectsCast (callSite : String)
  /-- A clause follows a grouping. -/
  | afterGrouping (callSite : String)
  /-- A clause follows an operator on the result. -/
  | afterResult (callSite : String)
  /-- The first entry of an outline is not a from entry. -/
  | firstNotFrom (entry : String)
  /-- An outline has no from entry. -/
  | noFrom
  deriving DecidableEq

/-- The message of a misuse. -/
def Misuse.message : Misuse → String
  | unlinked node => node ++ " has no source node"
  | appliedTwice node => node ++ " has already been applied"
  | recordedTwice id => "node " ++ id.render ++ " has already been applied"
  | notApplied id => "node " ++ id.render ++ " must be applied before it can be resolved"
  | sourceless id => "node " ++ id.render ++ " did not produce a query source"
  | resolvedEarly node => node ++ " resolved before it was applied"
  | throughGrouping node =>
    "cannot resolve through " ++ node ++ "; wrap the grouping in a sub-query"
  | misplaced position id => "node at position " ++ toString position ++ " carries id " ++ id.render
  | forwardLink node source =>
    node ++ " is chained from " ++ source.render ++ ", which is not an earlier node"
  | endlessLinks => "the links of the chain lead in a circle"
  | notASource operation => "a query must start with a source, found " ++ operation
  | notUnary lambda => "expected a lambda with one parameter, found " ++ lambda
  | notBinary lambda => "result selector " ++ lambda ++ " must take two parameters"
  | keyNotUnary lambda => "key selector " ++ lambda ++ " must take one parameter"
  | sourceNotSequence expression type =>
    "source expression " ++ expression ++ " of type " ++ type.render ++ " is not a sequence"
  | collectionNotSequence expression type =>
    "collection selector " ++ expression ++ " of type " ++ type.render ++ " is not a sequence"
  | fromWithoutSource => "from clause without a query source"
  | noResultSelector callSite => callSite ++ " has no result selector"
  | castAsOperator operator => operator ++ " must be expressed as a cast node"
  | noItemType query => "sub-query " ++ query ++ " has no output item type"
  | projectsGrouping callSite => callSite ++ " cannot project a grouping without a sub-query"
  | projectsResult callSite =>
    callSite ++ " cannot project after a result operator without a sub-query"
  | projectsCast callSite =>
    callSite ++ " cannot change the projection after a cast without a sub-query"
  | afterGrouping callSite => callSite ++ " cannot follow a grouping without a sub-query"
  | afterResult callSite => callSite ++ " cannot follow a result operator without a sub-query"
  | firstNotFrom entry => "the first body expression must be a from expression, found " ++ entry
  | noFrom => "the query has no from expression"

/-- Why no query can be built. -/
inductive BuildError where
  /-- A from clause is left without a projection. -/
  | missingProjection (identifier source : String)
  /-- Nothing was selected or grouped. -/
  | noProjection
  /-- A node or a parameter is not known. -/
  | unresolvable (reference : String)
  /-- The operations are misused. -/
  | misuse (cause : Misuse)
  /-- Chains are nested too deeply. -/
  | tooDeep (depth limit : UInt32)
  /-- An operation on the query failed, or the query is not valid. -/
  | query (cause : QueryError)
  deriving DecidableEq

/-- The message of an error. -/
def BuildError.message : BuildError → String
  | missingProjection identifier source =>
    "From expression '" ++ identifier ++ "' (" ++ source ++
      ") doesn't have a projection expression."
  | noProjection => "There is no projection for the select clause."
  | unresolvable reference =>
    "Cannot resolve reference '" ++ reference ++ "': it does not appear in the source chain."
  | misuse cause => "Invalid state: " ++ cause.message
  | tooDeep depth limit =>
    "Sub-query nesting depth " ++ toString depth.toNat ++ " exceeds the configured limit of " ++
      toString limit.toNat ++ "."
  | query cause => "Query model error: " ++ cause.message

/-- The result of an operation on a query as a step of a build. -/
def ofQueryResult {α : Type} : Except QueryError α → Except BuildError α
  | .ok a => .ok a
  | .error e => .error (.query e)

end QueryFold
