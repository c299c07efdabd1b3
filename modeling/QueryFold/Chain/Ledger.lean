import QueryFold.Chain.Error
import QueryFold.Settings.Basic

/-!
# The ledger of a build

While the nodes of a chain are applied, a ledger records what later nodes need to know: for
each applied node the clause it produced and the source it introduced, the projection that
was registered last, the from clause that still waits for its projection, and what has
closed the query against further clauses. A node is recorded once.
-/

namespace QueryFold

/-- What applying a node produced. -/
structure NodeRecord where
  /-- The clause that the node produced or extended. -/
  clause : Option Position := none
  /-- The reference to the items of the source that it introduced. -/
  item : Option ItemRef := none
  deriving DecidableEq, Inhabited

/-- What a query yields. -/
inductive Projection where
  /-- The values of an expression. -/
  | select (selector : Expr)
  /-- The values of an expression under keys. -/
  | group (key element : Expr)

/-- A from clause that waits for its projection. -/
structure OpenFrom where
  /-- The node that produced it. -/
  node : NodeId
  /-- Its position. -/
  clause : Position
  /-- The name of its items. -/
  identifier : String
  /-- The text of what it iterates over. -/
  source : String
  deriving DecidableEq

/-- The error when the projection never comes. -/
def OpenFrom.error (o : OpenFrom) : BuildError := .missingProjection o.identifier o.source

/-- The records of a build. -/
structure Ledger where
  /-- The records of the applied nodes, first node first. -/
  records : List (NodeId × NodeRecord) := []
  /-- The projection registered last. -/
  projection : Option Projection := none
  /-- The from clause that waits for its projection. -/
  openFrom : Option OpenFrom := none
  /-- Whether an operator on the result was applied that allows no further clause. -/
  closed : Bool := false
  /-- Whether the items were cast. -/
  castApplied : Bool := false
  /-- Whether the items were grouped. -/
  grouped : Bool := false
  /-- How deeply the chain is nested. -/
  depth : UInt32 := 0
  /-- The settings of the build. -/
  settings : Settings := {}

namespace Ledger

/-- The ledger at the start of the build of a chain at a depth. -/
def start (settings : Settings) (depth : UInt32) : Ledger :=
  { settings := settings, depth := depth }

/-- The number of recorded nodes. -/
def size (l : Ledger) : Nat := l.records.length

/-- The record of a node. -/
def record? (l : Ledger) (id : NodeId) : Option NodeRecord := l.records.lookup id

/-- Whether a node was applied. -/
def isApplied (l : Ledger) (id : NodeId) : Bool := (l.record? id).isSome

/-- Record what applying a node produced. -/
def record (l : Ledger) (id : NodeId) (r : NodeRecord) : Except BuildError Ledger :=
  if l.isApplied id then .error (.misuse (.recordedTwice id))
  else .ok { l with records := l.records ++ [(id, r)] }

/-- The record of a node that must have been applied. -/
def lookup (l : Ledger) (id : NodeId) : Except BuildError NodeRecord :=
  match l.record? id with
  | some r => .ok r
  | none => .error (.misuse (.notApplied id))

/-- The reference to the items of the source that a node introduced. -/
def item (l : Ledger) (id : NodeId) : Except BuildError ItemRef := do
  match (← l.lookup id).item with
  | some r => .ok r
  | none => .error (.misuse (.sourceless id))

/-- Register what the query yields; the last registration counts. -/
def register (l : Ledger) (p : Projection) : Ledger :=
  match p with
  | .select _ => { l with projection := some p }
  | .group _ _ => { l with projection := some p, grouped := true }

/-- Close the query by an operator on its result. -/
def close (l : Ledger) : Ledger := { l with closed := true }

/-- Note that the items were cast. -/
def noteCast (l : Ledger) : Ledger := { l with castApplied := true }

/-- Check that the projection may be set. After a cast only the identity may be projected. -/
def ensureProjection (l : Ledger) (callSite : String) (identity : Bool) : Except BuildError Unit :=
  if l.grouped then .error (.misuse (.projectsGrouping callSite))
  else if l.closed then .error (.misuse (.projectsResult callSite))
  else if l.castApplied && !identity then .error (.misuse (.projectsCast callSite))
  else .ok ()

/-- Check that a clause may follow. -/
def ensureClause (l : Ledger) (callSite : String) : Except BuildError Unit :=
  if l.grouped then .error (.misuse (.afterGrouping callSite))
  else if l.closed then .error (.misuse (.afterResult callSite))
  else .ok ()

end Ledger

end QueryFold
