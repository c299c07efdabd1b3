import QueryFold.Chain.Error

/-!
# Links of a chain

The links of a chain are in order when every node carries its position as its number and is
linked to an earlier node, if to any. Following links from a node then leads to nodes with
smaller and smaller numbers.
-/

namespace QueryFold

namespace Chain

/-- The node with a number. -/
def node (c : Chain) (id : NodeId) : Except BuildError Node :=
  match c.nodes[id.value]? with
  | some n => .ok n
  | none => .error (.unresolvable id.render)

/-- Check the numbers and links of nodes that start at a position. -/
def checkLinksFrom : (position : Nat) → List Node → Except BuildError Unit
  | _, [] => .ok ()
  | position, n :: ns =>
    if n.id.value ≠ position then .error (.misuse (.misplaced position n.id))
    else match n.source with
      | none => checkLinksFrom (position + 1) ns
      | some source =>
        if position ≤ source.value then .error (.misuse (.forwardLink n.describe source))
        else checkLinksFrom (position + 1) ns

/-- Check that each node carries its position and is linked to an earlier node, if to any. -/
def checkLinks (c : Chain) : Except BuildError Unit := checkLinksFrom 0 c.nodes

end Chain

/-- The link of a node that must have one. -/
def Node.link (n : Node) : Except BuildError NodeId :=
  match n.source with
  | some id => .ok id
  | none => .error (.misuse (.unlinked n.describe))

/-! ### Routes -/

/-- The nodes that are met when links are followed from a node on. -/
inductive Route where
  /-- A node, and the way on from its link. -/
  | via (node : Node) (rest : Route)
  /-- The node before, described here, has no link. -/
  | ended (node : String)
  /-- There is no node with this number. -/
  | unknown (id : NodeId)
  /-- The links were followed too often. -/
  | endless

namespace Route

/-- Check that the route does not end at a node without a link. -/
def linked : Route → Except BuildError Unit
  | ended node => .error (.misuse (.unlinked node))
  | _ => .ok ()

end Route

namespace Chain

/-- The route from a node, following at most `steps` links. -/
def routeWithin (c : Chain) : (steps : Nat) → NodeId → Route
  | 0, _ => .endless
  | steps + 1, id =>
    match c.nodes[id.value]? with
    | none => .unknown id
    | some n =>
      .via n (match n.source with
        | none => .ended n.describe
        | some source => c.routeWithin steps source)

/-- The route from a node. Links that are in order meet each node at most once, so one step for each
node and a last one suffice. -/
def route (c : Chain) (id : NodeId) : Route := c.routeWithin (c.nodes.length + 1) id

end Chain

end QueryFold
