import QueryFold.Chain.Application

/-!
# Folding a chain into a query

The first node of a chain starts the query and the others are applied in order. The
projection registered last then becomes the clause that ends the query, and the query is
validated if the settings say so. Nested chains are folded in the same way one level deeper,
down to the depth that the settings allow.
-/

namespace QueryFold

variable {m : Type → Type} [Monad m]

/-- The clause that ends a query with a projection. -/
def Projection.terminal : Projection → Terminal
  | select selector => .select selector .main
  | group key element => .group key element .main

namespace Build

/-- End the query of a build by the projection registered last; no from clause may be waiting. -/
def finish (b : Build) : Except BuildError (Query × Ledger) := do
  let some p := b.ledger.projection | throw .noProjection
  if let some waiting := b.ledger.openFrom then throw waiting.error
  let q ← ofQueryResult (b.query.setTerminal p.terminal)
  if b.ledger.settings.validate then ofQueryResult q.validate
  return (q, b.ledger)

/-- Run a step of a build on a query and a ledger, and end the query. -/
def complete (step : BuildT m Unit) (q : Query) (l : Ledger) :
    DrawT m BuildError (Query × Ledger) :=
  ExceptT.mk fun drawn => do
    let (result, b) ← step.run.run ⟨q, l, drawn⟩
    return (do result; b.finish, b.drawn)

end Build

variable [Resolver m]

mutual

/-- The query of a chain at a depth, together with the ledger of its build. -/
def Chain.build (ids : Nat → SourceId) (chain : Chain) (settings : Settings) (depth : UInt32) :
    DrawT m BuildError (Query × Ledger) :=
  match chain with
  | ⟨nodes, resultType⟩ => do
    if settings.maxDepth < depth then throw (.tooDeep depth settings.maxDepth)
    match nodes with
    | [] => throw .noProjection
    | first :: rest =>
      asking (Resolver.checkLinks ⟨first :: rest, resultType⟩)
      let (source, generator, l) ←
        first.startWith ids (first.nested ids) (Ledger.start settings depth)
      Build.complete (applyNodes ids ⟨first :: rest, resultType⟩ rest)
        (Query.start source generator resultType) l
termination_by structural chain

/-- Apply the nodes of a chain one after the other. -/
def applyNodes (ids : Nat → SourceId) (chain : Chain) (nodes : List Node) : BuildT m Unit :=
  match nodes with
  | [] => pure ()
  | n :: ns => do
    n.applyWith ids (n.nested ids) chain
    applyNodes ids chain ns
termination_by structural nodes

/-- The computation of the nested query of a node. -/
def Node.nested (ids : Nat → SourceId) (n : Node) : Nested m :=
  match n with
  | ⟨_, _, _, _, operation⟩ => operation.nested ids
termination_by structural n

/-- The computation of the nested query of an operation, which only a sub-query source has. -/
def Operation.nested (ids : Nat → SourceId) (operation : Operation) : Nested m :=
  match operation with
  | .subQuerySource chain => fun settings depth => do
    let (q, _) ← chain.build ids settings depth
    return q
  | _ => fun _ _ => throw .noProjection
termination_by structural operation

end

/-- Apply a node of a chain. -/
def Node.apply (ids : Nat → SourceId) (chain : Chain) (n : Node) : BuildT m Unit :=
  n.applyWith ids (n.nested ids) chain

/-- The query of a chain that is not nested, together with the ledger of its build. -/
def Chain.toQuery (ids : Nat → SourceId) (settings : Settings) (chain : Chain) :
    DrawT m BuildError (Query × Ledger) :=
  chain.build ids settings 0

end QueryFold
