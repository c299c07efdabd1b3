import QueryFold.Chain.Resolution
import QueryFold.Query.Source
import QueryFold.Query.Traversal
import QueryFold.Query.Validation

/-!
# Applying a node

A build goes through the nodes of a chain in order. Applying a node checks that the
operation may stand where it stands, resolves its lambdas against the node before, changes
the query and records what it did. This module has one function for each operation; the
nested query of a sub-query source is given as a computation, so that nothing here depends
on how chains are folded.

The state of a build outlives an error: what an operation did before it failed is done.

How links are checked and lambdas resolved is up to the monad `m` in which a build is made
(`Resolver`). In `Id` it is done at once. The functions here are the same in every monad.
-/

namespace QueryFold

/-- The state of a build. -/
structure Build where
  /-- The query so far. -/
  query : Query
  /-- The records of the build. -/
  ledger : Ledger
  /-- How many identities were drawn. -/
  drawn : Nat

/-- A monad in which the links of chains are checked and expressions are resolved. -/
class Resolver (m : Type → Type) where
  /-- Check the links of a chain. -/
  checkLinks : Chain → m (Except BuildError Unit)
  /-- Resolve an expression about an item of a node. -/
  resolve : Chain → Ledger → NodeId → Param → Expr → m (Except BuildError Expr)
  /-- Resolve the body of a lambda about an item of a node. -/
  resolveLambda : Chain → Ledger → NodeId → Lambda → m (Except BuildError Expr)

instance : Resolver Id where
  checkLinks := Chain.checkLinks
  resolve := Chain.resolve
  resolveLambda := Chain.resolveLambda

/-- A step of a build in a monad. -/
abbrev BuildT (m : Type → Type) := ExceptT BuildError (StateT Build m)

/-- A step of a build. -/
abbrev BuildM := BuildT Id

/-- The computation of a nested query for given settings at a depth. -/
abbrev Nested (m : Type → Type := Id) := Settings → UInt32 → DrawT m BuildError Query

variable {m : Type → Type} [Monad m] {α : Type}

/-- What a resolver is asked, in a computation with a state. -/
def asking {σ : Type} (x : m (Except BuildError α)) : ExceptT BuildError (StateT σ m) α :=
  ExceptT.mk fun s => do return (← x, s)

/-- Run a computation that draws identities as a step of a build. -/
def drawing (x : DrawT m BuildError α) : BuildT m α := ExceptT.mk fun b => do
  let (result, drawn) ← x.run.run b.drawn
  return (result, { b with drawn := drawn })

/-- A new source, in a build. -/
def createSource (ids : Nat → SourceId) (item : Param) : DrawT m BuildError Source :=
  ExceptT.mk do return ofQueryResult (← (Source.create ids item).run)

namespace Build

/-- Change the query. -/
def modifyQuery (f : Query → Query) : BuildT m Unit :=
  modify fun b => { b with query := f b.query }

/-- Change the ledger. -/
def modifyLedger (f : Ledger → Ledger) : BuildT m Unit :=
  modify fun b => { b with ledger := f b.ledger }

/-- Add a clause to the body and return its position. -/
def addClause (c : Clause) : BuildT m Position := do
  let position := (← get).query.next
  modifyQuery (·.addClause c)
  return position

/-- Change the query by an operation that may fail. -/
def updateQuery (f : Query → Except QueryError Query) : BuildT m Unit := do
  let q ← ofQueryResult (f (← get).query)
  modifyQuery fun _ => q

/-- Record what applying a node produced. -/
def record (id : NodeId) (r : NodeRecord) : BuildT m Unit := do
  let l ← (← get).ledger.record id r
  modifyLedger fun _ => l

/-- Let a from clause wait for its projection. If another one is waiting already, that one will
never get its projection: it waits no longer, and its error is raised. -/
def openFrom (o : OpenFrom) : BuildT m Unit := do
  match (← get).ledger.openFrom with
  | some previous =>
    modifyLedger fun l => { l with openFrom := none }
    throw previous.error
  | none => modifyLedger fun l => { l with openFrom := some o }

/-- Take the from clause that waits for its projection, if there is one. -/
def takeOpenFrom : BuildT m (Option OpenFrom) := do
  let waiting := (← get).ledger.openFrom
  modifyLedger fun l => { l with openFrom := none }
  return waiting

end Build

/-! ### Sources -/

/-- The item type of a source expression. -/
def sourceItemType (e : Expr) : Except BuildError Ty :=
  match e.type.element? with
  | some t => .ok t
  | none => .error (.misuse (.sourceNotSequence e.render e.type))

/-- A nested query and its item type. -/
def nestedItems (nested : Nested m) (l : Ledger) : DrawT m BuildError (Query × Ty) := do
  let q ← nested l.settings (l.depth + 1)
  match q.itemType? with
  | some t => return (q, t)
  | none => throw (.misuse (.noItemType q.render))

namespace Node

/-- Iterate over a further sequence. -/
def applyMainSource (ids : Nat → SourceId) (n : Node) (e : Expr) : BuildT m Unit := do
  (← get).ledger.ensureClause n.callSite
  let type ← sourceItemType e
  let source ← drawing (createSource ids ⟨n.identifier, type⟩)
  let position ← Build.addClause (.fromExpr .additional source e none .main)
  Build.openFrom ⟨n.id, position, n.identifier, e.render⟩
  Build.record n.id ⟨some position, some source.ref⟩

/-- Iterate over the result of a nested query. -/
def applySubQuerySource (ids : Nat → SourceId) (n : Node) (nested : Nested m) : BuildT m Unit := do
  let l := (← get).ledger
  l.ensureClause n.callSite
  let (q, type) ← drawing (nestedItems nested l)
  let source ← drawing (createSource ids ⟨n.identifier, type⟩)
  let position ← Build.addClause (.fromQuery source q none .main)
  Build.openFrom ⟨n.id, position, n.identifier, (Expr.subQuery q).render⟩
  Build.record n.id ⟨some position, some source.ref⟩

/-! ### Clauses -/

/-- The clause that iterates over a resolved expression: a nested query, a member, or any other
sequence. -/
def fromClause (source : Source) : Expr → Clause
  | .subQuery q => .fromQuery source q none .main
  | .member object name t => .fromExpr .member source (.member object name t) none .main
  | e => .fromExpr .additional source e none .main

/-- The name and type of the items of a select-many: the second parameter of the result selector, or
else the identifier of the node with the element type of the collection. -/
def manyItem (n : Node) (result : Option Lambda) (element : Ty) : Except BuildError Param :=
  match result with
  | some selector => do return (← selector.binary).2
  | none => .ok ⟨n.identifier, element⟩

variable [Resolver m]

/-- Iterate over a sequence made from each item. The node is recorded before its result selector is
resolved, since the second parameter of the selector stands for its own items. -/
def applySelectMany (ids : Nat → SourceId) (chain : Chain) (n : Node) (collection : Lambda)
    (result : Option Lambda) : BuildT m Unit := do
  let l := (← get).ledger
  l.ensureClause n.callSite
  if result.isSome then l.ensureProjection n.callSite false
  let link ← n.link
  let e ← asking (Resolver.resolveLambda chain l link collection)
  let some element := e.type.element?
    | throw (.misuse (.collectionNotSequence e.render e.type))
  let item ← n.manyItem result element
  let source ← drawing (createSource ids item)
  let clause := fromClause source e
  let some introduced := clause.source?
    | throw (.misuse .fromWithoutSource)
  let position := (← get).query.next
  Build.record n.id ⟨some position, some introduced.ref⟩
  match result with
  | some selector =>
    let l := (← get).ledger
    let projection ← selector.resolveResult l n (pure ()) fun p e =>
      asking (Resolver.resolve chain l link p e)
    let _ ← Build.addClause ((clause.withProjection? projection).getD clause)
    Build.modifyLedger (·.register (.select projection))
  | none =>
    let _ ← Build.addClause clause
    Build.openFrom ⟨n.id, position, n.identifier, e.render⟩

/-- Keep the items that satisfy a predicate. -/
def applyFilter (chain : Chain) (n : Node) (predicate : Lambda) : BuildT m Unit := do
  let l := (← get).ledger
  l.ensureClause n.callSite
  let e ← asking (Resolver.resolveLambda chain l (← n.link) predicate)
  let position ← Build.addClause (.filter e .main)
  Build.record n.id ⟨some position, none⟩

/-- Name a value. -/
def applyDefine (ids : Nat → SourceId) (chain : Chain) (n : Node) (name : Param) (value : Lambda) :
    BuildT m Unit := do
  let l := (← get).ledger
  l.ensureClause n.callSite
  let e ← asking (Resolver.resolveLambda chain l (← n.link) value)
  let source ← drawing (createSource ids name)
  let position ← Build.addClause (.define source e .main)
  Build.record n.id ⟨some position, some source.ref⟩

/-- The position of the last clause, if that is an order by clause. -/
def lastOrderBy? (q : Query) : Option Position :=
  match q.body.getLast? with
  | some (.orderBy _ _) => some q.last
  | _ => none

/-- Sort by a key. A subordinate key joins the order by clause at the end of the body, if there is
one there. -/
def applyOrderBy (chain : Chain) (n : Node) (key : Lambda) (direction : Direction)
    (thenBy : Bool) : BuildT m Unit := do
  let l := (← get).ledger
  l.ensureClause n.callSite
  let e ← asking (Resolver.resolveLambda chain l (← n.link) key)
  let q := (← get).query
  match if thenBy then lastOrderBy? q else none with
  | some position =>
    Build.updateQuery (·.addKey position ⟨e, direction, none⟩)
    Build.record n.id ⟨some position, none⟩
  | none =>
    let position ← Build.addClause (.orderBy [⟨e, direction, none⟩] .main)
    Build.record n.id ⟨some position, none⟩

/-! ### Projections -/

/-- Whether a selector yields its parameter. -/
def isIdentity (selector : Lambda) : Bool :=
  match selector.single?, selector.body with
  | some p, .param q => p = q
  | _, _ => false

/-- Yield the value of a selector. It is also the projection of the from clause that waits for
one. -/
def applySelect (chain : Chain) (n : Node) (selector : Lambda) : BuildT m Unit := do
  let l := (← get).ledger
  l.ensureProjection n.callSite (isIdentity selector)
  let e ← asking (Resolver.resolveLambda chain l (← n.link) selector)
  match ← Build.takeOpenFrom with
  | some waiting => Build.updateQuery (·.setProjection waiting.clause e)
  | none => pure ()
  Build.modifyLedger (·.register (.select e))
  Build.record n.id {}

/-- The element of a grouping: the value of the element selector, or else the item itself. -/
def groupElement (chain : Chain) (l : Ledger) (link : NodeId) (key : Lambda) :
    Option Lambda → m (Except BuildError Expr)
  | some selector => Resolver.resolveLambda chain l link selector
  | none =>
    match key.single? with
    | some p => Resolver.resolve chain l link p (.param p)
    | none => return .error (.misuse (.keyNotUnary key.render))

/-- Collect items under keys. -/
def applyGroupBy (chain : Chain) (n : Node) (key : Lambda) (element : Option Lambda) :
    BuildT m Unit := do
  let l := (← get).ledger
  l.ensureClause n.callSite
  l.ensureProjection n.callSite false
  let link ← n.link
  let keyExpr ← asking (Resolver.resolveLambda chain l link key)
  let elementExpr ← asking (groupElement chain l link key element)
  if let some waiting := l.openFrom then throw waiting.error
  Build.modifyLedger (·.register (.group keyExpr elementExpr))
  Build.record n.id {}

/-! ### Operators on the result -/

omit [Resolver m] in
/-- Change the item type. Keeping the items of a type changes the sequence, so no clause may follow;
converting them keeps the sequence and fixes the projection. -/
def applyCast (n : Node) (kind : CastKind) (type : Ty) : BuildT m Unit := do
  Build.modifyQuery (·.addOperator (.cast kind type))
  match kind with
  | .ofType => Build.modifyLedger Ledger.close
  | .cast => Build.modifyLedger Ledger.noteCast
  Build.record n.id {}

/-- The argument of an operator resolved if it is a lambda with one parameter; any other argument
stands for itself. -/
def resolveArgument (chain : Chain) (l : Ledger) (link : NodeId) : Expr → m (Except BuildError Expr)
  | .lambda [p] body => Resolver.resolveLambda chain l link ⟨[p], body⟩
  | e => return .ok e

/-- Apply an operator to the result. -/
def applyResultOperator (chain : Chain) (n : Node) (op : ResultOp) : BuildT m Unit := do
  if op.castType?.isSome then throw (.misuse (.castAsOperator op.name))
  let link ← n.link
  let l := (← get).ledger
  let resolved ← op.replaceM fun e => asking (resolveArgument chain l link e)
  Build.modifyQuery (·.addOperator resolved)
  Build.modifyLedger Ledger.close
  Build.record n.id {}

/-- Apply a node, whose nested query, if it has one, is computed by `nested`. A node is applied
once. -/
def applyWith (ids : Nat → SourceId) (nested : Nested m) (chain : Chain) (n : Node) :
    BuildT m Unit := do
  if (← get).ledger.isApplied n.id then throw (.misuse (.appliedTwice n.describe))
  match n.operation with
  | .mainSource e => n.applyMainSource ids e
  | .subQuerySource _ => n.applySubQuerySource ids nested
  | .selectMany collection result => n.applySelectMany ids chain collection result
  | .filter predicate => n.applyFilter chain predicate
  | .orderBy key direction thenBy => n.applyOrderBy chain key direction thenBy
  | .select selector => n.applySelect chain selector
  | .define name value => n.applyDefine ids chain name value
  | .groupBy key element => n.applyGroupBy chain key element
  | .cast kind type => n.applyCast kind type
  | .resultOperator op => n.applyResultOperator chain op

omit [Resolver m] in
/-- Start a query from the first node of a chain, which must be a source, and record the node. -/
def startWith (ids : Nat → SourceId) (nested : Nested m) (l : Ledger) (n : Node) :
    DrawT m BuildError (Source × Expr × Ledger) := do
  match n.operation with
  | .mainSource e =>
    let type ← sourceItemType e
    let source ← createSource ids ⟨n.identifier, type⟩
    return (source, e, ← l.record n.id ⟨some .main, some source.ref⟩)
  | .subQuerySource _ =>
    let (q, type) ← nestedItems nested l
    let source ← createSource ids ⟨n.identifier, type⟩
    return (source, .subQuery q, ← l.record n.id ⟨some .main, some source.ref⟩)
  | op => throw (.misuse (.notASource op.name))

end Node

end QueryFold
