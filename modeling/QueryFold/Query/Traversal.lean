import QueryFold.Language

/-!
# Traversal of the expressions of a query

All expressions that a query owns, in the order of its text: the sequence of the main from
clause, the body clause by clause, the last clause, and the operators. The expressions of a
nested query in a from clause come before the projection of that clause. A query inside an
expression is part of that expression and is not entered.

A traversal replaces each of these expressions and leaves all else as it is.
-/

namespace QueryFold

variable {m : Type → Type} [Monad m]

/-- An optional expression replaced. -/
def replaceOption (f : Expr → m Expr) : Option Expr → m (Option Expr)
  | none => return none
  | some e => return some (← f e)

/-- The expressions of sort keys replaced, first key first. -/
def replaceKeys (f : Expr → m Expr) : List SortKey → m (List SortKey)
  | [] => return []
  | k :: ks => do
    let key ← f k.key
    return { k with key := key } :: (← replaceKeys f ks)

/-- The expressions of the last clause replaced. -/
def Terminal.replaceM (f : Expr → m Expr) : Terminal → m Terminal
  | .select selector previous => return .select (← f selector) previous
  | .group key element previous => do
    let key ← f key
    let element ← f element
    return .group key element previous

/-- The last clause, if there is one, with its expressions replaced. -/
def replaceTerminal (f : Expr → m Expr) : Option Terminal → m (Option Terminal)
  | none => return none
  | some t => return some (← t.replaceM f)

/-- The expression of an operator replaced. -/
def ResultOp.replaceM (f : Expr → m Expr) : ResultOp → m ResultOp
  | .argument op arg => return .argument op (← f arg)
  | op => return op

/-- The expressions of several operators replaced. -/
def replaceOperators (f : Expr → m Expr) : List ResultOp → m (List ResultOp)
  | [] => return []
  | op :: ops => do
    let op ← op.replaceM f
    return op :: (← replaceOperators f ops)

mutual

/-- The expressions of a clause replaced, including those of a nested query. -/
def Clause.replaceM (f : Expr → m Expr) : Clause → m Clause
  | .fromExpr kind source generator projection previous => do
    let generator ← f generator
    let projection ← replaceOption f projection
    return .fromExpr kind source generator projection previous
  | .fromQuery source query projection previous => do
    let query ← query.replaceM f
    let projection ← replaceOption f projection
    return .fromQuery source query projection previous
  | .filter predicate previous => return .filter (← f predicate) previous
  | .define source value previous => return .define source (← f value) previous
  | .orderBy keys previous => return .orderBy (← replaceKeys f keys) previous

/-- The expressions of a body replaced. -/
def replaceBody (f : Expr → m Expr) : List Clause → m (List Clause)
  | [] => return []
  | c :: cs => do
    let c ← c.replaceM f
    return c :: (← replaceBody f cs)

/-- The expressions of a query replaced. -/
def Query.replaceM (f : Expr → m Expr) : Query → m Query
  | ⟨source, generator, body, terminal, operators, resultType⟩ => do
    let generator ← f generator
    let body ← replaceBody f body
    let terminal ← replaceTerminal f terminal
    let operators ← replaceOperators f operators
    return ⟨source, generator, body, terminal, operators, resultType⟩

end

/-- The query with each of its expressions replaced by its image. -/
def Query.replace (f : Expr → Expr) (q : Query) : Query := Id.run (q.replaceM fun e => pure (f e))

mutual

/-- All expressions of a clause, those of a nested query first. -/
def Clause.allExpressions : Clause → List Expr
  | .fromExpr _ _ generator projection _ => generator :: projection.toList
  | .fromQuery _ query projection _ => query.expressions ++ projection.toList
  | .filter predicate _ => [predicate]
  | .define _ value _ => [value]
  | .orderBy keys _ => keys.map SortKey.key

/-- All expressions of a body. -/
def bodyExpressions : List Clause → List Expr
  | [] => []
  | c :: cs => c.allExpressions ++ bodyExpressions cs

/-- All expressions of a query. -/
def Query.expressions : Query → List Expr
  | ⟨_, generator, body, terminal, operators, _⟩ =>
    generator :: (bodyExpressions body ++
      (match terminal with
        | none => []
        | some (.select selector _) => [selector]
        | some (.group key element _) => [key, element]) ++
      operators.flatMap fun op => match op with
        | .argument _ arg => [arg]
        | _ => [])

end

end QueryFold
