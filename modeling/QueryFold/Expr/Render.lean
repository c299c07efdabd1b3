import QueryFold.Language

/-!
# The text of expressions and queries

A query is written as a comprehension on one line:

    from Cook s in value(Cook[]) where ([s].Age > 30) select [s].Name => Distinct()

References to items stand in brackets, nested queries in braces, and operators on the
result follow an arrow each.
-/

namespace QueryFold

/-- The parameters of a lambda: a single one stands alone, others in parentheses. -/
def renderParams : List Param → String
  | [p] => p.name
  | ps => "(" ++ ", ".intercalate (ps.map Param.name) ++ ")"

/-- The arguments of a new object, each assigned to its member if there are as many members as
arguments. -/
def renderMembers (members args : List String) : String :=
  if members.length = args.length ∧ members ≠ [] then
    ", ".intercalate (List.zipWith (fun m a => m ++ " = " ++ a) members args)
  else ", ".intercalate args

/-- The name of an operator without operands. -/
def PlainOp.name : PlainOp → String
  | count => "Count"
  | longCount => "LongCount"
  | distinct => "Distinct"
  | any => "Any"
  | sum => "Sum"
  | min => "Min"
  | max => "Max"
  | average => "Average"

/-- The name of an operator that takes one item. -/
def PickOp.name : PickOp → String
  | first => "First"
  | last => "Last"
  | single => "Single"

/-- The name of an operator with an argument. -/
def ArgumentOp.name : ArgumentOp → String
  | take => "Take"
  | skip => "Skip"
  | all => "All"
  | contains => "Contains"

/-- The name of a cast. -/
def CastKind.name : CastKind → String
  | cast => "Cast"
  | ofType => "OfType"

/-- The name of an operator on the result. -/
def ResultOp.name : ResultOp → String
  | cast kind _ => kind.name
  | plain op => op.name
  | pick op orDefault => if orDefault then op.name ++ "OrDefault" else op.name
  | argument op _ => op.name

/-- The head of a from clause, up to what it iterates over. -/
def renderFrom (source : Source) : String :=
  "from " ++ source.item.type.render ++ " " ++ source.item.name ++ " in "

mutual

/-- The text of an expression. -/
def Expr.render : Expr → String
  | .constant value _ => value.render
  | .param p => p.name
  | .item ref => "[" ++ ref.name ++ "]"
  | .member object name _ => object.render ++ "." ++ name
  | .convert operand type => "Convert(" ++ operand.render ++ ", " ++ type.render ++ ")"
  | .unary .not operand _ => "Not(" ++ operand.render ++ ")"
  | .unary .negate operand _ => "-" ++ operand.render
  | .binary op left right _ =>
    "(" ++ left.render ++ " " ++ op.symbol ++ " " ++ right.render ++ ")"
  | .call object method args _ =>
    renderReceiver object ++ method ++ "(" ++ ", ".intercalate (renderExprs args) ++ ")"
  | .create type members args =>
    "new " ++ type.render ++ "(" ++ renderMembers members (renderExprs args) ++ ")"
  | .lambda params body => renderParams params ++ " => " ++ body.render
  | .subQuery query => "\x7b" ++ query.render ++ "\x7d"

/-- The object of a call with its dot. -/
def renderReceiver : Option Expr → String
  | none => ""
  | some object => object.render ++ "."

/-- The texts of several expressions. -/
def renderExprs : List Expr → List String
  | [] => []
  | e :: es => e.render :: renderExprs es

/-- The text of a sort key. -/
def SortKey.render : SortKey → String
  | ⟨key, direction, _⟩ => key.render ++ " " ++ direction.render

/-- The texts of several sort keys. -/
def renderKeys : List SortKey → List String
  | [] => []
  | k :: ks => k.render :: renderKeys ks

/-- The text of a body clause. -/
def Clause.render : Clause → String
  | .fromExpr _ source generator _ _ => renderFrom source ++ generator.render
  | .fromQuery source query _ _ => renderFrom source ++ "\x7b" ++ query.render ++ "\x7d"
  | .filter predicate _ => "where " ++ predicate.render
  | .define source value _ => "let " ++ source.item.name ++ " = " ++ value.render
  | .orderBy keys _ => "orderby " ++ ", ".intercalate (renderKeys keys)

/-- The text of the body, each clause after a blank. -/
def renderBody : List Clause → String
  | [] => ""
  | c :: cs => " " ++ c.render ++ renderBody cs

/-- The text of the last clause. -/
def Terminal.render : Terminal → String
  | .select selector _ => "select " ++ selector.render
  | .group key element _ => "group " ++ element.render ++ " by " ++ key.render

/-- The text of the last clause after a blank, if there is one. -/
def renderTerminal : Option Terminal → String
  | none => ""
  | some t => " " ++ t.render

/-- The text of an operator on the result. -/
def ResultOp.render : ResultOp → String
  | .cast kind type => kind.name ++ "<" ++ type.render ++ ">()"
  | .plain op => op.name ++ "()"
  | .pick op orDefault => (ResultOp.pick op orDefault).name ++ "()"
  | .argument op arg => op.name ++ "(" ++ arg.render ++ ")"

/-- The texts of the operators, each after an arrow. -/
def renderOperators : List ResultOp → String
  | [] => ""
  | op :: ops => " => " ++ op.render ++ renderOperators ops

/-- The text of a query. -/
def Query.render : Query → String
  | ⟨source, generator, body, terminal, operators, _⟩ =>
    renderFrom source ++ generator.render ++ renderBody body ++ renderTerminal terminal ++
      renderOperators operators

end

/-- The text of a lambda. -/
def Lambda.render (l : Lambda) : String := l.toExpr.render

/-- The text of the main from clause. -/
def Query.renderMain (q : Query) : String := renderFrom q.source ++ q.generator.render

end QueryFold
