import QueryFold.Encoding.Parts

/-!
# Documents of expressions and queries

The written forms of expressions, clauses, operators on the result, and queries. Where a
document comes from matters at one place only: the content of a variant of an operator is a
record of its own, and it may be a list if the document is read directly from a text.
-/

namespace QueryFold

/-- Where a document comes from. -/
inductive Origin where
  /-- It is part of a larger document. -/
  | value
  /-- It was read from a text by itself. -/
  | text
  deriving DecidableEq

/-! ### Writing -/

/-- An optional value as a document, `null` if there is none. -/
def optionToJson {α : Type} (write : α → Json) : Option α → Json
  | none => .null
  | some a => write a

mutual

/-- An expression as a document. -/
def Expr.toJson : Expr → Json
  | .constant value type =>
    .variant "Constant" (.object [("value", value.toJson), ("ty", type.toJson)])
  | .param p => .variant "Parameter" p.toJson
  | .item ref => .variant "QuerySourceRef" ref.toJson
  | .member object name type =>
    .variant "MemberAccess" (.object
      [("object", object.toJson), ("member", .string name), ("ty", type.toJson)])
  | .convert operand type =>
    .variant "Convert" (.object [("operand", operand.toJson), ("ty", type.toJson)])
  | .unary op operand type =>
    .variant "Unary" (.object
      [("operator", .string op.tag), ("operand", operand.toJson), ("ty", type.toJson)])
  | .binary op left right type =>
    .variant "Binary" (.object
      [("operator", .string op.tag), ("left", left.toJson), ("right", right.toJson),
       ("ty", type.toJson)])
  | .call object method args type =>
    .variant "Call" (.object
      [("object", optionalExprToJson object), ("method", .string method),
       ("args", .array (exprsToJson args)), ("ty", type.toJson)])
  | .create type [] args =>
    .variant "New" (.object [("ty", type.toJson), ("args", .array (exprsToJson args))])
  | .create type (m :: ms) args =>
    .variant "New" (.object
      [("ty", type.toJson), ("members", .array ((m :: ms).map Json.string)),
       ("args", .array (exprsToJson args))])
  | .lambda params body =>
    .variant "Lambda" (.object
      [("params", .array (params.map Param.toJson)), ("body", body.toJson)])
  | .subQuery query => .variant "SubQuery" query.toJson

/-- An optional expression as a document. -/
def optionalExprToJson : Option Expr → Json
  | none => .null
  | some e => e.toJson

/-- Several expressions as documents. -/
def exprsToJson : List Expr → List Json
  | [] => []
  | e :: es => e.toJson :: exprsToJson es

/-- A sort key as a document. -/
def SortKey.toJson : SortKey → Json
  | ⟨key, direction, owner⟩ =>
    .object
      [("expression", key.toJson), ("direction", .string direction.tag),
       ("order_by_clause", optionToJson Position.toJson owner)]

/-- Several sort keys as documents. -/
def keysToJson : List SortKey → List Json
  | [] => []
  | k :: ks => k.toJson :: keysToJson ks

/-- A body clause as a document. -/
def Clause.toJson : Clause → Json
  | .fromExpr kind source generator projection previous =>
    .variant (match kind with
      | .additional => "AdditionalFrom"
      | .member => "MemberFrom") (.object
      [("source", source.toJson), ("from_expression", generator.toJson),
       ("projection_expression", optionalExprToJson projection),
       ("previous_clause", previous.toJson)])
  | .fromQuery source query projection previous =>
    .variant "SubQueryFrom" (.object
      [("source", source.toJson), ("sub_query_model", query.toJson),
       ("projection_expression", optionalExprToJson projection),
       ("previous_clause", previous.toJson)])
  | .filter predicate previous =>
    .variant "Where" (.object
      [("predicate", predicate.toJson), ("previous_clause", previous.toJson)])
  | .define source value previous =>
    .variant "Let" (.object
      [("source", source.toJson), ("expression", value.toJson),
       ("previous_clause", previous.toJson)])
  | .orderBy keys previous =>
    .variant "OrderBy" (.object
      [("orderings", .array (keysToJson keys)), ("previous_clause", previous.toJson)])

/-- The clauses of a body as documents. -/
def bodyToJson : List Clause → List Json
  | [] => []
  | c :: cs => c.toJson :: bodyToJson cs

/-- The last clause as a document. -/
def Terminal.toJson : Terminal → Json
  | .select selector previous =>
    .variant "Select" (.object
      [("selector", selector.toJson), ("previous_clause", previous.toJson)])
  | .group key element previous =>
    .variant "Group" (.object
      [("key_selector", key.toJson), ("element_selector", element.toJson),
       ("previous_clause", previous.toJson)])

/-- The last clause as a document, `null` if there is none. -/
def terminalToJson : Option Terminal → Json
  | none => .null
  | some t => t.toJson

/-- An operator on the result as a document. -/
def ResultOp.toJson : ResultOp → Json
  | .cast .cast type => .variant "Cast" (.object [("cast_item_type", type.toJson)])
  | .cast .ofType type => .variant "OfType" (.object [("search_item_type", type.toJson)])
  | .plain op => .string op.name
  | .pick op orDefault =>
    .variant op.name (.object [("return_default_when_empty", .bool orDefault)])
  | .argument op arg =>
    .variant op.name (.object [(match op with
      | .take | .skip => "count"
      | .all => "predicate"
      | .contains => "item", arg.toJson)])

/-- Several operators as documents. -/
def operatorsToJson : List ResultOp → List Json
  | [] => []
  | op :: ops => op.toJson :: operatorsToJson ops

/-- A query as a document. -/
def Query.toJson : Query → Json
  | ⟨source, generator, body, terminal, operators, resultType⟩ =>
    .object
      [("main_from_clause", .object
         [("source", source.toJson), ("from_expression", generator.toJson)]),
       ("body_clauses", .array (bodyToJson body)),
       ("select_or_group_clause", terminalToJson terminal),
       ("result_operators", .array (operatorsToJson operators)),
       ("result_type", resultType.toJson)]

end

/-- A lambda as a document. -/
def Lambda.toJson (l : Lambda) : Json :=
  .object [("params", .array (l.params.map Param.toJson)), ("body", l.body.toJson)]

/-! ### Reading -/

/-- The members of the record that a variant of an operator holds. -/
def operatorFields? (origin : Origin) (name : String) (content : Json) :
    Option (List (String × Json)) :=
  match origin, content with
  | .value, .array _ => none
  | _, content => content.fields? [name] 1

/-- Read an operator that takes one item. -/
def ResultOp.readPick (origin : Origin) (op : PickOp) (content : Json) : Option ResultOp := do
  let members ← operatorFields? origin "return_default_when_empty" content
  return .pick op (← Json.field members "return_default_when_empty" Json.bool?)

mutual

/-- Read an expression that is nested in at most `fuel` expressions and clauses. -/
def Expr.readWithin (origin : Origin) : (fuel : Nat) → Json → Option Expr
  | 0, _ => none
  | fuel + 1, j => do
    match ← j.variant? with
    | ("Constant", some content) =>
      let members ← content.fields? ["value", "ty"] 2
      let value ← Json.field members "value" Literal.ofJson?
      let type ← Json.field members "ty" Ty.ofJson?
      return .constant value type
    | ("Parameter", some content) => return .param (← Param.ofJson? content)
    | ("QuerySourceRef", some content) => return .item (← ItemRef.ofJson? content)
    | ("MemberAccess", some content) =>
      let members ← content.fields? ["object", "member", "ty"] 3
      let object ← Json.field members "object" (Expr.readWithin origin fuel)
      let name ← Json.field members "member" Json.string?
      let type ← Json.field members "ty" Ty.ofJson?
      return .member object name type
    | ("Convert", some content) =>
      let members ← content.fields? ["operand", "ty"] 2
      let operand ← Json.field members "operand" (Expr.readWithin origin fuel)
      let type ← Json.field members "ty" Ty.ofJson?
      return .convert operand type
    | ("Unary", some content) =>
      let members ← content.fields? ["operator", "operand", "ty"] 3
      let op ← Json.field members "operator" UnaryOp.ofJson?
      let operand ← Json.field members "operand" (Expr.readWithin origin fuel)
      let type ← Json.field members "ty" Ty.ofJson?
      return .unary op operand type
    | ("Binary", some content) =>
      let members ← content.fields? ["operator", "left", "right", "ty"] 4
      let op ← Json.field members "operator" BinaryOp.ofJson?
      let left ← Json.field members "left" (Expr.readWithin origin fuel)
      let right ← Json.field members "right" (Expr.readWithin origin fuel)
      let type ← Json.field members "ty" Ty.ofJson?
      return .binary op left right type
    | ("Call", some content) =>
      let members ← content.fields? ["object", "method", "args", "ty"] 4
      let object ← Json.optional members "object" (Expr.readWithin origin fuel)
      let method ← Json.field members "method" Json.string?
      let args ← Json.field members "args" (Json.items? (Expr.readWithin origin fuel))
      let type ← Json.field members "ty" Ty.ofJson?
      return .call object method args type
    | ("New", some content) =>
      let members ← content.fields? ["ty", "members", "args"] 3
      let type ← Json.field members "ty" Ty.ofJson?
      let names ← Json.defaulted members "members" (Json.items? Json.string?) []
      let args ← Json.field members "args" (Json.items? (Expr.readWithin origin fuel))
      return .create type names args
    | ("Lambda", some content) =>
      let members ← content.fields? ["params", "body"] 2
      let params ← Json.field members "params" (Json.items? Param.ofJson?)
      let body ← Json.field members "body" (Expr.readWithin origin fuel)
      return .lambda params body
    | ("SubQuery", some content) => return .subQuery (← Query.readWithin origin fuel content)
    | _ => none

/-- Read a sort key. -/
def SortKey.readWithin (origin : Origin) : (fuel : Nat) → Json → Option SortKey
  | 0, _ => none
  | fuel + 1, j => do
    let members ← j.fields? ["expression", "direction", "order_by_clause"] 3
    let key ← Json.field members "expression" (Expr.readWithin origin fuel)
    let direction ← Json.field members "direction" Direction.ofJson?
    let owner ← Json.optional members "order_by_clause" Position.ofJson?
    return ⟨key, direction, owner⟩

/-- Read a body clause. -/
def Clause.readWithin (origin : Origin) : (fuel : Nat) → Json → Option Clause
  | 0, _ => none
  | fuel + 1, j => do
    match ← j.variant? with
    | ("AdditionalFrom", some content) => Clause.readFrom origin .additional fuel content
    | ("MemberFrom", some content) => Clause.readFrom origin .member fuel content
    | ("SubQueryFrom", some content) =>
      let members ← content.fields?
        ["source", "sub_query_model", "projection_expression", "previous_clause"] 4
      let source ← Json.field members "source" Source.ofJson?
      let query ← Json.field members "sub_query_model" (Query.readWithin origin fuel)
      let projection ← Json.optional members "projection_expression" (Expr.readWithin origin fuel)
      let previous ← Json.field members "previous_clause" Position.ofJson?
      return .fromQuery source query projection previous
    | ("Where", some content) =>
      let members ← content.fields? ["predicate", "previous_clause"] 2
      let predicate ← Json.field members "predicate" (Expr.readWithin origin fuel)
      let previous ← Json.field members "previous_clause" Position.ofJson?
      return .filter predicate previous
    | ("Let", some content) =>
      let members ← content.fields? ["source", "expression", "previous_clause"] 3
      let source ← Json.field members "source" Source.ofJson?
      let value ← Json.field members "expression" (Expr.readWithin origin fuel)
      let previous ← Json.field members "previous_clause" Position.ofJson?
      return .define source value previous
    | ("OrderBy", some content) =>
      let members ← content.fields? ["orderings", "previous_clause"] 2
      let keys ← Json.field members "orderings" (Json.items? (SortKey.readWithin origin fuel))
      let previous ← Json.field members "previous_clause" Position.ofJson?
      return .orderBy keys previous
    | _ => none

/-- Read the record of a from clause over an expression. -/
def Clause.readFrom (origin : Origin) (kind : FromKind) : (fuel : Nat) → Json → Option Clause
  | 0, _ => none
  | fuel + 1, content => do
    let members ← content.fields?
      ["source", "from_expression", "projection_expression", "previous_clause"] 4
    let source ← Json.field members "source" Source.ofJson?
    let generator ← Json.field members "from_expression" (Expr.readWithin origin fuel)
    let projection ← Json.optional members "projection_expression" (Expr.readWithin origin fuel)
    let previous ← Json.field members "previous_clause" Position.ofJson?
    return .fromExpr kind source generator projection previous

/-- Read the last clause. -/
def Terminal.readWithin (origin : Origin) : (fuel : Nat) → Json → Option Terminal
  | 0, _ => none
  | fuel + 1, j => do
    match ← j.variant? with
    | ("Select", some content) =>
      let members ← content.fields? ["selector", "previous_clause"] 2
      let selector ← Json.field members "selector" (Expr.readWithin origin fuel)
      let previous ← Json.field members "previous_clause" Position.ofJson?
      return .select selector previous
    | ("Group", some content) =>
      let members ← content.fields? ["key_selector", "element_selector", "previous_clause"] 3
      let key ← Json.field members "key_selector" (Expr.readWithin origin fuel)
      let element ← Json.field members "element_selector" (Expr.readWithin origin fuel)
      let previous ← Json.field members "previous_clause" Position.ofJson?
      return .group key element previous
    | _ => none

/-- Read an operator on the result. -/
def ResultOp.readWithin (origin : Origin) : (fuel : Nat) → Json → Option ResultOp
  | 0, _ => none
  | fuel + 1, j => do
    match j.plainVariant? with
    | some "Count" => return .plain .count
    | some "LongCount" => return .plain .longCount
    | some "Distinct" => return .plain .distinct
    | some "Any" => return .plain .any
    | some "Sum" => return .plain .sum
    | some "Min" => return .plain .min
    | some "Max" => return .plain .max
    | some "Average" => return .plain .average
    | _ =>
      match ← j.variant? with
      | ("Cast", some content) =>
        let members ← operatorFields? origin "cast_item_type" content
        return .cast .cast (← Json.field members "cast_item_type" Ty.ofJson?)
      | ("OfType", some content) =>
        let members ← operatorFields? origin "search_item_type" content
        return .cast .ofType (← Json.field members "search_item_type" Ty.ofJson?)
      | ("First", some content) => ResultOp.readPick origin .first content
      | ("Last", some content) => ResultOp.readPick origin .last content
      | ("Single", some content) => ResultOp.readPick origin .single content
      | ("Take", some content) =>
        let members ← operatorFields? origin "count" content
        return .argument .take (← Json.field members "count" (Expr.readWithin origin fuel))
      | ("Skip", some content) =>
        let members ← operatorFields? origin "count" content
        return .argument .skip (← Json.field members "count" (Expr.readWithin origin fuel))
      | ("All", some content) =>
        let members ← operatorFields? origin "predicate" content
        return .argument .all (← Json.field members "predicate" (Expr.readWithin origin fuel))
      | ("Contains", some content) =>
        let members ← operatorFields? origin "item" content
        return .argument .contains (← Json.field members "item" (Expr.readWithin origin fuel))
      | _ => none

/-- Read a query. -/
def Query.readWithin (origin : Origin) : (fuel : Nat) → Json → Option Query
  | 0, _ => none
  | fuel + 1, j => do
    let members ← j.fields?
      ["main_from_clause", "body_clauses", "select_or_group_clause", "result_operators",
       "result_type"] 5
    let main ← Json.field members "main_from_clause"
      (·.fields? ["source", "from_expression"] 2)
    let source ← Json.field main "source" Source.ofJson?
    let generator ← Json.field main "from_expression" (Expr.readWithin origin fuel)
    let body ← Json.field members "body_clauses" (Json.items? (Clause.readWithin origin fuel))
    let terminal ← Json.optional members "select_or_group_clause"
      (Terminal.readWithin origin fuel)
    let operators ← Json.field members "result_operators"
      (Json.items? (ResultOp.readWithin origin fuel))
    let resultType ← Json.field members "result_type" Ty.ofJson?
    return ⟨source, generator, body, terminal, operators, resultType⟩

end

/-- Read an expression. -/
def Expr.ofJson? (origin : Origin) (j : Json) : Option Expr :=
  Expr.readWithin origin (j.height + 1) j

/-- Read a sort key. -/
def SortKey.ofJson? (origin : Origin) (j : Json) : Option SortKey :=
  SortKey.readWithin origin (j.height + 1) j

/-- Read a body clause. -/
def Clause.ofJson? (origin : Origin) (j : Json) : Option Clause :=
  Clause.readWithin origin (j.height + 1) j

/-- Read an operator on the result. -/
def ResultOp.ofJson? (origin : Origin) (j : Json) : Option ResultOp :=
  ResultOp.readWithin origin (j.height + 1) j

/-- Read a query. -/
def Query.ofJson? (origin : Origin) (j : Json) : Option Query :=
  Query.readWithin origin (j.height + 1) j

/-- Read a lambda. -/
def Lambda.ofJson? (origin : Origin) (j : Json) : Option Lambda := do
  let members ← j.fields? ["params", "body"] 2
  let params ← Json.field members "params" (Json.items? Param.ofJson?)
  let body ← Json.field members "body" (Expr.ofJson? origin)
  return ⟨params, body⟩

end QueryFold
