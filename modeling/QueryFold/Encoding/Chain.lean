import QueryFold.Chain.Basic
import QueryFold.Encoding.Language

/-!
# Documents of chains

The written forms of operations, nodes and chains.
-/

namespace QueryFold

/-- A node number as a document. -/
def NodeId.toJson (id : NodeId) : Json := .int id.value

/-- Read a node number. -/
def NodeId.ofJson? (j : Json) : Option NodeId := do return ⟨← j.nat?⟩

mutual

/-- An operation as a document. -/
def Operation.toJson : Operation → Json
  | .mainSource e => .variant "MainSource" (.object [("expression", e.toJson)])
  | .subQuerySource chain => .variant "SubQuerySource" (.object [("chain", chain.toJson)])
  | .selectMany collection result =>
    .variant "SelectMany" (.object
      [("collection_selector", collection.toJson),
       ("result_selector", optionToJson Lambda.toJson result)])
  | .filter predicate => .variant "Where" (.object [("predicate", predicate.toJson)])
  | .orderBy key direction thenBy =>
    .variant "OrderBy" (.object
      [("key_selector", key.toJson), ("direction", .string direction.tag),
       ("then_by", .bool thenBy)])
  | .select selector => .variant "Select" (.object [("selector", selector.toJson)])
  | .define name value =>
    .variant "Let" (.object [("identifier", name.toJson), ("value", value.toJson)])
  | .groupBy key element =>
    .variant "GroupBy" (.object
      [("key_selector", key.toJson), ("element_selector", optionToJson Lambda.toJson element)])
  | .cast kind type =>
    .variant "Cast" (.object [("cast_item_type", type.toJson), ("kind", .string kind.name)])
  | .resultOperator op => .variant "ResultOperator" (.object [("operator", op.toJson)])

/-- A node as a document. -/
def Node.toJson : Node → Json
  | ⟨id, source, identifier, callSite, operation⟩ =>
    .object
      [("id", id.toJson), ("source", optionToJson NodeId.toJson source),
       ("associated_identifier", .string identifier), ("call_site", .string callSite),
       ("kind", operation.toJson)]

/-- Several nodes as documents. -/
def nodesToJson : List Node → List Json
  | [] => []
  | n :: ns => n.toJson :: nodesToJson ns

/-- A chain as a document. -/
def Chain.toJson : Chain → Json
  | ⟨nodes, resultType⟩ =>
    .object [("nodes", .array (nodesToJson nodes)), ("result_type", resultType.toJson)]

end

mutual

/-- Read an operation that is nested in at most `fuel` chains, nodes and operations. -/
def Operation.readWithin (origin : Origin) : (fuel : Nat) → Json → Option Operation
  | 0, _ => none
  | fuel + 1, j => do
    match ← j.variant? with
    | ("MainSource", some content) =>
      let members ← content.fields? ["expression"] 1
      return .mainSource (← Json.field members "expression" (Expr.ofJson? origin))
    | ("SubQuerySource", some content) =>
      let members ← content.fields? ["chain"] 1
      return .subQuerySource (← Json.field members "chain" (Chain.readWithin origin fuel))
    | ("SelectMany", some content) =>
      let members ← content.fields? ["collection_selector", "result_selector"] 1
      let collection ← Json.field members "collection_selector" (Lambda.ofJson? origin)
      let result ← Json.optional members "result_selector" (Lambda.ofJson? origin)
      return .selectMany collection result
    | ("Where", some content) =>
      let members ← content.fields? ["predicate"] 1
      return .filter (← Json.field members "predicate" (Lambda.ofJson? origin))
    | ("OrderBy", some content) =>
      let members ← content.fields? ["key_selector", "direction", "then_by"] 2
      let key ← Json.field members "key_selector" (Lambda.ofJson? origin)
      let direction ← Json.field members "direction" Direction.ofJson?
      let thenBy ← Json.defaulted members "then_by" Json.bool? false
      return .orderBy key direction thenBy
    | ("Select", some content) =>
      let members ← content.fields? ["selector"] 1
      return .select (← Json.field members "selector" (Lambda.ofJson? origin))
    | ("Let", some content) =>
      let members ← content.fields? ["identifier", "value"] 2
      let name ← Json.field members "identifier" Param.ofJson?
      let value ← Json.field members "value" (Lambda.ofJson? origin)
      return .define name value
    | ("GroupBy", some content) =>
      let members ← content.fields? ["key_selector", "element_selector"] 1
      let key ← Json.field members "key_selector" (Lambda.ofJson? origin)
      let element ← Json.optional members "element_selector" (Lambda.ofJson? origin)
      return .groupBy key element
    | ("Cast", some content) =>
      let members ← content.fields? ["cast_item_type", "kind"] 2
      let type ← Json.field members "cast_item_type" Ty.ofJson?
      let kind ← Json.field members "kind" CastKind.ofJson?
      return .cast kind type
    | ("ResultOperator", some content) =>
      let members ← content.fields? ["operator"] 1
      return .resultOperator (← Json.field members "operator" (ResultOp.ofJson? origin))
    | _ => none

/-- Read a node. -/
def Node.readWithin (origin : Origin) : (fuel : Nat) → Json → Option Node
  | 0, _ => none
  | fuel + 1, j => do
    let members ← j.fields? ["id", "source", "associated_identifier", "call_site", "kind"] 5
    let id ← Json.field members "id" NodeId.ofJson?
    let source ← Json.optional members "source" NodeId.ofJson?
    let identifier ← Json.field members "associated_identifier" Json.string?
    let callSite ← Json.defaulted members "call_site" Json.string? ""
    let operation ← Json.field members "kind" (Operation.readWithin origin fuel)
    return ⟨id, source, identifier, callSite, operation⟩

/-- Read a chain. -/
def Chain.readWithin (origin : Origin) : (fuel : Nat) → Json → Option Chain
  | 0, _ => none
  | fuel + 1, j => do
    let members ← j.fields? ["nodes", "result_type"] 2
    let nodes ← Json.field members "nodes" (Json.items? (Node.readWithin origin fuel))
    let resultType ← Json.field members "result_type" Ty.ofJson?
    return ⟨nodes, resultType⟩

end

/-- Read an operation. -/
def Operation.ofJson? (origin : Origin) (j : Json) : Option Operation :=
  Operation.readWithin origin (j.height + 1) j

/-- Read a chain. -/
def Chain.ofJson? (origin : Origin) (j : Json) : Option Chain :=
  Chain.readWithin origin (j.height + 1) j

end QueryFold
