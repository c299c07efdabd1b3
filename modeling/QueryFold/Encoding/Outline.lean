import QueryFold.Encoding.Language
import QueryFold.Outline

/-!
# Documents of outlines

The written forms of outlines and their entries. All fields of an outline have defaults.
-/

namespace QueryFold

namespace OutlineEntry

/-- An entry as a document. -/
def toJson : OutlineEntry → Json
  | source item e =>
    .variant "From" (.object [("typed_expression", e.toJson), ("identifier", item.toJson)])
  | filter predicate => .variant "Where" (.object [("typed_expression", predicate.toJson)])
  | define item value =>
    .variant "Let" (.object [("identifier", item.toJson), ("typed_expression", value.toJson)])
  | order first direction key =>
    .variant "Order" (.object
      [("first_order_by", .bool first), ("direction", .string direction.tag),
       ("typed_expression", key.toJson)])

/-- Read an entry. -/
def ofJson? (origin : Origin) (j : Json) : Option OutlineEntry := do
  match ← j.variant? with
  | ("From", some content) =>
    let members ← content.fields? ["typed_expression", "identifier"] 2
    let e ← Json.field members "typed_expression" (Expr.ofJson? origin)
    let item ← Json.field members "identifier" Param.ofJson?
    return source item e
  | ("Where", some content) =>
    let members ← content.fields? ["typed_expression"] 1
    return filter (← Json.field members "typed_expression" (Expr.ofJson? origin))
  | ("Let", some content) =>
    let members ← content.fields? ["identifier", "typed_expression"] 2
    let item ← Json.field members "identifier" Param.ofJson?
    let value ← Json.field members "typed_expression" (Expr.ofJson? origin)
    return define item value
  | ("Order", some content) =>
    let members ← content.fields? ["first_order_by", "direction", "typed_expression"] 3
    let first ← Json.field members "first_order_by" Json.bool?
    let direction ← Json.field members "direction" Direction.ofJson?
    let key ← Json.field members "typed_expression" (Expr.ofJson? origin)
    return order first direction key
  | _ => none

end OutlineEntry

namespace Outline

/-- An outline as a document. -/
def toJson (o : Outline) : Json :=
  .object
    [("expression_tree_root", optionToJson Expr.toJson o.root),
     ("body_expressions", .array (o.entries.map OutlineEntry.toJson)),
     ("projection_expressions", .array (o.projections.map Expr.toJson)),
     ("is_distinct", .bool o.distinct)]

/-- Read an outline. -/
def ofJson? (origin : Origin) (j : Json) : Option Outline := do
  let members ← j.fields?
    ["expression_tree_root", "body_expressions", "projection_expressions", "is_distinct"] 0
  let root ← Json.optional members "expression_tree_root" (Expr.ofJson? origin)
  let entries ← Json.defaulted members "body_expressions"
    (Json.items? (OutlineEntry.ofJson? origin)) []
  let projections ← Json.defaulted members "projection_expressions"
    (Json.items? (Expr.ofJson? origin)) []
  let distinct ← Json.defaulted members "is_distinct" Json.bool? false
  return ⟨root, entries, projections, distinct⟩

end Outline

end QueryFold
