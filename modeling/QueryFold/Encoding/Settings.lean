import QueryFold.Encoding.Record
import QueryFold.Settings.Basic

/-!
# Documents of settings

The written form of settings. What is not written has its default.
-/

namespace QueryFold

namespace Settings

/-- Settings as a document. -/
def toJson (s : Settings) : Json :=
  .object
    [("max_subquery_depth", .int s.maxDepth.toNat), ("validate_models", .bool s.validate)]

/-- Read settings. Any depth is accepted. -/
def ofJson? (j : Json) : Option Settings := do
  let members ← j.fields? ["max_subquery_depth", "validate_models"] 0
  let standard : Settings := {}
  let maxDepth ← Json.defaulted members "max_subquery_depth" Json.word? standard.maxDepth
  let validate ← Json.defaulted members "validate_models" Json.bool? standard.validate
  return ⟨maxDepth, validate⟩

end Settings

end QueryFold
