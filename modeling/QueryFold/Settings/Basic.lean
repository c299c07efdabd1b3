/-!
# Settings

What can be set when queries are built: how deeply chains may be nested, and whether a query
is validated once it is built. Any depth of thirty-two bits can be used; settings that come
from outside are kept within a range that makes sense.
-/

namespace QueryFold

/-- The settings of a build. -/
structure Settings where
  /-- The greatest depth at which a nested chain is still built; the outermost chain has depth
  zero. -/
  maxDepth : UInt32 := 32
  /-- Whether a query is validated once it is built. -/
  validate : Bool := true
  deriving DecidableEq, Inhabited

/-- Why a text is no value of a setting. -/
inductive ValueFault where
  /-- A number without digits or sign. -/
  | empty
  /-- A number with a character that is no digit. -/
  | badDigit
  /-- A number of more than thirty-two bits. -/
  | tooLarge
  /-- A truth value that is neither `true` nor `false`. -/
  | notTruth
  deriving DecidableEq

/-- The fault in words. -/
def ValueFault.message : ValueFault → String
  | empty => "cannot parse integer from empty string"
  | badDigit => "invalid digit found in string"
  | tooLarge => "number too large to fit in target type"
  | notTruth => "provided string was not `true` or `false`"

/-- What can be wrong with settings from outside. -/
inductive SettingsError where
  /-- A variable of the environment has a value that cannot be read. -/
  | variable (name value : String) (fault : ValueFault)
  /-- The file cannot be read. -/
  | file
  /-- The file does not hold settings. -/
  | content
  /-- The depth is out of range. -/
  | depthOutOfRange
  deriving DecidableEq

/-- The error in words. -/
def SettingsError.message : SettingsError → String
  | .variable name value fault =>
    "Parse error for " ++ name ++ ": " ++ value ++ " - " ++ fault.message
  | .file => "Parse error for yaml_file: file read failed"
  | .content => "Parse error for yaml_content"
  | .depthOutOfRange =>
    "Validation error: max_subquery_depth: Max sub-query depth must be between 1 and 1000"

namespace Settings

/-- Accept settings whose depth is between 1 and 1000. -/
def checked (s : Settings) : Except SettingsError Settings :=
  if 1 ≤ s.maxDepth ∧ s.maxDepth ≤ 1000 then .ok s else .error .depthOutOfRange

theorem checked_eq_ok_iff {s t : Settings} :
    s.checked = .ok t ↔ t = s ∧ 1 ≤ s.maxDepth ∧ s.maxDepth ≤ 1000 := by
  by_cases h : 1 ≤ s.maxDepth ∧ s.maxDepth ≤ 1000 <;> simp [checked, h, eq_comm]

/-- Settings given on a command line. -/
def ofFlags (maxDepth : UInt32) (skipValidation : Bool) : Except SettingsError Settings :=
  checked ⟨maxDepth, !skipValidation⟩

/-- The settings `s` overridden by later ones, which set everything. -/
def merge (_ later : Settings) : Settings := later

end Settings

end QueryFold
