import QueryFold.Settings.Basic

/-!
# Settings from the environment

Each setting has a variable, and a variable that is not set has a default. A number may
have a plus sign and leading zeros.
-/

namespace QueryFold

/-- Read the digits of a number of at most thirty-two bits behind the digits of `value`. -/
def readDigits (value : Nat) : List Char → Except ValueFault UInt32
  | [] => .ok (UInt32.ofNat value)
  | c :: cs =>
    if !c.isDigit then .error .badDigit
    else
      let value := value * 10 + (c.toNat - '0'.toNat)
      if value < UInt32.size then readDigits value cs else .error .tooLarge

/-- Read a number of at most thirty-two bits. -/
def readWord (text : String) : Except ValueFault UInt32 :=
  match text.toList with
  | [] => .error .empty
  | ['+'] => .error .badDigit
  | '+' :: cs => readDigits 0 cs
  | cs => readDigits 0 cs

/-- Read a truth value. -/
def readTruth : String → Except ValueFault Bool
  | "true" => .ok true
  | "false" => .ok false
  | _ => .error .notTruth

namespace Settings

/-- The variable with the greatest depth. -/
def depthVariable : String := "QUERYMODEL_MAX_SUBQUERY_DEPTH"

/-- The variable that says whether queries are validated. -/
def validateVariable : String := "QUERYMODEL_VALIDATE_MODELS"

/-- Read a variable of the environment `environment`, or its default. -/
def readVariable {α : Type} (environment : String → Option String)
    (read : String → Except ValueFault α) (name default : String) : Except SettingsError α :=
  let value := (environment name).getD default
  (read value).mapError (.variable name value)

/-- The settings of an environment. -/
def ofEnvironment (environment : String → Option String) : Except SettingsError Settings := do
  let maxDepth ← readVariable environment readWord depthVariable "32"
  let validate ← readVariable environment readTruth validateVariable "true"
  checked ⟨maxDepth, validate⟩

end Settings

end QueryFold
