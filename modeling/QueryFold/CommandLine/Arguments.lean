/-!
# Arguments of the command line

Options start with two dashes, and each may be given once. The value of an option is the next
argument or stands behind an equals sign; behind `--` nothing is an option. One argument that is
no option names the input. The arguments are read in order, so asking for the version or for help
is answered unless an argument before is wrong.
-/

namespace QueryFold

/-- What the arguments of a command line say. -/
structure Arguments where
  /-- The file with the input, or `-`. -/
  input : Option String := none
  /-- Whether the input is an outline and not a chain. -/
  outline : Bool := false
  /-- Whether the query is written as a document and not as a text. -/
  document : Bool := false
  /-- The file with the settings. -/
  config : Option String := none
  /-- The greatest depth, in place of the one in the settings. -/
  maxDepth : Option UInt32 := none
  /-- Whether the query is left unchecked. -/
  skipValidation : Bool := false
  deriving Inhabited

/-- What a command line asks for. -/
inductive Request where
  /-- Build a query. -/
  | build (arguments : Arguments) (input : String)
  /-- Tell the version. -/
  | version
  /-- Tell how to use the program. -/
  | help

/-- Read the depth of an option: a number of thirty-two bits, which may have a sign and leading
zeros. -/
def readDepth? (text : String) : Option UInt32 :=
  let (negative, cs) := match text.toList with
    | '-' :: cs => (true, cs)
    | '+' :: cs => (false, cs)
    | cs => (false, cs)
  if cs.isEmpty || !cs.all Char.isDigit then none
  else
    let n := cs.foldl (fun n c => n * 10 + (c.toNat - '0'.toNat)) 0
    if n < UInt32.size && (n = 0 || !negative) then some (UInt32.ofNat n) else none

/-- Whether an argument can be the value of the option before it. -/
def isOptionValue (arg : String) : Bool := arg = "-" || arg.toList.head? != some '-'

namespace Arguments

/-- The arguments with the input. Only one may be given. -/
def setInput? (a : Arguments) (path : String) : Option Arguments :=
  if path = "" || a.input.isSome then none else some { a with input := some path }

/-- The arguments with a value of the option `--name`. -/
def setOption? (a : Arguments) (name value : String) : Option Arguments :=
  match name with
  | "config" =>
    if value = "" || a.config.isSome then none else some { a with config := some value }
  | "max-subquery-depth" =>
    if a.maxDepth.isSome then none
    else (readDepth? value).map fun depth => { a with maxDepth := some depth }
  | _ => none

/-- The arguments with the option `--name`, which has no value. -/
def setFlag? (a : Arguments) (name : String) : Option Arguments :=
  match name with
  | "legacy" => if a.outline then none else some { a with outline := true }
  | "json" => if a.document then none else some { a with document := true }
  | "no-validate" => if a.skipValidation then none else some { a with skipValidation := true }
  | _ => none

/-- The request of arguments that have all been read. -/
def request? (a : Arguments) : Option Request := do return .build a (← a.input)

end Arguments

/-- Whether the option `--name` has a value. -/
def takesValue (name : String) : Bool := name = "config" || name = "max-subquery-depth"

/-- Read the remaining arguments. -/
def readArguments? (a : Arguments) : List String → Option Request
  | [] => a.request?
  | arg :: args =>
    match arg.toList with
    | ['-', '-'] => do (← args.foldlM Arguments.setInput? a).request?
    | '-' :: '-' :: cs =>
      let name := String.ofList (cs.takeWhile (· != '='))
      match cs.dropWhile (· != '=') with
      | _ :: value => do readArguments? (← a.setOption? name (String.ofList value)) args
      | [] =>
        if name = "version" then some .version
        else if name = "help" then some .help
        else if takesValue name then
          match args with
          | value :: args =>
            if isOptionValue value then do readArguments? (← a.setOption? name value) args else none
          | [] => none
        else do readArguments? (← a.setFlag? name) args
    | '-' :: 'V' :: _ => some .version
    | '-' :: 'h' :: _ => some .help
    | '-' :: _ :: _ => none
    | _ => do readArguments? (← a.setInput? arg) args

/-- Read a command line; `none` if it is wrong. -/
def Request.ofArguments? (args : List String) : Option Request := readArguments? {} args

end QueryFold
