import QueryFold.Chain.Fold
import QueryFold.CommandLine.Arguments
import QueryFold.Encoding.Chain
import QueryFold.Encoding.Outline
import QueryFold.Json.Reader
import QueryFold.Json.Writer
import QueryFold.Settings.Environment
import QueryFold.Settings.File

/-!
# Running a command line

The settings are read first, from a file or from the environment, and then changed by the
options. After them the input is read, and its query is built and written. The first step that
fails ends the run. What a run uses of the system around it is a parameter.
-/

namespace QueryFold

/-- What a run uses of the system around it. -/
structure System (m : Type → Type) where
  /-- The variables of the environment. -/
  environment : m (String → Option String)
  /-- The content of a file, `none` if it cannot be read. -/
  file : String → m (Option String)
  /-- The standard input. -/
  input : m String

/-- Why a run fails. -/
inductive Failure where
  /-- A file does not hold settings. -/
  | settingsFile (path : String)
  /-- The environment does not hold settings. -/
  | environment
  /-- The settings are out of range. -/
  | settings (e : SettingsError)
  /-- The input cannot be read. -/
  | unreadable (path : String)
  /-- The input is not a chain. -/
  | notChain
  /-- The input is not an outline. -/
  | notOutline
  /-- The input is an outline without a root. -/
  | noRoot
  /-- The query cannot be built. -/
  | build (e : BuildError)

/-- The failure in words. -/
def Failure.message : Failure → String
  | settingsFile path => "loading configuration from " ++ path
  | environment => "loading configuration from environment"
  | settings e => e.message
  | unreadable path => "reading " ++ path
  | notChain => "parsing node chain"
  | notOutline => "parsing parse result collector"
  | noRoot => "parse result collector has no expression_tree_root"
  | build e => e.message

/-- How a run ends. -/
inductive Outcome where
  /-- It writes a text. -/
  | done (output : String)
  /-- A step fails. -/
  | failed (reason : Failure)
  /-- The command line is wrong. -/
  | misused

/-- The code with which a run ends. -/
def Outcome.code : Outcome → Nat
  | done _ => 0
  | failed _ => 1
  | misused => 2

/-- The text that a run writes. -/
def Outcome.output : Outcome → String
  | done output => output
  | _ => ""

/-- The name and version of the program. -/
def versionText : String := "querymodel 0.3.0-dev\n"

/-- How to use the program. -/
def helpText : String :=
  "querymodel - fold query operation chains into normalized query models\n\n" ++
  "Usage: querymodel [OPTIONS] <INPUT>\n"

/-- Read the document in a text. The lists and objects that are read must be nested less than 128
deep; those that nobody asks for may be nested deeper. -/
def readDocument? {α : Type} (read : Origin → Json → Option α) (text : String) : Option α := do
  read .text ((← Json.parse? text).limitDepth 127)

/-- The settings of a run. -/
def Arguments.settings {m : Type → Type} [Monad m] (a : Arguments) (system : System m) :
    ExceptT Failure m Settings := do
  let loaded ← match a.config with
    | some path =>
      match Settings.ofFile (← system.file path) with
      | .ok s => pure s
      | .error _ => throw (.settingsFile path)
    | none =>
      match Settings.ofEnvironment (← system.environment) with
      | .ok s => pure s
      | .error _ => throw .environment
  match Settings.ofFlags (a.maxDepth.getD loaded.maxDepth)
      (a.skipValidation || !loaded.validate) with
  | .ok s => return loaded.merge s
  | .error e => throw (.settings e)

/-- The query of a text with a chain. -/
def queryOfChain (settings : Settings) (text : String) : Except Failure Query := do
  let some chain := readDocument? Chain.ofJson? text | throw .notChain
  match ((chain.toQuery (m := Id) SourceId.countUp settings).run.run 0).1 with
  | .ok (q, _) => return q
  | .error e => throw (.build e)

/-- The query of a text with an outline. -/
def queryOfOutline (settings : Settings) (text : String) : Except Failure Query := do
  let some outline := readDocument? Outline.ofJson? text | throw .notOutline
  let some root := outline.root | throw .noRoot
  match ((outline.toQuery SourceId.countUp settings root).run.run 0).1 with
  | .ok q => return q
  | .error e => throw (.build e)

/-- Build a query as the arguments say, and write it. -/
def Arguments.build {m : Type → Type} [Monad m] (a : Arguments) (input : String)
    (system : System m) : ExceptT Failure m String := do
  let settings ← a.settings system
  let text ← if input = "-" then system.input else
    match ← system.file input with
    | some text => pure text
    | none => throw (.unreadable input)
  let q ← ExceptT.mk (pure (if a.outline then queryOfOutline settings text
    else queryOfChain settings text))
  return (if a.document then q.toJson.pretty else q.render) ++ "\n"

/-- Run a command line. -/
def runCommandLine {m : Type → Type} [Monad m] (args : List String) (system : System m) :
    m Outcome := do
  match Request.ofArguments? args with
  | none => return .misused
  | some .version => return .done versionText
  | some .help => return .done helpText
  | some (.build a input) =>
    match ← (a.build input system).run with
    | .ok output => return .done output
    | .error reason => return .failed reason

end QueryFold
