import ItemSql.Connection
import ItemSql.Json.Place
import ItemSql.LogFilter

/-!
# The command line

The program translates statements, given as arguments or one to a line of the input, into the
target and the body of their requests. With `--decode` it reads the answer to a query from a file
instead, and prints its rows under a line of their columns, with tabs between the cells.

What the program finds around it — its input, the files, the environment — is a *world*, in any
monad. Nothing else is left to the outside: a run comes to a text to print and an error if there is
one.
-/

namespace ItemSql.CommandLine

/-! ## What can go wrong -/

/-- Why a run fails. -/
inductive Failure where
  /-- The run is broken off because a filter is cut inside a character. -/
  | splitLogFilter
  | logFilter (filter : String)
  | decodeWithoutPath
  | manyStatements
  | unreadableFile (path : String)
  | unreadableInput
  | notJson
  | service (e : ServiceError)
  | codec (e : Json.DecodeError) (place : Json.Place)
  | syntaxError (e : SyntaxError)
  | row (e : RowError)

/-- The failure in words. A run that is broken off reports nothing. -/
def Failure.message? : Failure → Option String
  | .splitLogFilter => none
  | .logFilter filter => some ("invalid log level filter: " ++ filter)
  | .decodeWithoutPath => some "--decode requires a file path"
  | .manyStatements => some "--decode accepts at most one statement"
  | .unreadableFile path => some ("failed to read " ++ path)
  | .unreadableInput => some "failed to read stdin"
  | .notJson => some "response is not valid JSON"
  | .service e => some e.display
  | .codec e place => some (e.report place)
  | .syntaxError e => some e.message
  | .row e => some e.message

/-- The exit code of a failure. A run that is broken off has one of its own. -/
def Failure.exitCode : Failure → Nat
  | .splitLogFilter => 101
  | _ => 1

/-! ## What is asked for -/

/-- What a run is asked to do. -/
inductive Task where
  /-- Translate the statements, or those of the input if there are none. -/
  | translate (statements : List String)
  /-- Print the rows of the answer in a file, with the columns of the query if it is given. -/
  | decode (path : String) (statement? : Option String)
  deriving DecidableEq, Repr

/-- Reads the arguments: the statements among them, and the last path to decode. -/
def splitArguments : List String → Except Failure (List String × Option String)
  | [] => .ok ([], none)
  | "--decode" :: rest =>
    match rest with
    | [] => .error .decodeWithoutPath
    | path :: rest => do
      let (statements, later?) ← splitArguments rest
      return (statements, later?.or (some path))
  | statement :: rest => do
    let (statements, path?) ← splitArguments rest
    return (statement :: statements, path?)

/-- The task that the arguments ask for. -/
def Task.ofArguments (arguments : List String) : Except Failure Task := do
  match ← splitArguments arguments with
  | (statements, none) => return .translate statements
  | ([], some path) => return .decode path none
  | ([statement], some path) => return .decode path (some statement)
  | _ => .error .manyStatements

/-! ## Translating -/

/-- The target and the body of a statement's request. -/
def translate (config : Config) (statement : String) : Except Failure String := do
  let request ← (Statement.parse statement).mapError .syntaxError
  return "X-Amz-Target: " ++ request.operation.target config.service ++ "\n" ++
    request.toJson.ordered.pretty ++ "\n"

/-- The lines of a text. -/
def lines : List Char → List (List Char)
  | [] => [[]]
  | c :: cs =>
    match lines cs with
    | [] => [[c]]
    | line :: more => if c = '\n' then [] :: line :: more else (c :: line) :: more

/-- The statements of an input, one to a line. Empty lines do not matter. -/
def statementsOf (input : String) : List String :=
  (((lines input.toList).map Text.trimChars).filter (· ≠ [])).map String.ofList

/-! ## Decoding -/

/-- Whether an answer reports an error. -/
def reportsError : Json → Bool
  | .object members => members.any fun (name, _) ↦ name = "__type"
  | _ => false

/-- A line of a table. -/
def tableLine (cells : List String) : String :=
  String.intercalate "\t" cells ++ "\n"

/-- The table of a cursor's rows, unless one of them fails. -/
def table (cursor : Cursor) : Except Failure String := do
  let buffer := List.replicate cursor.columns.length Cell.null
  let rows ← (cursor.drain buffer).mapError Failure.row
  return tableLine cursor.columns ++
    String.join (rows.map fun row ↦ tableLine (row.map Cell.display))

/-- The table of an answer. The answer must be JSON throughout before it is looked at. -/
def decode (config : Config) (answer : Text.Bytes) (statement? : Option String) :
    Except Failure String := do
  let json ← (Json.ofBytes answer).mapError fun _ ↦ Failure.notJson
  if reportsError json then throw (.service (.ofBody answer))
  let output ← (Json.Decode.bytes QueryOutput.decode answer).mapError fun e ↦
    Failure.codec e (Json.placeOf QueryOutput.decode answer e)
  let request? ← statement?.mapM fun statement ↦
    (Statement.parse statement).mapError Failure.syntaxError
  table (.of (.of output.items (request?.bind (·.projectedColumns?))) config.numberPolicy)

/-! ## Runs -/

/-- What a run finds around it. -/
structure World (m : Type → Type) where
  setting? : String → m (Option String)
  file? : String → m (Option Text.Bytes)
  input : m Text.Bytes

/-- What a run comes to. -/
structure Report where
  /-- The text to print. -/
  output : String
  failure? : Option Failure

/-- The exit code of a run. -/
def Report.exitCode (report : Report) : Nat :=
  match report.failure? with
  | none => 0
  | some failure => failure.exitCode

/-- The report of a single result. -/
def Report.of : Except Failure String → Report
  | .ok output => ⟨output, none⟩
  | .error failure => ⟨"", some failure⟩

/-- Translates statements in turn. What was translated before a failure is printed all the same. -/
def translateAll (config : Config) : List String → Report
  | [] => ⟨"", none⟩
  | statement :: rest =>
    match translate config statement with
    | .ok text =>
      let report := translateAll config rest
      ⟨text ++ report.output, report.failure?⟩
    | .error failure => ⟨"", some failure⟩

/-- Does a task. -/
def perform {m : Type → Type} [Monad m] (world : World m) (config : Config) : Task → m Report
  | .translate [] => do
    match Text.ofUtf8? (← world.input) with
    | some input => return translateAll config (statementsOf input)
    | none => return .of (.error .unreadableInput)
  | .translate statements => return translateAll config statements
  | .decode path statement? => do
    match ← world.file? path with
    | some answer => return .of (decode config answer statement?)
    | none => return .of (.error (.unreadableFile path))

/-- The configuration of an environment, by its variables. -/
def configOf {m : Type → Type} [Monad m] (world : World m) : m Config := do
  let strict? ← world.setting? "DSQL_STRICT_NUMBERS"
  let service? ← world.setting? "DSQL_TARGET_PREFIX"
  let level? ← world.setting? "DSQL_LOG_LEVEL"
  return .ofEnvironment fun name ↦
    if name = "DSQL_STRICT_NUMBERS" then strict?
    else if name = "DSQL_TARGET_PREFIX" then service?
    else if name = "DSQL_LOG_LEVEL" then level?
    else none

/-- What makes the filters of a run unusable. Where the environment has a filter, that one goes
before the one of the configuration, which then does not matter. Its malformed directives are
passed over. -/
def filterFailure? (filter : String) (override? : Option String) : Option Failure :=
  match override? with
  | some override =>
    if (LogFilter.faults override).contains .splitCharacter then some .splitLogFilter else none
  | none =>
    (LogFilter.faults filter).head?.map fun fault ↦
      match fault with
      | .malformed => .logFilter filter
      | .splitCharacter => .splitLogFilter

/-- A whole run. The filters come first, then the arguments, then the task. -/
def run {m : Type → Type} [Monad m] (world : World m) (arguments : List String) : m Report := do
  let config ← configOf world
  let override? ← world.setting? "RUST_LOG"
  match filterFailure? config.logLevel override? with
  | some failure => return .of (.error failure)
  | none =>
    match Task.ofArguments arguments with
    | .ok task => perform world config task
    | .error failure => return .of (.error failure)

end ItemSql.CommandLine
