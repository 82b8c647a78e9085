import SchemaDesign.Cli.Args
import SchemaDesign.Cli.LogFilter
import SchemaDesign.Cli.Workspace
import SchemaDesign.Config.Toml
import SchemaDesign.Editor
import SchemaDesign.Log
import SchemaDesign.Validation
import SchemaDesign.Operation.Codec
import SchemaDesign.Json.Read

/-!
# Running the command line

A run takes the arguments and the surroundings it sees (a file system, the log setting, the
clock and a supply of fresh ids) and gives the exit status and what it prints on standard output
and on standard error. The file system is a set of operations in some monad: the files of a
workspace held as state, or the files of the machine.

* `apply` reads the settings, the snapshot (which must be consistent) and the operations, then
  applies the operations all or nothing. It prints the outcome as an envelope and exits with 0,
  or 1 when an operation is refused; on success `--out` also writes the new snapshot, through a
  temporary file beside it that is then moved into place.
* `validate` prints the snapshot as a successful envelope when it is consistent and the first
  violation otherwise, exiting with 0 or 1.
* `order` prints, for every schema of a consistent snapshot, its tables in key-provider order.

Any other failure prints `error: <reason>` on standard error and exits with 2. Events at the
levels the log setting lets through are written on standard error and, with `--log-file`, as
JSON lines appended to that file, which is opened before the command runs.
-/

namespace SchemaDesign

/-- The order report of a schema as JSON. -/
def OrderReport.toJson (schema : String) (r : OrderReport) : Json :=
  .obj [("schema", .str schema),
    ("summary", .obj [("nodes", .nat r.summary.nodes), ("edges", .nat r.summary.edges)]),
    ("order", .opt (r.order.map fun o => .arr (o.map .str))),
    ("cycle", .opt (r.cycle.map fun o => .arr (o.map .str)))]

namespace Cli

/-- Why a run stops with status 2. -/
inductive RunError where
  | io (failure : IoFailure)
  | json (message : String)
  | config (message : String)
  | snapshot (e : DesignError)
  | invalidPath (path : String)

/-- The reason as printed after `error: `. -/
def RunError.message : RunError → String
  | .io f => "io error: " ++ f.message
  | .json m => "json error: " ++ m
  | .config m => "invalid configuration: " ++ m
  | .snapshot e => "invalid snapshot: " ++ e.message
  | .invalidPath p => "invalid path: " ++ p

/-- The file operations a run performs, in a monad `m`. -/
structure FileSystem (m : Type → Type) where
  /-- The content of a file. -/
  read : String → m (Except IoFailure String)
  /-- Creates a file if it is missing, to append to it. -/
  touch : String → m (Except IoFailure Unit)
  /-- Appends to a file. -/
  append : String → String → m Unit
  /-- Creates a directory and those above it. -/
  createDirAll : String → m (Except IoFailure Unit)
  /-- Creates or replaces a file. -/
  write : String → String → m (Except IoFailure Unit)
  /-- Moves a file over another path. -/
  rename : String → String → m (Except IoFailure Unit)

/-- Runs a change of a workspace held as state. -/
def Workspace.change (f : Workspace → Except IoFailure Workspace) :
    StateM Workspace (Except IoFailure Unit) :=
  modifyGet fun w => match f w with
    | .ok w' => (.ok (), w')
    | .error e => (.error e, w)

/-- The file operations on a workspace held as state. -/
def Workspace.fileSystem : FileSystem (StateM Workspace) where
  read path := do return (← get).read path
  touch path := Workspace.change (·.touch path)
  append path text := modify (·.append path text)
  createDirAll path := Workspace.change (·.createDirAll path)
  write path text := Workspace.change (·.write path text)
  rename src dst := Workspace.change (·.rename src dst)

/-- The settings of a run besides its files. -/
structure Surroundings where
  /-- The log setting, if one is given. -/
  logSetting : Option String
  /-- The time written at the start of every log line. -/
  clock : String
  supply : IdSupply

/-- What a run has printed, and where its events go. -/
structure RunState where
  stdout : String
  stderr : String
  filter : LogFilter
  logFile : Option String
  clock : String

/-- A step of a run over a file system in `m`. -/
abbrev RunM (m : Type → Type) := ExceptT RunError (StateT RunState m)

/-- What a run ends with. -/
structure RunResult where
  exitCode : Nat
  stdout : String
  stderr : String
  deriving Inhabited

/-- A text padded on the left with spaces to a width. -/
def padLeft (s : String) (width : Nat) : String :=
  String.ofList (List.replicate (width - s.length) ' ') ++ s

/-- A field value as the console shows it: words in quotes. -/
def consoleValue : FieldValue → String
  | .text s => s
  | .word s => debugQuote s
  | .num n => toString n

/-- An event as a console line. -/
def consoleLine (clock : String) (e : Event) : String :=
  clock ++ " " ++ padLeft e.level.name 5 ++ " " ++ e.message ++
    String.join (e.fields.map fun (k, v) => " " ++ k ++ "=" ++ consoleValue v) ++ "\n"

/-- An event as a line of the log file. -/
def fileLine (clock : String) (e : Event) : String :=
  Json.compact (.obj [("timestamp", .str clock), ("level", .str e.level.name),
    ("fields", e.fieldsJson), ("target", .str e.target.path)]) ++ "\n"

namespace RunM

section

variable {m : Type → Type} [Monad m] (fs : FileSystem m)

/-- Reports an event, if the log setting lets it through. -/
def emit (e : Event) : RunM m Unit := do
  let s ← get
  if s.filter.enabled e then
    set { s with stderr := s.stderr ++ consoleLine s.clock e }
    if let some path := s.logFile then
      liftM (fs.append path (fileLine s.clock e) : m Unit)

/-- Reports events in order. -/
def emitAll (events : List Event) : RunM m Unit := events.forM (emit fs)

/-- Stops the run on a failed file operation. -/
def io {α : Type} (op : m (Except IoFailure α)) : RunM m α := do
  match ← liftM op with
  | .ok a => pure a
  | .error f => throw (.io f)

/-- Prints a value on standard output, indented, with a line break. -/
def printJson (j : Json) : RunM m Unit :=
  modify fun s => { s with stdout := s.stdout ++ j.pretty ++ "\n" }

/-- Reads a file as a value of a type. -/
def loadJson {α : Type} (path : String) (decode : Decoder α) : RunM m α := do
  match Json.read (← io (fs.read path)) decode with
  | .ok a => pure a
  | .error msg => throw (.json msg)

/-- Reads a snapshot without checking it. -/
def readSnapshot (path : String) : RunM m Database := do
  let db ← loadJson fs path Database.decode
  emit fs ⟨.debug, .files, "snapshot loaded",
    [("path", .text path), ("schemas", .num db.schemas.length)]⟩
  return db

/-- Reads a snapshot and refuses it unless it is consistent. -/
def loadSnapshot (path : String) : RunM m Database := do
  let db ← readSnapshot fs path
  match db.validate with
  | .ok () => return db
  | .error e => throw (.snapshot e)

/-- Reads a JSON array of operations. -/
def loadOperations (path : String) : RunM m (List Operation) := do
  let ops ← loadJson fs path (Decode.list Operation.decode)
  emit fs ⟨.debug, .files, "operations loaded", [("path", .text path), ("count", .num ops.length)]⟩
  return ops

/-- Reads the editor settings; without a file, the defaults. -/
def loadConfig : Option String → RunM m EditorConfig
  | none => pure {}
  | some path => do
    match EditorConfig.ofToml (← io (fs.read path)) with
    | .ok c => pure c
    | .error msg => throw (.config msg)

/-- Writes a snapshot through a temporary file beside it, creating the directories above it. -/
def writeSnapshot (path : String) (db : Database) : RunM m Unit := do
  let parent := (PathName.parent? path).getD ""
  unless parent.isEmpty do
    io (fs.createDirAll parent)
  let some name := PathName.fileName? path | throw (.invalidPath path)
  let temporary := PathName.withFileName path (name ++ ".tmp")
  io (fs.write temporary db.toJson.pretty)
  io (fs.rename temporary path)

/-- `apply`: applies operations to a consistent snapshot, all or nothing. -/
def apply (inv : Invocation) (supply : IdSupply) : RunM m Nat := do
  let config ← loadConfig fs (inv.value? "config")
  let db ← loadSnapshot fs ((inv.value? "snapshot").getD "")
  let ops ← loadOperations fs ((inv.value? "ops").getD "")
  let outcome := Editor.applyAll config supply db ops
  emitAll fs outcome.events
  let status ← match outcome.result with
    | .ok db' => do
      emit fs ⟨.info, .command, "operations applied",
        [("operations", .num ops.length), ("elapsed_ms", .num 0)]⟩
      if let some out := inv.value? "out" then
        writeSnapshot fs out db'
        emit fs ⟨.info, .command, "snapshot written", [("path", .text out)]⟩
      pure 0
    | .error e => do
      emit fs ⟨.warn, .command, "operation batch rejected", [("code", .word e.code)]⟩
      pure 1
  printJson (Envelope.ofResult outcome.result).toJson
  return status

/-- `validate`: checks a snapshot and prints it, or its first violation. -/
def validate (inv : Invocation) : RunM m Nat := do
  let db ← readSnapshot fs ((inv.value? "snapshot").getD "")
  let result := db.validate.map fun () => db
  let status ← match result with
    | .ok db => do
      emit fs ⟨.info, .command, "snapshot is consistent", [("schemas", .num db.schemas.length)]⟩
      pure 0
    | .error e => do
      emit fs ⟨.warn, .command, "snapshot is inconsistent", [("code", .word e.code)]⟩
      pure 1
  printJson (Envelope.ofResult result).toJson
  return status

/-- `order`: prints the key-provider order of every schema of a consistent snapshot. -/
def order (inv : Invocation) : RunM m Nat := do
  let db ← loadSnapshot fs ((inv.value? "snapshot").getD "")
  printJson (.arr (db.schemas.map fun s => s.identifyingOrder.toJson s.name))
  return 0

/-- Opens the log file, then runs the command. -/
def session (inv : Invocation) (supply : IdSupply) : RunM m Nat := do
  if let some path := inv.logFile then
    io (fs.touch path)
    modify fun s => { s with logFile := some path }
  if inv.command = "apply" then apply fs inv supply
  else if inv.command = "validate" then validate fs inv
  else order fs inv

end

end RunM

/-- Runs the command line on arguments over a file system. -/
def runWith {m : Type → Type} [Monad m] (fs : FileSystem m) (args : List String)
    (env : Surroundings) : m RunResult :=
  match parse args with
  | .show text => pure ⟨0, text, ""⟩
  | .refuse text => pure ⟨2, "", text⟩
  | .run inv => do
    let start : RunState := ⟨"", "", LogFilter.ofSetting env.logSetting, none, env.clock⟩
    let (result, s) ← (RunM.session fs inv env.supply).run.run start
    match result with
    | .ok status => pure ⟨status, s.stdout, s.stderr⟩
    | .error e => pure ⟨2, s.stdout, s.stderr ++ "error: " ++ e.message ++ "\n"⟩

/-- Runs the command line on arguments over the files of a workspace: what it gives, and the
files afterwards. -/
def run (args : List String) (env : Surroundings) (w : Workspace) : RunResult × Workspace :=
  (runWith Workspace.fileSystem args env).run w

end Cli

end SchemaDesign
