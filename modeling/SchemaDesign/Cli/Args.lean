import SchemaDesign.Text.Blank

/-!
# The command line

`schemaforge [--log-file FILE] <apply|validate|order|help> [options]`. Parsing gives the command
to run, a text to show (help, version), or a usage error with its exit status.

Options take their value from the next argument or after `=`; an argument that looks like a
flag is not taken as a value. `--log-file` is accepted before and after the subcommand, the one
after it winning. Help texts and error texts follow the layout of the usual argument-parser
conventions: an about line, a usage line, the subcommands and the options in aligned columns.

An unknown option is reported with the most similar known one when their Jaro similarity
exceeds 0.7; an unknown option before the subcommand may instead be pointed to a subcommand named
later that knows a similar one. The usage line of an error is the one of the help, except after
an unknown long option or missing required ones: it then lists the required options and the
options given, in the order given.
-/

namespace SchemaDesign

namespace Cli

/-- An option that takes a value. -/
structure OptionSpec where
  long : String
  valueName : String
  help : String
  required : Bool
  deriving Repr, Inhabited

/-- A subcommand and the options it takes besides `--log-file`. -/
structure CommandSpec where
  name : String
  about : String
  options : List OptionSpec
  deriving Repr, Inhabited

/-- The name of the program. -/
def programName : String := "schemaforge"

/-- The version of the program. -/
def programVersion : String := "0.1.0"

/-- What the program is. -/
def programAbout : String := "Schema design consistency engine"

/-- The global option: a file that receives log lines. -/
def logFileOption : OptionSpec :=
  ⟨"log-file", "LOG_FILE", "Append JSON log lines to this file", false⟩

/-- The snapshot option shared by every subcommand. -/
def snapshotOption : OptionSpec := ⟨"snapshot", "SNAPSHOT", "Database snapshot (JSON)", true⟩

/-- The subcommands that run. -/
def commands : List CommandSpec :=
  [⟨"apply", "Apply a batch of operations to a snapshot, all or nothing",
      [snapshotOption, ⟨"ops", "OPS", "JSON array of operations", true⟩,
       ⟨"out", "OUT", "Also write the resulting snapshot here on success", false⟩,
       ⟨"config", "CONFIG", "Editor settings (TOML)", false⟩]⟩,
   ⟨"validate", "Check every cross-entity invariant of a snapshot", [snapshotOption]⟩,
   ⟨"order", "Print tables in key-provider order per schema", [snapshotOption]⟩]

/-- What `help` does. -/
def helpAbout : String := "Print this message or the help of the given subcommand(s)"

/-- A command to run, with its option values by long name. -/
structure Invocation where
  command : String
  values : List (String × String)
  logFile : Option String
  deriving Repr, Inhabited

/-- The value of an option of an invocation. -/
def Invocation.value? (inv : Invocation) (long : String) : Option String :=
  (inv.values.find? (·.1 = long)).map (·.2)

/-- What the arguments ask for. -/
inductive Request where
  /-- Run a command. -/
  | run (inv : Invocation)
  /-- Print a text on standard output and succeed. -/
  | show (text : String)
  /-- Print a text on standard error and fail with status 2. -/
  | refuse (text : String)
  deriving Repr, Inhabited

/-- A text padded with spaces to a width. -/
def padRight (s : String) (width : Nat) : String :=
  s ++ String.ofList (List.replicate (width - s.length) ' ')

/-- The left column of an option row. -/
def optionLeft (o : OptionSpec) : String := "      --" ++ o.long ++ " <" ++ o.valueName ++ ">"

/-- Rows of two aligned columns, the second starting two spaces after the widest first. -/
def columns (rows : List (String × String)) : String :=
  let width := rows.foldl (fun w r => max w r.1.length) 0
  "\n".intercalate (rows.map fun (l, r) => padRight l width ++ "  " ++ r)

/-- How an option is written in messages: `--long <VALUE>`. -/
def OptionSpec.display (o : OptionSpec) : String := "--" ++ o.long ++ " <" ++ o.valueName ++ ">"

/-- The required options of a subcommand, as written in usage lines. -/
def CommandSpec.requiredUsage (c : CommandSpec) : String :=
  String.join ((c.options.filter (·.required)).map fun o => " " ++ o.display)

/-- The help of the program. -/
def topHelp : String :=
  let cmds := commands.map (fun c => ("  " ++ c.name, c.about)) ++ [("  help", helpAbout)]
  programAbout ++ "\n\nUsage: " ++ programName ++ " [OPTIONS] <COMMAND>\n\nCommands:\n" ++
    columns cmds ++ "\n\nOptions:\n" ++
    columns [(optionLeft logFileOption, logFileOption.help), ("  -h, --help", "Print help"),
      ("  -V, --version", "Print version")] ++ "\n"

/-- The help of a subcommand. -/
def CommandSpec.help (c : CommandSpec) : String :=
  let rows := (logFileOption :: c.options).map (fun o => (optionLeft o, o.help)) ++
    [("  -h, --help", "Print help")]
  c.about ++ "\n\nUsage: " ++ programName ++ " " ++ c.name ++ " [OPTIONS]" ++ c.requiredUsage ++
    "\n\nOptions:\n" ++ columns rows ++ "\n"

/-- The help of `help`. -/
def helpHelp : String :=
  helpAbout ++ "\n\nUsage: " ++ programName ++ " help [COMMAND]...\n\nArguments:\n" ++
    "  [COMMAND]...  Print help for the subcommand(s)\n"

/-- The closing lines of every usage error. -/
def moreInformation : String := "For more information, try '--help'.\n"

/-- The usage line of the program as its help shows it, for errors. -/
def topUsage : String := "Usage: " ++ programName ++ " [OPTIONS] <COMMAND>\n\n"

/-- The usage line of a subcommand as its help shows it, for errors. -/
def CommandSpec.helpUsage (c : CommandSpec) : String :=
  "Usage: " ++ programName ++ " " ++ c.name ++ " [OPTIONS]" ++ c.requiredUsage ++ "\n\n"

/-- How an option named by its long name is written in usage lines; the flags take no value. -/
def usageOf (options : List OptionSpec) (long : String) : String :=
  match options.find? (·.long = long) with
  | some o => o.display
  | none => "--" ++ long

/-- The usage line of a subcommand in errors that follow options given: its required options,
then the others given, in the order given. With none given it is the usage of its help. -/
def CommandSpec.usageAfter (c : CommandSpec) (given : List String) : String :=
  if given.isEmpty then c.helpUsage
  else
    let required := (c.options.filter (·.required)).map (·.long)
    let others := (given.filter (!required.contains ·)).foldl
      (fun (acc : List String) l => if acc.contains l then acc else acc ++ [l]) []
    "Usage: " ++ programName ++ " " ++ c.name ++ c.requiredUsage ++
      String.join (others.map fun l => " " ++ usageOf (logFileOption :: c.options) l) ++ "\n\n"

/-- The usage line of the program in errors that follow options given before the subcommand. -/
def topUsageAfter (given : List String) : String :=
  if given.isEmpty then topUsage
  else "Usage: " ++ programName ++
    String.join (given.map fun l => " " ++ usageOf [logFileOption] l) ++ " <COMMAND>\n\n"

/-- Characters of `s` that match a character of `t` within the Jaro window, in order, with the
positions of `t` they use. -/
def jaroMatches (s t : List Char) (window : Nat) : List Char × List Nat :=
  (s.zipIdx.foldl (fun (acc : List Char × List Nat) (c, i) =>
    let lo := i - window
    let hi := i + window
    match (t.zipIdx.find? fun (d, j) => lo ≤ j && j ≤ hi && d = c && !acc.2.contains j) with
    | some (_, j) => (acc.1 ++ [c], acc.2 ++ [j])
    | none => acc) ([], []))

/-- The Jaro similarity of two texts, as a fraction `num / den`; `none` when it is zero. -/
def jaro (a b : String) : Option (Nat × Nat) :=
  let s := a.toList
  let t := b.toList
  if s.isEmpty && t.isEmpty then some (1, 1)
  else
    let window := max s.length t.length / 2 - 1
    let (ms, used) := jaroMatches s t window
    let m := ms.length
    if m = 0 then none
    else
      let tMatched := (used.mergeSort (· ≤ ·)).filterMap fun j => t[j]?
      let swaps := ((ms.zip tMatched).filter fun (x, y) => x ≠ y).length / 2
      -- (m/|s| + m/|t| + (m - swaps)/m) / 3, over a common denominator
      let num := m * m * t.length + m * m * s.length + (m - swaps) * s.length * t.length
      let den := 3 * m * s.length * t.length
      some (num, den)

/-- Whether the similarity exceeds 0.7. -/
def similar (a b : String) : Bool :=
  match jaro a b with
  | some (num, den) => 10 * num > 7 * den
  | none => false

/-- The most similar candidate above the threshold; later candidates win ties. -/
def closest (a : String) (candidates : List String) : Option String :=
  let scored := candidates.filterMap fun c =>
    if similar a c then (jaro a c).map fun (n, d) => (c, n, d) else none
  (scored.foldl (fun (best : Option (String × Nat × Nat)) x =>
    match best with
    | none => some x
    | some (_, n, d) => if x.2.1 * d ≥ n * x.2.2 then some x else best) none).map (·.1)

/-- The error for an argument nobody expects, with a tip if one is found. -/
def unexpected (arg : String) (tip : Option String) (usage : String) : Request :=
  let tip := match tip with
    | some t => "  tip: " ++ t ++ "\n\n"
    | none => ""
  .refuse ("error: unexpected argument '" ++ arg ++ "' found\n\n" ++ tip ++ usage ++ moreInformation)

/-- The error for an option given without a value. -/
def emptyValue (o : OptionSpec) : Request :=
  .refuse ("error: a value is required for '" ++ o.display ++ "' but none was supplied\n\n" ++
    moreInformation)

/-- The error for an option given twice. -/
def givenTwice (o : OptionSpec) (usage : String) : Request :=
  .refuse ("error: the argument '" ++ o.display ++ "' cannot be used multiple times\n\n" ++ usage ++
    moreInformation)

/-- The error for a name that is no subcommand of a command with this usage line; `closing`
ends it, the pointer to the help unless the command has no help flag. -/
def noSuchSubcommand (name : String) (tip : String) (usage : String) (closing : String) :
    Request :=
  .refuse ("error: unrecognized subcommand '" ++ name ++ "'\n\n" ++ tip ++ usage ++ closing)

/-- The error for a subcommand that does not exist, with the most similar one as a tip. -/
def unrecognized (name : String) : Request :=
  let names := commands.map (·.name) ++ ["help"]
  let tip := match closest name names with
    | some c => "  tip: a similar subcommand exists: '" ++ c ++ "'\n\n"
    | none => ""
  noSuchSubcommand name tip topUsage moreInformation

/-- The error for a value attached to a flag that takes none. -/
def tooManyValues (value : String) (flag : String) (usage : String) : Request :=
  .refuse ("error: unexpected value '" ++ value ++ "' for '" ++ flag ++
    "' found; no more were expected\n\n" ++ usage ++ moreInformation)

/-- The long names a subcommand knows. -/
def CommandSpec.longs (c : CommandSpec) : List String :=
  (c.options ++ [logFileOption]).map (·.long) ++ ["help"]

/-- The name of a long option as written, without its dashes and any `=value`. -/
def longName (arg : String) : String := String.ofList ((arg.toList.drop 2).takeWhile (· ≠ '='))

/-- For a long option the program does not know, the subcommand named later among `rest` that
knows a similar one: the subcommand named first, and its most similar option. -/
def laterSubcommandOption (name : String) (rest : List String) : Option (String × String) :=
  let found := commands.filterMap fun c =>
    match rest.findIdx? (· = c.name), closest name c.longs with
    | some place, some long => some (place, c.name, long)
    | _, _ => none
  let first := found.foldl (fun (best : Option (Nat × String × String)) x =>
    match best with
    | some b => if x.1 < b.1 then some x else best
    | none => some x) none
  first.map (·.2)
/-- Whether an argument is a cluster of short flags: a dash and at least one more character, the
second not a dash. -/
def isShortFlags (arg : String) : Bool := arg.startsWith "-" && !arg.startsWith "--" && arg.length > 1

/-- The value of `--long=value`, refused when empty. -/
def inlineValue (o : OptionSpec) (arg : String) : Except Request String :=
  let v := (arg.drop (o.long.length + 3)).toString
  if v.isEmpty then .error (emptyValue o) else .ok v

/-- The option an argument names, `--long` or `--long=value`. -/
def optionOf (options : List OptionSpec) (arg : String) : Option OptionSpec :=
  options.find? fun o => arg = "--" ++ o.long || arg.startsWith ("--" ++ o.long ++ "=")

/-- An option read whose value is not recorded yet: the option, and its value once read. An
option is recorded only when the next argument that names something the parser knows, or the end
of the arguments, is met; an argument refused before that drops it, and its own refusal with it. -/
abbrev Pending := Option (OptionSpec × Option String)

/-- Records a value of a subcommand option, refusing a second one. A `--log-file` given before
the subcommand is not in `values`: the one after it replaces it. -/
def record (c : CommandSpec) (values : List (String × String)) (o : OptionSpec) (v : String) :
    Except Request (List (String × String)) :=
  if values.any (·.1 = o.long) then .error (givenTwice o c.helpUsage)
  else .ok (values ++ [(o.long, v)])

/-- Records the pending option of a subcommand: refused without a value or when given twice. -/
def settle (c : CommandSpec) (values : List (String × String)) :
    Pending → Except Request (List (String × String))
  | none => .ok values
  | some (o, none) => .error (emptyValue o)
  | some (o, some v) => record c values o v

/-- The options recorded once the pending one is settled on the way to another refusal: a value
is recorded, and an option given twice loses its earlier value as well. -/
def settleQuietly (values : List (String × String)) : Pending → List (String × String)
  | some (o, some v) =>
    if values.any (·.1 = o.long) then values.filter (·.1 ≠ o.long) else values ++ [(o.long, v)]
  | _ => values

/-- The invocation of a subcommand once its arguments are read, unless required ones are
missing. -/
def finishCommand (c : CommandSpec) (logFile : Option String) (values : List (String × String)) :
    Request :=
  let missing := c.options.filter fun o => o.required && !values.any (·.1 = o.long)
  if missing.isEmpty then
    .run ⟨c.name, values, ((values.find? (·.1 = "log-file")).map (·.2)).or logFile⟩
  else .refuse ("error: the following required arguments were not provided:\n" ++
    String.join (missing.map fun o => "  " ++ o.display ++ "\n") ++ "\n" ++
    c.usageAfter (values.map (·.1) ++ missing.map (·.long)) ++ moreInformation)

/-- The refusal of a long option a subcommand does not know, with the most similar known one as
a tip; `values` are the options recorded before it. -/
def unknownLong (c : CommandSpec) (values : List (String × String)) (arg : String) : Request :=
  let name := longName arg
  match closest name c.longs with
  | some s =>
    unexpected ("--" ++ name) (some ("a similar argument exists: '--" ++ s ++ "'"))
      (c.usageAfter (values.map (·.1) ++ [s]))
  | none => unexpected ("--" ++ name) none (c.usageAfter (values.map (·.1)))

/-- Shows the help of a subcommand once the pending option is settled. -/
def commandHelp (c : CommandSpec) (values : List (String × String)) (pending : Pending) :
    Request :=
  match settle c values pending with
  | .ok _ => .show c.help
  | .error r => r

/-- Reads the arguments of a subcommand; `pending` is the option read last, not recorded yet. -/
def parseCommand (c : CommandSpec) (logFile : Option String) :
    List String → Pending → List (String × String) → Request
  | [], pending, values =>
    match settle c values pending with
    | .ok values => finishCommand c logFile values
    | .error r => r
  | arg :: rest, pending, values =>
    if arg = "--" then
      -- what follows is no option, and the subcommand takes nothing else
      match rest with
      | [] => parseCommand c logFile rest pending values
      | other :: _ => unexpected other none c.helpUsage
    else if arg.startsWith "--" then
      if arg = "--help" then commandHelp c values pending
      else if arg.startsWith "--help=" then
        tooManyValues (arg.drop 7).toString "--help"
          (c.usageAfter ((settleQuietly values pending).map (·.1) ++ ["help"]))
      else match optionOf (logFileOption :: c.options) arg with
        | some o =>
          match settle c values pending with
          | .error r => r
          | .ok values =>
            if arg = "--" ++ o.long then parseCommand c logFile rest (some (o, none)) values
            else match inlineValue o arg >>= record c values o with
              | .ok values => parseCommand c logFile rest none values
              | .error r => r
        | none => unknownLong c (settleQuietly values pending) arg
    else if isShortFlags arg then
      -- a cluster of short flags is read letter by letter, and only `-h` is known
      match (arg.toList.drop 1).headD ' ' with
      | 'h' => commandHelp c values pending
      | letter => unexpected (String.ofList ['-', letter]) none c.helpUsage
    else match pending with
      | some (o, none) => parseCommand c logFile rest (some (o, some arg)) values
      | _ => unexpected arg none c.helpUsage

/-- The usage line of `help` in its errors. -/
def helpUsage : String := "Usage: " ++ programName ++ " help [COMMAND]...\n"

/-- Reads `help` and the subcommand it is asked about. -/
def parseHelp : List String → Request
  | [] => .show topHelp
  | name :: more =>
    -- the subcommands have no subcommands of their own to show help for, and `help` has no
    -- help flag to point to
    if name = "help" then
      match more with
      | [] => .show helpHelp
      | other :: _ => noSuchSubcommand other "" helpUsage ""
    else match commands.find? (·.name = name) with
      | some c =>
        match more with
        | [] => .show c.help
        | other :: _ => noSuchSubcommand other "" c.helpUsage moreInformation
      | none => noSuchSubcommand name "" topUsage moreInformation

/-- The error for arguments that end before naming a subcommand. -/
def noSubcommand : Request :=
  .refuse ("error: '" ++ programName ++ "' requires a subcommand but one was not " ++
    "provided\n  [subcommands: apply, validate, order, help]\n\n" ++ topUsage ++ moreInformation)

/-- What the version flag prints. -/
def versionText : String := programName ++ " " ++ programVersion ++ "\n"

/-- Records the pending `--log-file` given before the subcommand: refused without a value or
when given twice. -/
def settleLogFile (logFile : Option String) : Option (Option String) → Except Request (Option String)
  | none => .ok logFile
  | some none => .error (emptyValue logFileOption)
  | some (some v) => if logFile.isSome then .error (givenTwice logFileOption topUsage) else .ok (some v)

/-- The log file recorded once the pending one is settled on the way to another refusal. -/
def settleLogFileQuietly (logFile : Option String) : Option (Option String) → Option String
  | some (some v) => if logFile.isSome then none else some v
  | _ => logFile

/-- Shows a text of the program once the pending `--log-file` is settled. -/
def topShow (logFile : Option String) (pending : Option (Option String)) (text : String) :
    Request :=
  match settleLogFile logFile pending with
  | .ok _ => .show text
  | .error r => r

/-- The refusal of a long option the program does not know before the subcommand: pointed to a
similar option of its own, or else to a subcommand named later in `rest` that knows one. -/
def unknownTopLong (logFile : Option String) (arg : String) (rest : List String) : Request :=
  let given := if logFile.isSome then ["log-file"] else []
  let name := longName arg
  match closest name ["log-file", "help", "version"] with
  | some s =>
    unexpected ("--" ++ name) (some ("a similar argument exists: '--" ++ s ++ "'"))
      (topUsageAfter (given ++ [s]))
  | none =>
    match laterSubcommandOption name rest with
    | some (sub, long) =>
      unexpected ("--" ++ name) (some ("'" ++ sub ++ " --" ++ long ++ "' exists"))
        (topUsageAfter given)
    | none => unexpected ("--" ++ name) none (topUsageAfter given)

/-- The end of the arguments before a subcommand: with no option given the help is shown as an
error, else the missing subcommand is refused. -/
def endWithoutSubcommand (logFile : Option String) : Request :=
  if logFile.isSome then noSubcommand else .refuse topHelp

/-- Reads the arguments before the subcommand; `pending` is a `--log-file` read last, not recorded
yet. A subcommand's name is one even where that option awaits its value, and the option is
settled only once the subcommand's own arguments are read. -/
def parseTop (logFile : Option String) : List String → Option (Option String) → Request
  | [], pending =>
    match settleLogFile logFile pending with
    | .ok logFile => endWithoutSubcommand logFile
    | .error r => r
  | arg :: rest, pending =>
    if arg = "help" then parseHelp rest
    else match commands.find? (·.name = arg) with
    | some c =>
      match parseCommand c none rest none [] with
      | .run inv =>
        match settleLogFile logFile pending with
        | .ok logFile => .run { inv with logFile := inv.logFile.or logFile }
        | .error r => r
      | r => r
    | none =>
      if arg = "--" then
        -- what follows is no option; a subcommand there is refused as such
        match rest with
        | [] => parseTop logFile rest pending
        | name :: _ =>
          if name = "help" || commands.any (·.name = name) then
            unexpected name
              (some ("subcommand '" ++ name ++ "' exists; to use it, remove the '--' before it"))
              topUsage
          else unrecognized name
      else if arg = "--help" then topShow logFile pending topHelp
      else if arg = "--version" then topShow logFile pending versionText
      else if arg.startsWith "--help=" || arg.startsWith "--version=" then
        let flag := longName arg
        let given := if (settleLogFileQuietly logFile pending).isSome then ["log-file"] else []
        tooManyValues (arg.drop (flag.length + 3)).toString ("--" ++ flag)
          (topUsageAfter (given ++ [flag]))
      else if arg.startsWith "--" then
        match optionOf [logFileOption] arg with
        | some o =>
          match settleLogFile logFile pending with
          | .error r => r
          | .ok logFile =>
            if arg = "--" ++ o.long then parseTop logFile rest (some none)
            else match inlineValue o arg with
              | .ok v => if logFile.isSome then givenTwice o topUsage else parseTop (some v) rest none
              | .error r => r
        | none => unknownTopLong (settleLogFileQuietly logFile pending) arg rest
      else if isShortFlags arg then
        -- a cluster of short flags is read letter by letter, and only `-h` and `-V` are known
        match (arg.toList.drop 1).headD ' ' with
        | 'h' => topShow logFile pending topHelp
        | 'V' => topShow logFile pending versionText
        | letter => unexpected (String.ofList ['-', letter]) none topUsage
      else match pending with
        | some none => parseTop logFile rest (some (some arg))
        | _ => unrecognized arg

/-- What the arguments ask for. Without any argument the help is shown as an error. -/
def parse (args : List String) : Request :=
  parseTop none args none

end Cli

end SchemaDesign
