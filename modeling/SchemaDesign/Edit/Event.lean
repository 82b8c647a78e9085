/-!
# Events

What the engine and the command line report while they work. An event has a level, the part of
the program it comes from, a message and named fields. A field is a number, a text shown as it
is, or a word shown in quotes on the console.
-/

namespace SchemaDesign

/-- How much an event matters, from the most to the least. -/
inductive LogLevel where
  | error
  | warn
  | info
  | debug
  | trace
  deriving DecidableEq, Repr, Inhabited

namespace LogLevel

/-- The level in capitals. -/
def name : LogLevel → String
  | .error => "ERROR"
  | .warn => "WARN"
  | .info => "INFO"
  | .debug => "DEBUG"
  | .trace => "TRACE"

/-- The rank of the level: errors lowest, traces highest. -/
def rank : LogLevel → Nat
  | .error => 1
  | .warn => 2
  | .info => 3
  | .debug => 4
  | .trace => 5

end LogLevel

/-- The part of the program an event comes from. -/
inductive LogTarget where
  /-- Applying an operation. -/
  | editor
  /-- Propagating and removing keys. -/
  | cascade
  /-- Relationship operations. -/
  | relationships
  /-- The command line. -/
  | command
  /-- Reading files. -/
  | files
  deriving DecidableEq, Repr, Inhabited

namespace LogTarget

/-- The path that names the target in logs. -/
def path : LogTarget → String
  | .editor => "schemaforge_core::editor"
  | .cascade => "schemaforge_core::cascade"
  | .relationships => "schemaforge_core::handlers::relationship"
  | .command => "schemaforge"
  | .files => "schemaforge::files"

end LogTarget

/-- The value of an event field. -/
inductive FieldValue where
  /-- A text shown as it is. -/
  | text (s : String)
  /-- A word shown in quotes on the console. -/
  | word (s : String)
  /-- A count. -/
  | num (n : Nat)
  deriving DecidableEq, Repr, Inhabited

/-- A reported event. -/
structure Event where
  level : LogLevel
  target : LogTarget
  message : String
  fields : List (String × FieldValue)
  deriving DecidableEq, Repr, Inhabited

end SchemaDesign
