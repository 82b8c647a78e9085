import SchemaDesign.Cli.Run
import SchemaDesign.Cli.Clock
import Std.Time

/-!
# The command line

The program reads its arguments, the log setting `RUST_LOG` and the clock, runs the command over
the files of the machine, and prints what the run printed. File operations that fail are given
to the run as the failures the operating system reported, by their codes.
-/

namespace SchemaDesign

namespace Cli

/-- The operating system's code of a failed operation, if it has one. -/
def errorCode : IO.Error → Option Nat
  | .alreadyExists _ c _ | .otherError c _ | .resourceBusy c _ | .resourceVanished c _
  | .unsupportedOperation c _ | .hardwareFault c _ | .unsatisfiedConstraints c _
  | .illegalOperation c _ | .protocolError c _ | .timeExpired c _ | .interrupted _ c _
  | .noFileOrDirectory _ c _ | .invalidArgument _ c _ | .permissionDenied _ c _
  | .resourceExhausted _ c _ | .inappropriateType _ c _ | .noSuchThing _ c _ => some c.toNat
  | _ => none

/-- The failure of an operation as the run sees it. -/
def failureOf (e : IO.Error) : IoFailure :=
  match errorCode e with
  | some code => IoFailure.ofCode code
  | none => .other 0 (toString e)

/-- Runs an operation, keeping its failure. -/
def attempt {α : Type} (act : IO α) : IO (Except IoFailure α) := do
  try
    return .ok (← act)
  catch e =>
    return .error (failureOf e)

/-- The files of the machine. -/
def machineFiles : FileSystem IO where
  read path := do
    match ← attempt (IO.FS.readBinFile path) with
    | .ok bytes => return (String.fromUTF8? bytes).elim (.error .invalidData) .ok
    | .error f => return .error f
  touch path := attempt (discard (IO.FS.Handle.mk path .append))
  append path text := do
    let _ ← attempt do
      let handle ← IO.FS.Handle.mk path .append
      handle.putStr text
  createDirAll path := attempt (IO.FS.createDirAll path)
  write path text := attempt (IO.FS.writeFile path text)
  rename src dst := attempt (IO.FS.rename src dst)

end Cli

end SchemaDesign

/-- Runs the command line and exits with its status. -/
def main (args : List String) : IO UInt32 := do
  let setting ← IO.getEnv "RUST_LOG"
  let now ← Std.Time.Timestamp.now
  let nanos := now.toNanosecondsSinceUnixEpoch.val.toNat
  let r ← SchemaDesign.Cli.runWith SchemaDesign.Cli.machineFiles args
    ⟨setting, SchemaDesign.Cli.rfc3339 nanos, { seed := nanos }⟩
  IO.print r.stdout
  IO.eprint r.stderr
  return r.exitCode.toUInt32
