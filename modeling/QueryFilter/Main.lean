import QueryFilter.Command.Arguments
import QueryFilter.Command.Run

/-!
# The executable

Reads the settings file and the lines of a session, and prints what the command answers. Nothing is
decided here.
-/

namespace QueryFilter

namespace Command

/-- What is found at a path. -/
def readContent (path : String) : IO FileContent := do
  try
    return .bytes (← IO.FS.readBinFile path)
  catch
    | .noFileOrDirectory .. => return .missing
    | .inappropriateType .. => return .directory
    | e => return .failed (toString e)

/-- Prints the lines of a transcript. -/
def Transcript.print (t : Transcript) : IO Unit := do
  IO.print (unlines t.output)
  IO.eprint (unlines t.errors)

/-- The bytes of the next line of an input, after those read of it already, newest first; nothing
at the end of input. -/
partial def readLine (input : IO.FS.Stream) (line : List UInt8) : IO (Option (List UInt8)) := do
  match (← input.read 1).toList with
  | [] => return if line.isEmpty then none else some line.reverse
  | b :: _ => if b = lineFeed then return some line.reverse else readLine input (b :: line)

/-- Answers the lines of standard input until the session ends. -/
partial def interact (c : Compiler) (style : Style) (mode : OutputMode) : IO UInt32 := do
  let some line ← readLine (← IO.getStdin) [] | return 0
  let (t, next) := respond c style mode (lineText? line)
  t.print
  (← IO.getStdout).flush
  match next with
  | .go mode => interact c style mode
  | .stop readable => return if readable then 0 else 1

/-- Runs the command with the given arguments. -/
def execute (a : Arguments) : IO UInt32 := do
  let settings ← a.settingsPath.mapM fun path => return ⟨path, ← readContent path⟩
  match a.query with
  | some _ =>
    let outcome := run { query := a.query, settings, mode := a.mode, style := a.style } []
    IO.print outcome.output
    IO.eprint outcome.errors
    return UInt32.ofNat outcome.exitCode
  | none =>
    match loadSettings settings with
    | .error text =>
      IO.eprintln text
      return 1
    | .ok (settings, records) =>
      Transcript.print ⟨[banner], LogRecord.shown a.style.verbosity records⟩
      interact { settings } a.style a.mode

end Command

end QueryFilter

/-- The entry point of the command. -/
def main (args : List String) : IO UInt32 := do
  match QueryFilter.Command.Arguments.ofList args with
  | .error text =>
    IO.eprintln text
    return 2
  | .ok a => QueryFilter.Command.execute a
