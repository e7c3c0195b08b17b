import Armv4t.Runner

/-! # The program — files, the standard error stream and exit codes -/

namespace Armv4t.Program

/-- The contents of a file, if it can be read. -/
def readFile (path : String) : IO (Option ByteArray) := do
  try return some (← IO.FS.readBinFile path)
  catch _ => return none

/-- Appends lines to the log file in a directory, which is created if need be. -/
def appendLog (dir : String) (lines : List String) : IO Unit := do
  IO.FS.createDirAll dir
  IO.FS.withFile (dir ++ "/tdmi.log") .append fun file => lines.forM file.putStrLn

/-- Runs what the arguments ask for, and gives the exit code. -/
def runImage (arguments : CommandLine.Arguments) : IO UInt32 := do
  let log (lines : List String) : IO Unit := match arguments.logDir with
    | some dir => appendLog dir lines
    | none => pure ()
  log []
  let image ← readFile arguments.image
  let config ← match arguments.config with
    | some path => readFile path
    | none => pure none
  let files (path : String) : Option ByteArray :=
    if some path = arguments.config then config
    else if path = arguments.image then image
    else none
  match Runner.run arguments files with
  | .ok entries => do
    let lines := entries.map Runner.LogEntry.line
    lines.forM IO.eprintln
    log lines
    return 0
  | .error e => do
    IO.eprintln ("error: " ++ e.message)
    return 1

end Armv4t.Program

/-- The exit code is 0 after a run, 1 when it could not start and 2 when the command
    line is wrong. -/
def main (arguments : List String) : IO UInt32 := do
  match Armv4t.CommandLine.parse arguments with
  | .ok arguments => Armv4t.Program.runImage arguments
  | .error refusal =>
    match refusal with
    | .help | .version => do
      IO.println refusal.message
      return 0
    | _ => do
      IO.eprintln ("error: " ++ refusal.message)
      return 2
