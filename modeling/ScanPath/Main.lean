import ScanPath.CommandLine

/-!
# The program

Reads the file that a command names and writes what the command says.
-/

open ScanPath

def usage : String :=
  "Usage: spg points --config <CONFIG> [--limit <LIMIT>] [--format <json|csv>]\n"
    ++ "       spg describe --config <CONFIG>\n"

def contents (path : String) : IO (Option String) := do
  try
    return some (← IO.FS.readFile path)
  catch _ => return none

def main (arguments : List String) : IO UInt32 := do
  match CommandLine.parse? arguments with
  | none =>
      (← IO.getStderr).putStr usage
      return CommandLine.usageCode
  | some command =>
      match command.output (← contents command.config) with
      | .ok text =>
          (← IO.getStdout).putStr text
          return 0
      | .error cause =>
          (← IO.getStderr).putStr (CommandLine.failureText cause.fault)
          return CommandLine.failureCode
