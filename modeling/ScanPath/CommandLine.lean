import ScanPath.Report
import ScanPath.Yaml.Reading

/-!
# The command line

Two commands read a description in YAML: `points` writes the points of the
scan, one per line, and `describe` a summary.
-/

namespace ScanPath.CommandLine

inductive Command where
  | points (config : String) (limit : Option Nat) (format : PointFormat)
  | describe (config : String)
  deriving DecidableEq, Repr

def Command.config : Command → String
  | .points config _ _ | .describe config => config

def option? (word : String) : Option (String × Option String) :=
  match word.toList with
  | '-' :: '-' :: rest =>
      let name := String.ofList (rest.takeWhile (· != '='))
      match rest.dropWhile (· != '=') with
      | _ :: value => some (name, some (String.ofList value))
      | [] => some (name, none)
  | _ => none

/-- A word that may follow an option as its value: a dash alone, or no dash in front. -/
def isValue (word : String) : Bool := word == "-" || word.toList.head? != some '-'

/-- The options among the arguments, each of them known and given once.  Nothing may follow a double
dash. -/
def options? (names : List String) :
    List (String × String) → List String → Option (List (String × String))
  | given, [] => some given
  | given, "--" :: words => if words.isEmpty then some given else none
  | given, word :: words =>
      match option? word with
      | none => none
      | some (name, value) =>
          if !names.contains name || (given.lookup name).isSome then none
          else
            match value, words with
            | some value, words => options? names ((name, value) :: given) words
            | none, value :: words =>
                if isValue value then options? names ((name, value) :: given) words else none
            | none, [] => none

def count? (text : String) : Option Nat :=
  let digits :=
    match text.toList with
    | '+' :: rest => rest
    | rest => rest
  if digits.isEmpty || !digits.all Char.isDigit then none
  else
    let count := Decimal.ofDigits digits
    if count < countLimit then some count else none

def format? : String → Option PointFormat
  | "json" => some .json
  | "csv" => some .csv
  | _ => none

def optional? {α : Type} (given : List (String × String)) (name : String)
    (read? : String → Option α) : Option (Option α) :=
  match given.lookup name with
  | none => some none
  | some text => (read? text).map some

def config? (given : List (String × String)) : Option String :=
  (given.lookup "config").filter (· != "")

def parse? : List String → Option Command
  | "points" :: words => do
      let given ← options? ["config", "limit", "format"] [] words
      let config ← config? given
      let limit ← optional? given "limit" count?
      let format ← optional? given "format" format?
      return .points config limit (format.getD .json)
  | "describe" :: words => do
      let given ← options? ["config"] [] words
      return .describe (← config? given)
  | _ => none

def load (path : String) (source : Option String) : Except Cause ScanConfig :=
  match source with
  | none => .error (.unreadableFile path)
  | some source => ScanConfig.ofYaml source

def Command.output (command : Command) (source : Option String) : Except Cause String := do
  let config ← load command.config source
  let scan ← ScanConfig.scan config
  match command with
  | .points _ limit format => return scan.pointsText format (limit.getD (countLimit - 1))
  | .describe path => return scan.summaryText path

def failureText (fault : Fault) : String := "Error: " ++ fault.statusText ++ "\n"

def usageCode : UInt32 := 2

def failureCode : UInt32 := 1

end ScanPath.CommandLine
