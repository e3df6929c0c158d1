import ScanPath.Document

/-!
# Faults

What a failed operation reports: a family, a stable code, a message, the
values that caused it and perhaps a hint.
-/

namespace ScanPath

structure Detail where
  code : String
  message : String
  context : Keyed String
  hint : Option String
  deriving DecidableEq

inductive Fault where
  | configuration (detail : Detail)
  | exhausted (detail : Detail)
  | encoding (detail : Detail)
  deriving DecidableEq

namespace Detail

def plain (code message : String) : Detail := ⟨code, message, ∅, none⟩

def noting (detail : Detail) (key value : String) : Detail :=
  { detail with context := detail.context.insert key value }

def hinting (detail : Detail) (hint : String) : Detail := { detail with hint := some hint }

def text (detail : Detail) : String :=
  let context :=
    if detail.context.entries.isEmpty then ""
    else
      " | context: ["
        ++ String.intercalate ", " (detail.context.entries.map fun (key, value) => key ++ "=" ++ value)
        ++ "]"
  let hint :=
    match detail.hint with
    | none => ""
    | some hint => " | hint: " ++ hint
  detail.message ++ " (code: " ++ detail.code ++ ")" ++ context ++ hint

end Detail

namespace Fault

def detail : Fault → Detail
  | .configuration detail | .exhausted detail | .encoding detail => detail

def family : Fault → String
  | .configuration _ => "Configuration"
  | .exhausted _ => "IterationExhausted"
  | .encoding _ => "Serde"

def families : List String := ["Configuration", "IterationExhausted", "Serde"]

def heading : Fault → String
  | .configuration _ => "configuration error: "
  | .exhausted _ => "iteration exhausted: "
  | .encoding _ => "serde error: "

def text (fault : Fault) : String := fault.heading ++ fault.detail.text

def isConfiguration : Fault → Bool
  | .configuration _ => true
  | _ => false

def isExhausted : Fault → Bool
  | .exhausted _ => true
  | _ => false

end Fault

def Detail.encode (detail : Detail) : Json :=
  .object ([("code", .string detail.code),
      ("message", .string detail.message),
      ("context", .object (detail.context.entries.map fun (key, value) => (key, .string value)))]
    ++ match detail.hint with
      | none => []
      | some hint => [("hint", .string hint)])

def Fault.encode (fault : Fault) : Json :=
  .object [("family", .string fault.family), ("detail", fault.detail.encode)]

/-- Details that are listed rather than named have to be complete. -/
def Detail.decode? (document : Document) : Option Detail := do
  let record ← document.record? .inner ["code", "message", "context", "hint"]
  let hint ←
    match document with
    | .list _ => record.require? "hint" (Document.orNull? Document.text?)
    | _ => record.default? "hint" none (Document.orNull? Document.text?)
  return {
    code := ← record.require? "code" Document.text?
    message := ← record.require? "message" Document.text?
    context := ← record.default? "context" ∅ (Document.tableOf? .inner Document.text?)
    hint }

/-- The family and the detail may be listed as well, and the family may be a table from its name to
null. -/
def Fault.decode? (document : Document) : Option Fault := do
  let record ← document.record? .inner ["family", "detail"]
  let detail ← record.require? "detail" Detail.decode?
  match ← record.require? "family" (Document.choice? .inner families) with
  | "Configuration" => some (.configuration detail)
  | "IterationExhausted" => some (.exhausted detail)
  | "Serde" => some (.encoding detail)
  | _ => none

end ScanPath
