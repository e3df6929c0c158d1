import ScanPath.Scan
import ScanPath.Text.Quoted

/-!
# Reports

How a scan, its points and the faults of an operation are written out.
-/

namespace ScanPath

def PairLayout.label : PairLayout → String
  | .fastFirst => "FastFirst"
  | .declared => "Declared"

def Scan.statusText (scan : Scan) : String :=
  "ScanPointIterator \x7b size: " ++ toString scan.composition.size
    ++ ", axes: " ++ Text.quotedList scan.composition.axisOrdering
    ++ ", layout: " ++ scan.layout.label
    ++ ", exhausted: " ++ (if scan.isEnded then "true" else "false") ++ " \x7d"

def Detail.statusText (detail : Detail) : String :=
  let context := detail.context.entries.map fun (key, value) =>
    Text.quoted key ++ ": " ++ Text.quoted value
  let hint :=
    match detail.hint with
    | none => "None"
    | some hint => "Some(" ++ Text.quoted hint ++ ")"
  "ErrorInfo \x7b code: " ++ Text.quoted detail.code
    ++ ", message: " ++ Text.quoted detail.message
    ++ ", context: \x7b" ++ String.intercalate ", " context ++ "\x7d"
    ++ ", hint: " ++ hint ++ " \x7d"

def Fault.statusText (fault : Fault) : String :=
  fault.family ++ "(" ++ fault.detail.statusText ++ ")"

def PointShape.line (shape : PointShape) : String := shape.encode.text ++ "\n"

namespace Csv

/-- A cell is quoted if it holds a separator, a quote or a line end. -/
def cell (text : String) : String :=
  if text.toList.any fun c => c == ',' || c == '"' || c == '\n' || c == '\r' then
    text.toList.foldl (fun written c => written ++ if c = '"' then "\"\"" else c.toString) "\"" ++ "\""
  else text

/-- A row whose only cell is empty is written as a pair of quotes, or it would be no row. -/
def row (cells : List String) : String :=
  (if cells = [""] then "\"\"" else String.intercalate "," (cells.map cell)) ++ "\n"

def header (axes : List String) : List String := axes.flatMap fun axis => [axis, axis ++ "_index"]

def cells (axes : List String) (shape : PointShape) : List String :=
  axes.flatMap fun axis =>
    [((shape.value? axis).map Decimal.plain.text).getD "", ((shape.index? axis).map toString).getD ""]

end Csv

inductive PointFormat where
  | json
  | csv
  deriving DecidableEq, Repr

def Scan.pointsText (scan : Scan) (format : PointFormat) (limit : Nat) : String :=
  let points := (scan.take limit).1
  match format with
  | .json => String.join (points.map PointShape.line)
  | .csv =>
      let axes := scan.composition.axisOrdering
      Csv.row (Csv.header axes) ++ String.join (points.map fun point => Csv.row (Csv.cells axes point))

def Scan.summary (scan : Scan) (config : String) : Json :=
  let composition := scan.composition
  Json.canonical (.object [
    ("config", .string config),
    ("size", .ofNat composition.size),
    ("shape", .array (composition.shape.map .ofNat)),
    ("rank", .ofNat composition.rank),
    ("axis_ordering", .strings composition.axisOrdering),
    ("dimension_names", PointShape.encodeNames composition.dimensionNames),
    ("duration", Json.optional .ofFloat composition.duration),
    ("layout", .string scan.layout.name),
    ("descriptor_digest", .string composition.descriptor.digest),
    ("descriptor", composition.descriptor.value)])

def Scan.summaryText (scan : Scan) (config : String) : String :=
  (scan.summary config).pretty ++ "\n"

end ScanPath
