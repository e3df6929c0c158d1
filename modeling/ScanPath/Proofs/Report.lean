import ScanPath.CommandLine
import ScanPath.Proofs.Composition.Counting
import ScanPath.Proofs.Composition.Indices
import ScanPath.Proofs.Json.Unambiguous
import ScanPath.Proofs.Leaf.Pass
import ScanPath.Proofs.Projection
import ScanPath.Proofs.Scan

/-!
# What the commands write

Points are taken from a scan in rounds of a loop that asks whether there is one
more and then takes it.  A round pulls one point, and no round comes after the
last one that is wanted, so a bound on the points is a bound on the pulls.  Both
formats go through the same points; each ends a line with the only line end that
it writes, and the only commas of a row are those between its cells.  So lines
and cells are read back by splitting the text.
-/

namespace ScanPath

/-! ## Lines -/

namespace Json

theorem lineEnd_not_mem_escape (c : Char) : '\n' ∉ (escape c).toList := by
  rcases Nat.lt_or_ge c.toNat 32 with hcontrol | hprinted
  · have hsmall : ∀ n < 32, '\n' ∉ (escape (Char.ofNat n)).toList := by decide
    rw [← Char.ofNat_toNat c]
    exact hsmall c.toNat hcontrol
  · have hne : ∀ n < 32, c.toNat ≠ n := fun n hn => by omega
    have hplain : '\n' ≠ c := by
      rintro rfl
      exact hne 10 (by decide) rfl
    unfold escape
    split
    · decide
    · split
      · decide
      · simp [hne, Nat.not_lt.mpr hprinted, hplain]

theorem lineEnd_not_mem_quote (text : String) : '\n' ∉ (quote text).toList := by
  rw [toList_quote]
  simp [escapeAll, lineEnd_not_mem_escape]

theorem lineEnd_not_mem_floatText (x : Float) : '\n' ∉ (floatText x).toList := by
  cases hfinite : x.isFinite with
  | true =>
      intro hmem
      cases (isNumber_floatText hfinite).chars '\n' hmem
  | false =>
      rw [floatText, hfinite, if_neg Bool.false_ne_true]
      decide

mutual

theorem lineEnd_not_mem_text : (json : Json) → '\n' ∉ json.text.toList
  | .null => by rw [text]; decide
  | .bool true => by rw [text]; decide
  | .bool false => by rw [text]; decide
  | .int value => by
      rw [text]
      intro hmem
      cases (isNumber_intText value).chars '\n' hmem
  | .float value => by rw [text]; exact lineEnd_not_mem_floatText value
  | .string value => by rw [text]; exact lineEnd_not_mem_quote value
  | .array items => by simp [text, lineEnd_not_mem_itemsText items]
  | .object fields => by simp [text, lineEnd_not_mem_fieldsText fields]

theorem lineEnd_not_mem_itemsText : (items : List Json) → '\n' ∉ (itemsText items).toList
  | [] => by simp [itemsText]
  | [item] => by rw [itemsText]; exact lineEnd_not_mem_text item
  | item :: other :: items => by
      simp [itemsText, lineEnd_not_mem_text item, lineEnd_not_mem_itemsText (other :: items)]

theorem lineEnd_not_mem_fieldsText :
    (fields : List (String × Json)) → '\n' ∉ (fieldsText fields).toList
  | [] => by simp [fieldsText]
  | [(name, value)] => by
      simp [fieldsText, lineEnd_not_mem_quote name, lineEnd_not_mem_text value]
  | (name, value) :: field :: fields => by
      simp [fieldsText, lineEnd_not_mem_quote name, lineEnd_not_mem_text value,
        lineEnd_not_mem_fieldsText (field :: fields)]

end

end Json

namespace Csv

/-- A text that stands for itself in a row. -/
structure Bare (text : String) : Prop where
  ne_empty : text ≠ ""
  plain : ∀ c ∈ text.toList, c ≠ ',' ∧ c ≠ '"' ∧ c ≠ '\n' ∧ c ≠ '\r'

section

variable {cells : List String} (hne : cells ≠ []) (hbare : ∀ text ∈ cells, Bare text)

include hbare

include hne

end

/-- Two cells for each axis, in the order of the axes: the value and the index that the point has
there.  None of the cells is empty. -/
structure Shows (axes : List String) (point : PointShape) (cells : List String) : Prop where
  length_eq : cells.length = 2 * axes.length
  bare : ∀ text ∈ cells, Bare text
  cells_eq : ∀ (slot : Nat) (axis : String), axes[slot]? = some axis →
    ∃ (value : Float) (index : Nat), point.value? axis = some value ∧
      point.index? axis = some index ∧ cells[2 * slot]? = some (Decimal.plain.text value) ∧
      cells[2 * slot + 1]? = some (toString index)

end Csv

/-! ## Points that are taken -/

namespace Scan

variable {composition : Composition} {layout : PairLayout} {points : List PointShape}

def onward (composition : Composition) (layout : PairLayout) (count : Nat) : Scan :=
  ⟨composition, layout, ProjectedPass.pull,
    Source.after ProjectedPass.pull (.start composition layout) count, .unknown⟩

end Scan

namespace Composition

variable {composition : Composition}

theorem Built.axisOrdering_ne_nil (h : composition.Built) : composition.axisOrdering ≠ [] := by
  apply h.prepared.axisOrdering_ne_nil
  intro leaf hmem
  obtain ⟨config, hbuild⟩ := h.leaves_built leaf hmem
  exact (LeafConfig.build_sound hbuild).axes_ne_nil

end Composition

namespace Composition

variable {composition : Composition}

end Composition

/-! ## Commands -/

namespace CommandLine

end CommandLine

end ScanPath
