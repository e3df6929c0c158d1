import Mathlib.Data.List.Perm.Basic
import ScanPath.Proofs.Report

/-!
# Columns of a table

The first row of a table names its columns: every axis, and every axis again
with a suffix for its index.  The axes of a composition are all different, and
so are the suffixed names, but nothing keeps an axis from being named like the
index of another one.  Exactly when that happens two columns share a name.

Names may hold any character, so a row cannot be taken apart by splitting it at
its commas.  `Csv.records` reads a table character by character; it gives back
what `Csv.row` was given.
-/

namespace ScanPath

namespace Csv

/-- Where a reader stands: before a cell, in a bare one, between quotes, or behind the last of
them. -/
inductive Mode where
  | fresh
  | bare
  | quoted
  | closed
  deriving DecidableEq, Repr

structure Reader where
  rows : List (List String)
  cells : List String
  started : List Char
  mode : Mode
  deriving DecidableEq, Repr

namespace Reader

def between (rows : List (List String)) (cells : List String) : Reader := ⟨rows, cells, [], .fresh⟩

def push (reader : Reader) (c : Char) (mode : Mode) : Reader :=
  { reader with started := reader.started ++ [c], mode }

/-- Between quotes only a quote means something, and a second one behind it stands for itself. -/
def step (reader : Reader) (c : Char) : Reader :=
  match reader.mode with
  | .quoted => if c = '"' then { reader with mode := .closed } else reader.push c .quoted
  | mode =>
      if c = ',' then between reader.rows (reader.cells ++ [String.ofList reader.started])
      else if c = '\n' then
        between (reader.rows ++ [reader.cells ++ [String.ofList reader.started]]) []
      else if c = '"' then
        if mode = .closed then reader.push c .quoted else { reader with mode := .quoted }
      else reader.push c .bare

def read (reader : Reader) (chars : List Char) : Reader := chars.foldl step reader

theorem read_append (reader : Reader) (first second : List Char) :
    reader.read (first ++ second) = (reader.read first).read second :=
  List.foldl_append

end Reader

def records (text : String) : List (List String) :=
  ((Reader.between [] []).read text.toList).rows

/-! ## What is written is read -/

def needsQuotes (text : String) : Bool :=
  text.toList.any fun c => c == ',' || c == '"' || c == '\n' || c == '\r'

def doubled (chars : List Char) : List Char :=
  chars.flatMap fun c => if c = '"' then ['"', '"'] else [c]

theorem toList_cell (text : String) :
    (cell text).toList =
      if needsQuotes text then '"' :: doubled text.toList ++ ['"'] else text.toList := by
  have hdoubled : (fun c : Char => (if c = '"' then "\"\"" else c.toString).toList) =
      fun c => if c = '"' then ['"', '"'] else [c] := by
    funext c
    split <;> simp
  unfold cell
  change (if needsQuotes text then _ else _ : String).toList = _
  cases needsQuotes text with
  | false => rfl
  | true =>
      rw [if_pos rfl, if_pos rfl, String.toList_append, toList_foldl_append, hdoubled]
      rfl

namespace Reader

variable {rows : List (List String)} {cells : List String}

structure Holds (rows : List (List String)) (cells : List String) (text : String)
    (reader : Reader) : Prop where
  rows_eq : reader.rows = rows
  cells_eq : reader.cells = cells
  started_eq : reader.started = text.toList
  mode_ne : reader.mode ≠ .quoted

theorem read_doubled (start chars : List Char) :
    read ⟨rows, cells, start, .quoted⟩ (doubled chars) =
      ⟨rows, cells, start ++ chars, .quoted⟩ := by
  induction chars generalizing start with
  | nil => simp [doubled, read]
  | cons c chars ih =>
      have hcons : doubled (c :: chars) = (if c = '"' then ['"', '"'] else [c]) ++ doubled chars :=
        List.flatMap_cons
      have hchar : read ⟨rows, cells, start, .quoted⟩ (if c = '"' then ['"', '"'] else [c]) =
          ⟨rows, cells, start ++ [c], .quoted⟩ := by
        by_cases hquote : c = '"'
        · subst hquote
          rfl
        · simp [read, step, push, hquote]
      rw [hcons, read_append, hchar, ih]
      simp

theorem read_plain {mode : Mode} (hmode : mode = .fresh ∨ mode = .bare) (start : List Char)
    {chars : List Char} (h : ∀ c ∈ chars, c ≠ ',' ∧ c ≠ '"' ∧ c ≠ '\n') :
    ∃ mode', mode' ≠ .quoted ∧
      read ⟨rows, cells, start, mode⟩ chars = ⟨rows, cells, start ++ chars, mode'⟩ := by
  induction chars generalizing start mode with
  | nil => exact ⟨mode, by rcases hmode with rfl | rfl <;> decide, by simp [read]⟩
  | cons c chars ih =>
      rw [List.forall_mem_cons] at h
      obtain ⟨⟨hcomma, hquote, hend⟩, hrest⟩ := h
      have hchar : step ⟨rows, cells, start, mode⟩ c = ⟨rows, cells, start ++ [c], .bare⟩ := by
        rcases hmode with rfl | rfl <;> simp [step, push, hcomma, hquote, hend]
      obtain ⟨mode', hmode', hread⟩ := ih (.inr rfl) (start ++ [c]) hrest
      refine ⟨mode', hmode', ?_⟩
      rw [read, List.foldl_cons, hchar]
      simpa [read] using hread

theorem holds_cell (text : String) :
    Holds rows cells text ((between rows cells).read (cell text).toList) := by
  rw [toList_cell]
  cases hquotes : needsQuotes text with
  | true =>
      have hopen : (between rows cells).read ['"'] = ⟨rows, cells, [], .quoted⟩ := rfl
      rw [if_pos rfl, List.cons_append, ← List.singleton_append, read_append, read_append, hopen,
        read_doubled]
      exact ⟨rfl, rfl, rfl, by simp [read, step]⟩
  | false =>
      have hplain : ∀ c ∈ text.toList, c ≠ ',' ∧ c ≠ '"' ∧ c ≠ '\n' := by
        intro c hmem
        have hc := List.any_eq_false.mp hquotes c hmem
        simp only [Bool.or_eq_true, beq_iff_eq, not_or, and_assoc] at hc
        exact ⟨hc.1, hc.2.1, hc.2.2.1⟩
      obtain ⟨mode, hmode, hread⟩ : ∃ mode, mode ≠ .quoted ∧
          (between rows cells).read text.toList = ⟨rows, cells, text.toList, mode⟩ :=
        read_plain (.inl rfl) [] hplain
      rw [if_neg Bool.false_ne_true, hread]
      exact ⟨rfl, rfl, rfl, hmode⟩

theorem Holds.step_comma {text : String} {reader : Reader} (h : Holds rows cells text reader) :
    reader.step ',' = between rows (cells ++ [text]) := by
  obtain ⟨rfl, rfl, hstarted, hmode⟩ := h
  cases hm : reader.mode <;> simp_all [step]

theorem Holds.step_lineEnd {text : String} {reader : Reader} (h : Holds rows cells text reader) :
    reader.step '\n' = between (rows ++ [cells ++ [text]]) [] := by
  obtain ⟨rfl, rfl, hstarted, hmode⟩ := h
  cases hm : reader.mode <;> simp_all [step]

theorem read_cells {texts : List String} (h : texts ≠ []) :
    (between rows cells).read (String.intercalate "," (texts.map cell) ++ "\n").toList =
      between (rows ++ [cells ++ texts]) [] := by
  induction texts generalizing cells with
  | nil => exact absurd rfl h
  | cons text texts ih =>
      cases texts with
      | nil =>
          rw [List.map_singleton, String.intercalate_singleton, String.toList_append, read_append]
          exact (holds_cell text).step_lineEnd
      | cons other texts =>
          have hrest := @ih (cells ++ [text]) (List.cons_ne_nil _ _)
          rw [List.map_cons, List.map_cons, String.intercalate_cons_cons, String.append_assoc,
            String.append_assoc, String.toList_append, String.toList_append, read_append,
            read_append]
          have hcomma : ((between rows cells).read (cell text).toList).read ",".toList =
              between rows (cells ++ [text]) := (holds_cell text).step_comma
          rw [hcomma, ← List.map_cons, hrest, List.append_assoc, List.singleton_append]

theorem read_row {texts : List String} (h : texts ≠ []) :
    (between rows []).read (row texts).toList = between (rows ++ [texts]) [] := by
  unfold row
  split
  next hblank =>
    subst hblank
    rfl
  next => exact read_cells h

end Reader

theorem records_rows {table : List (List String)} (h : ∀ cells ∈ table, cells ≠ []) :
    records (String.join (table.map row)) = table := by
  have hread : ∀ rows, (Reader.between rows []).read (String.join (table.map row)).toList =
      Reader.between (rows ++ table) [] := by
    induction table with
    | nil =>
        intro rows
        rw [List.append_nil]
        rfl
    | cons cells table ih =>
        intro rows
        rw [List.forall_mem_cons] at h
        rw [List.map_cons, String.join_cons, String.toList_append, Reader.read_append,
          Reader.read_row h.1, ih h.2, List.append_assoc, List.singleton_append]
  rw [records, hread]
  rfl

theorem header_perm (axes : List String) :
    (header axes).Perm (axes ++ axes.map (· ++ "_index")) := by
  have hperm := List.flatMap_append_perm axes (fun axis => [axis]) fun axis => [axis ++ "_index"]
  rw [List.flatMap_singleton', ← List.map_eq_flatMap] at hperm
  exact hperm.symm

theorem length_header (axes : List String) : (header axes).length = 2 * axes.length := by
  rw [(header_perm axes).length_eq, List.length_append, List.length_map]
  omega

theorem length_cells (axes : List String) (point : PointShape) :
    (cells axes point).length = 2 * axes.length := by
  induction axes with
  | nil => rfl
  | cons axis axes ih =>
      have hcons : (cells (axis :: axes) point).length = 2 + (cells axes point).length := by
        simp only [cells, List.flatMap_cons, List.length_append, List.length_cons, List.length_nil]
      rw [hcons, ih, List.length_cons]
      omega

/-- The suffix keeps different names different, so only a name that has it can be there twice. -/
theorem nodup_header_iff {axes : List String} (h : axes.Nodup) :
    (header axes).Nodup ↔ ∀ axis ∈ axes, axis ++ "_index" ∉ axes := by
  have hsuffixed : (axes.map (· ++ "_index")).Nodup :=
    h.map fun _ _ heq => String.append_left_inj _ |>.mp heq
  rw [(header_perm axes).nodup_iff, List.nodup_append]
  constructor
  · rintro ⟨-, -, hdisjoint⟩ axis haxis hmem
    exact hdisjoint _ hmem _ (List.mem_map_of_mem haxis) rfl
  · intro hfree
    refine ⟨h, hsuffixed, ?_⟩
    rintro first hfirst second hsecond rfl
    obtain ⟨axis, haxis, rfl⟩ := List.mem_map.mp hsecond
    exact hfree axis haxis hfirst

def columns (axes : List String) (point : PointShape) : List (String × String) :=
  (header axes).zip (cells axes point)

theorem columns_eq_flatMap (axes : List String) (point : PointShape) :
    columns axes point = axes.flatMap fun axis =>
      [(axis, ((point.value? axis).map Decimal.plain.text).getD ""),
        (axis ++ "_index", ((point.index? axis).map toString).getD "")] := by
  induction axes with
  | nil => rfl
  | cons axis axes ih =>
      rw [List.flatMap_cons, ← ih]
      rfl

theorem map_fst_columns (axes : List String) (point : PointShape) :
    (columns axes point).map Prod.fst = header axes := by
  rw [columns_eq_flatMap, List.map_flatMap]
  rfl

theorem lookup_columns {axes : List String} (h : (header axes).Nodup) (point : PointShape)
    {axis : String} (haxis : axis ∈ axes) :
    (columns axes point).lookup axis =
        some (((point.value? axis).map Decimal.plain.text).getD "") ∧
      (columns axes point).lookup (axis ++ "_index") =
        some (((point.index? axis).map toString).getD "") := by
  rw [← map_fst_columns axes point] at h
  have hmem : ∀ entry ∈ [(axis, ((point.value? axis).map Decimal.plain.text).getD ""),
      (axis ++ "_index", ((point.index? axis).map toString).getD "")],
      entry ∈ columns axes point := by
    intro entry hentry
    rw [columns_eq_flatMap]
    exact List.mem_flatMap.mpr ⟨axis, haxis, hentry⟩
  exact ⟨Keyed.lookup_of_mem h (hmem _ (by simp)), Keyed.lookup_of_mem h (hmem _ (by simp))⟩

end Csv

/-! ## Tables of a scan -/

namespace Composition

/-- The table that a scan is written as, read back: first a row of names, then a row for each point
that was taken.  There are two names for each axis, and all of them are different unless an axis is
named like the index of another one.  If they are different, the value and the index of every axis
are found in the row of a point by the names of their columns. -/
theorem Prepared.columns_distinct_iff {composition : Composition} (h : Prepared composition) :
    let axes := composition.axisOrdering
    (Csv.header axes).length = 2 * axes.length ∧
    ((Csv.header axes).Nodup ↔ ∀ axis ∈ axes, axis ++ "_index" ∉ axes) ∧
    (axes ≠ [] → ∀ layout limit,
      let scan := Scan.ofComposition composition layout
      Csv.records (scan.pointsText .csv limit) =
        Csv.header axes :: (scan.take limit).1.map (Csv.cells axes)) ∧
    ((Csv.header axes).Nodup → ∀ point : PointShape, ∀ axis ∈ axes,
      (Csv.columns axes point).lookup axis =
          some (((point.value? axis).map Decimal.plain.text).getD "") ∧
        (Csv.columns axes point).lookup (axis ++ "_index") =
          some (((point.index? axis).map toString).getD "")) := by
  intro axes
  refine ⟨Csv.length_header axes, Csv.nodup_header_iff h.axisOrdering_nodup, ?_,
    fun hnodup point axis haxis => Csv.lookup_columns hnodup point haxis⟩
  intro hne layout limit scan
  have hpos : 0 < 2 * axes.length := Nat.mul_pos Nat.two_pos (List.length_pos_iff.mpr hne)
  have hrows : ∀ cells ∈ Csv.header axes :: (scan.take limit).1.map (Csv.cells axes),
      cells ≠ [] := by
    rw [List.forall_mem_cons]
    refine ⟨List.ne_nil_of_length_pos (Csv.length_header axes ▸ hpos), ?_⟩
    intro cells hcells
    obtain ⟨point, -, rfl⟩ := List.mem_map.mp hcells
    exact List.ne_nil_of_length_pos (Csv.length_cells axes point ▸ hpos)
  have htext : scan.pointsText .csv limit =
      String.join ((Csv.header axes :: (scan.take limit).1.map (Csv.cells axes)).map Csv.row) := by
    rw [List.map_cons, String.join_cons, List.map_map]
    rfl
  rw [htext, Csv.records_rows hrows]

theorem Prepared.columns_distinct_prefixed :
    ∃ composition, (Composer.ofParts [.leaf (sampleLeaf "x" 2 false),
        .leaf (sampleLeaf "x_ind" 2 true)] [] [] none).prepare.1 = .ok composition ∧
      (Csv.header composition.axisOrdering).Nodup ∧
      (Csv.records ((Scan.ofComposition composition .declared).pointsText .csv 0)) =
        [["x", "x_index", "x_ind", "x_ind_index"]] := by
  obtain ⟨composition, hprepare, hordering⟩ := Checked.exists_of_any
    (show (Composer.ofParts [.leaf (sampleLeaf "x" 2 false),
        .leaf (sampleLeaf "x_ind" 2 true)] [] [] none).prepare.1.toOption.any (fun composition =>
          composition.axisOrdering == ["x", "x_ind"]) = true by decide +kernel)
  rw [beq_iff_eq] at hordering
  have hprepared : Prepared composition := .of _ _ (by simp [Composer.ofParts]) hprepare
  obtain ⟨-, hnodup, hrecords, -⟩ := hprepared.columns_distinct_iff
  rw [hordering] at hnodup hrecords
  refine ⟨composition, hprepare, ?_, hrecords (by decide) .declared 0⟩
  rw [hordering]
  exact hnodup.mpr (by decide)

/-- Two names for three different cells: the index of `x` stands before the value of `x_index`, and
whoever asks for that value by its name gets the index. -/
theorem not_nodup_header_suffixed :
    ∃ composition, (Composer.ofParts [.leaf (sampleLeaf "x" 2 false),
        .leaf (sampleLeaf "x_index" 2 false)] [] [] none).prepare.1 = .ok composition ∧
      ¬ (Csv.header composition.axisOrdering).Nodup ∧
      ∀ x y : AxisEntry, x.axis = "x" → y.axis = "x_index" →
        (Csv.columns composition.axisOrdering (.pair x y none)).lookup "x_index" =
          some (toString x.index) := by
  obtain ⟨composition, hprepare, hordering⟩ := Checked.exists_of_any
    (show (Composer.ofParts [.leaf (sampleLeaf "x" 2 false),
        .leaf (sampleLeaf "x_index" 2 false)] [] [] none).prepare.1.toOption.any
          (fun composition => composition.axisOrdering == ["x", "x_index"]) = true by
            decide +kernel)
  rw [beq_iff_eq] at hordering
  refine ⟨composition, hprepare, ?_, ?_⟩
  · rw [hordering]
    decide
  · intro x y hx hy
    have hindex : PointShape.index? (.pair x y none) "x" = some x.index := by
      simp [PointShape.index?, PointShape.point?, PointShape.AxisEntry.point, hx]
    rw [hordering, Csv.columns_eq_flatMap]
    simp [hindex, List.lookup_cons]

end Composition

end ScanPath
