import ScanPath.Json.Reader
import ScanPath.Proofs.Decimal.Layout
import ScanPath.Proofs.Json.Sameness

/-!
# One value for each text

A text is taken apart from the left.  Its first character tells the sort of the
value; a string ends where the reader of strings stops, a number where its
characters end, and an array or an object at the bracket that closes it.  So a
text, whatever stands behind it, comes from one value only.
-/

namespace ScanPath

theorem toList_foldl_append (write : Char → String) (chars : List Char) (written : String) :
    (chars.foldl (fun written c => written ++ write c) written).toList =
      written.toList ++ chars.flatMap fun c => (write c).toList := by
  induction chars generalizing written with
  | nil => simp
  | cons c chars ih =>
      rw [List.foldl_cons, ih]
      simp [List.append_assoc]

namespace Json

/-! ## Strings -/

def escapeAll (text : List Char) : List Char := text.flatMap fun c => (escape c).toList

theorem toList_quote (text : String) :
    (quote text).toList = '"' :: (escapeAll text.toList ++ ['"']) := by
  rw [quote, String.toList_append, toList_foldl_append]
  rfl

theorem readString_escape_control (fuel : Nat) (written rest : List Char) :
    ∀ n < 32, readString (fuel + 1) written ((escape (Char.ofNat n)).toList ++ rest) =
      readString fuel (Char.ofNat n :: written) rest := by
  intro n hn
  interval_cases n <;> rfl

theorem readString_escape (c : Char) (fuel : Nat) (written rest : List Char) :
    readString (fuel + 1) written ((escape c).toList ++ rest) =
      readString fuel (c :: written) rest := by
  rcases Nat.lt_or_ge c.toNat 32 with hcontrol | hprinted
  · rw [← Char.ofNat_toNat c]
    exact readString_escape_control fuel written rest c.toNat hcontrol
  · by_cases hquote : c = '"'
    · subst hquote
      rfl
    · by_cases hslash : c = '\\'
      · subst hslash
        rfl
      · have hne : ∀ n < 32, c.toNat ≠ n := fun n hn => Nat.ne_of_gt (Nat.lt_of_lt_of_le hn hprinted)
        have hplain : (escape c).toList = [c] := by
          simp [escape, hquote, hslash, hne, Nat.not_lt.mpr hprinted]
        simp [hplain, readString, hslash, hprinted]

theorem readString_escapeAll (text : List Char) (spare : Nat) (written rest : List Char) :
    readString (text.length + spare + 1) written (escapeAll text ++ '"' :: rest) =
      some (String.ofList (written.reverse ++ text), rest) := by
  induction text generalizing written with
  | nil => simp [escapeAll, readString]
  | cons c text ih =>
      have hfuel : (c :: text).length + spare + 1 = (text.length + spare + 1) + 1 := by
        simp only [List.length_cons]
        omega
      rw [hfuel, escapeAll, List.flatMap_cons, List.append_assoc, readString_escape, ← escapeAll,
        ih]
      simp

theorem readString_quote (text : String) (spare : Nat) (rest : List Char) :
    readString (text.toList.length + spare + 1) [] (((quote text).toList ++ rest).tail) =
      some (text, rest) := by
  simp [toList_quote, readString_escapeAll]

/-! ## Numbers -/

theorem isNumberChar_of_isDigit {c : Char} (h : c.isDigit = true) : isNumberChar c = true := by
  simp [isNumberChar, h]

theorem isNumberChar_of_mem_written {written : Decimal.Written} (h : written.Sound) {c : Char}
    (hmem : c ∈ written.text) : isNumberChar c = true := by
  have hdigits := h.isDigit
  simp only [List.forall_mem_append] at hdigits
  simp only [Decimal.Written.text, List.mem_append] at hmem
  rcases hmem with (hmem | hmem) | hmem
  · exact isNumberChar_of_isDigit (hdigits.1 c hmem)
  · split at hmem
    · cases hmem
    · rcases List.mem_cons.mp hmem with rfl | hmem
      · rfl
      · exact isNumberChar_of_isDigit (hdigits.2 c hmem)
  · cases hpower : written.power with
    | none => simp [hpower, Decimal.Written.powerText] at hmem
    | some power =>
        simp only [hpower, Decimal.Written.powerText, List.mem_cons] at hmem
        rcases hmem with rfl | hmem | hmem
        · rfl
        · rw [hmem]
          split <;> rfl
        · exact isNumberChar_of_isDigit (Decimal.isDigit_of_mem_toDigits hmem)

def isFractionMark (c : Char) : Bool := c == '.' || c == 'e' || c == 'E'

theorem exists_fractionMark_written (decimal : Decimal.Digits) :
    ∃ c ∈ (Decimal.canonical.written decimal).text, isFractionMark c = true := by
  simp only [Decimal.Layout.written]
  split
  · refine ⟨'.', ?_, rfl⟩
    simp [Decimal.canonical, Decimal.Written.text,
      Decimal.Written.fraction_positional_ne_nil Nat.toDigits_ne_nil]
  · refine ⟨'e', ?_, rfl⟩
    simp [Decimal.Written.text, Decimal.Written.scientific, Decimal.Written.powerText]

theorem toList_floatText {x : Float} (h : x.isFinite = true) :
    ∃ decimal, (floatText x).toList =
      (if Decimal.isNegative x then ['-'] else []) ++ (Decimal.canonical.written decimal).text := by
  obtain ⟨value, hvalue⟩ := Decimal.exists_magnitude?_of_isFinite h
  exact ⟨_, by rw [floatText, if_pos h, Decimal.canonical.toList_text hvalue]⟩

/-- A word of a number, and whether the number is a float. -/
structure IsNumber (word : List Char) (float : Bool) : Prop where
  ne_nil : word ≠ []
  chars : ∀ c ∈ word, isNumberChar c = true
  any_mark : word.any isFractionMark = float

theorem isNumber_floatText {x : Float} (h : x.isFinite = true) :
    IsNumber (floatText x).toList true := by
  obtain ⟨decimal, htext⟩ := toList_floatText h
  obtain ⟨c, hmem, hmark⟩ := exists_fractionMark_written decimal
  have hmem' : c ∈ (floatText x).toList := by
    rw [htext]
    exact List.mem_append_right _ hmem
  refine ⟨List.ne_nil_of_mem hmem', ?_, List.any_eq_true.mpr ⟨c, hmem', hmark⟩⟩
  rw [htext]
  simp only [List.forall_mem_append]
  refine ⟨?_, fun c => isNumberChar_of_mem_written (Decimal.canonical.written_sound decimal)⟩
  split <;> simp [isNumberChar]

theorem isNumber_natText (n : Nat) : IsNumber (toString n).toList false := by
  rw [Nat.toString_eq_ofList_toDigits, String.toList_ofList]
  refine ⟨Nat.toDigits_ne_nil, ?_, ?_⟩
  · exact fun c hmem => isNumberChar_of_isDigit (Decimal.isDigit_of_mem_toDigits hmem)
  · rw [List.any_eq_false]
    intro c hmem hmark
    have hdigit := Decimal.isDigit_of_mem_toDigits hmem
    simp only [isFractionMark, Bool.or_eq_true, beq_iff_eq] at hmark
    rcases hmark with (rfl | rfl) | rfl <;> cases hdigit

theorem intText_eq (n : Int) :
    toString n = if 0 ≤ n then toString n.toNat else "-" ++ toString (-n).toNat :=
  Int.repr_eq_if

theorem isNumber_intText (n : Int) : IsNumber (toString n).toList false := by
  rw [intText_eq]
  split
  · exact isNumber_natText _
  · obtain ⟨hne, hchars, hmark⟩ := isNumber_natText (-n).toNat
    rw [String.toList_append]
    exact ⟨by simp, by simpa [isNumberChar] using hchars,
      by simpa [isFractionMark] using hmark⟩

theorem floatText_inj {x y : Float} (hx : x.isFinite = true) (hy : y.isFinite = true)
    (h : floatText x = floatText y) : x = y := by
  rw [floatText, floatText, if_pos hx, if_pos hy] at h
  exact Decimal.canonical.eq_of_text_eq hx hy h

theorem floatText_ne_toString {x : Float} (h : x.isFinite = true) (n : Int) :
    floatText x ≠ toString n := by
  intro heq
  have hmark := (isNumber_floatText h).any_mark
  rw [heq, (isNumber_intText n).any_mark] at hmark
  cases hmark

/-- Nothing that is written behind a value continues a number. -/
def Ended (rest : List Char) : Prop := ∀ c, rest.head? = some c → isNumberChar c = false

theorem IsNumber.append_inj {word other u v : List Char} {float float' : Bool}
    (hword : IsNumber word float) (hother : IsNumber other float') (hu : Ended u) (hv : Ended v)
    (h : word ++ u = other ++ v) : word = other ∧ u = v := by
  obtain ⟨htake, hdrop⟩ := Decimal.span_append hword.chars hu
  obtain ⟨htake', hdrop'⟩ := Decimal.span_append hother.chars hv
  rw [h] at htake hdrop
  exact ⟨htake.symm.trans htake', hdrop.symm.trans hdrop'⟩

mutual

def Everywhere (p : Json → Prop) : Json → Prop
  | .array items => p (.array items) ∧ EverywhereItems p items
  | .object fields => p (.object fields) ∧ EverywhereFields p fields
  | .null => p .null
  | .bool value => p (.bool value)
  | .int value => p (.int value)
  | .float value => p (.float value)
  | .string value => p (.string value)

def EverywhereItems (p : Json → Prop) : List Json → Prop
  | [] => True
  | item :: items => Everywhere p item ∧ EverywhereItems p items

def EverywhereFields (p : Json → Prop) : List (String × Json) → Prop
  | [] => True
  | (_, value) :: fields => Everywhere p value ∧ EverywhereFields p fields

end

theorem everywhereItems_iff {p : Json → Prop} {items : List Json} :
    EverywhereItems p items ↔ ∀ item ∈ items, item.Everywhere p := by
  induction items with
  | nil => simp [EverywhereItems]
  | cons item items ih => rw [EverywhereItems, ih, List.forall_mem_cons]

theorem everywhereFields_iff {p : Json → Prop} {fields : List (String × Json)} :
    EverywhereFields p fields ↔ ∀ field ∈ fields, field.2.Everywhere p := by
  induction fields with
  | nil => simp [EverywhereFields]
  | cons field fields ih => rw [EverywhereFields, ih, List.forall_mem_cons]

/-- Floats are finite, and no two fields of an object have one name. -/
def Sound : Json → Prop
  | .float value => value.isFinite = true
  | .object fields => (fields.map Prod.fst).Nodup
  | _ => True

/-! ## Values -/

/-- The sort of the values that begin with a character; a bracket that closes begins none. -/
def sortFrom? (c : Char) : Option String :=
  if c = 'n' then some "null"
  else if c = 't' ∨ c = 'f' then some "bool"
  else if c = '"' then some "string"
  else if c = '[' then some "array"
  else if c = '\x7b' then some "object"
  else if isNumberChar c then some "number"
  else none

theorem IsNumber.exists_cons {word : List Char} {float : Bool} (h : IsNumber word float) :
    ∃ c rest, word = c :: rest ∧ sortFrom? c = some "number" := by
  obtain ⟨c, rest, rfl⟩ := List.exists_cons_of_ne_nil h.ne_nil
  have hc := h.chars c List.mem_cons_self
  have hne : ∀ d : Char, isNumberChar d = false → c ≠ d := by
    rintro d hd rfl
    rw [hc] at hd
    cases hd
  refine ⟨c, rest, rfl, ?_⟩
  simp [sortFrom?, hc, hne 'n' rfl, hne 't' rfl, hne 'f' rfl, hne '"' rfl, hne '[' rfl,
    hne '\x7b' rfl]

theorem finite_of_sound {json : Json} (h : json.Everywhere Sound) :
    ∀ x, json = .float x → x.isFinite = true := by
  rintro x rfl
  exact h

theorem text_eq_cons (json : Json) (h : ∀ x, json = .float x → x.isFinite = true) :
    ∃ c rest, json.text.toList = c :: rest ∧ sortFrom? c = some json.sort := by
  cases json with
  | null => exact ⟨'n', _, rfl, rfl⟩
  | bool value =>
      cases value
      · exact ⟨'f', _, rfl, rfl⟩
      · exact ⟨'t', _, rfl, rfl⟩
  | int value => exact (isNumber_intText value).exists_cons
  | float value => exact (isNumber_floatText (h value rfl)).exists_cons
  | string value => exact ⟨'"', _, toList_quote value, rfl⟩
  | array items =>
      exact ⟨'[', _, by rw [text, String.toList_append, String.toList_append]; rfl, rfl⟩
  | object fields =>
      exact ⟨'\x7b', _, by rw [text, String.toList_append, String.toList_append]; rfl, rfl⟩

theorem sort_eq_of_text_append {first second : Json} (hfirst : first.Everywhere Sound)
    (hsecond : second.Everywhere Sound) {u v : List Char}
    (h : first.text.toList ++ u = second.text.toList ++ v) : first.sort = second.sort := by
  obtain ⟨c, rest, htext, hsort⟩ := text_eq_cons first (finite_of_sound hfirst)
  obtain ⟨d, rest', htext', hsort'⟩ := text_eq_cons second (finite_of_sound hsecond)
  rw [htext, htext'] at h
  rw [(List.cons.inj h).1, hsort'] at hsort
  exact (Option.some.inj hsort).symm

theorem text_append_ne {json : Json} (h : json.Everywhere Sound) {c : Char}
    (hc : sortFrom? c = none) (u v : List Char) : json.text.toList ++ u ≠ c :: v := by
  intro heq
  obtain ⟨d, rest, htext, hsort⟩ := text_eq_cons json (finite_of_sound h)
  rw [htext] at heq
  rw [(List.cons.inj heq).1, hc] at hsort
  cases hsort

theorem quote_append_inj {first second : String} {u v : List Char}
    (h : (quote first).toList ++ u = (quote second).toList ++ v) : first = second ∧ u = v := by
  have hfirst := readString_quote first second.toList.length u
  have hsecond := readString_quote second first.toList.length v
  rw [Nat.add_comm second.toList.length, ← h, hfirst] at hsecond
  exact Prod.mk.inj (Option.some.inj hsecond)

theorem ended_nil : Ended [] := by
  rintro c ⟨⟩

theorem ended_cons {c : Char} (h : isNumberChar c = false) (rest : List Char) :
    Ended (c :: rest) := by
  rintro d ⟨⟩
  exact h

theorem ended_following (written : List α → String) (parts : List α) {c : Char}
    (h : isNumberChar c = false) (rest : List Char) :
    Ended ((following written parts).toList ++ c :: rest) := by
  cases parts with
  | nil => exact ended_cons h rest
  | cons part parts =>
      rw [following, String.toList_append]
      exact ended_cons rfl _

theorem number_append_inj {first second : Json} (hfirst : first.Everywhere Sound)
    (hsecond : second.Everywhere Sound) (hsort : first.sort = "number")
    (hsort' : second.sort = "number") {u v : List Char} (hu : Ended u) (hv : Ended v)
    (h : first.text.toList ++ u = second.text.toList ++ v) : first = second ∧ u = v := by
  cases first <;> simp [sort] at hsort <;> cases second <;> simp [sort] at hsort'
  case int.int m n =>
    obtain ⟨hword, hrest⟩ := (isNumber_intText m).append_inj (isNumber_intText n) hu hv h
    rw [Int.repr_injective (String.toList_inj.mp hword)]
    exact ⟨rfl, hrest⟩
  case int.float n x =>
    obtain ⟨hword, -⟩ := (isNumber_intText n).append_inj (isNumber_floatText hsecond) hu hv h
    exact absurd (String.toList_inj.mp hword).symm (floatText_ne_toString hsecond n)
  case float.int x n =>
    obtain ⟨hword, -⟩ := (isNumber_floatText hfirst).append_inj (isNumber_intText n) hu hv h
    exact absurd (String.toList_inj.mp hword) (floatText_ne_toString hfirst n)
  case float.float x y =>
    obtain ⟨hword, hrest⟩ :=
      (isNumber_floatText hfirst).append_inj (isNumber_floatText hsecond) hu hv h
    rw [floatText_inj hfirst hsecond (String.toList_inj.mp hword)]
    exact ⟨rfl, hrest⟩

mutual

/-- A text, and what stands behind it, come from one value only. -/
theorem text_append_inj : (first second : Json) → first.Everywhere Sound →
    second.Everywhere Sound → {u v : List Char} → Ended u → Ended v →
    first.text.toList ++ u = second.text.toList ++ v → first = second ∧ u = v
  | .null, second, hfirst, hsecond, _, _, _, _, h => by
      have hsort := sort_eq_of_text_append hfirst hsecond h
      cases second <;> simp [sort] at hsort
      exact ⟨rfl, List.append_cancel_left h⟩
  | .bool value, second, hfirst, hsecond, _, _, _, _, h => by
      have hsort := sort_eq_of_text_append hfirst hsecond h
      cases second <;> simp [sort] at hsort
      next other =>
        cases value <;> cases other <;> simp [text] at h ⊢
        · exact h
        · exact h
  | .int value, second, hfirst, hsecond, _, _, hu, hv, h =>
      number_append_inj hfirst hsecond rfl (sort_eq_of_text_append hfirst hsecond h).symm hu hv h
  | .float value, second, hfirst, hsecond, _, _, hu, hv, h =>
      number_append_inj hfirst hsecond rfl (sort_eq_of_text_append hfirst hsecond h).symm hu hv h
  | .string value, second, hfirst, hsecond, _, _, _, _, h => by
      have hsort := sort_eq_of_text_append hfirst hsecond h
      cases second <;> simp [sort] at hsort
      obtain ⟨rfl, hrest⟩ := quote_append_inj h
      exact ⟨rfl, hrest⟩
  | .array items, second, hfirst, hsecond, _, _, _, _, h => by
      have hsort := sort_eq_of_text_append hfirst hsecond h
      cases second <;> simp [sort] at hsort
      next others =>
        simp only [text, String.toList_append, List.append_assoc, List.append_cancel_left_eq] at h
        obtain ⟨rfl, hrest⟩ := itemsText_append_inj items others hfirst.2 hsecond.2 h
        exact ⟨rfl, hrest⟩
  | .object fields, second, hfirst, hsecond, _, _, _, _, h => by
      have hsort := sort_eq_of_text_append hfirst hsecond h
      cases second <;> simp [sort] at hsort
      next others =>
        simp only [text, String.toList_append, List.append_assoc, List.append_cancel_left_eq] at h
        obtain ⟨rfl, hrest⟩ := fieldsText_append_inj fields others hfirst.2 hsecond.2 h
        exact ⟨rfl, hrest⟩

theorem itemsText_append_inj : (items others : List Json) → EverywhereItems Sound items →
    EverywhereItems Sound others → {u v : List Char} →
    (itemsText items).toList ++ ']' :: u = (itemsText others).toList ++ ']' :: v →
    items = others ∧ u = v
  | [], [], _, _, _, _, h => ⟨rfl, (List.cons.inj h).2⟩
  | [], other :: others, _, hothers, _, _, h => by
      rw [itemsText_cons, String.toList_append, List.append_assoc] at h
      exact absurd h.symm (text_append_ne hothers.1 rfl _ _)
  | item :: items, [], hitems, _, _, _, h => by
      rw [itemsText_cons, String.toList_append, List.append_assoc] at h
      exact absurd h (text_append_ne hitems.1 rfl _ _)
  | item :: items, other :: others, hitems, hothers, u, v, h => by
      simp only [itemsText_cons, String.toList_append, List.append_assoc] at h
      -- named before `items` is split, so that the recursion is on `items` itself
      have hrest := @itemsText_append_inj items others hitems.2 hothers.2 u v
      obtain ⟨rfl, hbehind⟩ := text_append_inj item other hitems.1 hothers.1
        (ended_following itemsText items rfl u) (ended_following itemsText others rfl v) h
      cases items <;> cases others <;> simp [following] at hbehind
      · exact ⟨rfl, hbehind⟩
      · obtain ⟨heq, hend⟩ := hrest hbehind
        rw [heq]
        exact ⟨rfl, hend⟩

theorem fieldsText_append_inj : (fields others : List (String × Json)) →
    EverywhereFields Sound fields → EverywhereFields Sound others → {u v : List Char} →
    (fieldsText fields).toList ++ '\x7d' :: u = (fieldsText others).toList ++ '\x7d' :: v →
    fields = others ∧ u = v
  | [], [], _, _, _, _, h => ⟨rfl, (List.cons.inj h).2⟩
  | [], (name, value) :: others, _, _, _, _, h => by
      simp [fieldsText, fieldsText_cons, toList_quote] at h
  | (name, value) :: fields, [], _, _, _, _, h => by
      simp [fieldsText, fieldsText_cons, toList_quote] at h
  | (name, value) :: fields, (other, second) :: others, hfields, hothers, u, v, h => by
      simp only [fieldsText_cons, String.toList_append, List.append_assoc] at h
      have hrest := @fieldsText_append_inj fields others hfields.2 hothers.2 u v
      obtain ⟨rfl, hvalue⟩ := quote_append_inj h
      obtain ⟨rfl, hbehind⟩ := text_append_inj value second hfields.1 hothers.1
        (ended_following fieldsText fields rfl u) (ended_following fieldsText others rfl v)
        (List.append_cancel_left hvalue)
      cases fields <;> cases others <;> simp [following] at hbehind
      · exact ⟨rfl, hbehind⟩
      · obtain ⟨heq, hend⟩ := hrest hbehind
        rw [heq]
        exact ⟨rfl, hend⟩

end

theorem text_inj {first second : Json} (hfirst : first.Everywhere Sound)
    (hsecond : second.Everywhere Sound) (h : first.text = second.text) : first = second :=
  (text_append_inj first second hfirst hsecond ended_nil ended_nil
    (congrArg (·.toList ++ []) h)).1

end Json

end ScanPath
