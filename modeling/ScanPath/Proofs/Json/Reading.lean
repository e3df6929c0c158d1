import ScanPath.Proofs.Json.Unambiguous

/-!
# Texts read back

A text is read off the front of whatever is written behind it.  A string and an
array or an object end at what closes them, and a number ends because nothing
that is written behind a value continues it.  What is read is the value in
canonical order.  The length of the text is enough fuel, since each step of the
reader takes at least one character.
-/

namespace ScanPath.Json

/-! ## Strings -/

theorem length_le_escapeAll (text : List Char) : text.length ≤ (escapeAll text).length := by
  induction text with
  | nil => simp
  | cons c text ih =>
      have hne : (escape c).toList ≠ [] := by
        intro hnil
        have hread := readString_escape c 1 [] ['"']
        rw [hnil] at hread
        simp [readString] at hread
      have hpos := List.length_pos_iff.mpr hne
      rw [escapeAll, List.flatMap_cons, List.length_append, ← escapeAll, List.length_cons]
      omega

theorem readString_quoted {text : String} {fuel : Nat}
    (h : (quote text).toList.length ≤ fuel + 1) (rest : List Char) :
    readString fuel [] (escapeAll text.toList ++ '"' :: rest) = some (text, rest) := by
  have hlength := length_le_escapeAll text.toList
  rw [toList_quote, List.length_cons, List.length_append, List.length_singleton] at h
  obtain ⟨spare, rfl⟩ : ∃ spare, fuel = text.toList.length + spare + 1 :=
    ⟨fuel - text.toList.length - 1, by omega⟩
  rw [readString_escapeAll, List.reverse_nil, List.nil_append, String.ofList_toList]

/-! ## Numbers -/

theorem toList_natText (n : Nat) : (toString n).toList = Nat.toDigits 10 n := by
  rw [Nat.toString_eq_ofList_toDigits, String.toList_ofList]

theorem all_isDigit_toDigits (n : Nat) : (Nat.toDigits 10 n).all Char.isDigit = true :=
  List.all_eq_true.mpr fun _ hmem => Decimal.isDigit_of_mem_toDigits hmem

theorem number?_natText {n : Nat} (h : n < 2 ^ 64) : number? (toString n) = some (.int n) := by
  have hmark : ¬ (toString n).toList.any isFractionMark = true := by
    rw [(isNumber_natText n).any_mark]
    exact Bool.false_ne_true
  have hall := all_isDigit_toDigits n
  have hsize := Decimal.ofDigits_toDigits n
  have hbound : n < Nat.pow 2 64 := h
  obtain ⟨c, digits, hdigits⟩ := List.exists_cons_of_ne_nil (Nat.toDigits_ne_nil (n := n))
  rw [hdigits] at hall hsize
  -- a digit is no sign
  have hc : c ≠ '-' := by
    rintro rfl
    cases hall
  rw [number?]
  refine (if_neg hmark).trans ?_
  rw [toList_natText, hdigits]
  split
  next heq =>
    split at heq
    next hcons => exact absurd (List.cons.inj hcons).1 hc
    next =>
      obtain ⟨rfl, rfl⟩ := Prod.mk.inj heq
      simp [hall, hsize, hbound]

theorem number?_negative {n : Nat} (hpos : 0 < n) (h : n ≤ 2 ^ 63) :
    number? ("-" ++ toString n) = some (.int (-n)) := by
  have hmark : ¬ ("-" ++ toString n).toList.any isFractionMark = true := by
    rw [String.toList_append, List.any_append, (isNumber_natText n).any_mark]
    exact Bool.false_ne_true
  have hbound : n ≤ Nat.pow 2 63 := h
  rw [number?]
  refine (if_neg hmark).trans ?_
  rw [String.toList_append, toList_natText]
  simp [hpos.ne', hbound, all_isDigit_toDigits, Nat.toDigits_ne_nil]

theorem number?_intText {n : Int} (hlow : -2 ^ 63 ≤ n) (hhigh : n < 2 ^ 64) :
    number? (toString n) = some (.int n) := by
  rw [intText_eq]
  split
  next hnonneg =>
    rw [number?_natText (by omega), Int.toNat_of_nonneg hnonneg]
  next hneg =>
    rw [number?_negative (by omega) (by omega), Int.toNat_of_nonneg (by omega), Int.neg_neg]

/-- Integers of 64 bits are the only numbers. -/
def Whole : Json → Prop
  | .int value => -2 ^ 63 ≤ value ∧ value < 2 ^ 64
  | .float _ => False
  | _ => True

/-! ## Values -/

theorem skipSpace_of_sortFrom? {c : Char} {kind : String} (h : sortFrom? c = some kind)
    (rest : List Char) : skipSpace (c :: rest) = c :: rest := by
  unfold skipSpace
  split
  all_goals first
    | rfl
    | next heq =>
        rw [(List.cons.inj heq).1] at h
        cases h

theorem readValue_word {word : String} {float : Bool} (hword : IsNumber word.toList float)
    {value : Json} (hvalue : number? word = some value) {rest : List Char} (hrest : Ended rest)
    (fuel : Nat) : readValue (fuel + 1) (word.toList ++ rest) = some (value, rest) := by
  obtain ⟨htake, hdrop⟩ := Decimal.span_append hword.chars hrest
  obtain ⟨c, chars, hchars, hc⟩ := hword.exists_cons
  have hskip := skipSpace_of_sortFrom? hc (chars ++ rest)
  rw [hchars, List.cons_append] at htake hdrop ⊢
  rw [readValue, hskip]
  split
  -- a number begins as no other value does
  all_goals first
    | next heq => exact absurd ((List.cons.inj heq).1 ▸ hc) (by decide)
    | skip
  rw [htake, hdrop, ← hchars, String.ofList_toList, hvalue, Option.map_some]

theorem readValue_array {c : Char} {kind : String} (hc : sortFrom? c = some kind) {fuel : Nat}
    {chars rest : List Char} {items : List Json}
    (h : readItems fuel (c :: chars) = some (items, rest)) :
    readValue (fuel + 1) ('[' :: c :: chars) = some (.array items, rest) := by
  have hskip := skipSpace_of_sortFrom? hc chars
  have hopen : skipSpace ('[' :: c :: chars) = '[' :: c :: chars := rfl
  have hne : c ≠ ']' := by
    rintro rfl
    cases hc
  rw [readValue, hopen]
  simp [hskip, hne, h]

theorem readValue_object {fuel : Nat} {chars rest : List Char} {fields : List (String × Json)}
    (h : readFields fuel ('"' :: chars) = some (fields, rest)) :
    readValue (fuel + 1) ('\x7b' :: '"' :: chars) =
      some (.object (orderedFields fields), rest) := by
  change (readFields fuel ('"' :: chars)).map _ = _
  rw [h]
  rfl

theorem readItems_last {fuel : Nat} {input rest : List Char} {item : Json}
    (h : readValue fuel input = some (item, ']' :: rest)) :
    readItems (fuel + 1) input = some ([item], rest) := by
  simp [readItems, h, skipSpace]

theorem readItems_cons {fuel : Nat} {input between rest : List Char} {item : Json}
    {items : List Json} (hitem : readValue fuel input = some (item, ',' :: between))
    (hitems : readItems fuel between = some (items, rest)) :
    readItems (fuel + 1) input = some (item :: items, rest) := by
  simp [readItems, hitem, hitems, skipSpace]

theorem readFields_last {fuel : Nat} {input behind rest : List Char} {name : String} {value : Json}
    (hname : readString fuel [] input = some (name, ':' :: behind))
    (hvalue : readValue fuel behind = some (value, '\x7d' :: rest)) :
    readFields (fuel + 1) ('"' :: input) = some ([(name, value)], rest) := by
  simp [readFields, hname, hvalue, skipSpace]

theorem readFields_cons {fuel : Nat} {input behind between rest : List Char} {name : String}
    {value : Json} {fields : List (String × Json)}
    (hname : readString fuel [] input = some (name, ':' :: behind))
    (hvalue : readValue fuel behind = some (value, ',' :: between))
    (hfields : readFields fuel between = some (fields, rest)) :
    readFields (fuel + 1) ('"' :: input) = some ((name, value) :: fields, rest) := by
  simp [readFields, hname, hvalue, hfields, skipSpace]

theorem finite_of_whole {json : Json} (h : json.Everywhere Whole) :
    ∀ x, json = .float x → x.isFinite = true := by
  rintro x rfl
  cases h

theorem toList_text_array (items : List Json) :
    (Json.array items).text.toList = '[' :: ((itemsText items).toList ++ [']']) := by
  rw [text, String.toList_append, String.toList_append]
  rfl

theorem toList_text_object (fields : List (String × Json)) :
    (Json.object fields).text.toList = '\x7b' :: ((fieldsText fields).toList ++ ['\x7d']) := by
  rw [text, String.toList_append, String.toList_append]
  rfl

theorem toList_fieldsText_cons (name : String) (value : Json) (fields : List (String × Json)) :
    (fieldsText ((name, value) :: fields)).toList = '"' :: (escapeAll name.toList ++ '"' :: ':' ::
      (value.text.toList ++ (following fieldsText fields).toList)) := by
  simp [fieldsText_cons, toList_quote]

theorem toList_following_cons {α : Type} (written : List α → String) (part : α) (parts : List α) :
    (following written (part :: parts)).toList = ',' :: (written (part :: parts)).toList := by
  rw [following, String.toList_append]
  rfl

theorem lengths_of_fieldsText {name : String} {value : Json} {fields : List (String × Json)}
    {fuel : Nat} (h : (fieldsText ((name, value) :: fields)).toList.length ≤ fuel) :
    (quote name).toList.length ≤ fuel + 1 ∧ value.text.toList.length ≤ fuel := by
  rw [toList_fieldsText_cons] at h
  rw [toList_quote]
  simp only [List.length_append, List.length_cons, List.length_nil] at h ⊢
  omega

theorem length_text_pos {json : Json} (h : json.Everywhere Whole) :
    0 < json.text.toList.length := by
  obtain ⟨c, chars, htext, -⟩ := text_eq_cons json (finite_of_whole h)
  rw [htext]
  exact Nat.succ_pos _

mutual

/-- A value without floats is read off the front of its text, in canonical order. -/
theorem readValue_text : (json : Json) → json.Everywhere Whole →
    ∀ {fuel : Nat}, json.text.toList.length ≤ fuel + 1 → ∀ {rest : List Char}, Ended rest →
    readValue (fuel + 1) (json.text.toList ++ rest) = some (json.canonical, rest)
  | .null => fun _ _ _ _ _ => rfl
  | .bool true => fun _ _ _ _ _ => rfl
  | .bool false => fun _ _ _ _ _ => rfl
  | .int value => fun h fuel _ _ hrest =>
      readValue_word (isNumber_intText value) (number?_intText h.1 h.2) hrest fuel
  | .float _ => fun h => False.elim h
  | .string value => by
      intro _ fuel hfuel rest _
      rw [text, toList_quote, List.cons_append, List.append_assoc]
      change (readString fuel [] (escapeAll value.toList ++ '"' :: rest)).map _ = _
      rw [readString_quoted hfuel]
      rfl
  | .array [] => fun _ _ _ _ _ => rfl
  | .array (item :: items) => by
      intro h fuel hfuel rest _
      rw [toList_text_array, List.length_cons, List.length_append, List.length_singleton] at hfuel
      obtain ⟨fuel, rfl⟩ : ∃ less, fuel = less + 1 := ⟨fuel - 1, by omega⟩
      have hlength : (itemsText (item :: items)).toList.length ≤ fuel := by omega
      have hitems := readItems_text (item :: items) (List.cons_ne_nil _ _) h.2 hlength rest
      obtain ⟨c, chars, htext, hc⟩ := text_eq_cons item (finite_of_whole h.2.1)
      rw [toList_text_array, List.cons_append, List.append_assoc, List.singleton_append]
      rw [itemsText_cons, String.toList_append, htext, List.cons_append, List.cons_append]
        at hitems ⊢
      exact readValue_array hc hitems
  | .object [] => fun _ _ _ _ _ => rfl
  | .object ((name, value) :: fields) => by
      intro h fuel hfuel rest _
      rw [toList_text_object, List.length_cons, List.length_append, List.length_singleton] at hfuel
      obtain ⟨fuel, rfl⟩ : ∃ less, fuel = less + 1 := ⟨fuel - 1, by omega⟩
      have hlength : (fieldsText ((name, value) :: fields)).toList.length ≤ fuel := by omega
      have hfields :=
        readFields_text ((name, value) :: fields) (List.cons_ne_nil _ _) h.2 hlength rest
      rw [toList_text_object, List.cons_append, List.append_assoc, List.singleton_append]
      rw [toList_fieldsText_cons, List.cons_append] at hfields ⊢
      exact readValue_object hfields

theorem readItems_text : (items : List Json) → items ≠ [] → EverywhereItems Whole items →
    ∀ {fuel : Nat}, (itemsText items).toList.length ≤ fuel → ∀ rest : List Char,
    readItems (fuel + 1) ((itemsText items).toList ++ ']' :: rest) =
      some (canonicalItems items, rest)
  | [], hne => absurd rfl hne
  | [item], _ => by
      intro h fuel hfuel rest
      have hpos := Nat.lt_of_lt_of_le (length_text_pos h.1) hfuel
      obtain ⟨fuel, rfl⟩ := Nat.exists_eq_add_one.mpr hpos
      exact readItems_last (readValue_text item h.1 hfuel (ended_cons rfl rest))
  | item :: other :: items, _ => by
      intro h fuel hfuel rest
      rw [itemsText_cons, String.toList_append, toList_following_cons] at hfuel ⊢
      rw [List.length_append, List.length_cons] at hfuel
      obtain ⟨fuel, rfl⟩ : ∃ less, fuel = less + 1 := ⟨fuel - 1, by omega⟩
      have hitem : item.text.toList.length ≤ fuel + 1 := by omega
      have hitems : (itemsText (other :: items)).toList.length ≤ fuel := by omega
      rw [List.append_assoc, List.cons_append]
      exact readItems_cons (readValue_text item h.1 hitem (ended_cons rfl _))
        (readItems_text (other :: items) (List.cons_ne_nil _ _) h.2 hitems rest)

theorem readFields_text : (fields : List (String × Json)) → fields ≠ [] →
    EverywhereFields Whole fields →
    ∀ {fuel : Nat}, (fieldsText fields).toList.length ≤ fuel → ∀ rest : List Char,
    readFields (fuel + 1) ((fieldsText fields).toList ++ '\x7d' :: rest) =
      some (canonicalFields fields, rest)
  | [], hne => absurd rfl hne
  | [(name, value)], _ => by
      intro h fuel hfuel rest
      obtain ⟨hname, hvalue⟩ := lengths_of_fieldsText hfuel
      have hpos := Nat.lt_of_lt_of_le (length_text_pos h.1) hvalue
      obtain ⟨fuel, rfl⟩ := Nat.exists_eq_add_one.mpr hpos
      rw [toList_fieldsText_cons, following, List.cons_append, List.append_assoc]
      simp only [List.cons_append, List.append_assoc]
      exact readFields_last (readString_quoted hname _)
        (readValue_text value h.1 hvalue (ended_cons rfl _))
  | (name, value) :: (other, second) :: fields, _ => by
      intro h fuel hfuel rest
      obtain ⟨hname, hvalue⟩ := lengths_of_fieldsText hfuel
      rw [toList_fieldsText_cons, toList_following_cons] at hfuel ⊢
      simp only [List.length_append, List.length_cons] at hfuel
      obtain ⟨fuel, rfl⟩ : ∃ less, fuel = less + 1 := ⟨fuel - 1, by omega⟩
      have hfields : (fieldsText ((other, second) :: fields)).toList.length ≤ fuel := by omega
      simp only [List.append_assoc, List.cons_append]
      exact readFields_cons (readString_quoted hname _)
        (readValue_text value h.1 hvalue (ended_cons rfl _))
        (readFields_text ((other, second) :: fields) (List.cons_ne_nil _ _) h.2 hfields rest)

end

mutual

theorem everywhere_canonical {p : Json → Prop} (harray : ∀ items, p (.array items))
    (hobject : ∀ fields, p (.object fields)) :
    (json : Json) → json.Everywhere p → json.canonical.Everywhere p
  | .null, h | .bool _, h | .int _, h | .float _, h | .string _, h => h
  | .array items, h => ⟨harray _, everywhereItems_canonicalItems harray hobject items h.2⟩
  | .object fields, h => by
      have hfields := everywhereFields_canonicalFields harray hobject fields h.2
      rw [everywhereFields_iff] at hfields
      refine ⟨hobject _, everywhereFields_iff.mpr ?_⟩
      intro field hmem
      exact hfields field (Keyed.mem_of_mem_ofList hmem)

theorem everywhereItems_canonicalItems {p : Json → Prop} (harray : ∀ items, p (.array items))
    (hobject : ∀ fields, p (.object fields)) :
    (items : List Json) → EverywhereItems p items → EverywhereItems p (canonicalItems items)
  | [], _ => trivial
  | item :: items, h => ⟨everywhere_canonical harray hobject item h.1,
      everywhereItems_canonicalItems harray hobject items h.2⟩

theorem everywhereFields_canonicalFields {p : Json → Prop} (harray : ∀ items, p (.array items))
    (hobject : ∀ fields, p (.object fields)) :
    (fields : List (String × Json)) → EverywhereFields p fields →
    EverywhereFields p (canonicalFields fields)
  | [], _ => trivial
  | (_, value) :: fields, h => ⟨everywhere_canonical harray hobject value h.1,
      everywhereFields_canonicalFields harray hobject fields h.2⟩

end

end ScanPath.Json
