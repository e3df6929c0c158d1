import ScanPath.Decimal.Layout
import ScanPath.Decimal.Reading
import ScanPath.Proofs.Decimal.Shortest

/-!
# Written numbers and what they denote

What a layout writes is taken apart into the digits on both sides of the point
and the exponent.  Whether it is set out with an exponent or without, it is read
as the sign of the double and its shortest decimal.  So no layout writes two
finite doubles alike.
-/

namespace ScanPath.Decimal

theorem ofDigits_eq_ofDigitChars (digits : List Char) :
    ofDigits digits = Nat.ofDigitChars 10 digits 0 :=
  Nat.ofDigitChars_eq_foldl.symm

theorem ofDigits_append (first second : List Char) :
    ofDigits (first ++ second) = ofDigits first * 10 ^ second.length + ofDigits second := by
  simp only [ofDigits_eq_ofDigitChars, Nat.ofDigitChars_append]
  rw [Nat.ofDigitChars_eq_ofDigitChars_zero, Nat.mul_comm]

@[simp] theorem ofDigits_zeros (count : Nat) : ofDigits (List.replicate count '0') = 0 := by
  simp [ofDigits_eq_ofDigitChars, Nat.ofDigitChars_replicate_zero]

@[simp] theorem ofDigits_toDigits (n : Nat) : ofDigits (Nat.toDigits 10 n) = n := by
  rw [ofDigits_eq_ofDigitChars, Nat.ofDigitChars_ten_toDigits]

theorem isDigit_of_mem_toDigits {n : Nat} {c : Char} (h : c ∈ Nat.toDigits 10 n) :
    c.isDigit = true :=
  Nat.isDigit_of_mem_toDigits (by decide) (by decide) h

theorem span_append {p : Char → Bool} {word rest : List Char} (hword : ∀ c ∈ word, p c = true)
    (hrest : ∀ c, rest.head? = some c → p c = false) :
    (word ++ rest).takeWhile p = word ∧ (word ++ rest).dropWhile p = rest := by
  rw [List.takeWhile_append_of_pos hword, List.dropWhile_append_of_pos hword]
  cases rest with
  | nil => simp
  | cons c rest => simp [hrest c rfl]

/-- A number without its sign: the digits on both sides of the point, and the exponent if one is
written. -/
structure Written where
  whole : List Char
  fraction : List Char
  power : Option Int

namespace Written

def powerText : Option Int → List Char
  | none => []
  | some power => 'e' :: (if power < 0 then '-' else '+') :: Nat.toDigits 10 power.natAbs

def text (written : Written) : List Char :=
  written.whole ++ (if written.fraction.isEmpty then [] else '.' :: written.fraction) ++
    powerText written.power

def mantissa (written : Written) : Nat := ofDigits (written.whole ++ written.fraction)

def exponent (written : Written) : Int := written.power.getD 0 - written.fraction.length

def value (written : Written) : ℚ := written.mantissa * 10 ^ written.exponent

structure Sound (written : Written) : Prop where
  ne_nil : written.whole ≠ []
  isDigit : ∀ c ∈ written.whole ++ written.fraction, c.isDigit = true

theorem exponent?_powerText (power : Option Int) :
    exponent? (powerText power) = some (power.getD 0) := by
  cases power with
  | none => rfl
  | some power =>
      have hdigits : (Nat.toDigits 10 power.natAbs).all Char.isDigit = true :=
        List.all_eq_true.mpr fun c => isDigit_of_mem_toDigits
      have hne : (Nat.toDigits 10 power.natAbs).isEmpty = false :=
        List.isEmpty_eq_false_iff.mpr Nat.toDigits_ne_nil
      rcases lt_or_ge power 0 with hneg | hnonneg
      · simp [powerText, exponent?, hneg, hdigits, hne, abs_of_neg]
      · simp [powerText, exponent?, not_lt.mpr hnonneg, hdigits, hne, abs_of_nonneg hnonneg]

theorem head?_powerText {power : Option Int} {c : Char} (h : (powerText power).head? = some c) :
    c = 'e' := by
  cases power with
  | none => cases h
  | some power => exact (Option.some.inj h).symm

theorem unsigned?_text {written : Written} (h : written.Sound) :
    unsigned? written.text = some (written.mantissa, written.exponent) := by
  obtain ⟨whole, fraction, power⟩ := written
  obtain ⟨hne, hdigits⟩ := h
  simp only [List.forall_mem_append] at hne hdigits
  have hsome : whole.isEmpty = false := List.isEmpty_eq_false_iff.mpr hne
  have hpower : ∀ c, (powerText power).head? = some c → c.isDigit = false := by
    intro c hhead
    rw [head?_powerText hhead]
    rfl
  cases fraction with
  | nil =>
      obtain ⟨htake, hdrop⟩ := span_append hdigits.1 hpower
      have hexponent := exponent?_powerText power
      simp only [text, unsigned?, List.isEmpty_nil, if_true, List.append_nil, htake, hdrop, hsome]
      cases power <;> simp only [powerText] at hexponent ⊢ <;>
        simp [hexponent, mantissa, exponent]
  | cons c fraction =>
      have hpoint : ∀ d, ('.' :: (c :: fraction ++ powerText power)).head? = some d →
          d.isDigit = false := by
        rintro d ⟨⟩
        rfl
      obtain ⟨htake, hdrop⟩ := span_append hdigits.1 hpoint
      obtain ⟨htake', hdrop'⟩ := span_append hdigits.2 hpower
      simp only [List.cons_append] at htake hdrop htake' hdrop'
      simp [text, unsigned?, htake, hdrop, htake', hdrop', exponent?_powerText, mantissa, exponent]

theorem Sound.exists_cons {written : Written} (h : written.Sound) :
    ∃ c rest, written.text = c :: rest ∧ c.isDigit = true := by
  obtain ⟨c, whole, hwhole⟩ := List.exists_cons_of_ne_nil h.ne_nil
  refine ⟨c, _, by rw [text, hwhole, List.cons_append, List.cons_append], ?_⟩
  exact h.isDigit c (by simp [hwhole])

/-! ## Digits set out -/

def positional (point : Bool) (digits : List Char) (place : Int) : Written :=
  if place < 0 then ⟨['0'], List.replicate (-place - 1).toNat '0' ++ digits, none⟩
  else if digits.length ≤ place.toNat + 1 then
    ⟨digits ++ List.replicate (place.toNat + 1 - digits.length) '0', if point then ['0'] else [],
      none⟩
  else ⟨digits.take (place.toNat + 1), digits.drop (place.toNat + 1), none⟩

def scientific (digits : List Char) (place : Int) : Written :=
  ⟨digits.take 1, digits.drop 1, some place⟩

theorem fraction_positional_ne_nil {digits : List Char} (h : digits ≠ []) (place : Int) :
    (positional true digits place).fraction ≠ [] := by
  unfold positional
  split
  · simp [h]
  · split
    · simp
    next hlength => simpa using hlength

theorem toList_positionalText (point : Bool) {digits : List Char} (h : digits ≠ []) (place : Int) :
    (positionalText point digits place).toList = (positional point digits place).text := by
  rcases lt_or_ge place 0 with hplace | hplace
  · simp [positionalText, positional, text, powerText, zeros, hplace, h]
  · rcases le_or_gt digits.length (place.toNat + 1) with hlength | hlength
    · cases point <;>
        simp [positionalText, positional, text, powerText, zeros, not_lt.mpr hplace, hlength]
    · simp [positionalText, positional, text, powerText, not_lt.mpr hplace, not_le.mpr hlength]

theorem toList_exponentText (digits : List Char) (place : Int) :
    (exponentText digits place).toList = (scientific digits place).text := by
  cases hfraction : (digits.drop 1).isEmpty <;> by_cases hplace : place < 0 <;>
    simp [exponentText, scientific, text, powerText, -List.drop_one, hfraction, hplace]

theorem positional_sound (point : Bool) {digits : List Char} (h : digits ≠ [])
    (hdigits : ∀ c ∈ digits, c.isDigit = true) (place : Int) :
    (positional point digits place).Sound := by
  have hzeros : ∀ count, ∀ c ∈ List.replicate count '0', c.isDigit = true := by
    intro count c hmem
    rw [List.eq_of_mem_replicate hmem]
    rfl
  unfold positional
  split
  · refine ⟨by simp, ?_⟩
    simp only [List.forall_mem_append, List.forall_mem_singleton]
    exact ⟨rfl, hzeros _, hdigits⟩
  · split
    · refine ⟨by simp [h], ?_⟩
      simp only [List.forall_mem_append]
      exact ⟨⟨hdigits, hzeros _⟩, by cases point <;> simp⟩
    · refine ⟨by simpa using h, ?_⟩
      simpa using hdigits

theorem scientific_sound {digits : List Char} (h : digits ≠ [])
    (hdigits : ∀ c ∈ digits, c.isDigit = true) (place : Int) :
    (scientific digits place).Sound := by
  refine ⟨by simpa [scientific] using h, ?_⟩
  simpa only [scientific, List.take_append_drop] using hdigits

theorem value_positional (point : Bool) (digits : List Char) (place : Int) :
    (positional point digits place).value =
      ofDigits digits * 10 ^ (place + 1 - digits.length) := by
  unfold positional
  split
  next hplace =>
    have hlead : ofDigits ('0' :: (List.replicate (-place - 1).toNat '0' ++ digits)) =
        ofDigits digits := by
      rw [← List.cons_append, ← List.replicate_succ, ofDigits_append, ofDigits_zeros]
      omega
    simp only [value, mantissa, exponent, List.singleton_append, hlead]
    congr 2
    simp
    omega
  next hplace =>
    split
    next hlength =>
      have hplaces : place + 1 - digits.length = (place.toNat + 1 - digits.length : Nat) := by omega
      rw [hplaces]
      cases point with
      | false => simp [value, mantissa, exponent, ofDigits_append]
      | true =>
          have hzero : ofDigits ['0'] = 0 := rfl
          simp [value, mantissa, exponent, ofDigits_append, hzero]
          field_simp
          ring
    next hlength =>
      simp only [value, mantissa, exponent, List.take_append_drop]
      congr 2
      simp
      omega

theorem value_scientific {digits : List Char} (h : digits ≠ []) (place : Int) :
    (scientific digits place).value = ofDigits digits * 10 ^ (place + 1 - digits.length) := by
  have hlength := List.length_pos_iff.mpr h
  simp only [value, mantissa, exponent, scientific, List.take_append_drop]
  congr 2
  simp
  omega

end Written

/-! ## Layouts -/

def Layout.written (layout : Layout) (decimal : Digits) : Written :=
  let digits := Nat.toDigits 10 decimal.digits
  let place := decimal.exponent + digits.length - 1
  if layout.positional place then .positional layout.point digits place
  else .scientific digits place

theorem Layout.written_sound (layout : Layout) (decimal : Digits) :
    (layout.written decimal).Sound := by
  simp only [written]
  split
  · exact Written.positional_sound _ Nat.toDigits_ne_nil (fun _ => isDigit_of_mem_toDigits) _
  · exact Written.scientific_sound Nat.toDigits_ne_nil (fun _ => isDigit_of_mem_toDigits) _

theorem Layout.value_written (layout : Layout) (decimal : Digits) :
    (layout.written decimal).value = decimal.value := by
  simp only [written]
  split
  · simp [Written.value_positional, Digits.value]
  · simp [Written.value_scientific Nat.toDigits_ne_nil, Digits.value]

theorem Layout.toList_text (layout : Layout) {x : Float} {value : Binary}
    (h : magnitude? x = some value) :
    (layout.text x).toList = (if isNegative x then ['-'] else []) ++
      (layout.written (shortest layout.tie value)).text := by
  rw [text, h]
  simp only [written, String.toList_append]
  congr 1
  · split <;> rfl
  · split
    · exact Written.toList_positionalText _ Nat.toDigits_ne_nil _
    · exact Written.toList_exponentText _ _

def Numeral.size (numeral : Numeral) : ℚ := numeral.mantissa * 10 ^ numeral.exponent

/-- What a layout writes for a finite double is read as the double's sign and its shortest
decimal. -/
theorem Layout.numeral?_text (layout : Layout) {x : Float} {value : Binary}
    (h : magnitude? x = some value) :
    ∃ numeral, numeral? (layout.text x) = some numeral ∧ numeral.negative = isNegative x ∧
      numeral.size = (shortest layout.tie value).value := by
  have hvalue := layout.value_written (shortest layout.tie value)
  have hsound := layout.written_sound (shortest layout.tie value)
  rw [numeral?, layout.toList_text h]
  generalize layout.written (shortest layout.tie value) = written at hvalue hsound ⊢
  refine ⟨⟨isNegative x, written.mantissa, written.exponent⟩, ?_, rfl, hvalue⟩
  have hread := Written.unsigned?_text hsound
  cases isNegative x with
  | true => simp [hread]
  | false =>
      -- no sign is taken off: the text begins with a digit
      obtain ⟨c, rest, htext, hdigit⟩ := hsound.exists_cons
      have hminus : c ≠ '-' := by
        rintro rfl
        cases hdigit
      have hplus : c ≠ '+' := by
        rintro rfl
        cases hdigit
      rw [htext] at hread
      simp [htext, hread, hminus, hplus]

theorem Layout.eq_of_text_eq (layout : Layout) {x y : Float} (hx : x.isFinite = true)
    (hy : y.isFinite = true) (h : layout.text x = layout.text y) : x = y := by
  obtain ⟨first, hfirst⟩ := exists_magnitude?_of_isFinite hx
  obtain ⟨second, hsecond⟩ := exists_magnitude?_of_isFinite hy
  obtain ⟨numeral, hnumeral, hsign, hsize⟩ := layout.numeral?_text hfirst
  obtain ⟨numeral', hnumeral', hsign', hsize'⟩ := layout.numeral?_text hsecond
  rw [h, hnumeral'] at hnumeral
  obtain rfl := Option.some.inj hnumeral
  obtain rfl := eq_of_value_shortest_eq (sound_of_magnitude? hfirst) (sound_of_magnitude? hsecond)
    (hsize.symm.trans hsize')
  exact eq_of_magnitude?_eq hfirst hsecond (hsign.symm.trans hsign')

end ScanPath.Decimal
