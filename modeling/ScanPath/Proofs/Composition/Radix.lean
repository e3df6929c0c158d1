import Mathlib.Algebra.BigOperators.Group.List.Basic
import Mathlib.Algebra.Ring.Parity
import Mathlib.Data.Set.Function
import Mathlib.Logic.Function.Iterate
import ScanPath.Proofs.Composition.Odometer

/-!
# Counters in mixed radix

An odometer that is new and then advanced so many times shows the digits of that
number, each in the length of its wheel and the last one least, until the
settings are used up; then it is over and stays over.

A wheel that alternates runs backwards on the passes with an odd number.  That
number is the flat index of the counters before the wheel.  It is kept in a
word, and a word wraps around at an even number, so the parity is right however
large the index grows.  What is shown depends on the wheels before only through
this parity, hence no two settings are shown alike.
-/

namespace ScanPath.Odometer

theorem volume_pos_iff {wheels : List Wheel} :
    0 < volume wheels ↔ ∀ wheel ∈ wheels, 0 < wheel.length := by
  rw [Nat.pos_iff_ne_zero, ne_eq, volume_eq_zero_iff]
  simp [Nat.pos_iff_ne_zero]

theorem volume_take_mul_drop (wheels : List Wheel) (slot : Nat) :
    volume (wheels.take slot) * volume (wheels.drop slot) = volume wheels := by
  simp only [volume_eq_prod, List.map_take, List.map_drop, List.prod_take_mul_prod_drop]

theorem volume_drop {wheels : List Wheel} {slot : Nat} {wheel : Wheel}
    (h : wheels[slot]? = some wheel) :
    volume (wheels.drop slot) = wheel.length * volume (wheels.drop (slot + 1)) := by
  obtain ⟨hslot, rfl⟩ := List.getElem?_eq_some_iff.mp h
  rw [List.drop_eq_getElem_cons hslot, volume_cons]

theorem mod_volume_div_mod {wheels : List Wheel} {slot : Nat} {wheel : Wheel}
    (h : wheels[slot]? = some wheel) (number : Nat) :
    number % volume wheels / volume (wheels.drop (slot + 1)) % wheel.length =
      number / volume (wheels.drop (slot + 1)) % wheel.length := by
  have hsplit : volume wheels =
      volume (wheels.drop (slot + 1)) * (wheel.length * volume (wheels.take slot)) := by
    rw [← volume_take_mul_drop wheels slot, volume_drop h]
    ac_rfl
  rw [hsplit, Nat.mod_mul_right_div_self, Nat.mod_mul_right_mod]

theorem getElem?_digits {wheels : List Wheel} {number : Nat} (h : number < volume wheels)
    (slot : Nat) :
    (digits wheels number)[slot]? = wheels[slot]?.map fun wheel =>
      number / volume (wheels.drop (slot + 1)) % wheel.length := by
  induction wheels generalizing number slot with
  | nil => simp [digits]
  | cons wheel wheels ih =>
      rw [volume_cons] at h
      have hpos : 0 < volume wheels := Nat.pos_of_lt_mul_left h
      cases slot with
      | zero =>
          have hquotient : number / volume wheels < wheel.length :=
            (Nat.div_lt_iff_lt_mul hpos).mpr h
          simp [digits, Nat.mod_eq_of_lt hquotient]
      | succ slot =>
          simp only [digits, List.getElem?_cons_succ, List.drop_succ_cons,
            ih (Nat.mod_lt number hpos)]
          cases hwheel : wheels[slot]? with
          | none => rfl
          | some other => simp [mod_volume_div_mod hwheel]

theorem turned_eq_iterate (wheels : List Wheel) (count : Nat) :
    turned wheels count = advance^[count] (start wheels) := by
  induction count with
  | zero => rfl
  | succ count ih => rw [turned, ih, Function.iterate_succ_apply']

theorem current_iterate_of_none {odometer : Odometer} (h : odometer.current = none)
    (count : Nat) : (advance^[count] odometer).current = none := by
  induction count generalizing odometer with
  | zero => exact h
  | succ count ih =>
      rw [Function.iterate_succ_apply]
      exact ih (by simp [advance, h])

/-- The digit of a wheel is the number of steps divided by the product of the lengths after it and
reduced by its own length; the odometer is over when there is no such setting, and stays so. -/
theorem current_iterate_advance (wheels : List Wheel) (count : Nat) :
    (advance^[count] (start wheels)).current =
        (if wheels ≠ [] ∧ (∀ wheel ∈ wheels, 0 < wheel.length) ∧
            count < (wheels.map Wheel.length).prod then
          some (wheels.mapIdx fun slot wheel =>
            count / ((wheels.drop (slot + 1)).map Wheel.length).prod % wheel.length)
        else none) ∧
      ((advance^[count] (start wheels)).current = none →
        ∀ further, (advance^[further] (advance^[count] (start wheels))).current = none) := by
  refine ⟨?_, current_iterate_of_none⟩
  simp only [← volume_eq_prod]
  by_cases hwheels : wheels = []
  · subst hwheels
    have hover : (start []).current = none := rfl
    simpa using current_iterate_of_none hover count
  · rw [← turned_eq_iterate, current_turned hwheels]
    by_cases hcount : count < volume wheels
    · have hpos := volume_pos_iff.mp (Nat.zero_lt_of_lt hcount)
      rw [if_pos ⟨hwheels, hpos, hcount⟩, getElem?_settings hcount]
      congr 1
      apply List.ext_getElem?
      intro slot
      rw [getElem?_digits hcount, List.getElem?_mapIdx]
    · rw [if_neg fun h => hcount h.2.2]
      exact List.getElem?_eq_none (by rw [length_settings]; omega)

theorem current_iterate_advance_beyondWords :
    (advance^[2 ^ 64 + 5] (start [⟨2 ^ 63, false⟩, ⟨1, true⟩, ⟨4, true⟩])).current =
        some [2 ^ 62 + 1, 0, 1] ∧
      ∀ further, (advance^[further] (advance^[6]
        (start [⟨2, false⟩, ⟨1, true⟩, ⟨3, false⟩]))).current = none :=
  ⟨(current_iterate_advance _ _).1.trans (by decide),
    (current_iterate_advance _ _).2 (by decide)⟩

/-- The place of the counters in the order in which nested loops run through them. -/
def flatIndex : List Wheel → List Nat → Nat
  | _ :: wheels, counter :: counters => counter * volume wheels + flatIndex wheels counters
  | _, _ => 0

theorem flatIndex_digits {wheels : List Wheel} {number : Nat} (h : number < volume wheels) :
    flatIndex wheels (digits wheels number) = number := by
  induction wheels generalizing number with
  | nil =>
      rw [volume_nil] at h
      simp only [flatIndex]
      omega
  | cons wheel wheels ih =>
      rw [volume_cons] at h
      have hmod := Nat.mod_lt number (Nat.pos_of_lt_mul_left h)
      rw [digits, flatIndex, ih hmod, Nat.div_add_mod']

theorem getElem?_settings_flatIndex {wheels : List Wheel} {counters : List Nat}
    (h : counters ∈ settings wheels) :
    (settings wheels)[flatIndex wheels counters]? = some counters := by
  rw [settings_eq_map_digits] at h
  obtain ⟨number, hnumber, rfl⟩ := List.mem_map.mp h
  rw [List.mem_range] at hnumber
  rw [flatIndex_digits hnumber, getElem?_settings hnumber]

private theorem toUInt64_mul_add (outer length counter : Nat) :
    outer.toUInt64 * length.toUInt64 + counter.toUInt64 =
      (outer * length + counter).toUInt64 := by
  simp [Nat.toUInt64]

private theorem odd_toUInt64 (number : Nat) :
    (number.toUInt64 % 2 == 1) = decide (Odd number) := by
  rw [Bool.eq_iff_iff]
  simp [← UInt64.toNat_inj, Nat.odd_iff]

theorem getElem?_visitedFrom (outer : Nat) {wheels : List Wheel} {counters : List Nat}
    {slot counter : Nat} {wheel : Wheel} (hwheel : wheels[slot]? = some wheel)
    (hcounter : counters[slot]? = some counter) :
    (visitedFrom outer.toUInt64 wheels counters)[slot]? = some
      (if wheel.alternate = true ∧ Odd (outer * volume (wheels.take slot) +
          flatIndex (wheels.take slot) (counters.take slot)) then
        wheel.length - 1 - counter
      else counter) := by
  induction wheels generalizing outer counters slot with
  | nil => cases hwheel
  | cons first wheels ih =>
      cases counters with
      | nil => cases hcounter
      | cons head counters =>
          cases slot with
          | zero =>
              cases hwheel
              cases hcounter
              simp [visitedFrom, flatIndex, odd_toUInt64]
          | succ slot =>
              rw [List.getElem?_cons_succ] at hwheel hcounter
              rw [visitedFrom, toUInt64_mul_add, List.getElem?_cons_succ, ih _ hwheel hcounter]
              simp only [List.take_succ_cons, volume_cons, flatIndex, Nat.add_mul, Nat.mul_assoc,
                Nat.add_assoc]

/-- One counter for each wheel, less than its length. -/
def box (wheels : List Wheel) : Set (List Nat) :=
  {counters | List.Forall₂ (· < ·) counters (wheels.map Wheel.length)}

theorem mem_box_iff {wheels : List Wheel} {counters : List Nat} :
    counters ∈ box wheels ↔ counters ∈ settings wheels :=
  mem_settings_iff.symm

theorem visited_bijOn (wheels : List Wheel) :
    Set.BijOn (visited wheels) (box wheels) (box wheels) := by
  have hperm := map_visited_perm wheels
  refine ⟨?mapsTo, ?injOn, ?surjOn⟩
  case mapsTo =>
    intro counters hcounters
    rw [mem_box_iff] at hcounters ⊢
    exact hperm.subset (List.mem_map_of_mem hcounters)
  case injOn =>
    have hnodup := hperm.nodup_iff.mpr (settings_nodup wheels)
    intro first hfirst second hsecond
    rw [mem_box_iff] at hfirst hsecond
    exact List.inj_on_of_nodup_map hnodup hfirst hsecond
  case surjOn =>
    intro shown hshown
    rw [mem_box_iff] at hshown
    obtain ⟨counters, hcounters, heq⟩ := List.mem_map.mp (hperm.mem_iff.mpr hshown)
    exact ⟨counters, mem_box_iff.mpr hcounters, heq⟩

/-- A wheel other than the first is shown from its far end exactly when it alternates and the flat
index of the counters before it is odd; so shown, every setting comes up once. -/
theorem visited_oddPasses (wheels : List Wheel) :
    (∀ counters ∈ box wheels,
      visited wheels counters = (wheels.zip counters).mapIdx fun slot (wheel, counter) =>
        if 0 < slot ∧ wheel.alternate = true ∧
            Odd (flatIndex (wheels.take slot) (counters.take slot)) then
          wheel.length - 1 - counter
        else counter) ∧
      Set.BijOn (visited wheels) (box wheels) (box wheels) := by
  refine ⟨?_, visited_bijOn wheels⟩
  intro counters hcounters
  have hlength := List.Forall₂.length_eq hcounters
  have hshown := List.Forall₂.length_eq ((visited_bijOn wheels).mapsTo hcounters)
  rw [List.length_map] at hlength hshown
  apply List.ext_getElem?
  intro slot
  by_cases hslot : slot < wheels.length
  · obtain ⟨wheel, hwheel⟩ : ∃ wheel, wheels[slot]? = some wheel :=
      ⟨_, List.getElem?_eq_getElem hslot⟩
    obtain ⟨counter, hcounter⟩ : ∃ counter, counters[slot]? = some counter :=
      ⟨_, List.getElem?_eq_getElem (hlength ▸ hslot)⟩
    have hpair : (wheels.zip counters)[slot]? = some (wheel, counter) :=
      List.getElem?_zip_eq_some.mpr ⟨hwheel, hcounter⟩
    have hvisited := getElem?_visitedFrom 0 hwheel hcounter
    rw [Nat.zero_mul, Nat.zero_add] at hvisited
    rw [List.getElem?_mapIdx, hpair]
    cases slot with
    | zero => simpa [visited, flatIndex] using hvisited
    | succ slot => simpa [visited] using hvisited
  · rw [List.getElem?_eq_none (by omega), List.getElem?_eq_none (by simp; omega)]

theorem visited_oddPasses_beyondWords :
    2 ^ 64 < flatIndex [⟨2 ^ 64 - 1, false⟩, ⟨4, true⟩] [2 ^ 64 - 2, 3] ∧
      visited [⟨2 ^ 64 - 1, false⟩, ⟨4, true⟩, ⟨3, true⟩] [2 ^ 64 - 2, 3, 0] =
        [2 ^ 64 - 2, 3, 2] := by
  have hbox : [2 ^ 64 - 2, 3, 0] ∈ box [⟨2 ^ 64 - 1, false⟩, ⟨4, true⟩, ⟨3, true⟩] := by
    simp [box]
  exact ⟨by decide, ((visited_oddPasses _).1 _ hbox).trans (by decide)⟩

end ScanPath.Odometer
