import Mathlib.Algebra.Group.Nat.Defs
import Mathlib.Data.List.Nodup
import Mathlib.Data.List.Perm.Basic
import ScanPath.Composition.Odometer

/-!
# The settings of an odometer

`settings` lists what the wheels can stand at, as nested loops would.  A setting
is known by its number, whose mixed-radix digits it consists of, and one step of
the odometer adds one to that number; so an odometer that is advanced shows one
setting after the other and nothing after the last.  Reversing alternating
wheels shows the same settings in another order.
-/

namespace ScanPath.Odometer

def settings : List Wheel → List (List Nat)
  | [] => [[]]
  | wheel :: wheels =>
      (List.range wheel.length).flatMap fun counter => (settings wheels).map (counter :: ·)

/-- The digits of a number in the lengths of the wheels, the last one least. -/
def digits : List Wheel → Nat → List Nat
  | [], _ => []
  | _ :: wheels, number => number / volume wheels :: digits wheels (number % volume wheels)

@[simp] theorem volume_nil : volume [] = 1 := rfl

@[simp] theorem volume_cons (wheel : Wheel) (wheels : List Wheel) :
    volume (wheel :: wheels) = wheel.length * volume wheels :=
  rfl

theorem volume_eq_prod (wheels : List Wheel) : volume wheels = (wheels.map Wheel.length).prod := by
  induction wheels with
  | nil => rfl
  | cons wheel wheels ih => rw [volume_cons, List.map_cons, List.prod_cons, ih]

@[simp] theorem length_digits (wheels : List Wheel) (number : Nat) :
    (digits wheels number).length = wheels.length := by
  induction wheels generalizing number with
  | nil => rfl
  | cons wheel wheels ih => simp [digits, ih]

theorem digits_zero (wheels : List Wheel) : digits wheels 0 = wheels.map fun _ => 0 := by
  induction wheels with
  | nil => rfl
  | cons wheel wheels ih => simp [digits, ih]

private theorem div_mod_of_lt {width remainder : Nat} (h : remainder < width) (quotient : Nat) :
    (width * quotient + remainder) / width = quotient ∧
      (width * quotient + remainder) % width = remainder := by
  have hpos : 0 < width := Nat.zero_lt_of_lt h
  constructor
  · rw [Nat.mul_add_div hpos, Nat.div_eq_of_lt h, Nat.add_zero]
  · rw [Nat.mul_add_mod, Nat.mod_eq_of_lt h]

theorem succ_div_mod_of_lt {width number : Nat} (h : number % width + 1 < width) :
    (number + 1) / width = number / width ∧ (number + 1) % width = number % width + 1 := by
  have hsplit := Nat.mod_add_div number width
  exact (Nat.div_mod_unique (by omega)).mpr ⟨by omega, h⟩

theorem succ_div_mod_of_eq {width number : Nat} (h : number % width + 1 = width) :
    (number + 1) / width = number / width + 1 ∧ (number + 1) % width = 0 := by
  have hsplit := Nat.mod_add_div number width
  refine (Nat.div_mod_unique (by omega)).mpr ⟨?_, by omega⟩
  rw [Nat.mul_add, Nat.mul_one]
  omega

private theorem map_range_mul {α : Type} (f : Nat → α) (count width : Nat) :
    (List.range (count * width)).map f =
      (List.range count).flatMap fun quotient =>
        (List.range width).map fun remainder => f (width * quotient + remainder) := by
  induction count with
  | zero => simp
  | succ count ih =>
      rw [Nat.succ_mul, List.range_add, List.map_append, ih, List.range_succ,
        List.flatMap_append]
      simp [Function.comp_def, Nat.mul_comm]

theorem settings_eq_map_digits (wheels : List Wheel) :
    settings wheels = (List.range (volume wheels)).map (digits wheels) := by
  induction wheels with
  | nil => rfl
  | cons wheel wheels ih =>
      rw [settings, volume_cons, map_range_mul, ih]
      congr 1
      funext quotient
      rw [List.map_map]
      apply List.map_congr_left
      intro remainder hmem
      obtain ⟨hdiv, hmod⟩ := div_mod_of_lt (List.mem_range.mp hmem) quotient
      simp only [Function.comp_apply, digits, hdiv, hmod]

theorem length_settings (wheels : List Wheel) : (settings wheels).length = volume wheels := by
  simp [settings_eq_map_digits]

theorem getElem?_settings {wheels : List Wheel} {number : Nat} (h : number < volume wheels) :
    (settings wheels)[number]? = some (digits wheels number) := by
  rw [settings_eq_map_digits, List.getElem?_map, List.getElem?_range h]
  rfl

theorem mem_settings_iff {wheels : List Wheel} {counters : List Nat} :
    counters ∈ settings wheels ↔ List.Forall₂ (· < ·) counters (wheels.map Wheel.length) := by
  induction wheels generalizing counters with
  | nil => simp [settings]
  | cons wheel wheels ih =>
      rw [settings, List.mem_flatMap, List.map_cons, List.forall₂_cons_right_iff]
      simp only [List.mem_range, List.mem_map, ih]
      constructor
      · rintro ⟨counter, hlt, rest, hrest, rfl⟩
        exact ⟨counter, rest, hlt, hrest, rfl⟩
      · rintro ⟨counter, rest, hlt, hrest, rfl⟩
        exact ⟨counter, hlt, rest, hrest, rfl⟩

theorem settings_nodup (wheels : List Wheel) : (settings wheels).Nodup := by
  induction wheels with
  | nil => exact List.nodup_singleton []
  | cons wheel wheels ih =>
      rw [settings, List.nodup_flatMap]
      constructor
      · intro counter _
        exact ih.map fun _ _ heq => (List.cons.inj heq).2
      · refine List.nodup_range.imp ?_
        intro first second hne counters hfirst hsecond
        obtain ⟨_, -, rfl⟩ := List.mem_map.mp hfirst
        obtain ⟨_, -, heq⟩ := List.mem_map.mp hsecond
        exact hne (List.cons.inj heq).1.symm

theorem increment_digits (wheels : List Wheel) {number : Nat} (h : number < volume wheels) :
    increment wheels (digits wheels number) =
      if number + 1 < volume wheels then some (digits wheels (number + 1)) else none := by
  induction wheels generalizing number with
  | nil =>
      rw [volume_nil] at h ⊢
      simp [increment]
  | cons wheel wheels ih =>
      rw [volume_cons] at h
      have hpos : 0 < volume wheels := Nat.pos_of_lt_mul_left h
      have hmod : number % volume wheels < volume wheels := Nat.mod_lt _ hpos
      have hquotient : number / volume wheels < wheel.length :=
        (Nat.div_lt_iff_lt_mul hpos).mpr h
      rw [digits, increment, ih hmod, volume_cons]
      by_cases hinner : number % volume wheels + 1 < volume wheels
      · -- no carry: the wheels after this one move on
        obtain ⟨hdiv, hrest⟩ := succ_div_mod_of_lt hinner
        have hbound : number + 1 < wheel.length * volume wheels := by
          rw [← Nat.div_lt_iff_lt_mul hpos, hdiv]
          exact hquotient
        simp only [hinner, if_true, hbound, digits, hdiv, hrest]
      · -- carry: they come round, and this wheel moves on if it can
        have hlast : number % volume wheels + 1 = volume wheels := by omega
        obtain ⟨hdiv, hrest⟩ := succ_div_mod_of_eq hlast
        have hbound : number + 1 < wheel.length * volume wheels ↔
            number / volume wheels + 1 < wheel.length := by
          rw [← Nat.div_lt_iff_lt_mul hpos, hdiv]
        have hzeros : (digits wheels (number % volume wheels)).map (fun _ => 0) =
            digits wheels 0 := by
          rw [digits_zero, List.map_const', List.map_const', length_digits]
        simp only [hinner, if_false, hbound, digits, hdiv, hrest, hzeros]

def turned (wheels : List Wheel) : Nat → Odometer
  | 0 => start wheels
  | count + 1 => (turned wheels count).advance

@[simp] theorem wheels_turned (wheels : List Wheel) (count : Nat) :
    (turned wheels count).wheels = wheels := by
  induction count with
  | zero =>
      unfold turned start
      split <;> rfl
  | succ count ih => exact ih

theorem volume_eq_zero_iff {wheels : List Wheel} :
    volume wheels = 0 ↔ wheels.any (fun wheel => wheel.length == 0) = true := by
  induction wheels with
  | nil => simp
  | cons wheel wheels ih =>
      rw [volume_cons, Nat.mul_eq_zero, ih, List.any_cons, Bool.or_eq_true, beq_iff_eq]

theorem current_turned {wheels : List Wheel} (h : wheels ≠ []) (count : Nat) :
    (turned wheels count).current = (settings wheels)[count]? := by
  induction count with
  | zero =>
      have hempty : wheels.isEmpty = false := by simp [h]
      unfold turned start
      by_cases hzero : volume wheels = 0
      · have hnil : settings wheels = [] := by
          rw [← List.length_eq_zero_iff, length_settings, hzero]
        simp [volume_eq_zero_iff.mp hzero, hnil]
      · have hany : wheels.any (fun wheel => wheel.length == 0) = false :=
          Bool.eq_false_iff.mpr fun hany => hzero (volume_eq_zero_iff.mpr hany)
        rw [getElem?_settings (Nat.pos_of_ne_zero hzero), digits_zero]
        simp [hempty, hany]
  | succ count ih =>
      rw [turned, advance, wheels_turned, ih]
      by_cases hcount : count < volume wheels
      · rw [getElem?_settings hcount, Option.bind_some, increment_digits wheels hcount]
        by_cases hnext : count + 1 < volume wheels
        · rw [if_pos hnext, getElem?_settings hnext]
        · rw [if_neg hnext, List.getElem?_eq_none (by rw [length_settings]; omega)]
      · rw [List.getElem?_eq_none (by rw [length_settings]; omega),
          List.getElem?_eq_none (by rw [length_settings]; omega)]
        rfl

/-- Where a wheel with the counter is shown to stand on the pass with the number `outer`. -/
def mirrored (outer : UInt64) (wheel : Wheel) (counter : Nat) : Nat :=
  if wheel.alternate && outer % 2 == 1 then wheel.length - 1 - counter else counter

theorem map_mirrored_range_perm (outer : UInt64) (wheel : Wheel) :
    ((List.range wheel.length).map (mirrored outer wheel)).Perm (List.range wheel.length) := by
  unfold mirrored
  cases wheel.alternate && outer % 2 == 1 with
  | false => simp
  | true =>
      have hreverse := List.reverse_range' (s := 0) (n := wheel.length)
      rw [← List.range_eq_range', Nat.zero_add] at hreverse
      simp only [if_true, ← hreverse]
      exact List.reverse_perm _

theorem map_visitedFrom_cons (outer : UInt64) (wheel : Wheel) (wheels : List Wheel) :
    (settings (wheel :: wheels)).map (visitedFrom outer (wheel :: wheels)) =
      (List.range wheel.length).flatMap fun counter =>
        ((settings wheels).map
          (visitedFrom (outer * wheel.length.toUInt64 + counter.toUInt64) wheels)).map
            (mirrored outer wheel counter :: ·) := by
  simp only [settings, List.map_flatMap, List.map_map]
  rfl

theorem map_visitedFrom_perm (outer : UInt64) (wheels : List Wheel) :
    ((settings wheels).map (visitedFrom outer wheels)).Perm (settings wheels) := by
  induction wheels generalizing outer with
  | nil => simp [settings, visitedFrom]
  | cons wheel wheels ih =>
      have hmirrored : ((List.range wheel.length).flatMap fun counter =>
            (settings wheels).map (mirrored outer wheel counter :: ·)) =
          ((List.range wheel.length).map (mirrored outer wheel)).flatMap fun counter =>
            (settings wheels).map (counter :: ·) := by
        rw [List.flatMap_map]
      -- the wheels after this one first, each time on a pass of their own
      rw [map_visitedFrom_cons]
      refine (List.Perm.flatMap_left _ fun counter _ => (ih _).map _).trans ?_
      rw [hmirrored]
      exact (map_mirrored_range_perm outer wheel).flatMap_right _

theorem map_visited_perm (wheels : List Wheel) :
    ((settings wheels).map (visited wheels)).Perm (settings wheels) :=
  map_visitedFrom_perm 0 wheels

theorem visitedFrom_of_not_alternate {wheels : List Wheel}
    (h : ∀ wheel ∈ wheels, wheel.alternate = false) (outer : UInt64) {counters : List Nat}
    (hlength : counters.length = wheels.length) :
    visitedFrom outer wheels counters = counters := by
  induction wheels generalizing outer counters with
  | nil =>
      cases counters with
      | nil => rfl
      | cons counter counters => cases hlength
  | cons wheel wheels ih =>
      cases counters with
      | nil => cases hlength
      | cons counter counters =>
          have hwheel := h wheel List.mem_cons_self
          have hrest := ih (fun other hmem => h other (List.mem_cons_of_mem _ hmem))
          simp [visitedFrom, hwheel, hrest _ (Nat.succ.inj hlength)]

theorem visited_of_not_alternate {wheels : List Wheel}
    (h : ∀ wheel ∈ wheels.tail, wheel.alternate = false) {counters : List Nat}
    (hmem : counters ∈ settings wheels) : visited wheels counters = counters := by
  rw [settings_eq_map_digits] at hmem
  obtain ⟨number, -, rfl⟩ := List.mem_map.mp hmem
  cases wheels with
  | nil => rfl
  | cons wheel wheels =>
      rw [List.tail_cons] at h
      simp [visited, digits, visitedFrom, visitedFrom_of_not_alternate h]

end ScanPath.Odometer
