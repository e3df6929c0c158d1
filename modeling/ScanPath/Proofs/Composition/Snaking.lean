import Mathlib.Data.List.Chain
import ScanPath.Proofs.Composition.Pass

/-!
# Snaking

From one candidate of a pass to the next, one dimension moves by one point.  The
dimensions before it stand still; of those after it, the alternating ones stand
still as well and the others go back from their last point to their first.  The
law is that of a reflected code with mixed radices: when the wheels after some
wheel come round, that wheel moves on, and so the number of the pass of each of
them goes up by one and changes its parity.
-/

namespace ScanPath

namespace Odometer

/-! ## Steps -/

/-- What wheels show before and after all of them come round. -/
def ComesRound (wheels : List Wheel) (first second : List Nat) : Prop :=
  ∀ (place : Nat) (wheel : Wheel), wheels[place]? = some wheel →
    if wheel.alternate then second[place]? = first[place]?
    else first[place]? = some (wheel.length - 1) ∧ second[place]? = some 0

def Adjacent (index next : Nat) : Prop := next = index + 1 ∨ index = next + 1

/-- The wheel at `slot` moves by one, the wheels before it stand still and those after it come
round. -/
structure Step (wheels : List Wheel) (slot : Nat) (first second : List Nat) : Prop where
  length_first : first.length = wheels.length
  length_second : second.length = wheels.length
  before : ∀ place < slot, second[place]? = first[place]?
  moved : ∃ index next, first[slot]? = some index ∧ second[slot]? = some next ∧
    Adjacent index next
  after : ComesRound (wheels.drop (slot + 1)) (first.drop (slot + 1)) (second.drop (slot + 1))

/-- One place changes by one, and nothing else changes. -/
def MovesOne (first second : List Nat) : Prop :=
  ∃ slot index next, first[slot]? = some index ∧ Adjacent index next ∧
    second = first.set slot next

theorem Step.cons {wheels : List Wheel} {slot : Nat} {first second : List Nat}
    (h : Step wheels slot first second) (wheel : Wheel) (counter : Nat) :
    Step (wheel :: wheels) (slot + 1) (counter :: first) (counter :: second) where
  length_first := by rw [List.length_cons, List.length_cons, h.length_first]
  length_second := by rw [List.length_cons, List.length_cons, h.length_second]
  before := by
    intro place hplace
    cases place with
    | zero => rfl
    | succ place => exact h.before place (Nat.lt_of_succ_lt_succ hplace)
  moved := h.moved
  after := h.after

theorem ComesRound.eq_of_alternate {wheels : List Wheel} {first second : List Nat}
    (h : ComesRound wheels first second) (hfirst : first.length = wheels.length)
    (hsecond : second.length = wheels.length)
    (halternate : ∀ wheel ∈ wheels, wheel.alternate = true) : second = first := by
  apply List.ext_getElem?
  intro place
  by_cases hplace : place < wheels.length
  · have hstill := h place wheels[place] (List.getElem?_eq_getElem hplace)
    rw [if_pos (halternate _ (List.getElem_mem hplace))] at hstill
    exact hstill
  · rw [List.getElem?_eq_none (by omega), List.getElem?_eq_none (by omega)]

theorem Step.movesOne {wheels : List Wheel} {slot : Nat} {first second : List Nat}
    (h : Step wheels slot first second)
    (halternate : ∀ wheel ∈ wheels.tail, wheel.alternate = true) : MovesOne first second := by
  obtain ⟨index, next, hindex, hnext, hadjacent⟩ := h.moved
  have hslot := (List.getElem?_eq_some_iff.mp hindex).1
  have hafter : second.drop (slot + 1) = first.drop (slot + 1) := by
    apply h.after.eq_of_alternate
    · rw [List.length_drop, List.length_drop, h.length_first]
    · rw [List.length_drop, List.length_drop, h.length_second]
    · intro wheel hmem
      rw [← List.drop_tail] at hmem
      exact halternate wheel (List.mem_of_mem_drop hmem)
  refine ⟨slot, index, next, hindex, hadjacent, ?_⟩
  apply List.ext_getElem?
  intro place
  rw [List.getElem?_set]
  rcases Nat.lt_trichotomy place slot with hlt | rfl | hlt
  · rw [if_neg (by omega), h.before place hlt]
  · rw [if_pos rfl, if_pos hslot, hnext]
  · obtain ⟨offset, rfl⟩ := Nat.exists_eq_add_of_le hlt
    rw [if_neg (by omega), ← List.getElem?_drop, hafter, List.getElem?_drop]

private theorem odd_succ (outer : UInt64) : ((outer + 1) % 2 == 1) = !(outer % 2 == 1) := by
  rw [Bool.eq_iff_iff]
  simp only [Bool.not_eq_true', beq_iff_eq, beq_eq_false_iff_ne, ne_eq, ← UInt64.toNat_inj,
    UInt64.toNat_mod, UInt64.toNat_add]
  simp
  omega

private theorem add_toUInt64_succ (outer : UInt64) (counter : Nat) :
    outer + (counter + 1).toUInt64 = outer + counter.toUInt64 + 1 := by
  rw [Nat.toUInt64, UInt64.ofNat_add]
  exact (UInt64.add_assoc _ _ _).symm

/-- The last pass of some wheels within one pass of the wheel before them is followed by their first
pass within the next. -/
private theorem next_pass (outer : UInt64) (last : Nat) :
    (outer + 1) * (last + 1).toUInt64 + (0 : Nat).toUInt64 =
      outer * (last + 1).toUInt64 + last.toUInt64 + 1 := by
  rw [← add_toUInt64_succ]
  change (outer + 1) * (last + 1).toUInt64 + 0 = _
  grind

@[simp] theorem length_visitedFrom (outer : UInt64) (wheels : List Wheel) (number : Nat) :
    (visitedFrom outer wheels (digits wheels number)).length = wheels.length := by
  induction wheels generalizing outer number with
  | nil => rfl
  | cons wheel wheels ih => rw [digits, visitedFrom, List.length_cons, List.length_cons, ih]

private theorem digits_last {wheel : Wheel} {wheels : List Wheel} {last : Nat}
    (h : last + 1 = volume (wheel :: wheels)) :
    ∃ top, wheel.length = top + 1 ∧ last / volume wheels = top ∧
      last % volume wheels + 1 = volume wheels := by
  rw [volume_cons] at h
  have hlt : last < wheel.length * volume wheels := by omega
  have hpos : 0 < volume wheels := Nat.pos_of_lt_mul_left hlt
  have hlength : 0 < wheel.length := Nat.pos_of_lt_mul_right hlt
  obtain ⟨top, htop⟩ := Nat.exists_eq_succ_of_ne_zero hlength.ne'
  have hwhole : last + 1 = volume wheels * top + volume wheels := by
    rw [h, htop, Nat.succ_mul, Nat.mul_comm]
  obtain ⟨hdiv, hmod⟩ : last / volume wheels = top ∧ last % volume wheels = volume wheels - 1 :=
    (Nat.div_mod_unique hpos).mpr ⟨by omega, Nat.sub_lt hpos Nat.one_pos⟩
  exact ⟨top, htop, hdiv, by omega⟩

theorem comesRound_visitedFrom (outer : UInt64) {wheels : List Wheel} {last : Nat}
    (h : last + 1 = volume wheels) :
    ComesRound wheels (visitedFrom outer wheels (digits wheels last))
      (visitedFrom (outer + 1) wheels (digits wheels 0)) := by
  induction wheels generalizing outer last with
  | nil =>
      intro place wheel hwheel
      cases hwheel
  | cons wheel wheels ih =>
      obtain ⟨top, htop, hdiv, hrest⟩ := digits_last h
      rw [digits, digits, visitedFrom, visitedFrom, hdiv, Nat.zero_div, Nat.zero_mod, htop,
        next_pass]
      intro place other hother
      cases place with
      | zero =>
          cases hother
          rw [odd_succ]
          cases hturn : outer % 2 == 1 <;> cases halternate : wheel.alternate <;> simp [htop]
      | succ place => exact ih _ hrest place other hother

theorem exists_step (outer : UInt64) {wheels : List Wheel} {number : Nat}
    (h : number + 1 < volume wheels) :
    ∃ slot, Step wheels slot (visitedFrom outer wheels (digits wheels number))
      (visitedFrom outer wheels (digits wheels (number + 1))) := by
  induction wheels generalizing outer number with
  | nil =>
      rw [volume_nil] at h
      omega
  | cons wheel wheels ih =>
      rw [volume_cons] at h
      have hpos : 0 < volume wheels := Nat.pos_of_lt_mul_left h
      have hmod : number % volume wheels < volume wheels := Nat.mod_lt _ hpos
      by_cases hinner : number % volume wheels + 1 < volume wheels
      · -- no carry: the step is one of the wheels after this one
        obtain ⟨hdiv, hrest⟩ := succ_div_mod_of_lt hinner
        obtain ⟨slot, hstep⟩ := ih (outer * wheel.length.toUInt64 +
          (number / volume wheels).toUInt64) hinner
        refine ⟨slot + 1, ?_⟩
        rw [digits, digits, visitedFrom, visitedFrom, hdiv, hrest]
        exact hstep.cons wheel _
      · -- carry: this wheel moves and the others come round
        have hlast : number % volume wheels + 1 = volume wheels := by omega
        obtain ⟨hdiv, hrest⟩ := succ_div_mod_of_eq hlast
        have hbound : number / volume wheels + 1 < wheel.length := by
          rw [← hdiv, Nat.div_lt_iff_lt_mul hpos]
          exact h
        refine ⟨0, ?_⟩
        rw [digits, digits, visitedFrom, visitedFrom, hdiv, hrest, add_toUInt64_succ]
        exact {
          length_first := by rw [List.length_cons, List.length_cons, length_visitedFrom]
          length_second := by rw [List.length_cons, List.length_cons, length_visitedFrom]
          before := fun place hplace => absurd hplace (Nat.not_lt_zero place)
          moved := by
            refine ⟨_, _, rfl, rfl, ?_⟩
            unfold Adjacent
            split <;> omega
          after := comesRound_visitedFrom _ hlast }

end Odometer

/-! ## The candidates of a pass -/

namespace Composition

open Odometer

theorem isChain_course (composition : Composition) :
    composition.course.IsChain fun first second =>
      ∃ slot, Step composition.wheels slot first second := by
  rw [List.isChain_iff_getElem]
  intro number hnumber
  rw [length_course] at hnumber
  have hshown : composition.course =
      (List.range (volume composition.wheels)).map fun number =>
        visited composition.wheels (digits composition.wheels number) := by
    rw [course, settings_eq_map_digits, List.map_map]
    rfl
  simp only [hshown, List.getElem_map, List.getElem_range]
  exact exists_step 0 hnumber

theorem drop_course {composition : Composition} {turns : Nat} {counters : List Nat}
    (h : (settings composition.wheels)[turns]? = some counters) :
    composition.course.drop turns =
      visited composition.wheels counters :: composition.course.drop (turns + 1) := by
  have hshown : composition.course[turns]? = some (visited composition.wheels counters) := by
    rw [course, List.getElem?_map, h]
    rfl
  obtain ⟨hlength, hshown⟩ := List.getElem?_eq_some_iff.mp hshown
  rw [List.drop_eq_getElem_cons hlength, hshown]

end Composition

namespace Pass

open ScanPath.Composition

/-- The counters of the candidates that a call looks at, whether they are admitted or not. -/
def triedWithin : Nat → Pass → List (List Nat)
  | 0, _ => []
  | fuel + 1, pass =>
      match pass.odometer.current with
      | none => []
      | some counters =>
          let shown := Odometer.visited pass.odometer.wheels counters
          let onward := { pass with odometer := pass.odometer.advance }
          match pass.composition.candidate? shown with
          | none => [shown]
          | some candidate =>
              if Composition.admits pass.composition.spanning candidate then [shown]
              else shown :: triedWithin fuel onward

def tried (pass : Pass) : List (List Nat) :=
  triedWithin (Odometer.volume pass.odometer.wheels) pass

/-- What a new pass has looked at when it was pulled so many times. -/
def candidates (composition : Composition) : Nat → List (List Nat)
  | 0 => []
  | pulls + 1 =>
      candidates composition pulls ++ (Source.after pull (start composition) pulls).tried

variable {composition : Composition}

theorem triedWithin_standing (hwheels : composition.wheels ≠ []) (fuel turns emitted : Nat) :
    ∃ count emitted', (pullWithin fuel (standing composition turns emitted)).2 =
        standing composition (turns + count) emitted' ∧
      triedWithin fuel (standing composition turns emitted) =
        (composition.course.drop turns).take count ∧
      (0 < fuel → turns < Odometer.volume composition.wheels → 0 < count) := by
  induction fuel generalizing turns with
  | zero => exact ⟨0, emitted, rfl, rfl, fun hfuel => absurd hfuel (Nat.lt_irrefl 0)⟩
  | succ fuel ih =>
      have hcurrent : (standing composition turns emitted).odometer.current =
          (Odometer.settings composition.wheels)[turns]? := Odometer.current_turned hwheels turns
      cases hcounters : (Odometer.settings composition.wheels)[turns]? with
      | none =>
          have hover : Odometer.volume composition.wheels ≤ turns := by
            rw [← Odometer.length_settings]
            exact List.getElem?_eq_none_iff.mp hcounters
          rw [pullWithin, triedWithin, hcurrent, hcounters]
          exact ⟨0, emitted, rfl, rfl, fun _ hturns => absurd hturns (Nat.not_lt.mpr hover)⟩
      | some counters =>
          rw [pullWithin, triedWithin, hcurrent, hcounters, drop_course hcounters]
          simp only [standing, Odometer.wheels_turned]
          cases hcandidate :
              composition.candidate? (Odometer.visited composition.wheels counters) with
          | none => exact ⟨1, emitted, rfl, rfl, fun _ _ => Nat.one_pos⟩
          | some candidate =>
              cases hadmits : admits composition.spanning candidate with
              | true =>
                  simp only [hadmits, if_true]
                  exact ⟨1, emitted + 1, rfl, rfl, fun _ _ => Nat.one_pos⟩
              | false =>
                  simp only [hadmits, Bool.false_eq_true, if_false]
                  obtain ⟨count, emitted', hpull, htried, -⟩ := ih (turns + 1)
                  refine ⟨count + 1, emitted', ?_, ?_, fun _ _ => Nat.succ_pos count⟩
                  · rw [← Nat.add_assoc, Nat.add_right_comm]
                    exact hpull
                  · rw [List.take_succ_cons, ← htried]
                    rfl

theorem candidates_eq_take (hwheels : composition.wheels ≠ []) (pulls : Nat) :
    ∃ turns emitted, Source.after pull (start composition) pulls =
        standing composition turns emitted ∧
      candidates composition pulls = composition.course.take turns ∧
      min pulls (Odometer.volume composition.wheels) ≤ turns := by
  induction pulls with
  | zero => exact ⟨0, 0, rfl, rfl, Nat.min_le_left _ _⟩
  | succ pulls ih =>
      obtain ⟨turns, emitted, hafter, hcandidates, hmin⟩ := ih
      obtain ⟨count, emitted', hpull, htried, hprogress⟩ := triedWithin_standing hwheels
        (Odometer.volume composition.wheels) turns emitted
      have hseen : (standing composition turns emitted).odometer.wheels = composition.wheels :=
        Odometer.wheels_turned _ _
      refine ⟨turns + count, emitted', ?_, ?_, by omega⟩
      · rw [Source.after, hafter, pull, hseen, hpull]
      · rw [candidates, hafter, tried, hseen, htried, hcandidates, List.take_add]

end Pass

/-! ## The snaking law -/

namespace Composition

theorem volume_wheels (composition : Composition) :
    Odometer.volume composition.wheels = composition.shape.prod := by
  rw [Odometer.volume_eq_prod, wheels, shape, List.map_map]
  rfl

/-- Any two candidates of a pass that follow each other, admitted or not, are one step apart; when
all dimensions but the outermost alternate, they differ in one place by one.  A pass that is pulled
often enough looks at as many candidates as the shape has points. -/
theorem Prepared.isChain_candidates {composition : Composition} (h : Prepared composition) :
    (∀ pulls, (Pass.candidates composition pulls).IsChain fun first second =>
      ∃ slot, Odometer.Step composition.wheels slot first second) ∧
    ((∀ leaf ∈ composition.leaves.tail, leaf.alternate = true) →
      ∀ pulls, (Pass.candidates composition pulls).IsChain Odometer.MovesOne) ∧
    ∀ pulls, composition.shape.prod ≤ pulls →
      (Pass.candidates composition pulls).length = composition.shape.prod := by
  have hchain : ∀ pulls, (Pass.candidates composition pulls).IsChain fun first second =>
      ∃ slot, Odometer.Step composition.wheels slot first second := by
    intro pulls
    obtain ⟨turns, -, -, hcandidates, -⟩ := Pass.candidates_eq_take h.wheels_ne_nil pulls
    rw [hcandidates]
    exact composition.isChain_course.take turns
  refine ⟨hchain, ?_, ?_⟩
  · intro halternate pulls
    apply (hchain pulls).imp
    rintro first second ⟨slot, hstep⟩
    exact hstep.movesOne (alternate_of_mem_tail_wheels halternate)
  · intro pulls hpulls
    obtain ⟨turns, -, -, hcandidates, hmin⟩ := Pass.candidates_eq_take h.wheels_ne_nil pulls
    rw [hcandidates, List.length_take, length_course]
    rw [volume_wheels] at hmin ⊢
    omega

theorem Prepared.isChain_candidates_sample :
    ∃ composition, (Composer.ofParts [.leaf (sampleLeaf "x" 2 false), .leaf (sampleLeaf "y" 4 true),
        .leaf (sampleLeaf "z" 2 true)] [sampleExcluder ["y"], sampleExcluder ["z", "x"]] []
          none).prepare.1 = .ok composition ∧
      composition.shape = [2, 3, 2] ∧ composition.size = 3 ∧
      (∀ pulls, (Pass.candidates composition pulls).IsChain Odometer.MovesOne) ∧
      (Pass.candidates composition 12).length = 12 := by
  obtain ⟨composition, hprepare, hfacts⟩ := Checked.exists_of_any
    (show (Composer.ofParts [.leaf (sampleLeaf "x" 2 false), .leaf (sampleLeaf "y" 4 true),
        .leaf (sampleLeaf "z" 2 true)] [sampleExcluder ["y"], sampleExcluder ["z", "x"]] []
          none).prepare.1.toOption.any (fun composition =>
            composition.shape == [2, 3, 2] && composition.size == 3 &&
              composition.leaves.tail.all Leaf.alternate) = true by decide +kernel)
  rw [Bool.and_eq_true, Bool.and_eq_true, beq_iff_eq, beq_iff_eq, List.all_eq_true] at hfacts
  obtain ⟨⟨hshape, hsize⟩, halternate⟩ := hfacts
  have hprepared : Prepared composition := .of _ _ (by simp [Composer.ofParts]) hprepare
  obtain ⟨-, hmoves, hall⟩ := hprepared.isChain_candidates
  have hlength := hall 12 (by rw [hshape]; decide)
  rw [hshape] at hlength
  exact ⟨composition, hprepare, hshape, hsize, hmoves halternate, hlength⟩

end Composition

end ScanPath
