import ScanPath.Proofs.Composition.Assembly
import ScanPath.Proofs.Composition.Dimension
import ScanPath.Proofs.Composition.Odometer
import ScanPath.Proofs.Source
import ScanPath.Scan

/-!
# What a pass emits

A pass shows the settings of its odometer in snaking order, passes over those
that a spanning excluder refuses, and changes the others by their ordinal.  So
`emission` is a list that can be written down before the pass begins, and the
pass gives its members one after the other and then nothing.  A pull is an
induction on the number of candidates it may try; the whole pass is an induction
on the number of pulls, and what it carries is that the candidates still to be
shown are a tail of all of them.
-/

namespace ScanPath

namespace Composition

def course (composition : Composition) : List (List Nat) :=
  (Odometer.settings composition.wheels).map (Odometer.visited composition.wheels)

/-- The unchanged points that are emitted from the candidate number `turns` on. -/
def pending (composition : Composition) (turns : Nat) : List Position :=
  ((composition.course.drop turns).filterMap composition.candidate?).filter
    (admits composition.spanning)

def admitted (composition : Composition) : List Position :=
  (composition.course.filterMap composition.candidate?).filter (admits composition.spanning)

def emission (composition : Composition) : List Position :=
  composition.admitted.mapIdx fun ordinal position => composition.mutate position ordinal

theorem emission_eq_admitted {composition : Composition} (h : composition.mutators = []) :
    composition.emission = composition.admitted := by
  have hmutate : ∀ position ordinal, composition.mutate position ordinal = position := by
    intro position ordinal
    rw [mutate, h]
    rfl
  rw [emission]
  simp only [hmutate]
  apply List.ext_getElem
  · exact List.length_mapIdx
  · intro ordinal _ _
    rw [List.getElem_mapIdx]

def Complete (composition : Composition) : Prop :=
  ∀ counters ∈ composition.course, (composition.candidate? counters).isSome = true

theorem length_course (composition : Composition) :
    composition.course.length = Odometer.volume composition.wheels := by
  rw [course, List.length_map, Odometer.length_settings]

theorem alternate_of_mem_tail_wheels {composition : Composition} {alternate : Bool}
    (h : ∀ leaf ∈ composition.leaves.tail, leaf.alternate = alternate) :
    ∀ wheel ∈ composition.wheels.tail, wheel.alternate = alternate := by
  intro wheel hmem
  rw [wheels, ← List.map_tail] at hmem
  obtain ⟨dimension, hdimension, rfl⟩ := List.mem_map.mp hmem
  apply h
  rw [leaves, ← List.map_tail]
  exact List.mem_map_of_mem hdimension

theorem pending_of_le {composition : Composition} {turns : Nat}
    (h : Odometer.volume composition.wheels ≤ turns) : composition.pending turns = [] := by
  rw [pending, List.drop_of_length_le (by rw [length_course]; exact h)]
  rfl

theorem pending_zero (composition : Composition) : composition.pending 0 = composition.admitted :=
  rfl

theorem pending_of_lt {composition : Composition} (hcomplete : composition.Complete) {turns : Nat}
    (h : turns < Odometer.volume composition.wheels) :
    ∃ counters candidate, (Odometer.settings composition.wheels)[turns]? = some counters ∧
      composition.candidate? (Odometer.visited composition.wheels counters) = some candidate ∧
      composition.pending turns =
        if admits composition.spanning candidate then candidate :: composition.pending (turns + 1)
        else composition.pending (turns + 1) := by
  have hlength : turns < (Odometer.settings composition.wheels).length := by
    rw [Odometer.length_settings]
    exact h
  have hlength' : turns < composition.course.length := by
    rw [length_course]
    exact h
  have hshown : composition.course[turns] = Odometer.visited composition.wheels
      (Odometer.settings composition.wheels)[turns] := by
    simp [course]
  obtain ⟨candidate, hcandidate⟩ := Option.isSome_iff_exists.mp
    (hcomplete _ (List.getElem_mem hlength'))
  refine ⟨_, candidate, List.getElem?_eq_getElem hlength, hshown ▸ hcandidate, ?_⟩
  unfold pending
  rw [List.drop_eq_getElem_cons hlength', List.filterMap_cons_some hcandidate, List.filter_cons]

end Composition

namespace Pass

open ScanPath.Composition

/-- The pass after it showed `turns` candidates and emitted `emitted` of them. -/
def standing (composition : Composition) (turns emitted : Nat) : Pass :=
  ⟨composition, Odometer.turned composition.wheels turns, emitted⟩

theorem start_eq_standing (composition : Composition) :
    start composition = standing composition 0 0 :=
  rfl

variable {composition : Composition}

inductive PullsTo (composition : Composition) (turns emitted : Nat) : Option Position × Pass → Prop
  | none (turns' : Nat) (h : composition.pending turns = [])
      (h' : composition.pending turns' = []) :
      PullsTo composition turns emitted (none, standing composition turns' emitted)
  | some (turns' : Nat) (position : Position) (rest : List Position)
      (h : composition.pending turns = position :: rest) (h' : composition.pending turns' = rest) :
      PullsTo composition turns emitted
        (some (composition.mutate position emitted), standing composition turns' (emitted + 1))

theorem pullWithin_standing (hwheels : composition.wheels ≠ []) (hcomplete : composition.Complete)
    (fuel turns emitted : Nat) (hfuel : Odometer.volume composition.wheels ≤ turns + fuel) :
    PullsTo composition turns emitted (pullWithin fuel (standing composition turns emitted)) := by
  induction fuel generalizing turns with
  | zero => exact .none turns (pending_of_le hfuel) (pending_of_le hfuel)
  | succ fuel ih =>
      have hcurrent : (standing composition turns emitted).odometer.current =
          (Odometer.settings composition.wheels)[turns]? := Odometer.current_turned hwheels turns
      by_cases hturns : turns < Odometer.volume composition.wheels
      · obtain ⟨counters, candidate, hcounters, hcandidate, hpending⟩ :=
          pending_of_lt hcomplete hturns
        have hnext : pullWithin (fuel + 1) (standing composition turns emitted) =
            if admits composition.spanning candidate then
              (some (composition.mutate candidate emitted),
                standing composition (turns + 1) (emitted + 1))
            else pullWithin fuel (standing composition (turns + 1) emitted) := by
          rw [pullWithin, hcurrent, hcounters]
          simp only [standing, Odometer.wheels_turned, hcandidate]
          rfl
        rw [hnext]
        cases hadmits : admits composition.spanning candidate with
        | true =>
            rw [hadmits, if_pos rfl] at hpending
            exact .some (turns + 1) candidate _ hpending rfl
        | false =>
            -- a refused candidate leaves what is pending as it is
            rw [hadmits, if_neg Bool.false_ne_true] at hpending
            have hrest := ih (turns + 1) (by omega)
            rw [if_neg Bool.false_ne_true]
            cases hpull : pullWithin fuel (standing composition (turns + 1) emitted) with
            | mk position? pass =>
            rw [hpull] at hrest
            cases hrest with
            | none turns' h h' => exact .none turns' (hpending.trans h) h'
            | some turns' position rest h h' =>
                exact .some turns' position rest (hpending.trans h) h'
      · have hover : pullWithin (fuel + 1) (standing composition turns emitted) =
            (none, standing composition turns emitted) := by
          rw [List.getElem?_eq_none (by rw [Odometer.length_settings]; omega)] at hcurrent
          rw [pullWithin, hcurrent]
        rw [hover]
        exact .none turns (pending_of_le (by omega)) (pending_of_le (by omega))

theorem pull_standing (hwheels : composition.wheels ≠ []) (hcomplete : composition.Complete)
    (turns emitted : Nat) :
    PullsTo composition turns emitted (standing composition turns emitted).pull := by
  rw [pull]
  apply pullWithin_standing hwheels hcomplete
  simp [standing]

theorem after_start (hwheels : composition.wheels ≠ []) (hcomplete : composition.Complete)
    (count : Nat) :
    ∃ turns, Source.after pull (start composition) count =
        standing composition turns (min count composition.admitted.length) ∧
      composition.pending turns = composition.admitted.drop count := by
  induction count with
  | zero => exact ⟨0, by simp [Source.after, start_eq_standing], pending_zero composition⟩
  | succ count ih =>
      obtain ⟨turns, hafter, hpending⟩ := ih
      rw [Source.after, hafter]
      have hpull := pull_standing hwheels hcomplete turns
        (min count composition.admitted.length)
      have hsucc : composition.admitted.drop (count + 1) =
          (composition.admitted.drop count).tail := by simp
      cases hpull' : (standing composition turns
          (min count composition.admitted.length)).pull with
      | mk position? pass =>
      rw [hpull'] at hpull
      cases hpull with
      | none turns' h h' =>
          rw [hpending] at h
          have hlength := List.drop_eq_nil_iff.mp h
          refine ⟨turns', ?_, ?_⟩
          · rw [Nat.min_eq_right hlength, Nat.min_eq_right (by omega)]
          · rw [h', hsucc, h]
            rfl
      | some turns' position rest h h' =>
          rw [hpending] at h
          have hlength : count < composition.admitted.length := by
            rw [← Nat.not_le, ← List.drop_eq_nil_iff, h]
            exact List.cons_ne_nil _ _
          refine ⟨turns', ?_, ?_⟩
          · rw [Nat.min_eq_left (by omega), Nat.min_eq_left hlength]
          · rw [h', hsucc, h]
            rfl

theorem emits_emission (hwheels : composition.wheels ≠ []) (hcomplete : composition.Complete) :
    Source.Emits pull (start composition) composition.emission := by
  intro count
  obtain ⟨turns, hafter, hpending⟩ := after_start hwheels hcomplete count
  rw [Source.itemAt?, hafter, emission, List.getElem?_mapIdx]
  have hpull := pull_standing hwheels hcomplete turns (min count composition.admitted.length)
  cases hpull' : (standing composition turns (min count composition.admitted.length)).pull with
  | mk position? pass =>
  rw [hpull'] at hpull
  cases hpull with
  | none turns' h h' =>
      rw [hpending] at h
      rw [List.getElem?_eq_none (List.drop_eq_nil_iff.mp h)]
      rfl
  | some turns' position rest h h' =>
      rw [hpending] at h
      have hget : composition.admitted[count]? = some position := by
        rw [← List.head?_drop, h]
        rfl
      have hlength := (List.getElem?_eq_some_iff.mp hget).1
      rw [hget, Nat.min_eq_left (by omega)]
      rfl

theorem remaining_after (hwheels : composition.wheels ≠ []) (hcomplete : composition.Complete)
    (count : Nat) :
    (Source.after pull (start composition) count).remaining =
      composition.size - min count composition.admitted.length := by
  obtain ⟨turns, hafter, -⟩ := after_start hwheels hcomplete count
  rw [hafter]
  rfl

end Pass

end ScanPath
