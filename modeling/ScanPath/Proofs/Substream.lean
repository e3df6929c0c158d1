import ScanPath.Proofs.Keyed
import ScanPath.Proofs.Mutator

/-!
# Draws by their place

Every draw takes two words of its stream, so the number at a place is known
without the numbers before it.  The axis at a place of the list moves by the
number of that place, whether or not the position carries the axes before it,
and nothing else of a position reaches its new value.
-/

namespace ScanPath

namespace Random.Stream

def drawAt (stream : Stream) (place : Nat) : Float :=
  (symmetricUnit ⟨stream.key, stream.position + 2 * place⟩).1

theorem drawAt_succ (stream : Stream) (place : Nat) :
    stream.symmetricUnit.2.drawAt place = stream.drawAt (place + 1) := by
  have hposition : stream.position + 2 + 2 * place = stream.position + 2 * (place + 1) := by omega
  change (symmetricUnit ⟨stream.key, stream.position + 2 + 2 * place⟩).1 = _
  rw [hposition, drawAt]

theorem getElem?_draws {count place : Nat} (h : place < count) (stream : Stream) :
    (draws count stream)[place]? = some (stream.drawAt place) := by
  induction count generalizing place stream with
  | zero => omega
  | succ count ih =>
      cases place with
      | zero => simp [draws, drawAt]
      | succ place =>
          simp [draws, ih (Nat.lt_of_succ_lt_succ h), drawAt_succ]

end Random.Stream

theorem ownDraws_of_not_mem {axis : String} {axes : List String} {draws : List Float}
    (hlength : draws.length = axes.length) (h : axis ∉ axes) : ownDraws axis axes draws = [] := by
  have hnone := length_ownDraws axis hlength
  simpa [List.count_eq_zero_of_not_mem h] using hnone

theorem ownDraws_of_getElem? {axes : List String} (hnodup : axes.Nodup) {draws : List Float}
    (hlength : draws.length = axes.length) {place : Nat} {axis : String} {draw : Float}
    (haxis : axes[place]? = some axis) (hdraw : draws[place]? = some draw) :
    ownDraws axis axes draws = [draw] := by
  induction axes generalizing draws place with
  | nil => simp at haxis
  | cons name axes ih =>
      obtain ⟨first, draws, rfl⟩ := List.exists_cons_of_length_eq_add_one hlength
      rw [List.nodup_cons] at hnodup
      have hrest : draws.length = axes.length := by simpa using hlength
      cases place with
      | zero =>
          simp only [List.getElem?_cons_zero, Option.some.injEq] at haxis hdraw
          subst haxis hdraw
          rw [ownDraws_cons_self, ownDraws_of_not_mem hrest hnodup.1]
      | succ place =>
          simp only [List.getElem?_cons_succ] at haxis hdraw
          have hne : name ≠ axis := by
            rintro rfl
            exact hnodup.1 (List.mem_of_getElem? haxis)
          rw [ownDraws_cons_of_ne hne]
          exact ih hnodup.2 hrest haxis hdraw

namespace RandomOffset

/-- The mutated position carries the same axes with the same indices, and those that are not listed
with the same values. -/
structure Frames (offset : RandomOffset) (position mutated : Position) : Prop where
  keys_eq : mutated.keys = position.keys
  indices_eq : mutated.indices = position.indices
  kept : ∀ axis ∉ offset.axes, mutated.get? axis = position.get? axis

theorem mutate_frames (offset : RandomOffset) (position : Position) (ordinal : Nat) :
    offset.Frames position (offset.mutate position ordinal) := by
  have hindices : (offset.mutate position ordinal).indices = position.indices :=
    perturb_indices _ _ _ position
  constructor
  case keys_eq =>
    have hkeys := congrArg Keyed.keys hindices
    simpa only [Position.indices, Keyed.keys_map] using hkeys
  case indices_eq => exact hindices
  case kept => exact fun axis hnot => get?_perturb_of_not_mem hnot _ _ position

/-- The draw that the axis at a place takes for an ordinal. -/
def drawFor (offset : RandomOffset) (ordinal place : Nat) : Float :=
  (Random.Stream.ofSubstream offset.seed.toUInt64 ordinal.toUInt64).drawAt place

theorem value?_mutate {offset : RandomOffset} (hnodup : offset.axes.Nodup) {place : Nat}
    {axis : String} {bound : Float} (haxis : offset.axes[place]? = some axis)
    (hbound : offset.maxOffset.get? axis = some bound) (position : Position) (ordinal : Nat) :
    (offset.mutate position ordinal).value? axis =
      (position.value? axis).map (· + bound * offset.drawFor ordinal place) := by
  have hplace : place < offset.axes.length := (List.getElem?_eq_some_iff.mp haxis).1
  have hdraws := ownDraws_of_getElem? hnodup (Random.Stream.length_draws _ _) haxis
    (Random.Stream.getElem?_draws hplace
      (.ofSubstream offset.seed.toUInt64 ordinal.toUInt64))
  rw [Position.value?, mutate, get?_perturb hbound, hdraws, Option.map_map, Position.value?,
    Option.map_map]
  rfl

/-- Two positions that an accepted mutator with different axes changes for one ordinal: what an axis
becomes depends on its own value alone, and is that value moved by the draw of its place. -/
theorem build_draws_apart {offset : RandomOffset} {mutator : Mutator}
    (h : offset.build = .ok mutator) (hnodup : offset.axes.Nodup) (first second : Position)
    (ordinal : Nat) :
    offset.Frames first (mutator.mutate first ordinal) ∧
    offset.Frames second (mutator.mutate second ordinal) ∧
    ∀ place axis, offset.axes[place]? = some axis →
      ∃ bound, offset.maxOffset.get? axis = some bound ∧
        ∀ value, first.value? axis = some value → second.value? axis = some value →
          (mutator.mutate first ordinal).value? axis =
            some (value + bound * offset.drawFor ordinal place) ∧
          (mutator.mutate second ordinal).value? axis =
            some (value + bound * offset.drawFor ordinal place) := by
  obtain ⟨hcheck, rfl⟩ := Checked.return_eq_ok.mp h
  refine ⟨offset.mutate_frames first ordinal, offset.mutate_frames second ordinal, ?_⟩
  intro place axis haxis
  obtain ⟨bound, hbound, -, -⟩ := bound_of_check hcheck axis (List.mem_of_getElem? haxis)
  refine ⟨bound, hbound, ?_⟩
  intro value hfirst hsecond
  have hmoved := value?_mutate hnodup haxis hbound
  constructor
  · exact (hmoved first ordinal).trans (by rw [hfirst]; rfl)
  · exact (hmoved second ordinal).trans (by rw [hsecond]; rfl)

def pairOffset : RandomOffset := ⟨7, ["x", "y"], .ofList [("x", 0.25), ("y", 0.5)]⟩

def lonePosition : Position := .ofList [("y", ⟨2.0, 1⟩)]

def fullPosition : Position := .ofList [("x", ⟨1.0, 4⟩), ("y", ⟨2.0, 1⟩)]

theorem build_draws_apart_pairOffset :
    (pairOffset.mutator.mutate lonePosition 3).keys = ["y"] ∧
      (pairOffset.mutator.mutate lonePosition 3).value? "y" =
        some (2.0 + 0.5 * pairOffset.drawFor 3 1) ∧
      (pairOffset.mutator.mutate fullPosition 3).value? "y" =
        some (2.0 + 0.5 * pairOffset.drawFor 3 1) := by
  obtain ⟨hlone, -, hmoved⟩ :=
    build_draws_apart (show pairOffset.build = .ok pairOffset.mutator from rfl) (by decide)
      lonePosition fullPosition 3
  obtain ⟨bound, hbound, hvalue⟩ := hmoved 1 "y" rfl
  have hhalf : pairOffset.maxOffset.get? "y" = some 0.5 := rfl
  rw [hhalf] at hbound
  cases hbound
  exact ⟨hlone.keys_eq, hvalue 2.0 rfl rfl⟩

end RandomOffset

end ScanPath
