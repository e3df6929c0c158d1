import Mathlib.Algebra.Order.BigOperators.Group.List
import ScanPath.Mutator
import ScanPath.Proofs.Checked
import ScanPath.Proofs.Random

/-!
# Random offsets

One number is drawn for every entry of the list of axes, and an axis takes the
numbers of its own entries, one after the other.  So an axis that is listed once
moves by one offset within its bound, and one that is listed several times by
as many, which together may go beyond it.
-/

namespace ScanPath

open Float.Model.UnpackedFloat

namespace Random.Stream

def draws : Nat → Stream → List Float
  | 0, _ => []
  | count + 1, stream => stream.symmetricUnit.1 :: draws count stream.symmetricUnit.2

theorem length_draws (count : Nat) (stream : Stream) : (draws count stream).length = count := by
  induction count generalizing stream with
  | zero => rfl
  | succ count ih => rw [draws, List.length_cons, ih]

theorem exact_of_mem_draws {count : Nat} {stream : Stream} {draw : Float}
    (h : draw ∈ draws count stream) : draw.isFinite = true ∧ -1 ≤ exact draw ∧ exact draw < 1 := by
  induction count generalizing stream with
  | zero => cases h
  | succ count ih =>
      rcases List.mem_cons.mp h with rfl | h
      · exact exact_symmetricUnit_bounds stream
      · exact ih h

end Random.Stream

/-- The draws that stand at the entries of the axis. -/
def ownDraws (axis : String) (axes : List String) (draws : List Float) : List Float :=
  ((axes.zip draws).filter (·.1 == axis)).map Prod.snd

theorem ownDraws_cons_self (axis : String) (axes : List String) (draw : Float)
    (draws : List Float) :
    ownDraws axis (axis :: axes) (draw :: draws) = draw :: ownDraws axis axes draws := by
  simp [ownDraws]

theorem ownDraws_cons_of_ne {axis name : String} (h : name ≠ axis) (axes : List String)
    (draw : Float) (draws : List Float) :
    ownDraws axis (name :: axes) (draw :: draws) = ownDraws axis axes draws := by
  simp [ownDraws, h]

theorem length_ownDraws (axis : String) {axes : List String} {draws : List Float}
    (h : draws.length = axes.length) : (ownDraws axis axes draws).length = axes.count axis := by
  induction axes generalizing draws with
  | nil => rfl
  | cons name axes ih =>
      obtain ⟨draw, draws, rfl⟩ := List.exists_cons_of_length_eq_add_one h
      have hrest := ih (Nat.succ.inj h)
      by_cases hname : name = axis
      · subst hname
        rw [ownDraws_cons_self, List.length_cons, hrest, List.count_cons_self]
      · rw [ownDraws_cons_of_ne hname, hrest, List.count_cons_of_ne hname]

theorem mem_of_mem_ownDraws {axis : String} {axes : List String} {draws : List Float}
    {draw : Float} (h : draw ∈ ownDraws axis axes draws) : draw ∈ draws := by
  obtain ⟨⟨name, _⟩, hmem, rfl⟩ := List.mem_map.mp h
  exact (List.of_mem_zip (List.mem_filter.mp hmem).1).2

def Position.indices (position : Position) : Keyed Nat := position.map AxisPoint.index

def AxisPoint.moved (bound : Float) (draws : List Float) (point : AxisPoint) : AxisPoint :=
  { point with value := draws.foldl (fun value draw => value + bound * draw) point.value }

namespace RandomOffset

def nudge (bounds : Keyed Float) (position : Position) (axis : String) (draw : Float) : Position :=
  match bounds.get? axis with
  | none => position
  | some bound => position.offset axis (bound * draw)

theorem perturb_cons (bounds : Keyed Float) (axis : String) (axes : List String)
    (stream : Random.Stream) (position : Position) :
    perturb bounds (axis :: axes) stream position =
      perturb bounds axes stream.symmetricUnit.2
        (nudge bounds position axis stream.symmetricUnit.1) := rfl

theorem get?_nudge_self {bounds : Keyed Float} {axis : String} {bound : Float}
    (h : bounds.get? axis = some bound) (position : Position) (draw : Float) :
    (nudge bounds position axis draw).get? axis =
      (position.get? axis).map (.moved bound [draw]) := by
  unfold nudge
  rw [h]
  exact (Keyed.get?_modify _ _ _ _).trans (if_pos rfl)

theorem get?_nudge_of_ne {axis name : String} (h : axis ≠ name) (bounds : Keyed Float)
    (position : Position) (draw : Float) :
    (nudge bounds position name draw).get? axis = position.get? axis := by
  unfold nudge
  cases bounds.get? name with
  | none => rfl
  | some bound => exact (Keyed.get?_modify _ _ _ _).trans (if_neg h)

/-- The draws of an axis are all that moves it. -/
theorem get?_perturb {bounds : Keyed Float} {axis : String} {bound : Float}
    (hbound : bounds.get? axis = some bound) (axes : List String) (stream : Random.Stream)
    (position : Position) :
    (perturb bounds axes stream position).get? axis =
      (position.get? axis).map (.moved bound (ownDraws axis axes (stream.draws axes.length))) := by
  induction axes generalizing stream position with
  | nil => exact Option.map_id'.symm
  | cons name axes ih =>
      rw [perturb_cons, ih, List.length_cons, Random.Stream.draws]
      by_cases hname : name = axis
      · subst hname
        rw [get?_nudge_self hbound, Option.map_map, ownDraws_cons_self]
        rfl
      · rw [get?_nudge_of_ne (Ne.symm hname), ownDraws_cons_of_ne hname]

theorem get?_perturb_of_not_mem {axis : String} {axes : List String} (h : axis ∉ axes)
    (bounds : Keyed Float) (stream : Random.Stream) (position : Position) :
    (perturb bounds axes stream position).get? axis = position.get? axis := by
  induction axes generalizing stream position with
  | nil => rfl
  | cons name axes ih =>
      rw [List.mem_cons, not_or] at h
      rw [perturb_cons, ih h.2, get?_nudge_of_ne h.1]

theorem nudge_indices (bounds : Keyed Float) (position : Position) (axis : String)
    (draw : Float) : (nudge bounds position axis draw).indices = position.indices := by
  unfold nudge
  cases bounds.get? axis with
  | none => rfl
  | some bound =>
      apply Keyed.ext
      simp only [Position.indices, Position.offset, Keyed.map, Keyed.modify, List.map_map]
      apply List.map_congr_left
      intro entry _
      by_cases haxis : entry.1 = axis <;> simp [haxis]

theorem perturb_indices (bounds : Keyed Float) (axes : List String) (stream : Random.Stream)
    (position : Position) : (perturb bounds axes stream position).indices = position.indices := by
  induction axes generalizing stream position with
  | nil => rfl
  | cons axis axes ih => rw [perturb_cons, ih, nudge_indices]

theorem bound_of_check {offset : RandomOffset} (h : offset.check = .ok ()) :
    ∀ axis ∈ offset.axes, ∃ bound, offset.maxOffset.get? axis = some bound ∧
      bound.isFinite = true ∧ 0 ≤ exact bound := by
  intro axis hmem
  unfold check at h
  split at h
  · cases h
  · have haxis := Checked.forM_eq_ok.mp h axis hmem
    unfold checkAxis at haxis
    split at haxis
    · cases haxis
    next bound hbound =>
      split at haxis
      next hsound =>
        rw [Bool.and_eq_true, decide_eq_true_eq] at hsound
        exact ⟨bound, hbound, hsound.1, exact_nonneg hsound.2⟩
      · cases haxis

/-- How far the draws move an axis, without the rounding of the sums. -/
def displacement (bound : Float) (draws : List Float) : ℚ :=
  (draws.map fun draw => exact bound * exact draw).sum

theorem abs_displacement_le {bound : Float} (hbound : 0 ≤ exact bound) {draws : List Float}
    (h : ∀ draw ∈ draws, -1 ≤ exact draw ∧ exact draw < 1) :
    |displacement bound draws| ≤ draws.length * exact bound := by
  induction draws with
  | nil => simp [displacement]
  | cons draw draws ih =>
      rw [List.forall_mem_cons] at h
      have hone : |exact bound * exact draw| ≤ exact bound := by
        rw [abs_mul, abs_of_nonneg hbound]
        exact mul_le_of_le_one_right hbound (abs_le.mpr ⟨h.1.1, le_of_lt h.1.2⟩)
      calc |displacement bound (draw :: draws)|
          = |exact bound * exact draw + displacement bound draws| := by
            rw [displacement, List.map_cons, List.sum_cons, displacement]
        _ ≤ |exact bound * exact draw| + |displacement bound draws| := abs_add_le _ _
        _ ≤ exact bound + draws.length * exact bound := add_le_add hone (ih h.2)
        _ = (draw :: draws).length * exact bound := by
            rw [List.length_cons]
            push_cast
            ring

/-- What a mutator makes of a position with some draws, one for every entry of its axes. -/
structure Moves (offset : RandomOffset) (draws : List Float) (position mutated : Position) :
    Prop where
  length_eq : draws.length = offset.axes.length
  bounded : ∀ draw ∈ draws, draw.isFinite = true ∧ -1 ≤ exact draw ∧ exact draw < 1
  kept : ∀ axis ∉ offset.axes, mutated.get? axis = position.get? axis
  moved : ∀ axis ∈ offset.axes, ∃ bound, offset.maxOffset.get? axis = some bound ∧
    bound.isFinite = true ∧ 0 ≤ exact bound ∧
      mutated.get? axis =
        (position.get? axis).map (.moved bound (ownDraws axis offset.axes draws)) ∧
      (ownDraws axis offset.axes draws).length = offset.axes.count axis ∧
      |displacement bound (ownDraws axis offset.axes draws)| ≤
        offset.axes.count axis * exact bound

theorem mutate_moves {offset : RandomOffset} (h : offset.check = .ok ()) (position : Position)
    (ordinal : Nat) :
    ∃ draws, offset.Moves draws position (offset.mutate position ordinal) := by
  refine ⟨(Random.Stream.ofSubstream offset.seed.toUInt64 ordinal.toUInt64).draws
    offset.axes.length, ?_⟩
  have hlength := Random.Stream.length_draws offset.axes.length
    (.ofSubstream offset.seed.toUInt64 ordinal.toUInt64)
  constructor
  case length_eq => exact hlength
  case bounded => exact fun _ => Random.Stream.exact_of_mem_draws
  case kept => exact fun axis hnot => get?_perturb_of_not_mem hnot _ _ position
  case moved =>
    intro axis hmem
    obtain ⟨bound, hbound, hfinite, hnonneg⟩ := bound_of_check h axis hmem
    have hcount := length_ownDraws axis hlength
    refine ⟨bound, hbound, hfinite, hnonneg, get?_perturb hbound _ _ position, hcount, ?_⟩
    rw [← hcount]
    apply abs_displacement_le hnonneg
    intro draw hdraw
    exact (Random.Stream.exact_of_mem_draws (mem_of_mem_ownDraws hdraw)).2

/-- An accepted mutator moves every listed axis by as many offsets as the axis is listed times, each
within the bound; if no axis is listed twice, by one. -/
theorem build_moves {offset : RandomOffset} {mutator : Mutator} (h : offset.build = .ok mutator)
    (position : Position) (ordinal : Nat) :
    ∃ draws, offset.Moves draws position (mutator.mutate position ordinal) ∧
      (offset.axes.Nodup → ∀ axis ∈ offset.axes, ∃ bound draw,
        offset.maxOffset.get? axis = some bound ∧ (-1 ≤ exact draw ∧ exact draw < 1) ∧
        |exact bound * exact draw| ≤ exact bound ∧
        ∀ point, position.get? axis = some point →
          (mutator.mutate position ordinal).get? axis =
            some { point with value := point.value + bound * draw }) := by
  obtain ⟨hcheck, rfl⟩ := Checked.return_eq_ok.mp h
  obtain ⟨draws, hmoves⟩ := mutate_moves hcheck position ordinal
  refine ⟨draws, hmoves, ?_⟩
  intro hnodup axis hmem
  obtain ⟨bound, hbound, -, -, hmoved, hcount, hmost⟩ := hmoves.moved axis hmem
  rw [List.count_eq_one_of_mem hnodup hmem] at hcount hmost
  obtain ⟨draw, hdraw⟩ := List.length_eq_one_iff.mp hcount
  have hbounded := hmoves.bounded draw (mem_of_mem_ownDraws (hdraw ▸ List.mem_singleton_self draw))
  rw [hdraw] at hmoved hmost
  refine ⟨bound, draw, hbound, hbounded.2, ?_, ?_⟩
  · simpa [displacement] using hmost
  · intro point hpoint
    exact hmoved.trans (congrArg (Option.map _) hpoint)

def samplePosition : Position := .ofList [("x", ⟨0.0, 3⟩)]

def singleOffset : RandomOffset := ⟨7, ["x"], .ofList [("x", 0.25)]⟩

theorem build_moves_singleOffset :
    ∃ draw, (-1 ≤ exact draw ∧ exact draw < 1) ∧
      (singleOffset.mutator.mutate samplePosition 1).get? "x" = some ⟨0.0 + 0.25 * draw, 3⟩ := by
  obtain ⟨draws, -, hsingle⟩ :=
    build_moves (show singleOffset.build = .ok singleOffset.mutator from rfl) samplePosition 1
  obtain ⟨bound, draw, hbound, hdraw, -, hmoved⟩ := hsingle (by decide) "x" (by decide)
  have hquarter : singleOffset.maxOffset.get? "x" = some 0.25 := rfl
  have hpoint : samplePosition.get? "x" = some ⟨0.0, 3⟩ := rfl
  rw [hquarter] at hbound
  cases hbound
  exact ⟨draw, hdraw, hmoved ⟨0.0, 3⟩ hpoint⟩

def repeatedOffset : RandomOffset := ⟨0, ["x", "x"], .ofList [("x", 1.0)]⟩

/-- An axis that is listed twice is moved twice, here by more than its bound. -/
theorem mutate_repeatedOffset :
    repeatedOffset.build = .ok repeatedOffset.mutator ∧
      repeatedOffset.maxOffset.get? "x" = some 1.0 ∧
      samplePosition.value? "x" = some 0.0 ∧
      (repeatedOffset.mutate samplePosition 1).value? "x" = some (-1.146301937135692) ∧
      exact 1.0 < |exact (-1.146301937135692) - exact 0.0| := by
  have hone : (1.0 : Float).toModel.unpack = .finite .positive (2 ^ 52) (-52) (by decide) := rfl
  have hzero : (0.0 : Float).toModel.unpack = .zero .positive := rfl
  have hmoved : (-1.146301937135692 : Float).toModel.unpack =
      .finite .negative 5162484976938380 (-52) (by decide) := rfl
  refine ⟨rfl, rfl, rfl, by decide +kernel, ?_⟩
  simp only [exact, hone, hzero, hmoved, Sign.apply]
  norm_num [abs_of_neg]

end RandomOffset

end ScanPath
