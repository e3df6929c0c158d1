import ScanPath.Proofs.Binary64
import ScanPath.Proofs.Composition.Counting
import ScanPath.Proofs.Composition.Overlaps

/-!
# Why a composer refuses

The checks of a composer come in a fixed order and each one names the first
thing that it finds wrong.  A check is reached only if all before it passed, so
what it finds holds together with what they established; after the first call,
whatever it gave, none of them is made again.
-/

namespace ScanPath

/-- Not a number, infinite and positive, or a zero of either sign. -/
def BadDuration (duration : Float) : Prop :=
  duration.isNaN = true ∨ duration = 1.0 / 0.0 ∨ duration = 0.0 ∨ duration = -0.0

namespace Composer

theorem settledDuration_of_bad {duration : Float} (h : BadDuration duration) :
    settledDuration (some duration) = .error (.badDuration duration) := by
  rcases h with hnan | rfl | rfl | rfl
  case inl =>
    rw [settledDuration, if_neg (not_lt_of_isNaN hnan 0.0), isFinite_of_isNaN hnan]
    rfl
  all_goals rfl

theorem settledDuration_of_sound {duration : Option Float}
    (h : ∀ time, duration = some time → ¬ BadDuration time) :
    settledDuration duration = .ok (duration.filter (0.0 < ·)) ∧
      ∀ time, duration = some time → 0.0 < time → time.isFinite = true := by
  cases duration with
  | none => exact ⟨rfl, fun _ hnone => by cases hnone⟩
  | some time =>
      have hsound := h time rfl
      cases standing time with
      | notANumber hnan => exact absurd (.inl hnan) hsound
      | zero hzero => exact absurd (.inr (.inr hzero)) hsound
      | infinite hinfinite => exact absurd (.inr (.inl hinfinite)) hsound
      | negative hneg =>
          have hnot : ¬ 0.0 < time := fun hpos => (of_zero_lt hpos).1 hneg
          rw [settledDuration, if_pos hneg, Option.filter_some_neg (by simpa using hnot)]
          refine ⟨rfl, ?_⟩
          rintro _ ⟨⟩ hpos
          exact absurd hpos hnot
      | positive hpos hfinite =>
          obtain ⟨hneg, hzero⟩ := of_zero_lt hpos
          rw [settledDuration, if_neg hneg, hfinite, hzero,
            Option.filter_some_pos (by simpa using hpos)]
          refine ⟨rfl, ?_⟩
          rintro _ ⟨⟩ _
          exact hfinite

end Composer

namespace Composition

def mentions (excluders : List Excluder) (mutators : List Mutator) : List (Role × String) :=
  (excluders.flatMap Excluder.axes).map (.excluder, ·) ++
    (mutators.flatMap Mutator.axes).map (.mutator, ·)

/-- The first axis named that no leaf has, and the role of what names it. -/
def firstUnknown? (leaves : List Leaf) (excluders : List Excluder) (mutators : List Mutator) :
    Option (Role × String) :=
  (mentions excluders mutators).find? fun mention => !(leaves.flatMap Leaf.axes).contains mention.2

private theorem forM_requireKnown {α : Type} (owners : Keyed Nat) (role : Role)
    (axes : α → List String) (items : List α) :
    (items.forM fun item => requireKnown owners role (axes item)) =
      requireKnown owners role (items.flatMap axes) := by
  induction items with
  | nil => rfl
  | cons item items ih =>
      change (requireKnown owners role (axes item) >>= fun _ => _) = _
      rw [ih, List.flatMap_cons]
      unfold requireKnown
      rw [List.find?_append]
      cases (axes item).find? fun axis => !owners.contains axis with
      | none => rfl
      | some axis => rfl

theorem forM_requireKnown_eq {leaves : List Leaf} {owners : Keyed Nat}
    (howners : claimLeaves 0 ∅ leaves = .ok owners) (excluders : List Excluder)
    (mutators : List Mutator) :
    (do
      excluders.forM fun excluder => requireKnown owners .excluder excluder.axes
      mutators.forM fun mutator => requireKnown owners .mutator mutator.axes) =
      match firstUnknown? leaves excluders mutators with
      | none => .ok ()
      | some (role, axis) => .error (.unknownAxis role axis) := by
  have hknown : ∀ axis, owners.contains axis = (leaves.flatMap Leaf.axes).contains axis := by
    intro axis
    rw [Keyed.contains, (claimLeaves_empty_eq_ok howners).2, Bool.eq_iff_iff,
      ownerFrom?_isSome_iff, List.contains_iff_mem]
  rw [forM_requireKnown, forM_requireKnown]
  simp only [requireKnown, hknown, firstUnknown?, mentions, List.find?_append, List.find?_map,
    Function.comp_def]
  cases (excluders.flatMap Excluder.axes).find? fun axis =>
      !(leaves.flatMap Leaf.axes).contains axis with
  | some axis => rfl
  | none =>
      cases (mutators.flatMap Mutator.axes).find? fun axis =>
          !(leaves.flatMap Leaf.axes).contains axis with
      | some axis => rfl
      | none => rfl

theorem firstUnknown?_eq_none_iff {leaves : List Leaf} {excluders : List Excluder}
    {mutators : List Mutator} :
    firstUnknown? leaves excluders mutators = none ↔
      (∀ excluder ∈ excluders, ∀ axis ∈ excluder.axes, axis ∈ leaves.flatMap Leaf.axes) ∧
        ∀ mutator ∈ mutators, ∀ axis ∈ mutator.axes, axis ∈ leaves.flatMap Leaf.axes := by
  rw [firstUnknown?, mentions, List.find?_append, Option.or_eq_none_iff, List.find?_eq_none,
    List.find?_eq_none]
  simp only [List.forall_mem_map, List.forall_mem_flatMap, Bool.not_eq_true, Bool.not_eq_false',
    List.contains_iff_mem]

theorem assemble_of_claims {leaves : List Leaf} {owners : Keyed Nat}
    (howners : claimLeaves 0 ∅ leaves = .ok owners) (excluders : List Excluder)
    (mutators : List Mutator) (duration : Option Float) :
    assemble leaves excluders mutators duration =
      match firstUnknown? leaves excluders mutators with
      | some (role, axis) => .error (.unknownAxis role axis)
      | none =>
          (countPoints (spanningOf owners excluders) (fold owners excluders 0 leaves)).map
            fun size =>
              ⟨fold owners excluders 0 leaves, owners, excluders, spanningOf owners excluders,
                mutators, duration, size⟩ := by
  have hchecks := forM_requireKnown_eq howners excluders mutators
  rw [assemble, howners, Checked.ok_bind]
  change (excluders.forM _ >>= fun _ => mutators.forM _ >>= fun _ => _) = _
  rw [← bind_assoc, hchecks]
  cases firstUnknown? leaves excluders mutators with
  | some unknown => rfl
  | none =>
      change (countPoints (spanningOf owners excluders) (fold owners excluders 0 leaves) >>= _) = _
      cases countPoints (spanningOf owners excluders) (fold owners excluders 0 leaves) with
      | error cause => rfl
      | ok size => rfl

end Composition

namespace Composer

open ScanPath.Composition

variable {composer : Composer}

/-! ## The first call -/

structure Startable (composer : Composer) : Prop where
  inputs_ne_nil : composer.inputs ≠ []
  duration_sound : ∀ duration, composer.duration = some duration → ¬ BadDuration duration

def LeavesDistinct (composer : Composer) : Prop := ∀ leaf ∈ composer.leaves, leaf.axes.Nodup

def unknown? (composer : Composer) : Option (Role × String) :=
  firstUnknown? composer.leaves composer.keptExcluders composer.keptMutators

/-- What a composer answers and why, one case for each check that can stop it. -/
inductive Answers (composer : Composer) : Except Cause Composition → Prop
  | noGenerators (inputs_eq : composer.inputs = []) : Answers composer (.error .noGenerators)
  | badDuration {duration : Float} (inputs_ne_nil : composer.inputs ≠ [])
      (duration_eq : composer.duration = some duration) (bad : BadDuration duration) :
      Answers composer (.error (.badDuration duration))
  | overlapping {axis : String} {first second : Nat} (startable : composer.Startable)
      (overlap : composer.LeavesDistinct → FirstOverlap composer.leaves axis first second) :
      Answers composer (.error (.overlappingAxes axis first second))
  | unknown {role : Role} {axis : String} (startable : composer.Startable)
      (apart : ¬ Overlapping composer.leaves)
      (unknown : composer.unknown? = some (role, axis)) :
      Answers composer (.error (.unknownAxis role axis))
  | overflow {shape : List Nat} (startable : composer.Startable)
      (apart : ¬ Overlapping composer.leaves)
      (known : composer.unknown? = none) :
      Answers composer (.error (.sizeOverflow shape))
  | composed {composition : Composition} (startable : composer.Startable)
      (apart : ¬ Overlapping composer.leaves)
      (known : composer.unknown? = none)
      (duration_eq : composition.duration = composer.duration.filter (0.0 < ·)) :
      Answers composer (.ok composition)

theorem prepare_of_nil (hfresh : composer.prepared = false) (h : composer.inputs = []) :
    composer.prepare.1 = .error .noGenerators := by
  rw [prepare, hfresh, if_neg Bool.false_ne_true]
  change composer.compose = _
  rw [compose, h]
  rfl

theorem prepare_of_bad (hfresh : composer.prepared = false) (h : composer.inputs ≠ [])
    {duration : Float} (hduration : composer.duration = some duration)
    (hbad : BadDuration duration) : composer.prepare.1 = .error (.badDuration duration) := by
  rw [prepare, hfresh, if_neg Bool.false_ne_true]
  change composer.compose = _
  rw [compose_of_ne_nil h, hduration, settledDuration_of_bad hbad]
  rfl

theorem Startable.prepare_eq (h : composer.Startable) (hfresh : composer.prepared = false) :
    composer.prepare.1 = assemble composer.leaves composer.keptExcluders composer.keptMutators
      (composer.duration.filter (0.0 < ·)) := by
  rw [prepare, hfresh, if_neg Bool.false_ne_true]
  change composer.compose = _
  rw [compose_of_ne_nil h.inputs_ne_nil, (settledDuration_of_sound h.duration_sound).1]
  rfl

theorem Startable.prepare_of_overlap (h : composer.Startable) (hfresh : composer.prepared = false)
    (hleaves : composer.LeavesDistinct) {axis : String} {first second : Nat}
    (hoverlap : FirstOverlap composer.leaves axis first second) :
    composer.prepare.1 = .error (.overlappingAxes axis first second) := by
  rw [h.prepare_eq hfresh, assemble,
    claimLeaves_of_overlap hleaves hoverlap]
  rfl

theorem Startable.prepare_of_unknown (h : composer.Startable) (hfresh : composer.prepared = false)
    {owners : Keyed Nat} (howners : claimLeaves 0 ∅ composer.leaves = .ok owners) {role : Role}
    {axis : String} (hunknown : composer.unknown? = some (role, axis)) :
    composer.prepare.1 = .error (.unknownAxis role axis) := by
  rw [unknown?] at hunknown
  rw [h.prepare_eq hfresh, assemble_of_claims howners, hunknown]

theorem Startable.composed_or_overflow (h : composer.Startable)
    (hfresh : composer.prepared = false) {owners : Keyed Nat}
    (howners : claimLeaves 0 ∅ composer.leaves = .ok owners) (hknown : composer.unknown? = none) :
    (∃ composition, composer.prepare.1 = .ok composition ∧
      composition.duration = composer.duration.filter (0.0 < ·)) ∨
    ∃ shape, composer.prepare.1 = .error (.sizeOverflow shape) := by
  rw [h.prepare_eq hfresh, assemble_of_claims howners, ← unknown?, hknown]
  by_cases hoverruns :
      Overruns ((fold owners composer.keptExcluders 0 composer.leaves).map Dimension.length)
  · rw [countPoints_of_overruns hoverruns]
    exact .inr ⟨_, rfl⟩
  · obtain ⟨size, hsize⟩ := exists_countPoints (spanningOf owners composer.keptExcluders) hoverruns
    rw [hsize]
    exact .inl ⟨_, rfl, rfl⟩

theorem prepare_answers (hfresh : composer.prepared = false) :
    Answers composer composer.prepare.1 := by
  by_cases hinputs : composer.inputs = []
  · rw [prepare_of_nil hfresh hinputs]
    exact .noGenerators hinputs
  by_cases hbad : ∃ duration, composer.duration = some duration ∧ BadDuration duration
  · obtain ⟨duration, hduration, hbad⟩ := hbad
    rw [prepare_of_bad hfresh hinputs hduration hbad]
    exact .badDuration hinputs hduration hbad
  have h : composer.Startable := by
    refine ⟨hinputs, ?_⟩
    intro duration hduration hduration'
    exact hbad ⟨duration, hduration, hduration'⟩
  cases hclaims : claimLeaves 0 ∅ composer.leaves with
  | error cause =>
      obtain ⟨axis, first, second, rfl, hoverlap⟩ := overlap_of_claimLeaves hclaims
      rw [h.prepare_eq hfresh, assemble, hclaims]
      exact .overlapping h hoverlap
  | ok owners =>
      cases hunknown : composer.unknown? with
      | some unknown =>
          rw [h.prepare_of_unknown hfresh hclaims hunknown]
          exact .unknown h (apart_of_claimLeaves hclaims) hunknown
      | none =>
          have hapart := apart_of_claimLeaves hclaims
          rcases h.composed_or_overflow hfresh hclaims hunknown with
            ⟨composition, hprepare, hduration⟩ | ⟨shape, hprepare⟩
          · rw [hprepare]
            exact .composed h hapart hunknown hduration
          · rw [hprepare]
            exact .overflow h hapart hunknown

/-! ## Further calls -/

/-- What a composer answers when it is called so many times in turn. -/
def answers : Nat → Composer → List (Except Cause Composition)
  | 0, _ => []
  | count + 1, composer => composer.prepare.1 :: answers count composer.prepare.2

theorem answers_of_prepared (h : composer.prepared = true) (count : Nat) :
    answers count composer = List.replicate count (.error .alreadyPrepared) := by
  have hprepare : composer.prepare = (.error .alreadyPrepared, composer) := by
    rw [prepare, if_pos h]
  induction count with
  | zero => rfl
  | succ count ih => rw [answers, hprepare, ih, List.replicate_succ]

theorem prepared_prepare (composer : Composer) : composer.prepare.2.prepared = true := by
  unfold prepare
  split
  next h => exact h
  next => rfl

/-! ## What stops a composer -/

structure Refusals (composer : Composer) (answer : Except Cause Composition) : Prop where
  noGenerators_iff : answer = .error .noGenerators ↔ composer.inputs = []
  badDuration_iff : ∀ duration, answer = .error (.badDuration duration) ↔
    composer.inputs ≠ [] ∧ composer.duration = some duration ∧ BadDuration duration
  overlapping_iff : composer.LeavesDistinct → ∀ axis first second,
    answer = .error (.overlappingAxes axis first second) ↔
      composer.Startable ∧ FirstOverlap composer.leaves axis first second
  overlaps_iff : composer.LeavesDistinct →
    (Overlapping composer.leaves ↔
      ∃ axis first second, FirstOverlap composer.leaves axis first second)
  unknown_iff : composer.LeavesDistinct → ∀ role axis, answer = .error (.unknownAxis role axis) ↔
    composer.Startable ∧ ¬ Overlapping composer.leaves ∧ composer.unknown? = some (role, axis)
  known_iff : composer.unknown? = none ↔
    (∀ excluder ∈ composer.keptExcluders, ∀ axis ∈ excluder.axes,
      axis ∈ composer.leaves.flatMap Leaf.axes) ∧
    ∀ mutator ∈ composer.keptMutators, ∀ axis ∈ mutator.axes,
      axis ∈ composer.leaves.flatMap Leaf.axes
  otherwise : composer.LeavesDistinct → composer.Startable → ¬ Overlapping composer.leaves →
    composer.unknown? = none →
      (∃ composition, answer = .ok composition) ∨ ∃ shape, answer = .error (.sizeOverflow shape)
  duration_eq : ∀ composition, answer = .ok composition →
    composition.duration = composer.duration.filter (0.0 < ·)
  duration_positive : ∀ composition duration, answer = .ok composition →
    composition.duration = some duration → duration.isFinite = true ∧ 0.0 < duration

/-- The answer to the first call is the first thing that is wrong, and every further call is
refused whatever the first one gave. -/
theorem prepare_refusals (composer : Composer) :
    (composer.prepared = false → composer.Refusals composer.prepare.1) ∧
      ∀ count, answers (count + 1) composer =
        composer.prepare.1 :: List.replicate count (.error .alreadyPrepared) := by
  refine ⟨?_, fun count => by rw [answers, answers_of_prepared (prepared_prepare composer)]⟩
  intro hfresh
  have hanswers := prepare_answers hfresh
  constructor
  case noGenerators_iff =>
    refine ⟨?_, prepare_of_nil hfresh⟩
    intro h
    rw [h] at hanswers
    cases hanswers with
    | noGenerators inputs_eq => exact inputs_eq
  case badDuration_iff =>
    intro duration
    refine ⟨?_, fun ⟨hinputs, hduration, hbad⟩ => prepare_of_bad hfresh hinputs hduration hbad⟩
    intro h
    rw [h] at hanswers
    cases hanswers with
    | badDuration inputs_ne_nil duration_eq bad => exact ⟨inputs_ne_nil, duration_eq, bad⟩
  case overlapping_iff =>
    intro hleaves axis first second
    refine ⟨?_, fun ⟨hstart, hoverlap⟩ => hstart.prepare_of_overlap hfresh hleaves hoverlap⟩
    intro h
    rw [h] at hanswers
    cases hanswers with
    | overlapping startable overlap => exact ⟨startable, overlap hleaves⟩
  case overlaps_iff => exact overlapping_iff_exists
  case unknown_iff =>
    intro hleaves role axis
    constructor
    · intro h
      rw [h] at hanswers
      cases hanswers with
      | unknown startable apart unknown => exact ⟨startable, apart, unknown⟩
    · rintro ⟨hstart, hapart, hunknown⟩
      obtain ⟨owners, howners⟩ := exists_claimLeaves hleaves hapart
      exact hstart.prepare_of_unknown hfresh howners hunknown
  case known_iff => exact firstUnknown?_eq_none_iff
  case otherwise =>
    intro hleaves hstart hapart hknown
    obtain ⟨owners, howners⟩ := exists_claimLeaves hleaves hapart
    rcases hstart.composed_or_overflow hfresh howners hknown with
      ⟨composition, hprepare, -⟩ | hoverflow
    · exact .inl ⟨composition, hprepare⟩
    · exact .inr hoverflow
  case duration_eq =>
    intro composition h
    rw [h] at hanswers
    cases hanswers with
    | composed startable apart known duration_eq => exact duration_eq
  case duration_positive =>
    intro composition duration h hduration
    rw [h] at hanswers
    cases hanswers with
    | composed startable apart known duration_eq =>
        rw [duration_eq, Option.filter_eq_some_iff, decide_eq_true_eq] at hduration
        obtain ⟨hset, hpositive⟩ := hduration
        exact ⟨(settledDuration_of_sound startable.duration_sound).2 _ hset hpositive, hpositive⟩

def crossedComposer : Composer :=
  ofParts [.leaf (sampleLeaf "x" 2 false), .leaf (sampleLeaf "y" 2 false),
      .leaf (Line.leaf ⟨["z", "x"], ["mm", "mm"], [0.0, 0.0], [1.0, 1.0], 3, false⟩)]
    [sampleExcluder ["w"]] [] (some (-1.0))

theorem prepare_refusals_crossedComposer :
    answers 2 crossedComposer =
      [.error (.overlappingAxes "x" 0 2), .error .alreadyPrepared] := by
  have hsettled : settledDuration crossedComposer.duration = .ok none := rfl
  have hstart : crossedComposer.Startable := by
    refine ⟨List.cons_ne_nil _ _, ?_⟩
    intro duration hduration hbad
    rw [hduration, settledDuration_of_bad hbad] at hsettled
    cases hsettled
  have hleaves : crossedComposer.LeavesDistinct :=
    show ∀ leaf ∈ crossedComposer.leaves, leaf.axes.Nodup by decide
  have hoverlap : FirstOverlap crossedComposer.leaves "x" 0 2 := ⟨rfl, by decide, by decide⟩
  obtain ⟨hfirst, hlater⟩ := prepare_refusals crossedComposer
  rw [hlater 1, ((hfirst rfl).overlapping_iff hleaves "x" 0 2).mpr ⟨hstart, hoverlap⟩]
  rfl

end Composer

end ScanPath
