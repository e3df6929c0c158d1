import ScanPath.Projection
import ScanPath.Proofs.Composition.Indices

/-!
# What projected points show

A projected point is looked up axis by axis, whatever its form.  It lists the
axes of the scan that the position carries, and since no axis of a scan comes
twice, their order in the list does not matter for what is found.  The form
itself is settled by the number of axes as long as none of them is missing.
-/

namespace ScanPath

theorem Keyed.lookup_filterMap {α : Type} (f : String → Option α) (keys : List String)
    (key : String) :
    (keys.filterMap fun name => (f name).map (Prod.mk name)).lookup key =
      if key ∈ keys then f key else none := by
  induction keys with
  | nil => simp
  | cons name keys ih =>
      rw [List.filterMap_cons]
      by_cases hkey : key = name
      · subst hkey
        cases hname : f key with
        | none => simp [ih, hname]
        | some value => simp
      · cases f name with
        | none => simp [ih, hkey]
        | some value => simp [ih, hkey, List.lookup_cons, beq_false_of_ne hkey]

namespace PointShape

def held : PointShape → List (String × AxisPoint)
  | .scalar entry => [(entry.axis, AxisEntry.point entry)]
  | .pair x y _ => [(x.axis, AxisEntry.point x), (y.axis, AxisEntry.point y)]
  | .map entries _ => entries

theorem point?_eq_lookup (shape : PointShape) (axis : String) :
    shape.point? axis = shape.held.lookup axis := by
  cases shape with
  | scalar entry => grind [point?, held]
  | pair x y names => grind [point?, held]
  | map entries names => rfl

/-- The form of a point that has all these axes.  Only the order of a pair, and whether it comes
with the dimension names, depend on the layout. -/
structure Fits (axes : List String) (dimensionNames : List (List String)) (layout : PairLayout)
    (shape : PointShape) : Prop where
  scalar_iff : (∃ entry, shape = .scalar entry) ↔ axes.length = 1
  pair_iff : (∃ x y names, shape = .pair x y names) ↔ axes.length = 2
  map_iff : (∃ entries names, shape = .map entries names) ↔ axes.length ≠ 1 ∧ axes.length ≠ 2
  scalar_axis : ∀ entry, shape = .scalar entry → axes = [entry.axis]
  pair_axes : ∀ x y names, shape = .pair x y names →
    match layout with
    | .fastFirst => axes = [y.axis, x.axis] ∧ names = some dimensionNames
    | .declared => axes = [x.axis, y.axis] ∧ names = none
  map_axes : ∀ entries names, shape = .map entries names →
    entries.map Prod.fst = axes ∧ names = dimensionNames

end PointShape

namespace Projector

variable (projector : Projector) (position : Position)

def Covers : Prop := ∀ axis ∈ projector.axisOrdering, position.contains axis = true

def present : List (String × AxisPoint) :=
  projector.axisOrdering.filterMap fun axis => (position.get? axis).map (Prod.mk axis)

/-- What `project` gives in each case, and the conditions of the case. -/
inductive Projects : PointShape → Prop
  | scalar (only : AxisEntry) (entries : projector.entries position = [only])
      (arity : projector.arity = 1) : Projects (.scalar only)
  | fastFirst (first second : AxisEntry) (entries : projector.entries position = [first, second])
      (arity : projector.arity = 2) (layout : projector.layout = .fastFirst) :
      Projects (.pair second first (some projector.dimensionNames))
  | declared (first second : AxisEntry) (entries : projector.entries position = [first, second])
      (arity : projector.arity = 2) (layout : projector.layout = .declared) :
      Projects (.pair first second none)
  | map (arity : (projector.entries position).length = projector.arity →
      projector.arity ≠ 1 ∧ projector.arity ≠ 2) :
      Projects (.map (projector.present position) projector.dimensionNames)

theorem map_entries :
    (projector.entries position).map (fun entry => (entry.axis, PointShape.AxisEntry.point entry)) =
      projector.present position := by
  rw [entries, present, List.map_filterMap]
  simp only [Option.map_map]
  rfl

theorem map_fst_present :
    (projector.present position).map Prod.fst =
      projector.axisOrdering.filter position.contains := by
  rw [present, List.map_filterMap, ← List.filterMap_eq_filter]
  apply List.filterMap_congr
  intro axis _
  cases hget : position.get? axis <;> simp [Keyed.contains, hget, Option.guard]

theorem map_axis_entries : (projector.entries position).map AxisEntry.axis =
    projector.axisOrdering.filter position.contains := by
  rw [← map_fst_present, ← map_entries, List.map_map]
  rfl

theorem length_entries_eq_iff :
    (projector.entries position).length = projector.arity ↔ projector.Covers position := by
  rw [← List.length_map AxisEntry.axis, map_axis_entries, arity, List.length_filter_eq_length_iff]
  rfl

theorem projects_project : projector.Projects position (projector.project position) := by
  unfold project
  split
  next only harity hentries => exact .scalar only hentries harity
  next first second harity hentries =>
    cases hlayout : projector.layout with
    | fastFirst => exact .fastFirst first second hentries harity hlayout
    | declared => exact .declared first second hentries harity hlayout
  next hscalar hpair =>
    refine projector.map_entries position ▸ .map ?_
    intro hlength
    constructor
    · intro harity
      obtain ⟨only, honly⟩ := List.length_eq_one_iff.mp (hlength.trans harity)
      exact hscalar only harity honly
    · intro harity
      obtain ⟨first, second, hboth⟩ := List.length_eq_two.mp (hlength.trans harity)
      exact hpair first second harity hboth

/-! ## Look-up -/

variable {projector position}

theorem Projects.held_perm {shape : PointShape} (h : projector.Projects position shape) :
    shape.held.Perm (projector.present position) := by
  cases h with
  | scalar only hentries =>
      rw [← map_entries, hentries]
      rfl
  | fastFirst first second hentries =>
      rw [← map_entries, hentries]
      exact List.Perm.swap _ _ _
  | declared first second hentries =>
      rw [← map_entries, hentries]
      rfl
  | map => rfl

theorem point?_project (hnodup : projector.axisOrdering.Nodup) (axis : String) :
    (projector.project position).point? axis =
      if axis ∈ projector.axisOrdering then position.get? axis else none := by
  have hperm := (projector.projects_project position).held_perm
  have hpresent : ((projector.present position).map Prod.fst).Nodup := by
    rw [map_fst_present]
    exact hnodup.filter _
  rw [PointShape.point?_eq_lookup, ← Keyed.lookup_filterMap]
  apply Keyed.lookup_eq_of_mem_iff _ hpresent fun value => hperm.mem_iff
  exact (hperm.map Prod.fst).nodup_iff.mpr hpresent

/-! ## Complete and incomplete positions -/

theorem Projects.fits {shape : PointShape} (h : projector.Projects position shape)
    (hcovers : projector.Covers position) :
    shape.Fits projector.axisOrdering projector.dimensionNames projector.layout := by
  have haxes : (projector.entries position).map AxisEntry.axis = projector.axisOrdering := by
    rw [map_axis_entries, List.filter_eq_self]
    exact hcovers
  have hpresent : (projector.present position).map Prod.fst = projector.axisOrdering := by
    rw [map_fst_present, List.filter_eq_self]
    exact hcovers
  cases h with
  | scalar only hentries =>
      rw [hentries] at haxes
      constructor <;> simp [← haxes]
  | fastFirst first second hentries _ hlayout =>
      rw [hentries] at haxes
      constructor <;> simp [hlayout, ← haxes]
  | declared first second hentries _ hlayout =>
      rw [hentries] at haxes
      constructor <;> simp [hlayout, ← haxes]
  | map harity =>
      have hmany : projector.axisOrdering.length ≠ 1 ∧ projector.axisOrdering.length ≠ 2 :=
        harity (length_entries_eq_iff projector position |>.mpr hcovers)
      constructor <;> simp [hmany, hpresent]

theorem Projects.eq_map {shape : PointShape} (h : projector.Projects position shape)
    (hmissing : ¬ projector.Covers position) :
    shape = .map (projector.present position) projector.dimensionNames := by
  rw [← length_entries_eq_iff] at hmissing
  cases h with
  | scalar only hentries harity => exact absurd (by simp [hentries, harity]) hmissing
  | fastFirst first second hentries harity => exact absurd (by simp [hentries, harity]) hmissing
  | declared first second hentries harity => exact absurd (by simp [hentries, harity]) hmissing
  | map => rfl

end Projector

namespace Composition

variable {composition : Composition}

theorem Prepared.axisOrdering_ne_nil (h : Prepared composition)
    (haxes : ∀ leaf ∈ composition.leaves, leaf.axes ≠ []) : composition.axisOrdering ≠ [] := by
  obtain ⟨hleaves, _, _, _, _, hassembled⟩ := h.assembled
  rw [hassembled.axisOrdering_eq, ← hassembled.leaves_eq]
  obtain ⟨leaf, hmem⟩ := List.exists_mem_of_ne_nil _ hleaves
  obtain ⟨axis, haxis⟩ := List.exists_mem_of_ne_nil _ (haxes leaf hmem)
  exact List.ne_nil_of_mem (List.mem_flatMap.mpr ⟨leaf, hmem, haxis⟩)

/-- On the axes of the scan a projected point shows what the position shows there, and on other
axes nothing.  The number of axes settles the form of a complete position, the layout only the order
of a pair; an incomplete position is given out as a list of the axes that it has.  Were no leaf to
have an axis, the number would be zero, and the list without entries. -/
theorem Prepared.project_shows (h : Prepared composition) (layout : PairLayout)
    (position : Position) :
    let shape := (Projector.ofComposition composition layout).project position
    let complete := ∀ axis ∈ composition.axisOrdering, position.contains axis = true
    (∀ axis ∈ composition.axisOrdering, shape.value? axis = position.value? axis ∧
      shape.index? axis = (position.get? axis).map AxisPoint.index) ∧
    (∀ axis, axis ∉ composition.axisOrdering →
      shape.value? axis = none ∧ shape.index? axis = none) ∧
    (complete → shape.Fits composition.axisOrdering composition.dimensionNames layout ∧
      ((∀ leaf ∈ composition.leaves, leaf.axes ≠ []) →
        ((∃ entries names, shape = .map entries names) ↔
          3 ≤ composition.axisOrdering.length))) ∧
    (¬ complete → ∃ entries, shape = .map entries composition.dimensionNames ∧
      entries.map Prod.fst = composition.axisOrdering.filter position.contains) := by
  intro shape complete
  have hpoint : ∀ axis, shape.point? axis =
      if axis ∈ composition.axisOrdering then position.get? axis else none :=
    Projector.point?_project h.axisOrdering_nodup
  have hprojects := (Projector.ofComposition composition layout).projects_project position
  refine ⟨?_, ?_, ?_, ?_⟩
  · intro axis hmem
    rw [PointShape.value?, PointShape.index?, hpoint, if_pos hmem]
    exact ⟨rfl, rfl⟩
  · intro axis hmem
    rw [PointShape.value?, PointShape.index?, hpoint, if_neg hmem]
    exact ⟨rfl, rfl⟩
  · intro hcomplete
    have hfits : shape.Fits composition.axisOrdering composition.dimensionNames layout :=
      hprojects.fits hcomplete
    refine ⟨hfits, ?_⟩
    intro haxes
    have hpos := List.length_pos_iff.mpr (h.axisOrdering_ne_nil haxes)
    rw [hfits.map_iff]
    omega
  · intro hmissing
    exact ⟨_, hprojects.eq_map hmissing, Projector.map_fst_present _ position⟩

def crossComposer : Composer :=
  .ofParts [.leaf (sampleLeaf "y" 2 false), .leaf (sampleLeaf "x" 3 true)] [] [] none

def strayPosition : Position := .ofList [("x", ⟨0.5, 1⟩), ("y", ⟨1.0, 1⟩), ("z", ⟨2.0, 7⟩)]

theorem Prepared.project_shows_crossComposer :
    ∃ composition, crossComposer.prepare.1 = .ok composition ∧
      let fast := (Projector.ofComposition composition .fastFirst).project
      let declared := (Projector.ofComposition composition .declared).project
      (fast strayPosition).value? "x" = some 0.5 ∧ (fast strayPosition).index? "x" = some 1 ∧
        (fast strayPosition).value? "z" = none ∧
        (∃ x y, fast strayPosition = .pair x y (some [["y"], ["x"]]) ∧
          x.axis = "x" ∧ y.axis = "y") ∧
        (∃ x y, declared strayPosition = .pair x y none ∧ x.axis = "y" ∧ y.axis = "x") ∧
        ∃ entries, fast ∅ = .map entries [["y"], ["x"]] ∧ entries.map Prod.fst = [] := by
  obtain ⟨composition, hprepare, hfacts⟩ := Checked.exists_of_any
    (show crossComposer.prepare.1.toOption.any (fun composition =>
      composition.axisOrdering == ["y", "x"] && composition.dimensionNames == [["y"], ["x"]]) = true
      by decide +kernel)
  rw [Bool.and_eq_true, beq_iff_eq, beq_iff_eq] at hfacts
  obtain ⟨hordering, hnames⟩ := hfacts
  have hprepared : Prepared composition :=
    .of _ _ (by simp [crossComposer, Composer.ofParts]) hprepare
  obtain ⟨hknown, hunknown, hfast, -⟩ := hprepared.project_shows .fastFirst strayPosition
  obtain ⟨-, -, hdeclared, -⟩ := hprepared.project_shows .declared strayPosition
  obtain ⟨-, -, -, hincomplete⟩ := hprepared.project_shows .fastFirst ∅
  rw [hordering] at hknown hunknown hfast hdeclared hincomplete
  rw [hnames] at hfast hdeclared hincomplete
  have hcomplete : ∀ axis ∈ ["y", "x"], strayPosition.contains axis = true := by decide
  have hempty : ¬ ∀ axis ∈ ["y", "x"], (∅ : Position).contains axis = true := by decide
  have hfits := (hfast hcomplete).1
  have hfits' := (hdeclared hcomplete).1
  obtain ⟨x, y, names, hpair⟩ := hfits.pair_iff.mpr rfl
  obtain ⟨haxes, rfl⟩ := hfits.pair_axes x y names hpair
  obtain ⟨x', y', names', hpair'⟩ := hfits'.pair_iff.mpr rfl
  obtain ⟨haxes', rfl⟩ := hfits'.pair_axes x' y' names' hpair'
  refine ⟨composition, hprepare, (hknown "x" (by decide)).1, (hknown "x" (by decide)).2,
    (hunknown "z" (by decide)).1, ⟨x, y, hpair, ?_⟩, ⟨x', y', hpair', ?_⟩, hincomplete hempty⟩
  · simpa [eq_comm, and_comm] using haxes
  · simpa [eq_comm] using haxes'

end Composition

end ScanPath
