import ScanPath.Excluder
import ScanPath.Proofs.Checked
import ScanPath.Proofs.Composition.Mask

/-!
# Grouped regions

A group of regions is one excluder over the axes of the region that opened it.
So a region that joined is asked for the axes of the group in the group's order:
that is its own order, or the opposite one.  `partition` keeps the members of
the groups with the axes that they were declared over; what is proved of one
step of it holds of the whole by induction on the regions.
-/

namespace ScanPath

/-- The first axis gives the first coordinate in the plane of the region. -/
def Region.holds (region : Region) (axes : List String) (value : String → Float) : Bool :=
  match axes with
  | [first, second] => region.contains (value first) (value second)
  | _ => false

namespace RegionSet

theorem isAxisPair_iff {axes : List String} :
    isAxisPair axes = true ↔ ∃ first second, first ≠ second ∧ axes = [first, second] := by
  unfold isAxisPair
  split
  next first second => simp
  next hother =>
    constructor
    · intro h
      cases h
    · rintro ⟨first, second, -, haxes⟩
      exact absurd haxes (hother first second)

theorem exists_pair_of_check {set : RegionSet} (h : set.check = .ok ()) :
    ∃ first second, first ≠ second ∧ set.axes = [first, second] := by
  rw [← isAxisPair_iff]
  unfold check at h
  cases hpair : isAxisPair set.axes with
  | true => rfl
  | false =>
      rw [hpair] at h
      cases h

theorem accepts_excluder {set : RegionSet} {first second : String}
    (haxes : set.axes = [first, second]) (value : String → Float) :
    set.excluder.accepts (fun axis => some (value axis)) =
      set.regions.any fun region => region.holds set.axes value := by
  have hcoordinates : set.excluder.axes.mapM (fun axis => some (value axis)) =
      some [value first, value second] := by
    rw [excluder, haxes]
    rfl
  rw [Excluder.accepts, hcoordinates, haxes]
  rfl

end RegionSet

namespace ScanRegion

/-! ## Groups with their members -/

structure Group where
  axes : List String
  members : List ScanRegion

def Group.toSet (group : Group) : RegionSet := ⟨group.members.map ScanRegion.region, group.axes⟩

def enter (scanRegion : ScanRegion) : List Group → List Group
  | [] => [⟨scanRegion.axes, [scanRegion]⟩]
  | group :: groups =>
      if scanRegion.covers group.toSet then
        { group with members := group.members ++ [scanRegion] } :: groups
      else group :: scanRegion.enter groups

def partition (scanRegions : List ScanRegion) : List Group :=
  scanRegions.foldl (fun groups scanRegion => scanRegion.enter groups) []

theorem map_toSet_enter (scanRegion : ScanRegion) (groups : List Group) :
    (scanRegion.enter groups).map Group.toSet = scanRegion.join (groups.map Group.toSet) := by
  induction groups with
  | nil => rfl
  | cons group groups ih =>
      rw [enter, List.map_cons, join]
      split
      · simp [Group.toSet]
      · rw [List.map_cons, ih]

theorem map_toSet_partition (scanRegions : List ScanRegion) :
    (partition scanRegions).map Group.toSet = groups scanRegions := by
  have hrun : ∀ started : List Group,
      (scanRegions.foldl (fun groups scanRegion => scanRegion.enter groups) started).map
          Group.toSet =
        scanRegions.foldl (fun groups scanRegion => scanRegion.join groups)
          (started.map Group.toSet) := by
    induction scanRegions with
    | nil => exact fun _ => rfl
    | cons scanRegion scanRegions ih =>
        intro started
        rw [List.foldl_cons, List.foldl_cons, ih, map_toSet_enter]
  exact hrun []

structure Group.Sound (scanRegions : List ScanRegion) (group : Group) : Prop where
  opened : ∃ first rest, group.members = first :: rest ∧ group.axes = first.axes
  covered : ∀ member ∈ group.members, ∀ axis ∈ group.axes, axis ∈ member.axes
  given : ∀ member ∈ group.members, member ∈ scanRegions

theorem covers_iff {scanRegion : ScanRegion} {set : RegionSet} :
    scanRegion.covers set = true ↔ ∀ axis ∈ set.axes, axis ∈ scanRegion.axes := by
  simp [covers]

theorem enter_sound {scanRegions : List ScanRegion} {scanRegion : ScanRegion}
    (hmem : scanRegion ∈ scanRegions) {groups : List Group}
    (h : ∀ group ∈ groups, group.Sound scanRegions) :
    ∀ group ∈ scanRegion.enter groups, group.Sound scanRegions := by
  induction groups with
  | nil =>
      rw [enter]
      simpa using {
        opened := ⟨scanRegion, [], rfl, rfl⟩
        covered := by simp
        given := by simpa using hmem }
  | cons group groups ih =>
      rw [List.forall_mem_cons] at h
      rw [enter]
      split
      next hcovers =>
        rw [covers_iff] at hcovers
        rw [List.forall_mem_cons]
        obtain ⟨⟨first, rest, hmembers, haxes⟩, hcovered, hgiven⟩ := h.1
        refine ⟨⟨⟨first, rest ++ [scanRegion], by simp [hmembers], haxes⟩, ?_, ?_⟩, h.2⟩
        · intro member hmember
          rcases List.mem_append.mp hmember with hmember | hmember
          · exact hcovered member hmember
          · rw [List.mem_singleton.mp hmember]
            exact hcovers
        · intro member hmember
          rcases List.mem_append.mp hmember with hmember | hmember
          · exact hgiven member hmember
          · rw [List.mem_singleton.mp hmember]
            exact hmem
      next =>
        rw [List.forall_mem_cons]
        exact ⟨h.1, ih h.2⟩

theorem partition_sound (scanRegions : List ScanRegion) :
    ∀ group ∈ partition scanRegions, group.Sound scanRegions := by
  have hrun : ∀ (rest : List ScanRegion) (started : List Group), rest ⊆ scanRegions →
      (∀ group ∈ started, group.Sound scanRegions) →
      ∀ group ∈ rest.foldl (fun groups scanRegion => scanRegion.enter groups) started,
        group.Sound scanRegions := by
    intro rest
    induction rest with
    | nil => exact fun _ _ hstarted => hstarted
    | cons scanRegion rest ih =>
        intro started hsubset hstarted
        rw [List.cons_subset] at hsubset
        rw [List.foldl_cons]
        exact ih _ hsubset.2 (enter_sound hsubset.1 hstarted)
  exact hrun scanRegions [] (List.Subset.refl _) (by simp)

theorem eq_or_eq_swap_of_covers {axes : List String} {first second : String}
    (hne : first ≠ second) (hlength : axes.length = 2)
    (h : ∀ axis ∈ [first, second], axis ∈ axes) :
    axes = [first, second] ∨ axes = [second, first] := by
  obtain ⟨one, two, rfl⟩ := List.length_eq_two.mp hlength
  have hfirst := h first (by simp)
  have hsecond := h second (by simp)
  simp only [List.mem_cons, List.not_mem_nil, or_false] at hfirst hsecond
  rcases hfirst with rfl | rfl <;> rcases hsecond with rfl | rfl
  · exact absurd rfl hne
  · exact .inl rfl
  · exact .inr rfl
  · exact absurd rfl hne

theorem Group.Sound.axes_eq_or {scanRegions : List ScanRegion} {group : Group}
    (h : group.Sound scanRegions) (hlength : ∀ scanRegion ∈ scanRegions, scanRegion.axes.length = 2)
    (hpair : ∃ first second, first ≠ second ∧ group.axes = [first, second]) :
    ∀ member ∈ group.members,
      member.axes = group.axes ∨ member.axes = group.axes.reverse := by
  obtain ⟨first, second, hne, haxes⟩ := hpair
  intro member hmember
  rw [haxes]
  exact eq_or_eq_swap_of_covers hne (hlength member (h.given member hmember))
    (haxes ▸ h.covered member hmember)

/-! ## What the excluders keep -/

theorem grouped_eq_ok {scanRegions : List ScanRegion} {sets : List RegionSet}
    (h : grouped scanRegions = .ok sets) :
    sets = (partition scanRegions).map Group.toSet ∧
      ∀ group ∈ partition scanRegions, ∃ first second, first ≠ second ∧
        group.axes = [first, second] := by
  obtain ⟨hchecks, rfl⟩ := Checked.return_eq_ok.mp h
  rw [← map_toSet_partition] at hchecks ⊢
  refine ⟨rfl, ?_⟩
  intro group hgroup
  exact RegionSet.exists_pair_of_check
    (Checked.forM_eq_ok.mp hchecks _ (List.mem_map_of_mem hgroup))

theorem Group.accepts_toSet {group : Group}
    (hpair : ∃ first second, first ≠ second ∧ group.axes = [first, second])
    (value : String → Float) :
    (group.toSet.excluder.accepts fun axis => some (value axis)) = true ↔
      ∃ member ∈ group.members, member.region.holds group.axes value = true := by
  obtain ⟨first, second, -, haxes⟩ := hpair
  have haccepts : (group.toSet.excluder.accepts fun axis => some (value axis)) =
      group.toSet.regions.any fun region => region.holds group.axes value :=
    RegionSet.accepts_excluder haxes value
  rw [haccepts, List.any_eq_true]
  constructor
  · rintro ⟨region, hregion, hholds⟩
    obtain ⟨member, hmember, rfl⟩ := List.mem_map.mp hregion
    exact ⟨member, hmember, hholds⟩
  · rintro ⟨member, hmember, hholds⟩
    exact ⟨member.region, List.mem_map_of_mem hmember, hholds⟩

/-- Every member of a group is declared over the axes of the group, in its order or the opposite
one, and is asked in the order of the group.  When no two regions are declared over the same axes in
opposite orders, that is the order that it was declared in. -/
theorem accepts_grouped_iff {scanRegions : List ScanRegion} {sets : List RegionSet}
    (hlength : ∀ scanRegion ∈ scanRegions, scanRegion.axes.length = 2)
    (h : grouped scanRegions = .ok sets) (value : String → Float) :
    (∀ group ∈ partition scanRegions, ∀ member ∈ group.members,
      member.axes = group.axes ∨ member.axes = group.axes.reverse) ∧
    ((∀ set ∈ sets, (set.excluder.accepts fun axis => some (value axis)) = true) ↔
      ∀ group ∈ partition scanRegions, ∃ member ∈ group.members,
        member.region.holds group.axes value = true) ∧
    ((∀ first ∈ scanRegions, ∀ second ∈ scanRegions, second.axes ≠ first.axes.reverse) →
      ((∀ set ∈ sets, (set.excluder.accepts fun axis => some (value axis)) = true) ↔
        ∀ group ∈ partition scanRegions, ∃ member ∈ group.members,
          member.region.holds member.axes value = true)) := by
  obtain ⟨rfl, hpairs⟩ := grouped_eq_ok h
  have haxes : ∀ group ∈ partition scanRegions, ∀ member ∈ group.members,
      member.axes = group.axes ∨ member.axes = group.axes.reverse := fun group hgroup =>
    (partition_sound scanRegions group hgroup).axes_eq_or hlength (hpairs group hgroup)
  have hkept : (∀ set ∈ (partition scanRegions).map Group.toSet,
      (set.excluder.accepts fun axis => some (value axis)) = true) ↔
        ∀ group ∈ partition scanRegions, ∃ member ∈ group.members,
          member.region.holds group.axes value = true := by
    rw [List.forall_mem_map]
    apply forall₂_congr
    intro group hgroup
    exact Group.accepts_toSet (hpairs group hgroup) value
  refine ⟨haxes, hkept, ?_⟩
  intro hstraight
  rw [hkept]
  apply forall₂_congr
  intro group hgroup
  have hsound := partition_sound scanRegions group hgroup
  obtain ⟨first, rest, hmembers, hfirst⟩ := hsound.opened
  have hgiven := hsound.given first (hmembers ▸ List.mem_cons_self)
  have hsame : ∀ member ∈ group.members, member.axes = group.axes := by
    intro member hmember
    rcases haxes group hgroup member hmember with heq | hswap
    · exact heq
    · rw [hfirst] at hswap
      exact absurd hswap (hstraight first hgiven member (hsound.given member hmember))
  constructor
  · rintro ⟨member, hmember, hholds⟩
    exact ⟨member, hmember, (hsame member hmember).symm ▸ hholds⟩
  · rintro ⟨member, hmember, hholds⟩
    exact ⟨member, hmember, hsame member hmember ▸ hholds⟩

def samplePoints (axes : List String) : List ScanRegion :=
  [⟨.point (0.0, 0.0), ["x", "y"]⟩, ⟨.point (2.0, 0.0), axes⟩]

def sampleValue (far axis : String) : Float := if axis = far then 2.0 else 0.0

theorem accepts_grouped_iff_samplePoints :
    ∃ sets, grouped (samplePoints ["x", "y"]) = .ok sets ∧
      ∀ set ∈ sets, (set.excluder.accepts fun axis => some (sampleValue "x" axis)) = true := by
  obtain ⟨sets, hgrouped⟩ := Checked.exists_eq_ok
    (show (grouped (samplePoints ["x", "y"])).isOk = true by decide +kernel)
  obtain ⟨-, -, hstraight⟩ := accepts_grouped_iff
    (show ∀ scanRegion ∈ samplePoints ["x", "y"], scanRegion.axes.length = 2 by decide)
    hgrouped (sampleValue "x")
  have hkept := hstraight (by decide)
  refine ⟨sets, hgrouped, hkept.mpr ?_⟩
  decide +kernel

/-- The point `(2, 0)` over `y` and `x` holds `y = 2` and `x = 0`.  The group that it joined asks it
for `x` first, and these values are dropped. -/
theorem accepts_grouped_opposite :
    ∃ sets, grouped (samplePoints ["y", "x"]) = .ok sets ∧
      (∀ scanRegion ∈ samplePoints ["y", "x"], scanRegion.axes.length = 2) ∧
      (∀ group ∈ partition (samplePoints ["y", "x"]), ∃ member ∈ group.members,
        member.region.holds member.axes (sampleValue "y") = true) ∧
      ¬ ∀ set ∈ sets, (set.excluder.accepts fun axis => some (sampleValue "y" axis)) = true := by
  obtain ⟨sets, hgrouped⟩ := Checked.exists_eq_ok
    (show (grouped (samplePoints ["y", "x"])).isOk = true by decide +kernel)
  have hheld : ∀ group ∈ partition (samplePoints ["y", "x"]), ∃ member ∈ group.members,
      member.region.holds member.axes (sampleValue "y") = true := by
    decide +kernel
  refine ⟨sets, hgrouped, by decide, hheld, ?_⟩
  rw [(grouped_eq_ok hgrouped).1]
  decide +kernel

end ScanRegion

end ScanPath
