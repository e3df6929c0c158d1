import ScanPath.Proofs.Grouping
import ScanPath.Proofs.Json.Sameness

/-!
# First fit

A region goes to the first group whose axes it covers.  The groups that come
after it change nothing about that, so the group of every region can be told
from the finished list: `home` is its place there.  What is kept by one region
more is kept by the whole list, and it says which regions stand in a group, in
which order, and in which order the groups were opened.
-/

namespace ScanPath.ScanRegion

def home (groups : List Group) (scanRegion : ScanRegion) : Nat :=
  groups.findIdx fun group => scanRegion.covers group.toSet

def Group.add (scanRegion : ScanRegion) (group : Group) : Group :=
  { group with members := group.members ++ [scanRegion] }

def Group.opening (scanRegion : ScanRegion) : Group := ⟨scanRegion.axes, [scanRegion]⟩

variable {scanRegion : ScanRegion} {groups : List Group}

theorem covers_opening (scanRegion : ScanRegion) :
    scanRegion.covers (Group.opening scanRegion).toSet = true := by
  simp [covers, Group.toSet, Group.opening]

theorem members_opening (scanRegion : ScanRegion) :
    (Group.opening scanRegion).members = [scanRegion] := rfl

theorem home_cons (scanRegion : ScanRegion) (group : Group) (groups : List Group) :
    scanRegion.home (group :: groups) =
      if scanRegion.covers group.toSet then 0 else scanRegion.home groups + 1 := by
  simp [home, List.findIdx_cons, Bool.cond_eq_ite]

theorem covers_home (h : scanRegion.home groups < groups.length) :
    scanRegion.covers groups[scanRegion.home groups].toSet = true :=
  List.findIdx_getElem (w := h)

theorem enter_of_lt (h : scanRegion.home groups < groups.length) :
    scanRegion.enter groups = groups.modify (scanRegion.home groups) (.add scanRegion) := by
  induction groups with
  | nil => simp at h
  | cons group groups ih =>
      rw [home_cons] at h ⊢
      rw [enter]
      split
      next hcovers => rfl
      next hcovers =>
        have hrest : scanRegion.home groups < groups.length := by simpa [hcovers] using h
        simp [ih hrest]

theorem enter_of_le (h : groups.length ≤ scanRegion.home groups) :
    scanRegion.enter groups = groups ++ [.opening scanRegion] := by
  induction groups with
  | nil => rfl
  | cons group groups ih =>
      rw [home_cons] at h
      rw [enter]
      split
      next hcovers => simp [hcovers] at h
      next hcovers =>
        have hrest : groups.length ≤ scanRegion.home groups := by simpa [hcovers] using h
        simp [ih hrest]

theorem map_axes_modify (groups : List Group) (place : Nat) (scanRegion : ScanRegion) :
    (groups.modify place (.add scanRegion)).map Group.axes = groups.map Group.axes := by
  induction groups generalizing place with
  | nil => simp
  | cons group groups ih =>
      cases place with
      | zero => simp [Group.add]
      | succ place => simp [ih]

theorem home_eq_of_map_axes_eq {others : List Group}
    (h : groups.map Group.axes = others.map Group.axes) : home groups = home others := by
  have hkeys : ∀ (scanRegion : ScanRegion) (given : List Group), scanRegion.home given =
      (given.map Group.axes).findIdx fun axes => axes.all (scanRegion.axes.contains ·) := by
    intro scanRegion given
    rw [List.findIdx_map]
    rfl
  funext scanRegion
  rw [hkeys, hkeys, h]

theorem home_modify (groups : List Group) (place : Nat) (scanRegion : ScanRegion) :
    home (groups.modify place (.add scanRegion)) = home groups :=
  home_eq_of_map_axes_eq (map_axes_modify groups place scanRegion)

theorem home_append_of_lt (h : scanRegion.home groups < groups.length) (others : List Group) :
    scanRegion.home (groups ++ others) = scanRegion.home groups := by
  rw [home, List.findIdx_append]
  exact if_pos h

theorem home_opening (h : groups.length ≤ scanRegion.home groups) :
    scanRegion.home (groups ++ [.opening scanRegion]) = groups.length := by
  have hnot : ¬ scanRegion.home groups < groups.length := Nat.not_lt.mpr h
  rw [home, List.findIdx_append]
  refine (if_neg hnot).trans ?_
  simp [covers_opening]

/-! ## Order of first appearance -/

/-- The numbers below `count`, each of which occurs, for the first time before the larger ones. -/
structure Enumerates (count : Nat) (numbers : List Nat) : Prop where
  bounded : ∀ number ∈ numbers, number < count
  occurs : ∀ number, number < count → number ∈ numbers
  ordered : ∀ first second, first < second → second < count →
    numbers.idxOf first < numbers.idxOf second

namespace Enumerates

variable {count : Nat} {numbers : List Nat}

theorem again (h : Enumerates count numbers) {number : Nat} (hlt : number < count) :
    Enumerates count (numbers ++ [number]) where
  bounded := by
    intro other hmem
    rcases List.mem_append.mp hmem with hmem | hmem
    · exact h.bounded other hmem
    · simpa [List.mem_singleton.mp hmem] using hlt
  occurs := fun other hother => List.mem_append_left _ (h.occurs other hother)
  ordered := by
    intro first second hfirst hsecond
    rw [List.idxOf_append_of_mem (h.occurs first (Nat.lt_trans hfirst hsecond)),
      List.idxOf_append_of_mem (h.occurs second hsecond)]
    exact h.ordered first second hfirst hsecond

theorem next (h : Enumerates count numbers) : Enumerates (count + 1) (numbers ++ [count]) where
  bounded := by
    intro other hmem
    rcases List.mem_append.mp hmem with hmem | hmem
    · exact Nat.lt_succ_of_lt (h.bounded other hmem)
    · simp [List.mem_singleton.mp hmem]
  occurs := by
    intro other hother
    rcases Nat.lt_or_eq_of_le (Nat.le_of_lt_succ hother) with hlt | rfl
    · exact List.mem_append_left _ (h.occurs other hlt)
    · simp
  ordered := by
    intro first second hfirst hsecond
    have hold := h.occurs first (by omega)
    rw [List.idxOf_append_of_mem hold]
    rcases Nat.lt_or_eq_of_le (Nat.le_of_lt_succ hsecond) with hlt | rfl
    · rw [List.idxOf_append_of_mem (h.occurs second hlt)]
      exact h.ordered first second hfirst hlt
    · have hnew : second ∉ numbers := fun hmem => Nat.lt_irrefl _ (h.bounded second hmem)
      rw [List.idxOf_append_of_notMem hnew]
      have := List.idxOf_lt_length_iff.mpr hold
      omega

end Enumerates

/-- Every region stands in its own group and nowhere else, in the order of the list; a group has the
axes of its first member, and the groups stand in the order of their first appearance. -/
structure FirstFit (scanRegions : List ScanRegion) (groups : List Group) : Prop where
  homes : Enumerates groups.length (scanRegions.map (home groups))
  members_eq : ∀ place (h : place < groups.length),
    groups[place].members = scanRegions.filter fun scanRegion => scanRegion.home groups == place
  opened : ∀ group ∈ groups, ∃ first rest, group.members = first :: rest ∧ group.axes = first.axes

theorem firstFit_nil : FirstFit [] [] where
  homes := ⟨by simp, by simp, by simp⟩
  members_eq := by simp
  opened := by simp

variable {scanRegions : List ScanRegion}

namespace FirstFit

theorem home_lt (h : FirstFit scanRegions groups) (hmem : scanRegion ∈ scanRegions) :
    scanRegion.home groups < groups.length :=
  h.homes.bounded _ (List.mem_map_of_mem hmem)

theorem join (h : FirstFit scanRegions groups) (hlt : scanRegion.home groups < groups.length) :
    FirstFit (scanRegions ++ [scanRegion])
      (groups.modify (scanRegion.home groups) (.add scanRegion)) where
  homes := by simpa [home_modify] using h.homes.again hlt
  members_eq := by
    intro place hplace
    rw [List.length_modify] at hplace
    simp only [List.getElem_modify, home_modify, List.filter_append, ← h.members_eq place hplace]
    split
    next heq => simp [heq, Group.add]
    next hne => simp [hne]
  opened := by
    intro group hmem
    obtain ⟨place, hplace, rfl⟩ := List.mem_iff_getElem.mp hmem
    rw [List.length_modify] at hplace
    obtain ⟨first, rest, hmembers, haxes⟩ := h.opened _ (List.getElem_mem hplace)
    rw [List.getElem_modify]
    split
    · exact ⟨first, rest ++ [scanRegion], by simp [Group.add, hmembers], haxes⟩
    · exact ⟨first, rest, hmembers, haxes⟩

theorem found (h : FirstFit scanRegions groups) (hle : groups.length ≤ scanRegion.home groups) :
    FirstFit (scanRegions ++ [scanRegion]) (groups ++ [.opening scanRegion]) := by
  have hold : ∀ other ∈ scanRegions,
      other.home (groups ++ [.opening scanRegion]) = other.home groups :=
    fun other hmem => home_append_of_lt (h.home_lt hmem) _
  have hnew : scanRegion.home (groups ++ [.opening scanRegion]) = groups.length := home_opening hle
  constructor
  case homes =>
    simpa [List.map_congr_left hold, hnew] using h.homes.next
  case members_eq =>
    intro place hplace
    have hfilter : (scanRegions.filter fun other =>
        other.home (groups ++ [.opening scanRegion]) == place) =
          scanRegions.filter fun other => other.home groups == place :=
      List.filter_congr fun other hmem => by rw [hold other hmem]
    rw [List.filter_append, hfilter]
    rcases Nat.lt_or_ge place groups.length with hlt | hge
    · -- a group that was there: the region is not at home in it
      have hne : groups.length ≠ place := by omega
      simp [List.getElem_append_left hlt, h.members_eq place hlt, hnew, hne]
    · -- the new group: no earlier region is at home in it
      obtain rfl : place = groups.length := by
        simp at hplace
        omega
      have hnone : (scanRegions.filter fun other => other.home groups == groups.length) = [] := by
        rw [List.filter_eq_nil_iff]
        intro other hmem
        simpa using Nat.ne_of_lt (h.home_lt hmem)
      simp [hnone, hnew, members_opening]
  case opened =>
    intro group hmem
    rcases List.mem_append.mp hmem with hmem | hmem
    · exact h.opened group hmem
    · rw [List.mem_singleton.mp hmem]
      exact ⟨scanRegion, [], rfl, rfl⟩

theorem enter (h : FirstFit scanRegions groups) (scanRegion : ScanRegion) :
    FirstFit (scanRegions ++ [scanRegion]) (scanRegion.enter groups) := by
  rcases Nat.lt_or_ge (scanRegion.home groups) groups.length with hlt | hle
  · rw [enter_of_lt hlt]
    exact h.join hlt
  · rw [enter_of_le hle]
    exact h.found hle

end FirstFit

theorem partition_append_singleton (scanRegions : List ScanRegion) (scanRegion : ScanRegion) :
    partition (scanRegions ++ [scanRegion]) = scanRegion.enter (partition scanRegions) := by
  simp [partition]

theorem partition_firstFit (scanRegions : List ScanRegion) :
    FirstFit scanRegions (partition scanRegions) := by
  induction scanRegions using List.reverseRecOn with
  | nil => exact firstFit_nil
  | append_singleton scanRegions scanRegion ih =>
      rw [partition_append_singleton]
      exact ih.enter scanRegion

/-! ## What the groups have -/

namespace FirstFit

theorem mem_members_iff (h : FirstFit scanRegions groups) {place : Nat}
    (hplace : place < groups.length) :
    scanRegion ∈ groups[place].members ↔
      scanRegion ∈ scanRegions ∧ scanRegion.home groups = place := by
  rw [h.members_eq place hplace, List.mem_filter, beq_iff_eq]

theorem covered (h : FirstFit scanRegions groups) :
    ∀ group ∈ groups, ∀ member ∈ group.members, ∀ axis ∈ group.axes, axis ∈ member.axes := by
  intro group hgroup member hmember
  obtain ⟨place, hplace, rfl⟩ := List.mem_iff_getElem.mp hgroup
  obtain ⟨-, rfl⟩ := (h.mem_members_iff hplace).mp hmember
  exact covers_iff.mp (covers_home hplace)

theorem apart (h : FirstFit scanRegions groups) :
    groups.Pairwise fun earlier later => ∀ member ∈ later.members,
      ∃ axis ∈ earlier.axes, axis ∉ member.axes := by
  rw [List.pairwise_iff_getElem]
  intro first second hfirst hsecond hlt member hmember
  obtain ⟨-, rfl⟩ := (h.mem_members_iff hsecond).mp hmember
  have hnot := List.not_of_lt_findIdx hlt
  rw [← Bool.not_eq_true, covers_iff] at hnot
  simpa [Group.toSet] using hnot

end FirstFit

theorem flatMap_members_enter (scanRegion : ScanRegion) (groups : List Group) :
    ((scanRegion.enter groups).flatMap Group.members).Perm
      (groups.flatMap Group.members ++ [scanRegion]) := by
  induction groups with
  | nil => simp [ScanRegion.enter]
  | cons group groups ih =>
      rw [ScanRegion.enter]
      split
      · simpa using (List.perm_append_singleton scanRegion _).symm.append_left group.members
      · simpa using ih.append_left group.members

theorem flatMap_members_partition (scanRegions : List ScanRegion) :
    ((partition scanRegions).flatMap Group.members).Perm scanRegions := by
  induction scanRegions using List.reverseRecOn with
  | nil => exact .refl _
  | append_singleton scanRegions scanRegion ih =>
      rw [partition_append_singleton]
      exact (flatMap_members_enter scanRegion _).trans (ih.append_right _)

/-! ## Excluders of the groups -/

theorem axes_eq_of_descriptor_beq {set other : RegionSet}
    (h : (set.excluder.descriptor == other.excluder.descriptor) = true) :
    set.axes = other.axes := by
  have hfield : ∀ given : RegionSet,
      given.excluder.descriptor.value.field? "axes" = some (.strings given.axes) := by
    intro given
    have hnodup : ((given.encodeFields ++ [(typeField, Json.string RegionSet.kind)]).map
        Prod.fst).Nodup := show ["regions", "axes", "type"].Nodup by decide
    refine (Json.field?_canonical hnodup "axes").trans ?_
    simp [Json.canonicalFields_eq_map, RegionSet.encodeFields, List.lookup_cons]
  exact Json.strings_eq_of_same (Json.same_of_field? h (hfield set) (hfield other))

theorem toFinset_ne_of_not_mem {axes others : List String} (h : ∃ axis ∈ axes, axis ∉ others) :
    axes.toFinset ≠ others.toFinset := by
  obtain ⟨axis, hmem, hnot⟩ := h
  intro heq
  rw [← List.mem_toFinset, heq, List.mem_toFinset] at hmem
  exact hnot hmem

theorem FirstFit.keys_apart (h : FirstFit scanRegions groups) :
    groups.Pairwise fun earlier later => earlier.axes.toFinset ≠ later.axes.toFinset := by
  refine h.apart.imp_of_mem ?_
  intro earlier later _ hlater hapart
  obtain ⟨first, rest, hmembers, haxes⟩ := h.opened later hlater
  rw [haxes]
  exact toFinset_ne_of_not_mem (hapart first (by simp [hmembers]))

/-- The groups are the first-fit partition of the regions, whatever their axes.  If the groups are
accepted, their axes are different pairs, no two descriptors are equal, and no region is lost. -/
theorem grouped_firstFit (scanRegions : List ScanRegion) :
    (partition scanRegions).map Group.toSet = ScanRegion.groups scanRegions ∧
    FirstFit scanRegions (partition scanRegions) ∧
    ((partition scanRegions).flatMap Group.members).Perm scanRegions ∧
    (∀ group ∈ partition scanRegions, ∀ member ∈ group.members,
      ∀ axis ∈ group.axes, axis ∈ member.axes) ∧
    ((partition scanRegions).Pairwise fun earlier later => ∀ member ∈ later.members,
      ∃ axis ∈ earlier.axes, axis ∉ member.axes) ∧
    ∀ sets, grouped scanRegions = .ok sets →
      sets = (partition scanRegions).map Group.toSet ∧
      (∀ set ∈ sets, ∃ first second, first ≠ second ∧ set.axes = [first, second]) ∧
      (sets.Pairwise fun earlier later => earlier.axes.toFinset ≠ later.axes.toFinset ∧
        (earlier.excluder.descriptor == later.excluder.descriptor) = false) ∧
      (sets.map fun set => set.regions.length).sum = scanRegions.length := by
  have hfit := partition_firstFit scanRegions
  have hperm := flatMap_members_partition scanRegions
  refine ⟨map_toSet_partition scanRegions, hfit, hperm, hfit.covered, hfit.apart, ?_⟩
  intro sets hgrouped
  obtain ⟨rfl, hpairs⟩ := grouped_eq_ok hgrouped
  refine ⟨rfl, List.forall_mem_map.mpr hpairs, ?_, ?_⟩
  · rw [List.pairwise_map]
    refine hfit.keys_apart.imp fun hne => ⟨hne, ?_⟩
    rw [← Bool.not_eq_true]
    exact fun hequal => hne (congrArg _ (axes_eq_of_descriptor_beq hequal))
  · have hlength := hperm.length_eq
    rw [List.length_flatMap] at hlength
    simpa [Group.toSet, Function.comp_def] using hlength

def mixedRegions : List ScanRegion :=
  [⟨.point (0.0, 0.0), ["x", "y"]⟩, ⟨.point (1.0, 0.0), ["y", "x"]⟩,
    ⟨.point (2.0, 0.0), ["a", "b"]⟩, ⟨.point (3.0, 0.0), ["x", "y", "z"]⟩]

theorem grouped_firstFit_mixedRegions :
    ∃ sets, grouped mixedRegions = .ok sets ∧
      (sets.map fun set => set.regions.length).sum = 4 ∧
      sets.Pairwise fun earlier later => earlier.axes.toFinset ≠ later.axes.toFinset := by
  obtain ⟨sets, hgrouped⟩ := Checked.exists_eq_ok
    (show (grouped mixedRegions).isOk = true by decide +kernel)
  obtain ⟨-, -, -, -, -, haccepted⟩ := grouped_firstFit mixedRegions
  obtain ⟨-, -, hapart, hsum⟩ := haccepted sets hgrouped
  exact ⟨sets, hgrouped, hsum, hapart.imp And.left⟩

end ScanPath.ScanRegion
