import ScanPath.Proofs.Leaf

/-!
# Passes over checked leaves

The checks of every kind leave a leaf with axes of different names, one unit for
each of them, and at least one point.  A pass over such a leaf gives out one
position for each index and keeps account of how many are left: one step takes
the next index, and the run follows by induction on the steps that are asked
for.
-/

namespace ScanPath

open Checked

namespace Leaf

theorem requireAxesFrom_eq_ok {kind : String} {earlier axes : List String} {position : Nat} :
    requireAxesFrom kind earlier position axes = .ok () ↔
      (∀ axis ∈ axes, Text.isBlank axis = false ∧ axis ∉ earlier) ∧ axes.Nodup := by
  induction axes generalizing earlier position with
  | nil => simp [requireAxesFrom]
  | cons axis axes ih =>
      rw [requireAxesFrom, List.forall_mem_cons, List.nodup_cons]
      split
      next hblank => simp [hblank]
      next hblank =>
        split
        next hearlier => simp [hearlier]
        next hearlier =>
          -- `axis` is among the earlier ones for the rest, which says that it does not come again
          rw [ih]
          simp only [hblank, hearlier, List.mem_cons, not_or]
          grind

theorem requireAxes_eq_ok {kind : String} {axes : List String} :
    requireAxes kind axes = .ok () ↔
      axes ≠ [] ∧ (∀ axis ∈ axes, Text.isBlank axis = false) ∧ axes.Nodup := by
  unfold requireAxes
  split
  next hempty => simp_all
  next hempty => simp_all [requireAxesFrom_eq_ok]

theorem requireCount_eq_ok {kind field : String} {count : Nat} :
    requireCount kind field count = .ok () ↔ 0 < count := by
  unfold requireCount
  split <;> simp_all

end Leaf

structure Leaf.Sound (leaf : Leaf) : Prop extends leaf.Lawful where
  axes_ne_nil : leaf.axes ≠ []
  axes_named : ∀ axis ∈ leaf.axes, Text.isBlank axis = false
  axes_nodup : leaf.axes.Nodup
  units_length : leaf.units.length = leaf.axes.length
  size_pos : 0 < leaf.size

theorem Leaf.sound_of_requireAxes {leaf : Leaf} {kind : String}
    (haxes : requireAxes kind leaf.axes = .ok ()) (hlawful : leaf.Lawful)
    (hunits : leaf.units.length = leaf.axes.length) (hsize : 0 < leaf.size) : leaf.Sound := by
  obtain ⟨hne, hnamed, hnodup⟩ := requireAxes_eq_ok.mp haxes
  exact ⟨hlawful, hne, hnamed, hnodup, hunits, hsize⟩

theorem Line.build_sound {line : Line} {leaf : Leaf} (h : line.build = .ok leaf) : leaf.Sound := by
  have hlawful := build_lawful h
  obtain ⟨hcheck, rfl⟩ := return_eq_ok.mp h
  simp only [check, seq_eq_ok] at hcheck
  obtain ⟨haxes, hunits, -, -, hpoints, -⟩ := hcheck
  exact Leaf.sound_of_requireAxes haxes hlawful (Leaf.requireLength_eq_ok hunits).symm
    (Leaf.requireCount_eq_ok.mp hpoints)

theorem Listed.build_sound {listed : Listed} {leaf : Leaf} (h : listed.build = .ok leaf) :
    leaf.Sound := by
  obtain ⟨hcheck, rfl⟩ := return_eq_ok.mp h
  obtain ⟨haxes, hpoints⟩ := seq_eq_ok.mp hcheck
  apply Leaf.sound_of_requireAxes haxes listed.leaf_lawful rfl
  apply List.length_pos_iff.mpr
  intro hempty
  simp [hempty] at hpoints

theorem Spiral.build_sound {spiral : Spiral} {leaf : Leaf} (h : spiral.build = .ok leaf) :
    leaf.Sound := by
  have hlawful := build_lawful h
  obtain ⟨hcheck, rfl⟩ := return_eq_ok.mp h
  simp only [check, seq_eq_ok] at hcheck
  obtain ⟨haxes, hwidth, hunits, -, -, -, hsize⟩ := hcheck
  apply Leaf.sound_of_requireAxes haxes hlawful
  · exact (Leaf.requireLength_eq_ok hunits).symm.trans (Leaf.requireLength_eq_ok hwidth)
  · apply Nat.pos_of_ne_zero
    intro hempty
    change spiral.size = 0 at hempty
    simp only [hempty, if_true] at hsize
    split at hsize <;> cases hsize

theorem Lissajous.build_sound {curve : Lissajous} {leaf : Leaf} (h : curve.build = .ok leaf) :
    leaf.Sound := by
  have hlawful := build_lawful h
  obtain ⟨hcheck, rfl⟩ := return_eq_ok.mp h
  simp only [check, seq_eq_ok] at hcheck
  obtain ⟨haxes, hwidth, hunits, -, -, -, -, hpoints⟩ := hcheck
  exact Leaf.sound_of_requireAxes haxes hlawful
    ((Leaf.requireLength_eq_ok hunits).symm.trans (Leaf.requireLength_eq_ok hwidth))
    (Leaf.requireCount_eq_ok.mp hpoints)

theorem LeafConfig.build_sound {config : LeafConfig} {leaf : Leaf}
    (h : config.build = .ok leaf) : leaf.Sound := by
  cases config with
  | line parameters => exact parameters.build_sound h
  | listed parameters => exact parameters.build_sound h
  | spiral parameters => exact parameters.build_sound h
  | lissajous parameters => exact parameters.build_sound h

namespace Leaf

/-- The position has the axes of the leaf and no others, all of them with the index and each with
its own value at the index. -/
structure Carries (leaf : Leaf) (index : Nat) (position : Position) : Prop where
  keys_perm : position.keys.Perm leaf.axes
  points : ∃ values, leaf.valuesAt index = some values ∧ values.length = leaf.axes.length ∧
    ∀ entry ∈ leaf.axes.zip values, position.get? entry.1 = some ⟨entry.2, index⟩

theorem Sound.carries {leaf : Leaf} (h : leaf.Sound) {index : Nat} {values : List Float}
    (hvalues : leaf.valuesAt index = some values) :
    leaf.Carries index (Position.insertAll ∅ leaf.axes values index) := by
  have hlength := h.length_eq index values hvalues
  let entries : List (String × AxisPoint) :=
    (leaf.axes.zip values).map fun entry => (entry.1, ⟨entry.2, index⟩)
  have hnames : entries.map Prod.fst = leaf.axes := by
    rw [List.map_map]
    exact List.map_fst_zip (Nat.le_of_eq hlength.symm)
  have hnodup : (entries.map Prod.fst).Nodup := hnames ▸ h.axes_nodup
  rw [Position.insertAll_eq]
  constructor
  case keys_perm => exact (Keyed.keys_insertAll_perm hnodup).trans (.of_eq hnames)
  case points =>
    refine ⟨values, hvalues, hlength, ?_⟩
    intro entry hmem
    have hentry : (entry.1, ⟨entry.2, index⟩) ∈ entries := List.mem_map_of_mem hmem
    rw [Keyed.get?_insertAll hnodup, Keyed.lookup_of_mem hnodup hentry]
    rfl

end Leaf

namespace LeafPass

theorem step?_of_lt (pass : LeafPass) (h : pass.leaf.Sound) (hnext : pass.next < pass.leaf.size) :
    ∃ position, pass.step? = some (position, { pass with next := pass.next + 1 }) ∧
      pass.leaf.Carries pass.next position := by
  obtain ⟨values, hvalues⟩ := Option.isSome_iff_exists.mp ((h.isSome_iff pass.next).mpr hnext)
  refine ⟨_, ?_, h.carries hvalues⟩
  rw [step?, hvalues, Option.map_some]

theorem step?_of_le (pass : LeafPass) (h : pass.leaf.Sound) (hnext : pass.leaf.size ≤ pass.next) :
    pass.step? = none := by
  have hnone : pass.leaf.valuesAt pass.next = none := by
    rw [← Option.not_isSome_iff_eq_none, h.isSome_iff]
    exact Nat.not_lt.mpr hnext
  rw [step?, hnone, Option.map_none]

theorem take_carries (count : Nat) (pass : LeafPass) (h : pass.leaf.Sound) :
    (take count pass).1.length = min count pass.remaining ∧
      (take count pass).2 = { pass with next := pass.next + min count pass.remaining } ∧
      ∀ index position, (take count pass).1[index]? = some position →
        pass.leaf.Carries (pass.next + index) position := by
  induction count generalizing pass with
  | zero => simp [take]
  | succ count ih =>
      rcases Nat.lt_or_ge pass.next pass.leaf.size with hnext | hnext
      · obtain ⟨position, hstep, hcarries⟩ := step?_of_lt pass h hnext
        obtain ⟨hlength, hlater, hgiven⟩ := ih { pass with next := pass.next + 1 } h
        simp only [take, hstep]
        simp only [remaining] at hlength hlater ⊢
        refine ⟨?_, ?_, ?_⟩
        · rw [List.length_cons, hlength]
          omega
        · rw [hlater]
          congr 1
          omega
        · intro index other hother
          cases index with
          | zero =>
              cases hother
              exact hcarries
          | succ index =>
              rw [Nat.add_comm index 1, ← Nat.add_assoc]
              exact hgiven index other hother
      · have hremaining : pass.remaining = 0 := Nat.sub_eq_zero_of_le hnext
        simp [take, step?_of_le pass h hnext, hremaining]

end LeafPass

/-- A leaf that was built has axes that are neither blank nor repeated, a unit for each of them, at
least one point, and values exactly at the indices below its size.  A pass over it gives out one
position for each of these indices, in order, and none after them; at any time it has as many left
as it has not given out. -/
theorem LeafConfig.build_pass {config : LeafConfig} {leaf : Leaf} (h : config.build = .ok leaf) :
    leaf.Sound ∧ ∀ count : Nat,
      let given := ((LeafPass.start leaf).take count).1
      let later := ((LeafPass.start leaf).take count).2
      given.length = min count leaf.size ∧
        later.remaining = leaf.size - given.length ∧
        (later.step?.isSome = true ↔ given.length < leaf.size) ∧
        ∀ index position, given[index]? = some position → leaf.Carries index position := by
  have hsound := build_sound h
  refine ⟨hsound, ?_⟩
  intro count given later
  obtain ⟨hlength, hlater, hgiven⟩ := LeafPass.take_carries count (.start leaf) hsound
  have hremaining : (LeafPass.start leaf).remaining = leaf.size := Nat.sub_zero _
  rw [hremaining] at hlength hlater
  have hnext : later = ⟨leaf, given.length⟩ := by
    rw [hlength]
    exact hlater.trans (congrArg (LeafPass.mk leaf) (Nat.zero_add _))
  refine ⟨hlength, by rw [hnext]; rfl, ?_, ?_⟩
  · rw [hnext]
    rcases Nat.lt_or_ge given.length leaf.size with hlt | hle
    · obtain ⟨position, hstep, -⟩ := LeafPass.step?_of_lt ⟨leaf, given.length⟩ hsound hlt
      simp [hstep, hlt]
    · simp [LeafPass.step?_of_le ⟨leaf, given.length⟩ hsound hle, hle]
  · intro index position hposition
    rw [← Nat.zero_add index]
    exact hgiven index position hposition

def LeafConfig.diagonal : LeafConfig :=
  .line ⟨["x", "y"], ["mm", "deg"], [0.0, 1.0], [1.0, -1.0], 3, true⟩

theorem LeafConfig.build_pass_diagonal :
    ∃ leaf, diagonal.build = .ok leaf ∧ leaf.Sound ∧
      ((LeafPass.start leaf).take 5).1.length = 3 ∧
      ((LeafPass.start leaf).take 2).2.remaining = 1 ∧
      ∀ index position, ((LeafPass.start leaf).take 5).1[index]? = some position →
        leaf.Carries index position := by
  obtain ⟨leaf, hbuild, hsize⟩ := exists_of_any
    (show diagonal.build.toOption.any (fun leaf => leaf.size == 3) = true by decide +kernel)
  obtain ⟨hsound, hpass⟩ := build_pass hbuild
  obtain ⟨hlength, -, -, hcarries⟩ := hpass 5
  obtain ⟨hfirst, hremaining, -⟩ := hpass 2
  rw [eq_of_beq hsize] at hlength hfirst hremaining
  rw [hfirst] at hremaining
  exact ⟨leaf, hbuild, hsound, hlength, hremaining, hcarries⟩

end ScanPath
