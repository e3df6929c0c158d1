import ScanPath.Config.Leaf
import ScanPath.Proofs.Checked
import ScanPath.Proofs.Keyed

/-!
# Lawful leaves

A lawful leaf has one value per axis at every index below its size and none
beyond.  That is what a composition relies on, and what every leaf keeps to that
passed the checks of its kind.
-/

namespace ScanPath

theorem Position.insertAll_eq (position : Position) (axes : List String) (values : List Float)
    (index : Nat) :
    Position.insertAll position axes values index =
      Keyed.insertAll position
        ((axes.zip values).map fun entry => (entry.1, ⟨entry.2, index⟩)) := by
  rw [Position.insertAll, Keyed.insertAll, List.foldl_map]

namespace Leaf

structure Lawful (leaf : Leaf) : Prop where
  isSome_iff : ∀ index, (leaf.valuesAt index).isSome = true ↔ index < leaf.size
  length_eq : ∀ index values, leaf.valuesAt index = some values →
    values.length = leaf.axes.length

theorem lawful_of_computed {leaf : Leaf} (values : Nat → List Float)
    (h : ∀ index, leaf.valuesAt index = if index < leaf.size then some (values index) else none)
    (hlength : ∀ index, (values index).length = leaf.axes.length) : leaf.Lawful where
  isSome_iff := by
    intro index
    rw [h index]
    by_cases hindex : index < leaf.size <;> simp [hindex]
  length_eq := by
    intro index others hothers
    rw [h index] at hothers
    split at hothers
    · cases hothers
      exact hlength index
    · cases hothers

theorem requireLength_eq_ok {kind field : String} {expected actual : Nat}
    (h : requireLength kind field expected actual = .ok ()) : expected = actual := by
  unfold requireLength at h
  split at h
  · assumption
  · cases h

end Leaf

theorem Line.leaf_lawful {line : Line} (hstart : line.start.length = line.axes.length)
    (hstop : line.stop.length = line.axes.length) : line.leaf.Lawful := by
  apply Leaf.lawful_of_computed _ fun _ => rfl
  intro index
  simp [steps, leaf, hstart, hstop]

theorem Line.build_lawful {line : Line} {leaf : Leaf} (h : line.build = .ok leaf) :
    leaf.Lawful := by
  obtain ⟨hcheck, rfl⟩ := Checked.return_eq_ok.mp h
  simp only [check, Checked.seq_eq_ok] at hcheck
  obtain ⟨-, -, hstart, hstop, -⟩ := hcheck
  exact leaf_lawful (Leaf.requireLength_eq_ok hstart).symm (Leaf.requireLength_eq_ok hstop).symm

theorem Listed.leaf_lawful (listed : Listed) : listed.leaf.Lawful where
  isSome_iff := by
    intro index
    change (listed.points[index]?.map fun value => [value]).isSome = true ↔
      index < listed.points.length
    simp
  length_eq := by
    intro index values hvalues
    obtain ⟨value, -, rfl⟩ := Option.map_eq_some_iff.mp hvalues
    rfl

theorem Spiral.build_lawful {spiral : Spiral} {leaf : Leaf} (h : spiral.build = .ok leaf) :
    leaf.Lawful := by
  obtain ⟨hcheck, rfl⟩ := Checked.return_eq_ok.mp h
  simp only [check, Checked.seq_eq_ok] at hcheck
  obtain ⟨-, haxes, -⟩ := hcheck
  exact Leaf.lawful_of_computed _ (fun _ => rfl) fun _ => Leaf.requireLength_eq_ok haxes

theorem Lissajous.build_lawful {curve : Lissajous} {leaf : Leaf} (h : curve.build = .ok leaf) :
    leaf.Lawful := by
  obtain ⟨hcheck, rfl⟩ := Checked.return_eq_ok.mp h
  simp only [check, Checked.seq_eq_ok] at hcheck
  obtain ⟨-, haxes, -⟩ := hcheck
  exact Leaf.lawful_of_computed _ (fun _ => rfl) fun _ => Leaf.requireLength_eq_ok haxes

theorem LeafConfig.build_lawful {config : LeafConfig} {leaf : Leaf}
    (h : config.build = .ok leaf) : leaf.Lawful := by
  cases config with
  | line parameters => exact parameters.build_lawful h
  | listed parameters =>
      obtain ⟨-, rfl⟩ := Checked.return_eq_ok.mp h
      exact parameters.leaf_lawful
  | spiral parameters => exact parameters.build_lawful h
  | lissajous parameters => exact parameters.build_lawful h

end ScanPath
