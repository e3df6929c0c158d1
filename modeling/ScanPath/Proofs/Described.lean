import ScanPath.Proofs.Composition.Pass
import ScanPath.Proofs.Config
import ScanPath.Proofs.Parameters

/-!
# What descriptors tell of compositions

The parts of a described composition were checked, so they can be told from its
descriptor: the leaves and the excluders with all their parameters, the mutators
as far as they have any effect.  Everything else in a composition follows from
its parts, and two compositions with one descriptor are one composition.
-/

namespace ScanPath

open Descriptor Json

namespace Composition

theorem Built.eq_of_descriptor_eq {first second : Composition} (hfirst : first.Built)
    (hsecond : second.Built) (h : first.descriptor = second.descriptor) : first = second := by
  have hvalues := values_eq_of_ofFields_eq ["generators", "excluders", "mutators", "duration"] h
    rfl rfl (by decide)
  simp only [List.map_cons, List.map_nil, canonical_optional_ofFloat, List.cons.injEq] at hvalues
  obtain ⟨hleaves, hexcluders, hmutators, hduration, -⟩ := hvalues
  have hleaves' := LeafConfig.tellsApart.items_eq hfirst.leaves_built hsecond.leaves_built hleaves
  have hexcluders' := ExcluderConfig.tellsApart.items_eq hfirst.excluders_built
    hsecond.excluders_built hexcluders
  have hmutators' := MutatorConfig.tellsApart.items_eq hfirst.mutators_built
    hsecond.mutators_built hmutators
  have hduration' := optional_ofFloat_inj hfirst.duration_finite hsecond.duration_finite hduration
  have hassembled := hfirst.prepared.assemble_parts
  rw [hleaves', hexcluders', hmutators', hduration', hsecond.prepared.assemble_parts] at hassembled
  exact (Except.ok.inj hassembled).symm

end Composition

/-- Two described compositions with one descriptor have the same axes in the same dimensions, the
same shape, size and duration, and passes that emit the same positions one after the other.  So a
descriptor leaves nothing out that a scan depends on. -/
theorem ScanConfig.passes_eq_of_descriptor_eq {config other : ScanConfig}
    {first second : Composition} (hfirst : ScanConfig.build config = .ok first)
    (hsecond : ScanConfig.build other = .ok second)
    (h : first.descriptor.value = second.descriptor.value) :
    first.axisOrdering = second.axisOrdering ∧ first.dimensionNames = second.dimensionNames ∧
      first.shape = second.shape ∧ first.size = second.size ∧
      first.duration = second.duration ∧
      ∀ index, Source.itemAt? Pass.pull (Pass.start first) index =
        Source.itemAt? Pass.pull (Pass.start second) index := by
  have hequal : first = second :=
    (build_built hfirst).eq_of_descriptor_eq (build_built hsecond) (congrArg Descriptor.mk h)
  subst hequal
  exact ⟨rfl, rfl, rfl, rfl, rfl, fun _ => rfl⟩

def ScanConfig.offsetLine (unused : Float) : ScanConfig where
  generators := [.leaf (.line (Line.single "x" "mm" 0.0 1.0 3))]
  settings := ⟨[], [], [.randomOffset ⟨7, ["x"], .ofList [("x", 0.25), ("y", unused)]⟩], none,
    .fastFirst⟩

def ScanConfig.nestedOffsetLine (unused : Float) : ScanConfig where
  generators := [.compound (offsetLine unused)]
  settings := ⟨[], [], [], none, .declared⟩

/-- An infinite bound and one that is no number are both lost, and so is the nesting. -/
theorem ScanConfig.passes_eq_of_descriptor_eq_offsetLine :
    ∃ first second, ScanConfig.build (.offsetLine (1.0 / 0.0)) = .ok first ∧
      ScanConfig.build (.nestedOffsetLine (0.0 / 0.0)) = .ok second ∧
      first.descriptor.value = second.descriptor.value ∧ first.shape = second.shape ∧
      first.size = 3 ∧ second.size = 3 ∧
      ∀ index, Source.itemAt? Pass.pull (Pass.start first) index =
        Source.itemAt? Pass.pull (Pass.start second) index := by
  obtain ⟨first, hfirst, hsize⟩ := Checked.exists_of_any
    (show (ScanConfig.build (.offsetLine (1.0 / 0.0))).toOption.any (fun composition =>
      composition.size == 3) = true by decide +kernel)
  obtain ⟨second, hsecond⟩ := Checked.exists_eq_ok
    (show (ScanConfig.build (.nestedOffsetLine (0.0 / 0.0))).isOk = true by decide +kernel)
  have hvalues : (ScanConfig.build (.offsetLine (1.0 / 0.0))).map (·.descriptor.value) =
      (ScanConfig.build (.nestedOffsetLine (0.0 / 0.0))).map (·.descriptor.value) := rfl
  rw [hfirst, hsecond] at hvalues
  have hvalue : first.descriptor.value = second.descriptor.value := Except.ok.inj hvalues
  obtain ⟨-, -, hshape, hsizes, -, hpasses⟩ :=
    ScanConfig.passes_eq_of_descriptor_eq hfirst hsecond hvalue
  exact ⟨first, second, hfirst, hsecond, hvalue, hshape, eq_of_beq hsize,
    hsizes.symm.trans (eq_of_beq hsize), hpasses⟩

end ScanPath
