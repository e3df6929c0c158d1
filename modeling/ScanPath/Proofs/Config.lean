import ScanPath.Config.Scan
import ScanPath.Proofs.Composition.Assembly
import ScanPath.Proofs.Descriptor

/-!
# What descriptions build

Descriptions are built from the inside out, and every part of a composition that
comes of one was made by some constructor that checked its parameters.  The
induction is on the nesting of generators; what it carries is that an input
holds no part that was not checked.
-/

namespace ScanPath

open Checked

structure PartsBuilt (leaves : List Leaf) (excluders : List Excluder) (mutators : List Mutator) :
    Prop where
  leaves_built : AllBuilt LeafConfig.build leaves
  excluders_built : AllBuilt ExcluderConfig.build excluders
  mutators_built : AllBuilt MutatorConfig.build mutators

structure Composition.Built (composition : Composition) : Prop
    extends PartsBuilt composition.leaves composition.excluders composition.mutators where
  prepared : Prepared composition
  duration_finite : ∀ duration, composition.duration = some duration → duration.isFinite = true

theorem Composition.Built.lawful {composition : Composition} (h : composition.Built) :
    ∀ leaf ∈ composition.leaves, leaf.Lawful := by
  intro leaf hmem
  obtain ⟨config, hbuild⟩ := h.leaves_built leaf hmem
  exact config.build_lawful hbuild

namespace Composer

def Input.Built : Input → Prop
  | .leaf part => ∃ config : LeafConfig, config.build = .ok part
  | .nested part => part.Built

theorem Input.Built.parts {input : Input} (h : input.Built) :
    PartsBuilt input.leaves input.excluders input.mutators := by
  cases input with
  | nested part => exact h.toPartsBuilt
  | leaf part =>
      refine ⟨?_, fun _ hmem => absurd hmem List.not_mem_nil,
        fun _ hmem => absurd hmem List.not_mem_nil⟩
      intro leaf hmem
      exact List.mem_singleton.mp hmem ▸ h

theorem settledDuration_finite {duration : Option Float} {settled : Float}
    (h : settledDuration duration = .ok (some settled)) : settled.isFinite = true := by
  cases duration with
  | none => cases h
  | some duration =>
      rw [settledDuration] at h
      split at h
      · cases h
      · split at h
        · cases h
        next hsound =>
          cases h
          rw [Bool.not_eq_true, Bool.or_eq_false_iff, Bool.not_eq_false'] at hsound
          exact hsound.1

theorem prepare_built {composer : Composer} {composition : Composition}
    (hinputs : ∀ input ∈ composer.inputs, input.Built)
    (hexcluders : AllBuilt ExcluderConfig.build composer.excluders)
    (hmutators : AllBuilt MutatorConfig.build composer.mutators)
    (h : composer.prepare.1 = .ok composition) : composition.Built := by
  obtain ⟨-, settled, hsettled, hassembled⟩ := compose_eq_ok (prepare_eq_ok h)
  have hparts : ∀ input ∈ composer.inputs,
      PartsBuilt input.leaves input.excluders input.mutators :=
    fun input hmem => (hinputs input hmem).parts
  constructor
  · constructor
    · rw [hassembled.leaves_eq]
      exact allBuilt_flatMap fun input hmem => (hparts input hmem).leaves_built
    · rw [hassembled.excluders_eq]
      have hsupplied := hexcluders.append
        (allBuilt_flatMap fun input hmem => (hparts input hmem).excluders_built)
      exact hsupplied.subset fun _ => Descriptor.mem_of_mem_firstOccurrencesAfter
    · rw [hassembled.mutators_eq]
      have hsupplied := hmutators.append
        (allBuilt_flatMap fun input hmem => (hparts input hmem).mutators_built)
      exact hsupplied.subset fun _ => Descriptor.mem_of_mem_firstOccurrencesAfter
  · exact .of composer composition (fun part hmem => (hinputs _ hmem).prepared) h
  · intro duration hduration
    rw [hassembled.duration_eq] at hduration
    exact settledDuration_finite (hduration ▸ hsettled)

end Composer

theorem ScanRegion.grouped_built {regions : List ScanRegion} {groups : List RegionSet}
    (h : grouped regions = .ok groups) :
    AllBuilt ExcluderConfig.build (groups.map RegionSet.excluder) := by
  obtain ⟨hchecks, rfl⟩ := return_eq_ok.mp h
  intro excluder hmem
  obtain ⟨group, hgroup, rfl⟩ := List.mem_map.mp hmem
  exact ⟨.regions group, return_eq_ok.mpr ⟨forM_eq_ok.mp hchecks group hgroup, rfl⟩⟩

theorem ScanSettings.compose_built {settings : ScanSettings} {inputs : List Composer.Input}
    {composition : Composition} (hinputs : ∀ input ∈ inputs, input.Built)
    (h : settings.compose inputs = .ok composition) : composition.Built := by
  unfold compose at h
  obtain ⟨excluders, hexcluders, h⟩ := bind_eq_ok.mp h
  obtain ⟨groups, hgroups, h⟩ := bind_eq_ok.mp h
  obtain ⟨mutators, hmutators, h⟩ := bind_eq_ok.mp h
  exact Composer.prepare_built hinputs
    ((allBuilt_mapM hexcluders).append (ScanRegion.grouped_built hgroups))
    (allBuilt_mapM hmutators) h

namespace GeneratorConfig

mutual

theorem build_built : (config : GeneratorConfig) → {input : Composer.Input} →
    config.build = .ok input → input.Built
  | .leaf config, input, h => by
      rw [build] at h
      cases hbuild : config.build with
      | error fault =>
          rw [hbuild] at h
          cases h
      | ok leaf =>
          rw [hbuild] at h
          cases h
          exact ⟨config, hbuild⟩
  | .compound ⟨generators, settings⟩, input, h => by
      rw [build] at h
      obtain ⟨inputs, hinputs, h⟩ := bind_eq_ok.mp h
      obtain ⟨composition, hcompose, h⟩ := bind_eq_ok.mp h
      cases h
      exact settings.compose_built (buildAll_built generators hinputs) hcompose

theorem buildAll_built : (configs : List GeneratorConfig) → {inputs : List Composer.Input} →
    buildAll configs = .ok inputs → ∀ input ∈ inputs, input.Built
  | [], inputs, h, input, hmem => by
      rw [buildAll] at h
      cases h
      cases hmem
  | config :: configs, inputs, h, input, hmem => by
      rw [buildAll] at h
      obtain ⟨first, hfirst, h⟩ := bind_eq_ok.mp h
      obtain ⟨rest, hrest, h⟩ := bind_eq_ok.mp h
      cases h
      rcases List.mem_cons.mp hmem with rfl | hmem
      · exact build_built config hfirst
      · exact buildAll_built configs hrest input hmem

end

end GeneratorConfig

theorem ScanConfig.build_built {config : ScanConfig} {composition : Composition}
    (h : ScanConfig.build config = .ok composition) : composition.Built := by
  obtain ⟨inputs, hinputs, hcompose⟩ := bind_eq_ok.mp h
  exact ScanSettings.compose_built (GeneratorConfig.buildAll_built _ hinputs) hcompose

end ScanPath
