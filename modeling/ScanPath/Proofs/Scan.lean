import ScanPath.Proofs.Composition.Size
import ScanPath.Proofs.Config
import ScanPath.Proofs.Lookahead

/-!
# Calls on a scan

Whatever is asked of a scan and in whatever order, what it answers depends on
nothing but the number of points that it has given out.  `Standing` says what a
scan keeps to after that many points: the composition and the layout that it was
opened with, and a lookahead in step with a projected pass.  One call gives the
next point out or none, a list of calls does so by induction, and the points
given out are the first ones of a pass.
-/

namespace ScanPath

namespace Scan

open Source

structure Metadata where
  size : Nat
  shape : List Nat
  rank : Nat
  descriptor : Descriptor
  dimensionNames : List (List String)
  layout : PairLayout

def metadata (scan : Scan) : Metadata where
  size := scan.composition.size
  shape := scan.composition.shape
  rank := scan.composition.rank
  descriptor := scan.composition.descriptor
  dimensionNames := scan.composition.dimensionNames
  layout := scan.layout

inductive Call where
  | hasNext
  | next
  | fresh
  | metadata
  deriving DecidableEq, Repr

inductive Answer where
  | more (value : Bool)
  | point (value : Except Cause PointShape)
  | opened (scan : Scan)
  | known (value : Metadata)

def Call.ask : Call → Scan → Answer × Scan
  | .hasNext, scan => (.more scan.hasNext.1, scan.hasNext.2)
  | .next, scan => (.point scan.next.1, scan.next.2)
  | .fresh, scan => (.opened scan.fresh, scan)
  | .metadata, scan => (.known scan.metadata, scan)

def askAll : List Call → Scan → List Answer × Scan
  | [], scan => ([], scan)
  | call :: calls, scan =>
      let (answer, scan) := call.ask scan
      let (answers, scan) := askAll calls scan
      (answer :: answers, scan)

def Answer.given? : Answer → Option PointShape
  | .point (.ok value) => some value
  | _ => none

def returned (answers : List Answer) : List PointShape := answers.filterMap Answer.given?

/-- A scan that has given `count` of its points out. -/
structure Standing (composition : Composition) (layout : PairLayout) (count : Nat)
    (scan : Scan) : Prop where
  composition_eq : scan.composition = composition
  layout_eq : scan.layout = layout
  points : Lookahead.GaveOut ProjectedPass.pull (.start composition layout) count scan.points

theorem standing_ofComposition (composition : Composition) (layout : PairLayout) :
    Standing composition layout 0 (ofComposition composition layout) :=
  ⟨rfl, rfl, Lookahead.gaveOut_start _ _⟩

namespace Standing

variable {composition : Composition} {layout : PairLayout} {count : Nat} {scan : Scan}
  {points : List PointShape}

theorem fresh_eq (h : Standing composition layout count scan) :
    scan.fresh = ofComposition composition layout := by
  rw [fresh, h.composition_eq, h.layout_eq]

theorem metadata_eq (h : Standing composition layout count scan) : scan.metadata =
    ⟨composition.size, composition.shape, composition.rank, composition.descriptor,
      composition.dimensionNames, layout⟩ := by
  rw [metadata, h.composition_eq, h.layout_eq]

variable (hemits : Emits ProjectedPass.pull (ProjectedPass.start composition layout) points)

include hemits

theorem hasNext (h : Standing composition layout count scan) :
    Standing composition layout count scan.hasNext.2 ∧
      scan.hasNext.1 = decide (count < points.length) := by
  obtain ⟨hafter, hmore⟩ := h.points.hasNext
  refine ⟨⟨h.composition_eq, h.layout_eq, hafter⟩, hmore.trans ?_⟩
  rw [hemits count, Bool.eq_iff_iff, decide_eq_true_iff, Option.isSome_iff_ne_none, ne_eq,
    List.getElem?_eq_none_iff, Nat.not_le]

theorem next (h : Standing composition layout count scan) :
    (∃ point, points[count]? = some point ∧ scan.next.1 = .ok point ∧
        Standing composition layout (count + 1) scan.next.2) ∨
      (points[count]? = none ∧ scan.next.1 = .error .exhausted ∧
        Standing composition layout count scan.next.2) := by
  rw [← hemits count]
  rcases h.points.next with ⟨point, hget, hnext, hafter⟩ | ⟨hget, hnext, hafter⟩
  · exact .inl ⟨point, hget, hnext, h.composition_eq, h.layout_eq, hafter⟩
  · exact .inr ⟨hget, hnext, h.composition_eq, h.layout_eq, hafter⟩

theorem ask (h : Standing composition layout count scan) (call : Call) :
    (call = .next ∧ ∃ point, points[count]? = some point ∧
        (call.ask scan).1.given? = some point ∧
        Standing composition layout (count + 1) (call.ask scan).2) ∨
      ((call = .next → points.length ≤ count) ∧ (call.ask scan).1.given? = none ∧
        Standing composition layout count (call.ask scan).2) := by
  cases call with
  | hasNext => exact .inr ⟨nofun, rfl, (h.hasNext hemits).1⟩
  | fresh => exact .inr ⟨nofun, rfl, h⟩
  | metadata => exact .inr ⟨nofun, rfl, h⟩
  | next =>
      rcases h.next hemits with ⟨point, hget, hnext, hafter⟩ | ⟨hget, hnext, hafter⟩
      · exact .inl ⟨rfl, point, hget, by rw [Call.ask, hnext]; rfl, hafter⟩
      · exact .inr ⟨fun _ => List.getElem?_eq_none_iff.mp hget, by rw [Call.ask, hnext]; rfl,
          hafter⟩

theorem askAll (calls : List Call) (h : Standing composition layout count scan)
    (hcount : count ≤ points.length) :
    Standing composition layout (min (count + calls.count .next) points.length)
        (askAll calls scan).2 ∧
      returned (Scan.askAll calls scan).1 = (points.drop count).take (calls.count .next) := by
  induction calls generalizing count scan with
  | nil =>
      rw [List.count_nil, Nat.add_zero, Nat.min_eq_left hcount, List.take_zero]
      exact ⟨h, rfl⟩
  | cons call calls ih =>
      rcases h.ask hemits call with ⟨rfl, point, hget, hgiven, hafter⟩ | ⟨hover, hgiven, hafter⟩
      · obtain ⟨hlt, hpoint⟩ := List.getElem?_eq_some_iff.mp hget
        obtain ⟨hrest, hreturned⟩ := ih hafter hlt
        rw [List.count_cons_self, Nat.add_comm _ 1, ← Nat.add_assoc]
        refine ⟨hrest, ?_⟩
        rw [Scan.askAll, returned, List.filterMap_cons_some hgiven, List.drop_eq_getElem_cons hlt,
          Nat.add_comm 1, List.take_succ_cons, hpoint]
        exact congrArg _ hreturned
      · obtain ⟨hrest, hreturned⟩ := ih hafter hcount
        have hskipped : returned (Scan.askAll (call :: calls) scan).1 =
            returned (Scan.askAll calls (call.ask scan).2).1 := by
          rw [Scan.askAll, returned, List.filterMap_cons_none hgiven]
          rfl
        rw [hskipped, hreturned]
        by_cases hcall : call = .next
        · -- the refusal came at the end, where there is nothing left to take
          have hend : points.length = count := Nat.le_antisymm (hover hcall) hcount
          subst hend
          refine ⟨?_, ?_⟩
          · rw [Nat.min_eq_right (Nat.le_add_right _ _)] at hrest ⊢
            exact hrest
          · rw [List.drop_length, List.take_nil, List.take_nil]
        · rw [List.count_cons_of_ne hcall]
          exact ⟨hrest, rfl⟩

end Standing

end Scan

/-- A scan that was opened from a description gives the points of a pass out, projected in its
layout, one for each call of `next` as long as there are any, and refuses every call of `next`
after the last of them.  After any calls it foretells this, opens the same scan anew, and tells the
same about its composition. -/
theorem ScanConfig.scan_askAll {config : ScanConfig} {composition : Composition}
    (h : ScanConfig.build config = .ok composition) :
    ∃ scan positions, ScanConfig.scan config = .ok scan ∧
      Source.Emits Pass.pull (Pass.start composition) positions ∧
      positions.length = composition.size ∧
      ∀ calls : List Scan.Call,
        let project := (Projector.ofComposition composition config.settings.layout).project
        let points := Scan.returned (Scan.askAll calls scan).1
        let later := (Scan.askAll calls scan).2
        points = (positions.take (calls.count .next)).map project ∧
          later.hasNext.1 = decide (points.length < composition.size) ∧
          later.next.1 = positions[points.length]?.elim (.error .exhausted) (.ok ∘ project) ∧
          later.fresh = scan ∧
          later.metadata = ⟨composition.size, composition.shape, composition.rank,
            composition.descriptor, composition.dimensionNames, config.settings.layout⟩ := by
  have hbuilt := ScanConfig.build_built h
  obtain ⟨hwheels, hcomplete, hlength⟩ := hbuilt.prepared.sound hbuilt.lawful
  have hemits := Pass.emits_emission hwheels hcomplete
  have hsize : composition.emission.length = composition.size := by
    rw [Composition.length_emission, hlength]
  refine ⟨.ofComposition composition config.settings.layout, composition.emission,
    Checked.bind_eq_ok.mpr ⟨composition, h, rfl⟩, hemits, hsize, ?_⟩
  intro calls project points later
  have hprojected := ProjectedPass.emits_start hemits config.settings.layout
  obtain ⟨hstanding, hreturned⟩ := (Scan.standing_ofComposition composition
    config.settings.layout).askAll hprojected calls (Nat.zero_le _)
  rw [Nat.zero_add] at hstanding
  have hpoints : points = (composition.emission.take (calls.count .next)).map project := by
    rw [List.drop_zero, ← List.map_take] at hreturned
    exact hreturned
  have hconsumed : points.length =
      min (calls.count .next) (composition.emission.map project).length := by
    rw [hpoints, List.length_map, List.length_map, List.length_take]
  rw [← hconsumed] at hstanding
  refine ⟨hpoints, ?_, ?_, hstanding.fresh_eq, hstanding.metadata_eq⟩
  · rw [← hsize, ← List.length_map project]
    exact (hstanding.hasNext hprojected).2
  · rcases hstanding.next hprojected with ⟨point, hget, hnext, -⟩ | ⟨hget, hnext, -⟩
    · rw [List.getElem?_map] at hget
      obtain ⟨position, hposition, rfl⟩ := Option.map_eq_some_iff.mp hget
      rw [hposition]
      exact hnext
    · rw [List.getElem?_map, Option.map_eq_none_iff] at hget
      rw [hget]
      exact hnext

def ScanConfig.sample : ScanConfig where
  generators := [
    .compound ⟨[.leaf (.line { Line.single "y" "mm" 0.0 1.0 2 with alternate := true })],
      ⟨[], [], [.randomOffset ⟨7, ["y"], .ofList [("y", 0.25)]⟩], none, .declared⟩⟩,
    .leaf (.listed ⟨"x", "mm", [0.0, 0.5, 1.0], true⟩)]
  settings := ⟨[], [⟨.circular (0.0, 0.0) 1.0, ["x", "y"]⟩], [], some 0.5, .fastFirst⟩

theorem ScanConfig.scan_askAll_sample :
    ∃ composition scan positions, ScanConfig.build .sample = .ok composition ∧
      composition.size = 4 ∧ ScanConfig.scan .sample = .ok scan ∧
      Source.Emits Pass.pull (Pass.start composition) positions ∧
      Scan.returned (Scan.askAll [.hasNext, .next, .next, .fresh, .metadata, .next, .next, .hasNext,
          .next, .next] scan).1 =
        positions.map (Projector.ofComposition composition .fastFirst).project := by
  obtain ⟨composition, hbuild, hsize⟩ := Checked.exists_of_any
    (show (ScanConfig.build .sample).toOption.any (fun composition => composition.size == 4) = true
      by decide +kernel)
  have hsize' := eq_of_beq hsize
  obtain ⟨scan, positions, hscan, hemits, hlength, hanswers⟩ := ScanConfig.scan_askAll hbuild
  refine ⟨composition, scan, positions, hbuild, hsize', hscan, hemits, ?_⟩
  rw [(hanswers _).1, List.take_of_length_le]
  · rfl
  · rw [hlength, hsize']
    decide

end ScanPath
