import ScanPath.Proofs.Composition.Exchange
import ScanPath.Proofs.Json.Sameness
import ScanPath.Proofs.Parameters
import ScanPath.Proofs.Trigonometry

/-!
# Excluders that compare equal

Excluders with equal descriptors have the same parameters up to the signs of
zeros.  To compare them both are brought to the form in which no parameter is a
negative zero: equal descriptors give one such form, and the form gives the
verdicts of the excluder it comes from, region by region.  The one exception is
a sector with a zero in its centre.  The angle of a point seen from there turns
half way round with the sign of the zero if the point has a negative zero in the
same place.
-/

namespace ScanPath

namespace Json

theorem unsignedZero_sameNumber (x : Float) : SameNumber (unsignedZero x) x := by
  unfold unsignedZero
  split
  next hzero => exact (SameNumber.of_beq hzero).symm
  · rfl

theorem unsignedItems_eq_map (items : List Json) : unsignedItems items = items.map unsigned := by
  induction items with
  | nil => rfl
  | cons item items ih => rw [unsignedItems, ih, List.map_cons]

theorem unsignedFields_eq_map (fields : List (String × Json)) :
    unsignedFields fields = fields.map fun field => (field.1, field.2.unsigned) := by
  induction fields with
  | nil => rfl
  | cons field fields ih =>
      obtain ⟨name, value⟩ := field
      rw [unsignedFields, ih, List.map_cons]

@[simp] theorem unsigned_ofFloat (x : Float) : (ofFloat x).unsigned = ofFloat (unsignedZero x) := by
  rw [ofFloat, ofFloat, (unsignedZero_sameNumber x).isFinite_eq]
  split <;> rfl

@[simp] theorem unsigned_floats (items : List Float) :
    (floats items).unsigned = floats (items.map unsignedZero) := by
  rw [floats, unsigned, unsignedItems_eq_map, floats, List.map_map, List.map_map]
  exact congrArg array (List.map_congr_left fun x _ => unsigned_ofFloat x)

@[simp] theorem unsigned_strings (items : List String) :
    (strings items).unsigned = strings items := by
  rw [strings, unsigned, unsignedItems_eq_map, List.map_map]
  rfl

mutual

theorem unsigned_canonical : (json : Json) → json.canonical.unsigned = json.unsigned.canonical
  | .null | .bool _ | .int _ | .float _ | .string _ => rfl
  | .array items => by
      rw [canonical, unsigned, unsigned, canonical, unsignedItems_canonicalItems items]
  | .object fields => by
      have hmap : (Keyed.ofList (canonicalFields fields)).map unsigned =
          Keyed.ofList (unsignedFields (canonicalFields fields)) := by
        rw [unsignedFields_eq_map]
        exact Keyed.map_insertAll unsigned ∅ _
      rw [canonical, unsigned, unsigned, canonical, ← unsignedFields_canonicalFields fields,
        orderedFields, orderedFields, ← hmap, unsignedFields_eq_map]
      rfl

theorem unsignedItems_canonicalItems : (items : List Json) →
    unsignedItems (canonicalItems items) = canonicalItems (unsignedItems items)
  | [] => rfl
  | item :: items => by
      rw [canonicalItems, unsignedItems, unsignedItems, canonicalItems, unsigned_canonical item,
        unsignedItems_canonicalItems items]

theorem unsignedFields_canonicalFields : (fields : List (String × Json)) →
    unsignedFields (canonicalFields fields) = canonicalFields (unsignedFields fields)
  | [] => rfl
  | (name, value) :: fields => by
      rw [canonicalFields, unsignedFields, unsignedFields, canonicalFields,
        unsigned_canonical value, unsignedFields_canonicalFields fields]

end

end Json

open Json (unsignedZero unsignedZero_sameNumber)

theorem unsignedZero_of_positive {x : Float} (h : ¬ x ≤ 0.0) : unsignedZero x = x := by
  rw [unsignedZero, if_neg]
  intro hzero
  rw [(SameNumber.of_beq hzero).le_iff (.refl 0.0)] at h
  exact h (by decide)

/-- A zero is taken off alike with either sign, unless it is taken off a negative zero. -/
theorem sub_unsignedZero {x origin : Float} (h : (origin == 0.0) = true → ¬ x = -0.0) :
    x - unsignedZero origin = x - origin := by
  by_cases hzero : (origin == 0.0) = true
  · exact sub_eq_of_sameNumber (unsignedZero_sameNumber origin) (h hzero)
  · rw [unsignedZero, if_neg hzero]

/-! ## Regions without signed zeros -/

def unsignedPair (pair : Float × Float) : Float × Float :=
  (unsignedZero pair.1, unsignedZero pair.2)

namespace Region

def unsigned : Region → Region
  | .circular centre radius => .circular (unsignedPair centre) (unsignedZero radius)
  | .elliptical centre semiaxes angle =>
      .elliptical (unsignedPair centre) (unsignedPair semiaxes) (unsignedZero angle)
  | .point target => .point (unsignedPair target)
  | .polygonal pointsX pointsY =>
      .polygonal (pointsX.map unsignedZero) (pointsY.map unsignedZero)
  | .rectangular start width height angle =>
      .rectangular (unsignedPair start) (unsignedZero width) (unsignedZero height)
        (unsignedZero angle)
  | .sector centre radii angles =>
      .sector (unsignedPair centre) (unsignedPair radii) (unsignedPair angles)

theorem encode_unsigned (region : Region) : region.unsigned.encode = region.encode.unsigned := by
  cases region <;>
    simp [encode, unsigned, encodeFields, encodePair, kind, unsignedPair, Json.unsigned,
      Json.unsignedFields]

theorem check_unsigned (region : Region) : region.unsigned.check = region.check := by
  have hfinite : ∀ x, (unsignedZero x).isFinite = x.isFinite :=
    fun x => (unsignedZero_sameNumber x).isFinite_eq
  have hle : ∀ x y, unsignedZero x ≤ unsignedZero y ↔ x ≤ y :=
    fun x y => (unsignedZero_sameNumber x).le_iff (unsignedZero_sameNumber y)
  have hle' : ∀ x, unsignedZero x ≤ 0.0 ↔ x ≤ 0.0 :=
    fun x => (unsignedZero_sameNumber x).le_iff (.refl 0.0)
  have hlt : ∀ x, unsignedZero x < 0.0 ↔ x < 0.0 :=
    fun x => (unsignedZero_sameNumber x).lt_iff (.refl 0.0)
  cases region with
  | polygonal pointsX pointsY =>
      have hall : ∀ points : List Float,
          (points.map unsignedZero).all Float.isFinite = points.all Float.isFinite := by
        intro points
        rw [List.all_map]
        exact congrArg points.all (funext hfinite)
      simp only [unsigned, check, kind, List.length_map, requireFinite, ← List.map_append, hall]
  | _ =>
      simp only [unsigned, check, kind, unsignedPair, requireFinite, List.all_cons, List.all_nil,
        hfinite, hle, hle', hlt]
      congr

/-- An edge is only crossed if its ends lie on different sides, and then their difference does not
show the sign of a zero. -/
theorem crosses_unsigned (x y : Float) (vertex previous : Float × Float) :
    crosses x y (unsignedPair vertex) (unsignedPair previous) = crosses x y vertex previous := by
  have hfirst := unsignedZero_sameNumber vertex.1
  have hsecond := unsignedZero_sameNumber vertex.2
  have hfirst' := unsignedZero_sameNumber previous.1
  have hsecond' := unsignedZero_sameNumber previous.2
  have hside : decide (y < (unsignedPair vertex).2) = decide (y < vertex.2) :=
    SameNumber.decide_lt (.refl y) hsecond
  have hside' : decide (y < (unsignedPair previous).2) = decide (y < previous.2) :=
    SameNumber.decide_lt (.refl y) hsecond'
  rw [crosses, crosses, hside, hside']
  by_cases hsides : (decide (y < vertex.2) != decide (y < previous.2)) = true
  · have hne : ¬ SameNumber previous.2 vertex.2 := by
      intro hsame
      rw [SameNumber.decide_lt (.refl y) hsame, bne_self_eq_false] at hsides
      cases hsides
    have hheight : previous.2 - vertex.2 = (unsignedPair previous).2 - (unsignedPair vertex).2 :=
      sub_eq_of_not_sameNumber hsecond'.symm hsecond.symm hne
    have hbound := (((hfirst'.sub hfirst).mul (SameNumber.sub (.refl y) hsecond)).div
      (previous.2 - vertex.2)).add hfirst
    rw [hsides, ← hheight]
    exact congrArg _ (SameNumber.decide_lt (.refl x) hbound)
  · rw [Bool.not_eq_true] at hsides
    rw [hsides, Bool.false_and, Bool.false_and]

theorem crossingParity_unsigned (x y : Float) (previous : Float × Float)
    (vertices : List (Float × Float)) :
    crossingParity x y (unsignedPair previous) (vertices.map unsignedPair) =
      crossingParity x y previous vertices := by
  induction vertices generalizing previous with
  | nil => rfl
  | cons vertex vertices ih =>
      rw [List.map_cons, crossingParity, crossingParity, crosses_unsigned, ih]

theorem polygonContains_unsigned (vertices : List (Float × Float)) (x y : Float) :
    polygonContains (vertices.map unsignedPair) x y = polygonContains vertices x y := by
  rw [polygonContains, polygonContains, List.getLast?_map, List.length_map]
  cases vertices.getLast? with
  | none => rfl
  | some last =>
      simp only [Option.map_some, crossingParity_unsigned]

/-- A negative zero in the place of a zero of the centre of a sector. -/
def TellsZeros (region : Region) (x y : Float) : Prop :=
  match region with
  | .sector centre _ _ => (centre.1 == 0.0) = true ∧ x = -0.0 ∨ (centre.2 == 0.0) = true ∧ y = -0.0
  | _ => False

theorem tellsZeros_unsigned (region : Region) (x y : Float) :
    region.unsigned.TellsZeros x y ↔ region.TellsZeros x y := by
  have hzero : ∀ x : Float, (unsignedZero x == 0.0) = (x == 0.0) := by
    intro x
    rw [Bool.eq_iff_iff, beq_iff_compare, beq_iff_compare,
      (unsignedZero_sameNumber x).compare_eq (.refl 0.0)]
  cases region with
  | sector centre radii angles =>
      simp only [unsigned, TellsZeros, unsignedPair, hzero]
  | _ => rfl

variable [Trigonometry]

theorem rotate_sameNumber (hlawful : Trigonometry.Lawful) {x x' y y' angle angle' : Float}
    (hx : SameNumber x x') (hy : SameNumber y y') (hangle : SameNumber angle angle') :
    SameNumber (rotate x y angle).1 (rotate x' y' angle').1 ∧
      SameNumber (rotate x y angle).2 (rotate x' y' angle').2 := by
  have hsin := hlawful.sin_sameNumber hangle
  have hcos : SameNumber (Trigonometry.cos angle) (Trigonometry.cos angle') := by
    rw [hlawful.cos_eq hangle]
    exact .refl _
  exact ⟨(hx.mul hcos).sub (hy.mul hsin), (hx.mul hsin).add (hy.mul hcos)⟩

theorem contains_unsigned (hlawful : Trigonometry.Lawful) {region : Region}
    (hcheck : region.check = .ok ()) {x y : Float} (h : ¬ region.TellsZeros x y) :
    region.unsigned.contains x y = region.contains x y := by
  have hoffset : ∀ origin : Float × Float,
      SameNumber (x - (unsignedPair origin).1) (x - origin.1) ∧
        SameNumber (y - (unsignedPair origin).2) (y - origin.2) := fun origin =>
    ⟨.sub (.refl x) (unsignedZero_sameNumber origin.1),
      .sub (.refl y) (unsignedZero_sameNumber origin.2)⟩
  cases region with
  | circular centre radius =>
      obtain ⟨hdx, hdy⟩ := hoffset centre
      have hradius := unsignedZero_sameNumber radius
      exact ((hdx.mul hdx).add (hdy.mul hdy)).decide_le (hradius.mul hradius)
  | elliptical centre semiaxes angle =>
      obtain ⟨hdx, hdy⟩ := hoffset centre
      obtain ⟨hu, hv⟩ := rotate_sameNumber hlawful hdx hdy (unsignedZero_sameNumber angle).neg
      obtain ⟨-, hpositive⟩ := Checked.seq_eq_ok.mp hcheck
      have hsemiaxes : ¬ semiaxes.1 ≤ 0.0 ∧ ¬ semiaxes.2 ≤ 0.0 := by
        split at hpositive
        · cases hpositive
        next hor => simpa using hor
      have hratio := hu.div semiaxes.1
      have hratio' := hv.div semiaxes.2
      have hsum := (hratio.mul hratio).add (hratio'.mul hratio')
      have hsame : unsignedPair semiaxes = semiaxes :=
        Prod.ext (unsignedZero_of_positive hsemiaxes.1) (unsignedZero_of_positive hsemiaxes.2)
      rw [unsigned, hsame]
      exact hsum.decide_le (.refl 1.0)
  | point target =>
      obtain ⟨hdx, hdy⟩ := hoffset target
      simp only [unsigned, contains]
      rw [hdx.abs.decide_le (.refl _), hdy.abs.decide_le (.refl _)]
  | polygonal pointsX pointsY =>
      simp only [unsigned, contains]
      rw [← polygonContains_unsigned (pointsX.zip pointsY), List.zip_map]
      rfl
  | rectangular start width height angle =>
      obtain ⟨hdx, hdy⟩ := hoffset start
      obtain ⟨hu, hv⟩ := rotate_sameNumber hlawful hdx hdy (unsignedZero_sameNumber angle).neg
      simp only [unsigned, contains]
      rw [SameNumber.decide_le (.refl 0.0) hu, hu.decide_le (unsignedZero_sameNumber width),
        SameNumber.decide_le (.refl 0.0) hv, hv.decide_le (unsignedZero_sameNumber height)]
  | sector centre radii angles =>
      rw [TellsZeros, not_or, not_and, not_and] at h
      have hdx : x - (unsignedPair centre).1 = x - centre.1 := sub_unsignedZero h.1
      have hdy : y - (unsignedPair centre).2 = y - centre.2 := sub_unsignedZero h.2
      have hfirst := unsignedZero_sameNumber angles.1
      have hspan := (unsignedZero_sameNumber angles.2).sub hfirst
      let distance := ((x - centre.1) * (x - centre.1) + (y - centre.2) * (y - centre.2)).sqrt
      let angle := Trigonometry.atan2 (y - centre.2) (x - centre.1)
      have hinner : decide (distance < (unsignedPair radii).1) = decide (distance < radii.1) :=
        SameNumber.decide_lt (.refl _) (unsignedZero_sameNumber radii.1)
      have houter : decide ((unsignedPair radii).2 < distance) = decide (radii.2 < distance) :=
        SameNumber.decide_lt (unsignedZero_sameNumber radii.2) (.refl _)
      have hturn : turn ≤ (unsignedPair angles).2 - (unsignedPair angles).1 ↔
          turn ≤ angles.2 - angles.1 :=
        SameNumber.le_iff (.refl turn) hspan
      have hrest : SameNumber
          (Decimal.remainderEuclid (angle - (unsignedPair angles).1) turn)
          (Decimal.remainderEuclid (angle - angles.1) turn) :=
        .remainderEuclid (.sub (.refl angle) hfirst) turn
      simp only [unsigned, contains, hdx, hdy]
      rw [hinner, houter]
      exact if_congr .rfl rfl (if_congr hturn rfl (hrest.decide_le hspan))

end Region

/-! ## Sets of regions -/

namespace RegionSet

def unsigned (set : RegionSet) : RegionSet := ⟨set.regions.map Region.unsigned, set.axes⟩

theorem check_unsigned (set : RegionSet) : set.unsigned.check = set.check := by
  have hregions : (set.regions.map Region.unsigned).forM Region.check =
      set.regions.forM Region.check := by
    induction set.regions with
    | nil => rfl
    | cons region regions ih =>
        change (do region.unsigned.check; (regions.map Region.unsigned).forM Region.check) =
          (do region.check; regions.forM Region.check)
        rw [ih, region.check_unsigned]
  rw [check, check, unsigned, hregions, List.isEmpty_map]

def TellsZeros (set : RegionSet) : List Float → Prop
  | x :: y :: _ => ∃ region ∈ set.regions, region.TellsZeros x y
  | _ => False

theorem tellsZeros_unsigned (set : RegionSet) (coordinates : List Float) :
    set.unsigned.TellsZeros coordinates ↔ set.TellsZeros coordinates := by
  rcases coordinates with _ | ⟨x, _ | ⟨y, rest⟩⟩
  · rfl
  · rfl
  · simp [TellsZeros, unsigned, Region.tellsZeros_unsigned]

section

variable [Trigonometry]

theorem descriptor_unsigned (set : RegionSet) :
    set.unsigned.excluder.descriptor.value = set.excluder.descriptor.value.unsigned := by
  have hregions : Json.unsignedItems (set.regions.map Region.encode) =
      set.unsigned.regions.map Region.encode := by
    rw [Json.unsignedItems_eq_map, unsigned, List.map_map, List.map_map]
    exact List.map_congr_left fun region _ => region.encode_unsigned.symm
  change _ = (Json.canonical _).unsigned
  rw [Json.unsigned_canonical]
  simp only [encodeFields, List.cons_append, List.nil_append, Json.unsigned, Json.unsignedFields,
    Json.unsigned_strings, hregions]
  rfl

theorem unsigned_eq_of_beq {set other : RegionSet} (hset : set.check = .ok ())
    (hother : other.check = .ok ())
    (h : (set.excluder.descriptor == other.excluder.descriptor) = true) :
    set.unsigned = other.unsigned := by
  have hvalue : set.unsigned.excluder.descriptor.value =
      other.unsigned.excluder.descriptor.value := by
    rw [descriptor_unsigned, descriptor_unsigned]
    exact Json.unsigned_eq_of_same _ _ h
  exact eq_of_descriptor_eq (set.check_unsigned.trans hset) (other.check_unsigned.trans hother)
    (congrArg Descriptor.mk hvalue)

theorem contains_unsigned (hlawful : Trigonometry.Lawful) {set : RegionSet}
    (hset : set.check = .ok ()) {coordinates : List Float} (h : ¬ set.TellsZeros coordinates) :
    set.unsigned.contains coordinates = set.contains coordinates := by
  rcases coordinates with _ | ⟨x, _ | ⟨y, rest⟩⟩
  · rfl
  · rfl
  · simp only [TellsZeros, not_exists, not_and] at h
    rw [contains, contains, unsigned, List.any_map, Bool.eq_iff_iff, List.any_eq_true,
      List.any_eq_true]
    have hverdict : ∀ region ∈ set.regions,
        region.unsigned.contains x y = region.contains x y := fun region hmem =>
      Region.contains_unsigned hlawful (regions_of_check hset region hmem) (h region hmem)
    exact exists_congr fun region => and_congr_right fun hmem => by
      rw [Function.comp_apply, hverdict region hmem]

/-- Accepted excluders with equal descriptors look at the same axes and give one verdict on all
coordinates among which no sector tells the zeros.  So dropping the duplicates from a list of
excluders, whichever of them comes first, changes nothing for the positions with such
coordinates. -/
theorem verdicts_coincide (hlawful : Trigonometry.Lawful) {sets : List RegionSet}
    (hsets : ∀ set ∈ sets, set.build = .ok set.excluder) :
    (∀ set ∈ sets, ∀ other ∈ sets,
      (set.excluder.descriptor == other.excluder.descriptor) = true →
      set.axes = other.axes ∧ ∀ coordinates, ¬ set.TellsZeros coordinates →
        set.excluder.contains coordinates = other.excluder.contains coordinates) ∧
    ∀ position : Position,
      (∀ set ∈ sets, ∀ coordinates, set.axes.mapM (Position.value? position) = some coordinates →
        ¬ set.TellsZeros coordinates) →
      Composition.admits
          (Descriptor.firstOccurrences Excluder.descriptor (sets.map RegionSet.excluder)) position =
        Composition.admits (sets.map RegionSet.excluder) position := by
  have hchecks : ∀ set ∈ sets, set.check = .ok () :=
    fun set hmem => (Checked.return_eq_ok.mp (hsets set hmem)).1
  have hverdicts : ∀ set ∈ sets, ∀ other ∈ sets,
      (set.excluder.descriptor == other.excluder.descriptor) = true →
      set.axes = other.axes ∧ ∀ coordinates, ¬ set.TellsZeros coordinates →
        set.excluder.contains coordinates = other.excluder.contains coordinates := by
    intro set hset other hother h
    have hforms := unsigned_eq_of_beq (hchecks set hset) (hchecks other hother) h
    have haxes : set.unsigned.axes = other.unsigned.axes := congrArg RegionSet.axes hforms
    refine ⟨haxes, ?_⟩
    intro coordinates htells
    have htells' : ¬ other.TellsZeros coordinates := by
      rwa [← tellsZeros_unsigned, ← hforms, tellsZeros_unsigned]
    change set.contains coordinates = other.contains coordinates
    rw [← contains_unsigned hlawful (hchecks set hset) htells, hforms,
      contains_unsigned hlawful (hchecks other hother) htells']
  refine ⟨hverdicts, ?_⟩
  intro position htells
  rw [Composition.admits, Composition.admits, Bool.eq_iff_iff, List.all_eq_true, List.all_eq_true]
  apply Descriptor.forall_mem_firstOccurrences_iff
  intro first hfirst second hsecond h hpasses
  obtain ⟨set, hset, rfl⟩ := List.mem_map.mp hfirst
  obtain ⟨other, hother, rfl⟩ := List.mem_map.mp hsecond
  obtain ⟨haxes, hcontains⟩ := hverdicts set hset other hother h
  have hsame : other.excluder.axes = set.excluder.axes := haxes.symm
  unfold Composition.passes at hpasses ⊢
  rw [hsame]
  cases hvalues : set.excluder.axes.mapM (Position.value? position) with
  | none =>
      rw [hvalues] at hpasses
      cases hpasses
  | some coordinates =>
      rw [hvalues] at hpasses
      exact (hcontains coordinates (htells set hset coordinates hvalues)).symm.trans hpasses

end

def zeroSet (zero : Float) : RegionSet :=
  ⟨[.sector (zero, 0.0) (0.0, 1.0) (zero, 1.0), .elliptical (zero, 3.0) (1.0, 1.5) zero],
    ["x", "y"]⟩

theorem not_tellsZeros_zeroSet {zero : Float} {coordinates : List Float}
    (h : coordinates = [0.5, 0.0]) : ¬ (zeroSet zero).TellsZeros coordinates := by
  subst h
  have hne : (0.5 : Float) ≠ -0.0 ∧ (0.0 : Float) ≠ -0.0 := by decide
  simp [TellsZeros, zeroSet, Region.TellsZeros, hne]

theorem verdicts_coincide_zeroSet :
    let _ := Trigonometry.squareWave
    (zeroSet 0.0).excluder.contains [0.5, 0.0] = (zeroSet (-0.0)).excluder.contains [0.5, 0.0] ∧
    ∀ position : Position, position.value? "x" = some 0.5 → position.value? "y" = some 0.0 →
      Composition.admits (Descriptor.firstOccurrences Excluder.descriptor
          [(zeroSet 0.0).excluder, (zeroSet (-0.0)).excluder]) position =
        Composition.admits [(zeroSet 0.0).excluder, (zeroSet (-0.0)).excluder] position := by
  intro trigonometry
  have hbuild : ∀ set ∈ [zeroSet 0.0, zeroSet (-0.0)], set.build = .ok set.excluder := by
    simp only [List.forall_mem_cons, List.not_mem_nil, false_imp_iff, implies_true, and_true]
    exact ⟨rfl, rfl⟩
  obtain ⟨hverdicts, hadmits⟩ := verdicts_coincide Trigonometry.squareWave_lawful hbuild
  constructor
  · exact (hverdicts _ List.mem_cons_self _ (List.mem_cons_of_mem _ List.mem_cons_self)
      (by decide +kernel)).2 _ (not_tellsZeros_zeroSet rfl)
  · intro position hx hy
    apply hadmits position
    have hvalues : ["x", "y"].mapM (Position.value? position) = some [0.5, 0.0] := by
      simp [hx, hy]
    intro set hset coordinates hcoordinates
    rcases List.mem_pair.mp hset with rfl | rfl
    · exact not_tellsZeros_zeroSet (Option.some.inj (hcoordinates.symm.trans hvalues))
    · exact not_tellsZeros_zeroSet (Option.some.inj (hcoordinates.symm.trans hvalues))

/-- Half a turn apart: the duplicate that is dropped keeps a point that the other one does not. -/
theorem contains_ne_of_signedZero :
    let _ := Trigonometry.squareWave
    (zeroSet 0.0).check = .ok () ∧ (zeroSet (-0.0)).check = .ok () ∧
      ((zeroSet 0.0).excluder.descriptor == (zeroSet (-0.0)).excluder.descriptor) = true ∧
      (zeroSet 0.0).excluder.contains [-0.0, 0.0] = false ∧
      (zeroSet (-0.0)).excluder.contains [-0.0, 0.0] = true := by
  refine ⟨rfl, rfl, ?_, ?_, ?_⟩ <;> decide +kernel

end RegionSet

end ScanPath
