import ScanPath.Config.Scan
import ScanPath.Proofs.Checked
import ScanPath.Proofs.Json
import ScanPath.Proofs.Mutator

/-!
# What descriptors tell of parameters

Floats that are not finite are written as `null`, but no parameter that a leaf
or an excluder depends on is such a float once it was checked, so the parameters
can be told from the descriptor.  A mutator may be given bounds that it never
looks at, and such a bound may be lost; the mutator is the same without it.
-/

namespace ScanPath

attribute [ext] Line Listed Spiral Bounds Lissajous RegionSet Mutator

open Descriptor Json

/-- What is built is described by fields, and of two items that differ the descriptors differ. -/
structure TellsApart {π α : Type} (build : π → Except Cause α) (describe : α → Descriptor) :
    Prop where
  described : ∀ {parameters item}, build parameters = .ok item →
    ∃ kind fields, describe item = .ofFields kind fields
  eq_of_descriptor_eq : ∀ {parameters others item other}, build parameters = .ok item →
    build others = .ok other → describe item = describe other → item = other

theorem TellsApart.items_eq {π α : Type} {build : π → Except Cause α} {describe : α → Descriptor}
    (h : TellsApart build describe) {items others : List α}
    (hitems : Checked.AllBuilt build items) (hothers : Checked.AllBuilt build others)
    (hvalues : (Json.array (items.map fun item => (describe item).value)).canonical =
      (Json.array (others.map fun item => (describe item).value)).canonical) :
    items = others := by
  apply items_eq_of_canonical_eq hvalues
  intro item hmem other hmem' hequal
  obtain ⟨parameters, hbuild⟩ := hitems item hmem
  obtain ⟨parameters', hbuild'⟩ := hothers other hmem'
  apply h.eq_of_descriptor_eq hbuild hbuild'
  obtain ⟨kind, fields, hdescribed⟩ := h.described hbuild
  obtain ⟨kind', fields', hdescribed'⟩ := h.described hbuild'
  rw [hdescribed, hdescribed'] at hequal ⊢
  exact ofFields_eq_of_canonical_eq hequal

theorem Leaf.finite_of_requireFinite {kind field : String} {values : List Float}
    (h : requireFinite kind field values = .ok ()) : ∀ value ∈ values, value.isFinite = true := by
  unfold requireFinite at h
  split at h
  next hfind => simpa using List.find?_eq_none.mp hfind
  · cases h

theorem Leaf.finite_of_requirePositive {kind field : String} {value : Float}
    (h : requirePositive kind field value = .ok ()) : value.isFinite = true := by
  obtain ⟨hfinite, -⟩ := Checked.seq_eq_ok.mp h
  exact finite_of_requireFinite hfinite value List.mem_cons_self

theorem Region.finite_of_requireFinite {kind : String} {values : List Float}
    (h : requireFinite kind values = .ok ()) : ∀ value ∈ values, value.isFinite = true := by
  unfold requireFinite at h
  split at h
  next hall => exact List.all_eq_true.mp hall
  · cases h

def FinitePair (pair : Float × Float) : Prop := ∀ x ∈ [pair.1, pair.2], x.isFinite = true

theorem pair_eq_of_floats_eq {pair other : Float × Float} (hpair : FinitePair pair)
    (hother : FinitePair other) (h : floats [pair.1, pair.2] = floats [other.1, other.2]) :
    pair = other := by
  have hlists := floats_inj hpair hother h
  simp only [List.cons.injEq, and_true] at hlists
  exact Prod.ext hlists.1 hlists.2

/-! ## Leaves -/

structure Line.Finite (line : Line) : Prop where
  start : ∀ x ∈ line.start, x.isFinite = true
  stop : ∀ x ∈ line.stop, x.isFinite = true

theorem Line.finite_of_check {line : Line} (h : line.check = .ok ()) : line.Finite := by
  simp only [check, Checked.seq_eq_ok] at h
  obtain ⟨-, -, -, -, -, hstart, hstop⟩ := h
  exact ⟨Leaf.finite_of_requireFinite hstart, Leaf.finite_of_requireFinite hstop⟩

theorem Line.eq_of_descriptor_eq {line other : Line} (hline : line.check = .ok ())
    (hother : other.check = .ok ()) (h : line.leaf.descriptor = other.leaf.descriptor) :
    line = other := by
  have hvalues := values_eq_of_ofFields_eq fieldNames h rfl rfl (by decide)
  simp only [encodeFields, List.map_cons, List.map_nil, canonical_strings, canonical_floats,
    List.cons.injEq] at hvalues
  obtain ⟨haxes, hunits, hstart, hstop, hpoints, halternate, -⟩ := hvalues
  have hfinite := finite_of_check hline
  have hfinite' := finite_of_check hother
  exact Line.ext (strings_inj haxes) (strings_inj hunits)
    (floats_inj hfinite.start hfinite'.start hstart) (floats_inj hfinite.stop hfinite'.stop hstop)
    (ofNat_inj hpoints) (Json.bool.inj halternate)

theorem Listed.finite_of_check {listed : Listed} (h : listed.check = .ok ()) :
    ∀ x ∈ listed.points, x.isFinite = true := by
  obtain ⟨-, h⟩ := Checked.seq_eq_ok.mp h
  split at h
  · cases h
  · exact Leaf.finite_of_requireFinite h

theorem Listed.eq_of_descriptor_eq {listed other : Listed} (hlisted : listed.check = .ok ())
    (hother : other.check = .ok ()) (h : listed.leaf.descriptor = other.leaf.descriptor) :
    listed = other := by
  have hvalues := values_eq_of_ofFields_eq fieldNames h rfl rfl (by decide)
  simp only [encodeFields, List.map_cons, List.map_nil, canonical_floats, List.cons.injEq]
    at hvalues
  obtain ⟨haxis, hunits, hpoints, halternate, -⟩ := hvalues
  exact Listed.ext (Json.string.inj haxis) (Json.string.inj hunits)
    (floats_inj (finite_of_check hlisted) (finite_of_check hother) hpoints)
    (Json.bool.inj halternate)

structure Spiral.Finite (spiral : Spiral) : Prop where
  centre : FinitePair spiral.centre
  radius : spiral.radius.isFinite = true
  scale : spiral.scale.isFinite = true

theorem Spiral.finite_of_check {spiral : Spiral} (h : spiral.check = .ok ()) : spiral.Finite := by
  simp only [check, Checked.seq_eq_ok] at h
  obtain ⟨-, -, -, hcentre, hradius, hscale, -⟩ := h
  exact ⟨Leaf.finite_of_requireFinite hcentre, Leaf.finite_of_requirePositive hradius,
    Leaf.finite_of_requirePositive hscale⟩

theorem Spiral.eq_of_descriptor_eq {spiral other : Spiral} (hspiral : spiral.check = .ok ())
    (hother : other.check = .ok ()) (h : spiral.leaf.descriptor = other.leaf.descriptor) :
    spiral = other := by
  have hvalues := values_eq_of_ofFields_eq fieldNames h rfl rfl (by decide)
  simp only [encodeFields, List.map_cons, List.map_nil, canonical_strings, canonical_floats,
    canonical_ofFloat, List.cons.injEq] at hvalues
  obtain ⟨haxes, hunits, hcentre, hradius, hscale, halternate, -⟩ := hvalues
  have hfinite := finite_of_check hspiral
  have hfinite' := finite_of_check hother
  exact Spiral.ext (strings_inj haxes) (strings_inj hunits)
    (pair_eq_of_floats_eq hfinite.centre hfinite'.centre hcentre)
    (ofFloat_inj hfinite.radius hfinite'.radius hradius)
    (ofFloat_inj hfinite.scale hfinite'.scale hscale) (Json.bool.inj halternate)

structure Bounds.Finite (bounds : Bounds) : Prop where
  centre : FinitePair bounds.centre
  width : bounds.width.isFinite = true
  height : bounds.height.isFinite = true

theorem Bounds.eq_of_encode_eq {bounds other : Bounds} (hbounds : bounds.Finite)
    (hother : other.Finite) (h : bounds.encode.canonical = other.encode.canonical) :
    bounds = other := by
  have hvalues := values_eq_of_canonical_eq fieldNames h rfl rfl (by decide)
  simp only [List.map_cons, List.map_nil, canonical_floats, canonical_ofFloat, List.cons.injEq]
    at hvalues
  obtain ⟨hcentre, hwidth, hheight, -⟩ := hvalues
  exact Bounds.ext (pair_eq_of_floats_eq hbounds.centre hother.centre hcentre)
    (ofFloat_inj hbounds.width hother.width hwidth)
    (ofFloat_inj hbounds.height hother.height hheight)

theorem Lissajous.finite_of_check {curve : Lissajous} (h : curve.check = .ok ()) :
    curve.bounds.Finite := by
  simp only [check, Checked.seq_eq_ok] at h
  obtain ⟨-, -, -, hcentre, hwidth, hheight, -⟩ := h
  exact ⟨Leaf.finite_of_requireFinite hcentre, Leaf.finite_of_requirePositive hwidth,
    Leaf.finite_of_requirePositive hheight⟩

theorem Lissajous.eq_of_descriptor_eq {curve other : Lissajous} (hcurve : curve.check = .ok ())
    (hother : other.check = .ok ()) (h : curve.leaf.descriptor = other.leaf.descriptor) :
    curve = other := by
  have hvalues := values_eq_of_ofFields_eq fieldNames h rfl rfl (by decide)
  simp only [encodeFields, List.map_cons, List.map_nil, canonical_strings, List.cons.injEq]
    at hvalues
  obtain ⟨haxes, hunits, hbounds, hlobes, hpoints, -⟩ := hvalues
  exact Lissajous.ext (strings_inj haxes) (strings_inj hunits)
    (Bounds.eq_of_encode_eq (finite_of_check hcurve) (finite_of_check hother) hbounds)
    (ofNat_inj hlobes) (ofNat_inj hpoints)

def LeafConfig.check : LeafConfig → Except Cause Unit
  | .line parameters => parameters.check
  | .listed parameters => parameters.check
  | .spiral parameters => parameters.check
  | .lissajous parameters => parameters.check

theorem LeafConfig.build_eq_ok {config : LeafConfig} {leaf : Leaf} (h : config.build = .ok leaf) :
    config.check = .ok () ∧ leaf.descriptor = .ofFields config.kind config.encodeFields := by
  cases config <;>
    (obtain ⟨hcheck, rfl⟩ := Checked.return_eq_ok.mp h
     exact ⟨hcheck, rfl⟩)

theorem LeafConfig.eq_of_descriptor_eq {config other : LeafConfig} (hconfig : config.check = .ok ())
    (hother : other.check = .ok ())
    (h : ofFields config.kind config.encodeFields = ofFields other.kind other.encodeFields) :
    config = other := by
  have hkind := kind_eq_of_ofFields_eq h
  cases config with
  | line parameters =>
      cases other with
      | line others => exact congrArg _ (Line.eq_of_descriptor_eq hconfig hother h)
      | _ => simp [kind, Line.kind, Listed.kind, Spiral.kind, Lissajous.kind] at hkind
  | listed parameters =>
      cases other with
      | listed others => exact congrArg _ (Listed.eq_of_descriptor_eq hconfig hother h)
      | _ => simp [kind, Line.kind, Listed.kind, Spiral.kind, Lissajous.kind] at hkind
  | spiral parameters =>
      cases other with
      | spiral others => exact congrArg _ (Spiral.eq_of_descriptor_eq hconfig hother h)
      | _ => simp [kind, Line.kind, Listed.kind, Spiral.kind, Lissajous.kind] at hkind
  | lissajous parameters =>
      cases other with
      | lissajous others => exact congrArg _ (Lissajous.eq_of_descriptor_eq hconfig hother h)
      | _ => simp [kind, Line.kind, Listed.kind, Spiral.kind, Lissajous.kind] at hkind

theorem LeafConfig.tellsApart : TellsApart build Leaf.descriptor where
  described h := ⟨_, _, (build_eq_ok h).2⟩
  eq_of_descriptor_eq := by
    intro config other leaf leaf' h h' hdescriptors
    obtain ⟨hcheck, hdescriptor⟩ := build_eq_ok h
    obtain ⟨hcheck', hdescriptor'⟩ := build_eq_ok h'
    rw [hdescriptor, hdescriptor'] at hdescriptors
    rw [eq_of_descriptor_eq hcheck hcheck' hdescriptors, h'] at h
    exact (Except.ok.inj h).symm

/-! ## Excluders -/

def Region.Finite : Region → Prop
  | .circular centre radius => FinitePair centre ∧ radius.isFinite = true
  | .elliptical centre semiaxes angle =>
      FinitePair centre ∧ FinitePair semiaxes ∧ angle.isFinite = true
  | .point target => FinitePair target
  | .polygonal pointsX pointsY =>
      (∀ x ∈ pointsX, x.isFinite = true) ∧ ∀ y ∈ pointsY, y.isFinite = true
  | .rectangular start width height angle =>
      FinitePair start ∧ width.isFinite = true ∧ height.isFinite = true ∧ angle.isFinite = true
  | .sector centre radii angles => FinitePair centre ∧ FinitePair radii ∧ FinitePair angles

theorem Region.finite_of_check {region : Region} (h : region.check = .ok ()) : region.Finite := by
  cases region with
  | point target => exact finite_of_requireFinite h
  | polygonal pointsX pointsY =>
      simp only [check] at h
      split at h
      · cases h
      · split at h
        · cases h
        · exact List.forall_mem_append.mp (finite_of_requireFinite h)
  | _ =>
      obtain ⟨hfinite, -⟩ := Checked.seq_eq_ok.mp h
      simpa [Region.Finite, FinitePair, and_assoc] using finite_of_requireFinite hfinite

def Region.fieldNames : Region → List String
  | .circular .. => ["centre", "radius"]
  | .elliptical .. => ["centre", "semiaxes", "angle"]
  | .point .. => ["point"]
  | .polygonal .. => ["points_x", "points_y"]
  | .rectangular .. => ["start", "width", "height", "angle"]
  | .sector .. => ["centre", "radii", "angles"]

theorem Region.map_fst_encodeFields (region : Region) :
    region.encodeFields.map Prod.fst = region.fieldNames := by
  cases region <;> rfl

theorem Region.map_fst_encode (region : Region) :
    (("type", Json.string region.kind) :: region.encodeFields).map Prod.fst =
      "type" :: region.fieldNames :=
  congrArg ("type" :: ·) region.map_fst_encodeFields

theorem Region.fieldNames_nodup (region : Region) : ("type" :: region.fieldNames).Nodup := by
  cases region <;> simp [fieldNames]

theorem Region.fieldNames_eq_of_kind_eq {region other : Region} (h : region.kind = other.kind) :
    region.fieldNames = other.fieldNames := by
  cases region <;> cases other <;> first | rfl | simp [kind] at h

theorem Region.kind_eq_of_encode_eq {region other : Region}
    (h : region.encode.canonical = other.encode.canonical) : region.kind = other.kind := by
  have hfield : ∀ region : Region,
      region.encode.canonical.field? "type" = some (.string region.kind) := fun region =>
    field?_canonical (region.map_fst_encode ▸ region.fieldNames_nodup) "type"
  apply Json.string.inj
  apply Option.some.inj
  rw [← hfield region, h, hfield]

theorem Region.eq_of_encode_eq {region other : Region} (hregion : region.check = .ok ())
    (hother : other.check = .ok ()) (h : region.encode.canonical = other.encode.canonical) :
    region = other := by
  have hkind := kind_eq_of_encode_eq h
  have hvalues := values_eq_of_canonical_eq _ h region.map_fst_encode
    (fieldNames_eq_of_kind_eq hkind ▸ other.map_fst_encode) region.fieldNames_nodup
  have hfinite := finite_of_check hregion
  have hfinite' := finite_of_check hother
  cases region with
  | circular centre radius =>
      cases other with
      | circular centre' radius' =>
          simp only [List.map_cons, List.map_nil, encodeFields, encodePair, canonical_floats,
            canonical_ofFloat, List.cons.injEq] at hvalues
          obtain ⟨-, hcentre, hradius, -⟩ := hvalues
          obtain rfl := pair_eq_of_floats_eq hfinite.1 hfinite'.1 hcentre
          obtain rfl := ofFloat_inj hfinite.2 hfinite'.2 hradius
          rfl
      | _ => simp [kind] at hkind
  | elliptical centre semiaxes angle =>
      cases other with
      | elliptical centre' semiaxes' angle' =>
          simp only [List.map_cons, List.map_nil, encodeFields, encodePair, canonical_floats,
            canonical_ofFloat, List.cons.injEq] at hvalues
          obtain ⟨-, hcentre, hsemiaxes, hangle, -⟩ := hvalues
          obtain rfl := pair_eq_of_floats_eq hfinite.1 hfinite'.1 hcentre
          obtain rfl := pair_eq_of_floats_eq hfinite.2.1 hfinite'.2.1 hsemiaxes
          obtain rfl := ofFloat_inj hfinite.2.2 hfinite'.2.2 hangle
          rfl
      | _ => simp [kind] at hkind
  | point target =>
      cases other with
      | point target' =>
          simp only [List.map_cons, List.map_nil, encodeFields, encodePair, canonical_floats,
            List.cons.injEq] at hvalues
          obtain ⟨-, htarget, -⟩ := hvalues
          exact congrArg _ (pair_eq_of_floats_eq hfinite hfinite' htarget)
      | _ => simp [kind] at hkind
  | polygonal pointsX pointsY =>
      cases other with
      | polygonal pointsX' pointsY' =>
          simp only [List.map_cons, List.map_nil, encodeFields, canonical_floats,
            List.cons.injEq] at hvalues
          obtain ⟨-, hpointsX, hpointsY, -⟩ := hvalues
          obtain rfl := floats_inj hfinite.1 hfinite'.1 hpointsX
          obtain rfl := floats_inj hfinite.2 hfinite'.2 hpointsY
          rfl
      | _ => simp [kind] at hkind
  | rectangular start width height angle =>
      cases other with
      | rectangular start' width' height' angle' =>
          simp only [List.map_cons, List.map_nil, encodeFields, encodePair, canonical_floats,
            canonical_ofFloat, List.cons.injEq] at hvalues
          obtain ⟨-, hstart, hwidth, hheight, hangle, -⟩ := hvalues
          obtain rfl := pair_eq_of_floats_eq hfinite.1 hfinite'.1 hstart
          obtain rfl := ofFloat_inj hfinite.2.1 hfinite'.2.1 hwidth
          obtain rfl := ofFloat_inj hfinite.2.2.1 hfinite'.2.2.1 hheight
          obtain rfl := ofFloat_inj hfinite.2.2.2 hfinite'.2.2.2 hangle
          rfl
      | _ => simp [kind] at hkind
  | sector centre radii angles =>
      cases other with
      | sector centre' radii' angles' =>
          simp only [List.map_cons, List.map_nil, encodeFields, encodePair, canonical_floats,
            List.cons.injEq] at hvalues
          obtain ⟨-, hcentre, hradii, hangles, -⟩ := hvalues
          obtain rfl := pair_eq_of_floats_eq hfinite.1 hfinite'.1 hcentre
          obtain rfl := pair_eq_of_floats_eq hfinite.2.1 hfinite'.2.1 hradii
          obtain rfl := pair_eq_of_floats_eq hfinite.2.2 hfinite'.2.2 hangles
          rfl
      | _ => simp [kind] at hkind

theorem RegionSet.regions_of_check {set : RegionSet} (h : set.check = .ok ()) :
    ∀ region ∈ set.regions, region.check = .ok () := by
  unfold check at h
  split at h
  · cases h
  · split at h
    · cases h
    · exact Checked.forM_eq_ok.mp h

theorem RegionSet.eq_of_descriptor_eq {set other : RegionSet} (hset : set.check = .ok ())
    (hother : other.check = .ok ())
    (h : set.excluder.descriptor = other.excluder.descriptor) : set = other := by
  have hvalues := values_eq_of_ofFields_eq ["regions", "axes"] h rfl rfl (by decide)
  simp only [encodeFields, List.map_cons, List.map_nil, canonical_strings, List.cons.injEq]
    at hvalues
  obtain ⟨hregions, haxes, -⟩ := hvalues
  refine RegionSet.ext (items_eq_of_canonical_eq hregions ?_) (strings_inj haxes)
  intro region hmem region' hmem'
  exact Region.eq_of_encode_eq (regions_of_check hset region hmem)
    (regions_of_check hother region' hmem')

theorem ExcluderConfig.tellsApart : TellsApart build Excluder.descriptor where
  described := by
    rintro ⟨set⟩ excluder h
    obtain ⟨-, rfl⟩ := Checked.return_eq_ok.mp h
    exact ⟨_, _, rfl⟩
  eq_of_descriptor_eq := by
    rintro ⟨set⟩ ⟨other⟩ excluder excluder' h h' hdescriptors
    obtain ⟨hcheck, rfl⟩ := Checked.return_eq_ok.mp h
    obtain ⟨hcheck', rfl⟩ := Checked.return_eq_ok.mp h'
    rw [RegionSet.eq_of_descriptor_eq hcheck hcheck' hdescriptors]

/-! ## Mutators -/

theorem RandomOffset.perturb_congr {bounds bounds' : Keyed Float} {axes : List String}
    (h : ∀ axis ∈ axes, bounds.get? axis = bounds'.get? axis) :
    perturb bounds axes = perturb bounds' axes := by
  induction axes with
  | nil => rfl
  | cons axis axes ih =>
      rw [List.forall_mem_cons] at h
      funext stream position
      rw [perturb, perturb, h.1, ih h.2]

theorem RandomOffset.get?_eq_of_encode_eq {bounds bounds' : Keyed Float}
    (h : (Json.object (bounds.entries.map fun (axis, bound) => (axis, ofFloat bound))).canonical =
      (Json.object (bounds'.entries.map fun (axis, bound) => (axis, ofFloat bound))).canonical)
    (axis : String) : (bounds.get? axis).map ofFloat = (bounds'.get? axis).map ofFloat := by
  have hcanonical : ∀ table : Keyed Float,
      (Json.object (table.entries.map fun (axis, bound) => (axis, ofFloat bound))).canonical =
        .object (table.map ofFloat).entries := by
    intro table
    change (Json.object (table.map ofFloat).entries).canonical = _
    simp only [canonical_table, canonical_ofFloat]
  rw [hcanonical, hcanonical] at h
  rw [← Keyed.get?_map, ← Keyed.get?_map, Keyed.ext (Json.object.inj h)]

theorem RandomOffset.mutator_eq_of_descriptor_eq {offset other : RandomOffset}
    (hoffset : offset.check = .ok ()) (hother : other.check = .ok ())
    (h : offset.mutator.descriptor = other.mutator.descriptor) :
    offset.mutator = other.mutator := by
  have hvalues := values_eq_of_ofFields_eq ["seed", "axes", "max_offset"] h rfl rfl (by decide)
  simp only [encodeFields, List.map_cons, List.map_nil, canonical_strings, List.cons.injEq]
    at hvalues
  obtain ⟨hseed, haxes, hbounds, -⟩ := hvalues
  have haxes' := strings_inj haxes
  have hget := get?_eq_of_encode_eq hbounds
  have hlisted : ∀ axis ∈ offset.axes, offset.maxOffset.get? axis = other.maxOffset.get? axis := by
    intro axis hmem
    obtain ⟨bound, hbound, hfinite, -⟩ := bound_of_check hoffset axis hmem
    obtain ⟨bound', hbound', hfinite', -⟩ := bound_of_check hother axis (haxes' ▸ hmem)
    have hsame := hget axis
    rw [hbound, hbound'] at hsame
    rw [hbound, hbound', ofFloat_inj hfinite hfinite' (Option.some.inj hsame)]
  refine Mutator.ext haxes' ?_ h
  change offset.mutate = other.mutate
  funext position ordinal
  rw [mutate, mutate, ofNat_inj hseed, perturb_congr hlisted, haxes']

theorem MutatorConfig.tellsApart : TellsApart build Mutator.descriptor where
  described := by
    rintro ⟨offset⟩ mutator h
    obtain ⟨-, rfl⟩ := Checked.return_eq_ok.mp h
    exact ⟨_, _, rfl⟩
  eq_of_descriptor_eq := by
    rintro ⟨offset⟩ ⟨other⟩ mutator mutator' h h' hdescriptors
    obtain ⟨hcheck, rfl⟩ := Checked.return_eq_ok.mp h
    obtain ⟨hcheck', rfl⟩ := Checked.return_eq_ok.mp h'
    exact RandomOffset.mutator_eq_of_descriptor_eq hcheck hcheck' hdescriptors

end ScanPath
