import ScanPath.Config.Scan
import ScanPath.Proofs.Document
import ScanPath.Proofs.Parameters

/-!
# Descriptions written and read back

Every part of a description with finite floats is read back from its canonical
form: its fields are told by their names, its kind by its tag, and a nested scan
by the field `compound`, which no leaf has.  The induction is on the nesting of
generators, and the fuel of the reader only has to be beyond the depth of what
is written.  So a description is told from its canonical form, whatever
shorthands the document that it came from made use of.
-/

namespace ScanPath

open Document

/-! ## Leaves -/

instance : DecidablePred Line.Finite := fun _ =>
  decidable_of_iff (_ ∧ _) ⟨fun h => ⟨h.1, h.2⟩, fun h => ⟨h.start, h.stop⟩⟩

theorem Line.decode?_of_lists {line : Line} (hfinite : line.Finite) {document : Document}
    (h : document.Lists line.encodeFields) : decode? document = some line := by
  obtain ⟨record, hrecord, hfields⟩ := h.exists_record .inner fieldNames rfl (by decide)
  simp only [encodeFields, List.forall_mem_cons] at hfields
  obtain ⟨haxes, hunits, hstart, hstop, hpoints, halternate, -⟩ := hfields
  simp [decode?, hrecord, Record.require?, Record.default?, haxes, hunits, hstart, hstop, hpoints,
    halternate, oneOrMany?_floats hfinite.start, oneOrMany?_floats hfinite.stop]

theorem Listed.decode?_of_lists {listed : Listed}
    (hfinite : ∀ x ∈ listed.points, x.isFinite = true) {document : Document}
    (h : document.Lists listed.encodeFields) : decode? document = some listed := by
  obtain ⟨record, hrecord, hfields⟩ := h.exists_record .inner fieldNames rfl (by decide)
  simp only [encodeFields, List.forall_mem_cons] at hfields
  obtain ⟨haxis, hunits, hpoints, halternate, -⟩ := hfields
  simp [decode?, hrecord, Record.require?, Record.default?, haxis, hunits, hpoints, halternate,
    listOf?_floats .inner hfinite]

instance : DecidablePred FinitePair := fun pair =>
  inferInstanceAs (Decidable (∀ x ∈ [pair.1, pair.2], x.isFinite = true))

instance : DecidablePred Spiral.Finite := fun _ =>
  decidable_of_iff (_ ∧ _ ∧ _)
    ⟨fun h => ⟨h.1, h.2.1, h.2.2⟩, fun h => ⟨h.centre, h.radius, h.scale⟩⟩

theorem Spiral.decode?_of_lists {spiral : Spiral} (hfinite : spiral.Finite) {document : Document}
    (h : document.Lists spiral.encodeFields) : decode? document = some spiral := by
  obtain ⟨record, hrecord, hfields⟩ := h.exists_record .inner fieldNames rfl (by decide)
  simp only [encodeFields, List.forall_mem_cons] at hfields
  obtain ⟨haxes, hunits, hcentre, hradius, hscale, halternate, -⟩ := hfields
  simp [decode?, hrecord, Record.require?, Record.default?, haxes, hunits, hcentre, hradius,
    hscale, halternate, pair?_floats hfinite.centre, float?_ofFloat hfinite.radius,
    float?_ofFloat hfinite.scale]

instance : DecidablePred Bounds.Finite := fun _ =>
  decidable_of_iff (_ ∧ _ ∧ _)
    ⟨fun h => ⟨h.1, h.2.1, h.2.2⟩, fun h => ⟨h.centre, h.width, h.height⟩⟩

theorem Bounds.decode?_encode {bounds : Bounds} (hfinite : bounds.Finite) :
    decode? (ofCanonical bounds.encode) = some bounds := by
  obtain ⟨record, hrecord, hfields⟩ :=
    record?_ofCanonical bounds.encode rfl .inner fieldNames rfl (by decide)
  simp only [List.forall_mem_cons] at hfields
  obtain ⟨hcentre, hwidth, hheight, -⟩ := hfields
  simp [decode?, hrecord, Record.require?, hcentre, hwidth, hheight,
    pair?_floats hfinite.centre, float?_ofFloat hfinite.width, float?_ofFloat hfinite.height]

theorem Lissajous.decode?_of_lists {curve : Lissajous} (hfinite : curve.bounds.Finite)
    {document : Document} (h : document.Lists curve.encodeFields) :
    decode? document = some curve := by
  obtain ⟨record, hrecord, hfields⟩ := h.exists_record .inner fieldNames rfl (by decide)
  simp only [encodeFields, List.forall_mem_cons] at hfields
  obtain ⟨haxes, hunits, hbounds, hlobes, hpoints, -⟩ := hfields
  simp [decode?, hrecord, Record.require?, haxes, hunits, hbounds, hlobes, hpoints,
    Bounds.decode?_encode hfinite]

def LeafConfig.Finite : LeafConfig → Prop
  | .line parameters => parameters.Finite
  | .listed parameters => ∀ x ∈ parameters.points, x.isFinite = true
  | .spiral parameters => parameters.Finite
  | .lissajous parameters => parameters.bounds.Finite

instance : DecidablePred LeafConfig.Finite
  | .line parameters => inferInstanceAs (Decidable parameters.Finite)
  | .listed parameters => inferInstanceAs (Decidable (∀ x ∈ parameters.points, x.isFinite = true))
  | .spiral parameters => inferInstanceAs (Decidable parameters.Finite)
  | .lissajous parameters => inferInstanceAs (Decidable parameters.bounds.Finite)

def LeafConfig.fieldNames : LeafConfig → List String
  | .line _ => Line.fieldNames
  | .listed _ => Listed.fieldNames
  | .spiral _ => Spiral.fieldNames
  | .lissajous _ => Lissajous.fieldNames

theorem LeafConfig.map_fst_encodeFields (config : LeafConfig) :
    config.encodeFields.map Prod.fst = config.fieldNames := by
  cases config <;> rfl

theorem LeafConfig.fieldNames_nodup (config : LeafConfig) :
    (typeField :: config.fieldNames).Nodup := by
  cases config <;> simp [fieldNames, Line.fieldNames, Listed.fieldNames, Spiral.fieldNames,
    Lissajous.fieldNames, typeField]

theorem LeafConfig.kind_mem_kinds (config : LeafConfig) : config.kind ∈ kinds := by
  cases config <;> simp [kind, kinds]

theorem LeafConfig.decode?_encode {config : LeafConfig} (hfinite : config.Finite)
    (level : Level) : decode? level (ofCanonical config.encode) = some config := by
  obtain ⟨rest, htagged, hrest⟩ := tagged?_ofCanonical config.encode rfl config.fieldNames
    config.map_fst_encodeFields config.fieldNames_nodup level config.kind_mem_kinds
  change (tagged? level typeField kinds (ofCanonical config.encode)).bind _ = _
  rw [htagged, Option.bind_some]
  cases config with
  | line parameters =>
      exact congrArg (Option.map line) (Line.decode?_of_lists hfinite hrest)
  | listed parameters =>
      exact congrArg (Option.map listed) (Listed.decode?_of_lists hfinite hrest)
  | spiral parameters =>
      exact congrArg (Option.map spiral) (Spiral.decode?_of_lists hfinite hrest)
  | lissajous parameters =>
      exact congrArg (Option.map lissajous) (Lissajous.decode?_of_lists hfinite hrest)

/-! ## Regions -/

instance : DecidablePred Region.Finite
  | .circular centre radius =>
      inferInstanceAs (Decidable (FinitePair centre ∧ radius.isFinite = true))
  | .elliptical centre semiaxes angle =>
      inferInstanceAs
        (Decidable (FinitePair centre ∧ FinitePair semiaxes ∧ angle.isFinite = true))
  | .point target => inferInstanceAs (Decidable (FinitePair target))
  | .polygonal pointsX pointsY =>
      inferInstanceAs (Decidable
        ((∀ x ∈ pointsX, x.isFinite = true) ∧ ∀ y ∈ pointsY, y.isFinite = true))
  | .rectangular start width height angle =>
      inferInstanceAs (Decidable (FinitePair start ∧ width.isFinite = true ∧
        height.isFinite = true ∧ angle.isFinite = true))
  | .sector centre radii angles =>
      inferInstanceAs (Decidable (FinitePair centre ∧ FinitePair radii ∧ FinitePair angles))

theorem Region.kind_mem_kinds (region : Region) : region.kind ∈ kinds := by
  cases region <;> simp [kind, kinds]

theorem Region.decodeFields?_of_lists {region : Region} (hfinite : region.Finite)
    {document : Document} (h : document.Lists region.encodeFields) :
    decodeFields? region.kind document = some region := by
  obtain ⟨record, hrecord, hfields⟩ := h.exists_record .inner region.fieldNames
    region.map_fst_encodeFields (List.nodup_cons.mp region.fieldNames_nodup).2
  cases region <;>
    simp only [encodeFields, fieldNames, List.forall_mem_cons] at hrecord hfields
  case circular centre radius =>
    obtain ⟨hcentre, hradius, -⟩ := hfields
    simp [kind, decodeFields?, hrecord, Record.require?, hcentre, hradius, encodePair,
      pair?_floats hfinite.1, float?_ofFloat hfinite.2]
  case elliptical centre semiaxes angle =>
    obtain ⟨hcentre, hsemiaxes, hangle, -⟩ := hfields
    simp [kind, decodeFields?, hrecord, Record.require?, Record.default?, hcentre, hsemiaxes,
      hangle, encodePair, pair?_floats hfinite.1, pair?_floats hfinite.2.1,
      float?_ofFloat hfinite.2.2]
  case point target =>
    obtain ⟨htarget, -⟩ := hfields
    simp [kind, decodeFields?, hrecord, Record.require?, htarget, encodePair,
      pair?_floats hfinite]
  case polygonal pointsX pointsY =>
    obtain ⟨hpointsX, hpointsY, -⟩ := hfields
    simp [kind, decodeFields?, hrecord, Record.require?, hpointsX, hpointsY,
      listOf?_floats .inner hfinite.1, listOf?_floats .inner hfinite.2]
  case rectangular start width height angle =>
    obtain ⟨hstart, hwidth, hheight, hangle, -⟩ := hfields
    simp [kind, decodeFields?, hrecord, Record.require?, Record.default?, hstart, hwidth,
      hheight, hangle, encodePair, pair?_floats hfinite.1, float?_ofFloat hfinite.2.1,
      float?_ofFloat hfinite.2.2.1, float?_ofFloat hfinite.2.2.2]
  case sector centre radii angles =>
    obtain ⟨hcentre, hradii, hangles, -⟩ := hfields
    simp [kind, decodeFields?, hrecord, Record.require?, hcentre, hradii, hangles, encodePair,
      pair?_floats hfinite.1, pair?_floats hfinite.2.1, pair?_floats hfinite.2.2]

theorem Region.decode?_encode {region : Region} (hfinite : region.Finite) (level : Level) :
    decode? level (ofCanonical region.encode) = some region := by
  obtain ⟨rest, htagged, hrest⟩ := tagged?_ofCanonical region.encode rfl region.fieldNames
    region.map_fst_encodeFields region.fieldNames_nodup level region.kind_mem_kinds
  change (tagged? level "type" kinds (ofCanonical region.encode)).bind _ = _
  rw [htagged, Option.bind_some]
  exact decodeFields?_of_lists hfinite hrest

theorem ScanRegion.decode?_encode {scanRegion : ScanRegion} (hfinite : scanRegion.region.Finite)
    (level : Level) : decode? level (ofCanonical scanRegion.encode) = some scanRegion := by
  obtain ⟨record, hrecord, hfields⟩ := record?_ofCanonical scanRegion.encode rfl level
    ["region", "axes"] rfl (by decide)
  simp only [List.forall_mem_cons] at hfields
  obtain ⟨hregion, haxes, -⟩ := hfields
  simp [decode?, hrecord, Record.require?, hregion, haxes, Region.decode?_encode hfinite]

def RegionSet.Finite (set : RegionSet) : Prop := ∀ region ∈ set.regions, region.Finite

instance : DecidablePred RegionSet.Finite := fun set =>
  inferInstanceAs (Decidable (∀ region ∈ set.regions, region.Finite))

theorem RegionSet.decode?_of_lists {set : RegionSet} (hfinite : set.Finite) {document : Document}
    (h : document.Lists set.encodeFields) : decode? document = some set := by
  obtain ⟨record, hrecord, hfields⟩ := h.exists_record .inner ["regions", "axes"] rfl (by decide)
  simp only [encodeFields, List.forall_mem_cons] at hfields
  obtain ⟨hregions, haxes, -⟩ := hfields
  have hitems := listOf?_array .inner fun region hmem =>
    Region.decode?_encode (hfinite region hmem) .inner
  simp [decode?, hrecord, Record.require?, hregions, haxes, hitems]

/-! ## Modifiers -/

def ExcluderConfig.Finite : ExcluderConfig → Prop
  | .regions parameters => parameters.Finite

instance : DecidablePred ExcluderConfig.Finite
  | .regions parameters => inferInstanceAs (Decidable parameters.Finite)

theorem ExcluderConfig.decode?_encode {config : ExcluderConfig} (hfinite : config.Finite)
    (level : Level) : decode? level (ofCanonical config.encode) = some config := by
  obtain ⟨set⟩ := config
  obtain ⟨rest, htagged, hrest⟩ := tagged?_ofCanonical (regions set).encode rfl
    ["regions", "axes"] rfl (by decide) level (List.mem_singleton_self kind)
  simp [decode?, htagged, RegionSet.decode?_of_lists hfinite hrest]

def RandomOffset.Finite (offset : RandomOffset) : Prop :=
  ∀ entry ∈ offset.maxOffset.entries, entry.2.isFinite = true

instance : DecidablePred RandomOffset.Finite := fun offset =>
  inferInstanceAs (Decidable (∀ entry ∈ offset.maxOffset.entries, entry.2.isFinite = true))

theorem RandomOffset.decode?_of_lists {offset : RandomOffset} (hfinite : offset.Finite)
    {document : Document} (h : document.Lists offset.encodeFields) :
    decode? document = some offset := by
  obtain ⟨record, hrecord, hfields⟩ := h.exists_record .inner ["seed", "axes", "max_offset"] rfl
    (by decide)
  simp only [encodeFields, List.forall_mem_cons] at hfields
  obtain ⟨hseed, haxes, hbounds, -⟩ := hfields
  change record.lookup "max_offset" =
    some (ofCanonical (.object (offset.maxOffset.map .ofFloat).entries)) at hbounds
  have htable : (ofCanonical (.object (offset.maxOffset.map .ofFloat).entries)).tableOf? .inner
      float? = some offset.maxOffset :=
    tableOf?_table fun entry hmem => float?_ofFloat (hfinite entry hmem)
  simp [decode?, hrecord, Record.require?, hseed, haxes, hbounds, htable]

def MutatorConfig.Finite : MutatorConfig → Prop
  | .randomOffset parameters => parameters.Finite

instance : DecidablePred MutatorConfig.Finite
  | .randomOffset parameters => inferInstanceAs (Decidable parameters.Finite)

theorem MutatorConfig.decode?_encode {config : MutatorConfig} (hfinite : config.Finite)
    (level : Level) : decode? level (ofCanonical config.encode) = some config := by
  obtain ⟨offset⟩ := config
  obtain ⟨rest, htagged, hrest⟩ := tagged?_ofCanonical (randomOffset offset).encode rfl
    ["seed", "axes", "max_offset"] rfl (by decide) level
    (List.mem_singleton_self RandomOffset.kind)
  simp [decode?, htagged, RandomOffset.decode?_of_lists hfinite hrest]

/-! ## Scans -/

structure ScanSettings.Finite (settings : ScanSettings) : Prop where
  excluders : ∀ config ∈ settings.excluders, config.Finite
  regions : ∀ scanRegion ∈ settings.regions, scanRegion.region.Finite
  mutators : ∀ config ∈ settings.mutators, config.Finite
  duration : ∀ duration ∈ settings.duration, duration.isFinite = true

instance : DecidablePred ScanSettings.Finite := fun _ =>
  decidable_of_iff (_ ∧ _ ∧ _ ∧ _) ⟨fun h => ⟨h.1, h.2.1, h.2.2.1, h.2.2.2⟩,
    fun h => ⟨h.excluders, h.regions, h.mutators, h.duration⟩⟩

theorem PairLayout.decode?_name (layout : PairLayout) (level : Level) :
    decode? level (ofCanonical (.string layout.name)) = some layout := by
  cases layout <;> rfl

def ScanDescription.encodeFields {ι : Type} (encode : ι → Json) (config : ScanDescription ι) :
    List (String × Json) :=
  ("generators", .array (config.generators.map encode)) :: config.settings.encodeFields

def ScanDescription.encode {ι : Type} (encode : ι → Json) (config : ScanDescription ι) : Json :=
  .object (config.encodeFields encode)

theorem ScanDescription.lists_encode {ι : Type} (encode : ι → Json) (config : ScanDescription ι) :
    (ofCanonical (config.encode encode)).Lists (config.encodeFields encode) :=
  lists_ofCanonical (show fieldNames.Nodup by decide)

theorem ScanDescription.decode?_encode {ι : Type} {generator? : Document → Option ι}
    {encode : ι → Json} {config : ScanDescription ι} (level : Level)
    (hgenerators : ∀ generator ∈ config.generators,
      generator? (ofCanonical (encode generator)) = some generator)
    (hfinite : config.settings.Finite) :
    decode? level generator? (ofCanonical (config.encode encode)) = some config := by
  obtain ⟨record, hrecord, hfields⟩ :=
    (config.lists_encode encode).exists_record level fieldNames rfl (by decide)
  simp only [encodeFields, ScanSettings.encodeFields, List.forall_mem_cons] at hfields
  obtain ⟨hlist, hexcluders, hregions, hmutators, hduration, hlayout, -⟩ := hfields
  have hlist' := listOf?_array level hgenerators
  have hexcluders' := listOf?_array level fun config hmem =>
    ExcluderConfig.decode?_encode (hfinite.excluders config hmem) level
  have hregions' := listOf?_array level fun scanRegion hmem =>
    ScanRegion.decode?_encode (hfinite.regions scanRegion hmem) level
  have hmutators' := listOf?_array level fun config hmem =>
    MutatorConfig.decode?_encode (hfinite.mutators config hmem) level
  simp [decode?, hrecord, Record.require?, Record.default?, hlist, hexcluders, hregions,
    hmutators, hduration, hlayout, hlist', hexcluders', hregions', hmutators',
    orNull?_optional hfinite.duration, PairLayout.decode?_name]

namespace GeneratorConfig

mutual

def Finite : GeneratorConfig → Prop
  | .leaf config => config.Finite
  | .compound ⟨generators, settings⟩ => AllFinite generators ∧ settings.Finite

def AllFinite : List GeneratorConfig → Prop
  | [] => True
  | config :: configs => config.Finite ∧ AllFinite configs

end

mutual

def decidableFinite : (config : GeneratorConfig) → Decidable config.Finite
  | .leaf config => inferInstanceAs (Decidable config.Finite)
  | .compound ⟨generators, settings⟩ =>
      have := decidableAllFinite generators
      inferInstanceAs (Decidable (AllFinite generators ∧ settings.Finite))

def decidableAllFinite : (configs : List GeneratorConfig) → Decidable (AllFinite configs)
  | [] => .isTrue trivial
  | config :: configs =>
      have := decidableFinite config
      have := decidableAllFinite configs
      inferInstanceAs (Decidable (config.Finite ∧ AllFinite configs))

end

theorem finite_of_allFinite {configs : List GeneratorConfig} (h : AllFinite configs) :
    ∀ config ∈ configs, config.Finite := by
  induction configs with
  | nil => exact fun _ hmem => absurd hmem List.not_mem_nil
  | cons config configs ih => exact List.forall_mem_cons.mpr ⟨h.1, ih h.2⟩

theorem encodeAll_eq_map (configs : List GeneratorConfig) :
    encodeAll configs = configs.map encode := by
  induction configs with
  | nil => rfl
  | cons config configs ih => rw [encodeAll, ih, List.map_cons]

theorem encode_compound (config : ScanDescription GeneratorConfig) :
    (compound config).encode = .object [("compound", config.encode encode)] := by
  rw [encode, encodeAll_eq_map]
  rfl

theorem compoundPart?_ofCanonical {fields : List (String × Json)}
    (h : (fields.map Prod.fst).Nodup) :
    compoundPart? (ofCanonical (.object fields)) =
      (fields.lookup "compound").map ofCanonical := by
  have hlists := lists_ofCanonical h
  obtain ⟨record, hrecord, hlookup⟩ := hlists.record? .inner ["compound"]
  obtain ⟨entries, hentries, -⟩ := hlists
  rw [hentries] at hrecord ⊢
  simp [compoundPart?, hrecord, hlookup]

theorem depth_generator_lt (config : ScanDescription GeneratorConfig)
    {generator : GeneratorConfig} (h : generator ∈ config.generators) :
    (ofCanonical generator.encode).depth < (ofCanonical (config.encode encode)).depth := by
  have hlist : (ofCanonical (.array (config.generators.map encode))).depth <
      (ofCanonical (config.encode encode)).depth :=
    (config.lists_encode encode).depth_lt List.lookup_cons_self
  rw [ofCanonical_array] at hlist
  exact Nat.lt_trans (depth_lt_of_mem (List.mem_map.mpr ⟨generator, h, rfl⟩)) hlist

theorem compoundPart?_leaf (config : LeafConfig) :
    compoundPart? (ofCanonical config.encode) = none := by
  have hnames : ((typeField, Json.string config.kind) :: config.encodeFields).map Prod.fst =
      typeField :: config.fieldNames := congrArg _ config.map_fst_encodeFields
  have habsent : "compound" ∉ typeField :: config.fieldNames := by
    cases config <;> simp [LeafConfig.fieldNames, Line.fieldNames, Listed.fieldNames,
      Spiral.fieldNames, Lissajous.fieldNames, typeField]
  rw [LeafConfig.encode, compoundPart?_ofCanonical (hnames ▸ config.fieldNames_nodup),
    Keyed.lookup_eq_none_of_not_mem (hnames ▸ habsent), Option.map_none]

theorem compoundPart?_compound (config : ScanDescription GeneratorConfig) :
    compoundPart? (ofCanonical (compound config).encode) =
      some (ofCanonical (config.encode encode)) := by
  rw [encode_compound, compoundPart?_ofCanonical (by simp), List.lookup_cons_self, Option.map_some]

theorem depth_part_lt (config : ScanDescription GeneratorConfig) :
    (ofCanonical (config.encode encode)).depth < (ofCanonical (compound config).encode).depth := by
  have hlists : (ofCanonical (.object [("compound", config.encode encode)])).Lists _ :=
    lists_ofCanonical (List.nodup_singleton "compound")
  rw [encode_compound]
  exact hlists.depth_lt List.lookup_cons_self

mutual

theorem decodeWithin?_encode : (config : GeneratorConfig) → config.Finite → {fuel : Nat} →
    (ofCanonical config.encode).depth < fuel →
    decodeWithin? fuel (ofCanonical config.encode) = some config
  | .leaf config, hfinite, fuel + 1, _ => by
      rw [encode, decodeWithin?, compoundPart?_leaf, LeafConfig.decode?_encode hfinite]
      rfl
  | .compound ⟨generators, settings⟩, ⟨hgenerators, hsettings⟩, fuel + 1, hdepth => by
      -- the part lies one level deeper, so the fuel that is left is enough for its generators
      have hpart := Nat.lt_of_lt_of_le (depth_part_lt ⟨generators, settings⟩)
        (Nat.lt_succ_iff.mp hdepth)
      have hread := decodeWithin?_encodeAll generators hgenerators fun generator hmem =>
        Nat.lt_trans (depth_generator_lt ⟨generators, settings⟩ hmem) hpart
      have hnested : ScanDescription.decode? .inner (decodeWithin? fuel) _ =
          some (ScanDescription.mk generators settings) :=
        ScanDescription.decode?_encode .inner hread hsettings
      rw [decodeWithin?, compoundPart?_compound, Option.bind_eq_bind, Option.bind_some, hnested]

theorem decodeWithin?_encodeAll : (configs : List GeneratorConfig) → AllFinite configs →
    {fuel : Nat} → (∀ config ∈ configs, (ofCanonical config.encode).depth < fuel) →
    ∀ config ∈ configs, decodeWithin? fuel (ofCanonical config.encode) = some config
  | [], _, _, _ => fun _ hmem => absurd hmem List.not_mem_nil
  | config :: configs, ⟨hconfig, hconfigs⟩, _, hdepth => by
      rw [List.forall_mem_cons] at hdepth
      exact List.forall_mem_cons.mpr ⟨decodeWithin?_encode config hconfig hdepth.1,
        decodeWithin?_encodeAll configs hconfigs hdepth.2⟩

end

theorem decode?_encode {config : GeneratorConfig} (hfinite : config.Finite) :
    decode? (ofCanonical config.encode) = some config :=
  decodeWithin?_encode config hfinite (Nat.lt_succ_self _)

end GeneratorConfig

namespace ScanConfig

def Finite (config : ScanConfig) : Prop :=
  GeneratorConfig.AllFinite config.generators ∧ config.settings.Finite

instance : DecidablePred ScanConfig.Finite := fun config =>
  have := GeneratorConfig.decidableAllFinite config.generators
  inferInstanceAs
    (Decidable (GeneratorConfig.AllFinite config.generators ∧ config.settings.Finite))

theorem decode?_encode {config : ScanConfig} (hfinite : config.Finite) :
    decode? (ofCanonical (encode config)) = some config := by
  rw [encode, GeneratorConfig.encodeAll_eq_map]
  exact ScanDescription.decode?_encode .outer
    (fun generator hmem => GeneratorConfig.decode?_encode
      (GeneratorConfig.finite_of_allFinite hfinite.1 generator hmem)) hfinite.2

def normalize? (document : Document) : Option Document :=
  (decode? document).map fun config => .ofJson (encode config).canonical

theorem normalize?_of_decode? {document : Document} {config : ScanConfig}
    (h : decode? document = some config) :
    normalize? document = some (ofCanonical (encode config)) := by
  rw [normalize?, h]
  rfl

/-- A description with finite floats is read back from its canonical form, so whatever it was read
from, its canonical form stands for it: reading that form gives the description, writing it again
changes nothing, and no other description has the same. -/
theorem decodes_canonical :
    (∀ config : ScanConfig, config.Finite →
      decode? (.ofJson (encode config).canonical) = some config) ∧
    (∀ document config, decode? document = some config → config.Finite →
      (normalize? document).bind decode? = some config ∧
      (normalize? document).bind normalize? = normalize? document) ∧
    ∀ document other config config', decode? document = some config →
      decode? other = some config' → config.Finite → config'.Finite →
      (normalize? document = normalize? other ↔ config = config') := by
  refine ⟨fun config hfinite => decode?_encode hfinite, ?_, ?_⟩
  · intro document config hdecode hfinite
    have hback := decode?_encode hfinite
    rw [normalize?_of_decode? hdecode, Option.bind_some, Option.bind_some]
    exact ⟨hback, normalize?_of_decode? hback⟩
  · intro document other config config' hdecode hdecode' hfinite hfinite'
    rw [normalize?_of_decode? hdecode, normalize?_of_decode? hdecode']
    constructor
    · intro hsame
      have hback := decode?_encode hfinite
      rw [Option.some.inj hsame, decode?_encode hfinite'] at hback
      exact (Option.some.inj hback).symm
    · rintro rfl
      rfl

def offsetSpiral : ScanConfig where
  generators := [
    .leaf (.line ⟨["y"], ["mm"], [0.0], [2.0], 3, false⟩),
    .compound {
      generators := [.leaf (.spiral ⟨["u", "v"], ["mm", "mm"], (0.0, 0.5), 2.0, 1.0, true⟩)]
      settings := ⟨[], [], [], some 0.25, .declared⟩ }]
  settings := {
    excluders := [.regions ⟨[.circular (0.0, 0.0) 1.5], ["u", "v"]⟩]
    regions := []
    mutators := [.randomOffset ⟨7, ["y"], .ofList [("y", 0.5)]⟩]
    duration := none
    layout := .fastFirst }

def offsetSpiralDocument : Document :=
  .map [
    (.text "mutators", .list [.map [
      (.text "type", .text "random-offset"), (.text "seed", .whole false 7),
      (.text "axes", .list [.text "y"]),
      (.text "max_offset", .map [(.text "y", .float 0.5)])]]),
    (.text "comment", .null),
    (.text "excluders", .list [.map [
      (.text "regions", .list [.map [
        (.text "radius", .float 1.5), (.text "type", .text "circular"),
        (.text "centre", .list [.whole false 0, .whole false 0])]]),
      (.text "axes", .list [.text "u", .text "v"]), (.text "type", .text "roi")]]),
    (.text "generators", .list [
      .map [
        (.text "axes", .text "y"), (.text "units", .text "mm"), (.text "start", .whole false 0),
        (.text "stop", .whole false 2), (.text "num_points", .whole false 3),
        (.text "type", .text "line")],
      .map [(.text "compound", .map [
        (.text "generators", .list [.map [
          (.text "type", .text "spiral"), (.text "axes", .list [.text "u", .text "v"]),
          (.text "units", .list [.text "mm", .text "mm"]),
          (.text "centre", .list [.whole false 0, .float 0.5]), (.text "radius", .float 2.0),
          (.text "alternate", .bool true)]]),
        (.text "duration", .float 0.25), (.text "layout", .text "declared")])]])]

theorem decodes_canonical_offsetSpiral :
    offsetSpiral.Finite ∧ decode? offsetSpiralDocument = some offsetSpiral ∧
      decode? (.ofJson (encode offsetSpiral).canonical) = some offsetSpiral ∧
      (normalize? offsetSpiralDocument).bind decode? = some offsetSpiral ∧
      normalize? offsetSpiralDocument =
        normalize? (.ofJson (encode offsetSpiral).canonical) := by
  have hfinite : offsetSpiral.Finite := by decide +kernel
  have hdecode : decode? offsetSpiralDocument = some offsetSpiral := rfl
  have hback := decodes_canonical.1 offsetSpiral hfinite
  have hdocument := (decodes_canonical.2.1 offsetSpiralDocument offsetSpiral hdecode hfinite).1
  have hsame := (decodes_canonical.2.2 offsetSpiralDocument _ offsetSpiral offsetSpiral
    hdecode hback hfinite hfinite).mpr rfl
  exact ⟨hfinite, hdecode, hback, hdocument, hsame⟩

end ScanConfig

end ScanPath
