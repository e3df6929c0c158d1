import ScanPath.Proofs.Binary64.Bounds
import ScanPath.Proofs.Leaf.Pass
import ScanPath.Proofs.Parameters
import ScanPath.Proofs.Trigonometry

/-!
# Finite values

The parameters of a leaf are checked one at a time, and finite parameters can
still make values that are too large for a float.  Whether they do is decided at
the extremes: at the last point of a line, and on a curve where the distance of
the centre from zero and the extent of the curve add up.  If nothing overflows
there, nothing does in between, because every operation on the way is monotone
and correctly rounded.
-/

namespace ScanPath

/-- There are values, and none of them is infinite or undefined. -/
def Leaf.FiniteAt (leaf : Leaf) (index : ℕ) : Prop :=
  ∃ values, leaf.valuesAt index = some values ∧ ∀ x ∈ values, x.isFinite = true

instance (leaf : Leaf) (index : ℕ) : Decidable (leaf.FiniteAt index) :=
  decidable_of_iff ((leaf.valuesAt index).any fun values => values.all Float.isFinite) (by
    rw [Option.any_eq_true]
    simp only [List.all_eq_true]
    rfl)

/-! ## Lines -/

def Line.last (line : Line) : List Float :=
  List.zipWith (fun start step => start + countToFloat (line.numPoints - 1) * step) line.start
    line.steps

theorem Line.isFinite_between {start step : Float} {index last : ℕ} (hle : index ≤ last)
    (hlimit : last < countLimit) (hstart : start.isFinite = true)
    (hlast : (start + countToFloat last * step).isFinite = true) :
    (start + countToFloat index * step).isFinite = true := by
  obtain ⟨-, hfurthest⟩ := isFinite_of_isFinite_add hlast
  obtain ⟨hcount, hstep⟩ := isFinite_of_isFinite_mul hfurthest
  have hcounts := UpTo.countToFloat hle hlimit
  have hsizes := abs_le_abs_of_nonneg hcounts.nonneg hcounts.le
  obtain ⟨hoffset, hsize⟩ := isFinite_mul_of_le hcounts.isFinite hstep hsizes le_rfl hfurthest
  apply isFinite_add_of_between hstart hoffset _ hlast
  have hlow : (0 : ℝ) ≤ exact (countToFloat index) := Rat.cast_nonneg.mpr hcounts.nonneg
  have hhigh : (0 : ℝ) ≤ exact (countToFloat last) :=
    Rat.cast_nonneg.mpr (hcounts.nonneg.trans hcounts.le)
  have hproduct := rounded_mul hcounts.isFinite hstep
  have hproduct' := rounded_mul hcount hstep
  rcases le_total 0 (exact step : ℝ) with hup | hdown
  · left
    have hnonneg := hproduct.nonneg (mul_nonneg hlow hup)
    have hnonneg' := hproduct'.nonneg (mul_nonneg hhigh hup)
    rw [abs_of_nonneg hnonneg, abs_of_nonneg hnonneg'] at hsize
    exact ⟨hnonneg, hsize⟩
  · right
    have hnonpos := hproduct.nonpos (mul_nonpos_of_nonneg_of_nonpos hlow hdown)
    have hnonpos' := hproduct'.nonpos (mul_nonpos_of_nonneg_of_nonpos hhigh hdown)
    rw [abs_of_nonpos hnonpos, abs_of_nonpos hnonpos', neg_le_neg_iff] at hsize
    exact ⟨hsize, hnonpos⟩

theorem Line.isFinite_values {line : Line} (h : line.check = .ok ())
    (hlimit : line.numPoints < countLimit) (hextremes : ∀ x ∈ line.last, x.isFinite = true)
    {index : ℕ} (hindex : index < line.numPoints) : line.leaf.FiniteAt index := by
  have hstart := (finite_of_check h).start
  refine ⟨_, if_pos hindex, ?_⟩
  rw [last, ← List.map_uncurry_zip_eq_zipWith, List.forall_mem_map] at hextremes
  rw [← List.map_uncurry_zip_eq_zipWith, List.forall_mem_map]
  intro entry hmem
  exact isFinite_between (Nat.le_sub_one_of_lt hindex) (by omega)
    (hstart _ (List.of_mem_zip hmem).1) (hextremes entry hmem)

theorem Listed.isFinite_values {listed : Listed} (h : listed.check = .ok ()) {index : ℕ}
    (hindex : index < listed.points.length) : listed.leaf.FiniteAt index := by
  refine ⟨[listed.points[index]], ?_, ?_⟩
  · change (listed.points[index]?.map fun value => [value]) = _
    rw [List.getElem?_eq_getElem hindex, Option.map_some]
  · rw [List.forall_mem_singleton]
    exact finite_of_check h _ (List.getElem_mem hindex)

/-! ## Spirals -/

theorem Leaf.pos_of_requirePositive {kind field : String} {value : Float}
    (h : requirePositive kind field value = .ok ()) : 0.0 < value := by
  obtain ⟨-, h⟩ := Checked.seq_eq_ok.mp h
  split at h
  · assumption
  · cases h

namespace Spiral

def angle (index : ℕ) : Float := (countToFloat index + 0.5).sqrt * alpha

def reach (spiral : Spiral) : Float := spiral.beta * angle (spiral.size - 1)

theorem angle_upTo {index last : ℕ} (hle : index ≤ last) (hlimit : last < countLimit)
    (hlast : (angle last).isFinite = true) : UpTo (angle index) (angle last) := by
  have hhalf : Within 0.5 64 := (within_one (by decide) (by decide)).mono (Nat.zero_le 64)
  have hsum : (countToFloat last + 0.5).isFinite = true :=
    ((within_toFloat last.toUInt64).add hhalf (by decide)).isFinite
  obtain ⟨hroot, halpha⟩ := isFinite_of_isFinite_mul hlast
  have hsums : UpTo (countToFloat index + 0.5) (countToFloat last + 0.5) :=
    (UpTo.countToFloat hle hlimit).add (upTo_self hhalf.isFinite (exact_nonneg (by decide))) hsum
  exact (hsums.sqrt hsum hroot).mul (upTo_self halpha (exact_nonneg (by decide +kernel))) hlast

theorem beta_nonneg {spiral : Spiral} (h : spiral.check = .ok ()) : 0 ≤ exact spiral.beta := by
  have hscale := (finite_of_check h).scale
  simp only [check, Checked.seq_eq_ok] at h
  obtain ⟨-, -, -, -, -, hpositive, -⟩ := h
  exact exact_div_nonneg hscale rfl (Leaf.pos_of_requirePositive hpositive) (by decide)

theorem reach_upTo {spiral : Spiral} (h : spiral.check = .ok ()) (hlimit : spiral.size < countLimit)
    (hreach : spiral.reach.isFinite = true) {index : ℕ} (hindex : index < spiral.size) :
    UpTo (angle index) (angle (spiral.size - 1)) ∧
      UpTo (spiral.beta * angle index) spiral.reach := by
  obtain ⟨hbeta, hlast⟩ := isFinite_of_isFinite_mul hreach
  have hangle := angle_upTo (Nat.le_sub_one_of_lt hindex) (by omega) hlast
  exact ⟨hangle, (upTo_self hbeta (beta_nonneg h)).mul hangle hreach⟩

end Spiral

theorem Spiral.isFinite_values [Trigonometry] (hlawful : Trigonometry.Lawful) {spiral : Spiral}
    (h : spiral.check = .ok ()) (hlimit : spiral.size < countLimit)
    (hextremes : (spiral.centre.1.abs + spiral.reach).isFinite = true ∧
      (spiral.centre.2.abs + spiral.reach).isFinite = true)
    {index : ℕ} (hindex : index < spiral.size) : spiral.leaf.FiniteAt index := by
  obtain ⟨hfirst, hsecond⟩ := hextremes
  have hcentre := (finite_of_check h).centre
  obtain ⟨hangle, hextent⟩ := reach_upTo h hlimit (isFinite_of_isFinite_add hfirst).2 hindex
  refine ⟨_, if_pos hindex, ?_⟩
  simp only [List.forall_mem_cons, List.not_mem_nil, false_imp_iff, implies_true, and_true]
  constructor
  · exact isFinite_of_extreme (hcentre _ List.mem_cons_self) hextent
      (hlawful.sin_bounds _ hangle.isFinite) hfirst
  · exact isFinite_of_extreme (hcentre _ (List.mem_cons_of_mem _ List.mem_cons_self)) hextent
      (hlawful.cos_bounds _ hangle.isFinite) hsecond

/-! ## Lissajous curves -/

namespace Lissajous

theorem within_increment {curve : Lissajous} (hpos : 0 < curve.numPoints)
    (hlimit : curve.numPoints < countLimit) : Within curve.increment 3 := by
  have hunpack : (2.0 * pi).toModel.unpack =
      .finite .positive 7074237752028440 (-50) (by decide) := rfl
  have hturn : Within (2.0 * pi) 3 := within_of_unpack_eq hunpack (by decide)
  have hcount := one_le_exact_countToFloat hpos hlimit
  have hfinite := (within_toFloat curve.numPoints.toUInt64).isFinite
  have hrounded := rounded_div hturn.isFinite hfinite (one_pos.trans_le hcount).ne'
  apply hrounded.within _ (by decide)
  have hcount' : 1 ≤ |(exact (countToFloat curve.numPoints) : ℝ)| :=
    (by exact_mod_cast hcount : (1 : ℝ) ≤ _).trans (le_abs_self _)
  rw [abs_div]
  exact (div_le_self (abs_nonneg _) hcount').trans hturn.abs_le

theorem within_angles {curve : Lissajous} (hpos : 0 < curve.numPoints)
    (hlimit : curve.numPoints < countLimit) (index : ℕ) :
    Within (curve.xFrequency * (countToFloat index * curve.increment) + pi / 2.0) 132 ∧
      Within (curve.yFrequency * (countToFloat index * curve.increment)) 131 := by
  have htime : Within (countToFloat index * curve.increment) 67 :=
    (within_toFloat index.toUInt64).mul (within_increment hpos hlimit) (by decide)
  have hunpack : (pi / 2.0).toModel.unpack =
      .finite .positive 7074237752028440 (-52) (by decide) := rfl
  have hquarter : Within (pi / 2.0) 1 := within_of_unpack_eq hunpack (by decide)
  constructor
  · exact ((within_toFloat curve.numLobes.toUInt64).mul htime (by decide)).add
      (hquarter.mono (by decide)) (by decide)
  · exact (within_toFloat (curve.numLobes.toUInt64 + 1)).mul htime (by decide)

theorem isFinite_values [Trigonometry] (hlawful : Trigonometry.Lawful) {curve : Lissajous}
    (h : curve.check = .ok ()) (hlimit : curve.numPoints < countLimit)
    (hextremes : (curve.bounds.centre.1.abs + curve.bounds.width / 2.0).isFinite = true ∧
      (curve.bounds.centre.2.abs + curve.bounds.height / 2.0).isFinite = true)
    {index : ℕ} (hindex : index < curve.numPoints) : curve.leaf.FiniteAt index := by
  obtain ⟨hfirst, hsecond⟩ := hextremes
  have hbounds := finite_of_check h
  simp only [check, Checked.seq_eq_ok] at h
  obtain ⟨-, -, -, -, hwidth, hheight, -⟩ := h
  obtain ⟨hangle, hangle'⟩ := within_angles (Nat.zero_lt_of_lt hindex) hlimit index
  refine ⟨_, if_pos hindex, ?_⟩
  simp only [List.forall_mem_cons, List.not_mem_nil, false_imp_iff, implies_true, and_true]
  constructor
  · have hextent := upTo_self (isFinite_of_isFinite_add hfirst).2
      (exact_div_nonneg hbounds.width rfl (Leaf.pos_of_requirePositive hwidth) (by decide))
    exact isFinite_of_extreme (hbounds.centre _ List.mem_cons_self) hextent
      (hlawful.sin_bounds _ hangle.isFinite) hfirst
  · have hextent := upTo_self (isFinite_of_isFinite_add hsecond).2
      (exact_div_nonneg hbounds.height rfl (Leaf.pos_of_requirePositive hheight) (by decide))
    exact isFinite_of_extreme (hbounds.centre _ (List.mem_cons_of_mem _ List.mem_cons_self))
      hextent (hlawful.sin_bounds _ hangle'.isFinite) hsecond

end Lissajous

/-! ## Extremes -/

namespace LeafConfig

/-- The last point of a line; on a curve the largest size that a value can come to. -/
def extremes : LeafConfig → List Float
  | .line parameters => parameters.last
  | .listed _ => []
  | .spiral parameters =>
      [parameters.centre.1.abs + parameters.reach, parameters.centre.2.abs + parameters.reach]
  | .lissajous parameters =>
      [parameters.bounds.centre.1.abs + parameters.bounds.width / 2.0,
        parameters.bounds.centre.2.abs + parameters.bounds.height / 2.0]

/-- A leaf that was built has finite values at every index if none of its extremes overflows, and a
line only then. -/
theorem build_finite [Trigonometry] (hlawful : Trigonometry.Lawful) {config : LeafConfig}
    {leaf : Leaf} (hbuild : config.build = .ok leaf) (hlimit : leaf.size < countLimit) :
    ((∀ x ∈ config.extremes, x.isFinite = true) → ∀ index < leaf.size, leaf.FiniteAt index) ∧
      ∀ line, config = .line line →
        (∀ index < leaf.size, leaf.FiniteAt index) → ∀ x ∈ config.extremes, x.isFinite = true := by
  constructor
  · intro hextremes index hindex
    cases config with
    | line parameters =>
        obtain ⟨hcheck, rfl⟩ := Checked.return_eq_ok.mp hbuild
        exact parameters.isFinite_values hcheck hlimit hextremes hindex
    | listed parameters =>
        obtain ⟨hcheck, rfl⟩ := Checked.return_eq_ok.mp hbuild
        exact parameters.isFinite_values hcheck hindex
    | spiral parameters =>
        obtain ⟨hcheck, rfl⟩ := Checked.return_eq_ok.mp hbuild
        exact parameters.isFinite_values hlawful hcheck hlimit
          (by simpa [extremes] using hextremes) hindex
    | lissajous parameters =>
        obtain ⟨hcheck, rfl⟩ := Checked.return_eq_ok.mp hbuild
        exact parameters.isFinite_values hlawful hcheck hlimit
          (by simpa [extremes] using hextremes) hindex
  · rintro parameters rfl hvalues
    have hlast : leaf.size - 1 < leaf.size :=
      Nat.sub_one_lt_of_lt (Line.build_sound hbuild).size_pos
    obtain ⟨-, rfl⟩ := Checked.return_eq_ok.mp hbuild
    obtain ⟨values, hlastValues, hfinite⟩ := hvalues _ hlast
    have hequal : parameters.last = values :=
      Option.some.inj ((if_pos hlast).symm.trans hlastValues)
    change ∀ x ∈ parameters.last, x.isFinite = true
    rw [hequal]
    exact hfinite

def figureEight : LeafConfig := .lissajous ⟨["x", "y"], ["mm", "mm"], ⟨(1.0, -1.0), 2.0, 4.0⟩, 1, 5⟩

/-- The angles of `figureEight` other than zero, each with the float nearest to its sine. -/
def figureEightSines : List (Float × Float) :=
  [(1.5707963267948966, 1.0),
    (2.827433388230814, 0.3090169943749475), (2.5132741228718345, 0.5877852522924732),
    (4.084070449666731, -0.8090169943749473), (5.026548245743669, -0.9510565162951536),
    (5.340707511102648, -0.8090169943749476), (7.5398223686155035, 0.9510565162951535),
    (6.5973445725385655, 0.3090169943749472), (10.053096491487338, -0.5877852522924728)]

def sampledSine (x : Float) : Float :=
  match figureEightSines.find? fun entry => entry.1 == x with
  | some entry => entry.2
  | none => Trigonometry.squareWave.sin x

/-- Circular functions whose sine is correctly rounded at the angles of `figureEight`. -/
@[reducible] def sampledWave : Trigonometry := { Trigonometry.squareWave with sin := sampledSine }

theorem sampledSine_bounds {x : Float} (h : x.isFinite = true) :
    -1.0 ≤ sampledSine x ∧ sampledSine x ≤ 1.0 := by
  have hsampled : ∀ entry ∈ figureEightSines, -1.0 ≤ entry.2 ∧ entry.2 ≤ 1.0 := by decide
  unfold sampledSine
  split
  next entry hfind => exact hsampled entry (List.mem_of_find?_eq_some hfind)
  next =>
    obtain ⟨hsin, -⟩ := Trigonometry.squareWave_lawful
    exact hsin x h

theorem sampledWave_lawful : @Trigonometry.Lawful sampledWave := by
  obtain ⟨-, hcos, -, -, hcosZero, hcosNegativeZero⟩ := Trigonometry.squareWave_lawful
  exact @Trigonometry.Lawful.mk sampledWave (fun _ => sampledSine_bounds) hcos
    (by decide) (by decide) hcosZero hcosNegativeZero

theorem build_finite_figureEight :
    let _ := sampledWave
    ∃ leaf, figureEight.build = .ok leaf ∧ leaf.size = 5 ∧ (∀ index < 5, leaf.FiniteAt index) ∧
      (List.range 5).map leaf.valuesAt =
        [some [2.0, -1.0], some [1.3090169943749475, 0.1755705045849465],
          some [0.19098300562505266, -2.9021130325903073],
          some [0.19098300562505244, 0.9021130325903071],
          some [1.3090169943749472, -2.175570504584946]] := by
  intro trigonometry
  have hbuild : figureEight.build = .ok (@Lissajous.leaf trigonometry _) := rfl
  have hextremes : ∀ x ∈ figureEight.extremes, x.isFinite = true := by decide
  obtain ⟨hfinite, -⟩ := build_finite sampledWave_lawful hbuild (by decide)
  exact ⟨_, hbuild, rfl, hfinite hextremes, by decide +kernel⟩

def widestLine : Line := .single "x" "mm" (-1.7e308) 1.7e308 2

/-- The distance between the ends is too large for a float, and so is the step. -/
theorem not_finiteAt_widestLine :
    (line widestLine).build = .ok widestLine.leaf ∧
      ¬ widestLine.leaf.FiniteAt 0 ∧ ¬ widestLine.leaf.FiniteAt 1 := by
  obtain ⟨⟨⟩, hcheck⟩ :=
    Checked.exists_eq_ok (show widestLine.check.isOk = true by decide +kernel)
  refine ⟨Checked.return_eq_ok.mpr ⟨hcheck, rfl⟩, ?_, ?_⟩
  · decide +kernel
  · decide +kernel

end LeafConfig

end ScanPath
