import ScanPath.Proofs.Grouping.FirstFit

/-!
# The order of regions

A region opens a group exactly when it covers the axes of no region before it,
and only the axes of groups have to be pairs.  So a region over more than two
axes is accepted behind a region whose axes it covers and refused in front of
it.  No other regions make a difference: a list is accepted in some order if
every region covers a pair, and in all orders if every region is over a pair.
-/

namespace ScanPath.ScanRegion

def isPair (scanRegion : ScanRegion) : Bool := RegionSet.isAxisPair scanRegion.axes

/-- Every region is declared over a pair or covers the axes of a region before it. -/
def Placed (scanRegions : List ScanRegion) : Prop :=
  ∀ before scanRegion behind, scanRegions = before ++ scanRegion :: behind →
    scanRegion.isPair = true ∨ ∃ earlier ∈ before, earlier.axes ⊆ scanRegion.axes

def Valid (scanRegions : List ScanRegion) : Prop :=
  ∀ scanRegion ∈ scanRegions, scanRegion.region.check = .ok ()

variable {scanRegion : ScanRegion} {scanRegions others : List ScanRegion} {groups : List Group}

theorem placed_append_singleton :
    Placed (scanRegions ++ [scanRegion]) ↔
      Placed scanRegions ∧
        (scanRegion.isPair = true ∨ ∃ earlier ∈ scanRegions, earlier.axes ⊆ scanRegion.axes) := by
  constructor
  · intro h
    refine ⟨?_, h scanRegions scanRegion [] rfl⟩
    rintro before other behind rfl
    exact h before other (behind ++ [scanRegion]) (by simp)
  · rintro ⟨hplaced, hlast⟩ before other behind heq
    rcases List.eq_nil_or_concat behind with rfl | ⟨init, last, rfl⟩
    · obtain ⟨rfl, hother⟩ := List.append_inj' heq rfl
      obtain rfl : scanRegion = other := by simpa using hother
      exact hlast
    · have hsplit : scanRegions ++ [scanRegion] = (before ++ other :: init) ++ [last] := by
        simpa using heq
      exact hplaced before other init (List.append_inj' hsplit rfl).1

theorem FirstFit.home_lt_iff (h : FirstFit scanRegions groups) :
    scanRegion.home groups < groups.length ↔
      ∃ earlier ∈ scanRegions, earlier.axes ⊆ scanRegion.axes := by
  rw [home, List.findIdx_lt_length]
  constructor
  · rintro ⟨group, hgroup, hcovers⟩
    obtain ⟨first, rest, hmembers, haxes⟩ := h.opened group hgroup
    obtain ⟨place, hplace, rfl⟩ := List.mem_iff_getElem.mp hgroup
    have hmem := (h.mem_members_iff hplace).mp (by simp [hmembers] : first ∈ _)
    refine ⟨first, hmem.1, ?_⟩
    rw [← haxes]
    exact covers_iff.mp hcovers
  · rintro ⟨earlier, hmem, hsubset⟩
    have hplace := h.home_lt hmem
    have hown := covers_iff.mp (covers_home hplace)
    refine ⟨_, List.getElem_mem hplace, covers_iff.mpr ?_⟩
    exact fun axis haxis => hsubset (hown axis haxis)

theorem forall_isAxisPair_iff (scanRegions : List ScanRegion) :
    (∀ axes ∈ (partition scanRegions).map Group.axes, RegionSet.isAxisPair axes = true) ↔
      Placed scanRegions := by
  induction scanRegions using List.reverseRecOn with
  | nil => simp [partition, Placed]
  | append_singleton scanRegions scanRegion ih =>
      rw [partition_append_singleton, placed_append_singleton, ← ih,
        ← (partition_firstFit scanRegions).home_lt_iff]
      rcases Nat.lt_or_ge (scanRegion.home (partition scanRegions))
        (partition scanRegions).length with hlt | hle
      · rw [enter_of_lt hlt, map_axes_modify]
        simp [hlt]
      · rw [enter_of_le hle, List.map_append, List.forall_mem_append]
        simp [Group.opening, isPair, Nat.not_lt.mpr hle]

theorem check_eq_ok {set : RegionSet} : set.check = .ok () ↔
    RegionSet.isAxisPair set.axes = true ∧ set.regions ≠ [] ∧
      ∀ region ∈ set.regions, region.check = .ok () := by
  rw [RegionSet.check, ← Checked.forM_eq_ok]
  cases RegionSet.isAxisPair set.axes with
  | false => simp
  | true =>
      cases hregions : set.regions with
      | nil => simp
      | cons region regions => simp

theorem isOk_grouped_iff_forall (scanRegions : List ScanRegion) :
    (grouped scanRegions).isOk = true ↔
      ∀ group ∈ partition scanRegions, group.toSet.check = .ok () := by
  have hsets : (grouped scanRegions).isOk = true ↔
      ∀ set ∈ ScanRegion.groups scanRegions, set.check = .ok () := by
    rw [← Checked.forM_eq_ok]
    constructor
    · intro h
      obtain ⟨sets, hsets⟩ := Checked.exists_eq_ok h
      exact (Checked.return_eq_ok.mp hsets).1
    · intro h
      rw [grouped, h]
      rfl
  rw [hsets, ← map_toSet_partition, List.forall_mem_map]

theorem valid_iff (scanRegions : List ScanRegion) :
    Valid scanRegions ↔ ∀ group ∈ partition scanRegions, ∀ region ∈ group.toSet.regions,
      region.check = .ok () := by
  simp only [Group.toSet, List.forall_mem_map]
  rw [← List.forall_mem_flatMap]
  exact forall_congr' fun member => by rw [(flatMap_members_partition scanRegions).mem_iff]

theorem isOk_grouped_iff (scanRegions : List ScanRegion) :
    (grouped scanRegions).isOk = true ↔ Valid scanRegions ∧ Placed scanRegions := by
  rw [isOk_grouped_iff_forall, valid_iff, ← forall_isAxisPair_iff, List.forall_mem_map]
  simp only [check_eq_ok]
  constructor
  · intro h
    exact ⟨fun group hgroup => (h group hgroup).2.2, fun group hgroup => (h group hgroup).1⟩
  · rintro ⟨hvalid, hpairs⟩ group hgroup
    obtain ⟨first, rest, hmembers, -⟩ := (partition_firstFit scanRegions).opened group hgroup
    exact ⟨hpairs group hgroup, by simp [Group.toSet, hmembers], hvalid group hgroup⟩

theorem Valid.of_perm (h : Valid scanRegions) (hperm : others.Perm scanRegions) : Valid others :=
  fun scanRegion hmem => h scanRegion (hperm.mem_iff.mp hmem)

theorem Placed.exists_pair (h : Placed scanRegions) :
    ∀ scanRegion ∈ scanRegions, ∃ pair ∈ scanRegions, pair.isPair = true ∧
      pair.axes ⊆ scanRegion.axes := by
  induction scanRegions using List.reverseRecOn with
  | nil => simp
  | append_singleton scanRegions last ih =>
      rw [placed_append_singleton] at h
      have hold : ∀ scanRegion ∈ scanRegions, ∃ pair ∈ scanRegions ++ [last],
          pair.isPair = true ∧ pair.axes ⊆ scanRegion.axes := by
        intro scanRegion hmem
        obtain ⟨pair, hpair, hcovered⟩ := ih h.1 scanRegion hmem
        exact ⟨pair, List.mem_append_left _ hpair, hcovered⟩
      intro scanRegion hmem
      rcases List.mem_append.mp hmem with hmem | hmem
      · exact hold scanRegion hmem
      · rw [List.mem_singleton.mp hmem]
        rcases h.2 with hpair | ⟨earlier, hearlier, hsubset⟩
        · exact ⟨last, by simp, hpair, List.Subset.refl _⟩
        · obtain ⟨pair, hmem, hpair, hcovered⟩ := hold earlier hearlier
          exact ⟨pair, hmem, hpair, List.Subset.trans hcovered hsubset⟩

theorem placed_of_forall_isPair (h : ∀ scanRegion ∈ scanRegions, scanRegion.isPair = true) :
    Placed scanRegions := by
  rintro before scanRegion behind rfl
  exact .inl (h scanRegion (by simp))

theorem Placed.append (h : Placed scanRegions)
    (hcovered : ∀ scanRegion ∈ others, ∃ earlier ∈ scanRegions,
      earlier.axes ⊆ scanRegion.axes) : Placed (scanRegions ++ others) := by
  induction others using List.reverseRecOn with
  | nil => simpa using h
  | append_singleton others last ih =>
      rw [List.forall_mem_append] at hcovered
      obtain ⟨earlier, hmem, hsubset⟩ := hcovered.2 last (by simp)
      rw [← List.append_assoc, placed_append_singleton]
      exact ⟨ih hcovered.1, .inr ⟨earlier, List.mem_append_left _ hmem, hsubset⟩⟩

def pairsFirst (scanRegions : List ScanRegion) : List ScanRegion :=
  scanRegions.filter isPair ++ scanRegions.filter fun scanRegion => !scanRegion.isPair

theorem pairsFirst_perm (scanRegions : List ScanRegion) :
    (pairsFirst scanRegions).Perm scanRegions :=
  List.filter_append_perm isPair scanRegions

theorem placed_pairsFirst (h : ∀ scanRegion ∈ scanRegions, ∃ pair ∈ scanRegions,
    pair.isPair = true ∧ pair.axes ⊆ scanRegion.axes) : Placed (pairsFirst scanRegions) := by
  have hpairs : Placed (scanRegions.filter isPair) :=
    placed_of_forall_isPair fun scanRegion hmem => (List.mem_filter.mp hmem).2
  apply hpairs.append
  intro scanRegion hmem
  obtain ⟨pair, hpair, his, hsubset⟩ := h scanRegion (List.mem_filter.mp hmem).1
  exact ⟨pair, List.mem_filter.mpr ⟨hpair, his⟩, hsubset⟩

theorem isPair_of_placed_cons (h : Placed (scanRegion :: others)) : scanRegion.isPair = true := by
  simpa using h [] scanRegion others rfl

theorem exists_order_iff (scanRegions : List ScanRegion) :
    (∃ order, order.Perm scanRegions ∧ (grouped order).isOk = true) ↔
      Valid scanRegions ∧ ∀ scanRegion ∈ scanRegions, ∃ pair ∈ scanRegions,
        pair.isPair = true ∧ pair.axes ⊆ scanRegion.axes := by
  constructor
  · rintro ⟨order, hperm, hok⟩
    rw [isOk_grouped_iff] at hok
    refine ⟨hok.1.of_perm hperm.symm, ?_⟩
    simpa only [hperm.mem_iff] using hok.2.exists_pair
  · rintro ⟨hvalid, hcovered⟩
    have hperm := pairsFirst_perm scanRegions
    refine ⟨pairsFirst scanRegions, hperm, ?_⟩
    rw [isOk_grouped_iff]
    exact ⟨hvalid.of_perm hperm, placed_pairsFirst hcovered⟩

theorem forall_order_iff (scanRegions : List ScanRegion) :
    (∀ order, order.Perm scanRegions → (grouped order).isOk = true) ↔
      Valid scanRegions ∧ ∀ scanRegion ∈ scanRegions, scanRegion.isPair = true := by
  simp only [isOk_grouped_iff]
  constructor
  · intro h
    refine ⟨(h scanRegions (.refl _)).1, ?_⟩
    intro scanRegion hmem
    obtain ⟨before, behind, rfl⟩ := List.append_of_mem hmem
    exact isPair_of_placed_cons (h _ List.perm_middle.symm).2
  · rintro ⟨hvalid, hpairs⟩ order hperm
    exact ⟨hvalid.of_perm hperm,
      placed_of_forall_isPair fun scanRegion hmem => hpairs scanRegion (hperm.mem_iff.mp hmem)⟩

/-- When a list is accepted, and when some or all of its orders are.  If no region covers a pair
without being one, a list and its orders are accepted or refused together. -/
theorem grouped_orders (scanRegions : List ScanRegion) :
    ((grouped scanRegions).isOk = true ↔ Valid scanRegions ∧ Placed scanRegions) ∧
    ((∃ order, order.Perm scanRegions ∧ (grouped order).isOk = true) ↔
      Valid scanRegions ∧ ∀ scanRegion ∈ scanRegions, ∃ pair ∈ scanRegions,
        pair.isPair = true ∧ pair.axes ⊆ scanRegion.axes) ∧
    ((∀ order, order.Perm scanRegions → (grouped order).isOk = true) ↔
      Valid scanRegions ∧ ∀ scanRegion ∈ scanRegions, scanRegion.isPair = true) ∧
    ((∀ scanRegion ∈ scanRegions, ∀ pair ∈ scanRegions,
        pair.isPair = true → pair.axes ⊆ scanRegion.axes → scanRegion.isPair = true) →
      ∀ order, order.Perm scanRegions → (grouped order).isOk = (grouped scanRegions).isOk) := by
  have hsome := exists_order_iff scanRegions
  have hall := forall_order_iff scanRegions
  refine ⟨isOk_grouped_iff scanRegions, hsome, hall, ?_⟩
  intro hstraight
  -- what is accepted in one order has pairs only, and is accepted in the others
  have hspread : ∀ order, order.Perm scanRegions → (grouped order).isOk = true →
      ∀ other, other.Perm scanRegions → (grouped other).isOk = true := by
    intro order hperm hok
    obtain ⟨hvalid, hcovered⟩ := hsome.mp ⟨order, hperm, hok⟩
    refine hall.mpr ⟨hvalid, ?_⟩
    intro scanRegion hmem
    obtain ⟨pair, hpair, his, hsubset⟩ := hcovered scanRegion hmem
    exact hstraight scanRegion hmem pair hpair his hsubset
  intro order hperm
  rw [Bool.eq_iff_iff]
  exact ⟨fun hok => hspread order hperm hok scanRegions (.refl _),
    fun hok => hspread scanRegions (.refl _) hok order hperm⟩

def twoPairs : List ScanRegion :=
  [⟨.point (0.0, 0.0), ["x", "y"]⟩, ⟨.point (1.0, 0.0), ["a", "b"]⟩,
    ⟨.point (2.0, 0.0), ["y", "x"]⟩]

theorem grouped_orders_twoPairs :
    (grouped twoPairs).isOk = true ∧ (grouped twoPairs.reverse).isOk = true := by
  obtain ⟨-, -, -, halike⟩ := grouped_orders twoPairs
  have hok : (grouped twoPairs).isOk = true := by decide +kernel
  have hstraight : ∀ scanRegion ∈ twoPairs, ∀ pair ∈ twoPairs,
      pair.isPair = true → pair.axes ⊆ scanRegion.axes → scanRegion.isPair = true := by
    decide
  exact ⟨hok, (halike hstraight _ (List.reverse_perm twoPairs)).trans hok⟩

def besidePair : List ScanRegion :=
  [⟨.point (0.0, 0.0), ["x", "y"]⟩, ⟨.point (1.0, 0.0), ["x", "y", "z"]⟩]

/-- A region over three axes is accepted behind a pair that it covers and refused in front of it. -/
theorem grouped_besidePair_reverse :
    besidePair.reverse.Perm besidePair ∧ (grouped besidePair).isOk = true ∧
      (grouped besidePair.reverse).isOk = false :=
  ⟨List.reverse_perm besidePair, by decide +kernel, by decide +kernel⟩

end ScanPath.ScanRegion
