import ScanPath.Cause

/-!
# Results of checked operations

A sequence of checks succeeds exactly when each of them does.
-/

namespace ScanPath.Checked

variable {ε α β : Type}

theorem ok_bind (item : α) (next : α → Except ε β) : (.ok item >>= next) = next item := rfl

theorem bind_eq_ok {result : Except ε α} {next : α → Except ε β} {value : β} :
    (result >>= next) = .ok value ↔ ∃ item, result = .ok item ∧ next item = .ok value := by
  cases result with
  | error fault =>
      constructor
      · intro h
        cases h
      · rintro ⟨item, h, -⟩
        cases h
  | ok item =>
      constructor
      · intro h
        exact ⟨item, rfl, h⟩
      · rintro ⟨other, h, hnext⟩
        cases h
        exact hnext

theorem seq_eq_ok {check : Except ε Unit} {next : Except ε β} {value : β} :
    (check >>= fun _ => next) = .ok value ↔ check = .ok () ∧ next = .ok value := by
  rw [bind_eq_ok]
  constructor
  · rintro ⟨⟨⟩, hcheck, hnext⟩
    exact ⟨hcheck, hnext⟩
  · rintro ⟨hcheck, hnext⟩
    exact ⟨(), hcheck, hnext⟩

theorem return_eq_ok {check : Except ε Unit} {item value : β} :
    (check >>= fun _ => pure item) = .ok value ↔ check = .ok () ∧ item = value := by
  rw [seq_eq_ok]
  constructor
  · rintro ⟨hcheck, hitem⟩
    exact ⟨hcheck, Except.ok.inj hitem⟩
  · rintro ⟨hcheck, rfl⟩
    exact ⟨hcheck, rfl⟩

theorem forM_eq_ok {check : α → Except ε Unit} {items : List α} :
    items.forM check = .ok () ↔ ∀ item ∈ items, check item = .ok () := by
  induction items with
  | nil => exact ⟨fun _ => by simp, fun _ => rfl⟩
  | cons item items ih =>
      change (check item >>= fun _ => items.forM check) = _ ↔ _
      rw [seq_eq_ok, List.forall_mem_cons, ih]

theorem exists_of_any {result : Except ε α} {test : α → Bool}
    (h : result.toOption.any test = true) : ∃ value, result = .ok value ∧ test value = true := by
  cases result with
  | error fault => cases h
  | ok value => exact ⟨value, rfl, h⟩

theorem exists_eq_ok {result : Except ε α} (h : result.isOk = true) :
    ∃ value, result = .ok value := by
  cases result with
  | error fault => cases h
  | ok value => exact ⟨value, rfl⟩

def AllBuilt (build : α → Except ε β) (items : List β) : Prop :=
  ∀ item ∈ items, ∃ parameters, build parameters = .ok item

section

variable {build : α → Except ε β} {items others : List β}

theorem AllBuilt.subset (h : AllBuilt build items) (hsubset : others ⊆ items) :
    AllBuilt build others :=
  fun item hmem => h item (hsubset hmem)

theorem AllBuilt.append (h : AllBuilt build items) (h' : AllBuilt build others) :
    AllBuilt build (items ++ others) := by
  intro item hmem
  rcases List.mem_append.mp hmem with hmem | hmem
  · exact h item hmem
  · exact h' item hmem

theorem allBuilt_flatMap {γ : Type} {collect : γ → List β} {sources : List γ}
    (h : ∀ source ∈ sources, AllBuilt build (collect source)) :
    AllBuilt build (sources.flatMap collect) := by
  intro item hmem
  obtain ⟨source, hsource, hitem⟩ := List.mem_flatMap.mp hmem
  exact h source hsource item hitem

theorem allBuilt_mapM {sources : List α} (h : sources.mapM build = .ok items) :
    AllBuilt build items := by
  induction sources generalizing items with
  | nil =>
      cases h
      exact fun _ hmem => absurd hmem List.not_mem_nil
  | cons source sources ih =>
      rw [List.mapM_cons] at h
      obtain ⟨first, hfirst, h⟩ := bind_eq_ok.mp h
      obtain ⟨rest, hrest, h⟩ := bind_eq_ok.mp h
      cases h
      intro item hmem
      rcases List.mem_cons.mp hmem with rfl | hmem
      · exact ⟨source, hfirst⟩
      · exact ih hrest item hmem

end

inductive Alike (related : α → β → Prop) : Except ε α → Except ε β → Prop
  | fault (first second : ε) : Alike related (.error first) (.error second)
  | value {first : α} {second : β} (h : related first second) :
      Alike related (.ok first) (.ok second)

theorem Alike.of_forall {related : α → β → Prop} {first : Except ε α} {second : Except ε β}
    (h : ∀ value, first = .ok value → ∃ other, second = .ok other ∧ related value other)
    (h' : ∀ other, second = .ok other → ∃ value, first = .ok value) :
    Alike related first second := by
  cases first with
  | ok value =>
      obtain ⟨other, rfl, hrelated⟩ := h value rfl
      exact .value hrelated
  | error fault =>
      cases second with
      | error other => exact .fault fault other
      | ok other =>
          obtain ⟨value, hvalue⟩ := h' other rfl
          cases hvalue

theorem Alike.exists_eq_ok {related : α → β → Prop} {first : Except ε α} {second : Except ε β}
    {value : α} (h : Alike related first second) (hvalue : first = .ok value) :
    ∃ other, second = .ok other ∧ related value other := by
  cases h with
  | fault fault other => cases hvalue
  | value hrelated =>
      cases hvalue
      exact ⟨_, rfl, hrelated⟩

end ScanPath.Checked
