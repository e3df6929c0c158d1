import ScanPath.Lookahead
import ScanPath.Proofs.Source

/-!
# Calls on a lookahead

A lookahead stays in step with its source whatever is asked of it and in
whatever order.  `InStep` lists the three situations that it can be in after a
number of items was given out; one call leads from one of them to another, and
a list of calls does so by induction.  The source may have more items after its
first end: they are never asked for.
-/

namespace ScanPath.Lookahead

variable {σ α : Type}

open Source

def counted (pull : σ → Option α × σ) (state : σ × Nat) : Option α × (σ × Nat) :=
  ((pull state.1).1, (pull state.1).2, state.2 + 1)

inductive Call where
  | hasNext
  | next
  | isEnded
  deriving DecidableEq, Repr

inductive Answer (α : Type) where
  | more (value : Bool)
  | item (value : Except Cause α)
  | ended (value : Bool)

def Call.ask : Call → Lookahead σ α → Answer α × Lookahead σ α
  | .hasNext, lookahead => (.more lookahead.hasNext.1, lookahead.hasNext.2)
  | .next, lookahead => (.item lookahead.next.1, lookahead.next.2)
  | .isEnded, lookahead => (.ended lookahead.isEnded, lookahead)

def askAll : List Call → Lookahead σ α → List (Answer α) × Lookahead σ α
  | [], lookahead => ([], lookahead)
  | call :: calls, lookahead =>
      let (answer, lookahead) := call.ask lookahead
      let (answers, lookahead) := askAll calls lookahead
      (answer :: answers, lookahead)

def Answer.given? : Answer α → Option α
  | .item (.ok value) => some value
  | _ => none

def returned (answers : List (Answer α)) : List α := answers.filterMap Answer.given?

def Call.atEnd : Call → Answer α
  | .hasNext => .more false
  | .next => .item (.error .exhausted)
  | .isEnded => .ended true

def isHolding (lookahead : Lookahead σ α) : Bool :=
  match lookahead.ahead with
  | .held _ => true
  | _ => false

/-! ## Situations -/

/-- The situations of a lookahead that has given `count` items out: nothing is known of the next
one, or the next one is held back, or the source was pulled in vain. -/
inductive InStep (pull : σ → Option α × σ) (source : σ) (count : Nat) :
    Lookahead (σ × Nat) α → Prop
  | unknown : InStep pull source count
      ⟨counted pull, (after pull source count, count), .unknown⟩
  | held {item : α} (h : itemAt? pull source count = some item) : InStep pull source count
      ⟨counted pull, (after pull source (count + 1), count + 1), .held item⟩
  | ended (h : itemAt? pull source count = none) : InStep pull source count
      ⟨counted pull, (after pull source (count + 1), count + 1), .ended⟩

theorem inStep_start (pull : σ → Option α × σ) (source : σ) :
    InStep pull source 0 (start (counted pull) (source, 0)) :=
  .unknown

variable {pull : σ → Option α × σ} {source : σ}

theorem counted_after (count : Nat) :
    counted pull (after pull source count, count) =
      (itemAt? pull source count, after pull source (count + 1), count + 1) :=
  rfl

theorem InStep.hasNext {count : Nat} {lookahead : Lookahead (σ × Nat) α}
    (h : InStep pull source count lookahead) :
    InStep pull source count lookahead.hasNext.2 ∧
      lookahead.hasNext.1 = (itemAt? pull source count).isSome := by
  cases h with
  | unknown =>
      cases hitem : itemAt? pull source count with
      | none =>
          simp only [Lookahead.hasNext, counted_after, hitem]
          exact ⟨.ended hitem, rfl⟩
      | some item =>
          simp only [Lookahead.hasNext, counted_after, hitem]
          exact ⟨.held hitem, rfl⟩
  | held hitem => exact ⟨.held hitem, by simp [Lookahead.hasNext, hitem]⟩
  | ended hitem => exact ⟨.ended hitem, by simp [Lookahead.hasNext, hitem]⟩

theorem InStep.next {count : Nat} {lookahead : Lookahead (σ × Nat) α}
    (h : InStep pull source count lookahead) :
    (∃ item, itemAt? pull source count = some item ∧ lookahead.next.1 = .ok item ∧
        InStep pull source (count + 1) lookahead.next.2) ∨
      (itemAt? pull source count = none ∧ lookahead.next.1 = .error .exhausted ∧
        InStep pull source count lookahead.next.2) := by
  cases h with
  | unknown =>
      cases hitem : itemAt? pull source count with
      | none =>
          right
          simp only [Lookahead.next, counted_after, hitem]
          exact ⟨trivial, trivial, .ended hitem⟩
      | some item =>
          left
          simp only [Lookahead.next, counted_after, hitem]
          exact ⟨item, rfl, rfl, .unknown⟩
  | held hitem => exact .inl ⟨_, hitem, rfl, .unknown⟩
  | ended hitem => exact .inr ⟨hitem, rfl, .ended hitem⟩

theorem InStep.ask {count : Nat} {lookahead : Lookahead (σ × Nat) α}
    (h : InStep pull source count lookahead) (call : Call) :
    ((call.ask lookahead).1.given? = none ∧
        InStep pull source count (call.ask lookahead).2) ∨
      (∃ item, (call.ask lookahead).1.given? = some item ∧
        itemAt? pull source count = some item ∧
        InStep pull source (count + 1) (call.ask lookahead).2) := by
  cases call with
  | hasNext => exact .inl ⟨rfl, h.hasNext.1⟩
  | isEnded => exact .inl ⟨rfl, h⟩
  | next =>
      rcases h.next with ⟨item, hitem, hanswer, hafter⟩ | ⟨_, hanswer, hafter⟩
      · exact .inr ⟨item, by simp [Call.ask, hanswer, Answer.given?], hitem, hafter⟩
      · exact .inl ⟨by simp [Call.ask, hanswer, Answer.given?], hafter⟩

theorem InStep.askAll (calls : List Call) {count : Nat} {lookahead : Lookahead (σ × Nat) α}
    (h : InStep pull source count lookahead) :
    InStep pull source (count + (returned (askAll calls lookahead).1).length)
        (askAll calls lookahead).2 ∧
      (returned (Lookahead.askAll calls lookahead).1).map some =
        (List.range' count (returned (Lookahead.askAll calls lookahead).1).length).map
          (itemAt? pull source) := by
  induction calls generalizing count lookahead with
  | nil => exact ⟨h, rfl⟩
  | cons call calls ih =>
      rcases h.ask call with ⟨hgiven, hafter⟩ | ⟨item, hgiven, hitem, hafter⟩
      · have hreturned : returned (Lookahead.askAll (call :: calls) lookahead).1 =
            returned (Lookahead.askAll calls (call.ask lookahead).2).1 := by
          simp [Lookahead.askAll, returned, hgiven]
        rw [hreturned]
        exact ih hafter
      · have hreturned : returned (Lookahead.askAll (call :: calls) lookahead).1 =
            item :: returned (Lookahead.askAll calls (call.ask lookahead).2).1 := by
          simp [Lookahead.askAll, returned, hgiven]
        obtain ⟨hrest, hitems⟩ := ih hafter
        rw [hreturned]
        constructor
        · rw [List.length_cons, ← Nat.add_assoc, Nat.add_right_comm]
          exact hrest
        · rw [List.map_cons, List.length_cons, List.range'_succ, List.map_cons, hitem, hitems]

theorem askAll_of_isEnded (calls : List Call) {lookahead : Lookahead σ α}
    (h : lookahead.isEnded = true) :
    askAll calls lookahead = (calls.map Call.atEnd, lookahead) := by
  obtain ⟨pull, source, ahead⟩ := lookahead
  cases ahead with
  | unknown => simp [isEnded] at h
  | held item => simp [isEnded] at h
  | ended =>
      induction calls with
      | nil => rfl
      | cons call calls ih =>
          have hask : call.ask (⟨pull, source, .ended⟩ : Lookahead σ α) =
              (call.atEnd, ⟨pull, source, .ended⟩) := by
            cases call <;> rfl
          simp [askAll, hask, ih]

def uncounted (pull : σ → Option α × σ) (lookahead : Lookahead (σ × Nat) α) : Lookahead σ α :=
  ⟨pull, lookahead.source.1, lookahead.ahead⟩

theorem ask_uncounted (call : Call) {lookahead : Lookahead (σ × Nat) α}
    (h : lookahead.pull = counted pull) :
    call.ask (uncounted pull lookahead) =
        ((call.ask lookahead).1, uncounted pull (call.ask lookahead).2) ∧
      (call.ask lookahead).2.pull = counted pull := by
  obtain ⟨_, ⟨source, count⟩, ahead⟩ := lookahead
  simp only at h
  subst h
  cases ahead with
  | held item => cases call <;> exact ⟨rfl, rfl⟩
  | ended => cases call <;> exact ⟨rfl, rfl⟩
  | unknown =>
      rcases hpull : pull source with ⟨item?, after⟩
      have hcounted : counted pull (source, count) = (item?, after, count + 1) := by
        simp [counted, hpull]
      cases call with
      | isEnded => exact ⟨rfl, rfl⟩
      | hasNext =>
          cases item? <;> simp [Call.ask, Lookahead.hasNext, uncounted, hpull, hcounted]
      | next =>
          cases item? <;> simp [Call.ask, Lookahead.next, uncounted, hpull, hcounted]

private theorem askAll_uncounted (calls : List Call) {lookahead : Lookahead (σ × Nat) α}
    (h : lookahead.pull = counted pull) :
    (askAll calls (uncounted pull lookahead)).1 = (askAll calls lookahead).1 := by
  induction calls generalizing lookahead with
  | nil => rfl
  | cons call calls ih =>
      obtain ⟨hask, hpull⟩ := ask_uncounted call h
      simp [askAll, hask, ih hpull]

/-- A lookahead that has given `count` items of the source out. -/
def GaveOut (pull : σ → Option α × σ) (source : σ) (count : Nat) (lookahead : Lookahead σ α) :
    Prop :=
  ∃ counting, InStep pull source count counting ∧ lookahead = uncounted pull counting

theorem gaveOut_start (pull : σ → Option α × σ) (source : σ) :
    GaveOut pull source 0 (start pull source) :=
  ⟨_, inStep_start pull source, rfl⟩

theorem InStep.pull_eq {count : Nat} {lookahead : Lookahead (σ × Nat) α}
    (h : InStep pull source count lookahead) : lookahead.pull = counted pull := by
  cases h <;> rfl

theorem GaveOut.hasNext {count : Nat} {lookahead : Lookahead σ α}
    (h : GaveOut pull source count lookahead) :
    GaveOut pull source count lookahead.hasNext.2 ∧
      lookahead.hasNext.1 = (itemAt? pull source count).isSome := by
  obtain ⟨counting, hstep, rfl⟩ := h
  have hask := (ask_uncounted .hasNext hstep.pull_eq).1
  obtain ⟨hanswer, hafter⟩ := Prod.mk.inj hask
  obtain ⟨hnext, hmore⟩ := hstep.hasNext
  exact ⟨⟨_, hnext, hafter⟩, (Answer.more.inj hanswer).trans hmore⟩

theorem GaveOut.next {count : Nat} {lookahead : Lookahead σ α}
    (h : GaveOut pull source count lookahead) :
    (∃ item, itemAt? pull source count = some item ∧ lookahead.next.1 = .ok item ∧
        GaveOut pull source (count + 1) lookahead.next.2) ∨
      (itemAt? pull source count = none ∧ lookahead.next.1 = .error .exhausted ∧
        GaveOut pull source count lookahead.next.2) := by
  obtain ⟨counting, hstep, rfl⟩ := h
  have hask := (ask_uncounted .next hstep.pull_eq).1
  obtain ⟨hanswer, hafter⟩ := Prod.mk.inj hask
  have hitem := Answer.item.inj hanswer
  rcases hstep.next with ⟨item, hget, hnext, hstep⟩ | ⟨hget, hnext, hstep⟩
  · exact .inl ⟨item, hget, hitem.trans hnext, _, hstep, hafter⟩
  · exact .inr ⟨hget, hitem.trans hnext, _, hstep, hafter⟩

/-! ## Any calls in any order -/

theorem InStep.pulls {count : Nat} {lookahead : Lookahead (σ × Nat) α}
    (h : InStep pull source count lookahead) :
    lookahead.source.2 =
      count + (if lookahead.isHolding then 1 else 0) + (if lookahead.isEnded then 1 else 0) := by
  cases h <;> rfl

theorem InStep.pulls_le {count : Nat} {lookahead : Lookahead (σ × Nat) α}
    (h : InStep pull source count lookahead) : lookahead.source.2 ≤ count + 1 := by
  cases h <;> simp

/-- The end was seen when one of the pulls was in vain: the last one, since none comes after it. -/
theorem InStep.isEnded_iff {count : Nat} {lookahead : Lookahead (σ × Nat) α}
    (h : InStep pull source count lookahead)
    (hgiven : ∀ index < count, (itemAt? pull source index).isSome) :
    lookahead.isEnded = true ↔ ∃ index < lookahead.source.2, itemAt? pull source index = none := by
  have hbefore : ∀ index < count, itemAt? pull source index ≠ none := by
    intro index hindex hnone
    simpa [hnone] using hgiven index hindex
  cases h with
  | unknown =>
      refine ⟨fun hended => by simp [isEnded] at hended, ?_⟩
      rintro ⟨index, hindex, hnone⟩
      exact absurd hnone (hbefore index hindex)
  | held hitem =>
      refine ⟨fun hended => by simp [isEnded] at hended, ?_⟩
      rintro ⟨index, hindex, hnone⟩
      rcases Nat.lt_succ_iff_lt_or_eq.mp hindex with hlt | rfl
      · exact absurd hnone (hbefore index hlt)
      · simp [hitem] at hnone
  | ended hitem => exact ⟨fun _ => ⟨count, Nat.lt_succ_self count, hitem⟩, fun _ => rfl⟩

/-- A lookahead answers as if `next` were asked at once, and one after the other they agree. -/
theorem InStep.hasNext_iff {count : Nat} {lookahead : Lookahead (σ × Nat) α}
    (h : InStep pull source count lookahead) :
    lookahead.hasNext.1 = true ↔ ∃ item, lookahead.hasNext.2.next.1 = .ok item := by
  obtain ⟨hafter, hmore⟩ := h.hasNext
  rw [hmore]
  rcases hafter.next with ⟨item, hitem, hnext, _⟩ | ⟨hitem, hnext, _⟩
  · simp [hitem, hnext]
  · simp [hitem, hnext]

/-- What holds after any calls on a new lookahead.  The items given out are the first ones of the
source, before its first end.  `hasNext` foretells `next`.  There was one pull for every item given
out, one for the item held back, and one for the end if it was seen.  The end counts as seen when a
pull was in vain; from then on nothing is pulled and every call gets the answer of the end.
Counting the pulls changes no answer. -/
theorem askAll_start_inStep (pull : σ → Option α × σ) (source : σ) (calls : List Call) :
    let answers := (askAll calls (start (counted pull) (source, 0))).1
    let lookahead := (askAll calls (start (counted pull) (source, 0))).2
    let items := returned answers
    let pulls := lookahead.source.2
    items.map some = (List.range items.length).map (itemAt? pull source) ∧
      (lookahead.hasNext.1 = true ↔ ∃ item, lookahead.hasNext.2.next.1 = .ok item) ∧
      (lookahead.hasNext.1 = true ↔ ∃ item, lookahead.next.1 = .ok item) ∧
      pulls = items.length + (if lookahead.isHolding then 1 else 0) +
        (if lookahead.isEnded then 1 else 0) ∧
      pulls ≤ items.length + 1 ∧
      (lookahead.isEnded = true ↔ ∃ index < pulls, itemAt? pull source index = none) ∧
      (lookahead.isEnded = true → ∀ more : List Call,
        askAll more lookahead = (more.map Call.atEnd, lookahead)) ∧
      answers = (askAll calls (start pull source)).1 := by
  intro answers lookahead items pulls
  obtain ⟨hstep, hitems⟩ := (inStep_start pull source).askAll calls
  rw [Nat.zero_add] at hstep
  rw [← List.range_eq_range'] at hitems
  have hgiven : ∀ index < items.length, (itemAt? pull source index).isSome := by
    intro index hindex
    have hget : (items.map some)[index]? = some (itemAt? pull source index) := by
      rw [hitems, List.getElem?_map, List.getElem?_range hindex]
      rfl
    rw [List.getElem?_map, List.getElem?_eq_getElem hindex] at hget
    simp [← Option.some.inj hget]
  refine ⟨hitems, hstep.hasNext_iff, ?_, hstep.pulls, hstep.pulls_le, hstep.isEnded_iff hgiven,
    fun hended more => askAll_of_isEnded more hended,
    (askAll_uncounted calls rfl).symm⟩
  rw [hstep.hasNext.2]
  rcases hstep.next with ⟨item, hitem, hnext, _⟩ | ⟨hitem, hnext, _⟩
  · simp [hitem, hnext, lookahead]
  · simp [hitem, hnext, lookahead]

end ScanPath.Lookahead
