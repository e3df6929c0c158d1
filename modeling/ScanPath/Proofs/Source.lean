/-!
# Sources

A source is a state that gives an item or nothing whenever it is pulled.  It
need not stay at its end: pulled again it may give further items.
-/

namespace ScanPath.Source

variable {σ τ α β : Type}

def after (pull : σ → Option α × σ) (source : σ) : Nat → σ
  | 0 => source
  | count + 1 => (pull (after pull source count)).2

/-- What the source gives when it is pulled for the time `index`, counted from zero. -/
def itemAt? (pull : σ → Option α × σ) (source : σ) (index : Nat) : Option α :=
  (pull (after pull source index)).1

/-- Pulled again and again the source gives these items, and nothing once they are all given. -/
def Emits (pull : σ → Option α × σ) (source : σ) (items : List α) : Prop :=
  ∀ index, itemAt? pull source index = items[index]?

def given (pull : σ → Option α × σ) (source : σ) (pulls : Nat) : List α :=
  (List.range pulls).filterMap (itemAt? pull source)

theorem given_succ (pull : σ → Option α × σ) (source : σ) (pulls : Nat) :
    given pull source (pulls + 1) =
      given pull source pulls ++ (itemAt? pull source pulls).toList := by
  rw [given, List.range_succ, List.filterMap_append, given]
  cases hitem : itemAt? pull source pulls with
  | none => simp [hitem]
  | some item => simp [hitem]

section

variable {pull : σ → Option α × σ} {pull' : τ → Option β × τ} {view : σ → τ} {change : α → β}
  (hpull : ∀ source, pull' (view source) = ((pull source).1.map change, view (pull source).2))

include hpull

theorem after_view (source : σ) (count : Nat) :
    after pull' (view source) count = view (after pull source count) := by
  induction count with
  | zero => rfl
  | succ count ih => rw [after, ih, hpull, after]

theorem emits_view {source : σ} {items : List α} (h : Emits pull source items) :
    Emits pull' (view source) (items.map change) := by
  intro index
  rw [itemAt?, after_view hpull, hpull, List.getElem?_map, ← h index, itemAt?]

end

end ScanPath.Source
