import ScanPath.Cause

/-!
# Lookahead

A source of items is a state and a pull that gives the next item, or none at
the end, and the state after it.  A lookahead holds at most one item back: it
pulls only when nothing is held, and never again after the first end.
-/

namespace ScanPath

inductive Ahead (α : Type) where
  | unknown
  | held (item : α)
  | ended
  deriving DecidableEq, Repr

structure Lookahead (σ α : Type) where
  pull : σ → Option α × σ
  source : σ
  ahead : Ahead α

namespace Lookahead

variable {σ α : Type}

def start (pull : σ → Option α × σ) (source : σ) : Lookahead σ α := ⟨pull, source, .unknown⟩

def hasNext (lookahead : Lookahead σ α) : Bool × Lookahead σ α :=
  match lookahead.ahead with
  | .held _ => (true, lookahead)
  | .ended => (false, lookahead)
  | .unknown =>
      match lookahead.pull lookahead.source with
      | (some item, source) => (true, { lookahead with source, ahead := .held item })
      | (none, source) => (false, { lookahead with source, ahead := .ended })

def next (lookahead : Lookahead σ α) : Except Cause α × Lookahead σ α :=
  match lookahead.ahead with
  | .held item => (.ok item, { lookahead with ahead := .unknown })
  | .ended => (.error .exhausted, lookahead)
  | .unknown =>
      match lookahead.pull lookahead.source with
      | (some item, source) => (.ok item, { lookahead with source })
      | (none, source) => (.error .exhausted, { lookahead with source, ahead := .ended })

def isEnded (lookahead : Lookahead σ α) : Bool :=
  match lookahead.ahead with
  | .ended => true
  | _ => false

end Lookahead

end ScanPath
