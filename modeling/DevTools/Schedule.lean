/- One that can move goes on until it has to wait; meanwhile those that come to be able to move queue behind it in that
   order. One that has used up its turn rests until all others have to wait. -/

set_option autoImplicit false

namespace DevTools

structure Schedule (σ α : Type) where
  activities : σ → List α
  ready : σ → α → Bool
  move : σ → α → σ
  -- How many moves an activity makes in one turn, if there is a bound.
  turn : σ → α → Option Nat := fun _ _ => none

-- Who is to move next, after the `made` moves of the first in the queue, and who rests.
structure Turns (α : Type) where
  made : Nat := 0
  queue : List α := []
  resting : List α := []
deriving Repr

namespace Schedule

variable {σ α : Type} [BEq α] (rules : Schedule σ α)

def notice (s : σ) (t : Turns α) : Turns α :=
  { t with queue := t.queue ++ (rules.activities s).filter fun a =>
      rules.ready s a && !t.queue.contains a && !t.resting.contains a }

def isSpent (s : σ) (a : α) (t : Turns α) : Bool := (rules.turn s a).any (· ≤ t.made)

def run : (fuel : Nat) → Turns α → σ → σ
  | 0, _, s => s
  | fuel + 1, t, s =>
    match t.queue with
    | [] => if t.resting.isEmpty then s else run fuel { queue := t.resting } s
    | a :: queue =>
      if rules.isSpent s a t then run fuel { queue, resting := t.resting ++ [a] } s
      else if rules.ready s a then
        let s := rules.move s a
        run fuel (rules.notice s { t with made := t.made + 1 }) s
      else run fuel { queue, resting := t.resting } s

def settle (fuel : Nat) (s : σ) : σ :=
  rules.run fuel (rules.notice s {}) s

def Quiet (s : σ) : Prop := ∀ a ∈ rules.activities s, rules.ready s a = false

end Schedule

end DevTools
