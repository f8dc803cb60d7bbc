import DevTools.Event.Router
import DevTools.Proofs.Trace

set_option autoImplicit false

namespace DevTools

inductive Phase where
  | registered
  -- Nothing comes in any more, but what the buffer holds can be taken.
  | closed
  | dropped
deriving DecidableEq, Repr

-- All that a subscriber can notice of what goes on around it.
inductive Touch where
  | event (e : Event)
  | take
  | drain
  | drop
  | close
deriving DecidableEq, Repr

-- An event that the filter accepts, and how many events the buffer held when it came.
structure Offer where
  event : Event
  held : Nat
deriving DecidableEq, Repr

namespace Offer

def kept (capacity : Nat) (offers : List Offer) : List Event :=
  (offers.filter fun o => o.held < capacity).map (·.event)

def lost (capacity : Nat) (offers : List Offer) : Nat := (offers.filter fun o => capacity ≤ o.held).length

section
variable (capacity : Nat) (before after : List Offer)

theorem kept_append : kept capacity (before ++ after) = kept capacity before ++ kept capacity after := by
  simp [kept]

theorem lost_append : lost capacity (before ++ after) = lost capacity before + lost capacity after := by
  simp [lost]

end

end Offer

structure Inbox where
  capacity : Nat
  filter : Filter
  phase : Phase := .registered
  buffer : List Event := []
  lagged : Nat := 0
deriving DecidableEq, Repr

namespace Inbox

def wants (b : Inbox) (e : Event) : Bool := b.phase == .registered && b.filter.accepts e

def put (b : Inbox) (e : Event) : Inbox :=
  if b.buffer.length < b.capacity then { b with buffer := b.buffer ++ [e] } else { b with lagged := b.lagged + 1 }

def touch (b : Inbox) : Touch → Inbox
  | .event e => if b.wants e then b.put e else b
  | .take => if b.phase = .dropped then b else { b with buffer := b.buffer.tail }
  | .drain => if b.phase = .dropped then b else { b with buffer := [] }
  | .drop => { b with phase := .dropped }
  | .close => if b.phase = .dropped then b else { b with phase := .closed }

def gives (b : Inbox) : Touch → List Event
  | .take => if b.phase = .dropped then [] else b.buffer.take 1
  | .drain => if b.phase = .dropped then [] else b.buffer
  | _ => []

def offer (b : Inbox) : Touch → List Offer
  | .event e => if b.wants e then [⟨e, b.buffer.length⟩] else []
  | _ => []

def touches (b : Inbox) (ts : List Touch) : Inbox := ts.foldl touch b

def given (b : Inbox) (ts : List Touch) : List Event := (trace touch b ts).flatMap fun (b, t) => b.gives t

def offers (b : Inbox) (ts : List Touch) : List Offer := (trace touch b ts).flatMap fun (b, t) => b.offer t

section
variable {b : Inbox}

theorem touch_fixed (t : Touch) : (b.touch t).capacity = b.capacity ∧ (b.touch t).filter = b.filter := by
  cases t with
  | event e =>
      simp only [touch, put]
      split
      · split <;> exact ⟨rfl, rfl⟩
      · exact ⟨rfl, rfl⟩
  | drop => exact ⟨rfl, rfl⟩
  | _ =>
      simp only [touch]
      split <;> exact ⟨rfl, rfl⟩

theorem touch_unregistered (t : Touch) (gone : b.phase ≠ .registered) : (b.touch t).phase ≠ .registered := by
  cases t with
  | event e => simp [touch, wants, gone]
  | drop => simp [touch]
  | _ =>
      simp only [touch]
      split <;> simp [gone]

theorem touch_dropped (t : Touch) (gone : b.phase = .dropped) : b.touch t = b := by
  cases t with
  | event e => simp [touch, wants, gone]
  | drop => simp [touch, ← gone]
  | _ => simp [touch, gone]

theorem touch_present (t : Touch) (there : b.phase ≠ .dropped) (stays : t ≠ .drop) : (b.touch t).phase ≠ .dropped := by
  cases t with
  | event e =>
      simp only [touch, put]
      split
      · split <;> exact there
      · exact there
  | drop => exact absurd rfl stays
  | close => simp [touch, there]
  | _ => simp [touch, there]

theorem touches_dropped (ts : List Touch) (gone : b.phase = .dropped) : b.touches ts = b := by
  induction ts with
  | nil => rfl
  | cons t ts ih =>
      simp only [touches, List.foldl_cons, touch_dropped t gone]
      exact ih

theorem offer_unregistered (t : Touch) (gone : b.phase ≠ .registered) : b.offer t = [] := by
  cases t with
  | event e => simp [offer, wants, gone]
  | _ => rfl

theorem offers_unregistered (ts : List Touch) (gone : b.phase ≠ .registered) : b.offers ts = [] := by
  induction ts generalizing b with
  | nil => rfl
  | cons t ts ih =>
      have rest := ih (touch_unregistered t gone)
      simp only [offers, trace, List.flatMap_cons, offer_unregistered t gone, List.nil_append] at rest ⊢
      exact rest

-- One touch: what goes in goes to the end, what comes out comes from the front.
theorem touch_account (t : Touch) :
    b.gives t ++ (b.touch t).buffer = b.buffer ++ Offer.kept b.capacity (b.offer t) ∧
      (b.touch t).lagged = b.lagged + Offer.lost b.capacity (b.offer t) := by
  cases t with
  | event e =>
      by_cases wanted : b.wants e = true
      · by_cases room : b.buffer.length < b.capacity
        · simp [gives, touch, put, offer, wanted, room, Offer.kept, Offer.lost]
        · simp [gives, touch, put, offer, wanted, room, Offer.kept, Offer.lost, Nat.not_lt.mp room]
      · simp [gives, touch, offer, wanted, Offer.kept, Offer.lost]
  | take =>
      by_cases gone : b.phase = .dropped
      · simp [gives, touch, offer, gone, Offer.kept, Offer.lost]
      · simp [gives, touch, offer, gone, Offer.kept, Offer.lost, ← List.drop_one]
  | drain => by_cases gone : b.phase = .dropped <;> simp [gives, touch, offer, gone, Offer.kept, Offer.lost]
  | close => by_cases gone : b.phase = .dropped <;> simp [gives, touch, offer, gone, Offer.kept, Offer.lost]
  | drop => simp [gives, touch, offer, Offer.kept, Offer.lost]

theorem touches_account (ts : List Touch) :
    b.given ts ++ (b.touches ts).buffer = b.buffer ++ Offer.kept b.capacity (b.offers ts) ∧
      (b.touches ts).lagged = b.lagged + Offer.lost b.capacity (b.offers ts) := by
  induction ts generalizing b with
  | nil => simp [given, touches, offers, trace, Offer.kept, Offer.lost]
  | cons t ts ih =>
      obtain ⟨now, lag⟩ := touch_account (b := b) t
      obtain ⟨later, lags⟩ := ih (b := b.touch t)
      rw [(touch_fixed t).1] at later lags
      have gives : b.given (t :: ts) = b.gives t ++ (b.touch t).given ts := rfl
      have offers : b.offers (t :: ts) = b.offer t ++ (b.touch t).offers ts := rfl
      have ends : b.touches (t :: ts) = (b.touch t).touches ts := rfl
      rw [gives, offers, ends, Offer.kept_append, Offer.lost_append]
      constructor
      · rw [List.append_assoc, later, ← List.append_assoc, now, List.append_assoc]
      · rw [lags, lag, Nat.add_assoc]

end

end Inbox

end DevTools
