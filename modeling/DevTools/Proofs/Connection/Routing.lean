import DevTools.Proofs.Connection.Intake
import Mathlib.Algebra.Ring.Nat

set_option autoImplicit false

namespace DevTools

namespace Router

def isUnmatched (r : Router) (e : Event) : Bool := (r.matching e).isEmpty

-- Somebody is to have the event, and nobody has room for it.
def isCrowdedOut (r : Router) (e : Event) : Bool := !r.isUnmatched e && (r.matching e).all r.isFull

def losses (r : Router) (e : Event) : Nat := ((r.matching e).filter r.isFull).length

theorem undelivered_split (r : Router) (e : Event) :
    ((r.matching e).all r.isFull).toNat = (r.isUnmatched e).toNat + (r.isCrowdedOut e).toNat := by
  simp only [isCrowdedOut, isUnmatched]
  cases r.matching e with
  | nil => rfl
  | cons sub rest => simp

end Router

namespace Hub

theorem dispatch_counts (h : Hub) (staffed : h.router.Staffed) (e : Event) :
    (h.dispatch e).stats.unroutedEvents =
      h.stats.unroutedEvents + (h.router.isUnmatched e).toNat + (h.router.isCrowdedOut e).toNat ∧
      (h.dispatch e).router.laggedTotal = h.router.laggedTotal + h.router.losses e := by
  have undelivered := Router.dispatch_delivered staffed e
  have lost := Router.dispatch_lost staffed e
  have split := Router.undelivered_split h.router e
  simp only [dispatch]
  by_cases nothing : (h.router.dispatch e).1 = 0
  · rw [undelivered.mp nothing] at split
    simp only [if_pos nothing, count]
    exact ⟨by simp only [Bool.toNat_true] at split; omega, lost⟩
  · have full : (h.router.matching e).all h.router.isFull = false := by simpa using mt undelivered.mpr nothing
    rw [full] at split
    simp only [if_neg nothing]
    exact ⟨by simp only [Bool.toNat_false] at split; omega, lost⟩

end Hub

namespace Connection

def routed (c : Connection) (acts : List Act) : List (Router × Event) :=
  (trace act c acts).filterMap fun (c, a) => (c.routes? a).map fun e => (c.hub.router, e)

section
variable {c : Connection} {a : Act}

theorem act_routing (kept : c.Kept) (staffed : c.hub.router.Staffed) (a : Act) :
    (c.act a).hub.stats.unroutedEvents = c.hub.stats.unroutedEvents +
      (c.routes? a).elim 0 (fun e => (c.hub.router.isUnmatched e).toNat + (c.hub.router.isCrowdedOut e).toNat) ∧
    (c.act a).hub.router.laggedTotal = c.hub.router.laggedTotal + (c.routes? a).elim 0 c.hub.router.losses := by
  cases taken : c.takes? a with
  | none =>
      obtain ⟨stats, lagged⟩ := untaken_counts kept taken
      simp [routes?, notes_taken, taken, stats, lagged]
  | some bytes =>
      rw [takes_hub kept bytes taken, Hub.takeFrame]
      simp only [routes?, notes_taken, taken, Option.bind_some]
      cases Message.decode bytes with
      | error fault => simp [Hub.count]
      | ok message =>
          cases message with
          | request r => simp [Hub.count]
          | response r =>
              simp only [Hub.takeResponse]
              split <;> simp [Hub.count]
          | event e =>
              simp only [Hub.takeEvent, Option.filter_some]
              by_cases dropped : e.session.any c.hub.sessions.isDetached = true
              · simp [dropped, Hub.count]
              · obtain ⟨router, stats⟩ := Hub.apply_routing c.hub e
                obtain ⟨unrouted, lagged⟩ := Hub.dispatch_counts (c.hub.applyToSessions e) (router.symm ▸ staffed) e
                rw [router, stats] at unrouted
                rw [router] at lagged
                simp only [eq_false_of_ne_true dropped, Bool.false_eq_true, if_false, Bool.not_false, if_true,
                  Option.elim_some]
                exact ⟨by omega, lagged⟩

theorem run_routing (sound : c.Sound) (staffed : c.hub.router.Staffed) (acts : List Act) :
    (c.run acts).hub.stats.unroutedEvents = c.hub.stats.unroutedEvents +
      (((c.routed acts).filter fun x => x.1.isUnmatched x.2).length + ((c.routed acts).filter fun x =>
        x.1.isCrowdedOut x.2).length) ∧
    (c.run acts).hub.router.laggedTotal = c.hub.router.laggedTotal + ((c.routed acts).map fun x =>
      x.1.losses x.2).sum := by
  induction acts generalizing c with
  | nil => exact ⟨rfl, rfl⟩
  | cons a acts ih =>
      obtain ⟨unrouted, lagged⟩ := act_routing sound.kept staffed a
      obtain ⟨later, lost⟩ := ih (act_sound sound a) (run_staffed sound staffed [a])
      have run : c.run (a :: acts) = (c.act a).run acts := rfl
      have routed : c.routed (a :: acts) = ((c.routes? a).map fun e => (c.hub.router, e)).toList ++
          (c.act a).routed acts := by
        simp only [Connection.routed, trace, List.filterMap_cons]
        cases c.routes? a <;> rfl
      have one : ∀ p : Router × Event → Bool, ∀ x, ([x].filter p).length = (p x).toNat := by
        intro p x
        cases picked : p x <;> simp [picked]
      rw [run, routed, later, lost, unrouted, lagged]
      cases c.routes? a with
      | none => exact ⟨rfl, rfl⟩
      | some e =>
          simp only [Option.elim_some, Option.map_some, Option.toList_some, List.filter_append, List.length_append, one,
            List.map_append, List.map_singleton, List.sum_append, List.sum_singleton]
          omega

end

-- A run counts as unrouted the events that nobody is to have, and with them those that everybody who is to have them
-- has no room for. As lost it counts an event once for each full buffer.
theorem undelivered_counts_unrouted (config : Config) (link : Link) (acts : List Act) :
    let c := (ofLink config link).run acts
    let events := (ofLink config link).routed acts
    c.hub.stats.unroutedEvents =
      (events.filter fun x => x.1.isUnmatched x.2).length + (events.filter fun x => x.1.isCrowdedOut x.2).length ∧
    c.hub.router.laggedTotal = (events.map fun x => x.1.losses x.2).sum := by
  obtain ⟨unrouted, lagged⟩ := run_routing (initial_sound config link) (initial_staffed config link) acts
  exact ⟨unrouted.trans (Nat.zero_add _), lagged.trans (Nat.zero_add _)⟩

def crowded : List Act :=
  [.subscribe .any, eventFrame "Page.opened", .move .reader, eventFrame "Page.loaded", .move .reader]

theorem matched_event_unrouted :
    let initial := ofLink { eventBuffer := 1 } inMemory
    let c := initial.run crowded
    c.hub.stats.unroutedEvents = 1 ∧ ((initial.routed crowded).filter fun x => x.1.isUnmatched x.2).length = 0 ∧
      c.hub.router.laggedTotal = 1 := by
  decide +kernel

end Connection

end DevTools
