import DevTools.Proofs.Connection.Intake
import Mathlib.Algebra.Ring.Nat

set_option autoImplicit false

namespace DevTools

inductive Account where
  | settled
  | orphaned
  | malformed
  | unexpected
  | dropped
  | unrouted
  | delivered
deriving DecidableEq, Repr

def Account.all : List Account := [settled, orphaned, malformed, unexpected, dropped, unrouted, delivered]

-- The accounts that are kept as counts.
def Stats.entered (s : Stats) : Account → Nat
  | .orphaned => s.orphanedResponses
  | .malformed => s.malformedFrames
  | .unexpected => s.unexpectedRequests
  | .dropped => s.detachedSessionFrames
  | .unrouted => s.unroutedEvents
  | .settled | .delivered => 0

namespace Connection

def settles (c : Connection) (a : Act) : List Call :=
  (c.hub.calls.unsettled.map (·.call)).filter fun call =>
    match (c.act a).hub.calls.outcome? call with
    | some (.ok _) => true
    | _ => false

def delivers (c : Connection) (a : Act) : Bool :=
  (c.notes? a).any fun e => c.hub.router.streams.any fun s => (c.act a).hub.router.buffered s.id == s.buffer ++ [e]

def frames (c : Connection) (acts : List Act) : List Bytes := (trace act c acts).filterMap fun (c, a) => c.takes? a

def tally (c : Connection) (acts : List Act) (account : Account) : Nat :=
  match account with
  | .settled => ((trace act c acts).flatMap fun (c, a) => c.settles a).length
  | .delivered => ((trace act c acts).filter fun (c, a) => c.delivers a).length
  | account => (c.run acts).hub.stats.entered account

-- The account in which the frame is entered.
def account (c : Connection) (bytes : Bytes) : Account :=
  match Message.decode bytes with
  | .error _ => .malformed
  | .ok (.request _) => .unexpected
  | .ok (.response r) => if c.hub.calls.isPending r.id then .settled else .orphaned
  | .ok (.event e) =>
      if e.session.any c.hub.sessions.isDetached then .dropped
      else if (c.hub.router.dispatch e).1 = 0 then .unrouted else .delivered

section
variable {c : Connection} {a : Act}

theorem unheard_settles (sound : c.Sound) (unheard : c.hears? a = none) : c.settles a = [] := by
  rw [settles, List.filter_eq_nil_iff]
  intro call member
  obtain ⟨s, unsettled, rfl⟩ := List.mem_map.mp member
  obtain ⟨held, isOpen⟩ := List.mem_filter.mp unsettled
  cases outcome : (c.act a).hub.calls.outcome? s.call with
  | none => simp
  | some result =>
      cases result with
      | error fault => simp
      | ok r =>
          obtain ⟨after, present, same, settled⟩ := CallTable.slot_of_outcome s.call (.ok r) outcome
          rcases response_origin sound a after present r settled with ⟨old, listed, own, had⟩ | ⟨heard, -⟩
          · have one := CallTable.matched_slot_unique sound.matched s old held listed (by rw [own, same])
            rw [one, had] at isOpen
            cases isOpen
          · rw [unheard] at heard
            cases heard

theorem heard_settles_count (sound : c.Sound) (r : Response) (heard : c.hears? a = some r) :
    (c.settles a).length = (c.hub.calls.isPending r.id).toNat := by
  have settled : c.settles a = (c.hub.calls.unsettled.map (·.call)).filter fun call => call.id == r.id := by
    refine List.filter_congr fun call member => ?_
    obtain ⟨s, unsettled, rfl⟩ := List.mem_map.mp member
    obtain ⟨held, isOpen⟩ := List.mem_filter.mp unsettled
    have result := heard_settles sound r heard s.call ⟨s, held, by simpa using isOpen, rfl⟩
    by_cases own : s.call.id = r.id
    · rw [if_pos own] at result
      simp [result, own]
    · rw [if_neg own] at result
      obtain ⟨after, present, waiting, same⟩ := result
      have outcome := CallTable.outcome_of_slot (act_sound sound a).matched after present
      rw [same, waiting] at outcome
      simp [outcome, own]
  have ids := congrArg (List.countP (· == r.id)) (pending_ids sound)
  rw [CallTable.pendingIds, List.countP_map, List.countP_map] at ids
  rw [settled, ← CallTable.count_of_id sound.matched r.id, ← List.countP_eq_length_filter, List.countP_map]
  exact ids.symm

theorem unmoved_delivers (same : (c.act a).hub.router = c.hub.router) (staffed : c.hub.router.Staffed) :
    c.delivers a = false := by
  rw [delivers, Option.any_eq_false]
  intro e _
  rw [List.any_eq_false]
  intro s member
  rw [same, Router.buffered_eq, Router.stream_of_mem staffed.tidy s member]
  simp

theorem dispatched_delivers (e : Event) (noted : c.notes? a = some e)
    (dispatched : (c.act a).hub.router = (c.hub.router.dispatch e).2)
    (staffed : c.hub.router.Staffed) : c.delivers a = decide ((c.hub.router.dispatch e).1 ≠ 0) := by
  rw [delivers, noted, Option.any_some, dispatched, Router.dispatch_count staffed.tidy e, Bool.eq_iff_iff,
    decide_eq_true_eq,
    List.any_eq_true, ← Nat.pos_iff_ne_zero, List.length_pos_iff_exists_mem]
  simp only [List.mem_filter]

-- The act is entered in this account and in no other.
structure Enters (c : Connection) (a : Act) (entry : Option Account) : Prop where
  settled : (c.settles a).length = (entry == some .settled).toNat
  delivered : c.delivers a = (entry == some .delivered)
  counted : ∀ account, account ≠ .settled → account ≠ .delivered →
    (c.act a).hub.stats.entered account = c.hub.stats.entered account + (entry == some account).toNat

theorem untaken_enters (sound : c.Sound) (untaken : c.takes? a = none) : c.Enters a none where
  settled := by
    rw [unheard_settles sound (by rw [hears_taken, untaken]; rfl)]
    rfl
  delivered := by
    rw [delivers, notes_taken, untaken]
    rfl
  counted account _ _ := by
    rw [(untaken_counts sound.kept untaken).1]
    rfl

theorem counted_enters (staffed : c.hub.router.Staffed) (account : Account) (f : Stats → Stats)
    (made : (c.act a).hub = c.hub.count f) (settles : (c.settles a).length = 0)
    (kept : account ≠ .settled ∧ account ≠ .delivered)
    (counts : ∀ other, other ≠ .settled → other ≠ .delivered →
      (f c.hub.stats).entered other = c.hub.stats.entered other + (some account == some other).toNat) :
    c.Enters a (some account) where
  settled := by
    rw [settles, beq_eq_false_iff_ne.mpr fun same => kept.1 (Option.some.inj same)]
    rfl
  delivered := by
    rw [unmoved_delivers (by rw [made]; rfl) staffed]
    exact (beq_eq_false_iff_ne.mpr fun same => kept.2 (Option.some.inj same)).symm
  counted other unsettled undelivered := by
    rw [made]
    exact counts other unsettled undelivered

theorem response_enters (sound : c.Sound) (staffed : c.hub.router.Staffed) (r : Response) (heard : c.hears? a = some r)
    (deaf : c.notes? a = none) :
    c.Enters a (some (if c.hub.calls.isPending r.id then .settled else .orphaned)) := by
  have made := hears_hub sound.kept r heard
  have settles := heard_settles_count sound r heard
  rw [Hub.takeResponse, CallTable.resolve] at made
  cases pending : c.hub.calls.isPending r.id with
  | false =>
      rw [pending] at settles made
      refine counted_enters staffed .orphaned _ made settles (by decide) ?_
      intro other _ _
      cases other <;> rfl
  | true =>
      rw [pending] at settles made
      refine ⟨settles, by rw [delivers, deaf]; rfl, ?_⟩
      intro other first _
      rw [made]
      cases other <;> first | rfl | exact absurd rfl first

theorem event_enters (sound : c.Sound) (staffed : c.hub.router.Staffed) (e : Event) (noted : c.notes? a = some e)
    (unheard : c.hears? a = none) :
    c.Enters a (some (if e.session.any c.hub.sessions.isDetached then .dropped
      else if (c.hub.router.dispatch e).1 = 0 then .unrouted else .delivered)) := by
  have made := notes_hub sound.kept e noted
  have settles : (c.settles a).length = 0 := by
    rw [unheard_settles sound unheard]
    rfl
  rw [Hub.takeEvent] at made
  by_cases dropped : e.session.any c.hub.sessions.isDetached = true
  · rw [if_pos dropped] at made ⊢
    refine counted_enters staffed .dropped _ made settles (by decide) ?_
    intro other _ _
    cases other <;> rfl
  · rw [if_neg dropped] at made ⊢
    obtain ⟨router, stats⟩ := Hub.apply_routing c.hub e
    have dispatched : (c.act a).hub.router = (c.hub.router.dispatch e).2 := by
      rw [made, (Hub.dispatch_rest _ e).2.2.1, router]
    have delivers := dispatched_delivers e noted dispatched staffed
    rw [Hub.dispatch, router] at made
    dsimp only at made
    by_cases nobody : (c.hub.router.dispatch e).1 = 0
    · rw [if_pos nobody] at made ⊢
      refine ⟨settles, by rw [delivers, nobody]; rfl, ?_⟩
      intro other _ _
      rw [made, ← stats]
      cases other <;> rfl
    · rw [if_neg nobody] at made ⊢
      refine ⟨settles, by rw [delivers, decide_eq_true nobody]; rfl, ?_⟩
      intro other _ second
      rw [made, ← stats]
      cases other <;> first | rfl | exact absurd rfl second

theorem taken_enters (sound : c.Sound) (staffed : c.hub.router.Staffed) (bytes : Bytes)
    (taken : c.takes? a = some bytes) :
    c.Enters a (some (c.account bytes)) := by
  have made := takes_hub sound.kept bytes taken
  have hears := hears_taken (c := c) (a := a)
  have notes := notes_taken (c := c) (a := a)
  rw [taken, Option.bind_some] at hears notes
  rw [Hub.takeFrame] at made
  cases decoded : Message.decode bytes with
  | error fault =>
      rw [decoded] at hears notes made
      rw [account, decoded]
      refine counted_enters staffed .malformed _ made (by rw [unheard_settles sound hears]; rfl) (by decide) ?_
      intro other _ _
      cases other <;> rfl
  | ok message =>
      rw [decoded] at hears notes made
      rw [account, decoded]
      cases message with
      | request r =>
          refine counted_enters staffed .unexpected _ made (by rw [unheard_settles sound hears]; rfl) (by decide) ?_
          intro other _ _
          cases other <;> rfl
      | response r => exact response_enters sound staffed r hears notes
      | event e => exact event_enters sound staffed e notes hears

def enters? (c : Connection) (a : Act) : Option Account := (c.takes? a).map c.account

theorem act_enters (sound : c.Sound) (staffed : c.hub.router.Staffed) (a : Act) : c.Enters a (c.enters? a) := by
  rw [enters?]
  cases taken : c.takes? a with
  | none => exact untaken_enters sound taken
  | some bytes => exact taken_enters sound staffed bytes taken

theorem tally_concat (sound : c.Sound) (staffed : c.hub.router.Staffed) (acts : List Act) (a : Act)
    (account : Account) :
    c.tally (acts ++ [a]) account = c.tally acts account + ((c.run acts).enters? a == some account).toNat := by
  have enters := act_enters (run_sound sound acts) (run_staffed sound staffed acts) a
  have step : c.run (acts ++ [a]) = (c.run acts).act a := run_append c acts [a]
  have seen : trace act c (acts ++ [a]) = trace act c acts ++ [(c.run acts, a)] := trace_concat act c acts a
  cases account with
  | settled =>
      simp only [tally, seen, List.flatMap_append, List.length_append, List.flatMap_singleton, enters.settled]
  | delivered =>
      simp only [tally, seen, List.filter_append, List.length_append, ← enters.delivered]
      cases delivered : (c.run acts).delivers a <;> simp [delivered]
  | orphaned | malformed | unexpected | dropped | unrouted =>
      simp only [tally, step]
      exact enters.counted _ (by decide) (by decide)

theorem frames_cons (a : Act) (acts : List Act) :
    c.frames (a :: acts) = (c.takes? a).toList ++ (c.act a).frames acts := by
  simp only [frames, trace, List.filterMap_cons]
  cases c.takes? a <;> rfl

theorem frames_concat (acts : List Act) (a : Act) :
    (c.frames (acts ++ [a])).length = (c.frames acts).length + ((c.run acts).takes? a).isSome.toNat := by
  have seen : trace act c (acts ++ [a]) = trace act c acts ++ [(c.run acts, a)] := trace_concat act c acts a
  rw [frames, seen, List.filterMap_append, List.length_append]
  cases taken : (c.run acts).takes? a <;> simp [frames, taken]

theorem entries_sum (entry : Option Account) :
    (Account.all.map fun account => (entry == some account).toNat).sum = entry.isSome.toNat := by
  cases entry with
  | none => rfl
  | some account => cases account <;> rfl

theorem run_accounts (sound : c.Sound) (staffed : c.hub.router.Staffed) (fresh : c.hub.stats = {}) (acts : List Act) :
    (c.frames acts).length = (Account.all.map (c.tally acts)).sum := by
  induction acts using List.reverseRecOn with
  | nil =>
      have nothing : ∀ account, c.tally [] account = 0 := by
        intro account
        cases account <;> simp [tally, run, fresh, Stats.entered, trace]
      simp [nothing, frames, trace, Account.all]
  | append_singleton acts a ih =>
      have added : (Account.all.map (c.tally (acts ++ [a]))).sum =
          (Account.all.map (c.tally acts)).sum + ((c.run acts).enters? a).isSome.toNat := by
        have one := entries_sum ((c.run acts).enters? a)
        simp only [Account.all, List.map_cons, List.map_nil, List.sum_cons, List.sum_nil, tally_concat sound staffed]
          at one ⊢
        omega
      rw [frames_concat, ih, added, enters?, Option.isSome_map]

end

end Connection

end DevTools
