import DevTools.Proofs.Call.Fate
import DevTools.Proofs.Desk
import DevTools.Proofs.Trace
/- What ends a call is the first thing that takes its id out of the table. -/

set_option autoImplicit false

namespace DevTools

abbrev CallDesk := Desk CallTable CallWait Outcome

inductive CallAct where
  | allocate
  | register (id : UInt64) (method : String) (session : Option SessionId)
  | resolve (id : UInt64) (response : Response)
  | cancel (id : UInt64)
  | failSession (session : SessionId)
  | failAll
  | poll (call : Call)
  | drop (call : Call)
  | wait (wait : CallWait)
  | move (key : Nat)
  | abort (key : Nat)
  | advance (milliseconds : Nat)
  | fire (token : Token)

namespace CallDesk

def opened : CallDesk := { table := {} }

def isFree (d : CallDesk) (call : Call) : Bool :=
  d.table.slots.any (·.call == call) && !d.waits.any (·.2.call == call)

def isAwaited (d : CallDesk) (call : Call) : Bool :=
  d.table.slots.any fun s => s.call == call && s.outcome.isNone

def act (d : CallDesk) : CallAct → CallDesk
  | .allocate => { d with table := d.table.allocate.2 }
  | .register id method session => { d with table := d.table.perform (.register id method session) }
  | .resolve id response => { d with table := (d.table.resolve id response).2 }
  | .cancel id => { d with table := (d.table.cancel id).2 }
  | .failSession session => { d with table := (d.table.failSession session).2 }
  | .failAll => { d with table := d.table.failAll.2 }
  | .poll call => if d.isFree call then { d with table := d.table.perform (.collect call) } else d
  | .drop call => if d.isFree call then { d with table := d.table.abandon call } else d
  | .wait w => if d.isFree w.call then (d.start (.inl w)).2 else d
  | .move key => d.move CallWait.kind key
  | .abort key => (d.abort CallWait.kind key).2
  | .advance milliseconds => d.advance milliseconds
  | .fire token => d.fire token

def run (d : CallDesk) (acts : List CallAct) : CallDesk := acts.foldl act d

theorem settle_run (d : CallDesk) : ∃ acts, d.settle CallWait.kind = d.run acts := by
  obtain ⟨moves, made⟩ := (Desk.schedule CallWait.kind).run_moves _ ((Desk.schedule CallWait.kind).notice d {}) d
  refine ⟨moves.map .move, ?_⟩
  rw [run, List.foldl_map]
  exact made

end CallDesk

namespace CallAct

def asks? : CallAct → Option CallDeed
  | allocate => some .allocate
  | register id method session => some (.register id method session)
  | resolve id response => some (.resolve id response)
  | cancel id => some (.cancel id)
  | failSession session => some (.failSession session)
  | failAll => some .failAll
  | _ => none

def registers? : CallAct → Option UInt64
  | register id .. => some id
  | _ => none

def verdict (id : UInt64) (session : Option SessionId) : CallAct → Option Outcome
  | resolve other response => if id = other then some (.ok response) else none
  | cancel other => if id = other then some (.error .connectionClosed) else none
  | failSession detached => if session = some detached then some (.error (.sessionDetached detached)) else none
  | failAll => some (.error .connectionClosed)
  | _ => none

end CallAct

-- How calls came into the table, and how they left it.
structure Ledger where
  registered : Nat := 0
  resolved : Nat := 0
  cancelled : Nat := 0
  failed : Nat := 0
  givenUp : Nat := 0

def Ledger.settled (l : Ledger) : Nat := l.resolved + l.cancelled + l.failed + l.givenUp

def Ledger.total (books : List Ledger) (column : Ledger → Nat) : Nat := books.foldr (fun l rest => column l + rest) 0

namespace CallDesk

-- What the act says that it has done; a handle that is let go counts if it was awaited.
def tally (d : CallDesk) : CallAct → Ledger
  | .register id method session =>
      { registered := match d.table.register id method session with | .ok _ => 1 | .error _ => 0 }
  | .resolve id response => { resolved := (d.table.resolve id response).1.toNat }
  | .cancel id => { cancelled := (d.table.cancel id).1.toNat }
  | .failSession session => { failed := (d.table.failSession session).1 }
  | .failAll => { failed := d.table.failAll.1 }
  | .drop call => { givenUp := (d.isFree call && d.isAwaited call).toNat }
  | .move key =>
      match d.wait? key with
      | none => {}
      | some w => { givenUp := ((w.finish? d.clock d.table).isSome && d.isAwaited w.call).toNat }
  | .abort key =>
      match d.wait? key with
      | none => {}
      | some w => { givenUp := (d.isAwaited w.call).toNat }
  | _ => {}

def ledger (d : CallDesk) (acts : List CallAct) : List Ledger :=
  (trace act d acts).map fun (d, a) => d.tally a

def departs (d : CallDesk) (a : CallAct) : List UInt64 :=
  d.table.pendingIds.filter fun id => !(d.act a).table.isPending id

def departures (d : CallDesk) (acts : List CallAct) : List UInt64 :=
  (trace act d acts).flatMap fun (d, a) => d.departs a

def ends (d : CallDesk) : CallAct → Option CallWait
  | .move key => (d.wait? key).filter fun w => (w.finish? d.clock d.table).isSome
  | .abort key => d.wait? key
  | _ => none

-- What an act does to the table; a wait that ends with the outcome of its call only collects it.
def deed (d : CallDesk) : CallAct → Option CallDeed
  | .allocate => some .allocate
  | .register id method session => some (.register id method session)
  | .resolve id response => some (.resolve id response)
  | .cancel id => some (.cancel id)
  | .failSession session => some (.failSession session)
  | .failAll => some .failAll
  | .poll call => if d.isFree call then some (.collect call) else none
  | .drop call => if d.isFree call then some (.abandon call) else none
  | .move key =>
      (d.ends (.move key)).map fun w =>
        if (d.table.outcome? w.call).isSome then .collect w.call else .abandon w.call
  | .abort key => (d.ends (.abort key)).map fun w => .abandon w.call
  | .wait _ | .advance _ | .fire _ => none

def perform (t : CallTable) : Option CallDeed → CallTable
  | some d => t.perform d
  | none => t

theorem move_wait (d : CallDesk) (key : Nat) (w : CallWait) (found : d.wait? key = some w) :
    (w.finish? d.clock d.table = none ∧ d.ends (.move key) = none ∧ (d.move CallWait.kind key).table = d.table) ∨
      ∃ outcome, d.ends (.move key) = some w ∧
        w.finish? d.clock d.table = some (outcome, perform d.table (d.deed (.move key))) ∧
        d.move CallWait.kind key = { d.withoutWait key with
          table := perform d.table (d.deed (.move key)), finished := d.finished ++ [(key, outcome)] } := by
  cases settled : d.table.outcome? w.call with
  | some outcome =>
      have finish := finish_settled w d.clock d.table outcome settled
      have ending : d.ends (.move key) = some w := by simp [ends, found, finish]
      refine Or.inr ⟨outcome, ending, ?_, ?_⟩
      · simp [finish, deed, ending, settled, perform]
      · simp [Desk.move, found, CallWait.kind, stillOr, finish, deed, ending, settled, perform]
  | none =>
      have finish := finish_unsettled w d.clock d.table settled
      cases gaveUp : w.fault? d.clock with
      | none =>
          have waits : w.finish? d.clock d.table = none := by simpa [gaveUp] using finish
          exact Or.inl ⟨waits, by simp [ends, found, waits], by simp [Desk.move, found, CallWait.kind, stillOr, waits]⟩
      | some fault =>
        rw [gaveUp, Option.map_some] at finish
        have ending : d.ends (.move key) = some w := by simp [ends, found, finish]
        refine Or.inr ⟨.error fault, ending, ?_, ?_⟩
        · simp [finish, deed, ending, settled, perform]
        · simp [Desk.move, found, CallWait.kind, stillOr, finish, deed, ending, settled, perform]

theorem act_table (d : CallDesk) (a : CallAct) : (d.act a).table = perform d.table (d.deed a) := by
  cases a with
  | poll call => by_cases free : d.isFree call <;> simp [act, deed, perform, free]
  | drop call => by_cases free : d.isFree call <;> simp [act, deed, perform, free, CallTable.perform]
  | wait w => by_cases free : d.isFree w.call <;> simp [act, deed, perform, free, Desk.start]
  | move key =>
      cases found : d.wait? key with
      | none => simp [act, Desk.move, found, deed, ends, perform]
      | some w =>
          rcases move_wait d key w found with ⟨_, ending, same⟩ | ⟨outcome, _, _, same⟩
          · rw [act, same, deed, ending]
            rfl
          · rw [act, same]
  | abort key =>
      cases found : d.wait? key with
      | none => simp [act, Desk.abort, found, deed, ends, perform]
      | some w => simp [act, Desk.abort, found, deed, ends, perform, CallWait.kind, CallTable.perform]
  | _ => rfl

structure Orderly (d : CallDesk) : Prop where
  matched : d.table.Matched
  keys : (d.waits.map (·.1)).Nodup
  below : ∀ w ∈ d.waits, w.1 < d.nextWait
  calls : (d.waits.map (·.2.call)).Nodup
  live : ∀ w ∈ d.waits, w.2.call ∈ d.table.calls

structure Sound (used : List UInt64) (d : CallDesk) : Prop extends Orderly d where
  ids : (d.table.calls.map (·.id)).Nodup
  used : ∀ call ∈ d.table.calls, call.id ∈ used

theorem opened_orderly : Orderly opened :=
  ⟨CallTable.empty_matched, List.nodup_nil, by simp [opened], List.nodup_nil, by simp [opened]⟩

theorem opened_sound : Sound [] opened :=
  ⟨opened_orderly, List.nodup_nil, by simp [opened, CallTable.calls]⟩

def releases (d : CallDesk) (a : CallAct) : Option Call := (d.deed a).bind d.table.released

def issues (d : CallDesk) (a : CallAct) : List Call := ((d.deed a).map d.table.issued).getD []

theorem act_calls (d : CallDesk) (a : CallAct) :
    (d.act a).table.calls =
      d.table.calls.filter (fun call => d.releases a ≠ some call) ++ d.issues a := by
  rw [act_table, releases, issues]
  cases d.deed a with
  | none => simp [perform]
  | some deed => exact CallTable.perform_calls deed

section
variable {d : CallDesk} {used : List UInt64}

theorem others_keep_calls (orderly : Orderly d) (key : Nat) (w : CallWait) (found : d.wait? key = some w)
    (other : Nat × CallWait) (member : other ∈ d.waits.filter fun entry => entry.1 != key) : other.2.call ≠ w.call := by
  intro same
  obtain ⟨present, different⟩ := List.mem_filter.mp member
  have own := List.inj_on_of_nodup_map orderly.calls present (Desk.wait_found key w found) same
  simp [own] at different

theorem free_of_waits (call : Call) (free : d.isFree call = true) : ∀ w ∈ d.waits, w.2.call ≠ call := by
  intro w member same
  simp only [isFree, Bool.and_eq_true, Bool.not_eq_true', List.any_eq_false, beq_iff_eq] at free
  exact free.2 w member same

theorem move_waits (orderly : Orderly d) (key : Nat) (w : CallWait) (found : d.wait? key = some w)
    (waiting : w.finish? d.clock d.table = none) : (d.move CallWait.kind key).waits = d.waits := by
  simp only [Desk.move, found, CallWait.kind, stillOr, waiting]
  apply (List.map_congr_left _).trans (List.map_id _)
  intro entry member
  split
  · next same =>
      have own := List.inj_on_of_nodup_map orderly.keys member (Desk.wait_found key w found) (by simpa using same)
      exact own.symm
  · rfl

theorem act_waits (orderly : Orderly d) (a : CallAct) :
    (∃ w, a = .wait w ∧ d.isFree w.call = true ∧ (d.act a).waits = d.waits ++ [(d.nextWait, w)] ∧
      (d.act a).nextWait = d.nextWait + 1) ∨
    ((d.act a).waits.Sublist d.waits ∧ (d.act a).nextWait = d.nextWait ∧
      ∀ w ∈ (d.act a).waits, d.releases a ≠ some w.2.call) := by
  have idle : ∀ {a}, (d.act a).waits = d.waits → (d.act a).nextWait = d.nextWait →
      (∀ w ∈ d.waits, d.releases a ≠ some w.2.call) →
      (d.act a).waits.Sublist d.waits ∧ (d.act a).nextWait = d.nextWait ∧
        ∀ w ∈ (d.act a).waits, d.releases a ≠ some w.2.call := by
    intro a waits next keeps
    rw [waits]
    exact ⟨List.Sublist.refl _, next, keeps⟩
  cases a with
  | poll call =>
      right
      by_cases free : d.isFree call = true
      · refine idle (by simp [act, free]) (by simp [act, free]) ?_
        intro w member
        simp only [releases, deed, free, if_true, Option.bind_some, CallTable.released]
        split
        · simpa using (free_of_waits call free w member).symm
        · simp
      · apply idle <;> simp [act, free, releases, deed]
  | drop call =>
      right
      by_cases free : d.isFree call = true
      · refine idle (by simp [act, free]) (by simp [act, free]) ?_
        intro w member
        simpa [releases, deed, free, CallTable.released] using (free_of_waits call free w member).symm
      · apply idle <;> simp [act, free, releases, deed]
  | wait w =>
      by_cases free : d.isFree w.call = true
      · exact Or.inl ⟨w, rfl, free, by simp [act, free, Desk.start], by simp [act, free, Desk.start]⟩
      · right
        apply idle <;> simp [act, free, releases, deed]
  | move key =>
      right
      cases found : d.wait? key with
      | none => apply idle <;> simp [act, Desk.move, found, releases, deed, ends]
      | some w =>
          rcases move_wait d key w found with ⟨waiting, ending, _⟩ | ⟨outcome, ending, _, moved⟩
          · apply idle
            · exact move_waits orderly key w found waiting
            · simp [act, Desk.move, found, CallWait.kind, stillOr, waiting]
            · simp [releases, deed, ending]
          · rw [act, moved]
            refine ⟨List.filter_sublist, rfl, ?_⟩
            intro other member
            have different := others_keep_calls orderly key w found other member
            simp only [releases, deed, ending, Option.map_some, Option.bind_some]
            split <;> simp [CallTable.released, Ne.symm different]
  | abort key =>
      right
      cases found : d.wait? key with
      | none => apply idle <;> simp [act, Desk.abort, found, releases, deed, ends]
      | some w =>
          simp only [act, Desk.abort, found]
          refine ⟨List.filter_sublist, rfl, ?_⟩
          intro other member
          have different := others_keep_calls orderly key w found other member
          simp [releases, deed, ends, found, CallTable.released, Ne.symm different]
  | _ =>
      right
      apply idle <;> simp [act, releases, deed, CallTable.released, Desk.advance, Desk.fire]

theorem deed_asked (a : CallAct) (deed : CallDeed) (made : d.deed a = some deed) :
    a.asks? = some deed ∨ (∃ call, deed = .collect call) ∨ ∃ call, deed = .abandon call := by
  cases a with
  | poll call =>
      simp only [CallDesk.deed] at made
      split at made <;> cases made
      exact Or.inr (Or.inl ⟨call, rfl⟩)
  | drop call =>
      simp only [CallDesk.deed] at made
      split at made <;> cases made
      exact Or.inr (Or.inr ⟨call, rfl⟩)
  | move key =>
      obtain ⟨w, _, same⟩ := Option.map_eq_some_iff.mp made
      split at same <;> cases same
      · exact Or.inr (Or.inl ⟨w.call, rfl⟩)
      · exact Or.inr (Or.inr ⟨w.call, rfl⟩)
  | abort key =>
      obtain ⟨w, _, same⟩ := Option.map_eq_some_iff.mp made
      cases same
      exact Or.inr (Or.inr ⟨w.call, rfl⟩)
  | _ => exact Or.inl made

theorem deed_register (a : CallAct) (id : UInt64) (method : String) (session : Option SessionId)
    (registers : d.deed a = some (.register id method session)) : a = .register id method session := by
  rcases deed_asked a _ registers with asked | ⟨call, other⟩ | ⟨call, other⟩
  · cases a <;> cases asked
    rfl
  · cases other
  · cases other

theorem deed_allocate (a : CallAct) (allocates : d.deed a = some .allocate) : a = .allocate := by
  rcases deed_asked a _ allocates with asked | ⟨call, other⟩ | ⟨call, other⟩
  · cases a <;> cases asked
    rfl
  · cases other
  · cases other

theorem issues_iff (a : CallAct) (call : Call) :
    call ∈ d.issues a ↔ ∃ session, a = .register call.id call.method session ∧ d.table.closed = false ∧
      call.ticket = d.table.nextTicket := by
  constructor
  · intro member
    simp only [issues] at member
    cases made : d.deed a with
    | none => simp [made] at member
    | some deed =>
        rw [made] at member
        cases deed with
        | register id method session =>
            cases closed : d.table.closed with
            | true => simp [CallTable.issued, closed] at member
            | false =>
                simp only [Option.map_some, Option.getD_some, CallTable.issued, closed, Bool.false_eq_true, if_false,
                  List.mem_singleton] at member
                subst member
                exact ⟨session, deed_register a id method session made, rfl, rfl⟩
        | _ => simp [CallTable.issued] at member
  · rintro ⟨session, rfl, isOpen, ticket⟩
    cases call
    simp_all [issues, deed, CallTable.issued]

theorem issues_registered (a : CallAct) (call : Call) (member : call ∈ d.issues a) : a.registers? = some call.id := by
  obtain ⟨session, same, _⟩ := (issues_iff a call).mp member
  rw [same]
  rfl

theorem act_ids (sound : Sound used d) (a : CallAct) (fresh : ∀ id, a.registers? = some id → id ∉ used) :
    ((d.act a).table.calls.map (·.id)).Nodup := by
  have single : ((d.issues a).map (·.id)).Nodup := by
    simp only [issues]
    cases d.deed a with
    | none => exact List.nodup_nil
    | some deed =>
        cases deed <;> simp only [Option.map_some, Option.getD_some, CallTable.issued] <;> (try split) <;> simp
  rw [act_calls, List.map_append]
  apply List.nodup_append.mpr
  refine ⟨sound.ids.sublist (List.filter_sublist.map _), single, ?_⟩
  rintro id old other new rfl
  obtain ⟨before, member, same⟩ := List.mem_map.mp old
  obtain ⟨call, issued, rfl⟩ := List.mem_map.mp new
  apply fresh call.id (issues_registered a call issued)
  rw [← same]
  exact sound.used before (List.mem_filter.mp member).1

theorem act_used (sound : Sound used d) (a : CallAct) (call : Call) (member : call ∈ (d.act a).table.calls) :
    call.id ∈ used ++ a.registers?.toList := by
  rw [act_calls] at member
  rcases List.mem_append.mp member with old | new
  · exact List.mem_append_left _ (sound.used call (List.mem_filter.mp old).1)
  · rw [issues_registered a call new]
    simp

theorem act_keys (orderly : Orderly d) (a : CallAct) :
    ((d.act a).waits.map (·.1)).Nodup ∧ ∀ w ∈ (d.act a).waits, w.1 < (d.act a).nextWait := by
  rcases act_waits orderly a with ⟨w, _, _, waits, next⟩ | ⟨waits, next, _⟩
  · rw [waits, next, List.map_append]
    constructor
    · apply List.nodup_append.mpr
      refine ⟨orderly.keys, by simp, ?_⟩
      rintro key old other new rfl
      obtain ⟨entry, member, rfl⟩ := List.mem_map.mp old
      have bound := orderly.below entry member
      simp only [List.map_cons, List.map_nil, List.mem_singleton] at new
      omega
    · intro entry member
      rcases List.mem_append.mp member with old | new
      · exact Nat.lt_succ_of_lt (orderly.below entry old)
      · rw [List.mem_singleton.mp new]
        exact Nat.lt_succ_self _
  · rw [next]
    exact ⟨orderly.keys.sublist (waits.map _), fun entry member => orderly.below entry (waits.subset member)⟩

theorem act_holds (orderly : Orderly d) (a : CallAct) :
    ((d.act a).waits.map (·.2.call)).Nodup ∧ ∀ w ∈ (d.act a).waits, w.2.call ∈ (d.act a).table.calls := by
  have live : ∀ call ∈ d.table.calls, d.releases a ≠ some call → call ∈ (d.act a).table.calls := by
    intro call held keeps
    rw [act_calls]
    exact List.mem_append_left _ (List.mem_filter.mpr ⟨held, by simpa using keeps⟩)
  rcases act_waits orderly a with ⟨w, rfl, free, waits, _⟩ | ⟨waits, _, keeps⟩
  · have none_ : ∀ call, d.releases (.wait w) ≠ some call := by simp [releases, deed]
    rw [waits, List.map_append]
    constructor
    · apply List.nodup_append.mpr
      refine ⟨orderly.calls, by simp, ?_⟩
      rintro call old other new rfl
      obtain ⟨entry, member, same⟩ := List.mem_map.mp old
      simp only [List.map_cons, List.map_nil, List.mem_singleton] at new
      exact free_of_waits w.call free entry member (same.trans new)
    · intro entry member
      rcases List.mem_append.mp member with old | new
      · exact live entry.2.call (orderly.live entry old) (none_ _)
      · rw [List.mem_singleton.mp new]
        simp only [isFree, Bool.and_eq_true, List.any_eq_true, beq_iff_eq] at free
        obtain ⟨s, held, own⟩ := free.1
        exact live w.call (List.mem_map.mpr ⟨s, held, own⟩) (none_ _)
  · exact ⟨orderly.calls.sublist (waits.map _), fun entry member =>
      live _ (orderly.live entry (waits.subset member)) (keeps entry member)⟩

theorem act_orderly (orderly : Orderly d) (a : CallAct) : Orderly (d.act a) := by
  have matched : (d.act a).table.Matched := by
    rw [act_table]
    cases d.deed a with
    | none => exact orderly.matched
    | some deed => exact CallTable.perform_matched orderly.matched deed
  obtain ⟨keys, below⟩ := act_keys orderly a
  obtain ⟨calls, live⟩ := act_holds orderly a
  exact ⟨matched, keys, below, calls, live⟩

theorem act_sound (sound : Sound used d) (a : CallAct) (fresh : ∀ id, a.registers? = some id → id ∉ used) :
    Sound (used ++ a.registers?.toList) (d.act a) :=
  ⟨act_orderly sound.toOrderly a, act_ids sound a fresh, act_used sound a⟩

theorem call_unique (sound : Sound used d) (a b : Call) (left : a ∈ d.table.calls) (right : b ∈ d.table.calls)
    (same : a.id = b.id) : a = b :=
  List.inj_on_of_nodup_map sound.ids left right same

theorem entry_call (orderly : Orderly d) (e : Entry) (pending : e ∈ d.table.pending) :
    ∃ call ∈ d.table.calls, call.ticket = e.ticket ∧ call.id = e.id := by
  obtain ⟨s, member, ticket, id, _⟩ := CallTable.matched_entry_slot orderly.matched e pending
  exact ⟨s.call, List.mem_map_of_mem member, ticket, id⟩

theorem abandoned_live (orderly : Orderly d) (a : CallAct) (call : Call) (made : d.deed a = some (.abandon call)) :
    call ∈ d.table.calls := by
  cases a with
  | drop other =>
      simp only [deed] at made
      split at made
      · next free =>
          cases made
          simp only [isFree, Bool.and_eq_true, List.any_eq_true, beq_iff_eq] at free
          obtain ⟨s, held, own⟩ := free.1
          exact List.mem_map.mpr ⟨s, held, own⟩
      · cases made
  | poll other =>
      simp only [deed] at made
      split at made <;> cases made
  | move key =>
      obtain ⟨w, ending, chosen⟩ := Option.map_eq_some_iff.mp made
      have found := (Option.filter_eq_some_iff.mp ending).1
      split at chosen <;> cases chosen
      exact orderly.live (key, w) (Desk.wait_found key w found)
  | abort key =>
      obtain ⟨w, ending, chosen⟩ := Option.map_eq_some_iff.mp made
      cases chosen
      exact orderly.live (key, w) (Desk.wait_found key w ending)
  | _ => cases made

theorem abandoned_other (sound : Sound used d) (a : CallAct) (other : Call)
    (made : d.deed a = some (.abandon other)) (e : Entry)
    (pending : e ∈ d.table.pending) (survives : ∃ call ∈ (d.act a).table.calls, call.ticket = e.ticket) :
    e.id ≠ other.id := by
  intro same
  obtain ⟨call, held, ticket, id⟩ := entry_call sound.toOrderly e pending
  have own := call_unique sound call other held (abandoned_live sound.toOrderly a other made) (id.trans same)
  obtain ⟨after, survivor, afterTicket⟩ := survives
  rw [act_calls] at survivor
  rcases List.mem_append.mp survivor with old | new
  · obtain ⟨kept, stays⟩ := List.mem_filter.mp old
    obtain ⟨s, member, slotCall⟩ := List.mem_map.mp held
    obtain ⟨s', member', slotCall'⟩ := List.mem_map.mp kept
    have sameSlot := CallTable.matched_slot_unique sound.matched s s' member member'
      (by rw [slotCall, slotCall', ticket, afterTicket])
    rw [← slotCall', ← sameSlot, slotCall, own] at stays
    simp [releases, made, CallTable.released] at stays
  · simp [issues, made, CallTable.issued] at new

structure Follows (d : CallDesk) (call : Call) (session : Option SessionId) (outcome : Option Outcome) : Prop where
  below : call.ticket < d.table.nextTicket
  outcome : ∀ s ∈ d.table.slots, s.call = call → s.outcome = outcome
  entry : ∀ e ∈ d.table.pending, e.ticket = call.ticket → e.id = call.id ∧ e.session = session

-- How an act ends a call that is in flight under this id for this session, by whatever it does to the table.
def fate (d : CallDesk) (a : CallAct) (id : UInt64) (session : Option SessionId) : Option Outcome :=
  (d.deed a).bind fun deed => deed.fate ⟨id, 0, session⟩

theorem fate_of_entry (a : CallAct) (deed : CallDeed) (made : d.deed a = some deed) (e : Entry) :
    d.fate a e.id e.session = deed.fate e := by
  rw [fate, made, Option.bind_some]
  cases deed <;> rfl

theorem survivor_entry (orderly : Orderly d) (a : CallAct) (call : Call) (survives : call ∈ (d.act a).table.calls)
    (old : call.ticket < d.table.nextTicket) :
    ∃ s ∈ d.table.slots, s.call = call ∧
      (s.outcome = none → ∃ e ∈ d.table.pending, e.ticket = call.ticket ∧ e.id = call.id) := by
  rw [act_calls] at survives
  rcases List.mem_append.mp survives with kept | new
  · obtain ⟨s, held, rfl⟩ := List.mem_map.mp (List.mem_filter.mp kept).1
    exact ⟨s, held, rfl, CallTable.matched_slot_entry orderly.matched s held⟩
  · obtain ⟨_, _, _, ticket⟩ := (issues_iff a call).mp new
    omega

theorem act_fated (orderly : Orderly d) (a : CallAct) (call : Call) (session : Option SessionId)
    (outcome : Option Outcome)
    (follows : Follows d call session outcome) :
    Follows (d.act a) call session (outcome.or (d.fate a call.id session)) := by
  cases made : d.deed a with
  | none =>
      have same : (d.act a).table = d.table := by rw [act_table, made]; rfl
      rw [fate, made, Option.bind_none, Option.or_none]
      exact ⟨by rw [same]; exact follows.below, by rw [same]; exact follows.outcome, by rw [same]; exact follows.entry⟩
  | some deed =>
      have table : (d.act a).table = d.table.perform deed := by rw [act_table, made]; rfl
      refine ⟨?_, ?_, ?_⟩
      · rw [table, CallTable.perform_next_ticket]
        exact Nat.lt_of_lt_of_le follows.below (Nat.le_add_right _ _)
      · intro after member own
        rw [table] at member
        rcases CallTable.perform_slot orderly.matched deed after member with ⟨s, held, same, keeps, settles⟩
          | ⟨_, _, ticket, _⟩
        · have known := follows.outcome s held (same.trans own)
          cases outcome with
          | some o => simpa using keeps o known
          | none =>
              obtain ⟨e, pending, entryTicket, _⟩ := CallTable.matched_slot_entry orderly.matched s held known
              have entry := follows.entry e pending (by rw [entryTicket, same, own])
              rw [settles e pending entryTicket, ← fate_of_entry a deed made e, entry.1, entry.2]
              rfl
        · have bound := follows.below
          rw [← own] at bound
          omega
      · intro e member ticket
        rw [table] at member
        rcases (CallTable.perform_pending_iff orderly.matched deed e).mp member with ⟨old, _⟩ | new
        · exact follows.entry e old ticket
        · have fresh := ((CallTable.added_iff deed e).mp new).2.1
          have bound := follows.below
          omega

-- The table speaks of ids, the verdict of one call. They agree as no id is used twice: what is abandoned
-- under an entry's id is the very call of that entry.
theorem fate_is_verdict (sound : Sound used d) (a : CallAct) (fresh : ∀ id, a.registers? = some id → id ∉ used)
    (e : Entry) (pending : e ∈ d.table.pending) (survives : ∃ call ∈ (d.act a).table.calls, call.ticket = e.ticket) :
    d.fate a e.id e.session = a.verdict e.id e.session := by
  have abandoned : ∀ other, d.deed a = some (.abandon other) → d.fate a e.id e.session = none := by
    intro other made
    rw [fate_of_entry a _ made e]
    simp [CallDeed.fate, abandoned_other sound a other made e pending survives]
  cases a with
  | register other method session =>
      have different : e.id ≠ other := by
        rintro rfl
        obtain ⟨call, held, _, id⟩ := entry_call sound.toOrderly e pending
        exact fresh e.id rfl (id ▸ sound.used call held)
      simp [fate, deed, CallDeed.fate, CallAct.verdict, different]
  | poll other =>
      by_cases free : d.isFree other <;> simp [fate, deed, free, CallDeed.fate, CallAct.verdict]
  | drop other =>
      by_cases free : d.isFree other
      · exact abandoned other (by simp [deed, free])
      · simp [fate, deed, free, CallAct.verdict]
  | move key =>
      cases ending : d.ends (.move key) with
      | none => simp [fate, deed, ending, CallAct.verdict]
      | some w =>
          cases settled : (d.table.outcome? w.call).isSome with
          | true => simp [fate, deed, ending, settled, CallDeed.fate, CallAct.verdict]
          | false => exact abandoned w.call (by simp [deed, ending, settled])
  | abort key =>
      cases ending : d.ends (.abort key) with
      | none => simp [fate, deed, ending, CallAct.verdict]
      | some w => exact abandoned w.call (by simp [deed, ending])
  | _ => rfl

theorem act_follows (sound : Sound used d) (a : CallAct) (fresh : ∀ id, a.registers? = some id → id ∉ used)
    (call : Call) (session : Option SessionId) (outcome : Option Outcome) (follows : Follows d call session outcome) :
    Follows (d.act a) call session (outcome.or (a.verdict call.id session)) := by
  have fated := act_fated sound.toOrderly a call session outcome follows
  refine ⟨fated.below, ?_, fated.entry⟩
  rintro after member rfl
  rw [fated.outcome after member rfl]
  have survives : after.call ∈ (d.act a).table.calls := List.mem_map_of_mem member
  obtain ⟨s, held, same, inFlight⟩ := survivor_entry sound.toOrderly a after.call survives follows.below
  cases outcome with
  | some o => rfl
  | none =>
      obtain ⟨e, pending, ticket, id⟩ := inFlight (follows.outcome s held same)
      have session := (follows.entry e pending ticket).2
      have verdict := fate_is_verdict sound a fresh e pending ⟨after.call, survives, ticket.symm⟩
      rw [id, session] at verdict
      rw [verdict]

end

end CallDesk

end DevTools
