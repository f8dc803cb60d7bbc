import DevTools.Proofs.Connection.Ending

set_option autoImplicit false

namespace DevTools

def Caller.Gets (caller : Caller) (outcome : Outcome) (answer : Except Error Answer) : Prop :=
  match outcome with
  | .error fault => answer = .error fault
  | .ok r => caller.Answers r answer

namespace Connection

def looks? (c : Connection) (a : Act) : Option CallWait :=
  match a with
  | .poll call => if c.isFreeCall call then some ⟨call, none, none⟩ else none
  | .move (.caller key) =>
      match c.caller? key with
      | some (.awaiting _ w) | some (.collecting w) => some w
      | _ => none
  | _ => none

-- The wait ends with what has become of its call or, if nothing has yet, with the reason for which it gives up,
-- and lets go of the handle; otherwise it goes on.
structure Looks (c : Connection) (a : Act) (w : CallWait) (settled : Option Outcome) : Prop where
  hands : c.hands? a = (settled.or ((w.fault? c.clock).map .error)).map fun outcome => (w.call, outcome)
  answers : ∀ key outcome, a = .move (.caller key) → c.hands? a = some (w.call, outcome) →
    ∃ caller answer, c.caller? key = some caller ∧ (c.act a).finished = c.finished ++ [(key, answer)] ∧
      caller.Gets outcome answer
  lets_go : c.hands? a ≠ none → w.call ∉ (c.act a).hub.calls.calls
  goes_on : c.hands? a = none → (c.act a).hub = c.hub ∧ Stands (c.act a) c.callers c.finished c.nextCaller

-- Nobody waits for the id: a response with it counts as an orphan, and that is all that it does.
structure Unregistered (c : Connection) (id : UInt64) : Prop where
  missing : c.hub.calls.isPending id = false
  orphans : ∀ a r, c.hears? a = some r → r.id = id →
    (c.act a).hub = { c.hub with stats.orphanedResponses := c.hub.stats.orphanedResponses + 1 }

section
variable {c : Connection} {a : Act}

theorem gone_unregistered (sound : c.Sound) (id : UInt64) (gone : c.Gone id) : c.Unregistered id := by
  have missing := gone_not_pending sound id gone
  refine ⟨missing, ?_⟩
  rintro a r heard rfl
  exact hears_orphan sound.kept a r heard missing

theorem looks_caller (w : CallWait) (key : Nat) (looks : c.looks? (.move (.caller key)) = some w) :
    ∃ caller, c.caller? key = some caller ∧ (caller = .collecting w ∨ ∃ use, caller = .awaiting use w) := by
  simp only [looks?] at looks
  split at looks <;> cases looks
  · next use found => exact ⟨_, found, Or.inr ⟨use, rfl⟩⟩
  · next found => exact ⟨_, found, Or.inl rfl⟩

theorem looks_hands (w : CallWait) (looks : c.looks? a = some w) :
    c.hands? a = (w.finish? c.clock c.hub.calls).map fun settled => (w.call, settled.1) := by
  cases a with
  | poll call =>
      simp only [looks?] at looks
      split at looks <;> cases looks
      next free =>
        simp only [hands?, free, if_true, CallWait.finish?]
        cases c.hub.calls.collect call <;> rfl
  | move activity =>
      cases activity with
      | caller key =>
          obtain ⟨caller, found, rfl | ⟨use, rfl⟩⟩ := looks_caller w key looks <;> simp only [hands?, found]
      | reader | writer | handler => cases looks
  | _ => cases looks

theorem finish_hands (w : CallWait) (clock : Clock) (t : CallTable) :
    (w.finish? clock t).map (·.1) = (t.outcome? w.call).or ((w.fault? clock).map .error) := by
  cases settled : t.outcome? w.call with
  | some o =>
      rw [finish_settled w clock t o settled]
      rfl
  | none =>
      rw [finish_unsettled w clock t settled, Option.map_map]
      rfl

theorem looks_held (holding : c.Holding) (w : CallWait) (looks : c.looks? a = some w) : w.call ∈ c.hub.calls.calls := by
  cases a with
  | poll call =>
      simp only [looks?] at looks
      split at looks <;> cases looks
      next free => exact (free_call call free).1
  | move activity =>
      cases activity with
      | caller key =>
          simp only [looks?] at looks
          split at looks <;> cases looks <;> next found => exact holding.there _ (caller_member key _ found) w.call rfl
      | reader | writer | handler => cases looks
  | _ => cases looks

theorem looks_calls (w : CallWait) (looks : c.looks? a = some w) : (c.act a).hub.calls.calls =
    (c.hub.calls.performs ((Caller.collecting w).callDeeds c.clock c.hub.calls)).calls := by
  cases a with
  | poll call =>
      simp only [looks?] at looks
      split at looks <;> cases looks
      next free =>
        have same := finish_table ⟨call, none, none⟩ c.clock c.hub.calls
        rw [← same]
        simp only [act, free, if_true, CallWait.finish?]
        cases c.hub.calls.collect call <;> rfl
  | move activity =>
      cases activity with
      | caller key =>
          refine close_unheld_calls.1.trans (congrArg CallTable.calls ?_)
          rw [caller_table key, callDeeds]
          simp only [looks?] at looks
          split at looks <;> cases looks <;> next found => rw [found]; rfl
      | reader | writer | handler => cases looks
  | _ => cases looks

theorem looks_lets_go (w : CallWait) (looks : c.looks? a = some w) (hands : c.hands? a ≠ none) :
    w.call ∉ (c.act a).hub.calls.calls := by
  rw [looks_calls w looks]
  rw [looks_hands w looks, ne_eq, Option.map_eq_none_iff] at hands
  cases settled : c.hub.calls.outcome? w.call with
  | some o => simp [Caller.callDeeds, settled, CallTable.performs, CallTable.perform_calls, CallTable.released,
                CallTable.issued]
  | none =>
      rw [finish_unsettled w c.clock c.hub.calls settled, Option.map_eq_none_iff] at hands
      have gaveUp := Option.isSome_iff_ne_none.mpr hands
      simp [Caller.callDeeds, settled, gaveUp, CallTable.performs, CallTable.perform_calls, CallTable.released,
        CallTable.issued]

theorem looks_answers (w : CallWait) (key : Nat) (outcome : Outcome) (looks : c.looks? (.move (.caller key)) = some w)
    (hands : c.hands? (.move (.caller key)) = some (w.call, outcome)) :
    ∃ caller answer, c.caller? key = some caller ∧ (c.act (.move (.caller key))).finished = c.finished ++
      [(key, answer)] ∧
      caller.Gets outcome answer := by
  obtain ⟨caller, found, kind⟩ := looks_caller w key looks
  cases outcome with
  | ok r =>
      obtain ⟨answer, finished, answers⟩ := hands_answer key caller w.call r found hands
      exact ⟨caller, answer, found, finished, answers⟩
  | error fault =>
      have finish := looks_hands w looks
      rw [hands, eq_comm] at finish
      obtain ⟨⟨ended, calls⟩, finish, same⟩ := Option.map_eq_some_iff.mp finish
      cases same
      have moved : caller.move c.clock c.tasksEnded c.hub = (.inr (.error fault), { c.hub with calls }) := by
        rcases kind with rfl | ⟨use, rfl⟩ <;> simp only [Caller.move, finish] <;> rfl
      exact ⟨caller, .error fault, found, move_finished key caller _ _ found moved, rfl⟩

theorem looks_on (kept : c.Kept) (distinct : c.Distinct) (w : CallWait) (looks : c.looks? a = some w)
    (hands : c.hands? a = none) :
    (c.act a).hub = c.hub ∧ Stands (c.act a) c.callers c.finished c.nextCaller := by
  rw [looks_hands w looks, Option.map_eq_none_iff] at hands
  cases a with
  | poll call =>
      simp only [looks?] at looks
      split at looks <;> cases looks
      next free =>
        have nothing : c.hub.calls.collect call = none := by
          cases collected : c.hub.calls.collect call with
          | none => rfl
          | some result => simp [CallWait.finish?, collected] at hands
        have still : c.act (.poll call) = c := by simp only [act, free, if_true, nothing]
        rw [still]
        exact ⟨rfl, rfl, rfl, rfl⟩
  | move activity =>
      cases activity with
      | caller key =>
          obtain ⟨caller, found, kind⟩ := looks_caller w key looks
          have moved : caller.move c.clock c.tasksEnded c.hub = (.inl caller, c.hub) := by
            rcases kind with rfl | ⟨use, rfl⟩ <;> simp only [Caller.move, hands]
          have callers : (c.callers.map fun old => if old.1 == key then (key, caller) else old) = c.callers := by
            refine (List.map_congr_left ?_).trans (List.map_id _)
            rintro ⟨own, held⟩ member
            by_cases mine : own = key
            · subst mine
              have same := found.symm.trans (caller_found distinct own held member)
              cases same
              simp
            · simp [mine]
          have still : c.moveCaller key = c := by
            simp only [moveCaller, found, moved, callers]
          have same : c.act (.move (.caller key)) = c.closeUnheld := congrArg closeUnheld still
          rw [same]
          exact ⟨close_unheld_hub kept c rfl id, stands_unheld c⟩
      | reader | writer | handler => cases looks
  | _ => cases looks

theorem frees_trigger (call : Call) (frees : c.frees? a = some call) (reason : CloseReason)
    (trigger : c.trigger? a = some reason) :
    (c.act a).isHeld = false := by
  have unheld : (if c.isHeld && !(c.act a).isHeld then some CloseReason.closedHere else none) = some reason →
      (c.act a).isHeld = false := by
    intro same
    split at same
    · next lost =>
        rw [Bool.and_eq_true, Bool.not_eq_true'] at lost
        exact lost.2
    · cases same
  cases a with
  | move activity =>
      cases activity with
      | caller key => exact unheld trigger
      | reader | writer | handler => cases frees
  | poll | dropCall | abort => exact unheld trigger
  | _ => cases frees

-- Calls other than that of the handle are not touched, unless the connection goes with the last who held it.
theorem let_go_spares (regular : c.Regular) (call : Call) (held : call ∈ c.hub.calls.calls)
    (left : call ∉ (c.act a).hub.calls.calls) (holds : c.isHeld = true → (c.act a).isHeld = true) (e : Entry)
    (pending : e ∈ c.hub.calls.pending) (other : e.ticket ≠ call.ticket) : e ∈ (c.act a).hub.calls.pending := by
  have wasOpen := pending_open regular.sound e pending
  have frees : c.frees? a = some call := by
    by_contra keeps
    exact left (act_keeps regular.keyed a call keeps held)
  have isOpen : (c.act a).hub.isClosed = false := by
    cases closed : (c.act a).hub.isClosed with
    | false => rfl
    | true =>
        obtain ⟨reason, trigger⟩ := closing_trigger regular.sound.kept a wasOpen closed
        have lost := frees_trigger call frees reason trigger
        rw [holds (held_of_open regular.sound.kept wasOpen)] at lost
        cases lost
  have table := act_open_table a isOpen
  rw [table]
  apply CallTable.performs_stays regular.sound.matched _ e pending
  rcases act_effects regular.holding a with ⟨operation, rfl⟩ | ⟨bytes, taken, _⟩
    | ⟨_, nothing | ⟨own, there, collects | abandons⟩⟩
  · cases frees
  · obtain ⟨rfl, _⟩ := (takes_reader bytes).mp taken
    cases frees
  · rw [nothing]
    rfl
  · rw [collects]
    rfl
  · rw [table, abandons] at left
    have same : own = call := by
      by_contra different
      exact left (release_keeps c.hub.calls own call different held).2
    have apart : e.id ≠ own.id := by
      intro clash
      obtain ⟨s, present, ticket, id, _⟩ := CallTable.matched_entry_slot regular.sound.matched e pending
      have mine := regular.counted.apart s.call (List.mem_map_of_mem present) own there (id.trans clash)
      exact other (by rw [← ticket, mine, same])
    rw [abandons]
    simp [fateOf, CallDeed.fate, apart]

theorem handle_id (sound : c.Sound) (later : List Act) (e : Entry) (pending : e ∈ c.hub.calls.pending) (call : Call)
    (held : call ∈ (c.run later).hub.calls.calls) (own : call.ticket = e.ticket) : call.id = e.id := by
  obtain ⟨s, present, ticket, id, _⟩ := CallTable.matched_entry_slot sound.matched e pending
  obtain ⟨t, member, rfl⟩ := List.mem_map.mp held
  have old := sound.matched.below s present
  obtain ⟨first, there, same, _⟩ := run_outcome_old sound later t member (by omega)
  rw [← same, CallTable.matched_slot_unique sound.matched first s there present (by rw [same, own, ticket]), id]

theorem initial_distinct (config : Config) (link : Link) : (ofLink config link).Distinct := List.nodup_nil

end

-- A call in flight, whatever comes after. A look at it hands out how the call has ended by then, and nothing else
-- as long as it has; only a look at a call that is still in flight asks for the token and the time. With the
-- handle goes the call, and that of nobody else, and no response with its id has a taker any more.
theorem waits_end_with_calls (config : Config) (link : Link) (before later : List Act)
    (bounded : (ofLink config link).allocations (before ++ later) < UInt64.size - 1) (e : Entry)
    (pending : e ∈ ((ofLink config link).run before).hub.calls.pending) :
    let c := (ofLink config link).run before
    let d := c.run later
    (∀ a w, d.looks? a = some w → w.call.ticket = e.ticket → d.Looks a w (c.firstVerdict later e)) ∧
    (∀ a call, call ∈ d.hub.calls.calls → call.ticket = e.ticket → call ∉ (d.act a).hub.calls.calls →
      ((d.isHeld = true → (d.act a).isHeld = true) →
        ∀ other ∈ d.hub.calls.pending, other.ticket ≠ e.ticket → other ∈ (d.act a).hub.calls.pending) ∧
      ∀ more, (ofLink config link).allocations (before ++ later ++ a :: more) < UInt64.size - 1 →
        ((d.act a).run more).Unregistered e.id) ∧
    ∀ operation cancel asked, operation.asks? = some (cancel, asked) → d.clock.hasFired cancel = true →
      d.Rejects operation (· = .cancelled) := by
  intro c d
  obtain ⟨regular, room⟩ := run_room config link before later bounded
  have regularNow : d.Regular := run_regular regular later room
  have sound := regularNow.sound
  have distinct : d.Distinct := by
    have keyed := initial_regular config link |>.keyed
    exact run_distinct regular.keyed (run_distinct keyed (initial_distinct config link) before) later
  refine ⟨?_, ?_, ?_⟩
  · intro a w looks own
    have held := looks_held regularNow.holding w looks
    have settled : d.hub.calls.outcome? w.call = c.firstVerdict later e := by
      obtain ⟨s, member, same⟩ := List.mem_map.mp held
      rw [← same, CallTable.outcome_of_slot sound.matched s member]
      exact run_verdict regular later room e pending s member (by rw [same, own])
    refine ⟨?_, ?_, looks_lets_go w looks, looks_on sound.kept distinct w looks⟩
    · have ended := finish_hands w d.clock d.hub.calls
      rw [settled] at ended
      rw [looks_hands w looks, ← ended, Option.map_map]
      rfl
    · rintro key outcome rfl hands
      exact looks_answers w key outcome looks hands
  · intro a call held own left
    constructor
    · intro holds other inFlight apart
      exact let_go_spares regularNow call held left holds other inFlight (by rw [own]; exact apart)
    · intro more enough
      obtain ⟨_, left_⟩ := run_room config link (before ++ later) (a :: more) enough
      rw [run_append] at left_
      have gone := let_go sound regularNow.keyed regularNow.counted a more left_ call held left
      rw [handle_id regular.sound later e pending call held own] at gone
      have rest := (act_counts_on sound regularNow.keyed a more left_).rest
      have next := act_sound sound a
      exact gone_unregistered (run_sound next more) e.id
        (run_gone next (act_keyed regularNow.keyed a) e.id gone more (by rw [rest]; exact left_))
  · exact fun operation cancel asked asks fired => fired_rejects sound.kept operation cancel asked asks fired

def twoCalls : List Act :=
  [.begin (.send ⟨"Page.enable", .empty, none⟩), .begin (.send ⟨"Page.reload", .empty, none⟩), .move .writer,
    .move .writer,
    .move .writer, .move .writer, .move (.caller 0), .move (.caller 1)]

def stoppable : Act := .begin (.waitForCall ⟨⟨0, 1, "Page.enable"⟩, some ⟨"stop"⟩, none⟩)

-- The token fires, and the response comes too late; or the response comes first, and the token does not count.
theorem waits_end_with_calls_stopped :
    let c := (ofLink {} inMemory).run twoCalls
    let stopped := c.run [stoppable, .fire ⟨"stop"⟩]
    let answered := c.run [stoppable, reply "5", .move .reader, .fire ⟨"stop"⟩]
    stopped.hands? (.move (.caller 2)) = some (⟨0, 1, "Page.enable"⟩, .error .cancelled) ∧
    ⟨2, 1, none⟩ ∈ (stopped.act (.move (.caller 2))).hub.calls.pending ∧
    (((stopped.act (.move (.caller 2))).run [reply "5"]).act (.move .reader)).hub.stats.orphanedResponses = 1 ∧
    (∃ r, answered.hands? (.move (.caller 2)) = some (⟨0, 1, "Page.enable"⟩, .ok r)) ∧
    stopped.Rejects (.ask .payload (some ⟨"stop"⟩) ⟨"Page.reload", .empty, none⟩) (· = .cancelled) := by
  intro c stopped answered
  have pending : ⟨1, 0, none⟩ ∈ c.hub.calls.pending := by decide +kernel
  obtain ⟨looks, lets_go, rejects⟩ := waits_end_with_calls {} inMemory twoCalls [stoppable, .fire ⟨"stop"⟩]
    (by decide +kernel) ⟨1, 0, none⟩ pending
  obtain ⟨looksToo, _⟩ := waits_end_with_calls {} inMemory twoCalls [stoppable, reply "5", .move .reader,
    .fire ⟨"stop"⟩]
    (by decide +kernel) ⟨1, 0, none⟩ pending
  obtain ⟨spares, unregistered⟩ :=
    lets_go (.move (.caller 2)) ⟨0, 1, "Page.enable"⟩ (by decide +kernel) rfl (by decide +kernel)
  refine ⟨?_, ?_, ?_, ?_, ?_⟩
  · have inFlight : c.firstVerdict [stoppable, .fire ⟨"stop"⟩] ⟨1, 0, none⟩ = none :=
      Option.isNone_iff_eq_none.mp (by decide +kernel)
    have fired : stopped.clock.hasFired (some ⟨"stop"⟩) = true := by decide +kernel
    have hands := (looks (.move (.caller 2)) ⟨⟨0, 1, "Page.enable"⟩, some ⟨"stop"⟩, none⟩ (by decide +kernel) rfl).hands
    rw [inFlight, CallWait.fault?, if_pos fired] at hands
    exact hands
  · exact spares (fun _ => by decide +kernel) ⟨2, 1, none⟩ (by decide +kernel) (by decide)
  · have heard : (((stopped.act (.move (.caller 2))).run [reply "5"]).hears? (.move .reader)).any
      (·.id == 1) = true := by
      decide +kernel
    obtain ⟨r, hears, id⟩ := (Option.any_eq_true _ _).mp heard
    rw [(unregistered [reply "5"] (by decide +kernel)).orphans _ r hears (by simpa using id)]
    decide +kernel
  · have ended : (c.firstVerdict [stoppable, reply "5", .move .reader, .fire ⟨"stop"⟩] ⟨1, 0, none⟩).any
      (·.toBool) = true := by
      decide +kernel
    obtain ⟨outcome, verdict, good⟩ := (Option.any_eq_true _ _).mp ended
    have hands :=
      (looksToo (.move (.caller 2)) ⟨⟨0, 1, "Page.enable"⟩, some ⟨"stop"⟩, none⟩ (by decide +kernel) rfl).hands
    rw [verdict] at hands
    cases outcome with
    | ok r => exact ⟨r, hands⟩
    | error fault => cases good
  · exact rejects _ (some ⟨"stop"⟩) ⟨"Page.reload", .empty, none⟩ rfl (by decide +kernel)

end Connection

end DevTools
