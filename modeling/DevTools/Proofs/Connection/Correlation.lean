import DevTools.Proofs.Connection.Issue

set_option autoImplicit false

namespace DevTools

-- What a caller is to make of a response. An error passes through as it came, and so does a result that
-- its caller does not want read.
def Caller.Answers (caller : Caller) (r : Response) (answer : Except Error Answer) : Prop :=
  match caller with
  | .collecting _ => answer = .ok (.response r)
  | .awaiting use _ =>
      (∀ refused, r.outcome = .error refused → answer = .error (.protocol refused)) ∧
        ∀ payload, r.outcome = .ok payload → use = .payload → answer = .ok (.payload payload)
  | _ => False

namespace Connection

-- The call is in flight.
def awaits (c : Connection) (call : Call) : Prop := ∃ s ∈ c.hub.calls.slots, s.outcome = none ∧ s.call = call

-- The response is the first with the id of the call that was heard while the call was in flight.
def FirstHeard (seen : List (Connection × Act)) (call : Call) (r : Response) : Prop :=
  ∃ before x a after, seen = before ++ (x, a) :: after ∧ x.hears? a = some r ∧ r.id = call.id ∧ x.awaits call ∧
    ∀ y ∈ before, y.1.awaits call → ∀ other, y.1.hears? y.2 = some other → other.id ≠ call.id

structure Correlated (seen : List (Connection × Act)) (c : Connection) (a : Act) : Prop where
  first : ∀ call r, c.hands? a = some (call, .ok r) → FirstHeard seen call r
  answer : ∀ key caller call r, a = .move (.caller key) → c.caller? key = some caller →
    c.hands? a = some (call, .ok r) →
    ∃ answer, (c.act a).finished = c.finished ++ [(key, answer)] ∧ caller.Answers r answer
  settles : ∀ r, c.hears? a = some r → ∀ call, c.awaits call →
    if call.id = r.id then (c.act a).hub.calls.outcome? call = some (.ok r) else (c.act a).awaits call
  once : ∀ r, c.hears? a = some r → ∀ call other, c.awaits call → c.awaits other →
    call.id = r.id → other.id = r.id → call = other
  pending : c.hub.calls.pendingIds = c.hub.calls.unsettled.map (·.call.id)
  orphan : ∀ r, c.hears? a = some r → c.hub.calls.isPending r.id = false →
    (c.act a).hub = { c.hub with stats.orphanedResponses := c.hub.stats.orphanedResponses + 1 }

section
variable {c : Connection} {a : Act}

theorem heard_calls (kept : c.Kept) (r : Response) (heard : c.hears? a = some r) :
    (c.act a).hub.calls = c.hub.calls.perform (.resolve r.id r) := by
  rw [hears_hub kept r heard]
  simp only [Hub.takeResponse, CallTable.resolve, CallTable.perform]
  cases pending : c.hub.calls.isPending r.id with
  | true => rfl
  | false =>
      rw [CallTable.remove_nothing]
      · rfl
      · intro e member
        simp only [CallTable.isPending, List.any_eq_false] at pending
        simpa using pending e member

theorem heard_settles (sound : c.Sound) (r : Response) (heard : c.hears? a = some r) (call : Call)
    (awaited : c.awaits call) :
    if call.id = r.id then (c.act a).hub.calls.outcome? call = some (.ok r) else (c.act a).awaits call := by
  obtain ⟨s, member, isOpen, rfl⟩ := awaited
  obtain ⟨e, pending, ticket, id⟩ := CallTable.matched_slot_entry sound.matched s member isOpen
  have made := heard_calls sound.kept r heard
  have after := CallTable.remove_slot_mem sound.matched (·.id == r.id) (.ok r) s member e pending ticket
  have matched := CallTable.perform_matched sound.matched (.resolve r.id r)
  simp only [id, beq_iff_eq] at after
  split
  · next same =>
      rw [if_pos same] at after
      have settled : (s.settle (.ok r)).outcome = some (.ok r) := by simp [Slot.settle, isOpen]
      rw [made, ← settled]
      exact CallTable.outcome_of_slot matched (s.settle (.ok r)) after
  · next other =>
      rw [if_neg other] at after
      exact ⟨s, by rw [made]; exact after, isOpen, rfl⟩

theorem awaited_unique (sound : c.Sound) (call other : Call) (first : c.awaits call) (second : c.awaits other)
    (same : call.id = other.id) : call = other := by
  obtain ⟨s, member, isOpen, rfl⟩ := first
  obtain ⟨t, listed, unsettled, rfl⟩ := second
  obtain ⟨e, pending, ticket, id⟩ := CallTable.matched_slot_entry sound.matched s member isOpen
  obtain ⟨f, waiting, otherTicket, otherId⟩ := CallTable.matched_slot_entry sound.matched t listed unsettled
  have entry := CallTable.matched_entry_of_id sound.matched e f pending waiting (by rw [id, same, otherId])
  rw [CallTable.matched_slot_unique sound.matched s t member listed (by rw [← ticket, entry, otherTicket])]

theorem response_origin (sound : c.Sound) (a : Act) (after : Slot) (member : after ∈ (c.act a).hub.calls.slots)
    (r : Response)
    (settled : after.outcome = some (.ok r)) :
    (∃ s ∈ c.hub.calls.slots, s.call = after.call ∧ s.outcome = some (.ok r)) ∨
      (c.hears? a = some r ∧ r.id = after.call.id ∧ c.awaits after.call) := by
  obtain ⟨calls, table, causes⟩ := act_table sound.kept a
  have resolves : ∀ d ∈ calls, ∀ e, d.fate e = some (.ok r) → c.hears? a = some r ∧ e.id = r.id := by
    intro d listed e fate
    have cause := causes d listed
    cases d with
    | resolve id response =>
        simp only [CallDeed.fate] at fate
        split at fate
        · next same =>
            cases fate
            exact ⟨cause.1, same.trans cause.2⟩
        · cases fate
    | _ => simp [CallDeed.fate] at fate
  rw [table] at member
  by_cases old : after.call.ticket < c.hub.calls.nextTicket
  · obtain ⟨s, present, same, keeps, fates⟩ := CallTable.performs_slot_old sound.matched calls after member old
    cases had : s.outcome with
    | some o => exact Or.inl ⟨s, present, same, by rw [had, ← keeps o had, settled]⟩
    | none =>
        obtain ⟨e, pending, ticket, id⟩ := CallTable.matched_slot_entry sound.matched s present had
        have fate := fates e pending ticket
        rw [settled] at fate
        obtain ⟨d, listed, gives⟩ := fate_of_deed calls e _ fate.symm
        obtain ⟨heard, own⟩ := resolves d listed e gives
        exact Or.inr ⟨heard, by rw [← own, id, same], s, present, had, same⟩
  · obtain ⟨⟨session, registers⟩, fates⟩ := CallTable.performs_slot_new sound.matched calls after member (by omega)
    obtain ⟨operation, begins⟩ := causes _ registers
    obtain ⟨d, listed, e, gives⟩ := fates _ settled
    have heard := (resolves d listed e gives).1
    rw [begins] at heard
    cases heard

theorem finish_response (w : CallWait) (r : Response) (calls : CallTable)
    (finish : w.finish? c.clock c.hub.calls = some (.ok r, calls)) :
    ∃ s ∈ c.hub.calls.slots, s.call = w.call ∧ s.outcome = some (.ok r) := by
  cases settled : c.hub.calls.outcome? w.call with
  | some o =>
      rw [finish_settled w c.clock c.hub.calls o settled] at finish
      cases finish
      exact CallTable.slot_of_outcome w.call (.ok r) settled
  | none =>
      rw [finish_unsettled w c.clock c.hub.calls settled] at finish
      obtain ⟨fault, _, same⟩ := Option.map_eq_some_iff.mp finish
      cases same

theorem hands_outcome (call : Call) (r : Response) (hands : c.hands? a = some (call, .ok r)) :
    ∃ s ∈ c.hub.calls.slots, s.call = call ∧ s.outcome = some (.ok r) := by
  have waits : ∀ w : CallWait, (w.finish? c.clock c.hub.calls).map (fun settled => (w.call, settled.1)) =
      some (call, .ok r) →
      ∃ s ∈ c.hub.calls.slots, s.call = call ∧ s.outcome = some (.ok r) := by
    intro w ends
    obtain ⟨⟨outcome, calls⟩, finish, same⟩ := Option.map_eq_some_iff.mp ends
    cases same
    exact finish_response w r calls finish
  cases a with
  | poll own =>
      simp only [hands?] at hands
      split at hands
      · obtain ⟨⟨outcome, calls⟩, collected, same⟩ := Option.map_eq_some_iff.mp hands
        cases same
        obtain ⟨settled, has, result⟩ := Option.map_eq_some_iff.mp collected
        cases result
        exact CallTable.slot_of_outcome call (.ok r) has
      · cases hands
  | move activity =>
      cases activity with
      | caller key =>
          simp only [hands?] at hands
          cases found : c.caller? key with
          | none =>
              rw [found] at hands
              cases hands
          | some caller =>
              rw [found] at hands
              cases caller with
              | awaiting use w => exact waits w hands
              | collecting w => exact waits w hands
              | _ => cases hands
      | reader | writer | handler => cases hands
  | _ => cases hands

theorem move_finished (key : Nat) (caller : Caller) (answer : Except Error Answer) (after : Hub)
    (found : c.caller? key = some caller) (moved : caller.move c.clock c.tasksEnded c.hub = (.inr answer, after)) :
    (c.act (.move (.caller key))).finished = c.finished ++ [(key, answer)] := by
  have ends : c.moveCaller key =
      { c.withoutCaller key with hub := after, finished := c.finished ++ [(key, answer)] } := by
    simp only [moveCaller, found, moved]
  rw [act, move, ends, close_unheld_same.2]

theorem hands_answer (key : Nat) (caller : Caller) (call : Call) (r : Response) (found : c.caller? key = some caller)
    (hands : c.hands? (.move (.caller key)) = some (call, .ok r)) :
    ∃ answer, (c.act (.move (.caller key))).finished = c.finished ++ [(key, answer)] ∧ caller.Answers r answer := by
  simp only [hands?, found] at hands
  cases caller with
  | collecting w =>
      obtain ⟨⟨outcome, calls⟩, finish, same⟩ := Option.map_eq_some_iff.mp hands
      cases same
      refine ⟨.ok (.response r), move_finished key (.collecting w) _ { c.hub with calls } found ?_, rfl⟩
      simp only [Caller.move, finish]
      rfl
  | awaiting use w =>
      obtain ⟨⟨outcome, calls⟩, finish, same⟩ := Option.map_eq_some_iff.mp hands
      cases same
      rcases concluded : use.conclude (.ok r) { c.hub with calls } with ⟨answer, after⟩
      refine ⟨answer, move_finished key (.awaiting use w) answer after found ?_, ?_, ?_⟩
      · simp only [Caller.move, finish, concluded]
      · intro refused fails
        simp only [Use.conclude, fails] at concluded
        exact (congrArg Prod.fst concluded).symm
      · rintro payload succeeds rfl
        simp only [Use.conclude, succeeds, Use.apply] at concluded
        exact (congrArg Prod.fst concluded).symm
  | _ => cases hands

theorem run_heard (sound : c.Sound) (acts : List Act) (call : Call) (r : Response) (heard : c.hears? a = some r)
    (same : call.id = r.id) (awaited : c.awaits call) : ¬ ((c.act a).run acts).awaits call := by
  rintro ⟨after, listed, isOpen, rfl⟩
  have next := act_sound sound a
  have settled := heard_settles sound r heard after.call awaited
  rw [if_pos same] at settled
  obtain ⟨s, held, own, has⟩ := CallTable.slot_of_outcome after.call (.ok r) settled
  have old := next.matched.below s held
  rw [own] at old
  obtain ⟨t, present, call, keeps⟩ := run_outcome_old next acts after listed old
  have unique := CallTable.matched_slot_unique next.matched s t held present (by rw [own, call])
  rw [keeps (.ok r) (unique ▸ has)] at isOpen
  cases isOpen

theorem first_heard_append (seen more : List (Connection × Act)) (call : Call) (r : Response)
    (heard : FirstHeard seen call r) : FirstHeard (seen ++ more) call r := by
  obtain ⟨before, x, b, after, rfl, hears, id, awaited, first⟩ := heard
  exact ⟨before, x, b, after ++ more, by simp, hears, id, awaited, first⟩

-- The invariant of a run: whatever response a handle has is the first that was heard for it.
theorem run_first_heard (sound : c.Sound) (none_ : c.hub.calls.slots = []) (acts : List Act) :
    ∀ s ∈ (c.run acts).hub.calls.slots, ∀ r, s.outcome = some (.ok r) → FirstHeard (trace act c acts) s.call r := by
  apply run_induction act (P := fun acts c' => ∀ s ∈ c'.hub.calls.slots, ∀ r, s.outcome = some (.ok r) →
    FirstHeard (trace act c acts) s.call r) c (by simp [none_])
  intro acts a ih s member r settled
  rw [trace_concat]
  rcases response_origin (run_sound sound acts) a s member r settled with ⟨old, held, same, had⟩ | ⟨heard, id, awaited⟩
  · rw [← same]
    exact first_heard_append _ _ _ _ (ih old held r had)
  · refine ⟨trace act c acts, c.run acts, a, [], rfl, heard, id, awaited, ?_⟩
    rintro ⟨y, b⟩ earlier waits other hears own
    obtain ⟨before, after, rfl, rfl⟩ := mem_trace act c acts y b earlier
    apply run_heard (run_sound sound before) after s.call other hears own.symm waits
    have split : (((c.run before).act b).run after) = c.run (before ++ b :: after) :=
      (run_append c before (b :: after)).symm
    rw [split]
    exact awaited

theorem pending_ids (sound : c.Sound) : c.hub.calls.pendingIds = c.hub.calls.unsettled.map (·.call.id) := by
  have ids := congrArg (List.map Prod.snd) sound.matched.entries
  rw [List.map_map, List.map_map] at ids
  exact ids

end

theorem calls_correlate (config : Config) (link : Link) (acts : List Act)
    (bounded : (ofLink config link).allocations acts < UInt64.size - 1) :
    (((ofLink config link).issued acts).map (·.id)).Nodup ∧
    (∀ call ∈ (ofLink config link).issued acts, call.id ≠ 0) ∧
    (∀ call ∈ ((ofLink config link).run acts).hub.calls.calls, call ∈ (ofLink config link).issued acts) ∧
    ∀ a, Correlated (trace act (ofLink config link) acts) ((ofLink config link).run acts) a := by
  have initial := initial_sound config link
  have keyed : (ofLink config link).Keyed := by simp [Keyed, ofLink]
  have one : (ofLink config link).hub.calls.nextId.toNat = 1 := rfl
  obtain ⟨increasing, positive⟩ := issued_ids initial keyed acts (by omega)
  have sound := run_sound initial acts
  refine ⟨?_, ?_, ?_, ?_⟩
  · rw [List.Nodup, List.pairwise_map]
    refine increasing.imp ?_
    intro call other less same
    exact absurd (congrArg UInt64.toNat same) (Nat.ne_of_lt less)
  · intro call member zero
    have bound := positive call member
    rw [zero, one] at bound
    cases bound
  · intro call member
    rcases issued_calls initial keyed acts call member with old | new
    · cases old
    · exact new
  · intro a
    refine ⟨?_, ?_, ?_, ?_, ?_, ?_⟩
    · intro call r hands
      obtain ⟨s, held, rfl, settled⟩ := hands_outcome call r hands
      exact run_first_heard initial rfl acts s held r settled
    · rintro key caller call r rfl found hands
      exact hands_answer key caller call r found hands
    · exact fun r heard call awaited => heard_settles sound r heard call awaited
    · intro r _ call other first second mine yours
      exact awaited_unique sound call other first second (mine.trans yours.symm)
    · exact pending_ids sound
    · intro r heard missing
      rw [hears_hub sound.kept r heard]
      simp only [Hub.takeResponse, CallTable.resolve, missing]
      rfl

def reply (result : String) : Act :=
  .far (.hand (.frame (Utf8.encode ("\x7b\"id\":1,\"result\":" ++ result ++ "\x7d"))))

def exchange : List Act :=
  [.begin (.send ⟨"Page.enable", .empty, none⟩), .begin (.send ⟨"Page.reload", .empty, none⟩), .move .writer,
    .move .writer,
    .move (.caller 0), reply "[7, 8]", .move .reader, reply "9"]

theorem calls_correlate_exchange :
    (ofLink {} inMemory).allocations exchange < UInt64.size - 1 ∧
    (((ofLink {} inMemory).issued exchange).map (·.id)).Nodup ∧
    (∃ r, r.result = some ⟨"[7, 8]"⟩ ∧
      FirstHeard (trace act (ofLink {} inMemory) exchange) ⟨0, 1, "Page.enable"⟩ r) ∧
    (((ofLink {} inMemory).run exchange).act (.move .reader)).hub.stats.orphanedResponses = 1 := by
  have bounded : (ofLink {} inMemory).allocations exchange < UInt64.size - 1 := by decide +kernel
  obtain ⟨distinct, _, _, correlated⟩ := calls_correlate {} inMemory exchange bounded
  refine ⟨bounded, distinct, ?_, ?_⟩
  · have polled : (((ofLink {} inMemory).run exchange).hands? (.poll ⟨0, 1, "Page.enable"⟩)).any (fun (call, outcome) =>
        call == ⟨0, 1, "Page.enable"⟩ && outcome.toOption.any (·.result == some ⟨"[7, 8]"⟩)) = true := by
      decide +kernel
    obtain ⟨⟨call, outcome⟩, hands, same⟩ := (Option.any_eq_true _ _).mp polled
    simp only [Bool.and_eq_true, beq_iff_eq] at same
    obtain ⟨rfl, result⟩ := same
    cases outcome with
    | error fault => simp [Except.toOption] at result
    | ok r => exact ⟨r, by simpa [Except.toOption] using result, (correlated _).first _ r hands⟩
  · have heard : (((ofLink {} inMemory).run exchange).hears? (.move .reader)).any (fun r =>
        !((ofLink {} inMemory).run exchange).hub.calls.isPending r.id) = true := by
      decide +kernel
    obtain ⟨r, hears, missing⟩ := (Option.any_eq_true _ _).mp heard
    rw [(correlated _).orphan r hears (by simpa using missing)]
    decide +kernel

end Connection

end DevTools
