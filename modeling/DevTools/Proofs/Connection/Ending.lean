import DevTools.Proofs.Connection.Effect

set_option autoImplicit false

namespace DevTools

namespace Connection

structure Regular (c : Connection) : Prop where
  sound : c.Sound
  keyed : c.Keyed
  counted : c.Counted
  holding : c.Holding
  covered : c.hub.Covered

def verdict (c : Connection) (e : Entry) (a : Act) : Option Outcome :=
  if (c.act a).hub.isClosed then some (.error .connectionClosed)
  else match e.session.filter fun session => !(c.act a).hub.sessions.isAttached session with
    | some session => some (.error (.sessionDetached session))
    | none => ((c.hears? a).filter (·.id == e.id)).map .ok

def firstVerdict (c : Connection) (acts : List Act) (e : Entry) : Option Outcome :=
  (trace act c acts).findSome? fun (x, a) => x.verdict e a

theorem initial_regular (config : Config) (link : Link) : (ofLink config link).Regular := by
  refine ⟨initial_sound config link, ?_, initial_counted config link, ⟨?_, ?_⟩, ?_⟩
  · exact fun key member => (List.not_mem_nil member).elim
  · exact fun entry member => (List.not_mem_nil member).elim
  · exact fun one member => (List.not_mem_nil member).elim
  · exact fun e member => (List.not_mem_nil member).elim

section
variable {c : Connection} {a : Act}

theorem act_regular (regular : c.Regular) (a : Act) (acts : List Act)
    (bounded : c.hub.calls.nextId.toNat + c.allocations (a :: acts) < UInt64.size) : (c.act a).Regular :=
  ⟨act_sound regular.sound a, act_keyed regular.keyed a,
    act_counted regular.sound regular.keyed regular.counted a acts bounded,
    act_holding regular.sound regular.keyed regular.holding a, act_covered regular.sound regular.covered a⟩

theorem run_regular (regular : c.Regular) (acts : List Act)
    (bounded : c.hub.calls.nextId.toNat + c.allocations acts < UInt64.size) : (c.run acts).Regular :=
  ⟨run_sound regular.sound acts, run_keyed regular.keyed acts,
    run_counted regular.sound regular.keyed regular.counted acts bounded,
    run_holding regular.sound regular.keyed regular.holding acts, run_covered regular.sound regular.covered acts⟩

theorem run_room (config : Config) (link : Link) (before later : List Act)
    (bounded : (ofLink config link).allocations (before ++ later) < UInt64.size - 1) :
    ((ofLink config link).run before).Regular ∧ ((ofLink config link).run before).hub.calls.nextId.toNat +
      ((ofLink config link).run before).allocations later < UInt64.size := by
  have one : (ofLink config link).hub.calls.nextId.toNat = 1 := rfl
  rw [allocations_append] at bounded
  have initial := initial_regular config link
  refine ⟨run_regular initial before (by omega), ?_⟩
  rw [run_counts_on initial.sound initial.keyed before (by omega)]
  omega

theorem pending_open (sound : c.Sound) (e : Entry) (pending : e ∈ c.hub.calls.pending) : c.hub.isClosed = false := by
  cases closed : c.hub.isClosed with
  | false => rfl
  | true =>
      rw [sound.matched.closed (sound.closed closed)] at pending
      cases pending

theorem pending_below (regular : c.Regular) (e : Entry) (pending : e ∈ c.hub.calls.pending) :
    e.id ≠ c.hub.calls.nextId := by
  obtain ⟨s, held, _, id, _⟩ := CallTable.matched_entry_slot regular.sound.matched e pending
  have bound := regular.counted.below s.call (List.mem_map_of_mem held)
  rw [id] at bound
  exact fun same => absurd bound (same ▸ Nat.lt_irrefl _)

theorem ask_fate (operation : Operation) (e : Entry) (other : e.id ≠ c.hub.calls.nextId) :
    fateOf (c.askDeeds operation) e = none := by
  have posts : ∀ (h : Hub) (asked : Asked), h.calls.nextId = c.hub.calls.nextId →
      fateOf (h.callDeeds (.post asked)) e = none := by
    intro h asked same
    simp only [Hub.callDeeds]
    split
    · rfl
    · rfl
    · simp [fateOf, CallDeed.fate, same, other]
  simp only [askDeeds]
  split
  · next cancel h asked asks =>
      split
      · rfl
      · apply posts
        cases operation with
        | detach session token =>
            simp only [asks?] at asks
            split at asks <;> cases asks
            exact (detach_issues c.hub session).2
        | send | ask | execute | attach =>
            cases asks
            rfl
        | _ => cases asks
  · rfl

theorem sweeps_fate (h : Hub) (session : SessionId) (e : Entry) (spared : e.session ≠ some session) :
    fateOf (h.sweeps session) e = none := by
  simp only [Hub.sweeps]
  split <;> simp [fateOf, CallDeed.fate, spared]

theorem frame_fate (h : Hub) (bytes : Bytes) (e : Entry) (pending : e ∈ h.calls.pending)
    (keeps : ∀ session, e.session = some session → (h.takeFrame bytes).sessions.isAttached session = true) :
    fateOf (h.callDeeds (.frame bytes)) e =
      match Message.decode bytes with
      | .ok (.response r) => if e.id = r.id then some (.ok r) else none
      | _ => none := by
  simp only [Hub.takeFrame] at keeps
  simp only [Hub.callDeeds, Hub.gone?]
  cases decoded : Message.decode bytes with
  | error fault => rfl
  | ok message =>
      cases message with
      | request asked => rfl
      | response r =>
          dsimp only
          split
          · simp [fateOf, CallDeed.fate]
          · next missing =>
              have other : e.id ≠ r.id := by
                simp only [CallTable.isPending, List.any_eq_true, beq_iff_eq, not_exists, not_and] at missing
                exact missing e pending
              simp [fateOf, other]
      | event news =>
          rw [decoded] at keeps
          dsimp only [Hub.takeEvent] at keeps ⊢
          split
          · rfl
          · next passes =>
              simp only [if_neg passes, Hub.dispatch_sessions] at keeps
              cases detaches : news.detaches? with
              | none => rfl
              | some session =>
                  apply sweeps_fate
                  intro scope
                  have still := keeps session scope
                  rcases Hub.apply_hub h news with ⟨none_, _⟩ | ⟨other, tells, made⟩
                  · rw [detaches] at none_
                    cases none_
                  · cases detaches.symm.trans tells
                    rw [made, Hub.detach_sessions, Hub.detach_unattaches] at still
                    cases still

theorem act_effects (holding : c.Holding) (a : Act) : (∃ operation, a = .begin operation) ∨
    (∃ bytes, c.takes? a = some bytes ∧ c.callDeeds a = c.hub.callDeeds (.frame bytes)) ∨
    (c.takes? a = none ∧ (c.callDeeds a = [] ∨
      ∃ call ∈ c.hub.calls.calls, c.callDeeds a = [.collect call] ∨ c.callDeeds a = [.abandon call])) := by
  have held : ∀ key caller, c.caller? key = some caller → ∀ call, caller.call? = some call → call ∈ c.hub.calls.calls :=
    fun key caller found call has => holding.there _ (caller_member key caller found) call has
  have takes : c.callDeeds a = (c.takes? a).elim [] (fun bytes => c.hub.callDeeds (.frame bytes)) →
      (∃ bytes, c.takes? a = some bytes ∧ c.callDeeds a = c.hub.callDeeds (.frame bytes)) ∨
        (c.takes? a = none ∧ (c.callDeeds a = [] ∨
          ∃ call ∈ c.hub.calls.calls, c.callDeeds a = [.collect call] ∨ c.callDeeds a = [.abandon call])) := by
    intro same
    cases taken : c.takes? a with
    | none => exact Or.inr ⟨rfl, Or.inl (by rw [same, taken]; rfl)⟩
    | some bytes => exact Or.inl ⟨bytes, rfl, by rw [same, taken]; rfl⟩
  cases a with
  | begin operation => exact Or.inl ⟨operation, rfl⟩
  | abort key =>
      refine Or.inr (Or.inr ⟨rfl, ?_⟩)
      simp only [callDeeds]
      cases found : c.caller? key with
      | none => exact Or.inl rfl
      | some caller =>
          cases has : caller.call? with
          | none => exact Or.inl (by simp [has])
          | some call => exact Or.inr ⟨call, held key caller found call has, Or.inr (by simp [has])⟩
  | poll call =>
      refine Or.inr (Or.inr ⟨rfl, ?_⟩)
      simp only [callDeeds]
      split
      · next free => exact Or.inr ⟨call, (free_call call free).1, Or.inl rfl⟩
      · exact Or.inl rfl
  | dropCall call =>
      refine Or.inr (Or.inr ⟨rfl, ?_⟩)
      simp only [callDeeds]
      split
      · next free => exact Or.inr ⟨call, (free_call call free).1, Or.inr rfl⟩
      · exact Or.inl rfl
  | move activity =>
      cases activity with
      | caller key =>
          refine Or.inr (Or.inr ⟨rfl, ?_⟩)
          simp only [callDeeds]
          cases found : c.caller? key with
          | none => exact Or.inl rfl
          | some caller =>
              rcases caller.deeds_own c.clock c.hub.calls with nothing | ⟨call, has, ends⟩
              · exact Or.inl nothing
              · exact Or.inr ⟨call, held key caller found call has, ends⟩
      | _ => exact Or.inr (takes rfl)
  | _ => exact Or.inr (takes rfl)

theorem open_fate (regular : c.Regular) (a : Act) (isOpen : (c.act a).hub.isClosed = false) (e : Entry)
    (pending : e ∈ c.hub.calls.pending)
    (keeps : ∀ session, e.session = some session → (c.act a).hub.sessions.isAttached session = true)
    (survives : ∃ call ∈ (c.act a).hub.calls.calls, call.ticket = e.ticket) :
    fateOf (c.callDeeds a) e = ((c.hears? a).filter (·.id == e.id)).map .ok := by
  rcases act_effects regular.holding a with ⟨operation, rfl⟩ | ⟨bytes, taken, deeds⟩ | ⟨nothing, frees⟩
  · have asks := ask_fate operation e (pending_below regular e pending)
    change _ = none
    cases operation with
    | detach session cancel =>
        have hub : (c.act (.begin (.detach session cancel))).hub =
            (Caller.beginDetach session cancel c.clock c.hub).2 :=
          enter_open_hub _ isOpen
        have spared : e.session ≠ some session := by
          intro scope
          have still := keeps session scope
          rw [hub, begin_detach_sessions, Hub.detach_unattaches] at still
          cases still
        simp only [callDeeds, fateOf, List.findSome?_append]
        exact (congrArg (Option.or · _) (sweeps_fate c.hub session e spared)).trans asks
    | _ => exact asks
  · have hub := takes_hub regular.sound.kept bytes taken
    rw [hub] at keeps
    rw [deeds, frame_fate c.hub bytes e pending keeps, hears_taken, taken, Option.bind_some]
    cases Message.decode bytes with
    | error fault => rfl
    | ok message =>
        cases message with
        | response r => by_cases own : r.id = e.id <;> simp [own, Option.filter, Ne.symm]
        | _ => rfl
  · have deaf : c.hears? a = none := by rw [hears_taken, nothing]; rfl
    rw [deaf]
    rcases frees with none_ | ⟨call, held, collects | abandons⟩
    · rw [none_]
      rfl
    · rw [collects]
      rfl
    · have table := act_open_table a isOpen
      rw [abandons] at table ⊢
      have other : e.id ≠ call.id := by
        intro same
        obtain ⟨s, present, ticket, id, _⟩ := CallTable.matched_entry_slot regular.sound.matched e pending
        have own := regular.counted.apart s.call (List.mem_map_of_mem present) call held (id.trans same)
        obtain ⟨after, survivor, its⟩ := survives
        rw [table, CallTable.performs, List.foldl_cons, List.foldl_nil, CallTable.perform_calls] at survivor
        simp only [CallTable.issued, List.append_nil, CallTable.released] at survivor
        obtain ⟨kept, stays⟩ := List.mem_filter.mp survivor
        obtain ⟨t, there, rfl⟩ := List.mem_map.mp kept
        have unique := CallTable.matched_slot_unique regular.sound.matched s t present there (ticket.trans its.symm)
        rw [← own, unique] at stays
        simp at stays
      simp [fateOf, CallDeed.fate, other]

theorem act_verdict (regular : c.Regular) (a : Act) (e : Entry) (pending : e ∈ c.hub.calls.pending) (after : Slot)
    (member : after ∈ (c.act a).hub.calls.slots) (own : after.call.ticket = e.ticket) :
    after.outcome = c.verdict e a := by
  have sound := regular.sound
  obtain ⟨s, held, ticket, _⟩ := CallTable.matched_entry_slot sound.matched e pending
  have old : after.call.ticket < c.hub.calls.nextTicket := by
    rw [own, ← ticket]
    exact sound.matched.below s held
  have made : ∀ calls : List CallDeed, (c.act a).hub.calls = c.hub.calls.performs calls →
      after.outcome = fateOf calls e := by
    intro calls table
    rw [table] at member
    obtain ⟨first, _, same, _, fates⟩ := CallTable.performs_slot_old sound.matched calls after member old
    exact fates e pending (by rw [same, own])
  cases closed : (c.act a).hub.isClosed with
  | true =>
      obtain ⟨calls, table, fates⟩ := closing_fate sound a (pending_open sound e pending) closed
      rw [made calls table, fates e pending, verdict, closed]
      rfl
  | false =>
      rw [verdict, closed, if_neg Bool.false_ne_true]
      split
      · next session lost =>
          obtain ⟨scope, gone⟩ := Option.filter_eq_some_iff.mp lost
          obtain ⟨calls, table, fate⟩ := lost_fate sound regular.covered a e pending session scope (by simpa using gone)
          rw [made calls table, fate, closed]
          rfl
      · next spared =>
          rw [made _ (act_open_table a closed)]
          apply open_fate regular a closed e pending
          · intro session scope
            simpa [scope] using spared
          · exact ⟨after.call, List.mem_map_of_mem member, own⟩

theorem first_verdict_cons (a : Act) (acts : List Act) (e : Entry) :
    c.firstVerdict (a :: acts) e = (c.verdict e a).or ((c.act a).firstVerdict acts e) := by
  cases ends : c.verdict e a <;> simp [firstVerdict, trace, ends]

-- A handle that outlives a run has what the first act that ended its call has made of it. Its call is still in
-- flight if there was none.
theorem run_verdict (regular : c.Regular) (acts : List Act)
    (bounded : c.hub.calls.nextId.toNat + c.allocations acts < UInt64.size) (e : Entry)
    (pending : e ∈ c.hub.calls.pending)
    (after : Slot) (member : after ∈ (c.run acts).hub.calls.slots) (own : after.call.ticket = e.ticket) :
    after.outcome = c.firstVerdict acts e := by
  induction acts generalizing c with
  | nil =>
      obtain ⟨s, held, ticket, _, unsettled⟩ := CallTable.matched_entry_slot regular.sound.matched e pending
      rw [CallTable.matched_slot_unique regular.sound.matched after s member held (own.trans ticket.symm), unsettled]
      rfl
  | cons a acts ih =>
      have next := act_regular regular a acts bounded
      have rest := (act_counts_on regular.sound regular.keyed a acts bounded).rest
      have later := act_ticket_le regular.sound.kept a
      obtain ⟨s, held, ticket, _⟩ := CallTable.matched_entry_slot regular.sound.matched e pending
      have old := regular.sound.matched.below s held
      obtain ⟨t, there, same, keeps⟩ := run_outcome_old next.sound acts after member (by omega)
      have ends := act_verdict regular a e pending t there (by rw [same, own])
      rw [first_verdict_cons]
      cases verdict : c.verdict e a with
      | some outcome => exact keeps outcome (ends.trans verdict)
      | none =>
          obtain ⟨still, inFlight, its, _⟩ :=
            CallTable.matched_slot_entry next.sound.matched t there (ends.trans verdict)
          have before := run_pending_old regular.sound [a] still inFlight (by rw [its, same]; omega)
          have entry :=
            CallTable.matched_entry_unique regular.sound.matched still e before pending (by rw [its, same, own])
          exact ih next (by rw [rest]; exact bounded) (entry ▸ inFlight) member

end

end Connection

end DevTools
