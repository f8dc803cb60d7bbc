import DevTools.Proofs.Connection.Ending
import DevTools.Proofs.Connection.Parting

set_option autoImplicit false

namespace DevTools.Connection

-- The act detaches the session and fails its calls. No other session changes, no stream does, and the only call that
-- comes is the one that tells the remote end.
structure Severs (c : Connection) (a : Act) (session : SessionId) : Prop where
  detached : (c.act a).hub.sessions.isDetached session = true
  others : ∀ other, other ≠ session → (c.act a).hub.sessions.get? other = c.hub.sessions.get? other
  fails : ∀ e ∈ c.hub.calls.pending, e.session = some session → ∃ call ∈ c.hub.calls.calls,
    call.ticket = e.ticket ∧ (c.act a).hub.calls.outcome? call = some (.error (.sessionDetached session))
  settled : ∀ call outcome, c.hub.calls.outcome? call = some outcome → (c.act a).hub.calls.outcome? call = some outcome
  waits : ∀ e ∈ (c.act a).hub.calls.pending, (e ∈ c.hub.calls.pending ∧ e.session ≠ some session) ∨
    (e.session = none ∧ ∃ call, c.issues? a = some call ∧ call.ticket = e.ticket)
  router : (c.act a).hub.router = c.hub.router
  stats : (c.act a).hub.stats = c.hub.stats
  reason : (c.act a).hub.reason = c.hub.reason

-- Neither is the session attached again, nor is any of its calls in flight or has ended otherwise.
structure Severed (c : Connection) (s : Session) (after : Connection) : Prop where
  spent : after.hub.sessions.Spent s.serial
  ended : ∀ e ∈ c.hub.calls.pending, e.session = some s.id →
    (∀ other ∈ after.hub.calls.pending, other.ticket ≠ e.ticket) ∧
    ∀ t ∈ after.hub.calls.slots, t.call.ticket = e.ticket → t.outcome = some (.error (.sessionDetached s.id))

section
variable {c : Connection}

theorem detach_hub (kept : c.Kept) (session : SessionId) (cancel : Option Token) :
    (c.act (.begin (.detach session cancel))).hub = (Caller.beginDetach session cancel c.clock c.hub).2 := by
  refine enter_hub kept (Caller.beginDetach session cancel c.clock c.hub) fun closed => ?_
  rcases begin_detach_hub session cancel c.clock c.hub with only | ⟨asked, posts⟩
  · rw [only, detach_closed, closed]
  · obtain ⟨_, _, made⟩ := Hub.post_hub (c.hub.detachHere session).2 asked
    rw [posts, made]
    exact (detach_closed c.hub session).trans closed

theorem unknown_concludes (kept : c.Kept) (session : SessionId) (cancel : Option Token)
    (missing : c.hub.sessions.get? session = none) :
    c.act (.begin (.detach session cancel)) = c.concluded c.hub (.error (.sessionNotFound session)) := by
  have begun : Caller.beginDetach session cancel c.clock c.hub = (.inr (.error (.sessionNotFound session)), c.hub) := by
    simp only [Caller.beginDetach, missing]
  exact (congrArg (fun begun => (c.enter begun).2) begun).trans (enter_concludes kept c.hub _ id)

theorem detached_concludes (kept : c.Kept) (session : SessionId) (cancel : Option Token)
    (detached : c.hub.sessions.isDetached session = true) :
    c.act (.begin (.detach session cancel)) = c.concluded c.hub (.ok .done) := by
  obtain ⟨s, found, _⟩ := (SessionTable.detached_iff session).mp detached
  have still := Hub.detach_unattached c.hub session (SessionTable.detached_unattached session detached)
  have begun : Caller.beginDetach session cancel c.clock c.hub = (.inr (.ok .done), c.hub) := by
    simp only [Caller.beginDetach, SessionTable.get?, found, still]
  exact (congrArg (fun begun => (c.enter begun).2) begun).trans (enter_concludes kept c.hub _ id)

theorem detach_calls (kept : c.Kept) (session : SessionId) (cancel : Option Token) :
    (c.act (.begin (.detach session cancel))).hub.calls =
      c.hub.calls.performs (c.callDeeds (.begin (.detach session cancel))) := by
  rw [detach_hub kept]
  exact begin_detach_table session cancel

theorem detach_fate (session : SessionId) (cancel : Option Token) (attached : c.hub.sessions.isAttached session = true)
    (e : Entry) :
    fateOf (c.callDeeds (.begin (.detach session cancel))) e =
      if e.session = some session then some (.error (.sessionDetached session))
        else fateOf (c.askDeeds (.detach session cancel)) e := by
  have sweeps : c.hub.sweeps session = [.failSession session] := by simp [Hub.sweeps, attached]
  by_cases scope : e.session = some session <;> simp [callDeeds, sweeps, fateOf, CallDeed.fate, scope]

theorem farewell_scope (session : SessionId) (cancel : Option Token) (id : UInt64) (method : String)
    (scope : Option SessionId)
    (registers : .register id method scope ∈ c.callDeeds (.begin (.detach session cancel))) : scope = none := by
  have swept : .register id method scope ∉ c.hub.sweeps session := by
    simp only [Hub.sweeps]
    split <;> simp
  have asked := (List.mem_append.mp registers).resolve_left swept
  simp only [askDeeds, asks?] at asked
  split at asked
  · next asks =>
      split at asks
      · cases asks
        split at asked
        · cases asked
        · obtain ⟨_, same, _, own⟩ := Hub.register_deed _ _ id method scope asked
          cases same
          exact own
      · cases asks
  · cases asked

theorem detach_rest (kept : c.Kept) (session : SessionId) (cancel : Option Token) :
    (c.act (.begin (.detach session cancel))).hub.router = c.hub.router ∧
      (c.act (.begin (.detach session cancel))).hub.stats = c.hub.stats ∧
      (c.act (.begin (.detach session cancel))).hub.reason = c.hub.reason := by
  obtain ⟨_, _, made⟩ := Hub.detach_hub c.hub session
  rw [detach_hub kept]
  rcases begin_detach_hub session cancel c.clock c.hub with only | ⟨asked, posts⟩
  · rw [only, made]
    exact ⟨rfl, rfl, rfl⟩
  · obtain ⟨_, _, posted⟩ := Hub.post_hub (c.hub.detachHere session).2 asked
    rw [posts, posted, made]
    exact ⟨rfl, rfl, rfl⟩

theorem detach_others (kept : c.Kept) (session : SessionId) (cancel : Option Token)
    (attached : c.hub.sessions.isAttached session = true)
    (other : SessionId) (different : other ≠ session) :
    (c.act (.begin (.detach session cancel))).hub.sessions.get? other = c.hub.sessions.get? other := by
  have marked : (c.hub.sessions.markDetached session).2 = c.hub.sessions.markWhere (·.id == session) := by
    rw [← Hub.detach_sessions, Hub.detach_attached c.hub session attached]
  rw [detach_hub kept, begin_detach_sessions, marked]
  exact SessionTable.mark_get_other session other different

theorem detach_handle (keyed : c.Keyed) (session : SessionId) (cancel : Option Token) (s : Slot)
    (held : s ∈ c.hub.calls.slots) :
    ∃ after ∈ (c.act (.begin (.detach session cancel))).hub.calls.slots, after.call = s.call :=
  List.mem_map.mp (act_keeps keyed (.begin (.detach session cancel)) s.call (fun frees => nomatch frees)
    (List.mem_map_of_mem held))

theorem detach_fails (sound : c.Sound) (keyed : c.Keyed) (session : SessionId) (cancel : Option Token)
    (attached : c.hub.sessions.isAttached session = true) (e : Entry) (pending : e ∈ c.hub.calls.pending)
    (scope : e.session = some session) :
    ∃ call ∈ c.hub.calls.calls, call.ticket = e.ticket ∧
      (c.act (.begin (.detach session cancel))).hub.calls.outcome? call = some (.error (.sessionDetached session)) := by
  obtain ⟨own, held, ticket, _⟩ := CallTable.matched_entry_slot sound.matched e pending
  obtain ⟨after, there, same⟩ := detach_handle keyed session cancel own held
  have fate := detach_fate session cancel attached e
  rw [if_pos scope] at fate
  refine ⟨own.call, List.mem_map_of_mem held, ticket, ?_⟩
  rw [← same, CallTable.outcome_of_slot (act_sound sound _).matched after there]
  exact (run_settled sound _ (detach_calls sound.kept session cancel) e pending _ fate []).2 after there
    (by rw [same, ticket])

theorem detach_settled (sound : c.Sound) (keyed : c.Keyed) (session : SessionId) (cancel : Option Token) (call : Call)
    (outcome : Outcome)
    (settled : c.hub.calls.outcome? call = some outcome) :
    (c.act (.begin (.detach session cancel))).hub.calls.outcome? call = some outcome := by
  obtain ⟨own, held, rfl, had⟩ := CallTable.slot_of_outcome call outcome settled
  obtain ⟨after, there, same⟩ := detach_handle keyed session cancel own held
  obtain ⟨first, present, its, kept⟩ := run_outcome_old sound [.begin (.detach session cancel)] after there
    (by rw [same]; exact sound.matched.below own held)
  have unique := CallTable.matched_slot_unique sound.matched first own present held (by rw [its, same])
  rw [← same, CallTable.outcome_of_slot (act_sound sound _).matched after there]
  exact kept outcome (unique ▸ had)

theorem detach_waits (sound : c.Sound) (keyed : c.Keyed) (session : SessionId) (cancel : Option Token)
    (attached : c.hub.sessions.isAttached session = true) (e : Entry)
    (pending : e ∈ (c.act (.begin (.detach session cancel))).hub.calls.pending) :
    (e ∈ c.hub.calls.pending ∧ e.session ≠ some session) ∨
      (e.session = none ∧ ∃ call, c.issues? (.begin (.detach session cancel)) = some call ∧
        call.ticket = e.ticket) := by
  obtain ⟨own, held, ticket, _⟩ := CallTable.matched_entry_slot (act_sound sound _).matched e pending
  rw [detach_calls sound.kept] at pending
  by_cases old : e.ticket < c.hub.calls.nextTicket
  · left
    obtain ⟨was, stays⟩ := CallTable.performs_pending_old sound.matched _ e pending old
    refine ⟨was, fun scope => ?_⟩
    rw [detach_fate session cancel attached, if_pos scope] at stays
    cases stays
  · right
    obtain ⟨method, registers⟩ := CallTable.performs_pending_new sound.matched _ e pending (Nat.le_of_not_lt old)
    refine ⟨farewell_scope session cancel e.id method e.session registers, own.call, ?_, ticket⟩
    refine ((act_issues sound keyed _).2 own.call (List.mem_map_of_mem held)).resolve_left fun was => ?_
    obtain ⟨before, present, same⟩ := List.mem_map.mp was
    have below := sound.matched.below before present
    rw [same, ticket] at below
    exact old below

theorem detach_severs (sound : c.Sound) (keyed : c.Keyed) (session : SessionId) (cancel : Option Token)
    (attached : c.hub.sessions.isAttached session = true) : c.Severs (.begin (.detach session cancel)) session := by
  obtain ⟨s, found, _⟩ := (SessionTable.attached_iff session).mp attached
  obtain ⟨router, stats, reason⟩ := detach_rest sound.kept session cancel
  refine ⟨?_, detach_others sound.kept session cancel attached, detach_fails sound keyed session cancel attached,
    detach_settled sound keyed session cancel, detach_waits sound keyed session cancel attached, router, stats, reason⟩
  rw [detach_hub sound.kept, begin_detach_sessions]
  exact SessionTable.known_detached session s found

theorem detach_spares (regular : c.Regular) (session : SessionId) (cancel : Option Token)
    (attached : c.hub.sessions.isAttached session = true) (e : Entry) (pending : e ∈ c.hub.calls.pending)
    (other : e.session ≠ some session) : e ∈ (c.act (.begin (.detach session cancel))).hub.calls.pending := by
  rw [detach_calls regular.sound.kept]
  apply CallTable.performs_stays regular.sound.matched _ e pending
  rw [detach_fate session cancel attached, if_neg other]
  exact ask_fate _ e (pending_below regular e pending)

theorem run_spent (sound : c.Sound) (serial : Nat) (spent : c.hub.sessions.Spent serial) (acts : List Act) :
    (c.run acts).hub.sessions.Spent serial := by
  induction acts generalizing c with
  | nil => exact spent
  | cons a acts ih =>
      exact ih (act_sound sound a) (SessionTable.attaches_spent (act_attaches sound.kept a) serial spent)

theorem run_severed (sound : c.Sound) (tidy : c.hub.sessions.Tidy) (s : Session) (member : s ∈ c.hub.sessions.sessions)
    (cancel : Option Token) (attached : c.hub.sessions.isAttached s.id = true) (later : List Act) :
    c.Severed s ((c.act (.begin (.detach s.id cancel))).run later) := by
  constructor
  · apply run_spent (act_sound sound _)
    rw [detach_hub sound.kept, begin_detach_sessions]
    exact SessionTable.detach_spends tidy s member
  · intro e pending scope
    have fate := detach_fate s.id cancel attached e
    rw [if_pos scope] at fate
    exact run_settled sound _ (detach_calls sound.kept s.id cancel) e pending _ fate later

end

-- A session is detached once it is asked for, and only if it is attached. Of all that is there only its calls fail;
-- and that stands, whatever comes of the request to the remote end.
theorem detach_severs_session (config : Config) (link : Link) (before : List Act) (session : SessionId)
    (cancel : Option Token) :
    let c := (ofLink config link).run before
    let a := Act.begin (.detach session cancel)
    (c.hub.sessions.get? session = none → c.act a = c.concluded c.hub (.error (.sessionNotFound session))) ∧
    (c.hub.sessions.isDetached session = true → c.act a = c.concluded c.hub (.ok .done)) ∧
    ∀ s, c.hub.sessions.get? session = some s → s.detached = false →
      c.Severs a session ∧
      ((ofLink config link).allocations before < UInt64.size - 1 →
        ∀ e ∈ c.hub.calls.pending, e.session ≠ some session → e ∈ (c.act a).hub.calls.pending) ∧
      ∀ later, c.Severed s ((c.act a).run later) ∧
        (.purge ∉ later → ((c.act a).run later).hub.sessions.isDetached session = true) := by
  intro c a
  have sound : c.Sound := run_sound (initial_sound config link) before
  have keyed : c.Keyed := run_keyed (initial_keyed config link) before
  refine ⟨unknown_concludes sound.kept session cancel, detached_concludes sound.kept session cancel, ?_⟩
  intro s found isOn
  have attached := (SessionTable.attached_iff session).mpr ⟨s, found, isOn⟩
  have severs := detach_severs sound keyed session cancel attached
  obtain ⟨member, own⟩ := SessionTable.get_mem session s found
  refine ⟨severs, ?_, ?_⟩
  · intro room e pending other
    obtain ⟨regular, _⟩ := run_room config link before [] (by rw [List.append_nil]; exact room)
    exact detach_spares regular session cancel attached e pending other
  · intro later
    have tidy : c.hub.sessions.Tidy := run_tidy (initial_sound config link) SessionTable.empty_tidy before
    refine ⟨?_, fun keeps => run_detached (act_sound sound a) later keeps session severs.detached⟩
    subst own
    exact run_severed sound tidy s member cancel attached later

def scopedAndPlain : List Act := scopedExchange ++ [.begin (.send ⟨"Page.enable", .empty, none⟩)]

-- The session is detached, and detached again; the frame that is to tell the remote end cannot be written.
theorem detach_severs_session_unwritten :
    let c := (ofLink {} inMemory).run scopedAndPlain
    let d := c.act (.begin (.detach ⟨"S"⟩ none))
    let broken := [.far (.script false (some "gone") false), .move .writer, .move .writer]
    (∃ call ∈ c.hub.calls.calls, call.ticket = 1 ∧ d.hub.calls.outcome? call = some (.error (.sessionDetached ⟨"S"⟩))) ∧
    ⟨3, 2, none⟩ ∈ d.hub.calls.pending ∧
    (d.run broken).hub.isClosed = true ∧ (d.run broken).hub.sessions.isDetached ⟨"S"⟩ = true ∧
    d.act (.begin (.detach ⟨"S"⟩ none)) = d.concluded d.hub (.ok .done) ∧
    c.act (.begin (.detach ⟨"U"⟩ none)) = c.concluded c.hub (.error (.sessionNotFound ⟨"U"⟩)) := by
  have found : ((ofLink {} inMemory).run scopedAndPlain).hub.sessions.get? ⟨"S"⟩ = some ⟨0, ⟨"S"⟩, ⟨"T"⟩, false⟩ := by
    decide +kernel
  obtain ⟨_, _, attached⟩ := detach_severs_session {} inMemory scopedAndPlain ⟨"S"⟩ none
  obtain ⟨severs, spares, stays⟩ := attached _ found rfl
  obtain ⟨unknown, _⟩ := detach_severs_session {} inMemory scopedAndPlain ⟨"U"⟩ none
  obtain ⟨_, again, _⟩ := detach_severs_session {} inMemory (scopedAndPlain ++ [.begin (.detach ⟨"S"⟩ none)]) ⟨"S"⟩ none
  rw [run_concat] at again
  refine ⟨?_, ?_, by decide +kernel, ?_, ?_, unknown (by decide +kernel)⟩
  · exact severs.fails ⟨2, 1, some ⟨"S"⟩⟩ (by decide +kernel) rfl
  · exact spares (by decide +kernel) ⟨3, 2, none⟩ (by decide +kernel) (by decide)
  · exact (stays [.far (.script false (some "gone") false), .move .writer, .move .writer]).2 (by simp)
  · exact again severs.detached

end DevTools.Connection
