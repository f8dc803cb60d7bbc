import DevTools.Proofs.Connection.Holding
import DevTools.Proofs.Connection.Shutdown
import DevTools.Proofs.Connection.Verdict

set_option autoImplicit false

namespace DevTools

theorem closed_posts (h : Hub) (closed : h.isClosed = true) (asked : Asked) :
    h.post asked = (.error .connectionClosed, h) := by
  have refused : h.refusal? asked = some .connectionClosed := by simp only [Hub.refusal?, closed, if_true]
  simp only [Hub.post_eq, refused]

namespace Connection

def Resting (c : Connection) : Prop :=
  c.readerReady = false ∧ c.writerReady = false ∧ ∀ entry ∈ c.callers, c.callerReady entry.1 = false

instance (c : Connection) : Decidable c.Resting := inferInstanceAs (Decidable (_ ∧ _ ∧ _))

-- Once the writer has ended the connection is closed, and no frame is queued any more.
def Drained (c : Connection) : Prop := c.writerEnded = true → c.hub.isClosed = true ∧ c.hub.outbound = []

section
variable {c : Connection} {a : Act}

theorem closed_issues (keyed : c.Keyed) (closed : c.hub.isClosed = true) (operation : Operation) :
    c.issues? (.begin operation) = none := by
  cases opens : c.opening? operation with
  | none => rw [issues?, begin_nothing operation opens, fresh_caller keyed]; rfl
  | some begun =>
      rw [opening_issues keyed operation begun opens]
      cases operation with
      | ask | execute | attach | detach =>
          obtain ⟨progress, hub⟩ := begun
          cases request_opens _ rfl _ opens with
          | ended => rfl
          | asks _ _ call asked h same posts =>
              rw [closed_posts h (same.trans closed)] at posts
              cases posts
      | send asked =>
          cases opens
          simp only [Caller.beginSend, closed_posts c.hub closed]
          rfl
      | waitForTarget target milliseconds =>
          cases opens
          simp only [Caller.beginSeek, closed, if_true]
          rfl
      | waitForCall | waitForNext =>
          simp only [opening?] at opens
          split at opens <;> cases opens
          rfl
      | waitForEvent | close | waitUntilClosed =>
          cases opens
          rfl

theorem writer_drained (drained : c.Drained) : c.moveWriter.Drained := by
  have ends : ∀ before : Connection, before.hub.isClosed = true → before.endWriter.Drained := by
    intro before closed _
    rw [end_writer_hub.1]
    exact ⟨closed, rfl⟩
  have fails : ∀ (before : Connection) call fault, (before.failWrite call fault).Drained := by
    intro before call fault _
    rw [(fail_write_hub call fault).1]
    exact ⟨Hub.performs_shutdown before.hub [.shutdown _] _ List.mem_cons_self, rfl⟩
  simp only [moveWriter]
  split
  · exact drained
  · next idle =>
      split
      · next closed => exact ends c closed
      · split
        · exact drained
        · intro ended
          cases ended
  · split
    · intro ended
      cases ended
    · exact fails _ _ _
    · split
      · exact fails _ _ _
      · intro ended
        cases ended

theorem act_drained (sound : c.Sound) (keyed : c.Keyed) (drained : c.Drained) (a : Act) : (c.act a).Drained := by
  by_cases writes : a = .move .writer
  · subst writes
    intro ended
    change c.moveWriter.closeUnheld.writerEnded = true at ended
    rw [writerEnded, unheld_writer] at ended
    obtain ⟨closed, outbound⟩ := writer_drained drained ended
    refine ⟨?_, (unheld_outbound c.moveWriter).trans outbound⟩
    change c.moveWriter.closeUnheld.hub.isClosed = true
    simp only [closeUnheld]
    split
    · exact closed
    · exact Hub.performs_is_closed c.moveWriter.hub [.shutdown .closedHere] closed
  · intro ended
    have passes := act_passes keyed a writes
    rw [writerEnded, passes.writer] at ended
    obtain ⟨closed, outbound⟩ := drained ended
    have nothing : c.issues? a = none := by
      cases a with
      | begin operation => exact closed_issues keyed closed operation
      | _ => rfl
    have calls := passes.queued.calls
    rw [nothing] at calls
    refine ⟨does_closed (act_deeds sound.kept a) closed, ?_⟩
    rw [passes.queued.outbound, outbound, List.map_eq_nil_iff.mp calls, List.append_nil]

theorem run_drained (sound : c.Sound) (keyed : c.Keyed) (drained : c.Drained) (acts : List Act) :
    (c.run acts).Drained := by
  induction acts generalizing c with
  | nil => exact drained
  | cons a acts ih => exact ih (act_sound sound a) (act_keyed keyed a) (act_drained sound keyed drained a)

theorem resting_ended (closed : c.hub.isClosed = true) (resting : c.Resting) :
    c.readerEnded = true ∧ c.writerEnded = true := by
  obtain ⟨reader, writer, _⟩ := resting
  constructor
  · simpa [readerReady, closed] using reader
  · simp only [writerReady, closed, Bool.true_or] at writer
    split at writer
    · cases writer
    · cases writer
    · next ended => simp only [writerEnded, ended]

theorem closed_settled (sound : c.Sound) (closed : c.hub.isClosed = true) (call : Call)
    (member : call ∈ c.hub.calls.calls) :
    (c.hub.calls.outcome? call).isSome = true := by
  obtain ⟨s, held, rfl⟩ := List.mem_map.mp member
  rw [CallTable.outcome_of_slot sound.matched s held]
  cases settled : s.outcome with
  | some outcome => rfl
  | none =>
      obtain ⟨e, pending, _⟩ := CallTable.matched_slot_entry sound.matched s held settled
      rw [sound.matched.closed (sound.closed closed)] at pending
      cases pending

theorem closed_peek (sound : c.Sound) (orderly : c.hub.Orderly) (closed : c.hub.isClosed = true) (stream : Nat) :
    c.hub.router.peek stream ≠ .waiting := by
  rw [(closed_terminal sound orderly closed).gives stream]
  split <;> exact fun same => nomatch same

theorem closed_ready (sound : c.Sound) (orderly : c.hub.Orderly) (heeded : c.Heeded) (drained : c.Drained)
    (holding : c.Holding)
    (closed : c.hub.isClosed = true) (resting : c.Resting) (entry : Nat × Caller) (member : entry ∈ c.callers) :
    entry.2.ready c.clock c.tasksEnded c.hub = true := by
  obtain ⟨reader, writer⟩ := resting_ended closed resting
  have nothing : c.unsent = [] := by
    have idle : c.inHand = [] := by
      simp only [writerEnded] at writer
      simp only [inHand]
      split at writer
      · next ended => rw [ended]
      · cases writer
    rw [unsent, idle, (drained writer).2]
    rfl
  -- The writer has told everybody what has become of their frames.
  have told : ∀ call written, entry.2.writing? = some (call, written) → written.isSome = true := by
    intro call written writes
    cases written with
    | some result => rfl
    | none =>
        obtain ⟨o, waits, _⟩ := heeded entry member call writes
        rw [nothing] at waits
        cases waits
  have settled : ∀ call, entry.2.call? = some call → (c.hub.calls.outcome? call).isSome = true :=
    fun call has => closed_settled sound closed call (holding.there entry member call has)
  obtain ⟨key, caller⟩ := entry
  cases caller with
  | sending call written => exact told call written rfl
  | asking use cancel call written => exact Bool.or_eq_true_iff.mpr (Or.inr (told call written rfl))
  | awaiting use w | collecting w => simp only [Caller.ready, CallWait.ready, settled w.call rfl, Bool.true_or]
  | listening w own =>
      have gives := closed_peek sound orderly closed w.stream
      simp only [Caller.ready, EventWait.ready, Bool.or_eq_true, bne_iff_ne]
      exact Or.inl gives
  | seeking w => simp only [Caller.ready, closed, Bool.true_or]
  | closing joins => simp only [Caller.ready, tasksEnded, reader, writer, Bool.and_self, Bool.or_true]
  | untilClosed => exact closed

theorem resting_empty (resting : c.Resting)
    (ready : ∀ entry ∈ c.callers, entry.2.ready c.clock c.tasksEnded c.hub = true) :
    c.callers = [] := by
  cases listed : c.callers with
  | nil => rfl
  | cons first rest =>
      have found : c.caller? first.1 = some first.2 := by simp [caller?, listed]
      have moves := ready first (listed ▸ List.mem_cons_self)
      have still := resting.2.2 first (listed ▸ List.mem_cons_self)
      simp only [callerReady, found, Option.any_some, moves] at still
      cases still

end

-- Nobody waits for anything: every operation has its result unless it was given up, every call that is still
-- held has its outcome, and every stream has an event at hand or says that it has ended.
structure AtRest (seen : List (Connection × Act)) (c : Connection) : Prop where
  nobody : c.callers = []
  finished : ∀ key < c.nextCaller, (∃ result, (key, result) ∈ c.finished) ∨ GivenUp seen key
  settled : ∀ call ∈ c.hub.calls.calls, (c.hub.calls.outcome? call).isSome = true
  streams : ∀ stream, c.hub.router.peek stream ≠ .waiting

-- After a run that has closed the connection nobody waits once all is at rest. Nor is anyone told a success that
-- did not happen: a send whose frame has not gone through as a whole ends with an error, and so does a request
-- to which no response is routed.
structure LeavesNobody (c : Connection) (acts : List Act) : Prop where
  rests : (c.run acts).hub.isClosed = true → (c.run acts).Resting → AtRest (trace act c acts) (c.run acts)
  sends : ∀ before asked later, acts = before ++ .begin (.send asked) :: later → ∀ result,
    ((c.run before).nextCaller, result) ∈ (c.run acts).finished →
    (∃ fault, result = .error fault) ∨ ∃ o ∈ c.completed acts,
      (c.run before).issues? (.begin (.send asked)) = some o.call ∧ result = .ok (.call o.call)
  requests : ∀ before operation later, acts = before ++ .begin operation :: later → operation.isRequest = true → ∀ call,
    (c.run before).issues? (.begin operation) = some call → Unanswered (trace act c acts) call → ∀ result,
    ((c.run before).nextCaller, result) ∈ (c.run acts).finished →
    ∃ fault, result = .error fault ∧ Unserved (trace act c acts) call fault

theorem shutdown_leaves_nobody (config : Config) (link : Link) (acts : List Act) :
    (ofLink config link).LeavesNobody acts := by
  have initial := initial_sound config link
  have keyed := initial_keyed config link
  have sound := run_sound initial acts
  refine ⟨?_, ?_, ?_⟩
  · intro closed resting
    have orderly := run_orderly initial (initial_orderly config link) acts
    have heeded := run_heeded keyed (initial_heeded config link) acts
    have drained := run_drained initial keyed (fun ended => nomatch ended) acts
    have holding := run_holding initial keyed ⟨fun _ member => (nomatch member), fun _ member => nomatch member⟩ acts
    have nobody := resting_empty resting (closed_ready sound orderly heeded drained holding closed resting)
    refine ⟨nobody, ?_, closed_settled sound closed, closed_peek sound orderly closed⟩
    intro key below
    rcases run_present rfl acts key below with (⟨caller, there⟩ | done) | given
    · rw [nobody] at there
      cases there
    · exact Or.inl done
    · exact Or.inr given
  · rintro before asked later rfl result member
    exact send_verdict config link before later asked result member
  · rintro before operation later rfl request call issues unanswered result member
    exact request_verdict config link before later operation request call issues unanswered result member

def hungUp : List Act :=
  [.begin (.send ⟨"Page.enable", .empty, none⟩), .begin (.ask .payload none ⟨"Page.reload", .empty, none⟩),
    .begin (.waitForEvent .any 1000), .begin .waitUntilClosed, .far .hangUp, .move .reader, .move .writer,
    .move (.caller 0), .move (.caller 1), .move (.caller 2), .move (.caller 3)]

theorem shutdown_leaves_nobody_hung_up :
    AtRest (trace act (ofLink {} inMemory) hungUp) ((ofLink {} inMemory).run hungUp) ∧
    (∃ fault, (0, .error fault) ∈ ((ofLink {} inMemory).run hungUp).finished) ∧
    ∃ fault, (1, .error fault) ∈ ((ofLink {} inMemory).run hungUp).finished ∧
      Unserved (trace act (ofLink {} inMemory) hungUp) ⟨1, 2, "Page.reload"⟩ fault := by
  obtain ⟨rests, sends, asks⟩ := shutdown_leaves_nobody {} inMemory hungUp
  have rest := rests (by decide +kernel) (by decide +kernel)
  have finished : ∀ key, ((ofLink {} inMemory).run hungUp).finished.any (·.1 == key) = true →
      ∃ result, (key, result) ∈ ((ofLink {} inMemory).run hungUp).finished := by
    intro key there
    obtain ⟨⟨own, result⟩, member, same⟩ := List.any_eq_true.mp there
    exact ⟨result, beq_iff_eq.mp same ▸ member⟩
  have silent : (trace act (ofLink {} inMemory) hungUp).all (fun seen => (seen.1.hears? seen.2).isNone) = true := by
    decide +kernel
  refine ⟨rest, ?_, ?_⟩
  · obtain ⟨result, member⟩ := finished 0 (by decide +kernel)
    rcases sends [] _ _ rfl result member with ⟨fault, rfl⟩ | ⟨o, listed, _⟩
    · exact ⟨fault, member⟩
    · have nothing : (ofLink {} inMemory).completed hungUp = [] := by decide +kernel
      rw [nothing] at listed
      cases listed
  · obtain ⟨result, member⟩ := finished 1 (by decide +kernel)
    have unanswered : Unanswered (trace act (ofLink {} inMemory) hungUp) ⟨1, 2, "Page.reload"⟩ := by
      intro y b r seen hears
      have none_ : (y.hears? b).isNone = true := List.all_eq_true.mp silent (y, b) seen
      rw [hears] at none_
      cases none_
    obtain ⟨fault, rfl, because⟩ :=
      asks [_] _ _ rfl rfl ⟨1, 2, "Page.reload"⟩ (by decide +kernel) unanswered result member
    exact ⟨fault, member, because⟩

end Connection

end DevTools
