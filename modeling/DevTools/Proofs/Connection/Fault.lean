import DevTools.Proofs.Connection.Rejection
import DevTools.Proofs.Connection.Unwritten
import DevTools.Proofs.Connection.Verdict
import DevTools.Proofs.Session.Attachment
import DevTools.Proofs.Transport.Fault

set_option autoImplicit false

namespace DevTools

def Error.isRefusal : Error → Bool
  | invalidArgument _ | sessionNotFound _ | codec _ => true
  | _ => false

def Error.isLate : Error → Bool
  | transport _ => false
  | fault => !fault.isRefusal

-- The request has not been posted: all is as it was, but that an id may have been given out, and no frame of it has
-- failed on its way.
structure Unposted (h after : Hub) (fault : Error) : Prop where
  counts : ∃ id, (id = h.calls.nextId ∨ id = h.calls.nextId + 1) ∧ after = { h with calls.nextId := id }
  unsent : ∀ reason, fault ≠ .transport reason

theorem Error.late_accepted (fault : Error) (late : fault.isLate = true) : fault.isRefusal = false := by
  cases fault <;> first | rfl | cases late

theorem refusal_fault (h : Hub) (asked : Asked) (fault : Error) (refused : h.refusal? asked = some fault)
    (reason : String) :
    fault ≠ .transport reason := by
  rintro rfl
  simp only [Hub.refusal?, Hub.scopeFault?] at refused
  split at refused
  · cases refused
  · split at refused
    · cases refused
    · split at refused
      · cases refused
      · split at refused <;> cases refused
        next session _ _ unknown => cases SessionTable.scope_fault session _ unknown

theorem post_unposted (h after : Hub) (asked : Asked) (fault : Error) (failed : h.post asked = (.error fault, after)) :
    Unposted h after fault := by
  simp only [Hub.post_eq] at failed
  cases refused : h.refusal? asked with
  | some _ =>
      rw [refused] at failed
      cases failed
      exact ⟨⟨_, Or.inl rfl, rfl⟩, refusal_fault h asked fault refused⟩
  | none =>
      rw [refused] at failed
      dsimp only at failed
      split at failed
      · cases failed
        exact ⟨⟨_, Or.inr rfl, rfl⟩, by simp⟩
      · split at failed
        · next registered =>
            cases failed
            simp only [CallTable.register] at registered
            split at registered <;> cases registered
            exact ⟨⟨_, Or.inr rfl, rfl⟩, by simp⟩
        · cases failed

theorem of_json_fault {α : Type} (r : Except Json.Error α) (answer : α → Answer) (fault : Error)
    (fails : Use.ofJson r answer = .error fault) : fault.isLate = true := by
  cases r <;> cases fails
  rfl

theorem conclude_fault (use : Use) (outcome : Outcome) (h : Hub) (fault : Error)
    (fails : (use.conclude outcome h).1 = .error fault) :
    outcome = .error fault ∨ fault.isLate = true := by
  cases outcome with
  | error own =>
      cases fails
      exact Or.inl rfl
  | ok response =>
      right
      simp only [Use.conclude] at fails
      split at fails
      · cases fails
        rfl
      · cases use with
        | payload => cases fails
        | attach target =>
            simp only [Use.apply] at fails
            split at fails
            · cases fails
              rfl
            · dsimp only at fails
              split at fails <;> cases fails
              rfl
        | sessionId | targets | nothing | value | attachment | ignored => exact of_json_fault _ _ fault fails

theorem wait_fault (w : CallWait) (clock : Clock) (t calls : CallTable) (blames : t.Blames) (fault : Error)
    (finish : w.finish? clock t = some (.error fault, calls)) : fault.isLate = true := by
  rcases finish_outcome w clock t calls _ finish with ⟨s, held, _, has⟩ | cancelled | ⟨after, timedOut⟩
  · rcases blames s held fault has with rfl | ⟨session, rfl⟩ <;> rfl
  · cases cancelled
    rfl
  · cases timedOut
    rfl

theorem map_fault {α β : Type} (r : Except Error α) (f : α → β) (fault : Error) (fails : r.map f = .error fault) :
    r = .error fault := by
  cases r <;> cases fails
  rfl

theorem look_fault (clock : Clock) (target : TargetId) (limit : Limit) (t : SessionTable) (fault : Error)
    (fails : (TargetWait.look clock target limit t).1 = .settled (.error fault)) : fault.isLate = true := by
  simp only [TargetWait.look] at fails
  split at fails
  · cases fails
  · split at fails <;> cases fails
    rfl

theorem of_look_fault (h : Hub) (look : Look × SessionTable) (fault : Error)
    (fails : (Caller.ofLook h look).1 = .inr (.error fault)) :
    look.1 = .settled (.error fault) := by
  obtain ⟨seen, sessions⟩ := look
  cases seen with
  | asleep w => cases fails
  | settled result => rw [map_fault result Answer.session fault (Sum.inr.inj fails)]

theorem listen_fault (w : EventWait) (clock : Clock) (r after : Router) (fault : Error)
    (finish : w.finish? clock r = some (.error fault, after)) : fault.isLate = true := by
  simp only [EventWait.finish?] at finish
  split at finish
  · cases finish
  · cases finish
    rfl
  · split at finish <;> cases finish
    rfl

theorem seek_fault (w : TargetWait) (clock : Clock) (t : SessionTable) (fault : Error)
    (settled : (w.move clock t).1 = .settled (.error fault)) : fault.isLate = true := by
  simp only [TargetWait.move] at settled
  split at settled
  · exact look_fault clock w.target w.limit _ fault settled
  · split at settled <;> cases settled
    rfl

theorem move_fault (caller : Caller) (clock : Clock) (ended : Bool) (h : Hub) (blames : h.calls.Blames) (fault : Error)
    (fails : (caller.move clock ended h).1 = .inr (.error fault)) :
    fault.isLate = true ∨ ∃ call, caller.writing? = some (call, some (.error fault)) := by
  cases caller with
  | sending call written =>
      simp only [Caller.move] at fails
      split at fails <;> cases fails
      exact Or.inr ⟨call, rfl⟩
  | asking use cancel call written =>
      simp only [Caller.move] at fails
      split at fails
      · cases fails
        exact Or.inl rfl
      · split at fails <;> cases fails
        exact Or.inr ⟨call, rfl⟩
  | awaiting use w =>
      simp only [Caller.move] at fails
      split at fails
      · cases fails
      · next outcome calls finish =>
          rcases conclude_fault use outcome _ fault (Sum.inr.inj fails) with rfl | late
          · exact Or.inl (wait_fault w clock h.calls calls blames fault finish)
          · exact Or.inl late
  | collecting w =>
      simp only [Caller.move] at fails
      split at fails
      · cases fails
      · next outcome calls finish =>
          rw [map_fault outcome Answer.response fault (Sum.inr.inj fails)] at finish
          exact Or.inl (wait_fault w clock h.calls calls blames fault finish)
  | listening w own =>
      simp only [Caller.move] at fails
      split at fails
      · cases fails
      · next result router finish =>
          rw [map_fault result Answer.event fault (Sum.inr.inj fails)] at finish
          exact Or.inl (listen_fault w clock h.router router fault finish)
  | seeking w =>
      simp only [Caller.move] at fails
      split at fails
      · cases fails
        exact Or.inl rfl
      · exact Or.inl (seek_fault w clock h.sessions fault (of_look_fault h _ fault fails))
  | closing | untilClosed =>
      simp only [Caller.move] at fails
      split at fails <;> cases fails

theorem send_unposted (asked : Asked) (h after : Hub) (fault : Error)
    (failed : Caller.beginSend asked h = (.inr (.error fault), after)) : Unposted h after fault := by
  simp only [Caller.beginSend] at failed
  rcases posted : h.post asked with ⟨result, hub⟩
  rw [posted] at failed
  cases result <;> cases failed
  exact post_unposted h after asked fault posted

theorem ask_unposted (use : Use) (cancel : Option Token) (asked : Asked) (clock : Clock) (h after : Hub) (fault : Error)
    (failed : Caller.beginAsk use cancel asked clock h = (.inr (.error fault), after)) : Unposted h after fault := by
  simp only [Caller.beginAsk] at failed
  split at failed
  · cases failed
    exact ⟨⟨_, Or.inl rfl, rfl⟩, by simp⟩
  · rcases posted : h.post asked with ⟨result, hub⟩
    rw [posted] at failed
    cases result <;> cases failed
    exact post_unposted h after asked fault posted

namespace Connection

-- The operation is over with an error as soon as it begins, and but for that and the count of ids all is as it was.
def Traceless (c : Connection) (operation : Operation) (fault : Error) : Prop :=
  ∃ id, (id = c.hub.calls.nextId ∨ id = c.hub.calls.nextId + 1) ∧
    c.act (.begin operation) = c.concluded { c.hub with calls.nextId := id } (.error fault)

section
variable {c : Connection} {a : Act}

theorem asks_unposted (operation : Operation) (asks : operation.asks?.isSome = true) (fault : Error) (hub : Hub)
    (opens : c.opening? operation = some (.inr (.error fault), hub)) : Unposted c.hub hub fault := by
  cases operation with
  | send asked => exact send_unposted asked c.hub hub fault (Option.some.inj opens)
  | ask use cancel asked => exact ask_unposted use cancel asked c.clock c.hub hub fault (Option.some.inj opens)
  | execute cancel command scope =>
      exact ask_unposted command.use cancel _ c.clock c.hub hub fault (Option.some.inj opens)
  | attach target cancel => exact ask_unposted (.attach target) cancel _ c.clock c.hub hub fault (Option.some.inj opens)
  | _ => cases asks

theorem asks_enters (operation : Operation) (asks : operation.asks?.isSome = true) (begun : Progress × Hub)
    (opens : c.opening? operation = some begun) : c.act (.begin operation) = (c.enter begun).2 := by
  cases operation with
  | send | ask | execute | attach =>
      cases opens
      rfl
  | _ => cases asks

theorem asks_traceless (kept : c.Kept) (operation : Operation) (asks : operation.asks?.isSome = true)
    (fault : Error) (hub : Hub)
    (opens : c.opening? operation = some (.inr (.error fault), hub)) : c.Traceless operation fault := by
  obtain ⟨id, counted, rfl⟩ := (asks_unposted operation asks fault hub opens).counts
  exact ⟨id, counted, (asks_enters operation asks _ opens).trans (enter_concludes kept _ (.error fault)
    fun closed => closed)⟩

theorem opening_fault (operation : Operation) (fault : Error) (hub : Hub)
    (opens : c.opening? operation = some (.inr (.error fault), hub)) (reason : String) : fault ≠ .transport reason := by
  cases operation with
  | send | ask | execute | attach => exact (asks_unposted _ rfl fault hub opens).unsent reason
  | detach session cancel =>
      have begun := Option.some.inj opens
      simp only [Caller.beginDetach] at begun
      split at begun
      · cases begun
        simp
      · split at begun
        · cases begun
        · exact (ask_unposted .nothing cancel _ c.clock _ hub fault begun).unsent reason
  | waitForTarget target milliseconds =>
      have begun := congrArg Prod.fst (Option.some.inj opens)
      simp only [Caller.beginSeek] at begun
      split at begun
      · cases begun
        simp
      · rintro rfl
        cases look_fault c.clock target _ _ _ (of_look_fault c.hub _ _ begun)
  | waitForCall | waitForNext =>
      simp only [opening?] at opens
      split at opens <;> cases opens
  | waitForEvent | close | waitUntilClosed => cases opens

theorem learn_writing (tells : List (Call × Written)) (caller : Caller) :
    (caller.learn tells).writing?.map Prod.fst = caller.writing?.map Prod.fst := by
  apply Caller.learn_induction (P := fun learnt => learnt.writing?.map Prod.fst =
    caller.writing?.map Prod.fst) _ tells caller rfl
  intro learnt call result same
  rw [acknowledge_writing, Option.map_map]
  exact same

theorem refused_transport (seen : List (Connection × Act)) (call : Call) (fault : Error)
    (refused : Refused seen call fault) :
    ∃ reason, fault = .transport reason := by
  obtain ⟨x, b, _, refuses⟩ := refused
  simp only [refuses?] at refuses
  split at refuses
  · split at refuses <;> cases refuses
    next left _ _ _ fails => exact Link.send_fault x.link left fault fails
  · cases refuses

theorem fault_guides (seen : List (Connection × Act)) (member : (c, a) ∈ seen) (blames : c.hub.calls.Blames) (key : Nat)
    (issued : Option Call) (first : Error → Prop) :
    Guides c a key
      (fun caller => ∀ call written, caller.writing? = some (call, written) →
        issued = some call ∧ ∀ fault, written = some (.error fault) → fault.isLate = true ∨ Refused seen call fault)
      fun result => ∀ fault, result = .error fault →
        first fault ∨ fault.isLate = true ∨ ∃ call, issued = some call ∧ Refused seen call fault := by
  constructor
  · intro _ caller after _ going goesOn call written writes
    rcases move_writing caller after c.clock c.tasksEnded c.hub goesOn with same | none_
    · exact going call written (same ▸ writes)
    · rw [none_] at writes
      cases writes
  · rintro _ caller result _ going ends fault rfl
    rcases move_fault caller c.clock c.tasksEnded c.hub blames fault ends with late | ⟨call, told⟩
    · exact Or.inr (Or.inl late)
    · obtain ⟨own, because⟩ := going call _ told
      rcases because fault rfl with late | refused
      · exact Or.inr (Or.inl late)
      · exact Or.inr (Or.inr ⟨call, own, refused⟩)
  · rintro rfl caller tells going reports call written writes
    have same := learn_writing tells caller
    rw [writes] at same
    obtain ⟨⟨_, before⟩, wrote, rfl⟩ := Option.map_eq_some_iff.mp same.symm
    refine ⟨(going _ before wrote).1, ?_⟩
    rintro fault rfl
    rcases told_writing tells caller _ _ writes with ⟨knew, _⟩ | ⟨result, listed, now⟩
    · exact (going _ _ knew).2 fault rfl
    · cases now
      rcases reports.refused _ fault listed with rfl | refuses
      · exact Or.inl rfl
      · exact Or.inr ⟨c, _, member, refuses⟩

theorem faults_follow (sound : c.Sound) (keyed : c.Keyed) (filed : c.Filed) (blames : c.hub.calls.Blames)
    (operation : Operation)
    (opens : (c.opening? operation).isSome = true) (later : List Act) (fault : Error)
    (failed : (c.nextCaller, .error fault) ∈ ((c.act (.begin operation)).run later).finished) :
    (c.nextCaller, .error fault) ∈ (c.act (.begin operation)).finished ∨ fault.isLate = true ∨
      ∃ call, c.issues? (.begin operation) = some call ∧
        Refused (trace act (c.act (.begin operation)) later) call fault := by
  obtain ⟨begun, opens⟩ := Option.isSome_iff_exists.mp opens
  have entered := begin_entered operation begun opens
  refine (course_follows keyed filed operation begun opens ?_ ?_ later fun x b seen =>
    fault_guides _ seen ?_ c.nextCaller (c.issues? (.begin operation))
      fun fault => (c.nextCaller, .error fault) ∈ (c.act (.begin operation)).finished).ended _ failed fault rfl
  · intro caller begins call written writes
    have untold := (opening_begins operation begun opens).untold caller begins call written writes
    refine ⟨?_, by simp [untold]⟩
    rw [opening_issues keyed operation begun opens, begins]
    exact (Caller.writing_sent caller).symm.trans (congrArg (Option.map Prod.fst) writes)
  · rintro result begins fault rfl
    left
    rw [entered.finished, begins]
    exact List.mem_append_right _ List.mem_cons_self
  · obtain ⟨first, rest, _, rfl⟩ := mem_trace act _ _ x b seen
    exact run_blames sound blames (.begin operation :: first)

end

end Connection

end DevTools
