import DevTools.Proofs.Connection.Issue

set_option autoImplicit false

namespace DevTools

def Caller.writing? : Caller → Option (Call × Option Written)
  | sending call written | asking _ _ call written => some (call, written)
  | _ => none

theorem Caller.writing_sent (caller : Caller) : caller.writing?.map Prod.fst = caller.sent? := by
  cases caller <;> rfl

-- From one hub to the other these frames have been queued, for the call issued if there is one.
structure Queues (h : Hub) (issued : Option Call) (after : Hub) (queue : List Outbound) : Prop where
  outbound : after.outbound = h.outbound ++ queue
  calls : queue.map (·.call) = issued.toList
  frames : ∀ o ∈ queue, ∃ r : Request, r.id = o.call.id ∧ o.frame = (Message.request r).encode

-- How an operation begins: nobody has been told of the new frame yet, and none counts as sent.
structure Begins (h : Hub) (begun : Progress × Hub) : Prop where
  queue : ∃ queue, Queues h (begun? begun.1) begun.2 queue
  untold : ∀ caller, begun.1 = .inl caller → ∀ call written, caller.writing? = some (call, written) → written = none
  unsent : ∀ call, begun.1 ≠ .inr (.ok (.call call))

theorem queues_nothing (h after : Hub) (same : after.outbound = h.outbound) : Queues h none after [] :=
  ⟨by rw [same, List.append_nil], rfl, by simp⟩

theorem post_queues (h : Hub) (asked : Asked) : ∃ queue, Queues h (h.post asked).1.toOption (h.post asked).2 queue := by
  simp only [Hub.post_eq]
  cases h.refusal? asked with
  | some fault => exact ⟨[], queues_nothing h h rfl⟩
  | none =>
      cases asked.params.payload? with
      | error fault => exact ⟨[], queues_nothing h _ rfl⟩
      | ok params =>
          dsimp only
          cases registered : h.calls.allocate.2.register h.calls.allocate.1 asked.method asked.scope with
          | error fault => exact ⟨[], queues_nothing h _ rfl⟩
          | ok result =>
              obtain ⟨_, rfl⟩ := CallTable.register_ok _ _ _ _ registered
              refine ⟨_, rfl, rfl, ?_⟩
              intro o member
              cases List.mem_singleton.mp member
              exact ⟨_, rfl, rfl⟩

theorem detach_outbound (h : Hub) (session : SessionId) : (h.detachHere session).2.outbound = h.outbound := by
  obtain ⟨_, _, made⟩ := Hub.detach_hub h session
  rw [made]

theorem waits_begins (h after : Hub) (caller : Caller) (queued : ∃ queue, Queues h caller.sent? after queue)
    (untold : ∀ call written, caller.writing? = some (call, written) → written = none) :
    Begins h (.inl caller, after) := by
  refine ⟨queued, ?_, ?_⟩
  · intro other same
    cases same
    exact untold
  · intro call same
    cases same

theorem ends_begins (h after : Hub) (result : Except Error Answer) (queued : ∃ queue, Queues h none after queue)
    (unsent : ∀ call, result ≠ .ok (.call call)) : Begins h (.inr result, after) := by
  refine ⟨queued, ?_, ?_⟩
  · intro caller same
    cases same
  · intro call same
    exact unsent call (Sum.inr.inj same)

theorem fails_begins (h after : Hub) (fault : Error) (queued : ∃ queue, Queues h none after queue) :
    Begins h (.inr (.error fault), after) := by
  apply ends_begins h after _ queued
  intro call same
  cases same

theorem idle_begins (h after : Hub) (caller : Caller) (idle : caller.writing? = none)
    (same : after.outbound = h.outbound) :
    Begins h (.inl caller, after) := by
  have unsent : caller.sent? = none := by rw [← Caller.writing_sent, idle]; rfl
  apply waits_begins h after caller
  · rw [unsent]
    exact ⟨[], queues_nothing h after same⟩
  · intro call written sends
    rw [idle] at sends
    cases sends

theorem send_begins (asked : Asked) (h : Hub) : Begins h (Caller.beginSend asked h) := by
  have posted := post_queues h asked
  simp only [Caller.beginSend]
  rcases made : h.post asked with ⟨result, after⟩
  rw [made] at posted
  cases result with
  | ok call =>
      apply waits_begins h after (.sending call none) posted
      intro other written sends
      cases sends
      rfl
  | error fault => exact fails_begins h after fault posted

theorem ask_begins (use : Use) (cancel : Option Token) (asked : Asked) (clock : Clock) (h : Hub) :
    Begins h (Caller.beginAsk use cancel asked clock h) := by
  have posted := post_queues h asked
  simp only [Caller.beginAsk]
  split
  · exact fails_begins h h .cancelled ⟨[], queues_nothing h h rfl⟩
  · rcases made : h.post asked with ⟨result, after⟩
    rw [made] at posted
    cases result with
    | ok call =>
        apply waits_begins h after (.asking use cancel call none) posted
        intro other written sends
        cases sends
        rfl
    | error fault => exact fails_begins h after fault posted

theorem begins_after (h middle : Hub) (begun : Progress × Hub) (same : middle.outbound = h.outbound)
    (begins : Begins middle begun) :
    Begins h begun := by
  obtain ⟨⟨queue, outbound, calls, frames⟩, untold, unsent⟩ := begins
  exact ⟨⟨queue, by rw [outbound, same], calls, frames⟩, untold, unsent⟩

theorem detach_begins (session : SessionId) (cancel : Option Token) (clock : Clock) (h : Hub) :
    Begins h (Caller.beginDetach session cancel clock h) := by
  have same := detach_outbound h session
  simp only [Caller.beginDetach]
  cases h.sessions.get? session with
  | none => exact fails_begins h h _ ⟨[], queues_nothing h h rfl⟩
  | some s =>
      rcases made : h.detachHere session with ⟨attached, after⟩
      rw [made] at same
      cases attached with
      | false =>
          apply ends_begins h after (.ok .done) ⟨[], queues_nothing h after same⟩
          intro call equal
          cases equal
      | true => exact begins_after h after _ same (ask_begins _ _ _ _ _)

theorem seek_begins (target : TargetId) (milliseconds : Nat) (clock : Clock) (h : Hub) :
    Begins h (Caller.beginSeek target milliseconds clock h) := by
  simp only [Caller.beginSeek]
  split
  · exact fails_begins h h .connectionClosed ⟨[], queues_nothing h h rfl⟩
  · rcases TargetWait.look clock target (clock.limit milliseconds) h.sessions with ⟨look, sessions⟩
    cases look with
    | asleep w => exact idle_begins h _ (.seeking w) rfl rfl
    | settled result =>
        apply ends_begins h { h with sessions := sessions } (result.map .session) ⟨[], queues_nothing h _ rfl⟩
        intro call same
        cases result <;> cases same

theorem shutdown_outbound (h : Hub) (reason : CloseReason) : (h.shutdown reason).outbound = h.outbound := by
  simp only [Hub.shutdown]
  split <;> rfl

theorem frame_outbound (h : Hub) (bytes : Bytes) : (h.takeFrame bytes).outbound = h.outbound := by
  obtain ⟨_, _, _, _, made, _⟩ := Hub.frame_hub h bytes
  rw [made]

theorem drop_outbound (caller : Caller) (h : Hub) : (caller.drop h).outbound = h.outbound := by
  cases caller <;> rfl

theorem conclude_outbound (use : Use) (outcome : Outcome) (h : Hub) :
    (use.conclude outcome h).2.outbound = h.outbound := by
  rcases conclude_hub use outcome h with same | ⟨_, _, _, _, _, _, same⟩
  · rw [same]
  · rw [same]
    rfl

theorem move_outbound (caller : Caller) (clock : Clock) (ended : Bool) (h : Hub) :
    (caller.move clock ended h).2.outbound = h.outbound := by
  cases caller with
  | sending call written =>
      simp only [Caller.move]
      split <;> rfl
  | asking use cancel call written =>
      simp only [Caller.move]
      split
      · rfl
      · split <;> rfl
  | awaiting use w =>
      simp only [Caller.move]
      split
      · rfl
      · exact conclude_outbound use _ _
  | collecting w | listening w own =>
      simp only [Caller.move]
      split <;> rfl
  | seeking w =>
      simp only [Caller.move]
      split <;> rfl
  | closing | untilClosed =>
      simp only [Caller.move]
      split <;> rfl

theorem move_writing (caller after : Caller) (clock : Clock) (ended : Bool) (h : Hub)
    (goesOn : (caller.move clock ended h).1 = .inl after) :
    after.writing? = caller.writing? ∨ after.writing? = none := by
  cases caller with
  | sending call written =>
      simp only [Caller.move] at goesOn
      split at goesOn
      · cases goesOn
        exact Or.inl rfl
      · cases goesOn
      · cases goesOn
  | asking use cancel call written =>
      simp only [Caller.move] at goesOn
      split at goesOn
      · cases goesOn
      · split at goesOn
        · cases goesOn
          exact Or.inl rfl
        · cases goesOn
          exact Or.inr rfl
        · cases goesOn
  | awaiting use w | collecting w | listening w own =>
      simp only [Caller.move] at goesOn
      split at goesOn
      · cases goesOn
        exact Or.inl rfl
      · cases goesOn
  | seeking w =>
      simp only [Caller.move] at goesOn
      split at goesOn
      · cases goesOn
      · simp only [Caller.ofLook] at goesOn
        split at goesOn
        · cases goesOn
          exact Or.inr rfl
        · cases goesOn
  | closing | untilClosed =>
      simp only [Caller.move] at goesOn
      split at goesOn
      · cases goesOn
      · cases goesOn
        exact Or.inl rfl

theorem of_json_unsent {α : Type} (r : Except Json.Error α) (answer : α → Answer)
    (other : ∀ a call, answer a ≠ .call call) (call : Call) :
    Use.ofJson r answer ≠ .ok (.call call) := by
  cases r with
  | ok a => exact fun same => other a call (Except.ok.inj same)
  | error fault =>
      intro same
      cases same

theorem conclude_unsent (use : Use) (outcome : Outcome) (h : Hub) (call : Call) :
    (use.conclude outcome h).1 ≠ .ok (.call call) := by
  intro same
  cases outcome with
  | error fault => cases same
  | ok response =>
      simp only [Use.conclude] at same
      split at same
      · cases same
      · next payload _ =>
          cases use with
          | payload => cases same
          | attach target =>
              simp only [Use.apply] at same
              split at same
              · cases same
              · dsimp only at same
                split at same <;> cases same
          | sessionId | targets | nothing | value | attachment | ignored =>
              exact of_json_unsent _ _ (by intro _ _ equal; cases equal) call same

theorem move_sent (caller : Caller) (clock : Clock) (ended : Bool) (h : Hub) (call : Call)
    (ends : (caller.move clock ended h).1 = .inr (.ok (.call call))) :
    caller.writing? = some (call, some (.ok ())) := by
  have mapped : ∀ {α : Type} (r : Except Error α) (answer : α → Answer), (∀ a, answer a ≠ .call call) →
      (Sum.inr (r.map answer) : Progress) ≠ .inr (.ok (.call call)) := by
    intro α r answer other same
    cases r with
    | ok a => exact other a (Except.ok.inj (Sum.inr.inj same))
    | error fault => cases same
  cases caller with
  | sending own written =>
      simp only [Caller.move] at ends
      split at ends
      · cases ends
      · cases ends
        rfl
      · cases ends
  | asking use cancel own written =>
      simp only [Caller.move] at ends
      split at ends
      · cases ends
      · split at ends <;> cases ends
  | awaiting use w =>
      simp only [Caller.move] at ends
      split at ends
      · cases ends
      · exact absurd (Sum.inr.inj ends) (conclude_unsent use _ _ call)
  | collecting w =>
      simp only [Caller.move] at ends
      split at ends
      · cases ends
      · exact absurd ends (mapped _ _ (by intro _ same; cases same))
  | listening w own =>
      simp only [Caller.move] at ends
      split at ends
      · cases ends
      · exact absurd ends (mapped _ _ (by intro _ same; cases same))
  | seeking w =>
      simp only [Caller.move] at ends
      split at ends
      · cases ends
      · simp only [Caller.ofLook] at ends
        split at ends
        · cases ends
        · exact absurd ends (mapped _ _ (by intro _ same; cases same))
  | closing | untilClosed =>
      simp only [Caller.move] at ends
      split at ends <;> cases ends

end DevTools
