import DevTools.Proofs.Connection.Calls

set_option autoImplicit false

namespace DevTools

def begun? : Progress → Option Call
  | .inl caller => caller.sent?
  | .inr _ => none

-- From one hub to the other this call, and no other, has been issued.
structure Issues (h : Hub) (issued : Option Call) (after : Hub) : Prop where
  calls : after.calls.calls = h.calls.calls ++ issued.toList
  ids : (after.calls.nextId = h.calls.nextId ∧ issued = none) ∨
    (after.calls.nextId = h.calls.nextId + 1 ∧ ∀ call ∈ issued, call.id = h.calls.nextId)

theorem issues_nothing (h : Hub) : Issues h none h := ⟨by simp, Or.inl ⟨rfl, rfl⟩⟩

theorem issues_before (h middle after : Hub) (issued : Option Call) (first : Issues h none middle)
    (second : Issues middle issued after) (same : middle.calls.nextId = h.calls.nextId) : Issues h issued after := by
  refine ⟨?_, by rw [← same]; exact second.ids⟩
  rw [second.calls, first.calls]
  simp

theorem issues_after (h middle after : Hub) (issued : Option Call) (first : Issues h issued middle)
    (calls : after.calls.calls = middle.calls.calls) (ids : after.calls.nextId = middle.calls.nextId) :
    Issues h issued after :=
  ⟨calls.trans first.calls, by rw [ids]; exact first.ids⟩

theorem post_issues (h : Hub) (asked : Asked) : Issues h (h.post asked).1.toOption (h.post asked).2 := by
  simp only [Hub.post_eq, CallTable.allocate]
  cases h.refusal? asked with
  | some fault => exact issues_nothing h
  | none =>
      cases asked.params.payload? with
      | error fault => exact ⟨by simp [Except.toOption, CallTable.calls], Or.inr ⟨rfl, by simp [Except.toOption]⟩⟩
      | ok params =>
          dsimp only
          cases registered :
            { h.calls with nextId := h.calls.nextId + 1 }.register h.calls.nextId asked.method asked.scope with
          | error fault => exact ⟨by simp [Except.toOption, CallTable.calls], Or.inr ⟨rfl, by simp [Except.toOption]⟩⟩
          | ok result =>
              obtain ⟨isOpen, rfl⟩ := CallTable.register_ok _ _ _ _ registered
              have kept := CallTable.remove_calls (t := { h.calls with nextId := h.calls.nextId + 1 })
                (fun e => e.id == h.calls.nextId) (.error .connectionClosed)
              simp only [CallTable.calls] at kept
              exact ⟨by simp [Except.toOption, CallTable.calls, CallTable.cancel, kept],
                Or.inr ⟨rfl, by simp [Except.toOption]⟩⟩

theorem detach_issues (h : Hub) (session : SessionId) :
    Issues h none (h.detachHere session).2 ∧ (h.detachHere session).2.calls.nextId = h.calls.nextId := by
  cases attached : h.sessions.isAttached session with
  | true =>
      rw [Hub.detach_attached h session attached]
      exact ⟨⟨by simp [CallTable.failSession, CallTable.remove_calls], Or.inl ⟨rfl, rfl⟩⟩, rfl⟩
  | false =>
      rw [Hub.detach_unattached h session attached]
      exact ⟨issues_nothing h, rfl⟩

theorem send_issues (asked : Asked) (h : Hub) :
    Issues h (begun? (Caller.beginSend asked h).1) (Caller.beginSend asked h).2 := by
  have posted := post_issues h asked
  simp only [Caller.beginSend]
  rcases made : h.post asked with ⟨result, after⟩
  rw [made] at posted
  cases result <;> exact posted

theorem ask_issues (use : Use) (cancel : Option Token) (asked : Asked) (clock : Clock) (h : Hub) :
    Issues h (begun? (Caller.beginAsk use cancel asked clock h).1) (Caller.beginAsk use cancel asked clock h).2 := by
  have posted := post_issues h asked
  simp only [Caller.beginAsk]
  split
  · exact issues_nothing h
  · rcases made : h.post asked with ⟨result, after⟩
    rw [made] at posted
    cases result <;> exact posted

theorem begin_detach_issues (session : SessionId) (cancel : Option Token) (clock : Clock) (h : Hub) :
    Issues h (begun? (Caller.beginDetach session cancel clock h).1) (Caller.beginDetach session cancel clock h).2 := by
  obtain ⟨detached, same⟩ := detach_issues h session
  simp only [Caller.beginDetach]
  cases h.sessions.get? session with
  | none => exact issues_nothing h
  | some s =>
      rcases made : h.detachHere session with ⟨attached, after⟩
      rw [made] at detached same
      cases attached with
      | false => exact detached
      | true => exact issues_before h after _ _ detached (ask_issues _ _ _ _ _) same

theorem seek_issues (target : TargetId) (milliseconds : Nat) (clock : Clock) (h : Hub) :
    Issues h (begun? (Caller.beginSeek target milliseconds clock h).1)
      (Caller.beginSeek target milliseconds clock h).2 := by
  simp only [Caller.beginSeek]
  split
  · exact issues_nothing h
  · rcases TargetWait.look clock target (clock.limit milliseconds) h.sessions with ⟨look, sessions⟩
    cases look <;> exact issues_after h h _ none (issues_nothing h) rfl rfl

namespace Connection

def Keyed (c : Connection) : Prop := ∀ key ∈ c.callers.map (·.1), key < c.nextCaller

section
variable {c : Connection}

theorem close_unheld_same : c.closeUnheld.callers = c.callers ∧ c.closeUnheld.finished = c.finished := by
  simp only [closeUnheld]
  split <;> exact ⟨rfl, rfl⟩

theorem keyed_of_subset (keyed : c.Keyed) (after : Connection) (next : after.nextCaller = c.nextCaller)
    (subset : ∀ key ∈ after.callers.map (·.1), key ∈ c.callers.map (·.1)) : after.Keyed := by
  intro key member
  rw [next]
  exact keyed key (subset key member)

theorem keyed_of_alike {after : Connection} (keyed : c.Keyed) (alike : Alike c after) : after.Keyed := by
  have keys := congrArg (List.map (·.1)) alike.holders
  simp only [holders, List.map_map] at keys
  refine keyed_of_subset keyed after alike.next ?_
  intro key member
  exact keys ▸ member

theorem enter_keyed (keyed : c.Keyed) (begun : Progress × Hub) : (c.enter begun).2.Keyed := by
  rcases begun with ⟨progress, hub⟩
  have later : ∀ key ∈ c.callers.map (·.1), key < c.nextCaller + 1 :=
    fun key member => Nat.lt_succ_of_lt (keyed key member)
  cases progress with
  | inl caller =>
      intro key member
      simp only [enter, List.map_append, List.map_cons, List.map_nil, List.mem_append, List.mem_singleton] at member ⊢
      rcases member with old | rfl
      · exact later key old
      · exact Nat.lt_succ_self _
  | inr result =>
      rw [enter_concluded]
      exact keyed_of_alike (c := c.concluded hub result) later close_unheld_alike

theorem start_keyed (keyed : c.Keyed) (operation : Operation) : (c.start operation).Keyed := by
  cases operation with
  | waitForCall w =>
      simp only [start]
      split
      · exact enter_keyed keyed _
      · exact keyed
  | waitForNext stream milliseconds =>
      simp only [start]
      split
      · exact enter_keyed keyed _
      · exact keyed
  | close => exact enter_keyed (c := { c.shutdown .closedHere with joined := true }) keyed _
  | _ => exact enter_keyed keyed _

theorem without_keyed (keyed : c.Keyed) (key : Nat) : (c.withoutCaller key).Keyed := by
  refine keyed_of_subset keyed _ rfl ?_
  intro other member
  obtain ⟨entry, present, rfl⟩ := List.mem_map.mp member
  exact List.mem_map_of_mem (List.mem_filter.mp present).1

theorem caller_keyed (keyed : c.Keyed) (key : Nat) : (c.moveCaller key).Keyed := by
  simp only [moveCaller]
  split
  · exact keyed
  · split
    · refine keyed_of_subset keyed _ ?_ ?_
      · rfl
      intro other member
      obtain ⟨entry, present, rfl⟩ := List.mem_map.mp member
      obtain ⟨old, held, rfl⟩ := List.mem_map.mp present
      have listed := List.mem_map_of_mem (f := (·.1)) held
      by_cases own : old.1 = key
      · simpa [own] using listed
      · simpa [own] using listed
    · exact without_keyed keyed key

theorem act_keyed (keyed : c.Keyed) (a : Act) : (c.act a).Keyed := by
  cases keeps : a.keepsHolders with
  | true => exact keyed_of_alike keyed (act_alike keeps)
  | false =>
      cases a with
      | begin operation => exact start_keyed keyed operation
      | abort key =>
          simp only [act, abort]
          split
          · exact keyed
          · next caller _ =>
              have left : Keyed { c.withoutCaller key with hub := caller.drop c.hub } := without_keyed keyed key
              exact keyed_of_alike left close_unheld_alike
      | release => exact keyed_of_alike (c := { c with held := false }) keyed close_unheld_alike
      | move activity =>
          cases activity with
          | caller key => exact keyed_of_alike (caller_keyed keyed key) close_unheld_alike
          | _ => cases keeps
      | _ => cases keeps

theorem fresh_caller (keyed : c.Keyed) : c.caller? c.nextCaller = none := by
  simp only [caller?, Option.map_eq_none_iff, List.find?_eq_none, beq_iff_eq]
  intro entry member same
  have bound := keyed entry.1 (List.mem_map_of_mem member)
  omega

theorem shutdown_calls (h : Hub) (reason : CloseReason) :
    (h.shutdown reason).calls.calls = h.calls.calls ∧ (h.shutdown reason).calls.nextId = h.calls.nextId := by
  simp only [Hub.shutdown]
  split
  · exact ⟨rfl, rfl⟩
  · exact ⟨CallTable.remove_calls (fun _ => true) (.error .connectionClosed), rfl⟩

theorem close_unheld_calls : c.closeUnheld.hub.calls.calls = c.hub.calls.calls ∧
    c.closeUnheld.hub.calls.nextId = c.hub.calls.nextId := by
  simp only [closeUnheld]
  split
  · exact ⟨rfl, rfl⟩
  · exact shutdown_calls c.hub .closedHere

theorem enter_issues (keyed : c.Keyed) (before : Connection) (begun : Progress × Hub)
    (callers : before.callers = c.callers)
    (next : before.nextCaller = c.nextCaller) (issued : Issues c.hub (begun? begun.1) begun.2) :
    Issues c.hub (((before.enter begun).2.caller? c.nextCaller).bind Caller.sent?) (before.enter begun).2.hub := by
  have fresh := fresh_caller keyed
  simp only [caller?, Option.map_eq_none_iff] at fresh
  rcases begun with ⟨progress, hub⟩
  cases progress with
  | inl caller =>
      have found : (before.enter (.inl caller, hub)).2.caller? c.nextCaller = some caller := by
        simp [enter, caller?, callers, next, List.find?_append, fresh]
      rw [found]
      exact issued
  | inr result =>
      obtain ⟨calls, ids⟩ := close_unheld_calls (c := before.concluded hub result)
      have missing : (before.concluded hub result).closeUnheld.caller? c.nextCaller = none := by
        rw [caller?, close_unheld_same.1]
        simp [concluded, callers, fresh]
      rw [enter_concluded, missing]
      exact issues_after c.hub hub _ none issued calls ids

theorem start_issues (keyed : c.Keyed) (operation : Operation) :
    Issues c.hub (c.issues? (.begin operation)) (c.act (.begin operation)).hub := by
  have refused : Issues c.hub ((c.caller? c.nextCaller).bind Caller.sent?) c.hub := by
    rw [fresh_caller keyed]
    exact issues_nothing c.hub
  cases operation with
  | send asked => exact enter_issues keyed c _ rfl rfl (send_issues asked c.hub)
  | ask use cancel asked => exact enter_issues keyed c _ rfl rfl (ask_issues use cancel asked c.clock c.hub)
  | execute cancel command scope => exact enter_issues keyed c _ rfl rfl (ask_issues _ cancel _ c.clock c.hub)
  | attach target cancel => exact enter_issues keyed c _ rfl rfl (ask_issues _ cancel _ c.clock c.hub)
  | detach session cancel => exact enter_issues keyed c _ rfl rfl (begin_detach_issues session cancel c.clock c.hub)
  | waitForTarget target milliseconds =>
      exact enter_issues keyed c _ rfl rfl (seek_issues target milliseconds c.clock c.hub)
  | waitForEvent filter milliseconds =>
      exact enter_issues keyed c _ rfl rfl (issues_after c.hub c.hub _ none (issues_nothing c.hub) rfl rfl)
  | waitForCall w =>
      simp only [issues?, act, start]
      split
      · exact enter_issues keyed c _ rfl rfl (issues_nothing c.hub)
      · exact refused
  | waitForNext stream milliseconds =>
      simp only [issues?, act, start]
      split
      · exact enter_issues keyed c _ rfl rfl (issues_nothing c.hub)
      · exact refused
  | close =>
      obtain ⟨calls, ids⟩ := shutdown_calls c.hub .closedHere
      exact enter_issues keyed { c.shutdown .closedHere with joined := true } _ rfl rfl
        (issues_after c.hub c.hub _ none (issues_nothing c.hub) calls ids)
  | waitUntilClosed => exact enter_issues keyed c _ rfl rfl (issues_nothing c.hub)

theorem quiet_issues (sound : c.Sound) (a : Act) (quiet : ∀ operation, a ≠ .begin operation) :
    (c.act a).hub.calls.nextId = c.hub.calls.nextId ∧ ∀ call ∈ (c.act a).hub.calls.calls, call ∈ c.hub.calls.calls := by
  obtain ⟨calls, table, causes⟩ := act_table sound.kept a
  rw [table]
  constructor
  · apply CallTable.performs_next_id
    intro member
    obtain ⟨operation, begins⟩ := causes _ member
    exact quiet operation begins
  · intro call member
    obtain ⟨after, held, rfl⟩ := List.mem_map.mp member
    by_cases old : after.call.ticket < c.hub.calls.nextTicket
    · obtain ⟨s, present, same, _⟩ := CallTable.performs_slot_old sound.matched calls after held old
      rw [← same]
      exact List.mem_map_of_mem present
    · obtain ⟨⟨session, registers⟩, _⟩ := CallTable.performs_slot_new sound.matched calls after held (by omega)
      obtain ⟨operation, begins⟩ := causes _ registers
      exact absurd begins (quiet operation)

theorem act_issues (sound : c.Sound) (keyed : c.Keyed) (a : Act) :
    (((c.act a).hub.calls.nextId = c.hub.calls.nextId ∧ c.issues? a = none) ∨
      ((c.act a).hub.calls.nextId = c.hub.calls.nextId + 1 ∧ ∀ call ∈ c.issues? a, call.id = c.hub.calls.nextId)) ∧
    ∀ call ∈ (c.act a).hub.calls.calls, call ∈ c.hub.calls.calls ∨ c.issues? a = some call := by
  by_cases begins : ∃ operation, a = .begin operation
  · obtain ⟨operation, rfl⟩ := begins
    have issued := start_issues keyed operation
    refine ⟨issued.ids, ?_⟩
    intro call member
    rw [issued.calls, List.mem_append, Option.mem_toList] at member
    exact member
  · rw [not_exists] at begins
    obtain ⟨ids, calls⟩ := quiet_issues sound a begins
    have nothing : c.issues? a = none := by
      cases a with
      | begin operation => exact absurd rfl (begins operation)
      | _ => rfl
    exact ⟨Or.inl ⟨ids, nothing⟩, fun call member => Or.inl (calls call member)⟩

def issued (c : Connection) (acts : List Act) : List Call := (trace act c acts).filterMap fun (x, a) => x.issues? a

def allocations (c : Connection) (acts : List Act) : Nat :=
  (trace act c acts).countP fun (x, a) => (x.act a).hub.calls.nextId != x.hub.calls.nextId

theorem issued_cons (a : Act) (acts : List Act) :
    c.issued (a :: acts) = (c.issues? a).toList ++ (c.act a).issued acts := by
  simp only [issued, trace, List.filterMap_cons]
  cases c.issues? a <;> rfl

theorem issued_calls (sound : c.Sound) (keyed : c.Keyed) (acts : List Act) :
    ∀ call ∈ (c.run acts).hub.calls.calls, call ∈ c.hub.calls.calls ∨ call ∈ c.issued acts := by
  induction acts generalizing c with
  | nil => exact fun call member => Or.inl member
  | cons a acts ih =>
      intro call member
      rw [issued_cons, List.mem_append, Option.mem_toList]
      rcases ih (act_sound sound a) (act_keyed keyed a) call member with before | later
      · rcases (act_issues sound keyed a).2 call before with old | new
        · exact Or.inl old
        · exact Or.inr (Or.inl new)
      · exact Or.inr (Or.inr later)

-- An act brings the count on by what it takes off the ids still to be allocated, and a call that it issues
-- has the id that the count stood at.
structure CountsOn (c : Connection) (a : Act) (acts : List Act) : Prop where
  rest : (c.act a).hub.calls.nextId.toNat + (c.act a).allocations acts =
    c.hub.calls.nextId.toNat + c.allocations (a :: acts)
  up : c.hub.calls.nextId.toNat ≤ (c.act a).hub.calls.nextId.toNat
  own : ∀ call ∈ c.issues? a,
    call.id.toNat = c.hub.calls.nextId.toNat ∧ c.hub.calls.nextId.toNat < (c.act a).hub.calls.nextId.toNat

theorem act_counts_on (sound : c.Sound) (keyed : c.Keyed) (a : Act) (acts : List Act)
    (bounded : c.hub.calls.nextId.toNat + c.allocations (a :: acts) < UInt64.size) : c.CountsOn a acts := by
  rcases (act_issues sound keyed a).1 with ⟨same, nothing⟩ | ⟨next, own⟩
  · have counted : c.allocations (a :: acts) = (c.act a).allocations acts := by
      simp [allocations, trace, same]
    exact ⟨by rw [counted, same], Nat.le_of_eq (congrArg UInt64.toNat same).symm, by simp [nothing]⟩
  · have moved : c.hub.calls.nextId + 1 ≠ c.hub.calls.nextId := by
      intro stuck
      have gap := congrArg UInt64.toNat stuck
      rw [UInt64.toNat_add] at gap
      have small := c.hub.calls.nextId.toNat_lt
      change (c.hub.calls.nextId.toNat + 1) % 2 ^ 64 = _ at gap
      omega
    have counted : c.allocations (a :: acts) = (c.act a).allocations acts + 1 := by
      simp [allocations, trace, next, moved]
    have value : (c.act a).hub.calls.nextId.toNat = c.hub.calls.nextId.toNat + 1 := by
      rw [next]
      exact CallTable.next_id _ (by omega)
    exact ⟨by omega, by omega, fun call member => ⟨congrArg UInt64.toNat (own call member), by omega⟩⟩

theorem issued_ids (sound : c.Sound) (keyed : c.Keyed) (acts : List Act)
    (bounded : c.hub.calls.nextId.toNat + c.allocations acts < UInt64.size) :
    (c.issued acts).Pairwise (fun one other => one.id.toNat < other.id.toNat) ∧
      ∀ call ∈ c.issued acts, c.hub.calls.nextId.toNat ≤ call.id.toNat := by
  induction acts generalizing c with
  | nil => exact ⟨List.Pairwise.nil, by simp [issued, trace]⟩
  | cons a acts ih =>
      have counts := act_counts_on sound keyed a acts bounded
      obtain ⟨increasing, later⟩ := ih (act_sound sound a) (act_keyed keyed a) (by rw [counts.rest]; exact bounded)
      rw [issued_cons]
      constructor
      · rw [List.pairwise_append]
        refine ⟨by cases c.issues? a <;> simp, increasing, ?_⟩
        intro call first other member
        obtain ⟨id, less⟩ := counts.own call (Option.mem_toList.mp first)
        have bound := later other member
        omega
      · intro call member
        rcases List.mem_append.mp member with first | member
        · exact Nat.le_of_eq (counts.own call (Option.mem_toList.mp first)).1.symm
        · exact Nat.le_trans counts.up (later call member)

end

end Connection

end DevTools
