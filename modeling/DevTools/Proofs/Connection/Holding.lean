import DevTools.Proofs.Connection.Outbox

set_option autoImplicit false

namespace DevTools

theorem frame_calls (h : Hub) (bytes : Bytes) : (h.takeFrame bytes).calls.calls = h.calls.calls := by
  have swept : ∀ session, (h.calls.performs (h.sweeps session)).calls = h.calls.calls := by
    intro session
    simp only [Hub.sweeps]
    split
    · exact CallTable.remove_calls _ _
    · rfl
  have table : (h.takeFrame bytes).calls = h.calls.performs (h.callDeeds (.frame bytes)) :=
    Hub.perform_table h (.frame bytes)
  rw [table]
  simp only [Hub.callDeeds]
  split
  · split
    · exact CallTable.remove_calls _ _
    · rfl
  · cases h.gone? bytes with
    | none => rfl
    | some session => exact swept session

theorem release_keeps (t : CallTable) (own call : Call) (other : own ≠ call) (member : call ∈ t.calls) :
    call ∈ (t.perform (.collect own)).calls ∧ call ∈ (t.perform (.abandon own)).calls := by
  constructor
  · rw [CallTable.perform_calls]
    refine List.mem_append_left _ (List.mem_filter.mpr ⟨member, ?_⟩)
    simp only [CallTable.released]
    split <;> simp [other]
  · rw [CallTable.perform_calls]
    exact List.mem_append_left _ (List.mem_filter.mpr ⟨member, by simp [CallTable.released, other]⟩)

theorem finish_keeps (w : CallWait) (clock : Clock) (t calls : CallTable) (outcome : Outcome) (call : Call)
    (other : w.call ≠ call)
    (finish : w.finish? clock t = some (outcome, calls)) (member : call ∈ t.calls) : call ∈ calls.calls := by
  obtain ⟨collected, abandoned⟩ := release_keeps t w.call call other member
  cases settled : t.outcome? w.call with
  | some o =>
      rw [finish_settled w clock t o settled] at finish
      cases finish
      exact collected
  | none =>
      rw [finish_unsettled w clock t settled] at finish
      obtain ⟨_, _, same⟩ := Option.map_eq_some_iff.mp finish
      cases same
      exact abandoned

theorem conclude_calls (use : Use) (outcome : Outcome) (h : Hub) : (use.conclude outcome h).2.calls = h.calls := by
  rcases conclude_hub use outcome h with same | ⟨_, _, _, _, _, _, same⟩
  · rw [same]
  · rw [same]
    rfl

theorem drop_keeps (caller : Caller) (h : Hub) (call : Call) (other : caller.call? ≠ some call)
    (member : call ∈ h.calls.calls) :
    call ∈ (caller.drop h).calls.calls := by
  have abandons : ∀ own, own ≠ call → call ∈ (h.calls.abandon own).calls :=
    fun own other => (release_keeps h.calls own call other member).2
  cases caller with
  | sending own | asking _ _ own => exact abandons own fun same => other (congrArg some same)
  | awaiting _ w => exact abandons w.call fun same => other (congrArg some same)
  | collecting w => exact abandons w.call fun same => other (congrArg some same)
  | listening | seeking | closing | untilClosed => exact member

theorem move_keeps (caller : Caller) (clock : Clock) (ended : Bool) (h : Hub) (call : Call)
    (other : caller.call? ≠ some call)
    (member : call ∈ h.calls.calls) : call ∈ (caller.move clock ended h).2.calls.calls := by
  cases caller with
  | sending own written =>
      simp only [Caller.move]
      split
      · exact member
      · exact member
      · exact drop_keeps _ h call other member
  | asking use cancel own written =>
      simp only [Caller.move]
      split
      · exact drop_keeps _ h call other member
      · split
        · exact member
        · exact member
        · exact drop_keeps _ h call other member
  | awaiting use w =>
      simp only [Caller.move]
      split
      · exact member
      · next outcome calls finish =>
          rw [conclude_calls]
          exact finish_keeps w clock h.calls calls outcome call (fun same => other (congrArg some same)) finish member
  | collecting w =>
      simp only [Caller.move]
      split
      · exact member
      · next outcome calls finish =>
          exact finish_keeps w clock h.calls calls outcome call (fun same => other (congrArg some same)) finish member
  | listening w own =>
      simp only [Caller.move]
      split <;> exact member
  | seeking w =>
      simp only [Caller.move]
      split <;> exact member
  | closing | untilClosed =>
      simp only [Caller.move]
      split <;> exact member

theorem move_holds (caller after : Caller) (clock : Clock) (ended : Bool) (h later : Hub)
    (moved : caller.move clock ended h = (.inl after, later)) : after.call? = caller.call? ∧ later.calls = h.calls := by
  cases caller with
  | sending own written =>
      simp only [Caller.move] at moved
      split at moved <;> cases moved
      exact ⟨rfl, rfl⟩
  | asking use cancel own written =>
      simp only [Caller.move] at moved
      split at moved
      · cases moved
      · split at moved <;> cases moved <;> exact ⟨rfl, rfl⟩
  | awaiting use w | collecting w | listening w own =>
      simp only [Caller.move] at moved
      split at moved <;> cases moved
      exact ⟨rfl, rfl⟩
  | seeking w =>
      simp only [Caller.move, Caller.ofLook] at moved
      split at moved
      · cases moved
      · split at moved <;> cases moved
        exact ⟨rfl, rfl⟩
  | closing | untilClosed =>
      simp only [Caller.move] at moved
      split at moved <;> cases moved
      exact ⟨rfl, rfl⟩

theorem learn_call (tells : List (Call × Written)) (caller : Caller) : (caller.learn tells).call? = caller.call? := by
  apply Caller.learn_induction (P := fun after => after.call? = caller.call?) _ tells _ rfl
  intro before call result same
  refine Eq.trans ?_ same
  cases before <;> simp only [Caller.acknowledge] <;> split <;> rfl

namespace Connection

structure Holding (c : Connection) : Prop where
  there : ∀ entry ∈ c.callers, ∀ call, entry.2.call? = some call → call ∈ c.hub.calls.calls
  apart : ∀ one ∈ c.callers, ∀ other ∈ c.callers, ∀ call, one.2.call? = some call → other.2.call? = some call →
    one.1 = other.1

def frees? (c : Connection) (a : Act) : Option Call :=
  match a with
  | .poll call | .dropCall call => if c.isFreeCall call then some call else none
  | .abort key => (c.caller? key).bind Caller.call?
  | .move (.caller key) =>
      match c.caller? key with
      | some caller => if (caller.move c.clock c.tasksEnded c.hub).1.isRight then caller.call? else none
      | none => none
  | _ => none

section
variable {c : Connection} {a : Act}

theorem keeps_unheld (before : Connection) (call : Call) (member : call ∈ before.hub.calls.calls) :
    call ∈ before.closeUnheld.hub.calls.calls := by
  rw [close_unheld_calls.1]
  exact member

theorem reader_keeps (call : Call) (member : call ∈ c.hub.calls.calls) : call ∈ c.moveReader.hub.calls.calls := by
  simp only [moveReader]
  split
  · exact member
  · split
    · exact (frame_calls c.hub _).symm ▸ member
    · exact (shutdown_calls c.hub _).1.symm ▸ member
    · exact (shutdown_calls c.hub _).1.symm ▸ member
    · exact member
    · exact member

theorem writer_keeps (call : Call) (member : call ∈ c.hub.calls.calls) : call ∈ c.moveWriter.hub.calls.calls := by
  have ends : call ∈ c.endWriter.hub.calls.calls := by
    rw [end_writer_hub.1]
    exact member
  have fails : ∀ before : Connection, before.hub = c.hub → ∀ own fault,
      call ∈ (before.failWrite own fault).hub.calls.calls := by
    intro before same own fault
    rw [(fail_write_hub own fault).1, same]
    exact (shutdown_calls c.hub _).1.symm ▸ member
  simp only [moveWriter]
  split
  · exact member
  · split
    · exact ends
    · split <;> exact member
  · split
    · exact member
    · apply fails
      rfl
    · split
      · apply fails
        rfl
      · exact member

theorem caller_keeps (key : Nat) (call : Call) (stays : c.frees? (.move (.caller key)) ≠ some call)
    (member : call ∈ c.hub.calls.calls) :
    call ∈ (c.moveCaller key).hub.calls.calls := by
  cases found : c.caller? key with
  | none =>
      simp only [moveCaller, found]
      exact member
  | some caller =>
      simp only [frees?, found] at stays
      rcases moved : caller.move c.clock c.tasksEnded c.hub with ⟨progress, hub⟩
      rw [moved] at stays
      cases progress with
      | inl after =>
          have same := (move_holds caller after c.clock c.tasksEnded c.hub hub moved).2
          simp only [moveCaller, found, moved]
          exact same ▸ member
      | inr result =>
          have kept := move_keeps caller c.clock c.tasksEnded c.hub call stays member
          rw [moved] at kept
          simp only [moveCaller, found, moved]
          exact kept

theorem act_keeps (keyed : c.Keyed) (a : Act) (call : Call) (stays : c.frees? a ≠ some call)
    (member : call ∈ c.hub.calls.calls) :
    call ∈ (c.act a).hub.calls.calls := by
  cases a with
  | begin operation =>
      rw [(start_issues keyed operation).calls]
      exact List.mem_append_left _ member
  | move activity =>
      cases activity with
      | reader => exact keeps_unheld _ call (reader_keeps call member)
      | writer => exact keeps_unheld _ call (writer_keeps call member)
      | caller key => exact keeps_unheld _ call (caller_keeps key call stays member)
      | handler stream =>
          apply keeps_unheld
          simp only [moveHandler]
          split
          · exact member
          · split
            · split <;> exact member
            · split
              · exact member
              · split <;> exact member
  | abort key =>
      simp only [act, abort]
      cases found : c.caller? key with
      | none => exact member
      | some caller =>
          simp only [frees?, found] at stays
          exact keeps_unheld _ call (drop_keeps caller c.hub call stays member)
  | release => exact keeps_unheld _ call member
  | poll own =>
      simp only [act, frees?] at stays ⊢
      split
      · next free =>
          rw [if_pos free] at stays
          cases collected : c.hub.calls.collect own with
          | none => exact member
          | some result =>
              have kept := (release_keeps c.hub.calls own call (fun same => stays (congrArg some same)) member).1
              simp only [CallTable.perform, collected] at kept
              exact kept
      · exact member
  | dropCall own =>
      simp only [act, frees?] at stays ⊢
      split
      · next free =>
          rw [if_pos free] at stays
          exact (release_keeps c.hub.calls own call (fun same => stays (congrArg some same)) member).2
      · exact member
  | recv | drain | dropStream =>
      simp only [act]
      split <;> exact member
  | _ => exact member

theorem freed_gone (holding : c.Holding) (key : Nat) (caller : Caller) (held : (key, caller) ∈ c.callers) (call : Call)
    (has : caller.call? = some call) (stays : ∃ after, (key, after) ∈ (c.act a).callers) : c.frees? a ≠ some call := by
  have unfree : c.isFreeCall call = false := by
    have taken : c.callers.any (fun entry => entry.2.call? == some call) = true :=
      List.any_eq_true.mpr ⟨(key, caller), held, by simp [has]⟩
    simp [isFreeCall, taken]
  have own : ∀ other held_, c.caller? other = some held_ → held_.call? = some call → key = other :=
    fun other held_ found same => holding.apart _ held _ (caller_member other held_ found) call has same
  obtain ⟨after, stays⟩ := stays
  intro frees
  cases a with
  | poll other | dropCall other =>
      simp only [frees?] at frees
      split at frees
      · next free =>
          cases frees
          rw [unfree] at free
          cases free
      · cases frees
  | abort other =>
      simp only [frees?] at frees
      obtain ⟨held_, found, same⟩ := Option.bind_eq_some_iff.mp frees
      have mine := own other held_ found same
      simp only [act, abort, found, close_unheld_same.1] at stays
      have left := (List.mem_filter.mp stays).2
      simp [mine] at left
  | move activity =>
      cases activity with
      | caller other =>
          cases found : c.caller? other with
          | none => simp [frees?, found] at frees
          | some held_ =>
              simp only [frees?, found] at frees
              split at frees
              · next ends =>
                  have mine := own other held_ found frees
                  change (key, after) ∈ (c.moveCaller other).closeUnheld.callers at stays
                  rw [close_unheld_same.1] at stays
                  rcases moved : held_.move c.clock c.tasksEnded c.hub with ⟨progress, hub⟩
                  rw [moved] at ends
                  cases progress with
                  | inl => cases ends
                  | inr result =>
                      simp only [moveCaller, found, moved] at stays
                      have left := (List.mem_filter.mp stays).2
                      simp [mine] at left
              · cases frees
      | reader | writer | handler => cases frees
  | _ => cases frees

theorem opening_call (operation : Operation) (caller : Caller) (hub : Hub)
    (opens : c.opening? operation = some (.inl caller, hub)) :
    caller.call? = caller.sent? ∨ ∃ call, caller.call? = some call ∧ c.isFreeCall call = true := by
  cases operation with
  | ask | execute | attach | detach =>
      cases request_opens _ rfl _ opens with
      | asks => exact Or.inl rfl
  | send asked =>
      left
      simp only [opening?, Caller.beginSend] at opens
      split at opens <;> cases opens
      rfl
  | waitForTarget target milliseconds =>
      left
      simp only [opening?, Caller.beginSeek, Caller.ofLook] at opens
      split at opens
      · cases opens
      · split at opens <;> cases opens
        rfl
  | waitForCall w =>
      cases free : c.isFreeCall w.call <;> simp only [opening?, free, Bool.false_eq_true, if_false, if_true] at opens
        <;> cases opens
      exact Or.inr ⟨w.call, rfl, free⟩
  | waitForNext stream milliseconds =>
      left
      simp only [opening?] at opens
      split at opens <;> cases opens
      rfl
  | waitForEvent | close | waitUntilClosed =>
      left
      cases opens
      rfl

theorem free_call (call : Call) (free : c.isFreeCall call = true) :
    call ∈ c.hub.calls.calls ∧ ∀ entry ∈ c.callers, entry.2.call? ≠ some call := by
  simp only [isFreeCall, Bool.and_eq_true, List.any_eq_true, beq_iff_eq, Bool.not_eq_true', List.any_eq_false] at free
  obtain ⟨⟨s, held, rfl⟩, others⟩ := free
  exact ⟨List.mem_map_of_mem held, others⟩

theorem issued_fresh (sound : c.Sound) (keyed : c.Keyed) (operation : Operation) (call : Call)
    (issues : c.issues? (.begin operation) = some call) :
    call ∈ (c.act (.begin operation)).hub.calls.calls ∧ call ∉ c.hub.calls.calls := by
  have calls := (start_issues keyed operation).calls
  rw [issues] at calls
  have distinct : (c.act (.begin operation)).hub.calls.calls.Nodup := by
    have tickets := (act_sound sound (.begin operation)).matched.tickets
    refine List.Nodup.of_map (·.ticket) ?_
    rw [CallTable.calls, List.map_map]
    exact tickets
  rw [calls] at distinct ⊢
  refine ⟨by simp, fun old => ?_⟩
  exact (List.nodup_append.mp distinct).2.2 call old call (by simp) rfl

theorem act_holder (sound : c.Sound) (keyed : c.Keyed) (holding : c.Holding) (a : Act) (key : Nat) (caller : Caller)
    (member : (key, caller) ∈ (c.act a).callers) (call : Call) (has : caller.call? = some call) :
    (∃ before, (key, before) ∈ c.callers ∧ before.call? = some call) ∨
      (key = c.nextCaller ∧ call ∈ (c.act a).hub.calls.calls ∧ ∀ entry ∈ c.callers, entry.2.call? ≠ some call) := by
  cases act_comes a key caller member with
  | stays key caller held => exact Or.inl ⟨caller, held, has⟩
  | moves key before caller _ held goesOn =>
      exact Or.inl ⟨before, held, (move_holds before caller c.clock c.tasksEnded c.hub _ (Prod.ext goesOn rfl)).1 ▸ has⟩
  | told key before tells _ held => exact Or.inl ⟨before, held, (learn_call tells before) ▸ has⟩
  | begins operation caller hub is opens =>
      subst is
      refine Or.inr ⟨rfl, ?_⟩
      rcases opening_call operation caller hub opens with sends | ⟨own, same, free⟩
      · have issues : c.issues? (.begin operation) = some call := by
          rw [opening_issues keyed operation _ opens]
          exact sends.symm.trans has
        obtain ⟨new, fresh⟩ := issued_fresh sound keyed operation call issues
        exact ⟨new, fun entry held same => fresh (holding.there entry held call same)⟩
      · cases same.symm.trans has
        obtain ⟨listed, others⟩ := free_call call free
        exact ⟨act_keeps keyed _ call (by simp [frees?]) listed, others⟩

theorem act_holding (sound : c.Sound) (keyed : c.Keyed) (holding : c.Holding) (a : Act) : (c.act a).Holding := by
  constructor
  · rintro ⟨key, caller⟩ member call has
    rcases act_holder sound keyed holding a key caller member call has with ⟨before, held, same⟩ | ⟨_, new, _⟩
    · exact act_keeps keyed a call (freed_gone holding key before held call same ⟨caller, member⟩)
        (holding.there _ held call same)
    · exact new
  · rintro ⟨one, mine⟩ first ⟨other, yours⟩ second call has hasToo
    rcases act_holder sound keyed holding a one mine first call has with ⟨before, held, same⟩ | ⟨next, _, nobody⟩
    · rcases act_holder sound keyed holding a other yours second call hasToo with ⟨before', held', same'⟩
        | ⟨_, _, nobody⟩
      · exact holding.apart (one, before) held (other, before') held' call same same'
      · exact absurd same (nobody _ held)
    · rcases act_holder sound keyed holding a other yours second call hasToo with ⟨before', held', same'⟩
        | ⟨next', _, _⟩
      · exact absurd same' (nobody _ held')
      · exact next.trans next'.symm

theorem run_holding (sound : c.Sound) (keyed : c.Keyed) (holding : c.Holding) (acts : List Act) :
    (c.run acts).Holding := by
  induction acts generalizing c with
  | nil => exact holding
  | cons a acts ih => exact ih (act_sound sound a) (act_keyed keyed a) (act_holding sound keyed holding a)

end

end Connection

end DevTools
