import DevTools.Proofs.Connection.Follow

set_option autoImplicit false

namespace DevTools

namespace Connection

def queues (c : Connection) (a : Act) : List Outbound :=
  match a with
  | .begin _ => (c.act a).hub.outbound.drop c.hub.outbound.length
  | _ => []

-- What any act but the writer's own does: it queues frames for the call that it issues.
structure Passes (c after : Connection) (issued : Option Call) (queue : List Outbound) : Prop where
  queued : Queues c.hub issued after.hub queue
  writer : after.writer = c.writer

section
variable {c : Connection} {a : Act}

theorem passes_nothing (after : Connection) (outbound : after.hub.outbound = c.hub.outbound)
    (writer : after.writer = c.writer) :
    Passes c after none [] := ⟨queues_nothing c.hub after.hub outbound, writer⟩

theorem passes_unheld (before : Connection) (issued : Option Call) (queue : List Outbound)
    (passes : Passes c before issued queue) :
    Passes c before.closeUnheld issued queue := by
  obtain ⟨⟨outbound, calls, frames⟩, writer⟩ := passes
  exact ⟨⟨(unheld_outbound before).trans outbound, calls, frames⟩, (unheld_writer before).trans writer⟩

theorem opening_begins (operation : Operation) (begun : Progress × Hub) (opens : c.opening? operation = some begun) :
    Begins c.hub begun := by
  cases operation with
  | send asked => exact Option.some.inj opens ▸ send_begins asked c.hub
  | ask use cancel asked => exact Option.some.inj opens ▸ ask_begins use cancel asked c.clock c.hub
  | execute cancel command scope => exact Option.some.inj opens ▸ ask_begins _ cancel _ c.clock c.hub
  | attach target cancel => exact Option.some.inj opens ▸ ask_begins _ cancel _ c.clock c.hub
  | detach session cancel => exact Option.some.inj opens ▸ detach_begins session cancel c.clock c.hub
  | waitForTarget target milliseconds => exact Option.some.inj opens ▸ seek_begins target milliseconds c.clock c.hub
  | waitForCall w =>
      cases free : c.isFreeCall w.call <;> simp only [opening?, free, Bool.false_eq_true, if_false, if_true] at opens
      · cases opens
      · exact Option.some.inj opens ▸ idle_begins c.hub _ _ rfl rfl
  | waitForNext stream milliseconds =>
      cases free : c.isFreeStream stream <;> simp only [opening?, free, Bool.false_eq_true, if_false, if_true] at opens
      · cases opens
      · exact Option.some.inj opens ▸ idle_begins c.hub _ _ rfl rfl
  | close => exact Option.some.inj opens ▸ idle_begins c.hub _ _ rfl (shutdown_outbound c.hub .closedHere)
  | waitForEvent | waitUntilClosed => exact Option.some.inj opens ▸ idle_begins c.hub _ _ rfl rfl

theorem opening_issues (keyed : c.Keyed) (operation : Operation) (begun : Progress × Hub)
    (opens : c.opening? operation = some begun) :
    c.issues? (.begin operation) = begun? begun.1 := by
  have fresh := fresh_caller keyed
  simp only [caller?, Option.map_eq_none_iff] at fresh
  have entered := begin_entered operation begun opens
  obtain ⟨progress, hub⟩ := begun
  simp only [issues?, caller?, entered.callers, List.find?_append, fresh, Option.none_or]
  cases progress with
  | inl caller => simp [begun?]
  | inr result => rfl

theorem begin_passes (keyed : c.Keyed) (operation : Operation) :
    Passes c (c.act (.begin operation)) (c.issues? (.begin operation)) (c.queues (.begin operation)) := by
  cases opens : c.opening? operation with
  | none =>
      have still := begin_nothing operation opens
      have nothing : c.issues? (.begin operation) = none := by rw [issues?, still, fresh_caller keyed]; rfl
      have silent : c.queues (.begin operation) = [] := by rw [queues, still, List.drop_length]
      rw [still, nothing, silent]
      exact passes_nothing c rfl rfl
  | some begun =>
      have entered := begin_entered operation begun opens
      obtain ⟨⟨queue, outbound, calls, frames⟩, _⟩ := opening_begins operation begun opens
      have same : c.queues (.begin operation) = queue := by rw [queues, entered.outbound, outbound, List.drop_left]
      rw [same, opening_issues keyed operation begun opens]
      exact ⟨⟨entered.outbound.trans outbound, calls, frames⟩, entered.writer⟩

theorem caller_passes (key : Nat) : Passes c (c.moveCaller key) none [] := by
  cases found : c.caller? key with
  | none =>
      simp only [moveCaller, found]
      exact passes_nothing c rfl rfl
  | some caller =>
      have outbound := move_outbound caller c.clock c.tasksEnded c.hub
      rcases moved : caller.move c.clock c.tasksEnded c.hub with ⟨progress, hub⟩
      rw [moved] at outbound
      cases progress <;> simp only [moveCaller, found, moved] <;> exact passes_nothing _ outbound rfl

theorem act_passes (keyed : c.Keyed) (a : Act) (other : a ≠ .move .writer) :
    Passes c (c.act a) (c.issues? a) (c.queues a) := by
  cases calm : a.isCalm with
  | true =>
      have calm_ := calm_act (c := c) calm
      have silent : c.issues? a = none ∧ c.queues a = [] := by
        cases a with
        | begin => cases calm
        | _ => exact ⟨rfl, rfl⟩
      rw [silent.1, silent.2]
      exact passes_nothing _ calm_.outbound calm_.writer
  | false =>
      cases a with
      | begin operation => exact begin_passes keyed operation
      | abort key =>
          simp only [act, abort, issues?, queues]
          split
          · exact passes_nothing c rfl rfl
          · next caller _ => exact passes_unheld _ _ _ (passes_nothing _ (drop_outbound caller c.hub) rfl)
      | move activity =>
          cases activity with
          | caller key => exact passes_unheld _ _ _ (caller_passes key)
          | writer => exact absurd rfl other
          | reader | handler => cases calm
      | _ => cases calm

theorem act_queues (keyed : c.Keyed) (a : Act) : (c.queues a).map (·.call) = (c.issues? a).toList ∧
    ∀ o ∈ c.queues a, ∃ r : Request, r.id = o.call.id ∧ o.frame = (Message.request r).encode := by
  by_cases writes : a = .move .writer
  · subst writes
    exact ⟨rfl, fun o member => nomatch member⟩
  · have queued := (act_passes keyed a writes).queued
    exact ⟨queued.calls, queued.frames⟩

theorem other_completes (other : a ≠ .move .writer) : c.completes? a = none := by
  cases a with
  | move activity =>
      cases activity with
      | writer => exact absurd rfl other
      | _ => rfl
  | _ => rfl

-- Nobody is told that a frame went through unless it is among those that did.
structure Truthful (c : Connection) (sent : Call → Prop) : Prop where
  callers : ∀ entry ∈ c.callers, ∀ call, entry.2.writing? = some (call, some (.ok ())) → sent call
  finished : ∀ entry ∈ c.finished, ∀ call, entry.2 = .ok (.call call) → sent call

-- Whoever has been told nothing has a frame that is yet to be sent.
def Heeded (c : Connection) : Prop :=
  ∀ entry ∈ c.callers, ∀ call, entry.2.writing? = some (call, none) → ∃ o ∈ c.unsent, o.call = call

theorem act_truthful (sent : Call → Prop) (truthful : c.Truthful sent) (a : Act)
    (completed : ∀ o, c.completes? a = some o → sent o.call) : (c.act a).Truthful sent := by
  constructor
  · rintro ⟨key, caller⟩ member call told
    cases act_comes a key caller member with
    | stays key caller held => exact truthful.callers _ held call told
    | begins operation caller hub _ opens => cases (opening_begins operation _ opens).untold caller rfl call _ told
    | moves key before caller _ held goesOn =>
        rcases move_writing before caller c.clock c.tasksEnded c.hub goesOn with same | none_
        · exact truthful.callers _ held call (same ▸ told)
        · rw [none_] at told
          cases told
    | told key before tells is held reports =>
        rcases told_writing tells before call _ told with ⟨knew, _⟩ | ⟨result, listed, now⟩
        · exact truthful.callers _ held call knew
        · cases Option.some.inj now
          obtain ⟨o, goes, rfl⟩ := reports.completed call listed
          exact completed o (is ▸ goes)
  · rintro ⟨key, result⟩ member call counts
    cases act_ends a key result member with
    | stays key result was => exact truthful.finished _ was call counts
    | begins operation result hub _ opens =>
        exact absurd (congrArg Sum.inr counts) ((opening_begins operation _ opens).unsent call)
    | moves key before result _ held ends =>
        exact truthful.callers _ held call
          (move_sent before c.clock c.tasksEnded c.hub call (ends.trans (congrArg Sum.inr counts)))

theorem writer_heeded (heeded : c.Heeded) : (c.act (.move .writer)).Heeded := by
  obtain ⟨tells, reports⟩ := writer_reports (c := c)
  intro entry member call untold
  change entry ∈ c.moveWriter.closeUnheld.callers at member
  change ∃ o ∈ c.moveWriter.closeUnheld.unsent, o.call = call
  rw [close_unheld_same.1, reports.told.1] at member
  rw [unheld_unsent]
  obtain ⟨old, held, rfl⟩ := List.mem_map.mp member
  rcases told_writing tells old.2 call _ untold with ⟨before, unlisted⟩ | ⟨_, _, now⟩
  · obtain ⟨o, waits, rfl⟩ := heeded old held call before
    have listed : o.call ∈ c.unsent.map (·.call) := List.mem_map_of_mem waits
    rw [reports.parts] at listed
    rcases List.mem_append.mp listed with told | still
    · exact absurd told unlisted
    · exact List.mem_map.mp still
  · cases now

theorem act_unsent (keyed : c.Keyed) (a : Act) (other : a ≠ .move .writer) :
    (c.act a).unsent = c.unsent ++ c.queues a := by
  have passes := act_passes keyed a other
  simp only [unsent, inHand, passes.writer, passes.queued.outbound, List.append_assoc]

theorem act_heeded (keyed : c.Keyed) (heeded : c.Heeded) (a : Act) : (c.act a).Heeded := by
  by_cases writes : a = .move .writer
  · subst writes
    exact writer_heeded heeded
  · have passes := act_passes keyed a writes
    have unsent_ := act_unsent keyed a writes
    have waits : ∀ entry ∈ c.callers, ∀ call, entry.2.writing? = some (call, none) → ∃ o ∈ (c.act a).unsent,
        o.call = call := by
      intro entry held call untold
      obtain ⟨o, listed, same⟩ := heeded entry held call untold
      exact ⟨o, unsent_ ▸ List.mem_append_left _ listed, same⟩
    rintro ⟨key, caller⟩ member call untold
    cases act_comes a key caller member with
    | stays key caller held => exact waits _ held call untold
    | begins operation caller hub is opens =>
        have sends := Caller.writing_sent caller
        rw [untold] at sends
        have issued : c.issues? a = some call := by rw [is, opening_issues keyed operation _ opens]; exact sends.symm
        have calls := passes.queued.calls
        rw [issued] at calls
        have listed : call ∈ (c.queues a).map (·.call) := by simp [calls]
        obtain ⟨o, queued, same⟩ := List.mem_map.mp listed
        exact ⟨o, unsent_ ▸ List.mem_append_right _ queued, same⟩
    | moves key before caller _ held goesOn =>
        rcases move_writing before caller c.clock c.tasksEnded c.hub goesOn with same | none_
        · exact waits _ held call (same ▸ untold)
        · rw [none_] at untold
          cases untold
    | told key before tells is => exact absurd is writes

def completed (c : Connection) (acts : List Act) : List Outbound := (trace act c acts).filterMap fun (x, a) =>
  x.completes? a

def queued (c : Connection) (acts : List Act) : List Outbound := (trace act c acts).flatMap fun (x, a) => x.queues a

theorem completed_concat (acts : List Act) (a : Act) :
    c.completed (acts ++ [a]) = c.completed acts ++ ((c.run acts).completes? a).toList := by
  rw [completed, trace_concat, List.filterMap_append]
  change _ ++ List.filterMap (fun x => completes? x.1 x.2) [(c.run acts, a)] = _
  rw [List.filterMap_cons]
  cases completes? (c.run acts) a <;> rfl

theorem queued_concat (acts : List Act) (a : Act) :
    c.queued (acts ++ [a]) = c.queued acts ++ (c.run acts).queues a := by
  rw [queued, trace_concat, List.flatMap_append, List.flatMap_singleton]
  rfl

theorem run_keyed (keyed : c.Keyed) (acts : List Act) : (c.run acts).Keyed := by
  induction acts generalizing c with
  | nil => exact keyed
  | cons a acts ih => exact ih (act_keyed keyed a)

theorem run_heeded (keyed : c.Keyed) (heeded : c.Heeded) (acts : List Act) : (c.run acts).Heeded := by
  induction acts generalizing c with
  | nil => exact heeded
  | cons a acts ih => exact ih (act_keyed keyed a) (act_heeded keyed heeded a)

-- Frames go through in the order in which they were queued. As long as the writer goes on, the rest is yet to be sent.
structure Ordered (c : Connection) (queued completed : List Outbound) : Prop where
  order : completed <+: queued
  unsent : c.writerEnded = false → queued = completed ++ c.unsent

theorem writer_ordered {sent done : List Outbound} (ordered : c.Ordered sent done) :
    (c.act (.move .writer)).Ordered sent (done ++ (c.completes? (.move .writer)).toList) := by
  have unsent_ : (c.act (.move .writer)).unsent = c.moveWriter.unsent := unheld_unsent c.moveWriter
  have ended_ : (c.act (.move .writer)).writerEnded = c.moveWriter.writerEnded := by
    change c.moveWriter.closeUnheld.writerEnded = _
    rw [writerEnded, writerEnded, unheld_writer]
  cases was : c.writerEnded with
  | true =>
      have writing : c.writer = .ended := by
        simp only [writerEnded] at was
        split at was
        · assumption
        · cases was
      have moved : c.moveWriter = c := by simp only [moveWriter, writing]
      have nothing : c.completes? (.move .writer) = none := by simp only [completes?, writing]
      rw [nothing, Option.toList_none, List.append_nil]
      refine ⟨ordered.order, fun going => ?_⟩
      rw [ended_, moved, was] at going
      cases going
  | false =>
      have waits := ordered.unsent was
      rcases writer_unsent (c := c) with moves | ⟨nothing, ends⟩
      · rw [moves, ← List.append_assoc] at waits
        exact ⟨waits ▸ List.prefix_append _ _, fun _ => by rw [waits, unsent_]⟩
      · rw [nothing, Option.toList_none, List.append_nil]
        refine ⟨ordered.order, fun going => ?_⟩
        rw [ended_, ends] at going
        cases going

theorem act_ordered (keyed : c.Keyed) {sent done : List Outbound} (ordered : c.Ordered sent done) (a : Act) :
    (c.act a).Ordered (sent ++ c.queues a) (done ++ (c.completes? a).toList) := by
  by_cases writes : a = .move .writer
  · subst writes
    have silent : c.queues (.move .writer) = [] := rfl
    rw [silent, List.append_nil]
    exact writer_ordered ordered
  · have passes := act_passes keyed a writes
    rw [other_completes writes, Option.toList_none, List.append_nil]
    refine ⟨ordered.order.trans (List.prefix_append _ _), fun going => ?_⟩
    have was : c.writerEnded = false := by rwa [writerEnded, passes.writer] at going
    rw [ordered.unsent was, act_unsent keyed a writes, List.append_assoc]

theorem run_ordered (keyed : c.Keyed) (ordered : c.Ordered [] []) (acts : List Act) :
    (c.run acts).Ordered (c.queued acts) (c.completed acts) := by
  apply run_induction act (P := fun acts x => x.Ordered (c.queued acts) (c.completed acts)) c ordered
  intro acts a ih
  rw [queued_concat, completed_concat]
  exact act_ordered (run_keyed keyed acts) ih a

theorem run_truthful (acts : List Act) (truthful : c.Truthful fun _ => False) :
    (c.run acts).Truthful fun call => ∃ o ∈ c.completed acts, o.call = call := by
  apply run_induction act (P := fun acts x => x.Truthful fun call => ∃ o ∈ c.completed acts, o.call = call) c
  · exact ⟨fun entry member call told => (truthful.callers entry member call told).elim,
      fun entry member call result => (truthful.finished entry member call result).elim⟩
  · intro acts a ih
    have known : (c.run acts).Truthful fun call => ∃ o ∈ c.completed (acts ++ [a]), o.call = call := by
      rw [completed_concat]
      refine ⟨?_, ?_⟩
      · intro entry member call told
        obtain ⟨o, listed, same⟩ := ih.callers entry member call told
        exact ⟨o, List.mem_append_left _ listed, same⟩
      · intro entry member call result
        obtain ⟨o, listed, same⟩ := ih.finished entry member call result
        exact ⟨o, List.mem_append_left _ listed, same⟩
    apply act_truthful _ known a
    intro o goes
    refine ⟨o, ?_, rfl⟩
    rw [completed_concat, goes]
    exact List.mem_append_right _ List.mem_cons_self

end

section
variable (config : Config) (link : Link)

theorem initial_keyed : (ofLink config link).Keyed := fun _ member => nomatch member

theorem initial_ordered : (ofLink config link).Ordered [] [] := ⟨List.prefix_refl _, fun _ => rfl⟩

theorem initial_heeded : (ofLink config link).Heeded := fun _ member => nomatch member

theorem initial_truthful : (ofLink config link).Truthful fun _ => False :=
  ⟨fun _ member => (nomatch member), fun _ member => nomatch member⟩

end

end Connection

end DevTools
