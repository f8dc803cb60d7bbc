import DevTools.Proofs.Connection.Correlation
import DevTools.Proofs.Connection.Sessions

set_option autoImplicit false

namespace DevTools

namespace Connection

def notes? (c : Connection) (a : Act) : Option Event :=
  match a with
  | .move .reader =>
      if c.hub.isClosed then none
      else match c.link.receive.1 with
        | .frame bytes => match Message.decode bytes with
            | .ok (.event e) => some e
            | _ => none
        | _ => none
  | _ => none

def attachers (c : Connection) : List (TargetId × Call) := c.callers.filterMap fun entry => entry.2.attaching?

section
variable {c : Connection} {a : Act}

theorem notes_hub (kept : c.Kept) (e : Event) (noted : c.notes? a = some e) : (c.act a).hub = c.hub.takeEvent e := by
  cases a with
  | move activity =>
      cases activity with
      | reader =>
          simp only [notes?] at noted
          split at noted
          · cases noted
          · next isOpen =>
              split at noted
              · next bytes received =>
                  rw [reader_frame kept bytes (eq_false_of_ne_true isOpen) received]
                  split at noted
                  · next decoded =>
                      cases noted
                      simp only [Hub.takeFrame, decoded]
                  · cases noted
              · cases noted
      | writer | caller | handler => cases noted
  | _ => cases noted

theorem granted_iff (session : SessionId) (target : TargetId) : (session, target) ∈ c.granted ↔
    ∃ call r, (target, call) ∈ c.attachers ∧ c.hub.calls.outcome? call = some (.ok r) ∧ r.grants? = some session := by
  simp only [granted, attachers, List.mem_filterMap]
  constructor
  · rintro ⟨entry, member, grants⟩
    simp only [Caller.granted?] at grants
    cases attaching : entry.2.attaching? with
    | none => simp [attaching] at grants
    | some pair =>
        obtain ⟨own, call⟩ := pair
        simp only [attaching] at grants
        split at grants
        · next r settled =>
            obtain ⟨granted, has, same⟩ := Option.map_eq_some_iff.mp grants
            cases same
            exact ⟨call, r, ⟨entry, member, attaching⟩, settled, has⟩
        · cases grants
  · rintro ⟨call, r, ⟨entry, member, attaching⟩, settled, grants⟩
    exact ⟨entry, member, by simp [Caller.granted?, attaching, settled, grants]⟩

theorem attachers_of_callers (after : Connection) (same : after.callers = c.callers) :
    after.attachers = c.attachers := by
  rw [attachers, attachers, same]

theorem acknowledge_attachers (call : Call) (result : Written) :
    (c.acknowledge call result).attachers = c.attachers := by
  have same : ∀ caller : Caller, (caller.acknowledge call result).attaching? = caller.attaching? := by
    intro caller
    cases caller with
    | sending mine written =>
        simp only [Caller.acknowledge]
        split <;> rfl
    | asking use cancel mine written =>
        simp only [Caller.acknowledge]
        split <;> cases use <;> rfl
    | _ => rfl
  simp only [attachers, acknowledge, List.filterMap_map]
  congr 1
  funext entry
  exact same entry.2

theorem end_writer_attachers : c.endWriter.attachers = c.attachers := by
  have refused : ∀ (queue : List Outbound) (before : Connection),
      (queue.foldl (fun c o => c.acknowledge o.call (.error .connectionClosed)) before).attachers =
        before.attachers := by
    intro queue
    induction queue with
    | nil => exact fun _ => rfl
    | cons o queue ih => exact fun before => (ih _).trans (acknowledge_attachers o.call _)
  exact refused c.hub.outbound c

theorem writer_attachers : c.moveWriter.attachers = c.attachers := by
  simp only [moveWriter]
  split
  · rfl
  · split
    · exact end_writer_attachers
    · split <;> rfl
  · split
    · exact acknowledge_attachers _ _
    · exact (end_writer_attachers).trans (acknowledge_attachers _ _)
    · split
      · exact (end_writer_attachers).trans (acknowledge_attachers _ _)
      · rfl

theorem move_attaching (caller next : Caller) (clock : Clock) (ended : Bool) (h after : Hub)
    (moved : caller.move clock ended h = (.inl next, after)) : next.attaching? = caller.attaching? := by
  cases caller with
  | sending call written =>
      simp only [Caller.move] at moved
      split at moved <;> cases moved
      rfl
  | asking use cancel call written =>
      simp only [Caller.move] at moved
      split at moved
      · cases moved
      · split at moved <;> cases moved
        · rfl
        · cases use <;> rfl
  | awaiting use w | collecting w =>
      simp only [Caller.move] at moved
      split at moved <;> cases moved
      rfl
  | listening w own =>
      simp only [Caller.move] at moved
      split at moved <;> cases moved
      rfl
  | seeking w =>
      simp only [Caller.move, Caller.ofLook] at moved
      split at moved
      · cases moved
      · split at moved <;> cases moved
        rfl
  | closing joins =>
      simp only [Caller.move] at moved
      split at moved <;> cases moved
      rfl
  | untilClosed =>
      simp only [Caller.move] at moved
      split at moved <;> cases moved
      rfl

theorem without_attachers (key : Nat) : ∀ p ∈ (c.withoutCaller key).attachers, p ∈ c.attachers := by
  intro p member
  obtain ⟨entry, held, attaching⟩ := List.mem_filterMap.mp member
  exact List.mem_filterMap.mpr ⟨entry, (List.mem_filter.mp held).1, attaching⟩

theorem caller_attachers (key : Nat) : ∀ p ∈ (c.moveCaller key).attachers, p ∈ c.attachers := by
  intro p member
  simp only [moveCaller] at member
  cases found : c.caller? key with
  | none => simpa only [found] using member
  | some caller =>
      rcases moved : caller.move c.clock c.tasksEnded c.hub with ⟨progress, hub⟩
      simp only [found, moved] at member
      cases progress with
      | inr result => exact without_attachers key p member
      | inl next =>
          obtain ⟨entry, held, attaching⟩ := List.mem_filterMap.mp member
          obtain ⟨old, present, rfl⟩ := List.mem_map.mp held
          by_cases own : old.1 = key
          · obtain ⟨first, located, rfl⟩ := Option.map_eq_some_iff.mp found
            simp only [own, beq_self_eq_true, if_true, move_attaching _ _ _ _ _ _ moved] at attaching
            exact List.mem_filterMap.mpr ⟨first, List.mem_of_find?_eq_some located, attaching⟩
          · simp only [beq_eq_false_iff_ne.mpr own, Bool.false_eq_true, if_false] at attaching
            exact List.mem_filterMap.mpr ⟨old, present, attaching⟩

theorem ask_unsettled (use : Use) (cancel : Option Token) (asked : Asked) (clock : Clock) (h : Hub)
    (matched : h.calls.Matched)
    (caller : Caller) (p : TargetId × Call) (begins : (Caller.beginAsk use cancel asked clock h).1 = .inl caller)
    (attaching : caller.attaching? = some p) :
    (Caller.beginAsk use cancel asked clock h).2.calls.outcome? p.2 = none := by
  have after : (h.post asked).2.calls.Matched := by
    rw [Hub.post_table]
    exact CallTable.performs_matched matched _
  simp only [Caller.beginAsk] at begins ⊢
  split at begins
  · cases begins
  · next live =>
      rw [if_neg live]
      rcases posted : h.post asked with ⟨result, hub⟩
      rw [posted] at after begins
      cases result with
      | error fault => cases begins
      | ok call =>
          cases begins
          have own : p.2 = call := by
            cases use <;> cases attaching
            rfl
          obtain ⟨slot, held, same, isOpen⟩ : ∃ slot ∈ hub.calls.slots, slot.call = call ∧ slot.outcome = none := by
            simp only [Hub.post_eq] at posted
            split at posted
            · cases posted
            · split at posted
              · cases posted
              · split at posted
                · cases posted
                · next registered =>
                    cases posted
                    obtain ⟨_, made⟩ := CallTable.register_ok _ _ _ _ registered
                    cases made
                    exact ⟨_, List.mem_append_right _ (List.mem_singleton.mpr rfl), rfl, rfl⟩
          rw [own, ← same, CallTable.outcome_of_slot after slot held, isOpen]

theorem enter_attachers (before : Connection) (begun : Progress × Hub) (callers : before.callers = c.callers)
    (unsettled : ∀ caller p, begun.1 = .inl caller → caller.attaching? = some p → begun.2.calls.outcome? p.2 = none) :
    ∀ p ∈ (before.enter begun).2.attachers, p ∈ c.attachers ∨ (before.enter begun).2.hub.calls.outcome? p.2 = none := by
  intro p member
  rcases begun with ⟨progress, hub⟩
  cases progress with
  | inl caller =>
      simp only [enter, attachers, List.filterMap_append, List.mem_append, callers] at member
      rcases member with old | new
      · exact Or.inl old
      · obtain ⟨entry, own, attaching⟩ := List.mem_filterMap.mp new
        rw [List.mem_singleton.mp own] at attaching
        exact Or.inr (unsettled caller p rfl attaching)
  | inr result =>
      left
      rw [enter_concluded, attachers_of_callers _ close_unheld_same.1] at member
      simpa only [concluded, attachers, callers] using member

theorem start_attachers (sound : c.Sound) (operation : Operation) :
    ∀ p ∈ (c.act (.begin operation)).attachers,
      p ∈ c.attachers ∨ (c.act (.begin operation)).hub.calls.outcome? p.2 = none := by
  have others : ∀ begun : Progress × Hub, (∀ caller, begun.1 = .inl caller → caller.attaching? = none) →
      ∀ caller p, begun.1 = .inl caller → caller.attaching? = some p → begun.2.calls.outcome? p.2 = none := by
    intro begun none_ caller p begins attaching
    rw [none_ caller begins] at attaching
    cases attaching
  cases operation with
  | ask use cancel asked => exact enter_attachers c _ rfl (ask_unsettled use cancel asked c.clock c.hub sound.matched)
  | execute cancel command scope => exact enter_attachers c _ rfl (ask_unsettled _ cancel _ c.clock c.hub sound.matched)
  | attach target cancel => exact enter_attachers c _ rfl (ask_unsettled _ cancel _ c.clock c.hub sound.matched)
  | send asked =>
      refine enter_attachers c _ rfl (others _ ?_)
      intro caller begins
      simp only [Caller.beginSend] at begins
      split at begins <;> cases begins
      rfl
  | detach session cancel =>
      refine enter_attachers c _ rfl (others _ ?_)
      intro caller begins
      simp only [Caller.beginDetach] at begins
      split at begins
      · cases begins
      · split at begins
        · cases begins
        · simp only [Caller.beginCommand, Caller.beginAsk] at begins
          split at begins
          · cases begins
          · split at begins <;> cases begins
            rfl
  | waitForTarget target milliseconds =>
      refine enter_attachers c _ rfl (others _ ?_)
      intro caller begins
      simp only [Caller.beginSeek, Caller.ofLook] at begins
      split at begins
      · cases begins
      · split at begins <;> cases begins
        rfl
  | waitForEvent filter milliseconds =>
      refine enter_attachers c _ rfl (others _ ?_)
      intro caller begins
      cases begins
      rfl
  | waitForCall w =>
      simp only [act, start]
      split
      · refine enter_attachers c _ rfl (others _ ?_)
        intro caller begins
        cases begins
        rfl
      · exact fun p member => Or.inl member
  | waitForNext stream milliseconds =>
      simp only [act, start]
      split
      · refine enter_attachers c _ rfl (others _ ?_)
        intro caller begins
        cases begins
        rfl
      · exact fun p member => Or.inl member
  | close =>
      refine enter_attachers { c.shutdown .closedHere with joined := true } _ rfl (others _ ?_)
      intro caller begins
      cases begins
      rfl
  | waitUntilClosed =>
      refine enter_attachers c _ rfl (others _ ?_)
      intro caller begins
      cases begins
      rfl

theorem act_attachers (sound : c.Sound) (a : Act) :
    ∀ p ∈ (c.act a).attachers, p ∈ c.attachers ∨ (c.act a).hub.calls.outcome? p.2 = none := by
  have unchanged : ∀ after : Connection, after.callers = c.callers → ∀ p ∈ after.attachers, p ∈ c.attachers := by
    intro after same p member
    rw [attachers_of_callers after same] at member
    exact member
  cases a with
  | begin operation => exact start_attachers sound operation
  | move activity =>
      intro p member
      left
      simp only [act, move] at member
      rw [attachers_of_callers _ close_unheld_same.1] at member
      cases activity with
      | reader =>
          refine unchanged c.moveReader ?_ p member
          simp only [moveReader]
          split
          · rfl
          · split <;> rfl
      | writer => exact writer_attachers (c := c) ▸ member
      | caller key => exact caller_attachers key p member
      | handler stream =>
          refine unchanged (c.moveHandler stream) ?_ p member
          simp only [moveHandler]
          split
          · rfl
          · split
            · split <;> rfl
            · split
              · rfl
              · split <;> rfl
  | abort key =>
      intro p member
      left
      simp only [act, abort] at member
      split at member
      · exact member
      · rw [attachers_of_callers _ close_unheld_same.1] at member
        exact without_attachers key p member
  | release => exact fun p member => Or.inl (unchanged _ (close_unheld_same (c := { c with held := false })).1 p member)
  | poll call =>
      refine fun p member => Or.inl (unchanged _ ?_ p member)
      simp only [act]
      split
      · split <;> rfl
      · rfl
  | recv | drain | dropStream | dropCall =>
      refine fun p member => Or.inl (unchanged _ ?_ p member)
      simp only [act]
      split <;> rfl
  | _ => exact fun p member => Or.inl (unchanged _ rfl p member)

def Grants (c : Connection) (a : Act) (session : SessionId) (target : TargetId) : Prop :=
  ∃ r call, c.hears? a = some r ∧ r.grants? = some session ∧ (target, call) ∈ c.attachers ∧ call.id = r.id

theorem grant_origin (sound : c.Sound) (a : Act) (session : SessionId) (target : TargetId)
    (granted : (session, target) ∈ (c.act a).granted) : (session, target) ∈ c.granted ∨ c.Grants a session target := by
  obtain ⟨call, r, attaching, settled, grants⟩ := (granted_iff session target).mp granted
  have old : (target, call) ∈ c.attachers := by
    rcases act_attachers sound a _ attaching with old | fresh
    · exact old
    · rw [settled] at fresh
      cases fresh
  obtain ⟨after, held, rfl, has⟩ := CallTable.slot_of_outcome call (.ok r) settled
  rcases response_origin sound a after held r has with ⟨before, present, same, had⟩ | ⟨heard, id, _⟩
  · left
    rw [← same] at old
    have outcome := CallTable.outcome_of_slot sound.matched before present
    exact (granted_iff session target).mpr ⟨before.call, r, old, outcome.trans had, grants⟩
  · exact Or.inr ⟨r, after.call, heard, grants, old, id.symm⟩

-- A session that may come with an act: its caller has been granted it, or the reader notes it.
def Admits (c : Connection) (a : Act) (session : SessionId) (target : TargetId) : Prop :=
  (session, target) ∈ c.granted ∨ ∃ e, c.notes? a = some e ∧ e.attaches? = some (session, target)

theorem act_attaches (kept : c.Kept) (a : Act) : c.hub.sessions.Attaches (c.Admits a) (c.act a).hub.sessions := by
  obtain ⟨deeds, made, allowed, _⟩ := act_deeds kept a
  rw [made]
  apply Hub.performs_attaches
  intro d member session target brings
  have cause := allowed d member
  cases d with
  | attach other its =>
      obtain ⟨rfl, rfl⟩ := brings
      exact Or.inl cause
  | frame bytes =>
      obtain ⟨rfl, isOpen, received⟩ := cause
      obtain ⟨e, decoded, tells⟩ := brings
      exact Or.inr ⟨e, by simp [notes?, isOpen, received, decoded], tells⟩
  | _ => cases brings

theorem run_attaches (sound : c.Sound) (acts : List Act) :
    c.hub.sessions.Attaches (fun _ _ => True) (c.run acts).hub.sessions := by
  induction acts generalizing c with
  | nil => exact SessionTable.attaches_same _ rfl rfl
  | cons a acts ih =>
      exact SessionTable.attaches_trans (SessionTable.attaches_mono (act_attaches sound.kept a) fun _ _ _ => trivial)
        (ih (act_sound sound a))

theorem act_detached (kept : c.Kept) (a : Act) (keeps : a ≠ .purge) (session : SessionId)
    (detached : c.hub.sessions.isDetached session = true) : (c.act a).hub.sessions.isDetached session = true := by
  obtain ⟨deeds, made, allowed, _⟩ := act_deeds kept a
  rw [made]
  apply Hub.performs_detached _ _ _ session detached
  exact fun member => keeps (allowed _ member)

end

def incoming (text : String) : Act := .far (.hand (.frame (Utf8.encode text)))

end Connection

end DevTools
