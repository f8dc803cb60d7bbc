import DevTools.Proofs.Connection.MoveDeed

set_option autoImplicit false

namespace DevTools

namespace Connection

section
variable {c : Connection} {a : Act}

theorem enter_deeds (kept : c.Kept) (before : Connection) (begun : Progress × Hub)
    (same : c.act a = (before.enter begun).2)
    (ordinary : c.trigger? a = if c.isHeld && !(c.act a).isHeld then some .closedHere else none)
    (does : ∃ deeds, Does c a begun.2 deeds) : ∃ deeds, Does c a (c.act a).hub deeds := by
  rcases begun with ⟨progress, hub⟩
  cases progress with
  | inl caller =>
      rw [same]
      exact does
  | inr result =>
      exact does_close kept (before.concluded hub result) (same.trans (enter_concluded hub result)) ordinary does

theorem post_deeds (operation : Operation) (asked : Asked) (silent : ∀ stream, c.yields a stream = [])
    (begins : a = .begin operation) : ∃ deeds, Does c a (c.hub.post asked).2 deeds :=
  does_one (.post asked) ⟨operation, begins⟩ (fun stream => (silent stream).symm)

theorem begin_send_hub (asked : Asked) (h : Hub) : (Caller.beginSend asked h).2 = (h.post asked).2 := by
  simp only [Caller.beginSend]
  rcases h.post asked with ⟨result, hub⟩
  cases result <;> rfl

theorem begin_ask_hub (use : Use) (cancel : Option Token) (asked : Asked) (clock : Clock) (h : Hub) :
    (Caller.beginAsk use cancel asked clock h).2 = if clock.hasFired cancel then h else (h.post asked).2 := by
  simp only [Caller.beginAsk]
  split
  · rfl
  · rcases h.post asked with ⟨result, hub⟩
    cases result <;> rfl

theorem ask_deeds (operation : Operation) (use : Use) (cancel : Option Token) (asked : Asked)
    (silent : ∀ stream, c.yields a stream = []) (begins : a = .begin operation) :
    ∃ deeds, Does c a (Caller.beginAsk use cancel asked c.clock c.hub).2 deeds := by
  rw [begin_ask_hub]
  split
  · exact does_nothing silent
  · exact post_deeds operation asked silent begins

theorem begin_detach_hub (session : SessionId) (cancel : Option Token) (clock : Clock) (h : Hub) :
    (Caller.beginDetach session cancel clock h).2 = (h.detachHere session).2 ∨
      ∃ asked, (Caller.beginDetach session cancel clock h).2 = ((h.detachHere session).2.post asked).2 := by
  have unknown : h.sessions.get? session = none → (h.detachHere session).2 = h := by
    intro missing
    simp [Hub.detachHere, SessionTable.markDetached, missing]
  simp only [Caller.beginDetach]
  cases known : h.sessions.get? session with
  | none => exact Or.inl (unknown known).symm
  | some s =>
      rcases h.detachHere session with ⟨attached, hub⟩
      cases attached with
      | false => exact Or.inl rfl
      | true =>
          simp only [Caller.beginCommand, begin_ask_hub]
          split
          · exact Or.inl rfl
          · exact Or.inr ⟨_, rfl⟩

theorem detach_deeds (session : SessionId) (cancel : Option Token) :
    ∃ deeds, Does c (.begin (.detach session cancel)) (Caller.beginDetach session cancel c.clock c.hub).2 deeds := by
  have detaches : ∃ deeds, Does c (.begin (.detach session cancel)) (c.hub.perform (.detach session)) deeds :=
    does_one (.detach session) ⟨cancel, rfl⟩ (fun _ => rfl)
  rcases begin_detach_hub session cancel c.clock c.hub with only | ⟨asked, posts⟩
  · rw [only]
    exact detaches
  · rw [posts]
    exact does_then _ (.post asked) ⟨_, rfl⟩ (fun _ _ => rfl) detaches

theorem start_deeds (kept : c.Kept) (operation : Operation) :
    ∃ deeds, Does c (.begin operation) (c.act (.begin operation)).hub deeds := by
  have silent : ∀ stream, c.yields (.begin operation) stream = [] := fun _ => rfl
  cases operation with
  | send asked =>
      apply enter_deeds kept c _ rfl rfl
      rw [begin_send_hub]
      exact post_deeds _ asked silent rfl
  | ask use cancel asked => exact enter_deeds kept c _ rfl rfl (ask_deeds _ use cancel asked silent rfl)
  | execute cancel command scope => exact enter_deeds kept c _ rfl rfl (ask_deeds _ _ cancel _ silent rfl)
  | attach target cancel => exact enter_deeds kept c _ rfl rfl (ask_deeds _ _ cancel _ silent rfl)
  | detach session cancel => exact enter_deeds kept c _ rfl rfl (detach_deeds session cancel)
  | waitForTarget target milliseconds =>
      apply enter_deeds kept c _ rfl rfl
      simp only [Caller.beginSeek]
      split
      · exact does_nothing silent
      · exact does_plainly _ _ (look_plainly c.hub c.clock target (c.clock.limit milliseconds)) (fun _ => rfl)
  | waitForEvent filter milliseconds =>
      exact enter_deeds kept c _ rfl rfl (does_one (.subscribe filter) trivial (fun _ => rfl))
  | waitForCall w =>
      simp only [act, start]
      split <;> exact does_nothing silent
  | waitForNext stream milliseconds =>
      simp only [act, start]
      split <;> exact does_nothing silent
  | close =>
      cases closed : c.hub.isClosed with
      | true =>
          have still : (c.act (.begin .close)).hub = c.hub := Hub.shutdown_closed c.hub closed .closedHere
          rw [still]
          exact does_nothing silent
      | false => exact does_one (.shutdown .closedHere) ⟨closed, rfl⟩ (fun _ => rfl)
  | waitUntilClosed => exact does_nothing silent

theorem act_deeds (kept : c.Kept) (a : Act) : ∃ deeds, Does c a (c.act a).hub deeds := by
  cases a with
  | move activity =>
      cases activity with
      | reader => exact reader_deeds kept
      | writer => exact writer_deeds kept
      | caller key => exact caller_deeds kept key
      | handler stream => exact handler_deeds kept stream
  | begin operation => exact start_deeds kept operation
  | abort key =>
      have silent : ∀ stream, c.yields (.abort key) stream = [] := fun _ => rfl
      cases found : c.caller? key with
      | none =>
          simp only [act, abort, found]
          exact does_nothing silent
      | some caller =>
          have same : c.act (.abort key) = { c.withoutCaller key with hub := caller.drop c.hub }.closeUnheld := by
            simp only [act, abort, found]
          exact does_close kept _ same rfl (does_plainly _ _ (drop_plainly caller c.hub) (fun _ => rfl))
  | release => exact does_close kept { c with held := false } rfl rfl (does_nothing fun _ => rfl)
  | purge => exact does_one .purge rfl (fun _ => rfl)
  | subscribe filter => exact does_one (.subscribe filter) trivial (fun _ => rfl)
  | onEvent filter delay answer => exact does_one (.subscribe filter) trivial (fun _ => rfl)
  | recv stream =>
      simp only [act]
      cases free : c.isFreeStream stream with
      | true => exact does_one (.take stream) trivial (fun own => by simp [yields, free, Hub.yields])
      | false => exact does_nothing (fun own => by simp [yields, free])
  | drain stream =>
      simp only [act]
      cases free : c.isFreeStream stream with
      | true =>
          apply does_one (.drain stream) trivial
          intro own
          by_cases mine : stream = own
          · subst mine
            simp [yields, free, Hub.yields]
          · simp [yields, mine, Hub.yields]
      | false => exact does_nothing (fun own => by simp [yields, free])
  | dropStream stream =>
      simp only [act]
      split
      · exact does_one (.dropStream stream) trivial (fun _ => rfl)
      · exact does_nothing (fun _ => rfl)
  | poll call =>
      simp only [act]
      split
      · cases collected : c.hub.calls.collect call with
        | none => exact does_nothing (fun _ => rfl)
        | some result =>
            have does := does_one (c := c) (a := .poll call) (.collect call) trivial (fun _ => rfl)
            simp only [Hub.perform, CallTable.perform, collected] at does
            exact does
      · exact does_nothing (fun _ => rfl)
  | dropCall call =>
      simp only [act]
      split
      · exact does_one (.abandon call) trivial (fun _ => rfl)
      · exact does_nothing (fun _ => rfl)
  | cancelHandler | advance | fire | far => exact does_nothing (fun _ => rfl)

theorem enter_held (held : c.isHeld = true) (begun : Progress × Hub) : (c.enter begun).2.isHeld = true := by
  rcases begun with ⟨progress, hub⟩
  cases progress with
  | inl caller =>
      simp only [isHeld, Bool.or_eq_true] at held
      simp only [isHeld, enter, List.any_append, Bool.or_eq_true]
      rcases held with owned | called
      · exact Or.inl owned
      · exact Or.inr (Or.inl called)
  | inr result =>
      rw [enter_concluded, alike_held close_unheld_alike]
      exact held

theorem start_held (held : c.isHeld = true) (operation : Operation) : (c.start operation).isHeld = true := by
  cases operation with
  | waitForCall w =>
      simp only [start]
      split
      · exact enter_held held _
      · exact held
  | waitForNext stream milliseconds =>
      simp only [start]
      split
      · exact enter_held held _
      · exact held
  | close => exact enter_held (c := { c.shutdown .closedHere with joined := true }) held _
  | _ => exact enter_held held _

def Act.keepsHolders : Act → Bool
  | .begin _ | .abort _ | .release | .move (.caller _) => false
  | _ => true

theorem act_alike (keeps : a.keepsHolders = true) : Alike c (c.act a) := by
  cases a with
  | move activity =>
      refine alike_trans ?_ close_unheld_alike
      cases activity with
      | reader => exact reader_moves.2
      | writer => exact writer_moves.2
      | caller key => cases keeps
      | handler stream =>
          simp only [moveHandler]
          split
          · exact alike_refl
          · split
            · split <;> exact ⟨rfl, rfl, rfl⟩
            · split
              · exact ⟨rfl, rfl, rfl⟩
              · split <;> exact ⟨rfl, rfl, rfl⟩
  | begin | abort | release => cases keeps
  | poll call =>
      simp only [act]
      split
      · split <;> exact ⟨rfl, rfl, rfl⟩
      · exact alike_refl
  | recv | drain | dropStream | dropCall =>
      simp only [act]
      split <;> exact ⟨rfl, rfl, rfl⟩
  | _ => exact ⟨rfl, rfl, rfl⟩

theorem act_kept (kept : c.Kept) (a : Act) : (c.act a).Kept := by
  rcases kept with closed | held
  · left
    exact does_closed (act_deeds (Or.inl closed) a) closed
  · cases keeps : a.keepsHolders with
    | true => exact Or.inr ((alike_held (act_alike keeps)).trans held)
    | false =>
        cases a with
        | begin operation => exact Or.inr (start_held held operation)
        | abort key =>
            simp only [act, abort]
            split
            · exact Or.inr held
            · exact close_unheld_kept
        | release => exact close_unheld_kept
        | move activity => exact close_unheld_kept
        | _ => cases keeps

end

theorem initial_kept (config : Config) (link : Link) : (ofLink config link).Kept := Or.inr rfl

end Connection

end DevTools
