import DevTools.Proofs.Connection.Calls

set_option autoImplicit false

namespace DevTools

def Operation.asks? : Operation → Option (Option Token × Asked)
  | .send asked => some (none, asked)
  | .ask _ cancel asked => some (cancel, asked)
  | .execute cancel command session => some (cancel, ⟨command.method, .payload ⟨command.params⟩, session⟩)
  | .attach target cancel =>
      some (cancel, ⟨(Command.attachFlattened target).method, .payload ⟨(Command.attachFlattened target).params⟩, none⟩)
  | _ => none

namespace Connection

-- The operation is over as soon as it begins, with an error and nothing else to show for it.
def Rejects (c : Connection) (operation : Operation) (why : Error → Prop) : Prop :=
  (c.act (.begin operation)).hub = c.hub ∧
    ∃ fault, (c.act (.begin operation)).finished = c.finished ++ [(c.nextCaller, .error fault)] ∧ why fault

section
variable {c : Connection}

theorem enter_concludes (kept : c.Kept) (hub : Hub) (result : Except Error Answer)
    (still : c.hub.isClosed = true → hub.isClosed = true) : (c.enter (.inr result, hub)).2 = c.concluded hub result :=
  close_unheld_still kept (c.concluded hub result) rfl still

theorem enter_hub (kept : c.Kept) (begun : Progress × Hub) (still : c.hub.isClosed = true → begun.2.isClosed = true) :
    (c.enter begun).2.hub = begun.2 := by
  rcases begun with ⟨progress, hub⟩
  cases progress with
  | inl caller => rfl
  | inr result => exact congrArg Connection.hub (enter_concludes kept hub result still)

theorem enter_rejects (kept : c.Kept) (operation : Operation) (fault : Error) (why : Error → Prop)
    (same : c.act (.begin operation) = (c.enter (.inr (.error fault), c.hub)).2) (because : why fault) :
    c.Rejects operation why := by
  rw [Rejects, same, enter_concludes kept c.hub (.error fault) id]
  exact ⟨rfl, fault, rfl, because⟩

theorem fired_rejects (kept : c.Kept) (operation : Operation) (cancel : Option Token) (asked : Asked)
    (asks : operation.asks? = some (cancel, asked)) (fired : c.clock.hasFired cancel = true) :
    c.Rejects operation (· = .cancelled) := by
  have waits : ∀ use, c.act (.begin operation) = (c.enter (Caller.beginAsk use cancel asked c.clock c.hub)).2 →
      c.Rejects operation (· = .cancelled) := by
    intro use same
    apply enter_rejects kept operation .cancelled (· = .cancelled) _ rfl
    rw [same, Caller.beginAsk, if_pos fired]
  cases operation with
  | send request =>
      cases asks
      cases fired
  | ask use token request =>
      cases asks
      exact waits use rfl
  | execute token command target =>
      cases asks
      exact waits command.use rfl
  | attach target token =>
      cases asks
      exact waits (.attach target) rfl
  | _ => cases asks

theorem begin_rejects (kept : c.Kept) (operation : Operation) (cancel : Option Token) (asked : Asked)
    (asks : operation.asks? = some (cancel, asked)) (fault : Error) (refused : c.hub.refusal? asked = some fault)
    (why : Error → Prop) (because : c.clock.hasFired cancel = false → why fault)
    (fires : c.clock.hasFired cancel = true → why .cancelled) : c.Rejects operation why := by
  cases fired : c.clock.hasFired cancel with
  | true =>
      obtain ⟨hub, _, finished, rfl⟩ := fired_rejects kept operation cancel asked asks fired
      exact ⟨hub, .cancelled, finished, fires fired⟩
  | false =>
      have posts : c.hub.post asked = (.error fault, c.hub) := by simp only [Hub.post_eq, refused]
      have waits : ∀ use, c.act (.begin operation) = (c.enter (Caller.beginAsk use cancel asked c.clock c.hub)).2 →
          c.Rejects operation why := by
        intro use same
        apply enter_rejects kept operation fault why _ (because fired)
        rw [same, Caller.beginAsk, fired, if_neg Bool.false_ne_true, posts]
      cases operation with
      | send request =>
          cases asks
          apply enter_rejects kept (.send asked) fault why _ (because fired)
          simp only [act, start, send, Caller.beginSend, posts]
      | ask use token request =>
          cases asks
          exact waits use rfl
      | execute token command target =>
          cases asks
          exact waits command.use rfl
      | attach target token =>
          cases asks
          exact waits (.attach target) rfl
      | _ => cases asks

theorem unheld_open (before : Connection) (isOpen : before.closeUnheld.hub.isClosed = false) :
    before.closeUnheld.hub = before.hub := by
  cases held : before.isHeld with
  | true => rw [close_unheld_of_held held]
  | false =>
      have closed : (before.shutdown .closedHere).hub.isClosed = true :=
        Hub.performs_shutdown before.hub [.shutdown .closedHere] .closedHere List.mem_cons_self
      rw [close_unheld_of_free held, closed] at isOpen
      cases isOpen

theorem enter_open_hub (begun : Progress × Hub) (isOpen : (c.enter begun).2.hub.isClosed = false) :
    (c.enter begun).2.hub = begun.2 := by
  rcases begun with ⟨progress, hub⟩
  cases progress with
  | inl caller => rfl
  | inr result =>
      rw [enter_concluded] at isOpen ⊢
      exact unheld_open (c.concluded hub result) isOpen

end

end Connection

end DevTools
