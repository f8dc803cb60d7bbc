import DevTools.Proofs.Connection.Outbox
/- The course of one caller. What is said of it holds through a run if it survives the caller's own moves and what the
   writer tells it. -/

set_option autoImplicit false

namespace DevTools

theorem Caller.learn_sending (tells : List (Call × Written)) (call : Call) (written : Option Written) :
    ∃ now, (Caller.sending call written).learn tells = .sending call now := by
  apply Caller.learn_induction (P := fun caller => ∃ now, caller = .sending call now) _ tells _ ⟨written, rfl⟩
  rintro _ other result ⟨now, rfl⟩
  simp only [Caller.acknowledge]
  split <;> exact ⟨_, rfl⟩

theorem Caller.learn_asking (tells : List (Call × Written)) (use : Use) (cancel : Option Token) (call : Call)
    (written : Option Written) :
    ∃ now, (Caller.asking use cancel call written).learn tells = .asking use cancel call now := by
  apply Caller.learn_induction (P := fun caller => ∃ now, caller = .asking use cancel call now) _ tells _ ⟨written, rfl⟩
  rintro _ other result ⟨now, rfl⟩
  simp only [Caller.acknowledge]
  split <;> exact ⟨_, rfl⟩

theorem Caller.learn_awaiting (tells : List (Call × Written)) (use : Use) (w : CallWait) :
    (Caller.awaiting use w).learn tells = .awaiting use w := by
  apply Caller.learn_induction (P := fun caller => caller = .awaiting use w) _ tells _ rfl
  rintro _ other result rfl
  rfl

namespace Connection

structure Follows (c : Connection) (key : Nat) (going : Caller → Prop) (ended : Except Error Answer → Prop) : Prop where
  going : ∀ caller, (key, caller) ∈ c.callers → going caller
  ended : ∀ result, (key, result) ∈ c.finished → ended result

-- What is said of the caller survives the act, if the caller moves in it or is told of its frame.
structure Guides (c : Connection) (a : Act) (key : Nat) (going : Caller → Prop) (ended : Except Error Answer → Prop) :
    Prop where
  moves : a = .move (.caller key) → ∀ caller after, (key, caller) ∈ c.callers → going caller →
    (caller.move c.clock c.tasksEnded c.hub).1 = .inl after → going after
  ends : a = .move (.caller key) → ∀ caller result, (key, caller) ∈ c.callers → going caller →
    (caller.move c.clock c.tasksEnded c.hub).1 = .inr result → ended result
  told : a = .move .writer → ∀ caller tells, going caller → Reports c c.moveWriter tells → going (caller.learn tells)

def Filed (c : Connection) : Prop := ∀ entry ∈ c.finished, entry.1 < c.nextCaller

section
variable {c : Connection} {a : Act} {key : Nat} {going : Caller → Prop} {ended : Except Error Answer → Prop}

theorem act_follows (guides : Guides c a key going ended) (follows : Follows c key going ended)
    (old : key < c.nextCaller) :
    Follows (c.act a) key going ended := by
  constructor
  · intro caller member
    cases act_comes a key caller member with
    | stays key caller held => exact follows.going caller held
    | begins => exact absurd old (Nat.lt_irrefl _)
    | moves key before caller is held goesOn =>
        exact guides.moves is before caller held (follows.going before held) goesOn
    | told key before tells is held reports => exact guides.told is before tells (follows.going before held) reports
  · intro result member
    cases act_ends a key result member with
    | stays key result was => exact follows.ended result was
    | begins => exact absurd old (Nat.lt_irrefl _)
    | moves key before result is held ends => exact guides.ends is before result held (follows.going before held) ends

theorem act_next_le (a : Act) : c.nextCaller ≤ (c.act a).nextCaller := by
  rcases act_next (c := c) a with same | ⟨next, _⟩ <;> omega

theorem run_follows (acts : List Act) (guides : ∀ x b, (x, b) ∈ trace act c acts → Guides x b key going ended)
    (follows : Follows c key going ended) (old : key < c.nextCaller) : Follows (c.run acts) key going ended := by
  induction acts generalizing c with
  | nil => exact follows
  | cons a acts ih =>
      have first := act_follows (guides c a List.mem_cons_self) follows old
      exact ih (fun x b member => guides x b (List.mem_cons_of_mem _ member)) first
        (Nat.lt_of_lt_of_le old (act_next_le a))

theorem act_filed (keyed : c.Keyed) (filed : c.Filed) (a : Act) : (c.act a).Filed := by
  have bound := act_next_le (c := c) a
  rintro ⟨key, result⟩ member
  cases act_ends a key result member with
  | stays key result was => exact Nat.lt_of_lt_of_le (filed _ was) bound
  | begins operation result hub is opens =>
      subst is
      rw [(begin_entered operation _ opens).next]
      exact Nat.lt_succ_self _
  | moves key before result is held => exact Nat.lt_of_lt_of_le (keyed key (List.mem_map_of_mem held)) bound

theorem run_filed (keyed : c.Keyed) (filed : c.Filed) (acts : List Act) : (c.run acts).Filed := by
  induction acts generalizing c with
  | nil => exact filed
  | cons a acts ih => exact ih (act_keyed keyed a) (act_filed keyed filed a)

theorem initial_filed (config : Config) (link : Link) : (ofLink config link).Filed := fun _ member => nomatch member

theorem begin_follows (keyed : c.Keyed) (filed : c.Filed) (operation : Operation) (begun : Progress × Hub)
    (opens : c.opening? operation = some begun) (first : ∀ caller, begun.1 = .inl caller → going caller)
    (done : ∀ result, begun.1 = .inr result → ended result) :
    Follows (c.act (.begin operation)) c.nextCaller going ended := by
  constructor
  · intro caller member
    cases act_comes _ _ caller member with
    | stays key caller held => exact absurd (keyed _ (List.mem_map_of_mem held)) (Nat.lt_irrefl _)
    | begins other caller hub is starts =>
        cases is
        cases opens.symm.trans starts
        exact first caller rfl
    | moves key before caller is => cases is
    | told key before tells is => cases is
  · intro result member
    cases act_ends _ _ result member with
    | stays key result was => exact absurd (filed _ was) (Nat.lt_irrefl _)
    | begins other result hub is starts =>
        cases is
        cases opens.symm.trans starts
        exact done result rfl
    | moves key before result is => cases is

theorem course_follows (keyed : c.Keyed) (filed : c.Filed) (operation : Operation) (begun : Progress × Hub)
    (opens : c.opening? operation = some begun) (first : ∀ caller, begun.1 = .inl caller → going caller)
    (done : ∀ result, begun.1 = .inr result → ended result) (later : List Act)
    (guides : ∀ x b, (x, b) ∈ trace act (c.act (.begin operation)) later → Guides x b c.nextCaller going ended) :
    Follows ((c.act (.begin operation)).run later) c.nextCaller going ended := by
  apply run_follows later guides (begin_follows keyed filed operation begun opens first done)
  rw [(begin_entered operation begun opens).next]
  exact Nat.lt_succ_self _

end

end Connection

end DevTools
