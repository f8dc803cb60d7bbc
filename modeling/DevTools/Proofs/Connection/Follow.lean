import DevTools.Proofs.Connection.Writer

set_option autoImplicit false

namespace DevTools

def Operation.isRequest : Operation → Bool
  | .ask .. | .execute .. | .attach .. | .detach .. => true
  | _ => false

theorem detach_closed (h : Hub) (session : SessionId) : (h.detachHere session).2.isClosed = h.isClosed := by
  obtain ⟨_, _, made⟩ := Hub.detach_hub h session
  rw [made]
  rfl

inductive Requested (closed : Bool) : Progress → Prop where
  | ended (result : Except Error Answer) : Requested closed (.inr result)
  | asks (use : Use) (cancel : Option Token) (call : Call) (asked : Asked) (h : Hub) (same : h.isClosed = closed)
      (posts : (h.post asked).1 = .ok call) : Requested closed (.inl (.asking use cancel call none))

theorem ask_requested (use : Use) (cancel : Option Token) (asked : Asked) (clock : Clock) (h : Hub) :
    Requested h.isClosed (Caller.beginAsk use cancel asked clock h).1 := by
  simp only [Caller.beginAsk]
  split
  · exact .ended _
  · rcases posted : h.post asked with ⟨result, after⟩
    cases result with
    | ok call => exact .asks use cancel call asked h rfl (congrArg Prod.fst posted)
    | error fault => exact .ended _

namespace Connection

-- What an operation begins with. A handle that is not free cannot be waited for.
def opening? (c : Connection) : Operation → Option (Progress × Hub)
  | .send asked => some (Caller.beginSend asked c.hub)
  | .ask use cancel asked => some (Caller.beginAsk use cancel asked c.clock c.hub)
  | .execute cancel command scope => some (Caller.beginCommand command.use cancel command scope c.clock c.hub)
  | .attach target cancel => some (Caller.beginAttach target cancel c.clock c.hub)
  | .detach session cancel => some (Caller.beginDetach session cancel c.clock c.hub)
  | .waitForTarget target milliseconds => some (Caller.beginSeek target milliseconds c.clock c.hub)
  | .waitForEvent filter milliseconds => some (Caller.beginListen filter milliseconds c.clock c.hub)
  | .waitForCall w => if c.isFreeCall w.call then some (.inl (.collecting w), c.hub) else none
  | .waitForNext stream milliseconds =>
      if c.isFreeStream stream then some (.inl (.listening ⟨stream, c.clock.limit milliseconds⟩ false), c.hub) else none
  | .close => some (.inl (.closing !c.joined), c.hub.shutdown .closedHere)
  | .waitUntilClosed => some (.inl .untilClosed, c.hub)

inductive Comes (c : Connection) (a : Act) : Nat → Caller → Prop where
  | stays (key : Nat) (caller : Caller) (held : (key, caller) ∈ c.callers) : Comes c a key caller
  | begins (operation : Operation) (caller : Caller) (hub : Hub) (is : a = .begin operation)
      (opens : c.opening? operation = some (.inl caller, hub)) : Comes c a c.nextCaller caller
  | moves (key : Nat) (before caller : Caller) (is : a = .move (.caller key)) (held : (key, before) ∈ c.callers)
      (goesOn : (before.move c.clock c.tasksEnded c.hub).1 = .inl caller) : Comes c a key caller
  | told (key : Nat) (before : Caller) (tells : List (Call × Written)) (is : a = .move .writer)
      (held : (key, before) ∈ c.callers)
      (reports : Reports c c.moveWriter tells) : Comes c a key (before.learn tells)

inductive Ends (c : Connection) (a : Act) : Nat → Except Error Answer → Prop where
  | stays (key : Nat) (result : Except Error Answer) (was : (key, result) ∈ c.finished) : Ends c a key result
  | begins (operation : Operation) (result : Except Error Answer) (hub : Hub) (is : a = .begin operation)
      (opens : c.opening? operation = some (.inr result, hub)) : Ends c a c.nextCaller result
  | moves (key : Nat) (before : Caller) (result : Except Error Answer) (is : a = .move (.caller key))
      (held : (key, before) ∈ c.callers)
      (ends : (before.move c.clock c.tasksEnded c.hub).1 = .inr result) : Ends c a key result

def Act.isCalm : Act → Bool
  | .begin _ | .abort _ | .move (.caller _) | .move .writer => false
  | _ => true

section
variable {c : Connection} {a : Act}

structure Entered (c after : Connection) (begun : Progress × Hub) : Prop where
  callers : after.callers = c.callers ++ begun.1.getLeft?.toList.map (c.nextCaller, ·)
  finished : after.finished = c.finished ++ begun.1.getRight?.toList.map (c.nextCaller, ·)
  next : after.nextCaller = c.nextCaller + 1
  outbound : after.hub.outbound = begun.2.outbound
  writer : after.writer = c.writer

theorem enter_entered (before : Connection) (begun : Progress × Hub) (callers : before.callers = c.callers)
    (finished : before.finished = c.finished) (next : before.nextCaller = c.nextCaller)
    (writer : before.writer = c.writer) :
    Entered c (before.enter begun).2 begun := by
  rcases begun with ⟨progress, hub⟩
  cases progress with
  | inl caller => exact ⟨by simp [enter, callers, next], by simp [enter, finished], by simp [enter, next], rfl, writer⟩
  | inr result =>
      rw [enter_concluded]
      refine ⟨?_, ?_, ?_, unheld_outbound _, (unheld_writer _).trans writer⟩
      · rw [close_unheld_same.1]
        simp [concluded, callers]
      · rw [close_unheld_same.2]
        simp [concluded, finished, next]
      · rw [close_unheld_alike.next]
        simp [concluded, next]

theorem begin_entered (operation : Operation) (begun : Progress × Hub) (opens : c.opening? operation = some begun) :
    Entered c (c.act (.begin operation)) begun := by
  have entered : ∀ made : Progress × Hub, made = begun → Entered c (c.enter made).2 begun := by
    intro made same
    rw [same]
    exact enter_entered c begun rfl rfl rfl rfl
  cases operation with
  | waitForCall w =>
      cases free : c.isFreeCall w.call <;> simp only [opening?, free, Bool.false_eq_true, if_false, if_true] at opens
      · cases opens
      · simp only [act, start, free, if_true]
        exact entered _ (Option.some.inj opens)
  | waitForNext stream milliseconds =>
      cases free : c.isFreeStream stream <;> simp only [opening?, free, Bool.false_eq_true, if_false, if_true] at opens
      · cases opens
      · simp only [act, start, free, if_true]
        exact entered _ (Option.some.inj opens)
  | close =>
      cases opens
      exact enter_entered { c.shutdown .closedHere with joined := true } _ rfl rfl rfl rfl
  | _ => exact entered _ (Option.some.inj opens)

theorem begin_nothing (operation : Operation) (opens : c.opening? operation = none) : c.act (.begin operation) = c := by
  cases operation with
  | waitForCall w =>
      cases free : c.isFreeCall w.call <;> simp [opening?, free] at opens
      simp [act, start, free]
  | waitForNext stream milliseconds =>
      cases free : c.isFreeStream stream <;> simp [opening?, free] at opens
      simp [act, start, free]
  | _ => cases opens

structure Calm (c after : Connection) : Prop where
  callers : after.callers = c.callers
  finished : after.finished = c.finished
  next : after.nextCaller = c.nextCaller
  outbound : after.hub.outbound = c.hub.outbound
  writer : after.writer = c.writer

theorem calm_unheld (before : Connection) (calm : Calm c before) : Calm c before.closeUnheld :=
  ⟨close_unheld_same.1.trans calm.callers, close_unheld_same.2.trans calm.finished,
    close_unheld_alike.next.trans calm.next,
    (unheld_outbound before).trans calm.outbound, (unheld_writer before).trans calm.writer⟩

theorem calm_act (calm : a.isCalm = true) : Calm c (c.act a) := by
  have still : Calm c c := ⟨rfl, rfl, rfl, rfl, rfl⟩
  cases a with
  | move activity =>
      apply calm_unheld
      cases activity with
      | reader =>
          simp only [moveReader]
          split
          · exact ⟨rfl, rfl, rfl, rfl, rfl⟩
          · split
            · exact ⟨rfl, rfl, rfl, frame_outbound _ _, rfl⟩
            · exact ⟨rfl, rfl, rfl, shutdown_outbound _ _, rfl⟩
            · exact ⟨rfl, rfl, rfl, shutdown_outbound _ _, rfl⟩
            · exact ⟨rfl, rfl, rfl, rfl, rfl⟩
            · exact ⟨rfl, rfl, rfl, rfl, rfl⟩
      | handler stream =>
          simp only [moveHandler]
          split
          · exact still
          · split
            · split <;> exact ⟨rfl, rfl, rfl, rfl, rfl⟩
            · split
              · exact ⟨rfl, rfl, rfl, rfl, rfl⟩
              · split <;> exact ⟨rfl, rfl, rfl, rfl, rfl⟩
      | writer | caller => cases calm
  | begin | abort => cases calm
  | release => exact calm_unheld { c with held := false } ⟨rfl, rfl, rfl, rfl, rfl⟩
  | poll call =>
      simp only [act]
      split
      · split <;> exact ⟨rfl, rfl, rfl, rfl, rfl⟩
      · exact still
  | recv | drain | dropStream | dropCall =>
      simp only [act]
      split <;> exact ⟨rfl, rfl, rfl, rfl, rfl⟩
  | _ => exact ⟨rfl, rfl, rfl, rfl, rfl⟩

theorem request_opens (operation : Operation) (request : operation.isRequest = true) (begun : Progress × Hub)
    (opens : c.opening? operation = some begun) : Requested c.hub.isClosed begun.1 := by
  cases operation with
  | ask use cancel asked => exact Option.some.inj opens ▸ ask_requested use cancel asked c.clock c.hub
  | execute cancel command scope => exact Option.some.inj opens ▸ ask_requested _ cancel _ c.clock c.hub
  | attach target cancel => exact Option.some.inj opens ▸ ask_requested _ cancel _ c.clock c.hub
  | detach session cancel =>
      have still := detach_closed c.hub session
      simp only [opening?, Caller.beginDetach] at opens
      split at opens
      · cases opens
        exact .ended _
      · split at opens
        · cases opens
          exact .ended _
        · next made =>
            rw [made] at still
            rw [← still]
            exact Option.some.inj opens ▸ ask_requested _ cancel _ c.clock _
  | _ => cases request

structure Stands (c : Connection) (callers : List (Nat × Caller)) (finished : List (Nat × Except Error Answer))
    (next : Nat) : Prop where
  callers : c.callers = callers
  finished : c.finished = finished
  next : c.nextCaller = next

theorem stands_unheld (before : Connection) :
    Stands before.closeUnheld before.callers before.finished before.nextCaller :=
  ⟨close_unheld_same.1, close_unheld_same.2, close_unheld_alike.next⟩

-- An act leaves everybody alone, lets one begin, go on or end, drops one, or tells some of their frames.
inductive Treats (c : Connection) (a : Act) : Prop where
  | rests (stands : Stands (c.act a) c.callers c.finished c.nextCaller) : Treats c a
  | begins (operation : Operation) (begun : Progress × Hub) (is : a = .begin operation)
      (opens : c.opening? operation = some begun)
      (entered : Entered c (c.act a) begun) : Treats c a
  | goesOn (key : Nat) (before after : Caller) (is : a = .move (.caller key)) (held : (key, before) ∈ c.callers)
      (moved : (before.move c.clock c.tasksEnded c.hub).1 = .inl after)
      (stands : Stands (c.act a) (c.callers.map fun old => if old.1 == key then (key, after)
        else old) c.finished c.nextCaller) : Treats c a
  | ends (key : Nat) (before : Caller) (result : Except Error Answer) (is : a = .move (.caller key))
      (held : (key, before) ∈ c.callers)
      (moved : (before.move c.clock c.tasksEnded c.hub).1 = .inr result)
      (stands : Stands (c.act a) (c.callers.filter fun entry => entry.1 != key)
        (c.finished ++ [(key, result)]) c.nextCaller) : Treats c a
  | drops (key : Nat) (is : a = .abort key)
      (stands : Stands (c.act a) (c.callers.filter fun entry => entry.1 != key) c.finished c.nextCaller) : Treats c a
  | tells (tells : List (Call × Written)) (is : a = .move .writer) (reports : Reports c c.moveWriter tells)
      (stands : Stands (c.act a) (c.callers.map fun entry => (entry.1, entry.2.learn tells)) c.finished c.nextCaller) :
      Treats c a

theorem caller_member (key : Nat) (caller : Caller) (found : c.caller? key = some caller) :
    (key, caller) ∈ c.callers := by
  obtain ⟨⟨own, _⟩, located, rfl⟩ := Option.map_eq_some_iff.mp found
  have same : own = key := by simpa using List.find?_some located
  exact same ▸ List.mem_of_find?_eq_some located

theorem caller_treats (key : Nat) : Treats c (.move (.caller key)) := by
  have stands : Stands (c.act (.move (.caller key))) (c.moveCaller key).callers (c.moveCaller key).finished
      (c.moveCaller key).nextCaller :=
    stands_unheld (c.moveCaller key)
  cases found : c.caller? key with
  | none =>
      have still : c.moveCaller key = c := by simp only [moveCaller, found]
      rw [still] at stands
      exact .rests stands
  | some before =>
      rcases moved : before.move c.clock c.tasksEnded c.hub with ⟨progress, hub⟩
      cases progress with
      | inl after =>
          simp only [moveCaller, found, moved] at stands
          exact .goesOn key before after rfl (caller_member key before found) (congrArg Prod.fst moved) stands
      | inr result =>
          simp only [moveCaller, found, moved] at stands
          exact .ends key before result rfl (caller_member key before found) (congrArg Prod.fst moved) stands

theorem act_treats (a : Act) : Treats c a := by
  cases calm : a.isCalm with
  | true =>
      have still := calm_act (c := c) calm
      exact .rests ⟨still.callers, still.finished, still.next⟩
  | false =>
      cases a with
      | begin operation =>
          cases opens : c.opening? operation with
          | none =>
              have still := begin_nothing operation opens
              exact .rests ⟨congrArg callers still, congrArg finished still, congrArg nextCaller still⟩
          | some begun => exact .begins operation begun rfl opens (begin_entered operation begun opens)
      | abort key =>
          cases found : c.caller? key with
          | none =>
              have still : c.act (.abort key) = c := by simp only [act, abort, found]
              exact .rests ⟨congrArg callers still, congrArg finished still, congrArg nextCaller still⟩
          | some caller =>
              apply Treats.drops key rfl
              simp only [act, abort, found]
              exact stands_unheld _
      | move activity =>
          cases activity with
          | caller key => exact caller_treats key
          | writer =>
              obtain ⟨tells, reports⟩ := writer_reports (c := c)
              have stands := stands_unheld c.moveWriter
              have next : c.moveWriter.nextCaller = c.nextCaller := writer_moves.2.next
              rw [reports.told.1, reports.told.2, next] at stands
              exact .tells tells rfl reports stands
          | reader | handler => cases calm
      | _ => cases calm

theorem act_comes (a : Act) (key : Nat) (caller : Caller) (member : (key, caller) ∈ (c.act a).callers) :
    Comes c a key caller := by
  cases act_treats (c := c) a with
  | rests stands =>
      rw [stands.callers] at member
      exact .stays key caller member
  | begins operation begun is opens entered =>
      obtain ⟨progress, hub⟩ := begun
      rw [entered.callers] at member
      rcases List.mem_append.mp member with old | new
      · exact .stays key caller old
      · cases progress with
        | inl begun =>
            cases List.mem_singleton.mp new
            exact .begins operation caller hub is opens
        | inr result => cases new
  | goesOn own before after is held moved stands =>
      rw [stands.callers] at member
      obtain ⟨old, listed, same⟩ := List.mem_map.mp member
      split at same
      · cases same
        exact .moves key before caller is held moved
      · cases same
        exact .stays key caller listed
  | ends own before result is held moved stands =>
      rw [stands.callers] at member
      exact .stays key caller (List.mem_filter.mp member).1
  | drops own is stands =>
      rw [stands.callers] at member
      exact .stays key caller (List.mem_filter.mp member).1
  | tells tells is reports stands =>
      rw [stands.callers] at member
      obtain ⟨⟨own, before⟩, held, same⟩ := List.mem_map.mp member
      cases same
      exact .told own before tells is held reports

theorem act_ends (a : Act) (key : Nat) (result : Except Error Answer) (member : (key, result) ∈ (c.act a).finished) :
    Ends c a key result := by
  cases act_treats (c := c) a with
  | begins operation begun is opens entered =>
      obtain ⟨progress, hub⟩ := begun
      rw [entered.finished] at member
      rcases List.mem_append.mp member with old | new
      · exact .stays key result old
      · cases progress with
        | inl caller => cases new
        | inr ended =>
            cases List.mem_singleton.mp new
            exact .begins operation result hub is opens
  | ends own before answer is held moved stands =>
      rw [stands.finished] at member
      rcases List.mem_append.mp member with old | new
      · exact .stays key result old
      · cases List.mem_singleton.mp new
        exact .moves key before result is held moved
  | rests stands | goesOn _ _ _ _ _ _ stands | drops _ _ stands | tells _ _ _ stands =>
      rw [stands.finished] at member
      exact .stays key result member

def Distinct (c : Connection) : Prop := (c.callers.map (·.1)).Nodup

theorem caller_found (distinct : c.Distinct) (key : Nat) (caller : Caller) (held : (key, caller) ∈ c.callers) :
    c.caller? key = some caller := by
  have found := find_keyed Prod.fst c.callers distinct (key, caller) held
  rw [caller?, found]
  rfl

theorem act_distinct (keyed : c.Keyed) (distinct : c.Distinct) (a : Act) : (c.act a).Distinct := by
  have fewer : ∀ key, ((c.callers.filter fun entry => entry.1 != key).map (·.1)).Nodup :=
    fun key => distinct.sublist (List.filter_sublist.map _)
  cases act_treats (c := c) a with
  | rests stands =>
      rw [Distinct, stands.callers]
      exact distinct
  | begins operation begun is opens entered =>
      rw [Distinct, entered.callers, List.map_append]
      apply List.nodup_append.mpr
      refine ⟨distinct, by cases begun.1.getLeft? <;> simp, ?_⟩
      intro key old other new same
      have bound := keyed key old
      have next : other = c.nextCaller := by
        cases left : begun.1.getLeft? <;> simp [left] at new
        exact new
      omega
  | goesOn key before after is held moved stands =>
      have keys : (c.callers.map fun old => if old.1 == key then (key, after) else old).map (·.1) =
          c.callers.map (·.1) := by
        rw [List.map_map]
        apply List.map_congr_left
        intro old _
        by_cases own : old.1 = key <;> simp [own]
      rw [Distinct, stands.callers, keys]
      exact distinct
  | ends key _ _ _ _ _ stands | drops key _ stands =>
      rw [Distinct, stands.callers]
      exact fewer key
  | tells tells is reports stands =>
      rw [Distinct, stands.callers, List.map_map]
      exact distinct

theorem run_distinct (keyed : c.Keyed) (distinct : c.Distinct) (acts : List Act) : (c.run acts).Distinct := by
  induction acts generalizing c with
  | nil => exact distinct
  | cons a acts ih => exact ih (act_keyed keyed a) (act_distinct keyed distinct a)

def Present (c : Connection) (key : Nat) : Prop := (∃ caller, (key, caller) ∈ c.callers) ∨
    ∃ result, (key, result) ∈ c.finished

def GivenUp (seen : List (Connection × Act)) (key : Nat) : Prop :=
  ∃ x caller, (x, .abort key) ∈ seen ∧ (key, caller) ∈ x.callers

theorem act_finished (a : Act) (entry : Nat × Except Error Answer) (done : entry ∈ c.finished) :
    entry ∈ (c.act a).finished := by
  cases act_treats (c := c) a with
  | begins operation begun is opens entered =>
      rw [entered.finished]
      exact List.mem_append_left _ done
  | ends key before result is held moved stands =>
      rw [stands.finished]
      exact List.mem_append_left _ done
  | rests stands | goesOn _ _ _ _ _ _ stands | drops _ _ stands | tells _ _ _ stands =>
      rw [stands.finished]
      exact done

theorem act_caller (a : Act) (key : Nat) (caller : Caller) (held : (key, caller) ∈ c.callers) :
    (c.act a).Present key ∨ a = .abort key := by
  have others : ∀ own, key ≠ own → (key, caller) ∈ c.callers.filter fun entry => entry.1 != own :=
    fun own other => List.mem_filter.mpr ⟨held, by simpa using other⟩
  cases act_treats (c := c) a with
  | rests stands => exact Or.inl (Or.inl ⟨caller, stands.callers ▸ held⟩)
  | begins operation begun is opens entered =>
      exact Or.inl (Or.inl ⟨caller, entered.callers ▸ List.mem_append_left _ held⟩)
  | goesOn own before after is there moved stands =>
      have listed := List.mem_map_of_mem (f := fun old => if old.1 == own then (own, after) else old) held
      rw [Present, stands.callers]
      by_cases mine : key = own
      · exact Or.inl (Or.inl ⟨after, by simpa [mine] using listed⟩)
      · exact Or.inl (Or.inl ⟨caller, by simpa [mine] using listed⟩)
  | ends own before result is there moved stands =>
      rw [Present, stands.callers, stands.finished]
      by_cases mine : key = own
      · exact Or.inl (Or.inr ⟨result, List.mem_append_right _ (List.mem_singleton.mpr (by rw [mine]))⟩)
      · exact Or.inl (Or.inl ⟨caller, others own mine⟩)
  | drops own is stands =>
      by_cases mine : key = own
      · exact Or.inr (mine ▸ is)
      · exact Or.inl (Or.inl ⟨caller, stands.callers ▸ others own mine⟩)
  | tells tells is reports stands => exact Or.inl (Or.inl ⟨_, stands.callers ▸ List.mem_map_of_mem held⟩)

theorem act_present (a : Act) (key : Nat) (present : c.Present key) :
    (c.act a).Present key ∨ (a = .abort key ∧ ∃ caller, (key, caller) ∈ c.callers) := by
  rcases present with ⟨caller, held⟩ | ⟨result, done⟩
  · exact (act_caller a key caller held).imp_right fun aborts => ⟨aborts, caller, held⟩
  · exact Or.inl (Or.inr ⟨result, act_finished a _ done⟩)

theorem act_next (a : Act) : (c.act a).nextCaller = c.nextCaller ∨
    ((c.act a).nextCaller = c.nextCaller + 1 ∧ (c.act a).Present c.nextCaller) := by
  cases act_treats (c := c) a with
  | begins operation begun is opens entered =>
      obtain ⟨progress, hub⟩ := begun
      refine Or.inr ⟨entered.next, ?_⟩
      rw [Present, entered.callers, entered.finished]
      cases progress with
      | inl caller => exact Or.inl ⟨caller, List.mem_append_right _ (List.mem_singleton.mpr rfl)⟩
      | inr result => exact Or.inr ⟨result, List.mem_append_right _ (List.mem_singleton.mpr rfl)⟩
  | rests stands | goesOn _ _ _ _ _ _ stands | ends _ _ _ _ _ _ stands | drops _ _ stands | tells _ _ _ stands =>
      exact Or.inl stands.next

theorem run_present (none_ : c.nextCaller = 0) (acts : List Act) :
    ∀ key < (c.run acts).nextCaller, (c.run acts).Present key ∨ GivenUp (trace act c acts) key := by
  apply run_induction act (P := fun acts x => ∀ key < x.nextCaller, x.Present key ∨ GivenUp (trace act c acts) key) c
  · intro key below
    omega
  · intro acts a ih key below
    rw [trace_concat]
    have stays : (acts.foldl act c).Present key ∨ GivenUp (trace act c acts) key →
        ((acts.foldl act c).act a).Present key ∨ GivenUp (trace act c acts ++ [(acts.foldl act c, a)]) key := by
      rintro (present | ⟨x, caller, seen, held⟩)
      · rcases act_present a key present with there | ⟨rfl, caller, held⟩
        · exact Or.inl there
        · exact Or.inr ⟨_, caller, List.mem_append_right _ List.mem_cons_self, held⟩
      · exact Or.inr ⟨x, caller, List.mem_append_left _ seen, held⟩
    rcases act_next (c := acts.foldl act c) a with same | ⟨next, new⟩
    · exact stays (ih key (same ▸ below))
    · by_cases old : key < (acts.foldl act c).nextCaller
      · exact stays (ih key old)
      · have own : key = (acts.foldl act c).nextCaller := by omega
        exact Or.inl (own ▸ new)

structure Aside (c after : Connection) : Prop where
  link : after.link = c.link
  clock : after.clock = c.clock

def Act.isAside : Act → Bool
  | .move .reader | .move .writer | .far _ | .advance _ | .fire _ => false
  | _ => true

theorem aside_trans (middle after : Connection) (first : Aside c middle) (second : Aside middle after) :
    Aside c after :=
  ⟨second.link.trans first.link, second.clock.trans first.clock⟩

theorem unheld_aside (before : Connection) : Aside before before.closeUnheld := by
  simp only [closeUnheld]
  split <;> exact ⟨rfl, rfl⟩

theorem enter_aside (begun : Progress × Hub) : Aside c (c.enter begun).2 := by
  obtain ⟨progress, hub⟩ := begun
  cases progress with
  | inl caller => exact ⟨rfl, rfl⟩
  | inr result => exact aside_trans (c.concluded hub result) _ ⟨rfl, rfl⟩ (unheld_aside _)

theorem start_aside (operation : Operation) : Aside c (c.start operation) := by
  cases operation with
  | waitForCall | waitForNext =>
      simp only [start]
      split
      · exact enter_aside _
      · exact ⟨rfl, rfl⟩
  | close => exact aside_trans { c.shutdown .closedHere with joined := true } _ ⟨rfl, rfl⟩ (enter_aside _)
  | _ => exact enter_aside _

theorem tell_aside (queue : List Outbound) (result : Written) :
    Aside c (queue.foldl (fun c o => c.acknowledge o.call result) c) := by
  induction queue generalizing c with
  | nil => exact ⟨rfl, rfl⟩
  | cons o queue ih => exact aside_trans (c.acknowledge o.call result) _ ⟨rfl, rfl⟩ ih

theorem end_closes (before : Connection) : before.endWriter.link = before.link.close.2 :=
  congrArg (fun l => l.close.2) (tell_aside before.hub.outbound (.error .connectionClosed)).link

theorem fail_closes (before : Connection) (call : Call) (fault : Error) :
    (before.failWrite call fault).link = before.link.close.2 :=
  end_closes ((before.acknowledge call (.error fault)).shutdown (.writeFailed fault.message))

theorem act_aside (aside : a.isAside = true) : Aside c (c.act a) := by
  cases a with
  | begin operation => exact start_aside operation
  | move activity =>
      refine aside_trans _ _ ?_ (unheld_aside _)
      cases activity with
      | caller key =>
          simp only [moveCaller]
          split
          · exact ⟨rfl, rfl⟩
          · split <;> exact ⟨rfl, rfl⟩
      | handler stream =>
          simp only [moveHandler]
          split
          · exact ⟨rfl, rfl⟩
          · split
            · split <;> exact ⟨rfl, rfl⟩
            · split
              · exact ⟨rfl, rfl⟩
              · split <;> exact ⟨rfl, rfl⟩
      | reader | writer => cases aside
  | far | advance | fire => cases aside
  | abort key =>
      simp only [act, abort]
      split
      · exact ⟨rfl, rfl⟩
      · next caller _ =>
          exact aside_trans { c.withoutCaller key with hub := caller.drop c.hub } _ ⟨rfl, rfl⟩ (unheld_aside _)
  | release => exact aside_trans { c with held := false } _ ⟨rfl, rfl⟩ (unheld_aside _)
  | poll call =>
      simp only [act]
      split
      · split <;> exact ⟨rfl, rfl⟩
      · exact ⟨rfl, rfl⟩
  | recv | drain | dropStream | dropCall =>
      simp only [act]
      split <;> exact ⟨rfl, rfl⟩
  | _ => exact ⟨rfl, rfl⟩

end

end Connection

end DevTools
