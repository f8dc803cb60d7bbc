import DevTools.Proofs.Connection.Course
import DevTools.Proofs.Connection.Tending

set_option autoImplicit false

namespace DevTools

namespace Router

variable {r : Router}

theorem performs_next_le (deeds : List RouterDeed) : r.nextId ≤ (r.performs deeds).nextId := by
  induction deeds generalizing r with
  | nil => exact Nat.le_refl _
  | cons d deeds ih =>
      have next := perform_next (r := r) d
      exact Nat.le_trans (by omega) (ih (r := r.perform d))

theorem close_next : r.close.2.nextId = r.nextId := by
  rw [close]
  split <;> rfl

end Router

namespace Connection

def Concluded (c : Connection) : Prop := ∀ x ∈ c.callers, ∀ y ∈ c.finished, x.1 ≠ y.1

-- The caller waits for an event of the stream, which is there as long as the caller is.
structure Attends (c : Connection) (key stream : Nat) : Prop where
  old : key < c.nextCaller
  known : stream < c.hub.router.nextId
  waits : ∀ caller, (key, caller) ∈ c.callers → ∃ w, caller = .listening w true ∧ w.stream = stream
  there : stream ∈ c.hub.router.ids ↔ key ∈ c.callers.map (·.1)

section
variable {c : Connection} {a : Act} {roll : List Subscriber} {key stream : Nat}

theorem act_concluded (keyed : c.Keyed) (filed : c.Filed) (concluded : c.Concluded) (a : Act) :
    (c.act a).Concluded := by
  intro x waiting y done
  cases act_treats (c := c) a with
  | rests stands =>
      rw [stands.callers] at waiting
      rw [stands.finished] at done
      exact concluded x waiting y done
  | begins operation begun is opens entered =>
      obtain ⟨progress, hub⟩ := begun
      rw [entered.callers] at waiting
      rw [entered.finished] at done
      rcases List.mem_append.mp waiting with old | new <;> rcases List.mem_append.mp done with before | now
      · exact concluded x old y before
      · cases progress with
        | inl caller => cases now
        | inr result =>
            rw [List.mem_singleton.mp now]
            exact Nat.ne_of_lt (keyed x.1 (List.mem_map_of_mem old))
      · cases progress with
        | inl caller =>
            rw [List.mem_singleton.mp new]
            exact (Nat.ne_of_lt (filed y before)).symm
        | inr result => cases new
      · cases progress with
        | inl caller => cases now
        | inr result => cases new
  | goesOn own before after is held moved stands =>
      rw [stands.callers] at waiting
      rw [stands.finished] at done
      obtain ⟨old, listed, rfl⟩ := List.mem_map.mp waiting
      by_cases mine : old.1 = own
      · rw [if_pos (beq_iff_eq.mpr mine), ← mine]
        exact concluded old listed y done
      · rw [if_neg (by simpa using mine)]
        exact concluded old listed y done
  | ends own before result is held moved stands =>
      rw [stands.callers] at waiting
      rw [stands.finished] at done
      obtain ⟨listed, other⟩ := List.mem_filter.mp waiting
      rcases List.mem_append.mp done with old | new
      · exact concluded x listed y old
      · rw [List.mem_singleton.mp new]
        exact bne_iff_ne.mp other
  | drops own is stands =>
      rw [stands.callers] at waiting
      rw [stands.finished] at done
      exact concluded x (List.mem_filter.mp waiting).1 y done
  | tells tells is reports stands =>
      rw [stands.callers] at waiting
      rw [stands.finished] at done
      obtain ⟨old, listed, rfl⟩ := List.mem_map.mp waiting
      exact concluded old listed y done

theorem act_next_id (agrees : c.hub.Agrees) (a : Act) : c.hub.router.nextId ≤ (c.act a).hub.router.nextId := by
  rw [act_routed agrees a]
  split
  · rw [Router.close_next]
    exact Router.performs_next_le _
  · exact Router.performs_next_le _

theorem leaves_quits (distinct : c.Distinct) (w : EventWait) (held : (key, .listening w true) ∈ c.callers)
    (gone : key ∉ (c.act a).callers.map (·.1)) : c.quits? a = some w.stream := by
  have stays : ∀ caller, (key, caller) ∈ (c.act a).callers → c.quits? a = some w.stream :=
    fun caller member => absurd (List.mem_map_of_mem member) gone
  have found := caller_found distinct key _ held
  cases act_treats (c := c) a with
  | rests stands => exact stays _ (stands.callers ▸ held)
  | begins operation begun is opens entered => exact stays _ (entered.callers ▸ List.mem_append_left _ held)
  | goesOn own before after is was moved stands =>
      have same : (c.callers.map fun old => if old.1 == own then (own, after) else old).map (·.1) =
          c.callers.map (·.1) := by
        rw [List.map_map]
        refine List.map_congr_left fun old _ => ?_
        by_cases mine : old.1 = own <;> simp [mine]
      rw [stands.callers, same] at gone
      exact absurd (List.mem_map_of_mem held) gone
  | tells tells is reports stands =>
      refine absurd ?_ gone
      rw [stands.callers, List.map_map]
      exact List.mem_map.mpr ⟨_, held, rfl⟩
  | ends own before result is was moved stands =>
      by_cases mine : own = key
      · subst mine
        cases List.inj_on_of_nodup_map distinct was held rfl
        have past : w.ready c.clock c.hub.router = true := by
          have taking : c.hub.router.take w.stream = (c.hub.router.peek w.stream, (c.hub.router.take w.stream).2) := rfl
          simp only [Caller.move, EventWait.finish?] at moved
          rw [taking] at moved
          rw [EventWait.ready]
          cases next : c.hub.router.peek w.stream with
          | event e => rfl
          | ended => rfl
          | waiting =>
              rw [next] at moved
              cases passed : c.clock.hasPassed w.limit with
              | true => rfl
              | false => simp [passed] at moved
        rw [is]
        simp [quits?, found, Caller.quits?, past]
      · refine stays (.listening w true) ?_
        rw [stands.callers]
        exact List.mem_filter.mpr ⟨held, by simpa using Ne.symm mine⟩
  | drops own is stands =>
      by_cases mine : own = key
      · rw [is, mine]
        simp [quits?, found, Caller.stream?]
      · refine stays (.listening w true) ?_
        rw [stands.callers]
        exact List.mem_filter.mpr ⟨held, by simpa using Ne.symm mine⟩

theorem act_attends (rolls : c.Rolls roll) (tended : c.Tended) (distinct : c.Distinct)
    (attends : c.Attends key stream) (a : Act) :
    (c.act a).Attends key stream := by
  have next := act_next_id rolls.agrees a
  have other : ∀ filter, c.enrols? a ≠ some ⟨stream, filter⟩ := fun filter new =>
    Nat.ne_of_lt attends.known (enrols_next filter new)
  have old : ∀ caller, (key, caller) ∈ (c.act a).callers → ∃ before, (key, before) ∈ c.callers := by
    intro caller member
    cases act_comes a key caller member with
    | stays key caller held => exact ⟨caller, held⟩
    | begins => exact absurd attends.old (Nat.lt_irrefl _)
    | moves key before caller is held => exact ⟨before, held⟩
    | told key before tells is held => exact ⟨before, held⟩
  refine ⟨Nat.lt_of_lt_of_le attends.old (act_next_le a), Nat.lt_of_lt_of_le attends.known next, ?_, ?_⟩
  · intro caller member
    cases act_comes a key caller member with
    | stays key caller held => exact attends.waits caller held
    | begins => exact absurd attends.old (Nat.lt_irrefl _)
    | moves key before caller is held goesOn =>
        obtain ⟨w, rfl, own⟩ := attends.waits before held
        simp only [Caller.move] at goesOn
        split at goesOn <;> cases goesOn
        exact ⟨w, rfl, own⟩
    | told key before tells is held =>
        obtain ⟨w, rfl, own⟩ := attends.waits before held
        refine ⟨w, ?_, own⟩
        apply Caller.learn_induction (P := fun after => after = .listening w true) _ tells _ rfl
        rintro _ call result rfl
        rfl
  · rw [act_ids rolls]
    constructor
    · rintro (⟨there, stays⟩ | ⟨filter, new⟩)
      · obtain ⟨x, held, same⟩ := List.mem_map.mp (attends.there.mp there)
        obtain ⟨w, is, own⟩ := attends.waits x.2 (by rw [← same]; exact held)
        have waits : (key, .listening w true) ∈ c.callers := by
          rw [← is, ← same]
          exact held
        by_contra gone
        exact stays (own ▸ leaves_quits distinct w waits gone)
      · exact absurd new (other filter)
    · intro present
      obtain ⟨x, member, same⟩ := List.mem_map.mp present
      subst same
      obtain ⟨before, held⟩ := old x.2 member
      obtain ⟨w, is, own⟩ := attends.waits before held
      refine Or.inl ⟨attends.there.mpr (List.mem_map.mpr ⟨_, held, rfl⟩), fun quits => ?_⟩
      exact quits_caller tended quits _ held (by rw [is, ← own]; rfl) present

theorem begin_attends (keyed : c.Keyed) (rolls : c.Rolls roll) (filter : Filter) (milliseconds : Nat) :
    (c.act (.begin (.waitForEvent filter milliseconds))).Attends c.nextCaller c.hub.router.nextId := by
  have entered := begin_entered (c := c) (.waitForEvent filter milliseconds) _ rfl
  have unused : ∀ caller, (c.nextCaller, caller) ∉ c.callers := fun caller member =>
    absurd (keyed _ (List.mem_map_of_mem member)) (Nat.lt_irrefl _)
  refine ⟨entered.next ▸ Nat.lt_succ_self _, Nat.lt_succ_self _, ?_, ?_⟩
  · intro caller member
    rw [entered.callers] at member
    rcases List.mem_append.mp member with old | new
    · exact absurd old (unused caller)
    · cases List.mem_singleton.mp new
      exact ⟨_, rfl, rfl⟩
  · rw [act_ids rolls, entered.callers]
    refine ⟨fun _ => ?_, fun _ => Or.inr ⟨filter, rfl⟩⟩
    rw [List.map_append]
    exact List.mem_append_right _ (List.mem_singleton_self _)

-- A handler and its stream go together.
structure Serves (c : Connection) (stream : Nat) : Prop where
  known : stream < c.hub.router.nextId
  there : stream ∈ c.hub.router.ids ↔ stream ∈ c.handlerStreams

theorem act_serves (rolls : c.Rolls roll) (tended : c.Tended) (serves : c.Serves stream) (a : Act) :
    (c.act a).Serves stream := by
  refine ⟨Nat.lt_of_lt_of_le serves.known (act_next_id rolls.agrees a), ?_⟩
  have other : ∀ filter, c.enrols? a ≠ some ⟨stream, filter⟩ := fun filter new =>
    Nat.ne_of_lt serves.known (enrols_next filter new)
  have nobody : stream ∉ (c.installs? a).toList := by
    intro new
    cases a with
    | onEvent filter delay answer =>
        rw [List.mem_singleton.mp new] at other
        exact other filter rfl
    | _ => cases new
  rw [act_ids rolls, act_handler_streams tended, List.mem_append, List.mem_filter, serves.there]
  simp only [other, exists_false, or_false, nobody, decide_eq_true_eq]

theorem install_serves (rolls : c.Rolls roll) (filter : Filter) (delay : Nat)
    (answer : Nat → Event → Except Error Unit) :
    (c.act (.onEvent filter delay answer)).Serves c.hub.router.nextId := by
  refine ⟨Nat.lt_succ_self _, ?_⟩
  rw [act_ids rolls]
  refine ⟨fun _ => ?_, fun _ => Or.inr ⟨filter, rfl⟩⟩
  simp [handlerStreams, act, onEvent, Router.subscribe]

theorem cancelled_goes (rolls : c.Rolls roll) (tended : c.Tended) (h : Handler) (member : h ∈ c.handlers)
    (cancelled : h.cancelled = true)
    (idle : h.busy = none) : h.stream ∉ (c.act (.move (.handler h.stream))).hub.router.ids := by
  have found : c.handler? h.stream = some h := find_keyed Handler.stream c.handlers tended.handlers h member
  have quits : c.quits? (.move (.handler h.stream)) = some h.stream := by
    rw [handler_quits h.stream h found, if_pos]
    simp [Handler.quits, idle, cancelled]
  rw [act_ids rolls]
  rintro (⟨-, stays⟩ | ⟨filter, new⟩)
  · exact stays quits
  · cases new

end

structure Steady (c : Connection) (roll : List Subscriber) : Prop where
  rolls : c.Rolls roll
  tended : c.Tended
  keyed : c.Keyed
  distinct : c.Distinct
  filed : c.Filed
  concluded : c.Concluded

theorem act_steady {c : Connection} {roll : List Subscriber} (steady : c.Steady roll) (a : Act) :
    (c.act a).Steady (c.turnover roll a) where
  rolls := act_rolls steady.rolls a
  tended := act_tended steady.rolls steady.tended a
  keyed := act_keyed steady.keyed a
  distinct := act_distinct steady.keyed steady.distinct a
  filed := act_filed steady.keyed steady.filed a
  concluded := act_concluded steady.keyed steady.filed steady.concluded a

theorem run_steady (config : Config) (link : Link) (acts : List Act) :
    ((ofLink config link).run acts).Steady ((ofLink config link).live acts) := by
  refine run_induction act (ofLink config link) (P := fun acts c =>
    c.Steady ((ofLink config link).live acts)) ?_ ?_ acts
  · exact ⟨initial_rolls config link, initial_tended config link, by simp [Keyed, ofLink], List.nodup_nil,
      initial_filed config link,
      fun _ member => nomatch member⟩
  · intro acts a steady
    rw [live_concat]
    exact act_steady steady a

theorem steady_run {P : Connection → Prop} (step : ∀ c roll a, Steady c roll → P c → P (c.act a)) {c : Connection}
    {roll : List Subscriber} (steady : c.Steady roll) (first : P c) (acts : List Act) : P (c.run acts) := by
  induction acts generalizing c roll with
  | nil => exact first
  | cons a acts ih => exact ih (act_steady steady a) (step c roll a steady first)

theorem run_closed {c : Connection} (sound : c.Sound) (closed : c.hub.isClosed = true) (acts : List Act) :
    (c.run acts).hub.isClosed = true := by
  induction acts generalizing c with
  | nil => exact closed
  | cons a acts ih => exact ih (act_sound sound a) (does_closed (act_deeds sound.kept a) closed)

-- In every run the subscribers are the streams that came and have not gone, in the order in which they came, until the
-- router is closed: that gives their number the first time, and nobody is registered after it. Who waits for an event
-- is registered while the wait goes on and not when it has a result or is given up, and a handler while it is there.
theorem subscribers_are_live (config : Config) (link : Link) (acts : List Act) (capacity : Nat)
    (alone : List RouterAct) :
    (let d := (RouterDesk.opened capacity).run alone
     let live := (RouterDesk.opened capacity).live alone
     d.table.ids = live.map (·.id) ∧ (live.map (·.id)).Pairwise (· < ·) ∧
     (.close ∉ alone → d.table.subscribers = live ∧ d.table.close.1 = live.length) ∧
     (.close ∈ alone → d.table.subscribers = [] ∧ d.table.close.1 = 0)) ∧
    let initial := ofLink config link
    let c := initial.run acts
    let r := c.hub.router
    let live := initial.live acts
    r.ids = live.map (·.id) ∧ (live.map (·.id)).Pairwise (· < ·) ∧
    (c.hub.isClosed = false → r.subscribers = live ∧ r.close.1 = live.length) ∧
    (c.hub.isClosed = true → ∀ later, (c.run later).hub.router.subscribers = [] ∧
      (c.run later).hub.router.close.1 = 0) ∧
    (∀ before filter milliseconds later, acts = before ++ .begin (.waitForEvent filter milliseconds) :: later →
      let key := (initial.run before).nextCaller
      let stream := (initial.run before).hub.router.nextId
      (stream ∈ r.ids ↔ key ∈ c.callers.map (·.1)) ∧ (key ∈ c.finished.map (·.1) → key ∉ c.callers.map (·.1))) ∧
    (∀ before filter delay answer later, acts = before ++ .onEvent filter delay answer :: later →
      let stream := (initial.run before).hub.router.nextId
      stream ∈ r.ids ↔ stream ∈ c.handlerStreams) ∧
    ∀ h ∈ c.handlers, h.cancelled = true → h.busy = none →
      h.stream ∉ (c.act (.move (.handler h.stream))).hub.router.ids := by
  refine ⟨RouterDesk.run_subscribers capacity alone, ?_⟩
  intro initial c r live
  have steady : c.Steady live := run_steady config link acts
  have lists := steady.rolls.lists
  have count := Router.close_count lists
  refine ⟨lists.ids, lists.ordered, ?_, ?_, ?_, ?_, cancelled_goes steady.rolls steady.tended⟩
  · intro isOpen
    have stands : r.closed = false := steady.rolls.agrees.trans isOpen
    rw [stands] at count
    exact ⟨lists.subscribers stands, count⟩
  · intro closed later
    obtain ⟨_, shut⟩ : ∃ roll, (c.run later).Rolls roll :=
      ⟨_, (run_append initial acts later) ▸ run_rolls config link (acts ++ later)⟩
    have stands : (c.run later).hub.router.closed = true :=
      shut.agrees.trans (run_closed steady.rolls.sound closed later)
    refine ⟨shut.lists.staffed.tidy.quiet stands, ?_⟩
    rw [Router.close_count shut.lists, stands, if_pos rfl]
  · intro before filter milliseconds later made key stream
    have start : (initial.run before).Steady (initial.live before) := run_steady config link before
    have attends : c.Attends key stream := by
      have begun := begin_attends (c := initial.run before) start.keyed start.rolls filter milliseconds
      have course := steady_run (P := fun c => c.Attends key stream)
        (fun c roll a steady attends => act_attends steady.rolls steady.tended steady.distinct attends a)
        (act_steady start (.begin (.waitForEvent filter milliseconds))) begun later
      have whole : c = ((initial.run before).act (.begin (.waitForEvent filter milliseconds))).run later := by
        simp only [c, made, run_append]
        rfl
      rw [whole]
      exact course
    refine ⟨attends.there, fun done waiting => ?_⟩
    obtain ⟨x, member, same⟩ := List.mem_map.mp waiting
    obtain ⟨y, ended, own⟩ := List.mem_map.mp done
    exact steady.concluded x member y ended (same.trans own.symm)
  · intro before filter delay answer later made stream
    have start : (initial.run before).Steady (initial.live before) := run_steady config link before
    have course := steady_run (P := fun c => c.Serves stream)
      (fun c roll a steady serves => act_serves steady.rolls steady.tended serves a)
      (act_steady start (.onEvent filter delay answer)) (install_serves start.rolls filter delay answer) later
    have whole : c = ((initial.run before).act (.onEvent filter delay answer)).run later := by
      simp only [c, made, run_append]
      rfl
    have there := course.there
    rwa [← whole] at there

def passersBy : List Act :=
  [.subscribe .any, .begin (.waitForEvent .any 5), .onEvent .any 0 fun _ _ => .ok (), .advance 5, .move (.caller 0),
    .cancelHandler 3]

theorem subscribers_are_live_passing :
    let initial := ofLink {} inMemory
    let c := initial.run passersBy
    let closed := initial.run (passersBy ++ [.begin .close])
    c.hub.router.subscribers = [⟨1, .any⟩, ⟨3, .any⟩] ∧ c.hub.router.close.1 = 2 ∧ 2 ∉ c.hub.router.ids ∧
      3 ∈ c.hub.router.ids ∧
      3 ∉ (c.act (.move (.handler 3))).hub.router.ids ∧ (closed.run [.subscribe .any]).hub.router.subscribers = [] := by
  intro initial c closed
  obtain ⟨-, -, -, isOpen, -, waits, serves, goes⟩ := subscribers_are_live {} inMemory passersBy 1 []
  obtain ⟨-, -, -, -, shut, -⟩ := subscribers_are_live {} inMemory (passersBy ++ [.begin .close]) 1 []
  have live : initial.live passersBy = [⟨1, .any⟩, ⟨3, .any⟩] := by decide +kernel
  obtain ⟨subscribers, count⟩ := isOpen (by decide +kernel)
  rw [live] at subscribers count
  have wait := waits [.subscribe .any] .any 5 (passersBy.drop 2) rfl
  have key : ((initial.run [.subscribe .any]).nextCaller, (initial.run [.subscribe .any]).hub.router.nextId) = (0, 2) :=
    by decide +kernel
  have serve := serves (passersBy.take 2) .any 0 (fun _ _ => .ok ()) (passersBy.drop 3) rfl
  have stream : (initial.run (passersBy.take 2)).hub.router.nextId = 3 := by decide +kernel
  rw [(Prod.mk.inj key).1, (Prod.mk.inj key).2] at wait
  rw [stream] at serve
  have past : 0 ∈ c.finished.map (·.1) := by decide +kernel
  have idle : c.handlers.any (fun h => h.stream == 3 && h.cancelled && h.busy.isNone) = true := by decide +kernel
  obtain ⟨h, member, known⟩ := List.any_eq_true.mp idle
  simp only [Bool.and_eq_true, beq_iff_eq, Option.isNone_iff_eq_none] at known
  have gone := goes h member known.1.2 known.2
  rw [known.1.1] at gone
  exact ⟨subscribers, count, mt wait.1.mp (wait.2 past), serve.mpr (by decide +kernel), gone,
    (shut (by decide +kernel) [.subscribe .any]).1⟩

end Connection

end DevTools
