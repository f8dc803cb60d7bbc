import DevTools.Proofs.Connection.Follow
import DevTools.Proofs.Connection.Roll

set_option autoImplicit false

namespace DevTools

theorem Caller.move_stream (caller after : Caller) (clock : Clock) (ended : Bool) (h : Hub)
    (moved : (caller.move clock ended h).1 = .inl after) : after.stream? = caller.stream? := by
  cases caller with
  | sending own written =>
      simp only [Caller.move] at moved
      split at moved <;> cases moved
      rfl
  | asking use cancel own written =>
      simp only [Caller.move] at moved
      split at moved
      · cases moved
      · split at moved <;> cases moved <;> rfl
  | awaiting use w | collecting w | listening w own =>
      simp only [Caller.move] at moved
      split at moved <;> cases moved
      rfl
  | seeking w =>
      simp only [Caller.move, Caller.ofLook] at moved
      split at moved
      · cases moved
      · split at moved <;> cases moved
        rfl
  | closing | untilClosed =>
      simp only [Caller.move] at moved
      split at moved <;> cases moved
      rfl

theorem Caller.quits_ends (caller : Caller) (clock : Clock) (ended : Bool) (h : Hub) (stream : Nat)
    (quits : caller.quits? clock h.router = some stream) :
    caller.stream? = some stream ∧ (caller.move clock ended h).1.isRight = true := by
  cases caller with
  | listening w own =>
      have taking : h.router.take w.stream = (h.router.peek w.stream, (h.router.take w.stream).2) := rfl
      rw [quits?] at quits
      by_cases ready : (own && w.ready clock h.router) = true
      · rw [if_pos ready] at quits
        cases quits
        · refine ⟨rfl, ?_⟩
          have past : (h.router.peek w.stream != .waiting || clock.hasPassed w.limit) = true :=
            (Bool.and_eq_true_iff.mp ready).2
          simp only [move, EventWait.finish?]
          rw [taking]
          cases next : h.router.peek w.stream with
          | event e => rfl
          | ended => rfl
          | waiting =>
              rw [next] at past
              have passed : clock.hasPassed w.limit = true := past
              rw [passed]
              rfl
      · rw [if_neg ready] at quits
        cases quits
  | _ => cases quits

theorem Caller.learn_stream (tells : List (Call × Written)) (caller : Caller) :
    (caller.learn tells).stream? = caller.stream? := by
  apply Caller.learn_induction (P := fun after => after.stream? = caller.stream?) _ tells _ rfl
  intro before call result same
  refine Eq.trans ?_ same
  cases before <;> simp only [Caller.acknowledge] <;> split <;> rfl

namespace Connection

structure Untended (c after : Connection) : Prop where
  handlers : after.handlers = c.handlers
  handled : after.handled = c.handled
  complaints : after.complaints = c.complaints

def Act.tends : Act → Bool
  | .onEvent .. | .cancelHandler _ | .move (.handler _) => true
  | _ => false

section
variable {c : Connection} {a : Act}

theorem untended_trans (middle after : Connection) (first : Untended c middle) (second : Untended middle after) :
    Untended c after :=
  ⟨second.handlers.trans first.handlers, second.handled.trans first.handled, second.complaints.trans first.complaints⟩

theorem unheld_untended (before : Connection) : Untended before before.closeUnheld := by
  simp only [closeUnheld]
  split <;> exact ⟨rfl, rfl, rfl⟩

theorem enter_untended (begun : Progress × Hub) : Untended c (c.enter begun).2 := by
  obtain ⟨progress, hub⟩ := begun
  cases progress with
  | inl caller => exact ⟨rfl, rfl, rfl⟩
  | inr result => exact untended_trans (c.concluded hub result) _ ⟨rfl, rfl, rfl⟩ (unheld_untended _)

theorem tell_untended (queue : List Outbound) (result : Written) :
    Untended c (queue.foldl (fun c o => c.acknowledge o.call result) c) := by
  induction queue generalizing c with
  | nil => exact ⟨rfl, rfl, rfl⟩
  | cons o queue ih => exact untended_trans (c.acknowledge o.call result) _ ⟨rfl, rfl, rfl⟩ ih

theorem end_untended (before : Connection) : Untended before before.endWriter :=
  untended_trans _ _ (tell_untended before.hub.outbound (.error .connectionClosed)) ⟨rfl, rfl, rfl⟩

theorem fail_untended (before : Connection) (call : Call) (fault : Error) :
    Untended before (before.failWrite call fault) :=
  untended_trans ((before.acknowledge call (.error fault)).shutdown (.writeFailed fault.message)) _ ⟨rfl, rfl,
    rfl⟩ (end_untended _)

theorem act_untended (other : a.tends = false) : Untended c (c.act a) := by
  have still : Untended c c := ⟨rfl, rfl, rfl⟩
  cases a with
  | begin operation =>
      cases operation with
      | waitForCall | waitForNext =>
          simp only [act, start]
          split
          · exact enter_untended _
          · exact still
      | close => exact untended_trans { c.shutdown .closedHere with joined := true } _ ⟨rfl, rfl,
                   rfl⟩ (enter_untended _)
      | _ => exact enter_untended _
  | move activity =>
      refine untended_trans _ _ ?_ (unheld_untended _)
      cases activity with
      | reader =>
          simp only [moveReader]
          split
          · exact ⟨rfl, rfl, rfl⟩
          · split <;> exact ⟨rfl, rfl, rfl⟩
      | writer =>
          simp only [moveWriter]
          split
          · exact still
          · split
            · exact end_untended c
            · split <;> exact ⟨rfl, rfl, rfl⟩
          · next o _ _ =>
              split
              · exact ⟨rfl, rfl, rfl⟩
              · next link _ => exact untended_trans { c with link } _ ⟨rfl, rfl, rfl⟩ (fail_untended _ _ _)
              · next left link _ =>
                  split
                  · exact untended_trans { c with link, writer := .sending o left } _ ⟨rfl, rfl,
                      rfl⟩ (fail_untended _ _ _)
                  · exact ⟨rfl, rfl, rfl⟩
      | caller key =>
          simp only [moveCaller]
          split
          · exact still
          · split <;> exact ⟨rfl, rfl, rfl⟩
      | handler stream => cases other
  | abort key =>
      simp only [act, abort]
      split
      · exact still
      · next caller _ =>
          exact untended_trans { c.withoutCaller key with hub := caller.drop c.hub } _ ⟨rfl, rfl,
            rfl⟩ (unheld_untended _)
  | release => exact untended_trans { c with held := false } _ ⟨rfl, rfl, rfl⟩ (unheld_untended _)
  | poll call =>
      simp only [act]
      split
      · split <;> exact ⟨rfl, rfl, rfl⟩
      · exact still
  | recv | drain | dropStream | dropCall =>
      simp only [act]
      split <;> exact ⟨rfl, rfl, rfl⟩
  | onEvent | cancelHandler => cases other
  | _ => exact ⟨rfl, rfl, rfl⟩

def handlerStreams (c : Connection) : List Nat := c.handlers.map (·.stream)

theorem put_streams (h : Handler) (handlers : List Handler) :
    (handlers.map fun old => if old.stream == h.stream then h else old).map (·.stream) = handlers.map (·.stream) := by
  rw [List.map_map]
  refine List.map_congr_left fun old _ => ?_
  by_cases own : old.stream = h.stream <;> simp [own]

-- What a handler can do: nothing, be done with a call, begin with one, or go.
inductive HandlerMove (c : Connection) (stream : Nat) : Connection → Prop where
  | rests (why : ∀ h, c.handler? stream = some h → (∃ e due, h.busy = some (e, due) ∧ c.clock.now < due) ∨
      (h.busy = none ∧ h.cancelled = false ∧ c.hub.router.peek stream = .waiting)) : HandlerMove c stream c
  | finishes (h : Handler) (e : Event) (due : Nat) (found : c.handler? stream = some h) (busy : h.busy = some (e, due))
      (past : due ≤ c.clock.now) : HandlerMove c stream (c.finishCall h e)
  | begins (h : Handler) (e : Event) (found : c.handler? stream = some h) (idle : h.busy = none)
      (wanted : h.cancelled = false)
      (next : c.hub.router.peek stream = .event e) :
      HandlerMove c stream { c.putHandler { h with busy := some (e, c.clock.now + h.delay) } with
        hub := { c.hub with router := (c.hub.router.take stream).2 } }
  | goes (h : Handler) (found : c.handler? stream = some h) (idle : h.busy = none)
      (why : h.cancelled = true ∨ c.hub.router.peek stream = .ended) : HandlerMove c stream (c.endHandler stream)

theorem handler_moves (stream : Nat) : HandlerMove c stream (c.moveHandler stream) := by
  rcases Option.eq_none_or_eq_some (c.handler? stream) with found | ⟨h, found⟩
  · simp only [moveHandler, found]
    exact .rests fun h some_ => by rw [found] at some_; cases some_
  · have only : ∀ other, c.handler? stream = some other → other = h :=
      fun other also => Option.some.inj (also.symm.trans found)
    simp only [moveHandler, found]
    rcases Option.eq_none_or_eq_some h.busy with idle | ⟨⟨e, due⟩, busy⟩
    · simp only [idle]
      cases wanted : h.cancelled with
      | true => exact .goes h found idle (Or.inl wanted)
      | false =>
          have taking : c.hub.router.take stream = (c.hub.router.peek stream, (c.hub.router.take stream).2) := rfl
          rw [taking]
          cases next : c.hub.router.peek stream with
          | event e =>
              have begins := HandlerMove.begins h e found idle wanted next
              rw [wanted] at begins
              exact begins
          | ended => exact .goes h found idle (Or.inr next)
          | waiting =>
              refine .rests fun other also => Or.inr ?_
              rw [only other also]
              exact ⟨idle, wanted, next⟩
    · simp only [busy]
      by_cases past : due ≤ c.clock.now
      · rw [if_pos past]
        exact .finishes h e due found busy past
      · rw [if_neg past]
        refine .rests fun other also => Or.inl ⟨e, due, ?_, Nat.lt_of_not_le past⟩
        rw [only other also]
        exact busy

theorem handler_quits (stream : Nat) (h : Handler) (found : c.handler? stream = some h) :
    c.quits? (.move (.handler stream)) = if h.quits c.hub.router then some stream else none := by
  have own := (handler_found stream h found).2
  simp only [quits?, found, Option.filter_some]
  split <;> simp [own]

theorem move_handler_streams (stream : Nat) : (c.moveHandler stream).handlerStreams =
    c.handlerStreams.filter fun s => c.quits? (.move (.handler stream)) ≠ some s := by
  have still : ∀ after : List Nat, after = c.handlerStreams → c.quits? (.move (.handler stream)) = none →
      after = c.handlerStreams.filter fun s => c.quits? (.move (.handler stream)) ≠ some s := by
    intro after same quits
    rw [same, quits]
    simp
  have moves := handler_moves (c := c) stream
  generalize c.moveHandler stream = after at moves ⊢
  cases moves with
  | rests why =>
      refine still _ rfl ?_
      rcases Option.eq_none_or_eq_some (c.handler? stream) with found | ⟨h, found⟩
      · simp [quits?, found]
      · rw [handler_quits stream h found]
        rcases why h found with ⟨e, due, busy, -⟩ | ⟨idle, wanted, next⟩
        · simp [Handler.quits, busy]
        · simp [Handler.quits, (handler_found stream h found).2, idle, wanted, next]
  | finishes h e due found busy past =>
      refine still _ (put_streams { h with busy := none, made := h.made + 1 } c.handlers) ?_
      rw [handler_quits stream h found]
      simp [Handler.quits, busy]
  | begins h e found idle wanted next =>
      refine still _ (put_streams { h with busy := some (e, c.clock.now + h.delay) } c.handlers) ?_
      rw [handler_quits stream h found]
      simp [Handler.quits, (handler_found stream h found).2, wanted, next]
  | goes h found idle why =>
      have quits : h.quits c.hub.router = true := by
        rw [Handler.quits, (handler_found stream h found).2, idle]
        rcases why with cancelled | ended
        · simp [cancelled]
        · simp [ended]
      rw [handler_quits stream h found, if_pos quits]
      simp only [endHandler, handlerStreams]
      have filtered : (c.handlers.map (·.stream)).filter (· != stream) = (c.handlers.filter fun h =>
        h.stream != stream).map (·.stream) :=
        List.filter_map
      rw [← filtered]
      refine List.filter_congr fun s _ => ?_
      simp [bne, Bool.beq_eq_decide_eq, eq_comm]

end

-- Nobody shares a stream, and whoever has one has one that is there.
structure Tended (c : Connection) : Prop where
  handlers : c.handlerStreams.Nodup
  callers : ∀ x ∈ c.callers, ∀ y ∈ c.callers, ∀ stream, x.2.stream? = some stream →
    y.2.stream? = some stream → x.1 = y.1
  apart : ∀ x ∈ c.callers, ∀ stream ∈ c.handlerStreams, x.2.stream? ≠ some stream
  heard : ∀ x ∈ c.callers, ∀ stream, x.2.stream? = some stream → stream ∈ c.hub.router.ids
  handled : ∀ stream ∈ c.handlerStreams, stream ∈ c.hub.router.ids

-- A stream that goes is let go by whoever has it.
inductive LetsGo (c : Connection) (a : Act) (stream : Nat) : Prop where
  | owner (is : a = .dropStream stream) (free : c.isFreeStream stream = true) : LetsGo c a stream
  | caller (key : Nat) (caller : Caller) (held : (key, caller) ∈ c.callers) (has : caller.stream? = some stream)
      (gone : (c.act a).callers = c.callers.filter fun entry => entry.1 != key) : LetsGo c a stream
  | handler (is : a = .move (.handler stream)) (has : stream ∈ c.handlerStreams) : LetsGo c a stream

def installs? (c : Connection) : Act → Option Nat
  | .onEvent .. => some c.hub.router.nextId
  | _ => none

section
variable {c : Connection} {a : Act} {stream : Nat}

theorem quits_lets_go (quits : c.quits? a = some stream) : LetsGo c a stream := by
  cases a with
  | dropStream own =>
      simp only [quits?] at quits
      by_cases free : c.isFreeStream own = true
      · rw [if_pos free] at quits
        cases quits
        exact .owner rfl free
      · rw [if_neg free] at quits
        cases quits
  | abort key =>
      obtain ⟨caller, found, has⟩ := Option.bind_eq_some_iff.mp quits
      refine .caller key caller (caller_member key caller found) has ?_
      simp only [act, abort, found]
      exact close_unheld_same.1
  | move activity =>
      cases activity with
      | reader | writer => cases quits
      | caller key =>
          obtain ⟨caller, found, goes⟩ := Option.bind_eq_some_iff.mp quits
          obtain ⟨has, past⟩ := caller.quits_ends c.clock c.tasksEnded c.hub stream goes
          refine .caller key caller (caller_member key caller found) has ?_
          obtain ⟨result, ends⟩ := Sum.isRight_iff.mp past
          rcases moved : caller.move c.clock c.tasksEnded c.hub with ⟨progress, hub⟩
          rw [moved] at ends
          have same : (c.act (.move (.caller key))).callers = (c.moveCaller key).callers := close_unheld_same.1
          cases ends
          rw [same]
          simp only [moveCaller, found, moved]
          rfl
      | handler own =>
          obtain ⟨h, found, same⟩ := Option.map_eq_some_iff.mp quits
          obtain ⟨member, mine⟩ := handler_found own h (Option.filter_eq_some_iff.mp found).1
          cases same
          exact .handler (by rw [mine]) (List.mem_map_of_mem member)
  | _ => cases quits

theorem free_unheld (free : c.isFreeStream stream = true) : stream ∈ c.hub.router.ids ∧
    (∀ x ∈ c.callers, x.2.stream? ≠ some stream) ∧ stream ∉ c.handlerStreams := by
  simp only [isFreeStream, Bool.and_eq_true, Bool.not_eq_true', List.any_eq_false, List.any_eq_true] at free
  obtain ⟨⟨⟨s, held, own⟩, nobody⟩, none_⟩ := free
  refine ⟨List.mem_map.mpr ⟨s, held, by simpa using own⟩, fun x member has => nobody x member (by simpa using has), ?_⟩
  intro member
  obtain ⟨h, listed, same⟩ := List.mem_map.mp member
  exact none_ h listed (by simpa using same)

theorem quits_caller (tended : c.Tended) (quits : c.quits? a = some stream) (before : Nat × Caller)
    (was : before ∈ c.callers)
    (has : before.2.stream? = some stream) : before.1 ∉ (c.act a).callers.map (·.1) := by
  cases quits_lets_go quits with
  | owner is free => exact absurd has ((free_unheld free).2.1 before was)
  | handler is own => exact absurd has (tended.apart before was stream own)
  | caller key caller held mine gone =>
      rw [gone]
      intro member
      obtain ⟨entry, stays, same⟩ := List.mem_map.mp member
      have other := (List.mem_filter.mp stays).2
      rw [same, tended.callers before was (key, caller) held stream has mine] at other
      simp at other

theorem stream_comes (key : Nat) (caller : Caller) (member : (key, caller) ∈ (c.act a).callers)
    (has : caller.stream? = some stream) :
    (∃ before, (key, before) ∈ c.callers ∧ before.stream? = some stream) ∨
    (key = c.nextCaller ∧ c.quits? a = none ∧ c.installs? a = none ∧
      ((∃ filter, c.enrols? a = some ⟨stream, filter⟩) ∨ c.isFreeStream stream = true)) := by
  cases act_comes a key caller member with
  | stays key caller held => exact Or.inl ⟨caller, held, has⟩
  | moves key before caller is held goesOn =>
      exact Or.inl ⟨before, held, (Caller.move_stream before caller c.clock c.tasksEnded c.hub goesOn).symm.trans has⟩
  | told key before tells is held reports =>
      exact Or.inl ⟨before, held, (Caller.learn_stream tells before).symm.trans has⟩
  | begins operation caller hub is opens =>
      subst is
      refine Or.inr ⟨rfl, rfl, rfl, ?_⟩
      cases operation with
      | waitForEvent filter milliseconds =>
          cases opens
          cases has
          exact Or.inl ⟨filter, rfl⟩
      | waitForNext own milliseconds =>
          simp only [opening?] at opens
          split at opens
          · next free =>
              cases opens
              cases has
              exact Or.inr free
          · cases opens
      | waitForCall w =>
          simp only [opening?] at opens
          split at opens <;> cases opens
          cases has
      | send asked =>
          simp only [opening?, Caller.beginSend] at opens
          split at opens <;> cases opens
          cases has
      | close | waitUntilClosed =>
          cases opens
          cases has
      | waitForTarget target milliseconds =>
          simp only [opening?, Caller.beginSeek, Caller.ofLook] at opens
          split at opens
          · cases opens
          · split at opens <;> cases opens
            cases has
      | ask | execute | attach | detach =>
          have requested := request_opens _ rfl _ opens
          cases requested with
          | asks => cases has

theorem act_handler_streams (tended : c.Tended) (a : Act) : (c.act a).handlerStreams =
    (c.handlerStreams.filter fun s => c.quits? a ≠ some s) ++ (c.installs? a).toList := by
  cases tends : a.tends with
  | false =>
      have same : (c.act a).handlerStreams = c.handlerStreams :=
        congrArg (List.map Handler.stream) (act_untended tends).handlers
      have nobody : c.installs? a = none := by
        cases a with
        | onEvent => cases tends
        | _ => rfl
      rw [same, nobody, Option.toList_none, List.append_nil]
      refine (List.filter_eq_self.mpr fun s member => ?_).symm
      simp only [ne_eq, decide_not, Bool.not_eq_true', decide_eq_false_iff_not]
      intro quits
      cases quits_lets_go quits with
      | owner is free => exact (free_unheld free).2.2 member
      | caller key caller held has gone => exact tended.apart _ held s member has
      | handler is own =>
          rw [is] at tends
          cases tends
  | true =>
      cases a with
      | onEvent filter delay answer => simp [handlerStreams, act, onEvent, quits?, installs?, Router.subscribe]
      | cancelHandler own =>
          have same : (c.act (.cancelHandler own)).handlerStreams = c.handlerStreams := by
            simp only [handlerStreams, act, cancelHandler, List.map_map]
            refine List.map_congr_left fun h _ => ?_
            simp only [Function.comp]
            split <;> rfl
          rw [same]
          simp [quits?, installs?]
      | move activity =>
          cases activity with
          | handler own =>
              have same : (c.act (.move (.handler own))).handlerStreams = (c.moveHandler own).handlerStreams :=
                congrArg (List.map Handler.stream) (unheld_untended (c.moveHandler own)).handlers
              rw [same, move_handler_streams]
              exact (List.append_nil _).symm
          | reader | writer | caller => cases tends
      | _ => cases tends

theorem act_ids {roll : List Subscriber} (rolls : c.Rolls roll) (a : Act) (stream : Nat) :
    stream ∈ (c.act a).hub.router.ids ↔
    (stream ∈ c.hub.router.ids ∧ c.quits? a ≠ some stream) ∨ ∃ filter, c.enrols? a = some ⟨stream, filter⟩ := by
  rw [(act_rolls rolls a).lists.ids, rolls.lists.ids, turnover, List.map_append, List.mem_append, List.mem_map,
    List.mem_map, List.mem_map]
  constructor
  · rintro (⟨s, kept, rfl⟩ | ⟨s, new, rfl⟩)
    · obtain ⟨listed, stays⟩ := List.mem_filter.mp kept
      exact Or.inl ⟨⟨s, listed, rfl⟩, by simpa using stays⟩
    · exact Or.inr ⟨s.filter, by simpa using new⟩
  · rintro (⟨⟨s, listed, rfl⟩, stays⟩ | ⟨filter, new⟩)
    · exact Or.inl ⟨s, List.mem_filter.mpr ⟨listed, by simpa using stays⟩, rfl⟩
    · exact Or.inr ⟨⟨stream, filter⟩, by simp [new], rfl⟩

theorem enrols_next (filter : Filter) (enrols : c.enrols? a = some ⟨stream, filter⟩) :
    stream = c.hub.router.nextId := by
  cases a with
  | subscribe | onEvent =>
      cases enrols
      rfl
  | begin operation =>
      cases operation with
      | waitForEvent =>
          cases enrols
          rfl
      | _ => cases enrols
  | _ => cases enrols

theorem next_fresh {roll : List Subscriber} (rolls : c.Rolls roll) : c.hub.router.nextId ∉ c.hub.router.ids := by
  intro member
  obtain ⟨s, held, same⟩ := List.mem_map.mp member
  exact Nat.ne_of_lt (rolls.lists.staffed.tidy.numbered s held) same

theorem act_tended {roll : List Subscriber} (rolls : c.Rolls roll) (tended : c.Tended) (a : Act) :
    (c.act a).Tended := by
  have fresh := next_fresh rolls
  have installed : ∀ own, own ∈ (c.act a).handlerStreams → (own ∈ c.handlerStreams ∧ c.quits? a ≠ some own) ∨
      c.installs? a = some own := by
    intro own member
    rw [act_handler_streams tended a] at member
    rcases List.mem_append.mp member with old | new
    · obtain ⟨listed, stays⟩ := List.mem_filter.mp old
      exact Or.inl ⟨listed, by simpa using stays⟩
    · exact Or.inr (by simpa using new)
  have installs : ∀ own, c.installs? a = some own → own = c.hub.router.nextId ∧ ∃ filter,
      c.enrols? a = some ⟨own, filter⟩ := by
    intro own new
    cases a with
    | onEvent filter delay answer =>
        cases new
        exact ⟨rfl, filter, rfl⟩
    | _ => cases new
  -- A stream that a caller begins with is nobody's before.
  have begun : ∀ own, ((∃ filter, c.enrols? a = some ⟨own, filter⟩) ∨ c.isFreeStream own = true) →
      (∀ x ∈ c.callers, x.2.stream? ≠ some own) ∧ own ∉ c.handlerStreams := by
    rintro own (⟨filter, new⟩ | free)
    · rw [enrols_next filter new]
      exact ⟨fun x member has => fresh (tended.heard x member _ has), fun member => fresh (tended.handled _ member)⟩
    · exact ⟨(free_unheld free).2.1, (free_unheld free).2.2⟩
  refine ⟨?_, ?_, ?_, ?_, ?_⟩
  · rw [act_handler_streams tended a]
    refine List.nodup_append.mpr ⟨tended.handlers.sublist List.filter_sublist, ?_, ?_⟩
    · cases c.installs? a <;> simp
    · intro own old other new same
      have there := tended.handled own (List.mem_filter.mp old).1
      rw [same, (installs other (by simpa using new)).1] at there
      exact fresh there
  · intro x member y also stream has shares
    rcases stream_comes x.1 x.2 member has with ⟨before, was, had⟩ | ⟨first, -, -, new⟩
    · rcases stream_comes y.1 y.2 also shares with ⟨other, older, same⟩ | ⟨-, -, -, new⟩
      · exact tended.callers (x.1, before) was (y.1, other) older stream had same
      · exact absurd had ((begun stream new).1 _ was)
    · rcases stream_comes y.1 y.2 also shares with ⟨other, older, same⟩ | ⟨second, -, -, -⟩
      · exact absurd same ((begun stream new).1 _ older)
      · exact first.trans second.symm
  · intro x member own handler has
    rcases stream_comes x.1 x.2 member has with ⟨before, was, had⟩ | ⟨-, -, nobody, new⟩
    · rcases installed own handler with ⟨old, -⟩ | hired
      · exact tended.apart _ was own old had
      · rw [(installs own hired).1] at had
        exact fresh (tended.heard _ was _ had)
    · rcases installed own handler with ⟨old, -⟩ | hired
      · exact (begun own new).2 old
      · rw [nobody] at hired
        cases hired
  · intro x member stream has
    rw [act_ids rolls]
    rcases stream_comes x.1 x.2 member has with ⟨before, was, had⟩ | ⟨-, quits, -, new | free⟩
    · refine Or.inl ⟨tended.heard _ was stream had, fun quits => ?_⟩
      exact quits_caller tended quits (x.1, before) was had (List.mem_map.mpr ⟨x, member, rfl⟩)
    · exact Or.inr new
    · exact Or.inl ⟨(free_unheld free).1, by simp [quits]⟩
  · intro own handler
    rw [act_ids rolls]
    rcases installed own handler with ⟨old, stays⟩ | hired
    · exact Or.inl ⟨tended.handled own old, stays⟩
    · exact Or.inr (installs own hired).2

theorem initial_tended (config : Config) (link : Link) : (ofLink config link).Tended :=
  ⟨List.nodup_nil, (fun _ member => nomatch member), (fun _ member => nomatch member), (fun _ member => nomatch member),
    fun _ member => nomatch member⟩

end

theorem run_tended (config : Config) (link : Link) (acts : List Act) : ((ofLink config link).run acts).Tended := by
  refine run_induction act (ofLink config link) (P := fun _ c => c.Tended) (initial_tended config link) ?_ acts
  intro acts a tended
  exact act_tended (run_rolls config link acts) tended a

end Connection

end DevTools
