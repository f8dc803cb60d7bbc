import DevTools.Proofs.Connection.Streams

set_option autoImplicit false

namespace DevTools

namespace Router

def enterAll (r : Router) (roll : List Subscriber) : List RouterDeed → List Subscriber
  | [] => roll
  | d :: deeds => (r.perform d).enterAll (r.enter roll d) deeds

theorem performs_lists {r : Router} {roll : List Subscriber} (lists : r.Lists roll) (deeds : List RouterDeed) :
    (r.performs deeds).Lists (r.enterAll roll deeds) := by
  induction deeds generalizing r roll with
  | nil => exact lists
  | cons d deeds ih => exact ih (perform_lists lists d)

end Router

theorem Hub.routed_lists {h : Hub} {r : Router} {roll : List Subscriber} (routed : h.Routed r) (lists : r.Lists roll) :
    h.router.Lists roll := by
  rw [routed]
  split
  · exact Router.perform_lists lists .close
  · exact lists

def Caller.quits? (caller : Caller) (clock : Clock) (r : Router) : Option Nat :=
  match caller with
  | .listening w own => if own && w.ready clock r then some w.stream else none
  | _ => none

def Handler.quits (h : Handler) (r : Router) : Bool :=
  h.busy.isNone && (h.cancelled || r.peek h.stream == .ended)

namespace Connection

def enrols? (c : Connection) : Act → Option Subscriber
  | .subscribe filter | .onEvent filter _ _ | .begin (.waitForEvent filter _) => some ⟨c.hub.router.nextId, filter⟩
  | _ => none

def quits? (c : Connection) : Act → Option Nat
  | .dropStream stream => if c.isFreeStream stream then some stream else none
  | .abort key => (c.caller? key).bind (·.stream?)
  | .move (.caller key) => (c.caller? key).bind (·.quits? c.clock c.hub.router)
  | .move (.handler stream) => ((c.handler? stream).filter (·.quits c.hub.router)).map (·.stream)
  | _ => none

def turnover (c : Connection) (roll : List Subscriber) (a : Act) : List Subscriber :=
  (roll.filter fun s => c.quits? a ≠ some s.id) ++ (c.enrols? a).toList

-- Those who have subscribed in a run and whose streams have not gone.
def live (c : Connection) (acts : List Act) : List Subscriber :=
  (trace act c acts).foldl (fun roll (c, a) => c.turnover roll a) []

section
variable {c : Connection} {roll : List Subscriber}

theorem live_concat (acts : List Act) (a : Act) : c.live (acts ++ [a]) = (c.run acts).turnover (c.live acts) a := by
  simp only [live, trace_concat, List.foldl_append, List.foldl_cons, List.foldl_nil]
  rfl

theorem still_turnover (a : Act) (quits : c.quits? a = none) (enrols : c.enrols? a = none) :
    c.turnover roll a = roll := by
  simp [turnover, quits, enrols]

theorem quit_turnover (a : Act) (stream : Nat) (quits : c.quits? a = some stream) (enrols : c.enrols? a = none) :
    c.turnover roll a = roll.filter fun s => s.id != stream := by
  rw [turnover, quits, enrols, Option.toList_none, List.append_nil]
  refine List.filter_congr fun s _ => ?_
  simp [bne, Bool.beq_eq_decide_eq, eq_comm]

theorem caller_turnover (key : Nat) (caller : Caller) (found : c.caller? key = some caller) :
    c.hub.router.enterAll roll (caller.routing c.clock c.hub.router) = c.turnover roll (.move (.caller key)) := by
  have quits : c.quits? (.move (.caller key)) = caller.quits? c.clock c.hub.router := by simp [quits?, found]
  cases caller with
  | listening w own =>
      cases own with
      | false =>
          rw [still_turnover _ (by rw [quits]; rfl) rfl]
          simp only [Caller.routing, Bool.false_eq_true, if_false]
          split
          · rfl
          · rfl
          · split <;> rfl
      | true =>
          simp only [Caller.routing, if_true]
          simp only [Caller.quits?, EventWait.ready, Bool.true_and] at quits
          cases next : c.hub.router.peek w.stream with
          | event e =>
              rw [next] at quits
              rw [quit_turnover _ w.stream quits rfl]
              rfl
          | ended =>
              rw [next] at quits
              rw [quit_turnover _ w.stream quits rfl]
              rfl
          | waiting =>
              rw [next] at quits
              cases passed : c.clock.hasPassed w.limit with
              | true =>
                  rw [passed] at quits
                  rw [quit_turnover _ w.stream quits rfl]
                  rfl
              | false =>
                  rw [passed] at quits
                  rw [still_turnover _ quits rfl]
                  rfl
  | _ =>
      rw [still_turnover _ quits rfl]
      rfl

theorem handler_turnover (stream : Nat) (h : Handler) (found : c.handler? stream = some h) :
    c.hub.router.enterAll roll (h.routing c.hub.router) = c.turnover roll (.move (.handler stream)) := by
  have own := (handler_found stream h found).2
  have quits : c.quits? (.move (.handler stream)) = if h.quits c.hub.router then some h.stream else none := by
    simp only [quits?, found, Option.filter_some]
    split <;> rfl
  simp only [Handler.quits] at quits
  simp only [Handler.routing]
  cases busy : h.busy with
  | some work =>
      simp only [busy, Option.isNone_some, Bool.false_and, Bool.false_eq_true, if_false] at quits
      rw [still_turnover _ quits rfl]
      rfl
  | none =>
      simp only [busy, Option.isNone_none, Bool.true_and] at quits
      simp only [Option.isSome_none, Bool.false_eq_true, if_false]
      cases cancelled : h.cancelled with
      | true =>
          simp only [cancelled, Bool.true_or, if_true] at quits
          rw [quit_turnover _ h.stream quits rfl]
          rfl
      | false =>
          simp only [cancelled, Bool.false_or] at quits
          cases next : c.hub.router.peek h.stream with
          | ended =>
              rw [next] at quits
              rw [quit_turnover _ h.stream quits rfl]
              rfl
          | event e =>
              rw [next] at quits
              rw [still_turnover _ quits rfl]
              rfl
          | waiting =>
              rw [next] at quits
              rw [still_turnover _ quits rfl]
              rfl

theorem act_turnover (a : Act) : c.hub.router.enterAll roll (c.routing a) = c.turnover roll a := by
  have still : ∀ deeds, c.quits? a = none → c.enrols? a = none → c.hub.router.enterAll roll deeds = roll →
      c.hub.router.enterAll roll deeds = c.turnover roll a := by
    intro deeds quits enrols same
    rw [same, still_turnover a quits enrols]
  cases a with
  | subscribe filter | onEvent filter delay answer =>
      simp [routing, turnover, quits?, enrols?, Router.enterAll, Router.enter]
  | begin operation =>
      cases operation with
      | waitForEvent filter milliseconds => simp [routing, turnover, quits?, enrols?, Router.enterAll, Router.enter]
      | _ => exact still _ rfl rfl rfl
  | recv stream | drain stream =>
      refine still _ rfl rfl ?_
      simp only [routing]
      split <;> rfl
  | dropStream stream =>
      simp only [routing]
      cases free : c.isFreeStream stream with
      | true =>
          rw [quit_turnover _ stream (by simp [quits?, free]) rfl]
          rfl
      | false => exact still _ (by simp [quits?, free]) rfl rfl
  | abort key =>
      simp only [routing]
      cases held : (c.caller? key).bind (·.stream?) with
      | none => exact still _ held rfl rfl
      | some stream =>
          rw [quit_turnover (.abort key) stream held rfl]
          rfl
  | move activity =>
      cases activity with
      | reader =>
          refine still _ rfl rfl ?_
          simp only [routing]
          cases c.routes? (.move .reader) <;> rfl
      | writer => exact still _ rfl rfl rfl
      | caller key =>
          simp only [routing]
          cases found : c.caller? key with
          | none => exact still _ (by simp [quits?, found]) rfl rfl
          | some caller => exact caller_turnover key caller found
      | handler stream =>
          simp only [routing]
          cases found : c.handler? stream with
          | none => exact still _ (by simp [quits?, found]) rfl rfl
          | some h => exact handler_turnover stream h found
  | _ => exact still _ rfl rfl rfl

theorem act_lists (agrees : c.hub.Agrees) (lists : c.hub.router.Lists roll) (a : Act) :
    (c.act a).hub.router.Lists (c.turnover roll a) := by
  rw [← act_turnover]
  exact Hub.routed_lists (act_routed agrees a) (Router.performs_lists lists _)

end

structure Rolls (c : Connection) (roll : List Subscriber) : Prop where
  sound : c.Sound
  agrees : c.hub.Agrees
  lists : c.hub.router.Lists roll

section
variable {c : Connection} {roll : List Subscriber}

theorem initial_rolls (config : Config) (link : Link) : (ofLink config link).Rolls [] :=
  ⟨initial_sound config link, rfl, Router.opened_lists _⟩

theorem act_rolls (rolls : c.Rolls roll) (a : Act) : (c.act a).Rolls (c.turnover roll a) :=
  ⟨act_sound rolls.sound a, act_agrees rolls.sound.kept rolls.agrees a, act_lists rolls.agrees rolls.lists a⟩

end

theorem run_rolls (config : Config) (link : Link) (acts : List Act) :
    ((ofLink config link).run acts).Rolls ((ofLink config link).live acts) := by
  refine run_induction act (ofLink config link) (P := fun acts c => c.Rolls ((ofLink config link).live acts))
    (initial_rolls config link) ?_ acts
  intro acts a rolls
  rw [live_concat]
  exact act_rolls rolls a

end Connection

end DevTools
