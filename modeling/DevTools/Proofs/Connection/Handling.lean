import DevTools.Proofs.Connection.Deadline
import DevTools.Proofs.Connection.Tending

set_option autoImplicit false

namespace DevTools

-- A call of a handler as it comes and goes.
inductive Stint where
  | begins (e : Event)
  | ends (e : Event)
deriving DecidableEq, Repr

namespace Stint

def begun? : Stint → Option Event
  | begins e => some e
  | ends _ => none

-- One call after the other is over with, and then the one that is not.
def inTurn (done : List Event) (inHand : Option Event) : List Stint :=
  done.flatMap (fun e => [.begins e, .ends e]) ++ inHand.toList.map .begins

variable (done : List Event) (e : Event)

theorem in_turn_begun (inHand : Option Event) : (inTurn done inHand).filterMap begun? = done ++ inHand.toList := by
  rw [inTurn, List.filterMap_append]
  congr 1
  · induction done with
    | nil => rfl
    | cons e done ih => exact congrArg (e :: ·) ih
  · cases inHand <;> rfl

theorem in_turn_begins : inTurn done none ++ [.begins e] = inTurn done (some e) := by simp [inTurn]

theorem in_turn_ends : inTurn done (some e) ++ [.ends e] = inTurn (done ++ [e]) none := by simp [inTurn]

end Stint

def faults (stream : Nat) (answer : Nat → Event → Except Error Unit) (calls : List Event) : List Complaint :=
  calls.zipIdx.filterMap fun (e, made) =>
    match answer made e with
    | .ok () => none
    | .error fault => some ⟨stream, e.method, fault⟩

theorem faults_concat (h : Handler) (calls : List Event) (e : Event) (counted : h.made = calls.length) :
    faults h.stream h.answer (calls ++ [e]) = faults h.stream h.answer calls ++ (h.complaint? e).toList := by
  have last : (calls ++ [e]).zipIdx = calls.zipIdx ++ [(e, h.made)] := by
    rw [List.zipIdx_append, counted, Nat.zero_add]; rfl
  rw [faults, last, List.filterMap_append]
  rfl

namespace Router

variable {r : Router} {stream : Nat} {b : Inbox}

theorem performs_shows {roll : List Subscriber} (lists : r.Lists roll) (shows_ : r.Shows stream b)
    (deeds : List RouterDeed) :
    (r.performs deeds).Shows stream (b.touches (deeds.filterMap (·.touch? stream))) := by
  induction deeds generalizing r roll b with
  | nil => exact shows_
  | cons d deeds ih =>
      have next := ih (perform_lists lists d) (perform_shows shows_ lists.staffed.tidy.quiet d)
      rw [List.filterMap_cons]
      cases touched : d.touch? stream with
      | none =>
          rw [touched] at next
          exact next
      | some t =>
          rw [touched] at next
          exact next

theorem shows_buffered (shows_ : r.Shows stream b) (there : b.phase ≠ .dropped) : r.buffered stream = b.buffer := by
  rw [buffered_eq, shows_.held, if_neg there]
  rfl

end Router

namespace Inbox

def shut (b : Inbox) (closed : Bool) : Inbox := if closed then b.touch .close else b

variable {b : Inbox} (closed : Bool)

theorem shut_same : (b.shut closed).buffer = b.buffer ∧ (b.shut closed).capacity = b.capacity ∧
    (b.shut closed).filter = b.filter ∧
    ((b.shut closed).phase = .dropped ↔ b.phase = .dropped) := by
  cases closed with
  | false => exact ⟨rfl, rfl, rfl, Iff.rfl⟩
  | true =>
      simp only [shut, if_true, touch]
      split
      · exact ⟨rfl, rfl, rfl, Iff.rfl⟩
      · next there => exact ⟨rfl, rfl, rfl, by simp [there]⟩

theorem touches_fixed (ts : List Touch) : (b.touches ts).capacity = b.capacity ∧ (b.touches ts).filter = b.filter := by
  induction ts generalizing b with
  | nil => exact ⟨rfl, rfl⟩
  | cons t ts ih => exact ⟨ih.1.trans (touch_fixed t).1, ih.2.trans (touch_fixed t).2⟩

end Inbox

namespace Connection

def inHand? (c : Connection) (stream : Nat) : Option Event := ((c.handler? stream).bind (·.busy)).map (·.1)

def served (c : Connection) (stream : Nat) : List Event := (c.handled.filter (·.1 == stream)).map (·.2)

def complaintsOf (c : Connection) (stream : Nat) : List Complaint := c.complaints.filter (·.stream == stream)

def stint? (c : Connection) (stream : Nat) (a : Act) : Option Stint :=
  match c.inHand? stream, (c.act a).inHand? stream with
  | none, some e => some (.begins e)
  | some e, none => some (.ends e)
  | _, _ => none

def stints (c : Connection) (stream : Nat) (acts : List Act) : List Stint :=
  (trace act c acts).filterMap fun (c, a) => c.stint? stream a

def calls (c : Connection) (stream : Nat) (acts : List Act) :
    List Event := (c.stints stream acts).filterMap Stint.begun?

-- An event that is passed on in the act and that the filter accepts, and how many events the buffer of the stream holds then.
def offers (c : Connection) (stream : Nat) (filter : Filter) (a : Act) : List Offer :=
  ((c.routes? a).filter filter.accepts).toList.map fun e => ⟨e, (c.hub.router.buffered stream).length⟩

def offered (c : Connection) (stream : Nat) (filter : Filter) (acts : List Act) : List Offer :=
  (trace act c acts).flatMap fun (c, a) => c.offers stream filter a

def stirs (c : Connection) (stream : Nat) : Act → Bool
  | .move (.handler own) => own == stream && c.handlerReady stream
  | _ => false

-- The stream of the handler as its holder notices the act, but for the end of the connection.
def touches (c : Connection) (stream : Nat) (a : Act) : List Touch := (c.routing a).filterMap (·.touch? stream)

-- The handler of the stream has not been called, nor has a call of it ended.
structure Idles (c after : Connection) (stream : Nat) : Prop where
  served : after.served stream = c.served stream
  complaints : after.complaintsOf stream = c.complaintsOf stream

-- What becomes of one handler in an act, and what its stream notices. Beside it an event may come in, for it or for others.
inductive HandlerStep (c : Connection) (stream : Nat) (a : Act) : Prop where
  | aside (still : c.stirs stream a = false) (kept : a = .cancelHandler stream → c.handler? stream = none)
      (handler : (c.act a).handler? stream = c.handler? stream) (idles : Idles c (c.act a) stream)
      (touches : c.handler? stream ≠ none → c.touches stream a = (c.routes? a).toList.map .event)
  | cancelled (h : Handler) (is : a = .cancelHandler stream) (found : c.handler? stream = some h)
      (handler : (c.act a).handler? stream = some { h with cancelled := true }) (idles : Idles c (c.act a) stream)
      (touches : c.touches stream a = [])
  | finishes (h : Handler) (e : Event) (due : Nat) (is : a = .move (.handler stream))
      (found : c.handler? stream = some h)
      (busy : h.busy = some (e, due))
      (handler : (c.act a).handler? stream = some { h with busy := none, made := h.made + 1 })
      (served : (c.act a).served stream = c.served stream ++ [e])
      (complaints : (c.act a).complaintsOf stream = c.complaintsOf stream ++ (h.complaint? e).toList)
      (touches : c.touches stream a = [])
  | begins (h : Handler) (e : Event) (is : a = .move (.handler stream)) (found : c.handler? stream = some h)
      (idle : h.busy = none)
      (wanted : h.cancelled = false) (next : c.hub.router.peek stream = .event e)
      (handler : (c.act a).handler? stream = some { h with busy := some (e, c.clock.now + h.delay) })
      (idles : Idles c (c.act a) stream) (touches : c.touches stream a = [.take])
  | goes (h : Handler) (is : a = .move (.handler stream)) (found : c.handler? stream = some h) (idle : h.busy = none)
      (why : h.cancelled = true ∨ c.hub.router.peek stream = .ended) (handler : (c.act a).handler? stream = none)
      (idles : Idles c (c.act a) stream) (touches : c.touches stream a = [.drop])

section
variable {c after : Connection} {a : Act} {stream : Nat}

theorem handler_missing : c.handler? stream = none ↔ stream ∉ c.handlerStreams := by
  simp [handler?, handlerStreams]

theorem handler_there : stream ∈ c.handlerStreams ↔ ∃ h, c.handler? stream = some h := by
  rw [← Option.ne_none_iff_exists', ne_eq, handler_missing, not_not]

theorem handler_same (same : after.handlers = c.handlers) : after.handler? stream = c.handler? stream := by
  rw [handler?, handler?, same]

theorem untended_idles (untended : Untended c after) : Idles c after stream :=
  ⟨by rw [served, served, untended.handled], by rw [complaintsOf, complaintsOf, untended.complaints]⟩

theorem handler_map (f : Handler → Handler) (same : ∀ h, (f h).stream = h.stream) :
    (c.handlers.map f).find? (·.stream == stream) = (c.handler? stream).map f := by
  rw [List.find?_map, handler?]
  congr 2
  funext h
  simp only [Function.comp, same]

theorem put_handler (h : Handler) : (c.putHandler h).handler? stream =
    (c.handler? stream).map fun old => if old.stream == h.stream then h else old := by
  refine handler_map (fun old => if old.stream == h.stream then h else old) fun old => ?_
  by_cases own : old.stream = h.stream <;> simp [own]

theorem put_found (h : Handler) (old : Handler) (found : c.handler? stream = some old) (own : h.stream = stream) :
    (c.putHandler h).handler? stream = some h := by
  rw [put_handler, found, Option.map_some, if_pos]
  rw [(handler_found stream old found).2, own, beq_self_eq_true]

theorem put_other (h : Handler) (other : h.stream ≠ stream) : (c.putHandler h).handler? stream = c.handler? stream := by
  rw [put_handler]
  cases found : c.handler? stream with
  | none => rfl
  | some old =>
      have own := (handler_found stream old found).2
      rw [Option.map_some, if_neg]
      rw [own, beq_iff_eq]
      exact Ne.symm other

theorem end_handler (own : Nat) : (c.endHandler own).handler? stream = if own = stream then none
    else c.handler? stream := by
  simp only [endHandler, handler?, List.find?_filter]
  split
  · next same =>
      rw [List.find?_eq_none]
      intro h _
      by_cases mine : h.stream = stream <;> simp [mine, same]
  · next other =>
      congr 1
      funext h
      by_cases mine : h.stream = stream
      · simp [mine, Ne.symm other]
      · simp [mine]

theorem served_concat (after : Connection) (stream own : Nat) (e : Event)
    (handled : after.handled = c.handled ++ [(own, e)]) :
    after.served stream = c.served stream ++ if own = stream then [e] else [] := by
  rw [served, served, handled, List.filter_append, List.map_append]
  by_cases mine : own = stream <;> simp [mine]

theorem complaints_concat (after : Connection) (stream : Nat) (h : Handler) (e : Event)
    (complaints : after.complaints = c.complaints ++ (h.complaint? e).toList) :
    after.complaintsOf stream = c.complaintsOf stream ++ if h.stream = stream then (h.complaint? e).toList else [] := by
  rw [complaintsOf, complaintsOf, complaints, List.filter_append]
  simp only [Handler.complaint?]
  by_cases mine : h.stream = stream <;> cases h.answer h.made e <;> simp [mine]

theorem caller_touches (caller : Caller) (clock : Clock) (r : Router) (other : caller.stream? ≠ some stream) :
    (caller.routing clock r).filterMap (·.touch? stream) = [] := by
  cases caller with
  | listening w own =>
      have apart : w.stream ≠ stream := fun same => other (congrArg some same)
      have leaves : (if own then [RouterDeed.drop w.stream] else []).filterMap (·.touch? stream) = [] := by
        cases own <;> simp [RouterDeed.touch?, apart]
      simp only [Caller.routing]
      split
      · rw [List.filterMap_cons, leaves]
        simp [RouterDeed.touch?, apart]
      · exact leaves
      · split
        · exact leaves
        · rfl
  | _ => rfl

theorem handler_touches (h : Handler) (r : Router) (other : h.stream ≠ stream) :
    (h.routing r).filterMap (·.touch? stream) = [] := by
  simp only [Handler.routing]
  split
  · rfl
  · split
    · simp [RouterDeed.touch?, other]
    · split <;> simp [RouterDeed.touch?, other]

theorem others_touches (tended : c.Tended) (there : stream ∈ c.handlerStreams) (other : a ≠ .move (.handler stream)) :
    c.touches stream a = (c.routes? a).toList.map .event := by
  have free : ∀ own, c.isFreeStream own = true → own ≠ stream := by
    rintro own free rfl
    exact (free_unheld free).2.2 there
  have held : ∀ key caller, c.caller? key = some caller → caller.stream? ≠ some stream := fun key caller found =>
    tended.apart (key, caller) (caller_member key caller found) stream there
  cases a with
  | recv own | drain own | dropStream own =>
      simp only [touches, routing]
      split
      · next unheld => simp [RouterDeed.touch?, free own unheld, routes?, notes?]
      · rfl
  | abort key =>
      simp only [touches, routing]
      cases found : c.caller? key with
      | none => rfl
      | some caller =>
          have apart := held key caller found
          cases has : caller.stream? with
          | none => simp [has, routes?, notes?]
          | some own =>
              have another : own ≠ stream := fun same => apart (has.trans (congrArg some same))
              simp [has, RouterDeed.touch?, another, routes?, notes?]
  | move activity =>
      cases activity with
      | reader =>
          simp only [touches, routing]
          cases c.routes? (.move .reader) <;> rfl
      | writer => rfl
      | caller key =>
          simp only [touches, routing]
          cases found : c.caller? key with
          | none => rfl
          | some caller => exact caller_touches caller c.clock c.hub.router (held key caller found)
      | handler own =>
          simp only [touches, routing]
          cases found : c.handler? own with
          | none => rfl
          | some h =>
              refine handler_touches h c.hub.router fun same => other ?_
              rw [← same, (handler_found own h found).2]
  | begin operation => cases operation <;> rfl
  | _ => rfl

theorem own_step : HandlerStep c stream (.move (.handler stream)) := by
  have moved := unheld_untended (c.moveHandler stream)
  have seen : (c.act (.move (.handler stream))).handler? stream = (c.moveHandler stream).handler? stream :=
    handler_same moved.handlers
  have idles : Idles (c.moveHandler stream) (c.act (.move (.handler stream))) stream := untended_idles moved
  have touched : ∀ h, c.handler? stream = some h → c.touches stream (.move (.handler stream)) =
      (h.routing c.hub.router).filterMap (·.touch? stream) := by
    intro h found
    simp only [touches, routing, found, Option.elim_some]
  have moves := handler_moves (c := c) stream
  generalize c.moveHandler stream = after at moves seen idles
  cases moves with
  | rests why =>
      refine .aside ?_ (fun is => by cases is) seen idles fun there => ?_
      · cases found : c.handler? stream with
        | none => simp [stirs, handlerReady, found]
        | some h =>
            rcases why h found with ⟨e, due, busy, early⟩ | ⟨idle, wanted, next⟩
            · simp [stirs, handlerReady, found, busy, early]
            · simp [stirs, handlerReady, found, idle, wanted, next]
      · obtain ⟨h, found⟩ := Option.ne_none_iff_exists'.mp there
        rw [touched h found]
        rcases why h found with ⟨e, due, busy, -⟩ | ⟨idle, wanted, next⟩
        · simp [Handler.routing, busy, routes?, notes?]
        · simp [Handler.routing, (handler_found stream h found).2, idle, wanted, next, routes?, notes?]
  | finishes h e due found busy past =>
      have own := (handler_found stream h found).2
      have served := served_concat (c := c) (c.finishCall h e) stream h.stream e rfl
      have complaints := complaints_concat (c := c) (c.finishCall h e) stream h e rfl
      rw [if_pos own] at served complaints
      refine .finishes h e due rfl found busy ?_ (idles.served.trans served) (idles.complaints.trans complaints) ?_
      · exact seen.trans (put_found { h with busy := none, made := h.made + 1 } h found own)
      · rw [touched h found]
        simp [Handler.routing, busy]
  | begins h e found idle wanted next =>
      have own := (handler_found stream h found).2
      refine .begins h e rfl found idle wanted next ?_ ⟨idles.served, idles.complaints⟩ ?_
      · exact seen.trans (put_found { h with busy := some (e, c.clock.now + h.delay) } h found own)
      · rw [touched h found]
        simp [Handler.routing, own, idle, wanted, next, RouterDeed.touch?]
  | goes h found idle why =>
      have own := (handler_found stream h found).2
      refine .goes h rfl found idle why ?_ ⟨idles.served, idles.complaints⟩ ?_
      · rw [seen, end_handler, if_pos rfl]
      · rw [touched h found]
        rcases why with cancelled | ended
        · simp [Handler.routing, own, idle, cancelled, RouterDeed.touch?]
        · cases wanted : h.cancelled <;> simp [Handler.routing, own, idle, wanted, ended, RouterDeed.touch?]

theorem handler_step (tended : c.Tended) (known : stream < c.hub.router.nextId) (a : Act) : HandlerStep c stream a := by
  by_cases mine : a = .move (.handler stream)
  · rw [mine]
    exact own_step
  have touches : c.handler? stream ≠ none → c.touches stream a = (c.routes? a).toList.map .event := fun there =>
    others_touches tended (not_not.mp (mt handler_missing.mpr there)) mine
  cases tends : a.tends with
  | false =>
      have untended := act_untended (c := c) tends
      refine .aside ?_ (fun is => ?_) (handler_same untended.handlers) (untended_idles untended) touches
      · cases a with
        | move activity => cases activity <;> first | rfl | cases tends
        | _ => rfl
      · rw [is] at tends
        cases tends
  | true =>
      cases a with
      | onEvent filter delay answer =>
          refine .aside rfl (fun is => by cases is) ?_ ⟨rfl, rfl⟩ touches
          have other : c.hub.router.nextId ≠ stream := Nat.ne_of_gt known
          simp only [act, onEvent, handler?, List.find?_append, Router.subscribe]
          cases c.handlers.find? (·.stream == stream) <;> simp [other]
      | cancelHandler own =>
          have seen : (c.act (.cancelHandler own)).handler? stream =
              (c.handler? stream).map fun h => if h.stream == own then { h with cancelled := true } else h :=
            handler_map (fun h => if h.stream == own then { h with cancelled := true } else h) fun h => by split <;> rfl
          cases found : c.handler? stream with
          | none =>
              rw [found] at seen
              exact .aside rfl (fun _ => found) (seen.trans found.symm) ⟨rfl, rfl⟩ touches
          | some h =>
              have has := (handler_found stream h found).2
              rw [found, Option.map_some] at seen
              by_cases same : own = stream
              · rw [if_pos (by simp [has, same])] at seen
                subst same
                exact .cancelled h rfl found seen ⟨rfl, rfl⟩ rfl
              · rw [if_neg (by simpa [has] using Ne.symm same)] at seen
                refine .aside rfl (fun is => ?_) (seen.trans found.symm) ⟨rfl, rfl⟩ touches
                cases is
                exact absurd rfl same
      | move activity =>
          cases activity with
          | handler another =>
              have other : another ≠ stream := fun same => mine (by rw [same])
              have moved := unheld_untended (c.moveHandler another)
              have seen : (c.act (.move (.handler another))).handler? stream =
                  (c.moveHandler another).handler? stream :=
                handler_same moved.handlers
              have idles : Idles (c.moveHandler another) (c.act (.move (.handler another))) stream :=
                untended_idles moved
              have moves := handler_moves (c := c) another
              generalize c.moveHandler another = after at moves seen idles
              have still : after.handler? stream = c.handler? stream ∧ Idles c after stream := by
                cases moves with
                | rests why => exact ⟨rfl, rfl, rfl⟩
                | finishes h e due found busy past =>
                    have apart : h.stream ≠ stream :=
                      fun same => other ((handler_found another h found).2.symm.trans same)
                    have served := served_concat (c := c) (c.finishCall h e) stream h.stream e rfl
                    have complaints := complaints_concat (c := c) (c.finishCall h e) stream h e rfl
                    rw [if_neg apart, List.append_nil] at served complaints
                    exact ⟨put_other { h with busy := none, made := h.made + 1 } apart, served, complaints⟩
                | begins h e found idle wanted next =>
                    have apart : h.stream ≠ stream :=
                      fun same => other ((handler_found another h found).2.symm.trans same)
                    exact ⟨put_other { h with busy := some (e, c.clock.now + h.delay) } apart, rfl, rfl⟩
                | goes h found idle why => exact ⟨by rw [end_handler, if_neg other], rfl, rfl⟩
              refine .aside ?_ (fun is => by cases is) (seen.trans still.1)
                ⟨idles.served.trans still.2.served, idles.complaints.trans still.2.complaints⟩ touches
              simp [stirs, other]
          | reader | writer | caller => cases tends
      | _ => cases tends

end

end Connection

end DevTools
