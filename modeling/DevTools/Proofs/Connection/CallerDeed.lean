import DevTools.Proofs.Connection.Deed

set_option autoImplicit false

namespace DevTools

def Response.grants? (r : Response) : Option SessionId :=
  match r.outcome with
  | .ok result => (attachReply.parse (Utf8.encode result.text)).toOption
  | .error _ => none

def Caller.attaching? : Caller → Option (TargetId × Call)
  | asking (.attach target) _ call _ => some (target, call)
  | awaiting (.attach target) w => some (target, w.call)
  | _ => none

def Caller.granted? (caller : Caller) (t : CallTable) : Option (SessionId × TargetId) :=
  match caller.attaching? with
  | some (target, call) =>
      match t.outcome? call with
      | some (.ok r) => r.grants?.map fun session => (session, target)
      | _ => none
  | none => none

def Caller.Makes (caller : Caller) (h : Hub) (d : Deed) : Prop :=
  d.isPlain = true ∨ ∃ session target, caller.granted? h.calls = some (session, target) ∧ d = .attach session target

-- Some plain deeds make one hub of the other, and take these events on the way.
def Plainly (h after : Hub) (taken : Nat → List Event) : Prop :=
  ∃ deeds : List Deed, after = h.performs deeds ∧ (∀ d ∈ deeds, d.isPlain = true) ∧
    ∀ stream, h.yielded stream deeds = taken stream

theorem plainly_nothing (h : Hub) : Plainly h h fun _ => [] :=
  ⟨[], rfl, by simp, fun _ => rfl⟩

theorem plainly_one (h : Hub) (d : Deed) (plain : d.isPlain = true) :
    Plainly h (h.perform d) fun stream => h.yields stream d := by
  refine ⟨[d], rfl, by simpa using plain, ?_⟩
  intro stream
  simp [Hub.yielded, trace]

theorem plainly_trans (h middle after : Hub) (first second : Nat → List Event) (left : Plainly h middle first)
    (right : Plainly middle after second) : Plainly h after fun stream => first stream ++ second stream := by
  obtain ⟨before, rfl, plainBefore, takenBefore⟩ := left
  obtain ⟨later, rfl, plainLater, takenLater⟩ := right
  refine ⟨before ++ later, (Hub.performs_append h before later).symm, ?_, ?_⟩
  · intro d member
    rcases List.mem_append.mp member with early | late
    · exact plainBefore d early
    · exact plainLater d late
  · intro stream
    rw [Hub.yielded_append, takenBefore, takenLater]

theorem plainly_silent (h : Hub) (d : Deed) (plain : d.isPlain = true) (silent : ∀ stream, h.yields stream d = []) :
    Plainly h (h.perform d) fun _ => [] := by
  obtain ⟨deeds, made, plains, taken⟩ := plainly_one h d plain
  exact ⟨deeds, made, plains, fun stream => (taken stream).trans (silent stream)⟩

theorem look_plainly (h : Hub) (clock : Clock) (target : TargetId) (limit : Limit) :
    Plainly h { h with sessions := (TargetWait.look clock target limit h.sessions).2 } fun _ => [] := by
  have lies := plainly_silent h (.lieDown target) rfl (fun _ => rfl)
  have rises := plainly_silent (h.perform (.lieDown target)) (.getUp (h.sessions.lieDown target).1) rfl (fun _ => rfl)
  simp only [TargetWait.look]
  split
  · exact plainly_trans _ _ _ _ _ lies rises
  · split
    · exact plainly_trans _ _ _ _ _ lies rises
    · exact lies

theorem seek_plainly (h : Hub) (clock : Clock) (w : TargetWait) :
    Plainly h { h with sessions := (w.move clock h.sessions).2 } fun _ => [] := by
  have rises := plainly_silent h (.getUp w.sleeper) rfl (fun _ => rfl)
  simp only [TargetWait.move]
  split
  · exact plainly_trans _ _ _ _ _ rises (look_plainly _ clock w.target w.limit)
  · split
    · exact rises
    · exact plainly_nothing h

theorem finish_plainly (h : Hub) (clock : Clock) (w : CallWait) (outcome : Outcome) (calls : CallTable)
    (finish : w.finish? clock h.calls = some (outcome, calls)) : Plainly h { h with calls } fun _ => [] := by
  cases settled : h.calls.outcome? w.call with
  | some o =>
      rw [finish_settled w clock h.calls o settled] at finish
      cases finish
      exact plainly_silent h (.collect w.call) rfl (fun _ => rfl)
  | none =>
      rw [finish_unsettled w clock h.calls settled] at finish
      obtain ⟨fault, _, made⟩ := Option.map_eq_some_iff.mp finish
      cases made
      exact plainly_silent h (.abandon w.call) rfl (fun _ => rfl)

theorem conclude_hub (use : Use) (outcome : Outcome) (h : Hub) :
    (use.conclude outcome h).2 = h ∨ ∃ target r session, use = .attach target ∧ outcome = .ok r ∧
      r.grants? = some session ∧ (use.conclude outcome h).2 = h.perform (.attach session target) := by
  cases outcome with
  | error fault => exact Or.inl rfl
  | ok response =>
      simp only [Use.conclude]
      cases granted : response.outcome with
      | error refused => exact Or.inl rfl
      | ok result =>
          cases use with
          | attach target =>
              simp only [Use.apply]
              cases parsed : attachReply.parse (Utf8.encode result.text) with
              | error fault => exact Or.inl rfl
              | ok session =>
                  refine Or.inr ⟨target, response, session, rfl, rfl, ?_, rfl⟩
                  simp [Response.grants?, granted, parsed, Except.toOption]
          | _ => exact Or.inl rfl

def Caller.takes (caller : Caller) (h : Hub) (stream : Nat) : List Event :=
  match caller with
  | .listening w _ => if w.stream == stream then h.router.handed stream else []
  | _ => []

theorem drop_plainly (caller : Caller) (h : Hub) : Plainly h (caller.drop h) fun _ => [] := by
  cases caller with
  | sending call | asking _ _ call => exact plainly_silent h (.abandon call) rfl (fun _ => rfl)
  | awaiting use w => exact plainly_silent h (.abandon w.call) rfl (fun _ => rfl)
  | collecting w => exact plainly_silent h (.abandon w.call) rfl (fun _ => rfl)
  | listening w own => exact plainly_silent h (.dropStream w.stream) rfl (fun _ => rfl)
  | seeking w => exact plainly_silent h (.getUp w.sleeper) rfl (fun _ => rfl)
  | closing | untilClosed => exact plainly_nothing h

theorem listen_plainly (h : Hub) (clock : Clock) (ended : Bool) (w : EventWait) (own : Bool) :
    Plainly h ((Caller.listening w own).move clock ended h).2 ((Caller.listening w own).takes h) := by
  have leaves : ∀ before : Hub, Plainly before
      { before with router := if own then before.router.drop w.stream else before.router } fun _ => [] := by
    intro before
    cases own with
    | true => exact plainly_silent before (.dropStream w.stream) rfl (fun _ => rfl)
    | false => exact plainly_nothing before
  have idle : (∀ e, h.router.peek w.stream ≠ .event e) → (Caller.listening w own).takes h = fun _ => [] := by
    intro nothing
    funext stream
    exact Hub.take_nothing h w.stream nothing stream
  have taking : h.router.take w.stream = (h.router.peek w.stream, (h.router.take w.stream).2) := rfl
  simp only [Caller.move, EventWait.finish?]
  rw [taking]
  cases next : h.router.peek w.stream with
  | event e =>
      have taken := plainly_trans _ _ _ _ _ (plainly_one h (.take w.stream) rfl) (leaves (h.perform (.take w.stream)))
      simp only [List.append_nil] at taken
      exact taken
  | ended =>
      rw [idle (by simp [next])]
      exact leaves h
  | waiting =>
      rw [idle (by simp [next])]
      cases clock.hasPassed w.limit with
      | true => exact leaves h
      | false => exact plainly_nothing h

theorem makes_plainly (caller : Caller) (h after : Hub) (taken : Nat → List Event) (plainly : Plainly h after taken) :
    ∃ deeds, after = h.performs deeds ∧ (∀ d ∈ deeds, caller.Makes h d) ∧ ∀ stream,
      h.yielded stream deeds = taken stream := by
  obtain ⟨deeds, made, plain, yielded⟩ := plainly
  exact ⟨deeds, made, fun d member => Or.inl (plain d member), yielded⟩

theorem await_deeds (use : Use) (w : CallWait) (clock : Clock) (ended : Bool) (h : Hub) :
    ∃ deeds, ((Caller.awaiting use w).move clock ended h).2 = h.performs deeds ∧
      (∀ d ∈ deeds, (Caller.awaiting use w).Makes h d) ∧ ∀ stream, h.yielded stream deeds = [] := by
  simp only [Caller.move]
  cases finish : w.finish? clock h.calls with
  | none => exact makes_plainly _ _ _ _ (plainly_nothing h)
  | some result =>
      obtain ⟨outcome, calls⟩ := result
      have finishes := finish_plainly h clock w outcome calls finish
      rcases conclude_hub use outcome { h with calls } with same | ⟨target, r, session, rfl, rfl, grants, made⟩
      · rw [same]
        exact makes_plainly _ _ _ _ finishes
      · obtain ⟨deeds, before, plain, yielded⟩ := finishes
        have settled : h.calls.outcome? w.call = some (.ok r) := by
          cases settled : h.calls.outcome? w.call with
          | some o =>
              rw [finish_settled w clock h.calls o settled] at finish
              cases finish
              rfl
          | none =>
              rw [finish_unsettled w clock h.calls settled] at finish
              obtain ⟨fault, _, same⟩ := Option.map_eq_some_iff.mp finish
              cases same
        refine ⟨deeds ++ [.attach session target], ?_, ?_, ?_⟩
        · rw [Hub.performs_append, ← before]
          exact made
        · intro d member
          rcases List.mem_append.mp member with old | new
          · exact Or.inl (plain d old)
          · exact Or.inr ⟨session, target, by simp [Caller.granted?, Caller.attaching?, settled, grants],
              List.mem_singleton.mp new⟩
        · intro stream
          rw [Hub.yielded_append, yielded]
          rfl

theorem move_deeds (caller : Caller) (clock : Clock) (ended : Bool) (h : Hub) :
    ∃ deeds, (caller.move clock ended h).2 = h.performs deeds ∧ (∀ d ∈ deeds, caller.Makes h d) ∧
      ∀ stream, h.yielded stream deeds = caller.takes h stream := by
  cases caller with
  | awaiting use w => exact await_deeds use w clock ended h
  | listening w own => exact makes_plainly _ _ _ _ (listen_plainly h clock ended w own)
  | sending call written =>
      apply makes_plainly
      simp only [Caller.move]
      split
      · exact plainly_nothing h
      · exact plainly_nothing h
      · exact drop_plainly (.sending call none) h
  | asking use cancel call written =>
      apply makes_plainly
      simp only [Caller.move]
      split
      · exact drop_plainly (.asking use cancel call none) h
      · split
        · exact plainly_nothing h
        · exact plainly_nothing h
        · exact drop_plainly (.asking use cancel call none) h
  | collecting w =>
      apply makes_plainly
      simp only [Caller.move]
      cases finish : w.finish? clock h.calls with
      | none => exact plainly_nothing h
      | some result => exact finish_plainly h clock w result.1 result.2 finish
  | seeking w =>
      apply makes_plainly
      simp only [Caller.move]
      split
      · exact drop_plainly (.seeking w) h
      · exact seek_plainly h clock w
  | closing joins =>
      apply makes_plainly
      simp only [Caller.move]
      split <;> exact plainly_nothing h
  | untilClosed =>
      apply makes_plainly
      simp only [Caller.move]
      split <;> exact plainly_nothing h

end DevTools
