import DevTools.Proofs.Connection.Rest

set_option autoImplicit false

namespace DevTools

theorem perform_config (h : Hub) (d : Deed) : (h.perform d).config = h.config := by
  cases d with
  | post asked =>
      obtain ⟨_, _, made⟩ := Hub.post_hub h asked
      simp only [Hub.perform, made]
  | frame bytes =>
      obtain ⟨_, _, _, _, made, _⟩ := Hub.frame_hub h bytes
      simp only [Hub.perform, made]
  | detach session =>
      obtain ⟨_, _, made⟩ := Hub.detach_hub h session
      simp only [Hub.perform, made]
  | shutdown reason =>
      simp only [Hub.perform, Hub.shutdown]
      split <;> rfl
  | _ => rfl

theorem performs_config (h : Hub) (deeds : List Deed) : (h.performs deeds).config = h.config := by
  induction deeds generalizing h with
  | nil => rfl
  | cons d deeds ih => exact (ih (h.perform d)).trans (perform_config h d)

namespace Connection

-- The caller takes notice that the frame of its call has gone through.
def Noticed (seen : List (Connection × Act)) (key : Nat) (call : Call) (since : Nat) : Prop :=
  ∃ y use cancel, (y, .move (.caller key)) ∈ seen ∧ (key, .asking use cancel call (some (.ok ()))) ∈ y.callers ∧
    y.clock.now = since

-- The last of the frame of the call is written, and flushed.
def WrittenAt (seen : List (Connection × Act)) (call : Call) (since : Nat) : Prop :=
  ∃ z o, (z, .move .writer) ∈ seen ∧ z.completes? (.move .writer) = some o ∧ o.call = call ∧ z.clock.now = since

-- Time goes on only when nobody can move.
def Prompt (seen : List (Connection × Act)) : Prop := ∀ y milliseconds, (y, .advance milliseconds) ∈ seen → y.Resting

-- The caller of a request waits for its frame to be written, or for its response and no longer than the
-- limit allows.
def Limited (seen : List (Connection × Act)) (key : Nat) (call : Call) (milliseconds : Nat) (caller : Caller) : Prop :=
  (∃ use cancel written, caller = .asking use cancel call written) ∨
    ∃ use w since, caller = .awaiting use w ∧ Noticed seen key call since ∧
      w.limit = some ⟨since + milliseconds, .ofMilliseconds milliseconds⟩

section
variable {c : Connection} {a : Act}

theorem run_config (sound : c.Sound) (acts : List Act) : (c.run acts).hub.config = c.hub.config := by
  induction acts generalizing c with
  | nil => rfl
  | cons a acts ih =>
      refine (ih (act_sound sound a)).trans ?_
      obtain ⟨deeds, made, _⟩ := act_deeds sound.kept a
      rw [made]
      exact performs_config c.hub deeds

theorem end_clock (before : Connection) : before.endWriter.clock = before.clock :=
  (tell_aside before.hub.outbound (.error .connectionClosed)).clock

theorem writer_clock : c.moveWriter.clock = c.clock := by
  simp only [moveWriter]
  split
  · rfl
  · split
    · exact end_clock c
    · split <;> rfl
  · split
    · rfl
    · exact end_clock _
    · split
      · exact end_clock _
      · rfl

theorem move_still (activity : Activity) (milliseconds : Nat) : Act.move activity ≠ .advance milliseconds := by
  intro same
  cases same

theorem act_now (still : ∀ milliseconds, a ≠ .advance milliseconds) : (c.act a).clock.now = c.clock.now := by
  cases aside : a.isAside with
  | true => exact congrArg Clock.now (act_aside aside).clock
  | false =>
      cases a with
      | far | fire => rfl
      | advance milliseconds => exact absurd rfl (still milliseconds)
      | move activity =>
          refine congrArg Clock.now ((unheld_aside _).clock.trans ?_)
          cases activity with
          | reader =>
              simp only [moveReader]
              split
              · rfl
              · split <;> rfl
          | writer => exact writer_clock
          | caller | handler => cases aside
      | _ => cases aside

theorem resting_waits (distinct : c.Distinct) (resting : c.Resting) (key : Nat) (caller : Caller)
    (held : (key, caller) ∈ c.callers) :
    caller.ready c.clock c.tasksEnded c.hub = false := by
  have still := resting.2.2 _ held
  simp only [callerReady, caller_found distinct key caller held, Option.any_some] at still
  exact still

theorem limit_guides (seen : List (Connection × Act)) (member : (c, a) ∈ seen) (key : Nat) (call : Call)
    (timeout : UInt64)
    (timed : c.hub.config.requestTimeoutMs = some timeout) :
    Guides c a key (Limited seen key call timeout.toNat) fun _ => True := by
  constructor
  · rintro rfl caller after held (⟨use, cancel, written, rfl⟩ | ⟨use, w, since, rfl, noticed, limit⟩) goesOn
    · simp only [Caller.move] at goesOn
      split at goesOn
      · cases goesOn
      · split at goesOn <;> cases goesOn
        · exact Or.inl ⟨use, cancel, none, rfl⟩
        · refine Or.inr ⟨use, _, c.clock.now, rfl, ⟨c, use, cancel, member, held, rfl⟩, ?_⟩
          simp only [Caller.requestLimit, timed, Option.map_some, Clock.limit]
    · simp only [Caller.move] at goesOn
      split at goesOn <;> cases goesOn
      exact Or.inr ⟨use, w, since, rfl, noticed, limit⟩
  · exact fun _ _ _ _ _ _ => trivial
  · rintro _ caller tells (⟨use, cancel, written, rfl⟩ | ⟨use, w, since, rfl, limited⟩) _
    · obtain ⟨now, learnt⟩ := Caller.learn_asking tells use cancel call written
      exact Or.inl ⟨use, cancel, now, learnt⟩
    · exact Or.inr ⟨use, w, since, Caller.learn_awaiting tells use w, limited⟩

theorem limited_left (distinct : c.Distinct) (heeded : c.Heeded) (resting : c.Resting)
    (seen : List (Connection × Act)) (key : Nat)
    (call : Call) (milliseconds : Nat) (caller : Caller) (held : (key, caller) ∈ c.callers)
    (limited : Limited seen key call milliseconds caller) :
    (∃ o ∈ c.unsent, o.call = call) ∨ ∃ since, Noticed seen key call since ∧ c.clock.now < since + milliseconds := by
  have waits := resting_waits distinct resting key caller held
  rcases limited with ⟨use, cancel, written, rfl⟩ | ⟨use, w, since, rfl, noticed, limit⟩
  · left
    cases written with
    | none => exact heeded _ held call rfl
    | some result => simp [Caller.ready] at waits
  · refine Or.inr ⟨since, noticed, ?_⟩
    simp only [Caller.ready, CallWait.ready, limit, Option.any_some, Bool.or_eq_false_iff, Clock.hasPassed,
      decide_eq_false_iff_not] at waits
    omega

theorem told_ready (caller : Caller) (call : Call) (result : Written)
    (told : caller.writing? = some (call, some result)) (clock : Clock)
    (ended : Bool) (h : Hub) : caller.ready clock ended h = true := by
  cases caller with
  | sending own written =>
      cases told
      rfl
  | asking use cancel own written =>
      cases told
      exact Bool.or_true _
  | _ => cases told

theorem run_told (keyed : c.Keyed) (distinct : c.Distinct) (none_ : c.callers = []) (acts : List Act)
    (prompt : Prompt (trace act c acts)) :
    ∀ entry ∈ (c.run acts).callers, ∀ call, entry.2.writing? = some (call, some (.ok ())) →
      WrittenAt (trace act c acts) call (c.run acts).clock.now := by
  induction acts using List.reverseRecOn with
  | nil =>
      intro entry held
      simp [run, none_] at held
  | append_singleton acts a ih =>
      rintro ⟨key, caller⟩ held call knows
      rw [trace_concat] at prompt ⊢
      rw [run_append] at held ⊢
      change (key, caller) ∈ ((c.run acts).act a).callers at held
      change WrittenAt _ call ((c.run acts).act a).clock.now
      have before := ih fun y milliseconds member => prompt y milliseconds (List.mem_append_left _ member)
      have earlier : ∀ entry ∈ (c.run acts).callers, entry.2.writing? = some (call, some (.ok ())) →
          (∀ milliseconds, a ≠ .advance milliseconds) →
          WrittenAt (trace act c acts ++ [(c.run acts, a)]) call ((c.run acts).act a).clock.now := by
        intro entry held knows still
        obtain ⟨z, o, member, goes, same, now⟩ := before entry held call knows
        exact ⟨z, o, List.mem_append_left _ member, goes, same, now.trans (act_now still).symm⟩
      cases act_comes a key caller held with
      | stays key caller old =>
          apply earlier _ old knows
          rintro milliseconds rfl
          -- Time does not go on while the caller has yet to take notice.
          have resting : (c.run acts).Resting := prompt _ milliseconds (List.mem_append_right _ List.mem_cons_self)
          have waits := resting_waits (run_distinct keyed distinct acts) resting key caller old
          rw [told_ready caller call _ knows] at waits
          cases waits
      | begins operation caller hub _ opens => cases (opening_begins operation _ opens).untold caller rfl call _ knows
      | moves key old caller is there goesOn =>
          rcases move_writing old caller _ _ _ goesOn with same | nothing
          · exact earlier _ there (same ▸ knows) (is ▸ move_still _)
          · rw [nothing] at knows
            cases knows
      | told key old tells is there reports =>
          subst is
          rcases told_writing tells old call _ knows with ⟨knew, _⟩ | ⟨result, listed, same⟩
          · exact earlier _ there knew (move_still .writer)
          · cases same
            obtain ⟨o, goes, rfl⟩ := reports.completed call listed
            exact ⟨c.run acts, o, List.mem_append_right _ List.mem_cons_self, goes, rfl,
              (act_now (c := c.run acts) (move_still .writer)).symm⟩

end

-- What the request timeout does for a request: at rest either its frame has yet to be sent, or some of the time
-- is left that it has from when its caller took notice that it was. If nobody is kept from moving in time that
-- is when the last of the frame was written.
structure BoundsRequests (c : Connection) (acts : List Act) (milliseconds : Nat) : Prop where
  noticed : ∀ before operation later, acts = before ++ .begin operation :: later → operation.isRequest = true → ∀ call,
    (c.run before).issues? (.begin operation) = some call → (c.run acts).Resting → ∀ caller,
    ((c.run before).nextCaller, caller) ∈ (c.run acts).callers → (∃ o ∈ (c.run acts).unsent, o.call = call) ∨
      ∃ since, Noticed (trace act c acts) (c.run before).nextCaller call since ∧
        (c.run acts).clock.now < since + milliseconds
  written : Prompt (trace act c acts) → ∀ before operation later, acts = before ++ .begin operation :: later →
    operation.isRequest = true → ∀ call, (c.run before).issues? (.begin operation) = some call →
      (c.run acts).Resting → ∀ caller,
    ((c.run before).nextCaller, caller) ∈ (c.run acts).callers → (∃ o ∈ (c.run acts).unsent, o.call = call) ∨
      ∃ since, WrittenAt (trace act c acts) call since ∧ (c.run acts).clock.now < since + milliseconds

section
variable (config : Config) (link : Link)

theorem request_limited (timeout : UInt64) (timed : config.requestTimeoutMs = some timeout) (before later : List Act)
    (operation : Operation)
    (request : operation.isRequest = true) (call : Call)
    (issues : ((ofLink config link).run before).issues? (.begin operation) = some call)
    (caller : Caller) (held : (((ofLink config link).run before).nextCaller, caller) ∈
      ((ofLink config link).run (before ++ .begin operation :: later)).callers) :
    Limited (trace act (ofLink config link) (before ++ .begin operation :: later))
      ((ofLink config link).run before).nextCaller call
      timeout.toNat caller := by
  rw [run_append] at held
  refine (request_follows (run_keyed (initial_keyed config link) before)
    (run_filed (initial_keyed config link) (initial_filed config link) before)
    operation request call issues
      (Limited (trace act (ofLink config link) (before ++ .begin operation :: later)) _ call timeout.toNat)
    (fun _ => True) ?_ later ?_).going caller held
  · exact fun use cancel => Or.inl ⟨use, cancel, none, rfl⟩
  · intro x b listed
    have seen := seen_later config link before later _ x b listed
    obtain ⟨first, _, _, same⟩ := mem_trace act _ _ x b seen
    have settings : x.hub.config = config := same ▸ run_config (initial_sound config link) first
    exact limit_guides _ seen _ call timeout (settings ▸ timed)

theorem request_left (timeout : UInt64) (timed : config.requestTimeoutMs = some timeout) (before later : List Act)
    (operation : Operation)
    (request : operation.isRequest = true) (call : Call)
    (issues : ((ofLink config link).run before).issues? (.begin operation) = some call)
    (resting : ((ofLink config link).run (before ++ .begin operation :: later)).Resting) (caller : Caller)
    (held : (((ofLink config link).run before).nextCaller, caller) ∈
      ((ofLink config link).run (before ++ .begin operation :: later)).callers) :
    (∃ o ∈ ((ofLink config link).run (before ++ .begin operation :: later)).unsent, o.call = call) ∨
      ∃ since, Noticed (trace act (ofLink config link) (before ++ .begin operation :: later))
        ((ofLink config link).run before).nextCaller
        call since ∧ ((ofLink config link).run (before ++ .begin operation :: later)).clock.now <
          since + timeout.toNat := by
  have keyed := initial_keyed config link
  have distinct := run_distinct keyed List.nodup_nil (before ++ .begin operation :: later)
  have heeded := run_heeded keyed (initial_heeded config link) (before ++ .begin operation :: later)
  exact limited_left distinct heeded resting _ _ call _ caller held
    (request_limited config link timeout timed before later operation request call issues caller held)

theorem noticed_written (acts : List Act) (prompt : Prompt (trace act (ofLink config link) acts)) (key : Nat)
    (call : Call) (since : Nat)
    (noticed : Noticed (trace act (ofLink config link) acts) key call since) :
    WrittenAt (trace act (ofLink config link) acts) call since := by
  obtain ⟨y, use, cancel, member, there, now⟩ := noticed
  obtain ⟨first, rest, rfl, rfl⟩ := mem_trace act _ _ y _ member
  rw [trace_append] at prompt ⊢
  have earlier : Prompt (trace act (ofLink config link) first) :=
    fun y milliseconds listed => prompt y milliseconds (List.mem_append_left _ listed)
  obtain ⟨z, o, written, goes, own, at_⟩ :=
    run_told (initial_keyed config link) List.nodup_nil rfl first earlier _ there call rfl
  exact ⟨z, o, List.mem_append_left _ written, goes, own, at_.trans now⟩

theorem timeout_bounds_requests (acts : List Act) (timeout : UInt64) (timed : config.requestTimeoutMs = some timeout) :
    (ofLink config link).BoundsRequests acts timeout.toNat := by
  constructor
  · rintro before operation later rfl request call issues resting caller held
    exact request_left config link timeout timed before later operation request call issues resting caller held
  · rintro prompt before operation later rfl request call issues resting caller held
    rcases request_left config link timeout timed before later operation request call issues resting caller held with
      unsent_ | ⟨since, noticed, left⟩
    · exact Or.inl unsent_
    · exact Or.inr ⟨since, noticed_written config link _ prompt _ call since noticed, left⟩

end

def timed : Config := { requestTimeoutMs := some 1000 }

def awaited : List Act :=
  [.begin (.ask .payload none ⟨"Page.reload", .empty, none⟩), .move .writer, .move .writer,
    .move (.caller 0), .advance 999]

theorem timeout_bounds_requests_awaited :
    timed.requestTimeoutMs = some 1000 ∧
    ∃ since, WrittenAt (trace act (ofLink timed inMemory) awaited) ⟨0, 1, "Page.reload"⟩ since ∧
      ((ofLink timed inMemory).run awaited).clock.now < since + 1000 := by
  refine ⟨rfl, ?_⟩
  have bounds := timeout_bounds_requests timed inMemory awaited 1000 rfl
  have prompt : Prompt (trace act (ofLink timed inMemory) awaited) := by
    have rests : (trace act (ofLink timed inMemory) awaited).all (fun seen => match seen.2 with
        | .advance _ => decide seen.1.Resting
        | _ => true) = true := by decide +kernel
    intro y milliseconds member
    exact of_decide_eq_true (List.all_eq_true.mp rests _ member)
  have there : ((ofLink timed inMemory).run awaited).callers.any (·.1 == 0) = true := by decide +kernel
  obtain ⟨⟨key, caller⟩, held, same⟩ := List.any_eq_true.mp there
  cases beq_iff_eq.mp same
  rcases bounds.written prompt [] _ _ rfl rfl ⟨0, 1, "Page.reload"⟩ (by decide +kernel)
    (by decide +kernel) caller held with
    ⟨o, unsent_, _⟩ | left
  · have nothing : ((ofLink timed inMemory).run awaited).unsent = [] := by decide +kernel
    rw [nothing] at unsent_
    cases unsent_
  · exact left

def stalled : List Act :=
  [.far (.script true none false), .begin (.ask .payload none ⟨"Page.reload", .empty, none⟩), .move .writer,
    .move .writer, .advance 1000]

-- From when a request begins its time is not bounded.
theorem timeout_spares_unwritten :
    ¬ ∀ (config : Config) (link : Link) (acts : List Act) (timeout : UInt64), config.requestTimeoutMs = some timeout →
      ∀ before operation later, acts = before ++ .begin operation :: later → operation.isRequest = true →
        ((ofLink config link).run acts).Resting →
        ((ofLink config link).run before).clock.now + timeout.toNat ≤ ((ofLink config link).run acts).clock.now →
        ∀ entry ∈ ((ofLink config link).run acts).callers, entry.1 ≠ ((ofLink config link).run before).nextCaller := by
  intro bounded
  have there : ((ofLink timed inMemory).run stalled).callers.any (·.1 == 0) = true := by decide +kernel
  obtain ⟨entry, held, same⟩ := List.any_eq_true.mp there
  exact bounded timed inMemory stalled 1000 rfl [.far (.script true none false)] _ _ rfl rfl (by decide +kernel)
    (by decide +kernel)
    entry held (beq_iff_eq.mp same)

end Connection

end DevTools
