import DevTools.Proofs.Connection.Correlation
import DevTools.Proofs.Connection.Course

set_option autoImplicit false

namespace DevTools

theorem fate_fault (d : CallDeed) (e : Entry) (fault : Error) (fate : d.fate e = some (.error fault)) :
    fault = .connectionClosed ∨ ∃ session, fault = .sessionDetached session := by
  cases d with
  | failAll =>
      cases fate
      exact Or.inl rfl
  | failSession session =>
      simp only [CallDeed.fate] at fate
      split at fate <;> cases fate
      exact Or.inr ⟨session, rfl⟩
  | resolve id response =>
      simp only [CallDeed.fate] at fate
      split at fate <;> cases fate
  | cancel | register | abandon =>
      simp only [CallDeed.fate] at fate
      split at fate <;> cases fate
      exact Or.inl rfl
  | allocate | collect => cases fate

namespace CallTable

-- No call has failed but by the end of the connection or of its session.
def Blames (t : CallTable) : Prop :=
  ∀ s ∈ t.slots, ∀ fault, s.outcome = some (.error fault) → fault = .connectionClosed ∨ ∃ session,
    fault = .sessionDetached session

theorem perform_blames (t : CallTable) (matched : t.Matched) (blames : t.Blames) (d : CallDeed) :
    (t.perform d).Blames := by
  intro after member fault failed
  rcases perform_slot matched d after member with ⟨s, held, _, keeps, fates⟩ | ⟨open_, _⟩
  · cases had : s.outcome with
    | some outcome =>
        rw [keeps outcome had] at failed
        exact blames s held fault (had.trans failed)
    | none =>
        obtain ⟨e, pending, ticket, _⟩ := matched_slot_entry matched s held had
        exact fate_fault d e fault ((fates e pending ticket).symm.trans failed)
  · rw [open_] at failed
    cases failed

theorem performs_blames (t : CallTable) (matched : t.Matched) (blames : t.Blames) (deeds : List CallDeed) :
    (t.performs deeds).Blames := by
  induction deeds generalizing t with
  | nil => exact blames
  | cons d deeds ih => exact ih (t.perform d) (perform_matched matched d) (perform_blames t matched blames d)

end CallTable

theorem finish_outcome (w : CallWait) (clock : Clock) (t calls : CallTable) (outcome : Outcome)
    (finish : w.finish? clock t = some (outcome, calls)) :
    (∃ s ∈ t.slots, s.call = w.call ∧ s.outcome = some outcome) ∨ outcome = .error .cancelled ∨ ∃ after,
      outcome = .error (.timeout after) := by
  cases settled : t.outcome? w.call with
  | some o =>
      rw [finish_settled w clock t o settled] at finish
      cases finish
      exact Or.inl (CallTable.slot_of_outcome w.call outcome settled)
  | none =>
      rw [finish_unsettled w clock t settled] at finish
      obtain ⟨fault, gives, same⟩ := Option.map_eq_some_iff.mp finish
      cases same
      right
      simp only [CallWait.fault?] at gives
      split at gives
      · cases gives
        exact Or.inl rfl
      · obtain ⟨limit, _, passed⟩ := Option.bind_eq_some_iff.mp gives
        split at passed <;> cases passed
        exact Or.inr ⟨limit.after, rfl⟩

namespace Connection

def Unanswered (seen : List (Connection × Act)) (call : Call) : Prop :=
  ∀ y b r, (y, b) ∈ seen → y.hears? b = some r → y.awaits call → r.id ≠ call.id

-- With what a request may end to which no response is routed.
inductive Unserved (seen : List (Connection × Act)) (call : Call) : Error → Prop where
  | closed : Unserved seen call .connectionClosed
  | cancelled : Unserved seen call .cancelled
  | timedOut (after : Duration) : Unserved seen call (.timeout after)
  | detached (session : SessionId) : Unserved seen call (.sessionDetached session)
  | unwritten (y : Connection) (b : Act) (fault : Error) (member : (y, b) ∈ seen)
      (refuses : y.refuses? b = some (call, fault)) :
      Unserved seen call fault

def Sends (call : Call) (caller : Caller) : Prop := ∃ written, caller = .sending call written

-- The caller waits for its frame to be written, or for its response; if it has been told that its frame
-- could not be written, that is for such a cause.
def Requests (call : Call) (cause : Error → Prop) (caller : Caller) : Prop :=
  (∃ use cancel written, caller = .asking use cancel call written ∧ ∀ fault, written = some (.error fault) →
    cause fault) ∨
    ∃ use w, caller = .awaiting use w ∧ w.call = call

section
variable {c : Connection} {a : Act}

theorem send_guides (key : Nat) (issued : Option Call) :
    Guides c a key (fun caller => ∃ call, issued = some call ∧ Sends call caller)
      fun result => (∃ fault, result = .error fault) ∨ ∃ call, issued = some call ∧ result = .ok (.call call) := by
  constructor
  · rintro _ caller after _ ⟨call, issues, written, rfl⟩ goesOn
    simp only [Caller.move] at goesOn
    split at goesOn <;> cases goesOn
    exact ⟨call, issues, none, rfl⟩
  · rintro _ caller result _ ⟨call, issues, written, rfl⟩ ends
    simp only [Caller.move] at ends
    split at ends <;> cases ends
    · exact Or.inr ⟨call, issues, rfl⟩
    · exact Or.inl ⟨_, rfl⟩
  · rintro _ caller tells ⟨call, issues, written, rfl⟩ _
    exact ⟨call, issues, Caller.learn_sending tells call written⟩

theorem opening_sends (asked : Asked) (begun : Progress × Hub) (opens : c.opening? (.send asked) = some begun) :
    (∃ call, begun.1 = .inl (.sending call none)) ∨ ∃ fault, begun.1 = .inr (.error fault) := by
  simp only [opening?, Caller.beginSend] at opens
  split at opens <;> cases opens
  · exact Or.inl ⟨_, rfl⟩
  · exact Or.inr ⟨_, rfl⟩

theorem send_follows (keyed : c.Keyed) (filed : c.Filed) (asked : Asked) (later : List Act) :
    Follows ((c.act (.begin (.send asked))).run later) c.nextCaller
      (fun caller => ∃ call, c.issues? (.begin (.send asked)) = some call ∧ Sends call caller)
      fun result => (∃ fault, result = .error fault) ∨ ∃ call, c.issues? (.begin (.send asked)) = some call ∧
        result = .ok (.call call) := by
  have opens : c.opening? (.send asked) = some (Caller.beginSend asked c.hub) := rfl
  have issues := opening_issues keyed (.send asked) _ opens
  apply course_follows keyed filed (.send asked) _ opens
  · intro caller begins
    rcases opening_sends asked _ opens with ⟨call, begun⟩ | ⟨fault, begun⟩
    · rw [begun] at begins issues
      cases begins
      exact ⟨call, issues, none, rfl⟩
    · rw [begun] at begins
      cases begins
  · intro result begins
    rcases opening_sends asked _ opens with ⟨call, begun⟩ | ⟨fault, begun⟩
    · rw [begun] at begins
      cases begins
    · rw [begun] at begins
      cases begins
      exact Or.inl ⟨fault, rfl⟩
  · exact fun x b _ => send_guides c.nextCaller (c.issues? (.begin (.send asked)))

theorem request_guides (key : Nat) (call : Call) (cause : Error → Prop) (closed : cause .connectionClosed)
    (cancelled : cause .cancelled)
    (timedOut : ∀ after, cause (.timeout after)) (refused : ∀ fault, c.refuses? a = some (call, fault) → cause fault)
    (settled : ∀ s ∈ c.hub.calls.slots, s.call = call → ∀ outcome, s.outcome = some outcome → ∃ fault,
      outcome = .error fault ∧ cause fault) :
    Guides c a key (Requests call cause) fun result => ∃ fault, result = .error fault ∧ cause fault := by
  constructor
  · rintro _ caller after _ (⟨use, cancel, written, rfl, told⟩ | ⟨use, w, rfl, same⟩) goesOn
    · simp only [Caller.move] at goesOn
      split at goesOn
      · cases goesOn
      · split at goesOn <;> cases goesOn
        · exact Or.inl ⟨use, cancel, none, rfl, told⟩
        · exact Or.inr ⟨use, _, rfl, rfl⟩
    · simp only [Caller.move] at goesOn
      split at goesOn <;> cases goesOn
      exact Or.inr ⟨use, w, rfl, same⟩
  · rintro _ caller result _ (⟨use, cancel, written, rfl, told⟩ | ⟨use, w, rfl, same⟩) ends
    · simp only [Caller.move] at ends
      split at ends
      · cases ends
        exact ⟨_, rfl, cancelled⟩
      · split at ends <;> cases ends
        exact ⟨_, rfl, told _ rfl⟩
    · simp only [Caller.move] at ends
      split at ends
      · cases ends
      · next outcome calls finish =>
          have failed : ∃ fault, outcome = .error fault ∧ cause fault := by
            rcases finish_outcome w c.clock c.hub.calls calls outcome finish with ⟨s, held, own, has⟩ | rfl
              | ⟨after, rfl⟩
            · exact settled s held (own.trans same) outcome has
            · exact ⟨_, rfl, cancelled⟩
            · exact ⟨_, rfl, timedOut after⟩
          obtain ⟨fault, rfl, because⟩ := failed
          cases ends
          exact ⟨fault, rfl, because⟩
  · rintro writes caller tells (⟨use, cancel, written, rfl, told⟩ | ⟨use, w, rfl, same⟩) reports
    · obtain ⟨now, learnt⟩ := Caller.learn_asking tells use cancel call written
      refine Or.inl ⟨use, cancel, now, learnt, ?_⟩
      rintro fault rfl
      have writing : ((Caller.asking use cancel call written).learn tells).writing? = some (call,
          some (.error fault)) := by rw [learnt]; rfl
      rcases told_writing tells _ call _ writing with ⟨knew, _⟩ | ⟨result, listed, same⟩
      · cases knew
        exact told fault rfl
      · cases same
        rcases reports.refused call fault listed with rfl | refuses
        · exact closed
        · exact refused fault (writes ▸ refuses)
    · exact Or.inr ⟨use, w, Caller.learn_awaiting tells use w, same⟩

theorem opening_requests (operation : Operation) (request : operation.isRequest = true) (begun : Progress × Hub)
    (opens : c.opening? operation = some begun) (call : Call) (issues : begun? begun.1 = some call) :
    ∃ use cancel, begun.1 = .inl (.asking use cancel call none) := by
  obtain ⟨progress, hub⟩ := begun
  cases request_opens operation request _ opens with
  | ended => cases issues
  | asks use cancel =>
      cases issues
      exact ⟨use, cancel, rfl⟩

theorem request_follows (keyed : c.Keyed) (filed : c.Filed) (operation : Operation)
    (request : operation.isRequest = true) (call : Call)
    (issues : c.issues? (.begin operation) = some call) (going : Caller → Prop) (ended : Except Error Answer → Prop)
    (first : ∀ use cancel, going (.asking use cancel call none)) (later : List Act)
    (guides : ∀ x b, (x, b) ∈ trace act (c.act (.begin operation)) later → Guides x b c.nextCaller going ended) :
    Follows ((c.act (.begin operation)).run later) c.nextCaller going ended := by
  cases opens : c.opening? operation with
  | none =>
      rw [issues?, begin_nothing operation opens, fresh_caller keyed] at issues
      cases issues
  | some begun =>
      rw [opening_issues keyed operation begun opens] at issues
      obtain ⟨use, cancel, begins⟩ := opening_requests operation request begun opens call issues
      apply course_follows keyed filed operation begun opens _ _ later guides
      · intro caller same
        rw [begins] at same
        cases same
        exact first use cancel
      · intro result same
        rw [begins] at same
        cases same

theorem run_blames (sound : c.Sound) (blames : c.hub.calls.Blames) (acts : List Act) :
    (c.run acts).hub.calls.Blames := by
  induction acts generalizing c with
  | nil => exact blames
  | cons a acts ih =>
      apply ih (act_sound sound a)
      obtain ⟨calls, table, _⟩ := act_table sound.kept a
      rw [table]
      exact CallTable.performs_blames _ sound.matched blames calls

theorem unanswered_fails (sound : c.Sound) (none_ : c.hub.calls.slots = []) (before after : List Act) (call : Call)
    (unanswered : Unanswered (trace act c (before ++ after)) call) (s : Slot)
    (held : s ∈ (c.run before).hub.calls.slots) (same : s.call = call)
    (outcome : Outcome) (settled : s.outcome = some outcome) :
    ∃ fault, outcome = .error fault ∧ Unserved (trace act c (before ++ after)) call fault := by
  have blames : c.hub.calls.Blames := by
    intro s held
    simp [none_] at held
  cases outcome with
  | ok r =>
      obtain ⟨first, y, b, rest, split, hears, id, awaited, _⟩ := run_first_heard sound none_ before s held r settled
      have seen : (y, b) ∈ trace act c (before ++ after) := by
        rw [trace_append, split]
        simp
      rw [same] at id awaited
      exact absurd id (unanswered y b r seen hears awaited)
  | error fault =>
      refine ⟨fault, rfl, ?_⟩
      rcases run_blames sound blames before s held fault settled with rfl | ⟨session, rfl⟩
      · exact .closed
      · exact .detached session

end

section
variable (config : Config) (link : Link)

theorem seen_later (before later : List Act) (a : Act) (x : Connection) (b : Act)
    (member : (x, b) ∈ trace act (((ofLink config link).run before).act a) later) :
    (x, b) ∈ trace act (ofLink config link) (before ++ a :: later) := by
  rw [trace_append]
  exact List.mem_append_right _ (List.mem_cons_of_mem _ member)

theorem send_verdict (before later : List Act) (asked : Asked) (result : Except Error Answer)
    (member : (((ofLink config link).run before).nextCaller, result) ∈
      ((ofLink config link).run (before ++ .begin (.send asked) :: later)).finished) :
    (∃ fault, result = .error fault) ∨ ∃ o ∈ (ofLink config link).completed (before ++ .begin (.send asked) :: later),
      ((ofLink config link).run before).issues? (.begin (.send asked)) = some o.call ∧ result = .ok (.call o.call) := by
  have sent := (run_truthful (before ++ .begin (.send asked) :: later) (initial_truthful config link)).finished _ member
  rw [run_append] at member
  rcases (send_follows (run_keyed (initial_keyed config link) before)
    (run_filed (initial_keyed config link) (initial_filed config link) before)
    asked later).ended result member with failed | ⟨call, issues, rfl⟩
  · exact Or.inl failed
  · obtain ⟨o, listed, rfl⟩ := sent call rfl
    exact Or.inr ⟨o, listed, issues, rfl⟩

theorem request_verdict (before later : List Act) (operation : Operation)
    (request : operation.isRequest = true) (call : Call)
    (issues : ((ofLink config link).run before).issues? (.begin operation) = some call)
    (unanswered : Unanswered (trace act (ofLink config link) (before ++ .begin operation :: later)) call)
    (result : Except Error Answer)
    (member : (((ofLink config link).run before).nextCaller, result) ∈
      ((ofLink config link).run (before ++ .begin operation :: later)).finished) :
    ∃ fault, result = .error fault ∧
      Unserved (trace act (ofLink config link) (before ++ .begin operation :: later)) call fault := by
  rw [run_append] at member
  refine (request_follows (run_keyed (initial_keyed config link) before)
    (run_filed (initial_keyed config link) (initial_filed config link) before)
    operation request call issues
      (Requests call (Unserved (trace act (ofLink config link) (before ++ .begin operation :: later)) call))
    (fun result => ∃ fault, result = .error fault ∧ Unserved _ call fault) ?_ later ?_).ended result member
  · exact fun use cancel => Or.inl ⟨use, cancel, none, rfl, fun _ told => nomatch told⟩
  · intro x b listed
    have seen := seen_later config link before later _ x b listed
    obtain ⟨first, rest, same, rfl⟩ := mem_trace act _ _ x b seen
    apply request_guides _ call _ .closed .cancelled .timedOut
    · exact fun fault refuses => .unwritten _ b fault seen refuses
    · rw [same] at unanswered ⊢
      exact unanswered_fails (initial_sound config link) rfl first (b :: rest) call unanswered

end

end Connection

end DevTools
