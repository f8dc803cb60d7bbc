import DevTools.Proofs.Connection.Correlation
import DevTools.Proofs.Connection.Course
import DevTools.Proofs.Connection.Holding

set_option autoImplicit false

namespace DevTools

def Operation.token? : Operation → Option Token
  | .ask _ cancel _ | .execute cancel _ _ | .attach _ cancel | .detach _ cancel => cancel
  | _ => none

-- The caller waits for the frame of the call, and this is what it has been told of it.
inductive Caller.Awaits (call : Call) (written : Option Written) : Option Token → Caller → Prop where
  | sending : Awaits call written none (.sending call written)
  | asking (use : Use) (cancel : Option Token) : Awaits call written cancel (.asking use cancel call written)

theorem Caller.awaits_call (call : Call) (written : Option Written) (cancel : Option Token) (caller : Caller)
    (awaits : caller.Awaits call written cancel) : caller.call? = some call := by
  cases awaits <;> rfl

-- The result of a caller that waits for a frame: that its token has fired, or what it has been told.
def Concedes (cancel : Option Token) (written : Option Written) (result : Except Error Answer) : Prop :=
  (cancel.isSome = true ∧ result = .error .cancelled) ∨ ∃ fault, written = some (.error fault) ∧ result = .error fault

theorem learn_awaits (tells : List (Call × Written)) (caller : Caller) (call : Call) (written : Option Written)
    (cancel : Option Token)
    (awaits : caller.Awaits call written cancel) :
    ∃ now, (caller.learn tells).Awaits call now cancel ∧
      ((now = written ∧ call ∉ tells.map (·.1)) ∨ ∃ result, (call, result) ∈ tells ∧ now = some result) := by
  have told : ∀ now, caller.writing? = some (call, written) → (caller.learn tells).writing? = some (call, now) →
      (now = written ∧ call ∉ tells.map (·.1)) ∨ ∃ result, (call, result) ∈ tells ∧ now = some result := by
    intro now before after
    rcases Connection.told_writing tells caller call now after with ⟨knew, untold⟩ | heard
    · rw [before] at knew
      cases knew
      exact Or.inl ⟨rfl, untold⟩
    · exact Or.inr heard
  cases awaits with
  | sending =>
      obtain ⟨now, learnt⟩ := Caller.learn_sending tells call written
      exact ⟨now, learnt ▸ .sending, told now rfl (by rw [learnt]; rfl)⟩
  | asking use =>
      obtain ⟨now, learnt⟩ := Caller.learn_asking tells use cancel call written
      exact ⟨now, learnt ▸ .asking use cancel, told now rfl (by rw [learnt]; rfl)⟩

theorem ask_awaits (use : Use) (cancel : Option Token) (asked : Asked) (clock : Clock) (h : Hub) (call : Call)
    (issues : begun? (Caller.beginAsk use cancel asked clock h).1 = some call) :
    ∃ caller, (Caller.beginAsk use cancel asked clock h).1 = .inl caller ∧ caller.Awaits call none cancel := by
  simp only [Caller.beginAsk] at issues ⊢
  split at issues
  · cases issues
  · next waits =>
      rw [if_neg waits]
      rcases posted : h.post asked with ⟨result, after⟩
      rw [posted] at issues
      cases result with
      | ok own =>
          cases issues
          exact ⟨_, rfl, .asking use cancel⟩
      | error fault => cases issues

namespace Connection

-- The frame of the call could not be written in one of these acts, for this reason.
def Refused (seen : List (Connection × Act)) (call : Call) (fault : Error) : Prop :=
  ∃ x b, (x, b) ∈ seen ∧ x.refuses? b = some (call, fault)

-- Each frame that is to be sent is that of a call of its own, issued before.
structure Lined (c : Connection) : Prop where
  apart : (c.unsent.map (·.call)).Nodup
  old : ∀ call ∈ c.unsent.map (·.call), call.ticket < c.hub.calls.nextTicket

-- The caller with this number waits for the frame of the call, or has conceded.
def Faces (c : Connection) (key : Nat) (call : Call) (cancel : Option Token) (written : Option Written) : Prop :=
  Follows c key (Caller.Awaits call written cancel) (Concedes cancel written)

-- The caller has been told nothing as long as its frame is to be sent, and of a frame that could not be
-- written it has been told just that.
structure Apprised (c : Connection) (seen : List (Connection × Act)) (key : Nat) (call : Call) (cancel : Option Token) :
    Prop where
  waiting : call ∈ c.unsent.map (·.call) → c.Faces key call cancel none
  refused : ∀ fault, Refused seen call fault → call ∉ c.unsent.map (·.call) ∧
    c.Faces key call cancel (some (.error fault))

section
variable {c : Connection} {a : Act}

theorem issued_ticket (sound : c.Sound) (keyed : c.Keyed) (operation : Operation) (call : Call)
    (issues : c.issues? (.begin operation) = some call) :
    c.hub.calls.nextTicket ≤ call.ticket ∧ call.ticket < (c.act (.begin operation)).hub.calls.nextTicket := by
  obtain ⟨new, fresh⟩ := issued_fresh sound keyed operation call issues
  obtain ⟨after, there, rfl⟩ := List.mem_map.mp new
  refine ⟨?_, (act_sound sound (.begin operation)).matched.below after there⟩
  by_contra old
  obtain ⟨s, held, same, _⟩ := run_outcome_old sound [.begin operation] after there (by omega)
  exact fresh (same ▸ List.mem_map_of_mem held)

theorem act_lined (sound : c.Sound) (keyed : c.Keyed) (lined : c.Lined) (a : Act) : (c.act a).Lined := by
  have later := act_ticket_le sound.kept a
  by_cases writes : a = .move .writer
  · subst writes
    obtain ⟨tells, reports⟩ := writer_reports (c := c)
    have left : (c.act (.move .writer)).unsent = c.moveWriter.unsent := unheld_unsent c.moveWriter
    have apart := lined.apart
    rw [reports.parts] at apart
    refine ⟨left ▸ (List.nodup_append.mp apart).2.1, ?_⟩
    intro call member
    rw [left] at member
    exact Nat.lt_of_lt_of_le (lined.old call (reports.parts ▸ List.mem_append_right _ member)) later
  · have listed : (c.act a).unsent.map (·.call) = c.unsent.map (·.call) ++ (c.issues? a).toList := by
      rw [act_unsent keyed a writes, List.map_append, (act_queues keyed a).1]
    cases issues : c.issues? a with
    | none =>
        rw [issues, Option.toList_none, List.append_nil] at listed
        exact ⟨listed ▸ lined.apart, fun call member => Nat.lt_of_lt_of_le (lined.old call (listed ▸ member)) later⟩
    | some new =>
        have begins : ∃ operation, a = .begin operation := by
          cases a with
          | begin operation => exact ⟨operation, rfl⟩
          | _ => cases issues
        obtain ⟨operation, rfl⟩ := begins
        obtain ⟨least, below⟩ := issued_ticket sound keyed operation new issues
        rw [issues, Option.toList_some] at listed
        constructor
        · rw [listed]
          apply List.nodup_append.mpr
          refine ⟨lined.apart, List.nodup_singleton new, ?_⟩
          rintro call old other only rfl
          cases List.mem_singleton.mp only
          exact absurd (lined.old _ old) (by omega)
        · intro call member
          rw [listed] at member
          rcases List.mem_append.mp member with old | only
          · exact Nat.lt_of_lt_of_le (lined.old call old) later
          · exact List.mem_singleton.mp only ▸ below

theorem run_lined (sound : c.Sound) (keyed : c.Keyed) (lined : c.Lined) (acts : List Act) : (c.run acts).Lined := by
  induction acts generalizing c with
  | nil => exact lined
  | cons a acts ih => exact ih (act_sound sound a) (act_keyed keyed a) (act_lined sound keyed lined a)

theorem initial_lined (config : Config) (link : Link) : (ofLink config link).Lined :=
  ⟨List.nodup_nil, fun _ member => nomatch member⟩

theorem refused_concat (seen : List (Connection × Act)) (call : Call) (fault : Error)
    (refused : Refused (seen ++ [(c, a)]) call fault) :
    Refused seen call fault ∨ c.refuses? a = some (call, fault) := by
  obtain ⟨x, b, member, refuses⟩ := refused
  rcases List.mem_append.mp member with early | last
  · exact Or.inl ⟨x, b, early, refuses⟩
  · cases List.mem_singleton.mp last
    exact Or.inr refuses

theorem awaits_guides (key : Nat) (call : Call) (cancel : Option Token) (written : Option Written)
    (unsent : written ≠ some (.ok ()))
    (other : a ≠ .move .writer) : Guides c a key (Caller.Awaits call written cancel) (Concedes cancel written) := by
  have fires : c.clock.hasFired cancel = true → cancel.isSome = true := by
    intro fired
    cases cancel with
    | none => cases fired
    | some token => rfl
  constructor
  · rintro _ caller after _ awaits goesOn
    cases awaits with
    | sending =>
        simp only [Caller.move] at goesOn
        split at goesOn <;> cases goesOn
        exact .sending
    | asking use =>
        simp only [Caller.move] at goesOn
        split at goesOn
        · cases goesOn
        · split at goesOn
          · cases goesOn
            exact .asking use cancel
          · exact absurd rfl unsent
          · cases goesOn
  · rintro _ caller result _ awaits ends
    cases awaits with
    | sending =>
        simp only [Caller.move] at ends
        split at ends
        · cases ends
        · exact absurd rfl unsent
        · cases ends
          exact Or.inr ⟨_, rfl, rfl⟩
    | asking use =>
        simp only [Caller.move] at ends
        split at ends
        · next fired =>
            cases ends
            exact Or.inl ⟨fires fired, rfl⟩
        · split at ends <;> cases ends
          exact Or.inr ⟨_, rfl, rfl⟩
  · exact fun writes => absurd writes other

theorem writer_faces (key : Nat) (call : Call) (cancel : Option Token) (written now : Option Written)
    (tells : List (Call × Written))
    (reports : Reports c c.moveWriter tells) (faces : c.Faces key call cancel written)
    (knows : ∀ heard, ((heard = written ∧ call ∉ tells.map (·.1)) ∨ ∃ result, (call, result) ∈ tells ∧
      heard = some result) → heard = now)
    (weaker : ∀ result, Concedes cancel written result → Concedes cancel now result) :
    (c.act (.move .writer)).Faces key call cancel now := by
  have callers : (c.act (.move .writer)).callers = _ := close_unheld_same.1.trans reports.told.1
  have finished : (c.act (.move .writer)).finished = _ := close_unheld_same.2.trans reports.told.2
  constructor
  · intro caller member
    rw [callers] at member
    obtain ⟨⟨own, before⟩, held, same⟩ := List.mem_map.mp member
    cases same
    obtain ⟨heard, awaits, told⟩ := learn_awaits tells before call written cancel (faces.going before held)
    exact knows heard told ▸ awaits
  · intro result member
    rw [finished] at member
    exact weaker result (faces.ended result member)

theorem writer_apprised (lined : c.Lined) (seen : List (Connection × Act)) (key : Nat) (call : Call)
    (cancel : Option Token)
    (apprised : c.Apprised seen key call cancel) :
    (c.act (.move .writer)).Apprised (seen ++ [(c, .move .writer)]) key call cancel := by
  obtain ⟨tells, reports⟩ := writer_reports (c := c)
  have left : (c.act (.move .writer)).unsent = c.moveWriter.unsent := unheld_unsent c.moveWriter
  have apart := lined.apart
  have parts := reports.parts
  rw [parts] at apart
  obtain ⟨once, _, disjoint⟩ := List.nodup_append.mp apart
  -- Of a frame that the writer does not tell of the caller knows what it knew.
  have untold : ∀ written, call ∉ tells.map (·.1) → c.Faces key call cancel written →
      (c.act (.move .writer)).Faces key call cancel written := by
    intro written silent faces
    apply writer_faces key call cancel written written tells reports faces _ fun _ same => same
    rintro heard (⟨same, _⟩ | ⟨result, member, _⟩)
    · exact same
    · exact absurd (List.mem_map_of_mem member) silent
  constructor
  · intro waits
    rw [left] at waits
    exact untold none (fun told => disjoint call told call waits rfl)
      (apprised.waiting (parts ▸ List.mem_append_right _ waits))
  · intro fault refused
    rw [left]
    rcases refused_concat seen call fault refused with before | now
    · obtain ⟨gone, faces⟩ := apprised.refused fault before
      rw [parts, List.mem_append, not_or] at gone
      exact ⟨gone.2, untold _ gone.1 faces⟩
    · have told := reports.refuses call fault now
      have listed : call ∈ tells.map (·.1) := List.mem_map_of_mem told
      refine ⟨fun waits => disjoint call listed call waits rfl, ?_⟩
      apply writer_faces key call cancel none _ tells reports (apprised.waiting (parts ▸ List.mem_append_left _ listed))
      · rintro heard (⟨_, silent⟩ | ⟨result, member, rfl⟩)
        · exact absurd listed silent
        · have same := List.inj_on_of_nodup_map once member told rfl
          cases same
          rfl
      · rintro result (stopped | ⟨_, untold_, _⟩)
        · exact Or.inl stopped
        · cases untold_

theorem act_apprised (sound : c.Sound) (keyed : c.Keyed) (lined : c.Lined) (seen : List (Connection × Act))
    (key : Nat) (call : Call)
    (cancel : Option Token) (own : key < c.nextCaller) (issued : call.ticket < c.hub.calls.nextTicket)
    (apprised : c.Apprised seen key call cancel) (a : Act) : (c.act a).Apprised (seen ++ [(c, a)]) key call cancel := by
  by_cases writes : a = .move .writer
  · subst writes
    exact writer_apprised lined seen key call cancel apprised
  · have listed : call ∈ (c.act a).unsent.map (·.call) → call ∈ c.unsent.map (·.call) := by
      intro member
      rw [act_unsent keyed a writes, List.map_append, (act_queues keyed a).1] at member
      rcases List.mem_append.mp member with old | new
      · exact old
      · cases a with
        | begin operation =>
            have least := (issued_ticket sound keyed operation call (Option.mem_toList.mp new)).1
            omega
        | _ => cases new
    have stays : ∀ written, written ≠ some (.ok ()) → c.Faces key call cancel written →
        (c.act a).Faces key call cancel written :=
      fun written unsent faces => act_follows (awaits_guides key call cancel written unsent writes) faces own
    constructor
    · intro waits
      exact stays none (fun same => nomatch same) (apprised.waiting (listed waits))
    · intro fault refused
      rcases refused_concat seen call fault refused with before | now
      · obtain ⟨gone, faces⟩ := apprised.refused fault before
        exact ⟨fun waits => gone (listed waits), stays _ (fun same => nomatch same) faces⟩
      · have keeps : c.refuses? a = none := by
          cases a with
          | move activity =>
              cases activity with
              | writer => exact absurd rfl writes
              | _ => rfl
          | _ => rfl
        rw [keeps] at now
        cases now

theorem opening_awaits (operation : Operation) (begun : Progress × Hub)
    (opens : c.opening? operation = some begun) (call : Call)
    (issues : begun? begun.1 = some call) : ∃ caller, begun.1 = .inl caller ∧
    caller.Awaits call none operation.token? := by
  cases operation with
  | send asked =>
      cases opens
      simp only [Caller.beginSend] at issues ⊢
      rcases posted : c.hub.post asked with ⟨result, after⟩
      rw [posted] at issues
      cases result with
      | ok own =>
          cases issues
          exact ⟨_, rfl, .sending⟩
      | error fault => cases issues
  | ask use cancel asked =>
      cases opens
      exact ask_awaits use cancel asked c.clock c.hub call issues
  | execute cancel command scope =>
      cases opens
      exact ask_awaits command.use cancel _ c.clock c.hub call issues
  | attach target cancel =>
      cases opens
      exact ask_awaits (.attach target) cancel _ c.clock c.hub call issues
  | detach session cancel =>
      cases opens
      simp only [Caller.beginDetach] at issues ⊢
      split at issues
      · cases issues
      · split at issues
        · cases issues
        · next after _ =>
            exact ask_awaits .nothing cancel _ c.clock after call issues
  | waitForTarget target milliseconds =>
      cases opens
      simp only [Caller.beginSeek] at issues
      split at issues
      · cases issues
      · simp only [Caller.ofLook] at issues
        split at issues <;> cases issues
  | waitForCall | waitForNext =>
      simp only [opening?] at opens
      split at opens <;> cases opens
      cases issues
  | waitForEvent | close | waitUntilClosed =>
      cases opens
      cases issues

theorem begin_awaits (keyed : c.Keyed) (filed : c.Filed) (operation : Operation) (call : Call)
    (issues : c.issues? (.begin operation) = some call) :
    Follows (c.act (.begin operation)) c.nextCaller (Caller.Awaits call none operation.token?) fun _ => False := by
  cases opens : c.opening? operation with
  | none =>
      rw [issues?, begin_nothing operation opens, fresh_caller keyed] at issues
      cases issues
  | some begun =>
      rw [opening_issues keyed operation begun opens] at issues
      obtain ⟨caller, begins, awaits⟩ := opening_awaits operation begun opens call issues
      apply begin_follows keyed filed operation begun opens
      · intro other same
        cases begins.symm.trans same
        exact awaits
      · intro result same
        cases begins.symm.trans same

theorem begin_apprised (keyed : c.Keyed) (filed : c.Filed) (operation : Operation) (call : Call)
    (issues : c.issues? (.begin operation) = some call) :
    (c.act (.begin operation)).Apprised [] c.nextCaller call operation.token? := by
  have awaits := begin_awaits keyed filed operation call issues
  refine ⟨fun _ => ⟨awaits.going, fun result done => (awaits.ended result done).elim⟩, ?_⟩
  rintro fault ⟨_, _, member, _⟩
  cases member

theorem run_apprised (sound : c.Sound) (keyed : c.Keyed) (lined : c.Lined) (key : Nat) (call : Call)
    (cancel : Option Token)
    (own : key < c.nextCaller) (issued : call.ticket < c.hub.calls.nextTicket)
    (apprised : c.Apprised [] key call cancel) (acts : List Act) :
    (c.run acts).Apprised (trace act c acts) key call cancel := by
  have all : key < (c.run acts).nextCaller ∧ call.ticket < (c.run acts).hub.calls.nextTicket ∧
      (c.run acts).Apprised (trace act c acts) key call cancel := by
    apply run_induction act (P := fun acts x => key < x.nextCaller ∧ call.ticket < x.hub.calls.nextTicket ∧
      x.Apprised (trace act c acts) key call cancel) c ⟨own, issued, apprised⟩
    rintro acts a ⟨own, issued, apprised⟩
    have now := run_sound sound acts
    rw [trace_concat]
    exact ⟨Nat.lt_of_lt_of_le own (act_next_le a), Nat.lt_of_lt_of_le issued (act_ticket_le now.kept a),
      act_apprised now (run_keyed keyed acts)
        (run_lined sound keyed lined acts) _ key call cancel own issued apprised a⟩
  exact all.2.2

-- The frame of the call could not be written: the caller ends with the reason as it moves, unless its token has
-- fired, and has ended in no other way.
structure Convicted (c : Connection) (key : Nat) (cancel : Option Token) (fault : Error) : Prop where
  ends : ∀ caller, (key, caller) ∈ c.callers →
    (key, .error fault) ∈ (c.act (.move (.caller key))).finished ∨ c.clock.hasFired cancel = true
  ended : ∀ result, (key, result) ∈ c.finished → result = .error fault ∨
    (cancel.isSome = true ∧ result = .error .cancelled)

theorem faces_convicted (distinct : c.Distinct) (key : Nat) (call : Call) (cancel : Option Token) (fault : Error)
    (faces : c.Faces key call cancel (some (.error fault))) : c.Convicted key cancel fault := by
  constructor
  · intro caller held
    have found := caller_found distinct key caller held
    have ends : ∀ hub, caller.move c.clock c.tasksEnded c.hub = (.inr (.error fault), hub) →
        (key, .error fault) ∈ (c.act (.move (.caller key))).finished := by
      intro hub moved
      rw [move_finished key caller _ hub found moved]
      exact List.mem_append_right _ List.mem_cons_self
    cases faces.going caller held with
    | sending => exact Or.inl (ends _ rfl)
    | asking use =>
        cases fired : c.clock.hasFired cancel with
        | true => exact Or.inr rfl
        | false => exact Or.inl (ends _ (by simp only [Caller.move, fired, Bool.false_eq_true, if_false]; rfl))
  · rintro result member
    rcases faces.ended result member with stopped | ⟨own, same, rfl⟩
    · exact Or.inr stopped
    · cases same
      exact Or.inl rfl

end

end Connection

end DevTools
