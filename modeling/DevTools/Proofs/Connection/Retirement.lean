import DevTools.Proofs.Connection.Serving

set_option autoImplicit false

namespace DevTools.Connection

def Dismissed (c : Connection) (stream : Nat) : Prop := ∀ h, c.handler? stream = some h → h.cancelled = true

-- Nobody has cancelled the handler: it is there, or the connection is closed and it has been called with everything.
structure Retained (c : Connection) (stream : Nat) (kept : List Event) : Prop where
  wanted : ∀ h, c.handler? stream = some h → h.cancelled = false
  done : c.handler? stream = none → c.hub.isClosed = true ∧ c.served stream = kept

-- What a handler has to do before it goes, if no more events come: to begin with each event and to be done with it, and to go.
def workLeft (c : Connection) (stream : Nat) : Nat :=
  (c.handler? stream).elim 0 fun h => 2 * (c.hub.router.buffered stream).length + h.busy.isSome.toNat + 1

section
variable {c : Connection} {a : Act} {roll : List Subscriber} {stream delay : Nat}
  {answer : Nat → Event → Except Error Unit}
  {b : Inbox} {kept : List Event} {log : List Stint}

theorem calls_cons (a : Act) (acts : List Act) :
    c.calls stream (a :: acts) = ((c.stint? stream a).bind Stint.begun?).toList ++ (c.act a).calls stream acts := by
  simp only [calls, stints, trace, List.filterMap_cons]
  cases c.stint? stream a with
  | none => rfl
  | some stint => cases stint <;> rfl

theorem act_dismissed (tended : c.Tended) (known : stream < c.hub.router.nextId)
    (dismissed : c.Dismissed stream) (a : Act) :
    (c.act a).Dismissed stream ∧ (c.stint? stream a).bind Stint.begun? = none := by
  cases handler_step tended known a with
  | aside still keeps handler idles touches =>
      have hand : (c.act a).inHand? stream = c.inHand? stream := hand_same _ handler
      exact ⟨fun h found => dismissed h (handler.symm.trans found), by rw [stint_still hand]; rfl⟩
  | cancelled h is found handler idles touches =>
      have hand : (c.act a).inHand? stream = c.inHand? stream := by rw [in_hand h found, in_hand _ handler]
      refine ⟨fun other also => ?_, by rw [stint_still hand]; rfl⟩
      cases handler.symm.trans also
      rfl
  | finishes h e due is found busy handler served complaints touches =>
      refine ⟨fun other also => ?_, ?_⟩
      · cases handler.symm.trans also
        exact dismissed h found
      · rw [stint?, in_hand h found, in_hand _ handler, busy]
        rfl
  | begins h e is found idle wanted next handler idles touches => exact absurd (dismissed h found) (by simp [wanted])
  | goes h is found idle why handler idles touches =>
      have hand : (c.act a).inHand? stream = c.inHand? stream := by
        rw [in_hand h found, idle, hand_gone handler]
        rfl
      exact ⟨fun other also => absurd (handler.symm.trans also) (Option.some_ne_none other).symm,
        by rw [stint_still hand]; rfl⟩

theorem dismissed_calls (steady : c.Steady roll) (known : stream < c.hub.router.nextId) (dismissed : c.Dismissed stream)
    (acts : List Act) :
    c.calls stream acts = [] := by
  induction acts generalizing c roll with
  | nil => rfl
  | cons a acts ih =>
      obtain ⟨still, nothing⟩ := act_dismissed steady.tended known dismissed a
      rw [calls_cons, nothing]
      exact ih (act_steady steady a) (Nat.lt_of_lt_of_le known (act_next_id steady.rolls.agrees a)) still

theorem cancel_dismisses (tended : c.Tended) (known : stream < c.hub.router.nextId) :
    (c.act (.cancelHandler stream)).Dismissed stream := by
  intro h found
  cases handler_step tended known (.cancelHandler stream) with
  | aside _ kept handler => exact absurd (handler.symm.trans found) (by simp [kept rfl])
  | cancelled _ _ _ handler =>
      cases handler.symm.trans found
      rfl
  | finishes _ _ _ is | begins _ _ is | goes _ is => cases is

theorem ended_closed (rolls : c.Rolls roll) (there : stream ∈ c.hub.router.ids)
    (ended : c.hub.router.peek stream = .ended) :
    c.hub.isClosed = true := by
  by_contra isOpen
  have stands : c.hub.router.closed = false := rolls.agrees.trans (eq_false_of_ne_true isOpen)
  rw [rolls.lists.ids, ← rolls.lists.subscribers stands] at there
  obtain ⟨sub, member, same⟩ := List.mem_map.mp there
  have registered : c.hub.router.isRegistered stream = true := List.any_eq_true.mpr ⟨sub, member, by simpa using same⟩
  obtain ⟨s, held⟩ : ∃ s, c.hub.router.stream? stream = some s := by
    obtain ⟨s, held, own⟩ := rolls.lists.staffed.present sub member
    rw [same] at own
    exact ⟨s, own ▸ Router.stream_of_mem rolls.lists.staffed.tidy s held⟩
  rw [Router.peek, held] at ended
  cases holds : s.buffer <;> simp [holds, registered] at ended

theorem ended_empty (shows_ : c.hub.router.Shows stream b) (there : b.phase ≠ .dropped)
    (ended : c.hub.router.peek stream = .ended) :
    b.buffer = [] := by
  rw [Router.peek, shows_.held, if_neg there] at ended
  cases holds : b.buffer with
  | nil => rfl
  | cons e rest => simp [holds] at ended

theorem closed_routes (closed : c.hub.isClosed = true) : c.routes? a = none := by
  cases routes : c.routes? a with
  | none => rfl
  | some e => exact absurd (routes_open e routes) (by simp [closed])

theorem act_retained (rolls : c.Rolls roll) (tended : c.Tended) (minds : c.Minds stream delay answer b kept log)
    (retained : c.Retained stream kept) (keeps : a ≠ .cancelHandler stream) :
    (c.act a).Retained stream (kept ++ Offer.kept b.capacity (c.offers stream b.filter a)) := by
  cases handler_step tended minds.shows_.old a with
  | aside still _ handler idles touches =>
      refine ⟨fun h found => retained.wanted h (handler.symm.trans found), fun gone => ?_⟩
      obtain ⟨closed, done⟩ := retained.done (handler.symm.trans gone)
      refine ⟨does_closed (act_deeds rolls.sound.kept a) closed, ?_⟩
      rw [idles.served, done, offers_none _ (closed_routes closed)]
      exact (List.append_nil _).symm
  | cancelled h is => exact absurd is keeps
  | finishes h e due is found busy handler | begins h e is found idle wanted next handler =>
      refine ⟨fun other also => ?_, fun gone => absurd (handler.symm.trans gone) (Option.some_ne_none _)⟩
      cases handler.symm.trans also
      exact retained.wanted h found
  | goes h is found idle why handler idles touches =>
      refine ⟨fun other also => absurd (handler.symm.trans also) (Option.some_ne_none other).symm, fun _ => ?_⟩
      have there := minds_there minds h found
      have ended := why.resolve_left (by simp [retained.wanted h found])
      have closed := ended_closed rolls (tended.handled stream (handler_there.mpr ⟨h, found⟩)) ended
      have account := minds.account there
      rw [in_hand h found, idle, ended_empty minds.shows_ there ended, Option.map_none, Option.toList_none,
        List.append_nil,
        List.append_nil] at account
      refine ⟨does_closed (act_deeds rolls.sound.kept a) closed, ?_⟩
      rw [idles.served, account, offers_none _ (closed_routes closed)]
      exact (List.append_nil _).symm

theorem act_buffered (rolls : c.Rolls roll) (shows_ : c.hub.router.Shows stream b)
    (there : (b.touches (c.touches stream a)).phase ≠ .dropped) :
    (c.act a).hub.router.buffered stream = (b.touches (c.touches stream a)).buffer := by
  obtain ⟨buffer, -, -, dropped⟩ := Inbox.shut_same (b := b.touches (c.touches stream a)) (c.act a).hub.isClosed
  exact (Router.shows_buffered (act_shows rolls shows_ a) (mt dropped.mp there)).trans buffer

theorem work_found (h : Handler) (found : c.handler? stream = some h) :
    c.workLeft stream = 2 * (c.hub.router.buffered stream).length + h.busy.isSome.toNat + 1 := by
  rw [workLeft, found]
  rfl

theorem act_work (rolls : c.Rolls roll) (tended : c.Tended) (minds : c.Minds stream delay answer b kept log)
    (closed : c.hub.isClosed = true)
    (a : Act) : (c.act a).workLeft stream + (c.stirs stream a).toNat ≤ c.workLeft stream := by
  have one : (c.stirs stream a).toNat ≤ 1 := Bool.toNat_le _
  have after := act_buffered (a := a) rolls minds.shows_
  cases handler_step tended minds.shows_.old a with
  | aside still keeps handler idles touches =>
      rw [still]
      cases found : c.handler? stream with
      | none => simp [workLeft, handler, found]
      | some h =>
          have there := minds_there minds h found
          rw [touches (by simp [found]), closed_routes closed] at after
          rw [work_found h found, work_found h (handler.trans found), after there,
            Router.shows_buffered minds.shows_ there]
          exact Nat.le_refl _
  | cancelled h is found handler idles touches =>
      have there := minds_there minds h found
      rw [touches] at after
      rw [work_found h found, work_found _ handler, after there, Router.shows_buffered minds.shows_ there, is]
      exact Nat.le_refl _
  | finishes h e due is found busy handler served complaints touches =>
      have there := minds_there minds h found
      rw [touches] at after
      rw [work_found h found, work_found _ handler, after there, Router.shows_buffered minds.shows_ there, busy]
      exact Nat.add_le_add_left one _
  | begins h e is found idle wanted next handler idles touches =>
      have there := minds_there minds h found
      have takes : b.touches [.take] = { b with buffer := b.buffer.tail } := if_neg there
      rw [touches, takes] at after
      rw [work_found h found, work_found _ handler, after there, Router.shows_buffered minds.shows_ there, idle,
        peek_shown minds.shows_ there e next]
      simp only [List.tail_cons, List.length_cons, Option.isSome_some, Option.isSome_none, Bool.toNat_true,
        Bool.toNat_false]
      omega
  | goes h is found idle why handler idles touches =>
      rw [work_found h found, workLeft, handler, Option.elim_none]
      omega

def stirred (c : Connection) (stream : Nat) (acts : List Act) : Nat := (trace act c acts).countP fun (c, a) =>
  c.stirs stream a

theorem run_work (steady : c.Steady roll) (minds : c.Minds stream delay answer b kept log)
    (closed : c.hub.isClosed = true)
    (acts : List Act) : (c.run acts).workLeft stream + c.stirred stream acts ≤ c.workLeft stream := by
  induction acts generalizing c roll b kept log with
  | nil => exact Nat.le_refl _
  | cons a acts ih =>
      have now := act_work steady.rolls steady.tended minds closed a
      have later := ih (act_steady steady a) (act_minds steady.rolls steady.tended minds a)
        (does_closed (act_deeds steady.rolls.sound.kept a) closed)
      have split : c.stirred stream (a :: acts) = (c.act a).stirred stream acts + (c.stirs stream a).toNat := by
        simp only [stirred, trace, List.countP_cons]
        cases c.stirs stream a <;> rfl
      have ends : c.run (a :: acts) = (c.act a).run acts := rfl
      rw [split, ends]
      omega

theorem stirred_bounded (steady : c.Steady roll) (minds : c.Minds stream delay answer b kept log)
    (closed : c.hub.isClosed = true)
    (acts : List Act) (there : stream ∈ (c.run acts).handlerStreams) :
    c.stirred stream acts ≤ 2 * (c.hub.router.buffered stream).length + 1 := by
  have work := run_work steady minds closed acts
  obtain ⟨h, found⟩ := handler_there.mp there
  rw [work_found h found] at work
  cases was : c.handler? stream with
  | none =>
      rw [workLeft, was, Option.elim_none] at work
      omega
  | some old =>
      have one : old.busy.isSome.toNat ≤ 1 := Bool.toNat_le _
      rw [work_found old was] at work
      omega

theorem closed_stirs (rolls : c.Rolls roll) (minds : c.Minds stream delay answer b kept log)
    (closed : c.hub.isClosed = true)
    (there : stream ∈ c.handlerStreams) : (c.act (.advance delay)).handlerReady stream = true := by
  obtain ⟨h, found⟩ := handler_there.mp there
  have same : (c.act (.advance delay)).handler? stream = some h := found
  rw [handlerReady, same, Option.any_some]
  cases busy : h.busy with
  | some work => exact decide_eq_true (minds.timely h work.1 work.2 found busy)
  | none =>
      have moves : (c.hub.router.peek stream != .waiting) = true := by
        rw [Router.peek_unregistered (rolls.lists.staffed.tidy.quiet (rolls.agrees.trans closed))]
        cases c.hub.router.buffered stream <;> rfl
      exact (congrArg (h.cancelled || ·) moves).trans (Bool.or_true _)

theorem next_begins (tended : c.Tended) (minds : c.Minds stream delay answer b kept log)
    (retained : c.Retained stream kept)
    (there : stream ∈ c.handlerStreams) (idle : c.inHand? stream = none) (e : Event) (rest : List Event)
    (holds : c.hub.router.buffered stream = e :: rest) :
    c.stint? stream (.move (.handler stream)) = some (.begins e) := by
  obtain ⟨h, found⟩ := handler_there.mp there
  have stands := minds_there minds h found
  have free : h.busy = none := Option.map_eq_none_iff.mp ((in_hand h found).symm.trans idle)
  have peeks : c.hub.router.peek stream = .event e := by
    rw [Router.shows_buffered minds.shows_ stands] at holds
    rw [Router.peek, minds.shows_.held, if_neg stands]
    simp [holds]
  cases handler_step tended minds.shows_.old (.move (.handler stream)) with
  | aside still => simp [stirs, handlerReady, found, free, peeks] at still
  | cancelled _ is => cases is
  | finishes _ _ _ _ also busy =>
      cases found.symm.trans also
      rw [free] at busy
      cases busy
  | begins _ other _ _ _ _ next handler =>
      cases peeks.symm.trans next
      rw [stint?, idle, in_hand _ handler]
      rfl
  | goes _ _ also _ why =>
      cases found.symm.trans also
      rcases why with cancelled | ended
      · rw [retained.wanted h found] at cancelled
        cases cancelled
      · cases peeks.symm.trans ended

theorem due_ends (rolls : c.Rolls roll) (tended : c.Tended) (minds : c.Minds stream delay answer b kept log) (e : Event)
    (hand : c.inHand? stream = some e) :
    (c.act (.advance delay)).stint? stream (.move (.handler stream)) = some (.ends e) := by
  obtain ⟨⟨_, due⟩, held, rfl⟩ := Option.map_eq_some_iff.mp hand
  obtain ⟨h, found, busy⟩ := Option.bind_eq_some_iff.mp held
  have same : (c.act (.advance delay)).handler? stream = some h := found
  have still : (c.act (.advance delay)).inHand? stream = c.inHand? stream := rfl
  have timely : due ≤ (c.act (.advance delay)).clock.now := minds.timely h _ due found busy
  cases handler_step (act_tended rolls tended (.advance delay)) minds.shows_.old (.move (.handler stream)) with
  | aside rests => simp [stirs, handlerReady, same, busy, timely] at rests
  | cancelled _ is => cases is
  | finishes _ _ _ _ also busy' handler =>
      rw [stint?, still, hand, in_hand _ handler]
      rfl
  | begins _ _ _ also idle | goes _ _ also idle =>
      cases same.symm.trans also
      rw [busy] at idle
      cases idle

theorem install_minds (rolls : c.Rolls roll) (tended : c.Tended) (logged : c.Logged) (filter : Filter) (delay : Nat)
    (answer : Nat → Event → Except Error Unit) : ∃ b : Inbox,
      (c.act (.onEvent filter delay answer)).Minds c.hub.router.nextId delay answer b [] [] ∧
      (c.act (.onEvent filter delay answer)).Retained c.hub.router.nextId [] ∧
      b.capacity = c.hub.router.capacity ∧ b.filter = filter := by
  have unused : c.handler? c.hub.router.nextId = none :=
    handler_missing.mpr fun member => next_fresh rolls (tended.handled _ member)
  have found : (c.act (.onEvent filter delay answer)).handler? c.hub.router.nextId =
      some { stream := c.hub.router.nextId, delay, answer } := by
    rw [handler?] at unused
    simp [act, onEvent, handler?, Router.subscribe, List.find?_append, unused]
  have unheard : (c.act (.onEvent filter delay answer)).served c.hub.router.nextId = [] := by
    refine List.map_eq_nil_iff.mpr (List.filter_eq_nil_iff.mpr fun x member own => ?_)
    exact Nat.ne_of_lt (logged.handled x member) (beq_iff_eq.mp own)
  have clear : (c.act (.onEvent filter delay answer)).complaintsOf c.hub.router.nextId = [] := by
    refine List.filter_eq_nil_iff.mpr fun x member own => ?_
    exact Nat.ne_of_lt (logged.complaints x member) (beq_iff_eq.mp own)
  have hand : (c.act (.onEvent filter delay answer)).inHand? c.hub.router.nextId = none := in_hand _ found
  refine ⟨_, minds_present _ found ?_ (Router.subscribe_shows rolls.lists.staffed.tidy filter) ?_ ?_ ?_ ?_ ?_,
    ?_, rfl, rfl⟩
  · dsimp only
    split <;> simp
  · rw [unheard]
    exact ⟨rfl, rfl, rfl⟩
  · intro _ _ busy
    cases busy
  · rw [unheard, hand]
    rfl
  · rw [clear, unheard]
    rfl
  · rw [unheard, hand]
    rfl
  · refine ⟨fun h also => ?_, fun gone => absurd (found.symm.trans gone) (Option.some_ne_none _)⟩
    cases found.symm.trans also
    rfl

theorem run_dismissed (steady : c.Steady roll) (known : stream < c.hub.router.nextId) (dismissed : c.Dismissed stream)
    (acts : List Act) :
    (c.run acts).Dismissed stream ∧ stream < (c.run acts).hub.router.nextId :=
  steady_run (P := fun c => c.Dismissed stream ∧ stream < c.hub.router.nextId)
    (fun _ _ a steady before => ⟨(act_dismissed steady.tended before.2 before.1 a).1,
      Nat.lt_of_lt_of_le before.2 (act_next_id steady.rolls.agrees a)⟩) steady ⟨dismissed, known⟩ acts

theorem offered_concat (filter : Filter) (acts : List Act) (a : Act) :
    c.offered stream filter (acts ++ [a]) = c.offered stream filter acts ++ (c.run acts).offers stream filter a := by
  rw [offered, trace_concat, List.flatMap_append]
  exact congrArg _ (List.flatMap_singleton _ _)

theorem stints_concat (acts : List Act) (a : Act) :
    c.stints stream (acts ++ [a]) = c.stints stream acts ++ ((c.run acts).stint? stream a).toList := by
  rw [stints, trace_concat, List.filterMap_append]
  refine congrArg _ ?_
  change [((c.run acts), a)].filterMap _ = _
  cases stint : (c.run acts).stint? stream a <;> simp [stint]

theorem run_minds (steady : c.Steady roll) (minds : c.Minds stream delay answer b [] [])
    (retained : c.Retained stream []) (acts : List Act) :
    ∃ roll after, (c.run acts).Steady roll ∧ after.capacity = b.capacity ∧ after.filter = b.filter ∧
      (c.run acts).Minds stream delay answer after (Offer.kept b.capacity (c.offered stream b.filter acts))
        (c.stints stream acts) ∧
      (.cancelHandler stream ∉ acts →
        (c.run acts).Retained stream (Offer.kept b.capacity (c.offered stream b.filter acts))) := by
  refine run_induction act c (P := fun acts d => ∃ roll after, d.Steady roll ∧ after.capacity = b.capacity ∧
    after.filter = b.filter ∧
      d.Minds stream delay answer after (Offer.kept b.capacity (c.offered stream b.filter acts))
        (c.stints stream acts) ∧
      (.cancelHandler stream ∉ acts →
        d.Retained stream (Offer.kept b.capacity (c.offered stream b.filter acts)))) ?_ ?_ acts
  · exact ⟨roll, b, steady, rfl, rfl, minds, fun _ => retained⟩
  · rintro acts a ⟨roll, after, steady, capacity, filter, minds, retained⟩
    obtain ⟨-, room, wants, -⟩ :=
      Inbox.shut_same (b := after.touches ((c.run acts).touches stream a)) ((c.run acts).act a).hub.isClosed
    obtain ⟨fixed, same⟩ := Inbox.touches_fixed (b := after) ((c.run acts).touches stream a)
    have next := act_minds steady.rolls steady.tended minds a
    rw [capacity, filter] at next
    rw [offered_concat, Offer.kept_append, stints_concat]
    refine ⟨_, _, act_steady steady a, room.trans (fixed.trans capacity), wants.trans (same.trans filter), next,
      fun keeps => ?_⟩
    rw [List.mem_append, List.mem_singleton, not_or] at keeps
    have goesOn := act_retained steady.rolls steady.tended minds (retained keeps.1) (Ne.symm keeps.2)
    rw [capacity, filter] at goesOn
    exact goesOn

end

structure Begun (config : Config) (c : Connection) : Prop where
  logged : c.Logged
  capacity : c.hub.router.capacity = config.effectiveEventBuffer

theorem run_begun (config : Config) (link : Link) (acts : List Act) : ((ofLink config link).run acts).Begun config := by
  refine run_induction act (ofLink config link) (P := fun _ c => c.Begun config) ?_ ?_ acts
  · refine ⟨⟨(fun _ member => nomatch member), fun _ member => nomatch member⟩, ?_⟩
    simp [ofLink, Hub.ofConfig, Router.ofCapacity, Config.effectiveEventBuffer]
  · intro acts a begun
    have rolls := run_rolls config link acts
    exact ⟨act_logged rolls (run_tended config link acts) begun.logged a, (act_capacity rolls a).trans begun.capacity⟩

-- Whatever happens after a handler has been installed, and whatever its calls come to. What it is called with begins the list of
-- the events that its filter accepted while there was room, and its buffer goes on with that list as long as the handler is there.
-- One call is over before the next begins, and a call that failed is logged. A handler that nobody cancels begins with the
-- next event when it has none in hand, and is only gone when the connection is closed and it is done with all of them; one that
-- is cancelled begins with none any more. On a closed connection it goes after so many moves, and can move when it is not busy.
theorem handlers_hear_in_order (config : Config) (link : Link) (before later : List Act) (filter : Filter) (delay : Nat)
    (answer : Nat → Event → Except Error Unit) :
    let start := (ofLink config link).run before
    let stream := start.hub.router.nextId
    let entry := start.act (.onEvent filter delay answer)
    let c := entry.run later
    let kept := Offer.kept config.effectiveEventBuffer (entry.offered stream filter later)
    let turn := Act.move (.handler stream)
    entry.calls stream later <+: kept ∧
    (stream ∈ c.handlerStreams → entry.calls stream later ++ c.hub.router.buffered stream = kept) ∧
    entry.stints stream later = Stint.inTurn (c.served stream) (c.inHand? stream) ∧
    c.complaintsOf stream = faults stream answer (c.served stream) ∧
    (∀ e, c.inHand? stream = some e → (c.act (.advance delay)).stint? stream turn = some (.ends e)) ∧
    (.cancelHandler stream ∉ later →
      (stream ∉ c.handlerStreams → c.hub.isClosed = true ∧ c.served stream = kept) ∧
      (stream ∈ c.handlerStreams → c.inHand? stream = none → ∀ e rest, c.hub.router.buffered stream = e :: rest →
        c.stint? stream turn = some (.begins e))) ∧
    (.cancelHandler stream ∈ later → ∀ more, c.calls stream more = []) ∧
    (c.hub.isClosed = true →
      (stream ∈ c.handlerStreams → (c.act (.advance delay)).handlerReady stream = true) ∧
      ∀ more, stream ∈ (c.run more).handlerStreams →
        c.stirred stream more ≤ 2 * (c.hub.router.buffered stream).length + 1) := by
  intro start stream entry c kept turn
  have standing : start.Steady ((ofLink config link).live before) := run_steady config link before
  have begun : start.Begun config := run_begun config link before
  obtain ⟨first, installed, wanted, room, wants⟩ :=
    install_minds standing.rolls standing.tended begun.logged filter delay answer
  have entered := act_steady standing (.onEvent filter delay answer)
  obtain ⟨roll, b, steady, capacity, own, minds, retained⟩ := run_minds entered installed wanted later
  rw [room.trans begun.capacity, wants] at minds retained
  have calls : entry.calls stream later = c.served stream ++ (c.inHand? stream).toList := by
    rw [Connection.calls, minds.log]
    exact Stint.in_turn_begun _ _
  have present : stream ∈ c.handlerStreams → b.phase ≠ .dropped := fun there => by
    obtain ⟨h, found⟩ := handler_there.mp there
    exact minds_there minds h found
  refine ⟨?_, ?_, minds.log, minds.faults, due_ends steady.rolls steady.tended minds, ?_, ?_, ?_⟩
  · rw [calls]
    exact minds.first
  · intro there
    rw [calls, Router.shows_buffered minds.shows_ (present there)]
    exact minds.account (present there)
  · intro keeps
    refine ⟨fun gone => (retained keeps).done (handler_missing.mpr gone), fun there idle e rest holds => ?_⟩
    exact next_begins steady.tended minds (retained keeps) there idle e rest holds
  · intro cancels
    obtain ⟨sooner, rest, made⟩ := List.append_of_mem cancels
    obtain ⟨_, _, at_, -, -, reached, -⟩ := run_minds entered installed wanted sooner
    have known : stream < ((entry.run sooner).act (.cancelHandler stream)).hub.router.nextId := reached.shows_.old
    obtain ⟨dismissed, stays⟩ :=
      run_dismissed (act_steady at_ (.cancelHandler stream)) known (cancel_dismisses at_.tended known) rest
    have whole : c = ((entry.run sooner).act (.cancelHandler stream)).run rest := by
      simp only [c, made, run_append]
      rfl
    rw [← whole] at dismissed stays
    exact dismissed_calls steady stays dismissed
  · exact fun closed => ⟨closed_stirs steady.rolls minds closed, fun more there =>
      stirred_bounded steady minds closed more there⟩

def failsFirst (made : Nat) (_ : Event) : Except Error Unit := if made = 0 then .error .connectionClosed else .ok ()

def burst : List Act :=
  [eventFrame "Page.opened", .move .reader, .move (.handler 1), eventFrame "Page.loaded", .move .reader,
    eventFrame "Page.closed",
    .move .reader, .move (.handler 1)]

-- The handler is cancelled with the second event in its buffer, or it is kept when the connection closes.
theorem handlers_hear_in_order_failing :
    let entry := (ofLink { eventBuffer := 1 } inMemory).act (.onEvent .any 0 failsFirst)
    let c := entry.run burst
    let cancelled := entry.run (burst ++ [.cancelHandler 1])
    let closing := burst ++ [.begin .close, .move (.handler 1), .move (.handler 1), .move (.handler 1)]
    let closed := entry.run closing
    entry.calls 1 burst ++ c.hub.router.buffered 1 = Offer.kept 1 (entry.offered 1 .any burst) ∧
      c.hub.router.buffered 1 = [⟨"Page.loaded", none, none⟩] ∧ (entry.offered 1 .any burst).map (·.held) = [0, 0, 1] ∧
      c.complaintsOf 1 = [⟨1, "Page.opened", .connectionClosed⟩] ∧
      c.stint? 1 (.move (.handler 1)) = some (.begins ⟨"Page.loaded", none, none⟩) ∧
      cancelled.hub.router.buffered 1 = [⟨"Page.loaded", none, none⟩] ∧ cancelled.calls 1 [.move (.handler 1)] = [] ∧
      1 ∉ closed.handlerStreams ∧ closed.served 1 = Offer.kept 1 (entry.offered 1 .any closing) := by
  intro entry c cancelled closing closed
  have start : (ofLink { eventBuffer := 1 } inMemory).run [] = ofLink { eventBuffer := 1 } inMemory := rfl
  have stream : (ofLink { eventBuffer := 1 } inMemory).hub.router.nextId = 1 := rfl
  have room : ({ eventBuffer := 1 } : Config).effectiveEventBuffer = 1 := by decide
  have never : ∀ acts : List Act, acts.any (fun a => a matches .cancelHandler _) = false → .cancelHandler 1 ∉ acts := by
    intro acts none_ member
    exact List.any_eq_false.mp none_ _ member rfl
  obtain ⟨-, kept, -, logged, -, goesOn, -, -⟩ :=
    handlers_hear_in_order { eventBuffer := 1 } inMemory [] burst .any 0 failsFirst
  obtain ⟨-, -, -, -, -, -, stops, -⟩ :=
    handlers_hear_in_order { eventBuffer := 1 } inMemory [] (burst ++ [.cancelHandler 1]) .any 0 failsFirst
  obtain ⟨-, -, -, -, -, ends, -, -⟩ :=
    handlers_hear_in_order { eventBuffer := 1 } inMemory [] closing .any 0 failsFirst
  have enters : (ofLink { eventBuffer := 1 } inMemory).act (.onEvent .any 0 failsFirst) = entry := rfl
  have runs : entry.run burst = c := rfl
  rw [start, stream, enters] at kept logged goesOn stops ends
  rw [runs] at kept logged goesOn
  rw [room] at kept ends
  have left : c.hub.router.buffered 1 = [⟨"Page.loaded", none, none⟩] := by decide +kernel
  have there : 1 ∈ c.handlerStreams := by decide +kernel
  have gone : 1 ∉ closed.handlerStreams := by decide +kernel
  have idle : c.inHand? 1 = none := by decide +kernel
  have served : c.served 1 = [⟨"Page.opened", none, none⟩] := by decide +kernel
  rw [served] at logged
  obtain ⟨-, next⟩ := goesOn (never burst rfl)
  obtain ⟨done, -⟩ := ends (never closing rfl)
  exact ⟨kept there, left, by decide +kernel, logged, next there idle _ [] left, by decide +kernel,
    stops (List.mem_append_right _ (List.mem_singleton_self _)) _, gone, (done gone).2⟩

end DevTools.Connection
