import DevTools.Proofs.Connection.Handling
import DevTools.Proofs.Connection.Tenure

set_option autoImplicit false

namespace DevTools.Connection

-- The handler of the stream has come so far: the events for which its buffer had room, and its calls up to now.
structure Minds (c : Connection) (stream delay : Nat) (answer : Nat → Event → Except Error Unit) (b : Inbox)
    (kept : List Event)
    (log : List Stint) : Prop where
  shows_ : c.hub.router.Shows stream b
  there : b.phase = .dropped ↔ c.handler? stream = none
  own : ∀ h, c.handler? stream = some h → h.delay = delay ∧ h.answer = answer ∧ h.made = (c.served stream).length
  timely : ∀ h e due, c.handler? stream = some h → h.busy = some (e, due) → due ≤ c.clock.now + delay
  log : log = Stint.inTurn (c.served stream) (c.inHand? stream)
  faults : c.complaintsOf stream = faults stream answer (c.served stream)
  account : b.phase ≠ .dropped → c.served stream ++ (c.inHand? stream).toList ++ b.buffer = kept
  first : c.served stream ++ (c.inHand? stream).toList <+: kept

section
variable {c : Connection} {a : Act} {roll : List Subscriber} {stream delay : Nat}
  {answer : Nat → Event → Except Error Unit}
  {b : Inbox} {kept : List Event} {log : List Stint}

theorem in_hand (h : Handler) (found : c.handler? stream = some h) : c.inHand? stream = h.busy.map (·.1) := by
  rw [inHand?, found]
  rfl

theorem hand_gone (missing : c.handler? stream = none) : c.inHand? stream = none := by
  rw [inHand?, missing]
  rfl

theorem hand_same (after : Connection) (same : after.handler? stream = c.handler? stream) :
    after.inHand? stream = c.inHand? stream := by
  rw [inHand?, inHand?, same]

theorem stint_still (same : (c.act a).inHand? stream = c.inHand? stream) : c.stint? stream a = none := by
  rw [stint?, same]
  cases c.inHand? stream <;> rfl

theorem act_later (a : Act) : c.clock.now ≤ (c.act a).clock.now := by
  by_cases passes : ∃ milliseconds, a = .advance milliseconds
  · obtain ⟨milliseconds, rfl⟩ := passes
    exact Nat.le_add_right _ _
  · exact Nat.le_of_eq (act_now fun milliseconds is => passes ⟨milliseconds, is⟩).symm

theorem act_shows (rolls : c.Rolls roll) (shows_ : c.hub.router.Shows stream b) (a : Act) :
    (c.act a).hub.router.Shows stream ((b.touches (c.touches stream a)).shut (c.act a).hub.isClosed) := by
  have shown := Router.performs_shows rolls.lists shows_ (c.routing a)
  have quiet := (Router.performs_lists rolls.lists (c.routing a)).staffed.tidy.quiet
  rw [act_routed rolls.agrees a]
  cases (c.act a).hub.isClosed with
  | true => exact Router.perform_shows shown quiet .close
  | false => exact shown

theorem routes_open (e : Event) (routes : c.routes? a = some e) : c.hub.isClosed = false := by
  obtain ⟨noted, -⟩ := Option.filter_eq_some_iff.mp routes
  rw [notes_taken] at noted
  obtain ⟨bytes, taken, -⟩ := Option.bind_eq_some_iff.mp noted
  exact ((takes_reader bytes).mp taken).2.1

theorem wants_routed (agrees : c.hub.Agrees) (shows_ : c.hub.router.Shows stream b)
    (there : b.phase ≠ .dropped) (e : Event)
    (routes : c.routes? a = some e) : b.wants e = b.filter.accepts e := by
  have isOpen : c.hub.router.closed = false := agrees.trans (routes_open e routes)
  have registered : b.phase = .registered := by
    cases phase : b.phase with
    | registered => rfl
    | closed =>
        rw [(shows_.closed there).mpr phase] at isOpen
        cases isOpen
    | dropped => exact absurd phase there
  simp [Inbox.wants, registered]

theorem aside_account (agrees : c.hub.Agrees) (shows_ : c.hub.router.Shows stream b)
    (there : b.phase ≠ .dropped) (a : Act) :
    let after := b.touches ((c.routes? a).toList.map .event)
    after.phase ≠ .dropped ∧ after.buffer = b.buffer ++ Offer.kept b.capacity (c.offers stream b.filter a) := by
  cases routes : c.routes? a with
  | none => exact ⟨there, by simp [offers, routes, Inbox.touches, Offer.kept]⟩
  | some e =>
      have offered : c.offers stream b.filter a = b.offer (.event e) := by
        rw [offers, routes, Router.shows_buffered shows_ there, Inbox.offer, wants_routed agrees shows_ there e routes]
        cases accepted : b.filter.accepts e <;> simp [Option.filter_some, accepted]
      obtain ⟨account, -⟩ := Inbox.touch_account (b := b) (.event e)
      rw [offered]
      exact ⟨Inbox.touch_present (.event e) there (by simp), account⟩

theorem peek_shown (shows_ : c.hub.router.Shows stream b) (there : b.phase ≠ .dropped) (e : Event)
    (next : c.hub.router.peek stream = .event e) : b.buffer = e :: b.buffer.tail := by
  rw [Router.peek, shows_.held, if_neg there] at next
  cases holds : b.buffer with
  | nil => cases registered : c.hub.router.isRegistered stream <;> simp [holds, registered] at next
  | cons first rest =>
      rw [holds] at next
      cases next
      rfl

theorem offers_none (filter : Filter) (routes : c.routes? a = none) : c.offers stream filter a = [] := by
  rw [offers, routes]
  rfl

theorem minds_there (minds : c.Minds stream delay answer b kept log) (h : Handler)
    (found : c.handler? stream = some h) :
    b.phase ≠ .dropped :=
  fun gone => Option.some_ne_none h (found.symm.trans (minds.there.mp gone))

theorem minds_present (h : Handler) (found : c.handler? stream = some h) (there : b.phase ≠ .dropped)
    (shows_ : c.hub.router.Shows stream b)
    (own : h.delay = delay ∧ h.answer = answer ∧ h.made = (c.served stream).length)
    (timely : ∀ e due, h.busy = some (e, due) → due ≤ c.clock.now + delay)
    (log_ : log = Stint.inTurn (c.served stream) (c.inHand? stream))
    (faults_ : c.complaintsOf stream = faults stream answer (c.served stream))
    (account : c.served stream ++ (c.inHand? stream).toList ++ b.buffer = kept) :
    c.Minds stream delay answer b kept log where
  shows_ := shows_
  there := iff_of_false there (by simp [found])
  own other also := by
    cases found.symm.trans also
    exact own
  timely other e due also := by
    cases found.symm.trans also
    exact timely e due
  log := log_
  faults := faults_
  account _ := account
  first := by
    rw [← account]
    exact List.prefix_append _ _

theorem minds_gone (missing : c.handler? stream = none) (gone : b.phase = .dropped)
    (shows_ : c.hub.router.Shows stream b)
    (log_ : log = Stint.inTurn (c.served stream) (c.inHand? stream))
    (faults_ : c.complaintsOf stream = faults stream answer (c.served stream))
    (first_ : c.served stream ++ (c.inHand? stream).toList <+: kept) : c.Minds stream delay answer b kept log where
  shows_ := shows_
  there := iff_of_true gone missing
  own h found := absurd (missing.symm.trans found) (Option.some_ne_none h).symm
  timely h _ _ found := absurd (missing.symm.trans found) (Option.some_ne_none h).symm
  log := log_
  faults := faults_
  account stays := absurd gone stays
  first := first_

theorem act_minds (rolls : c.Rolls roll) (tended : c.Tended)
    (minds : c.Minds stream delay answer b kept log) (a : Act) :
    (c.act a).Minds stream delay answer ((b.touches (c.touches stream a)).shut (c.act a).hub.isClosed)
      (kept ++ Offer.kept b.capacity (c.offers stream b.filter a)) (log ++ (c.stint? stream a).toList) := by
  have shows_ := act_shows rolls minds.shows_ a
  have later : c.clock.now + delay ≤ (c.act a).clock.now + delay := Nat.add_le_add_right (act_later a) _
  obtain ⟨buffer, -, -, dropped⟩ := Inbox.shut_same (b := b.touches (c.touches stream a)) (c.act a).hub.isClosed
  -- A cancellation and a move of the handler pass on no event.
  have quiet : c.routes? a = none → kept = kept ++ Offer.kept b.capacity (c.offers stream b.filter a) :=
    fun routes => by
    rw [offers_none b.filter routes]
    exact (List.append_nil _).symm
  cases handler_step tended minds.shows_.old a with
  | aside still keeps handler idles touches =>
      have hand : (c.act a).inHand? stream = c.inHand? stream := hand_same _ handler
      have log_ : log ++ (c.stint? stream a).toList = Stint.inTurn ((c.act a).served stream)
          ((c.act a).inHand? stream) := by
        rw [stint_still hand, Option.toList_none, List.append_nil, idles.served, hand]
        exact minds.log
      have faults_ : (c.act a).complaintsOf stream = faults stream answer ((c.act a).served stream) := by
        rw [idles.complaints, idles.served]
        exact minds.faults
      cases found : c.handler? stream with
      | none =>
          rw [found] at handler
          have was := minds.there.mpr found
          have gone := dropped.mpr (by rw [Inbox.touches_dropped _ was]; exact was)
          refine minds_gone handler gone shows_ log_ faults_ ?_
          rw [idles.served, hand]
          exact minds.first.trans (List.prefix_append _ _)
      | some h =>
          have there := minds_there minds h found
          obtain ⟨stays, comes⟩ := aside_account rolls.agrees minds.shows_ there a
          rw [touches (by simp [found])] at shows_ buffer dropped ⊢
          refine minds_present h (handler.trans found) (mt dropped.mp stays) shows_ ?_ ?_ log_ faults_ ?_
          · rw [idles.served]
            exact minds.own h found
          · exact fun e due busy => Nat.le_trans (minds.timely h e due found busy) later
          · rw [buffer, comes, ← List.append_assoc, idles.served, hand, minds.account there]
  | cancelled h is found handler idles touches =>
      have there := minds_there minds h found
      have hand : (c.act a).inHand? stream = c.inHand? stream := by rw [in_hand h found, in_hand _ handler]
      rw [touches] at shows_ buffer dropped ⊢
      refine minds_present _ handler (mt dropped.mp there) shows_ ?_ ?_ ?_ ?_ ?_
      · rw [idles.served]
        exact minds.own h found
      · exact fun e due busy => Nat.le_trans (minds.timely h e due found busy) later
      · rw [stint_still hand, Option.toList_none, List.append_nil, idles.served, hand]
        exact minds.log
      · rw [idles.complaints, idles.served]
        exact minds.faults
      · rw [buffer, idles.served, hand]
        exact (minds.account there).trans (quiet (by rw [is]; rfl))
  | finishes h e due is found busy handler served complaints touches =>
      have there := minds_there minds h found
      obtain ⟨takes, answers, counted⟩ := minds.own h found
      have before : c.inHand? stream = some e := by rw [in_hand h found, busy]; rfl
      have hand : (c.act a).inHand? stream = none := in_hand _ handler
      have account := minds.account there
      rw [before] at account
      rw [touches] at shows_ buffer dropped ⊢
      refine minds_present _ handler (mt dropped.mp there) shows_ ?_ ?_ ?_ ?_ ?_
      · rw [served, List.length_append, ← counted]
        exact ⟨takes, answers, rfl⟩
      · intro _ _ busy
        cases busy
      · have ends : c.stint? stream a = some (.ends e) := by rw [stint?, before, hand]
        rw [ends, minds.log, before, served, hand]
        exact Stint.in_turn_ends _ e
      · have own := (handler_found stream h found).2
        rw [complaints, served, minds.faults, ← answers, ← own]
        exact (faults_concat h _ e (own ▸ counted)).symm
      · rw [buffer, served, hand, Option.toList_none, List.append_nil]
        exact account.trans (quiet (by rw [is]; rfl))
  | begins h e is found idle wanted next handler idles touches =>
      have there := minds_there minds h found
      have before : c.inHand? stream = none := by rw [in_hand h found, idle]; rfl
      have hand : (c.act a).inHand? stream = some e := in_hand _ handler
      have account := minds.account there
      have after : b.touches [.take] = { b with buffer := b.buffer.tail } := if_neg there
      rw [before, peek_shown minds.shows_ there e next, Option.toList_none, List.append_nil] at account
      rw [touches, after] at shows_ buffer dropped ⊢
      refine minds_present _ handler (mt dropped.mp there) shows_ ?_ ?_ ?_ ?_ ?_
      · rw [idles.served]
        exact minds.own h found
      · rintro _ _ ⟨⟩
        rw [(minds.own h found).1]
        exact later
      · have begins : c.stint? stream a = some (.begins e) := by rw [stint?, before, hand]
        rw [begins, minds.log, before, idles.served, hand]
        exact Stint.in_turn_begins _ e
      · rw [idles.complaints, idles.served]
        exact minds.faults
      · rw [buffer, idles.served, hand, Option.toList_some, List.append_assoc]
        exact account.trans (quiet (by rw [is]; rfl))
  | goes h is found idle why handler idles touches =>
      have hand : (c.act a).inHand? stream = c.inHand? stream := by
        rw [in_hand h found, idle, hand_gone handler]
        rfl
      rw [touches] at shows_ dropped ⊢
      refine minds_gone handler (dropped.mpr rfl) shows_ ?_ ?_ ?_
      · rw [stint_still hand, Option.toList_none, List.append_nil, idles.served, hand]
        exact minds.log
      · rw [idles.complaints, idles.served]
        exact minds.faults
      · rw [idles.served, hand]
        exact minds.first.trans (List.prefix_append _ _)

structure Logged (c : Connection) : Prop where
  handled : ∀ x ∈ c.handled, x.1 < c.hub.router.nextId
  complaints : ∀ x ∈ c.complaints, x.stream < c.hub.router.nextId

theorem act_logged (rolls : c.Rolls roll) (tended : c.Tended) (logged : c.Logged) (a : Act) : (c.act a).Logged := by
  have next := act_next_id rolls.agrees a
  have still : (c.act a).handled = c.handled → (c.act a).complaints = c.complaints → (c.act a).Logged := by
    intro handled complaints
    refine ⟨?_, ?_⟩
    · rw [handled]
      exact fun x member => Nat.lt_of_lt_of_le (logged.handled x member) next
    · rw [complaints]
      exact fun x member => Nat.lt_of_lt_of_le (logged.complaints x member) next
  cases tends : a.tends with
  | false => exact still (act_untended tends).handled (act_untended tends).complaints
  | true =>
      cases a with
      | onEvent | cancelHandler => exact still rfl rfl
      | move activity =>
          cases activity with
          | handler own =>
              have moved := unheld_untended (c.moveHandler own)
              have moves := handler_moves (c := c) own
              change Untended _ (c.act (.move (.handler own))) at moved
              generalize c.moveHandler own = after at moves moved
              cases moves with
              | rests | begins | goes => exact still moved.handled moved.complaints
              | finishes h e due found busy past =>
                  have listed : h.stream ∈ c.handlerStreams := List.mem_map_of_mem (handler_found own h found).1
                  obtain ⟨s, held, same⟩ := List.mem_map.mp (tended.handled _ listed)
                  have known : h.stream < c.hub.router.nextId := same ▸ rolls.lists.staffed.tidy.numbered s held
                  refine ⟨?_, ?_⟩
                  · rw [moved.handled]
                    intro x member
                    rcases List.mem_append.mp member with old | new
                    · exact Nat.lt_of_lt_of_le (logged.handled x old) next
                    · rw [List.mem_singleton.mp new]
                      exact Nat.lt_of_lt_of_le known next
                  · rw [moved.complaints]
                    intro x member
                    rcases List.mem_append.mp member with old | new
                    · exact Nat.lt_of_lt_of_le (logged.complaints x old) next
                    · have own : x.stream = h.stream := by
                        simp only [Handler.complaint?] at new
                        split at new <;> simp only [Option.toList_none, Option.toList_some, List.not_mem_nil,
                          List.mem_singleton] at new
                        rw [new]
                      exact own ▸ Nat.lt_of_lt_of_le known next
          | reader | writer | caller => cases tends
      | _ => cases tends

theorem act_capacity (rolls : c.Rolls roll) (a : Act) : (c.act a).hub.router.capacity = c.hub.router.capacity := by
  have performed : ∀ r : Router, ∀ deeds, (r.performs deeds).capacity = r.capacity := by
    intro r deeds
    induction deeds generalizing r with
    | nil => rfl
    | cons d deeds ih => exact (ih (r.perform d)).trans (Router.perform_capacity d)
  rw [act_routed rolls.agrees a]
  split
  · exact (Router.perform_capacity .close).trans (performed _ _)
  · exact performed _ _

end

end DevTools.Connection
