import DevTools.Proofs.Connection.Rejection

set_option autoImplicit false

namespace DevTools

namespace Hub

structure Orderly (h : Hub) : Prop where
  numbered : h.router.Numbered
  quiet : h.router.closed = true → h.router.subscribers = []
  closes : h.isClosed = true → h.router.closed = true

theorem orderly_router (h after : Hub) (orderly : h.Orderly) (router : after.router = h.router)
    (reason : after.reason = h.reason) :
    after.Orderly := by
  refine ⟨by rw [router]; exact orderly.numbered, by rw [router]; exact orderly.quiet, ?_⟩
  rw [router, isClosed, reason]
  exact orderly.closes

theorem orderly_with (h : Hub) (orderly : h.Orderly) (router : Router) (numbered : router.Numbered)
    (closed : router.closed = h.router.closed) (quiet : h.router.subscribers = [] → h.router.closed = true →
      router.subscribers = []) :
    ({ h with router } : Hub).Orderly := by
  refine ⟨numbered, ?_, ?_⟩
  · intro shut
    rw [closed] at shut
    exact quiet (orderly.quiet shut) shut
  · intro shut
    exact closed.trans (orderly.closes shut)

theorem shutdown_orderly (h : Hub) (reason : CloseReason) (orderly : h.Orderly) : (h.shutdown reason).Orderly := by
  cases closed : h.isClosed with
  | true =>
      rw [shutdown_closed h closed]
      exact orderly
  | false =>
      have numbered : h.router.close.2.Numbered := Router.close_numbered orderly.numbered
      simp only [shutdown, closed, Bool.false_eq_true, if_false]
      cases shut : h.router.closed with
      | true =>
          have same : h.router.close.2 = h.router := by simp [Router.close, shut]
          exact ⟨numbered, fun _ => by rw [same]; exact orderly.quiet shut, fun _ => by rw [same]; exact shut⟩
      | false => exact ⟨numbered, fun _ => by simp [Router.close, shut], fun _ => by simp [Router.close, shut]⟩

theorem perform_orderly (h : Hub) (d : Deed) (orderly : h.Orderly) : (h.perform d).Orderly := by
  cases d with
  | post asked =>
      obtain ⟨_, _, made⟩ := post_hub h asked
      rw [perform, made]
      exact orderly_router h _ orderly rfl rfl
  | detach session =>
      obtain ⟨_, _, made⟩ := detach_hub h session
      rw [perform, made]
      exact orderly_router h _ orderly rfl rfl
  | frame bytes =>
      obtain ⟨_, _, router, _, made, same | ⟨e, dispatched⟩⟩ := frame_hub h bytes
      · rw [perform, made]
        exact orderly_router h _ orderly same rfl
      · have dispatches : ({ h with router := (h.router.dispatch e).2 } : Hub).Orderly := by
          refine orderly_with h orderly (h.router.dispatch e).2 ?_ rfl ?_
          · exact Router.numbered_map orderly.numbered (h.router.offer e) (Router.offer_id e) _ rfl rfl
          · intro nobody _
            simp [Router.dispatch, nobody]
        rw [perform, made]
        exact orderly_router _ _ dispatches dispatched rfl
  | subscribe filter =>
      apply orderly_with h orderly _ (Router.subscribe_numbered orderly.numbered filter) rfl
      intro nobody shut
      simp [Router.subscribe, shut, nobody]
  | take stream =>
      refine orderly_with h orderly (h.router.take stream).2 ?_ rfl (fun nobody _ => nobody)
      exact Router.numbered_map orderly.numbered (fun s => if s.id == stream then s.advance else s)
        (fun s => by split <;> rfl) _ rfl rfl
  | drain stream =>
      refine orderly_with h orderly (h.router.drain stream).2 ?_ rfl (fun nobody _ => nobody)
      exact Router.numbered_map orderly.numbered (fun s => if s.id == stream then { s with buffer := [] } else s)
        (fun s => by split <;> rfl) _ rfl rfl
  | dropStream stream =>
      apply orderly_with h orderly _ (Router.drop_numbered orderly.numbered stream) rfl
      intro nobody _
      simp [Router.drop, nobody]
  | shutdown reason => exact shutdown_orderly h reason orderly
  | _ => exact orderly_router h _ orderly rfl rfl

theorem performs_orderly (h : Hub) (deeds : List Deed) (orderly : h.Orderly) : (h.performs deeds).Orderly := by
  induction deeds generalizing h with
  | nil => exact orderly
  | cons d deeds ih => exact ih (h.perform d) (perform_orderly h d orderly)

theorem shutdown_router (h : Hub) (reason : CloseReason) : (h.shutdown reason).router.streams = h.router.streams ∧
    (h.shutdown reason).router.nextId = h.router.nextId ∧
      (h.shutdown reason).router.laggedTotal = h.router.laggedTotal ∧
    (h.shutdown reason).stats = h.stats := by
  simp only [shutdown]
  split
  · exact ⟨rfl, rfl, rfl, rfl⟩
  · refine ⟨?_, ?_, ?_, rfl⟩ <;> simp only [Router.close] <;> split <;> rfl

theorem perform_counts (h : Hub) (d : Deed) (deaf : ∀ bytes, d ≠ .frame bytes) :
    (h.perform d).stats = h.stats ∧ (h.perform d).router.laggedTotal = h.router.laggedTotal := by
  cases d with
  | frame bytes => exact absurd rfl (deaf bytes)
  | post asked =>
      obtain ⟨_, _, made⟩ := post_hub h asked
      rw [perform, made]
      exact ⟨rfl, rfl⟩
  | detach session =>
      obtain ⟨_, _, made⟩ := detach_hub h session
      rw [perform, made]
      exact ⟨rfl, rfl⟩
  | shutdown reason => exact ⟨(shutdown_router h reason).2.2.2, (shutdown_router h reason).2.2.1⟩
  | _ => exact ⟨rfl, rfl⟩

theorem perform_drains (h : Hub) (d : Deed) (deaf : ∀ bytes, d ≠ .frame bytes) (stream : Nat)
    (old : stream < h.router.nextId) :
    Router.Drains stream h.router (h.yields stream d) (h.perform d).router := by
  have still : ∀ after : Router, after.streams = h.router.streams → after.nextId = h.router.nextId →
      Router.Drains stream h.router [] after := by
    intro after streams next
    exact Router.drains_none after (by simp only [Router.stream?, streams]) (Nat.le_of_eq next.symm)
  cases d with
  | frame bytes => exact absurd rfl (deaf bytes)
  | post asked =>
      obtain ⟨_, _, made⟩ := post_hub h asked
      rw [perform, made]
      exact still _ rfl rfl
  | detach session =>
      obtain ⟨_, _, made⟩ := detach_hub h session
      rw [perform, made]
      exact still _ rfl rfl
  | shutdown reason => exact still _ (shutdown_router h reason).1 (shutdown_router h reason).2.1
  | subscribe filter => exact Router.drains_subscribe filter old
  | take own => exact Router.drains_take own
  | drain own => exact Router.drains_drain own
  | dropStream own => exact Router.drains_drop own
  | _ => exact still _ rfl rfl

theorem performs_counts (h : Hub) (deeds : List Deed) (deaf : ∀ d ∈ deeds, ∀ bytes, d ≠ .frame bytes) :
    (h.performs deeds).stats = h.stats ∧ (h.performs deeds).router.laggedTotal = h.router.laggedTotal := by
  induction deeds generalizing h with
  | nil => exact ⟨rfl, rfl⟩
  | cons d deeds ih =>
      obtain ⟨stats, lagged⟩ := perform_counts h d (deaf d List.mem_cons_self)
      obtain ⟨laterStats, laterLagged⟩ := ih (h.perform d) fun other member =>
        deaf other (List.mem_cons_of_mem d member)
      exact ⟨laterStats.trans stats, laterLagged.trans lagged⟩

theorem performs_drains (h : Hub) (deeds : List Deed) (deaf : ∀ d ∈ deeds, ∀ bytes, d ≠ .frame bytes) (stream : Nat)
    (old : stream < h.router.nextId) :
    Router.Drains stream h.router (h.yielded stream deeds) (h.performs deeds).router := by
  induction deeds generalizing h with
  | nil => exact Router.drains_none _ rfl (Nat.le_refl _)
  | cons d deeds ih =>
      have first := perform_drains h d (deaf d List.mem_cons_self) stream old
      have rest := ih (h.perform d) (fun other member => deaf other (List.mem_cons_of_mem d member))
        (Nat.lt_of_lt_of_le old first.next)
      exact Router.drains_trans _ _ _ _ first rest

end Hub

namespace Connection

def yielded (c : Connection) (acts : List Act) (stream : Nat) : List Event :=
  (trace act c acts).flatMap fun (x, a) => x.yields a stream

def firstTrigger? (c : Connection) (acts : List Act) : Option CloseReason :=
  (trace act c acts).findSome? fun (x, a) => x.trigger? a

structure Terminal (c : Connection) : Prop where
  pending : c.hub.calls.pending = []
  refuses : ∀ id method session, c.hub.calls.register id method session = .error .connectionClosed
  rejects : ∀ operation cancel asked, operation.asks? = some (cancel, asked) →
    c.Rejects operation fun fault => c.clock.hasFired cancel = false → fault = .connectionClosed
  deaf : (c.act (.move .reader)).hub = c.hub
  unheard : c.hub.router.subscribers = []
  ended : ∀ filter, (c.hub.router.subscribe filter).2.peek (c.hub.router.subscribe filter).1 = .ended
  gives : ∀ stream, c.hub.router.peek stream =
    match c.hub.router.buffered stream with
    | e :: _ => .event e
    | [] => .ended

section
variable {c : Connection} {a : Act}

theorem trigger_closes (sound : c.Sound) (isOpen : c.hub.isClosed = false) (reason : CloseReason)
    (trigger : c.trigger? a = some reason) : (c.act a).hub.isClosed = true := by
  have shuts : ∀ reason, (c.hub.shutdown reason).isClosed = true :=
    fun reason => Hub.performs_shutdown c.hub [.shutdown reason] reason List.mem_cons_self
  have unheld : (if c.isHeld && !(c.act a).isHeld then some .closedHere else none) = some reason →
      (c.act a).hub.isClosed = true := by
    intro goes
    split at goes
    · next free =>
        simp only [Bool.and_eq_true, Bool.not_eq_true'] at free
        rcases act_kept sound.kept a with closed | held
        · exact closed
        · rw [free.2] at held
          cases held
    · cases goes
  cases a with
  | begin operation =>
      cases operation with
      | close => exact shuts .closedHere
      | _ => exact unheld trigger
  | move activity =>
      cases activity with
      | reader =>
          rw [reader_hub sound.kept]
          simp only [trigger?] at trigger
          rcases received : c.link.receive with ⟨result, link⟩
          rw [received] at trigger
          cases result with
          | ended =>
              simp only [moveReader, isOpen, received]
              exact shuts .remoteHangup
          | failed fault =>
              simp only [moveReader, isOpen, received]
              exact shuts (.readFailed fault.message)
          | frame | waiting | panicked => cases trigger
      | writer =>
          simp only [trigger?] at trigger
          cases writing : c.writer with
          | sending o left =>
              rcases sent : c.link.send left with ⟨result, link⟩
              simp only [writing, sent] at trigger
              cases result with
              | failed fault =>
                  have moved : c.moveWriter = { c with link }.failWrite o.call fault := by
                    simp [moveWriter, writing, sent]
                  have same : (c.act (.move .writer)).hub = c.moveWriter.hub :=
                    close_unheld_hub sound.kept c.moveWriter (alike_held writer_moves.2) (does_closed writer_moves.1)
                  rw [same, moved, (fail_write_hub (c := { c with link }) o.call fault).1]
                  exact shuts (.writeFailed fault.message)
              | done | waiting => cases trigger
          | idle | ended => simp [writing] at trigger
      | caller | handler => exact unheld trigger
  | _ => exact unheld trigger

theorem act_reason (sound : c.Sound) (a : Act) : (c.act a).hub.reason = c.hub.reason.or (c.trigger? a) := by
  obtain ⟨deeds, made, allowed, _⟩ := act_deeds sound.kept a
  rw [made, Hub.performs_reason]
  cases standing : c.hub.reason with
  | some reason => rfl
  | none =>
      have isOpen : c.hub.isClosed = false := by simp [Hub.isClosed, standing]
      rw [Option.none_or, Option.none_or]
      cases shut : deeds.findSome? Deed.closes? with
      | some reason =>
          obtain ⟨d, member, closes⟩ := List.exists_of_findSome?_eq_some shut
          cases d with
          | shutdown other =>
              cases closes
              exact (allowed _ member).2.symm
          | _ => cases closes
      | none =>
          cases trigger : c.trigger? a with
          | none => rfl
          | some reason =>
              have closed := trigger_closes sound isOpen reason trigger
              rw [made, Hub.isClosed, Hub.performs_reason, standing, shut] at closed
              cases closed

theorem run_reason (sound : c.Sound) (acts : List Act) :
    (c.run acts).hub.reason = c.hub.reason.or (c.firstTrigger? acts) := by
  induction acts generalizing c with
  | nil => exact Option.or_none.symm
  | cons a acts ih =>
      have rest := ih (act_sound sound a)
      rw [act_reason sound a, Option.or_assoc] at rest
      refine rest.trans ?_
      simp only [firstTrigger?, trace, List.findSome?_cons]
      cases c.trigger? a <;> rfl

theorem act_orderly (sound : c.Sound) (orderly : c.hub.Orderly) (a : Act) : (c.act a).hub.Orderly := by
  obtain ⟨deeds, made, _⟩ := act_deeds sound.kept a
  rw [made]
  exact Hub.performs_orderly c.hub deeds orderly

theorem run_orderly (sound : c.Sound) (orderly : c.hub.Orderly) (acts : List Act) : (c.run acts).hub.Orderly := by
  induction acts generalizing c with
  | nil => exact orderly
  | cons a acts ih => exact ih (act_sound sound a) (act_orderly sound orderly a)

theorem initial_orderly (config : Config) (link : Link) : (ofLink config link).hub.Orderly :=
  ⟨fun s member => (by cases member), fun _ => rfl, fun closed => (by cases closed)⟩

theorem reader_closed (sound : c.Sound) (closed : c.hub.isClosed = true) : (c.act (.move .reader)).hub = c.hub := by
  rw [reader_hub sound.kept, moveReader, if_pos closed]
  rfl

theorem closed_terminal (sound : c.Sound) (orderly : c.hub.Orderly) (closed : c.hub.isClosed = true) : c.Terminal := by
  have shut := sound.closed closed
  have nobody := orderly.quiet (orderly.closes closed)
  refine ⟨sound.matched.closed shut, CallTable.register_closed shut, ?_, reader_closed sound closed, nobody, ?_,
    fun stream => Router.peek_unregistered nobody⟩
  · intro operation cancel asked asks
    have refused : c.hub.refusal? asked = some .connectionClosed := by simp [Hub.refusal?, closed]
    apply begin_rejects sound.kept operation cancel asked asks .connectionClosed refused _ (fun _ _ => rfl)
    intro fired live
    rw [fired] at live
    cases live
  · intro filter
    have still : (c.hub.router.subscribe filter).2.subscribers = [] := by
      simp [Router.subscribe, orderly.closes closed, nobody]
    rw [Router.peek_unregistered still, Router.subscribe_buffered filter orderly.numbered]

theorem act_deaf (sound : c.Sound) (closed : c.hub.isClosed = true) (a : Act) :
    ∃ deeds, Does c a (c.act a).hub deeds ∧ ∀ d ∈ deeds, ∀ bytes, d ≠ .frame bytes := by
  obtain ⟨deeds, does⟩ := act_deeds sound.kept a
  refine ⟨deeds, does, ?_⟩
  rintro d member bytes rfl
  have isOpen := (does.allowed _ member).2.1
  rw [closed] at isOpen
  cases isOpen

theorem act_counts (sound : c.Sound) (closed : c.hub.isClosed = true) (a : Act) :
    (c.act a).hub.stats = c.hub.stats ∧ (c.act a).hub.router.laggedTotal = c.hub.router.laggedTotal := by
  obtain ⟨deeds, does, deaf⟩ := act_deaf sound closed a
  rw [does.hub]
  exact Hub.performs_counts c.hub deeds deaf

theorem act_drains (sound : c.Sound) (closed : c.hub.isClosed = true) (a : Act) (stream : Nat)
    (old : stream < c.hub.router.nextId) :
    Router.Drains stream c.hub.router (c.yields a stream) (c.act a).hub.router := by
  obtain ⟨deeds, does, deaf⟩ := act_deaf sound closed a
  rw [does.hub, ← does.taken stream]
  exact Hub.performs_drains c.hub deeds deaf stream old

theorem run_counts (sound : c.Sound) (closed : c.hub.isClosed = true) (acts : List Act) :
    (c.run acts).hub.stats = c.hub.stats ∧ (c.run acts).hub.router.laggedTotal = c.hub.router.laggedTotal := by
  induction acts generalizing c with
  | nil => exact ⟨rfl, rfl⟩
  | cons a acts ih =>
      obtain ⟨stats, lagged⟩ := act_counts sound closed a
      have next := act_sound sound a
      have still : (c.act a).hub.isClosed = true := does_closed (act_deeds sound.kept a) closed
      obtain ⟨laterStats, laterLagged⟩ := ih next still
      exact ⟨laterStats.trans stats, laterLagged.trans lagged⟩

theorem run_drains (sound : c.Sound) (closed : c.hub.isClosed = true) (acts : List Act) (stream : Nat)
    (old : stream < c.hub.router.nextId) :
    Router.Drains stream c.hub.router (c.yielded acts stream) (c.run acts).hub.router := by
  induction acts generalizing c with
  | nil => exact Router.drains_none _ rfl (Nat.le_refl _)
  | cons a acts ih =>
      have first := act_drains sound closed a stream old
      have still : (c.act a).hub.isClosed = true := does_closed (act_deeds sound.kept a) closed
      have rest := ih (act_sound sound a) still (Nat.lt_of_lt_of_le old first.next)
      exact Router.drains_trans _ _ _ _ first rest

end

theorem shutdown_is_terminal (config : Config) (link : Link) (acts : List Act) :
    let c := (ofLink config link).run acts
    c.hub.reason = (ofLink config link).firstTrigger? acts ∧
    (c.hub.isClosed = true → ∀ later,
      (c.run later).Terminal ∧ (c.run later).hub.reason = c.hub.reason ∧ (c.run later).hub.stats = c.hub.stats ∧
      (c.run later).hub.router.laggedTotal = c.hub.router.laggedTotal ∧
      ∀ stream, (c.hub.router.stream? stream).isSome = true →
        c.yielded later stream <+: c.hub.router.buffered stream ∧
        (((c.run later).hub.router.stream? stream).isSome = true →
          c.hub.router.buffered stream = c.yielded later stream ++ (c.run later).hub.router.buffered stream)) := by
  intro c
  have initial := initial_sound config link
  have sound : c.Sound := run_sound initial acts
  have orderly : c.hub.Orderly := run_orderly initial (initial_orderly config link) acts
  refine ⟨run_reason initial acts, ?_⟩
  intro closed later
  obtain ⟨reason, standing⟩ := Option.isSome_iff_exists.mp closed
  have same : (c.run later).hub.reason = c.hub.reason := by
    rw [run_reason sound later, standing]
    rfl
  obtain ⟨stats, lagged⟩ := run_counts sound closed later
  have still : (c.run later).hub.isClosed = true := by rw [Hub.isClosed, same]; exact closed
  refine ⟨closed_terminal (run_sound sound later) (run_orderly sound orderly later) still, same, stats, lagged, ?_⟩
  intro stream present
  obtain ⟨s, found⟩ := Option.isSome_iff_exists.mp present
  have old : stream < c.hub.router.nextId := by
    rw [← Router.stream_id s found]
    exact orderly.numbered s (List.mem_of_find?_eq_some found)
  have drains := run_drains sound closed later stream old
  exact ⟨drains.taken, fun there => (drains.rest there).2⟩

def eventFrame (method : String) : Act :=
  .far (.hand (.frame (Utf8.encode ("\x7b\"method\":\"" ++ method ++ "\"\x7d"))))

def parting : List Act :=
  [.subscribe .any, eventFrame "Page.opened", .move .reader, eventFrame "Page.loaded", .move .reader,
    .begin (.send ⟨"Page.reload", .empty, none⟩), .far .hangUp, .move .reader]

def afterwards : List Act := [.recv 1, .begin .close]

theorem shutdown_is_terminal_parting :
    ((ofLink {} inMemory).run parting).hub.isClosed = true ∧
    (ofLink {} inMemory).firstTrigger? parting = some .remoteHangup ∧
    (((ofLink {} inMemory).run parting).run afterwards).Terminal ∧
    (((ofLink {} inMemory).run parting).run afterwards).hub.reason = some .remoteHangup ∧
    ((ofLink {} inMemory).run parting).yielded afterwards 1 = [⟨"Page.opened", none, none⟩] ∧
    (((ofLink {} inMemory).run parting).run afterwards).hub.router.buffered 1 = [⟨"Page.loaded", none, none⟩] := by
  obtain ⟨first, ends⟩ := shutdown_is_terminal {} inMemory parting
  have closed : ((ofLink {} inMemory).run parting).hub.isClosed = true := by decide +kernel
  have trigger : (ofLink {} inMemory).firstTrigger? parting = some .remoteHangup := by decide +kernel
  have present : (((ofLink {} inMemory).run parting).hub.router.stream? 1).isSome = true := by decide +kernel
  have there : ((((ofLink {} inMemory).run parting).run afterwards).hub.router.stream? 1).isSome = true := by
    decide +kernel
  have held : ((ofLink {} inMemory).run parting).hub.router.buffered 1 =
      [⟨"Page.opened", none, none⟩, ⟨"Page.loaded", none, none⟩] := by decide +kernel
  have taken : ((ofLink {} inMemory).run parting).yielded afterwards 1 = [⟨"Page.opened", none, none⟩] := by
    decide +kernel
  obtain ⟨terminal, same, _, _, streams⟩ := ends closed afterwards
  have rest := (streams 1 present).2 there
  rw [held, taken] at rest
  exact ⟨closed, trigger, terminal, same.trans (first.trans trigger), taken, (List.cons.inj rest).2.symm⟩

end Connection

end DevTools
