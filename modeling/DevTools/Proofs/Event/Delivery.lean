import DevTools.Proofs.Event.Run

set_option autoImplicit false

namespace DevTools

namespace RouterDesk

section
variable {d : RouterDesk} {stream : Nat} {b : Inbox}

theorem act_shows (tidy : d.table.Tidy) (shows_ : d.table.Shows stream b) (a : RouterAct) :
    (d.act a).table.Shows stream (((d.deed? a).bind (·.touch? stream)).elim b b.touch) := by
  rw [act_table tidy]
  cases d.deed? a with
  | none => exact shows_
  | some deed => exact Router.perform_shows shows_ tidy.quiet deed

theorem act_yields (shows_ : d.table.Shows stream b) (a : RouterAct) :
    d.yields stream a = ((d.deed? a).bind (·.touch? stream)).elim [] b.gives := by
  rw [yields_eq]
  cases d.deed? a with
  | none => rfl
  | some deed => exact Router.perform_gives shows_ deed

theorem noticed_cons (a : RouterAct) (acts : List RouterAct) :
    d.noticed stream (a :: acts) = ((d.deed? a).bind (·.touch? stream)).toList ++ (d.act a).noticed stream acts := by
  simp only [noticed, trace, List.filterMap_cons]
  cases (d.deed? a).bind (·.touch? stream) <;> rfl

theorem run_shows (tidy : d.table.Tidy) (shows_ : d.table.Shows stream b) (acts : List RouterAct) :
    (d.run acts).table.Shows stream (b.touches (d.noticed stream acts)) ∧
      d.yielded stream acts = b.given (d.noticed stream acts) := by
  induction acts generalizing d b with
  | nil => exact ⟨shows_, rfl⟩
  | cons a acts ih =>
      have next := act_shows tidy shows_ a
      have gives := act_yields shows_ a
      have split : d.yielded stream (a :: acts) = d.yields stream a ++ (d.act a).yielded stream acts := rfl
      rw [noticed_cons, split, gives]
      cases touched : (d.deed? a).bind (·.touch? stream) with
      | none =>
          rw [touched] at next
          exact ih (act_tidy tidy a) next
      | some t =>
          rw [touched] at next
          obtain ⟨later, taken⟩ := ih (act_tidy tidy a) next
          exact ⟨later, by rw [taken]; rfl⟩

theorem offers_eq (shows_ : d.table.Shows stream b) (registered : b.phase = .registered) (a : RouterAct) :
    d.offers stream b.filter a = ((d.deed? a).bind (·.touch? stream)).elim [] b.offer := by
  have silent : ∀ own t, b.offer t = [] → [] = (if own == stream then some t else none).elim [] b.offer := by
    intro own t deaf
    split
    · exact deaf.symm
    · rfl
  cases a with
  | dispatch e =>
      have held := shows_.held
      rw [if_neg (by simp [registered])] at held
      have holds : d.table.buffered stream = b.buffer := by rw [Router.buffered_eq, held]; rfl
      simp [offers, deed?, RouterDeed.touch?, Inbox.offer, Inbox.wants, registered, holds]
  | recv own => exact silent own .take rfl
  | drain own => exact silent own .drain rfl
  | drop own => exact silent own .drop rfl
  | move key =>
      simp only [offers, deed?]
      cases d.wait? key with
      | none => rfl
      | some w => exact silent w.stream .take rfl
  | abort key =>
      simp only [offers, deed?]
      cases d.wait? key with
      | none => rfl
      | some w => exact silent w.stream .drop rfl
  | _ => rfl

theorem offered_eq (tidy : d.table.Tidy) (shows_ : d.table.Shows stream b) (there : b.phase ≠ .dropped)
    (acts : List RouterAct) : d.offered stream b.filter acts = b.offers (d.noticed stream acts) := by
  induction acts generalizing d b with
  | nil => rfl
  | cons a acts ih =>
      rw [offered, noticed_cons]
      by_cases closed : d.table.closed = true
      · have ended : b.phase ≠ .registered := by simp [(shows_.closed there).mp closed]
        simp [closed, Inbox.offers_unregistered _ ended]
      · by_cases goes : d.drops stream a = true
        · have ended : (b.touch .drop).phase ≠ .registered := by simp [Inbox.touch]
          have rest := Inbox.offers_unregistered ((d.act a).noticed stream acts) ended
          rw [(drops_iff a).mp goes]
          simp only [goes, Bool.or_true, if_true]
          exact rest.symm
        · have registered : b.phase = .registered := by
            cases phase : b.phase with
            | registered => rfl
            | closed => exact absurd ((shows_.closed there).mpr phase) closed
            | dropped => exact absurd phase there
          have next := act_shows tidy shows_ a
          rw [if_neg (by simp [closed, goes]), offers_eq shows_ registered a]
          cases touched : (d.deed? a).bind (·.touch? stream) with
          | none =>
              rw [touched] at next
              exact ih (act_tidy tidy a) next there
          | some t =>
              rw [touched] at next
              have stays : t ≠ .drop := by
                rintro rfl
                exact goes ((drops_iff a).mpr touched)
              have rest := ih (act_tidy tidy a) next (Inbox.touch_present t there stays)
              rw [Option.elim_some, (Inbox.touch_fixed t).2] at rest
              rw [rest]
              rfl

theorem run_remains (tidy : d.table.Tidy) (shows_ : d.table.Shows stream b) (there : b.phase ≠ .dropped)
    (acts : List RouterAct) :
    (⟨stream, (b.touches (d.noticed stream acts)).buffer, (b.touches (d.noticed stream acts)).lagged⟩ : Stream) ∈
      (d.run acts).table.streams ++ d.dropped acts := by
  have holds := shows_.held
  rw [if_neg there] at holds
  have held := List.mem_of_find?_eq_some holds
  induction acts generalizing d b with
  | nil => exact List.mem_append_left _ held
  | cons a acts ih =>
      have goes_on : d.dropped (a :: acts) =
          (d.table.streams.filter fun s => d.drops s.id a) ++ (d.act a).dropped acts := rfl
      have next := act_shows tidy shows_ a
      rw [noticed_cons, goes_on]
      by_cases goes : d.drops stream a = true
      · rw [(drops_iff a).mp goes, Option.toList_some, List.singleton_append]
        have ended : (b.touch .drop).touches ((d.act a).noticed stream acts) = b.touch .drop :=
          Inbox.touches_dropped _ rfl
        have kept : b.touches (.drop :: (d.act a).noticed stream acts) = b.touch .drop := ended
        rw [kept]
        have parts : (⟨stream, b.buffer, b.lagged⟩ : Stream) ∈ d.table.streams.filter fun s => d.drops s.id a :=
          List.mem_filter.mpr ⟨held, goes⟩
        exact List.mem_append_right _ (List.mem_append_left _ parts)
      · have later : ∀ x, x ∈ ((d.act a).run acts).table.streams ++ (d.act a).dropped acts →
            x ∈ (d.run (a :: acts)).table.streams ++
              ((d.table.streams.filter fun s => d.drops s.id a) ++ (d.act a).dropped acts) := by
          intro x member
          rcases List.mem_append.mp member with now | then_
          · exact List.mem_append_left _ now
          · exact List.mem_append_right _ (List.mem_append_right _ then_)
        apply later
        cases touched : (d.deed? a).bind (·.touch? stream) with
        | none =>
            rw [touched] at next
            have still := next.held
            rw [Option.elim_none, if_neg there] at still
            exact ih (act_tidy tidy a) next there still (List.mem_of_find?_eq_some still)
        | some t =>
            rw [touched] at next
            have stays : t ≠ .drop := by
              rintro rfl
              exact goes ((drops_iff a).mpr touched)
            have remains := Inbox.touch_present t there stays
            have still := next.held
            rw [Option.elim_some, if_neg remains] at still
            exact ih (act_tidy tidy a) next remains still (List.mem_of_find?_eq_some still)

theorem act_capacity (tidy : d.table.Tidy) (a : RouterAct) : (d.act a).table.capacity = d.table.capacity := by
  rw [act_table tidy]
  cases d.deed? a with
  | none => rfl
  | some deed => exact Router.perform_capacity deed

theorem run_capacity (tidy : d.table.Tidy) (acts : List RouterAct) :
    (d.run acts).table.capacity = d.table.capacity := by
  induction acts generalizing d with
  | nil => rfl
  | cons a acts ih => exact (ih (act_tidy tidy a)).trans (act_capacity tidy a)

theorem dropped_cons (a : RouterAct) (acts : List RouterAct) :
    d.dropped (a :: acts) = (d.deed? a).elim [] d.table.parts ++ (d.act a).dropped acts := by
  rw [parts_eq]
  rfl

theorem run_lags (tidy : d.table.Tidy) (acts : List RouterAct) :
    Router.lags ((d.run acts).table.streams ++ d.dropped acts) + d.table.laggedTotal =
      Router.lags d.table.streams + (d.run acts).table.laggedTotal := by
  induction acts generalizing d with
  | nil => simp [run, dropped, trace]
  | cons a acts ih =>
      have later := ih (act_tidy tidy a)
      have now : Router.lags (d.act a).table.streams + Router.lags ((d.deed? a).elim [] d.table.parts) +
          d.table.laggedTotal = Router.lags d.table.streams + (d.act a).table.laggedTotal := by
        rw [act_table tidy]
        cases d.deed? a with
        | none => rfl
        | some deed => exact Router.perform_lags deed
      have ends : d.run (a :: acts) = (d.act a).run acts := rfl
      rw [dropped_cons, ends]
      simp only [Router.lags_append] at later ⊢
      omega

theorem opens_eq (a : RouterAct) :
    (d.deed? a).elim [] d.table.opens = if a.subscribes then [d.table.nextId] else [] := by
  cases a with
  | move key | abort key =>
      simp only [deed?]
      cases d.wait? key <;> rfl
  | _ => rfl

theorem run_ids (tidy : d.table.Tidy) (acts : List RouterAct) :
    (((d.run acts).table.streams ++ d.dropped acts).map (·.id)).Perm
      (d.table.streams.map (·.id) ++ List.range' d.table.nextId (acts.countP (·.subscribes))) := by
  induction acts generalizing d with
  | nil => simp [run, dropped, trace]
  | cons a acts ih =>
      have later := ih (act_tidy tidy a)
      have now : (((d.act a).table.streams ++ (d.deed? a).elim [] d.table.parts).map (·.id)).Perm
          (d.table.streams.map (·.id) ++ if a.subscribes then [d.table.nextId] else []) := by
        rw [← opens_eq, act_table tidy]
        cases d.deed? a with
        | none => simp
        | some deed => exact Router.perform_ids deed
      have next : (d.act a).table.nextId = d.table.nextId + if a.subscribes then 1 else 0 := by
        have length := congrArg List.length (opens_eq (d := d) a)
        rw [apply_ite List.length] at length
        rw [← List.length_singleton (a := d.table.nextId), ← List.length_nil (α := Nat), ← length, act_table tidy]
        cases d.deed? a with
        | none => rfl
        | some deed => exact Router.perform_next deed
      have numbers : List.range' d.table.nextId ((a :: acts).countP (·.subscribes)) =
          (if a.subscribes then [d.table.nextId] else []) ++
            List.range' (d.act a).table.nextId (acts.countP (·.subscribes)) := by
        rw [next, List.countP_cons]
        cases a.subscribes <;> simp [List.range'_succ]
      have ends : d.run (a :: acts) = (d.act a).run acts := rfl
      rw [dropped_cons, ends, numbers]
      rw [List.perm_iff_count] at later now ⊢
      intro id
      have first := now id
      have rest := later id
      simp only [List.map_append, List.count_append] at first rest ⊢
      omega

theorem dropped_bounded (tidy : d.table.Tidy) (acts : List RouterAct) :
    ∀ s ∈ d.dropped acts, s.buffer.length ≤ d.table.capacity := by
  intro s member
  obtain ⟨⟨then_, a⟩, made, held⟩ := List.mem_flatMap.mp member
  obtain ⟨before, after, rfl, rfl⟩ := mem_trace act d acts then_ a made
  have bound := (run_tidy tidy before).bounded s (List.mem_filter.mp held).1
  rw [run_capacity tidy] at bound
  exact bound

-- What a new subscriber has before anything happens.
def inbox (d : RouterDesk) (filter : Filter) : Inbox :=
  { capacity := d.table.capacity, filter, phase := if d.table.closed then .closed else .registered }

theorem inbox_there (filter : Filter) : (d.inbox filter).phase ≠ .dropped := by
  simp only [inbox]
  split <;> simp

theorem subscribe_shows (tidy : d.table.Tidy) (filter : Filter) :
    (d.act (.subscribe filter)).table.Shows (d.table.subscribe filter).1 (d.inbox filter) :=
  Router.subscribe_shows tidy filter

theorem subscriber_account (tidy : d.table.Tidy) (filter : Filter) (acts : List RouterAct) :
    let stream := (d.table.subscribe filter).1
    let entry := d.act (.subscribe filter)
    let offers := entry.offered stream filter acts
    ∃ s ∈ (entry.run acts).table.streams ++ entry.dropped acts, s.id = stream ∧
      entry.yielded stream acts ++ s.buffer = Offer.kept d.table.capacity offers ∧
      s.lagged = Offer.lost d.table.capacity offers := by
  intro stream entry offers
  have entered : entry.table.Tidy := act_tidy tidy _
  have shows_ := subscribe_shows tidy filter
  have there := inbox_there (d := d) filter
  have taken := (run_shows entered shows_ acts).2
  have same : offers = (d.inbox filter).offers (entry.noticed stream acts) := offered_eq entered shows_ there acts
  obtain ⟨now, lag⟩ := Inbox.touches_account (b := d.inbox filter) (entry.noticed stream acts)
  refine ⟨_, run_remains entered shows_ there acts, rfl, ?_, ?_⟩
  · rw [taken, same]
    exact now
  · rw [same, lag]
    exact Nat.zero_add _

theorem experience_eq (tidy : d.table.Tidy) (filter : Filter) (acts : List RouterAct) :
    let b := d.inbox filter
    let ts := (d.act (.subscribe filter)).noticed (d.table.subscribe filter).1 acts
    d.experience filter acts = (b.given ts,
      if (b.touches ts).phase = .dropped then none else some ((b.touches ts).buffer, (b.touches ts).lagged)) := by
  intro b ts
  have entered : (d.act (.subscribe filter)).table.Tidy := act_tidy tidy _
  obtain ⟨shows_, taken⟩ := run_shows entered (subscribe_shows tidy filter) acts
  simp only [experience]
  rw [taken, shows_.held]
  by_cases gone : (b.touches ts).phase = .dropped
  · rw [if_pos gone, if_pos gone]
    rfl
  · rw [if_neg gone, if_neg gone]
    rfl

end

theorem streams_account_for_events (capacity : Nat) (acts : List RouterAct) :
    let start := opened capacity
    let d := start.run acts
    let streams := d.table.streams ++ start.dropped acts
    let room := max capacity 1
    (∀ before filter later, acts = before ++ .subscribe filter :: later →
      let stream := ((start.run before).table.subscribe filter).1
      let entry := (start.run before).act (.subscribe filter)
      let offers := entry.offered stream filter later
      (∃ s ∈ streams, s.id = stream) ∧ ∀ s ∈ streams, s.id = stream →
        entry.yielded stream later ++ s.buffer = Offer.kept room offers ∧ s.lagged = Offer.lost room offers) ∧
    (∀ s ∈ streams, s.buffer.length ≤ room) ∧
    (∀ e, (d.table.dispatch e).1 =
      (d.table.streams.filter fun s => (d.table.dispatch e).2.buffered s.id == s.buffer ++ [e]).length) ∧
    d.table.laggedTotal = Router.lags streams ∧
    (streams.map (·.id)).Perm (List.range' 1 (acts.countP (·.subscribes))) ∧
    ∀ before filter later later',
      (start.run before).table.closed = d.table.closed →
      ((start.run before).act (.subscribe filter)).noticed ((start.run before).table.subscribe filter).1 later =
        (d.act (.subscribe filter)).noticed (d.table.subscribe filter).1 later' →
      (start.run before).experience filter later = d.experience filter later' := by
  intro start d streams room
  have tidy : start.table.Tidy := Router.opened_tidy capacity
  have ids : (streams.map (·.id)).Perm (List.range' 1 (acts.countP (·.subscribes))) := run_ids tidy acts
  have capacities : ∀ acts, (start.run acts).table.capacity = room := run_capacity tidy
  refine ⟨?_, ?_, ?_, ?_, ids, ?_⟩
  · intro before filter later made stream entry offers
    obtain ⟨s, member, own, account, lost⟩ := subscriber_account (run_tidy tidy before) filter later
    rw [capacities before] at account lost
    have held : s ∈ streams := by
      have ends : start.run acts = entry.run later := by simp only [made, run, List.foldl_append, List.foldl_cons]; rfl
      have parts : start.dropped acts = start.dropped before ++ (entry.dropped later) := by
        rw [made, dropped, trace_append, List.flatMap_append]
        exact congrArg _ (dropped_cons (.subscribe filter) later)
      simp only [streams, d, ends, parts]
      rcases List.mem_append.mp member with now | gone
      · exact List.mem_append_left _ now
      · exact List.mem_append_right _ (List.mem_append_right _ gone)
    refine ⟨⟨s, held, own⟩, ?_⟩
    intro other also same
    have distinct : (streams.map (·.id)).Nodup := ids.nodup_iff.mpr List.nodup_range'
    rw [List.inj_on_of_nodup_map distinct also held (same.trans own.symm)]
    exact ⟨account, lost⟩
  · intro s member
    rw [← capacities acts]
    rcases List.mem_append.mp member with now | gone
    · exact (run_tidy tidy acts).bounded s now
    · rw [capacities acts]
      exact dropped_bounded tidy acts s gone
  · exact Router.dispatch_count (run_tidy tidy acts)
  · have lost := run_lags tidy acts
    have none_ : start.table.laggedTotal = 0 ∧ Router.lags start.table.streams = 0 := ⟨rfl, rfl⟩
    rw [none_.1, none_.2, Nat.zero_add] at lost
    exact lost.symm
  · intro before filter later later' closed noticed
    rw [experience_eq (run_tidy tidy before), experience_eq (run_tidy tidy acts)]
    simp only [inbox, capacities, closed, noticed]
    rfl

def loaded : Event := ⟨"Page.loaded", none, none⟩

def logged : Event := ⟨"Log.added", none, none⟩

def mixedActs : List RouterAct :=
  [.subscribe .any, .subscribe (.ofMethod "Log.added"), .dispatch loaded, .dispatch logged,
    .wait ⟨1, ⟨9, .ofMilliseconds 9⟩⟩,
    .move 0, .drain 2, .wait ⟨2, ⟨9, .ofMilliseconds 9⟩⟩, .advance 9, .move 1, .dispatch logged, .drop 2, .close,
      .dispatch loaded]

theorem streams_account_for_events_mixed :
    let start := opened 1
    let d := start.run mixedActs
    let streams := d.table.streams ++ start.dropped mixedActs
    (∃ s ∈ streams, s.id = 1) ∧
      (∀ s ∈ streams, s.id = 1 → [loaded] ++ s.buffer = [loaded, logged] ∧ s.lagged = 1) ∧ d.table.laggedTotal = 1 ∧
      start.experience .any [.dispatch loaded, .recv 1] =
        (start.run [.subscribe .any, .dispatch logged]).experience .any [.recv 1, .dispatch loaded, .recv 2] := by
  obtain ⟨each, -, -, total, -, -⟩ := streams_account_for_events 1 mixedActs
  obtain ⟨-, -, -, -, -, alone⟩ := streams_account_for_events 1 [.subscribe .any, .dispatch logged]
  obtain ⟨there, account⟩ := each [] .any (mixedActs.drop 1) rfl
  exact ⟨there, account, total, alone [] .any _ _ rfl (by decide)⟩

end RouterDesk

end DevTools
