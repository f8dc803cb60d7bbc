import DevTools.Proofs.Event.Inbox
import DevTools.Proofs.Event.Stream
import Mathlib.Data.List.Nodup

set_option autoImplicit false

namespace DevTools

inductive RouterDeed where
  | subscribe (filter : Filter)
  | dispatch (e : Event)
  | take (stream : Nat)
  | drain (stream : Nat)
  | drop (stream : Nat)
  | close

def RouterDeed.touch? (stream : Nat) : RouterDeed → Option Touch
  | subscribe _ => none
  | dispatch e => some (.event e)
  | take own => if own == stream then some .take else none
  | drain own => if own == stream then some .drain else none
  | drop own => if own == stream then some .drop else none
  | close => some .close

namespace Router

def perform (r : Router) : RouterDeed → Router
  | .subscribe filter => (r.subscribe filter).2
  | .dispatch e => (r.dispatch e).2
  | .take stream => (r.take stream).2
  | .drain stream => (r.drain stream).2
  | .drop stream => r.drop stream
  | .close => r.close.2

def gives (r : Router) (stream : Nat) : RouterDeed → List Event
  | .take own => if own == stream then r.handed stream else []
  | .drain own => if own == stream then (r.drain stream).1 else []
  | _ => []

def parts (r : Router) : RouterDeed → List Stream
  | .drop own => r.streams.filter (·.id == own)
  | _ => []

def opens (r : Router) : RouterDeed → List Nat
  | .subscribe filter => [(r.subscribe filter).1]
  | _ => []

def lags (streams : List Stream) : Nat := streams.foldr (fun s n => s.lagged + n) 0

structure Tidy (r : Router) : Prop where
  distinct : (r.streams.map (·.id)).Nodup
  numbered : r.Numbered
  owned : ∀ sub ∈ r.subscribers, sub.id < r.nextId
  quiet : r.closed = true → r.subscribers = []
  bounded : ∀ s ∈ r.streams, s.buffer.length ≤ r.capacity

structure Shows (r : Router) (stream : Nat) (b : Inbox) : Prop where
  capacity : b.capacity = r.capacity
  old : stream < r.nextId
  held : r.stream? stream = if b.phase = .dropped then none else some ⟨stream, b.buffer, b.lagged⟩
  wants : ∀ e, (r.subscribers.any fun sub => sub.id == stream && sub.filter.accepts e) = b.wants e
  closed : b.phase ≠ .dropped → (r.closed = true ↔ b.phase = .closed)

theorem opened_tidy (capacity : Nat) : (ofCapacity capacity).Tidy :=
  ⟨List.nodup_nil, fun s member => (by cases member), fun sub member => (by cases member), fun _ => rfl,
    fun s member => (by cases member)⟩

section
variable {r : Router}

theorem tidy_map (tidy : r.Tidy) (f : Stream → Stream) (same : ∀ s, (f s).id = s.id)
    (bounded : ∀ s ∈ r.streams, (f s).buffer.length ≤ r.capacity) (subscribers : List Subscriber)
    (fewer : subscribers.Sublist r.subscribers) (laggedTotal : Nat) :
    ({ r with streams := r.streams.map f, subscribers, laggedTotal } : Router).Tidy := by
  have ids : (r.streams.map f).map (·.id) = r.streams.map (·.id) := by
    rw [List.map_map]
    exact List.map_congr_left fun s _ => same s
  refine ⟨by rw [ids]; exact tidy.distinct, numbered_map tidy.numbered f same _ rfl rfl, ?_, ?_, ?_⟩
  · exact fun sub member => tidy.owned sub (fewer.subset member)
  · intro closed
    exact List.sublist_nil.mp (tidy.quiet closed ▸ fewer)
  · intro s member
    obtain ⟨old, held, rfl⟩ := List.mem_map.mp member
    exact bounded old held

theorem offer_bounded (e : Event) (s : Stream) (bounded : s.buffer.length ≤ r.capacity) :
    (r.offer e s).buffer.length ≤ r.capacity := by
  simp only [offer, hasRoom, decide_eq_true_eq]
  split
  · split
    · next room =>
        rw [List.length_append]
        exact room
    · exact bounded
  · exact bounded

theorem perform_tidy (tidy : r.Tidy) (d : RouterDeed) : (r.perform d).Tidy := by
  cases d with
  | subscribe filter =>
      refine ⟨?_, subscribe_numbered tidy.numbered filter, ?_, ?_, ?_⟩
      · simp only [perform, subscribe, List.map_append, List.map_cons, List.map_nil]
        rw [← List.concat_eq_append, List.nodup_concat]
        refine ⟨?_, tidy.distinct⟩
        intro member
        obtain ⟨s, held, same⟩ := List.mem_map.mp member
        exact absurd (tidy.numbered s held) (by omega)
      · intro sub member
        simp only [perform, subscribe] at member ⊢
        split at member
        · exact Nat.lt_succ_of_lt (tidy.owned sub member)
        · rcases List.mem_append.mp member with old | new
          · exact Nat.lt_succ_of_lt (tidy.owned sub old)
          · rw [List.mem_singleton.mp new]
            exact Nat.lt_succ_self _
      · intro closed
        have quiet := tidy.quiet closed
        have shut : r.closed = true := closed
        simp [perform, subscribe, shut, quiet]
      · intro s member
        rcases List.mem_append.mp member with old | new
        · exact tidy.bounded s old
        · rw [List.mem_singleton.mp new]
          exact Nat.zero_le _
  | dispatch e =>
      exact tidy_map tidy (r.offer e) (offer_id e) (fun s member => offer_bounded e s (tidy.bounded s member)) _
        List.filter_sublist _
  | take stream =>
      refine tidy_map tidy (fun s => if s.id == stream then s.advance else s) (fun s => by split <;> rfl) ?_ _
        (List.Sublist.refl _) _
      intro s member
      have bound := tidy.bounded s member
      split
      · simp only [Stream.advance, List.length_tail]
        omega
      · exact bound
  | drain stream =>
      refine tidy_map tidy (fun s => if s.id == stream then { s with buffer := [] } else s)
        (fun s => by split <;> rfl) ?_ _ (List.Sublist.refl _) _
      intro s member
      split
      · exact Nat.zero_le _
      · exact tidy.bounded s member
  | drop stream =>
      refine ⟨tidy.distinct.sublist (List.filter_sublist.map _), drop_numbered tidy.numbered stream, ?_, ?_, ?_⟩
      · exact fun sub member => tidy.owned sub (List.mem_filter.mp member).1
      · intro closed
        simp [perform, drop, tidy.quiet closed]
      · exact fun s member => tidy.bounded s (List.mem_filter.mp member).1
  | close =>
      simp only [perform, close]
      split
      · exact tidy
      · exact ⟨tidy.distinct, tidy.numbered, fun sub member => (by cases member), fun _ => rfl, tidy.bounded⟩

theorem perform_capacity (d : RouterDeed) : (r.perform d).capacity = r.capacity := by
  cases d with
  | close =>
      simp only [perform, close]
      split <;> rfl
  | _ => rfl

section
variable {stream : Nat} {b : Inbox}

theorem shows_handed (shows_ : r.Shows stream b) : r.handed stream = b.gives .take := by
  simp only [handed, peek, shows_.held, Inbox.gives]
  by_cases gone : b.phase = .dropped
  · simp [gone]
  · cases holds : b.buffer with
    | nil => cases registered : r.isRegistered stream <;> simp [gone]
    | cons e rest => simp [gone]

theorem perform_gives (shows_ : r.Shows stream b) (d : RouterDeed) :
    r.gives stream d = (d.touch? stream).elim [] b.gives := by
  cases d with
  | take own =>
      by_cases mine : own = stream
      · simpa [gives, RouterDeed.touch?, mine] using shows_handed shows_
      · simp [gives, RouterDeed.touch?, mine]
  | drain own =>
      by_cases mine : own = stream
      · simp only [gives, RouterDeed.touch?, mine, beq_self_eq_true, if_true, Option.elim_some, drain,
          shows_.held, Inbox.gives]
        split <;> rfl
      · simp [gives, RouterDeed.touch?, mine]
  | drop own => by_cases mine : own = stream <;> simp [gives, RouterDeed.touch?, Inbox.gives, mine]
  | subscribe | dispatch | close => rfl

theorem subscribe_shows (tidy : r.Tidy) (filter : Filter) :
    (r.subscribe filter).2.Shows (r.subscribe filter).1
      { capacity := r.capacity, filter, phase := if r.closed then .closed else .registered } := by
  have fresh := fresh_stream tidy.numbered
  simp only [stream?] at fresh
  have nobody : ∀ e, (r.subscribers.any fun sub => sub.id == r.nextId && sub.filter.accepts e) = false := by
    intro e
    rw [List.any_eq_false]
    intro sub member
    have other : sub.id ≠ r.nextId := Nat.ne_of_lt (tidy.owned sub member)
    simp [other]
  refine ⟨rfl, Nat.lt_succ_self _, ?_, ?_, ?_⟩
  · cases closed : r.closed <;> simp [stream?, subscribe, List.find?_append, fresh]
  · intro e
    cases closed : r.closed <;> simp [subscribe, closed, List.any_append, nobody, Inbox.wants]
  · intro _
    cases closed : r.closed <;> simp [subscribe, closed]

theorem shows_other (shows_ : r.Shows stream b) (after : Router) (capacity : after.capacity = r.capacity)
    (next : r.nextId ≤ after.nextId) (held : after.stream? stream = r.stream? stream) (closed : after.closed = r.closed)
    (wants : ∀ e, (after.subscribers.any fun sub => sub.id == stream && sub.filter.accepts e) =
      r.subscribers.any fun sub => sub.id == stream && sub.filter.accepts e) : after.Shows stream b := by
  refine ⟨shows_.capacity.trans capacity.symm, Nat.lt_of_lt_of_le shows_.old next, held.trans shows_.held, ?_, ?_⟩
  · exact fun e => (wants e).trans (shows_.wants e)
  · rw [closed]
    exact shows_.closed

theorem dispatch_shows (shows_ : r.Shows stream b) (e : Event) :
    (r.dispatch e).2.Shows stream (b.touch (.event e)) := by
  have moved : (r.dispatch e).2.stream? stream = (r.stream? stream).map (r.offer e) := stream_map _ (offer_id e)
  have held := shows_.held
  have still : ∀ other, ((r.dispatch e).2.subscribers.any fun sub => sub.id == stream && sub.filter.accepts other) =
      r.subscribers.any fun sub => sub.id == stream && sub.filter.accepts other := by
    intro other
    cases present : (r.stream? stream).isSome with
    | true =>
        simp only [dispatch, List.any_filter]
        congr 1
        funext sub
        by_cases mine : sub.id = stream <;> simp [mine, present]
    | false =>
        have gone : b.phase = .dropped := by
          by_contra notGone
          rw [held, if_neg notGone] at present
          cases present
        have nobody : (r.subscribers.any fun sub => sub.id == stream && sub.filter.accepts other) = false := by
          rw [shows_.wants]
          simp [Inbox.wants, gone]
        rw [nobody, List.any_eq_false]
        rw [List.any_eq_false] at nobody
        exact fun sub member => nobody sub (List.mem_filter.mp member).1
  by_cases gone : b.phase = .dropped
  · have deaf : b.touch (.event e) = b := by simp [Inbox.touch, Inbox.wants, gone]
    rw [deaf]
    refine shows_other shows_ _ rfl (Nat.le_refl _) ?_ rfl still
    rw [moved, held, if_pos gone]
    rfl
  · rw [if_neg gone] at held
    have wanted : r.wants e ⟨stream, b.buffer, b.lagged⟩ = b.wants e := shows_.wants e
    have room : r.hasRoom ⟨stream, b.buffer, b.lagged⟩ = decide (b.buffer.length < b.capacity) := by
      rw [hasRoom, shows_.capacity]
    rw [held, Option.map_some, offer, wanted, room] at moved
    cases wants : b.wants e with
    | false =>
        have deaf : b.touch (.event e) = b := by simp [Inbox.touch, wants]
        rw [deaf]
        refine shows_other shows_ _ rfl (Nat.le_refl _) ?_ rfl still
        rw [moved, held, wants]
        rfl
    | true =>
        have takes : b.touch (.event e) = b.put e := by simp [Inbox.touch, wants]
        have phase : (b.put e).phase = b.phase := by
          simp only [Inbox.put]
          split <;> rfl
        rw [takes]
        refine ⟨?_, shows_.old, ?_, ?_, ?_⟩
        · rw [← takes, (Inbox.touch_fixed _).1]
          exact shows_.capacity
        · rw [moved, wants, phase, if_neg gone]
          by_cases fits : b.buffer.length < b.capacity <;> simp [Inbox.put, fits]
        · intro other
          rw [still, shows_.wants, Inbox.wants, Inbox.wants, phase, ← takes, (Inbox.touch_fixed _).2]
        · rw [phase]
          exact shows_.closed

theorem edit_shows (shows_ : r.Shows stream b) (own : Nat) (f : Stream → Stream)
    (same : ∀ s, (f s).id = s.id) (t : Touch)
    (touches : b.touch t = if b.phase = .dropped then b
      else { b with buffer := (f ⟨stream, b.buffer, b.lagged⟩).buffer })
    (lagged : ∀ s, (f s).lagged = s.lagged) :
    ({ r with streams := r.streams.map fun s => if s.id == own then f s else s } : Router).Shows stream
      ((if own == stream then some t else none).elim b b.touch) := by
  have moved : ({ r with streams := r.streams.map fun s => if s.id == own then f s else s } : Router).stream? stream =
      (r.stream? stream).map fun s => if s.id == own then f s else s :=
    stream_map _ fun s => by split <;> simp only [same]
  by_cases mine : own = stream
  · rw [if_pos (beq_iff_eq.mpr mine), Option.elim_some, touches]
    split
    · next gone =>
        refine shows_other shows_ _ rfl (Nat.le_refl _) ?_ rfl (fun _ => rfl)
        rw [moved, shows_.held, if_pos gone]
        rfl
    · next there =>
        refine ⟨shows_.capacity, shows_.old, ?_, shows_.wants, shows_.closed⟩
        rw [moved, shows_.held, if_neg there, if_neg there, Option.map_some, if_pos (beq_iff_eq.mpr mine.symm)]
        have ids := same ⟨stream, b.buffer, b.lagged⟩
        have counts := lagged ⟨stream, b.buffer, b.lagged⟩
        generalize f ⟨stream, b.buffer, b.lagged⟩ = edited at ids counts ⊢
        obtain ⟨id, buffer, count⟩ := edited
        cases ids
        cases counts
        rfl
  · rw [if_neg (by simpa using mine), Option.elim_none]
    refine shows_other shows_ _ rfl (Nat.le_refl _) ?_ rfl (fun _ => rfl)
    rw [moved, shows_.held]
    split
    · rfl
    · simp [Ne.symm mine]

theorem perform_shows (shows_ : r.Shows stream b) (quiet : r.closed = true → r.subscribers = []) (d : RouterDeed) :
    (r.perform d).Shows stream ((d.touch? stream).elim b b.touch) := by
  cases d with
  | dispatch e => exact dispatch_shows shows_ e
  | subscribe filter =>
      have other : r.nextId ≠ stream := Nat.ne_of_gt shows_.old
      refine shows_other shows_ _ rfl (Nat.le_succ _) (subscribe_stream filter shows_.old) rfl ?_
      intro e
      simp only [perform, subscribe]
      split
      · rfl
      · simp [List.any_append, other]
  | take own => exact edit_shows shows_ own Stream.advance (fun _ => rfl) .take rfl (fun _ => rfl)
  | drain own => exact edit_shows shows_ own (fun s => { s with buffer := [] }) (fun _ => rfl) .drain rfl (fun _ => rfl)
  | drop own =>
      by_cases mine : own = stream
      · subst mine
        simp only [perform, RouterDeed.touch?, beq_self_eq_true, if_true, Option.elim_some, Inbox.touch]
        refine ⟨shows_.capacity, shows_.old, by simp [drop_stream], ?_, fun there => absurd rfl there⟩
        intro e
        simp only [drop, List.any_filter, Inbox.wants]
        rw [List.any_eq_false.mpr]
        · rfl
        · intro sub _
          by_cases own_ : sub.id = own <;> simp [own_]
      · simp only [perform, RouterDeed.touch?, beq_eq_false_iff_ne.mpr mine, Bool.false_eq_true, if_false,
          Option.elim_none]
        refine shows_other shows_ _ rfl (Nat.le_refl _) ?_ rfl ?_
        · rw [drop_stream, if_neg mine]
        · intro e
          simp only [drop, List.any_filter]
          congr 1
          funext sub
          by_cases other : sub.id = stream
          · simp [other, Ne.symm mine]
          · simp [other]
  | close =>
      simp only [perform, RouterDeed.touch?, Option.elim_some, close, Inbox.touch]
      by_cases gone : b.phase = .dropped
      · rw [if_pos gone]
        split
        · exact shows_
        · refine ⟨shows_.capacity, shows_.old, shows_.held, ?_, fun there => absurd gone there⟩
          simp [Inbox.wants, gone]
      · rw [if_neg gone]
        have held := shows_.held
        rw [if_neg gone] at held
        cases shut : r.closed with
        | true =>
            have nobody := quiet shut
            refine ⟨shows_.capacity, shows_.old, by simpa using held, ?_, fun _ => by simp [shut]⟩
            simp [Inbox.wants, nobody]
        | false => exact ⟨shows_.capacity, shows_.old, by simpa [stream?] using held, by simp [Inbox.wants],
                     fun _ => by simp⟩

end

theorem stream_of_mem (tidy : r.Tidy) (s : Stream) (member : s ∈ r.streams) : r.stream? s.id = some s :=
  find_keyed Stream.id r.streams tidy.distinct s member

-- The number that a dispatch gives is the number of streams that end in the event now.
theorem dispatch_count (tidy : r.Tidy) (e : Event) :
    (r.dispatch e).1 = (r.streams.filter fun s => (r.dispatch e).2.buffered s.id == s.buffer ++ [e]).length := by
  have takes : ∀ s ∈ r.streams, ((r.dispatch e).2.buffered s.id == s.buffer ++ [e]) = (r.wants e s && r.hasRoom s) := by
    intro s member
    have moved : (r.dispatch e).2.stream? s.id = some (r.offer e s) := by
      have mapped : (r.dispatch e).2.stream? s.id = (r.stream? s.id).map (r.offer e) := stream_map _ (offer_id e)
      rw [mapped, stream_of_mem tidy s member, Option.map_some]
    have holds : (r.dispatch e).2.buffered s.id = (r.offer e s).buffer := by rw [buffered_eq, moved]; rfl
    rw [holds, offer]
    cases wanted : r.wants e s with
    | false => simp
    | true => cases room : r.hasRoom s <;> simp
  have split := List.length_eq_length_filter_add (l := r.streams.filter (r.wants e)) r.hasRoom
  rw [List.filter_congr takes, dispatch]
  simp only [List.filter_filter] at split ⊢
  simp only [Bool.and_comm (r.wants e _)]
  omega

theorem lags_append (before after : List Stream) : lags (before ++ after) = lags before + lags after := by
  induction before with
  | nil => exact (Nat.zero_add _).symm
  | cons s before ih =>
      simp only [lags, List.cons_append, List.foldr_cons] at ih ⊢
      omega

theorem lags_map (f : Stream → Stream) (same : ∀ s, (f s).lagged = s.lagged) (streams : List Stream) :
    lags (streams.map f) = lags streams := by
  simp only [lags, List.foldr_map, same]

theorem lags_split (p : Stream → Bool) (streams : List Stream) :
    lags (streams.filter fun s => !p s) + lags (streams.filter p) = lags streams := by
  induction streams with
  | nil => rfl
  | cons s streams ih =>
      simp only [lags] at ih
      cases picked : p s
      · simp only [lags, List.filter_cons, picked, Bool.not_false, Bool.false_eq_true, if_true, if_false,
          List.foldr_cons]
        omega
      · simp only [lags, List.filter_cons, picked, Bool.not_true, Bool.false_eq_true, if_true, if_false,
          List.foldr_cons]
        omega

theorem lags_offer (e : Event) (streams : List Stream) : lags (streams.map (r.offer e)) =
    lags streams + ((streams.filter (r.wants e)).filter fun s => !r.hasRoom s).length := by
  simp only [List.filter_filter]
  induction streams with
  | nil => rfl
  | cons s streams ih =>
      have one : (r.offer e s).lagged = s.lagged + (!r.hasRoom s && r.wants e s).toNat := by
        simp only [offer]
        cases r.wants e s <;> cases r.hasRoom s <;> rfl
      simp only [lags, List.map_cons, List.foldr_cons, List.filter_cons, one] at ih ⊢
      cases !r.hasRoom s && r.wants e s
      · simp only [Bool.toNat_false, Bool.false_eq_true, if_false]
        omega
      · simp only [Bool.toNat_true, if_true, List.length_cons]
        omega

theorem perform_lags (d : RouterDeed) :
    lags (r.perform d).streams + lags (r.parts d) + r.laggedTotal = lags r.streams + (r.perform d).laggedTotal := by
  have nothing : lags [] = 0 := rfl
  cases d with
  | subscribe filter =>
      have fresh : lags [⟨r.nextId, [], 0⟩] = 0 := rfl
      simp only [perform, subscribe, parts, lags_append, fresh, nothing]
      omega
  | dispatch e =>
      simp only [perform, dispatch, parts, lags_offer, nothing]
      omega
  | take own =>
      have same := lags_map (fun s => if s.id == own then s.advance else s) (fun s => by split <;> rfl) r.streams
      simp only [perform, take, parts, same, nothing]
      omega
  | drain own =>
      have same :=
        lags_map (fun s => if s.id == own then { s with buffer := [] } else s) (fun s => by split <;> rfl) r.streams
      simp only [perform, drain, parts, same, nothing]
      omega
  | drop own =>
      have split := lags_split (·.id == own) r.streams
      simp only [perform, drop, parts, bne]
      omega
  | close =>
      simp only [perform, close, parts, nothing]
      split <;> rfl

theorem perform_next (d : RouterDeed) : (r.perform d).nextId = r.nextId + (r.opens d).length := by
  cases d with
  | close =>
      simp only [perform, close]
      split <;> rfl
  | _ => rfl

theorem perform_ids (d : RouterDeed) :
    (((r.perform d).streams ++ r.parts d).map (·.id)).Perm (r.streams.map (·.id) ++ r.opens d) := by
  have edited : ∀ f : Stream → Stream, (∀ s, (f s).id = s.id) →
      (r.streams.map f).map (·.id) = r.streams.map (·.id) := by
    intro f same
    rw [List.map_map]
    exact List.map_congr_left fun s _ => same s
  cases d with
  | subscribe filter => simp [perform, subscribe, parts, opens]
  | dispatch e => simp [perform, dispatch, parts, opens, edited (r.offer e) (offer_id e)]
  | take own =>
      have same := edited (fun s => if s.id == own then s.advance else s) fun s => by split <;> rfl
      simp only [perform, take, parts, opens, List.append_nil, same]
      exact List.Perm.refl _
  | drain own =>
      have same := edited (fun s => if s.id == own then { s with buffer := [] } else s) fun s => by split <;> rfl
      simp only [perform, drain, parts, opens, List.append_nil, same]
      exact List.Perm.refl _
  | drop own =>
      have split := (List.filter_append_perm (·.id == own) r.streams).map (·.id)
      simp only [perform, drop, parts, opens, List.append_nil]
      refine List.Perm.trans ?_ split
      rw [List.map_append, List.map_append]
      exact List.perm_append_comm
  | close =>
      simp only [perform, close, parts, opens, List.append_nil]
      split <;> exact List.Perm.refl _

end

end Router

end DevTools
