import DevTools.Event.Router

set_option autoImplicit false

namespace DevTools.Router

def handed (r : Router) (id : Nat) : List Event :=
  match r.peek id with
  | .event e => [e]
  | _ => []

def buffered (r : Router) (id : Nat) : List Event := (r.drain id).1

-- Numbers are given out in order.
def Numbered (r : Router) : Prop := ∀ s ∈ r.streams, s.id < r.nextId

structure Drains (id : Nat) (r : Router) (taken : List Event) (after : Router) : Prop where
  rest : (after.stream? id).isSome = true → (r.stream? id).isSome = true ∧ r.buffered id = taken ++ after.buffered id
  taken : taken <+: r.buffered id
  next : r.nextId ≤ after.nextId

section
variable {r : Router} {id : Nat}

theorem buffered_eq : r.buffered id = ((r.stream? id).map (·.buffer)).getD [] := rfl

theorem buffered_missing (missing : (r.stream? id).isSome = false) : r.buffered id = [] := by
  rw [Option.isSome_eq_false_iff, Option.isNone_iff_eq_none] at missing
  simp [buffered_eq, missing]

theorem peek_unregistered (nobody : r.subscribers = []) :
    r.peek id = match r.buffered id with
      | e :: _ => .event e
      | [] => .ended := by
  simp only [peek, buffered_eq]
  cases r.stream? id with
  | none => rfl
  | some s => cases holds : s.buffer <;> simp [holds, isRegistered, nobody]

theorem stream_map (f : Stream → Stream) (same : ∀ s, (f s).id = s.id) :
    (r.streams.map f).find? (·.id == id) = (r.stream? id).map f := by
  simp only [List.find?_map, stream?]
  congr 2
  funext s
  simp only [Function.comp, same]

theorem take_stream (own : Nat) :
    (r.take own).2.stream? id = (r.stream? id).map fun s => if s.id == own then s.advance else s :=
  stream_map _ fun s => by split <;> rfl

theorem drain_stream (own : Nat) :
    (r.drain own).2.stream? id = (r.stream? id).map fun s => if s.id == own then { s with buffer := [] } else s :=
  stream_map _ fun s => by split <;> rfl

theorem drop_stream (own : Nat) : (r.drop own).stream? id = if own = id then none else r.stream? id := by
  simp only [stream?, drop, List.find?_filter]
  split
  · next same =>
      rw [List.find?_eq_none]
      intro s _
      by_cases mine : s.id = id <;> simp [mine, same]
  · next other =>
      congr 1
      funext s
      by_cases mine : s.id = id
      · simp [mine, Ne.symm other]
      · simp [mine]

theorem fresh_stream (numbered : r.Numbered) : r.stream? r.nextId = none := by
  rw [stream?, List.find?_eq_none]
  intro s member same
  have bound := numbered s member
  rw [beq_iff_eq.mp same] at bound
  exact Nat.lt_irrefl _ bound

theorem stream_id (s : Stream) (found : r.stream? id = some s) : s.id = id := by
  simpa using List.find?_some found

theorem drains_none (after : Router) (same : after.stream? id = r.stream? id) (next : r.nextId ≤ after.nextId) :
    Drains id r [] after := by
  refine ⟨?_, List.nil_prefix, next⟩
  intro present
  rw [same] at present
  exact ⟨present, by simp only [buffered_eq, same, List.nil_append]⟩

theorem drains_trans (middle after : Router) (first second : List Event) (left : Drains id r first middle)
    (right : Drains id middle second after) : Drains id r (first ++ second) after := by
  refine ⟨?_, ?_, Nat.le_trans left.next right.next⟩
  · intro present
    obtain ⟨between, later⟩ := right.rest present
    obtain ⟨before, holds⟩ := left.rest between
    exact ⟨before, by rw [holds, later, List.append_assoc]⟩
  · by_cases between : (middle.stream? id).isSome = true
    · rw [(left.rest between).2]
      exact (List.prefix_append_right_inj first).mpr right.taken
    · have empty := right.taken
      rw [buffered_missing (eq_false_of_ne_true between), List.prefix_nil] at empty
      rw [empty, List.append_nil]
      exact left.taken

theorem drains_take (own : Nat) : Drains id r (if own == id then r.handed id else []) (r.take own).2 := by
  cases found : r.stream? id with
  | none =>
      have missing : (r.take own).2.stream? id = none := by rw [take_stream, found, Option.map_none]
      have nothing : (if own == id then r.handed id else []) = [] := by
        by_cases mine : own = id
        · simp [mine, handed, peek, found]
        · simp [mine]
      rw [nothing]
      exact drains_none _ (missing.trans found.symm) (Nat.le_refl _)
  | some s =>
      have own_id := stream_id s found
      have moved : (r.take own).2.stream? id = some (if s.id == own then s.advance else s) := by
        rw [take_stream, found, Option.map_some]
      by_cases mine : own = id
      · subst mine
        rw [own_id] at moved
        simp only [beq_self_eq_true, if_true] at moved ⊢
        have holds : r.buffered own = s.buffer := by simp [buffered_eq, found]
        have left : (r.take own).2.buffered own = s.buffer.tail := by simp [buffered_eq, moved, Stream.advance]
        have split : s.buffer = r.handed own ++ s.buffer.tail := by
          simp only [handed, peek, found]
          cases s.buffer with
          | nil => cases r.isRegistered own <;> rfl
          | cons e rest => rfl
        refine ⟨fun _ => ⟨by simp [found], by rw [holds, left]; exact split⟩, ?_, Nat.le_refl _⟩
        rw [holds]
        exact ⟨_, split.symm⟩
      · have still : (r.take own).2.stream? id = r.stream? id := by
          rw [moved, found, own_id, if_neg (by simpa using Ne.symm mine)]
        simp only [beq_eq_false_iff_ne.mpr mine, Bool.false_eq_true, if_false]
        exact drains_none _ still (Nat.le_refl _)

theorem drains_drain (own : Nat) : Drains id r (if own == id then (r.drain id).1 else []) (r.drain own).2 := by
  by_cases mine : own = id
  · subst mine
    simp only [beq_self_eq_true, if_true]
    refine ⟨?_, List.prefix_rfl, Nat.le_refl _⟩
    intro present
    rw [drain_stream, Option.isSome_map] at present
    obtain ⟨s, found⟩ := Option.isSome_iff_exists.mp present
    refine ⟨present, ?_⟩
    have empty : (r.drain own).2.buffered own = [] := by
      simp [buffered_eq, drain_stream, found, stream_id s found]
    rw [empty, List.append_nil]
    rfl
  · have still : (r.drain own).2.stream? id = r.stream? id := by
      rw [drain_stream]
      cases found : r.stream? id with
      | none => rfl
      | some s => simp [stream_id s found, Ne.symm mine]
    simp only [beq_eq_false_iff_ne.mpr mine, Bool.false_eq_true, if_false]
    exact drains_none _ still (Nat.le_refl _)

theorem drains_drop (own : Nat) : Drains id r [] (r.drop own) := by
  by_cases mine : own = id
  · refine ⟨?_, List.nil_prefix, Nat.le_refl _⟩
    intro present
    rw [drop_stream, if_pos mine] at present
    cases present
  · refine drains_none _ ?_ (Nat.le_refl _)
    rw [drop_stream, if_neg mine]

theorem subscribe_stream (filter : Filter) (old : id < r.nextId) :
    (r.subscribe filter).2.stream? id = r.stream? id := by
  simp only [stream?, subscribe, List.find?_append]
  cases r.streams.find? (·.id == id) with
  | some s => rfl
  | none =>
      have other : r.nextId ≠ id := Nat.ne_of_gt old
      simp [other]

theorem drains_subscribe (filter : Filter) (old : id < r.nextId) : Drains id r [] (r.subscribe filter).2 :=
  drains_none _ (subscribe_stream filter old) (Nat.le_succ _)

theorem subscribe_buffered (filter : Filter) (numbered : r.Numbered) :
    (r.subscribe filter).2.buffered (r.subscribe filter).1 = [] := by
  have fresh := fresh_stream numbered
  simp only [stream?] at fresh
  simp [buffered_eq, stream?, subscribe, List.find?_append, fresh]

theorem numbered_map (numbered : r.Numbered) (f : Stream → Stream) (same : ∀ s, (f s).id = s.id) (after : Router)
    (streams : after.streams = r.streams.map f) (next : after.nextId = r.nextId) : after.Numbered := by
  intro s member
  rw [streams] at member
  obtain ⟨old, held, rfl⟩ := List.mem_map.mp member
  rw [same, next]
  exact numbered old held

theorem subscribe_numbered (numbered : r.Numbered) (filter : Filter) : (r.subscribe filter).2.Numbered := by
  intro s member
  rcases List.mem_append.mp member with old | new
  · exact Nat.lt_succ_of_lt (numbered s old)
  · rw [List.mem_singleton.mp new]
    exact Nat.lt_succ_self _

theorem drop_numbered (numbered : r.Numbered) (own : Nat) : (r.drop own).Numbered := by
  intro s member
  exact numbered s (List.mem_filter.mp member).1

theorem offer_id (e : Event) (s : Stream) : (r.offer e s).id = s.id := by
  simp only [offer]
  split
  · split <;> rfl
  · rfl

theorem close_numbered (numbered : r.Numbered) : r.close.2.Numbered := by
  simp only [close]
  split <;> exact numbered

end

end DevTools.Router
