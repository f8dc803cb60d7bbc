import DevTools.Proofs.Event.Fanout
import Mathlib.Data.List.Perm.Basic

set_option autoImplicit false

namespace DevTools.Router

def matching (r : Router) (e : Event) : List Subscriber := r.subscribers.filter (·.filter.accepts e)

def isFull (r : Router) (sub : Subscriber) : Bool := r.capacity ≤ (r.buffered sub.id).length

-- Every subscriber has a stream of its own.
structure Staffed (r : Router) : Prop where
  tidy : r.Tidy
  present : ∀ sub ∈ r.subscribers, ∃ s ∈ r.streams, s.id = sub.id
  own : (r.subscribers.map (·.id)).Nodup

section
variable {r : Router}

theorem opened_staffed (capacity : Nat) : (ofCapacity capacity).Staffed :=
  ⟨opened_tidy capacity, (fun _ member => nomatch member), List.nodup_nil⟩

theorem staffed_fewer (staffed : r.Staffed) (after : Router) (tidy : after.Tidy)
    (streams : after.streams.map (·.id) = r.streams.map (·.id))
    (fewer : after.subscribers.Sublist r.subscribers) : after.Staffed where
  tidy := tidy
  present sub member := by
    obtain ⟨s, held, same⟩ := staffed.present sub (fewer.subset member)
    have listed : sub.id ∈ after.streams.map (·.id) := streams ▸ List.mem_map.mpr ⟨s, held, same⟩
    exact List.mem_map.mp listed
  own := staffed.own.sublist (fewer.map _)

theorem perform_staffed (staffed : r.Staffed) (d : RouterDeed) : (r.perform d).Staffed := by
  have tidy := perform_tidy staffed.tidy d
  have edited : ∀ f : Stream → Stream, (∀ s, (f s).id = s.id) →
      (r.streams.map f).map (·.id) = r.streams.map (·.id) := by
    intro f same
    rw [List.map_map]
    exact List.map_congr_left fun s _ => same s
  cases d with
  | subscribe filter =>
      refine ⟨tidy, ?_, ?_⟩
      · intro sub member
        simp only [perform, subscribe] at member ⊢
        split at member
        · obtain ⟨s, held, same⟩ := staffed.present sub member
          exact ⟨s, List.mem_append_left _ held, same⟩
        · rcases List.mem_append.mp member with old | new
          · obtain ⟨s, held, same⟩ := staffed.present sub old
            exact ⟨s, List.mem_append_left _ held, same⟩
          · rw [List.mem_singleton.mp new]
            exact ⟨_, List.mem_append_right _ List.mem_cons_self, rfl⟩
      · simp only [perform, subscribe]
        split
        · exact staffed.own
        · refine keys_concat (·.id) r.subscribers ⟨r.nextId, filter⟩ staffed.own fun sub member => ?_
          exact Nat.ne_of_lt (staffed.tidy.owned sub member)
  | dispatch e => exact staffed_fewer staffed _ tidy (edited _ (offer_id e)) List.filter_sublist
  | take own => exact staffed_fewer staffed _ tidy (edited _ fun s => by split <;> rfl) (List.Sublist.refl _)
  | drain own => exact staffed_fewer staffed _ tidy (edited _ fun s => by split <;> rfl) (List.Sublist.refl _)
  | drop own =>
      refine ⟨tidy, ?_, staffed.own.sublist (List.filter_sublist.map _)⟩
      intro sub member
      obtain ⟨old, other⟩ := List.mem_filter.mp member
      obtain ⟨s, held, same⟩ := staffed.present sub old
      exact ⟨s, List.mem_filter.mpr ⟨held, by rw [same]; exact other⟩, same⟩
  | close =>
      have closes : r.perform .close = r ∨ (r.perform .close).streams = r.streams ∧
          (r.perform .close).subscribers = [] := by
        simp only [perform, close]
        split
        · exact Or.inl rfl
        · exact Or.inr ⟨rfl, rfl⟩
      rcases closes with same | ⟨streams, nobody⟩
      · rw [same]
        exact staffed
      · refine staffed_fewer staffed _ tidy (by rw [streams]) ?_
        rw [nobody]
        exact List.nil_sublist _

theorem wanting_count (staffed : r.Staffed) (e : Event) (picks : Nat → Bool) :
    (r.streams.filter fun s => r.wants e s && picks s.id).length = ((r.matching e).filter fun sub =>
      picks sub.id).length := by
  have same : ((r.streams.filter fun s => r.wants e s && picks s.id).map (·.id)).Perm
      (((r.matching e).filter fun sub => picks sub.id).map (·.id)) := by
    rw [matching, List.perm_ext_iff_of_nodup (staffed.tidy.distinct.sublist (List.filter_sublist.map _))
      (staffed.own.sublist ((List.filter_sublist.trans List.filter_sublist).map _))]
    intro id
    simp only [List.mem_map, List.mem_filter, wants, Bool.and_eq_true, List.any_eq_true, beq_iff_eq]
    constructor
    · rintro ⟨s, ⟨-, ⟨sub, registered, own, accepts⟩, picked⟩, rfl⟩
      exact ⟨sub, ⟨⟨registered, accepts⟩, own ▸ picked⟩, own⟩
    · rintro ⟨sub, ⟨⟨registered, accepts⟩, picked⟩, rfl⟩
      obtain ⟨s, held, own⟩ := staffed.present sub registered
      exact ⟨s, ⟨held, ⟨sub, registered, own.symm, accepts⟩, own.symm ▸ picked⟩, own⟩
  simpa only [List.length_map] using same.length_eq

theorem room_full (staffed : r.Staffed) (s : Stream) (member : s ∈ r.streams) :
    (!r.hasRoom s) = decide (r.capacity ≤ (r.buffered s.id).length) := by
  rw [buffered_eq, stream_of_mem staffed.tidy s member, Option.map_some, Option.getD_some, hasRoom]
  by_cases full : r.capacity ≤ s.buffer.length
  · simp [full, Nat.not_lt.mpr full]
  · simp [full, Nat.lt_of_not_le full]

theorem lost_count (staffed : r.Staffed) (e : Event) :
    ((r.streams.filter (r.wants e)).filter fun s => !r.hasRoom s).length = ((r.matching e).filter r.isFull).length := by
  have counts := wanting_count staffed e fun id => decide (r.capacity ≤ (r.buffered id).length)
  rw [List.filter_filter]
  refine Eq.trans (congrArg List.length (List.filter_congr fun s member => ?_)) counts
  rw [room_full staffed s member, Bool.and_comm]

theorem dispatch_lost (staffed : r.Staffed) (e : Event) :
    (r.dispatch e).2.laggedTotal = r.laggedTotal + ((r.matching e).filter r.isFull).length :=
  congrArg (r.laggedTotal + ·) (lost_count staffed e)

theorem dispatch_delivered (staffed : r.Staffed) (e : Event) :
    (r.dispatch e).1 = 0 ↔ (r.matching e).all r.isFull = true := by
  have wanting := wanting_count staffed e fun _ => true
  have lost := lost_count staffed e
  have bound := List.length_filter_le r.isFull (r.matching e)
  simp only [Bool.and_true, List.filter_eq_self.mpr fun _ _ => rfl] at wanting
  have gives : (r.dispatch e).1 = (r.matching e).length - ((r.matching e).filter r.isFull).length := by
    rw [← wanting, ← lost]
    rfl
  rw [gives, List.all_eq_true, ← List.length_filter_eq_length_iff]
  omega

end

end DevTools.Router
