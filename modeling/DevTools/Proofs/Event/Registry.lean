import DevTools.Proofs.Event.Matching
import DevTools.Proofs.Event.Run

set_option autoImplicit false

namespace DevTools

namespace Router

def ids (r : Router) : List Nat := r.streams.map (·.id)

-- The roll of those whose streams there are.
def enter (r : Router) (roll : List Subscriber) : RouterDeed → List Subscriber
  | .subscribe filter => roll ++ [⟨r.nextId, filter⟩]
  | .drop own => roll.filter fun s => s.id != own
  | _ => roll

structure Lists (r : Router) (roll : List Subscriber) : Prop where
  staffed : r.Staffed
  ids : r.ids = roll.map (·.id)
  subscribers : r.closed = false → r.subscribers = roll
  ordered : (roll.map (·.id)).Pairwise (· < ·)

theorem opened_lists (capacity : Nat) : (ofCapacity capacity).Lists [] :=
  ⟨opened_staffed capacity, rfl, fun _ => rfl, List.Pairwise.nil⟩

section
variable {r : Router} {roll : List Subscriber}

theorem dispatch_subscribers (staffed : r.Staffed) (e : Event) : (r.dispatch e).2.subscribers = r.subscribers := by
  refine List.filter_eq_self.mpr fun sub member => ?_
  obtain ⟨s, held, same⟩ := staffed.present sub member
  have there := stream_of_mem staffed.tidy s held
  rw [same] at there
  simp [there]

theorem lists_same (lists : r.Lists roll) (after : Router) (staffed : after.Staffed) (ids : after.ids = r.ids)
    (subscribers : after.subscribers = r.subscribers) (closed : after.closed = r.closed) : after.Lists roll where
  staffed := staffed
  ids := ids.trans lists.ids
  subscribers isOpen := subscribers.trans (lists.subscribers (closed ▸ isOpen))
  ordered := lists.ordered

theorem perform_lists (lists : r.Lists roll) (d : RouterDeed) : (r.perform d).Lists (r.enter roll d) := by
  have staffed := perform_staffed lists.staffed d
  have edited : ∀ f : Stream → Stream, (∀ s, (f s).id = s.id) → (r.streams.map f).map (·.id) = r.ids := by
    intro f same
    rw [List.map_map]
    exact List.map_congr_left fun s _ => same s
  cases d with
  | subscribe filter =>
      have below : ∀ id ∈ roll.map (·.id), id < r.nextId := by
        rw [← lists.ids]
        intro id member
        obtain ⟨s, held, rfl⟩ := List.mem_map.mp member
        exact lists.staffed.tidy.numbered s held
      refine ⟨staffed, ?_, ?_, ?_⟩
      · simpa [ids, perform, subscribe, enter] using lists.ids
      · intro isOpen
        have wasOpen : r.closed = false := isOpen
        simp [perform, subscribe, enter, wasOpen, lists.subscribers wasOpen]
      · rw [enter, List.map_append]
        refine List.pairwise_append.mpr ⟨lists.ordered, List.pairwise_singleton _ _, ?_⟩
        intro id old other new
        rw [List.mem_singleton.mp new]
        exact below id old
  | dispatch e =>
      exact lists_same lists _ staffed (edited _ (offer_id e)) (dispatch_subscribers lists.staffed e) rfl
  | take own =>
      exact lists_same lists _ staffed (edited _ fun s => by split <;> rfl) rfl rfl
  | drain own =>
      exact lists_same lists _ staffed (edited _ fun s => by split <;> rfl) rfl rfl
  | drop own =>
      refine ⟨staffed, ?_, ?_, lists.ordered.sublist (List.filter_sublist.map _)⟩
      · have same := lists.ids
        simp only [ids] at same
        have left : (r.streams.map (·.id)).filter (· != own) = (r.streams.filter fun s => s.id != own).map (·.id) :=
          List.filter_map
        have kept : (roll.map (·.id)).filter (· != own) = (roll.filter fun s => s.id != own).map (·.id) :=
          List.filter_map
        rw [same] at left
        exact left.symm.trans kept
      · intro isOpen
        have wasOpen : r.closed = false := isOpen
        simp [perform, drop, enter, lists.subscribers wasOpen]
  | close =>
      have closes : (r.perform .close).closed = true ∧ (r.perform .close).ids = r.ids := by
        simp only [perform, close]
        split
        · next shut => exact ⟨shut, rfl⟩
        · exact ⟨rfl, rfl⟩
      refine ⟨staffed, closes.2.trans lists.ids, fun isOpen => ?_, lists.ordered⟩
      rw [closes.1] at isOpen
      cases isOpen

theorem close_count (lists : r.Lists roll) : r.close.1 = if r.closed then 0 else roll.length := by
  simp only [close]
  cases shut : r.closed with
  | true => rfl
  | false =>
      rw [lists.subscribers shut]
      rfl

theorem perform_closed (d : RouterDeed) : (r.perform d).closed = (r.closed || d matches .close) := by
  cases d with
  | close =>
      simp only [perform, close]
      cases shut : r.closed <;> simp [shut]
  | _ => exact (Bool.or_false _).symm

end

end Router

def RouterAct.closes : RouterAct → Bool
  | close => true
  | _ => false

namespace RouterDesk

def enrols (d : RouterDesk) : RouterAct → List Subscriber
  | .subscribe filter => [⟨d.table.nextId, filter⟩]
  | _ => []

-- Those who have subscribed in a run and whose streams have not been dropped.
def live (d : RouterDesk) (acts : List RouterAct) : List Subscriber :=
  (trace act d acts).foldl (fun roll (d, a) => (roll.filter fun s => !d.drops s.id a) ++ d.enrols a) []

section
variable {d : RouterDesk}

theorem live_concat (acts : List RouterAct) (a : RouterAct) :
    d.live (acts ++ [a]) = ((d.live acts).filter fun s => !(d.run acts).drops s.id a) ++ (d.run acts).enrols a := by
  simp only [live, trace_concat, List.foldl_append, List.foldl_cons, List.foldl_nil]
  rfl

theorem act_enters (roll : List Subscriber) (a : RouterAct) :
    (d.deed? a).elim roll (d.table.enter roll) = (roll.filter fun s => !d.drops s.id a) ++ d.enrols a := by
  cases a with
  | drop own => simp [deed?, Router.enter, drops, enrols, bne, Bool.beq_comm]
  | abort key => cases found : d.wait? key <;> simp [deed?, found, Router.enter, drops, enrols, bne, Bool.beq_comm]
  | move key => cases found : d.wait? key <;> simp [deed?, found, Router.enter, drops, enrols]
  | _ => simp [deed?, Router.enter, drops, enrols]

theorem act_closed (tidy : d.table.Tidy) (a : RouterAct) : (d.act a).table.closed = (d.table.closed || a.closes) := by
  rw [act_table tidy]
  cases a with
  | move key | abort key => cases found : d.wait? key <;> simp [deed?, found, Router.perform_closed, RouterAct.closes]
  | _ => simp [deed?, Router.perform_closed, RouterAct.closes]

structure Rolls (d : RouterDesk) (roll : List Subscriber) (closed : Bool) : Prop where
  lists : d.table.Lists roll
  closed : d.table.closed = closed

theorem act_rolls {roll : List Subscriber} {closed : Bool} (rolls : d.Rolls roll closed) (a : RouterAct) :
    (d.act a).Rolls ((roll.filter fun s => !d.drops s.id a) ++ d.enrols a) (closed || a.closes) := by
  have tidy := rolls.lists.staffed.tidy
  refine ⟨?_, (act_closed tidy a).trans (congrArg (· || a.closes) rolls.closed)⟩
  rw [← act_enters, act_table tidy]
  cases d.deed? a with
  | none => exact rolls.lists
  | some deed => exact Router.perform_lists rolls.lists deed

theorem run_rolls (capacity : Nat) (acts : List RouterAct) :
    ((opened capacity).run acts).Rolls ((opened capacity).live acts) (acts.any (·.closes)) := by
  refine run_induction act (opened capacity)
    (P := fun acts d => d.Rolls ((opened capacity).live acts) (acts.any (·.closes)))
      ⟨Router.opened_lists capacity, rfl⟩ ?_ acts
  intro acts a rolls
  rw [live_concat, List.any_append, List.any_cons, List.any_nil, Bool.or_false]
  exact act_rolls rolls a

end

theorem closes_iff (acts : List RouterAct) : acts.any (·.closes) = true ↔ .close ∈ acts := by
  rw [List.any_eq_true]
  constructor
  · rintro ⟨a, member, closes⟩
    cases a with
    | close => exact member
    | _ => cases closes
  · exact fun member => ⟨.close, member, rfl⟩

-- A router on its own: until it is closed it has the subscribers that came and have not gone, and none after that.
theorem run_subscribers (capacity : Nat) (acts : List RouterAct) :
    let d := (opened capacity).run acts
    let live := (opened capacity).live acts
    d.table.ids = live.map (·.id) ∧ (live.map (·.id)).Pairwise (· < ·) ∧
    (.close ∉ acts → d.table.subscribers = live ∧ d.table.close.1 = live.length) ∧
    (.close ∈ acts → d.table.subscribers = [] ∧ d.table.close.1 = 0) := by
  intro d live
  obtain ⟨lists, closed⟩ := run_rolls capacity acts
  have count := Router.close_count lists
  refine ⟨lists.ids, lists.ordered, ?_, ?_⟩
  · intro never
    rw [eq_false_of_ne_true (mt (closes_iff acts).mp never)] at closed
    rw [closed] at count
    exact ⟨lists.subscribers closed, count⟩
  · intro once
    rw [(closes_iff acts).mpr once] at closed
    rw [closed] at count
    exact ⟨lists.staffed.tidy.quiet closed, count⟩

end RouterDesk

end DevTools
