import DevTools.Proofs.Connection.Correlation

set_option autoImplicit false

namespace DevTools.Connection

structure Counted (c : Connection) : Prop where
  apart : ∀ one ∈ c.hub.calls.calls, ∀ other ∈ c.hub.calls.calls, one.id = other.id → one = other
  below : ∀ call ∈ c.hub.calls.calls, call.id.toNat < c.hub.calls.nextId.toNat

-- The id has been given out, and whoever had it has let go of the handle, if there ever was one.
structure Gone (c : Connection) (id : UInt64) : Prop where
  below : id.toNat < c.hub.calls.nextId.toNat
  nobody : ∀ call ∈ c.hub.calls.calls, call.id ≠ id

theorem initial_counted (config : Config) (link : Link) : (ofLink config link).Counted :=
  ⟨fun _ member => (List.not_mem_nil member).elim, fun _ member => (List.not_mem_nil member).elim⟩

section
variable {c : Connection}

theorem act_counted (sound : c.Sound) (keyed : c.Keyed) (counted : c.Counted) (a : Act) (acts : List Act)
    (bounded : c.hub.calls.nextId.toNat + c.allocations (a :: acts) < UInt64.size) : (c.act a).Counted := by
  have counts := act_counts_on sound keyed a acts bounded
  have origin := (act_issues sound keyed a).2
  constructor
  · intro one first other second same
    rcases origin one first with old | new
    · rcases origin other second with old' | new'
      · exact counted.apart one old other old' same
      · have bound := counted.below one old
        have id := (counts.own other new').1
        rw [same] at bound
        omega
    · rcases origin other second with old' | new'
      · have bound := counted.below other old'
        have id := (counts.own one new).1
        rw [← same] at bound
        omega
      · exact Option.some.inj (new.symm.trans new')
  · intro call member
    rcases origin call member with old | new
    · exact Nat.lt_of_lt_of_le (counted.below call old) counts.up
    · obtain ⟨id, up⟩ := counts.own call new
      omega

theorem act_gone (sound : c.Sound) (keyed : c.Keyed) (id : UInt64) (gone : c.Gone id) (a : Act) (acts : List Act)
    (bounded : c.hub.calls.nextId.toNat + c.allocations (a :: acts) < UInt64.size) : (c.act a).Gone id := by
  have counts := act_counts_on sound keyed a acts bounded
  refine ⟨Nat.lt_of_lt_of_le gone.below counts.up, ?_⟩
  intro call member same
  rcases (act_issues sound keyed a).2 call member with old | new
  · exact gone.nobody call old same
  · have own := (counts.own call new).1
    have bound := gone.below
    rw [same] at own
    omega

theorem let_go (sound : c.Sound) (keyed : c.Keyed) (counted : c.Counted) (a : Act) (acts : List Act)
    (bounded : c.hub.calls.nextId.toNat + c.allocations (a :: acts) < UInt64.size) (call : Call)
    (held : call ∈ c.hub.calls.calls)
    (left : call ∉ (c.act a).hub.calls.calls) : (c.act a).Gone call.id := by
  have counts := act_counts_on sound keyed a acts bounded
  have bound := counted.below call held
  refine ⟨Nat.lt_of_lt_of_le bound counts.up, ?_⟩
  intro other member same
  rcases (act_issues sound keyed a).2 other member with old | new
  · exact left (counted.apart other old call held same ▸ member)
  · have own := (counts.own other new).1
    rw [same] at own
    omega

theorem gone_not_pending (sound : c.Sound) (id : UInt64) (gone : c.Gone id) : c.hub.calls.isPending id = false := by
  simp only [CallTable.isPending, List.any_eq_false, beq_iff_eq]
  rintro e pending rfl
  obtain ⟨s, held, _, same, _⟩ := CallTable.matched_entry_slot sound.matched e pending
  exact gone.nobody s.call (List.mem_map_of_mem held) same

theorem hears_orphan (kept : c.Kept) (a : Act) (r : Response) (heard : c.hears? a = some r)
    (missing : c.hub.calls.isPending r.id = false) :
    (c.act a).hub = { c.hub with stats.orphanedResponses := c.hub.stats.orphanedResponses + 1 } := by
  rw [hears_hub kept r heard]
  simp only [Hub.takeResponse, CallTable.resolve, missing]
  rfl

theorem allocations_append (c : Connection) (before after : List Act) :
    c.allocations (before ++ after) = c.allocations before + (c.run before).allocations after := by
  simp only [allocations, trace_append, List.countP_append]
  rfl

theorem run_counts_on (sound : c.Sound) (keyed : c.Keyed) (acts : List Act)
    (bounded : c.hub.calls.nextId.toNat + c.allocations acts < UInt64.size) :
    (c.run acts).hub.calls.nextId.toNat = c.hub.calls.nextId.toNat + c.allocations acts := by
  induction acts generalizing c with
  | nil => simp [run, allocations, trace]
  | cons a acts ih =>
      have rest := (act_counts_on sound keyed a acts bounded).rest
      rw [← rest]
      exact ih (act_sound sound a) (act_keyed keyed a) (by rw [rest]; exact bounded)

theorem run_counted (sound : c.Sound) (keyed : c.Keyed) (counted : c.Counted) (acts : List Act)
    (bounded : c.hub.calls.nextId.toNat + c.allocations acts < UInt64.size) : (c.run acts).Counted := by
  induction acts generalizing c with
  | nil => exact counted
  | cons a acts ih =>
      have rest := (act_counts_on sound keyed a acts bounded).rest
      exact ih (act_sound sound a) (act_keyed keyed a) (act_counted sound keyed counted a acts bounded)
        (by rw [rest]; exact bounded)

theorem run_gone (sound : c.Sound) (keyed : c.Keyed) (id : UInt64) (gone : c.Gone id) (acts : List Act)
    (bounded : c.hub.calls.nextId.toNat + c.allocations acts < UInt64.size) : (c.run acts).Gone id := by
  induction acts generalizing c with
  | nil => exact gone
  | cons a acts ih =>
      have rest := (act_counts_on sound keyed a acts bounded).rest
      exact ih (act_sound sound a) (act_keyed keyed a) (act_gone sound keyed id gone a acts bounded)
        (by rw [rest]; exact bounded)

end

end DevTools.Connection
