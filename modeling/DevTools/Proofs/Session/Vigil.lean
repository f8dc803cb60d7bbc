import DevTools.Proofs.Session.Standing
import DevTools.Session.Wait

set_option autoImplicit false

namespace DevTools

def SessionDeed.isStanding : SessionDeed → Bool
  | lieDown _ | getUp _ => false
  | _ => true

namespace SessionTable

-- Everybody has a key of their own, and every bell that somebody sleeps at still hangs.
structure Abed (t : SessionTable) : Prop where
  keys : (t.sleepers.map (·.key)).Nodup
  below : ∀ s ∈ t.sleepers, s.key < t.nextSleeper
  hung : ∀ s ∈ t.sleepers, s.woken = false → s.bell ∈ t.bells

-- Nobody sleeps while a session is there for them.
def Idle (t : SessionTable) : Prop :=
  ∀ s ∈ t.sleepers, s.woken = false → ∀ session ∈ t.active, session.target ≠ s.bell.target

theorem empty_abed : Abed {} := ⟨List.nodup_nil, (fun _ member => nomatch member), fun _ member => nomatch member⟩

theorem empty_idle : Idle {} := fun _ member => nomatch member

section
variable {t : SessionTable}

theorem sleeper_of_mem (abed : t.Abed) (s : Sleeper) (member : s ∈ t.sleepers) : t.sleeper? s.key = some s :=
  find_keyed Sleeper.key t.sleepers abed.keys s member

theorem of_target_none (target : TargetId) : t.ofTarget? target = none ↔ ∀ s ∈ t.active, s.target ≠ target := by
  simp only [ofTarget?, List.find?_eq_none, active, List.mem_filter]
  constructor
  · rintro nobody s ⟨member, isOn⟩ same
    exact nobody s member (by simpa [same] using isOn)
  · intro nobody s member fits
    obtain ⟨same, isOn⟩ := Bool.and_eq_true_iff.mp fits
    exact nobody s ⟨member, isOn⟩ (beq_iff_eq.mp same)

theorem of_target_some (target : TargetId) (s : Session) (found : t.ofTarget? target = some s) :
    s.target = target ∧ s ∈ t.active := by
  rw [ofTarget?] at found
  have fits := List.find?_some found
  obtain ⟨same, isOn⟩ := Bool.and_eq_true_iff.mp fits
  exact ⟨beq_iff_eq.mp same, List.mem_filter.mpr ⟨List.mem_of_find?_eq_some found, isOn⟩⟩

theorem wake_mem (rings : Bell → Bool) (sleepers : List Sleeper) (s : Sleeper) (member : s ∈ wake rings sleepers)
    (asleep : s.woken = false) : s ∈ sleepers ∧ rings s.bell = false := by
  obtain ⟨old, listed, rfl⟩ := List.mem_map.mp member
  by_cases rung : rings old.bell = true
  · simp [rung] at asleep
  · rw [if_neg rung]
    exact ⟨listed, by simpa using rung⟩

theorem wake_same (rings : Bell → Bool) (sleepers : List Sleeper) {α : Type} (look : Nat × Bell → α) :
    (wake rings sleepers).map (fun s => look (s.key, s.bell)) = sleepers.map fun s => look (s.key, s.bell) := by
  simp only [wake, List.map_map]
  apply List.map_congr_left
  intro s _
  simp only [Function.comp]
  split <;> rfl

-- The sleepers stay the same but for those that are woken. A bell that goes has rung, and so has the bell of every
-- target that a session comes for.
structure Rouses (t after : SessionTable) (rings : Bell → Bool) : Prop where
  sleepers : after.sleepers = wake rings t.sleepers
  nextSleeper : after.nextSleeper = t.nextSleeper
  bells : ∀ b ∈ t.bells, rings b = false → b ∈ after.bells
  active : ∀ s ∈ after.active, s ∈ t.active ∨ ∀ b ∈ t.bells, b.target = s.target → rings b = true

theorem rouses_abed {after : SessionTable} {rings : Bell → Bool} (rouses : t.Rouses after rings)
    (abed : t.Abed) : after.Abed := by
  have keys : after.sleepers.map (·.key) = t.sleepers.map (·.key) := by
    rw [rouses.sleepers]
    exact wake_same rings t.sleepers Prod.fst
  refine ⟨keys ▸ abed.keys, ?_, ?_⟩
  · intro s member
    have listed : s.key ∈ t.sleepers.map (·.key) := keys ▸ List.mem_map_of_mem member
    obtain ⟨old, held, same⟩ := List.mem_map.mp listed
    rw [rouses.nextSleeper, ← same]
    exact abed.below old held
  · intro s member asleep
    rw [rouses.sleepers] at member
    obtain ⟨listed, silent⟩ := wake_mem rings t.sleepers s member asleep
    exact rouses.bells s.bell (abed.hung s listed asleep) silent

theorem rouses_idle {after : SessionTable} {rings : Bell → Bool} (rouses : t.Rouses after rings) (abed : t.Abed)
    (idle : t.Idle) :
    after.Idle := by
  intro s member asleep session attached same
  rw [rouses.sleepers] at member
  obtain ⟨listed, silent⟩ := wake_mem rings t.sleepers s member asleep
  rcases rouses.active session attached with old | rung
  · exact idle s listed asleep session old same
  · rw [rung s.bell (abed.hung s listed asleep) same.symm] at silent
    cases silent

theorem rouses_nobody {after : SessionTable} (sleepers : after.sleepers = t.sleepers)
    (nextSleeper : after.nextSleeper = t.nextSleeper) (bells : after.bells = t.bells)
    (active : ∀ s ∈ after.active, s ∈ t.active) : t.Rouses after fun _ => false where
  sleepers := by simp [sleepers, wake]
  nextSleeper := nextSleeper
  bells b hangs _ := bells ▸ hangs
  active s attached := Or.inl (active s attached)

theorem rouses_ring (target : TargetId) (sessions : List Session) (serial : Nat)
    (active : ∀ s ∈ ({ t with sessions, nextSerial := serial } : SessionTable).active, s ∈ t.active ∨
      s.target = target) :
    t.Rouses (({ t with sessions, nextSerial := serial } : SessionTable).ring target)
      fun b => b.target == target && t.bells.contains b where
  sleepers := rfl
  nextSleeper := rfl
  bells b hangs silent := List.mem_filter.mpr ⟨hangs, by simpa [hangs] using silent⟩
  active s attached := (active s attached).imp_right fun own b hangs same => by simp [same, own, hangs]

theorem perform_rouses (tidy : t.Tidy) (d : SessionDeed) (standing : d.isStanding = true) :
    ∃ rings, t.Rouses (t.perform d) rings := by
  have active : t.brings d = [] → ∀ s ∈ (t.perform d).active, s ∈ t.active := by
    intro nothing s attached
    refine (perform_active tidy d s attached).resolve_right fun comes => ?_
    rw [nothing] at comes
    cases comes
  cases d with
  | register session target =>
      simp only [perform, register]
      cases found : t.get? session with
      | none =>
          refine ⟨_, rouses_ring target _ _ ?_⟩
          intro s attached
          obtain ⟨member, isOn⟩ := List.mem_filter.mp attached
          rcases List.mem_append.mp member with old | new
          · exact Or.inl (List.mem_filter.mpr ⟨old, isOn⟩)
          · rw [List.mem_singleton.mp new]
            exact Or.inr rfl
      | some s =>
          dsimp only
          split
          · exact ⟨_, rouses_nobody rfl rfl rfl fun _ attached => attached⟩
          · exact ⟨_, rouses_ring target t.sessions t.nextSerial fun _ attached => Or.inl attached⟩
  | markDetached session =>
      have same : (t.perform (.markDetached session)).sleepers = t.sleepers ∧
          (t.perform (.markDetached session)).nextSleeper = t.nextSleeper ∧
            (t.perform (.markDetached session)).bells = t.bells := by
        simp only [perform, markDetached]
        split
        · split <;> exact ⟨rfl, rfl, rfl⟩
        · exact ⟨rfl, rfl, rfl⟩
      exact ⟨_, rouses_nobody same.1 same.2.1 same.2.2 (active rfl)⟩
  | detachAll =>
      exact ⟨t.bells.contains, rfl, rfl, fun _ hangs _ => hangs, fun s attached => Or.inl (active rfl s attached)⟩
  | purge => exact ⟨_, rouses_nobody rfl rfl rfl (active rfl)⟩
  | lieDown | getUp => cases standing

theorem lie_down_sleepers (target : TargetId) : ∃ bell :
    Bell, bell.target = target ∧ bell ∈ (t.lieDown target).2.bells ∧
    (t.lieDown target).2.sleepers = t.sleepers ++ [⟨t.nextSleeper, bell, false⟩] ∧ ∀ b ∈ t.bells,
      b ∈ (t.lieDown target).2.bells := by
  simp only [lieDown]
  cases found : t.bells.find? (·.target == target) with
  | none => exact ⟨⟨target, t.nextBell⟩, rfl, List.mem_append_right _ List.mem_cons_self, rfl,
              fun b hangs => List.mem_append_left _ hangs⟩
  | some bell =>
      exact ⟨bell, by simpa using List.find?_some found, List.mem_of_find?_eq_some found, rfl, fun b hangs => hangs⟩

theorem lie_down_next (target : TargetId) : (t.lieDown target).1 = t.nextSleeper ∧
    (t.lieDown target).2.nextSleeper = t.nextSleeper + 1 ∧
    (t.lieDown target).2.sessions = t.sessions := by
  simp only [lieDown]
  split <;> exact ⟨rfl, rfl, rfl⟩

theorem lie_down_abed (abed : t.Abed) (target : TargetId) : (t.lieDown target).2.Abed := by
  obtain ⟨bell, -, hangs, sleepers, bells⟩ := lie_down_sleepers (t := t) target
  obtain ⟨-, next, -⟩ := lie_down_next (t := t) target
  refine ⟨?_, ?_, ?_⟩
  · rw [sleepers]
    exact keys_concat (·.key) t.sleepers ⟨t.nextSleeper, bell, false⟩ abed.keys fun s member =>
      Nat.ne_of_lt (abed.below s member)
  · intro s member
    rw [sleepers] at member
    rw [next]
    rcases List.mem_append.mp member with old | new
    · exact Nat.lt_succ_of_lt (abed.below s old)
    · rw [List.mem_singleton.mp new]
      exact Nat.lt_succ_self _
  · intro s member asleep
    rw [sleepers] at member
    rcases List.mem_append.mp member with old | new
    · exact bells s.bell (abed.hung s old asleep)
    · rw [List.mem_singleton.mp new]
      exact hangs

theorem get_up_sleepers (key : Nat) : (t.getUp key).sleepers = t.sleepers.filter fun s => s.key != key := by
  simp only [getUp]
  cases found : t.sleeper? key with
  | none =>
      refine (List.filter_eq_self.mpr fun s member => ?_).symm
      simpa using List.find?_eq_none.mp found s member
  | some sleeper => rfl

theorem get_up_next (key : Nat) : (t.getUp key).nextSleeper = t.nextSleeper ∧ (t.getUp key).sessions = t.sessions := by
  simp only [getUp]
  split <;> exact ⟨rfl, rfl⟩

theorem get_up_bells (key : Nat) (s : Sleeper) (stays : s ∈ (t.getUp key).sleepers) (hangs : s.bell ∈ t.bells) :
    s.bell ∈ (t.getUp key).bells := by
  rw [get_up_sleepers] at stays
  simp only [getUp]
  cases found : t.sleeper? key with
  | none => exact hangs
  | some sleeper =>
      dsimp only
      split
      · exact hangs
      · next alone =>
          refine List.mem_filter.mpr ⟨hangs, ?_⟩
          rw [bne_iff_ne]
          intro same
          exact alone (List.any_eq_true.mpr ⟨s, stays, beq_iff_eq.mpr same⟩)

theorem get_up_abed (abed : t.Abed) (key : Nat) : (t.getUp key).Abed := by
  refine ⟨?_, ?_, ?_⟩
  · rw [get_up_sleepers]
    exact abed.keys.sublist (List.filter_sublist.map _)
  · intro s member
    rw [get_up_sleepers] at member
    rw [(get_up_next key).1]
    exact abed.below s (List.mem_filter.mp member).1
  · intro s member asleep
    refine get_up_bells key s member (abed.hung s ?_ asleep)
    rw [get_up_sleepers] at member
    exact (List.mem_filter.mp member).1

theorem get_up_idle (idle : t.Idle) (key : Nat) : (t.getUp key).Idle := by
  intro s member asleep session attached
  rw [get_up_sleepers] at member
  rw [active, (get_up_next key).2] at attached
  exact idle s (List.mem_filter.mp member).1 asleep session attached

theorem lie_down_idle (idle : t.Idle) (target : TargetId) (nobody : t.ofTarget? target = none) :
    (t.lieDown target).2.Idle := by
  obtain ⟨bell, own, -, sleepers, -⟩ := lie_down_sleepers (t := t) target
  intro s member asleep session attached
  rw [active, (lie_down_next target).2.2] at attached
  rw [sleepers] at member
  rcases List.mem_append.mp member with old | new
  · exact idle s old asleep session attached
  · rw [List.mem_singleton.mp new, own]
    exact (of_target_none target).mp nobody session attached

theorem rise_sleepers (abed : t.Abed) (target : TargetId) :
    ((t.lieDown target).2.getUp t.nextSleeper).sleepers = t.sleepers := by
  obtain ⟨bell, -, -, sleepers, -⟩ := lie_down_sleepers (t := t) target
  have others : t.sleepers.filter (fun s => s.key != t.nextSleeper) = t.sleepers := by
    refine List.filter_eq_self.mpr fun s member => ?_
    simpa using Nat.ne_of_lt (abed.below s member)
  rw [get_up_sleepers, sleepers, List.filter_append, others]
  simp

theorem rise_sessions (target : TargetId) : ((t.lieDown target).2.getUp t.nextSleeper).sessions = t.sessions :=
  (get_up_next _).2.trans (lie_down_next target).2.2

theorem rise_idle (abed : t.Abed) (idle : t.Idle) (target : TargetId) :
    ((t.lieDown target).2.getUp t.nextSleeper).Idle := by
  intro s member asleep session attached
  rw [rise_sleepers abed] at member
  rw [active, rise_sessions] at attached
  exact idle s member asleep session attached

end

end SessionTable

end DevTools
