import DevTools.Proofs.Session.Vigil
import Mathlib.Data.List.Count

set_option autoImplicit false

namespace DevTools.SessionTable

-- What is done to the table at one stroke while nobody lies down or gets up. A session that is registered is entered first,
-- and its bell rings then; likewise all are detached before the bells ring for all.
inductive Stroke where
  | enter (session : SessionId) (target : TargetId)
  | ring (target : TargetId)
  | markDetached (session : SessionId)
  | markAll
  | ringAll
  | purge
deriving DecidableEq, Repr

def enter (t : SessionTable) (id : SessionId) (target : TargetId) : SessionTable :=
  match t.get? id with
  | some _ => t
  | none => { t with sessions := t.sessions ++ [⟨t.nextSerial, id, target, false⟩], nextSerial := t.nextSerial + 1 }

def stroke (t : SessionTable) : Stroke → SessionTable
  | .enter session target => t.enter session target
  | .ring target => t.ring target
  | .markDetached session => (t.markDetached session).2
  | .markAll => t.markWhere fun _ => true
  | .ringAll => { t with sleepers := wake t.bells.contains t.sleepers }
  | .purge => t.purge.2

-- How a deed is done, stroke by stroke. No bell rings for an id whose session has been detached.
def strokes (t : SessionTable) : SessionDeed → List Stroke
  | .register session target =>
      if t.isDetached session then [.enter session target] else [.enter session target, .ring target]
  | .markDetached session => [.markDetached session]
  | .detachAll => [.markAll, .ringAll]
  | .purge => [.purge]
  | .lieDown _ | .getUp _ => []

theorem perform_strokes (t : SessionTable) (d : SessionDeed) (standing : d.isStanding = true) :
    t.perform d = (t.strokes d).foldl stroke t := by
  cases d with
  | register session target =>
      rcases Option.eq_none_or_eq_some (t.get? session) with found | ⟨s, found⟩
      · simp [perform, register, strokes, isDetached, stroke, enter, found]
      · cases off : s.detached <;> simp [perform, register, strokes, isDetached, stroke, enter, found, off]
  | markDetached | detachAll | purge => rfl
  | lieDown | getUp => cases standing

-- How many have hold of a bell: the rack that it hangs on, and all that lie at it.
def holders (t : SessionTable) (b : Bell) : Nat := t.bells.count b + t.sleepers.countP (·.bell == b)

structure Hung (t : SessionTable) : Prop where
  held : ∀ b ∈ t.bells, ∃ s ∈ t.sleepers, s.bell = b
  single : (t.bells.map (·.target)).Nodup
  -- The number of the next bell is that of none that anybody has hold of.
  numbered : ∀ b ∈ t.bells, b.number < t.nextBell
  known : ∀ s ∈ t.sleepers, s.bell.number < t.nextBell

theorem empty_hung : Hung {} :=
  ⟨(fun _ member => nomatch member), List.nodup_nil, (fun _ member => nomatch member), fun _ member => nomatch member⟩

section
variable {t : SessionTable}

-- Nobody lies down or gets up, and no bell is hung up; one that goes has rung.
structure Chimes (t after : SessionTable) (rings : Bell → Bool) : Prop where
  sleepers : after.sleepers = wake rings t.sleepers
  nextSleeper : after.nextSleeper = t.nextSleeper
  fewer : after.bells.Sublist t.bells
  silent : ∀ b ∈ t.bells, rings b = false → b ∈ after.bells
  nextBell : after.nextBell = t.nextBell

theorem chimes_nothing {after : SessionTable} (sleepers : after.sleepers = t.sleepers)
    (nextSleeper : after.nextSleeper = t.nextSleeper)
    (bells : after.bells = t.bells) (nextBell : after.nextBell = t.nextBell) : t.Chimes after fun _ => false where
  sleepers := by simp [sleepers, wake]
  nextSleeper := nextSleeper
  fewer := bells ▸ List.Sublist.refl _
  silent _ hangs _ := bells ▸ hangs
  nextBell := nextBell

theorem stroke_chimes (c : Stroke) : ∃ rings, t.Chimes (t.stroke c) rings := by
  cases c with
  | enter session target =>
      simp only [stroke, enter]
      split <;> exact ⟨_, chimes_nothing rfl rfl rfl rfl⟩
  | ring target =>
      refine ⟨fun b => b.target == target && t.bells.contains b, rfl, rfl, List.filter_sublist, ?_, rfl⟩
      intro b hangs silent
      exact List.mem_filter.mpr ⟨hangs, by simpa [hangs] using silent⟩
  | markDetached session =>
      simp only [stroke, markDetached]
      split
      · split <;> exact ⟨_, chimes_nothing rfl rfl rfl rfl⟩
      · exact ⟨_, chimes_nothing rfl rfl rfl rfl⟩
  | markAll | purge => exact ⟨_, chimes_nothing rfl rfl rfl rfl⟩
  | ringAll => exact ⟨t.bells.contains, rfl, rfl, List.Sublist.refl _, (fun _ hangs _ => hangs), rfl⟩

section
variable {after : SessionTable} {rings : Bell → Bool}

theorem chimes_sleeper (chimes : t.Chimes after rings) (s : Sleeper) (member : s ∈ t.sleepers) :
    ∃ now ∈ after.sleepers, now.key = s.key ∧ now.bell = s.bell := by
  refine ⟨if rings s.bell then { s with woken := true } else s, ?_, ?_⟩
  · rw [chimes.sleepers]
    exact List.mem_map_of_mem member
  · split <;> exact ⟨rfl, rfl⟩

theorem chimes_before (chimes : t.Chimes after rings) (now : Sleeper) (member : now ∈ after.sleepers) :
    ∃ s ∈ t.sleepers, s.key = now.key ∧ s.bell = now.bell := by
  rw [chimes.sleepers] at member
  obtain ⟨s, listed, rfl⟩ := List.mem_map.mp member
  refine ⟨s, listed, ?_⟩
  split <;> exact ⟨rfl, rfl⟩

theorem chimes_abed (chimes : t.Chimes after rings) (abed : t.Abed) : after.Abed := by
  have quiet : t.Rouses { after with sessions := [] } rings :=
    ⟨chimes.sleepers, chimes.nextSleeper, chimes.silent, fun _ member => nomatch member⟩
  obtain ⟨keys, below, hung⟩ := rouses_abed quiet abed
  exact ⟨keys, below, hung⟩

theorem chimes_hung (chimes : t.Chimes after rings) (hung : t.Hung) : after.Hung := by
  refine ⟨?_, hung.single.sublist (chimes.fewer.map _), ?_, ?_⟩
  · intro b hangs
    obtain ⟨s, lying, rfl⟩ := hung.held b (chimes.fewer.subset hangs)
    obtain ⟨now, there, -, same⟩ := chimes_sleeper chimes s lying
    exact ⟨now, there, same⟩
  · intro b hangs
    rw [chimes.nextBell]
    exact hung.numbered b (chimes.fewer.subset hangs)
  · intro now member
    obtain ⟨s, lying, -, same⟩ := chimes_before chimes now member
    rw [chimes.nextBell, ← same]
    exact hung.known s lying

end

theorem lie_down_hung (hung : t.Hung) (target : TargetId) : (t.lieDown target).2.Hung := by
  simp only [lieDown]
  cases found : t.bells.find? (·.target == target) with
  | some bell =>
      have hangs := List.mem_of_find?_eq_some found
      refine ⟨?_, hung.single, hung.numbered, ?_⟩
      · intro b member
        obtain ⟨s, lying, same⟩ := hung.held b member
        exact ⟨s, List.mem_append_left _ lying, same⟩
      · intro s member
        rcases List.mem_append.mp member with old | new
        · exact hung.known s old
        · rw [List.mem_singleton.mp new]
          exact hung.numbered bell hangs
  | none =>
      refine ⟨?_, ?_, ?_, ?_⟩
      · intro b member
        rcases List.mem_append.mp member with old | new
        · obtain ⟨s, lying, same⟩ := hung.held b old
          exact ⟨s, List.mem_append_left _ lying, same⟩
        · exact ⟨_, List.mem_append_right _ List.mem_cons_self, (List.mem_singleton.mp new).symm⟩
      · refine keys_concat (·.target) t.bells ⟨target, t.nextBell⟩ hung.single fun b member => ?_
        simpa using List.find?_eq_none.mp found b member
      · intro b member
        rcases List.mem_append.mp member with old | new
        · exact Nat.lt_succ_of_lt (hung.numbered b old)
        · rw [List.mem_singleton.mp new]
          exact Nat.lt_succ_self _
      · intro s member
        rcases List.mem_append.mp member with old | new
        · exact Nat.lt_succ_of_lt (hung.known s old)
        · rw [List.mem_singleton.mp new]
          exact Nat.lt_succ_self _

theorem get_up_fewer (key : Nat) : (t.getUp key).bells.Sublist t.bells ∧ (t.getUp key).nextBell = t.nextBell := by
  simp only [getUp]
  split
  · exact ⟨List.Sublist.refl _, rfl⟩
  · refine ⟨?_, rfl⟩
    split
    · exact List.Sublist.refl _
    · exact List.filter_sublist

theorem get_up_hung (abed : t.Abed) (hung : t.Hung) (key : Nat) : (t.getUp key).Hung := by
  obtain ⟨fewer, next⟩ := get_up_fewer (t := t) key
  refine ⟨?_, hung.single.sublist (fewer.map _), ?_, ?_⟩
  · intro b hangs
    obtain ⟨s, lying, rfl⟩ := hung.held b (fewer.subset hangs)
    by_cases mine : s.key = key
    · -- Whoever gets up leaves the bell to somebody else, or it would not hang any more.
      subst mine
      simp only [getUp, sleeper_of_mem abed s lying] at hangs ⊢
      split at hangs
      · next others =>
          obtain ⟨other, stays, same⟩ := List.any_eq_true.mp others
          exact ⟨other, stays, beq_iff_eq.mp same⟩
      · simp at hangs
    · refine ⟨s, ?_, rfl⟩
      rw [get_up_sleepers]
      exact List.mem_filter.mpr ⟨lying, bne_iff_ne.mpr mine⟩
  · intro b hangs
    rw [next]
    exact hung.numbered b (fewer.subset hangs)
  · intro s member
    rw [get_up_sleepers] at member
    rw [next]
    exact hung.known s (List.mem_filter.mp member).1

theorem count_others (abed : t.Abed) (s : Sleeper) (member : s ∈ t.sleepers) :
    t.sleepers.countP (·.bell == s.bell) = (t.sleepers.filter fun other => other.key != s.key).countP
      (·.bell == s.bell) + 1 := by
  have only : t.sleepers.filter (fun other => other.key == s.key) = [s] := by
    have length : (t.sleepers.map (·.key)).count s.key = 1 :=
      List.count_eq_one_of_mem abed.keys (List.mem_map_of_mem member)
    rw [List.count, List.countP_map, List.countP_eq_length_filter, List.length_eq_one_iff] at length
    obtain ⟨one, is⟩ := length
    have own : s ∈ t.sleepers.filter (fun other => other.key == s.key) :=
      List.mem_filter.mpr ⟨member, beq_self_eq_true _⟩
    have same : t.sleepers.filter (fun other => other.key == s.key) = [one] := is
    rw [same] at own ⊢
    rw [List.mem_singleton.mp own]
  have parts := List.countP_eq_countP_filter_add t.sleepers (·.bell == s.bell) (fun other => other.key != s.key)
  have mine : (t.sleepers.filter fun other => !(other.key != s.key)) = [s] := by simpa [bne] using only
  rw [parts, mine]
  simp

-- A bell is taken down if it hangs and there are two who have hold of it, the rack and the one who gets up.
theorem get_up_counts (abed : t.Abed) (hung : t.Hung) (s : Sleeper) (member : s ∈ t.sleepers) :
    (t.getUp s.key).bells = if t.holders s.bell = 2 then t.bells.filter (· != s.bell) else t.bells := by
  have distinct : t.bells.Nodup := hung.single.of_map _
  have lying := count_others abed s member
  have alone : (t.sleepers.filter fun other => other.key != s.key).any (·.bell == s.bell) = true ↔
      0 < (t.sleepers.filter fun other => other.key != s.key).countP (·.bell == s.bell) := by
    rw [List.countP_pos_iff, List.any_eq_true]
  simp only [getUp, sleeper_of_mem abed s member, holders, lying]
  by_cases hangs : s.bell ∈ t.bells
  · rw [List.count_eq_one_of_mem distinct hangs]
    by_cases shared : (t.sleepers.filter fun other => other.key != s.key).any (·.bell == s.bell) = true
    · have more := alone.mp shared
      rw [if_pos shared, if_neg (by omega)]
    · have last := Nat.eq_zero_of_not_pos (mt alone.mpr shared)
      rw [if_neg shared, if_pos (by omega)]
  · have same : t.bells.filter (· != s.bell) = t.bells := by
      refine List.filter_eq_self.mpr fun b listed => bne_iff_ne.mpr ?_
      rintro rfl
      exact hangs listed
    rw [same]
    split <;> split <;> rfl

end

end DevTools.SessionTable
