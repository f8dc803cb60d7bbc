import DevTools.Proofs.Desk
import DevTools.Proofs.Session.Vigil
import DevTools.Proofs.Trace

set_option autoImplicit false

namespace DevTools

abbrev SessionDesk := Desk SessionTable TargetWait (Except Error Session)

inductive SessionAct where
  | register (session : SessionId) (target : TargetId)
  | markDetached (session : SessionId)
  | detachAll
  | purge
  | seek (target : TargetId) (milliseconds : Nat)
  | move (key : Nat)
  | abort (key : Nat)
  | advance (milliseconds : Nat)

namespace SessionDesk

def opened : SessionDesk := { table := {} }

def act (d : SessionDesk) : SessionAct → SessionDesk
  | .register session target => { d with table := d.table.perform (.register session target) }
  | .markDetached session => { d with table := d.table.perform (.markDetached session) }
  | .detachAll => { d with table := d.table.perform .detachAll }
  | .purge => { d with table := d.table.perform .purge }
  | .seek target milliseconds =>
      let (look, table) := TargetWait.look d.clock target (d.clock.limit milliseconds) d.table
      (({ d with table } : SessionDesk).start look.asStep).2
  | .move key => d.move TargetWait.kind key
  | .abort key => (d.abort TargetWait.kind key).2
  | .advance milliseconds => d.advance milliseconds

def run (d : SessionDesk) (acts : List SessionAct) : SessionDesk := acts.foldl act d

theorem settle_run (d : SessionDesk) : ∃ acts, d.settle TargetWait.kind = d.run acts := by
  obtain ⟨moves, made⟩ := (Desk.schedule TargetWait.kind).run_moves _ ((Desk.schedule TargetWait.kind).notice d {}) d
  refine ⟨moves.map .move, ?_⟩
  rw [run, List.foldl_map]
  exact made

-- What a wait was begun for.
structure Quest where
  key : Nat
  target : TargetId
  limit : Limit
deriving DecidableEq, Repr

def begins (d : SessionDesk) : SessionAct → List Quest
  | .seek target milliseconds => [⟨d.nextWait, target, d.clock.limit milliseconds⟩]
  | _ => []

def begun (d : SessionDesk) (acts : List SessionAct) : List Quest :=
  (trace act d acts).flatMap fun (d, a) => d.begins a

end SessionDesk

-- The right answer to a wait now.
def SessionTable.Answers (t : SessionTable) (clock : Clock) (target : TargetId) (limit : Limit) :
    Except Error Session → Prop
  | .ok s => s.target = target ∧ s ∈ t.active
  | .error e => e = .timeout limit.after ∧ limit.deadline ≤ clock.now ∧ ∀ s ∈ t.active, s.target ≠ target

-- Every wait that goes on has a sleeper of its own at a bell of its target.
structure SessionTable.Attended (t : SessionTable) (waits : List (Nat × TargetWait)) : Prop where
  tidy : t.Tidy
  abed : t.Abed
  idle : t.Idle
  asleep : ∀ x ∈ waits, ∃ s ∈ t.sleepers, s.key = x.2.sleeper ∧ s.bell.target = x.2.target
  alone : ∀ x ∈ waits, ∀ y ∈ waits, x.1 = y.1 ∨ x.2.sleeper = y.2.sleeper → x = y

namespace SessionTable

section
variable {t : SessionTable} {waits : List (Nat × TargetWait)}

theorem answers_sessions {clock : Clock} {target : TargetId} {limit : Limit} {result : Except Error Session}
    (after : SessionTable)
    (same : after.sessions = t.sessions) (answers : t.Answers clock target limit result) :
    after.Answers clock target limit result := by
  cases result <;> simpa only [Answers, active, same] using answers

theorem look_cases (clock : Clock) (target : TargetId) (limit : Limit) :
    (∃ result, TargetWait.look clock target limit t = (.settled result, (t.lieDown target).2.getUp t.nextSleeper) ∧
      t.Answers clock target limit result) ∨
    (TargetWait.look clock target limit t = (.asleep ⟨target, limit, t.nextSleeper⟩, (t.lieDown target).2) ∧
      t.ofTarget? target = none) := by
  obtain ⟨key, -, sessions⟩ := lie_down_next (t := t) target
  have same : (t.lieDown target).2.ofTarget? target = t.ofTarget? target := by rw [ofTarget?, sessions, ofTarget?]
  simp only [TargetWait.look, same, key]
  cases found : t.ofTarget? target with
  | some session => exact Or.inl ⟨_, rfl, of_target_some target session found⟩
  | none =>
      dsimp only
      split
      · next passed =>
          exact Or.inl ⟨_, rfl, rfl, by simpa [Clock.hasPassed] using passed, (of_target_none target).mp found⟩
      · exact Or.inr ⟨rfl, rfl⟩

theorem attended_fewer (attended : t.Attended waits) {fewer : List (Nat × TargetWait)}
    (subset : ∀ x ∈ fewer, x ∈ waits) :
    t.Attended fewer where
  tidy := attended.tidy
  abed := attended.abed
  idle := attended.idle
  asleep x member := attended.asleep x (subset x member)
  alone x member y also := attended.alone x (subset x member) y (subset y also)

theorem attended_perform (attended : t.Attended waits) (d : SessionDeed) (standing : d.isStanding = true) :
    (t.perform d).Attended waits := by
  obtain ⟨rings, rouses⟩ := perform_rouses attended.tidy d standing
  refine ⟨perform_tidy attended.tidy d, rouses_abed rouses attended.abed,
    rouses_idle rouses attended.abed attended.idle, ?_, attended.alone⟩
  intro x member
  obtain ⟨s, lying, own, bell⟩ := attended.asleep x member
  refine ⟨if rings s.bell then { s with woken := true } else s, ?_, ?_⟩
  · rw [rouses.sleepers]
    exact List.mem_map_of_mem lying
  · split <;> exact ⟨own, bell⟩

theorem attended_leave (attended : t.Attended waits) (key : Nat) (w : TargetWait) (member : (key, w) ∈ waits) :
    (t.getUp w.sleeper).Attended (waits.filter fun x => x.1 != key) := by
  refine ⟨perform_tidy attended.tidy (.getUp w.sleeper), get_up_abed attended.abed _,
    get_up_idle attended.idle _, ?_, ?_⟩
  · intro x left
    obtain ⟨present, other⟩ := List.mem_filter.mp left
    obtain ⟨s, lying, own, bell⟩ := attended.asleep x present
    refine ⟨s, ?_, own, bell⟩
    rw [get_up_sleepers]
    refine List.mem_filter.mpr ⟨lying, bne_iff_ne.mpr fun same => ?_⟩
    rw [attended.alone x present (key, w) member (Or.inr (own.symm.trans same))] at other
    simp at other
  · intro x left y also
    exact attended.alone x (List.mem_filter.mp left).1 y (List.mem_filter.mp also).1

theorem attended_rise (attended : t.Attended waits) (target : TargetId) :
    ((t.lieDown target).2.getUp t.nextSleeper).Attended waits where
  tidy := perform_tidy (perform_tidy attended.tidy (.lieDown target)) (.getUp t.nextSleeper)
  abed := get_up_abed (lie_down_abed attended.abed target) _
  idle := rise_idle attended.abed attended.idle target
  asleep x member := by
    rw [rise_sleepers attended.abed]
    exact attended.asleep x member
  alone := attended.alone

theorem attended_lie (attended : t.Attended waits) (target : TargetId) (limit : Limit) (key : Nat)
    (nobody : t.ofTarget? target = none) (unused : ∀ x ∈ waits, x.1 ≠ key) {more : List (Nat × TargetWait)}
    (placed : ∀ x ∈ more, x ∈ waits ∨ x = (key, ⟨target, limit, t.nextSleeper⟩)) :
    (t.lieDown target).2.Attended more := by
  obtain ⟨bell, own, -, sleepers, -⟩ := lie_down_sleepers (t := t) target
  have fresh : ∀ x ∈ waits, x.2.sleeper ≠ t.nextSleeper := by
    intro x member same
    obtain ⟨s, lying, mine, -⟩ := attended.asleep x member
    exact Nat.ne_of_lt (attended.abed.below s lying) (mine.trans same)
  refine ⟨perform_tidy attended.tidy (.lieDown target), lie_down_abed attended.abed target,
    lie_down_idle attended.idle target nobody, ?_, ?_⟩
  · intro x member
    rw [sleepers]
    rcases placed x member with old | rfl
    · obtain ⟨s, lying, rest⟩ := attended.asleep x old
      exact ⟨s, List.mem_append_left _ lying, rest⟩
    · exact ⟨_, List.mem_append_right _ List.mem_cons_self, rfl, own⟩
  · intro x member y also same
    rcases placed x member with old | rfl
    · rcases placed y also with older | rfl
      · exact attended.alone x old y older same
      · exact (same.elim (unused x old) (fresh x old)).elim
    · rcases placed y also with older | rfl
      · exact (same.elim (fun same => unused y older same.symm) fun same => fresh y older same.symm).elim
      · rfl

end

end SessionTable

namespace SessionDesk

-- Every wait is watched over and is one that was begun. The quests are all that were begun so far.
structure Watched (d : SessionDesk) (quests : List Quest) : Prop where
  attended : d.table.Attended d.waits
  waits : ∀ x ∈ d.waits, x.1 < d.nextWait ∧ ⟨x.1, x.2.target, x.2.limit⟩ ∈ quests
  below : ∀ q ∈ quests, q.key < d.nextWait
  keys : (quests.map (·.key)).Nodup

-- What ends from one state to the next ends with the right answer.
def Ends (d after : SessionDesk) (quests : List Quest) : Prop :=
  ∃ ended, after.finished = d.finished ++ ended ∧
    ∀ x ∈ ended, ∃ q ∈ quests, q.key = x.1 ∧ after.table.Answers after.clock q.target q.limit x.2

section
variable {d : SessionDesk} {quests : List Quest}

theorem ends_nothing {after : SessionDesk} (same : after.finished = d.finished) : d.Ends after quests :=
  ⟨[], by simp [same], fun _ member => nomatch member⟩

theorem wait_of_mem (watched : d.Watched quests) (x : Nat × TargetWait) (member : x ∈ d.waits) :
    d.wait? x.1 = some x.2 := by
  rw [Desk.wait?]
  cases found : d.waits.find? fun w => w.1 == x.1 with
  | none => exact absurd (List.find?_eq_none.mp found x member) (by simp)
  | some y =>
      have same : y.1 = x.1 := by simpa using List.find?_some found
      rw [watched.attended.alone y (List.mem_of_find?_eq_some found) x member (Or.inl same), Option.map_some]

theorem watched_same {after : SessionDesk} (watched : d.Watched quests) (attended : after.table.Attended after.waits)
    (next : after.nextWait = d.nextWait)
    (waits : ∀ x ∈ after.waits, ∃ y ∈ d.waits, y.1 = x.1 ∧ y.2.target = x.2.target ∧ y.2.limit = x.2.limit) :
    after.Watched quests where
  attended := attended
  waits x member := by
    obtain ⟨y, before, key, target, limit⟩ := waits x member
    rw [next, ← key, ← target, ← limit]
    exact watched.waits y before
  below q member := by
    rw [next]
    exact watched.below q member
  keys := watched.keys

theorem perform_watched (watched : d.Watched quests) (deed : SessionDeed) (standing : deed.isStanding = true) :
    Watched { d with table := d.table.perform deed } quests :=
  watched_same watched (SessionTable.attended_perform watched.attended deed standing) rfl
    fun x member => ⟨x, member, rfl, rfl, rfl⟩

theorem quests_more (watched : d.Watched quests) (q : Quest) (own : q.key = d.nextWait) :
    (∀ other ∈ quests ++ [q], other.key < d.nextWait + 1) ∧ ((quests ++ [q]).map (·.key)).Nodup := by
  constructor
  · intro other member
    rcases List.mem_append.mp member with old | new
    · exact Nat.lt_succ_of_lt (watched.below other old)
    · rw [List.mem_singleton.mp new, own]
      exact Nat.lt_succ_self _
  · exact keys_concat (·.key) quests q watched.keys fun other member => own ▸ Nat.ne_of_lt (watched.below other member)

theorem seek_watched (watched : d.Watched quests) (target : TargetId) (milliseconds : Nat) :
    let a : SessionAct := .seek target milliseconds
    (d.act a).Watched (quests ++ d.begins a) ∧ d.Ends (d.act a) (quests ++ d.begins a) := by
  intro a
  have attended := watched.attended
  obtain ⟨below, keys⟩ := quests_more watched ⟨d.nextWait, target, d.clock.limit milliseconds⟩ rfl
  have unused : ∀ x ∈ d.waits, x.1 ≠ d.nextWait := fun x member => Nat.ne_of_lt (watched.waits x member).1
  have mine : ⟨d.nextWait, target, d.clock.limit milliseconds⟩ ∈ quests ++ d.begins a := by simp [a, begins]
  have step : d.act a = (({ d with table := (TargetWait.look d.clock target (d.clock.limit milliseconds) d.table).2 } :
    SessionDesk).start (TargetWait.look d.clock target (d.clock.limit milliseconds) d.table).1.asStep).2 := rfl
  rcases SessionTable.look_cases (t := d.table) d.clock target (d.clock.limit milliseconds) with ⟨result, look, answers⟩
    | ⟨look, nobody⟩
  · rw [look] at step
    rw [step]
    refine ⟨⟨SessionTable.attended_rise attended target, ?_, below, keys⟩, [(d.nextWait, result)], rfl, ?_⟩
    · intro x member
      obtain ⟨bound, begun⟩ := watched.waits x member
      exact ⟨Nat.lt_succ_of_lt bound, List.mem_append_left _ begun⟩
    · intro x member
      rw [List.mem_singleton.mp member]
      exact ⟨_, mine, rfl, SessionTable.answers_sessions _ (SessionTable.rise_sessions target) answers⟩
  · rw [look] at step
    rw [step]
    refine ⟨⟨?_, ?_, below, keys⟩, ends_nothing rfl⟩
    · apply SessionTable.attended_lie attended target (d.clock.limit milliseconds) d.nextWait nobody unused
      intro x member
      exact (List.mem_append.mp member).imp_right List.mem_singleton.mp
    · intro x member
      rcases List.mem_append.mp member with old | new
      · obtain ⟨bound, begun⟩ := watched.waits x old
        exact ⟨Nat.lt_succ_of_lt bound, List.mem_append_left _ begun⟩
      · rw [List.mem_singleton.mp new]
        exact ⟨Nat.lt_succ_self _, mine⟩

theorem woken_iff (watched : d.Watched quests) (x : Nat × TargetWait) (member : x ∈ d.waits) :
    ∃ s ∈ d.table.sleepers, s.bell.target = x.2.target ∧ x.2.isWoken d.table = s.woken := by
  obtain ⟨s, lying, own, bell⟩ := watched.attended.asleep x member
  refine ⟨s, lying, bell, ?_⟩
  rw [TargetWait.isWoken, ← own, SessionTable.sleeper_of_mem watched.attended.abed s lying, Option.any_some]

theorem asleep_nobody (watched : d.Watched quests) (x : Nat × TargetWait) (member : x ∈ d.waits)
    (asleep : x.2.isWoken d.table = false) : ∀ s ∈ d.table.active, s.target ≠ x.2.target := by
  obtain ⟨s, lying, bell, woken⟩ := woken_iff watched x member
  rw [← bell]
  exact watched.attended.idle s lying (woken ▸ asleep)

theorem move_watched (watched : d.Watched quests) (key : Nat) :
    Watched (d.move TargetWait.kind key) quests ∧ Ends d (d.move TargetWait.kind key) quests := by
  simp only [Desk.move]
  cases found : d.wait? key with
  | none => exact ⟨watched, ends_nothing rfl⟩
  | some w =>
      have member := Desk.wait_found key w found
      have mine := (watched.waits (key, w) member).2
      have left := SessionTable.attended_leave watched.attended key w member
      have others : ∀ x ∈ d.waits.filter (fun x => x.1 != key), ∃ y ∈ d.waits, y.1 = x.1 ∧ y.2.target = x.2.target ∧
          y.2.limit = x.2.limit := fun x stays => ⟨x, (List.mem_filter.mp stays).1, rfl, rfl, rfl⟩
      have replaced : ∀ other : TargetWait, ∀ x ∈ d.waits.map (fun old => if old.1 == key then (key, other) else old),
          x ∈ d.waits.filter (fun x => x.1 != key) ∨ x = (key, other) := by
        intro other x listed
        obtain ⟨old, before, rfl⟩ := List.mem_map.mp listed
        by_cases own : old.1 = key
        · simp [own]
        · simp [own, before]
      simp only [TargetWait.kind, TargetWait.move]
      by_cases woken : w.isWoken d.table = true
      · rw [if_pos woken]
        rcases SessionTable.look_cases (t := d.table.getUp w.sleeper) d.clock w.target w.limit
          with ⟨result, look, answers⟩ | ⟨look, nobody⟩
        · rw [look]
          refine ⟨watched_same watched (SessionTable.attended_rise left w.target) rfl others, [(key, result)], rfl, ?_⟩
          intro x ended
          rw [List.mem_singleton.mp ended]
          exact ⟨_, mine, rfl, SessionTable.answers_sessions _ (SessionTable.rise_sessions w.target) answers⟩
        · rw [look]
          refine ⟨watched_same watched ?_ rfl ?_, ends_nothing rfl⟩
          · refine SessionTable.attended_lie left w.target w.limit key nobody ?_ (replaced _)
            intro x stays
            simpa using (List.mem_filter.mp stays).2
          · intro x listed
            rcases replaced _ x listed with old | rfl
            · exact others x old
            · exact ⟨(key, w), member, rfl, rfl, rfl⟩
      · rw [if_neg woken]
        by_cases passed : d.clock.hasPassed w.limit = true
        · rw [if_pos passed]
          refine ⟨watched_same watched left rfl others, [(key, .error (.timeout w.limit.after))], rfl, ?_⟩
          intro x ended
          rw [List.mem_singleton.mp ended]
          have late : w.limit.deadline ≤ d.clock.now := by simpa [Clock.hasPassed] using passed
          have nobody := asleep_nobody watched (key, w) member (by simpa using woken)
          exact ⟨_, mine, rfl, SessionTable.answers_sessions (t := d.table) _ (SessionTable.get_up_next w.sleeper).2
            ⟨rfl, late, nobody⟩⟩
        · rw [if_neg passed]
          have same : ∀ x ∈ d.waits.map (fun old => if old.1 == key then (key, w) else old), x ∈ d.waits := by
            intro x listed
            rcases replaced w x listed with old | rfl
            · exact (List.mem_filter.mp old).1
            · exact member
          refine ⟨watched_same watched (SessionTable.attended_fewer watched.attended same) rfl ?_, ends_nothing rfl⟩
          exact fun x listed => ⟨x, same x listed, rfl, rfl, rfl⟩

theorem abort_watched (watched : d.Watched quests) (key : Nat) : Watched (d.abort TargetWait.kind key).2 quests := by
  simp only [Desk.abort]
  cases found : d.wait? key with
  | none => exact watched
  | some w =>
      refine watched_same watched (SessionTable.attended_leave watched.attended key w
        (Desk.wait_found key w found)) rfl ?_
      exact fun x stays => ⟨x, (List.mem_filter.mp stays).1, rfl, rfl, rfl⟩

theorem abort_finished (key : Nat) : (d.abort TargetWait.kind key).2.finished = d.finished := by
  simp only [Desk.abort]
  split <;> rfl

theorem act_watched (watched : d.Watched quests) (a : SessionAct) :
    (d.act a).Watched (quests ++ d.begins a) ∧ d.Ends (d.act a) (quests ++ d.begins a) := by
  cases a with
  | seek target milliseconds => exact seek_watched watched target milliseconds
  | move key =>
      simp only [begins, List.append_nil]
      exact move_watched watched key
  | abort key =>
      simp only [begins, List.append_nil]
      exact ⟨abort_watched watched key, ends_nothing (abort_finished key)⟩
  | advance milliseconds =>
      simp only [begins, List.append_nil]
      exact ⟨watched_same watched watched.attended rfl fun x member => ⟨x, member, rfl, rfl, rfl⟩, ends_nothing rfl⟩
  | register | markDetached | detachAll | purge =>
      simp only [begins, List.append_nil]
      exact ⟨perform_watched watched _ rfl, ends_nothing rfl⟩

theorem begun_concat (acts : List SessionAct) (a : SessionAct) :
    d.begun (acts ++ [a]) = d.begun acts ++ (d.run acts).begins a := by
  simp only [begun, trace_concat, List.flatMap_append, List.flatMap_singleton]
  rfl

theorem opened_watched : opened.Watched [] where
  attended := ⟨SessionTable.empty_tidy, SessionTable.empty_abed, SessionTable.empty_idle,
    (fun _ member => nomatch member),
    fun _ member => nomatch member⟩
  waits _ member := nomatch member
  below _ member := nomatch member
  keys := List.nodup_nil

theorem run_watched (acts : List SessionAct) : (opened.run acts).Watched (opened.begun acts) := by
  refine run_induction act opened (P := fun acts d => d.Watched (opened.begun acts)) opened_watched ?_ acts
  intro acts a watched
  rw [begun_concat]
  exact (act_watched watched a).1

-- Every wait that ends gives a session of its target that is attached then, or it gives up when its time is over and
-- there is no such session. Where nobody can move, no wait goes on that should have ended.
theorem waits_miss_no_session (acts : List SessionAct) (a : SessionAct) :
    let d := opened.run acts
    let after := d.act a
    let quests := opened.begun (acts ++ [a])
    (quests.map (·.key)).Nodup ∧
    (∃ ended, after.finished = d.finished ++ ended ∧
      ∀ x ∈ ended, ∃ q ∈ quests, q.key = x.1 ∧ after.table.Answers after.clock q.target q.limit x.2) ∧
    (∀ x ∈ after.waits, ∃ q ∈ quests, q.key = x.1) ∧
    ((Desk.schedule TargetWait.kind).Quiet after → ∀ q ∈ quests, q.key ∈ after.waits.map (·.1) →
      (∀ s ∈ after.table.active, s.target ≠ q.target) ∧ after.clock.now < q.limit.deadline) := by
  intro d after quests
  have ends : d.Ends after quests := by
    have step := (act_watched (run_watched acts) a).2
    rwa [← begun_concat] at step
  have watched : after.Watched quests := by
    have whole := run_watched (acts ++ [a])
    rwa [run, List.foldl_append] at whole
  refine ⟨watched.keys, ends, fun x member => ⟨_, (watched.waits x member).2, rfl⟩, ?_⟩
  intro quiet q begun unfinished
  obtain ⟨x, member, own⟩ := List.mem_map.mp unfinished
  have same : ⟨x.1, x.2.target, x.2.limit⟩ = q :=
    List.inj_on_of_nodup_map watched.keys (watched.waits x member).2 begun own
  have idle : x.2.ready after.clock after.table = false := by
    have resting : (after.wait? x.1).any (fun w => w.ready after.clock after.table) = false :=
      quiet x.1 (List.mem_map_of_mem member)
    rwa [wait_of_mem watched x member, Option.any_some] at resting
  obtain ⟨asleep, early⟩ := Bool.or_eq_false_iff.mp idle
  rw [← same]
  exact ⟨asleep_nobody watched x member asleep, by simpa [Clock.hasPassed] using early⟩

end

def vainActs : List SessionAct :=
  [.seek ⟨"T"⟩ 5, .seek ⟨"U"⟩ 9, .register ⟨"S"⟩ ⟨"T"⟩, .markDetached ⟨"S"⟩, .move 0, .advance 5]

theorem waits_miss_no_session_vain :
    let after := (opened.run vainActs).act (.move 0)
    after.finished = [(0, .error (.timeout (.ofMilliseconds 5)))] ∧ after.waits.map (·.1) = [1] ∧
      (∀ s ∈ after.table.active, s.target ≠ ⟨"U"⟩) ∧ after.clock.now < 9 := by
  intro after
  obtain ⟨-, -, -, rest⟩ := waits_miss_no_session vainActs (.move 0)
  have quiet : (Desk.schedule TargetWait.kind).Quiet after := by
    unfold Schedule.Quiet
    decide +kernel
  obtain ⟨nobody, early⟩ := rest quiet ⟨1, ⟨"U"⟩, ⟨9, .ofMilliseconds 9⟩⟩ (by decide +kernel) (by decide +kernel)
  exact ⟨by rfl, by decide +kernel, nobody, early⟩

end SessionDesk

end DevTools
