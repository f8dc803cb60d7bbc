import DevTools.Proofs.Session.Seeker
import DevTools.Proofs.Session.Waking
/- Waits that take several steps at one go do what they would do step by step. -/

set_option autoImplicit false

namespace DevTools

def TargetWait.asSeeker (w : TargetWait) : Seeker := ⟨w.target, w.limit, .asleep w.sleeper⟩

namespace SeekerDesk

def ofDesk (d : SessionDesk) : SeekerDesk :=
  ⟨d.table, d.clock, d.waits.map fun x => (x.1, x.2.asSeeker), d.nextWait, d.finished⟩

def Reaches (d after : SeekerDesk) : Prop := ∃ acts, d.run acts = after

def follow (d : SeekerDesk) (key : Nat) (look : Look × SessionTable) : SeekerDesk :=
  match look with
  | (.asleep w, table) => d.place key w.asSeeker table
  | (.settled result, table) => d.conclude key result table

section
variable {d : SeekerDesk}

theorem reaches_trans {between after : SeekerDesk} (first : d.Reaches between) (later : between.Reaches after) :
    d.Reaches after := by
  obtain ⟨before, rfl⟩ := first
  obtain ⟨rest, rfl⟩ := later
  exact ⟨before ++ rest, List.foldl_append⟩

section
variable {key : Nat} {w next : Seeker} {table later : SessionTable}

theorem first_step (found : d.wait? key = some w) (goes : w.move d.clock d.table = (.inl next, later)) :
    d.Reaches (d.place key next later) := ⟨[.move key], Desk.move_place Seeker.kind key w next later found goes⟩

theorem next_step {after : Seeker} (found : d.wait? key = some w)
    (goes : next.move d.clock table = (.inl after, later)) :
    Reaches (d.place key next table) (d.place key after later) := by
  have step := first_step (d := d.place key next table) (Desk.place_wait key w next table found) goes
  rwa [Desk.place_place] at step

theorem last_step {result : Except Error Session} (found : d.wait? key = some w)
    (ends : next.move d.clock table = (.inr result, later)) :
    Reaches (d.place key next table) (d.conclude key result later) := by
  refine ⟨[.move key], ?_⟩
  have step := Desk.move_conclude Seeker.kind key next result later (Desk.place_wait key w next table found) ends
  rwa [Desk.place_conclude] at step

theorem look_steps (found : d.wait? key = some w) (target : TargetId) (limit : Limit) (table : SessionTable) :
    Reaches (d.place key ⟨target, limit, .up⟩ table) (d.follow key (TargetWait.look d.clock target limit table)) := by
  have lies : Reaches (d.place key ⟨target, limit, .up⟩ table)
      (d.place key ⟨target, limit, .lying (table.lieDown target).1⟩ (table.lieDown target).2) := next_step found rfl
  refine reaches_trans lies ?_
  simp only [TargetWait.look]
  generalize table.lieDown target = lain
  obtain ⟨sleeper, bed⟩ := lain
  dsimp only
  cases there : bed.ofTarget? target with
  | some session =>
      have finds : Seeker.move ⟨target, limit, .lying sleeper⟩ d.clock bed =
          (.inl ⟨target, limit, .leaving sleeper (.ok session)⟩, bed) := by
        simp only [Seeker.move, there, Seeker.turn]
      exact reaches_trans (next_step found finds) (last_step found rfl)
  | none =>
      have misses : Seeker.move ⟨target, limit, .lying sleeper⟩ d.clock bed =
          (.inl ⟨target, limit, .alone sleeper⟩, bed) := by
        simp only [Seeker.move, there, Seeker.turn]
      refine reaches_trans (next_step found misses) ?_
      by_cases passed : d.clock.hasPassed limit = true
      · have late : Seeker.move ⟨target, limit, .alone sleeper⟩ d.clock bed =
            (.inl ⟨target, limit, .leaving sleeper (.error (.timeout limit.after))⟩, bed) := by
          simp only [Seeker.move, passed, if_true, Seeker.turn]
        rw [if_pos passed]
        exact reaches_trans (next_step found late) (last_step found rfl)
      · have early : Seeker.move ⟨target, limit, .alone sleeper⟩ d.clock bed =
          (.inl ⟨target, limit, .asleep sleeper⟩, bed) := by
          simp only [Seeker.move, passed, Bool.false_eq_true, if_false, Seeker.turn]
        rw [if_neg passed]
        exact next_step found early

end

theorem run_strokes (strokes : List SessionTable.Stroke) :
    d.run (strokes.map .stroke) = { d with table := strokes.foldl SessionTable.stroke d.table } := by
  induction strokes generalizing d with
  | nil => rfl
  | cons c strokes ih =>
      rw [List.map_cons, run, List.foldl_cons]
      exact ih

end

section
variable (d : SessionDesk)

theorem of_desk_wait (key : Nat) : (ofDesk d).wait? key = (d.wait? key).map (·.asSeeker) := by
  simp only [Desk.wait?, ofDesk, List.find?_map, Option.map_map]
  rfl

theorem of_desk_place (key : Nat) (w : TargetWait) (table : SessionTable) :
    ofDesk (d.place key w table) = (ofDesk d).place key w.asSeeker table := by
  simp only [ofDesk, Desk.place, List.map_map, Desk.mk.injEq, true_and, and_true]
  refine List.map_congr_left fun x _ => ?_
  by_cases own : x.1 = key <;> simp [own]

theorem of_desk_without (key : Nat) :
    (d.withoutWait key).waits.map (fun x => (x.1, x.2.asSeeker)) = ((ofDesk d).withoutWait key).waits := by
  simp only [Desk.withoutWait, ofDesk, List.filter_map]
  rfl

theorem of_desk_conclude (key : Nat) (result : Except Error Session) (table : SessionTable) :
    ofDesk (d.conclude key result table) = (ofDesk d).conclude key result table := by
  simp only [Desk.conclude, ofDesk]
  rw [of_desk_without]
  rfl

theorem of_desk_move (key : Nat) (w : TargetWait) (found : d.wait? key = some w) :
    ofDesk (d.move TargetWait.kind key) = (ofDesk d).follow key (w.move d.clock d.table) := by
  rcases moved : w.move d.clock d.table with ⟨look | result, table⟩
  · rw [Desk.move_place TargetWait.kind key w look table found (by simp [TargetWait.kind, moved, Look.asStep])]
    exact of_desk_place d key look table
  · rw [Desk.move_conclude TargetWait.kind key w result table found (by simp [TargetWait.kind, moved, Look.asStep])]
    exact of_desk_conclude d key result table

theorem move_reaches (key : Nat) : Reaches (ofDesk d) (ofDesk (d.move TargetWait.kind key)) := by
  cases found : d.wait? key with
  | none =>
      refine ⟨[], ?_⟩
      simp only [Desk.move, found]
      rfl
  | some w =>
      have here : (ofDesk d).wait? key = some w.asSeeker := by rw [of_desk_wait, found, Option.map_some]
      have woken : w.asSeeker.isWoken d.table = w.isWoken d.table := rfl
      rw [of_desk_move d key w found, TargetWait.move]
      by_cases stirs : w.isWoken d.table = true
      · rw [if_pos stirs]
        have stirring : w.asSeeker.move d.clock d.table = (.inl ⟨w.target, w.limit, .stirring w.sleeper⟩, d.table) := by
          change (if w.asSeeker.isWoken d.table then _ else _) = _
          rw [if_pos (woken.trans stirs)]
          rfl
        exact reaches_trans (first_step here stirring)
          (reaches_trans (next_step here rfl) (look_steps here w.target w.limit _))
      · rw [if_neg stirs]
        by_cases passed : d.clock.hasPassed w.limit = true
        · rw [if_pos passed]
          have gives_up : w.asSeeker.move d.clock d.table =
              (.inl ⟨w.target, w.limit, .leaving w.sleeper (.error (.timeout w.limit.after))⟩, d.table) := by
            change (if w.asSeeker.isWoken d.table then _ else if d.clock.hasPassed w.limit then _ else _) = _
            rw [if_neg (woken ▸ stirs), if_pos passed]
            rfl
          exact reaches_trans (first_step here gives_up) (last_step here rfl)
        · rw [if_neg passed]
          refine first_step here ?_
          change (if w.asSeeker.isWoken d.table then _ else if d.clock.hasPassed w.limit then _ else _) = _
          rw [if_neg (woken ▸ stirs), if_neg passed]
          rfl

theorem seek_reaches (fresh : ∀ x ∈ d.waits, x.1 < d.nextWait) (target : TargetId) (milliseconds : Nat) :
    Reaches (ofDesk d) (ofDesk (d.act (.seek target milliseconds))) := by
  let up : Seeker := ⟨target, d.clock.limit milliseconds, .up⟩
  have unused : ∀ x ∈ (ofDesk d).waits, x.1 ≠ (ofDesk d).nextWait := by
    intro x member
    obtain ⟨y, listed, rfl⟩ := List.mem_map.mp member
    exact Nat.ne_of_lt (fresh y listed)
  have begun : Reaches (ofDesk d) ((ofDesk d).start (.inl up)).2 := ⟨[.seek target milliseconds], rfl⟩
  have looks := look_steps (Desk.start_wait unused up) target (d.clock.limit milliseconds) d.table
  rw [Desk.start_place unused] at looks
  have ends : ofDesk (d.act (.seek target milliseconds)) = follow ((ofDesk d).start (.inl up)).2 d.nextWait
      (TargetWait.look d.clock target (d.clock.limit milliseconds) d.table) := by
    simp only [SessionDesk.act]
    rcases TargetWait.look d.clock target (d.clock.limit milliseconds) d.table with ⟨w | result, table⟩
    · refine Eq.trans ?_ (Desk.start_place unused up w.asSeeker table).symm
      simp [ofDesk, Desk.start, Look.asStep]
    · exact (Desk.start_conclude unused up result table).symm
  refine reaches_trans begun ?_
  rw [ends]
  exact looks

theorem perform_reaches (deed : SessionDeed) (standing : deed.isStanding = true) :
    Reaches (ofDesk d) (ofDesk { d with table := d.table.perform deed }) := by
  refine ⟨(d.table.strokes deed).map .stroke, ?_⟩
  rw [run_strokes, SessionTable.perform_strokes d.table deed standing]
  rfl

theorem act_reaches (fresh : ∀ x ∈ d.waits, x.1 < d.nextWait) (a : SessionAct) :
    Reaches (ofDesk d) (ofDesk (d.act a)) := by
  cases a with
  | seek target milliseconds => exact seek_reaches d fresh target milliseconds
  | move key => exact move_reaches d key
  | abort key =>
      refine ⟨[.abort key], ?_⟩
      simp only [run, List.foldl_cons, List.foldl_nil, act, SessionDesk.act, Desk.abort, of_desk_wait]
      cases found : d.wait? key with
      | none => rfl
      | some w =>
          simp only [Option.map_some, ofDesk, Desk.mk.injEq, Desk.withoutWait, true_and, and_true]
          exact ⟨rfl, (of_desk_without d key).symm⟩
  | advance milliseconds => exact ⟨[.advance milliseconds], rfl⟩
  | register | markDetached | detachAll | purge => exact perform_reaches d _ rfl

theorem run_reaches (acts : List SessionAct) : Reaches opened (ofDesk (SessionDesk.opened.run acts)) := by
  refine run_induction SessionDesk.act SessionDesk.opened (P := fun _ d => Reaches opened (ofDesk d)) ⟨[], rfl⟩ ?_ acts
  intro acts a reached
  exact reaches_trans reached (act_reaches _ (fun x member => ((SessionDesk.run_watched acts).waits x member).1) a)

end

section
variable {d : SeekerDesk}

theorem bell_has_wait (manned : d.Manned) (b : Bell) (hangs : b ∈ d.table.bells) :
    ∃ x ∈ d.waits, x.2.target = b.target ∧ x.2.bell? d.table = some b := by
  obtain ⟨s, lying, rfl⟩ := manned.table.hung.held b hangs
  obtain ⟨x, present, own⟩ := manned.table.owned s lying
  obtain ⟨other, listed, same, target⟩ := manned.table.lying x present s.key own
  have one := List.inj_on_of_nodup_map manned.table.abed.keys listed lying same
  exact ⟨x, present, (one ▸ target).symm, (SessionTable.bell_iff manned.table.abed x.2 s.bell).mpr ⟨s, lying, own, rfl⟩⟩

theorem sleeper_has_bell (manned : d.Manned) (x : Nat × Seeker) (present : x ∈ d.waits) (lies : x.2.sleeper?.isSome)
    (asleep : x.2.isWoken d.table = false) : ∃ b ∈ d.table.bells, x.2.bell? d.table = some b ∧
    b.target = x.2.target := by
  obtain ⟨key, own⟩ := Option.isSome_iff_exists.mp lies
  obtain ⟨s, lying, rfl, target⟩ := manned.table.lying x present key own
  have quiet : s.woken = false := by
    rwa [Seeker.isWoken, own, Option.bind_some, SessionTable.sleeper_of_mem manned.table.abed s lying,
      Option.any_some] at asleep
  exact ⟨s.bell, manned.table.abed.hung s lying quiet,
    (SessionTable.bell_iff manned.table.abed x.2 s.bell).mpr ⟨s, lying, own, rfl⟩, target⟩

theorem step_spares (w : Seeker) (clock : Clock) (t : SessionTable) (s : Sleeper) (member : s ∈ t.sleepers)
    (other : w.sleeper? ≠ some s.key) : s ∈ (w.drop t).sleepers ∧ s ∈ (w.move clock t).2.sleepers ∧
      (s.bell ∈ t.bells → s.bell ∈ (w.drop t).bells ∧ s.bell ∈ (w.move clock t).2.bells) := by
  have spared : s ∈ (w.drop t).sleepers ∧ (s.bell ∈ t.bells → s.bell ∈ (w.drop t).bells) := by
    rw [Seeker.drop]
    cases lies : w.sleeper? with
    | none => exact ⟨member, id⟩
    | some key =>
        have stays : s ∈ (t.getUp key).sleepers := by
          rw [SessionTable.get_up_sleepers]
          exact List.mem_filter.mpr ⟨member, bne_iff_ne.mpr fun same => other (lies.trans (congrArg some same.symm))⟩
        exact ⟨stays, SessionTable.get_up_bells key s stays⟩
  obtain ⟨drops, keeps⟩ := spared
  rcases move_steps w clock t with ⟨next, goes, -⟩ | ⟨next, goes, -⟩ | ⟨next, goes, -⟩ | ⟨result, ends⟩
  · rw [goes]
    exact ⟨drops, member, fun hangs => ⟨keeps hangs, hangs⟩⟩
  · rw [goes]
    obtain ⟨bell, -, -, sleepers, bells⟩ := SessionTable.lie_down_sleepers (t := t) next.target
    exact ⟨drops, by rw [sleepers]; exact List.mem_append_left _ member, fun hangs => ⟨keeps hangs, bells s.bell hangs⟩⟩
  · rw [goes]
    exact ⟨drops, drops, fun hangs => ⟨keeps hangs, keeps hangs⟩⟩
  · rw [ends]
    exact ⟨drops, drops, fun hangs => ⟨keeps hangs, keeps hangs⟩⟩

-- Whoever is not meant stays where they are, and has the bell they had; and the bell hangs as before where nobody is
-- registered.
theorem act_spares (manned : d.Manned) (a : SeekerAct) (x : Nat × Seeker) (present : x ∈ d.waits)
    (other : a.of? ≠ some x.1)
    (s : Sleeper) (lying : s ∈ d.table.sleepers) (own : x.2.sleeper? = some s.key) :
    (∃ now ∈ (d.act a).table.sleepers, now.key = s.key ∧ now.bell = s.bell) ∧
    ((∀ c, a ≠ .stroke c) → s.bell ∈ d.table.bells → s.bell ∈ (d.act a).table.bells) := by
  have apart : ∀ (key : Nat) (w : Seeker), d.wait? key = some w → a.of? = some key → w.sleeper? ≠ some s.key := by
    intro key w found mine same
    have one := manned.table.alone x present (key, w) (Desk.wait_found key w found)
      (Or.inr ⟨by simp [own], own.trans same.symm⟩)
    exact other (mine.trans (congrArg some (congrArg Prod.fst one).symm))
  cases a with
  | stroke c =>
      obtain ⟨rings, chimes⟩ := SessionTable.stroke_chimes (t := d.table) c
      exact ⟨SessionTable.chimes_sleeper chimes s lying, fun never => (never c rfl).elim⟩
  | seek target milliseconds | advance milliseconds => exact ⟨⟨s, lying, rfl, rfl⟩, fun _ hangs => hangs⟩
  | move key =>
      simp only [act, Desk.move]
      cases found : d.wait? key with
      | none => exact ⟨⟨s, lying, rfl, rfl⟩, fun _ hangs => hangs⟩
      | some w =>
          obtain ⟨-, stays, bells⟩ := step_spares w d.clock d.table s lying (apart key w found rfl)
          simp only [Seeker.kind]
          split
          · next moved =>
              rw [moved] at stays bells
              exact ⟨⟨s, stays, rfl, rfl⟩, fun _ hangs => (bells hangs).2⟩
          · next moved =>
              rw [moved] at stays bells
              exact ⟨⟨s, stays, rfl, rfl⟩, fun _ hangs => (bells hangs).2⟩
  | abort key =>
      simp only [act, Desk.abort]
      cases found : d.wait? key with
      | none => exact ⟨⟨s, lying, rfl, rfl⟩, fun _ hangs => hangs⟩
      | some w =>
          obtain ⟨stays, -, bells⟩ := step_spares w d.clock d.table s lying (apart key w found rfl)
          exact ⟨⟨s, stays, rfl, rfl⟩, fun _ hangs => (bells hangs).1⟩

theorem act_stays (a : SeekerAct) (x : Nat × Seeker) (present : x ∈ d.waits) (other : a.of? ≠ some x.1) :
    x ∈ (d.act a).waits := by
  cases a with
  | stroke | advance => exact present
  | seek target milliseconds => exact List.mem_append_left _ present
  | move key =>
      have apart : x.1 ≠ key := fun same => other (congrArg some same.symm)
      simp only [act, Desk.move]
      cases found : d.wait? key with
      | none => exact present
      | some w =>
          dsimp only
          split
          · next next table _ =>
              exact (Desk.mem_place key w next table (Desk.wait_found key w found) x).mpr (Or.inl ⟨present, apart⟩)
          · exact (Desk.mem_without key x).mpr ⟨present, apart⟩
  | abort key =>
      simp only [act, Desk.abort]
      split
      · exact present
      · exact (Desk.mem_without key x).mpr ⟨present, fun same => other (congrArg some same.symm)⟩

-- A bell hangs for a target only while a wait for it lies at that very bell, and whoever sleeps has one that hangs.
-- No step of one wait, and no wait that is given up, takes from another its place or its bell. Whoever gets up takes
-- the bell down if it hangs and there are two who have hold of it. Where nobody waits there is no bell, be it that
-- waits take their steps one by one or several at one go.
theorem bells_go_with_waits (acts : List SeekerAct) (a : SeekerAct) :
    let d := opened.run acts
    let after := d.act a
    (∀ b ∈ d.table.bells, ∃ x ∈ d.waits, x.2.target = b.target ∧ x.2.bell? d.table = some b) ∧
    (d.table.bells.map (·.target)).Nodup ∧
    (∀ x ∈ d.waits, x.2.sleeper?.isSome → x.2.isWoken d.table = false →
      ∃ b ∈ d.table.bells, x.2.bell? d.table = some b ∧ b.target = x.2.target) ∧
    (∀ x ∈ d.waits, a.of? ≠ some x.1 → x ∈ after.waits ∧ ∀ b, x.2.bell? d.table = some b →
      x.2.bell? after.table = some b ∧ ((∀ c, a ≠ .stroke c) → b ∈ d.table.bells → b ∈ after.table.bells)) ∧
    (∀ s ∈ d.table.sleepers, (d.table.getUp s.key).bells =
      if d.table.holders s.bell = 2 then d.table.bells.filter (· != s.bell) else d.table.bells) ∧
    (d.waits = [] → d.table.bells = []) ∧
    ∀ acts, let coarse := SessionDesk.opened.run acts
      (∀ b ∈ coarse.table.bells, ∃ x ∈ coarse.waits, x.2.target = b.target ∧
        (coarse.table.sleeper? x.2.sleeper).map (·.bell) = some b) ∧
      (coarse.waits = [] → coarse.table.bells = []) := by
  intro d after
  have manned : d.Manned := run_manned acts
  have next : after.Manned := act_manned manned a
  refine ⟨bell_has_wait manned, manned.table.hung.single, sleeper_has_bell manned, ?_, ?_, ?_, ?_⟩
  · intro x present other
    refine ⟨act_stays a x present other, ?_⟩
    intro b own
    obtain ⟨s, lying, lies, rfl⟩ := (SessionTable.bell_iff manned.table.abed x.2 b).mp own
    obtain ⟨⟨now, there, same, bell⟩, keeps⟩ := act_spares manned a x present other s lying lies
    exact ⟨(SessionTable.bell_iff next.table.abed x.2 s.bell).mpr ⟨now, there, same ▸ lies, bell⟩, keeps⟩
  · exact fun s lying => SessionTable.get_up_counts manned.table.abed manned.table.hung s lying
  · intro nobody
    refine List.eq_nil_iff_forall_not_mem.mpr fun b hangs => ?_
    obtain ⟨x, present, -⟩ := bell_has_wait manned b hangs
    rw [nobody] at present
    cases present
  · intro acts coarse
    obtain ⟨steps, same⟩ := run_reaches acts
    have sound : (ofDesk coarse).Manned := same ▸ run_manned steps
    have held : ∀ b ∈ coarse.table.bells, ∃ x ∈ coarse.waits, x.2.target = b.target ∧
        (coarse.table.sleeper? x.2.sleeper).map (·.bell) = some b := by
      intro b hangs
      obtain ⟨x, present, target, bell⟩ := bell_has_wait sound b hangs
      obtain ⟨y, listed, rfl⟩ := List.mem_map.mp present
      exact ⟨y, listed, target, bell⟩
    refine ⟨held, fun nobody => List.eq_nil_iff_forall_not_mem.mpr fun b hangs => ?_⟩
    obtain ⟨x, present, -⟩ := held b hangs
    rw [nobody] at present
    cases present

end

def passingActs : List SeekerAct :=
  [.seek ⟨"T"⟩ 9, .seek ⟨"T"⟩ 9, .move 0, .move 1, .move 0, .move 0, .stroke (.enter ⟨"S"⟩ ⟨"T"⟩),
    .stroke (.ring ⟨"T"⟩),
    .stroke (.markDetached ⟨"S"⟩), .seek ⟨"T"⟩ 9, .move 2, .move 0]

-- One who was woken gets up and leaves the third its bell; when the third has gone as well, no bell is left.
theorem bells_go_with_waits_passing :
    let d := opened.run passingActs
    let after := d.act (.move 0)
    let later := (after.act (.abort 2)).act (.abort 1)
    (∃ x ∈ d.waits, x.1 = 2 ∧ x ∈ after.waits ∧ x.2.bell? after.table = some ⟨⟨"T"⟩, 1⟩) ∧
      ⟨⟨"T"⟩, 1⟩ ∈ after.table.bells ∧
      later.waits.map (·.1) = [0] ∧ later.table.bells = [] ∧ (later.act (.abort 0)).table.bells = [] := by
  intro d after later
  obtain ⟨-, -, -, others, -⟩ := bells_go_with_waits passingActs (.move 0)
  let x : Nat × Seeker := (2, ⟨⟨"T"⟩, ⟨9, .ofMilliseconds 9⟩, .lying 2⟩)
  have present : x ∈ d.waits := List.mem_of_getElem? (i := 2) (by rfl)
  obtain ⟨stays, bells⟩ := others x present (by decide)
  obtain ⟨own, keeps⟩ := bells ⟨⟨"T"⟩, 1⟩ (by decide +kernel)
  have hangs := keeps (fun c => by simp) (by decide +kernel)
  obtain ⟨-, -, -, -, -, nobody, -⟩ :=
    bells_go_with_waits (passingActs ++ [.move 0, .abort 2, .abort 1, .abort 0]) (.advance 1)
  exact ⟨⟨x, present, rfl, stays, own⟩, hangs, by rfl, by decide +kernel, nobody (by rfl)⟩

end SeekerDesk

end DevTools
