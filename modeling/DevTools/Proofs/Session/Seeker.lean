import DevTools.Proofs.Desk
import DevTools.Proofs.Session.Bells
import DevTools.Proofs.Trace
/- Waits for a target step by step. Between any two steps of one, everybody else may take theirs. -/

set_option autoImplicit false

namespace DevTools

-- Where a wait is between two of its steps, and as which sleeper it lies.
inductive Posture where
  | up
  | lying (sleeper : Nat)
  | alone (sleeper : Nat)
  | asleep (sleeper : Nat)
  | stirring (sleeper : Nat)
  | leaving (sleeper : Nat) (result : Except Error Session)

structure Seeker where
  target : TargetId
  limit : Limit
  posture : Posture

namespace Seeker

def sleeper? (w : Seeker) : Option Nat :=
  match w.posture with
  | .up => none
  | .lying key | .alone key | .asleep key | .stirring key | .leaving key _ => some key

def bell? (w : Seeker) (t : SessionTable) : Option Bell := (w.sleeper?.bind t.sleeper?).map (·.bell)

def isWoken (w : Seeker) (t : SessionTable) : Bool := (w.sleeper?.bind t.sleeper?).any (·.woken)

def turn (w : Seeker) (posture : Posture) : Seeker ⊕ Except Error Session := .inl { w with posture }

def move (w : Seeker) (clock : Clock) (t : SessionTable) : (Seeker ⊕ Except Error Session) × SessionTable :=
  match w.posture with
  | .up => let (key, t) := t.lieDown w.target; (w.turn (.lying key), t)
  | .lying key =>
    match t.ofTarget? w.target with
    | some session => (w.turn (.leaving key (.ok session)), t)
    | none => (w.turn (.alone key), t)
  | .alone key =>
      (w.turn (if clock.hasPassed w.limit then .leaving key (.error (.timeout w.limit.after)) else .asleep key), t)
  | .asleep key =>
    if w.isWoken t then (w.turn (.stirring key), t)
    else if clock.hasPassed w.limit then (w.turn (.leaving key (.error (.timeout w.limit.after))), t)
    else (.inl w, t)
  | .stirring key => (w.turn .up, t.getUp key)
  | .leaving key result => (.inr result, t.getUp key)

def ready (w : Seeker) (clock : Clock) (t : SessionTable) : Bool :=
  match w.posture with
  | .asleep _ => w.isWoken t || clock.hasPassed w.limit
  | _ => true

def drop (w : Seeker) (t : SessionTable) : SessionTable :=
  match w.sleeper? with
  | some key => t.getUp key
  | none => t

def kind : WaitKind SessionTable Seeker (Except Error Session) := ⟨ready, move, drop⟩

end Seeker

abbrev SeekerDesk := Desk SessionTable Seeker (Except Error Session)

inductive SeekerAct where
  | stroke (c : SessionTable.Stroke)
  | seek (target : TargetId) (milliseconds : Nat)
  | move (key : Nat)
  | abort (key : Nat)
  | advance (milliseconds : Nat)

def SeekerAct.of? : SeekerAct → Option Nat
  | .move key | .abort key => some key
  | _ => none

namespace SeekerDesk

def opened : SeekerDesk := { table := {} }

def act (d : SeekerDesk) : SeekerAct → SeekerDesk
  | .stroke c => { d with table := d.table.stroke c }
  | .seek target milliseconds => (d.start (.inl ⟨target, d.clock.limit milliseconds, .up⟩)).2
  | .move key => d.move Seeker.kind key
  | .abort key => (d.abort Seeker.kind key).2
  | .advance milliseconds => d.advance milliseconds

def run (d : SeekerDesk) (acts : List SeekerAct) : SeekerDesk := acts.foldl act d

end SeekerDesk

namespace SessionTable

-- Whoever lies is one of the waits, and nobody lies for two of them.
structure Manned (t : SessionTable) (waits : List (Nat × Seeker)) : Prop where
  abed : t.Abed
  hung : t.Hung
  owned : ∀ s ∈ t.sleepers, ∃ x ∈ waits, x.2.sleeper? = some s.key
  lying : ∀ x ∈ waits, ∀ key, x.2.sleeper? = some key → ∃ s ∈ t.sleepers, s.key = key ∧ s.bell.target = x.2.target
  alone : ∀ x ∈ waits, ∀ y ∈ waits, x.1 = y.1 ∨ (x.2.sleeper?.isSome ∧ x.2.sleeper? = y.2.sleeper?) → x = y

section
variable {t : SessionTable} {waits : List (Nat × Seeker)}

theorem bell_iff (abed : t.Abed) (w : Seeker) (b : Bell) :
    w.bell? t = some b ↔ ∃ s ∈ t.sleepers, w.sleeper? = some s.key ∧ s.bell = b := by
  rw [Seeker.bell?]
  constructor
  · intro own
    obtain ⟨s, found, bell⟩ := Option.map_eq_some_iff.mp own
    obtain ⟨key, lies, place⟩ := Option.bind_eq_some_iff.mp found
    have same : s.key = key := by simpa using List.find?_some place
    exact ⟨s, List.mem_of_find?_eq_some place, same ▸ lies, bell⟩
  · rintro ⟨s, member, lies, bell⟩
    rw [lies, Option.bind_some, sleeper_of_mem abed s member, Option.map_some, bell]

theorem manned_chimes {after : SessionTable} {rings : Bell → Bool} (manned : t.Manned waits)
    (chimes : t.Chimes after rings) :
    after.Manned waits := by
  refine ⟨chimes_abed chimes manned.abed, chimes_hung chimes manned.hung, ?_, ?_, manned.alone⟩
  · intro now member
    obtain ⟨s, listed, same, -⟩ := chimes_before chimes now member
    exact same ▸ manned.owned s listed
  · intro x member key lies
    obtain ⟨s, listed, own, target⟩ := manned.lying x member key lies
    obtain ⟨now, there, same, bell⟩ := chimes_sleeper chimes s listed
    exact ⟨now, there, same.trans own, bell ▸ target⟩

theorem manned_join (manned : t.Manned waits) (key : Nat) (w : Seeker) (stands : w.sleeper? = none)
    (unused : ∀ x ∈ waits, x.1 ≠ key) {more : List (Nat × Seeker)} (placed : ∀ x, x ∈ more ↔ x ∈ waits ∨ x = (key, w)) :
    t.Manned more := by
  refine ⟨manned.abed, manned.hung, ?_, ?_, ?_⟩
  · intro s member
    obtain ⟨x, listed, own⟩ := manned.owned s member
    exact ⟨x, (placed x).mpr (Or.inl listed), own⟩
  · intro x member number lies
    rcases (placed x).mp member with old | rfl
    · exact manned.lying x old number lies
    · simp [stands] at lies
  · intro x member y also same
    rcases (placed x).mp member with old | rfl <;> rcases (placed y).mp also with older | rfl
    · exact manned.alone x old y older same
    · rcases same with same | ⟨lies, same⟩
      · exact (unused x old same).elim
      · simp [same, stands] at lies
    · rcases same with same | ⟨lies, -⟩
      · exact (unused y older same.symm).elim
      · simp [stands] at lies
    · rfl

theorem manned_leave (manned : t.Manned waits) (key : Nat) (w : Seeker) (member : (key, w) ∈ waits)
    {fewer : List (Nat × Seeker)} (left : ∀ x, x ∈ fewer ↔ x ∈ waits ∧ x.1 ≠ key) : (w.drop t).Manned fewer := by
  have alone : ∀ x ∈ fewer, ∀ y ∈ fewer, x.1 = y.1 ∨ (x.2.sleeper?.isSome ∧ x.2.sleeper? = y.2.sleeper?) → x = y :=
    fun x stays y also => manned.alone x ((left x).mp stays).1 y ((left y).mp also).1
  rw [Seeker.drop]
  cases lies : w.sleeper? with
  | none =>
      refine ⟨manned.abed, manned.hung, ?_, fun x stays => manned.lying x ((left x).mp stays).1, alone⟩
      intro s listed
      obtain ⟨x, present, own⟩ := manned.owned s listed
      refine ⟨x, (left x).mpr ⟨present, ?_⟩, own⟩
      intro same
      rw [manned.alone x present (key, w) member (Or.inl same), lies] at own
      cases own
  | some number =>
      refine ⟨get_up_abed manned.abed number, get_up_hung manned.abed manned.hung number, ?_, ?_, alone⟩
      · intro s stays
        rw [get_up_sleepers] at stays
        obtain ⟨listed, other⟩ := List.mem_filter.mp stays
        obtain ⟨x, present, own⟩ := manned.owned s listed
        refine ⟨x, (left x).mpr ⟨present, ?_⟩, own⟩
        intro same
        rw [manned.alone x present (key, w) member (Or.inl same), lies] at own
        simp [Option.some.inj own] at other
      · intro x stays mine own
        obtain ⟨present, other⟩ := (left x).mp stays
        obtain ⟨s, listed, same, target⟩ := manned.lying x present mine own
        refine ⟨s, ?_, same, target⟩
        rw [get_up_sleepers]
        refine List.mem_filter.mpr ⟨listed, bne_iff_ne.mpr fun shared => ?_⟩
        have both : x.2.sleeper? = w.sleeper? := by rw [own, lies, ← same, shared]
        exact other (congrArg Prod.fst (manned.alone x present (key, w) member (Or.inr ⟨by simp [own], both⟩)))

theorem manned_lie (manned : t.Manned waits) (key : Nat) (w : Seeker) (lies : w.sleeper? = some t.nextSleeper)
    (unused : ∀ x ∈ waits, x.1 ≠ key) {more : List (Nat × Seeker)} (placed : ∀ x, x ∈ more ↔ x ∈ waits ∨ x = (key, w)) :
    (t.lieDown w.target).2.Manned more := by
  obtain ⟨bell, own, -, sleepers, -⟩ := lie_down_sleepers (t := t) w.target
  have fresh : ∀ x ∈ waits, x.2.sleeper? ≠ some t.nextSleeper := by
    intro x member taken
    obtain ⟨s, listed, same, -⟩ := manned.lying x member _ taken
    exact Nat.ne_of_lt (manned.abed.below s listed) same
  refine ⟨lie_down_abed manned.abed w.target, lie_down_hung manned.hung w.target, ?_, ?_, ?_⟩
  · intro s member
    rw [sleepers] at member
    rcases List.mem_append.mp member with old | new
    · obtain ⟨x, listed, mine⟩ := manned.owned s old
      exact ⟨x, (placed x).mpr (Or.inl listed), mine⟩
    · rw [List.mem_singleton.mp new]
      exact ⟨(key, w), (placed _).mpr (Or.inr rfl), lies⟩
  · intro x member number mine
    rw [sleepers]
    rcases (placed x).mp member with old | rfl
    · obtain ⟨s, listed, rest⟩ := manned.lying x old number mine
      exact ⟨s, List.mem_append_left _ listed, rest⟩
    · exact ⟨_, List.mem_append_right _ List.mem_cons_self, Option.some.inj (lies.symm.trans mine), own⟩
  · intro x member y also same
    rcases (placed x).mp member with old | rfl <;> rcases (placed y).mp also with older | rfl
    · exact manned.alone x old y older same
    · exact (same.elim (unused x old) fun same => fresh x old (same.2.trans lies)).elim
    · exact (same.elim (fun same => unused y older same.symm) fun same => fresh y older (same.2.symm.trans lies)).elim
    · rfl

theorem manned_turn (manned : t.Manned waits) (key : Nat) (w next : Seeker) (member : (key, w) ∈ waits)
    (target : next.target = w.target) (lies : next.sleeper? = w.sleeper?) {others : List (Nat × Seeker)}
    (placed : ∀ x, x ∈ others ↔ (x ∈ waits ∧ x.1 ≠ key) ∨ x = (key, next)) : t.Manned others := by
  -- Everybody is somebody from before, and has the same sleeper and the same key.
  have before : ∀ x ∈ others, ∃ y ∈ waits, y.1 = x.1 ∧ y.2.target = x.2.target ∧ y.2.sleeper? = x.2.sleeper? := by
    intro x listed
    rcases (placed x).mp listed with ⟨old, -⟩ | rfl
    · exact ⟨x, old, rfl, rfl, rfl⟩
    · exact ⟨_, member, rfl, target.symm, lies.symm⟩
  refine ⟨manned.abed, manned.hung, ?_, ?_, ?_⟩
  · intro s listed
    obtain ⟨x, present, own⟩ := manned.owned s listed
    by_cases mine : x.1 = key
    · refine ⟨(key, next), (placed _).mpr (Or.inr rfl), ?_⟩
      rw [manned.alone x present (key, w) member (Or.inl mine)] at own
      exact lies.trans own
    · exact ⟨x, (placed x).mpr (Or.inl ⟨present, mine⟩), own⟩
  · intro x listed number own
    obtain ⟨y, present, -, aim, same⟩ := before x listed
    rw [← aim]
    exact manned.lying y present number (same.trans own)
  · intro x listed y also same
    rcases (placed x).mp listed with ⟨old, apart⟩ | rfl <;> rcases (placed y).mp also with ⟨older, other⟩ | rfl
    · exact manned.alone x old y older same
    · refine (apart (congrArg Prod.fst (manned.alone x old (key, w) member ?_))).elim
      exact same.imp_right fun both => ⟨both.1, both.2.trans lies⟩
    · refine (other (congrArg Prod.fst (manned.alone y older (key, w) member ?_))).elim
      exact same.imp Eq.symm fun ⟨lying, both⟩ => ⟨both ▸ lying, both.symm.trans lies⟩
    · rfl

end

end SessionTable

namespace SeekerDesk

structure Manned (d : SeekerDesk) : Prop where
  table : d.table.Manned d.waits
  below : ∀ x ∈ d.waits, x.1 < d.nextWait

section
variable {d : SeekerDesk}

-- What a step can do: turn over, lie down, get up to start again, or get up and leave.
theorem move_steps (w : Seeker) (clock : Clock) (t : SessionTable) :
    (∃ next : Seeker, w.move clock t = (.inl next, t) ∧ next.target = w.target ∧ next.sleeper? = w.sleeper?) ∨
    (∃ next : Seeker, w.move clock t = (.inl next, (t.lieDown next.target).2) ∧ w.sleeper? = none ∧
      next.sleeper? = some t.nextSleeper) ∨
    (∃ next : Seeker, w.move clock t = (.inl next, w.drop t) ∧ next.sleeper? = none) ∨
    ∃ result, w.move clock t = (.inr result, w.drop t) := by
  obtain ⟨target, limit, posture⟩ := w
  cases posture with
  | up =>
      refine Or.inr (Or.inl ⟨⟨target, limit, .lying (t.lieDown target).1⟩, rfl, rfl, ?_⟩)
      simp [Seeker.sleeper?, (SessionTable.lie_down_next target).1]
  | lying key =>
      simp only [Seeker.move]
      split <;> exact Or.inl ⟨_, rfl, rfl, rfl⟩
  | alone key =>
      simp only [Seeker.move]
      split <;> exact Or.inl ⟨_, rfl, rfl, rfl⟩
  | asleep key =>
      simp only [Seeker.move]
      split
      · exact Or.inl ⟨_, rfl, rfl, rfl⟩
      · split <;> exact Or.inl ⟨_, rfl, rfl, rfl⟩
  | stirring key => exact Or.inr (Or.inr (Or.inl ⟨_, rfl, rfl⟩))
  | leaving key result => exact Or.inr (Or.inr (Or.inr ⟨_, rfl⟩))

theorem move_manned (manned : d.Manned) (key : Nat) : Manned (d.move Seeker.kind key) := by
  cases found : d.wait? key with
  | none =>
      simp only [Desk.move, found]
      exact manned
  | some w =>
      have member := Desk.wait_found key w found
      have left := SessionTable.manned_leave manned.table key w member (Desk.mem_without key)
      have unused : ∀ x ∈ (d.withoutWait key).waits, x.1 ≠ key := fun x stays => ((Desk.mem_without key x).mp stays).2
      have again : ∀ next table, ∀ x, x ∈ (d.place key next table).waits ↔ x ∈ (d.withoutWait key).waits ∨
          x = (key, next) := by
        intro next table x
        rw [Desk.mem_place key w next table member, Desk.mem_without]
      have below : ∀ next table, ∀ x ∈ (d.place key next table).waits, x.1 < d.nextWait := by
        intro next table x listed
        rcases (again next table x).mp listed with old | rfl
        · exact manned.below x ((Desk.mem_without key x).mp old).1
        · exact manned.below (key, w) member
      rcases move_steps w d.clock d.table with ⟨next, goes, target, lies⟩ | ⟨next, goes, stood, lies⟩
        | ⟨next, goes, stands⟩ | ⟨result, ends⟩
      · rw [Desk.move_place Seeker.kind key w next _ found goes]
        exact ⟨SessionTable.manned_turn manned.table key w next member target lies (Desk.mem_place key w next _ member),
          below next _⟩
      · rw [Desk.move_place Seeker.kind key w next _ found goes]
        rw [Seeker.drop, stood] at left
        exact ⟨SessionTable.manned_lie left key next lies unused (again next _), below next _⟩
      · rw [Desk.move_place Seeker.kind key w next _ found goes]
        exact ⟨SessionTable.manned_join left key next stands unused (again next _), below next _⟩
      · rw [Desk.move_conclude Seeker.kind key w result _ found ends]
        exact ⟨left, fun x stays => manned.below x ((Desk.mem_without key x).mp stays).1⟩

theorem act_manned (manned : d.Manned) (a : SeekerAct) : (d.act a).Manned := by
  cases a with
  | stroke c =>
      obtain ⟨rings, chimes⟩ := SessionTable.stroke_chimes (t := d.table) c
      exact ⟨SessionTable.manned_chimes manned.table chimes, manned.below⟩
  | seek target milliseconds =>
      refine ⟨?_, ?_⟩
      · refine SessionTable.manned_join manned.table d.nextWait ⟨target, d.clock.limit milliseconds, .up⟩ rfl ?_ ?_
        · exact fun x member => Nat.ne_of_lt (manned.below x member)
        · simp [act, Desk.start]
      · intro x member
        rcases List.mem_append.mp member with old | new
        · exact Nat.lt_succ_of_lt (manned.below x old)
        · rw [List.mem_singleton.mp new]
          exact Nat.lt_succ_self _
  | move key => exact move_manned manned key
  | abort key =>
      simp only [act, Desk.abort]
      cases found : d.wait? key with
      | none => exact manned
      | some w =>
          refine ⟨SessionTable.manned_leave manned.table key w (Desk.wait_found key w found) (Desk.mem_without key), ?_⟩
          exact fun x stays => manned.below x ((Desk.mem_without key x).mp stays).1
  | advance milliseconds => exact ⟨manned.table, manned.below⟩

theorem opened_manned : opened.Manned where
  table := ⟨SessionTable.empty_abed, SessionTable.empty_hung, (fun _ member => nomatch member),
    (fun _ member => nomatch member),
    fun _ member => nomatch member⟩
  below _ member := nomatch member

theorem run_manned (acts : List SeekerAct) : (opened.run acts).Manned :=
  run_induction act opened (P := fun _ d => d.Manned) opened_manned (fun _ a manned => act_manned manned a) acts

end

end SeekerDesk

end DevTools
