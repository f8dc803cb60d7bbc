import DevTools.Proofs.Session.Answers
import DevTools.Proofs.Trace

set_option autoImplicit false

namespace DevTools

namespace SessionTable

def detaches (t : SessionTable) : SessionDeed → List Session
  | .markDetached session => (t.markDetached session).1.toList
  | _ => []

def hands (t : SessionTable) : SessionDeed → List Session
  | .register session target => [(t.register session target).1]
  | d => t.detaches d

-- How a session looks now to those who hold it. One that the table has forgotten does not change anymore.
def seen (t : SessionTable) (s : Session) : Session := (t.sessions.find? (·.serial == s.serial)).getD s

section
variable {t : SessionTable}

theorem seen_kept (tidy : t.Tidy) (s now : Session) (kept : now ∈ t.sessions) (same : now.serial = s.serial) :
    t.seen s = now := by
  have found := find_keyed Session.serial t.sessions tidy.serials now kept
  rw [same] at found
  rw [seen, found, Option.getD_some]

theorem seen_gone (s : Session) (gone : ∀ other ∈ t.sessions, other.serial ≠ s.serial) : t.seen s = s := by
  have nobody : t.sessions.find? (·.serial == s.serial) = none := by
    rw [List.find?_eq_none]
    intro other member
    simpa using gone other member
  rw [seen, nobody, Option.getD_none]

theorem register_held (session : SessionId) (target : TargetId) (s : Session) (found : t.get? session = some s) :
    (t.register session target).1 = s := by
  simp only [register, found]
  split <;> rfl

theorem register_new (session : SessionId) (target : TargetId) (missing : t.get? session = none) :
    (t.register session target).1 = ⟨t.nextSerial, session, target, false⟩ := by
  simp only [register, missing]

theorem brings_handed (d : SessionDeed) (s : Session) (comes : s ∈ t.brings d) : s ∈ t.hands d := by
  cases d with
  | register session target =>
      simp only [brings] at comes
      split at comes
      · cases comes
      · next missing =>
          rw [hands, register_new session target (by simpa using missing)]
          exact comes
  | markDetached | detachAll | purge | lieDown | getUp => cases comes

theorem hands_kept (tidy : t.Tidy) (d : SessionDeed) (s : Session) (handed : s ∈ t.hands d) :
    s ∈ (t.perform d).sessions := by
  rw [perform_sessions tidy]
  cases d with
  | register session target =>
      rw [List.mem_singleton.mp handed, SessionDeed.mark_none (.register session target) rfl, List.map_id]
      cases found : t.get? session with
      | none =>
          rw [register_new session target found]
          exact List.mem_append_right _ (by simp [brings, found])
      | some old =>
          rw [register_held session target old found]
          exact List.mem_append_left _ (List.mem_filter.mpr ⟨(get_mem session old found).1, rfl⟩)
  | markDetached session =>
      obtain ⟨old, found, -, rfl⟩ := (mark_gives session s).mp (Option.mem_toList.mp handed)
      obtain ⟨kept, own⟩ := get_mem session old found
      apply List.mem_append_left
      exact List.mem_map.mpr ⟨old, List.mem_filter.mpr ⟨kept, rfl⟩, by simp [SessionDeed.mark, SessionDeed.picks, own]⟩
  | detachAll | purge | lieDown | getUp => cases handed

end

end SessionTable

-- A table and all the sessions that were ever got from it, as those who hold them see them.
structure SessionBook where
  table : SessionTable := {}
  held : List Session := []

namespace SessionBook

def perform (b : SessionBook) (d : SessionDeed) : SessionBook :=
  let table := b.table.perform d
  ⟨table, (b.held ++ b.table.hands d).map table.seen⟩

def run (deeds : List SessionDeed) : SessionBook := deeds.foldl perform {}

def told (deeds : List SessionDeed) : List Session :=
  (trace perform {} deeds).flatMap fun (b, d) => b.table.detaches d

-- Whoever holds a session that the table has forgotten holds a detached one.
structure Faithful (b : SessionBook) : Prop where
  tidy : b.table.Tidy
  known : ∀ s ∈ b.table.sessions, s ∈ b.held
  below : ∀ h ∈ b.held, h.serial < b.table.nextSerial
  kept : ∀ h ∈ b.held, h ∈ b.table.sessions ∨ (h.detached = true ∧ ∀ s ∈ b.table.sessions, s.serial ≠ h.serial)
  same : ∀ h ∈ b.held, ∀ other ∈ b.held, h.serial = other.serial → h = other

section
variable {b : SessionBook}

theorem perform_seen (faithful : b.Faithful) (d : SessionDeed) (h : Session) (held : h ∈ b.held) :
    (d.mark h ∈ (b.perform d).table.sessions ∧ (b.perform d).table.seen h = d.mark h) ∨
      (h.detached = true ∧ (∀ s ∈ (b.perform d).table.sessions, s.serial ≠ h.serial) ∧
        (b.perform d).table.seen h = h) := by
  have sessions : (b.perform d).table.sessions = _ := SessionTable.perform_sessions faithful.tidy d
  have gone : (∀ s ∈ b.table.sessions, d.keeps s = true → s.serial ≠ h.serial) →
      ∀ s ∈ (b.perform d).table.sessions, s.serial ≠ h.serial := by
    intro left s member
    rw [sessions] at member
    rcases List.mem_append.mp member with old | new
    · obtain ⟨before, stays, rfl⟩ := List.mem_map.mp old
      obtain ⟨present, keeps⟩ := List.mem_filter.mp stays
      rw [d.mark_serial]
      exact left before present keeps
    · rw [(SessionTable.brings_fresh d s new).1]
      exact Nat.ne_of_gt (faithful.below h held)
  rcases faithful.kept h held with present | ⟨off, left⟩
  · cases keeps : d.keeps h with
    | true =>
        have stays : d.mark h ∈ (b.perform d).table.sessions := by
          rw [sessions]
          exact List.mem_append_left _ (List.mem_map.mpr ⟨h, List.mem_filter.mpr ⟨present, keeps⟩, rfl⟩)
        exact Or.inl ⟨stays, SessionTable.seen_kept (SessionTable.perform_tidy faithful.tidy d) h _ stays
          (d.mark_serial h)⟩
    | false =>
        have left := gone fun s member stays same => by
          rw [List.inj_on_of_nodup_map faithful.tidy.serials member present same, keeps] at stays
          cases stays
        exact Or.inr ⟨d.goes_detached h keeps, left, SessionTable.seen_gone h left⟩
  · have still := gone fun s member _ => left s member
    exact Or.inr ⟨off, still, SessionTable.seen_gone h still⟩

theorem hands_seen (faithful : b.Faithful) (d : SessionDeed) (h : Session) (handed : h ∈ b.table.hands d) :
    h ∈ (b.perform d).table.sessions ∧ (b.perform d).table.seen h = h := by
  have present := SessionTable.hands_kept faithful.tidy d h handed
  exact ⟨present, SessionTable.seen_kept (SessionTable.perform_tidy faithful.tidy d) h h present rfl⟩

theorem seen_serial (tidy : b.table.Tidy) (h : Session) : (b.table.seen h).serial = h.serial := by
  by_cases present : ∃ s ∈ b.table.sessions, s.serial = h.serial
  · obtain ⟨s, member, same⟩ := present
    rw [SessionTable.seen_kept tidy h s member same, same]
  · rw [SessionTable.seen_gone h fun s member same => present ⟨s, member, same⟩]

theorem perform_held (d : SessionDeed) (h : Session) :
    h ∈ (b.perform d).held ↔ ∃ old, (old ∈ b.held ∨ old ∈ b.table.hands d) ∧ (b.perform d).table.seen old = h := by
  simp only [← List.mem_append]
  exact List.mem_map

theorem empty_faithful : Faithful {} where
  tidy := SessionTable.empty_tidy
  known _ member := nomatch member
  below _ member := nomatch member
  kept _ member := nomatch member
  same _ member := nomatch member

theorem perform_faithful (faithful : b.Faithful) (d : SessionDeed) : (b.perform d).Faithful := by
  have tidy : (b.perform d).table.Tidy := SessionTable.perform_tidy faithful.tidy d
  have sessions : (b.perform d).table.sessions = _ := SessionTable.perform_sessions faithful.tidy d
  have later : b.table.nextSerial ≤ (b.perform d).table.nextSerial := by
    have count : (b.perform d).table.nextSerial = _ := SessionTable.perform_serial d
    omega
  refine ⟨tidy, ?_, ?_, ?_, ?_⟩
  · intro s member
    suffices before : ∃ old, (old ∈ b.held ∨ old ∈ b.table.hands d) ∧ old.serial = s.serial by
      obtain ⟨old, listed, same⟩ := before
      exact (perform_held d s).mpr ⟨old, listed, SessionTable.seen_kept tidy old s member same.symm⟩
    rw [sessions] at member
    rcases List.mem_append.mp member with old | new
    · obtain ⟨before, stays, rfl⟩ := List.mem_map.mp old
      exact ⟨before, Or.inl (faithful.known before (List.mem_filter.mp stays).1), (d.mark_serial before).symm⟩
    · exact ⟨s, Or.inr (SessionTable.brings_handed d s new), rfl⟩
  · intro h held
    obtain ⟨old, listed | handed, rfl⟩ := (perform_held d h).mp held
    · rw [seen_serial tidy]
      exact Nat.lt_of_lt_of_le (faithful.below old listed) later
    · rw [(hands_seen faithful d old handed).2]
      exact tidy.below old (hands_seen faithful d old handed).1
  · intro h held
    obtain ⟨old, listed | handed, rfl⟩ := (perform_held d h).mp held
    · rcases perform_seen faithful d old listed with ⟨stays, shown⟩ | ⟨off, gone, shown⟩
      · rw [shown]
        exact Or.inl stays
      · rw [shown]
        exact Or.inr ⟨off, gone⟩
    · obtain ⟨stays, shown⟩ := hands_seen faithful d old handed
      rw [shown]
      exact Or.inl stays
  · intro h held other also same
    obtain ⟨old, had, rfl⟩ := (perform_held d h).mp held
    obtain ⟨older, hadToo, rfl⟩ := (perform_held d other).mp also
    rw [seen_serial tidy, seen_serial tidy] at same
    by_cases present : ∃ s ∈ (b.perform d).table.sessions, s.serial = old.serial
    · obtain ⟨s, member, own⟩ := present
      rw [SessionTable.seen_kept tidy old s member own, SessionTable.seen_kept tidy older s member (own.trans same)]
    · have listed : ∀ h, (h ∈ b.held ∨ h ∈ b.table.hands d) → h.serial = old.serial → h ∈ b.held := by
        intro h had own
        refine had.resolve_right fun handed => ?_
        exact present ⟨h, (hands_seen faithful d h handed).1, own⟩
      rw [faithful.same old (listed old had rfl) older (listed older hadToo same.symm) same]

theorem run_faithful (deeds : List SessionDeed) : (run deeds).Faithful := by
  refine run_induction perform {} (P := fun _ b => b.Faithful) empty_faithful ?_ deeds
  intro acts d faithful
  exact perform_faithful faithful d

theorem perform_off (faithful : b.Faithful) (d : SessionDeed) (h : Session) (held : h ∈ b.held)
    (off : h.detached = true) :
    h ∈ (b.perform d).held := by
  refine (perform_held d h).mpr ⟨h, Or.inl held, ?_⟩
  rcases perform_seen faithful d h held with ⟨-, shown⟩ | ⟨-, -, shown⟩
  · rw [shown, SessionDeed.mark]
    split
    · rw [← off]
    · rfl
  · exact shown

theorem run_append (deeds later : List SessionDeed) : run (deeds ++ later) = later.foldl perform (run deeds) :=
  List.foldl_append

theorem run_off (deeds later : List SessionDeed) (h : Session) (held : h ∈ (run deeds).held) (off : h.detached = true) :
    h ∈ (run (deeds ++ later)).held := by
  rw [run_append]
  refine (run_induction perform (run deeds) (P := fun _ b => b.Faithful ∧ h ∈ b.held) ⟨run_faithful deeds,
    held⟩ ?_ later).2
  intro acts d ⟨faithful, still⟩
  exact ⟨perform_faithful faithful d, perform_off faithful d h still off⟩

theorem run_table (deeds later : List SessionDeed) :
    (run (deeds ++ later)).table = (run deeds).table.performs later := by
  rw [run_append]
  induction later generalizing deeds with
  | nil => rfl
  | cons d later ih =>
      have step := ih (deeds ++ [d])
      rw [run_append] at step
      exact step

theorem told_concat (deeds : List SessionDeed) (d : SessionDeed) :
    told (deeds ++ [d]) = told deeds ++ (run deeds).table.detaches d := by
  simp only [told, trace_concat, List.flatMap_append, List.flatMap_singleton]
  rfl

theorem detaches_first (faithful : b.Faithful) (d : SessionDeed) (s : Session) (detached : s ∈ b.table.detaches d) :
    s.detached = true ∧ s ∈ b.table.hands d ∧ b.table.detaches d = [s] ∧
      ∀ h ∈ b.held, h.detached = true → h.serial ≠ s.serial := by
  cases d with
  | markDetached session =>
      have given := Option.mem_toList.mp detached
      obtain ⟨old, found, isOn, marked⟩ := (SessionTable.mark_gives session s).mp given
      refine ⟨by rw [marked], detached, by rw [SessionTable.detaches, given]; rfl, ?_⟩
      intro h held off same
      have before := faithful.known old (SessionTable.get_mem session old found).1
      rw [marked] at same
      rw [faithful.same h held old before same, isOn] at off
      cases off
  | register | detachAll | purge | lieDown | getUp => cases detached

theorem run_told (deeds : List SessionDeed) :
    (∀ s ∈ told deeds, s ∈ (run deeds).held ∧ s.detached = true) ∧ ((told deeds).map (·.serial)).Nodup := by
  induction deeds using List.reverseRecOn with
  | nil => exact ⟨(fun _ member => nomatch member), List.nodup_nil⟩
  | append_singleton deeds d ih =>
      obtain ⟨seen, once⟩ := ih
      have faithful := run_faithful deeds
      have step : run (deeds ++ [d]) = (run deeds).perform d := run_append deeds [d]
      rw [told_concat, step]
      constructor
      · intro s member
        rcases List.mem_append.mp member with old | new
        · obtain ⟨held, off⟩ := seen s old
          exact ⟨perform_off faithful d s held off, off⟩
        · obtain ⟨off, handed, -⟩ := detaches_first faithful d s new
          exact ⟨(perform_held d s).mpr ⟨s, Or.inr handed, (hands_seen faithful d s handed).2⟩, off⟩
      · cases news : (run deeds).table.detaches d with
        | nil => simpa using once
        | cons s rest =>
            obtain ⟨-, -, only, first⟩ := detaches_first faithful d s (news ▸ List.mem_cons_self)
            rw [news] at only
            rw [only]
            refine keys_concat (·.serial) (told deeds) s once fun h toldOf => ?_
            obtain ⟨held, off⟩ := seen h toldOf
            exact first h held off

-- A session goes from unknown to attached, from attached to detached and from detached back to unknown, and what
-- the table answers goes by that. To register an id that is held gives the very session held and changes nothing
-- about it; to register another gives a new session. Everybody sees the same of a session, and once that is
-- detached it stays so, also when its id has come back with another session. A detach is told to one at most.
theorem sessions_keep_lifecycle (deeds later : List SessionDeed) (id : SessionId) :
    let b := run deeds
    let after := run (deeds ++ later)
    b.table.Candid ∧
    (∀ d, (b.table.perform d).standing id = (b.table.standing id).next id d) ∧
    (∀ target s, b.table.get? id = some s →
      (b.table.register id target).1 = s ∧ (b.table.register id target).2.get? id = some s) ∧
    (∀ target, b.table.get? id = none → ∃ s, (b.table.register id target).1 = s ∧
      (b.table.register id target).2.get? id = some s ∧ s.target = target ∧ ∀ h ∈ b.held, h.serial ≠ s.serial) ∧
    (∀ target, b.table.standing id = .detached target → SessionDeed.purge ∉ later →
      after.table.standing id = .detached target) ∧
    (∀ s ∈ b.table.sessions, s ∈ b.held) ∧
    (∀ h ∈ b.held, h.detached = false → b.table.get? h.id = some h) ∧
    (∀ h ∈ b.held, h.detached = true → h ∈ after.held ∧ ∀ other ∈ after.held, other.serial = h.serial → other = h) ∧
    ((told deeds).map (·.serial)).Nodup := by
  intro b after
  have faithful : b.Faithful := run_faithful deeds
  have tidy := faithful.tidy
  refine ⟨SessionTable.tidy_candid tidy, fun d => SessionTable.perform_standing tidy d id, ?_, ?_, ?_, faithful.known,
    ?_, ?_, (run_told deeds).2⟩
  · intro target s found
    refine ⟨SessionTable.register_held id target s found, ?_⟩
    have known := SessionTable.perform_known tidy (.register id target) id s found
    rwa [SessionDeed.mark_none (.register id target) rfl] at known
  · intro target missing
    refine ⟨_, SessionTable.register_new id target missing, ?_, rfl, fun h held => Nat.ne_of_lt (faithful.below h held)⟩
    have comes : (b.table.register id target).2.get? id = _ := SessionTable.perform_get tidy (.register id target) id
    rw [comes, missing]
    simp [SessionTable.brings, missing]
  · intro target detached kept
    rw [show after.table = _ from run_table deeds later]
    exact SessionTable.performs_detached tidy id target later kept detached
  · intro h held isOn
    rcases faithful.kept h held with present | ⟨off, -⟩
    · exact SessionTable.get_of_mem tidy h present
    · rw [isOn] at off
      cases off
  · intro h held off
    have still := run_off deeds later h held off
    exact ⟨still, fun other also same => (run_faithful (deeds ++ later)).same other also h still same⟩

end

def pageDeeds : List SessionDeed := [.register ⟨"S"⟩ ⟨"T"⟩, .register ⟨"S"⟩ ⟨"U"⟩, .markDetached ⟨"S"⟩]

def backDeeds : List SessionDeed := [.register ⟨"S"⟩ ⟨"U"⟩, .purge, .register ⟨"S"⟩ ⟨"U"⟩]

theorem sessions_keep_lifecycle_back :
    let page : Session := ⟨0, ⟨"S"⟩, ⟨"T"⟩, true⟩
    let back : Session := ⟨1, ⟨"S"⟩, ⟨"U"⟩, false⟩
    (run pageDeeds).table.standing ⟨"S"⟩ = .detached ⟨"T"⟩ ∧
      ((run pageDeeds).table.register ⟨"S"⟩ ⟨"U"⟩).1 = page ∧
      (run (pageDeeds ++ [.detachAll])).table.standing ⟨"S"⟩ = .detached ⟨"T"⟩ ∧
      page ∈ (run (pageDeeds ++ backDeeds)).held ∧
      (run (pageDeeds ++ backDeeds)).table.get? ⟨"S"⟩ = some back ∧
      (∃ s, ((run []).table.register ⟨"S"⟩ ⟨"T"⟩).1 = s ∧ (run []).table.get? ⟨"S"⟩ = none) := by
  intro page back
  obtain ⟨-, -, same, -, -, -, -, off, -⟩ := sessions_keep_lifecycle pageDeeds backDeeds ⟨"S"⟩
  obtain ⟨-, -, -, -, still, -, -, -, -⟩ := sessions_keep_lifecycle pageDeeds [.detachAll] ⟨"S"⟩
  obtain ⟨-, -, -, -, -, -, found, -, -⟩ := sessions_keep_lifecycle (pageDeeds ++ backDeeds) [] ⟨"S"⟩
  obtain ⟨-, -, -, fresh, -, -, -, -, -⟩ := sessions_keep_lifecycle [] [] ⟨"S"⟩
  have detached : (run pageDeeds).table.standing ⟨"S"⟩ = .detached ⟨"T"⟩ := by decide +kernel
  have held : page ∈ (run pageDeeds).held := by decide +kernel
  have missing : (run []).table.get? ⟨"S"⟩ = none := by decide +kernel
  obtain ⟨s, given, -⟩ := fresh ⟨"T"⟩ missing
  refine ⟨detached, (same ⟨"U"⟩ page (by decide +kernel)).1, still ⟨"T"⟩ detached (by decide),
    (off page held rfl).1, ?_,
    s, given, missing⟩
  exact found back (by decide +kernel) rfl

end SessionBook

end DevTools
