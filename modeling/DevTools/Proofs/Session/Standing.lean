import DevTools.Proofs.Session.Lifetime
import DevTools.Proofs.Trace

set_option autoImplicit false

namespace DevTools

inductive SessionDeed where
  | register (session : SessionId) (target : TargetId)
  | markDetached (session : SessionId)
  | detachAll
  | purge
  | lieDown (target : TargetId)
  | getUp (sleeper : Nat)
deriving DecidableEq, Repr

inductive Standing where
  | unknown
  | attached (target : TargetId)
  | detached (target : TargetId)
deriving DecidableEq, Repr

namespace Standing

def attach (target : TargetId) : Standing → Standing
  | unknown => attached target
  | standing => standing

def detach : Standing → Standing
  | attached target => detached target
  | standing => standing

def forget : Standing → Standing
  | detached _ => unknown
  | standing => standing

def next (standing : Standing) (session : SessionId) : SessionDeed → Standing
  | .register own target => if own = session then standing.attach target else standing
  | .markDetached own => if own = session then standing.detach else standing
  | .detachAll => standing.detach
  | .purge => standing.forget
  | .lieDown _ | .getUp _ => standing

end Standing

def Session.standing (s : Session) : Standing := if s.detached then .detached s.target else .attached s.target

namespace SessionDeed

def keeps : SessionDeed → Session → Bool
  | purge => fun s => !s.detached
  | _ => fun _ => true

def picks : SessionDeed → Session → Bool
  | markDetached session => fun s => s.id == session
  | detachAll => fun _ => true
  | _ => fun _ => false

def mark (d : SessionDeed) : Session → Session := fun s => if d.picks s then { s with detached := true } else s

theorem goes_detached (d : SessionDeed) (s : Session) (goes : d.keeps s = false) : s.detached = true := by
  cases d with
  | purge => simpa [keeps] using goes
  | register | markDetached | detachAll | lieDown | getUp => cases goes

theorem mark_id (d : SessionDeed) (s : Session) : (d.mark s).id = s.id := by
  simp only [mark]
  split <;> rfl

theorem mark_serial (d : SessionDeed) (s : Session) : (d.mark s).serial = s.serial := by
  simp only [mark]
  split <;> rfl

theorem mark_detached (d : SessionDeed) (s : Session) : (d.mark s).detached = (s.detached || d.picks s) := by
  simp only [mark]
  cases d.picks s <;> simp

theorem mark_standing (d : SessionDeed) (s : Session) :
    (d.mark s).standing = if d.picks s then s.standing.detach else s.standing := by
  simp only [mark]
  split
  · cases off : s.detached <;> simp [Session.standing, off, Standing.detach]
  · rfl

theorem mark_none (d : SessionDeed) (nobody : d.picks = fun _ => false) : d.mark = id := by
  funext s
  simp [mark, nobody]

end SessionDeed

namespace SessionTable

def perform (t : SessionTable) : SessionDeed → SessionTable
  | .register session target => (t.register session target).2
  | .markDetached session => (t.markDetached session).2
  | .detachAll => t.detachAll.2
  | .purge => t.purge.2
  | .lieDown target => (t.lieDown target).2
  | .getUp sleeper => t.getUp sleeper

def performs (t : SessionTable) (deeds : List SessionDeed) : SessionTable := deeds.foldl perform t

def brings (t : SessionTable) : SessionDeed → List Session
  | .register session target => if (t.get? session).isSome then [] else [⟨t.nextSerial, session, target, false⟩]
  | _ => []

def standing (t : SessionTable) (session : SessionId) : Standing := (t.get? session).elim .unknown Session.standing

structure Tidy (t : SessionTable) : Prop where
  ids : (t.sessions.map (·.id)).Nodup
  serials : (t.sessions.map (·.serial)).Nodup
  below : ∀ s ∈ t.sessions, s.serial < t.nextSerial

theorem empty_tidy : Tidy {} := ⟨List.nodup_nil, List.nodup_nil, fun _ member => nomatch member⟩

section
variable {t : SessionTable}

theorem get_of_mem (tidy : t.Tidy) (s : Session) (member : s ∈ t.sessions) : t.get? s.id = some s :=
  find_keyed Session.id t.sessions tidy.ids s member

theorem get_mem (session : SessionId) (s : Session) (found : t.get? session = some s) :
    s ∈ t.sessions ∧ s.id = session :=
  ⟨List.mem_of_find?_eq_some found, by simpa using List.find?_some found⟩

theorem unknown_absent (session : SessionId) (missing : t.get? session = none) (s : Session) (member : s ∈ t.sessions) :
    s.id ≠ session := by
  simpa using List.find?_eq_none.mp missing s member

theorem attaches_unknown {after : SessionTable} {may : SessionId → TargetId → Prop} (attaches : t.Attaches may after)
    (session : SessionId) (missing : t.get? session = none) (silent : ∀ target, ¬ may session target) :
    after.get? session = none := by
  cases found : after.get? session with
  | none => rfl
  | some s =>
      obtain ⟨member, rfl⟩ := get_mem session s found
      rcases attaches.sessions s member with ⟨old, held, was | marked⟩ | ⟨-, -, allowed⟩
      · exact absurd (congrArg Session.id was.symm) (unknown_absent s.id missing old held)
      · exact absurd (congrArg Session.id marked.symm) (unknown_absent s.id missing old held)
      · exact absurd allowed (silent s.target)

theorem detach_sessions (tidy : t.Tidy) (session : SessionId) :
    (t.markDetached session).2.sessions = t.sessions.map (SessionDeed.markDetached session).mark := by
  have still : (∀ s ∈ t.sessions, s.id = session → s.detached = true) →
      t.sessions = t.sessions.map (SessionDeed.markDetached session).mark := by
    intro off
    refine ((List.map_congr_left ?_).trans (List.map_id _)).symm
    intro s member
    simp only [SessionDeed.mark, SessionDeed.picks, beq_iff_eq, id]
    split
    · next own => rw [← off s member own]
    · rfl
  simp only [markDetached]
  cases known : t.get? session with
  | none => exact still fun s member own => absurd own (unknown_absent session known s member)
  | some s =>
      obtain ⟨held, mine⟩ := get_mem session s known
      dsimp only
      by_cases off : s.detached = true
      · rw [if_pos off]
        apply still
        intro other member own
        rw [List.inj_on_of_nodup_map tidy.ids member held (own.trans mine.symm), off]
      · rw [if_neg off]
        rfl

-- All that a deed does to the sessions: some go, some are marked, and one may come.
theorem perform_sessions (tidy : t.Tidy) (d : SessionDeed) :
    (t.perform d).sessions = (t.sessions.filter d.keeps).map d.mark ++ t.brings d := by
  have all : t.sessions.filter (fun _ => true) = t.sessions := List.filter_eq_self.mpr fun _ _ => rfl
  cases d with
  | register session target =>
      rw [SessionDeed.mark_none (.register session target) rfl]
      simp only [perform, register, brings, SessionDeed.keeps, all, List.map_id]
      cases known : t.get? session with
      | none => rfl
      | some s =>
          dsimp only
          split <;> simp [ring]
  | markDetached session => simpa [perform, brings, SessionDeed.keeps, all] using detach_sessions tidy session
  | detachAll =>
      simp only [brings, SessionDeed.keeps, all, List.append_nil]
      rfl
  | purge =>
      rw [SessionDeed.mark_none .purge rfl]
      simp only [brings, SessionDeed.keeps, List.map_id, List.append_nil]
      rfl
  | lieDown target =>
      rw [SessionDeed.mark_none (.lieDown target) rfl]
      simp only [perform, lieDown, brings, SessionDeed.keeps, all, List.map_id, List.append_nil]
      split <;> rfl
  | getUp sleeper =>
      rw [SessionDeed.mark_none (.getUp sleeper) rfl]
      simp only [perform, getUp, brings, SessionDeed.keeps, all, List.map_id, List.append_nil]
      split <;> rfl

theorem perform_active (tidy : t.Tidy) (d : SessionDeed) (s : Session) (attached : s ∈ (t.perform d).active) :
    s ∈ t.active ∨ s ∈ t.brings d := by
  obtain ⟨member, isOn⟩ := List.mem_filter.mp attached
  rw [perform_sessions tidy] at member
  refine (List.mem_append.mp member).imp_left fun old => ?_
  obtain ⟨before, stays, rfl⟩ := List.mem_map.mp old
  have unmarked : d.picks before = false := by
    simp only [d.mark_detached, Bool.not_or, Bool.and_eq_true, Bool.not_eq_true'] at isOn
    exact isOn.2
  rw [SessionDeed.mark, unmarked, if_neg Bool.false_ne_true] at isOn ⊢
  exact List.mem_filter.mpr ⟨(List.mem_filter.mp stays).1, isOn⟩

theorem perform_serial (d : SessionDeed) : (t.perform d).nextSerial = t.nextSerial + (t.brings d).length := by
  cases d with
  | register session target =>
      simp only [perform, register, brings]
      cases t.get? session with
      | none => rfl
      | some s =>
          dsimp only
          split <;> rfl
  | markDetached session =>
      simp only [perform, markDetached]
      split
      · split <;> rfl
      · rfl
  | lieDown target =>
      simp only [perform, lieDown]
      split <;> rfl
  | getUp sleeper =>
      simp only [perform, getUp]
      split <;> rfl
  | detachAll | purge => rfl

theorem brings_fresh (d : SessionDeed) (s : Session) (comes : s ∈ t.brings d) :
    s.serial = t.nextSerial ∧ s.detached = false ∧ t.brings d = [s] ∧ t.get? s.id = none := by
  cases d with
  | register session target =>
      simp only [brings] at comes ⊢
      split at comes
      · cases comes
      · next missing =>
          rw [List.mem_singleton.mp comes, if_neg missing]
          exact ⟨rfl, rfl, rfl, by simpa using missing⟩
  | _ => cases comes

theorem stays_mem (d : SessionDeed) (s : Session) (stays : s ∈ (t.sessions.filter d.keeps).map d.mark) :
    ∃ before ∈ t.sessions, before.id = s.id ∧ before.serial = s.serial := by
  obtain ⟨before, kept, rfl⟩ := List.mem_map.mp stays
  exact ⟨before, (List.mem_filter.mp kept).1, (d.mark_id before).symm, (d.mark_serial before).symm⟩

theorem perform_tidy (tidy : t.Tidy) (d : SessionDeed) : (t.perform d).Tidy := by
  have sessions := perform_sessions tidy d
  have serial := perform_serial (t := t) d
  have ids : (((t.sessions.filter d.keeps).map d.mark).map (·.id)).Nodup := by
    simpa [Function.comp_def, d.mark_id] using tidy.ids.sublist ((List.filter_sublist (p := d.keeps)).map _)
  have serials : (((t.sessions.filter d.keeps).map d.mark).map (·.serial)).Nodup := by
    simpa [Function.comp_def, d.mark_serial] using tidy.serials.sublist ((List.filter_sublist (p := d.keeps)).map _)
  have below : ∀ s ∈ (t.sessions.filter d.keeps).map d.mark, s.serial < t.nextSerial := by
    intro s stays
    obtain ⟨before, held, -, same⟩ := stays_mem d s stays
    exact same ▸ tidy.below before held
  cases coming : t.brings d with
  | nil =>
      rw [coming, List.append_nil] at sessions
      rw [coming] at serial
      rw [← sessions] at ids serials below
      exact ⟨ids, serials, fun s member => serial ▸ below s member⟩
  | cons s rest =>
      obtain ⟨fresh, -, only, missing⟩ := brings_fresh d s (coming ▸ List.mem_cons_self)
      rw [only] at sessions serial
      refine ⟨?_, ?_, ?_⟩
      · rw [sessions]
        refine keys_concat (·.id) _ s ids fun other stays => ?_
        obtain ⟨before, held, same, -⟩ := stays_mem d other stays
        exact same ▸ unknown_absent s.id missing before held
      · rw [sessions]
        exact keys_concat (·.serial) _ s serials fun other stays => fresh ▸ Nat.ne_of_lt (below other stays)
      · intro other member
        rw [sessions] at member
        rw [serial]
        rcases List.mem_append.mp member with old | new
        · exact Nat.lt_succ_of_lt (below other old)
        · rw [List.mem_singleton.mp new, fresh]
          exact Nat.lt_succ_self _

theorem filter_get (tidy : t.Tidy) (keeps : Session → Bool) (session : SessionId) :
    (t.sessions.filter keeps).find? (·.id == session) = (t.get? session).filter keeps := by
  cases found : t.get? session with
  | none =>
      rw [Option.filter_none, List.find?_eq_none]
      intro s member
      simpa using unknown_absent session found s (List.mem_filter.mp member).1
  | some s =>
      obtain ⟨held, own⟩ := get_mem session s found
      have only : ∀ other ∈ t.sessions, other.id = session → other = s := fun other member same =>
        List.inj_on_of_nodup_map tidy.ids member held (same.trans own.symm)
      cases kept : keeps s with
      | true =>
          rw [Option.filter_some_pos kept]
          cases again : (t.sessions.filter keeps).find? (·.id == session) with
          | none => exact absurd (List.find?_eq_none.mp again s (List.mem_filter.mpr ⟨held, kept⟩)) (by simp [own])
          | some other =>
              have member := List.mem_of_find?_eq_some again
              rw [only other (List.mem_filter.mp member).1 (by simpa using List.find?_some again)]
      | false =>
          rw [Option.filter_some_neg (by simp [kept]), List.find?_eq_none]
          intro other member same
          obtain ⟨listed, keeping⟩ := List.mem_filter.mp member
          rw [only other listed (by simpa using same), kept] at keeping
          cases keeping

theorem perform_get (tidy : t.Tidy) (d : SessionDeed) (session : SessionId) :
    (t.perform d).get? session =
      (((t.get? session).filter d.keeps).map d.mark).or ((t.brings d).find? (·.id == session)) := by
  have same : ((·.id == session) ∘ d.mark : Session → Bool) = (·.id == session) := by
    funext s
    simp only [Function.comp, d.mark_id]
  rw [get?, perform_sessions tidy, List.find?_append, List.find?_map, same, filter_get tidy]

theorem perform_known (tidy : t.Tidy) (d : SessionDeed) (session : SessionId) (s : Session)
    (found : t.get? session = some s) : (t.perform d).get? session = if d.keeps s then some (d.mark s) else none := by
  have nobody : (t.brings d).find? (·.id == session) = none := by
    rw [List.find?_eq_none]
    intro other comes same
    have missing := (brings_fresh d other comes).2.2.2
    rw [beq_iff_eq.mp same, found] at missing
    cases missing
  rw [perform_get tidy, nobody, found, Option.or_none, Option.filter_some]
  split <;> rfl

theorem perform_standing (tidy : t.Tidy) (d : SessionDeed) (session : SessionId) :
    (t.perform d).standing session = (t.standing session).next session d := by
  cases found : t.get? session with
  | none =>
      simp only [standing, perform_get tidy, found, Option.filter_none, Option.map_none, Option.none_or,
        Option.elim_none]
      cases d with
      | register own target =>
          by_cases mine : own = session
          · subst mine
            simp [brings, found, Session.standing, Standing.next, Standing.attach]
          · cases known : t.get? own <;> simp [brings, known, mine, Standing.next]
      | markDetached own => simp [brings, Standing.next, Standing.detach]
      | detachAll | purge | lieDown | getUp => rfl
  | some s =>
      have own : s.id = session := (get_mem session s found).2
      have known := perform_known tidy d session s found
      simp only [standing, known, found, Option.elim_some]
      cases d with
      | register other target =>
          have held : s.standing.attach target = s.standing := by
            simp only [Session.standing]
            split <;> rfl
          simp [SessionDeed.keeps, SessionDeed.mark, SessionDeed.picks, Standing.next, held]
      | markDetached other =>
          simp only [SessionDeed.keeps, if_true, Option.elim_some, SessionDeed.mark_standing, SessionDeed.picks, own,
            beq_iff_eq, Standing.next, eq_comm (a := session)]
      | detachAll => simp [SessionDeed.keeps, SessionDeed.mark_standing, SessionDeed.picks, Standing.next]
      | purge =>
          cases off : s.detached <;>
            simp [SessionDeed.keeps, SessionDeed.mark, SessionDeed.picks, Session.standing, off, Standing.next,
              Standing.forget]
      | lieDown | getUp => simp [SessionDeed.keeps, SessionDeed.mark, SessionDeed.picks, Standing.next]

theorem purge_forgets (tidy : t.Tidy) (session : SessionId) (unattached : t.isAttached session = false) :
    t.purge.2.get? session = none := by
  have kept : t.purge.2.get? session = _ := perform_get tidy .purge session
  have goes : (t.get? session).filter SessionDeed.purge.keeps = none := by
    rw [Option.filter_eq_none_iff]
    intro s known
    rw [isAttached, known] at unattached
    simpa [SessionDeed.keeps] using unattached
  rw [kept, goes]
  rfl

theorem performs_tidy (tidy : t.Tidy) (deeds : List SessionDeed) : (t.performs deeds).Tidy := by
  induction deeds generalizing t with
  | nil => exact tidy
  | cons d deeds ih => exact ih (perform_tidy tidy d)

theorem performs_detached (tidy : t.Tidy) (session : SessionId) (target : TargetId) (deeds : List SessionDeed)
    (kept : SessionDeed.purge ∉ deeds) (detached : t.standing session = .detached target) :
    (t.performs deeds).standing session = .detached target := by
  induction deeds generalizing t with
  | nil => exact detached
  | cons d deeds ih =>
      obtain ⟨other, rest⟩ := List.ne_and_not_mem_of_not_mem_cons kept
      refine ih (perform_tidy tidy d) rest ?_
      rw [perform_standing tidy, detached]
      cases d with
      | register own target' => simp [Standing.next, Standing.attach]
      | markDetached own => simp [Standing.next, Standing.detach]
      | purge => exact absurd rfl other
      | detachAll | lieDown | getUp => rfl

end

end SessionTable

end DevTools
