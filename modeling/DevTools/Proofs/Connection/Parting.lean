import DevTools.Proofs.Connection.Detachment
import DevTools.Proofs.Connection.Messages
import DevTools.Proofs.Connection.Sending

set_option autoImplicit false

namespace DevTools

namespace SessionTable

-- Whoever had this serial number is detached, and nobody else will have it.
def Spent (t : SessionTable) (serial : Nat) : Prop :=
  serial < t.nextSerial ∧ ∀ s ∈ t.sessions, s.serial = serial → s.detached = true

section
variable {t : SessionTable}

theorem attaches_spent {may : SessionId → TargetId → Prop} {after : SessionTable} (attaches : t.Attaches may after)
    (serial : Nat)
    (spent : t.Spent serial) : after.Spent serial := by
  refine ⟨Nat.lt_of_lt_of_le spent.1 attaches.serials, ?_⟩
  intro s member same
  rcases attaches.sessions s member with ⟨old, held, was | marked⟩ | ⟨fresh, -⟩
  · rw [was] at same ⊢
    exact spent.2 old held same
  · rw [marked]
  · have below := spent.1
    omega

theorem detach_spends (tidy : t.Tidy) (s : Session) (member : s ∈ t.sessions) :
    (t.markDetached s.id).2.Spent s.serial := by
  have serial := perform_serial (t := t) (.markDetached s.id)
  refine ⟨serial ▸ tidy.below s member, ?_⟩
  intro other listed same
  rw [detach_sessions tidy] at listed
  obtain ⟨old, held, rfl⟩ := List.mem_map.mp listed
  rw [SessionDeed.mark_serial] at same
  have own : old = s := List.inj_on_of_nodup_map tidy.serials held member same
  rw [own, SessionDeed.mark_detached]
  simp [SessionDeed.picks]

end

end SessionTable

namespace Connection

def parts? (c : Connection) (a : Act) : Option Session :=
  match a with
  | .begin (.detach session _) => if (c.sends? a).isSome then c.hub.sessions.get? session else none
  | _ => none

def sent (c : Connection) (acts : List Act) : List Request := (trace act c acts).filterMap fun (x, a) => x.sends? a

def parted (c : Connection) (acts : List Act) : List Session := (trace act c acts).filterMap fun (x, a) => x.parts? a

-- Detached once, the session is purged, and it is attached in the end.
def Renews (c : Connection) (acts : List Act) (session : SessionId) : Prop :=
  ∃ before after, acts = before ++ .purge :: after ∧ (c.run before).hub.sessions.isDetached session = true ∧
    (c.run (before ++ [.purge])).hub.sessions.get? session = none ∧ (c.run acts).hub.sessions.isAttached session = true

section
variable {c : Connection} {a : Act}

theorem detached_renews (sound : c.Sound) (tidy : c.hub.sessions.Tidy) (acts : List Act) (session : SessionId)
    (detached : c.hub.sessions.isDetached session = true)
    (attached : (c.run acts).hub.sessions.isAttached session = true) :
    c.Renews acts session := by
  have purged : .purge ∈ acts := by
    by_contra keeps
    rw [SessionTable.detached_unattached session (run_detached sound acts keeps session detached)] at attached
    cases attached
  obtain ⟨before, after, rfl, first⟩ := List.eq_append_cons_of_mem purged
  have still := run_detached sound before first session detached
  refine ⟨before, after, rfl, still, ?_, attached⟩
  rw [run_append]
  exact SessionTable.purge_forgets (run_tidy sound tidy before) session (SessionTable.detached_unattached session still)

theorem run_sends (acts : List Act) : (c.queued acts).map (·.frame) = (c.sent acts).map Request.frame := by
  induction acts generalizing c with
  | nil => rfl
  | cons a acts ih =>
      have queued : c.queued (a :: acts) = c.queues a ++ (c.act a).queued acts := rfl
      have sent : c.sent (a :: acts) = (c.sends? a).toList ++ (c.act a).sent acts := by
        simp only [Connection.sent, trace, List.filterMap_cons]
        cases c.sends? a <;> rfl
      rw [queued, sent, List.map_append, List.map_append, act_sends, ih]

theorem farewell_parts (session : SessionId) (cancel : Option Token) (r : Request)
    (sends : c.sends? (.begin (.detach session cancel)) = some r) :
    (c.act (.begin (.detach session cancel))).hub.sessions.isDetached session = true ∧
      ∃ s, c.parts? (.begin (.detach session cancel)) = some s ∧ c.hub.sessions.get? session = some s ∧
        s.detached = false := by
  obtain ⟨-, attached, after⟩ := sends_farewell session cancel r sends
  obtain ⟨s, found, isOn⟩ := (SessionTable.attached_iff session).mp attached
  rw [after, parts?, sends]
  exact ⟨SessionTable.known_detached session s found, s, found, found, isOn⟩

-- What is sent under the session later, or to the same effect, is sent once that has been purged and attached anew.
theorem farewell_renews (sound : c.Sound) (tidy : c.hub.sessions.Tidy) (session : SessionId) (cancel : Option Token)
    (tells : (c.sends? (.begin (.detach session cancel))).isSome = true) (between : List Act) (r : Request)
    (sends : ((c.act (.begin (.detach session cancel))).run between).sends? a = some r)
    (concerns : r.session = some session ∨ ∃ again, a = .begin (.detach session again)) :
    (c.act (.begin (.detach session cancel))).Renews between session := by
  obtain ⟨first, told⟩ := Option.isSome_iff_exists.mp tells
  have attached : ((c.act (.begin (.detach session cancel))).run between).hub.sessions.isAttached session = true := by
    rcases concerns with under | ⟨again, rfl⟩
    · exact (sends_attached a r sends session under).1
    · exact (sends_farewell session again r sends).2.1
  exact detached_renews (act_sound sound _) (act_tidy sound tidy _) between session
    (farewell_parts session cancel first told).1 attached

theorem parts_spends (tidy : c.hub.sessions.Tidy) (s : Session) (parts : c.parts? a = some s) :
    s ∈ c.hub.sessions.sessions ∧ s.detached = false ∧ (c.act a).hub.sessions.Spent s.serial := by
  cases a with
  | begin operation =>
      cases operation with
      | detach session cancel =>
          rw [parts?] at parts
          split at parts
          · next sends =>
              obtain ⟨r, request⟩ := Option.isSome_iff_exists.mp sends
              obtain ⟨-, attached, after⟩ := sends_farewell session cancel r request
              obtain ⟨other, found, isOn⟩ := (SessionTable.attached_iff session).mp attached
              obtain rfl := Option.some.inj (found.symm.trans parts)
              obtain ⟨member, rfl⟩ := SessionTable.get_mem session other parts
              rw [after]
              exact ⟨member, isOn, SessionTable.detach_spends tidy other member⟩
          · cases parts
      | _ => cases parts
  | _ => cases parts

theorem parted_concat (acts : List Act) (a : Act) :
    c.parted (acts ++ [a]) = c.parted acts ++ ((c.run acts).parts? a).toList := by
  rw [parted, trace_concat, List.filterMap_append]
  change _ ++ List.filterMap (fun x => parts? x.1 x.2) [(c.run acts, a)] = _
  rw [List.filterMap_cons]
  cases parts? (c.run acts) a <;> rfl

theorem run_parted (sound : c.Sound) (tidy : c.hub.sessions.Tidy) (acts : List Act) :
    (∀ s ∈ c.parted acts, (c.run acts).hub.sessions.Spent s.serial) ∧ ((c.parted acts).map (·.serial)).Nodup := by
  refine run_induction act
    (P := fun acts x => (∀ s ∈ c.parted acts, x.hub.sessions.Spent s.serial) ∧ ((c.parted acts).map (·.serial)).Nodup) c
    ⟨fun s member => absurd member List.not_mem_nil, List.nodup_nil⟩ ?_ acts
  intro acts a ⟨spent, once⟩
  have attaches := act_attaches (run_sound sound acts).kept a
  have still : ∀ s ∈ c.parted acts, ((c.run acts).act a).hub.sessions.Spent s.serial :=
    fun s member => SessionTable.attaches_spent attaches s.serial (spent s member)
  rw [parted_concat]
  cases parts : (c.run acts).parts? a with
  | none =>
      rw [Option.toList_none, List.append_nil]
      exact ⟨still, once⟩
  | some s =>
      obtain ⟨member, isOn, spends⟩ := parts_spends (run_tidy sound tidy acts) s parts
      rw [Option.toList_some]
      constructor
      · intro other listed
        rcases List.mem_append.mp listed with old | new
        · exact still other old
        · rw [List.mem_singleton.mp new]
          exact spends
      · refine keys_concat (·.serial) _ s once fun other listed same => ?_
        -- The session is attached yet, so the remote end has not been told of it.
        have off := (spent other listed).2 s member same.symm
        rw [isOn] at off
        cases off

end

-- What a run sends, and when. The requests are queued in the order of `sent`, one frame each, and it is in that order
-- that a pipe carries their bytes, or any other link their messages.
structure Parting (c : Connection) (acts : List Act) : Prop where
  frames : (c.queued acts).map (·.frame) = (c.sent acts).map Request.frame
  written : c.completed acts <+: c.queued acts
  carried : c.link.IsPipe → c.carried acts <+: wire (c.queued acts)
  shipped : ¬ c.link.IsPipe → c.shipped acts = (c.completed acts).map (·.frame)
  attached : ∀ x a r session, (x, a) ∈ trace act c acts → x.sends? a = some r → r.session = some session →
    x.hub.sessions.isAttached session = true ∧ (x.act a).hub.sessions.isAttached session = true
  farewell : ∀ x session cancel r, (x, .begin (.detach session cancel)) ∈ trace act c acts →
    x.sends? (.begin (.detach session cancel)) = some r → r = .farewell session r.id ∧
      (x.act (.begin (.detach session cancel))).hub.sessions.isDetached session = true ∧
      ∃ s, x.parts? (.begin (.detach session cancel)) = some s ∧ x.hub.sessions.get? session = some s ∧
        s.detached = false
  silent : ∀ before session cancel between a after r,
    acts = before ++ .begin (.detach session cancel) :: between ++ a :: after →
    ((c.run before).sends? (.begin (.detach session cancel))).isSome = true →
    (c.run (before ++ .begin (.detach session cancel) :: between)).sends? a = some r →
    (r.session = some session ∨ ∃ again, a = .begin (.detach session again)) →
      ((c.run before).act (.begin (.detach session cancel))).Renews between session
  once : ((c.parted acts).map (·.serial)).Nodup

theorem nothing_sent_after_detach (config : Config) (link : Link) (acts : List Act) :
    (ofLink config link).Parting acts := by
  have sound := initial_sound config link
  have keyed := initial_keyed config link
  have tidy : (ofLink config link).hub.sessions.Tidy := SessionTable.empty_tidy
  refine ⟨run_sends acts, (run_ordered keyed (initial_ordered config link) acts).order, ?_, ?_, ?_, ?_, ?_,
    (run_parted sound tidy acts).2⟩
  · intro pipe
    exact (run_carries keyed ⟨pipe, List.prefix_refl _, List.prefix_refl _, List.prefix_refl _,
      fun _ => rfl, fun _ => rfl⟩ acts).bytes
  · exact fun messages => run_messages keyed ⟨link.messages_present messages, fun _ _ sending => by cases sending⟩ acts
  · exact fun x a r session _ sends scope => sends_attached a r sends session scope
  · exact fun x session cancel r _ sends => ⟨(sends_farewell session cancel r sends).1,
      farewell_parts session cancel r sends⟩
  · intro before session cancel between a after r _ tells sends concerns
    have begun : (ofLink config link).run (before ++ .begin (.detach session cancel) :: between) =
        (((ofLink config link).run before).act (.begin (.detach session cancel))).run between := run_append _ _ _
    rw [begun] at sends
    exact farewell_renews (run_sound sound before)
      (run_tidy sound tidy before) session cancel tells between r sends concerns

-- The session is detached twice and then asked for in vain. Once purged it is attached by an event, and detached again.
def leave : List Act :=
  [.begin (.attach ⟨"T"⟩ none), .move .writer, .move .writer, .move (.caller 0),
    incoming "\x7b\"id\":1,\"result\":\x7b\"sessionId\":\"S\"\x7d\x7d", .move .reader, .move (.caller 0),
    .begin (.send ⟨"Page.reload", .empty, some ⟨"S"⟩⟩), .begin (.detach ⟨"S"⟩ none), .begin (.detach ⟨"S"⟩ none),
    .begin (.send ⟨"Page.close", .empty, some ⟨"S"⟩⟩)]

def comeBack : List Act :=
  [.purge, incoming ("\x7b\"method\":\"Target.attachedToTarget\",\"params\":\x7b\"sessionId\":\"S\",\"targetInfo\":" ++
      "\x7b\"targetId\":\"T\",\"type\":\"page\",\"title\":\"\",\"url\":\"\",\"attached\":true\x7d,\"waitingForDebugger\":false\x7d\x7d"),
    .move .reader, .begin (.detach ⟨"S"⟩ none)]

example : ((ofLink {} inMemory).sent (leave ++ comeBack)).map (fun r => (r.method, r.session)) =
    [("Target.attachToTarget", none), ("Page.reload", some ⟨"S"⟩), ("Target.detachFromTarget", none),
      ("Target.detachFromTarget", none)] := by decide +kernel

end Connection

end DevTools
