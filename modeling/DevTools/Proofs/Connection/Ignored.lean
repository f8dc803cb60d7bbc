import DevTools.Proofs.Connection.Waits
import DevTools.Proofs.Json.Legible
import DevTools.Proofs.Message.Canonical

set_option autoImplicit false

namespace DevTools

def Payload.Readable (p : Payload) : Prop := ∃ v, Json.Means Json.depthLimit (Utf8.encode p.text) v

-- What the caller gets for a result that it ignores.
structure Ignored (p : Payload) (answer : Except Error Answer) : Prop where
  valid : p.Valid
  done : answer = .ok .done ↔ p.Readable
  fails : answer ≠ .ok .done → ∃ fault, Json.parse (Utf8.encode p.text) = .error fault ∧ answer = .error (.json fault)
  legible : Json.Unmarked (Utf8.encode p.text) →
    (answer = .ok .done ↔ Json.Legible Json.depthLimit (Utf8.encode p.text))

def Caller.ignores? : Caller → Option CallWait
  | awaiting .ignored w => some w
  | _ => none

theorem ignores_awaiting (caller : Caller) (w : CallWait) (ignores : caller.ignores? = some w) :
    caller = .awaiting .ignored w := by
  cases caller with
  | awaiting use other =>
      cases use <;> cases ignores
      rfl
  | _ => cases ignores

theorem ignore_reads (p : Payload) (valid : p.Valid) (h : Hub) : Ignored p (Use.ignored.apply p h).1 := by
  have reads : (∃ v, Json.parse (Utf8.encode p.text) = .ok v) ↔ p.Readable :=
    exists_congr fun v => Json.parse_means (Utf8.encode p.text) valid v
  have done : (Use.ignored.apply p h).1 = .ok .done ↔ p.Readable := by
    rw [← reads]
    cases parsed : Json.parse (Utf8.encode p.text) <;> simp [Use.apply, Use.ofJson, parsed]
  refine ⟨valid, done, ?_, fun unmarked => done.trans (Json.means_iff_legible _ _ valid unmarked)⟩
  cases parsed : Json.parse (Utf8.encode p.text) <;> simp [Use.apply, Use.ofJson, parsed]

theorem deep_lists_unreadable (n : Nat) (deep : Json.depthLimit ≤ n) :
    Payload.Valid ⟨Json.lists n⟩ ∧ ¬ Payload.Readable ⟨Json.lists n⟩ :=
  ⟨Json.lists_spelled n, fun ⟨v, means⟩ => Nat.not_lt.mpr deep (Json.lists_depth n Json.depthLimit v means)⟩

theorem decoded_result_valid (f : Bytes) (r : Response) (decoded : Message.decode f = .ok (.response r)) :
    ∀ p ∈ r.result, p.Valid := by
  obtain ⟨frame, parsed, classified⟩ := Message.decode_parses f _ decoded
  obtain ⟨ms, made, stand⟩ := frame_stands f frame parsed
  rcases frame.classify_cases _ classified with ⟨_, _, _, _, _, same⟩ | ⟨_, _, _, _, _, same⟩ | ⟨_, _, _, same⟩
  · cases same
  · cases same
    intro p there
    split at there
    · cases there
      exact .empty .object [] Json.blanks_nil
    · exact (payload_stands ms f stand "result" p (Option.mem_def.mp there ▸ made.result)).2.1
  · cases same

theorem outcome_valid (r : Response) (valid : ∀ p ∈ r.result, p.Valid) (p : Payload)
    (succeeds : r.outcome = .ok p) : p.Valid := by
  rw [Response.outcome] at succeeds
  split at succeeds
  · cases succeeds
  · cases succeeds
    cases result : r.result with
    | none => exact .empty .object [] Json.blanks_nil
    | some p => exact valid p result

namespace Connection

section
variable {c : Connection} {a : Act}

theorem hears_decoded (r : Response) (heard : c.hears? a = some r) : ∃ f, Message.decode f = .ok (.response r) := by
  cases a with
  | move activity =>
      cases activity with
      | reader =>
          simp only [hears?] at heard
          split at heard
          · cases heard
          · split at heard
            · next bytes _ =>
              split at heard
              · next decoded =>
                cases heard
                exact ⟨bytes, decoded⟩
              · cases heard
            · cases heard
      | writer | caller | handler => cases heard
  | _ => cases heard

theorem heard_stands (sound : c.Sound) (later : List Act) (r : Response) (heard : c.hears? a = some r) (call : Call)
    (awaited : c.awaits call)
    (same : call.id = r.id) (held : call ∈ ((c.act a).run later).hub.calls.calls) :
    ((c.act a).run later).hub.calls.outcome? call = some (.ok r) := by
  have next := act_sound sound a
  have settled := heard_settles sound r heard call awaited
  rw [if_pos same] at settled
  obtain ⟨s, present, own, has⟩ := CallTable.slot_of_outcome call (.ok r) settled
  obtain ⟨after, listed, rfl⟩ := List.mem_map.mp held
  have old := next.matched.below s present
  rw [own] at old
  obtain ⟨t, there, mine, keeps⟩ := run_outcome_old next later after listed old
  have unique := CallTable.matched_slot_unique next.matched s t present there (by rw [own, mine])
  rw [CallTable.outcome_of_slot (run_sound next later).matched after listed]
  exact keeps (.ok r) (unique ▸ has)

end

-- A call in flight gets a response without an error, and later on somebody who ignores the result looks at it.
theorem ignored_results_read (config : Config) (link : Link) (before later : List Act) (a : Act) (r : Response)
    (p : Payload) (key : Nat)
    (w : CallWait) :
    let c := (ofLink config link).run before
    let d := (c.act a).run later
    c.hears? a = some r → c.awaits w.call → w.call.id = r.id → r.outcome = .ok p →
      (d.caller? key).bind Caller.ignores? = some w →
      ∃ answer, (d.act (.move (.caller key))).finished = d.finished ++ [(key, answer)] ∧ Ignored p answer := by
  intro c d heard awaited same succeeds ignores
  obtain ⟨caller, found, ignores⟩ := Option.bind_eq_some_iff.mp ignores
  obtain rfl := ignores_awaiting caller w ignores
  have keyed : (ofLink config link).Keyed := by simp [Keyed, ofLink]
  have sound := run_sound (initial_sound config link) before
  have holding := run_holding (initial_sound config link) keyed (initial_regular config link).holding
    (before ++ a :: later)
  rw [run_append] at holding
  have held : w.call ∈ d.hub.calls.calls := holding.there _ (caller_member key _ found) w.call rfl
  have settled := heard_stands sound later r heard w.call awaited same held
  obtain ⟨f, decoded⟩ := hears_decoded r heard
  have valid := outcome_valid r (decoded_result_valid f r decoded) p succeeds
  have finish := finish_settled w d.clock d.hub.calls (.ok r) settled
  have moved : Caller.move (.awaiting .ignored w) d.clock d.tasksEnded d.hub =
      (.inr (Use.ignored.apply p { d.hub with calls := d.hub.calls.perform (.collect w.call) }).1,
        (Use.ignored.apply p { d.hub with calls := d.hub.calls.perform (.collect w.call) }).2) := by
    simp only [Caller.move, finish, Use.conclude, succeeds]
  exact ⟨_, move_finished key _ _ _ found moved, ignore_reads p valid _⟩

def ignoring (result : String) : List Act :=
  [.begin (.ask .ignored none ⟨"Page.reload", .empty, none⟩), .move .writer, .move .writer,
    .move (.caller 0), reply result]

def brings (c : Connection) (result : String) : Bool :=
  (c.hears? (.move .reader)).any (fun r => r.id == 1 && r.outcome.toOption == some ⟨result⟩) &&
    c.hub.calls.slots.any fun s => s.outcome.isNone && s.call == ⟨0, 1, "Page.reload"⟩

theorem ignored_results_read_list :
    let c := (ofLink {} inMemory).run (ignoring "[5, null]")
    let d := c.act (.move .reader)
    c.brings "[5, null]" = true ∧
      ∃ answer, (d.act (.move (.caller 0))).finished = d.finished ++ [(0, answer)] ∧ Ignored ⟨"[5, null]"⟩ answer ∧
        answer = .ok .done := by
  intro c d
  have brought : c.brings "[5, null]" = true := by decide +kernel
  obtain ⟨heard, awaited⟩ := Bool.and_eq_true_iff.mp brought
  obtain ⟨r, hears, is⟩ := (Option.any_eq_true _ _).mp heard
  obtain ⟨s, member, waits⟩ := List.any_eq_true.mp awaited
  simp only [Bool.and_eq_true, beq_iff_eq, Option.isNone_iff_eq_none] at is waits
  have succeeds : r.outcome = .ok ⟨"[5, null]"⟩ := by
    cases outcome : r.outcome with
    | error fault => simp [outcome, Except.toOption] at is
    | ok p =>
        have same := is.2
        rw [outcome] at same
        exact congrArg Except.ok (Option.some.inj same)
  obtain ⟨answer, finished, ignored⟩ := ignored_results_read {} inMemory (ignoring "[5, null]")
    [] (.move .reader) r ⟨"[5, null]"⟩ 0
    ⟨⟨0, 1, "Page.reload"⟩, none, none⟩ hears ⟨s, member, waits⟩ is.1.symm succeeds (by decide +kernel)
  have parsed : (Json.parse (Utf8.encode "[5, null]")).isOk = true := by decide +kernel
  refine ⟨brought, answer, finished, ignored, ?_⟩
  by_contra other
  obtain ⟨fault, fails, _⟩ := ignored.fails other
  rw [fails] at parsed
  cases parsed

def jsonFault? : Except Error Answer → Option Json.Error
  | .error (.json fault) => some fault
  | _ => none

def ignoringEnds (result : String) : List (Nat × Option Json.Error) :=
  (((ofLink {} inMemory).run (ignoring result ++ [.move .reader, .move (.caller 0)])).finished).map fun (key, answer) =>
    (key, jsonFault? answer)

-- A number out of range, and a string that stands for no text.
theorem ignored_result_fails :
    (((ofLink {} inMemory).run (ignoring "1e999")).brings "1e999" = true ∧
      ignoringEnds "1e999" = [(0, some .numberOutOfRange)]) ∧
      ((ofLink {} inMemory).run (ignoring "[\"\\ud800\"]")).brings "[\"\\ud800\"]" = true ∧
      ignoringEnds "[\"\\ud800\"]" = [(0, some .unpairedEscape)] := by
  decide +kernel

end Connection

end DevTools
