import DevTools.Proofs.Message.Fields
import Mathlib.Logic.Relation

set_option autoImplicit false

namespace DevTools

open Json

-- Changes to the members of a frame that leave what it says alone. Each is made at the front, where `permute` brings any member.
inductive Edit : List Member → List Member → Prop where
  | permute (ms ns : List Member) (perm : ms.Perm ns) : Edit ms ns
  | respell (m : Member) (key : Bytes) (ms : List Member) (respells : Respells m.key key) :
      Edit (m :: ms) (⟨key, m.text⟩ :: ms)
  | respace (m : Member) (text : Bytes) (ms : List Member) (looked : ∀ name, Named m.key name → name ≠ "params" ∧
      name ≠ "result")
      (respaced : Respaced m.text text) : Edit (m :: ms) (⟨m.key, text⟩ :: ms)
  | addNull (m : Member) (name : String) (ms : List Member) (named : Named m.key name) (absent : ¬ Present ms name)
      (null : m.text = nullText) : Edit ms (m :: ms)
  | dropNull (m : Member) (ms : List Member) (null : m.text = nullText) : Edit (m :: ms) ms
  | addOther (m : Member) (name : String) (ms : List Member) (named : Named m.key name)
      (unknown : Frame.record.field? name = none) :
      Edit ms (m :: ms)

theorem frame_spare (ms : List Member) : ∀ field ∈ Frame.record.fields, field.required = true →
    Present ms field.name := by
  simp [Frame.record, Field.of]

theorem frame_nullable (depth : Nat) (field : Json.Field Frame) (member : field ∈ Frame.record.fields) :
    ∃ put, field.Adds depth nullText put := by
  simp only [Frame.record, List.mem_cons, List.not_mem_nil, or_false] at member
  rcases member with rfl | rfl | rfl | rfl | rfl | rfl <;> exact ⟨_, of_adds _ _ _ _ depth nullText none null_reads⟩

theorem frame_blind (depth : Nat) : ∀ field ∈ Frame.record.fields, field.name ≠ "params" → field.name ≠ "result" →
    field.Blind depth := by
  simp [Frame.record]

theorem frame_cons (m : Member) (ms : List Member) : Frame.record.Sound 126 (m :: ms) ↔ (∃ name, Named m.key name) ∧
    (∀ name, Named m.key name → Present ms name → Frame.record.field? name = none) ∧
    (∀ name field, Named m.key name → Frame.record.field? name = some field → ∃ put, field.Adds 126 m.text put) ∧
    Frame.record.Sound 126 ms := by
  constructor
  · rintro ⟨named, once, adds, _⟩
    obtain ⟨apart, once⟩ := List.pairwise_cons.mp once
    refine ⟨named m List.mem_cons_self, ?_, ?_, fun n member => named n (List.mem_cons_of_mem m member), once, ?_,
      frame_spare ms⟩
    · rintro name speaks ⟨n, member, also⟩
      exact apart n member name speaks also
    · exact fun name field speaks known => adds name field known m.text ⟨m, List.mem_cons_self, speaks, rfl⟩
    · exact fun name field known text holds =>
        adds name field known text ((holds_cons m ms name text).mpr (Or.inr holds))
  · rintro ⟨named, apart, added, sound⟩
    refine ⟨List.forall_mem_cons.mpr ⟨named, sound.named⟩, .cons ?_ sound.once, ?_, frame_spare (m :: ms)⟩
    · exact fun n member name speaks also => apart name speaks ⟨n, member, also⟩
    · intro name field known text holds
      rcases (holds_cons m ms name text).mp holds with ⟨speaks, rfl⟩ | later
      · exact added name field speaks known
      · exact sound.adds name field known text later

theorem holds_perm (ms ns : List Member) (perm : ms.Perm ns) (name : String) (text : Bytes) :
    Holds ns name text ↔ Holds ms name text := by
  constructor <;> rintro ⟨m, member, speaks⟩
  · exact ⟨m, perm.mem_iff.mpr member, speaks⟩
  · exact ⟨m, perm.mem_iff.mp member, speaks⟩

theorem respelled_named (key other : Bytes) (name : String) (named : ∃ name, Named key name)
    (respells : Respells key other) :
    Named other name ↔ Named key name := by
  obtain ⟨said, speaks⟩ := named
  constructor
  · intro also
    exact named_unique other said name (respells said speaks) also ▸ speaks
  · exact respells name

theorem edit_sound (ms ns : List Member) (edit : Edit ms ns) (sound : Frame.record.Sound 126 ms) :
    Frame.record.Sound 126 ns := by
  cases edit with
  | permute _ _ perm =>
      refine ⟨fun m member => sound.named m (perm.mem_iff.mpr member), ?_, ?_, frame_spare ns⟩
      · exact (perm.pairwise_iff fun apart name speaks also => apart name also speaks).mp sound.once
      · exact fun name field known text holds =>
          sound.adds name field known text ((holds_perm ms ns perm name text).mp holds)
  | respell m key ms respells =>
      obtain ⟨named, apart, adds, others⟩ := (frame_cons m ms).mp sound
      have same := fun name => respelled_named m.key key name named respells
      refine (frame_cons ⟨key, m.text⟩ ms).mpr ⟨named.imp respells, ?_, ?_, others⟩
      · exact fun name speaks => apart name ((same name).mp speaks)
      · exact fun name field speaks => adds name field ((same name).mp speaks)
  | respace m text ms looked respaced =>
      obtain ⟨named, apart, adds, others⟩ := (frame_cons m ms).mp sound
      refine (frame_cons ⟨m.key, text⟩ ms).mpr ⟨named, apart, ?_, others⟩
      intro name field speaks known
      obtain ⟨put, added⟩ := adds name field speaks known
      obtain ⟨member, rfl⟩ := Frame.record.field_mem name field known
      obtain ⟨notParams, notResult⟩ := looked field.name speaks
      exact ⟨put, frame_blind 126 field member notParams notResult m.text text put added respaced⟩
  | addNull m name _ named absent null =>
      refine (frame_cons m ms).mpr ⟨⟨name, named⟩, ?_, ?_, sound⟩
      · intro other speaks present
        cases named_unique m.key name other named speaks
        exact absurd present absent
      · intro other field _ known
        rw [null]
        exact frame_nullable 126 field (Frame.record.field_mem other field known).1
  | dropNull m _ _ => exact ((frame_cons m ns).mp sound).2.2.2
  | addOther m name _ named unknown =>
      refine (frame_cons m ms).mpr ⟨⟨name, named⟩, ?_, ?_, sound⟩
      · intro other speaks _
        cases named_unique m.key name other named speaks
        exact unknown
      · intro other field speaks known
        cases named_unique m.key name other named speaks
        rw [unknown] at known
        cases known

theorem has_same {β : Type} (ms ns : List Member) (name : String)
    (read : Bytes → Except Json.Error (β × Bytes)) (blank x : β)
    (same : ∀ text, Holds ns name text ↔ Holds ms name text) (has : Has ms name read blank x) :
    Has ns name read blank x := by
  refine ⟨fun text holds => has.1 text ((same text).mp holds), fun absent => has.2 ?_⟩
  intro present
  obtain ⟨text, holds⟩ := present_holds ms name present
  exact absent (holds_present ns name text ((same text).mpr holds))

theorem edit_has {β : Type} (ms ns : List Member) (edit : Edit ms ns) (sound : Frame.record.Sound 126 ms)
    (name : String)
    (known : Frame.record.field? name ≠ none) (read : Nat → Bytes → Except Json.Error (β × Bytes)) (x : Option β)
    (blind : name = "params" ∨ name = "result" ∨ Blind (readOptional read 126))
    (has : Has ms name (readOptional read 126) none x) :
    Has ns name (readOptional read 126) none x := by
  cases edit with
  | permute _ _ perm => exact has_same ms ns name _ none x (holds_perm ms ns perm name) has
  | respell m key ms respells =>
      have same := respelled_named m.key key name ((frame_cons m ms).mp sound).1 respells
      refine has_same (m :: ms) _ name _ none x ?_ has
      intro text
      rw [holds_cons, holds_cons, same]
  | respace m text ms looked respaced =>
      refine ⟨?_, ?_⟩
      · intro other holds
        rcases (holds_cons _ ms name other).mp holds with ⟨speaks, rfl⟩ | later
        · obtain ⟨notParams, notResult⟩ := looked name speaks
          rcases blind with isParams | isResult | blind
          · exact absurd isParams notParams
          · exact absurd isResult notResult
          · exact blind m.text text x (has.1 m.text ⟨m, List.mem_cons_self, speaks, rfl⟩) respaced
        · exact has.1 other ((holds_cons m ms name other).mpr (Or.inr later))
      · intro absent
        refine has.2 ?_
        rw [present_cons] at absent ⊢
        exact absent
  | addNull m nulled _ named absent null =>
      by_cases same : name = nulled
      · subst same
        rw [has.2 absent]
        refine ⟨?_, fun _ => rfl⟩
        intro text holds
        rcases (holds_cons m ms name text).mp holds with ⟨_, rfl⟩ | later
        · rw [null]
          exact null_reads
        · exact absurd (holds_present ms name text later) absent
      · refine has_same ms _ name _ none x ?_ has
        intro text
        rw [holds_cons]
        exact or_iff_right fun ⟨speaks, _⟩ => same (named_unique m.key name nulled speaks named)
  | dropNull m _ null =>
      refine ⟨fun text holds => has.1 text ((holds_cons m ns name text).mpr (Or.inr holds)), ?_⟩
      intro absent
      by_cases speaks : Named m.key name
      · have reads := has.1 m.text ⟨m, List.mem_cons_self, speaks, rfl⟩
        rw [null] at reads
        exact reads_unique nullText x none reads null_reads
      · refine has.2 ?_
        rw [present_cons]
        exact fun present => present.elim speaks absent
  | addOther m other _ named unknown =>
      refine has_same ms _ name _ none x ?_ has
      intro text
      rw [holds_cons]
      refine or_iff_right ?_
      rintro ⟨speaks, _⟩
      cases named_unique m.key name other speaks named
      exact known unknown

theorem edit_made (ms ns : List Member) (frame : Frame) (edit : Edit ms ns) (made : frame.Made ms) : frame.Made ns := by
  have keeps := fun {β : Type} name known (read : Nat → Bytes → Except Json.Error (β × Bytes)) x blind has =>
    edit_has ms ns edit made.sound name known read x blind has
  exact {
    sound := edit_sound ms ns edit made.sound
    id := keeps "id" (fun none => nomatch none) _ _ (Or.inr (Or.inr (by simp))) made.id
    method := keeps "method" (fun none => nomatch none) _ _ (Or.inr (Or.inr (by simp))) made.method
    params := keeps "params" (fun none => nomatch none) _ _ (Or.inl rfl) made.params
    result := keeps "result" (fun none => nomatch none) _ _ (Or.inr (Or.inl rfl)) made.result
    error := keeps "error" (fun none => nomatch none) _ _ (Or.inr (Or.inr (by simp))) made.error
    session := keeps "sessionId" (fun none => nomatch none) _ _ (Or.inr (Or.inr (by simp))) made.session }

theorem edits_made (ms ns : List Member) (frame : Frame) (edits : Relation.ReflTransGen Edit ms ns)
    (made : frame.Made ms) :
    frame.Made ns := by
  induction edits with
  | refl => exact made
  | tail _ edit ih => exact edit_made _ _ frame edit ih

-- A frame that is an object, and not refused for its text, decodes as it does after any edits and in any layout. With
-- a second member of a known name, wherever that stands, it is refused for its text.
theorem decode_edited (f : Bytes) (object : IsObject f) (accepted : ∀ fault, Message.decode f ≠ .error (.json fault)) :
    ∃ ms, Laid ms f ∧
      (∀ ns g, Relation.ReflTransGen Edit ms ns → Laid ns g → Message.decode g = Message.decode f) ∧
      ∀ before after m name g, ms = before ++ after → Present ms name → Frame.record.field? name ≠ none →
        Named m.key name →
        Laid (before ++ m :: after) g → ∃ fault, Message.decode g = .error (.json fault) := by
  obtain ⟨frame, parsed⟩ := decode_parsed f accepted
  obtain ⟨ms, laid, gives⟩ := Frame.record.object_parses (Frame.fielded 126) f frame object parsed
  refine ⟨ms, laid, ?_, ?_⟩
  · intro ns g edits edited
    have made := made_gives ns frame (edits_made ms ns frame edits (frame_made ms frame gives))
    rw [decode_classifies f frame parsed,
      decode_classifies g frame ((Frame.record.laid_parses (Frame.fielded 126) ns g edited frame).mpr made)]
  · rintro before after m name g rfl present known speaks doubled
    cases refused : Frame.record.parse g with
    | error fault => exact ⟨fault, by rw [Message.decode, refused]⟩
    | ok other =>
        have also := (Frame.record.laid_parses (Frame.fielded 126) _ g doubled other).mp refused
        have sound := edit_sound _ _ (.permute _ _ List.perm_middle) (Record.gives_sound _ other also)
        exact absurd (((frame_cons m (before ++ after)).mp sound).2.1 name speaks present) known

-- An error in an object that is laid out with blanks, and one in a list.
theorem decode_edited_errors :
    let f := Utf8.encode "\x7b\"id\" : 1, \"\\u0065rror\": \x7b\"code\":-1,\"message\":\"m\",\"data\":[1 ,2]\x7d\x7d"
    let g := Utf8.encode "\x7b\"error\":[-1,\"m\"],\"id\":0\x7d"
    (∃ ms, Laid ms f ∧ ∀ ns h, Relation.ReflTransGen Edit ms ns → Laid ns h → Message.decode h = Message.decode f) ∧
      (Message.decode f).toOption.isSome = true ∧
      (∃ ms, Laid ms g ∧ ∀ ns h, Relation.ReflTransGen Edit ms ns → Laid ns h →
        Message.decode h = .error .unclassifiable) := by
  intro f g
  have decoded : (Message.decode f).toOption.isSome = true := by decide +kernel
  have unclassified : Message.decode g = .error .unclassifiable := decode_faults g .unclassifiable (by decide +kernel)
  have response : ∃ ms, Laid ms f ∧ ∀ ns h, Relation.ReflTransGen Edit ms ns → Laid ns h →
      Message.decode h = Message.decode f := by
    obtain ⟨ms, laid, edited, _⟩ := decode_edited f ⟨[], f.drop 1, blanks_nil, by decide +kernel⟩ <| by
      intro fault refused
      rw [refused] at decoded
      cases decoded
    exact ⟨ms, laid, edited⟩
  obtain ⟨ms, laid, edited, _⟩ := decode_edited g ⟨[], g.drop 1, blanks_nil, by decide +kernel⟩ <| by
    intro fault refused
    rw [unclassified] at refused
    cases refused
  exact ⟨response, decoded, ms, laid, fun ns h edits other => (edited ns h edits other).trans unclassified⟩

-- A key that is no text is no other key: half of a surrogate pair is refused before its member is passed over.
theorem lone_surrogate_refused :
    let f := Utf8.encode "\x7b\"id\":1\x7d"
    let g := Utf8.encode "\x7b\"id\":1,\"\\ud800\":0\x7d"
    ∃ ms m, Laid ms f ∧ Laid (ms ++ [m]) g ∧ Frame.record.Foreign m ∧ (Message.decode f).toOption.isSome = true ∧
      Message.decode g = .error (.json .unpairedEscape) := by
  intro f g
  have plain : Content (Utf8.encode "id") := .plain _ _ rfl (.plain _ _ rfl .nil)
  have surrogate : Content (Utf8.encode "\\ud800") := .numbered _ _ _ _ [] (by decide +kernel) .nil
  have one : Spelled .value (Utf8.encode "1") :=
    .numeral _ (Or.inl ⟨Utf8.encode "1", [], [], .more _ [] (by decide) (List.forall_mem_singleton.mpr (by decide)),
      .absent, .absent, rfl⟩)
  have none_ : Spelled .value (Utf8.encode "0") :=
    .numeral _ (Or.inl ⟨Utf8.encode "0", [], [], .zero, .absent, .absent, rfl⟩)
  have first : Member.Laid ⟨Utf8.encode "id", Utf8.encode "1"⟩ (Utf8.encode "\"id\":1") :=
    ⟨plain, one, [], [], blanks_nil, blanks_nil, rfl⟩
  have second : Member.Laid ⟨Utf8.encode "\\ud800", Utf8.encode "0"⟩ (Utf8.encode "\"\\ud800\":0") :=
    ⟨surrogate, none_, [], [], blanks_nil, blanks_nil, rfl⟩
  have closed : Parts .object Member.Laid false [] [Bracket.object.closing] := .close false [] blanks_nil
  refine ⟨[⟨Utf8.encode "id", Utf8.encode "1"⟩], ⟨Utf8.encode "\\ud800", Utf8.encode "0"⟩, ?_, ?_, ?_,
    by decide +kernel,
    decode_faults g _ (by decide +kernel)⟩
  · exact ⟨[], _, [], blanks_nil, blanks_nil, .next true _ [] [] _ _ (.first [] blanks_nil) first closed,
      by decide +kernel⟩
  · exact ⟨[], _, [], blanks_nil, blanks_nil, .next true _ _ [] _ _ (.first [] blanks_nil) first
      (.next false _ [] _ _ _ (.later [] [] blanks_nil blanks_nil) second closed), by decide +kernel⟩
  · intro name named
    have read := named_read _ [] name named
    have refused : (readString (Utf8.encode "\\ud800" ++ [Ascii.quote])).toOption = none := by decide +kernel
    rw [read] at refused
    cases refused

end DevTools
