import DevTools.Proofs.Json.Members
import Mathlib.Tactic.Tauto
import Mathlib.Data.List.Nodup

set_option autoImplicit false

namespace DevTools.Json

open Ascii

def Present (ms : List Member) (name : String) : Prop := ∃ m ∈ ms, Named m.key name

def Holds (ms : List Member) (name : String) (text : Bytes) : Prop := ∃ m ∈ ms, Named m.key name ∧ m.text = text

theorem present_holds (ms : List Member) (name : String) (present : Present ms name) : ∃ text, Holds ms name text := by
  obtain ⟨m, member, named⟩ := present
  exact ⟨m.text, m, member, named, rfl⟩

theorem holds_present (ms : List Member) (name : String) (text : Bytes) (holds : Holds ms name text) :
    Present ms name := by
  obtain ⟨m, member, named, _⟩ := holds
  exact ⟨m, member, named⟩

theorem present_cons (m : Member) (ms : List Member) (name : String) : Present (m :: ms) name ↔ Named m.key name ∨
    Present ms name := by
  simp [Present]

theorem holds_cons (m : Member) (ms : List Member) (name : String) (text : Bytes) :
    Holds (m :: ms) name text ↔ (Named m.key name ∧ m.text = text) ∨ Holds ms name text := by
  simp [Holds]

-- What the member of a name says, or what there is without one.
def Has {β : Type} (ms : List Member) (name : String) (read : Bytes → Except Error (β × Bytes)) (blank x : β) : Prop :=
  (∀ text, Holds ms name text → Reads read text x) ∧ (¬ Present ms name → x = blank)

theorem has_unique {β : Type} (ms : List Member) (name : String) (read : Bytes → Except Error (β × Bytes))
    (blank x y : β)
    (one : Has ms name read blank x) (other : Has ms name read blank y) : x = y := by
  by_cases present : Present ms name
  · obtain ⟨text, holds⟩ := present_holds ms name present
    exact reads_unique text x y (one.1 text holds) (other.1 text holds)
  · rw [one.2 present, other.2 present]

-- A field that can be read wherever a member is for it.
def Field.Heard {α : Type} (field : Field α) (depth : Nat) (ms : List Member) : Prop :=
  ∀ text, Holds ms field.name text → ∃ put, field.Adds depth text put

theorem of_heard {α β : Type} (name : String) (required : Bool) (read : Nat → Bytes → Except Error (β × Bytes))
    (put : α → β → α)
    (depth : Nat) (ms : List Member) (blank x : β) (has : Has ms name (read depth) blank x) :
    (Field.of name required read put).Heard depth ms :=
  fun text holds => ⟨_, of_adds name required read put depth text x (has.1 text holds)⟩

def Field.Keeps {α γ : Type} (field : Field α) (get : α → γ) : Prop :=
  ∀ depth a b s rest, field.read depth a s = .ok (b, rest) → get b = get a

section
variable {β : Type} {read : Nat → Bytes → Except Error (β × Bytes)} {depth : Nat} (ms : List Member) (name : String)

theorem has_present (x : β) (has : Has ms name (readOptional read depth) none (some x)) : Present ms name :=
  Classical.byContradiction fun absent => Option.some_ne_none x (has.2 absent)

theorem has_some (blank x : β) (regular : Regular (read depth))
    (has : Has ms name (readOptional read depth) none (some x)) :
    Present ms name ∧ Has ms name (read depth) blank x := by
  have present := has_present ms name x has
  exact ⟨present, fun text holds => optional_some regular text x (has.1 text holds),
    fun absent => absurd present absent⟩

def Stand (f : Bytes) : Prop := ∀ m ∈ ms, Spelled .value m.text ∧ m.text <:+: f

theorem has_stands (speaks : Bytes → β → Prop) (takes : Takes (read depth) speaks) (x : β) (f : Bytes)
    (stand : Stand ms f)
    (has : Has ms name (readOptional read depth) none (some x)) :
    ∃ text, text <:+: f ∧ Spelled .value text ∧ text ≠ nullText ∧ speaks text x := by
  obtain ⟨m, member, named⟩ := has_present ms name x has
  obtain ⟨spelled, within⟩ := stand m member
  obtain ⟨present, said⟩ :=
    reads_speaks _ (optional_takes speaks takes) m.text (some x) spelled (has.1 m.text ⟨m, member, named, rfl⟩)
  exact ⟨m.text, within, spelled, present, said⟩

end

namespace Record

variable {α : Type} (r : Record α) (depth : Nat)

-- Members of which a record can be made.
structure Sound (ms : List Member) : Prop where
  named : ∀ m ∈ ms, ∃ name, Named m.key name
  once : ms.Pairwise fun m n => ∀ name, Named m.key name → Named n.key name → r.field? name = none
  adds : ∀ name field, r.field? name = some field → ∀ text, Holds ms name text → ∃ put, field.Adds depth text put
  whole : ∀ field ∈ r.fields, field.required = true → Present ms field.name

-- A member that the record has no field for.
def Foreign (m : Member) : Prop := ∀ name, Named m.key name → r.field? name = none

section
variable {r depth}

theorem chain_seen (ms : List Member) (p q : Progress α) (chain : Chain (r.Enters depth) p ms q) (name : String) :
    name ∈ q.seen ↔ name ∈ p.seen ∨ (r.field? name ≠ none ∧ Present ms name) := by
  induction chain with
  | done => simp [Present]
  | next m other ms p middle q named enters _ ih =>
      have same : Named m.key name ↔ name = other :=
        ⟨fun speaks => named_unique m.key name other speaks named, fun same => same ▸ named⟩
      rw [ih, present_cons, same]
      rcases enters with ⟨unknown, rfl⟩ | ⟨field, put, known, _, _, rfl⟩
      · have never : ¬ (r.field? name ≠ none ∧ name = other) := by
          rintro ⟨known, rfl⟩
          exact known unknown
        tauto
      · have always : name = other → r.field? name ≠ none := by
          rintro rfl
          rw [known]
          exact Option.some_ne_none field
        rw [List.mem_cons]
        tauto

theorem chain_fresh (ms : List Member) (p q : Progress α) (chain : Chain (r.Enters depth) p ms q) (name : String)
    (seen : name ∈ p.seen)
    (present : Present ms name) : r.field? name = none := by
  induction chain with
  | done =>
      obtain ⟨m, member, _⟩ := present
      cases member
  | next m other ms p middle q named enters _ ih =>
      rcases (present_cons m ms name).mp present with speaks | later
      · cases named_unique m.key name other speaks named
        rcases enters with ⟨unknown, _⟩ | ⟨_, _, _, fresh, _⟩
        · exact unknown
        · exact absurd seen fresh
      · refine ih ?_ later
        rcases enters with ⟨_, rfl⟩ | ⟨_, _, _, _, _, rfl⟩
        · exact seen
        · exact List.mem_cons_of_mem other seen

theorem chain_once (ms : List Member) (p q : Progress α) (chain : Chain (r.Enters depth) p ms q) :
    ms.Pairwise fun m n => ∀ name, Named m.key name → Named n.key name → r.field? name = none := by
  induction chain with
  | done => exact .nil
  | next m other ms p middle q named enters others ih =>
      refine .cons ?_ ih
      intro n member name speaks also
      cases named_unique m.key name other speaks named
      rcases enters with ⟨unknown, _⟩ | ⟨_, _, _, _, _, rfl⟩
      · exact unknown
      · exact chain_fresh ms _ q others other List.mem_cons_self ⟨n, member, also⟩

theorem chain_adds (ms : List Member) (p q : Progress α) (chain : Chain (r.Enters depth) p ms q) (name : String)
    (field : Field α)
    (known : r.field? name = some field) (text : Bytes) (holds : Holds ms name text) :
    ∃ put, field.Adds depth text put := by
  induction chain with
  | done =>
      obtain ⟨m, member, _⟩ := holds
      cases member
  | next m other ms p middle q named enters _ ih =>
      rcases (holds_cons m ms name text).mp holds with ⟨speaks, rfl⟩ | later
      · cases named_unique m.key name other speaks named
        rcases enters with ⟨unknown, _⟩ | ⟨_, put, found, _, adds, _⟩
        · rw [known] at unknown
          cases unknown
        · rw [known] at found
          cases found
          exact ⟨put, adds⟩
      · exact ih later

theorem chain_named {σ : Type} {step : String → σ → Bytes → σ → Prop} (ms : List Member) (p q : σ)
    (chain : Chain step p ms q) :
    ∀ m ∈ ms, ∃ name, Named m.key name := by
  induction chain with
  | done => exact fun _ member => absurd member List.not_mem_nil
  | next m name ms _ _ _ named _ _ ih =>
      intro n member
      rcases List.mem_cons.mp member with rfl | member
      · exact ⟨name, named⟩
      · exact ih n member

theorem missing_none (seen : List String) :
    r.missing? seen = none ↔ ∀ field ∈ r.fields, field.required = true → field.name ∈ seen := by
  simp [missing?]

theorem field_known (field : Field α) (member : field ∈ r.fields) : r.field? field.name ≠ none := by
  intro unknown
  have other := List.find?_eq_none.mp unknown field member
  simp at other

theorem gives_sound (ms : List Member) (a : α) (gives : r.Gives depth ms a) : r.Sound depth ms := by
  obtain ⟨q, chain, whole, _⟩ := gives
  refine ⟨chain_named ms _ q chain, chain_once ms _ q chain, chain_adds ms _ q chain, ?_⟩
  intro field member required
  have seen := (missing_none q.seen).mp whole field member required
  rcases (chain_seen ms _ q chain field.name).mp seen with none | ⟨_, present⟩
  · cases none
  · exact present

theorem sound_chain (ms : List Member) (named : ∀ m ∈ ms, ∃ name, Named m.key name)
    (once : ms.Pairwise fun m n => ∀ name, Named m.key name → Named n.key name → r.field? name = none)
    (adds : ∀ name field, r.field? name = some field → ∀ text, Holds ms name text → ∃ put, field.Adds depth text put)
    (p : Progress α)
    (fresh : ∀ name ∈ p.seen, Present ms name → r.field? name = none) : ∃ q, Chain (r.Enters depth) p ms q := by
  induction ms generalizing p with
  | nil => exact ⟨p, .done p⟩
  | cons m ms ih =>
      obtain ⟨apart, once⟩ := List.pairwise_cons.mp once
      obtain ⟨name, speaks⟩ := named m List.mem_cons_self
      have others := ih (fun n member => named n (List.mem_cons_of_mem m member)) once
        fun name field known text holds => adds name field known text ((holds_cons m ms name text).mpr (Or.inr holds))
      cases known : r.field? name with
      | none =>
          obtain ⟨q, chain⟩ := others p fun name seen present =>
            fresh name seen ((present_cons m ms name).mpr (Or.inr present))
          exact ⟨q, .next m name ms p p q speaks (Or.inl ⟨known, rfl⟩) chain⟩
      | some field =>
          obtain ⟨put, added⟩ := adds name field known m.text ⟨m, List.mem_cons_self, speaks, rfl⟩
          have new : name ∉ p.seen := by
            intro seen
            have unknown := fresh name seen ⟨m, List.mem_cons_self, speaks⟩
            rw [known] at unknown
            cases unknown
          obtain ⟨q, chain⟩ := others ⟨name :: p.seen, put p.record⟩ <| by
            intro other seen present
            rcases List.mem_cons.mp seen with rfl | seen
            · obtain ⟨n, member, also⟩ := present
              exact apart n member other speaks also
            · exact fresh other seen ((present_cons m ms other).mpr (Or.inr present))
          exact ⟨q, .next m name ms p _ q speaks (Or.inr ⟨field, put, known, new, added, rfl⟩) chain⟩

theorem sound_gives (ms : List Member) (sound : r.Sound depth ms) : ∃ a, r.Gives depth ms a := by
  obtain ⟨q, chain⟩ := sound_chain ms sound.named sound.once sound.adds ⟨[], r.blank⟩ fun _ none => nomatch none
  refine ⟨q.record, q, chain, (missing_none q.seen).mpr ?_, rfl⟩
  intro field member required
  exact (chain_seen ms _ q chain field.name).mpr (Or.inr ⟨field_known field member, sound.whole field member required⟩)

theorem sound_narrows {β : Type} (other : Record β) (ms : List Member) (sound : r.Sound depth ms)
    (fewer : ∀ field ∈ other.fields, r.field? field.name ≠ none) (heard : ∀ field ∈ other.fields, field.Heard depth ms)
    (whole : ∀ field ∈ other.fields, field.required = true → Present ms field.name) : other.Sound depth ms := by
  refine ⟨sound.named, sound.once.imp fun apart name speaks also => ?_, ?_, whole⟩
  · by_contra known
    obtain ⟨field, known⟩ := Option.ne_none_iff_exists'.mp known
    obtain ⟨member, rfl⟩ := other.field_mem name field known
    exact fewer field member (apart field.name speaks also)
  · intro name field known text holds
    obtain ⟨member, rfl⟩ := other.field_mem name field known
    exact heard field member text holds

theorem chain_filter (keep : Member → Bool) (ms : List Member) (p q : Progress α)
    (chain : Chain (r.Enters depth) p ms q)
    (foreign : ∀ m ∈ ms, keep m = false → r.Foreign m) : Chain (r.Enters depth) p (ms.filter keep) q := by
  induction chain with
  | done p => exact .done p
  | next m name ms p middle q named enters _ ih =>
      have others := ih fun n member => foreign n (List.mem_cons_of_mem m member)
      cases kept : keep m with
      | true =>
          rw [List.filter_cons_of_pos kept]
          exact .next m name _ p middle q named enters others
      | false =>
          rw [List.filter_cons_of_neg (by simp [kept])]
          rcases enters with ⟨_, rfl⟩ | ⟨field, _, known, _⟩
          · exact others
          · have unknown := foreign m List.mem_cons_self kept name named
            rw [known] at unknown
            cases unknown

theorem gives_filter (keep : Member → Bool) (ms : List Member) (a : α) (gives : r.Gives depth ms a)
    (foreign : ∀ m ∈ ms, keep m = false → r.Foreign m) : r.Gives depth (ms.filter keep) a := by
  obtain ⟨q, chain, whole, made⟩ := gives
  exact ⟨q, chain_filter keep ms _ q chain foreign, whole, made⟩

end

-- The members of an object that gives the fields the texts of a list.
def placed (fields : List (Field α)) (texts : List Bytes) : List Member :=
  List.zipWith (fun field text => ⟨nameBytes field.name, text⟩) fields texts

theorem row_chain (fields : List (Field α)) (texts : List Bytes) (a b : α) (row : Row depth fields texts a b)
    (seen : List String)
    (known : ∀ field ∈ fields, r.field? field.name = some field) (once : (fields.map Field.name).Nodup)
    (fresh : ∀ field ∈ fields, field.name ∉ seen) :
    ∃ q, Chain (r.Enters depth) ⟨seen, a⟩ (placed fields texts) q ∧ q.record = b ∧
      ∀ field ∈ fields, field.required = true → field.name ∈ q.seen := by
  induction row generalizing seen with
  | done fields a spare =>
      refine ⟨⟨seen, a⟩, ?_, rfl, ?_⟩
      · rw [placed, List.zipWith_nil_right]
        exact .done _
      · intro field member required
        rw [spare field member] at required
        cases required
  | next field fields text texts put a b adds _ ih =>
      obtain ⟨apart, once⟩ := List.nodup_cons.mp once
      obtain ⟨q, chain, made, there⟩ :=
        ih (field.name :: seen) (fun other member => known other (List.mem_cons_of_mem field member)) once <| by
        intro other member again
        rcases List.mem_cons.mp again with same | old
        · exact apart (same ▸ List.mem_map_of_mem member)
        · exact fresh other (List.mem_cons_of_mem field member) old
      refine ⟨q, ?_, made, ?_⟩
      · exact .next ⟨nameBytes field.name, text⟩ field.name _ _ _ q (name_named field.name)
          (Or.inr ⟨field, put, known field List.mem_cons_self, fresh field List.mem_cons_self, adds, rfl⟩) chain
      · intro other member required
        rcases List.mem_cons.mp member with rfl | member
        · exact (chain_seen _ _ q chain other.name).mpr (Or.inl List.mem_cons_self)
        · exact there other member required

theorem once_known (once : (r.fields.map Field.name).Nodup) (field : Field α) (member : field ∈ r.fields) :
    r.field? field.name = some field := by
  obtain ⟨other, known⟩ := Option.ne_none_iff_exists'.mp (field_known field member)
  obtain ⟨also, same⟩ := r.field_mem field.name other known
  rw [known, List.inj_on_of_nodup_map once also member same]

theorem row_gives (texts : List Bytes) (a : α) (row : Row depth r.fields texts r.blank a)
    (once : (r.fields.map Field.name).Nodup) :
    r.Gives depth (placed r.fields texts) a := by
  obtain ⟨q, chain, made, there⟩ := row_chain r depth r.fields texts r.blank a row [] (r.once_known once) once
    fun _ _ none => absurd none List.not_mem_nil
  exact ⟨q, chain, (missing_none q.seen).mpr there, made⟩

omit r depth in
theorem placed_text (fields : List (Field α)) (texts : List Bytes) (m : Member) (member : m ∈ placed fields texts) :
    m.text ∈ texts := by
  induction fields generalizing texts with
  | nil => cases member
  | cons field fields ih =>
      cases texts with
      | nil => cases member
      | cons text texts =>
          rcases List.mem_cons.mp member with rfl | later
          · exact List.mem_cons_self
          · exact List.mem_cons_of_mem text (ih texts later)

theorem speaks_gives (once : (r.fields.map Field.name).Nodup) (text : Bytes) (a : α) (speaks : r.Says depth text a) :
    ∃ ms, r.Gives depth ms a ∧ Stand ms text := by
  cases speaks with
  | object ms inside _ layout gives =>
      refine ⟨ms, gives, ?_⟩
      intro m member
      obtain ⟨s, laid, within⟩ := parts_within true ms inside layout m member
      exact ⟨laid.2.1, ((member_within m s laid).2.trans within).trans (List.suffix_cons openBrace inside).isInfix⟩
  | list texts inside _ layout row =>
      refine ⟨placed r.fields texts, r.row_gives depth texts a row once, ?_⟩
      intro m member
      obtain ⟨s, ⟨rfl, spelled⟩, within⟩ :=
        parts_within true texts inside layout m.text (placed_text r.fields texts m member)
      exact ⟨spelled, within.trans (List.suffix_cons openBracket inside).isInfix⟩

omit r depth in
@[simp]
theorem of_keeps {β γ : Type} (name : String) (required : Bool) (read : Nat → Bytes → Except Error (β × Bytes))
    (put : α → β → α)
    (get : α → γ) (keeps : ∀ a x, get (put a x) = get a) : (Field.of name required read put).Keeps get := by
  intro depth a b s rest taken
  obtain ⟨⟨x, left⟩, _, same⟩ := map_ok _ _ _ taken
  cases same
  exact keeps a x

-- A part of a record that the field of one name alone sets.
structure Slot {β : Type} (name : String) (read : Nat → Bytes → Except Error (β × Bytes)) (get : α → β) : Prop where
  own : ∃ required put, r.field? name = some (.of name required read put) ∧ ∀ a x, get (put a x) = x
  others : ∀ field ∈ r.fields, field.name ≠ name → field.Keeps get
  regular : ∀ depth, Regular (read depth)

section
variable {r depth} {β : Type} {name : String} {read : Nat → Bytes → Except Error (β × Bytes)}
  {get : α → β} (slot : r.Slot name read get)
include slot

theorem chain_keeps (ms : List Member) (p q : Progress α) (chain : Chain (r.Enters depth) p ms q)
    (settled : name ∈ p.seen ∨ ¬ Present ms name) : get q.record = get p.record := by
  induction chain with
  | done => rfl
  | next m other ms p middle q named enters _ ih =>
      rcases enters with ⟨_, rfl⟩ | ⟨field, put, known, fresh, adds, rfl⟩
      · refine ih ?_
        rw [present_cons] at settled
        tauto
      · have different : other ≠ name := by
          rintro rfl
          rw [present_cons] at settled
          tauto
        have later := ih <| by
          rw [present_cons] at settled
          rw [List.mem_cons]
          tauto
        obtain ⟨member, named_⟩ := r.field_mem other field known
        rw [later]
        exact slot.others field member (named_ ▸ different) depth p.record _ _ [] (adds p.record []
          [] blanks_nil stops_nil)

theorem chain_has (ms : List Member) (p q : Progress α) (chain : Chain (r.Enters depth) p ms q) (new : name ∉ p.seen) :
    Has ms name (read depth) (get p.record) (get q.record) := by
  obtain ⟨required, set, own, gets⟩ := slot.own
  refine ⟨?_, fun absent => chain_keeps slot ms p q chain (Or.inr absent)⟩
  intro text holds
  induction chain with
  | done =>
      obtain ⟨m, member, _⟩ := holds
      cases member
  | next m other ms p middle q named enters others ih =>
      rcases (holds_cons m ms name text).mp holds with ⟨speaks, rfl⟩ | later
      · cases named_unique m.key name other speaks named
        rcases enters with ⟨unknown, _⟩ | ⟨field, put, known, _, adds, rfl⟩
        · rw [own] at unknown
          cases unknown
        · rw [own] at known
          cases known
          obtain ⟨x, reads, puts⟩ := adds_of name required read set depth (slot.regular depth) m.text put adds p.record
          rw [chain_keeps slot ms _ q others (Or.inl List.mem_cons_self)]
          dsimp only
          rw [puts, gets]
          exact reads
      · rcases enters with ⟨_, rfl⟩ | ⟨_, _, known, _, _, rfl⟩
        · exact ih new later
        · refine ih ?_ later
          intro seen
          rcases List.mem_cons.mp seen with rfl | seen
          · have again := chain_fresh ms _ q others name List.mem_cons_self (holds_present ms name text later)
            rw [own] at again
            cases again
          · exact new seen

theorem gives_has (ms : List Member) (a : α) (gives : r.Gives depth ms a) :
    Has ms name (read depth) (get r.blank) (get a) := by
  obtain ⟨q, chain, _, rfl⟩ := gives
  exact chain_has slot ms _ q chain List.not_mem_nil

end

end Record

end DevTools.Json
