import DevTools.Proofs.Json.Members

set_option autoImplicit false

namespace DevTools.Json

open Ascii

theorem insert_mem (name : String) (value : Json) (members : List (String × Json)) (member : String × Json)
    (there : member ∈ insert name value members) : member = (name, value) ∨ member ∈ members := by
  induction members with
  | nil => exact Or.inl (List.mem_singleton.mp there)
  | cons first members ih =>
      obtain ⟨other, kept⟩ := first
      by_cases before : name < other
      · rw [insert, if_pos before] at there
        exact List.mem_cons.mp there
      · by_cases same : name = other
        · rw [insert, if_neg before, if_pos same] at there
          exact (List.mem_cons.mp there).imp id (List.mem_cons_of_mem _)
        · rw [insert, if_neg before, if_neg same] at there
          rcases List.mem_cons.mp there with first | later
          · exact Or.inr (List.mem_cons.mpr (Or.inl first))
          · exact (ih later).imp id (List.mem_cons_of_mem _)

theorem insert_ordered (name : String) (value : Json) (members : List (String × Json)) (ordered : Ordered members) :
    Ordered (insert name value members) := by
  induction members with
  | nil => exact List.pairwise_singleton _ _
  | cons first members ih =>
      obtain ⟨other, kept⟩ := first
      obtain ⟨above, others⟩ := List.pairwise_cons.mp ordered
      by_cases before : name < other
      · rw [insert, if_pos before]
        refine List.pairwise_cons.mpr ⟨?_, ordered⟩
        intro member there
        rcases List.mem_cons.mp there with rfl | later
        · exact before
        · exact String.lt_trans before (above member later)
      · by_cases same : name = other
        · subst same
          rw [insert, if_neg before, if_pos rfl]
          exact List.pairwise_cons.mpr ⟨above, others⟩
        · rw [insert, if_neg before, if_neg same]
          have after : other < name :=
            String.not_le.mp fun below => same (String.le_antisymm below (String.not_lt.mp before))
          refine List.pairwise_cons.mpr ⟨?_, ih others⟩
          intro member there
          rcases insert_mem name value members member there with rfl | old
          · exact after
          · exact above member old

theorem gathered_ordered (taken : List (String × Json)) (entries : List Entry) (ordered : Ordered taken) :
    Ordered (gathered taken entries) := by
  induction entries generalizing taken with
  | nil => exact ordered
  | cons e entries ih => exact ih _ (insert_ordered e.name e.value taken ordered)

theorem gathered_mem (taken : List (String × Json)) (entries : List Entry) (member : String × Json)
    (there : member ∈ gathered taken entries) : member ∈ taken ∨ ∃ e ∈ entries, member = (e.name, e.value) := by
  induction entries generalizing taken with
  | nil => exact Or.inl there
  | cons e entries ih =>
      rcases ih _ there with early | ⟨other, later, made⟩
      · rcases insert_mem e.name e.value taken member early with made | old
        · exact Or.inr ⟨e, List.mem_cons_self, made⟩
        · exact Or.inl old
      · exact Or.inr ⟨other, List.mem_cons_of_mem e later, made⟩

-- No number is a double.
inductive Exact : Json → Prop where
  | null : Exact .null
  | boolean (value : Bool) : Exact (.boolean value)
  | integer (value : Int) : Exact (.number (.integer value))
  | string (content : String) : Exact (.string content)
  | array (items : List Json) (exacts : ∀ item ∈ items, Exact item) : Exact (.array items)
  | object (members : List (String × Json)) (exacts : ∀ member ∈ members, Exact member.2) : Exact (.object members)

-- Brackets nest no deeper than `depth`, and no object begins like an embedding.
inductive Bare : (depth : Nat) → Json → Prop where
  | null (depth : Nat) : Bare depth .null
  | boolean (depth : Nat) (value : Bool) : Bare depth (.boolean value)
  | number (depth : Nat) (n : Number) : Bare depth (.number n)
  | string (depth : Nat) (content : String) : Bare depth (.string content)
  | array (depth : Nat) (items : List Json) (bare : ∀ item ∈ items, Bare depth item) : Bare (depth + 1) (.array items)
  | object (depth : Nat) (members : List (String × Json)) (unembedded : Unembedded members)
      (bare : ∀ member ∈ members, Bare depth member.2) : Bare (depth + 1) (.object members)

theorem means_plain (depth room : Nat) (text : Bytes) (v : Json) (means : Means depth text v) (whole : Exact v)
    (bare : Bare room v) :
    Plain room v := by
  induction means generalizing room with
  | null => exact .null room
  | true_ => exact .boolean room true
  | false_ => exact .boolean room false
  | number _ text n _ counts =>
      cases whole with
      | integer value => exact .integer room value (counts_fits text value counts)
  | string _ _ content => exact .string room content
  | list _ parts inside _ _ ih =>
      cases whole with
      | array _ exacts =>
          cases bare with
          | array room _ bare =>
              refine .array room _ ?_
              intro item member
              obtain ⟨p, part, rfl⟩ := List.mem_map.mp member
              exact ih p part room (exacts p.2 member) (bare p.2 member)
  | object _ entries inside _ _ _ _ ih =>
      cases whole with
      | object _ exacts =>
          cases bare with
          | object room _ unembedded bare =>
              refine .object room _ (gathered_ordered [] entries .nil) unembedded ?_
              intro member there
              rcases gathered_mem [] entries member there with none | ⟨e, entry, rfl⟩
              · cases none
              · exact ih e entry room (exacts _ there) (bare _ there)
  | embedding _ _ _ _ _ _ _ _ _ _ _ _ _ _ _ ih => exact ih room whole bare

-- A name that stands somewhere in a text as a string, however it is spelled.
def Mentions (text : Bytes) (name : String) : Prop := ∃ key, Named key name ∧ quote :: (key ++ [quote]) <:+: text

theorem mentions_within (s t : Bytes) (name : String) (mentions : Mentions s name) (within : s <:+: t) :
    Mentions t name := by
  obtain ⟨key, named, inside⟩ := mentions
  exact ⟨key, named, inside.trans within⟩

theorem member_mentions (m : Member) (s : Bytes) (name : String) (laid : m.Laid s) (named : Named m.key name) :
    Mentions s name := by
  obtain ⟨_, _, between, gap, _, _, rfl⟩ := laid
  exact ⟨m.key, named, [], between ++ colon :: (gap ++ m.text), by simp⟩

theorem entry_stands (ms : List Member) (inside : Bytes) (layout : Parts .object Member.Laid true ms inside)
    (m : Member)
    (member : m ∈ ms) :
    m.text <:+: openBrace :: inside ∧ ∀ name, Named m.key name → Mentions (openBrace :: inside) name := by
  obtain ⟨s, laid, within⟩ := parts_within true ms inside layout m member
  have whole := within.trans (List.suffix_cons openBrace inside).isInfix
  exact ⟨(member_within m s laid).2.trans whole, fun name named =>
    mentions_within s _ name (member_mentions m s name laid named) whole⟩

theorem laid_mentions (ms : List Member) (f : Bytes) (laid : Laid ms f) (m : Member) (member : m ∈ ms) (name : String)
    (named : Named m.key name) : Mentions f name := by
  obtain ⟨before, inside, after, _, _, layout, rfl⟩ := laid
  exact mentions_within _ _ name ((entry_stands ms inside layout m member).2 name named) ⟨before, after, by simp⟩

theorem means_bare (depth : Nat) (text : Bytes) (v : Json) (means : Means depth text v)
    (unmentioned : ¬ Mentions text embeddingName) :
    Bare depth v := by
  induction means with
  | null depth => exact .null depth
  | true_ depth => exact .boolean depth true
  | false_ depth => exact .boolean depth false
  | number depth _ n => exact .number depth n
  | string depth _ content => exact .string depth content
  | list depth parts inside layout _ ih =>
      refine .array depth _ ?_
      intro item member
      obtain ⟨p, part, rfl⟩ := List.mem_map.mp member
      obtain ⟨s, ⟨rfl, _⟩, within⟩ := parts_within true _ inside layout p.1 (List.mem_map_of_mem part)
      exact ih p part fun mentions =>
        unmentioned (mentions_within _ _ _ mentions (within.trans (List.suffix_cons openBracket inside).isInfix))
  | object depth entries inside layout named _ _ ih =>
      have entered : ∀ member ∈ gathered [] entries, ∃ e ∈ entries, member = (e.name, e.value) :=
        fun member there => (gathered_mem [] entries member there).resolve_left List.not_mem_nil
      have stands := fun e (entry : e ∈ entries) => entry_stands _ inside layout e.member (List.mem_map_of_mem entry)
      refine .object depth _ ?_ ?_
      · intro first leads embeds
        obtain ⟨e, entry, rfl⟩ := entered first (List.mem_of_head? leads)
        exact unmentioned ((stands e entry).2 embeddingName (embeds ▸ named e entry))
      · intro member there
        obtain ⟨e, entry, rfl⟩ := entered member there
        exact ih e entry fun mentions => unmentioned (mentions_within _ _ _ mentions (stands e entry).1)
  | embedding _ m inside _ _ _ _ _ layout named =>
      exact absurd ((entry_stands [m] inside layout m List.mem_cons_self).2 embeddingName named) unmentioned

-- Another text than `null` itself comes to it by an embedding only.
theorem means_null (depth : Nat) (text : Bytes) (means : Means depth text .null) (present : text ≠ nullText) :
    ∃ m, Laid [m] text ∧ Named m.key embeddingName := by
  cases means with
  | null => exact absurd rfl present
  | embedding _ m inside _ _ _ _ _ layout named =>
      exact ⟨m, ⟨[], inside, [], blanks_nil, blanks_nil, layout, by simp⟩, named⟩

end DevTools.Json
