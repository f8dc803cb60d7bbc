import DevTools.Proofs.Json.Reading
import DevTools.Proofs.Json.Value

set_option autoImplicit false

namespace DevTools.Json

open Ascii

structure Entry where
  member : Member
  name : String
  value : Json

-- Of entries that share a name the last one counts.
def gathered (taken : List (String × Json)) (entries : List Entry) : List (String × Json) :=
  entries.foldl (fun members e => insert e.name e.value members) taken

def Marked (ms : List Member) : Prop := ∃ m ∈ ms.head?, Named m.key embeddingName

inductive Means : (depth : Nat) → Bytes → Json → Prop where
  | null (depth : Nat) : Means depth nullText .null
  | true_ (depth : Nat) : Means depth (letterT :: restOfTrue) (.boolean true)
  | false_ (depth : Nat) : Means depth (letterF :: restOfFalse) (.boolean false)
  | number (depth : Nat) (text : Bytes) (n : Number) (numeral : IsNumeral text) (counts : Counts text n) :
      Means depth text (.number n)
  | string (depth : Nat) (text : Bytes) (content : String) (quoted : Quoted text content) :
      Means depth text (.string content)
  | list (depth : Nat) (parts : List (Bytes × Json)) (inside : Bytes)
      (layout : Parts .list Alone true (parts.map Prod.fst) inside)
      (means : ∀ p ∈ parts, Means depth p.1 p.2) :
      Means (depth + 1) (openBracket :: inside) (.array (parts.map Prod.snd))
  | object (depth : Nat) (entries : List Entry) (inside : Bytes)
      (layout : Parts .object Member.Laid true (entries.map Entry.member) inside)
      (named : ∀ e ∈ entries, Named e.member.key e.name) (unmarked : ¬ Marked (entries.map Entry.member))
      (means : ∀ e ∈ entries, Means depth e.member.text e.value) :
      Means (depth + 1) (openBrace :: inside) (.object (gathered [] entries))
  | embedding (depth : Nat) (m : Member) (inside : Bytes) (content : String) (front text back : Bytes) (v : Json)
      (layout : Parts .object Member.Laid true [m] inside) (named : Named m.key embeddingName)
      (quoted : Quoted m.text content)
      (blankFront : Blanks front) (blankBack : Blanks back) (held : Utf8.encode content = front ++ (text ++ back))
      (means : Means depthLimit text v) : Means (depth + 1) (openBrace :: inside) v

def Puts (speaks : Bytes → Json → Prop) (name : String) (members : List (String × Json)) (text : Bytes)
    (after : List (String × Json)) : Prop :=
  ∃ v, speaks text v ∧ after = insert name v members

theorem chain_entries (speaks : Bytes → Json → Prop) (taken final : List (String × Json)) (ms : List Member)
    (chain : Chain (Puts speaks) taken ms final) : ∃ entries : List Entry, entries.map Entry.member = ms ∧
      (∀ e ∈ entries, Named e.member.key e.name) ∧ (∀ e ∈ entries, speaks e.member.text e.value) ∧
        final = gathered taken entries := by
  induction chain with
  | done state =>
      exact ⟨[], rfl, fun _ member => absurd member List.not_mem_nil,
        fun _ member => absurd member List.not_mem_nil, rfl⟩
  | next m name ms state middle final known steps _ ih =>
      obtain ⟨v, speaks, rfl⟩ := steps
      obtain ⟨entries, rfl, named, means, rfl⟩ := ih
      refine ⟨⟨m, name, v⟩ :: entries, rfl, ?_, ?_, rfl⟩
      · intro e member
        rcases List.mem_cons.mp member with rfl | member
        · exact known
        · exact named e member
      · intro e member
        rcases List.mem_cons.mp member with rfl | member
        · exact speaks
        · exact means e member

theorem entries_chain (speaks : Bytes → Json → Prop) (taken : List (String × Json)) (entries : List Entry)
    (named : ∀ e ∈ entries, Named e.member.key e.name) (means : ∀ e ∈ entries, speaks e.member.text e.value) :
    Chain (Puts speaks) taken (entries.map Entry.member) (gathered taken entries) := by
  induction entries generalizing taken with
  | nil => exact .done taken
  | cons e entries ih =>
      have others := ih (insert e.name e.value taken) (fun other member => named other (List.mem_cons_of_mem e member))
        fun other member => means other (List.mem_cons_of_mem e member)
      exact .next e.member e.name _ taken _ _ (named e List.mem_cons_self) ⟨e.value,
        means e List.mem_cons_self, rfl⟩ others

section
variable {read : Bytes → Except Error (Json × Bytes)}

theorem value_member_takes (speaks : Bytes → Json → Prop) (takes : Takes read speaks) :
    TakesMember (valueMember read) (Puts speaks) := by
  intro name members s after rest stops taken
  obtain ⟨s₁, marks, taken⟩ := bind_ok _ _ _ taken
  obtain ⟨⟨v, s₂⟩, one, taken⟩ := bind_ok _ _ _ taken
  cases taken
  obtain ⟨between, blankBetween, rfl⟩ := colon_taken s s₁ marks
  obtain ⟨gap, text, blankGap, spelled, meant, rfl⟩ := takes s₁ v rest stops one
  exact ⟨between, gap, text, blankBetween, blankGap, spelled, ⟨v, meant, rfl⟩, rfl⟩

theorem value_member_reads : ReadsMember (valueMember read) (Puts (Reads read)) := by
  rintro name members text _ ⟨v, reads, rfl⟩ between gap rest blankBetween blankGap _ stops
  simp only [valueMember, colon_mark between _ blankBetween, reads gap rest blankGap stops, bind, Except.bind]
  rfl

theorem close_embedding (blanks rest : Bytes) (blank : Blanks blanks) :
    closeEmbedding (blanks ++ closeBrace :: rest) = .ok rest := by
  rw [closeEmbedding, skip_blanks blanks _ blank, skip_nothing closeBrace _ rfl]
  rfl

theorem embedding_closed (s rest : Bytes) (closes : closeEmbedding s = .ok rest) :
    ∃ blanks, Blanks blanks ∧ s = blanks ++ closeBrace :: rest := by
  rw [closeEmbedding] at closes
  split at closes
  · cases closes
  next b others skipped =>
  obtain ⟨blanks, blank, rfl, _⟩ := solid_taken s b others skipped
  split at closes
  · next same =>
    cases closes
    exact ⟨blanks, blank, by rw [same]⟩
  · split at closes <;> cases closes

theorem object_taken (inner : Bytes → Except Error Json) (speaks : Bytes → Json → Prop) (takes : Takes read speaks)
    (s rest : Bytes)
    (v : Json) (taken : readObject inner read s = .ok (v, rest)) :
    ∃ ms inside, Parts .object Member.Laid true ms inside ∧ s = inside ++ rest ∧
      ((∃ members, Chain (Puts speaks) [] ms members ∧ ¬ Marked ms ∧ v = .object members) ∨
        ∃ m content, ms = [m] ∧ Named m.key embeddingName ∧ Quoted m.text content ∧
          inner (Utf8.encode content) = .ok v) := by
  obtain ⟨next, found, goes⟩ := bind_ok _ _ _ taken
  rcases member_taken true s next found with ⟨lead, after, leads, rfl, rfl⟩ | ⟨blanks, left, blank, rfl, rfl⟩
  · obtain ⟨⟨name, s₁⟩, known, enters⟩ := bind_ok _ _ _ goes
    obtain ⟨key, named, rfl⟩ := name_taken after s₁ name known
    by_cases embeds : name = embeddingName
    · replace enters := (if_pos embeds).symm.trans enters
      subst embeds
      obtain ⟨s₂, marks, held⟩ := bind_ok _ _ _ enters
      obtain ⟨⟨content, s₃⟩, one, held⟩ := bind_ok _ _ _ held
      obtain ⟨value, embedded, held⟩ := bind_ok _ _ _ held
      obtain ⟨left, closed, held⟩ := bind_ok _ _ _ held
      cases held
      obtain ⟨between, blankBetween, rfl⟩ := colon_taken s₁ s₂ marks
      obtain ⟨blanks, blank, rfl⟩ := embedding_closed s₃ rest closed
      have stops := bracket_stops .object blanks rest blank closeBrace (Or.inr rfl)
      obtain ⟨gap, text, blankGap, spelled, quoted, rfl⟩ := string_takes "raw value" s₂ content _ stops one
      have held : inner (Utf8.encode content) = .ok v := by
        cases inside : inner (Utf8.encode content) with
        | error fault =>
            rw [inside] at embedded
            cases embedded
        | ok w =>
            rw [inside] at embedded
            exact embedded
      refine ⟨[⟨key, text⟩],
        lead ++ (quote :: (key ++ quote :: (between ++ colon :: (gap ++ text))) ++ (blanks ++ [closeBrace])), ?_,
        by simp, Or.inr ⟨⟨key, text⟩, content, rfl, named, quoted, held⟩⟩
      exact .next true _ [] lead _ _ leads ⟨named_content key _ named, spelled, between, gap, blankBetween,
        blankGap, rfl⟩
        (.close false blanks blank)
    · replace enters := (if_neg embeds).symm.trans enters
      obtain ⟨⟨middle, s₂⟩, one, others⟩ := bind_ok _ _ _ enters
      obtain ⟨⟨members, s₃⟩, more, others⟩ := bind_ok _ _ _ others
      cases others
      obtain ⟨ms, inside, layout, chain, rfl⟩ :=
        members_taken (value_member_takes speaks takes) _ false middle members s₂ rest more
      obtain ⟨between, gap, text, blankBetween, blankGap, spelled, puts, rfl⟩ :=
        value_member_takes speaks takes name [] s₁ middle _ (parts_stops ms inside rest layout) one
      refine ⟨⟨key, text⟩ :: ms, lead ++ (quote :: (key ++ quote :: (between ++ colon :: (gap ++ text))) ++ inside), ?_,
        by simp,
        Or.inl ⟨members, .next _ name ms [] middle members named puts chain, ?_, rfl⟩⟩
      · exact .next true _ ms lead _ _ leads ⟨named_content key name named, spelled, between, gap, blankBetween,
          blankGap, rfl⟩ layout
      · rintro ⟨m, first, marks⟩
        cases first
        exact embeds (named_unique key name embeddingName named marks)
  · cases goes
    refine ⟨[], blanks ++ [closeBrace], .close true blanks blank, by simp, Or.inl ⟨[], .done [], ?_, rfl⟩⟩
    rintro ⟨m, first, _⟩
    cases first

theorem object_reads (inner : Bytes → Except Error Json) (ms : List Member) (members : List (String × Json))
    (inside rest : Bytes)
    (layout : Parts .object Member.Laid true ms inside) (chain : Chain (Puts (Reads read)) [] ms members)
    (unmarked : ¬ Marked ms) :
    readObject inner read (inside ++ rest) = .ok (.object members, rest) := by
  cases chain with
  | done =>
      cases layout with
      | close _ blanks blank =>
          rw [List.append_assoc]
          change Except.bind (nextMember true (blanks ++ closeBrace :: rest)) _ = _
          rw [member_close true blanks rest blank]
          rfl
  | next m name ms _ middle _ named puts others =>
      cases layout with
      | next _ _ _ lead s inside leads part more =>
          obtain ⟨content, spelled, between, gap, blankBetween, blankGap, rfl⟩ := part
          have unembedded : name ≠ embeddingName := by
            rintro rfl
            exact unmarked ⟨m, rfl, named⟩
          have room : ms.length < (inside ++ rest).length + 1 := by
            have few := parts_length member_sharp false ms inside more
            rw [List.length_append]
            omega
          have one := value_member_reads name [] m.text middle puts between gap
            (inside ++ rest) blankBetween blankGap spelled
            (parts_stops ms inside rest more)
          have goesOn := members_read value_member_reads _ false middle members ms inside rest room more others
          have known := named_read m.key (between ++ colon :: (gap ++ (m.text ++ (inside ++ rest)))) name named
          simp only [List.append_assoc, List.cons_append]
          exact read_named inner read _ _ _ _ rest name middle members
            (member_next true lead _ leads) known unembedded one goesOn

theorem embedding_reads (inner : Bytes → Except Error Json) (m : Member) (content : String) (v : Json)
    (inside rest : Bytes)
    (layout : Parts .object Member.Laid true [m] inside) (named : Named m.key embeddingName)
    (quoted : Quoted m.text content)
    (held : inner (Utf8.encode content) = .ok v) : readObject inner read (inside ++ rest) = .ok (v, rest) := by
  cases layout with
  | next _ _ _ lead s inside leads part more =>
      cases more with
      | close _ blanks blank =>
          obtain ⟨_, spelled, between, gap, blankBetween, blankGap, rfl⟩ := part
          have stops := bracket_stops .object blanks rest blank closeBrace (Or.inr rfl)
          generalize embeds : embeddingName = name at named
          have known :=
            named_read m.key (between ++ colon :: (gap ++ (m.text ++ (blanks ++ closeBrace :: rest)))) name named
          have one := string_reads "raw value" m.text content quoted gap _ blankGap stops
          have closes := close_embedding blanks rest blank
          have kept : Except.mapError Error.embedded (.ok v : Except Error Json) = .ok v := rfl
          simp only [List.append_assoc, List.cons_append, List.nil_append]
          change Except.bind (nextMember true _) _ = _
          rw [member_next true lead _ leads]
          change (readString
            (m.key ++ quote :: (between ++ colon :: (gap ++ (m.text ++ (blanks ++ closeBrace :: rest)))))).bind _ = _
          rw [known]
          change (if name = embeddingName then _ else _) = _
          rw [if_pos embeds.symm]
          simp only [readEmbedding, colon_mark between _ blankBetween, one, held, kept, closes, bind, Except.bind]
          rfl

end

-- What a text of its own means, blanks around it aside.
def Tells (text : Bytes) (v : Json) : Prop :=
  ∃ front inside back, Blanks front ∧ Blanks back ∧ Means depthLimit inside v ∧ text = front ++ (inside ++ back)

section
variable (inner : Bytes → Except Error Json) (depth : Nat) (takes : Takes (readValueWith inner depth) (Means depth))
include takes

theorem list_taken (s rest : Bytes) (v : Json)
    (taken : (readItems (readValueWith inner depth) (s.length + 1) true s).map
    (fun read => (Json.array read.1, read.2)) = .ok (v, rest)) :
    ∃ inside, Spelled .value (openBracket :: inside) ∧ Means (depth + 1) (openBracket :: inside) v ∧
      s = inside ++ rest := by
  obtain ⟨⟨items, left⟩, read, same⟩ := map_ok _ _ _ taken
  cases same
  obtain ⟨parts, inside, layout, means, rfl, rfl⟩ := items_taken (Means depth) takes _ true s left items read
  exact ⟨inside, parts_spelled alone_sharp _ inside layout, .list depth parts inside layout means, rfl⟩

theorem brace_taken (tells : ∀ text v, inner text = .ok v → Tells text v) (s rest : Bytes) (v : Json)
    (taken : readObject inner (readValueWith inner depth) s = .ok (v, rest)) :
    ∃ inside, Spelled .value (openBrace :: inside) ∧ Means (depth + 1) (openBrace :: inside) v ∧
      s = inside ++ rest := by
  obtain ⟨ms, inside, layout, written, held⟩ := object_taken inner (Means depth) takes s rest v taken
  refine ⟨inside, parts_spelled member_sharp ms inside layout, ?_, written⟩
  rcases held with ⟨members, chain, unmarked, rfl⟩ | ⟨m, content, rfl, named, quoted, held⟩
  · obtain ⟨entries, rfl, named, means, rfl⟩ := chain_entries (Means depth) [] members ms chain
    exact .object depth entries inside layout named unmarked means
  · obtain ⟨front, text, back, blankFront, blankBack, means, held⟩ := tells _ v held
    exact .embedding depth m inside content front text back v layout named quoted blankFront blankBack held means

end

theorem value_layer (inner : Bytes → Except Error Json) (tells : ∀ text v, inner text = .ok v →
      Tells text v) (depth : Nat)
    (below : ∀ d, depth = d + 1 → Takes (readValueWith inner d) (Means d)) :
    Takes (readValueWith inner depth) (Means depth) := by
  intro s v rest stops taken
  have words : ∀ (first : UInt8) (others after : Bytes) (value : Json), Spelled .value (first :: others) →
      Means depth (first :: others) value → (word others after).map (value, ·) = .ok (v, rest) →
      ∃ text, Spelled .value text ∧ Means depth text v ∧ first :: after = text ++ rest := by
    intro first others after value spelled means read
    obtain ⟨left, read, same⟩ := map_ok _ _ _ read
    cases same
    exact ⟨first :: others, spelled, means, congrArg (first :: ·) (word_taken others after rest read)⟩
  rw [readValueWith.eq_def] at taken
  split at taken
  · cases taken
  next b after skipped =>
  obtain ⟨blanks, blank, rfl, _⟩ := solid_taken s b after skipped
  suffices read : ∃ text, Spelled .value text ∧ Means depth text v ∧ b :: after = text ++ rest by
    obtain ⟨text, spelled, means, written⟩ := read
    exact ⟨blanks, text, blank, spelled, means, by rw [written]⟩
  by_cases isNull : b = letterN
  · rw [if_pos isNull] at taken
    subst isNull
    exact words letterN restOfNull after .null .null (.null depth) taken
  rw [if_neg isNull] at taken
  by_cases isTrue : b = letterT
  · rw [if_pos isTrue] at taken
    subst isTrue
    exact words letterT restOfTrue after _ .true_ (.true_ depth) taken
  rw [if_neg isTrue] at taken
  by_cases isFalse : b = letterF
  · rw [if_pos isFalse] at taken
    subst isFalse
    exact words letterF restOfFalse after _ .false_ (.false_ depth) taken
  rw [if_neg isFalse] at taken
  by_cases number : b = minus ∨ isDigit b = true
  · rw [if_pos number] at taken
    obtain ⟨⟨n, left⟩, read, same⟩ := map_ok _ _ _ taken
    cases same
    obtain ⟨text, numeral, counts, written⟩ := number_taken _ rest n stops read
    exact ⟨text, .numeral text numeral, .number depth text n numeral counts, written⟩
  rw [if_neg number] at taken
  by_cases quoted : b = quote
  · rw [if_pos quoted] at taken
    subst quoted
    obtain ⟨⟨content, left⟩, read, same⟩ := map_ok _ _ _ taken
    cases same
    obtain ⟨key, named, rfl⟩ := name_taken after rest content read
    exact ⟨quote :: (key ++ [quote]), .string key (named_content key content named),
      .string depth _ content ⟨key, named, rfl⟩, by simp⟩
  rw [if_neg quoted] at taken
  by_cases list : b = openBracket
  · rw [if_pos list] at taken
    subst list
    cases depth with
    | zero => cases taken
    | succ depth =>
        obtain ⟨inside, spelled, means, rfl⟩ := list_taken inner depth (below depth rfl) after rest v taken
        exact ⟨openBracket :: inside, spelled, means, rfl⟩
  rw [if_neg list] at taken
  by_cases object : b = openBrace
  · rw [if_pos object] at taken
    subst object
    cases depth with
    | zero => cases taken
    | succ depth =>
        obtain ⟨inside, spelled, means, rfl⟩ := brace_taken inner depth (below depth rfl) tells after rest v taken
        exact ⟨openBrace :: inside, spelled, means, rfl⟩
  · rw [if_neg object] at taken
    cases taken

theorem layer_takes (inner : Bytes → Except Error Json) (tells : ∀ text v, inner text = .ok v → Tells text v)
    (depth : Nat) :
    Takes (readValueWith inner depth) (Means depth) := by
  induction depth with
  | zero => exact value_layer inner tells 0 fun d same => nomatch same
  | succ depth ih =>
      refine value_layer inner tells (depth + 1) ?_
      intro d same
      cases same
      exact ih

theorem layers_tell (layers : Nat) (text : Bytes) (v : Json) (read : parseLayers layers text = .ok v) :
    Tells text v := by
  induction layers generalizing text v with
  | zero => cases read
  | succ layers ih =>
      obtain ⟨⟨value, back⟩, one, read⟩ := bind_ok _ _ _ read
      obtain ⟨_, finished, read⟩ := bind_ok _ _ _ read
      cases read
      have blankBack := finish_taken back finished
      obtain ⟨front, inside, blankFront, _, means, written⟩ :=
        layer_takes _ ih depthLimit text v back (blanks_stop back blankBack) one
      exact ⟨front, inside, back, blankFront, blankBack, means, written⟩

theorem value_takes (depth : Nat) : Takes (readValue depth) (Means depth) :=
  fun s v rest stops read => layer_takes _ (layers_tell s.length) depth s v rest stops read

section
variable (inner : Bytes → Except Error Json) (depth : Nat)

theorem value_blanks (blanks s : Bytes) (blank : Blanks blanks) :
    readValueWith inner depth (blanks ++ s) = readValueWith inner depth s := by
  rw [readValueWith.eq_def, skip_blanks blanks s blank, ← readValueWith.eq_def]

theorem number_reads (text : Bytes) (n : Number) (numeral : IsNumeral text) (counts : Counts text n) :
    Reads (readValueWith inner depth) text (.number n) := by
  intro blanks rest blank stops
  have read := counts rest stops
  obtain ⟨b, others, rfl, first, solid⟩ := numeral_head text numeral
  have other := fun letter => head_other b letter first
  rw [value_blanks inner depth blanks _ blank]
  rw [List.cons_append] at read ⊢
  rw [readValueWith.eq_def, skip_nothing b _ solid]
  simp only [if_neg (other letterN (by decide)), if_neg (other letterT (by decide)), if_neg (other letterF (by decide)),
    if_pos first, read]
  rfl

theorem quoted_reads (text : Bytes) (content : String) (quoted : Quoted text content) :
    Reads (readValueWith inner depth) text (.string content) := by
  intro blanks rest blank _
  obtain ⟨key, named, rfl⟩ := quoted
  have known := named_read key rest content named
  rw [value_blanks inner depth blanks _ blank]
  simp only [List.cons_append, List.append_assoc, List.nil_append]
  rw [readValueWith.eq_def]
  change (readString (key ++ quote :: rest)).map _ = _
  rw [known]
  rfl

theorem list_reads (parts : List (Bytes × Json)) (inside : Bytes)
    (layout : Parts .list Alone true (parts.map Prod.fst) inside)
    (reads : ∀ p ∈ parts, Reads (readValueWith inner depth) p.1 p.2) :
    Reads (readValueWith inner (depth + 1)) (openBracket :: inside) (.array (parts.map Prod.snd)) := by
  intro blanks rest blank _
  have few := parts_length alone_sharp true _ inside layout
  have room : parts.length < (inside ++ rest).length + 1 := by
    rw [List.length_map] at few
    rw [List.length_append]
    omega
  rw [value_blanks inner _ blanks _ blank, List.cons_append, readValueWith.eq_def]
  change (readItems (readValueWith inner depth) ((inside ++ rest).length + 1) true (inside ++ rest)).map _ = _
  rw [items_read _ true parts inside rest room layout reads]
  rfl

theorem brace_reads (inside : Bytes) (v : Json)
    (reads : ∀ rest, readObject inner (readValueWith inner depth) (inside ++ rest) = .ok (v, rest)) :
    Reads (readValueWith inner (depth + 1)) (openBrace :: inside) v := by
  intro blanks rest blank _
  rw [value_blanks inner _ blanks _ blank, List.cons_append, readValueWith.eq_def]
  exact reads rest

end

-- A text that an embedding holds is shorter than the embedding, so that the layers left are enough for it.
theorem means_layers (depth : Nat) (text : Bytes) (v : Json) (means : Means depth text v) (layers : Nat)
    (enough : text.length ≤ layers) :
    Reads (readValueWith (parseLayers layers) depth) text v := by
  induction means generalizing layers with
  | null depth | true_ depth | false_ depth =>
      intro blanks rest blank _
      rw [value_blanks _ depth blanks _ blank]
      cases depth <;> rfl
  | number depth text n numeral counts => exact number_reads _ depth text n numeral counts
  | string depth text content quoted => exact quoted_reads _ depth text content quoted
  | list depth parts inside layout _ ih =>
      refine list_reads _ depth parts inside layout ?_
      intro p member
      obtain ⟨t, ⟨rfl, _⟩, within⟩ := parts_within true _ inside layout p.1 (List.mem_map_of_mem member)
      exact ih p member layers (Nat.le_trans within.length_le (Nat.le_trans (Nat.le_succ _) enough))
  | object depth entries inside layout named unmarked _ ih =>
      refine brace_reads _ depth inside _ ?_
      intro rest
      refine object_reads _ _ _ inside rest layout (entries_chain _ [] entries named ?_) unmarked
      intro e member
      obtain ⟨t, laid, within⟩ := parts_within true _ inside layout e.member (List.mem_map_of_mem member)
      have short := ((member_within e.member t laid).2.trans within).length_le
      exact ih e member layers (Nat.le_trans short (Nat.le_trans (Nat.le_succ _) enough))
  | embedding depth m inside content front text back v layout named quoted blankFront blankBack held _ ih =>
      refine brace_reads _ depth inside v ?_
      intro rest
      obtain ⟨t, laid, within⟩ := parts_within true _ inside layout m List.mem_cons_self
      have short := ((member_within m t laid).2.trans within).length_le
      have fits : text.length < layers := by
        obtain ⟨key, speaks, written⟩ := quoted
        have brief := named_length key content speaks
        rw [held] at brief
        rw [written] at short
        simp only [List.length_append, List.length_cons] at brief short enough
        omega
      obtain ⟨layers, rfl⟩ := Nat.exists_eq_succ_of_ne_zero (Nat.ne_of_gt (Nat.lt_of_le_of_lt (Nat.zero_le _) fits))
      have read := ih layers (Nat.le_of_lt_succ fits) front back blankFront (blanks_stop back blankBack)
      refine embedding_reads _ m content v inside rest layout named quoted ?_
      rw [held, parseLayers, parseWith]
      simp only [read, finish_blanks back blankBack, bind, Except.bind]
      rfl

theorem means_reads (depth : Nat) (text : Bytes) (v : Json) (means : Means depth text v) :
    Reads (readValue depth) text v := by
  intro blanks rest blank stops
  refine means_layers depth text v means _ ?_ blanks rest blank stops
  simp only [List.length_append]
  omega

@[simp]
theorem value_regular (depth : Nat) : Regular (readValue depth) := by
  intro s v rest stops read
  obtain ⟨blanks, text, blank, spelled, means, written⟩ := value_takes depth s v rest stops read
  exact ⟨blanks, text, blank, spelled, means_reads depth text v means, written⟩

end DevTools.Json
