import DevTools.Proofs.Json.Layout
import DevTools.Json.Record

set_option autoImplicit false

namespace DevTools.Json

open Ascii

section
variable {α : Type} (read : Bytes → Except Error (α × Bytes))

-- What a reader makes of a text wherever the text is met.
def Reads (text : Bytes) (x : α) : Prop :=
  ∀ blanks rest, Blanks blanks → Stops rest → read (blanks ++ (text ++ rest)) = .ok (x, rest)

-- Whatever is read stands for the value at the front.
def Takes (speaks : Bytes → α → Prop) : Prop := ∀ s x rest, Stops rest → read s = .ok (x, rest) →
  ∃ blanks text, Blanks blanks ∧ Spelled .value text ∧ speaks text x ∧ s = blanks ++ (text ++ rest)

def Regular : Prop := Takes read (Reads read)

end

section
variable {α : Type} {read : Bytes → Except Error (α × Bytes)}

theorem reads_unique (text : Bytes) (x y : α) (one : Reads read text x) (other : Reads read text y) : x = y := by
  have first := one [] [] blanks_nil stops_nil
  rw [other [] [] blanks_nil stops_nil] at first
  cases first
  rfl

theorem reads_shift (blanks text : Bytes) (x : α) (blank : Blanks blanks) (reads : Reads read text x) :
    Reads read (blanks ++ text) x := by
  intro gap rest blankGap stops
  rw [List.append_assoc, ← List.append_assoc]
  exact reads (gap ++ blanks) rest (blanks_append gap blanks blankGap blank) stops

theorem takes_shift (speaks : Bytes → α → Prop) (takes : Takes read speaks) (text rest : Bytes) (x : α)
    (stops : Stops rest)
    (taken : read (text ++ rest) = .ok (x, rest)) :
    ∃ blanks other, Blanks blanks ∧ text = blanks ++ other ∧ Spelled .value other ∧ speaks other x := by
  obtain ⟨blanks, other, blank, spelled, said, same⟩ := takes _ x rest stops taken
  rw [← List.append_assoc] at same
  exact ⟨blanks, other, blank, List.append_cancel_right same, spelled, said⟩

theorem regular_reads (regular : Regular read) (text rest : Bytes) (x : α) (stops : Stops rest)
    (taken : read (text ++ rest) = .ok (x, rest)) : Reads read text x := by
  obtain ⟨blanks, other, blank, rfl, _, reads⟩ := takes_shift _ regular text rest x stops taken
  exact reads_shift blanks other x blank reads

theorem reads_speaks (speaks : Bytes → α → Prop) (takes : Takes read speaks) (text : Bytes) (x : α)
    (spelled : Spelled .value text)
    (reads : Reads read text x) : speaks text x := by
  obtain ⟨blanks, other, blank, same, another, said⟩ :=
    takes_shift speaks takes text [] x stops_nil (reads [] [] blanks_nil stops_nil)
  have begins := opens_unique [] blanks text other blanks_nil blank (spelled_opens _ text spelled)
    (spelled_opens _ other another) same
  exact begins ▸ said

end

theorem lead_blanks (first : Bool) (lead blanks : Bytes) (leads : Lead first lead) (blank : Blanks blanks) :
    Lead first (lead ++ blanks) := by
  cases leads with
  | first _ gap => exact .first _ (blanks_append lead blanks gap blank)
  | later before after blankBefore blankAfter =>
      rw [List.append_assoc, List.cons_append]
      exact .later before _ blankBefore (blanks_append after blanks blankAfter blank)

theorem item_next (first : Bool) (lead s : Bytes) (leads : Lead first lead) (opens : Opens s) :
    nextItem first (lead ++ s) = .ok (some s) := by
  obtain ⟨b, others, rfl, solid, open_, _⟩ := opens
  cases leads with
  | first _ blank =>
      rw [nextItem, skip_blanks lead _ blank, skip_nothing b others solid]
      simp only [if_neg open_, if_true]
  | later before after blankBefore blankAfter =>
      rw [List.append_assoc, nextItem, skip_blanks before _ blankBefore, List.cons_append, skip_nothing comma _ rfl]
      simp only [show ¬ comma = closeBracket by decide, if_false, if_true, Bool.false_eq_true,
        skip_blanks after _ blankAfter,
        skip_nothing b others solid, if_neg open_]

theorem item_close (first : Bool) (blanks rest : Bytes) (blank : Blanks blanks) :
    nextItem first (blanks ++ closeBracket :: rest) = .ok none ∧ closeList (blanks ++ closeBracket :: rest) =
      .ok rest := by
  rw [nextItem, closeList, skip_blanks blanks _ blank, skip_nothing closeBracket _ rfl]
  exact ⟨rfl, rfl⟩

theorem item_taken (first : Bool) (s : Bytes) (next : Option Bytes) (taken : nextItem first s = .ok next) :
    (∃ lead after, Lead first lead ∧ s = lead ++ after ∧ next = some after) ∨
      ∃ blanks rest, Blanks blanks ∧ s = blanks ++ closeBracket :: rest ∧ next = none := by
  rw [nextItem] at taken
  split at taken
  · cases taken
  next b others skipped =>
  obtain ⟨blanks, blank, rfl, _⟩ := solid_taken s b others skipped
  split at taken
  · next closes =>
    cases taken
    exact Or.inr ⟨blanks, others, blank, by rw [closes], rfl⟩
  split at taken
  · next isFirst =>
    cases taken
    subst isFirst
    exact Or.inl ⟨blanks, b :: others, .first blanks blank, rfl, rfl⟩
  · next later =>
    have notFirst : first = false := by simpa using later
    subst notFirst
    split at taken
    · next goesOn =>
      subst goesOn
      split at taken
      · cases taken
      next d after skippedAfter =>
      obtain ⟨gap, blankGap, rfl, _⟩ := solid_taken others d after skippedAfter
      split at taken
      · cases taken
      · cases taken
        exact Or.inl ⟨blanks ++ comma :: gap, d :: after, .later blanks gap blank blankGap, by simp, rfl⟩
    · cases taken

section
variable {α : Type} {read : Bytes → Except Error (α × Bytes)}

theorem items_taken (speaks : Bytes → α → Prop) (takes : Takes read speaks) (fuel : Nat) (first : Bool)
    (s rest : Bytes) (xs : List α)
    (taken : readItems read fuel first s = .ok (xs, rest)) : ∃ (parts : List (Bytes × α)) (inside : Bytes),
      Parts .list Alone first (parts.map Prod.fst) inside ∧ (∀ p ∈ parts, speaks p.1 p.2) ∧ xs = parts.map Prod.snd ∧
        s = inside ++ rest := by
  induction fuel generalizing first s xs with
  | zero => cases taken
  | succ fuel ih =>
      obtain ⟨next, found, taken⟩ := bind_ok _ _ _ taken
      rcases item_taken first s next found with ⟨lead, after, leads, rfl, rfl⟩ | ⟨blanks, left, blank, rfl, rfl⟩
      · obtain ⟨⟨x, s₁⟩, one, taken⟩ := bind_ok _ _ _ taken
        obtain ⟨⟨more, s₂⟩, others, taken⟩ := bind_ok _ _ _ taken
        cases taken
        obtain ⟨parts, inside, layout, means, rfl, rfl⟩ := ih false s₁ more others
        obtain ⟨blanks, text, blank, spelled, meant, rfl⟩ := takes after x _ (parts_stops _ inside rest layout) one
        refine ⟨(text, x) :: parts, lead ++ blanks ++ (text ++ inside), ?_, ?_, rfl, by simp⟩
        · exact .next first text _ _ text inside (lead_blanks first lead blanks leads blank) ⟨rfl, spelled⟩ layout
        · intro p member
          rcases List.mem_cons.mp member with rfl | member
          · exact meant
          · exact means p member
      · obtain ⟨after, closed, taken⟩ := bind_ok _ _ _ taken
        rw [(item_close first blanks left blank).2] at closed
        cases closed
        cases taken
        exact ⟨[], blanks ++ [closeBracket], .close first blanks blank,
          fun _ member => absurd member List.not_mem_nil, rfl, by simp⟩

theorem items_read (fuel : Nat) (first : Bool) (parts : List (Bytes × α)) (inside rest : Bytes)
    (room : parts.length < fuel)
    (layout : Parts .list Alone first (parts.map Prod.fst) inside) (reads : ∀ p ∈ parts, Reads read p.1 p.2) :
    readItems read fuel first (inside ++ rest) = .ok (parts.map Prod.snd, rest) := by
  induction parts generalizing fuel first inside with
  | nil =>
      cases fuel with
      | zero => cases room
      | succ fuel =>
          cases layout with
          | close _ blanks blank =>
              obtain ⟨next, closes⟩ := item_close first blanks rest blank
              rw [List.append_assoc, readItems]
              change Except.bind (nextItem first (blanks ++ closeBracket :: rest)) _ = _
              rw [next]
              change Except.bind (closeList (blanks ++ closeBracket :: rest)) _ = _
              rw [closes]
              rfl
  | cons p parts ih =>
      cases fuel with
      | zero => cases room
      | succ fuel =>
          cases layout with
          | next _ _ _ lead s inside leads part others =>
              obtain ⟨rfl, spelled⟩ := part
              have one := reads p List.mem_cons_self [] (inside ++ rest) blanks_nil (parts_stops _ inside rest others)
              rw [List.nil_append] at one
              have more := ih fuel false inside (Nat.lt_of_succ_lt_succ room) others fun q member =>
                reads q (List.mem_cons_of_mem p member)
              have next :=
                item_next first lead (p.1 ++ (inside ++ rest)) leads (opens_append _ _ (spelled_opens _ _ spelled))
              rw [List.append_assoc, List.append_assoc, readItems]
              simp only [next, one, more, bind, Except.bind]
              rfl

end

theorem member_next (first : Bool) (lead s : Bytes) (leads : Lead first lead) :
    nextMember first (lead ++ quote :: s) = .ok (.name s) := by
  cases leads with
  | first _ blank =>
      rw [nextMember, skip_blanks lead _ blank, skip_nothing quote _ rfl]
      rfl
  | later before after blankBefore blankAfter =>
      rw [List.append_assoc, nextMember, skip_blanks before _ blankBefore, List.cons_append, skip_nothing comma _ rfl]
      simp only [show ¬ comma = closeBrace by decide, if_false, if_true, Bool.false_eq_true,
        skip_blanks after _ blankAfter,
        skip_nothing quote s rfl]

theorem member_close (first : Bool) (blanks rest : Bytes) (blank : Blanks blanks) :
    nextMember first (blanks ++ closeBrace :: rest) = .ok (.close rest) := by
  rw [nextMember, skip_blanks blanks _ blank, skip_nothing closeBrace _ rfl]
  rfl

theorem member_taken (first : Bool) (s : Bytes) (next : NextMember) (taken : nextMember first s = .ok next) :
    (∃ lead after, Lead first lead ∧ s = lead ++ quote :: after ∧ next = .name after) ∨
      ∃ blanks rest, Blanks blanks ∧ s = blanks ++ closeBrace :: rest ∧ next = .close rest := by
  rw [nextMember] at taken
  split at taken
  · cases taken
  next b others skipped =>
  obtain ⟨blanks, blank, rfl, _⟩ := solid_taken s b others skipped
  split at taken
  · next closes =>
    cases taken
    exact Or.inr ⟨blanks, others, blank, by rw [closes], rfl⟩
  split at taken
  · next isFirst =>
    subst isFirst
    split at taken
    · next quoted_ =>
      cases taken
      exact Or.inl ⟨blanks, others, .first blanks blank, by rw [quoted_], rfl⟩
    · cases taken
  · next later =>
    have notFirst : first = false := by simpa using later
    subst notFirst
    split at taken
    · next goesOn =>
      subst goesOn
      split at taken
      · cases taken
      next d after skippedAfter =>
      obtain ⟨gap, blankGap, rfl, _⟩ := solid_taken others d after skippedAfter
      split at taken
      · next quoted_ =>
        cases taken
        exact Or.inl ⟨blanks ++ comma :: gap, after, .later blanks gap blank blankGap, by simp [quoted_], rfl⟩
      · split at taken <;> cases taken
    · cases taken

-- What each member in turn makes of a state.
inductive Chain {σ : Type} (step : String → σ → Bytes → σ → Prop) : σ → List Member → σ → Prop where
  | done (state : σ) : Chain step state [] state
  | next (m : Member) (name : String) (ms : List Member) (state middle final : σ) (named : Named m.key name)
      (steps : step name state m.text middle) (others : Chain step middle ms final) : Chain step state (m :: ms) final

section
variable {σ : Type} {member : String → σ → Bytes → Except Error (σ × Bytes)} {step : String → σ → Bytes → σ → Prop}

def TakesMember (member : String → σ → Bytes → Except Error (σ × Bytes))
    (step : String → σ → Bytes → σ → Prop) : Prop :=
  ∀ name state s middle rest, Stops rest → member name state s = .ok (middle, rest) → ∃ between gap text,
    Blanks between ∧ Blanks gap ∧
    Spelled .value text ∧ step name state text middle ∧ s = between ++ colon :: (gap ++ (text ++ rest))

def ReadsMember (member : String → σ → Bytes → Except Error (σ × Bytes))
    (step : String → σ → Bytes → σ → Prop) : Prop :=
  ∀ name state text middle, step name state text middle → ∀ between gap rest, Blanks between → Blanks gap →
    Spelled .value text →
    Stops rest → member name state (between ++ colon :: (gap ++ (text ++ rest))) = .ok (middle, rest)

theorem members_taken (takes : TakesMember member step) (fuel : Nat) (first : Bool) (state final : σ) (s rest : Bytes)
    (taken : foldMembers member fuel first state s = .ok (final, rest)) :
    ∃ ms inside, Parts .object Member.Laid first ms inside ∧ Chain step state ms final ∧ s = inside ++ rest := by
  induction fuel generalizing first state s with
  | zero => cases taken
  | succ fuel ih =>
      obtain ⟨next, found, taken⟩ := bind_ok _ _ _ taken
      rcases member_taken first s next found with ⟨lead, after, leads, rfl, rfl⟩ | ⟨blanks, left, blank, rfl, rfl⟩
      · obtain ⟨⟨name, s₁⟩, known, taken⟩ := bind_ok _ _ _ taken
        obtain ⟨⟨middle, s₂⟩, one, more⟩ := bind_ok _ _ _ taken
        obtain ⟨ms, inside, layout, chain, rfl⟩ := ih false middle s₂ more
        obtain ⟨key, named, rfl⟩ := name_taken after s₁ name known
        obtain ⟨between, gap, text, blankBetween, blankGap, spelled, steps, rfl⟩ :=
          takes name state s₁ middle _ (parts_stops _ inside rest layout) one
        refine ⟨⟨key, text⟩ :: ms, lead ++ (quote :: (key ++ quote :: (between ++ colon :: (gap ++ text))) ++ inside),
          ?_, ?_, by simp⟩
        · exact .next first _ ms lead _ inside leads
            ⟨named_content key name named, spelled, between, gap, blankBetween, blankGap, rfl⟩ layout
        · exact .next ⟨key, text⟩ name ms state middle final named steps chain
      · cases taken
        exact ⟨[], blanks ++ [closeBrace], .close first blanks blank, .done _, by simp⟩

theorem members_read (reads : ReadsMember member step) (fuel : Nat) (first : Bool) (state final : σ) (ms : List Member)
    (inside rest : Bytes) (room : ms.length < fuel) (layout : Parts .object Member.Laid first ms inside)
    (chain : Chain step state ms final) :
    foldMembers member fuel first state (inside ++ rest) = .ok (final, rest) := by
  induction chain generalizing fuel first inside with
  | done state =>
      cases fuel with
      | zero => cases room
      | succ fuel =>
          cases layout with
          | close _ blanks blank =>
              have closes := member_close first blanks rest blank
              rw [List.append_assoc, foldMembers]
              change Except.bind (nextMember first (blanks ++ closeBrace :: rest)) _ = _
              rw [closes]
              rfl
  | next m name ms state middle final named steps others ih =>
      cases fuel with
      | zero => cases room
      | succ fuel =>
          cases layout with
          | next _ _ _ lead s inside leads part more =>
              obtain ⟨content, spelled, between, gap, blankBetween, blankGap, rfl⟩ := part
              have next :=
                member_next first lead
                (m.key ++ quote :: (between ++ colon :: (gap ++ (m.text ++ (inside ++ rest))))) leads
              have known := named_read m.key (between ++ colon :: (gap ++ (m.text ++ (inside ++ rest)))) name named
              have one := reads name state m.text middle steps between gap
                (inside ++ rest) blankBetween blankGap spelled
                (parts_stops _ inside rest more)
              have goesOn := ih fuel false inside (Nat.lt_of_succ_lt_succ room) more
              simp only [List.append_assoc, List.cons_append]
              rw [foldMembers]
              simp only [next, known, one, goesOn, bind, Except.bind]

end

theorem expecting_taken {α : Type} (expected : String) (s : Bytes)
    (read : UInt8 → Bytes → Option (Except Error α)) (x : α)
    (taken : expecting expected s read = .ok x) :
    ∃ blanks b others, Blanks blanks ∧ isBlank b = false ∧ read b others = some (.ok x) ∧
      s = blanks ++ b :: others := by
  rw [expecting] at taken
  split at taken
  · cases taken
  next b others skipped =>
  obtain ⟨blanks, blank, rfl, solid⟩ := solid_taken s b others skipped
  cases made : read b others with
  | none =>
      rw [made] at taken
      cases taken
  | some answer =>
      rw [made] at taken
      exact ⟨blanks, b, others, blank, solid, made.trans (congrArg some taken), rfl⟩

theorem expecting_reads {α : Type} (expected : String) (blanks : Bytes) (b : UInt8) (others : Bytes)
    (read : UInt8 → Bytes → Option (Except Error α)) (answer : Except Error α) (blank : Blanks blanks)
    (solid : isBlank b = false)
    (reads : read b others = some answer) : expecting expected (blanks ++ b :: others) read = answer := by
  rw [expecting, skip_blanks blanks _ blank, skip_nothing b others solid]
  simp only [reads, Option.getD_some]

def Quoted (text : Bytes) (content : String) : Prop := ∃ key, Named key content ∧ text = quote :: (key ++ [quote])

theorem string_takes (expected : String) : Takes (readStringAs expected) Quoted := by
  intro s content rest _ taken
  obtain ⟨blanks, b, others, blank, _, made, rfl⟩ := expecting_taken expected s _ _ taken
  split at made
  · next quoted_ =>
    obtain ⟨key, named, rfl⟩ := name_taken others rest content (Option.some.inj made)
    exact ⟨blanks, quote :: (key ++ [quote]), blank, .string key (named_content key content named), ⟨key, named, rfl⟩,
      by simp [quoted_]⟩
  · cases made

theorem string_reads (expected : String) (text : Bytes) (content : String) (quoted_ : Quoted text content) :
    Reads (readStringAs expected) text content := by
  obtain ⟨key, named, rfl⟩ := quoted_
  intro blanks rest blank _
  have known := named_read key rest content named
  simp only [List.cons_append, List.append_assoc, List.nil_append]
  exact expecting_reads expected blanks quote _ _ _ blank rfl (congrArg some known)

@[simp]
theorem text_regular (depth : Nat) : Regular (readText depth) := by
  intro s content rest stops taken
  obtain ⟨blanks, text, blank, spelled, quoted_, written⟩ := string_takes "a string" s content rest stops taken
  exact ⟨blanks, text, blank, spelled, string_reads _ text content quoted_, written⟩

def Integral (kind : IntegerKind) (text : Bytes) (value : Int) : Prop :=
  IsNumeral text ∧ Counts text (.integer value) ∧ kind.least ≤ value ∧ value ≤ kind.greatest

theorem integer_takes (kind : IntegerKind) (depth : Nat) : Takes (readInteger kind depth) (Integral kind) := by
  intro s value rest stops taken
  obtain ⟨blanks, b, others, blank, _, made, rfl⟩ := expecting_taken kind.name s _ _ taken
  split at made
  · obtain ⟨⟨n, after⟩, read, made⟩ := bind_ok _ _ _ (Option.some.inj made)
    cases n with
    | double x => cases made
    | integer n =>
        dsimp only at made
        split at made
        · next within =>
          cases made
          obtain ⟨text, numeral, counts, written⟩ := number_taken _ rest _ stops read
          exact ⟨blanks, text, blank, .numeral text numeral, ⟨numeral, counts, within⟩, by rw [written]⟩
        · cases made
  · cases made

theorem integer_reads (kind : IntegerKind) (depth : Nat) (text : Bytes) (value : Int)
    (integral : Integral kind text value) :
    Reads (readInteger kind depth) text value := by
  obtain ⟨numeral, counts, within⟩ := integral
  intro blanks rest blank stops
  have read := counts rest stops
  obtain ⟨b, others, rfl, first, solid⟩ := numeral_head text numeral
  rw [List.cons_append] at read ⊢
  refine expecting_reads kind.name blanks b _ _ _ blank solid ?_
  simp only [if_pos first, read, if_pos within, bind, Except.bind, pure, Except.pure]

theorem integer_regular (kind : IntegerKind) (depth : Nat) : Regular (readInteger kind depth) := by
  intro s value rest stops taken
  obtain ⟨blanks, text, blank, spelled, integral, written⟩ := integer_takes kind depth s value rest stops taken
  exact ⟨blanks, text, blank, spelled, integer_reads kind depth text value integral, written⟩

def Payload.Is (text : Bytes) (p : Payload) : Prop := text = Utf8.encode p.text

theorem payload_takes : Takes readPayload Payload.Is := by
  intro s p rest _ taken
  obtain ⟨after, skips, taken⟩ := bind_ok _ _ _ taken
  obtain ⟨lead, blankLead, written, _⟩ := blanks_taken s
  obtain ⟨blanks, text, blank, spelled, same⟩ := value_skipped _ after skips
  obtain ⟨b, others, rfl, solid, _⟩ := spelled_opens _ text spelled
  have whole : s = lead ++ blanks ++ (b :: others ++ after) := by rw [written, same, List.append_assoc]
  have blankWhole := blanks_append lead blanks blankLead blank
  have skipped : skipBlanks s = b :: others ++ after := by
    rw [whole, skip_blanks _ _ blankWhole, List.cons_append, skip_nothing b _ solid]
  have took : (skipBlanks s).take ((skipBlanks s).length - after.length) = b :: others := by
    rw [skipped, List.length_append, Nat.add_sub_cancel, List.take_left]
  simp only [took] at taken
  split at taken
  · next content decoded =>
    cases taken
    exact ⟨lead ++ blanks, b :: others, blankWhole, spelled, (Utf8.encode_decode _ content decoded).symm, whole⟩
  · cases taken

theorem payload_reads (text : Bytes) (p : Payload) (spelled : Spelled .value text) (is : Payload.Is text p) :
    Reads readPayload text p := by
  subst is
  intro blanks rest blank stops
  have read := read_payload p rest spelled stops
  rw [readPayload] at read ⊢
  rw [skip_blanks blanks _ blank]
  exact read

theorem payload_regular : Regular readPayload := by
  intro s p rest stops taken
  obtain ⟨blanks, text, blank, spelled, is, written⟩ := payload_takes s p rest stops taken
  exact ⟨blanks, text, blank, spelled, payload_reads text p spelled is, written⟩

theorem map_reads {α β : Type} {read : Bytes → Except Error (α × Bytes)} (f : α → β) (text : Bytes) (x : α)
    (reads : Reads read text x) :
    Reads (fun s => (read s).map fun (x, rest) => (f x, rest)) text (f x) := by
  intro blanks rest blank stops
  dsimp only
  rw [reads blanks rest blank stops]
  rfl

theorem map_regular {α β : Type} {read : Bytes → Except Error (α × Bytes)} (f : α → β) (regular : Regular read) :
    Regular fun s => (read s).map fun (x, rest) => (f x, rest) := by
  intro s y rest stops taken
  obtain ⟨⟨x, after⟩, read, same⟩ := map_ok _ _ _ taken
  cases same
  obtain ⟨blanks, text, blank, spelled, reads, written⟩ := regular s x rest stops read
  exact ⟨blanks, text, blank, spelled, map_reads f text x reads, written⟩

def nullText : Bytes := letterN :: restOfNull

section
variable {α : Type} {read : Nat → Bytes → Except Error (α × Bytes)} {depth : Nat}

def Optionally (speaks : Bytes → α → Prop) (text : Bytes) (value : Option α) : Prop :=
  match value with
  | none => text = nullText
  | some x => text ≠ nullText ∧ speaks text x

theorem optional_takes (speaks : Bytes → α → Prop) (takes : Takes (read depth) speaks) :
    Takes (readOptional read depth) (Optionally speaks) := by
  intro s value rest stops taken
  rw [readOptional.eq_def] at taken
  split at taken
  · next b others skipped =>
    obtain ⟨blanks, blank, rfl, solid⟩ := solid_taken s b others skipped
    split at taken
    · next null =>
      obtain ⟨after, word, same⟩ := map_ok _ _ _ taken
      cases same
      have written := word_taken _ _ _ word
      exact ⟨blanks, nullText, blank, .null, rfl, by rw [null, written]; rfl⟩
    · next present =>
      obtain ⟨⟨x, after⟩, one, same⟩ := map_ok _ _ _ taken
      cases same
      obtain ⟨gap, text, blankGap, spelled, meant, written⟩ := takes _ x rest stops one
      obtain ⟨d, more, rfl, firm, _⟩ := spelled_opens _ text spelled
      obtain ⟨rfl, rfl⟩ := solid_unique [] gap others (more ++ rest) b d blanks_nil blankGap solid firm written
      refine ⟨blanks, b :: more, blank, spelled, ⟨?_, meant⟩, rfl⟩
      intro null
      exact present (List.cons.inj null).1
  · obtain ⟨⟨x, after⟩, one, same⟩ := map_ok _ _ _ taken
    cases same
    obtain ⟨gap, text, _, spelled, _, written⟩ := takes [] x rest stops one
    obtain ⟨d, more, rfl, _⟩ := spelled_opens _ text spelled
    simp at written

theorem null_reads : Reads (readOptional read depth) nullText none := by
  intro blanks rest blank _
  rw [readOptional, skip_blanks blanks _ blank, nullText, List.cons_append, skip_nothing letterN _ rfl]
  rfl

theorem some_reads (text : Bytes) (x : α) (spelled : Spelled .value text) (present : text ≠ nullText)
    (reads : Reads (read depth) text x) :
    Reads (readOptional read depth) text (some x) := by
  intro blanks rest blank stops
  have one := reads [] rest blanks_nil stops
  obtain ⟨b, others, rfl, solid, _⟩ := spelled_opens _ text spelled
  have other : b ≠ letterN := by
    rintro rfl
    exact present (by rw [spelled_null others spelled]; rfl)
  rw [List.nil_append, List.cons_append] at one
  rw [readOptional, skip_blanks blanks _ blank, List.cons_append, skip_nothing b _ solid]
  simp only [if_neg other, one]
  rfl

@[simp]
theorem optional_regular (regular : Regular (read depth)) : Regular (readOptional read depth) := by
  intro s value rest stops taken
  obtain ⟨blanks, text, blank, spelled, meant, written⟩ := optional_takes _ regular s value rest stops taken
  refine ⟨blanks, text, blank, spelled, ?_, written⟩
  cases value with
  | none =>
      cases meant
      exact null_reads
  | some x => exact some_reads text x spelled meant.1 meant.2

theorem optional_some (regular : Regular (read depth)) (text : Bytes) (x : α)
    (reads : Reads (readOptional read depth) text (some x)) :
    Reads (read depth) text x := by
  obtain ⟨blanks, other, blank, rfl, _, _, one⟩ :=
    takes_shift _ (optional_takes _ regular) text [] (some x) stops_nil (reads [] [] blanks_nil stops_nil)
  exact reads_shift blanks other x blank one

end

end DevTools.Json
