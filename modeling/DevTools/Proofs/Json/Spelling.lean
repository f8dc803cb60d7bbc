import DevTools.Proofs.Json.Double
import DevTools.Proofs.Json.Value

set_option autoImplicit false

namespace DevTools.Json

open Ascii

theorem content_plain (bytes s : Bytes) (plain : ∀ b ∈ bytes, isPlain b = true) (more : Content s) :
    Content (bytes ++ s) := by
  induction bytes with
  | nil => exact more
  | cons b bytes ih =>
      exact .plain b _ (plain b List.mem_cons_self) (ih fun other member => plain other (List.mem_cons_of_mem b member))

theorem content_control (n : Nat) (control : n < 0x20) (s : Bytes) (more : Content s) :
    Content ((controlEscape n).flatMap String.utf8EncodeChar ++ s) := by
  have high := (hex_digit (n / 16) (by omega)).1
  have low := (hex_digit (n % 16) (by omega)).1
  rw [control_bytes n control]
  refine .numbered zero zero _ _ s ?_ more
  intro h member
  simp only [List.mem_cons, List.not_mem_nil, or_false] at member
  rcases member with rfl | rfl | rfl | rfl
  · rfl
  · rfl
  · rw [high]
    rfl
  · rw [low]
    rfl

theorem content_escape (c : Char) (s : Bytes) (more : Content s) :
    Content ((escape c).flatMap String.utf8EncodeChar ++ s) := by
  rw [escape]
  split
  · exact .short quote s (by decide) more
  split
  · exact .short backslash s (by decide) more
  split
  · exact .short letterB s (by decide) more
  split
  · exact .short letterF s (by decide) more
  split
  · exact .short letterN s (by decide) more
  split
  · exact .short letterR s (by decide) more
  split
  · exact .short letterT s (by decide) more
  split
  · next control => exact content_control c.toNat control s more
  · next unquoted straight _ _ _ _ _ printable =>
      rw [List.flatMap_singleton]
      exact content_plain _ s (plain_char c (by omega) unquoted straight) more

theorem quoted_content (content : String) : ∃ inside, Utf8.encode (quoted content) = quote :: (inside ++ [quote]) ∧
    Content inside := by
  refine ⟨(content.toList.flatMap escape).flatMap String.utf8EncodeChar, ?_, ?_⟩
  · simp [quoted, Utf8.encode_list]
    rfl
  · induction content.toList with
    | nil => exact .nil
    | cons c cs ih =>
        rw [List.flatMap_cons, List.flatMap_append]
        exact content_escape c _ ih

theorem quoted_spelled (content : String) : Spelled .value (Utf8.encode (quoted content)) := by
  obtain ⟨inside, written, spelled⟩ := quoted_content content
  rw [written]
  exact .string inside spelled

theorem listed_spelled (bracket : Bracket) (part : Bytes) (parts : List Bytes)
    (each : ∀ p ∈ part :: parts, Spelled (.item bracket) p) :
    Spelled (.items bracket) (listed (part :: parts)) := by
  induction parts generalizing part with
  | nil =>
      rw [listed, afterCommas, List.flatMap_nil, List.append_nil]
      exact .last bracket part (each part List.mem_cons_self)
  | cons next parts ih =>
      have others := ih next fun p member => each p (List.mem_cons_of_mem part member)
      exact .more bracket part [] _ (each part List.mem_cons_self) blanks_nil others

theorem bracketed_spelled (bracket : Bracket) (parts : List Bytes) (each : ∀ p ∈ parts, Spelled (.item bracket) p) :
    Spelled .value (bracket.opening :: (listed parts ++ [bracket.closing])) := by
  cases parts with
  | nil => exact .empty bracket [] blanks_nil
  | cons part parts => exact .full bracket [] _ blanks_nil (listed_spelled bracket part parts each)

theorem list_spelled (items : List String) (each : ∀ item ∈ items, Spelled .value (Utf8.encode item)) :
    Spelled .value (Utf8.encode (renderList items)) := by
  rw [encode_items]
  refine bracketed_spelled .list _ ?_
  intro p member
  obtain ⟨item, inside, rfl⟩ := List.mem_map.mp member
  have spelled := Spelled.element _ [] (each item inside) blanks_nil
  rwa [List.append_nil] at spelled

theorem object_spelled (members : List (String × String))
    (each : ∀ member ∈ members, Spelled .value (Utf8.encode member.2)) :
    Spelled .value (Utf8.encode (renderObject members)) := by
  rw [encode_members]
  refine bracketed_spelled .object _ ?_
  intro p member
  obtain ⟨⟨name, text⟩, inside, rfl⟩ := List.mem_map.mp member
  obtain ⟨content, written, spelled⟩ := quoted_content name
  have whole := Spelled.member content [] [] _ [] spelled blanks_nil blanks_nil (each _ inside) blanks_nil
  have same : memberBytes (name, text) =
      quote :: (content ++ quote :: ([] ++ colon :: ([] ++ Utf8.encode text ++ []))) := by
    simp [memberBytes, written]
  rwa [same]

theorem number_spelled (n : Number) : Spelled .value (Utf8.encode (Number.render n)) := by
  cases n with
  | integer value => exact .numeral _ (integer_spelled value)
  | double value => exact .numeral _ (Double.render_spelled layout value)

mutual

theorem value_spelled : (v : Json) → Spelled .value (Utf8.encode v.render)
  | .null => .null
  | .boolean true => .true_
  | .boolean false => .false_
  | .number value => number_spelled value
  | .string content => quoted_spelled content
  | .array items => list_spelled _ (items_spelled items)
  | .object members => object_spelled _ (members_spelled members)

theorem items_spelled : (items : List Json) → ∀ item ∈ renderItems items, Spelled .value (Utf8.encode item)
  | [], _, member => absurd member List.not_mem_nil
  | item :: items, text, member => by
      rcases List.mem_cons.mp member with rfl | member
      · exact value_spelled item
      · exact items_spelled items text member

theorem members_spelled : (members : List (String × Json)) → ∀ member ∈ renderMembers members,
    Spelled .value (Utf8.encode member.2)
  | [], _, member => absurd member List.not_mem_nil
  | (name, value) :: members, text, member => by
      rcases List.mem_cons.mp member with rfl | member
      · exact value_spelled value
      · exact members_spelled members text member

end

theorem blanks_whole (s : Bytes) (blank : Blanks s) : nul ∉ s := fun member => Bool.noConfusion (blank nul member)

theorem digits_whole (s : Bytes) (digits : ∀ b ∈ s, isDigit b = true) :
    nul ∉ s := fun member => Bool.noConfusion (digits nul member)

theorem content_whole (s : Bytes) (content : Content s) : nul ∉ s := by
  induction content with
  | nil => exact List.not_mem_nil
  | plain b s itself _ ih =>
      refine List.not_mem_cons_of_ne_of_not_mem ?_ ih
      rintro rfl
      cases itself
  | short e s escape _ ih =>
      refine List.not_mem_cons_of_ne_of_not_mem (by decide) (List.not_mem_cons_of_ne_of_not_mem ?_ ih)
      rintro rfl
      exact absurd escape (by decide)
  | numbered h₁ h₂ h₃ h₄ s digits _ ih =>
      have hexless : nul ∉ [h₁, h₂, h₃, h₄] := fun member => Bool.noConfusion (digits nul member)
      simp only [List.mem_cons, not_or] at hexless ⊢
      exact ⟨by decide, by decide, hexless.1, hexless.2.1, hexless.2.2.1, hexless.2.2.2.1, ih⟩

theorem unsigned_whole (s : Bytes) (unsigned : Unsigned s) : nul ∉ s := by
  obtain ⟨whole, fraction, exponent, isWhole, isFraction, isExponent, rfl⟩ := unsigned
  simp only [List.mem_append, not_or]
  refine ⟨⟨?_, ?_⟩, ?_⟩
  · cases isWhole with
    | zero => decide
    | more d ds _ digits => exact digits_whole _ digits
  · cases isFraction with
    | absent => exact List.not_mem_nil
    | present ds digits => exact List.not_mem_cons_of_ne_of_not_mem (by decide) (digits_whole ds digits.2)
  · cases isExponent with
    | absent => exact List.not_mem_nil
    | present mark sign ds marks signs digits =>
        refine List.not_mem_cons_of_ne_of_not_mem ?_ ?_
        · rcases marks with rfl | rfl <;> decide
        · rw [List.mem_append, not_or]
          refine ⟨?_, digits_whole ds digits.2⟩
          rcases signs with rfl | rfl | rfl <;> decide

theorem numeral_whole (s : Bytes) (numeral : IsNumeral s) : nul ∉ s := by
  rcases numeral with unsigned | ⟨rest, unsigned, rfl⟩
  · exact unsigned_whole s unsigned
  · exact List.not_mem_cons_of_ne_of_not_mem (by decide) (unsigned_whole rest unsigned)

theorem bracket_whole (bracket : Bracket) : nul ≠ bracket.opening ∧ nul ≠ bracket.closing := by
  cases bracket <;> decide

theorem spelled_whole (part : Part) (s : Bytes) (spelled : Spelled part s) : nul ∉ s := by
  have signs : nul ≠ quote ∧ nul ≠ colon ∧ nul ≠ comma := by decide
  induction spelled with
  | null | true_ | false_ => decide
  | numeral s numeral => exact numeral_whole s numeral
  | string s content =>
      have inside := content_whole s content
      simp_all
  | empty bracket blanks blank =>
      have gap := blanks_whole blanks blank
      have ends := bracket_whole bracket
      simp_all
  | full bracket blanks s blank _ ih =>
      have gap := blanks_whole blanks blank
      have ends := bracket_whole bracket
      simp_all
  | element s blanks _ blank ih =>
      have gap := blanks_whole blanks blank
      simp_all
  | member name between gap s blanks content blankBetween blankGap _ blank ih =>
      have inside := content_whole name content
      have first := blanks_whole between blankBetween
      have second := blanks_whole gap blankGap
      have last := blanks_whole blanks blank
      simp_all
  | last _ _ _ ih => exact ih
  | more bracket s blanks rest _ blank _ ih₁ ih₂ =>
      have gap := blanks_whole blanks blank
      simp_all

end DevTools.Json
