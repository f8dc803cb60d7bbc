import DevTools.Proofs.Json.Numeral
import DevTools.Proofs.Json.Text

set_option autoImplicit false

namespace DevTools

namespace Json

open Ascii

def Blanks (s : Bytes) : Prop := ∀ b ∈ s, isBlank b = true

inductive Content : Bytes → Prop where
  | nil : Content []
  | plain (b : UInt8) (s : Bytes) (itself : isPlain b = true) (more : Content s) : Content (b :: s)
  | short (e : UInt8) (s : Bytes) (escape : e ∈ [quote, backslash, slash, letterB, letterF, letterN, letterR, letterT])
      (more : Content s) : Content (backslash :: e :: s)
  | numbered (h₁ h₂ h₃ h₄ : UInt8) (s : Bytes) (digits : ∀ h ∈ [h₁, h₂, h₃, h₄], (hexValue? h).isSome = true)
      (more : Content s) : Content (backslash :: letterU :: h₁ :: h₂ :: h₃ :: h₄ :: s)

def Bracket.opening : Bracket → UInt8
  | .list => openBracket
  | .object => openBrace

-- A value, one item of a list or an object, or several with commas between them.
inductive Part where
  | value
  | item (bracket : Bracket)
  | items (bracket : Bracket)

-- How each part is written. Blanks after an item belong to it, blanks before it do not.
inductive Spelled : Part → Bytes → Prop where
  | null : Spelled .value (letterN :: restOfNull)
  | true_ : Spelled .value (letterT :: restOfTrue)
  | false_ : Spelled .value (letterF :: restOfFalse)
  | numeral (s : Bytes) (numeral : IsNumeral s) : Spelled .value s
  | string (s : Bytes) (content : Content s) : Spelled .value (quote :: (s ++ [quote]))
  | empty (bracket : Bracket) (blanks : Bytes) (blank : Blanks blanks) :
      Spelled .value (bracket.opening :: (blanks ++ [bracket.closing]))
  | full (bracket : Bracket) (blanks s : Bytes) (blank : Blanks blanks) (items : Spelled (.items bracket) s) :
      Spelled .value (bracket.opening :: (blanks ++ s ++ [bracket.closing]))
  | element (s blanks : Bytes) (value : Spelled .value s) (blank : Blanks blanks) : Spelled (.item .list) (s ++ blanks)
  | member (name between gap s blanks : Bytes) (content : Content name) (blankBetween : Blanks between)
      (blankGap : Blanks gap)
      (value : Spelled .value s) (blank : Blanks blanks) :
      Spelled (.item .object) (quote :: (name ++ quote :: (between ++ colon :: (gap ++ s ++ blanks))))
  | last (bracket : Bracket) (s : Bytes) (item : Spelled (.item bracket) s) : Spelled (.items bracket) s
  | more (bracket : Bracket) (s blanks rest : Bytes) (item : Spelled (.item bracket) s) (blank : Blanks blanks)
      (others : Spelled (.items bracket) rest) : Spelled (.items bracket) (s ++ comma :: (blanks ++ rest))

theorem blanks_nil : Blanks [] := fun _ member => nomatch member

theorem skip_blanks (blanks s : Bytes) (blank : Blanks blanks) : skipBlanks (blanks ++ s) = skipBlanks s :=
  List.dropWhile_append_of_pos blank

theorem skip_nothing (b : UInt8) (s : Bytes) (solid : isBlank b = false) : skipBlanks (b :: s) = b :: s := by
  simp [skipBlanks, solid]

theorem skip_content (s rest : Bytes) (content : Content s) : skipString (s ++ quote :: rest) = .ok rest := by
  induction content with
  | nil =>
      rw [List.nil_append, skipString.eq_def]
      simp
  | plain b s itself _ ih =>
      simp only [isPlain, Bool.and_eq_true, decide_eq_true_eq, bne_iff_ne, ne_eq] at itself
      obtain ⟨⟨least, unquoted⟩, straight⟩ := itself
      rw [List.cons_append, skipString.eq_def]
      simp only [if_neg unquoted, if_neg straight, if_neg (UInt8.not_lt.mpr least)]
      exact ih
  | short e s escape _ ih =>
      have known : (shortEscape? e).isSome = true := by
        simp only [List.mem_cons, List.not_mem_nil, or_false] at escape
        rcases escape with rfl | rfl | rfl | rfl | rfl | rfl | rfl | rfl <;> rfl
      have numberless : e ≠ letterU := by
        rintro rfl
        cases known
      rw [List.cons_append, List.cons_append, skipString.eq_def]
      simp only [show ¬ backslash = quote by decide, if_false, if_true]
      split
      · next same => cases same
      · next same =>
          cases same
          exact absurd rfl numberless
      · next same =>
          cases same
          rw [if_pos known]
          exact ih
  | numbered h₁ h₂ h₃ h₄ s digits _ ih =>
      have value : ∃ n, hexDigits h₁ h₂ h₃ h₄ = .ok n := by
        simp only [List.mem_cons, List.not_mem_nil, or_false, forall_eq_or_imp, forall_eq] at digits
        obtain ⟨first, second, third, fourth⟩ := digits
        obtain ⟨a, isA⟩ := Option.isSome_iff_exists.mp first
        obtain ⟨b, isB⟩ := Option.isSome_iff_exists.mp second
        obtain ⟨c, isC⟩ := Option.isSome_iff_exists.mp third
        obtain ⟨d, isD⟩ := Option.isSome_iff_exists.mp fourth
        exact ⟨_, by simp only [hexDigits, isA, isB, isC, isD]; rfl⟩
      obtain ⟨n, value⟩ := value
      simp only [List.cons_append]
      rw [skipString.eq_def]
      simp only [show ¬ backslash = quote by decide, if_false, if_true]
      split
      · next same => cases same
      · next same =>
          cases same
          simp only [value, bind, Except.bind]
          exact ih
      · next other same =>
          cases same
          exact absurd rfl other

-- The walk comes from one place to the other in at most so many steps.
def Walk.Reaches (n : Nat) (w after : Walk) : Prop := ∃ k ≤ n, ∀ fuel, w.run (k + fuel) = after.run fuel

theorem reaches_step (w after : Walk) (steps : w.step = .ok (some after)) : Walk.Reaches 1 w after := by
  refine ⟨1, Nat.le_refl 1, ?_⟩
  intro fuel
  rw [Nat.add_comm, Walk.run]
  simp only [steps, bind, Except.bind]

theorem reaches_trans (n m : Nat) (w middle after : Walk) (first : Walk.Reaches n w middle)
    (second : Walk.Reaches m middle after) :
    Walk.Reaches (n + m) w after := by
  obtain ⟨k, few, early⟩ := first
  obtain ⟨j, small, late⟩ := second
  refine ⟨k + j, Nat.add_le_add few small, ?_⟩
  intro fuel
  rw [Nat.add_assoc, early, late]

theorem reaches_mono (n m : Nat) (w after : Walk) (reaches : Walk.Reaches n w after) (bound : n ≤ m) :
    Walk.Reaches m w after := by
  obtain ⟨k, few, runs⟩ := reaches
  exact ⟨k, Nat.le_trans few bound, runs⟩

-- No part begins with a blank or a closing bracket.
def Opens (s : Bytes) : Prop := ∃ b rest, s = b :: rest ∧ isBlank b = false ∧ b ≠ closeBracket ∧ b ≠ closeBrace

theorem opens_append (s rest : Bytes) (opens : Opens s) : Opens (s ++ rest) := by
  obtain ⟨b, others, rfl, solid⟩ := opens
  exact ⟨b, others ++ rest, rfl, solid⟩

theorem digit_solid (d : UInt8) (digit : isDigit d = true) : isBlank d = false := by
  cases blank : isBlank d with
  | false => rfl
  | true =>
      simp only [isBlank, Bool.or_eq_true, beq_iff_eq] at blank
      rcases blank with ((rfl | rfl) | rfl) | rfl <;> cases digit

theorem unsigned_opens (s : Bytes) (spelled : Unsigned s) : Opens s := by
  obtain ⟨whole, fraction, exponent, isWhole, _, _, rfl⟩ := spelled
  obtain ⟨d, ds, rfl, digit⟩ := whole_head whole isWhole
  refine ⟨d, ds ++ fraction ++ exponent, by simp, digit_solid d digit, ?_, ?_⟩
  · rintro rfl
    cases digit
  · rintro rfl
    cases digit

theorem numeral_head (text : Bytes) (numeral : IsNumeral text) :
    ∃ b rest, text = b :: rest ∧ (b = minus ∨ isDigit b = true) ∧ isBlank b = false := by
  rcases numeral with ⟨whole, fraction, exponent, isWhole, _, _, written⟩ | ⟨rest, _, written⟩
  · obtain ⟨d, ds, rfl, digit⟩ := whole_head whole isWhole
    exact ⟨d, ds ++ fraction ++ exponent, written, Or.inr digit, digit_solid d digit⟩
  · exact ⟨minus, rest, written, Or.inl rfl, rfl⟩

theorem spelled_opens (part : Part) (s : Bytes) (spelled : Spelled part s) : Opens s := by
  have known : ∀ (b : UInt8) (rest : Bytes), (isBlank b = false ∧ b ≠ closeBracket ∧ b ≠ closeBrace) →
      Opens (b :: rest) :=
    fun b rest solid => ⟨b, rest, rfl, solid⟩
  have bracketed : ∀ bracket : Bracket, isBlank bracket.opening = false ∧ bracket.opening ≠ closeBracket ∧
      bracket.opening ≠ closeBrace := by
    intro bracket
    cases bracket <;> decide
  induction spelled with
  | null | true_ | false_ | string | member => exact known _ _ (by decide)
  | numeral s numeral =>
      rcases numeral with unsigned | ⟨rest, _, rfl⟩
      · exact unsigned_opens s unsigned
      · exact known minus rest (by decide)
  | empty bracket | full bracket => exact known _ _ (bracketed bracket)
  | element _ _ _ _ ih => exact opens_append _ _ ih
  | last _ _ _ ih => exact ih
  | more _ _ _ _ _ _ _ ih => exact opens_append _ _ ih

theorem spelled_null (s : Bytes) (spelled : Spelled .value (letterN :: s)) : s = restOfNull := by
  generalize written : letterN :: s = whole at spelled
  cases spelled with
  | null => exact (List.cons.inj written).2
  | true_ | false_ | string => cases (List.cons.inj written).1
  | empty bracket | full bracket => cases bracket <;> cases (List.cons.inj written).1
  | numeral _ numeral =>
      subst written
      rcases numeral with ⟨whole, fraction, exponent, isWhole, _, _, written⟩ | ⟨rest, _, written⟩
      · obtain ⟨d, ds, rfl, digit⟩ := whole_head whole isWhole
        cases (List.cons.inj written).1
        cases digit
      · cases (List.cons.inj written).1

theorem bracket_stops (bracket : Bracket) (blanks rest : Bytes) (blank : Blanks blanks) (d : UInt8)
    (ends : d = comma ∨ d = bracket.closing) : Stops (blanks ++ d :: rest) := by
  cases blanks with
  | nil =>
      apply stops_cons
      rcases ends with rfl | rfl
      · exact Or.inl rfl
      · cases bracket
        · exact Or.inr (Or.inl rfl)
        · exact Or.inr (Or.inr rfl)
  | cons b blanks =>
      intro other member
      cases member
      exact Or.inl (blank b List.mem_cons_self)

section
variable (opened : List Bracket) (blanks rest : Bytes) (blank : Blanks blanks)
include blank

theorem value_step (s : Bytes) (w : Walk) (steps : Walk.value opened s = .ok w) :
    Walk.Reaches 1 ⟨opened, .value, blanks ++ s⟩ w := by
  apply reaches_step
  have same : Walk.value opened (blanks ++ s) = Walk.value opened s := by
    simp only [Walk.value, skip_blanks blanks s blank]
  simp only [Walk.step, same, steps]
  rfl

theorem word_value (first : UInt8) (others : Bytes)
    (known : (first, others) ∈ [(letterN, restOfNull), (letterT, restOfTrue), (letterF, restOfFalse)]) :
    Walk.Reaches 1 ⟨opened, .value, blanks ++ (first :: others ++ rest)⟩ ⟨opened, .afterValue, rest⟩ := by
  apply value_step opened blanks blank
  simp only [List.mem_cons, Prod.mk.injEq, List.not_mem_nil, or_false] at known
  rcases known with ⟨rfl, rfl⟩ | ⟨rfl, rfl⟩ | ⟨rfl, rfl⟩
  · rfl
  · rfl
  · rfl

theorem numeral_value (s : Bytes) (numeral : IsNumeral s) (stops : Stops rest) :
    Walk.Reaches 1 ⟨opened, .value, blanks ++ (s ++ rest)⟩ ⟨opened, .afterValue, rest⟩ := by
  apply value_step opened blanks blank
  rcases numeral with unsigned | ⟨s, unsigned, rfl⟩
  · obtain ⟨numeral, scans⟩ := scan_unsigned s unsigned
    have scanned := scans .invalidNumber rest stops
    obtain ⟨whole, fraction, exponent, isWhole, _, _, rfl⟩ := unsigned
    obtain ⟨d, ds, rfl, digit⟩ := whole_head whole isWhole
    have other (b : UInt8) (letter : isDigit b = false) : d ≠ b := by
      rintro rfl
      exact Bool.noConfusion (letter.symm.trans digit)
    have solid : isBlank d = false ∧ d ≠ letterN ∧ d ≠ letterT ∧ d ≠ letterF ∧ d ≠ minus :=
      ⟨digit_solid d digit, other letterN rfl, other letterT rfl, other letterF rfl, other minus rfl⟩
    simp only [List.cons_append, Walk.value] at scanned ⊢
    rw [skip_nothing d _ solid.1]
    simp only [if_neg solid.2.1, if_neg solid.2.2.1, if_neg solid.2.2.2.1, if_neg solid.2.2.2.2, digit,
      if_true, scanned]
    rfl
  · obtain ⟨numeral, scans⟩ := scan_unsigned s unsigned
    have scanned := scans .invalidNumber rest stops
    rw [List.cons_append, Walk.value, skip_nothing minus _ rfl]
    simp only [scanned]
    rfl

theorem string_value (s : Bytes) (content : Content s) :
    Walk.Reaches 1 ⟨opened, .value, blanks ++ (quote :: (s ++ [quote]) ++ rest)⟩ ⟨opened, .afterValue, rest⟩ := by
  apply value_step opened blanks blank
  have skipped := skip_content s rest content
  simp only [List.cons_append, List.append_assoc, List.nil_append]
  rw [Walk.value, skip_nothing quote _ rfl]
  simp only [skipped]
  rfl

theorem bracket_value (bracket : Bracket) (s : Bytes) :
    Walk.Reaches 1 ⟨opened, .value, blanks ++ (bracket.opening :: s)⟩ ⟨bracket :: opened, .inside, s⟩ := by
  apply value_step opened blanks blank
  cases bracket <;> rfl

end

section
variable (bracket : Bracket) (outer : List Bracket) (blanks rest : Bytes) (blank : Blanks blanks)
include blank

theorem inside_close : Walk.Reaches 1 ⟨bracket :: outer, .inside, blanks ++ bracket.closing :: rest⟩
    ⟨outer, .afterValue, rest⟩ := by
  apply reaches_step
  simp only [Walk.step, skip_blanks blanks _ blank]
  rw [skip_nothing _ _ (by cases bracket <;> rfl)]
  exact if_pos rfl

theorem inside_item (s : Bytes) (opens : Opens s) :
    Walk.Reaches 1 ⟨bracket :: outer, .inside, blanks ++ s⟩ ⟨bracket :: outer, .item, s⟩ := by
  obtain ⟨b, others, rfl, solid, listless, objectless⟩ := opens
  apply reaches_step
  simp only [Walk.step, skip_blanks blanks _ blank]
  rw [skip_nothing b others solid]
  have open_ : b ≠ bracket.closing := by cases bracket <;> assumption
  simp only [if_neg open_]

theorem member_enters (name between : Bytes) (content : Content name) (blankBetween : Blanks between) :
    Walk.Reaches 1 ⟨.object :: outer, .item, blanks ++ (quote :: (name ++ quote :: (between ++ colon :: rest)))⟩
      ⟨.object :: outer, .value, rest⟩ := by
  apply reaches_step
  have named := skip_content name (between ++ colon :: rest) content
  have marked : colonMark (between ++ colon :: rest) = .ok rest := by
    rw [colonMark, skip_blanks between _ blankBetween, skip_nothing colon _ rfl]
    rfl
  simp only [Walk.step, Walk.item, skip_blanks blanks _ blank]
  rw [skip_nothing quote _ rfl]
  simp only [if_true, named, marked, bind, Except.bind]
  rfl

theorem after_comma : Walk.Reaches 1 ⟨bracket :: outer, .afterValue, blanks ++ comma :: rest⟩ ⟨bracket :: outer,
      .item, rest⟩ := by
  apply reaches_step
  simp only [Walk.step, skip_blanks blanks _ blank]
  rw [skip_nothing _ _ rfl]
  exact if_pos rfl

theorem after_close : Walk.Reaches 1 ⟨bracket :: outer, .afterValue, blanks ++ bracket.closing :: rest⟩
    ⟨outer, .afterValue, rest⟩ := by
  apply reaches_step
  simp only [Walk.step, skip_blanks blanks _ blank]
  rw [skip_nothing _ _ (by cases bracket <;> rfl)]
  exact (if_neg (by cases bracket <;> decide)).trans (if_pos rfl)

end

-- What the walk does on each part. An item leaves the blanks that follow it.
def Passes (s : Bytes) : Part → Prop
  | .value => ∀ opened blanks rest, Blanks blanks → Stops rest →
      Walk.Reaches (3 * s.length) ⟨opened, .value, blanks ++ (s ++ rest)⟩ ⟨opened, .afterValue, rest⟩
  | .item bracket => ∀ outer blanks d rest, Blanks blanks → (d = comma ∨ d = bracket.closing) → ∃ after, Blanks after ∧
      Walk.Reaches (3 * s.length + 1) ⟨bracket :: outer, .item, blanks ++ (s ++ d :: rest)⟩
        ⟨bracket :: outer, .afterValue, after ++ d :: rest⟩
  | .items bracket => ∀ outer blanks rest, Blanks blanks →
      Walk.Reaches (3 * s.length + 2) ⟨bracket :: outer, .item, blanks ++ (s ++ bracket.closing :: rest)⟩
        ⟨outer, .afterValue, rest⟩

theorem spelled_passes (part : Part) (s : Bytes) (spelled : Spelled part s) : Passes s part := by
  induction spelled with
  | null =>
      intro opened blanks rest blank _
      exact reaches_mono _ _ _ _ (word_value opened blanks rest blank letterN restOfNull (by decide)) (by decide)
  | true_ =>
      intro opened blanks rest blank _
      exact reaches_mono _ _ _ _ (word_value opened blanks rest blank letterT restOfTrue (by decide)) (by decide)
  | false_ =>
      intro opened blanks rest blank _
      exact reaches_mono _ _ _ _ (word_value opened blanks rest blank letterF restOfFalse (by decide)) (by decide)
  | numeral s numeral =>
      intro opened blanks rest blank stops
      obtain ⟨b, others, rfl, _⟩ := spelled_opens .value s (.numeral s numeral)
      exact reaches_mono _ _ _ _ (numeral_value opened blanks rest blank _ numeral stops)
        (by simp only [List.length_cons]; omega)
  | string s content =>
      intro opened blanks rest blank _
      exact reaches_mono _ _ _ _ (string_value opened blanks rest blank s content)
        (by simp only [List.length_cons]; omega)
  | empty bracket inside blankInside =>
      intro opened blanks rest blank _
      have enters := bracket_value opened blanks blank bracket (inside ++ bracket.closing :: rest)
      have leaves := inside_close bracket opened inside rest blankInside
      have both := reaches_trans _ _ _ _ _ enters leaves
      simp only [List.cons_append, List.append_assoc, List.nil_append] at both ⊢
      exact reaches_mono _ _ _ _ both (by simp only [List.length_cons]; omega)
  | full bracket inside s blankInside items ih =>
      intro opened blanks rest blank _
      have enters := bracket_value opened blanks blank bracket (inside ++ (s ++ bracket.closing :: rest))
      have begins := inside_item bracket opened inside blankInside (s ++ bracket.closing :: rest)
        (opens_append _ _ (spelled_opens _ s items))
      have passes := ih opened [] rest blanks_nil
      have all := reaches_trans _ _ _ _ _ enters (reaches_trans _ _ _ _ _ begins passes)
      simp only [List.cons_append, List.append_assoc, List.nil_append] at all ⊢
      exact reaches_mono _ _ _ _ all (by simp only [List.length_cons, List.length_append, List.length_nil]; omega)
  | element s blanksAfter value blankAfter ih =>
      intro outer blanks d rest blank ends
      refine ⟨blanksAfter, blankAfter, ?_⟩
      have enters : Walk.Reaches 1 ⟨.list :: outer, .item, blanks ++ (s ++ (blanksAfter ++ d :: rest))⟩
          ⟨.list :: outer, .value, blanks ++ (s ++ (blanksAfter ++ d :: rest))⟩ := reaches_step _ _ rfl
      have passes := ih (.list :: outer) blanks (blanksAfter ++ d :: rest) blank
        (bracket_stops .list blanksAfter rest blankAfter d ends)
      have both := reaches_trans _ _ _ _ _ enters passes
      rw [List.append_assoc]
      exact reaches_mono _ _ _ _ both (by rw [List.length_append]; omega)
  | member name between gap s blanksAfter content blankBetween blankGap value blankAfter ih =>
      intro outer blanks d rest blank ends
      refine ⟨blanksAfter, blankAfter, ?_⟩
      have enters :=
        member_enters outer blanks (gap ++ (s ++ (blanksAfter ++ d :: rest))) blank name between content blankBetween
      have passes := ih (.object :: outer) gap (blanksAfter ++ d :: rest) blankGap
        (bracket_stops .object blanksAfter rest blankAfter d ends)
      have both := reaches_trans _ _ _ _ _ enters passes
      simp only [List.cons_append, List.append_assoc]
      exact reaches_mono _ _ _ _ both (by simp only [List.length_cons, List.length_append]; omega)
  | last bracket s item ih =>
      intro outer blanks rest blank
      obtain ⟨after, blankAfter, passes⟩ := ih outer blanks bracket.closing rest blank (Or.inr rfl)
      have both := reaches_trans _ _ _ _ _ passes (after_close bracket outer after rest blankAfter)
      exact reaches_mono _ _ _ _ both (by omega)
  | more bracket s blanksNext others item blankNext items ihItem ihItems =>
      intro outer blanks rest blank
      obtain ⟨after, blankAfter, passes⟩ :=
        ihItem outer blanks comma (blanksNext ++ (others ++ bracket.closing :: rest)) blank (Or.inl rfl)
      have goesOn := after_comma bracket outer after (blanksNext ++ (others ++ bracket.closing :: rest)) blankAfter
      have all := reaches_trans _ _ _ _ _ passes
        (reaches_trans _ _ _ _ _ goesOn (ihItems outer blanksNext rest blankNext))
      simp only [List.cons_append, List.append_assoc]
      exact reaches_mono _ _ _ _ all (by simp only [List.length_cons, List.length_append]; omega)

theorem skip_value (blanks s rest : Bytes) (blank : Blanks blanks) (spelled : Spelled .value s) (stops : Stops rest) :
    skipValue (blanks ++ (s ++ rest)) = .ok rest := by
  obtain ⟨k, few, runs⟩ := spelled_passes .value s spelled [] blanks rest blank stops
  have room : ∃ fuel, 4 * (blanks ++ (s ++ rest)).length + 4 = k + (fuel + 1) := by
    refine ⟨4 * (blanks ++ (s ++ rest)).length + 3 - k, ?_⟩
    simp only [List.length_append]
    omega
  obtain ⟨fuel, room⟩ := room
  rw [skipValue, room]
  exact runs (fuel + 1)

end Json

-- A payload holds one value, without blanks around it.
def Payload.Valid (p : Payload) : Prop := Json.Spelled .value (Utf8.encode p.text)

theorem Json.read_payload (p : Payload) (rest : Bytes) (valid : p.Valid) (stops : Stops rest) :
    readPayload (Utf8.encode p.text ++ rest) = .ok (p, rest) := by
  obtain ⟨b, others, written, solid, _⟩ := spelled_opens .value _ valid
  have there : skipBlanks (Utf8.encode p.text ++ rest) = Utf8.encode p.text ++ rest := by
    rw [written, List.cons_append, skip_nothing b _ solid]
  have took : (Utf8.encode p.text ++ rest).take ((Utf8.encode p.text ++ rest).length - rest.length) =
      Utf8.encode p.text := by
    rw [List.length_append, Nat.add_sub_cancel, List.take_left]
  have skipped : skipValue (Utf8.encode p.text ++ rest) = .ok rest := skip_value [] _ rest blanks_nil valid stops
  simp only [readPayload, there, skipped, bind, Except.bind, took, Utf8.decode_encode]
  rfl

end DevTools
