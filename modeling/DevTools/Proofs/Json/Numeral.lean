import DevTools.Json.Record
import DevTools.Json.Printer
import DevTools.Proofs.Text.Utf8

set_option autoImplicit false

namespace DevTools.Json

open Ascii

def Digits (s : Bytes) : Prop := s ≠ [] ∧ ∀ b ∈ s, isDigit b = true

inductive Numeral.Whole : Bytes → Prop where
  | zero : Whole [zero]
  | more (d : UInt8) (ds : Bytes) (first : d ≠ zero) (digits : ∀ b ∈ d :: ds, isDigit b = true) : Whole (d :: ds)

inductive Numeral.Fraction : Bytes → Prop where
  | absent : Fraction []
  | present (ds : Bytes) (digits : Digits ds) : Fraction (point :: ds)

inductive Numeral.Exponent : Bytes → Prop where
  | absent : Exponent []
  | present (mark : UInt8) (sign ds : Bytes) (marks : mark = letterE ∨ mark = upperE)
      (signs : sign = [] ∨ sign = [plus] ∨ sign = [minus]) (digits : Digits ds) : Exponent (mark :: (sign ++ ds))

def Unsigned (s : Bytes) : Prop :=
  ∃ whole fraction exponent, Numeral.Whole whole ∧ Numeral.Fraction fraction ∧ Numeral.Exponent exponent ∧
    s = whole ++ fraction ++ exponent

def IsNumeral (s : Bytes) : Prop := Unsigned s ∨ ∃ rest, Unsigned rest ∧ s = minus :: rest

-- A value is over where the text ends, or before a blank, a comma or a closing bracket.
def Stops (rest : Bytes) : Prop :=
  ∀ b ∈ rest.head?, isBlank b = true ∨ b = comma ∨ b = closeBracket ∨ b = closeBrace

theorem stops_cons (b : UInt8) (rest : Bytes) (ends : b = comma ∨ b = closeBracket ∨ b = closeBrace) :
    Stops (b :: rest) := by
  intro other member
  cases member
  exact Or.inr ends

theorem stops_head (b : UInt8) (rest : Bytes) (stops : Stops (b :: rest)) :
    isDigit b = false ∧ b ≠ point ∧ b ≠ letterE ∧ b ≠ upperE := by
  rcases stops b rfl with blank | rfl | rfl | rfl
  · simp only [isBlank, Bool.or_eq_true, beq_iff_eq] at blank
    rcases blank with ((rfl | rfl) | rfl) | rfl <;> decide
  · decide
  · decide
  · decide

theorem some_digits (cut : Error) (ds rest : Bytes) (digits : Digits ds) (ends : ∀ b ∈ rest.head?, isDigit b = false) :
    someDigits cut (ds ++ rest) = .ok (ds, rest) := by
  obtain ⟨some_, all⟩ := digits
  have stop : rest.takeWhile isDigit = [] ∧ rest.dropWhile isDigit = rest := by
    cases rest with
    | nil => exact ⟨rfl, rfl⟩
    | cons b rest => simp [ends b rfl]
  cases ds with
  | nil => exact absurd rfl some_
  | cons d ds =>
      have first := all d List.mem_cons_self
      have took : (d :: ds ++ rest).takeWhile isDigit = d :: ds := by
        rw [List.takeWhile_append_of_pos all, stop.1, List.append_nil]
      have left : (d :: ds ++ rest).dropWhile isDigit = rest := by
        rw [List.dropWhile_append_of_pos all, stop.2]
      rw [List.cons_append] at took left ⊢
      simp only [someDigits, first, if_true, took, left]

theorem scan_whole (cut : Error) (whole rest : Bytes) (spelled : Numeral.Whole whole)
    (ends : ∀ b ∈ rest.head?, isDigit b = false) :
    Numeral.scanWhole cut (whole ++ rest) = .ok (whole, rest) := by
  cases spelled with
  | zero =>
      cases rest with
      | nil => rfl
      | cons b rest =>
          have stop : isDigit b = false := ends b rfl
          simp only [List.cons_append, List.nil_append, Numeral.scanWhole, stop, Bool.false_eq_true, if_false]
  | more d ds first digits =>
      have scans : Numeral.scanWhole cut (d :: ds ++ rest) = someDigits cut (d :: ds ++ rest) := by
        rw [Numeral.scanWhole.eq_def]
        split
        · next b others same => exact absurd (List.cons.inj same).1 first
        · rfl
      rw [scans]
      exact some_digits cut (d :: ds) rest ⟨List.cons_ne_nil d ds, digits⟩ ends

theorem scan_fraction (cut : Error) (fraction rest : Bytes) (spelled : Numeral.Fraction fraction)
    (ends : ∀ b ∈ rest.head?, isDigit b = false ∧ b ≠ point) :
    Numeral.scanFraction cut (fraction ++ rest) = .ok (fraction.tail, rest) := by
  cases spelled with
  | absent =>
      rw [List.nil_append, Numeral.scanFraction.eq_def]
      split
      · next others => exact absurd rfl (ends point rfl).2
      · rfl
  | present ds digits => exact some_digits cut ds rest digits fun b member => (ends b member).1

theorem scan_exponent (exponent : Bytes) (spelled : Numeral.Exponent exponent) :
    ∃ value, (exponent = [] → value = none) ∧
    ∀ cut rest, Stops rest → Numeral.scanExponent cut (exponent ++ rest) = .ok (value, rest) := by
  have ends : ∀ rest, Stops rest → ∀ b ∈ rest.head?, isDigit b = false := by
    intro rest stops b member
    cases rest with
    | nil => cases member
    | cons first rest =>
        cases member
        exact (stops_head b rest stops).1
  cases spelled with
  | absent =>
      refine ⟨none, fun _ => rfl, ?_⟩
      intro cut rest stops
      cases rest with
      | nil => rfl
      | cons b rest =>
          obtain ⟨_, _, small, capital⟩ := stops_head b rest stops
          have unmarked : (b == letterE || b == upperE) = false := by simp [small, capital]
          rw [List.nil_append, Numeral.scanExponent.eq_def]
          simp only [unmarked, Bool.false_eq_true, if_false]
  | present mark sign ds marks signs digits =>
      have marked : (mark == letterE || mark == upperE) = true := by simpa using marks
      refine ⟨some (sign == [minus], ds), by simp, ?_⟩
      intro cut rest stops
      have scanned := some_digits cut ds rest digits (ends rest stops)
      rcases signs with rfl | rfl | rfl
      · cases ds with
        | nil => exact absurd rfl digits.1
        | cons d ds =>
            have first := digits.2 d List.mem_cons_self
            have notMinus : d ≠ minus := by
              rintro rfl
              cases first
            have notPlus : d ≠ plus := by
              rintro rfl
              cases first
            rw [Numeral.scanExponent.eq_def]
            simp only [List.cons_append, List.nil_append, marked, if_true] at scanned ⊢
            split
            · next same => exact absurd (List.cons.inj same).1 notMinus
            · next same => exact absurd (List.cons.inj same).1 notPlus
            · rw [scanned]
              rfl
      · refine (Numeral.scanExponent.eq_2 cut mark (ds ++ rest)).trans ?_
        rw [if_pos marked, scanned]
        rfl
      · refine (Numeral.scanExponent.eq_1 cut mark (ds ++ rest)).trans ?_
        rw [if_pos marked, scanned]
        rfl

theorem exponent_head (exponent rest : Bytes) (spelled : Numeral.Exponent exponent) (stops : Stops rest) :
    ∀ b ∈ (exponent ++ rest).head?, isDigit b = false ∧ b ≠ point := by
  intro b member
  cases spelled with
  | absent =>
      cases rest with
      | nil => cases member
      | cons first rest =>
          cases member
          obtain ⟨digitless, pointless, _⟩ := stops_head b rest stops
          exact ⟨digitless, pointless⟩
  | present mark sign ds marks signs digits =>
      cases member
      rcases marks with rfl | rfl <;> decide

theorem scan_unsigned (s : Bytes) (spelled : Unsigned s) :
    ∃ numeral, ∀ cut rest, Stops rest → Numeral.scan cut (s ++ rest) = .ok (numeral, rest) := by
  obtain ⟨whole, fraction, exponent, isWhole, isFraction, isExponent, rfl⟩ := spelled
  obtain ⟨value, _, scanned⟩ := scan_exponent exponent isExponent
  refine ⟨⟨whole, fraction.tail, value⟩, ?_⟩
  intro cut rest stops
  have afterFraction := exponent_head exponent rest isExponent stops
  have afterWhole : ∀ b ∈ (fraction ++ (exponent ++ rest)).head?, isDigit b = false := by
    intro b member
    cases isFraction with
    | absent => exact (afterFraction b member).1
    | present ds digits =>
        cases member
        rfl
  rw [List.append_assoc, List.append_assoc]
  simp only [Numeral.scan, bind, Except.bind, scan_whole cut whole _ isWhole afterWhole,
    scan_fraction cut fraction _ isFraction afterFraction, scanned cut rest stops]
  rfl

theorem scan_integer (cut : Error) (whole rest : Bytes) (spelled : Numeral.Whole whole) (stops : Stops rest) :
    Numeral.scan cut (whole ++ rest) = .ok (⟨whole, [], none⟩, rest) := by
  have next := exponent_head [] rest .absent stops
  obtain ⟨value, nothing, scans⟩ := scan_exponent [] .absent
  have scanned := scans cut rest stops
  rw [nothing rfl] at scanned
  have fraction := scan_fraction cut [] rest .absent next
  simp only [Numeral.scan, bind, Except.bind, scan_whole cut whole rest spelled fun b member => (next b member).1]
  rw [List.nil_append] at scanned fraction
  simp only [fraction, scanned]
  rfl

def digitByte (d : Nat) : UInt8 := UInt8.ofNat (Nat.digitChar d).toNat

def digitBytes (n : Nat) : Bytes := (Nat.toDigits 10 n).map fun c => UInt8.ofNat c.toNat

theorem digit_byte (d : Nat) (small : d < 10) :
    isDigit (digitByte d) = true ∧ digitValue (digitByte d) = d ∧ (digitByte d = zero → d = 0) := by
  revert d
  decide

theorem digit_bytes_one (n : Nat) (small : n < 10) : digitBytes n = [digitByte n] := by
  rw [digitBytes, Nat.toDigits_of_lt_base small]
  rfl

theorem digit_bytes_more (n : Nat) (large : ¬ n < 10) : digitBytes n = digitBytes (n / 10) ++ [digitByte (n % 10)] := by
  rw [digitBytes, Nat.toDigits_eq_if (by decide), if_neg large, List.map_append]
  rfl

theorem encode_digits (cs : List Char) (digits : ∀ c ∈ cs, c.isDigit = true) :
    Utf8.encode (String.ofList cs) = cs.map fun c => UInt8.ofNat c.toNat := by
  have one : ∀ c ∈ cs, String.utf8EncodeChar c = [UInt8.ofNat c.toNat] := by
    intro c member
    have digit := digits c member
    simp only [Char.isDigit, Bool.and_eq_true, decide_eq_true_eq] at digit
    have most : c.val.toNat ≤ 127 := Nat.le_trans (UInt32.le_iff_toNat_le.mp digit.2) (by decide)
    simp only [String.utf8EncodeChar, if_pos most]
    rfl
  rw [Utf8.encode_list, List.map_eq_flatMap]
  simp only [List.flatMap, List.map_congr_left one]

theorem encode_natural (n : Nat) : Utf8.encode (toString n) = digitBytes n := by
  rw [Nat.toString_eq_repr, Nat.repr_eq_ofList_toDigits]
  exact encode_digits _ fun c member => Nat.isDigit_of_mem_toDigits (by decide) (by decide) member

theorem digit_bytes_whole (n : Nat) : Numeral.Whole (digitBytes n) := by
  by_cases nothing : n = 0
  · subst nothing
    exact .zero
  · suffices positive : ∃ d ds, digitBytes n = d :: ds ∧ d ≠ zero ∧ ∀ b ∈ d :: ds, isDigit b = true by
      obtain ⟨d, ds, same, first, digits⟩ := positive
      rw [same]
      exact .more d ds first digits
    induction n using Nat.strongRecOn with
    | ind n ih =>
        by_cases small : n < 10
        · obtain ⟨digit, _, leads⟩ := digit_byte n small
          refine ⟨digitByte n, [], digit_bytes_one n small, fun leading => nothing (leads leading), ?_⟩
          intro b member
          rw [List.mem_singleton.mp member]
          exact digit
        · obtain ⟨d, ds, same, first, digits⟩ := ih (n / 10) (by omega) (by omega)
          refine ⟨d, ds ++ [digitByte (n % 10)], by rw [digit_bytes_more n small, same]; rfl, first, ?_⟩
          intro b member
          rw [← List.cons_append, List.mem_append, List.mem_singleton] at member
          rcases member with early | rfl
          · exact digits b early
          · exact (digit_byte (n % 10) (by omega)).1

theorem decimal_digit_bytes (n : Nat) : decimal (digitBytes n) = n := by
  induction n using Nat.strongRecOn with
  | ind n ih =>
      by_cases small : n < 10
      · rw [digit_bytes_one n small]
        simpa [decimal] using (digit_byte n small).2.1
      · have rest := ih (n / 10) (by omega)
        have last := (digit_byte (n % 10) (by omega)).2.1
        simp only [decimal] at rest ⊢
        rw [digit_bytes_more n small, List.foldl_append, rest, List.foldl_cons, List.foldl_nil, last]
        omega

theorem absorb_all (ds : Bytes) (significand : Nat)
    (fits : ds.foldl (fun n b => n * 10 + digitValue b) significand ≤ greatestInteger) :
    absorb significand ds = (ds.foldl (fun n b => n * 10 + digitValue b) significand, []) := by
  have grows : ∀ (ds : Bytes) (n : Nat), n ≤ ds.foldl (fun n b => n * 10 + digitValue b) n := by
    intro ds
    induction ds with
    | nil => exact fun n => Nat.le_refl n
    | cons b ds ih =>
        intro n
        exact Nat.le_trans (by omega) (ih (n * 10 + digitValue b))
  induction ds generalizing significand with
  | nil => rfl
  | cons b ds ih =>
      have now : significand * 10 + digitValue b ≤ greatestInteger := Nat.le_trans (grows ds _) fits
      simp only [absorb, if_pos now]
      exact ih _ fits

theorem integer_value (negative : Bool) (n : Nat) (fits : n ≤ greatestInteger)
    (signed : negative = true → n ≠ 0 ∧ (n : Int) ≤ -leastInteger) :
    Numeral.value negative ⟨digitBytes n, [], none⟩ = .ok (.integer (if negative then -n else n)) := by
  have folded : (digitBytes n).foldl (fun n b => n * 10 + digitValue b) 0 = n := decimal_digit_bytes n
  have absorbed := absorb_all (digitBytes n) 0 (by rw [folded]; exact fits)
  rw [folded] at absorbed
  simp only [Numeral.value, absorbed, List.isEmpty_nil, Option.isNone_none, Bool.and_true, if_true]
  cases negative with
  | false => rfl
  | true =>
      obtain ⟨positive, bound⟩ := signed rfl
      have kept : ¬ (n = 0 ∨ (n : Int) > -leastInteger) := by omega
      simp only [Bool.not_true, Bool.false_eq_true, if_false, if_neg kept, if_true]

def FitsInteger (value : Int) : Prop := leastInteger ≤ value ∧ value ≤ greatestInteger

theorem absorb_bounded (significand : Nat) (ds : Bytes) (bounded : significand ≤ greatestInteger) :
    (absorb significand ds).1 ≤ greatestInteger := by
  induction ds generalizing significand with
  | nil => exact bounded
  | cons b ds ih =>
      by_cases longer : significand * 10 + digitValue b ≤ greatestInteger
      · simpa only [absorb, if_pos longer] using ih _ longer
      · simpa only [absorb, if_neg longer] using bounded

theorem value_fits (negative : Bool) (numeral : Numeral) (value : Int)
    (valued : numeral.value negative = .ok (.integer value)) :
    FitsInteger value := by
  have lowest : leastInteger = -9223372036854775808 := rfl
  have bounded := absorb_bounded 0 numeral.whole (Nat.zero_le _)
  simp only [Numeral.value] at valued
  split at valued
  · split at valued
    · cases valued
      constructor <;> omega
    · split at valued
      · split at valued <;> cases valued
      · next small =>
        cases valued
        constructor <;> omega
  · split at valued <;> cases valued

theorem whole_head (s : Bytes) (spelled : Numeral.Whole s) : ∃ d ds, s = d :: ds ∧ isDigit d = true := by
  cases spelled with
  | zero => exact ⟨zero, [], rfl, rfl⟩
  | more d ds _ digits => exact ⟨d, ds, rfl, digits d List.mem_cons_self⟩

theorem read_unsigned (s : Bytes) (unsigned : ∀ b ∈ s.head?, b ≠ minus) (numeral : Numeral) (rest : Bytes)
    (value : Number)
    (scanned : Numeral.scan .endInValue s = .ok (numeral, rest)) (valued : numeral.value false = .ok value) :
    readNumber s = .ok (value, rest) := by
  rw [readNumber.eq_2]
  · simp only [bind, Except.bind, scanned, valued]
    rfl
  · rintro others rfl
    exact unsigned minus rfl rfl

theorem read_signed (s : Bytes) (numeral : Numeral) (rest : Bytes) (value : Number)
    (scanned : Numeral.scan .endInValue s = .ok (numeral, rest)) (valued : numeral.value true = .ok value) :
    readNumber (minus :: s) = .ok (value, rest) := by
  refine (readNumber.eq_1 s).trans ?_
  simp only [bind, Except.bind, scanned, valued]
  rfl

theorem encode_negative (n : Nat) : Utf8.encode (toString (Int.negSucc n)) = minus :: digitBytes (n + 1) := by
  rw [← encode_natural]
  exact Utf8.encode_append "-" (toString (n + 1))

theorem integer_spelled (value : Int) : IsNumeral (Utf8.encode (toString value)) := by
  have unsigned (n : Nat) : Unsigned (digitBytes n) :=
    ⟨digitBytes n, [], [], digit_bytes_whole n, .absent, .absent, by simp⟩
  cases value with
  | ofNat n => exact Or.inl (encode_natural n ▸ unsigned n)
  | negSucc n => exact Or.inr ⟨digitBytes (n + 1), unsigned (n + 1), encode_negative n⟩

theorem read_number (value : Int) (rest : Bytes) (fits : FitsInteger value) (stops : Stops rest) :
    readNumber (Utf8.encode (toString value) ++ rest) = .ok (.integer value, rest) := by
  obtain ⟨least, most⟩ := fits
  have lowest : leastInteger = -9223372036854775808 := rfl
  have highest : greatestInteger = 18446744073709551615 := rfl
  have scanned := fun n => scan_integer .endInValue (digitBytes n) rest (digit_bytes_whole n) stops
  cases value with
  | ofNat n =>
      have written : Utf8.encode (toString (Int.ofNat n)) = digitBytes n := encode_natural n
      have valued := integer_value false n (Int.ofNat_le.mp most) (by intro no; cases no)
      obtain ⟨d, ds, first, digit⟩ := whole_head (digitBytes n) (digit_bytes_whole n)
      rw [written]
      apply read_unsigned (digitBytes n ++ rest) _ _ rest _ (scanned n) valued
      intro b member
      rw [first] at member
      cases member
      rintro rfl
      cases digit
  | negSucc n =>
      have valued := integer_value true (n + 1) (by omega) (by omega)
      rw [encode_negative, List.cons_append]
      exact read_signed (digitBytes (n + 1) ++ rest) _ rest _ (scanned (n + 1)) valued

end DevTools.Json
