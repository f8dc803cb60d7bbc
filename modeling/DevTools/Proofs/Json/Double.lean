import DevTools.Proofs.Json.Numeral
import Mathlib.Data.List.DropRight

set_option autoImplicit false

namespace DevTools

open Json Ascii

-- A zero leads only if it is all there is.
structure Digits.Proper (d : DevTools.Digits) : Prop where
  digits : ∀ c ∈ d.digits, c.isDigit = true
  some_ : d.digits ≠ []
  leads : d.digits.head? = some '0' → d.digits = ['0'] ∧ d.exponent = 0

namespace Double

theorem onGrid_positive (i : Interval) (e : Int) (n : Nat) (positive : 0 < i.low) (found : onGrid? i e = some n) :
    n ≠ 0 := by
  rintro rfl
  simp only [onGrid?] at found
  generalize parts : (if 0 ≤ e then (i.den * Nat.pow 10 e.toNat, 1) else (i.den, Nat.pow 10 (-e).toNat)) = grid at found
  have some_ : 0 < grid.2 := by
    subst parts
    split
    · exact Nat.one_pos
    · exact Nat.pow_pos (by decide)
  have low : 0 < i.low * grid.2 := Nat.mul_pos positive some_
  generalize (if 2 * _ < _ then _ else _) = nearer at found
  generalize (if nearer = _ then _ else _) = other at found
  have away (n : Nat) (within :
      (if i.closed = true then decide (i.low * grid.2 ≤ n * grid.1) && decide (n * grid.1 ≤ i.high * grid.2)
      else decide (i.low * grid.2 < n * grid.1) && decide (n * grid.1 < i.high * grid.2)) = true) : n ≠ 0 := by
    rintro rfl
    simp only [Nat.zero_mul, Nat.not_lt_zero, Nat.not_le.mpr low, decide_false, Bool.false_and, ite_self] at within
    cases within
  rcases ite_eq_iff.mp found with ⟨within, same⟩ | ⟨_, found⟩
  · exact away nearer within (Option.some.inj same)
  · rcases ite_eq_iff.mp found with ⟨within, same⟩ | ⟨_, nothing⟩
    · exact away other within (Option.some.inj same)
    · cases nothing

theorem interval_low (x : Double) (solid : x.isZero = false) : 0 < x.interval.low := by
  have some_ : x.mantissa ≠ 0 := by simpa [isZero] using solid
  simp only [interval]
  apply Nat.mul_pos
  · split <;> omega
  · split
    · exact Nat.pow_pos (by decide)
    · exact Nat.one_pos

theorem toDigits_leads (n : Nat) (some_ : n ≠ 0) : ∃ c cs, Nat.toDigits 10 n = c :: cs ∧ c ≠ '0' := by
  cases written : Nat.toDigits 10 n with
  | nil => exact absurd written Nat.toDigits_ne_nil
  | cons c cs =>
      refine ⟨c, cs, rfl, ?_⟩
      rintro rfl
      have whole := digit_bytes_whole n
      have value := decimal_digit_bytes n
      rw [digitBytes, written, List.map_cons] at whole value
      generalize cs.map _ = rest at whole value
      cases whole with
      | zero => exact some_ value.symm
      | more _ _ first => exact first rfl

theorem trimZeros_leads (c : Char) (cs : List Char) (leads : c ≠ '0') : ∃ rest, trimZeros (c :: cs) = c :: rest ∧
    ∀ d ∈ rest, d ∈ cs := by
  have kept : trimZeros (c :: cs) ≠ [] := by
    intro nothing
    have all := List.rdropWhile_eq_nil_iff.mp nothing c List.mem_cons_self
    exact leads (by simpa using all)
  have part : trimZeros (c :: cs) <+: c :: cs := List.rdropWhile_prefix (· == '0') (c :: cs)
  cases trimmed : trimZeros (c :: cs) with
  | nil => exact absurd trimmed kept
  | cons d rest =>
      rw [trimmed, List.cons_prefix_cons] at part
      obtain ⟨rfl, part⟩ := part
      exact ⟨rest, rfl, fun d member => part.subset member⟩

theorem search_proper (i : Interval) (top : Int) (count fuel : Nat) (positive : 0 < i.low) :
    (search i top count fuel).Proper := by
  induction fuel generalizing count with
  | zero =>
      rw [search]
      exact ⟨fun c member => List.mem_singleton.mp member ▸ rfl, List.cons_ne_nil _ _, fun _ => ⟨rfl, rfl⟩⟩
  | succ fuel ih =>
      rw [search]
      split
      · next n found =>
          obtain ⟨c, cs, written, leads⟩ := toDigits_leads n (onGrid_positive i _ n positive found)
          have digits : ∀ d ∈ c :: cs, d.isDigit = true := fun d member =>
            Nat.isDigit_of_mem_toDigits (by decide) (by decide) (written ▸ member)
          obtain ⟨rest, trimmed, within⟩ := trimZeros_leads c cs leads
          rw [written]
          dsimp only
          rw [trimmed]
          refine ⟨?_, List.cons_ne_nil c rest, fun zero => absurd (Option.some.inj zero) leads⟩
          intro d member
          rcases List.mem_cons.mp member with rfl | member
          · exact digits d List.mem_cons_self
          · exact digits d (List.mem_cons_of_mem c (within d member))
      · exact ih (count + 1)

theorem shortest_proper (x : Double) (solid : x.isZero = false) : x.shortest.Proper :=
  search_proper _ _ _ _ (interval_low x solid)

end Double

theorem digit_char (c : Char) (digit : c.isDigit = true) :
    isDigit (UInt8.ofNat c.toNat) = true ∧ (UInt8.ofNat c.toNat = zero → c = '0') := by
  simp only [Char.isDigit, Bool.and_eq_true, decide_eq_true_eq, UInt32.le_iff_toNat_le] at digit
  have least : 48 ≤ c.toNat := digit.1
  have most : c.toNat ≤ 57 := digit.2
  have value : (UInt8.ofNat c.toNat).toNat = c.toNat := by
    rw [UInt8.toNat_ofNat']
    omega
  constructor
  · simp only [isDigit, Bool.and_eq_true, decide_eq_true_eq, UInt8.le_iff_toNat_le, value]
    exact digit
  · intro same
    rw [← UInt8.toNat_inj, value] at same
    exact Char.toNat_inj.mp same

theorem zero_digits : Json.Digits [Ascii.zero] :=
  ⟨List.cons_ne_nil _ _, fun _ member => List.mem_singleton.mp member ▸ rfl⟩

theorem digits_spelled (cs : List Char) (digits : ∀ c ∈ cs, c.isDigit = true) (some_ : cs ≠ []) :
    Json.Digits (Utf8.encode (String.ofList cs)) := by
  rw [encode_digits cs digits]
  refine ⟨by simpa using some_, ?_⟩
  intro b member
  obtain ⟨c, inside, rfl⟩ := List.mem_map.mp member
  exact (digit_char c (digits c inside)).1

theorem whole_spelled (c : Char) (cs : List Char) (digits : ∀ d ∈ c :: cs, d.isDigit = true)
    (leads : c = '0' → cs = []) :
    Numeral.Whole (Utf8.encode (String.ofList (c :: cs))) := by
  by_cases zero : c = '0'
  · rw [zero, leads zero]
    exact .zero
  · have spelled := digits_spelled (c :: cs) digits (List.cons_ne_nil c cs)
    rw [encode_digits _ digits, List.map_cons] at spelled ⊢
    exact .more _ _ (fun same => zero ((digit_char c (digits c List.mem_cons_self)).2 same)) spelled.2

theorem signed_spelled (e : Int) : Numeral.Exponent (Utf8.encode ("e" ++ signed e)) := by
  have digits (n : Nat) : Json.Digits (digitBytes n) := by
    rw [← encode_natural, Nat.toString_eq_repr, Nat.repr_eq_ofList_toDigits]
    exact digits_spelled _ (fun c member =>
      Nat.isDigit_of_mem_toDigits (by decide) (by decide) member) Nat.toDigits_ne_nil
  rw [Utf8.encode_append, signed]
  cases e with
  | ofNat n =>
      have least : ¬ Int.ofNat n < 0 := Int.not_lt.mpr (Int.natCast_nonneg n)
      rw [if_neg least, Utf8.encode_append]
      exact .present letterE [plus] _ (Or.inl rfl) (Or.inr (Or.inl rfl)) (encode_natural n ▸ digits n)
  | negSucc n =>
      rw [if_pos (Int.negSucc_lt_zero n), encode_negative]
      exact .present letterE [minus] _ (Or.inl rfl) (Or.inr (Or.inr rfl)) (digits (n + 1))

theorem fraction_spelled (whole fraction : String) (isWhole : Numeral.Whole (Utf8.encode whole))
    (digits : Json.Digits (Utf8.encode fraction)) : Unsigned (Utf8.encode (whole ++ "." ++ fraction)) := by
  refine ⟨_, point :: Utf8.encode fraction, [], isWhole, .present _ digits, .absent, ?_⟩
  rw [Utf8.encode_append, Utf8.encode_append, List.append_assoc, List.append_nil]
  rfl

theorem padded_digits (cs : List Char) (count : Nat) (digits : ∀ c ∈ cs, c.isDigit = true) :
    ∀ c ∈ cs ++ List.replicate count '0', c.isDigit = true := by
  intro c member
  rcases List.mem_append.mp member with own | zero
  · exact digits c own
  · rw [List.eq_of_mem_replicate zero]
    rfl

theorem positional_spelled (layout : Layout) (d : DevTools.Digits) (proper : d.Proper)
    (within : layout.leastPositional ≤ d.exponent ∧ d.exponent ≤ layout.greatestPositional) :
    Unsigned (Utf8.encode (d.render layout)) := by
  obtain ⟨digits, some_, leads⟩ := proper
  rw [DevTools.Digits.render, if_pos within]
  cases chars : d.digits with
  | nil => exact absurd chars some_
  | cons c cs =>
      rw [chars] at digits leads
      by_cases negative : d.exponent < 0
      · rw [if_pos negative]
        refine fraction_spelled "0" _ .zero (digits_spelled _ ?_ (by simp))
        intro b member
        rcases List.mem_append.mp member with zero | own
        · rw [List.eq_of_mem_replicate zero]
          rfl
        · exact digits b own
      · rw [if_neg negative]
        have padded := padded_digits (c :: cs) (d.exponent.toNat + 1 - (c :: cs).length) digits
        refine fraction_spelled _ _ ?_ ?_
        · refine whole_spelled c _ (fun b member =>
            padded b (List.mem_of_mem_take (i := d.exponent.toNat + 1) member)) ?_
          intro zero
          obtain ⟨_, least⟩ := leads (congrArg some zero)
          rw [least]
          rfl
        · split
          · exact zero_digits
          · next some_ =>
              exact digits_spelled _ (fun b member => padded b (List.mem_of_mem_drop member)) (by simpa using some_)

theorem exponential_spelled (layout : Layout) (d : DevTools.Digits) (proper : d.Proper)
    (outside : ¬ (layout.leastPositional ≤ d.exponent ∧ d.exponent ≤ layout.greatestPositional)) :
    Unsigned (Utf8.encode (d.render layout)) := by
  obtain ⟨digits, some_, _⟩ := proper
  rw [DevTools.Digits.render, if_neg outside]
  have exponent := signed_spelled d.exponent
  cases chars : d.digits with
  | nil => exact absurd chars some_
  | cons c cs =>
      rw [chars] at digits
      have whole := whole_spelled c [] (fun b member => digits b (by simp_all)) fun _ => rfl
      cases cs with
      | nil =>
          refine ⟨_, [], _, whole, .absent, exponent, ?_⟩
          simp only [Utf8.encode_append, List.append_assoc, List.append_nil]
          rfl
      | cons next more =>
          have fraction := digits_spelled (next :: more) (fun b member => digits b (List.mem_cons_of_mem c member))
            (List.cons_ne_nil next more)
          refine ⟨_, point :: _, _, whole, .present _ fraction, exponent, ?_⟩
          simp only [Utf8.encode_append, List.append_assoc]
          rfl

theorem Digits.render_spelled (layout : Layout) (d : DevTools.Digits) (proper : d.Proper) :
    Unsigned (Utf8.encode (d.render layout)) := by
  by_cases within : layout.leastPositional ≤ d.exponent ∧ d.exponent ≤ layout.greatestPositional
  · exact positional_spelled layout d proper within
  · exact exponential_spelled layout d proper within

namespace Double

theorem render_spelled (layout : Layout) (x : Double) : IsNumeral (Utf8.encode (x.render layout)) := by
  have unsigned : Unsigned (Utf8.encode (if x.isZero then "0.0" else x.shortest.render layout)) := by
    split
    · exact ⟨[Ascii.zero], [point, Ascii.zero], [], .zero, .present [Ascii.zero] zero_digits, .absent, rfl⟩
    · next solid => exact Digits.render_spelled layout _ (shortest_proper x (by simpa using solid))
  rw [render]
  split
  · exact Or.inr ⟨_, unsigned, Utf8.encode_append "-" _⟩
  · rw [String.empty_append]
    exact Or.inl unsigned

end Double

end DevTools
