import DevTools.Json.Expected
import DevTools.Json.Printer
import DevTools.Proofs.Text.Utf8

set_option autoImplicit false

namespace DevTools.Json

open Ascii

-- A byte that stands for itself in a string.
def isPlain (b : UInt8) : Bool := space ≤ b && b != quote && b != backslash

def before (bytes : Bytes) : Bytes × Bytes → Bytes × Bytes := fun (content, rest) => (bytes ++ content, rest)

theorem string_byte (b : UInt8) (s : Bytes) (plain : isPlain b = true) :
    stringBytes (b :: s) = (stringBytes s).map (before [b]) := by
  simp only [isPlain, Bool.and_eq_true, decide_eq_true_eq, bne_iff_ne, ne_eq] at plain
  obtain ⟨⟨least, unquoted⟩, straight⟩ := plain
  rw [stringBytes.eq_def]
  simp only [if_neg unquoted, if_neg straight, if_neg (UInt8.not_lt.mpr least)]
  cases stringBytes s <;> rfl

theorem string_plain (bytes s : Bytes) (plain : ∀ b ∈ bytes, isPlain b = true) :
    stringBytes (bytes ++ s) = (stringBytes s).map (before bytes) := by
  induction bytes with
  | nil =>
      rw [List.nil_append]
      cases stringBytes s <;> rfl
  | cons b bytes ih =>
      rw [List.cons_append, string_byte b _ (plain b List.mem_cons_self),
        ih fun other member => plain other (List.mem_cons_of_mem b member)]
      cases stringBytes s <;> rfl

theorem string_short (e c : UInt8) (s : Bytes) (escapes : shortEscape? e = some c) :
    stringBytes (backslash :: e :: s) = (stringBytes s).map (before [c]) := by
  have numberless : e ≠ letterU := by
    rintro rfl
    cases escapes
  rw [stringBytes.eq_def]
  simp only [show ¬ backslash = quote by decide, if_false, if_true]
  split
  · next same => cases same
  · next s' same => 
    cases same
    exact absurd rfl numberless
  · next e' s' _ same =>
    cases same
    rw [escapes]
    cases stringBytes s <;> rfl

theorem string_numbered (h₁ h₂ h₃ h₄ : UInt8) (n : Nat) (s : Bytes) (value : hexDigits h₁ h₂ h₃ h₄ = .ok n)
    (single : isTrailing n = false ∧ isLeading n = false) :
    stringBytes (backslash :: letterU :: h₁ :: h₂ :: h₃ :: h₄ :: s) = (stringBytes s).map (before (codePoint n)) := by
  rw [stringBytes.eq_def]
  simp only [show ¬ backslash = quote by decide, if_false, if_true]
  split
  · next same => cases same
  · next same =>
      cases same
      simp only [value, bind, Except.bind, single.1, single.2, Bool.false_eq_true, if_false]
      cases stringBytes s <;> rfl
  · next other same =>
      cases same
      exact absurd rfl other

theorem string_pair (h₁ h₂ h₃ h₄ l₁ l₂ l₃ l₄ : UInt8) (n m : Nat) (s : Bytes) (leading : hexDigits h₁ h₂ h₃ h₄ = .ok n)
    (leads : isTrailing n = false ∧ isLeading n = true) (trailing : hexDigits l₁ l₂ l₃ l₄ = .ok m)
    (trails : isTrailing m = true) :
    stringBytes (backslash :: letterU :: h₁ :: h₂ :: h₃ :: h₄ :: backslash :: letterU :: l₁ :: l₂ :: l₃ :: l₄ :: s) =
      (stringBytes s).map (before (codePoint (pairValue n m))) := by
  rw [stringBytes.eq_def]
  simp only [show ¬ backslash = quote by decide, if_false, if_true]
  split
  · next same => cases same
  · next same =>
      cases same
      simp only [leading, bind, Except.bind, leads.1, leads.2, Bool.false_eq_true, if_false, if_true]
      change Except.bind (hexDigits l₁ l₂ l₃ l₄) _ = _
      rw [trailing]
      change (if isTrailing m = true then _ else _) = _
      rw [if_pos trails]
      cases stringBytes s <;> rfl
  · next other same =>
      cases same
      exact absurd rfl other

theorem plain_char (c : Char) (least : 0x20 ≤ c.toNat) (unquoted : c ≠ '"') (straight : c ≠ '\\') :
    ∀ b ∈ String.utf8EncodeChar c, isPlain b = true := by
  have quoteless : c.val.toNat ≠ 0x22 := fun same => unquoted (Char.toNat_inj.mp same)
  have slashless : c.val.toNat ≠ 0x5C := fun same => straight (Char.toNat_inj.mp same)
  have bound : c.val.toNat < 0x110000 := by
    rcases c.valid with low | ⟨_, high⟩
    · exact Nat.lt_trans low (by decide)
    · exact high
  change 0x20 ≤ c.val.toNat at least
  have plain : ∀ n, 0x20 ≤ n → n < 256 → n ≠ 0x22 → n ≠ 0x5C → isPlain (UInt8.ofNat n) = true := by
    intro n low high notQuote notSlash
    have value : (UInt8.ofNat n).toNat = n := by
      rw [UInt8.toNat_ofNat']
      omega
    simp only [isPlain, Bool.and_eq_true, decide_eq_true_eq, bne_iff_ne, ne_eq, UInt8.le_iff_toNat_le,
      ← UInt8.toNat_inj, value]
    exact ⟨⟨low, notQuote⟩, notSlash⟩
  intro b member
  simp only [String.utf8EncodeChar] at member
  generalize c.val.toNat = v at quoteless slashless bound least member
  split at member
  · rw [List.mem_singleton.mp member]
    exact plain v least (by omega) quoteless slashless
  · split at member
    · simp only [List.mem_cons, List.not_mem_nil, or_false] at member
      rcases member with rfl | rfl <;> apply plain <;> omega
    · split at member
      · simp only [List.mem_cons, List.not_mem_nil, or_false] at member
        rcases member with rfl | rfl | rfl <;> apply plain <;> omega
      · simp only [List.mem_cons, List.not_mem_nil, or_false] at member
        rcases member with rfl | rfl | rfl | rfl <;> apply plain <;> omega

def controlEscape (n : Nat) : List Char := ['\\', 'u', '0', '0', Nat.digitChar (n / 16), Nat.digitChar (n % 16)]

theorem hex_digit (d : Nat) (small : d < 16) : hexValue? (UInt8.ofNat (Nat.digitChar d).toNat) = some d ∧
    String.utf8EncodeChar (Nat.digitChar d) = [UInt8.ofNat (Nat.digitChar d).toNat] := by
  revert d
  decide

theorem control_bytes (n : Nat) (control : n < 0x20) :
    (controlEscape n).flatMap String.utf8EncodeChar = [backslash, letterU, zero, zero,
    UInt8.ofNat (Nat.digitChar (n / 16)).toNat, UInt8.ofNat (Nat.digitChar (n % 16)).toNat] := by
  simp only [controlEscape, List.flatMap_cons, (hex_digit (n / 16) (by omega)).2, (hex_digit (n % 16) (by omega)).2]
  rfl

theorem string_control (n : Nat) (control : n < 0x20) (s : Bytes) :
    stringBytes ((controlEscape n).flatMap String.utf8EncodeChar ++ s) =
      (stringBytes s).map (before (codePoint n)) := by
  have high := (hex_digit (n / 16) (by omega)).1
  have low := (hex_digit (n % 16) (by omega)).1
  have nothing : hexValue? zero = some 0 := rfl
  have single : isTrailing n = false ∧ isLeading n = false := by
    simp only [isTrailing, isLeading, Bool.and_eq_false_iff, decide_eq_false_iff_not]
    omega
  rw [control_bytes n control]
  apply string_numbered _ _ _ _ n s _ single
  simp only [hexDigits, high, low, nothing, Except.ok.injEq]
  omega

theorem string_escape (c : Char) (s : Bytes) :
    stringBytes ((escape c).flatMap String.utf8EncodeChar ++ s) =
      (stringBytes s).map (before (String.utf8EncodeChar c)) := by
  rw [escape]
  split
  · next same => subst same; exact string_short quote quote s rfl
  split
  · next same => subst same; exact string_short backslash backslash s rfl
  split
  · next same => subst same; exact string_short letterB backspace s rfl
  split
  · next same => subst same; exact string_short letterF formFeed s rfl
  split
  · next same => subst same; exact string_short letterN lineFeed s rfl
  split
  · next same => subst same; exact string_short letterR carriageReturn s rfl
  split
  · next same => subst same; exact string_short letterT tab s rfl
  split
  · next control =>
      have read := string_control c.toNat control s
      rw [codePoint, Char.ofNat_toNat] at read
      exact read
  · next unquoted straight _ _ _ _ _ printable =>
      rw [List.flatMap_singleton]
      exact string_plain _ s (plain_char c (by omega) unquoted straight)

theorem string_escaped (cs : List Char) (rest : Bytes) :
    stringBytes ((cs.flatMap escape).flatMap String.utf8EncodeChar ++ quote :: rest) =
      .ok (cs.flatMap String.utf8EncodeChar, rest) := by
  induction cs with
  | nil =>
      change stringBytes (quote :: rest) = _
      rw [stringBytes.eq_def]
      simp
  | cons c cs ih =>
      rw [List.flatMap_cons, List.flatMap_append, List.append_assoc, string_escape, ih]
      rfl

def nameBytes (content : String) : Bytes := (content.toList.flatMap escape).flatMap String.utf8EncodeChar

theorem quoted_bytes (content : String) : Utf8.encode (quoted content) = quote :: (nameBytes content ++ [quote]) := by
  simp [quoted, nameBytes, Utf8.encode_list]
  rfl

theorem read_quoted (content : String) (rest : Bytes) :
    readString (nameBytes content ++ quote :: rest) = .ok (content, rest) := by
  have whole : Utf8.decode? (content.toList.flatMap String.utf8EncodeChar) = some content := Utf8.decode_encode content
  simp only [readString, nameBytes, string_escaped, Except.bind, bind, whole]
  rfl

theorem encode_quoted (content : String) : ∃ inside, Utf8.encode (quoted content) = quote :: inside ++ [quote] ∧
    ∀ rest, readString (inside ++ quote :: rest) = .ok (content, rest) :=
  ⟨nameBytes content, quoted_bytes content, read_quoted content⟩

end DevTools.Json
