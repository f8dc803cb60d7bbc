import DevTools.Proofs.Json.Grammar

set_option autoImplicit false

namespace DevTools.Json

open Ascii

theorem blanks_append (one other : Bytes) (first : Blanks one) (second : Blanks other) :
    Blanks (one ++ other) := by
  intro b member
  rcases List.mem_append.mp member with early | late
  · exact first b early
  · exact second b late

theorem blanks_taken (s : Bytes) : ∃ blanks, Blanks blanks ∧ s = blanks ++ skipBlanks s ∧
    ∀ b ∈ (skipBlanks s).head?, isBlank b = false := by
  refine ⟨s.takeWhile isBlank, fun b member => List.all_eq_true.mp List.all_takeWhile b member,
    List.takeWhile_append_dropWhile.symm, ?_⟩
  intro b first
  have head := List.head?_dropWhile_not isBlank s
  rw [← skipBlanks, first] at head
  simpa using head

theorem solid_taken (s : Bytes) (b : UInt8) (rest : Bytes) (skipped : skipBlanks s = b :: rest) :
    ∃ blanks, Blanks blanks ∧ s = blanks ++ b :: rest ∧ isBlank b = false := by
  obtain ⟨blanks, blank, written, solid⟩ := blanks_taken s
  rw [skipped] at written solid
  exact ⟨blanks, blank, written, solid b rfl⟩

theorem word_taken (expected s rest : Bytes) (read : word expected s = .ok rest) :
    s = expected ++ rest := by
  induction expected generalizing s with
  | nil => exact Except.ok.inj read
  | cons e es ih =>
      cases s with
      | nil => cases read
      | cons b s =>
          rw [word] at read
          split at read
          · next same => rw [same, ih s read, List.cons_append]
          · cases read

theorem colon_taken (s rest : Bytes) (read : colonMark s = .ok rest) :
    ∃ between, Blanks between ∧ s = between ++ colon :: rest := by
  rw [colonMark] at read
  split at read
  · cases read
  · next b others skipped =>
    split at read
    · next same =>
      cases read
      obtain ⟨between, blank, written, _⟩ := solid_taken s b rest skipped
      exact ⟨between, blank, same ▸ written⟩
    · cases read

theorem finish_taken (s : Bytes) (finished : finish s = .ok ()) : Blanks s := by
  rw [finish] at finished
  split at finished
  · next none =>
    obtain ⟨blanks, blank, written, _⟩ := blanks_taken s
    rw [List.isEmpty_iff.mp none, List.append_nil] at written
    exact written ▸ blank
  · cases finished

theorem colon_mark (between rest : Bytes) (blank : Blanks between) :
    colonMark (between ++ colon :: rest) = .ok rest := by
  rw [colonMark, skip_blanks between _ blank, skip_nothing colon _ rfl]
  rfl

theorem finish_blanks (s : Bytes) (blank : Blanks s) : finish s = .ok () := by
  have nothing : skipBlanks s = [] := by
    have skipped := skip_blanks s [] blank
    rwa [List.append_nil] at skipped
  rw [finish, nothing]
  rfl

theorem stops_blanks (blanks rest : Bytes) (blank : Blanks blanks) (stops : Stops rest) :
    Stops (blanks ++ rest) := by
  cases blanks with
  | nil => exact stops
  | cons b blanks =>
      intro other first
      cases first
      exact Or.inl (blank b List.mem_cons_self)

theorem stops_nil : Stops [] := fun _ first => nomatch first

theorem blanks_stop (blanks : Bytes) (blank : Blanks blanks) : Stops blanks := by
  have stops := stops_blanks blanks [] blank stops_nil
  rwa [List.append_nil] at stops

theorem digits_taken (cut : Error) (s ds rest : Bytes) (read : someDigits cut s = .ok (ds, rest)) :
    Digits ds ∧ s = ds ++ rest := by
  cases s with
  | nil => cases read
  | cons b s =>
      rw [someDigits] at read
      split at read
      · next digit =>
        cases read
        refine ⟨⟨?_, fun d member => List.all_eq_true.mp List.all_takeWhile d member⟩,
          List.takeWhile_append_dropWhile.symm⟩
        rw [List.takeWhile_cons_of_pos digit]
        exact List.cons_ne_nil _ _
      · cases read

theorem whole_taken (cut : Error) (s whole rest : Bytes)
    (read : Numeral.scanWhole cut s = .ok (whole, rest)) :
    Numeral.Whole whole ∧ s = whole ++ rest := by
  rw [Numeral.scanWhole.eq_def] at read
  split at read
  · next b others =>
    split at read
    · cases read
    · cases read
      exact ⟨.zero, rfl⟩
  · next others =>
    obtain ⟨⟨some_, digits⟩, written⟩ := digits_taken cut s whole rest read
    refine ⟨?_, written⟩
    cases whole with
    | nil => exact absurd rfl some_
    | cons d ds =>
        by_cases leading : d = zero
        · subst leading
          cases rest with
          | cons b rest =>
              cases ds with
              | nil => exact absurd written (others b rest)
              | cons d ds => exact absurd written (others d _)
          | nil =>
              cases ds with
              | nil => exact .zero
              | cons d ds => exact absurd written (others d _)
        · exact .more d ds leading digits

theorem fraction_taken (cut : Error) (s ds rest : Bytes)
    (read : Numeral.scanFraction cut s = .ok (ds, rest)) :
    ∃ fraction, Numeral.Fraction fraction ∧ s = fraction ++ rest := by
  rw [Numeral.scanFraction.eq_def] at read
  split at read
  · next others =>
    obtain ⟨digits, written⟩ := digits_taken cut others ds rest read
    exact ⟨point :: ds, .present ds digits, congrArg (point :: ·) written⟩
  · cases read
    exact ⟨[], .absent, rfl⟩

theorem exponent_taken (cut : Error) (s rest : Bytes) (value : Option (Bool × Bytes))
    (read : Numeral.scanExponent cut s = .ok (value, rest)) :
    ∃ exponent, Numeral.Exponent exponent ∧ s = exponent ++ rest := by
  have signed : ∀ (mark : UInt8) (sign others : Bytes) (negative : Bool),
      (mark = letterE ∨ mark = upperE) →
      (sign = [] ∨ sign = [plus] ∨ sign = [minus]) →
      (someDigits cut others).map (fun taken => (some (negative, taken.1), taken.2)) =
        .ok (value, rest) →
      ∃ exponent, Numeral.Exponent exponent ∧ mark :: (sign ++ others) = exponent ++ rest := by
    intro mark sign others negative marks signs read
    cases scanned : someDigits cut others with
    | error fault =>
        rw [scanned] at read
        cases read
    | ok pair =>
        obtain ⟨ds, after⟩ := pair
        rw [scanned] at read
        cases read
        obtain ⟨digits, written⟩ := digits_taken cut others ds after scanned
        exact ⟨mark :: (sign ++ ds), .present mark sign ds marks signs digits, by simp [written]⟩
  cases s with
  | nil =>
      cases read
      exact ⟨[], .absent, rfl⟩
  | cons mark s =>
      by_cases marked : mark = letterE ∨ mark = upperE
      · have marks : (mark == letterE || mark == upperE) = true := by simpa using marked
        rw [Numeral.scanExponent.eq_def] at read
        simp only [marks, if_true] at read
        split at read
        · exact signed mark [minus] _ true marked (Or.inr (Or.inr rfl)) read
        · exact signed mark [plus] _ false marked (Or.inr (Or.inl rfl)) read
        · exact signed mark [] _ false marked (Or.inl rfl) read
      · have unmarked : (mark == letterE || mark == upperE) = false := by simpa using marked
        rw [Numeral.scanExponent.eq_def] at read
        simp only [unmarked, Bool.false_eq_true, if_false] at read
        cases read
        exact ⟨[], .absent, rfl⟩

theorem bind_ok {α β : Type} (x : Except Error α) (f : α → Except Error β) (b : β)
    (run : (x >>= f) = .ok b) :
    ∃ a, x = .ok a ∧ f a = .ok b := by
  cases x with
  | error fault => cases run
  | ok a => exact ⟨a, rfl, run⟩

theorem map_ok {α β : Type} (x : Except Error α) (f : α → β) (b : β) (run : x.map f = .ok b) :
    ∃ a, x = .ok a ∧ f a = b := by
  cases x with
  | error fault => cases run
  | ok a => exact ⟨a, rfl, Except.ok.inj run⟩

theorem numeral_taken (cut : Error) (s rest : Bytes) (numeral : Numeral)
    (read : Numeral.scan cut s = .ok (numeral, rest)) :
    ∃ text, Unsigned text ∧ s = text ++ rest := by
  obtain ⟨⟨whole, s₁⟩, scannedWhole, read⟩ := bind_ok _ _ _ read
  obtain ⟨⟨fraction, s₂⟩, scannedFraction, read⟩ := bind_ok _ _ _ read
  obtain ⟨⟨exponent, s₃⟩, scannedExponent, read⟩ := bind_ok _ _ _ read
  cases read
  obtain ⟨isWhole, rfl⟩ := whole_taken cut s whole s₁ scannedWhole
  obtain ⟨point, isFraction, rfl⟩ := fraction_taken cut s₁ fraction s₂ scannedFraction
  obtain ⟨mark, isExponent, rfl⟩ := exponent_taken cut s₂ rest exponent scannedExponent
  exact ⟨whole ++ point ++ mark, ⟨whole, point, mark, isWhole, isFraction, isExponent, rfl⟩,
    by simp⟩

def Counts (text : Bytes) (n : Number) : Prop := ∀ rest, Stops rest →
    readNumber (text ++ rest) = .ok (n, rest)

theorem counts_fits (text : Bytes) (value : Int) (counts : Counts text (.integer value)) :
    FitsInteger value := by
  have read := counts [] stops_nil
  rw [readNumber.eq_def] at read
  split at read
  next negative others _ =>
  obtain ⟨⟨numeral, after⟩, _, read⟩ := bind_ok _ _ _ read
  obtain ⟨n, valued, read⟩ := bind_ok _ _ _ read
  cases read
  exact value_fits negative numeral value valued

theorem unsigned_counts (text rest : Bytes) (numeral : Numeral) (negative : Bool) (n : Number)
    (unsigned : Unsigned text)
    (stops : Stops rest) (scanned : Numeral.scan .endInValue (text ++ rest) = .ok (numeral, rest))
    (valued : numeral.value negative = .ok n) :
    Counts (if negative then minus :: text else text) n := by
  obtain ⟨same, scans⟩ := scan_unsigned text unsigned
  rw [scans .endInValue rest stops] at scanned
  cases scanned
  intro other ends
  cases negative with
  | true => exact read_signed (text ++ other) numeral other n (scans .endInValue other ends) valued
  | false =>
      refine read_unsigned (text ++ other) ?_ numeral other n (scans .endInValue other ends) valued
      obtain ⟨whole, fraction, exponent, isWhole, _, _, rfl⟩ := unsigned
      obtain ⟨d, ds, rfl, digit⟩ := whole_head whole isWhole
      intro b first
      cases first
      rintro rfl
      cases digit

theorem number_taken (s rest : Bytes) (n : Number) (stops : Stops rest)
    (read : readNumber s = .ok (n, rest)) :
    ∃ text, IsNumeral text ∧ Counts text n ∧ s = text ++ rest := by
  have parts : ∀ (negative : Bool) (s : Bytes), (Numeral.scan .endInValue s >>= fun taken =>
      taken.1.value negative >>= fun value => pure (value, taken.2)) = Except.ok (n, rest) →
      ∃ text, Unsigned text ∧ Counts (if negative then minus :: text else text) n ∧
        s = text ++ rest := by
    intro negative s read
    obtain ⟨⟨numeral, after⟩, scanned, read⟩ := bind_ok _ _ _ read
    obtain ⟨value, valued, read⟩ := bind_ok _ _ _ read
    cases read
    obtain ⟨text, unsigned, rfl⟩ := numeral_taken _ s after numeral scanned
    exact ⟨text, unsigned,
      unsigned_counts text after numeral negative n unsigned stops scanned valued, rfl⟩
  rw [readNumber.eq_def] at read
  split at read
  next negative others same =>
  split at same
  · cases same
    obtain ⟨text, unsigned, counts, rfl⟩ := parts true _ read
    exact ⟨minus :: text, Or.inr ⟨text, unsigned, rfl⟩, counts, rfl⟩
  · cases same
    obtain ⟨text, unsigned, counts, written⟩ := parts false _ read
    exact ⟨text, Or.inl unsigned, counts, written⟩

theorem hex_taken (h₁ h₂ h₃ h₄ : UInt8) (n : Nat) (value : hexDigits h₁ h₂ h₃ h₄ = .ok n) :
    ∀ h ∈ [h₁, h₂, h₃, h₄], (hexValue? h).isSome = true := by
  rw [hexDigits] at value
  split at value
  · next a b c d isA isB isC isD => simp [isA, isB, isC, isD]
  · cases value

theorem short_taken (e : UInt8) (known : (shortEscape? e).isSome = true) :
    e ∈ [quote, backslash, slash, letterB, letterF, letterN, letterR, letterT] := by
  rw [shortEscape?.eq_def] at known
  split at known <;> first | decide | cases known

theorem plain_taken (b : UInt8) (unquoted : ¬ b = quote) (straight : ¬ b = backslash)
    (printable : ¬ b < space) : isPlain b = true := by
  simp only [isPlain, Bool.and_eq_true, decide_eq_true_eq, bne_iff_ne, ne_eq]
  exact ⟨⟨UInt8.not_lt.mp printable, unquoted⟩, straight⟩

theorem skip_taken (s rest : Bytes) (read : skipString s = .ok rest) :
    ∃ key, Content key ∧ s = key ++ quote :: rest := by
  fun_induction skipString s with
  | case2 others =>
      cases read
      exact ⟨[], .nil, rfl⟩
  | case4 h₁ h₂ h₃ h₄ s _ ih =>
      obtain ⟨n, value, read⟩ := bind_ok _ _ _ read
      obtain ⟨key, content, rfl⟩ := ih read
      exact ⟨_, .numbered h₁ h₂ h₃ h₄ key (hex_taken h₁ h₂ h₃ h₄ n value) content, rfl⟩
  | case6 e s _ known _ ih =>
      obtain ⟨key, content, rfl⟩ := ih read
      exact ⟨_, .short e key (short_taken e known) content, rfl⟩
  | case9 b s unquoted straight printable ih =>
      obtain ⟨key, content, rfl⟩ := ih read
      exact ⟨_, .plain b key (plain_taken b unquoted straight printable) content, rfl⟩
  | _ => cases read

-- What the bytes between the quotes of a string stand for.
inductive Denotes : Bytes → Bytes → Prop where
  | nil : Denotes [] []
  | plain (b : UInt8) (key content : Bytes) (itself : isPlain b = true)
      (more : Denotes key content) : Denotes (b :: key) (b :: content)
  | short (e c : UInt8) (key content : Bytes) (escapes : shortEscape? e = some c)
      (more : Denotes key content) :
      Denotes (backslash :: e :: key) (c :: content)
  | numbered (h₁ h₂ h₃ h₄ : UInt8) (n : Nat) (key content : Bytes)
      (value : hexDigits h₁ h₂ h₃ h₄ = .ok n)
      (single : isTrailing n = false ∧ isLeading n = false) (more : Denotes key content) :
      Denotes (backslash :: letterU :: h₁ :: h₂ :: h₃ :: h₄ :: key) (codePoint n ++ content)
  | pair (h₁ h₂ h₃ h₄ l₁ l₂ l₃ l₄ : UInt8) (n m : Nat) (key content : Bytes)
      (leading : hexDigits h₁ h₂ h₃ h₄ = .ok n)
      (leads : isTrailing n = false ∧ isLeading n = true) (trailing : hexDigits l₁ l₂ l₃ l₄ = .ok m)
      (trails : isTrailing m = true)
      (more : Denotes key content) :
      Denotes (backslash :: letterU :: h₁ :: h₂ :: h₃ :: h₄ :: backslash :: letterU :: l₁ :: l₂ :: l₃ :: l₄ :: key)
        (codePoint (pairValue n m) ++ content)

theorem map_bytes (x : Except Error (Bytes × Bytes)) (put : Bytes → Bytes) (content rest : Bytes)
    (read : (do
      let (content, rest) ← x
      .ok (put content, rest)) = Except.ok (content, rest)) : ∃ inner, x = .ok (inner, rest) ∧
        put inner = content := by
  obtain ⟨⟨inner, after⟩, first, read⟩ := bind_ok _ _ _ read
  cases read
  exact ⟨inner, first, rfl⟩

theorem string_taken (s content rest : Bytes) (read : stringBytes s = .ok (content, rest)) :
    ∃ key, Denotes key content ∧ s = key ++ quote :: rest := by
  fun_induction stringBytes s generalizing content with
  | case2 others =>
      cases read
      exact ⟨[], .nil, rfl⟩
  | case4 h₁ h₂ h₃ h₄ s _ ihPair ihSingle =>
      obtain ⟨n, value, goes⟩ := bind_ok _ _ _ read
      clear read
      cases trails : isTrailing n with
      | true =>
          rw [trails] at goes
          cases goes
      | false =>
          cases leads : isLeading n with
          | false =>
              simp only [trails, leads, Bool.false_eq_true, if_false] at goes
              obtain ⟨inner, first, rfl⟩ := map_bytes _ _ content rest goes
              obtain ⟨key, denotes, rfl⟩ := ihSingle inner first
              exact ⟨_, .numbered h₁ h₂ h₃ h₄ n key inner value ⟨trails, leads⟩ denotes, rfl⟩
          | true =>
              simp only [trails, leads, Bool.false_eq_true, if_false, if_true] at goes
              split at goes
              · cases goes
              · split at goes
                · cases goes
                · split at goes
                  · next l₁ l₂ l₃ l₄ s =>
                    obtain ⟨m, trailing, goes⟩ := bind_ok _ _ _ goes
                    split at goes
                    · next second =>
                      obtain ⟨inner, first, rfl⟩ := map_bytes _ _ content rest goes
                      obtain ⟨key, denotes, rfl⟩ := ihPair inner first
                      exact ⟨_, .pair h₁ h₂ h₃ h₄ l₁ l₂ l₃ l₄ n m key inner value
                        ⟨trails, leads⟩ trailing second denotes, rfl⟩
                    · cases goes
                  · cases goes
                · cases goes
              · cases goes
  | case6 e s _ c escapes _ ih =>
      obtain ⟨inner, first, rfl⟩ := map_bytes _ _ content rest read
      obtain ⟨key, denotes, rfl⟩ := ih inner first
      exact ⟨_, .short e c key inner escapes denotes, rfl⟩
  | case9 b s unquoted straight printable ih =>
      obtain ⟨inner, first, rfl⟩ := map_bytes _ _ content rest read
      obtain ⟨key, denotes, rfl⟩ := ih inner first
      exact ⟨_, .plain b key inner (plain_taken b unquoted straight printable) denotes, rfl⟩
  | _ => cases read

theorem denotes_read (key content rest : Bytes) (denotes : Denotes key content) :
    stringBytes (key ++ quote :: rest) = .ok (content, rest) := by
  induction denotes with
  | nil =>
      rw [List.nil_append, stringBytes.eq_def]
      simp
  | plain b key content itself _ ih =>
      rw [List.cons_append, string_byte b _ itself, ih]
      rfl
  | short e c key content escapes _ ih =>
      simp only [List.cons_append]
      rw [string_short e c _ escapes, ih]
      rfl
  | numbered h₁ h₂ h₃ h₄ n key content value single _ ih =>
      simp only [List.cons_append]
      rw [string_numbered h₁ h₂ h₃ h₄ n _ value single, ih]
      rfl
  | pair h₁ h₂ h₃ h₄ l₁ l₂ l₃ l₄ n m key content leading leads trailing trails _ ih =>
      simp only [List.cons_append]
      rw [string_pair h₁ h₂ h₃ h₄ l₁ l₂ l₃ l₄ n m _ leading leads trailing trails, ih]
      rfl

theorem denotes_content (key content : Bytes) (denotes : Denotes key content) : Content key := by
  induction denotes with
  | nil => exact .nil
  | plain b key _ itself _ ih => exact .plain b key itself ih
  | short e c key _ escapes _ ih => exact .short e key (short_taken e (by rw [escapes]; rfl)) ih
  | numbered h₁ h₂ h₃ h₄ n key _ value _ _ ih =>
      exact .numbered h₁ h₂ h₃ h₄ key (hex_taken h₁ h₂ h₃ h₄ n value) ih
  | pair h₁ h₂ h₃ h₄ l₁ l₂ l₃ l₄ n m key _ leading _ trailing _ _ ih =>
      exact .numbered h₁ h₂ h₃ h₄ _ (hex_taken h₁ h₂ h₃ h₄ n leading)
        (.numbered l₁ l₂ l₃ l₄ key (hex_taken l₁ l₂ l₃ l₄ m trailing) ih)

theorem code_point_length (n : Nat) : (codePoint n).length ≤ 4 := by
  rw [codePoint, String.length_utf8EncodeChar]
  exact Char.utf8Size_le_four _

theorem denotes_length (key content : Bytes) (denotes : Denotes key content) :
    content.length ≤ key.length := by
  induction denotes with
  | nil => exact Nat.le_refl 0
  | plain | short =>
      simp only [List.length_cons]
      omega
  | numbered _ _ _ _ n =>
      have few := code_point_length n
      simp only [List.length_cons, List.length_append]
      omega
  | pair _ _ _ _ _ _ _ _ n m =>
      have few := code_point_length (pairValue n m)
      simp only [List.length_cons, List.length_append]
      omega

-- What stands between the quotes of a string, and the text it is.
def Named (key : Bytes) (name : String) : Prop := ∃ content, Denotes key content ∧
    Utf8.decode? content = some name

theorem name_taken (s rest : Bytes) (name : String) (read : readString s = .ok (name, rest)) :
    ∃ key, Named key name ∧ s = key ++ quote :: rest := by
  obtain ⟨⟨content, after⟩, first, decoded⟩ := bind_ok _ _ _ read
  obtain ⟨key, denotes, rfl⟩ := string_taken s content after first
  cases text : Utf8.decode? content with
  | none =>
      simp only [text] at decoded
      cases decoded
  | some other =>
      simp only [text] at decoded
      cases decoded
      exact ⟨key, ⟨content, denotes, text⟩, rfl⟩

theorem named_read (key rest : Bytes) (name : String) (named : Named key name) :
    readString (key ++ quote :: rest) = .ok (name, rest) := by
  obtain ⟨content, denotes, text⟩ := named
  simp only [readString, denotes_read key content rest denotes, bind, Except.bind, text]
  rfl

theorem name_named (name : String) : Named (nameBytes name) name := by
  obtain ⟨key, named, written⟩ := name_taken _ [] name (read_quoted name [])
  rwa [List.append_cancel_right written]

theorem named_content (key : Bytes) (name : String) (named : Named key name) : Content key := by
  obtain ⟨content, denotes, _⟩ := named
  exact denotes_content key content denotes

theorem named_unique (key : Bytes) (name other : String) (one : Named key name)
    (another : Named key other) : name = other := by
  have first := named_read key [] name one
  rw [named_read key [] other another] at first
  cases first
  rfl

theorem named_length (key : Bytes) (name : String) (named : Named key name) :
    (Utf8.encode name).length ≤ key.length := by
  obtain ⟨content, denotes, text⟩ := named
  rw [Utf8.encode_decode content name text]
  exact denotes_length key content denotes

end DevTools.Json
