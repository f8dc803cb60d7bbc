import DevTools.Text.Utf8

set_option autoImplicit false

namespace DevTools.Utf8

theorem encode_list (cs : List Char) : encode (String.ofList cs) = cs.flatMap String.utf8EncodeChar := by
  rw [encode, String.toList_ofList]

@[simp] theorem encode_append (a b : String) : encode (a ++ b) = encode a ++ encode b := by
  simp only [encode, String.toList_append, List.flatMap_append]

theorem lead_two (v : Nat) (least : 0x80 ≤ v) (most : v < 0x800) :
    lead (UInt8.ofNat (v / 64 % 32 + 192)) = .more (.inside (v / 64) 1 0x80 0xBF 1) := by
  have value : (UInt8.ofNat (v / 64 % 32 + 192)).toNat = v / 64 + 192 := by
    rw [UInt8.toNat_ofNat']
    omega
  simp only [lead, UInt8.lt_iff_toNat_lt, value, UInt8.reduceToNat]
  rw [if_neg (by omega), if_neg (by omega), if_pos (by omega), Nat.add_sub_cancel]

theorem lead_three (v : Nat) (least : 0x800 ≤ v) (most : v < 0x10000) (char : v < 0xD800 ∨ 0xDFFF < v) :
    ∃ low high, lead (UInt8.ofNat (v / 4096 % 16 + 224)) = .more (.inside (v / 4096) 2 low high 1) ∧
      low.toNat ≤ v / 64 % 64 + 128 ∧ v / 64 % 64 + 128 ≤ high.toNat := by
  have value : (UInt8.ofNat (v / 4096 % 16 + 224)).toNat = v / 4096 + 224 := by
    rw [UInt8.toNat_ofNat']
    omega
  simp only [lead, UInt8.lt_iff_toNat_lt, ← UInt8.toNat_inj, value, UInt8.reduceToNat]
  rw [if_neg (by omega), if_neg (by omega), if_neg (by omega)]
  by_cases lowest : v / 4096 = 0
  · rw [if_pos (by omega), lowest]
    exact ⟨0xA0, 0xBF, rfl, by simp only [UInt8.reduceToNat]; omega, by simp only [UInt8.reduceToNat]; omega⟩
  · rw [if_neg (by omega)]
    by_cases surrogates : v / 4096 = 0xD
    · rw [if_pos (by omega), surrogates]
      exact ⟨0x80, 0x9F, rfl, by simp only [UInt8.reduceToNat]; omega, by simp only [UInt8.reduceToNat]; omega⟩
    · rw [if_neg (by omega), if_pos (by omega), Nat.add_sub_cancel]
      exact ⟨0x80, 0xBF, rfl, by simp only [UInt8.reduceToNat]; omega, by simp only [UInt8.reduceToNat]; omega⟩

theorem lead_four (v : Nat) (least : 0x10000 ≤ v) (most : v < 0x110000) :
    ∃ low high, lead (UInt8.ofNat (v / 262144 % 8 + 240)) = .more (.inside (v / 262144) 3 low high 1) ∧
      low.toNat ≤ v / 4096 % 64 + 128 ∧ v / 4096 % 64 + 128 ≤ high.toNat := by
  have value : (UInt8.ofNat (v / 262144 % 8 + 240)).toNat = v / 262144 + 240 := by
    rw [UInt8.toNat_ofNat']
    omega
  simp only [lead, UInt8.lt_iff_toNat_lt, ← UInt8.toNat_inj, value, UInt8.reduceToNat]
  rw [if_neg (by omega), if_neg (by omega), if_neg (by omega), if_neg (by omega), if_neg (by omega), if_neg (by omega)]
  by_cases lowest : v / 262144 = 0
  · rw [if_pos (by omega), lowest]
    exact ⟨0x90, 0xBF, rfl, by simp only [UInt8.reduceToNat]; omega, by simp only [UInt8.reduceToNat]; omega⟩
  · rw [if_neg (by omega)]
    by_cases highest : v / 262144 = 4
    · rw [if_neg (by omega), if_pos (by omega), highest]
      exact ⟨0x80, 0x8F, rfl, by simp only [UInt8.reduceToNat]; omega, by simp only [UInt8.reduceToNat]; omega⟩
    · rw [if_pos (by omega), Nat.add_sub_cancel]
      exact ⟨0x80, 0xBF, rfl, by simp only [UInt8.reduceToNat]; omega, by simp only [UInt8.reduceToNat]; omega⟩

theorem step_inside (code left taken bits : Nat) (low high : UInt8) (small : bits < 64) (least : low.toNat ≤ bits + 128)
    (most : bits + 128 ≤ high.toNat) :
    step (.inside code left low high taken) (UInt8.ofNat (bits + 128)) =
      if left ≤ 1 then .char (code * 64 + bits)
        else .more (.inside (code * 64 + bits) (left - 1) 0x80 0xBF (taken + 1)) := by
  have value : (UInt8.ofNat (bits + 128)).toNat = bits + 128 := by
    rw [UInt8.toNat_ofNat']
    omega
  have within : low ≤ UInt8.ofNat (bits + 128) ∧ UInt8.ofNat (bits + 128) ≤ high := by
    rw [UInt8.le_iff_toNat_le, UInt8.le_iff_toNat_le, value]
    exact ⟨least, most⟩
  simp only [step, if_pos within, value, Nat.add_sub_cancel]

theorem step_tail (code left taken bits : Nat) (small : bits < 64) :
    step (.inside code left 0x80 0xBF taken) (UInt8.ofNat (bits + 128)) =
      if left ≤ 1 then .char (code * 64 + bits)
        else .more (.inside (code * 64 + bits) (left - 1) 0x80 0xBF (taken + 1)) :=
  step_inside code left taken bits 0x80 0xBF small (by simp only [UInt8.reduceToNat]; omega)
    (by simp only [UInt8.reduceToNat]; omega)

theorem decode_char (c : Char) (index next : Nat) (rest : Bytes) :
    ∃ after, decodeFrom .start index next (String.utf8EncodeChar c ++ rest) =
      (decodeFrom .start after after rest).map (c :: ·) := by
  have valid : c.val.toNat < 0xD800 ∨ 0xDFFF < c.val.toNat ∧ c.val.toNat < 0x110000 := c.valid
  have same : Char.ofNat c.val.toNat = c := Char.ofNat_toNat c
  simp only [String.utf8EncodeChar]
  generalize c.val.toNat = v at valid same
  split
  · refine ⟨next + 1, ?_⟩
    have value : (UInt8.ofNat v).toNat = v := by
      rw [UInt8.toNat_ofNat']
      omega
    have one : lead (UInt8.ofNat v) = .char v := by
      rw [lead, if_pos (by rw [UInt8.lt_iff_toNat_lt, value]; simp only [UInt8.reduceToNat]; omega), value]
    simp only [List.cons_append, List.nil_append, decodeFrom, step, one, same]
  · split
    · refine ⟨next + 1 + 1, ?_⟩
      have bits : v / 64 * 64 + v % 64 = v := by omega
      simp only [List.cons_append, List.nil_append, decodeFrom, step.eq_1, lead_two v (by omega) (by omega),
        step_tail _ _ _ (v % 64) (by omega), Nat.le_refl, if_true, bits, same]
    · split
      · refine ⟨next + 1 + 1 + 1, ?_⟩
        obtain ⟨low, high, first, least, most⟩ := lead_three v (by omega) (by omega) (by omega)
        have bits : (v / 4096 * 64 + v / 64 % 64) * 64 + v % 64 = v := by omega
        simp only [List.cons_append, List.nil_append, decodeFrom, step.eq_1, first,
          step_inside _ _ _ (v / 64 % 64) low high (by omega) least most, step_tail _ _ _ (v % 64) (by omega),
          Nat.reduceLeDiff, Nat.reduceSub, if_true, if_false, bits, same]
      · refine ⟨next + 1 + 1 + 1 + 1, ?_⟩
        obtain ⟨low, high, first, least, most⟩ := lead_four v (by omega) (by omega)
        have bits : ((v / 262144 * 64 + v / 4096 % 64) * 64 + v / 64 % 64) * 64 + v % 64 = v := by omega
        simp only [List.cons_append, List.nil_append, decodeFrom, step.eq_1, first,
          step_inside _ _ _ (v / 4096 % 64) low high (by omega) least most, step_tail _ _ _ (v / 64 % 64) (by omega),
          step_tail _ _ _ (v % 64) (by omega), Nat.reduceLeDiff, Nat.reduceSub, if_true, if_false, bits, same]

theorem decode_chars (cs : List Char) (index next : Nat) :
    decodeFrom .start index next (cs.flatMap String.utf8EncodeChar) = .ok cs := by
  induction cs generalizing index next with
  | nil => rfl
  | cons c cs ih =>
      obtain ⟨after, read⟩ := decode_char c index next (cs.flatMap String.utf8EncodeChar)
      rw [List.flatMap_cons, read, ih]
      rfl

theorem decode_encode (text : String) : decode? (encode text) = some text := by
  rw [decode?, decode, encode, decode_chars]
  simp [Except.map, Except.toOption]

theorem encode_injective (a b : String) (same : encode a = encode b) : a = b := by
  have decoded := decode_encode a
  rw [same, decode_encode] at decoded
  exact (Option.some.inj decoded).symm

theorem char_value (n : Nat) (valid : n < 0xD800 ∨ 0xDFFF < n ∧ n < 0x110000) : (Char.ofNat n).val.toNat = n := by
  rw [Char.ofNat, dif_pos valid]
  rfl

theorem byte_of (b : UInt8) (n : Nat) (same : n = b.toNat) : UInt8.ofNat n = b := by
  rw [same, UInt8.ofNat_toNat]

theorem inside_next (code left taken index next : Nat) (low high : UInt8) (bytes : Bytes) (cs : List Char)
    (read : decodeFrom (.inside code left low high taken) index next bytes = .ok cs) :
    ∃ b rest, bytes = b :: rest ∧ low ≤ b ∧ b ≤ high ∧
      if left ≤ 1 then
        ∃ others after, cs = Char.ofNat (code * 64 + (b.toNat - 0x80)) :: others ∧
          decodeFrom .start after after rest = .ok others
      else decodeFrom (.inside (code * 64 + (b.toNat - 0x80)) (left - 1) 0x80 0xBF (taken + 1)) index
        (next + 1) rest = .ok cs := by
  cases bytes with
  | nil => cases read
  | cons b rest =>
      refine ⟨b, rest, rfl, ?_⟩
      simp only [decodeFrom, step] at read
      by_cases within : low ≤ b ∧ b ≤ high
      · refine ⟨within.1, within.2, ?_⟩
        by_cases last : left ≤ 1
        · simp only [if_pos within, if_pos last] at read ⊢
          cases others : decodeFrom .start (next + 1) (next + 1) rest with
          | error fault =>
              rw [others] at read
              cases read
          | ok more =>
              rw [others] at read
              exact ⟨more, next + 1, (Except.ok.inj read).symm, others⟩
        · simpa only [if_pos within, if_neg last] using read
      · simp only [if_neg within] at read
        cases read

def Leads (bytes : Bytes) (cs : List Char) : Prop :=
  ∃ c rest others after, cs = c :: others ∧ bytes = String.utf8EncodeChar c ++ rest ∧
    decodeFrom .start after after rest = .ok others

theorem two_bytes (b : UInt8) (least : 0xC2 ≤ b.toNat) (most : b.toNat < 0xE0) (index next : Nat) (bytes : Bytes)
    (cs : List Char)
    (read : decodeFrom (.inside (b.toNat - 0xC0) 1 0x80 0xBF 1) index next bytes = .ok cs) : Leads (b :: bytes) cs := by
  obtain ⟨b₂, rest, rfl, low₂, high₂, others, after, rfl, more⟩ := inside_next _ 1 1 index next 0x80 0xBF bytes cs read
  rw [UInt8.le_iff_toNat_le] at low₂ high₂
  simp only [UInt8.reduceToNat] at low₂ high₂
  refine ⟨_, rest, others, after, rfl, ?_, more⟩
  have value := char_value ((b.toNat - 0xC0) * 64 + (b₂.toNat - 0x80)) (by omega)
  rw [String.utf8EncodeChar, value, if_neg (by omega), if_pos (by omega), byte_of b _ (by omega),
    byte_of b₂ _ (by omega)]
  rfl

theorem three_bytes (b : UInt8) (low high : UInt8) (least : 0xE0 ≤ b.toNat) (most : b.toNat < 0xF0)
    (fits : ∀ n, low.toNat ≤ n → n ≤ high.toNat → 0x80 ≤ n ∧ n ≤ 0xBF ∧ (b.toNat = 0xE0 → 0xA0 ≤ n) ∧
      (b.toNat = 0xED → n ≤ 0x9F))
    (index next : Nat) (bytes : Bytes) (cs : List Char)
    (read : decodeFrom (.inside (b.toNat - 0xE0) 2 low high 1) index next bytes = .ok cs) : Leads (b :: bytes) cs := by
  obtain ⟨b₂, bytes, rfl, low₂, high₂, read⟩ := inside_next _ 2 1 index next low high bytes cs read
  obtain ⟨b₃, rest, rfl, low₃, high₃, others, after, rfl, more⟩ :=
    inside_next _ 1 2 index (next + 1) 0x80 0xBF bytes cs read
  rw [UInt8.le_iff_toNat_le] at low₂ high₂ low₃ high₃
  have second := fits b₂.toNat low₂ high₂
  simp only [UInt8.reduceToNat] at low₃ high₃
  refine ⟨_, rest, others, after, rfl, ?_, more⟩
  have value := char_value (((b.toNat - 0xE0) * 64 + (b₂.toNat - 0x80)) * 64 + (b₃.toNat - 0x80)) (by omega)
  rw [String.utf8EncodeChar, value, if_neg (by omega), if_neg (by omega), if_pos (by omega), byte_of b _ (by omega),
    byte_of b₂ _ (by omega), byte_of b₃ _ (by omega)]
  rfl

theorem four_bytes (b : UInt8) (low high : UInt8) (least : 0xF0 ≤ b.toNat) (most : b.toNat ≤ 0xF4)
    (fits : ∀ n, low.toNat ≤ n → n ≤ high.toNat → 0x80 ≤ n ∧ n ≤ 0xBF ∧ (b.toNat = 0xF0 → 0x90 ≤ n) ∧
      (b.toNat = 0xF4 → n ≤ 0x8F))
    (index next : Nat) (bytes : Bytes) (cs : List Char)
    (read : decodeFrom (.inside (b.toNat - 0xF0) 3 low high 1) index next bytes = .ok cs) : Leads (b :: bytes) cs := by
  obtain ⟨b₂, bytes, rfl, low₂, high₂, read⟩ := inside_next _ 3 1 index next low high bytes cs read
  obtain ⟨b₃, bytes, rfl, low₃, high₃, read⟩ := inside_next _ 2 2 index (next + 1) 0x80 0xBF bytes cs read
  obtain ⟨b₄, rest, rfl, low₄, high₄, others, after, rfl, more⟩ :=
    inside_next _ 1 3 index (next + 1 + 1) 0x80 0xBF bytes cs read
  rw [UInt8.le_iff_toNat_le] at low₂ high₂ low₃ high₃ low₄ high₄
  have second := fits b₂.toNat low₂ high₂
  simp only [UInt8.reduceToNat] at low₃ high₃ low₄ high₄
  refine ⟨_, rest, others, after, rfl, ?_, more⟩
  have value :=
    char_value ((((b.toNat - 0xF0) * 64 + (b₂.toNat - 0x80)) * 64 + (b₃.toNat - 0x80)) * 64 + (b₄.toNat - 0x80))
    (by omega)
  rw [String.utf8EncodeChar, value, if_neg (by omega), if_neg (by omega), if_neg (by omega), byte_of b _ (by omega),
    byte_of b₂ _ (by omega), byte_of b₃ _ (by omega), byte_of b₄ _ (by omega)]
  rfl

theorem start_leads (b : UInt8) (bytes : Bytes) (index next : Nat) (cs : List Char)
    (read : decodeFrom .start index next (b :: bytes) = .ok cs) :
    Leads (b :: bytes) cs := by
  have bound := b.toNat_lt
  simp only [decodeFrom, step, lead, UInt8.lt_iff_toNat_lt, ← UInt8.toNat_inj, UInt8.reduceToNat] at read
  by_cases one : b.toNat < 0x80
  · simp only [if_pos one] at read
    cases more : decodeFrom .start (next + 1) (next + 1) bytes with
    | error fault =>
        rw [more] at read
        cases read
    | ok others =>
        rw [more] at read
        refine ⟨_, bytes, others, next + 1, (Except.ok.inj read).symm, ?_, more⟩
        rw [String.utf8EncodeChar, char_value b.toNat (by omega), if_pos (by omega), byte_of b _ rfl]
        rfl
  rw [if_neg one] at read
  by_cases stray : b.toNat < 0xC2
  · simp only [if_pos stray] at read
    cases read
  rw [if_neg stray] at read
  by_cases two : b.toNat < 0xE0
  · simp only [if_pos two] at read
    exact two_bytes b (by omega) two _ _ bytes cs read
  rw [if_neg two] at read
  by_cases first : b.toNat = 0xE0
  · simp only [if_pos first] at read
    refine three_bytes b 0xA0 0xBF (by omega) (by omega) ?_ _ _ bytes cs (by rw [first]; exact read)
    simp only [UInt8.reduceToNat]
    omega
  rw [if_neg first] at read
  by_cases surrogates : b.toNat = 0xED
  · simp only [if_pos surrogates] at read
    refine three_bytes b 0x80 0x9F (by omega) (by omega) ?_ _ _ bytes cs (by rw [surrogates]; exact read)
    simp only [UInt8.reduceToNat]
    omega
  rw [if_neg surrogates] at read
  by_cases three : b.toNat < 0xF0
  · simp only [if_pos three] at read
    refine three_bytes b 0x80 0xBF (by omega) three ?_ _ _ bytes cs read
    simp only [UInt8.reduceToNat]
    omega
  rw [if_neg three] at read
  by_cases least : b.toNat = 0xF0
  · simp only [if_pos least] at read
    refine four_bytes b 0x90 0xBF (by omega) (by omega) ?_ _ _ bytes cs (by rw [least]; exact read)
    simp only [UInt8.reduceToNat]
    omega
  rw [if_neg least] at read
  by_cases four : b.toNat < 0xF4
  · simp only [if_pos four] at read
    refine four_bytes b 0x80 0xBF (by omega) (by omega) ?_ _ _ bytes cs read
    simp only [UInt8.reduceToNat]
    omega
  rw [if_neg four] at read
  by_cases most : b.toNat = 0xF4
  · simp only [if_pos most] at read
    refine four_bytes b 0x80 0x8F (by omega) (by omega) ?_ _ _ bytes cs (by rw [most]; exact read)
    simp only [UInt8.reduceToNat]
    omega
  · simp only [if_neg most] at read
    cases read

theorem chars_encode (bytes : Bytes) (index next : Nat) (cs : List Char)
    (read : decodeFrom .start index next bytes = .ok cs) :
    cs.flatMap String.utf8EncodeChar = bytes := by
  induction cs generalizing bytes index next with
  | nil =>
      cases bytes with
      | nil => rfl
      | cons b bytes =>
          obtain ⟨_, _, _, _, same, _⟩ := start_leads b bytes index next [] read
          cases same
  | cons c cs ih =>
      cases bytes with
      | nil => cases read
      | cons b bytes =>
          obtain ⟨_, rest, _, after, same, written, more⟩ := start_leads b bytes index next (c :: cs) read
          cases same
          rw [List.flatMap_cons, ih rest after after more, written]

theorem encode_decode (bytes : Bytes) (text : String) (read : decode? bytes = some text) : encode text = bytes := by
  rw [decode?, decode] at read
  cases chars : decodeFrom .start 0 0 bytes with
  | error fault =>
      rw [chars] at read
      cases read
  | ok cs =>
      rw [chars] at read
      cases read
      rw [encode_list]
      exact chars_encode bytes 0 0 cs chars

end DevTools.Utf8
