import DevTools.Proofs.Json.Scan
/- The walk over a value, read backwards: while brackets are open, what it still has to take closes them one after the
   other. -/

set_option autoImplicit false

namespace DevTools.Json

open Ascii

def Ends (bracket : Bracket) (s : Bytes) : Prop :=
  ∃ blanks, Blanks blanks ∧ (s = blanks ++ [bracket.closing] ∨
    ∃ gap items, Blanks gap ∧ Spelled (.items bracket) items ∧
      s = blanks ++ comma :: (gap ++ items ++ [bracket.closing]))

inductive Closes : List Bracket → Bytes → Prop where
  | nil : Closes [] []
  | cons (bracket : Bracket) (outer : List Bracket) (s rest : Bytes) (ends : Ends bracket s)
      (closes : Closes outer rest) :
      Closes (bracket :: outer) (s ++ rest)

def Owes (opened : List Bracket) : Due → Bytes → Prop
  | .value, s => ∃ blanks v rest, Blanks blanks ∧ Spelled .value v ∧ Closes opened rest ∧ s = blanks ++ (v ++ rest)
  | .afterValue, s => Closes opened s
  | .inside, s => ∃ bracket outer blanks rest, opened = bracket :: outer ∧ Blanks blanks ∧ Closes outer rest ∧
      (s = blanks ++ bracket.closing :: rest ∨ ∃ items, Spelled (.items bracket) items ∧
        s = blanks ++ (items ++ bracket.closing :: rest))
  | .item, s => ∃ bracket outer blanks items rest, opened = bracket :: outer ∧ Blanks blanks ∧ Closes outer rest ∧
      Spelled (.items bracket) items ∧ s = blanks ++ (items ++ bracket.closing :: rest)

theorem ends_items (bracket : Bracket) (core s : Bytes) (item : ∀ blanks, Blanks blanks →
      Spelled (.item bracket) (core ++ blanks))
    (ends : Ends bracket s) : ∃ items, Spelled (.items bracket) items ∧ core ++ s = items ++ [bracket.closing] := by
  obtain ⟨blanks, blank, rfl | ⟨gap, items, blankGap, spelled, rfl⟩⟩ := ends
  · exact ⟨core ++ blanks, .last bracket _ (item blanks blank), (List.append_assoc _ _ _).symm⟩
  · refine ⟨core ++ blanks ++ comma :: (gap ++ items),
      .more bracket _ gap items (item blanks blank) blankGap spelled, ?_⟩
    simp

section
variable (opened : List Bracket) (w : Walk)

theorem value_taken (s : Bytes) (steps : Walk.value opened s = .ok w) : ∃ blanks, Blanks blanks ∧
    ((∃ v, Spelled .value v ∧ w.opened = opened ∧ w.due = .afterValue ∧ s = blanks ++ (v ++ w.rest)) ∨
      ∃ bracket, w.opened = bracket :: opened ∧ w.due = .inside ∧ s = blanks ++ bracket.opening :: w.rest) := by
  have done : ∀ {α : Type} (x : Except Error α) (left : α → Bytes) (whole : Bytes),
      x.map (fun taken => (⟨opened, .afterValue, left taken⟩ : Walk)) = .ok w →
      (∀ taken, x = .ok taken → ∃ v, Spelled .value v ∧ whole = v ++ left taken) →
      ∃ v, Spelled .value v ∧ w.opened = opened ∧ w.due = .afterValue ∧ whole = v ++ w.rest := by
    intro α x left whole mapped took
    obtain ⟨taken, read, rfl⟩ := map_ok _ _ _ mapped
    obtain ⟨v, spelled, written⟩ := took taken read
    exact ⟨v, spelled, rfl, rfl, written⟩
  have words : ∀ (first : UInt8) (others s : Bytes), Spelled .value (first :: others) →
      ∀ rest, word others s = .ok rest → ∃ v, Spelled .value v ∧ first :: s = v ++ rest :=
    fun first others s spelled rest read =>
      ⟨first :: others, spelled, congrArg (first :: ·) (word_taken others s rest read)⟩
  rw [Walk.value] at steps
  split at steps
  · cases steps
  next b s₁ skipped =>
  obtain ⟨blanks, blank, rfl, _⟩ := solid_taken s b s₁ skipped
  refine ⟨blanks, blank, ?_⟩
  simp only [List.append_cancel_left_eq]
  by_cases isNull : b = letterN
  · subst isNull
    exact Or.inl (done _ id _ steps (words letterN restOfNull s₁ .null))
  rw [if_neg isNull] at steps
  by_cases isTrue : b = letterT
  · subst isTrue
    exact Or.inl (done _ id _ steps (words letterT restOfTrue s₁ .true_))
  rw [if_neg isTrue] at steps
  by_cases isFalse : b = letterF
  · subst isFalse
    exact Or.inl (done _ id _ steps (words letterF restOfFalse s₁ .false_))
  rw [if_neg isFalse] at steps
  by_cases negative : b = minus
  · subst negative
    rw [if_pos rfl] at steps
    refine Or.inl (done _ Prod.snd _ steps fun taken scanned => ?_)
    obtain ⟨text, unsigned, rfl⟩ := numeral_taken _ s₁ taken.2 taken.1 scanned
    exact ⟨minus :: text, .numeral _ (Or.inr ⟨text, unsigned, rfl⟩), rfl⟩
  rw [if_neg negative] at steps
  by_cases digit : isDigit b = true
  · rw [if_pos digit] at steps
    refine Or.inl (done _ Prod.snd _ steps fun taken scanned => ?_)
    obtain ⟨text, unsigned, written⟩ := numeral_taken _ (b :: s₁) taken.2 taken.1 scanned
    exact ⟨text, .numeral _ (Or.inl unsigned), written⟩
  rw [if_neg digit] at steps
  by_cases quoted_ : b = quote
  · subst quoted_
    refine Or.inl (done _ id _ steps fun rest read => ?_)
    obtain ⟨key, content, rfl⟩ := skip_taken s₁ rest read
    exact ⟨quote :: (key ++ [quote]), .string key content, by simp⟩
  rw [if_neg quoted_] at steps
  by_cases list : b = openBracket
  · subst list
    cases steps
    exact Or.inr ⟨.list, rfl, rfl, rfl⟩
  rw [if_neg list] at steps
  by_cases object : b = openBrace
  · subst object
    cases steps
    exact Or.inr ⟨.object, rfl, rfl, rfl⟩
  · rw [if_neg object] at steps
    cases steps

end

-- Between brackets only where one is open.
def Walk.Placed (w : Walk) : Prop := w.due = .inside ∨ w.due = .item → w.opened ≠ []

-- More than the steps that are left: each byte allows for four, and a place for those before the next byte.
def Walk.potential (w : Walk) : Nat :=
  4 * w.rest.length + match w.due with
    | .afterValue => 0
    | .value => 1
    | .item => 2
    | .inside => 3

-- One step back.
structure Walk.Leads (w after : Walk) : Prop where
  placed : after.Placed
  potential : after.potential < w.potential
  owes : ∀ s rest, after.rest = s ++ rest → Owes after.opened after.due s → ∃ whole, w.rest = whole ++ rest ∧
    Owes w.opened w.due whole

theorem spelled_length (part : Part) (s : Bytes) (spelled : Spelled part s) : 0 < s.length := by
  obtain ⟨b, rest, rfl, _⟩ := spelled_opens part s spelled
  exact Nat.succ_pos _

theorem value_leads (opened : List Bracket) (s : Bytes) (after : Walk) (steps : Walk.value opened s = .ok after) :
    Walk.Leads ⟨opened, .value, s⟩ after := by
  obtain ⟨blanks, blank, ⟨v, spelled, same, place, rfl⟩ | ⟨bracket, same, place, rfl⟩⟩ :=
    value_taken opened after s steps
  · have long := spelled_length _ v spelled
    refine ⟨fun inside => by rw [place] at inside; simp at inside, ?_, ?_⟩
    · simp only [Walk.potential, place, List.length_append]
      omega
    · intro tail rest written owes
      rw [place, same] at owes
      exact ⟨blanks ++ (v ++ tail), by simp [written], blanks, v, tail, blank, spelled, owes, rfl⟩
  · refine ⟨fun _ => by rw [same]; exact List.cons_ne_nil _ _, ?_, ?_⟩
    · simp only [Walk.potential, place, List.length_append, List.length_cons]
      omega
    · intro tail rest written owes
      rw [place, same] at owes
      obtain ⟨_, _, gap, left, opens, blankGap, closes, inside⟩ := owes
      cases opens
      rcases inside with rfl | ⟨items, spelledItems, rfl⟩
      · refine ⟨blanks ++ (bracket.opening :: (gap ++ [bracket.closing]) ++ left), by simp [written], blanks, _, left,
          blank, ?_, closes, rfl⟩
        exact .empty bracket gap blankGap
      · refine ⟨blanks ++ (bracket.opening :: (gap ++ items ++ [bracket.closing]) ++ left), by simp [written], blanks,
          _, left, blank, ?_,
          closes, rfl⟩
        exact .full bracket gap items blankGap spelledItems

theorem item_leads (bracket : Bracket) (outer : List Bracket) (s : Bytes) (after : Walk)
    (steps : Walk.item (bracket :: outer) s = .ok after) : Walk.Leads ⟨bracket :: outer, .item, s⟩ after := by
  have goes : ∀ (core v tail rest blanks : Bytes), Blanks blanks → Closes (bracket :: outer) tail →
      (∀ gap, Blanks gap → Spelled (.item bracket) (core ++ v ++ gap)) → s = blanks ++ (core ++ v ++ tail) ++ rest →
      ∃ whole, s = whole ++ rest ∧ Owes (bracket :: outer) .item whole := by
    intro core v tail rest blanks blank closes item written
    cases closes with
    | cons _ _ ending left ends closes =>
        obtain ⟨items, spelled, same⟩ := ends_items bracket (core ++ v) ending item ends
        refine ⟨blanks ++ (items ++ bracket.closing :: left), ?_, bracket, outer, blanks, items, left, rfl, blank,
          closes, spelled, rfl⟩
        have joined : core ++ v ++ (ending ++ left) = items ++ [bracket.closing] ++ left := by
          rw [← same, List.append_assoc, List.append_assoc, List.append_assoc]
        rw [written, joined]
        simp
  cases bracket with
  | list =>
      cases steps
      refine ⟨fun inside => by simp at inside, by simp only [Walk.potential]; omega, ?_⟩
      intro tail rest written owes
      obtain ⟨blanks, v, left, blank, spelled, closes, rfl⟩ := owes
      exact goes [] v left rest blanks blank closes (fun gap blankGap => .element v gap spelled blankGap)
        (by simpa using written)
  | object =>
      rw [Walk.item] at steps
      split at steps
      · cases steps
      next b s₁ skipped =>
      obtain ⟨blanks, blank, rfl, _⟩ := solid_taken s b s₁ skipped
      split at steps
      · next quoted_ =>
        subst quoted_
        obtain ⟨s₂, skips, steps⟩ := bind_ok _ _ _ steps
        obtain ⟨s₃, marks, steps⟩ := bind_ok _ _ _ steps
        cases steps
        obtain ⟨key, content, rfl⟩ := skip_taken s₁ s₂ skips
        obtain ⟨between, blankBetween, rfl⟩ := colon_taken s₂ s₃ marks
        refine ⟨fun inside => by simp at inside, ?_, ?_⟩
        · simp only [Walk.potential, List.length_append, List.length_cons]
          omega
        · intro tail rest written owes
          dsimp only at written
          obtain ⟨gap, v, left, blankGap, spelled, closes, rfl⟩ := owes
          refine goes (quote :: (key ++ quote :: (between ++ colon :: gap))) v left rest blanks blank closes ?_
            (by simp [written])
          intro last blankLast
          have member := Spelled.member key between gap v last content blankBetween blankGap spelled blankLast
          simpa using member
      · cases steps

theorem inside_leads (bracket : Bracket) (outer : List Bracket) (s : Bytes) (after : Walk)
    (steps : Walk.step ⟨bracket :: outer, .inside, s⟩ = .ok (some after)) :
    Walk.Leads ⟨bracket :: outer, .inside, s⟩ after := by
  simp only [Walk.step] at steps
  split at steps
  · cases steps
  next b s₁ skipped =>
  obtain ⟨blanks, blank, rfl, _⟩ := solid_taken s b s₁ skipped
  split at steps
  · next closing =>
    subst closing
    cases steps
    refine ⟨fun inside => by simp at inside, ?_, ?_⟩
    · simp only [Walk.potential, List.length_append, List.length_cons]
      omega
    · intro tail rest written owes
      dsimp only at written
      exact ⟨blanks ++ bracket.closing :: tail, by simp [written], bracket, outer, blanks, tail, rfl, blank,
        owes, Or.inl rfl⟩
  · cases steps
    refine ⟨fun _ => List.cons_ne_nil _ _, ?_, ?_⟩
    · simp only [Walk.potential, List.length_append, List.length_cons]
      omega
    · intro tail rest written owes
      dsimp only at written
      obtain ⟨_, _, gap, items, left, opens, blankGap, closes, spelled, rfl⟩ := owes
      cases opens
      refine ⟨blanks ++ gap ++ (items ++ bracket.closing :: left), by simp [written], bracket, outer,
        blanks ++ gap, left, rfl,
        blanks_append blanks gap blank blankGap, closes, Or.inr ⟨items, spelled, rfl⟩⟩

theorem after_leads (bracket : Bracket) (outer : List Bracket) (s : Bytes) (after : Walk)
    (steps : Walk.step ⟨bracket :: outer, .afterValue, s⟩ = .ok (some after)) :
    Walk.Leads ⟨bracket :: outer, .afterValue, s⟩ after := by
  simp only [Walk.step] at steps
  split at steps
  · cases steps
  next b s₁ skipped =>
  obtain ⟨blanks, blank, rfl, _⟩ := solid_taken s b s₁ skipped
  split at steps
  · next goesOn =>
    subst goesOn
    cases steps
    refine ⟨fun _ => List.cons_ne_nil _ _, ?_, ?_⟩
    · simp only [Walk.potential, List.length_append, List.length_cons]
      omega
    · intro tail rest written owes
      dsimp only at written
      obtain ⟨_, _, gap, items, left, opens, blankGap, closes, spelled, rfl⟩ := owes
      cases opens
      refine ⟨blanks ++ comma :: (gap ++ items ++ [bracket.closing]) ++ left, by simp [written], ?_⟩
      exact .cons bracket outer _ left ⟨blanks, blank, Or.inr ⟨gap, items, blankGap, spelled, rfl⟩⟩ closes
  · split at steps
    · next closing =>
      subst closing
      cases steps
      refine ⟨fun inside => by simp at inside, ?_, ?_⟩
      · simp only [Walk.potential, List.length_append, List.length_cons]
        omega
      · intro tail rest written owes
        dsimp only at written
        refine ⟨blanks ++ [bracket.closing] ++ tail, by simp [written], ?_⟩
        exact .cons bracket outer _ tail ⟨blanks, blank, Or.inl rfl⟩ owes
    · cases steps

theorem step_leads (w after : Walk) (placed : w.Placed) (steps : w.step = .ok (some after)) : w.Leads after := by
  obtain ⟨opened, due, s⟩ := w
  cases due with
  | value =>
      obtain ⟨taken, made, same⟩ := map_ok _ _ _ steps
      cases same
      exact value_leads opened s after made
  | item =>
      obtain ⟨taken, made, same⟩ := map_ok _ _ _ steps
      cases same
      cases opened with
      | nil => exact absurd rfl (placed (Or.inr rfl))
      | cons bracket outer => exact item_leads bracket outer s after made
  | inside =>
      cases opened with
      | nil => exact absurd rfl (placed (Or.inl rfl))
      | cons bracket outer => exact inside_leads bracket outer s after steps
  | afterValue =>
      cases opened with
      | nil => cases steps
      | cons bracket outer => exact after_leads bracket outer s after steps

theorem step_ends (w : Walk) (placed : w.Placed) (ends : w.step = .ok none) : w.opened = [] ∧ w.due = .afterValue := by
  obtain ⟨opened, due, s⟩ := w
  cases due with
  | value | item =>
      obtain ⟨taken, _, same⟩ := map_ok _ _ _ ends
      cases same
  | inside =>
      cases opened with
      | nil => exact absurd rfl (placed (Or.inl rfl))
      | cons bracket outer =>
          simp only [Walk.step] at ends
          split at ends
          · cases ends
          · split at ends <;> cases ends
  | afterValue =>
      cases opened with
      | nil => exact ⟨rfl, rfl⟩
      | cons bracket outer =>
          simp only [Walk.step] at ends
          split at ends
          · cases ends
          · split at ends
            · cases ends
            · split at ends <;> cases ends

theorem run_taken (fuel : Nat) (w : Walk) (rest : Bytes) (placed : w.Placed) (enough : w.potential < fuel)
    (runs : w.run fuel = .ok rest) :
    ∃ s, w.rest = s ++ rest ∧ Owes w.opened w.due s := by
  induction fuel generalizing w with
  | zero => cases enough
  | succ fuel ih =>
      obtain ⟨next, steps, runs⟩ := bind_ok _ _ _ runs
      cases next with
      | none =>
          obtain ⟨closed, place⟩ := step_ends w placed steps
          cases runs
          rw [closed, place]
          exact ⟨[], rfl, .nil⟩
      | some after =>
          have leads := step_leads w after placed steps
          obtain ⟨s, written, owes⟩ :=
            ih after leads.placed (Nat.lt_of_lt_of_le leads.potential (Nat.le_of_lt_succ enough)) runs
          exact leads.owes s rest written owes

theorem value_skipped (s rest : Bytes) (skips : skipValue s = .ok rest) :
    ∃ blanks v, Blanks blanks ∧ Spelled .value v ∧ s = blanks ++ (v ++ rest) := by
  obtain ⟨whole, written, blanks, v, left, blank, spelled, closes, rfl⟩ :=
    run_taken (4 * s.length + 4) ⟨[], .value, s⟩ rest (fun inside => by simp at inside)
      (by simp only [Walk.potential]; omega) skips
  cases closes
  rw [List.append_nil] at written
  exact ⟨blanks, v, blank, spelled, by rw [← List.append_assoc]; exact written⟩

end DevTools.Json
