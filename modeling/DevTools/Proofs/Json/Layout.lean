import DevTools.Proofs.Json.Walk

set_option autoImplicit false

namespace DevTools.Json

open Ascii

-- What stands before a part: blanks, and a comma unless the part is the first.
inductive Lead : (first : Bool) → Bytes → Prop where
  | first (blanks : Bytes) (blank : Blanks blanks) : Lead true blanks
  | later (before after : Bytes) (blankBefore : Blanks before) (blankAfter : Blanks after) :
      Lead false (before ++ comma :: after)

section
variable {ι : Type} (bracket : Bracket) (laid : ι → Bytes → Prop)

-- The parts that are left, down to the closing bracket.
inductive Parts : (first : Bool) → List ι → Bytes → Prop where
  | close (first : Bool) (blanks : Bytes) (blank : Blanks blanks) : Parts first [] (blanks ++ [bracket.closing])
  | next (first : Bool) (i : ι) (parts : List ι) (lead s rest : Bytes) (leads : Lead first lead) (part : laid i s)
      (others : Parts false parts rest) : Parts first (i :: parts) (lead ++ (s ++ rest))

-- Parts that are told apart by what they begin with and where they end.
structure Sharp : Prop where
  opens : ∀ i s, laid i s → Opens s
  unique : ∀ i j s t rest left, laid i s → laid j t → Stops rest → Stops left → s ++ rest = t ++ left →
    i = j ∧ rest = left
  item : ∀ i s blanks, laid i s → Blanks blanks → Spelled (.item bracket) (s ++ blanks)

end

theorem closing_solid (bracket : Bracket) : isBlank bracket.closing = false ∧ bracket.closing ≠ comma := by
  cases bracket <;> decide

theorem solid_unique (one other s t : Bytes) (b d : UInt8) (blankOne : Blanks one) (blankOther : Blanks other)
    (solid : isBlank b = false) (firm : isBlank d = false) (same : one ++ b :: s = other ++ d :: t) :
    b = d ∧ s = t := by
  have skipped := congrArg skipBlanks same
  rw [skip_blanks one _ blankOne, skip_blanks other _ blankOther, skip_nothing b s solid,
    skip_nothing d t firm] at skipped
  exact List.cons.inj skipped

theorem opens_unique (one other s t : Bytes) (blankOne : Blanks one) (blankOther : Blanks other) (opens : Opens s)
    (begins : Opens t)
    (same : one ++ s = other ++ t) : s = t := by
  obtain ⟨b, s, rfl, solid, _⟩ := opens
  obtain ⟨d, t, rfl, firm, _⟩ := begins
  obtain ⟨rfl, rfl⟩ := solid_unique one other s t b d blankOne blankOther solid firm same
  rfl

theorem lead_unique (first : Bool) (one other s t : Bytes) (leads : Lead first one) (goes : Lead first other)
    (opens : Opens s)
    (begins : Opens t) (same : one ++ s = other ++ t) : s = t := by
  cases leads with
  | first _ blank =>
      cases goes with
      | first _ gap => exact opens_unique one other s t blank gap opens begins same
  | later before after blankBefore blankAfter =>
      cases goes with
      | later gap more blankGap blankMore =>
          simp only [List.append_assoc, List.cons_append] at same
          obtain ⟨_, tail⟩ := solid_unique before gap _ _ comma comma blankBefore blankGap rfl rfl same
          exact opens_unique after more s t blankAfter blankMore opens begins tail

theorem lead_goes_on (bracket : Bracket) (first : Bool) (lead s blanks rest : Bytes) (leads : Lead first lead)
    (opens : Opens s)
    (blank : Blanks blanks) : lead ++ s ≠ blanks ++ bracket.closing :: rest := by
  obtain ⟨solid, different⟩ := closing_solid bracket
  intro same
  cases leads with
  | first _ gap =>
      obtain ⟨b, s, rfl, firm, list, object⟩ := opens
      have closes := (solid_unique lead blanks s rest b _ gap blank firm solid same).1
      cases bracket with
      | list => exact list closes
      | object => exact object closes
  | later before after blankBefore =>
      rw [List.append_assoc, List.cons_append] at same
      exact different (solid_unique before blanks _ rest comma _ blankBefore blank rfl solid same).1.symm

section
variable {ι : Type} {bracket : Bracket} {laid : ι → Bytes → Prop}

theorem parts_stops (parts : List ι) (s rest : Bytes) (others : Parts bracket laid false parts s) :
    Stops (s ++ rest) := by
  cases others with
  | close _ blanks blank =>
      rw [List.append_assoc]
      exact bracket_stops bracket blanks rest blank bracket.closing (Or.inr rfl)
  | next _ i parts lead s others leads =>
      cases leads with
      | later before after blankBefore =>
          simp only [List.append_assoc, List.cons_append]
          exact bracket_stops bracket before _ blankBefore comma (Or.inl rfl)

theorem parts_length (sharp : Sharp bracket laid) (first : Bool) (parts : List ι) (s : Bytes)
    (layout : Parts bracket laid first parts s) :
    parts.length < s.length := by
  induction layout with
  | close first blanks =>
      rw [List.length_append]
      exact Nat.lt_add_left _ (Nat.succ_pos 0)
  | next first i parts lead s rest leads part others ih =>
      obtain ⟨b, _, rfl, _⟩ := sharp.opens i s part
      simp only [List.length_append, List.length_cons]
      omega

theorem parts_within (first : Bool) (parts : List ι) (s : Bytes) (layout : Parts bracket laid first parts s) (i : ι)
    (member : i ∈ parts) :
    ∃ t, laid i t ∧ t <:+: s := by
  induction layout with
  | close => exact absurd member List.not_mem_nil
  | next first j parts lead t rest leads part others ih =>
      rcases List.mem_cons.mp member with rfl | member
      · exact ⟨t, part, lead, rest, List.append_assoc _ _ _⟩
      · obtain ⟨u, laid, inside⟩ := ih member
        exact ⟨u, laid, inside.trans (List.IsSuffix.isInfix ⟨lead ++ t, List.append_assoc _ _ _⟩)⟩

theorem parts_unique (sharp : Sharp bracket laid) (first : Bool) (parts more : List ι) (s t rest left : Bytes)
    (one : Parts bracket laid first parts s) (other : Parts bracket laid first more t) (same : s ++ rest = t ++ left) :
    parts = more ∧ rest = left := by
  obtain ⟨solid, _⟩ := closing_solid bracket
  induction one generalizing more t with
  | close first blanks blank =>
      cases other with
      | close _ gap blankGap =>
          rw [List.append_assoc, List.append_assoc] at same
          exact ⟨rfl, (solid_unique blanks gap rest left _ _ blank blankGap solid solid same).2⟩
      | next _ j more lead t t' leads part others =>
          simp only [List.append_assoc, List.singleton_append] at same
          exact absurd same.symm (lead_goes_on bracket first lead _ blanks rest leads
            (opens_append t _ (sharp.opens j t part)) blank)
  | next first i parts lead s s' leads part others ih =>
      cases other with
      | close _ gap blankGap =>
          simp only [List.append_assoc, List.singleton_append] at same
          exact absurd same
            (lead_goes_on bracket first lead _ gap left leads (opens_append s _ (sharp.opens i s part)) blankGap)
      | next _ j more lead' t t' leads' part' others' =>
          simp only [List.append_assoc] at same
          have begins :=
            lead_unique first lead lead' _ _ leads leads' (opens_append s (s' ++ rest) (sharp.opens i s part))
            (opens_append t (t' ++ left) (sharp.opens j t part')) same
          obtain ⟨rfl, tail⟩ := sharp.unique i j s t _ _ part part' (parts_stops parts s' rest others)
            (parts_stops more t' left others') begins
          obtain ⟨rfl, done⟩ := ih more t' others' tail
          exact ⟨rfl, done⟩

theorem parts_ends (sharp : Sharp bracket laid) (first : Bool) (parts : List ι) (s : Bytes)
    (others : Parts bracket laid first parts s)
    (later : first = false) : Ends bracket s := by
  induction others with
  | close _ blanks blank => exact ⟨blanks, blank, Or.inl rfl⟩
  | next _ i parts lead s rest leads part others ih =>
      cases leads with
      | first => cases later
      | later before after blankBefore blankAfter =>
          obtain ⟨items, spelled, same⟩ :=
            ends_items bracket s rest (fun blanks blank => sharp.item i s blanks part blank) (ih rfl)
          exact ⟨before, blankBefore, Or.inr ⟨after, items, blankAfter, spelled, by simp [same]⟩⟩

theorem parts_spelled (sharp : Sharp bracket laid) (parts : List ι) (inside : Bytes)
    (layout : Parts bracket laid true parts inside) :
    Spelled .value (bracket.opening :: inside) := by
  cases layout with
  | close _ blanks blank => exact .empty bracket blanks blank
  | next _ i parts lead s rest leads part others =>
      obtain ⟨items, spelled, same⟩ := ends_items bracket s rest (fun blanks blank => sharp.item i s blanks part blank)
        (parts_ends sharp false parts rest others rfl)
      cases leads with
      | first _ blank =>
          rw [same, ← List.append_assoc]
          exact .full bracket lead items blank spelled

end

def Alone (text s : Bytes) : Prop := s = text ∧ Spelled .value text

structure Member where
  key : Bytes
  text : Bytes

def Member.Laid (m : Member) (s : Bytes) : Prop :=
  Content m.key ∧ Spelled .value m.text ∧ ∃ between gap, Blanks between ∧ Blanks gap ∧
    s = quote :: (m.key ++ quote :: (between ++ colon :: (gap ++ m.text)))

theorem member_within (m : Member) (s : Bytes) (laid : m.Laid s) : m.key.length < s.length ∧ m.text <:+: s := by
  obtain ⟨_, _, between, gap, _, _, rfl⟩ := laid
  constructor
  · simp only [List.length_cons, List.length_append]
    omega
  · exact List.IsSuffix.isInfix ⟨quote :: (m.key ++ quote :: (between ++ colon :: gap)), by simp⟩

theorem content_unique (key other rest left : Bytes) (one : Content key) (another : Content other)
    (same : key ++ quote :: rest = other ++ quote :: left) : key = other ∧ rest = left := by
  have tail : rest = left := by
    have skipped := skip_content key rest one
    rw [same, skip_content other left another] at skipped
    exact (Except.ok.inj skipped).symm
  subst tail
  exact ⟨List.append_cancel_right same, rfl⟩

theorem value_unique (blanks gap text other rest left : Bytes) (blank : Blanks blanks) (blankGap : Blanks gap)
    (one : Spelled .value text)
    (another : Spelled .value other) (stops : Stops rest) (ends : Stops left)
    (same : blanks ++ (text ++ rest) = gap ++ (other ++ left)) : text = other ∧ rest = left := by
  have tail : rest = left := by
    have skipped := skip_value blanks text rest blank one stops
    rw [same, skip_value gap other left blankGap another ends] at skipped
    exact (Except.ok.inj skipped).symm
  subst tail
  have begins := opens_unique blanks gap _ _ blank blankGap (opens_append text rest (spelled_opens _ text one))
    (opens_append other rest (spelled_opens _ other another)) same
  exact ⟨List.append_cancel_right begins, rfl⟩

theorem alone_sharp : Sharp .list Alone where
  opens := by
    rintro text _ ⟨rfl, spelled⟩
    exact spelled_opens _ _ spelled
  unique := by
    rintro text other _ _ rest left ⟨rfl, one⟩ ⟨rfl, another⟩ stops ends same
    exact value_unique [] [] _ _ rest left blanks_nil blanks_nil one another stops ends same
  item := by
    rintro text _ blanks ⟨rfl, spelled⟩ blank
    exact .element _ blanks spelled blank

theorem member_sharp : Sharp .object Member.Laid where
  opens := by
    rintro m _ ⟨_, _, between, gap, _, _, rfl⟩
    exact ⟨quote, _, rfl, by decide⟩
  unique := by
    rintro ⟨key, text⟩ ⟨other, value⟩ _ _ rest left ⟨content, spelled, between, gap, blankBetween, blankGap, rfl⟩
      ⟨content', spelled', between', gap', blankBetween', blankGap', rfl⟩ stops ends same
    simp only [List.append_assoc, List.cons_append, List.cons.injEq, true_and] at same
    obtain ⟨rfl, after⟩ := content_unique key other _ _ content content' same
    obtain ⟨_, value_⟩ := solid_unique between between' _ _ colon colon blankBetween blankBetween' rfl rfl after
    obtain ⟨rfl, tail⟩ :=
      value_unique gap gap' text value rest left blankGap blankGap' spelled spelled' stops ends value_
    exact ⟨rfl, tail⟩
  item := by
    rintro m _ blanks ⟨content, spelled, between, gap, blankBetween, blankGap, rfl⟩ blank
    have item := Spelled.member m.key between gap m.text blanks content blankBetween blankGap spelled blank
    simpa using item

end DevTools.Json
