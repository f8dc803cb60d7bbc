import DevTools.Proofs.Json.Meaning

set_option autoImplicit false

namespace DevTools.Json

open Ascii

-- A key that says what another one says.
def Respells (key other : Bytes) : Prop := ∀ name, Named key name → Named other name

inductive Respaced : Bytes → Bytes → Prop where
  | refl (text : Bytes) : Respaced text text
  | list (pairs : List (Bytes × Bytes)) (s t : Bytes) (one : Parts .list Alone true (pairs.map Prod.fst) s)
      (other : Parts .list Alone true (pairs.map Prod.snd) t) (each : ∀ p ∈ pairs, Respaced p.1 p.2) :
      Respaced (openBracket :: s) (openBracket :: t)
  | object (pairs : List (Member × Member)) (s t : Bytes) (one : Parts .object Member.Laid true (pairs.map Prod.fst) s)
      (other : Parts .object Member.Laid true (pairs.map Prod.snd) t) (respells : ∀ p ∈ pairs, Respells p.1.key p.2.key)
      (each : ∀ p ∈ pairs, Respaced p.1.text p.2.text) : Respaced (openBrace :: s) (openBrace :: t)

theorem respaced_spelled (text other : Bytes) (spelled : Spelled .value text) (respaced : Respaced text other) :
    Spelled .value other := by
  cases respaced with
  | refl => exact spelled
  | list pairs s t _ layout => exact parts_spelled alone_sharp _ t layout
  | object pairs s t _ layout => exact parts_spelled member_sharp _ t layout

theorem side_by_side {α β γ : Type} (f : α → γ) (g : β → γ) (xs : List α) (ys : List β) (same : xs.map f = ys.map g) :
    ∃ zs : List (α × β), zs.map Prod.fst = xs ∧ zs.map Prod.snd = ys ∧ ∀ z ∈ zs, f z.1 = g z.2 := by
  induction xs generalizing ys with
  | nil =>
      cases ys with
      | nil => exact ⟨[], rfl, rfl, fun _ member => absurd member List.not_mem_nil⟩
      | cons y ys => cases same
  | cons x xs ih =>
      cases ys with
      | nil => cases same
      | cons y ys =>
          obtain ⟨one, others⟩ := List.cons.inj same
          obtain ⟨zs, rfl, rfl, marks⟩ := ih ys others
          refine ⟨(x, y) :: zs, rfl, rfl, ?_⟩
          intro z member
          rcases List.mem_cons.mp member with rfl | member
          · exact one
          · exact marks z member

theorem means_list (depth : Nat) (inside : Bytes) (v : Json) (means : Means depth (openBracket :: inside) v) :
    ∃ (d : Nat) (parts : List (Bytes × Json)), depth = d + 1 ∧ Parts .list Alone true (parts.map Prod.fst) inside ∧
      (∀ p ∈ parts, Means d p.1 p.2) ∧ v = .array (parts.map Prod.snd) := by
  generalize written : openBracket :: inside = text at means
  cases means with
  | null | true_ | false_ | object | embedding => cases written
  | number _ _ n numeral =>
      obtain ⟨b, rest, same, first, _⟩ := numeral_head text numeral
      rw [← written] at same
      exact absurd (List.cons.inj same).1.symm (head_other b openBracket first (by decide))
  | string _ _ content quoted =>
      obtain ⟨key, _, same⟩ := quoted
      rw [← written] at same
      cases same
  | list d parts inside layout means =>
      cases written
      exact ⟨d, parts, rfl, layout, means, rfl⟩

theorem means_object (depth : Nat) (inside : Bytes) (v : Json) (means : Means depth (openBrace :: inside) v) :
    ∃ d, depth = d + 1 ∧
      ((∃ entries : List Entry, Parts .object Member.Laid true (entries.map Entry.member) inside ∧
        (∀ e ∈ entries, Named e.member.key e.name) ∧ ¬ Marked (entries.map Entry.member) ∧
        (∀ e ∈ entries, Means d e.member.text e.value) ∧ v = .object (gathered [] entries)) ∨
      ∃ m content, Parts .object Member.Laid true [m] inside ∧ Named m.key embeddingName ∧ Quoted m.text content ∧
        Tells (Utf8.encode content) v) := by
  generalize written : openBrace :: inside = text at means
  cases means with
  | null | true_ | false_ | list => cases written
  | number _ _ n numeral =>
      obtain ⟨b, rest, same, first, _⟩ := numeral_head text numeral
      rw [← written] at same
      exact absurd (List.cons.inj same).1.symm (head_other b openBrace first (by decide))
  | string _ _ content quoted =>
      obtain ⟨key, _, same⟩ := quoted
      rw [← written] at same
      cases same
  | object d entries inside layout named unmarked means =>
      cases written
      exact ⟨d, rfl, Or.inl ⟨entries, layout, named, unmarked, means, rfl⟩⟩
  | embedding d m inside content front text back _ layout named quoted blankFront blankBack held means =>
      cases written
      exact ⟨d, rfl, Or.inr ⟨m, content, layout, named, quoted, front, text, back, blankFront, blankBack, means, held⟩⟩

theorem quoted_respaced (text other : Bytes) (content : String) (quoted : Quoted text content)
    (respaced : Respaced text other) :
    other = text := by
  obtain ⟨key, _, rfl⟩ := quoted
  cases respaced with
  | refl => rfl

theorem means_respaced (depth : Nat) (text other : Bytes) (v : Json) (means : Means depth text v)
    (respaced : Respaced text other) :
    Means depth other v := by
  induction respaced generalizing depth v with
  | refl => exact means
  | list pairs s t one another _ ih =>
      obtain ⟨d, parts, rfl, layout, each, rfl⟩ := means_list depth s v means
      obtain ⟨same, _⟩ := parts_unique alone_sharp true _ _ s s [] [] layout one rfl
      obtain ⟨zs, rfl, rfl, marks⟩ := side_by_side Prod.fst Prod.fst parts pairs same
      have whole := Means.list d (zs.map fun z => (z.2.2, z.1.2)) t
      simp only [List.map_map, Function.comp_def, List.forall_mem_map] at whole another each ih ⊢
      refine whole another ?_
      intro z member
      have inner := each z member
      rw [marks z member] at inner
      exact ih z member d _ inner
  | object pairs s t one another respells each ih =>
      obtain ⟨d, rfl, ⟨entries, layout, named, unmarked, meant, rfl⟩ | ⟨m, content, layout, named, quoted, front, text,
        back, blankFront,
        blankBack, meant, held⟩⟩ := means_object depth s v means
      · obtain ⟨same, _⟩ := parts_unique member_sharp true _ _ s s [] [] layout one rfl
        obtain ⟨zs, rfl, rfl, marks⟩ := side_by_side Entry.member Prod.fst entries pairs same
        have whole := Means.object d (zs.map fun z => ⟨z.2.2, z.1.name, z.1.value⟩) t
        simp only [List.map_map, Function.comp_def, List.forall_mem_map, gathered, List.foldl_map]
          at whole another meant named respells ih ⊢
        refine whole another ?_ ?_ ?_
        · intro z member
          exact respells z member z.1.name (marks z member ▸ named z member)
        · rintro ⟨other, first, marked⟩
          cases zs with
          | nil => cases first
          | cons z zs =>
              cases first
              have known := named z List.mem_cons_self
              have speaks := respells z List.mem_cons_self z.1.name (marks z List.mem_cons_self ▸ known)
              rw [named_unique _ _ _ speaks marked] at known
              exact unmarked ⟨z.1.member, rfl, known⟩
        · intro z member
          exact ih z member d _ (marks z member ▸ meant z member)
      · obtain ⟨same, _⟩ := parts_unique member_sharp true _ _ s s [] [] layout one rfl
        obtain ⟨⟨inner, other⟩, rfl⟩ : ∃ pair, pairs = [pair] := List.map_eq_singleton_iff.mp same.symm |>.imp
          fun _ both => both.1
        cases same
        have text_ := quoted_respaced inner.text other.text content quoted (each (inner, other) List.mem_cons_self)
        exact .embedding d other t content front text back v another
          (respells (inner, other) List.mem_cons_self _ named) (text_ ▸ quoted)
          blankFront blankBack held meant

-- A reader to which a text and the same text respaced are one.
def Blind {α : Type} (read : Bytes → Except Error (α × Bytes)) : Prop :=
  ∀ text other x, Reads read text x → Respaced text other → Reads read other x

theorem blind_of {α : Type} {read : Bytes → Except Error (α × Bytes)}
    (values : ∀ text other x, Spelled .value text → Reads read text x → Respaced text other → Reads read other x) :
    Blind read := by
  intro text other x reads respaced
  cases respaced with
  | refl => exact reads
  | list pairs s t one another each =>
      exact values _ _ x (parts_spelled alone_sharp _ s one) reads (.list pairs s t one another each)
  | object pairs s t one another respells each =>
      exact values _ _ x (parts_spelled member_sharp _ s one) reads (.object pairs s t one another respells each)

@[simp]
theorem value_blind (depth : Nat) : Blind (readValue depth) := by
  refine blind_of fun text other v spelled reads respaced => ?_
  have means := reads_speaks (Means depth) (value_takes depth) text v spelled reads
  exact means_reads depth other v (means_respaced depth text other v means respaced)

theorem token_blind {α : Type} {read : Bytes → Except Error (α × Bytes)} (speaks : Bytes → α → Prop)
    (takes : Takes read speaks)
    (token : ∀ text x, speaks text x → ∀ other, Respaced text other → other = text) : Blind read := by
  refine blind_of fun text other x spelled reads respaced => ?_
  rw [token text x (reads_speaks speaks takes text x spelled reads) other respaced]
  exact reads

@[simp]
theorem text_blind (depth : Nat) : Blind (readText depth) :=
  token_blind Quoted (string_takes "a string") fun text content quoted other =>
    quoted_respaced text other content quoted

theorem integer_blind (kind : IntegerKind) (depth : Nat) : Blind (readInteger kind depth) := by
  refine token_blind (Integral kind) (integer_takes kind depth) ?_
  rintro text value ⟨numeral, _⟩ other respaced
  obtain ⟨b, rest, rfl, first, _⟩ := numeral_head text numeral
  cases respaced with
  | refl => rfl
  | list => exact absurd rfl (head_other _ openBracket first (by decide))
  | object => exact absurd rfl (head_other _ openBrace first (by decide))

section
variable {α : Type}

theorem map_blind {β : Type} {read : Bytes → Except Error (α × Bytes)} (f : α → β) (regular : Regular read)
    (blind : Blind read) :
    Blind fun s => (read s).map fun (x, rest) => (f x, rest) := by
  intro text other y reads respaced
  obtain ⟨⟨x, rest⟩, read_, same⟩ := map_ok _ _ _ (reads [] [] blanks_nil stops_nil)
  cases same
  have one := regular_reads regular text [] x stops_nil read_
  exact map_reads f other x (blind text other x one respaced)

theorem null_respaced (other : Bytes) (respaced : Respaced nullText other) : other = nullText := by
  generalize written : nullText = text at respaced
  cases respaced with
  | refl => rfl
  | list | object => cases written

theorem respaced_present (text other : Bytes) (respaced : Respaced text other) (present : text ≠ nullText) :
    other ≠ nullText := by
  cases respaced with
  | refl => exact present
  | list | object => exact fun same => nomatch same

@[simp]
theorem optional_blind {read : Nat → Bytes → Except Error (α × Bytes)} {depth : Nat} (regular : Regular (read depth))
    (blind : Blind (read depth)) : Blind (readOptional read depth) := by
  refine blind_of fun text other value spelled reads respaced => ?_
  have speaks := reads_speaks _ (optional_takes _ regular) text value spelled reads
  cases value with
  | none =>
      cases speaks
      rw [null_respaced other respaced]
      exact null_reads
  | some x =>
      obtain ⟨present, one⟩ := speaks
      exact some_reads other x (respaced_spelled text other spelled respaced)
        (respaced_present text other respaced present)
        (blind text other x one respaced)

end

end DevTools.Json
