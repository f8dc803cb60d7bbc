import DevTools.Proofs.Json.Respacing

set_option autoImplicit false

namespace DevTools.Json

open Ascii

section
variable {α : Type}

-- A text that does the same to every record.
def Field.Adds (field : Field α) (depth : Nat) (text : Bytes) (put : α → α) : Prop :=
  ∀ a, Reads (field.read depth a) text (put a)

def Field.Regular (field : Field α) (depth : Nat) : Prop := ∀ a b s rest, Stops rest →
    field.read depth a s = .ok (b, rest) →
  ∃ blanks text put, Blanks blanks ∧ Spelled .value text ∧ field.Adds depth text put ∧ put a = b ∧
    s = blanks ++ (text ++ rest)

def Field.Blind (field : Field α) (depth : Nat) : Prop := ∀ text other put, field.Adds depth text put →
    Respaced text other →
  field.Adds depth other put

section
variable {β : Type} (name : String) (required : Bool) (read : Nat → Bytes → Except Error (β × Bytes)) (put : α → β →
  α) (depth : Nat)

@[simp]
theorem of_name : (Field.of name required read put).name = name := rfl

theorem of_adds (text : Bytes) (x : β) (reads : Reads (read depth) text x) :
    (Field.of name required read put).Adds depth text (put · x) :=
  fun a => map_reads (put a) text x reads

@[simp]
theorem of_regular (regular : Regular (read depth)) : (Field.of name required read put).Regular depth := by
  intro a b s rest stops taken
  obtain ⟨⟨x, left⟩, read_, same⟩ := map_ok _ _ _ taken
  cases same
  obtain ⟨blanks, text, blank, spelled, reads, written⟩ := regular s x rest stops read_
  exact ⟨blanks, text, (put · x), blank, spelled, of_adds name required read put depth text x reads, rfl, written⟩

@[simp]
theorem of_blind (regular : Regular (read depth)) (blind : Blind (read depth)) :
    (Field.of name required read put).Blind depth :=
  fun text other _ adds respaced a => map_blind (put a) regular blind text other _ (adds a) respaced

theorem adds_of (regular : Regular (read depth)) (text : Bytes) (change : α → α)
    (adds : (Field.of name required read put).Adds depth text change) (a : α) :
    ∃ x, Reads (read depth) text x ∧ change a = put a x := by
  obtain ⟨⟨x, left⟩, read_, same⟩ := map_ok _ _ _ (adds a [] [] blanks_nil stops_nil)
  obtain ⟨made, rfl⟩ := Prod.mk.inj same
  exact ⟨x, regular_reads regular text [] x stops_nil read_, made.symm⟩

end

end

namespace Record

variable {α : Type} (r : Record α) (depth : Nat)

def Enters (name : String) (p : Progress α) (text : Bytes) (q : Progress α) : Prop :=
  (r.field? name = none ∧ q = p) ∨
    ∃ field put, r.field? name = some field ∧ name ∉ p.seen ∧ field.Adds depth text put ∧
      q = ⟨name :: p.seen, put p.record⟩

def Gives (ms : List Member) (a : α) : Prop :=
  ∃ q, Chain (r.Enters depth) ⟨[], r.blank⟩ ms q ∧ r.missing? q.seen = none ∧ q.record = a

def Fielded : Prop := ∀ field ∈ r.fields, field.Regular depth

theorem field_mem (name : String) (field : Field α) (known : r.field? name = some field) :
    field ∈ r.fields ∧ field.name = name := by
  have named := List.find?_some known
  exact ⟨List.mem_of_find?_eq_some known, by simpa using named⟩

theorem member_enters (fielded : r.Fielded depth) : TakesMember (r.member depth) (r.Enters depth) := by
  intro name p s q rest stops taken
  rw [member] at taken
  split at taken
  · next unknown =>
    obtain ⟨s₁, marks, taken⟩ := bind_ok _ _ _ taken
    obtain ⟨s₂, skips, taken⟩ := bind_ok _ _ _ taken
    cases taken
    obtain ⟨between, blankBetween, rfl⟩ := colon_taken s s₁ marks
    obtain ⟨gap, text, blankGap, spelled, rfl⟩ := value_skipped s₁ rest skips
    exact ⟨between, gap, text, blankBetween, blankGap, spelled, Or.inl ⟨unknown, rfl⟩, rfl⟩
  · next field known =>
    split at taken
    · cases taken
    · next fresh =>
      obtain ⟨s₁, marks, taken⟩ := bind_ok _ _ _ taken
      obtain ⟨⟨b, s₂⟩, one, taken⟩ := bind_ok _ _ _ taken
      cases taken
      obtain ⟨between, blankBetween, rfl⟩ := colon_taken s s₁ marks
      obtain ⟨gap, text, put, blankGap, spelled, adds, rfl, rfl⟩ :=
        fielded field (r.field_mem name field known).1 p.record b s₁ rest stops one
      exact ⟨between, gap, text, blankBetween, blankGap, spelled,
        Or.inr ⟨field, put, known, by simpa using fresh, adds, rfl⟩, rfl⟩

theorem enters_member : ReadsMember (r.member depth) (r.Enters depth) := by
  intro name p text q enters between gap rest blankBetween blankGap spelled stops
  have marked := colon_mark between (gap ++ (text ++ rest)) blankBetween
  rcases enters with ⟨unknown, rfl⟩ | ⟨field, put, known, fresh, adds, rfl⟩
  · simp only [member, unknown, marked, skip_value gap text rest blankGap spelled stops, bind, Except.bind]
    rfl
  · have new : p.seen.contains name = false := by simpa using fresh
    simp only [member, known, new, Bool.false_eq_true, if_false, marked, adds p.record gap rest blankGap stops,
      bind, Except.bind]
    rfl

theorem members_give (fielded : r.Fielded depth) (s rest : Bytes) (a : α)
    (taken : r.readMembers depth s = .ok (a, rest)) :
    ∃ ms inside, Parts .object Member.Laid true ms inside ∧ r.Gives depth ms a ∧ s = inside ++ rest := by
  obtain ⟨⟨q, s₁⟩, folds, taken⟩ := bind_ok _ _ _ taken
  cases lacks : r.missing? q.seen with
  | some name =>
      simp only [lacks] at taken
      cases taken
  | none =>
      simp only [lacks] at taken
      cases taken
      obtain ⟨ms, inside, layout, chain, written⟩ :=
        members_taken (r.member_enters depth fielded) _ true _ q s rest folds
      exact ⟨ms, inside, layout, ⟨q, chain, lacks, rfl⟩, written⟩

theorem gives_members (ms : List Member) (inside rest : Bytes) (a : α)
    (layout : Parts .object Member.Laid true ms inside)
    (gives : r.Gives depth ms a) : r.readMembers depth (inside ++ rest) = .ok (a, rest) := by
  obtain ⟨q, chain, whole, rfl⟩ := gives
  have room : ms.length < (inside ++ rest).length + 1 := by
    have few := parts_length member_sharp true ms inside layout
    rw [List.length_append]
    omega
  rw [readMembers]
  simp only [members_read (r.enters_member depth) _ true _ q ms inside rest room layout chain, whole, bind, Except.bind]
  rfl

-- What the texts of a list make of a record, field by field. The last fields may be left out.
inductive Row : List (Field α) → List Bytes → α → α → Prop where
  | done (fields : List (Field α)) (a : α) (spare : ∀ field ∈ fields, field.required = false) : Row fields [] a a
  | next (field : Field α) (fields : List (Field α)) (text : Bytes) (texts : List Bytes) (put : α → α) (a b : α)
      (adds : field.Adds depth text put) (others : Row fields texts (put a) b) :
      Row (field :: fields) (text :: texts) a b

theorem list_closed (s rest : Bytes) (closes : closeList s = .ok rest) :
    ∃ blanks, Blanks blanks ∧ s = blanks ++ closeBracket :: rest := by
  rw [closeList] at closes
  split at closes
  · cases closes
  next b others skipped =>
  obtain ⟨blanks, blank, rfl, _⟩ := solid_taken s b others skipped
  split at closes
  · next same =>
    cases closes
    exact ⟨blanks, blank, by rw [same]⟩
  · split at closes
    · split at closes
      · split at closes <;> cases closes
      · cases closes
    · cases closes

theorem fields_spared (index : Nat) (fields : List (Field α)) (a b : α) (blanks left rest : Bytes)
    (blank : Blanks blanks)
    (taken : r.readFields depth index fields a (blanks ++ closeBracket :: left) = .ok (b, rest)) :
    (∀ field ∈ fields, field.required = false) ∧ b = a ∧ rest = left := by
  induction fields generalizing index with
  | nil =>
      obtain ⟨after, closes, taken⟩ := bind_ok _ _ _ taken
      rw [(item_close true blanks left blank).2] at closes
      cases closes
      cases taken
      exact ⟨fun _ member => absurd member List.not_mem_nil, rfl, rfl⟩
  | cons field fields ih =>
      obtain ⟨next, found, taken⟩ := bind_ok _ _ _ taken
      rw [(item_close (index == 0) blanks left blank).1] at found
      cases found
      dsimp only at taken
      split at taken
      · cases taken
      · next spare =>
        obtain ⟨others, rfl, rfl⟩ := ih (index + 1) taken
        refine ⟨?_, rfl, rfl⟩
        intro other member
        rcases List.mem_cons.mp member with rfl | member
        · exact eq_false_of_ne_true spare
        · exact others other member

theorem spared_fields (index : Nat) (fields : List (Field α)) (a : α) (blanks rest : Bytes) (blank : Blanks blanks)
    (spare : ∀ field ∈ fields, field.required = false) :
    r.readFields depth index fields a (blanks ++ closeBracket :: rest) = .ok (a, rest) := by
  induction fields generalizing index with
  | nil =>
      rw [readFields]
      simp only [(item_close true blanks rest blank).2, bind, Except.bind]
      rfl
  | cons field fields ih =>
      have more := ih (index + 1) fun other member => spare other (List.mem_cons_of_mem field member)
      rw [readFields]
      simp only [(item_close (index == 0) blanks rest blank).1, spare field List.mem_cons_self, Bool.false_eq_true,
        if_false, more, bind, Except.bind]

theorem fields_row (index : Nat) (fields : List (Field α)) (fielded : ∀ field ∈ fields, field.Regular depth) (a b : α)
    (s rest : Bytes)
    (taken : r.readFields depth index fields a s = .ok (b, rest)) :
    ∃ texts inside, Parts .list Alone (index == 0) texts inside ∧ Row depth fields texts a b ∧ s = inside ++ rest := by
  induction fields generalizing index a s with
  | nil =>
      obtain ⟨after, closes, taken⟩ := bind_ok _ _ _ taken
      cases taken
      obtain ⟨blanks, blank, rfl⟩ := list_closed s rest closes
      exact ⟨[], blanks ++ [closeBracket], .close _ blanks blank, .done [] _ fun _ member =>
        absurd member List.not_mem_nil, by simp⟩
  | cons field fields ih =>
      obtain ⟨next, found, goes⟩ := bind_ok _ _ _ taken
      rcases item_taken (index == 0) s next found with ⟨lead, after, leads, rfl, rfl⟩ | ⟨blanks, left, blank, rfl, rfl⟩
      · obtain ⟨⟨middle, s₁⟩, one, more⟩ := bind_ok _ _ _ goes
        obtain ⟨texts, inside, layout, row, rfl⟩ :=
          ih (index + 1) (fun other member => fielded other (List.mem_cons_of_mem field member)) middle s₁ more
        obtain ⟨blanks, text, put, blank, spelled, adds, rfl, rfl⟩ :=
          fielded field List.mem_cons_self a middle after _ (parts_stops texts inside rest layout) one
        refine ⟨text :: texts, lead ++ blanks ++ (text ++ inside), ?_,
          .next field fields text texts put a b adds row, by simp⟩
        exact .next _ text texts _ text inside (lead_blanks _ lead blanks leads blank) ⟨rfl, spelled⟩ layout
      · obtain ⟨spare, rfl, rfl⟩ := r.fields_spared depth index (field :: fields) a b blanks left rest blank taken
        exact ⟨[], blanks ++ [closeBracket], .close _ blanks blank, .done _ _ spare, by simp⟩

theorem row_fields (index : Nat) (fields : List (Field α)) (texts : List Bytes) (a b : α) (inside rest : Bytes)
    (layout : Parts .list Alone (index == 0) texts inside) (row : Row depth fields texts a b) :
    r.readFields depth index fields a (inside ++ rest) = .ok (b, rest) := by
  induction row generalizing index inside with
  | done fields a spare =>
      cases layout with
      | close _ blanks blank =>
          rw [List.append_assoc]
          exact r.spared_fields depth index fields a blanks rest blank spare
  | next field fields text texts put a b adds others ih =>
      cases layout with
      | next _ _ _ lead s inside leads part more =>
          obtain ⟨rfl, spelled⟩ := part
          have one := adds a [] (inside ++ rest) blanks_nil (parts_stops texts inside rest more)
          rw [List.nil_append] at one
          have goesOn := ih (index + 1) inside more
          have next :=
            item_next (index == 0) lead (s ++ (inside ++ rest)) leads (opens_append _ _ (spelled_opens _ _ spelled))
          rw [List.append_assoc, List.append_assoc, readFields]
          simp only [next, one, goesOn, bind, Except.bind]

inductive Says : Bytes → α → Prop where
  | object (ms : List Member) (inside : Bytes) (a : α) (layout : Parts .object Member.Laid true ms inside)
      (gives : r.Gives depth ms a) :
      Says (openBrace :: inside) a
  | list (texts : List Bytes) (inside : Bytes) (a : α) (layout : Parts .list Alone true texts inside)
      (row : Row depth r.fields texts r.blank a) : Says (openBracket :: inside) a

theorem record_takes (fielded : r.Fielded depth) : Takes (r.read (depth + 1)) (r.Says depth) := by
  intro s a rest _ taken
  obtain ⟨blanks, b, others, blank, _, made, rfl⟩ := expecting_taken _ s _ _ taken
  split at made
  · next list =>
    obtain ⟨texts, inside, layout, row, rfl⟩ :=
      r.fields_row depth 0 r.fields fielded r.blank a others rest (Option.some.inj made)
    exact ⟨blanks, openBracket :: inside, blank, parts_spelled alone_sharp texts inside layout,
      .list texts inside a layout row,
      by rw [list]; rfl⟩
  split at made
  · next object =>
    obtain ⟨ms, inside, layout, gives, rfl⟩ := r.members_give depth fielded others rest a (Option.some.inj made)
    exact ⟨blanks, openBrace :: inside, blank, parts_spelled member_sharp ms inside layout,
      .object ms inside a layout gives,
      by rw [object]; rfl⟩
  · cases made

theorem record_reads (text : Bytes) (a : α) (speaks : r.Says depth text a) : Reads (r.read (depth + 1)) text a := by
  intro blanks rest blank _
  cases speaks with
  | object ms inside _ layout gives =>
      exact expecting_reads _ blanks openBrace (inside ++ rest) _ _ blank rfl
        (congrArg some (r.gives_members depth ms inside rest a layout gives))
  | list texts inside _ layout row =>
      exact expecting_reads _ blanks openBracket (inside ++ rest) _ _ blank rfl
        (congrArg some (r.row_fields depth 0 r.fields texts r.blank a inside rest layout row))

theorem record_regular (fielded : ∀ d, r.Fielded d) : Regular (r.read depth) := by
  intro s a rest stops taken
  cases depth with
  | zero =>
      obtain ⟨_, b, others, _, _, made, _⟩ := expecting_taken _ s _ _ taken
      split at made
      · cases made
      · split at made <;> cases made
  | succ depth =>
      obtain ⟨blanks, text, blank, spelled, speaks, written⟩ :=
        r.record_takes depth (fielded depth) s a rest stops taken
      exact ⟨blanks, text, blank, spelled, r.record_reads depth text a speaks, written⟩

theorem chain_respaced (blind : ∀ field ∈ r.fields, field.Blind depth) (pairs : List (Member × Member))
    (p q : Progress α)
    (respells : ∀ z ∈ pairs, Respells z.1.key z.2.key)
    (respaced : ∀ z ∈ pairs, Respaced z.1.text z.2.text) (chain : Chain (r.Enters depth) p (pairs.map Prod.fst) q) :
    Chain (r.Enters depth) p (pairs.map Prod.snd) q := by
  induction pairs generalizing p with
  | nil => exact chain
  | cons z pairs ih =>
      cases chain with
      | next _ name _ _ middle _ named enters others =>
          have more := ih middle (fun w member => respells w (List.mem_cons_of_mem z member))
            (fun w member => respaced w (List.mem_cons_of_mem z member)) others
          refine .next z.2 name _ p middle q (respells z List.mem_cons_self name named) ?_ more
          rcases enters with unknown | ⟨field, put, known, fresh, adds, made⟩
          · exact Or.inl unknown
          · exact Or.inr ⟨field, put, known, fresh,
              blind field (r.field_mem name field known).1 z.1.text z.2.text put adds
              (respaced z List.mem_cons_self), made⟩

theorem row_respaced (fields : List (Field α)) (blind : ∀ field ∈ fields, field.Blind depth)
    (pairs : List (Bytes × Bytes)) (a b : α)
    (respaced : ∀ z ∈ pairs, Respaced z.1 z.2)
    (row : Row depth fields (pairs.map Prod.fst) a b) : Row depth fields (pairs.map Prod.snd) a b := by
  induction pairs generalizing fields a with
  | nil => exact row
  | cons z pairs ih =>
      cases row with
      | next field fields _ _ put _ _ adds others =>
          have more := ih fields (fun other member => blind other (List.mem_cons_of_mem field member)) (put a)
            (fun w member => respaced w (List.mem_cons_of_mem z member)) others
          exact .next field fields z.2 _ put a b
            (blind field List.mem_cons_self z.1 z.2 put adds (respaced z List.mem_cons_self)) more

theorem record_blind (fielded : ∀ d, r.Fielded d) (blind : ∀ d, ∀ field ∈ r.fields, field.Blind d) :
    Blind (r.read depth) := by
  refine blind_of fun text other a spelled reads respaced => ?_
  cases depth with
  | zero =>
      obtain ⟨_, b, others, _, _, made, _⟩ := expecting_taken _ _ _ _ (reads [] [] blanks_nil stops_nil)
      split at made
      · cases made
      · split at made <;> cases made
  | succ depth =>
      have speaks := reads_speaks _ (r.record_takes depth (fielded depth)) text a spelled reads
      refine r.record_reads depth other a ?_
      cases speaks with
      | object ms inside _ layout gives =>
          cases respaced with
          | refl => exact .object ms inside a layout gives
          | object pairs s t one another respells each =>
              obtain ⟨rfl, _⟩ := parts_unique member_sharp true _ _ inside inside [] [] layout one rfl
              obtain ⟨q, chain, whole, made⟩ := gives
              exact .object _ t a another
                ⟨q, r.chain_respaced depth (blind depth) pairs _ q respells each chain, whole, made⟩
      | list texts inside _ layout row =>
          cases respaced with
          | refl => exact .list texts inside a layout row
          | list pairs s t one another each =>
              obtain ⟨rfl, _⟩ := parts_unique alone_sharp true _ _ inside inside [] [] layout one rfl
              exact .list _ t a another (row_respaced depth r.fields (blind depth) pairs r.blank a each row)

end Record

-- A text that is one object, blanks around it aside.
def Laid (ms : List Member) (f : Bytes) : Prop := ∃ before inside after, Blanks before ∧ Blanks after ∧
  Parts .object Member.Laid true ms inside ∧ f = before ++ openBrace :: (inside ++ after)

theorem laid_unique (ms ns : List Member) (f : Bytes) (one : Laid ms f) (other : Laid ns f) : ms = ns := by
  obtain ⟨before, inside, after, blankBefore, _, layout, rfl⟩ := one
  obtain ⟨before', inside', after', blankBefore', _, layout', same⟩ := other
  obtain ⟨_, tail⟩ := solid_unique before before' _ _ openBrace openBrace blankBefore blankBefore' rfl rfl same
  exact (parts_unique member_sharp true ms ns inside inside' after after' layout layout' tail).1

-- A text whose value, if it has one, is an object.
def IsObject (f : Bytes) : Prop := ∃ before rest, Blanks before ∧ f = before ++ openBrace :: rest

theorem object_head (f : Bytes) (object : IsObject f) : (skipBlanks f).head? = some openBrace := by
  obtain ⟨before, rest, blank, rfl⟩ := object
  rw [skip_blanks before _ blank, skip_nothing openBrace rest rfl]
  rfl

namespace Record

variable {α : Type} (r : Record α)

theorem parse_says (fielded : r.Fielded 126) (f : Bytes) (a : α) (parsed : r.parse f = .ok a) :
    ∃ before text after, Blanks before ∧ Blanks after ∧ r.Says 126 text a ∧ f = before ++ (text ++ after) := by
  obtain ⟨⟨b, after⟩, read_, parsed⟩ := bind_ok _ _ _ parsed
  obtain ⟨_, finished, parsed⟩ := bind_ok _ _ _ parsed
  cases parsed
  have blankAfter := finish_taken after finished
  obtain ⟨before, text, blankBefore, _, speaks, written⟩ :=
    r.record_takes 126 fielded f a after (blanks_stop after blankAfter) read_
  exact ⟨before, text, after, blankBefore, blankAfter, speaks, written⟩

theorem says_parse (before text after : Bytes) (a : α) (blankBefore : Blanks before) (blankAfter : Blanks after)
    (speaks : r.Says 126 text a) :
    r.parse (before ++ (text ++ after)) = .ok a := by
  have read_ := r.record_reads 126 text a speaks before after blankBefore (blanks_stop after blankAfter)
  change Except.bind (r.read 127 _) _ = _
  rw [read_]
  change Except.bind (finish after) _ = _
  rw [finish_blanks after blankAfter]
  rfl

theorem laid_parses (fielded : r.Fielded 126) (ms : List Member) (f : Bytes) (laid : Laid ms f) (a : α) :
    r.parse f = .ok a ↔ r.Gives 126 ms a := by
  obtain ⟨before, inside, after, blankBefore, blankAfter, layout, rfl⟩ := laid
  constructor
  · intro parsed
    obtain ⟨before', text, after', blankBefore', blankAfter', speaks, same⟩ := r.parse_says fielded _ a parsed
    cases speaks with
    | object ms' inside' _ layout' gives =>
        obtain ⟨_, tail⟩ := solid_unique before before' _ _ openBrace openBrace blankBefore blankBefore' rfl rfl same
        obtain ⟨rfl, _⟩ := parts_unique member_sharp true ms ms' inside inside' after after' layout layout' tail
        exact gives
    | list =>
        obtain ⟨other, _⟩ := solid_unique before before' _ _ openBrace openBracket blankBefore blankBefore' rfl rfl same
        cases other
  · intro gives
    exact r.says_parse before (openBrace :: inside) after a blankBefore blankAfter (.object ms inside a layout gives)

theorem object_parses (fielded : r.Fielded 126) (f : Bytes) (a : α) (object : IsObject f) (parsed : r.parse f = .ok a) :
    ∃ ms, Laid ms f ∧ r.Gives 126 ms a := by
  obtain ⟨front, rest, blankFront, same⟩ := object
  obtain ⟨before, text, after, blankBefore, blankAfter, speaks, rfl⟩ := r.parse_says fielded f a parsed
  cases speaks with
  | object ms inside _ layout gives => exact ⟨ms, ⟨before, inside, after, blankBefore, blankAfter, layout, rfl⟩, gives⟩
  | list =>
      obtain ⟨other, _⟩ := solid_unique before front _ rest openBracket openBrace blankBefore blankFront rfl rfl same
      cases other

end Record

end DevTools.Json
