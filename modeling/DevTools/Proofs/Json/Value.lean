import DevTools.Proofs.Json.Grammar
import DevTools.Json.Printer
import DevTools.Json.Reader

set_option autoImplicit false

namespace DevTools.Json

open Ascii

def Ordered (members : List (String × Json)) : Prop := members.Pairwise fun one other => one.1 < other.1

-- The first name alone makes an object an embedding.
def Unembedded (members : List (String × Json)) : Prop := ∀ first ∈ members.head?, first.1 ≠ embeddingName

inductive Plain : (depth : Nat) → Json → Prop where
  | null (depth : Nat) : Plain depth .null
  | boolean (depth : Nat) (value : Bool) : Plain depth (.boolean value)
  | integer (depth : Nat) (value : Int) (fits : FitsInteger value) : Plain depth (.number (.integer value))
  | string (depth : Nat) (content : String) : Plain depth (.string content)
  | array (depth : Nat) (items : List Json) (plain : ∀ item ∈ items, Plain depth item) :
      Plain (depth + 1) (.array items)
  | object (depth : Nat) (members : List (String × Json)) (ordered : Ordered members) (unembedded : Unembedded members)
      (plain : ∀ member ∈ members, Plain depth member.2) : Plain (depth + 1) (.object members)

def afterCommas (parts : List Bytes) : Bytes := parts.flatMap (comma :: ·)

def listed : List Bytes → Bytes
  | [] => []
  | part :: parts => part ++ afterCommas parts

def memberBytes (member : String × String) : Bytes := Utf8.encode (quoted member.1) ++ colon :: Utf8.encode member.2

theorem encode_joined (parts : List String) : Utf8.encode (joined parts) = listed (parts.map Utf8.encode) := by
  induction parts with
  | nil => rfl
  | cons part parts ih =>
      cases parts with
      | nil => simp [joined, listed, afterCommas]
      | cons next parts =>
          have split : joined (part :: next :: parts) = part ++ "," ++ joined (next :: parts) := by
            rw [joined, String.intercalate_cons_cons]
            rfl
          rw [split, Utf8.encode_append, Utf8.encode_append, ih]
          simp [listed, afterCommas]
          rfl

theorem encode_items (items : List String) :
    Utf8.encode (renderList items) = openBracket :: (listed (items.map Utf8.encode) ++ [closeBracket]) := by
  rw [renderList, Utf8.encode_append, Utf8.encode_append, encode_joined]
  rfl

theorem encode_members (members : List (String × String)) :
    Utf8.encode (renderObject members) = openBrace :: (listed (members.map memberBytes) ++ [closeBrace]) := by
  rw [renderObject, Utf8.encode_append, Utf8.encode_append, encode_joined, List.map_map]
  have each : ∀ member ∈ members,
      (Utf8.encode ∘ fun member : String × String => quoted member.1 ++ ":" ++ member.2) member =
      memberBytes member := by
    intro member _
    simp only [Function.comp, memberBytes, Utf8.encode_append, List.append_assoc]
    rfl
  rw [← List.map_congr_left each]
  rfl

theorem render_items (items : List Json) : renderItems items = items.map render := by
  induction items with
  | nil => rfl
  | cons item items ih => rw [renderItems, ih, List.map_cons]

theorem few_parts (parts : List Bytes) : parts.length ≤ (afterCommas parts).length := by
  induction parts with
  | nil => exact Nat.le_refl 0
  | cons part parts ih =>
      simp only [afterCommas, List.flatMap_cons, List.length_cons, List.length_append] at ih ⊢
      omega

theorem few_listed (parts : List Bytes) (d : UInt8) (rest : Bytes) :
    parts.length < (listed parts ++ d :: rest).length + 1 := by
  cases parts with
  | nil => exact Nat.succ_pos _
  | cons part parts =>
      have few := few_parts parts
      simp only [listed, List.length_cons, List.length_append]
      omega

theorem stops_after (parts : List Bytes) (d : UInt8) (rest : Bytes) (ends : d = closeBracket ∨ d = closeBrace) :
    Stops (afterCommas parts ++ d :: rest) := by
  cases parts with
  | nil => exact stops_cons d rest (Or.inr ends)
  | cons part parts => exact stops_cons comma _ (Or.inl rfl)

section
variable {α : Type} (read : Bytes → Except Error (α × Bytes)) (render : α → Bytes) (rest : Bytes)

theorem next_item (s : Bytes) (opens : Opens s) :
    nextItem true s = .ok (some s) ∧ nextItem false (comma :: s) = .ok (some s) := by
  obtain ⟨b, others, rfl, solid, open_, _⟩ := opens
  constructor
  · rw [nextItem, skip_nothing b others solid]
    simp only [if_neg open_, if_true]
  · rw [nextItem, skip_nothing comma _ rfl]
    simp only [show ¬ comma = closeBracket by decide, if_false, if_true, Bool.false_eq_true,
      skip_nothing b others solid,
      if_neg open_]

theorem read_more (items : List α) (fuel : Nat) (room : items.length < fuel)
    (reads : ∀ item ∈ items, ∀ rest, Stops rest → read (render item ++ rest) = .ok (item, rest))
    (opens : ∀ item ∈ items, Opens (render item)) :
    readItems read fuel false (afterCommas (items.map render) ++ closeBracket :: rest) = .ok (items, rest) := by
  induction items generalizing fuel with
  | nil =>
      cases fuel with
      | zero => cases room
      | succ fuel => rfl
  | cons item items ih =>
      cases fuel with
      | zero => cases room
      | succ fuel =>
          have others :=
            ih fuel (Nat.lt_of_succ_lt_succ room) (fun item member => reads item (List.mem_cons_of_mem _ member))
            (fun item member => opens item (List.mem_cons_of_mem _ member))
          have one := reads item List.mem_cons_self (afterCommas (items.map render) ++ closeBracket :: rest)
            (stops_after _ closeBracket rest (Or.inl rfl))
          have next := (next_item _ (opens_append _ (afterCommas (items.map render) ++ closeBracket :: rest)
            (opens item List.mem_cons_self))).2
          have written : afterCommas ((item :: items).map render) ++ closeBracket :: rest =
              comma :: (render item ++ (afterCommas (items.map render) ++ closeBracket :: rest)) := by
            simp [afterCommas]
          rw [written, readItems]
          simp only [next, one, others, bind, Except.bind]
          rfl

theorem read_items (items : List α) (fuel : Nat) (room : items.length < fuel)
    (reads : ∀ item ∈ items, ∀ rest, Stops rest → read (render item ++ rest) = .ok (item, rest))
    (opens : ∀ item ∈ items, Opens (render item)) :
    readItems read fuel true (listed (items.map render) ++ closeBracket :: rest) = .ok (items, rest) := by
  cases fuel with
  | zero => cases room
  | succ fuel =>
      cases items with
      | nil => rfl
      | cons item items =>
          have more := read_more read render rest (item :: items) (fuel + 1) room reads opens
          have commas : afterCommas ((item :: items).map render) ++ closeBracket :: rest =
              comma :: (listed ((item :: items).map render) ++ closeBracket :: rest) := rfl
          have next := next_item (listed ((item :: items).map render) ++ closeBracket :: rest)
            (opens_append _ _ (opens_append _ _ (opens item List.mem_cons_self)))
          rw [commas, readItems, next.2] at more
          rw [readItems, next.1]
          exact more

end

inductive Folds {σ : Type} (member : String → σ → Bytes → Except Error (σ × Bytes)) :
    σ → List (String × String) → σ → Prop where
  | done (state : σ) : Folds member state [] state
  | next (name text : String) (members : List (String × String)) (state middle final : σ)
      (reads : ∀ rest, Stops rest → member name state (colon :: (Utf8.encode text ++ rest)) = .ok (middle, rest))
      (others : Folds member middle members final) : Folds member state ((name, text) :: members) final

section
variable {σ : Type} (member : String → σ → Bytes → Except Error (σ × Bytes)) (rest : Bytes)

theorem read_name (name : String) : ∃ inside, Utf8.encode (quoted name) = quote :: (inside ++ [quote]) ∧
    ∀ rest, nextMember true (quote :: (inside ++ quote :: rest)) = .ok (.name (inside ++ quote :: rest)) ∧
      nextMember false (comma :: quote :: (inside ++ quote :: rest)) = .ok (.name (inside ++ quote :: rest)) ∧
      readString (inside ++ quote :: rest) = .ok (name, rest) := by
  obtain ⟨inside, written, read⟩ := encode_quoted name
  refine ⟨inside, written, ?_⟩
  intro rest
  exact ⟨rfl, rfl, read rest⟩

theorem fold_more (members : List (String × String)) (fuel : Nat) (room : members.length < fuel) (state final : σ)
    (folds : Folds member state members final) :
    foldMembers member fuel false state (afterCommas (members.map memberBytes) ++ closeBrace :: rest) =
      .ok (final, rest) := by
  induction folds generalizing fuel with
  | done state =>
      cases fuel with
      | zero => cases room
      | succ fuel => rfl
  | next name text members state middle final reads _ ih =>
      cases fuel with
      | zero => cases room
      | succ fuel =>
          obtain ⟨inside, written, named⟩ := read_name name
          have one := reads (afterCommas (members.map memberBytes) ++ closeBrace :: rest)
            (stops_after _ closeBrace rest (Or.inr rfl))
          have others := ih fuel (Nat.lt_of_succ_lt_succ room)
          obtain ⟨_, next, known⟩ :=
            named (colon :: (Utf8.encode text ++ (afterCommas (members.map memberBytes) ++ closeBrace :: rest)))
          have spelled : afterCommas (((name, text) :: members).map memberBytes) ++ closeBrace :: rest =
              comma :: quote :: (inside ++
              quote :: colon :: (Utf8.encode text ++
                (afterCommas (members.map memberBytes) ++ closeBrace :: rest))) := by
            simp [afterCommas, memberBytes, written]
          rw [spelled, foldMembers]
          simp only [next, known, one, others, bind, Except.bind]

theorem fold_members (members : List (String × String)) (fuel : Nat) (room : members.length < fuel) (state final : σ)
    (folds : Folds member state members final) :
    foldMembers member fuel true state (listed (members.map memberBytes) ++ closeBrace :: rest) =
      .ok (final, rest) := by
  cases fuel with
  | zero => cases room
  | succ fuel =>
      have more := fold_more member rest members (fuel + 1) room state final folds
      cases members with
      | nil => exact more
      | cons first members =>
          have commas : afterCommas ((first :: members).map memberBytes) ++ closeBrace :: rest =
              comma :: (listed ((first :: members).map memberBytes) ++ closeBrace :: rest) := rfl
          obtain ⟨inside, written, _⟩ := read_name first.1
          have quoted_ : ∃ more, listed ((first :: members).map memberBytes) ++ closeBrace :: rest = quote :: more := by
            simp [listed, memberBytes, written]
          obtain ⟨name, quoted_⟩ := quoted_
          rw [commas, quoted_, foldMembers] at more
          rw [quoted_, foldMembers]
          exact more

end

theorem insert_last {α : Type} (name : String) (value : α) (members : List (String × α))
    (least : ∀ member ∈ members, member.1 < name) :
    insert name value members = members ++ [(name, value)] := by
  induction members with
  | nil => rfl
  | cons first members ih =>
      obtain ⟨other, kept⟩ := first
      have before : other < name := least (other, kept) List.mem_cons_self
      have later : ¬ name < other := String.lt_asymm before
      have different : name ≠ other := by
        rintro rfl
        exact later before
      rw [insert, if_neg later, if_neg different, ih fun member inside => least member (List.mem_cons_of_mem _ inside)]
      rfl

def valueMember (read : Bytes → Except Error (Json × Bytes)) (name : String)
    (members : List (String × Json)) (s : Bytes) :
    Except Error (List (String × Json) × Bytes) := do
  let s ← colonMark s
  let (value, s) ← read s
  return (insert name value members, s)

-- An object goes on as any fold over members once its first name is known not to embed.
theorem read_named (inner : Bytes → Except Error Json) (read : Bytes → Except Error (Json × Bytes))
    (s atName afterName next rest : Bytes)
    (name : String) (members final : List (String × Json)) (opened : nextMember true s = .ok (.name atName))
    (named : readString atName = .ok (name, afterName)) (unembedded : name ≠ embeddingName)
    (one : valueMember read name [] afterName = .ok (members, next))
    (more : foldMembers (valueMember read) (next.length + 1) false members next = .ok (final, rest)) :
    readObject inner read s = .ok (.object final, rest) := by
  rw [readObject, opened]
  change Except.bind (readString atName) _ = _
  rw [named]
  change (if name = embeddingName then _ else _) = _
  rw [if_neg unembedded]
  change Except.bind (valueMember read name [] afterName) _ = _
  rw [one]
  change Except.bind (foldMembers (valueMember read) _ false members next) _ = _
  rw [more]
  rfl

theorem values_fold (read : Bytes → Except Error (Json × Bytes)) (taken members : List (String × Json))
    (ordered : Ordered (taken ++ members))
    (reads : ∀ member ∈ members, ∀ rest, Stops rest → read (Utf8.encode member.2.render ++ rest) =
      .ok (member.2, rest)) :
    Folds (valueMember read) taken (renderMembers members) (taken ++ members) := by
  induction members generalizing taken with
  | nil =>
      rw [List.append_nil]
      exact .done taken
  | cons member members ih =>
      have least : ∀ other ∈ taken, other.1 < member.1 :=
        fun other inside => (List.pairwise_append.mp ordered).2.2 other inside member List.mem_cons_self
      have regrouped : taken ++ member :: members = taken ++ [member] ++ members := by simp
      refine .next member.1 member.2.render _ taken (taken ++ [member]) _ ?_ ?_
      · intro rest stops
        have marked (s : Bytes) : colonMark (colon :: s) = .ok s := rfl
        simp only [valueMember, marked, reads member List.mem_cons_self rest stops, insert_last _ _ _ least,
          bind, Except.bind]
        rfl
      · rw [regrouped] at ordered ⊢
        exact ih (taken ++ [member]) ordered fun other inside => reads other (List.mem_cons_of_mem _ inside)

theorem read_object (inner : Bytes → Except Error Json) (read : Bytes → Except Error (Json × Bytes))
    (members : List (String × Json))
    (rest : Bytes) (ordered : Ordered members) (unembedded : Unembedded members)
    (reads : ∀ member ∈ members, ∀ rest, Stops rest → read (Utf8.encode member.2.render ++ rest) =
      .ok (member.2, rest)) :
    readObject inner read (listed ((renderMembers members).map memberBytes) ++ closeBrace :: rest) =
      .ok (.object members, rest) := by
  cases members with
  | nil => rfl
  | cons member members =>
      have folds := values_fold read [] (member :: members) ordered reads
      rw [List.nil_append, renderMembers] at folds
      cases folds with
      | next _ _ _ _ middle _ first others =>
          obtain ⟨inside, written, named⟩ := read_name member.1
          have one := first (afterCommas ((renderMembers members).map memberBytes) ++ closeBrace :: rest)
            (stops_after _ closeBrace rest (Or.inr rfl))
          have enough : (renderMembers members).length <
              (afterCommas ((renderMembers members).map memberBytes) ++ closeBrace :: rest).length + 1 := by
            have few := few_parts ((renderMembers members).map memberBytes)
            rw [List.length_map] at few
            rw [List.length_append]
            omega
          have more := fold_more (valueMember read) rest (renderMembers members) _ enough middle _ others
          obtain ⟨next, _, known⟩ := named (colon :: (Utf8.encode member.2.render ++
            (afterCommas ((renderMembers members).map memberBytes) ++ closeBrace :: rest)))
          have spelled : listed ((renderMembers (member :: members)).map memberBytes) ++ closeBrace :: rest =
              quote :: (inside ++ quote :: colon :: (Utf8.encode member.2.render ++
                (afterCommas ((renderMembers members).map memberBytes) ++ closeBrace :: rest))) := by
            simp [renderMembers, listed, memberBytes, written]
          rw [spelled]
          exact read_named inner read _ _ _ _ rest member.1 middle _ next known (unembedded member rfl) one more

theorem integer_head (value : Int) : ∃ b rest, Utf8.encode (toString value) = b :: rest ∧
    (b = minus ∨ isDigit b = true) ∧ isBlank b = false :=
  numeral_head _ (integer_spelled value)

theorem head_other (b other : UInt8) (first : b = minus ∨ isDigit b = true) (strange : isDigit other = false ∧
      other ≠ minus) :
    b ≠ other := by
  rintro rfl
  rcases first with rfl | digit
  · exact strange.2 rfl
  · exact Bool.noConfusion (strange.1.symm.trans digit)

theorem render_head (depth : Nat) (v : Json) (plain : Plain depth v) : ∃ b rest, Utf8.encode v.render = b :: rest ∧
    isBlank b = false ∧ b ≠ closeBracket ∧ b ≠ closeBrace ∧ (b = letterN → v = .null) := by
  cases plain with
  | null => exact ⟨letterN, restOfNull, rfl, by decide, by decide, by decide, fun _ => rfl⟩
  | boolean depth value =>
      cases value with
      | true => exact ⟨letterT, restOfTrue, rfl, by decide, by decide, by decide, fun same => nomatch same⟩
      | false => exact ⟨letterF, restOfFalse, rfl, by decide, by decide, by decide, fun same => nomatch same⟩
  | integer _ value =>
      obtain ⟨b, rest, written, first, solid⟩ := integer_head value
      exact ⟨b, rest, written, solid, head_other b closeBracket first (by decide),
        head_other b closeBrace first (by decide),
        fun same => absurd same (head_other b letterN first (by decide))⟩
  | string _ content =>
      obtain ⟨inside, written, _⟩ := encode_quoted content
      exact ⟨quote, inside ++ [quote], written, by decide, by decide, by decide, fun same => nomatch same⟩
  | array _ items =>
      exact ⟨openBracket, _, encode_items _, by decide, by decide, by decide, fun same => nomatch same⟩
  | object _ members =>
      exact ⟨openBrace, _, encode_members _, by decide, by decide, by decide, fun same => nomatch same⟩

theorem render_opens (depth : Nat) (v : Json) (plain : Plain depth v) : Opens (Utf8.encode v.render) := by
  obtain ⟨b, rest, written, solid, list, object, _⟩ := render_head depth v plain
  exact ⟨b, rest, written, solid, list, object⟩

theorem read_integer (inner : Bytes → Except Error Json) (depth : Nat) (value : Int) (rest : Bytes)
    (fits : FitsInteger value)
    (stops : Stops rest) :
    readValueWith inner depth (Utf8.encode (toString value) ++ rest) = .ok (.number (.integer value), rest) := by
  have read := read_number value rest fits stops
  obtain ⟨b, others, spelled, first, solid⟩ := integer_head value
  have other := fun letter => head_other b letter first
  rw [spelled, List.cons_append] at read ⊢
  rw [readValueWith.eq_def, skip_nothing b _ solid]
  simp only [if_neg (other letterN (by decide)), if_neg (other letterT (by decide)), if_neg (other letterF (by decide)),
    if_pos first, read]
  rfl

theorem read_plain (inner : Bytes → Except Error Json) (depth : Nat) (v : Json) (rest : Bytes) (plain : Plain depth v)
    (stops : Stops rest) :
    readValueWith inner depth (Utf8.encode v.render ++ rest) = .ok (v, rest) := by
  induction plain generalizing rest with
  | null depth => cases depth <;> rfl
  | boolean depth value => cases depth <;> cases value <;> rfl
  | integer depth value fits => exact read_integer inner depth value rest fits stops
  | string depth content =>
      obtain ⟨inside, written, read⟩ := encode_quoted content
      have spelled : Utf8.encode (render (.string content)) ++ rest = quote :: (inside ++ quote :: rest) := by
        simp [render, written]
      rw [spelled, readValueWith.eq_def]
      change (readString (inside ++ quote :: rest)).map _ = _
      rw [read]
      rfl
  | array depth items plain ih =>
      have opens : ∀ item ∈ items, Opens (Utf8.encode item.render) :=
        fun item member => render_opens depth item (plain item member)
      have parts : (renderItems items).map Utf8.encode = items.map fun item => Utf8.encode item.render := by
        rw [render_items, List.map_map]
        rfl
      have enough := few_listed (items.map fun item => Utf8.encode item.render) closeBracket rest
      rw [List.length_map] at enough
      have read := read_items (readValueWith inner depth) (fun item => Utf8.encode item.render) rest items _ enough
        (fun item member rest stops => ih item member rest stops) opens
      have spelled : Utf8.encode (render (.array items)) ++ rest =
          openBracket :: (listed (items.map fun item => Utf8.encode item.render) ++ closeBracket :: rest) := by
        rw [render, encode_items, parts]
        simp
      rw [spelled, readValueWith.eq_def]
      change (readItems (readValueWith inner depth) _ true _).map _ = _
      rw [read]
      rfl
  | object depth members ordered unembedded plain ih =>
      have read := read_object inner (readValueWith inner depth) members rest ordered unembedded
        (fun member inside rest stops => ih member inside rest stops)
      have spelled : Utf8.encode (render (.object members)) ++ rest =
          openBrace :: (listed ((renderMembers members).map memberBytes) ++ closeBrace :: rest) := by
        rw [render, encode_members]
        simp
      rw [spelled, readValueWith.eq_def]
      exact read

end DevTools.Json
