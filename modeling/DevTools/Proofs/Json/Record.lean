import DevTools.Proofs.Json.Value
import DevTools.Json.Record

set_option autoImplicit false

namespace DevTools.Json

open Ascii

namespace Record

variable {α : Type} (r : Record α) (depth : Nat)

-- What the members of a record make of it, one after the other.
inductive Fills : α → List (String × String) → α → Prop where
  | done (record : α) : Fills record [] record
  | next (field : Field α) (name text : String) (members : List (String × String)) (record middle final : α)
      (known : r.field? name = some field)
      (reads : ∀ rest, Stops rest → field.read depth record (Utf8.encode text ++ rest) = .ok (middle, rest))
      (others : Fills middle members final) : Fills record ((name, text) :: members) final

theorem fills_append (record middle final : α) (members more : List (String × String))
    (first : Fills r depth record members middle)
    (others : Fills r depth middle more final) : Fills r depth record (members ++ more) final := by
  induction first with
  | done => exact others
  | next field name text members record middle _ known reads _ ih =>
      exact .next field name text _ record middle final known reads (ih others)

theorem fills_one (field : Field α) (name text : String) (record final : α) (known : r.field? name = some field)
    (reads : ∀ rest, Stops rest → field.read depth record (Utf8.encode text ++ rest) = .ok (final, rest)) :
    Fills r depth record [(name, text)] final :=
  .next field name text [] record final final known reads (.done final)

theorem fills_fold (record final : α) (members : List (String × String)) (seen : List String)
    (fills : Fills r depth record members final)
    (once : (members.map Prod.fst).Nodup) (new : ∀ member ∈ members, member.1 ∉ seen) :
    Folds (r.member depth) ⟨seen, record⟩ members ⟨(members.map Prod.fst).reverse ++ seen, final⟩ := by
  induction fills generalizing seen with
  | done record => exact .done _
  | next field name text members record middle final known reads others ih =>
      rw [List.map_cons, List.nodup_cons] at once
      have unseen : seen.contains name = false := by
        have absent := new (name, text) List.mem_cons_self
        simpa using absent
      have later : ∀ member ∈ members, member.1 ∉ name :: seen := by
        intro member inside again
        rcases List.mem_cons.mp again with same | old
        · exact once.1 (same ▸ List.mem_map.mpr ⟨member, inside, rfl⟩)
        · exact new member (List.mem_cons_of_mem _ inside) old
      have rest_ := ih (name :: seen) once.2 later
      rw [List.map_cons, List.reverse_cons, List.append_assoc, List.singleton_append]
      refine .next name text members _ ⟨name :: seen, middle⟩ _ ?_ rest_
      intro rest stops
      have marked (s : Bytes) : colonMark (colon :: s) = .ok s := rfl
      simp only [member, known, unseen, Bool.false_eq_true, if_false, marked, reads rest stops, bind, Except.bind]
      rfl

theorem read_filled (final : α) (members : List (String × String)) (rest : Bytes)
    (fills : Fills r depth r.blank members final)
    (once : (members.map Prod.fst).Nodup) (whole : r.missing? (members.map Prod.fst).reverse = none) :
    r.read (depth + 1) (Utf8.encode (renderObject members) ++ rest) = .ok (final, rest) := by
  have folds := fills_fold r depth r.blank final members [] fills once (fun _ _ none => nomatch none)
  have enough := few_listed (members.map memberBytes) closeBrace rest
  rw [List.length_map] at enough
  have folded := fold_members (r.member depth) rest members _ enough _ _ folds
  rw [List.append_nil] at folded
  have read : r.readMembers depth (listed (members.map memberBytes) ++ closeBrace :: rest) = .ok (final, rest) := by
    rw [readMembers]
    simp only [folded, whole, bind, Except.bind]
    rfl
  have spelled : Utf8.encode (renderObject members) ++ rest =
      openBrace :: (listed (members.map memberBytes) ++ closeBrace :: rest) := by
    rw [encode_members]
    simp
  rw [spelled]
  exact read

end Record

theorem read_text (content : String) (depth : Nat) (rest : Bytes) :
    readText depth (Utf8.encode (quoted content) ++ rest) = .ok (content, rest) := by
  obtain ⟨inside, written, read⟩ := encode_quoted content
  have spelled : Utf8.encode (quoted content) ++ rest = quote :: (inside ++ quote :: rest) := by simp [written]
  rw [spelled]
  exact read rest

theorem read_kind (kind : IntegerKind) (depth : Nat) (value : Int) (rest : Bytes) (fits : FitsInteger value)
    (within : kind.least ≤ value ∧ value ≤ kind.greatest) (stops : Stops rest) :
    readInteger kind depth (Utf8.encode (toString value) ++ rest) = .ok (value, rest) := by
  have read := read_number value rest fits stops
  obtain ⟨b, others, spelled, first, solid⟩ := integer_head value
  rw [spelled, List.cons_append] at read ⊢
  rw [readInteger, expecting, skip_nothing b _ solid]
  simp only [if_pos first, read, if_pos within, bind, Except.bind, pure, Except.pure, Option.getD]

theorem read_some {α : Type} (read : Nat → Bytes → Except Error (α × Bytes)) (depth : Nat) (s rest : Bytes) (value : α)
    (b : UInt8) (others : Bytes) (first : s = b :: others) (solid : isBlank b = false) (present : b ≠ letterN)
    (reads : read depth (s ++ rest) = .ok (value, rest)) :
    readOptional read depth (s ++ rest) = .ok (some value, rest) := by
  subst first
  rw [List.cons_append] at reads ⊢
  rw [readOptional, skip_nothing b _ solid]
  simp only [if_neg present, reads]
  rfl

end DevTools.Json
