import DevTools.Proofs.Message.Fields
import DevTools.Connection.Intake

set_option autoImplicit false

namespace DevTools

open Json

structure Malformed (f : Bytes) : Prop where
  refused : ∃ fault, Message.decode f = .error (.json fault)
  counted : ∀ h : Hub,
    h.takeFrame f = { h with stats := { h.stats with malformedFrames := h.stats.malformedFrames + 1 } }

-- A list of texts that is as good as the object which gives the known names these texts, in their order.
structure Listed (texts : List Bytes) (f : Bytes) : Prop where
  written : ∃ before inside after, Blanks before ∧ Blanks after ∧ Parts .list Alone true texts inside ∧
    f = before ++ Ascii.openBracket :: (inside ++ after)
  few : texts.length ≤ 6
  object : ∀ g, Laid (Record.placed Frame.record.fields texts) g →
    Message.decode f = Message.decode g ∧ ∀ h : Hub, h.takeFrame f = h.takeFrame g

theorem refused_malformed (f : Bytes) (fault : Json.Error) (refused : Frame.record.parse f = .error fault) :
    Malformed f := by
  have decoded : Message.decode f = .error (.json fault) := by rw [Message.decode, refused]
  refine ⟨⟨fault, decoded⟩, fun h => ?_⟩
  rw [Hub.takeFrame, decoded]
  rfl

theorem row_length {α : Type} (depth : Nat) (fields : List (Json.Field α)) (texts : List Bytes) (a b : α)
    (row : Record.Row depth fields texts a b) : texts.length ≤ fields.length := by
  induction row with
  | done => exact Nat.zero_le _
  | next _ _ _ _ _ _ _ _ _ ih => exact Nat.succ_le_succ ih

theorem frame_shapes (f : Bytes) (shape : ¬ IsObject f) : Malformed f ∨ ∃ texts, Listed texts f := by
  cases parsed : Frame.record.parse f with
  | error fault => exact Or.inl (refused_malformed f fault parsed)
  | ok frame =>
      obtain ⟨before, text, after, blankBefore, blankAfter, speaks, rfl⟩ :=
        Frame.record.parse_says (Frame.fielded 126) f frame parsed
      cases speaks with
      | object ms inside => exact absurd ⟨before, inside ++ after, blankBefore, rfl⟩ shape
      | list texts inside _ layout row =>
          have gives := Frame.record.row_gives 126 texts frame row (by simp [Frame.record])
          refine Or.inr ⟨texts, ⟨before, inside, after, blankBefore, blankAfter, layout, rfl⟩,
            row_length 126 _ texts _ _ row, ?_⟩
          intro g laid
          have same := (Frame.record.laid_parses (Frame.fielded 126) _ g laid frame).mpr gives
          have decodes : Message.decode (before ++ (Ascii.openBracket :: inside ++ after)) = Message.decode g := by
            rw [decode_classifies _ frame parsed, decode_classifies g frame same]
          exact ⟨decodes, fun h => by rw [Hub.takeFrame, Hub.takeFrame, decodes]⟩

theorem frame_shapes_samples : Malformed (Utf8.encode " \"id\"") ∧ ∃ texts, Listed texts (Utf8.encode "[1,\"A\"]") := by
  have text : ¬ IsObject (Utf8.encode " \"id\"") := fun object => absurd (object_head _ object) (by decide +kernel)
  have list : ¬ IsObject (Utf8.encode "[1,\"A\"]") := fun object => absurd (object_head _ object) (by decide +kernel)
  constructor
  · rcases frame_shapes _ text with malformed | ⟨texts, listed⟩
    · exact malformed
    · obtain ⟨before, inside, after, blank, _, _, same⟩ := listed.written
      have head : (skipBlanks (Utf8.encode " \"id\"")).head? = some Ascii.openBracket := by
        rw [same, skip_blanks before _ blank]
        rfl
      exact absurd head (by decide +kernel)
  · rcases frame_shapes _ list with malformed | listed
    · obtain ⟨fault, refused⟩ := malformed.refused
      have accepted : (Message.decode (Utf8.encode "[1,\"A\"]")).toOption.isSome = true := by decide +kernel
      rw [refused] at accepted
      cases accepted
    · exact listed

-- A list settles a call as a response does.
theorem list_settles_call :
    let h := ((Hub.ofConfig {}).post ⟨"Page.reload", .empty, none⟩).2
    ¬ IsObject (Utf8.encode "[1]") ∧ h.calls.pending.length = 1 ∧
      (h.takeFrame (Utf8.encode "[1]")).calls.pending.length = 0 ∧
      (h.takeFrame (Utf8.encode "[1]")).stats.malformedFrames = 0 := by
  refine ⟨fun object => absurd (object_head _ object) (by decide +kernel), ?_⟩
  decide +kernel

end DevTools
