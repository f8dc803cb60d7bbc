import DevTools.Proofs.Json.Respacing
import Mathlib.Data.Set.List

set_option autoImplicit false

namespace DevTools.Json

open Ascii

-- A value that stands in a text, with so many brackets around it.
inductive Nested : (level : Nat) → (part text : Bytes) → Prop where
  | whole (text : Bytes) : Nested 0 text text
  | item (level : Nat) (part text : Bytes) (parts : List Bytes) (inside : Bytes)
      (layout : Parts .list Alone true parts inside)
      (member : text ∈ parts) (deeper : Nested level part text) : Nested (level + 1) part (openBracket :: inside)
  | member (level : Nat) (part : Bytes) (m : Member) (ms : List Member) (inside : Bytes)
      (layout : Parts .object Member.Laid true ms inside) (member : m ∈ ms) (deeper : Nested level part m.text) :
      Nested (level + 1) part (openBrace :: inside)

-- No object in the text begins like an embedding.
def Unmarked (text : Bytes) : Prop := ∀ level ms inside, Nested level (openBrace :: inside) text →
  Parts .object Member.Laid true ms inside → ¬ Marked ms

structure Legible (depth : Nat) (text : Bytes) : Prop where
  shallow : ∀ level bracket inside, Nested level (Bracket.opening bracket :: inside) text → level < depth
  numbers : ∀ level part, Nested level part text → IsNumeral part → ∃ n, Counts part n
  strings : ∀ level key, Nested level (quote :: (key ++ [quote])) text → ∃ content, Named key content
  names : ∀ level ms inside, Nested level (openBrace :: inside) text → Parts .object Member.Laid true ms inside →
    ∀ m ∈ ms, ∃ name, Named m.key name

inductive Shaped : Bytes → Prop where
  | null : Shaped nullText
  | true_ : Shaped (letterT :: restOfTrue)
  | false_ : Shaped (letterF :: restOfFalse)
  | numeral (text : Bytes) (numeral : IsNumeral text) : Shaped text
  | string (key : Bytes) (content : Content key) : Shaped (quote :: (key ++ [quote]))
  | list (parts : List Bytes) (inside : Bytes) (layout : Parts .list Alone true parts inside) :
      Shaped (openBracket :: inside)
  | object (ms : List Member) (inside : Bytes) (layout : Parts .object Member.Laid true ms inside) :
      Shaped (openBrace :: inside)

-- Blanks after an item go before the comma or the bracket that comes next.
theorem items_parts {ι : Type} (bracket : Bracket) (laid : ι → Bytes → Prop)
    (splits : ∀ s, Spelled (.item bracket) s → ∃ i core blanks, laid i core ∧ Blanks blanks ∧ s = core ++ blanks)
    (first : Bool) (lead s : Bytes) (leads : Lead first lead) (items : Spelled (.items bracket) s) :
    ∃ parts, Parts bracket laid first parts (lead ++ (s ++ [bracket.closing])) := by
  generalize kind : Part.items bracket = part at items
  induction items generalizing first lead with
  | last other s item =>
      cases kind
      obtain ⟨i, core, blanks, part, blank, rfl⟩ := splits s item
      rw [List.append_assoc]
      exact ⟨[i], .next first i [] lead core _ leads part (.close false blanks blank)⟩
  | more other s blanks rest item blank _ _ ih =>
      cases kind
      obtain ⟨i, core, gap, part, blankGap, rfl⟩ := splits s item
      obtain ⟨parts, layout⟩ := ih false (gap ++ comma :: blanks) (.later gap blanks blankGap blank) rfl
      have next := Parts.next first i parts lead core _ leads part layout
      exact ⟨i :: parts, by simpa using next⟩
  | _ => cases kind

theorem item_alone (s : Bytes) (item : Spelled (.item .list) s) : ∃ text core blanks, Alone text core ∧ Blanks blanks ∧
    s = core ++ blanks := by
  cases item with
  | element text blanks value blank => exact ⟨text, text, blanks, ⟨rfl, value⟩, blank, rfl⟩

theorem item_member (s : Bytes) (item : Spelled (.item .object) s) : ∃ m core blanks, Member.Laid m core ∧
    Blanks blanks ∧ s = core ++ blanks := by
  cases item with
  | member name between gap text blanks content blankBetween blankGap value blank =>
      exact ⟨⟨name, text⟩, _, blanks, ⟨content, value, between, gap, blankBetween, blankGap, rfl⟩, blank, by simp⟩

theorem spelled_shaped (text : Bytes) (spelled : Spelled .value text) : Shaped text := by
  cases spelled with
  | null => exact .null
  | true_ => exact .true_
  | false_ => exact .false_
  | numeral _ numeral => exact .numeral text numeral
  | string key content => exact .string key content
  | empty bracket blanks blank =>
      cases bracket with
      | list => exact .list [] _ (.close true blanks blank)
      | object => exact .object [] _ (.close true blanks blank)
  | full bracket blanks s blank items =>
      rw [List.append_assoc]
      cases bracket with
      | list =>
          obtain ⟨parts, layout⟩ := items_parts .list Alone item_alone true blanks s (.first blanks blank) items
          exact .list parts _ layout
      | object =>
          obtain ⟨ms, layout⟩ := items_parts .object Member.Laid item_member true blanks s (.first blanks blank) items
          exact .object ms _ layout

theorem list_layout (parts others : List Bytes) (inside : Bytes) (one : Parts .list Alone true parts inside)
    (other : Parts .list Alone true others inside) : parts = others :=
  (parts_unique alone_sharp true parts others inside inside [] [] one other rfl).1

theorem object_layout (ms others : List Member) (inside : Bytes) (one : Parts .object Member.Laid true ms inside)
    (other : Parts .object Member.Laid true others inside) : ms = others :=
  (parts_unique member_sharp true ms others inside inside [] [] one other rfl).1

theorem unmarked_item (text : Bytes) (parts : List Bytes) (inside : Bytes)
    (layout : Parts .list Alone true parts inside)
    (member : text ∈ parts) (unmarked : Unmarked (openBracket :: inside)) : Unmarked text :=
  fun level ms within deeper => unmarked (level + 1) ms within (.item level _ text parts inside layout member deeper)

theorem unmarked_member (m : Member) (ms : List Member) (inside : Bytes)
    (layout : Parts .object Member.Laid true ms inside)
    (member : m ∈ ms) (unmarked : Unmarked (openBrace :: inside)) : Unmarked m.text :=
  fun level others within deeper =>
    unmarked (level + 1) others within (.member level _ m ms inside layout member deeper)

theorem means_members (depth : Nat) (ms : List Member) (inside : Bytes)
    (layout : Parts .object Member.Laid true ms inside)
    (unmarked : ¬ Marked ms) (v : Json) (means : Means depth (openBrace :: inside) v) :
    ∃ d, depth = d + 1 ∧ ∀ m ∈ ms, (∃ name, Named m.key name) ∧ ∃ w, Means d m.text w := by
  obtain ⟨d, rfl, ⟨entries, laid, named, _, means, _⟩ | ⟨m, content, laid, named, _⟩⟩ :=
    means_object depth inside v means
  · obtain rfl := object_layout ms _ inside layout laid
    refine ⟨d, rfl, fun m member => ?_⟩
    obtain ⟨e, entry, rfl⟩ := List.mem_map.mp member
    exact ⟨⟨e.name, named e entry⟩, e.value, means e entry⟩
  · obtain rfl := object_layout ms _ inside layout laid
    exact absurd ⟨m, rfl, named⟩ unmarked

theorem nested_means (level : Nat) (part text : Bytes) (nested : Nested level part text) (unmarked : Unmarked text)
    (depth : Nat) (v : Json)
    (means : Means depth text v) : ∃ d w, depth = d + level ∧ Means d part w := by
  induction nested generalizing depth v with
  | whole text => exact ⟨depth, v, rfl, means⟩
  | item level part text parts inside layout member _ ih =>
      obtain ⟨d, pairs, rfl, laid, means, _⟩ := means_list depth inside v means
      obtain rfl := list_layout parts _ inside layout laid
      obtain ⟨p, pair, rfl⟩ := List.mem_map.mp member
      obtain ⟨d, w, rfl, inner⟩ := ih (unmarked_item p.1 _ inside layout member unmarked) d p.2 (means p pair)
      exact ⟨d, w, rfl, inner⟩
  | member level part m ms inside layout member _ ih =>
      obtain ⟨d, rfl, members⟩ := means_members depth ms inside layout (unmarked 0 ms inside (.whole _) layout) v means
      obtain ⟨_, w, means⟩ := members m member
      obtain ⟨d, w, rfl, inner⟩ := ih (unmarked_member m ms inside layout member unmarked) d w means
      exact ⟨d, w, rfl, inner⟩

theorem means_numeral (depth : Nat) (text : Bytes) (v : Json) (means : Means depth text v) (numeral : IsNumeral text) :
    ∃ n, Counts text n := by
  obtain ⟨b, rest, written, first, _⟩ := numeral_head text numeral
  have strange : ∀ other others, text = other :: others → isDigit other = false ∧ other ≠ minus → False := by
    rintro other others rfl unlike
    exact head_other b other first unlike (List.cons.inj written).1.symm
  cases means with
  | number _ _ n _ counts => exact ⟨n, counts⟩
  | string _ _ content quoted =>
      obtain ⟨key, _, same⟩ := quoted
      exact (strange quote _ same (by decide)).elim
  | _ => exact (strange _ _ rfl (by decide)).elim

theorem means_string (depth : Nat) (key : Bytes) (v : Json) (means : Means depth (quote :: (key ++ [quote])) v) :
    ∃ content, Named key content := by
  generalize written : quote :: (key ++ [quote]) = text at means
  cases means with
  | string _ _ content quoted =>
      obtain ⟨other, named, same⟩ := quoted
      have keys := List.append_cancel_right (List.cons.inj (written.trans same)).2
      exact ⟨content, keys ▸ named⟩
  | number _ _ n numeral =>
      obtain ⟨b, rest, same, first, _⟩ := numeral_head text numeral
      rw [← written] at same
      exact absurd (List.cons.inj same).1.symm (head_other b quote first (by decide))
  | _ => cases written

theorem means_legible (depth : Nat) (text : Bytes) (v : Json) (unmarked : Unmarked text) (means : Means depth text v) :
    Legible depth text where
  shallow level bracket inside nested := by
    obtain ⟨d, w, rfl, inner⟩ := nested_means level _ text nested unmarked depth v means
    have opened : d ≠ 0 := by
      cases bracket with
      | list =>
          obtain ⟨d, _, rfl, _⟩ := means_list d inside w inner
          exact Nat.succ_ne_zero d
      | object =>
          obtain ⟨d, rfl, _⟩ := means_object d inside w inner
          exact Nat.succ_ne_zero d
    omega
  numbers level part nested numeral := by
    obtain ⟨d, w, _, inner⟩ := nested_means level part text nested unmarked depth v means
    exact means_numeral d part w inner numeral
  strings level key nested := by
    obtain ⟨d, w, _, inner⟩ := nested_means level _ text nested unmarked depth v means
    exact means_string d key w inner
  names level ms inside nested layout m member := by
    obtain ⟨d, w, _, inner⟩ := nested_means level _ text nested unmarked depth v means
    obtain ⟨_, _, members⟩ := means_members d ms inside layout (unmarked level ms inside nested layout) w inner
    exact (members m member).1

theorem legible_inside (depth : Nat) (text outer : Bytes)
    (deeper : ∀ level part, Nested level part text → Nested (level + 1) part outer)
    (legible : Legible (depth + 1) outer) :
    Legible depth text where
  shallow level bracket inside nested :=
    Nat.lt_of_succ_lt_succ (legible.shallow _ bracket inside (deeper level _ nested))
  numbers level part nested := legible.numbers _ part (deeper level part nested)
  strings level key nested := legible.strings _ key (deeper level _ nested)
  names level ms inside nested := legible.names _ ms inside (deeper level _ nested)

theorem list_of_each {α β : Type} (f : β → α) (holds : β → Prop) (xs : List α)
    (each : ∀ x ∈ xs, ∃ y, f y = x ∧ holds y) :
    ∃ ys : List β, ys.map f = xs ∧ ∀ y ∈ ys, holds y := by
  have made : xs ∈ Set.range (List.map fun y : { y // holds y } => f y) := by
    rw [Set.range_list_map]
    intro x member
    obtain ⟨y, rfl, held⟩ := each x member
    exact ⟨⟨y, held⟩, rfl⟩
  obtain ⟨ys, rfl⟩ := made
  refine ⟨ys.map Subtype.val, List.map_map, ?_⟩
  intro y member
  obtain ⟨held, _, rfl⟩ := List.mem_map.mp member
  exact held.2

theorem legible_means (depth : Nat) (text : Bytes) (spelled : Spelled .value text) (unmarked : Unmarked text)
    (legible : Legible depth text) : ∃ v, Means depth text v := by
  -- By length: what stands between brackets is shorter than the brackets with it.
  induction size : text.length using Nat.strong_induction_on generalizing depth text with
  | _ n ih =>
      subst size
      cases spelled_shaped text spelled with
      | null => exact ⟨_, .null depth⟩
      | true_ => exact ⟨_, .true_ depth⟩
      | false_ => exact ⟨_, .false_ depth⟩
      | numeral _ numeral =>
          obtain ⟨n, counts⟩ := legible.numbers 0 text (.whole text) numeral
          exact ⟨_, .number depth text n numeral counts⟩
      | string key content =>
          obtain ⟨content, named⟩ := legible.strings 0 key (.whole _)
          exact ⟨_, .string depth _ content ⟨key, named, rfl⟩⟩
      | list parts inside layout =>
          have opened := legible.shallow 0 .list inside (.whole _)
          obtain ⟨depth, rfl⟩ := Nat.exists_eq_succ_of_ne_zero (Nat.ne_of_gt opened)
          have each : ∀ part ∈ parts, ∃ p : Bytes × Json, p.1 = part ∧ Means depth p.1 p.2 := by
            intro text member
            obtain ⟨part, ⟨rfl, spelled⟩, within⟩ := parts_within true parts inside layout text member
            obtain ⟨v, means⟩ := ih part.length (Nat.lt_succ_of_le within.length_le) depth part spelled
              (unmarked_item part parts inside layout member unmarked)
              (legible_inside depth part _ (fun level _ nested =>
                .item level _ part parts inside layout member nested) legible) rfl
            exact ⟨(part, v), rfl, means⟩
          obtain ⟨pairs, rfl, means⟩ := list_of_each Prod.fst _ parts each
          exact ⟨_, .list depth pairs inside layout means⟩
      | object ms inside layout =>
          have opened := legible.shallow 0 .object inside (.whole _)
          obtain ⟨depth, rfl⟩ := Nat.exists_eq_succ_of_ne_zero (Nat.ne_of_gt opened)
          have each : ∀ m ∈ ms, ∃ e : Entry, e.member = m ∧ Named e.member.key e.name ∧
              Means depth e.member.text e.value := by
            intro m member
            obtain ⟨s, laid, within⟩ := parts_within true ms inside layout m member
            have short := ((member_within m s laid).2.trans within).length_le
            obtain ⟨name, named⟩ := legible.names 0 ms inside (.whole _) layout m member
            obtain ⟨v, means⟩ := ih m.text.length (Nat.lt_succ_of_le short) depth m.text laid.2.1
              (unmarked_member m ms inside layout member unmarked)
              (legible_inside depth m.text _ (fun level _ nested =>
                .member level _ m ms inside layout member nested) legible) rfl
            exact ⟨⟨m, name, v⟩, rfl, named, means⟩
          obtain ⟨entries, rfl, told⟩ := list_of_each Entry.member _ ms each
          exact ⟨_, .object depth entries inside layout (fun e entry => (told e entry).1)
            (unmarked 0 _ inside (.whole _) layout)
            fun e entry => (told e entry).2⟩

theorem parse_means (text : Bytes) (spelled : Spelled .value text) (v : Json) :
    parse text = .ok v ↔ Means depthLimit text v := by
  constructor
  · intro parsed
    obtain ⟨⟨value, back⟩, read, parsed⟩ := bind_ok _ _ _ parsed
    obtain ⟨_, finished, parsed⟩ := bind_ok _ _ _ parsed
    cases parsed
    have blankBack := finish_taken back finished
    obtain ⟨front, inside, blankFront, within, means, written⟩ :=
      value_takes depthLimit text v back (blanks_stop back blankBack) read
    have same := value_unique [] front text inside [] back blanks_nil blankFront spelled within stops_nil
      (blanks_stop back blankBack)
      (by simpa using written)
    exact same.1 ▸ means
  · intro means
    have read := means_reads depthLimit text v means [] [] blanks_nil stops_nil
    rw [List.nil_append, List.append_nil] at read
    rw [parse, parseWith]
    simp only [read, finish_blanks [] blanks_nil, bind, Except.bind]
    rfl

theorem means_iff_legible (depth : Nat) (text : Bytes) (spelled : Spelled .value text) (unmarked : Unmarked text) :
    (∃ v, Means depth text v) ↔ Legible depth text :=
  ⟨fun ⟨v, means⟩ => means_legible depth text v unmarked means, legible_means depth text spelled unmarked⟩

def lists : Nat → String
  | 0 => "[]"
  | n + 1 => "[" ++ lists n ++ "]"

theorem lists_layout (n : Nat) : ∃ parts inside, Utf8.encode (lists n) = openBracket :: inside ∧
    Parts .list Alone true parts inside ∧
    ∀ m, n = m + 1 → parts = [Utf8.encode (lists m)] := by
  induction n with
  | zero => exact ⟨[], [closeBracket], rfl, .close true [] blanks_nil, fun _ same => nomatch same⟩
  | succ n ih =>
      obtain ⟨parts, inside, written, layout, _⟩ := ih
      have spelled := parts_spelled alone_sharp parts inside layout
      refine ⟨[Utf8.encode (lists n)], Utf8.encode (lists n) ++ [closeBracket], ?_, ?_, ?_⟩
      · simp only [lists, Utf8.encode_append]
        rfl
      · exact .next true _ [] [] _ _ (.first [] blanks_nil) ⟨rfl, written ▸ spelled⟩ (.close false [] blanks_nil)
      · rintro m same
        cases same
        rfl

theorem lists_spelled (n : Nat) : Spelled .value (Utf8.encode (lists n)) := by
  obtain ⟨parts, inside, written, layout, _⟩ := lists_layout n
  exact written ▸ parts_spelled alone_sharp parts inside layout

theorem lists_depth (n depth : Nat) (v : Json) (means : Means depth (Utf8.encode (lists n)) v) : n < depth := by
  induction n generalizing depth v with
  | zero =>
      obtain ⟨_, inside, written, _⟩ := lists_layout 0
      obtain ⟨d, _, rfl, _⟩ := means_list depth inside v (written ▸ means)
      exact Nat.succ_pos d
  | succ n ih =>
      obtain ⟨parts, inside, written, layout, only⟩ := lists_layout (n + 1)
      obtain ⟨d, pairs, rfl, laid, means, _⟩ := means_list depth inside v (written ▸ means)
      have same := (list_layout _ parts inside laid layout).trans (only n rfl)
      obtain ⟨p, pair, text⟩ := List.mem_map.mp (same ▸ List.mem_singleton_self (Utf8.encode (lists n)))
      exact Nat.succ_lt_succ (ih d p.2 (text ▸ means p pair))

end DevTools.Json
