import DevTools.Proofs.Transport.Framing

set_option autoImplicit false

namespace DevTools

namespace Inlet

def released (begun : Bytes) : List Arrival := begun.reverse.map .byte

def empties (n : Nat) : List Arrival := List.replicate n (.byte Ascii.nul)

-- Lets a stream through but for the frames that `drops` picks. What has come of a frame, its last byte first, is held back
-- until the frame is complete or a reader with this limit gives it up.
def sieve (drops : Bytes → Bool) (limit : Nat) : (begun : Bytes) → List Arrival → List Arrival × Bytes
  | begun, [] => ([], begun)
  | begun, .byte b :: queue =>
    if b = Ascii.nul then
      let (passed, held) := sieve drops limit [] queue
      (if !begun.isEmpty && drops begun.reverse then passed else released begun ++ .byte b :: passed, held)
    else if limit ≤ begun.length + 1 then
      let (passed, held) := sieve drops limit [] queue
      (released (b :: begun) ++ passed, held)
    else sieve drops limit (b :: begun) queue
  | begun, .nothing :: queue =>
    let (passed, held) := sieve drops limit [] queue
    (released begun ++ .nothing :: passed, held)
  | begun, .fault reason :: queue =>
    let (passed, held) := sieve drops limit [] queue
    (released begun ++ .fault reason :: passed, held)

section
variable (drops : Bytes → Bool) (i : Inlet)

def held : Bytes := (sieve drops i.limit i.begun i.queue).2

def passes (arrivals : List Arrival) : List Arrival := (sieve drops i.limit (i.held drops) arrivals).1

-- Nothing is held back of a stream that has ended.
def sifted (begun : Bytes) (queue : List Arrival) : List Arrival :=
  (sieve drops i.limit begun queue).1 ++ if i.ended then released (sieve drops i.limit begun queue).2 else []

theorem sieve_append (begun : Bytes) (queue arrivals : List Arrival) :
    sieve drops i.limit begun (queue ++ arrivals) =
      ((sieve drops i.limit begun queue).1 ++ (sieve drops i.limit (sieve drops i.limit begun queue).2 arrivals).1,
        (sieve drops i.limit (sieve drops i.limit begun queue).2 arrivals).2) := by
  fun_induction sieve drops i.limit begun queue with
  | case1 => rfl
  | case2 begun queue passed held same ih =>
      simp only [List.cons_append, sieve, if_true, ih, same]
      split <;> simp
  | case3 begun b queue other long passed held same ih => simp [sieve, other, long, ih, same]
  | case4 begun b queue other short ih => simp only [List.cons_append, sieve, other, short, if_false, ih]
  | case5 begun queue passed held same ih => simp [sieve, ih, same]
  | case6 begun reason queue passed held same ih => simp [sieve, ih, same]

end

section
variable {drops : Bytes → Bool} {i : Inlet} {begun : Bytes} {b : UInt8} {queue : List Arrival}

theorem sifted_nothing :
    i.sifted drops begun (.nothing :: queue) = released begun ++ .nothing :: i.sifted drops [] queue :=
  List.append_assoc ..

theorem sifted_fault {reason : String} :
    i.sifted drops begun (.fault reason :: queue) = released begun ++ .fault reason :: i.sifted drops [] queue :=
  List.append_assoc ..

theorem sifted_empty : i.sifted drops [] (.byte Ascii.nul :: queue) = .byte Ascii.nul :: i.sifted drops [] queue := rfl

theorem sifted_kept (kept : drops begun.reverse = false) :
    i.sifted drops begun (.byte Ascii.nul :: queue) = released begun ++ .byte Ascii.nul :: i.sifted drops [] queue := by
  simp [sifted, sieve, kept]

theorem sifted_dropped {last : UInt8} (dropped : drops (last :: begun).reverse = true) :
    i.sifted drops (last :: begun) (.byte Ascii.nul :: queue) = i.sifted drops [] queue := by
  simp only [sifted, sieve, if_true, List.isEmpty_cons, Bool.not_false, Bool.true_and, dropped]

theorem sifted_long (other : b ≠ Ascii.nul) (full : i.limit ≤ begun.length + 1) :
    i.sifted drops begun (.byte b :: queue) = released (b :: begun) ++ i.sifted drops [] queue := by
  simp [sifted, sieve, other, full]

theorem sifted_byte (other : b ≠ Ascii.nul) (short : ¬ i.limit ≤ begun.length + 1) :
    i.sifted drops begun (.byte b :: queue) = i.sifted drops (b :: begun) queue := by
  simp only [sifted, sieve, other, short, if_false]

end

section
variable {drops : Bytes → Bool} {i : Inlet}

theorem gather_elsewhere (held : Bytes) (waiting : List Arrival) (room : Nat) (begun : Bytes) (queue : List Arrival) :
    ({ i with begun := held, queue := waiting } : Inlet).gather room begun queue = i.gather room begun queue := by
  fun_induction i.gather room begun queue with
  | case1 | case2 | case3 | case7 | case8 => simp_all [gather, tooLong]
  | case4 room begun queue none_ ih =>
      simp only [gather, none_, if_true]
      exact ih
  | case5 room begun queue some_ => simp [gather, some_]
  | case6 room begun b queue other ih => simpa [gather, other] using ih

theorem receive_elsewhere (computed : i.overflows = false) (queue : List Arrival) :
    ({ i with begun := [], queue } : Inlet).receive =
      ((i.gather i.limit [] queue).1, i.resumed (i.gather i.limit [] queue)) := by
  rw [computed_receive (i := { i with begun := [], queue }) computed, gather_elsewhere]
  rfl

theorem gather_empties (n : Nat) (queue : List Arrival) :
    i.gather i.limit [] (empties n ++ queue) = i.gather i.limit [] queue := by
  induction n with
  | zero => rfl
  | succ n ih => exact ih

theorem gather_bytes (room : Nat) (begun bytes : Bytes) (whole : Ascii.nul ∉ bytes) (queue : List Arrival) :
    i.gather (room + bytes.length) begun (bytes.map .byte ++ queue) = i.gather room (bytes.reverse ++ begun) queue := by
  induction bytes generalizing begun with
  | nil => rfl
  | cons b bytes ih =>
      have other : b ≠ Ascii.nul := fun same => whole (same ▸ List.mem_cons_self)
      rw [List.length_cons, ← Nat.add_assoc, List.map_cons, List.cons_append, gather, if_neg other,
        ih (b :: begun) fun member => whole (List.mem_cons_of_mem b member), List.reverse_cons, List.append_assoc]
      rfl

theorem gather_released (n : Nat) (begun : Bytes) (whole : Ascii.nul ∉ begun) (fits : begun.length ≤ i.limit)
    (queue : List Arrival) :
    i.gather i.limit [] (empties n ++ (released begun ++ queue)) = i.gather (i.limit - begun.length) begun queue := by
  have read := gather_bytes (i := i) (i.limit - begun.length) [] begun.reverse (by simpa using whole) queue
  rw [List.length_reverse, Nat.sub_add_cancel fits, List.reverse_reverse, List.append_nil] at read
  rw [gather_empties]
  exact read

-- A read of the stream and a read of what is let through of it: either the first one finds a frame that is dropped, and the
-- second reader is as far as the first one without it, or both find the same.
inductive Accords (drops : Bytes → Bool) (i : Inlet) (through : List Arrival) :
    Received × Bytes × List Arrival → Prop where
  | drops (bytes : Bytes) (queue : List Arrival) (dropped : drops bytes = true) (n : Nat)
      (left : through = empties n ++ i.sifted drops [] queue) : Accords drops i through (.frame bytes, [], queue)
  | finds (result : Received) (begun : Bytes) (queue : List Arrival) (kept : ∀ bytes, result = .frame bytes →
      drops bytes = false)
      (whole : Ascii.nul ∉ begun) (short : begun.length < i.limit) (n : Nat)
      (reads : i.gather i.limit [] through = (result, [], empties n ++ i.sifted drops begun queue)) :
      Accords drops i through (result, begun, queue)

theorem atEnd_kept (begun bytes : Bytes) (found : atEnd begun = .frame bytes) : drops bytes = false := by
  cases begun <;> cases found

theorem empties_more (n : Nat) (queue : List Arrival) :
    empties n ++ .byte Ascii.nul :: queue = empties (n + 1) ++ queue := by
  rw [empties, empties, List.replicate_succ', List.append_assoc, List.singleton_append]

-- By induction on the stream, `begun` being what the first reader has of a frame.
theorem gather_accords (begun : Bytes) (queue : List Arrival) (whole : Ascii.nul ∉ begun)
    (short : begun.length < i.limit) (n : Nat) :
    Accords drops i (empties n ++ i.sifted drops begun queue) (i.gather (i.limit - begun.length) begun queue) := by
  have some_ : 0 < i.limit := Nat.succ_pos _
  have nothing : Ascii.nul ∉ ([] : Bytes) := List.not_mem_nil
  induction queue generalizing begun n with
  | nil =>
      obtain ⟨room, left⟩ : ∃ room, i.limit - begun.length = room + 1 := ⟨i.limit - begun.length - 1, by omega⟩
      have takesUp := gather_released (i := i) n begun whole (Nat.le_of_lt short) []
      rw [left, gather] at takesUp
      rw [left, gather]
      cases ended : i.ended with
      | false =>
          have waits : i.gather i.limit [] [] = (.waiting, [], []) := by simp [limit, gather, ended]
          refine .finds _ begun [] (fun _ found => by cases found) whole short 0 ?_
          simpa [sifted, sieve, ended, empties] using (gather_empties n []).trans waits
      | true =>
          refine .finds _ [] [] (atEnd_kept begun) nothing some_ 0 ?_
          simpa [sifted, sieve, ended, empties, released] using takesUp
  | cons arrival queue ih =>
      obtain ⟨room, left⟩ : ∃ room, i.limit - begun.length = room + 1 := ⟨i.limit - begun.length - 1, by omega⟩
      have takesUp := gather_released (i := i) n begun whole (Nat.le_of_lt short) (arrival :: i.sifted drops [] queue)
      rw [left] at takesUp ⊢
      cases arrival with
      | nothing =>
          rw [gather] at takesUp ⊢
          rw [sifted_nothing]
          exact .finds _ [] queue (atEnd_kept begun) nothing some_ 0 takesUp
      | fault reason =>
          rw [gather] at takesUp ⊢
          rw [sifted_fault]
          exact .finds _ [] queue (fun _ found => by cases found) nothing some_ 0 takesUp
      | byte b =>
          by_cases delimits : b = Ascii.nul
          · subst delimits
            rw [gather, if_pos rfl] at takesUp ⊢
            cases begun with
            | nil =>
                rw [sifted_empty, empties_more]
                exact ih [] nothing some_ (n + 1)
            | cons last begun =>
                cases dropped : drops (last :: begun).reverse with
                | true =>
                    rw [sifted_dropped dropped]
                    exact .drops _ queue dropped n rfl
                | false =>
                    rw [sifted_kept dropped]
                    refine .finds _ [] queue (fun bytes found => ?_) nothing some_ 0 takesUp
                    cases found
                    exact dropped
          · have still : Ascii.nul ∉ b :: begun := by
              rw [List.mem_cons, not_or]
              exact ⟨fun same => delimits same.symm, whole⟩
            rw [gather, if_neg delimits]
            by_cases full : i.limit ≤ begun.length + 1
            · have used : room = 0 := by omega
              have excess := gather_released (i := i) n (b :: begun) still (by rw [List.length_cons]; omega)
                (i.sifted drops [] queue)
              have none_ : i.limit - (b :: begun).length = 0 := by rw [List.length_cons]; omega
              rw [none_, gather] at excess
              rw [used, gather, sifted_long delimits full]
              exact .finds _ [] queue (fun _ found => by cases found) nothing some_ 0 excess
            · have further := ih (b :: begun) still (by rw [List.length_cons]; omega) n
              have same : i.limit - (b :: begun).length = room := by rw [List.length_cons]; omega
              rw [same] at further
              rw [sifted_byte delimits full]
              exact further

-- The second reader has what the first one has less the frames that are dropped, and has taken up no frame yet. It may have
-- empty frames before it that the first one has passed over.
structure Sifts (drops : Bytes → Bool) (i j : Inlet) : Prop where
  whole : Ascii.nul ∉ i.begun
  short : i.begun.length < i.limit
  left : ∃ n, j = { i with begun := [], queue := empties n ++ i.sifted drops i.begun i.queue }

section
variable {j : Inlet} (sifts : Sifts drops i j)
include sifts

theorem sifts_receive (kept : ∀ bytes, i.receive.1 = .frame bytes → drops bytes = false) :
    i.receive.1 = j.receive.1 ∧ Sifts drops i.receive.2 j.receive.2 := by
  obtain ⟨whole, short, n, rfl⟩ := sifts
  cases excess : i.overflows with
  | true =>
      rw [overflow_receive excess, overflow_receive (i := { i with begun := [], queue := _ }) excess]
      exact ⟨rfl, whole, short, n, rfl⟩
  | false =>
      rw [computed_receive excess] at kept ⊢
      rw [receive_elsewhere excess]
      have accords : Accords drops i _ (i.gather (i.limit - i.begun.length) i.begun i.queue) :=
        gather_accords i.begun i.queue whole short n
      generalize i.gather (i.limit - i.begun.length) i.begun i.queue = got at kept accords
      cases accords with
      | drops bytes queue dropped => exact absurd ((kept bytes rfl).symm.trans dropped) Bool.false_ne_true
      | finds result begun queue _ whole short n reads =>
          rw [reads]
          exact ⟨rfl, whole, short, n, rfl⟩

theorem sifts_drops (bytes : Bytes) (received : i.receive.1 = .frame bytes) (dropped : drops bytes = true) :
    Sifts drops i.receive.2 j := by
  obtain ⟨whole, short, n, rfl⟩ := sifts
  cases excess : i.overflows with
  | true =>
      rw [overflow_receive excess] at received
      cases received
  | false =>
      rw [computed_receive excess] at received ⊢
      have accords : Accords drops i _ (i.gather (i.limit - i.begun.length) i.begun i.queue) :=
        gather_accords i.begun i.queue whole short n
      generalize i.gather (i.limit - i.begun.length) i.begun i.queue = got at received accords
      cases accords with
      | drops _ queue _ n left =>
          exact ⟨List.not_mem_nil, Nat.succ_pos _, n, congrArg (fun queue => { i with begun := [], queue }) left⟩
      | finds result _ _ kept => exact absurd ((kept bytes received).symm.trans dropped) Bool.false_ne_true

theorem sifts_ended : j.ended = i.ended := by
  obtain ⟨_, _, _, rfl⟩ := sifts
  rfl

theorem sifts_arrive (alive : i.ended = false) (arrivals : List Arrival) :
    Sifts drops { i with queue := i.queue ++ arrivals } { j with queue := j.queue ++ i.passes drops arrivals } := by
  obtain ⟨whole, short, n, rfl⟩ := sifts
  refine ⟨whole, short, n, ?_⟩
  have later : i.sifted drops i.begun (i.queue ++ arrivals) = i.sifted drops i.begun i.queue ++
      i.passes drops arrivals := by
    simp only [sifted, alive, sieve_append, passes, held, Bool.false_eq_true, if_false, List.append_nil]
  dsimp only
  rw [List.append_assoc, ← later]
  rfl

theorem sifts_hangUp (alive : i.ended = false) :
    Sifts drops { i with ended := true } { j with queue := j.queue ++ released (i.held drops), ended := true } := by
  obtain ⟨whole, short, n, rfl⟩ := sifts
  refine ⟨whole, short, n, ?_⟩
  simp only [sifted, alive, held, Bool.false_eq_true, if_false, if_true, List.append_nil, List.append_assoc]
  rfl

end

def sift (drops : Bytes → Bool) (i : Inlet) : Inlet := { i with begun := [], queue := i.sifted drops i.begun i.queue }

theorem sifts_sift (between : i.begun = []) : Sifts drops i (i.sift drops) := by
  refine ⟨?_, ?_, 0, rfl⟩ <;> rw [between]
  · exact List.not_mem_nil
  · exact Nat.succ_pos _

end

end Inlet

end DevTools
