import RiakClient.Computation

/-!
# Texts in a buffer

A routine that fills a buffer stores one character after the other and ends with a
terminator. A buffer is a part `room` of a memory `before ++ room ++ after`. What
is asked of such a routine is that it stays inside its buffer, whatever the memory
behind it, also if there is none. A routine that stores a text does so exactly if
the text is no longer than the room.

Nothing in this module depends on a particular program.
-/

namespace CSem

namespace C

variable {α β : Type} {heap : Heap}

theorem fault_bind (f : Fault) (rest : α → C β) : fault f >>= rest = fault f := rfl

/-! ### Character by character

Storing a text at once and storing it character by character come to the same, since
one text and another one right behind it are one text; a copy either finds the memory
for all of it or faults. Storing what is there already changes nothing, which is how a
routine that stores in several steps is compared with one that stores in one. -/

theorem copyAt_nil (memory : List α) (i : Nat) : copyAt memory i [] = pure memory := rfl

theorem copyAt_of_lt {memory text : List α} {i : Nat} (htext : text ≠ [])
    (h : memory.length < i + text.length) : copyAt memory i text = fault .outOfBounds := by
  have hlength : text.length ≠ 0 := fun hzero => htext (List.length_eq_zero_iff.mp hzero)
  unfold copyAt
  rw [if_neg hlength, if_neg (Nat.not_le.mpr h)]

/-- A text that ends in front of the end of the memory can be stored. What is behind it
    stays. -/
theorem copyAt_inside {memory text : List α} {i : Nat} (h : i + text.length ≤ memory.length) :
    ∃ written, copyAt memory i text = pure written ∧ written.length = memory.length ∧
      (∀ j < text.length, written[i + j]? = text[j]?) ∧
      ∀ j, i + text.length ≤ j → written[j]? = memory[j]? := by
  have hbefore : (memory.take i).length = i := List.length_take_of_le (by omega)
  refine ⟨_, copyAt_of_le h, ?_, ?_, ?_⟩
  · rw [List.length_append, List.length_append, List.length_take, List.length_drop]
    omega
  · intro j hj
    rw [List.getElem?_append_left (by rw [List.length_append, hbefore]; omega),
      List.getElem?_append_right (by omega), hbefore, Nat.add_sub_cancel_left]
  · intro j hj
    rw [List.getElem?_append_right (by rw [List.length_append, hbefore]; omega),
      List.length_append, hbefore, List.getElem?_drop]
    congr 1
    omega

theorem copyAt_append {before rest text : List α} (h : text.length ≤ rest.length) :
    copyAt (before ++ rest) before.length text =
      pure (before ++ (text ++ rest.drop text.length)) := by
  rw [copyAt_of_le (by rw [List.length_append]; omega), List.take_left, List.append_assoc,
    List.drop_length_add_append]

theorem copyAt_same (before text rest : List α) :
    copyAt (before ++ (text ++ rest)) before.length text = pure (before ++ (text ++ rest)) := by
  rw [copyAt_append (by rw [List.length_append]; omega), List.drop_left]

theorem copyAt_cons (memory : List α) (i : Nat) (a : α) (text : List α) :
    copyAt memory i (a :: text) =
      writeAt memory i a >>= fun written => copyAt written (i + 1) text := by
  by_cases hin : i < memory.length
  · have hsplit : memory = memory.take i ++ memory[i] :: memory.drop (i + 1) := by
      rw [List.getElem_cons_drop, List.take_append_drop]
    have hbefore : (memory.take i).length = i := List.length_take_of_le (Nat.le_of_lt hin)
    generalize memory.take i = before at hsplit hbefore
    generalize memory.drop (i + 1) = rest at hsplit
    generalize memory[i] = old at hsplit
    subst hsplit hbefore
    rw [writeAt_of_lt hin, pure_bind, List.set_append_right _ _ (Nat.le_refl _), Nat.sub_self,
      List.set_cons_zero]
    have hwritten : before ++ a :: rest = (before ++ [a]) ++ rest := by
      rw [List.append_assoc, List.singleton_append]
    have hlength : before.length + 1 = (before ++ [a]).length := by
      rw [List.length_append, List.length_singleton]
    rw [hwritten, hlength]
    by_cases hfits : text.length ≤ rest.length
    · have hroom : (a :: text).length ≤ (old :: rest).length := Nat.succ_le_succ hfits
      rw [copyAt_append hroom, copyAt_append hfits]
      simp only [List.length_cons, List.drop_succ_cons, List.append_assoc, List.cons_append,
        List.nil_append]
    · have htext : text ≠ [] := by
        rintro rfl
        exact hfits (Nat.zero_le _)
      rw [copyAt_of_lt (List.cons_ne_nil a text), copyAt_of_lt htext]
      · simp only [List.length_append, List.length_singleton]
        omega
      · simp only [List.length_append, List.length_cons]
        omega
  · rw [writeAt_of_le (Nat.not_lt.mp hin), fault_bind, copyAt_of_lt (List.cons_ne_nil a text)]
    rw [List.length_cons]
    omega

theorem copyAt_append_text (memory : List α) (i : Nat) (text more : List α) :
    copyAt memory i (text ++ more) =
      copyAt memory i text >>= fun written => copyAt written (i + text.length) more := by
  induction text generalizing memory i with
  | nil => rfl
  | cons a text ih =>
    rw [List.cons_append, copyAt_cons, copyAt_cons, bind_assoc]
    congr 1
    funext written
    rw [ih, List.length_cons, Nat.add_assoc, Nat.add_comm 1]

theorem copyAt_singleton (memory : List α) (i : Nat) (a : α) :
    copyAt memory i [a] = writeAt memory i a := by
  rw [copyAt_cons]
  exact bind_pure _

/-! ### Inside a buffer -/

/-- What a run does to a memory it does to the part of it that is the buffer `room`,
    whatever comes behind. -/
def Inside (run : List α → C (β × List α)) (before room : List α) (heap : Heap)
    (Result : β → List α → Prop) : Prop :=
  ∀ after, ∃ out room', room'.length = room.length ∧
    run (before ++ room ++ after) heap = .ok ((out, before ++ room' ++ after), heap) ∧
    Result out room'

/-- A run that stores a text stays inside if the text is no longer than the room, and only
    then. -/
theorem inside_iff_of_copyAt {run : List α → C (β × List α)} {before room text : List α}
    {out : β} {Result : β → List α → Prop}
    (hrun : ∀ after, run (before ++ room ++ after) =
      copyAt (before ++ room ++ after) before.length text >>= fun written =>
        pure (out, written)) :
    Inside run before room heap Result ↔
      text.length ≤ room.length ∧ Result out (text ++ room.drop text.length) := by
  constructor
  · intro h
    obtain ⟨out', room', hlength, hinside, hresult⟩ := h []
    rw [hrun] at hinside
    obtain ⟨written, rest, hcopy, hlast⟩ := bind_eq_ok.mp hinside
    obtain ⟨hout, _⟩ := pure_eq_ok.mp hlast
    cases hout
    rw [List.append_nil] at hcopy
    by_cases hfits : text.length ≤ room.length
    · rw [copyAt_append hfits] at hcopy
      obtain ⟨hwritten, _⟩ := pure_eq_ok.mp hcopy
      rw [List.append_nil, List.append_cancel_left_eq] at hwritten
      rw [hwritten]
      exact ⟨hfits, hresult⟩
    · have htext : text ≠ [] := by
        rintro rfl
        exact hfits (Nat.zero_le _)
      rw [copyAt_of_lt htext (by rw [List.length_append]; omega)] at hcopy
      cases hcopy
  · rintro ⟨hfits, hresult⟩ after
    refine ⟨out, text ++ room.drop text.length, ?_, ?_, hresult⟩
    · rw [List.length_append, List.length_drop]
      omega
    · have hroom : text.length ≤ (room ++ after).length := by
        rw [List.length_append]
        omega
      rw [hrun, List.append_assoc, copyAt_append hroom, pure_bind,
        List.drop_append_of_le_length hfits]
      simp only [pure_apply, List.append_assoc]

end C

end CSem
