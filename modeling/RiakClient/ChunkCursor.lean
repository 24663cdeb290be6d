import Mathlib.Data.List.Basic

/-!
# A flat cursor over chunks

A list arrives in chunks and is to be copied into one array. The usual loop
keeps the number of the current chunk and an index inside it, reads the item
there, and moves on: to the next index, or to the start of the next chunk when
the current one is used up. The loop never looks whether the chunk it moves to
has any item at all. This module says exactly when it nevertheless reads every
item once: no empty chunk may come before a chunk that has items.

The proof goes by the number of items left to read. `gather_of_packed` starts from a
cursor that stands on an item, reads the rest of its chunk and then the chunks behind
it; `packed_of_gather` goes the other way, since a cursor that has got past the end of
an empty chunk stands on no item and cannot read.
-/

namespace ChunkCursor

variable {α : Type}

/-- Where the cursor goes after index `j` of a chunk of the given size. -/
def advance (size chunk j : Nat) : Nat × Nat :=
  if size ≤ j + 1 then (chunk + 1, 0) else (chunk, j + 1)

/-- The next `n` items read from the cursor, or `none` when one of the reads is
    out of bounds. -/
def gather (chunks : List (List α)) : Nat → Nat × Nat → Option (List α)
  | 0, _ => some []
  | n + 1, (chunk, j) => do
      let items ← chunks[chunk]?
      let item ← items[j]?
      let rest ← gather chunks n (advance items.length chunk j)
      pure (item :: rest)

/-- No empty chunk comes before a chunk with items. -/
def Packed (chunks : List (List α)) : Prop :=
  chunks.Pairwise fun earlier later => earlier = [] → later = []

instance [DecidableEq α] (chunks : List (List α)) : Decidable (Packed chunks) := by
  unfold Packed; infer_instance

theorem packed_cons_iff {items : List α} {after : List (List α)} :
    Packed (items :: after) ↔ (items = [] → after.flatten = []) ∧ Packed after := by
  unfold Packed
  rw [List.pairwise_cons, List.flatten_eq_nil_iff]
  constructor
  · rintro ⟨hhead, htail⟩
    exact ⟨fun hempty later hlater => hhead later hlater hempty, htail⟩
  · rintro ⟨hhead, htail⟩
    exact ⟨fun later hlater hempty => hhead hempty later hlater, htail⟩

theorem packed_of_flatten_eq_nil {chunks : List (List α)} (h : chunks.flatten = []) :
    Packed chunks := by
  rw [List.flatten_eq_nil_iff] at h
  unfold Packed
  rw [List.pairwise_iff_forall_sublist]
  intro earlier later hsub _
  exact h later (hsub.subset (by simp))

theorem gather_succ (before : List (List α)) (items : List α) (after : List (List α))
    (n j : Nat) (hj : j < items.length) :
    gather (before ++ items :: after) (n + 1) (before.length, j) =
      (gather (before ++ items :: after) n (advance items.length before.length j)).map
        (items[j] :: ·) := by
  have hchunk : (before ++ items :: after)[before.length]? = some items := by simp
  simp only [gather, hchunk, List.getElem?_eq_getElem hj, Option.bind_eq_bind, Option.bind_some]
  cases gather (before ++ items :: after) n (advance items.length before.length j) <;> rfl

theorem gather_succ_of_le (before : List (List α)) (items : List α) (after : List (List α))
    (n j : Nat) (hj : items.length ≤ j) :
    gather (before ++ items :: after) (n + 1) (before.length, j) = none := by
  have hchunk : (before ++ items :: after)[before.length]? = some items := by simp
  simp only [gather, hchunk, List.getElem?_eq_none hj, Option.bind_eq_bind, Option.bind_some,
    Option.bind_none]

/-- From a cursor on an item of a packed list of chunks, the cursor reads what
    is left of the chunk and then the chunks after it. -/
theorem gather_of_packed : ∀ (n : Nat) (before : List (List α)) (items : List α)
    (after : List (List α)) (j : Nat), Packed after →
    n ≤ (items.drop j ++ after.flatten).length → (n = 0 ∨ j < items.length) →
    gather (before ++ items :: after) n (before.length, j) =
      some ((items.drop j ++ after.flatten).take n) := by
  intro n
  induction n with
  | zero => intro before items after j _ _ _; simp [gather]
  | succ n ih =>
    intro before items after j hpacked hn hj
    have hj' : j < items.length := by omega
    rw [gather_succ before items after n j hj', List.drop_eq_getElem_cons hj']
    rw [List.drop_eq_getElem_cons hj'] at hn
    simp only [List.cons_append, List.length_cons, Nat.add_le_add_iff_right] at hn
    unfold advance
    by_cases hlast : items.length ≤ j + 1
    · rw [if_pos hlast]
      have hdrop : items.drop (j + 1) = [] := List.drop_eq_nil_iff.mpr hlast
      rw [hdrop, List.nil_append] at hn
      cases after with
      | nil =>
        have hzero : n = 0 := by simpa using hn
        subst hzero
        rw [hdrop, gather, Option.map_some, List.cons_append, List.take_succ_cons, List.take_zero]
      | cons next later =>
        obtain ⟨hnext, hlater⟩ := packed_cons_iff.mp hpacked
        have hstart : n = 0 ∨ 0 < next.length := by
          rcases Nat.eq_zero_or_pos next.length with hempty | hpos
          · left
            have hnil : next = [] := List.length_eq_zero_iff.mp hempty
            have hflat : (next :: later).flatten = [] := by
              rw [List.flatten_cons, hnil, hnext hnil, List.nil_append]
            rw [hflat] at hn
            exact Nat.le_zero.mp hn
          · exact Or.inr hpos
        have hrest := ih (before ++ [items]) next later 0 hlater (by simpa using hn) hstart
        rw [List.append_assoc, List.singleton_append, List.length_append, List.length_singleton]
          at hrest
        rw [hrest, hdrop, Option.map_some, List.cons_append, List.take_succ_cons, List.drop_zero,
          List.nil_append, List.flatten_cons]
    · rw [if_neg hlast]
      have hrest := ih before items after (j + 1) hpacked hn (Or.inr (by omega))
      rw [hrest, Option.map_some, List.cons_append, List.take_succ_cons]

/-- A cursor that reads everything that is left never had to pass an empty
    chunk. -/
theorem packed_of_gather : ∀ (n : Nat) (before : List (List α)) (items : List α)
    (after : List (List α)) (j : Nat) (read : List α),
    gather (before ++ items :: after) n (before.length, j) = some read →
    n = (items.drop j).length + after.flatten.length →
    (j < items.length ∨ after.flatten = []) ∧ Packed after := by
  intro n
  induction n with
  | zero =>
    intro before items after j read _ hn
    have hflat : after.flatten = [] := List.length_eq_zero_iff.mp (by omega)
    exact ⟨Or.inr hflat, packed_of_flatten_eq_nil hflat⟩
  | succ n ih =>
    intro before items after j read hread hn
    by_cases hj : j < items.length
    · refine ⟨Or.inl hj, ?_⟩
      rw [gather_succ before items after n j hj, Option.map_eq_some_iff] at hread
      obtain ⟨rest, hrest, _⟩ := hread
      rw [List.length_drop] at hn
      unfold advance at hrest
      by_cases hlast : items.length ≤ j + 1
      · rw [if_pos hlast] at hrest
        cases after with
        | nil => exact List.Pairwise.nil
        | cons next later =>
          rw [List.flatten_cons, List.length_append] at hn
          have hshift : before ++ items :: next :: later = (before ++ [items]) ++ next :: later := by
            simp
          rw [hshift, show before.length + 1 = (before ++ [items]).length by simp] at hrest
          obtain ⟨hstart, hlater⟩ := ih (before ++ [items]) next later 0 rest hrest
            (by rw [List.drop_zero]; omega)
          refine packed_cons_iff.mpr ⟨fun hempty => ?_, hlater⟩
          rcases hstart with hpos | hflat
          · rw [hempty] at hpos; exact absurd hpos (Nat.lt_irrefl 0)
          · exact hflat
      · rw [if_neg hlast] at hrest
        exact (ih before items after (j + 1) rest hrest (by rw [List.length_drop]; omega)).2
    · rw [gather_succ_of_le before items after n j (Nat.le_of_not_lt hj)] at hread
      cases hread

theorem packed_of_gather_flatten {chunks : List (List α)} {read : List α}
    (h : gather chunks chunks.flatten.length (0, 0) = some read) : Packed chunks := by
  cases chunks with
  | nil => exact List.Pairwise.nil
  | cons items after =>
    obtain ⟨hstart, hafter⟩ := packed_of_gather _ [] items after 0 _ h
      (by rw [List.flatten_cons, List.length_append, List.drop_zero])
    refine packed_cons_iff.mpr ⟨fun hempty => ?_, hafter⟩
    rcases hstart with hpos | hflat
    · rw [hempty] at hpos; exact absurd hpos (Nat.lt_irrefl 0)
    · exact hflat

theorem gather_flatten {chunks : List (List α)} (h : Packed chunks) :
    gather chunks chunks.flatten.length (0, 0) = some chunks.flatten := by
  cases chunks with
  | nil => rfl
  | cons items after =>
    obtain ⟨hhead, hafter⟩ := packed_cons_iff.mp h
    have hstart : (items :: after).flatten.length = 0 ∨ 0 < items.length := by
      rcases Nat.eq_zero_or_pos items.length with hempty | hpos
      · left
        have hnil : items = [] := List.length_eq_zero_iff.mp hempty
        rw [List.flatten_cons, hnil, hhead hnil]; rfl
      · exact Or.inr hpos
    have hread := gather_of_packed (items :: after).flatten.length [] items after 0 hafter
      (Nat.le_of_eq (by rw [List.drop_zero, List.flatten_cons])) hstart
    rw [List.drop_zero, ← List.flatten_cons, List.take_length] at hread
    exact hread

/-- **The cursor reads every item exactly once if and only if no empty chunk
    comes before a chunk with items.** -/
theorem gather_flatten_eq_some_iff {chunks : List (List α)} {read : List α} :
    gather chunks chunks.flatten.length (0, 0) = some read ↔
      Packed chunks ∧ read = chunks.flatten := by
  constructor
  · intro h
    have hpacked := packed_of_gather_flatten h
    rw [gather_flatten hpacked] at h
    exact ⟨hpacked, (Option.some.inj h).symm⟩
  · rintro ⟨hpacked, rfl⟩
    exact gather_flatten hpacked

end ChunkCursor
