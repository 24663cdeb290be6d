import Mathlib.Data.List.Induction
import RiakClient.Binary

/-!
# Growing arrays

`riak_array.c`: an array of pointers with a length and a capacity, which doubles
when it is full. The positions are sizes that are compared as signed numbers, and
the indices of the loops are `int`s, so the casts are written out.
-/

namespace RiakClient

open CSem

variable {α : Type} {heap : Heap}

/-! ### The code

The block of an array is its list of slots, whose number is what `malloc` was asked
for and not what the capacity says: the product of the size of a pointer and a
capacity may wrap. Every access goes through `readSlot` and `writeSlot` and so is
checked against the block. -/

/-- `_riak_array`. The capacity is only ever used as a size, and the length never leaves
    its `int64_t` (`RiakArray.Reachable.bounded`). -/
structure RiakArray (α : Type) where
  length : Int
  capacity : UInt64
  array : Ptr (List (Ptr α))
deriving DecidableEq, Repr

/-- The cast `(riak_int64_t)pos`. -/
def asInt64 (i : Int) : Int := i.bmod (2 ^ 64)

/-- `array[i]` with a signed index. -/
def readSlot (slots : List (Ptr α)) : Int → C (Ptr α)
  | .ofNat i => C.readAt slots i
  | .negSucc _ => C.fault .outOfBounds

def writeSlot (slots : List (Ptr α)) (elem : Ptr α) : Int → C (List (Ptr α))
  | .ofNat i => C.writeAt slots i elem
  | .negSucc _ => C.fault .outOfBounds

/-- The slots in a block of `sizeof(void*)*size` bytes, a product that may wrap. -/
def slotCount (size : UInt64) : Nat := (8 * size).toNat / 8

/-- `riak_array_new`; the block is zeroed. -/
def riakArrayNew (size : UInt64) : C (RiakError × Option (RiakArray α)) := do
  if ← C.allocate then
    if ← C.allocate then
      pure (.ok, some ⟨0, size, .obj (List.replicate (slotCount size) .null)⟩)
    else pure (.outOfMemory, none)
  else pure (.outOfMemory, none)

def riakArrayLength (ra : RiakArray α) : UInt64 := UInt64.ofInt ra.length

/-- `while (new_cap < size) new_cap *= 2`. After 64 doublings nothing is left of
    the capacity but zero, and the loop is known not to end. -/
def doubleUntil (size : UInt64) : Nat → UInt64 → Option UInt64
  | 0, _ => none
  | fuel + 1, newCap =>
      if newCap < size then doubleUntil size fuel (newCap * 2) else some newCap

/-- `riak_array_resize`. `none` means that the call never returns; without memory
    the array is freed. -/
def riakArrayResize (ra : RiakArray α) (size : UInt64) :
    C (Option (RiakError × Ptr (RiakArray α))) :=
  if ra.capacity < size then
    match doubleUntil size 65 ra.capacity with
    | none => pure none
    | some newCap => do
        let (grown, array) ← riakArrayRealloc ra.array ra.capacity.toUInt32 newCap.toUInt32
        if grown then pure (some (.ok, .obj { ra with array := array, capacity := newCap }))
        else pure (some (.outOfMemory, .wild))
  else pure (some (.ok, .obj ra))

/-- `for(int j = ra->length; j > pos; j--) ra->array[j] = ra->array[j-1]` -/
def shiftUp (pos : Nat) : Nat → List (Ptr α) → C (List (Ptr α))
  | 0, slots => pure slots
  | j + 1, slots => do
      if pos < j + 1 then
        let elem ← C.readAt slots j
        shiftUp pos j (← C.writeAt slots (j + 1) elem)
      else pure slots

/-- The part of `riak_array_insert` that moves the elements from `pos` on. -/
def openSlot (length : Int) (pos : UInt64) (slots : List (Ptr α)) : C (List (Ptr α)) :=
  if 0 < length ∧ asInt64 pos.toNat < length then
    match asInt length with
    | .ofNat j => shiftUp pos.toNat j slots
    | .negSucc _ => C.fault .outOfBounds
  else pure slots

def riakArrayInsert (ra : RiakArray α) (pos : UInt64) (elem : Ptr α) :
    C (Option (RiakError × Ptr (RiakArray α))) := do
  if ra.length < asInt64 pos.toNat then pure (some (.outOfRange, .obj ra))
  else
    match ← riakArrayResize ra (UInt64.ofInt (ra.length + 1)) with
    | none => pure none
    | some (err, resized) =>
        if err ≠ .ok then pure (some (err, resized))
        else
          let ra ← resized.deref
          let slots ← openSlot ra.length pos (← ra.array.deref)
          let slots ← C.writeAt slots pos.toNat elem
          pure (some (.ok, .obj { ra with length := ra.length + 1, array := .obj slots }))

/-- `for(int j = pos; j < ra->length; j++) ra->array[j] = ra->array[j+1]`, with
    the number of rounds to go. -/
def shiftDown : Nat → Nat → List (Ptr α) → C (List (Ptr α))
  | 0, _, slots => pure slots
  | rounds + 1, j, slots => do
      let elem ← C.readAt slots (j + 1)
      let slots ← C.writeAt slots j elem
      shiftDown rounds (← C.intSucc j) slots

/-- The loop of `riak_array_remove`, which starts with `int j = pos`. -/
def closeSlot (length : Int) (pos : UInt64) (slots : List (Ptr α)) : C (List (Ptr α)) :=
  if asInt pos.toNat < length then
    match asInt pos.toNat with
    | .ofNat j => shiftDown (length - j).toNat j slots
    | .negSucc _ => C.fault .outOfBounds
  else pure slots

def riakArrayRemove (ra : RiakArray α) (pos : UInt64) : C (RiakError × RiakArray α) := do
  if ra.length - 1 < asInt64 pos.toNat then pure (.outOfRange, ra)
  else
    let slots ← closeSlot ra.length pos (← ra.array.deref)
    pure (.ok, { ra with length := ra.length - 1, array := .obj slots })

def riakArrayPush (ra : RiakArray α) (elem : Ptr α) :
    C (Option (RiakError × Ptr (RiakArray α))) := do
  match ← riakArrayResize ra (UInt64.ofInt (ra.length + 1)) with
  | none => pure none
  | some (err, resized) =>
      if err ≠ .ok then pure (some (err, resized))
      else
        let ra ← resized.deref
        let slots ← writeSlot (← ra.array.deref) elem ra.length
        pure (some (.ok, .obj { ra with array := .obj slots, length := ra.length + 1 }))

/-- `riak_array_pop`, with what it stores through `elem`. -/
def riakArrayPop (ra : RiakArray α) : C (RiakError × Option (Ptr α) × RiakArray α) := do
  if 0 < ra.length then
    let ra := { ra with length := ra.length - 1 }
    let elem ← readSlot (← ra.array.deref) ra.length
    pure (.ok, some elem, ra)
  else pure (.outOfRange, none, ra)

/-- `riak_array_get`, with what it stores through `elem`. -/
def riakArrayGet (ra : RiakArray α) (pos : UInt64) : C (RiakError × Option (Ptr α)) := do
  if ra.length - 1 < asInt64 pos.toNat then pure (.outOfRange, none)
  else
    let elem ← C.readAt (← ra.array.deref) pos.toNat
    pure (.ok, some elem)

def riakArraySet (ra : RiakArray α) (pos : UInt64) (elem : Ptr α) :
    C (RiakError × RiakArray α) := do
  if ra.length - 1 < asInt64 pos.toNat then pure (.outOfRange, ra)
  else
    let slots ← C.writeAt (← ra.array.deref) pos.toNat elem
    pure (.ok, { ra with array := .obj slots })

/-! ### Calls -/

/-- A call of the interface. -/
inductive ArrayCall (α : Type) where
  | insert (pos : UInt64) (elem : Ptr α)
  | remove (pos : UInt64)
  | push (elem : Ptr α)
  | pop
  | get (pos : UInt64)
  | set (pos : UInt64) (elem : Ptr α)
  | length
deriving DecidableEq, Repr

/-- What a call tells its caller: an error code, with an element or without, or a
    length. -/
inductive ArrayReply (α : Type) where
  | code (err : RiakError)
  | elem (err : RiakError) (elem : Option (Ptr α))
  | length (length : UInt64)
deriving DecidableEq, Repr

/-- The call of a pointer, which is dangling after a call that freed the array. -/
def ArrayCall.run (call : ArrayCall α) (ra : Ptr (RiakArray α)) :
    C (Option (ArrayReply α × Ptr (RiakArray α))) := do
  let ra ← ra.deref
  match call with
  | insert pos elem => pure ((← riakArrayInsert ra pos elem).map fun r => (.code r.1, r.2))
  | remove pos => do
      let (err, ra) ← riakArrayRemove ra pos
      pure (some (.code err, .obj ra))
  | push elem => pure ((← riakArrayPush ra elem).map fun r => (.code r.1, r.2))
  | pop => do
      let (err, elem, ra) ← riakArrayPop ra
      pure (some (.elem err elem, .obj ra))
  | get pos => do
      let (err, elem) ← riakArrayGet ra pos
      pure (some (.elem err elem, .obj ra))
  | set pos elem => do
      let (err, ra) ← riakArraySet ra pos elem
      pure (some (.code err, .obj ra))
  | length => pure (some (.length (riakArrayLength ra), .obj ra))

/-- Calls one after another, with what they return. -/
def riakArrayCalls : List (ArrayCall α) → Ptr (RiakArray α) →
    C (Option (List (ArrayReply α) × Ptr (RiakArray α)))
  | [], ra => pure (some ([], ra))
  | call :: calls, ra => do
      match ← call.run ra with
      | none => pure none
      | some (reply, ra) =>
          match ← riakArrayCalls calls ra with
          | none => pure none
          | some (replies, ra) => pure (some (reply :: replies, ra))

/-! ### One call

What a call of each function is, on an array that is there. -/

namespace ArrayCall

variable (ra : RiakArray α) (pos : UInt64) (elem : Ptr α)

theorem run_insert : (insert pos elem).run (.obj ra) =
    (riakArrayInsert ra pos elem >>= fun r => pure (r.map fun r => (.code r.1, r.2))) := by
  unfold ArrayCall.run
  rw [Ptr.deref_obj, pure_bind]

theorem run_push : (push elem).run (.obj ra) =
    (riakArrayPush ra elem >>= fun r => pure (r.map fun r => (.code r.1, r.2))) := by
  unfold ArrayCall.run
  rw [Ptr.deref_obj, pure_bind]

theorem run_remove : (remove pos).run (.obj ra) =
    (riakArrayRemove ra pos >>= fun r => pure (some (.code r.1, .obj r.2))) := by
  unfold ArrayCall.run
  rw [Ptr.deref_obj, pure_bind]

theorem run_pop : pop.run (.obj ra) =
    (riakArrayPop ra >>= fun r => pure (some (.elem r.1 r.2.1, .obj r.2.2))) := by
  unfold ArrayCall.run
  rw [Ptr.deref_obj, pure_bind]

theorem run_get : (get pos).run (.obj ra) =
    (riakArrayGet ra pos >>= fun r => pure (some (.elem r.1 r.2, .obj ra))) := by
  unfold ArrayCall.run
  rw [Ptr.deref_obj, pure_bind]

theorem run_set : (set pos elem).run (.obj ra) =
    (riakArraySet ra pos elem >>= fun r => pure (some (.code r.1, .obj r.2))) := by
  unfold ArrayCall.run
  rw [Ptr.deref_obj, pure_bind]

end ArrayCall

/-! ### The loops

Moving the tail of an array needs a slot behind its last element. With such a slot the
one loop makes room for an element and the other closes the gap that one leaves; without
it the first write, or the last read, is outside the block. -/

theorem asInt64_of_lt {n : Nat} (h : n < 2 ^ 63) : asInt64 n = n := by
  apply Int.bmod_eq_of_le <;> omega

theorem slotCount_of_lt {size : UInt64} (h : size.toNat < 2 ^ 61) :
    slotCount size = size.toNat := by
  unfold slotCount
  rw [UInt64.toNat_mul, show (8 : UInt64).toNat = 8 from rfl, Nat.mod_eq_of_lt (by omega)]
  omega

theorem slotCount_le (size : UInt64) : slotCount size ≤ size.toNat := by
  unfold slotCount
  rw [UInt64.toNat_mul, show (8 : UInt64).toNat = 8 from rfl]
  have hmod := Nat.mod_le (8 * size.toNat) (2 ^ 64)
  omega

/-- Moving the tail up overwrites the slot behind it, and leaves one slot to be
    filled. -/
theorem shiftUp_append (front tail rest : List (Ptr α)) (x : Ptr α) :
    ∃ y, shiftUp front.length (front.length + tail.length) (front ++ (tail ++ x :: rest)) =
      pure (front ++ y :: (tail ++ rest)) := by
  induction tail using List.reverseRecOn generalizing x rest with
  | nil =>
    refine ⟨x, ?_⟩
    cases front with
    | nil => rfl
    | cons a front =>
      show shiftUp (front.length + 1) (front.length + 1) _ = _
      rw [shiftUp, if_neg (Nat.lt_irrefl _)]
      rfl
  | append_singleton tail b ih =>
    obtain ⟨y, hy⟩ := ih (b :: rest) b
    refine ⟨y, ?_⟩
    have hread : (front ++ (tail ++ [b] ++ x :: rest))[front.length + tail.length]? = some b := by
      simp
    have hwrite : (front ++ (tail ++ [b] ++ x :: rest)).set (front.length + tail.length + 1) b =
        front ++ (tail ++ b :: b :: rest) := by
      have hbehind : front.length + tail.length + 1 = (front ++ (tail ++ [b])).length := by
        rw [List.length_append, List.length_append, List.length_singleton, Nat.add_assoc]
      rw [hbehind, ← List.append_assoc, List.set_append_right _ _ (Nat.le_refl _), Nat.sub_self]
      simp
    rw [List.length_append, List.length_singleton, ← Nat.add_assoc, shiftUp,
      if_pos (by omega), C.readAt_of_get hread, pure_bind, C.writeAt_of_lt (by simp; omega),
      hwrite, pure_bind, hy]
    simp

theorem shiftDown_append (front tail spare : List (Ptr α)) (a x : Ptr α)
    (hlength : front.length + tail.length + 1 < 2 ^ 31) :
    shiftDown (tail.length + 1) front.length (front ++ a :: (tail ++ x :: spare)) =
      pure (front ++ tail ++ x :: x :: spare) := by
  induction tail generalizing front a with
  | nil =>
    have hread : (front ++ a :: ([] ++ x :: spare))[front.length + 1]? = some x := by simp
    rw [shiftDown, C.readAt_of_get hread, pure_bind, C.writeAt_of_lt (by simp), pure_bind,
      C.intSucc_of_lt (by simpa using hlength), pure_bind]
    simp [shiftDown]
  | cons b tail ih =>
    have hread : (front ++ a :: (b :: tail ++ x :: spare))[front.length + 1]? = some b := by simp
    have hwrite : (front ++ a :: (b :: tail ++ x :: spare)).set front.length b =
        front ++ [b] ++ b :: (tail ++ x :: spare) := by
      simp
    have hmove := ih (front ++ [b]) b (by simp at hlength ⊢; omega)
    rw [List.length_append, List.length_singleton] at hmove
    rw [List.length_cons, shiftDown, C.readAt_of_get hread, pure_bind, C.writeAt_of_lt (by simp),
      hwrite, pure_bind, C.intSucc_of_lt (by simp at hlength; omega), pure_bind, hmove]
    simp

theorem shiftDown_full (front tail : List (Ptr α)) (a : Ptr α)
    (hlength : front.length + tail.length + 1 < 2 ^ 31) :
    shiftDown (tail.length + 1) front.length (front ++ a :: tail) = C.fault .outOfBounds := by
  induction tail generalizing front a with
  | nil =>
    rw [shiftDown, C.readAt_of_le (by simp)]
    rfl
  | cons b tail ih =>
    have hread : (front ++ a :: b :: tail)[front.length + 1]? = some b := by simp
    have hwrite : (front ++ a :: b :: tail).set front.length b = front ++ [b] ++ b :: tail := by
      simp
    have hmove := ih (front ++ [b]) b (by simp at hlength ⊢; omega)
    rw [List.length_append, List.length_singleton] at hmove
    rw [List.length_cons, shiftDown, C.readAt_of_get hread, pure_bind, C.writeAt_of_lt (by simp),
      hwrite, pure_bind, C.intSucc_of_lt (by simp at hlength; omega), pure_bind, hmove]

theorem insertIdx_append (front tail : List (Ptr α)) (elem : Ptr α) :
    (front ++ tail).insertIdx front.length elem = front ++ elem :: tail := by
  induction front with
  | nil => rfl
  | cons a front ih => rw [List.cons_append, List.length_cons, List.insertIdx_succ_cons, ih]; rfl

theorem openSlot_insert {front tail : List (Ptr α)} {pos : UInt64}
    (hpos : pos.toNat = front.length) (hlength : front.length + tail.length < 2 ^ 31)
    (elem x : Ptr α) (rest : List (Ptr α)) :
    (openSlot ((front ++ tail).length : Int) pos (front ++ tail ++ x :: rest) >>= fun slots =>
      C.writeAt slots pos.toNat elem) = pure (front ++ elem :: tail ++ rest) := by
  have hmoved : ∃ y, openSlot ((front ++ tail).length : Int) pos (front ++ tail ++ x :: rest) =
      pure (front ++ y :: (tail ++ rest)) := by
    unfold openSlot
    rw [asInt64_of_lt (by omega), asInt_of_lt (by rw [List.length_append]; exact hlength),
      List.append_assoc, List.length_append, hpos]
    by_cases htail : tail = []
    · rw [htail, if_neg (by simp)]
      exact ⟨x, rfl⟩
    · have hpositive : 0 < tail.length := List.length_pos_iff.mpr htail
      rw [if_pos (by omega)]
      exact shiftUp_append front tail rest x
  obtain ⟨y, hy⟩ := hmoved
  rw [hy, pure_bind, hpos, C.writeAt_of_lt (by simp)]
  simp

theorem openSlot_full {elems : List (Ptr α)} {pos : UInt64} (hpos : pos.toNat ≤ elems.length)
    (hlength : elems.length < 2 ^ 31) (elem : Ptr α) :
    (openSlot (elems.length : Int) pos elems >>= fun slots => C.writeAt slots pos.toNat elem) =
      C.fault .outOfBounds := by
  have hwrite : ∀ a : Ptr α, C.writeAt elems elems.length a = C.fault .outOfBounds :=
    C.writeAt_of_le (Nat.le_refl _)
  unfold openSlot
  rw [asInt64_of_lt (by omega), asInt_of_lt hlength]
  by_cases hend : pos.toNat = elems.length
  · rw [hend, if_neg (by omega), pure_bind, hwrite]
  · rw [if_pos (by omega)]
    obtain ⟨j, hj⟩ : ∃ j, elems.length = j + 1 := ⟨elems.length - 1, by omega⟩
    have hread : elems[j]? = some (elems.get ⟨j, by omega⟩) :=
      List.getElem?_eq_getElem (by omega)
    show (shiftUp pos.toNat elems.length elems >>= _) = _
    have hfault : shiftUp pos.toNat elems.length elems = C.fault .outOfBounds := by
      rw [hj, shiftUp, if_pos (by omega), C.readAt_of_get hread, pure_bind, ← hj, hwrite]
      rfl
    rw [hfault]
    rfl

theorem closeSlot_eq_shiftDown {front tail : List (Ptr α)} {a : Ptr α} {pos : UInt64}
    (hpos : pos.toNat = front.length) (hlength : front.length + tail.length + 1 < 2 ^ 31)
    (slots : List (Ptr α)) :
    closeSlot ((front ++ a :: tail).length : Int) pos slots =
      shiftDown (tail.length + 1) front.length slots := by
  have hrounds : (((front ++ a :: tail).length : Int) - (front.length : Nat)).toNat =
      tail.length + 1 := by
    rw [List.length_append, List.length_cons]
    omega
  unfold closeSlot
  rw [hpos, asInt_of_lt (by omega), if_pos (by rw [List.length_append, List.length_cons]; omega)]
  show shiftDown (((front ++ a :: tail).length : Int) - (front.length : Nat)).toNat _ _ = _
  rw [hrounds]

theorem closeSlot_remove {front tail spare : List (Ptr α)} {a x : Ptr α} {pos : UInt64}
    (hpos : pos.toNat = front.length) (hlength : front.length + tail.length + 1 < 2 ^ 31) :
    closeSlot ((front ++ a :: tail).length : Int) pos (front ++ a :: tail ++ x :: spare) =
      pure (front ++ tail ++ x :: x :: spare) := by
  rw [closeSlot_eq_shiftDown hpos hlength, List.append_assoc, List.cons_append]
  exact shiftDown_append front tail spare a x hlength

theorem closeSlot_full {front tail : List (Ptr α)} {a : Ptr α} {pos : UInt64}
    (hpos : pos.toNat = front.length) (hlength : front.length + tail.length + 1 < 2 ^ 31) :
    closeSlot ((front ++ a :: tail).length : Int) pos (front ++ a :: tail) =
      C.fault .outOfBounds := by
  rw [closeSlot_eq_shiftDown hpos hlength]
  exact shiftDown_full front tail a hlength

/-! ### Growing

64 doublings are enough to tell a loop that ends from one that does not: after them
the capacity is zero. -/

theorem doubleUntil_eq_none_iff {size : UInt64} (fuel : Nat) (newCap : UInt64) :
    doubleUntil size fuel newCap = none ↔
      ∀ k < fuel, newCap.toNat * 2 ^ k % 2 ^ 64 < size.toNat := by
  induction fuel generalizing newCap with
  | zero => simp [doubleUntil]
  | succ fuel ih =>
    have hshift : ∀ k, (newCap * 2).toNat * 2 ^ k % 2 ^ 64 =
        newCap.toNat * 2 ^ (k + 1) % 2 ^ 64 := by
      intro k
      rw [UInt64.toNat_mul, show (2 : UInt64).toNat = 2 from rfl, Nat.mod_mul_mod, Nat.mul_assoc,
        Nat.mul_comm 2, ← Nat.pow_succ]
    have hzero : newCap.toNat * 2 ^ 0 % 2 ^ 64 = newCap.toNat := by
      rw [Nat.pow_zero, Nat.mul_one]
      exact Nat.mod_eq_of_lt newCap.toNat_lt
    rw [doubleUntil]
    by_cases hless : newCap < size
    · rw [if_pos hless, ih]
      constructor
      · intro h k hk
        cases k with
        | zero =>
          rw [hzero]
          exact hless
        | succ k =>
          rw [← hshift]
          exact h k (by omega)
      · intro h k hk
        rw [hshift]
        exact h (k + 1) (by omega)
    · rw [if_neg hless]
      constructor
      · intro h
        cases h
      · intro h
        have hfirst := h 0 (Nat.succ_pos fuel)
        rw [hzero] at hfirst
        exact absurd hfirst hless

/-- A loop that has not ended after 64 doublings never ends. -/
theorem doubleUntil_diverges {size newCap : UInt64} (h : doubleUntil size 65 newCap = none)
    (fuel : Nat) : doubleUntil size fuel newCap = none := by
  rw [doubleUntil_eq_none_iff] at h ⊢
  intro k hk
  by_cases hsmall : k < 65
  · exact h k hsmall
  · have hzero : newCap.toNat * 2 ^ k % 2 ^ 64 = 0 := by
      apply Nat.mod_eq_zero_of_dvd
      exact Nat.dvd_mul_left_of_dvd (Nat.pow_dvd_pow 2 (by omega)) _
    rw [hzero]
    exact Nat.zero_lt_of_lt (h 64 (by omega))

end RiakClient
