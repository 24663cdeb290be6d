import RiakClient.Types

/-!
# Binaries and arrays

`riak_binary.c` and the allocation helpers of `riak_utils.c`. A binary made by
`riak_binary_new` owns a copy of its bytes; one made from a protocol buffer
shares them with the message and is marked as not managed.

The two functions are described three times, for the three questions that are asked of
them: what has happened if they returned, what happens on any heap, and what they make
if every request is granted. `riak_array_realloc` copies as many slots as it is told
to, so the last two depend on how the numbers and the old block agree: growing a full
array keeps its slots, and a `memcpy` of more slots than there are, or than there will
be, is out of bounds.
-/

namespace RiakClient

open CSem

variable {α : Type} {heap final : Heap}

/-- `riak_binary_new`: the struct and its bytes are two allocations. -/
def riakBinaryNew (data : Bytes) : C (Option RiakBinary) := do
  if ← C.allocate then
    if ← C.allocate then pure (some ⟨data, true⟩) else pure none
  else pure none

/-- `riak_binary_copy` of a NULL binary is NULL. -/
def riakBinaryCopy : Option RiakBinary → C (Option RiakBinary)
  | none => pure none
  | some bin => riakBinaryNew bin.data

def riakBinaryCopyFromPb (data : Bytes) : C (Option RiakBinary) :=
  C.new ⟨data, false⟩

/-- `riak_binary_copy_to_pb` reads the binary without a check. -/
def riakBinaryCopyToPb (bin : Option RiakBinary) : C Bytes := do
  let b ← C.deref bin
  pure b.data

/-- The encoders' `if (has_x) riak_binary_copy_to_pb(&msg.x, x)`, on a member
    that starts out empty. -/
def copyToPbIf (has : Bool) (bin : Option RiakBinary) : C Bytes :=
  if has then riakBinaryCopyToPb bin else pure []

/-- The encoders' `if (has_x) msg.x = x`, on a member that starts out zero. -/
def assignIf [OfNat α 0] (has : Bool) (value : α) : α := if has then value else 0

/-- `riak_array_realloc`: a larger zeroed array takes over the first `oldnum`
    slots of the old one, which is freed. A refused allocation leaves the old
    array in place. The result says whether the function returned non-NULL. -/
def riakArrayRealloc (from_ : Ptr (List (Ptr α))) (oldnum newnum : UInt32) :
    C (Bool × Ptr (List (Ptr α))) := do
  if ← C.allocate then
    let old ← from_.deref
    if old.length < oldnum.toNat then C.fault .outOfBounds
    else do
      let array ← C.copyAt (List.replicate newnum.toNat Ptr.null) 0
        (old.take oldnum.toNat)
      pure (true, .obj array)
  else pure (false, from_)

/-! ### What these functions have done -/

theorem riakBinaryNew_granted (h : heap.Grants 2) (data : Bytes) :
    riakBinaryNew data heap = .ok (some ⟨data, true⟩, heap.after 2) := by
  obtain ⟨hstruct, hdata⟩ := (Heap.grants_succ heap 1).mp h
  unfold riakBinaryNew
  rw [C.bind_of_ok (C.allocate_eq heap), if_pos hstruct, C.bind_of_ok (C.allocate_eq _),
    if_pos (hdata 0 Nat.one_pos), Heap.after_after]
  rfl

theorem riakBinaryNew_refused (h : ¬ heap.Grants 2) (data : Bytes) :
    ∃ final, riakBinaryNew data heap = .ok (none, final) := by
  unfold riakBinaryNew
  rw [C.bind_of_ok (C.allocate_eq heap)]
  cases hstruct : heap.answer 0 with
  | false => exact ⟨_, rfl⟩
  | true =>
    rw [if_pos rfl, C.bind_of_ok (C.allocate_eq _)]
    cases hdata : (heap.after 1).answer 0 with
    | false => exact ⟨_, rfl⟩
    | true =>
      refine absurd ((Heap.grants_succ heap 1).mpr ⟨hstruct, ?_⟩) h
      exact (Heap.grants_succ _ 0).mpr ⟨hdata, Heap.grants_zero _⟩

/-! ### Growing an array on any heap -/

theorem riakArrayRealloc_refused (h : heap.answer 0 = false) (from_ : Ptr (List (Ptr α)))
    (oldnum newnum : UInt32) :
    riakArrayRealloc from_ oldnum newnum heap = .ok ((false, from_), heap.after 1) := by
  unfold riakArrayRealloc
  rw [C.bind_of_ok (C.allocate_eq heap), h]
  rfl

theorem riakArrayRealloc_granted (h : heap.answer 0 = true) {old : List (Ptr α)}
    {oldnum newnum : UInt32} (hold : oldnum.toNat ≤ old.length)
    (hnew : oldnum.toNat ≤ newnum.toNat) :
    riakArrayRealloc (.obj old) oldnum newnum heap =
      .ok ((true, .obj (old.take oldnum.toNat ++
        List.replicate (newnum.toNat - oldnum.toNat) .null)), heap.after 1) := by
  have htaken : (old.take oldnum.toNat).length = oldnum.toNat := by
    rw [List.length_take]
    omega
  have hfits : 0 + (old.take oldnum.toNat).length ≤
      (List.replicate newnum.toNat (Ptr.null : Ptr α)).length := by
    rw [List.length_replicate, htaken]
    omega
  unfold riakArrayRealloc
  rw [C.bind_of_ok (C.allocate_eq heap), h]
  simp only [if_true, Ptr.deref_obj, pure_bind]
  rw [if_neg (by omega), C.copyAt_of_le hfits]
  simp only [pure_bind, C.pure_apply, List.take_zero, List.nil_append, Nat.zero_add,
    List.drop_replicate, htaken]

/-- The `memcpy` of more slots than there are reads past the old block, and the one of
    more slots than there will be runs past the new block. -/
theorem riakArrayRealloc_faults (h : heap.answer 0 = true) {old : List (Ptr α)}
    {oldnum newnum : UInt32}
    (hout : ¬ (oldnum.toNat ≤ old.length ∧ oldnum.toNat ≤ newnum.toNat)) :
    riakArrayRealloc (.obj old) oldnum newnum heap = .error .outOfBounds := by
  unfold riakArrayRealloc
  rw [C.bind_of_ok (C.allocate_eq heap), h]
  simp only [if_true, Ptr.deref_obj, pure_bind]
  by_cases hold : old.length < oldnum.toNat
  · rw [if_pos hold]
    rfl
  · have htaken : (old.take oldnum.toNat).length = oldnum.toNat := by
      rw [List.length_take]
      omega
    rw [if_neg hold]
    apply C.bind_of_error
    unfold C.copyAt
    rw [htaken, if_neg (by omega), List.length_replicate, if_neg (by omega), C.fault_apply]

/-- What `riak_array_realloc` has done if it comes back: nothing, or the old slots
    are in front of NULLs. -/
theorem riakArrayRealloc_eq_ok {from_ array : Ptr (List (Ptr α))} {oldnum newnum : UInt32}
    {grown : Bool} {heap final : Heap}
    (h : riakArrayRealloc from_ oldnum newnum heap = .ok ((grown, array), final)) :
    final = heap.after 1 ∧ grown = heap.answer 0 ∧ (grown = false → array = from_) ∧
      (grown = true → ∃ old, from_ = .obj old ∧ oldnum.toNat ≤ old.length ∧
        oldnum.toNat ≤ newnum.toNat ∧
        array = .obj (old.take oldnum.toNat ++
          List.replicate (newnum.toNat - oldnum.toNat) .null)) := by
  cases hanswer : heap.answer 0 with
  | false =>
    rw [riakArrayRealloc_refused hanswer] at h
    cases h
    refine ⟨rfl, rfl, fun _ => rfl, ?_⟩
    rintro ⟨⟩
  | true =>
    cases from_ with
    | obj old =>
      by_cases hinside : oldnum.toNat ≤ old.length ∧ oldnum.toNat ≤ newnum.toNat
      · obtain ⟨hold, hnew⟩ := hinside
        rw [riakArrayRealloc_granted hanswer hold hnew] at h
        cases h
        refine ⟨rfl, rfl, ?_, fun _ => ⟨old, rfl, hold, hnew, rfl⟩⟩
        rintro ⟨⟩
      · rw [riakArrayRealloc_faults hanswer hinside] at h
        cases h
    | null | wild =>
      unfold riakArrayRealloc at h
      rw [C.bind_of_ok (C.allocate_eq heap), hanswer] at h
      cases h

/-! ### What these functions do on an ample heap -/

theorem riakBinaryNew_of_ample (h : heap.Ample) (data : Bytes) :
    riakBinaryNew data heap = .ok (some ⟨data, true⟩, heap) := by
  rw [riakBinaryNew_granted (h.grants 2), h.after]

/-- What `riak_binary_copy` makes of a binary. -/
def copiedBinary (bin : Option RiakBinary) : Option RiakBinary :=
  bin.map fun b => ⟨b.data, true⟩

theorem riakBinaryCopy_of_ample (h : heap.Ample) (bin : Option RiakBinary) :
    riakBinaryCopy bin heap = .ok (copiedBinary bin, heap) := by
  cases bin with
  | none => rfl
  | some b => exact riakBinaryNew_of_ample h b.data

theorem riakBinaryCopy_total (bin : Option RiakBinary) (heap : Heap) :
    ∃ copy rest, riakBinaryCopy bin heap = .ok (copy, rest) ∧
      (copy = copiedBinary bin ∨ copy = none) := by
  cases bin with
  | none => exact ⟨none, heap, rfl, Or.inr rfl⟩
  | some b =>
    by_cases hgrants : heap.Grants 2
    · exact ⟨_, _, riakBinaryNew_granted hgrants b.data, Or.inl rfl⟩
    · obtain ⟨final, hrefused⟩ := riakBinaryNew_refused hgrants b.data
      exact ⟨none, final, hrefused, Or.inr rfl⟩

theorem riakBinaryCopyFromPb_of_ample (h : heap.Ample) (data : Bytes) :
    riakBinaryCopyFromPb data heap = .ok (some ⟨data, false⟩, heap) :=
  C.new_of_ample h _

theorem riakArrayRealloc_taken (h : heap.Ample) {old : List (Ptr α)} {oldnum newnum : UInt32}
    (hold : oldnum.toNat ≤ old.length) (hnew : oldnum.toNat ≤ newnum.toNat) :
    riakArrayRealloc (.obj old) oldnum newnum heap =
      .ok ((true, .obj (old.take oldnum.toNat ++
        List.replicate (newnum.toNat - oldnum.toNat) .null)), heap) := by
  rw [riakArrayRealloc_granted (h.grants 1 0 Nat.one_pos) hold hnew, h.after]

theorem riakArrayRealloc_of_ample (h : heap.Ample) {old : List (Ptr α)}
    {oldnum newnum : UInt32} (hold : oldnum.toNat = old.length)
    (hnew : oldnum.toNat ≤ newnum.toNat) :
    riakArrayRealloc (.obj old) oldnum newnum heap =
      .ok ((true, .obj (old ++ List.replicate (newnum.toNat - oldnum.toNat) .null)), heap) := by
  rw [riakArrayRealloc_taken h (Nat.le_of_eq hold) hnew, hold, List.take_length]

theorem riakArrayRealloc_short (h : heap.Ample) {old : List (Ptr α)} {oldnum newnum : UInt32}
    (hold : old.length < oldnum.toNat) :
    riakArrayRealloc (.obj old) oldnum newnum heap = .error .outOfBounds :=
  riakArrayRealloc_faults (h.grants 1 0 Nat.one_pos) fun hfits => Nat.not_lt.mpr hfits.1 hold

theorem riakArrayRealloc_shrinking (h : heap.Ample) {old : List (Ptr α)}
    {oldnum newnum : UInt32} (hnew : newnum.toNat < oldnum.toNat) :
    riakArrayRealloc (.obj old) oldnum newnum heap = .error .outOfBounds :=
  riakArrayRealloc_faults (h.grants 1 0 Nat.one_pos) fun hfits => Nat.not_lt.mpr hfits.2 hnew

/-! ### Successful copies into a protocol buffer -/

theorem riakBinaryCopyToPb_eq_ok {bin : Option RiakBinary} {data : Bytes} :
    riakBinaryCopyToPb bin heap = .ok (data, final) ↔
      ∃ b, bin = some b ∧ data = b.data ∧ final = heap := by
  cases bin with
  | none => simp [riakBinaryCopyToPb, C.bind_apply]
  | some b =>
    simp only [riakBinaryCopyToPb, C.deref_some, pure_bind, C.pure_apply, Except.ok.injEq,
      Prod.mk.injEq, Option.some.injEq, exists_eq_left']
    exact and_congr eq_comm eq_comm

theorem copyToPbIf_eq_ok {has : Bool} {bin : Option RiakBinary} {data : Bytes} :
    copyToPbIf has bin heap = .ok (data, final) ↔
      final = heap ∧ (has = true → ∃ b, bin = some b ∧ data = b.data) ∧
        (has = false → data = []) := by
  cases has with
  | false =>
    simp only [copyToPbIf, Bool.false_eq_true, if_false, C.pure_apply, Except.ok.injEq,
      Prod.mk.injEq, false_imp_iff, true_and, forall_true_left]
    exact and_comm.trans (and_congr eq_comm eq_comm)
  | true =>
    simp only [copyToPbIf, if_true, riakBinaryCopyToPb_eq_ok, forall_true_left, Bool.true_eq_false,
      false_imp_iff, and_true]
    constructor
    · rintro ⟨b, hbin, hdata, hheap⟩
      exact ⟨hheap, b, hbin, hdata⟩
    · rintro ⟨hheap, b, hbin, hdata⟩
      exact ⟨b, hbin, hdata, hheap⟩

theorem riakBinaryCopyToPb_of_isSome {bin : Option RiakBinary} (hbin : bin.isSome) :
    ∃ data, riakBinaryCopyToPb bin = pure data := by
  cases bin with
  | none => cases hbin
  | some b => exact ⟨b.data, rfl⟩

theorem copyToPbIf_of_isSome {has : Bool} {bin : Option RiakBinary}
    (hbin : has = true → bin.isSome) : ∃ data, copyToPbIf has bin = pure data := by
  cases has with
  | false => exact ⟨[], rfl⟩
  | true => exact riakBinaryCopyToPb_of_isSome (hbin rfl)

end RiakClient
