import RiakClient.ArrayRefinement

/-!
# What the index checks of an array are worth

The positions of `riak_array.c` are sizes, and its checks compare them as signed
numbers. Behind a check the loops count with `int`s, and the block may have other
slots than the capacity says. Over all arrays that calls can make, this module says
which calls answer what their position asks for, and which get past their check
without a slot to go to.

The invariant over all reachable arrays is `RiakArray.Bounded`: an array that calls
have made is bounded, whether their positions were right or not, and no length leaves
the type that it is counted in. Each of the four functions with a position is then
described once, by the condition that its check is and by the slots that it goes to
(`ArrayCall.Checked`); the theorem compares both with the position that was meant.
-/

namespace RiakClient

open CSem

variable {α : Type} {heap final : Heap}

/-! ### What the moves need

A loop that moves elements comes back, on a block that is as long as before, or it
faults. Which one it is depends on the number of slots alone. -/

/-- Opening a slot at `pos` stays inside a block of `room` slots. -/
def OpensInside (length : Int) (pos : UInt64) (room : Nat) : Prop :=
  0 < length → asInt64 pos.toNat < length →
    0 ≤ asInt length ∧ (pos.toNat < asInt length → asInt length < room)

/-- Closing the slot at `pos` does. The last round reads the slot behind the last
    element. -/
def ClosesInside (length : Int) (pos : UInt64) (room : Nat) : Prop :=
  asInt pos.toNat < length → 0 ≤ asInt pos.toNat ∧ length < room ∧ length < 2 ^ 31

theorem shiftUp_inside {pos j : Nat} {slots : List (Ptr α)} (h : pos < j → j < slots.length) :
    ∃ moved, shiftUp pos j slots = pure moved ∧ moved.length = slots.length := by
  induction j generalizing slots with
  | zero => exact ⟨slots, rfl, rfl⟩
  | succ j ih =>
    rw [shiftUp]
    by_cases hless : pos < j + 1
    · have hroom := h hless
      have hread : slots[j]? = some slots[j] := List.getElem?_eq_getElem (by omega)
      obtain ⟨moved, hmoved, hlength⟩ := @ih (slots.set (j + 1) slots[j]) (fun _ => by
        rw [List.length_set]
        omega)
      rw [List.length_set] at hlength
      refine ⟨moved, ?_, hlength⟩
      rw [if_pos hless, C.readAt_of_get hread, pure_bind, C.writeAt_of_lt hroom, pure_bind, hmoved]
    · exact ⟨slots, if_neg hless, rfl⟩

theorem shiftUp_outside {pos j : Nat} {slots : List (Ptr α)} (hless : pos < j)
    (hroom : slots.length ≤ j) : shiftUp pos j slots = C.fault .outOfBounds := by
  cases j with
  | zero => exact absurd hless (Nat.not_lt_zero _)
  | succ j =>
    rw [shiftUp, if_pos hless]
    by_cases hlast : j < slots.length
    · rw [C.readAt_of_get (List.getElem?_eq_getElem hlast), pure_bind, C.writeAt_of_le hroom]
      rfl
    · rw [C.readAt_of_le (Nat.not_lt.mp hlast)]
      rfl

theorem shiftDown_inside {rounds j : Nat} {slots : List (Ptr α)}
    (h : 0 < rounds → j + rounds < slots.length ∧ j + rounds < 2 ^ 31) :
    ∃ moved, shiftDown rounds j slots = pure moved ∧ moved.length = slots.length := by
  induction rounds generalizing j slots with
  | zero => exact ⟨slots, rfl, rfl⟩
  | succ rounds ih =>
    obtain ⟨hroom, hint⟩ := h (Nat.succ_pos _)
    have hread : slots[j + 1]? = some slots[j + 1] := List.getElem?_eq_getElem (by omega)
    obtain ⟨moved, hmoved, hlength⟩ := @ih (j + 1) (slots.set j slots[j + 1]) (fun _ => by
      rw [List.length_set]
      omega)
    rw [List.length_set] at hlength
    refine ⟨moved, ?_, hlength⟩
    rw [shiftDown, C.readAt_of_get hread, pure_bind, C.writeAt_of_lt (by omega), pure_bind,
      C.intSucc_of_lt (by omega), pure_bind, hmoved]

theorem shiftDown_outside {rounds j : Nat} {slots : List (Ptr α)} (hrounds : 0 < rounds)
    (h : ¬ (j + rounds < slots.length ∧ j + rounds < 2 ^ 31)) :
    ∃ fault, shiftDown rounds j slots = C.fault fault := by
  induction rounds generalizing j slots with
  | zero => exact absurd hrounds (Nat.lt_irrefl 0)
  | succ rounds ih =>
    rw [shiftDown]
    by_cases hroom : j + 1 < slots.length
    · rw [C.readAt_of_get (List.getElem?_eq_getElem hroom), pure_bind,
        C.writeAt_of_lt (by omega), pure_bind]
      by_cases hint : j + 1 < 2 ^ 31
      · rw [C.intSucc_of_lt hint, pure_bind]
        apply ih
        · by_contra hlast
          exact h ⟨by omega, by omega⟩
        · rw [List.length_set]
          omega
      · rw [C.intSucc_of_le (Nat.not_lt.mp hint)]
        exact ⟨_, rfl⟩
    · rw [C.readAt_of_le (Nat.not_lt.mp hroom)]
      exact ⟨_, rfl⟩

theorem openSlot_inside {length : Int} {pos : UInt64} {slots : List (Ptr α)}
    (h : OpensInside length pos slots.length) :
    ∃ moved, openSlot length pos slots = pure moved ∧ moved.length = slots.length := by
  unfold openSlot
  by_cases hmoves : 0 < length ∧ asInt64 pos.toNat < length
  · obtain ⟨hpositive, hroom⟩ := h hmoves.1 hmoves.2
    rw [if_pos hmoves]
    cases hindex : asInt length with
    | ofNat j =>
      rw [hindex] at hroom
      exact shiftUp_inside fun hless => Int.ofNat_lt.mp (hroom (Int.ofNat_lt.mpr hless))
    | negSucc j =>
      rw [hindex] at hpositive
      exact absurd hpositive (by omega)
  · exact ⟨slots, if_neg hmoves, rfl⟩

theorem openSlot_outside {length : Int} {pos : UInt64} {slots : List (Ptr α)}
    (h : ¬ OpensInside length pos slots.length) :
    openSlot length pos slots = C.fault .outOfBounds := by
  unfold OpensInside at h
  simp only [Classical.not_imp] at h
  obtain ⟨hlength, hpos, hroom⟩ := h
  unfold openSlot
  rw [if_pos ⟨hlength, hpos⟩]
  cases hindex : asInt length with
  | ofNat j =>
    rw [hindex] at hroom
    have hout : pos.toNat < j ∧ slots.length ≤ j := by
      by_contra hin
      exact hroom ⟨Int.natCast_nonneg j, fun hless => by
        simp only [Int.ofNat_eq_natCast] at hless ⊢
        omega⟩
    exact shiftUp_outside hout.1 hout.2
  | negSucc j => rfl

theorem closeSlot_inside {length : Int} {pos : UInt64} {slots : List (Ptr α)}
    (h : ClosesInside length pos slots.length) :
    ∃ moved, closeSlot length pos slots = pure moved ∧ moved.length = slots.length := by
  unfold closeSlot
  by_cases hmoves : asInt pos.toNat < length
  · obtain ⟨hpositive, hroom, hint⟩ := h hmoves
    rw [if_pos hmoves]
    cases hindex : asInt pos.toNat with
    | ofNat j =>
      rw [hindex] at hmoves
      simp only [Int.ofNat_eq_natCast] at hmoves ⊢
      exact shiftDown_inside fun _ => ⟨by omega, by omega⟩
    | negSucc j =>
      rw [hindex] at hpositive
      exact absurd hpositive (by omega)
  · exact ⟨slots, if_neg hmoves, rfl⟩

theorem closeSlot_outside {length : Int} {pos : UInt64} {slots : List (Ptr α)}
    (h : ¬ ClosesInside length pos slots.length) :
    ∃ fault, closeSlot length pos slots = C.fault fault := by
  unfold ClosesInside at h
  rw [Classical.not_imp] at h
  obtain ⟨hmoves, hroom⟩ := h
  unfold closeSlot
  rw [if_pos hmoves]
  cases hindex : asInt pos.toNat with
  | ofNat j =>
    rw [hindex] at hmoves hroom
    simp only [Int.ofNat_eq_natCast] at hmoves hroom ⊢
    exact shiftDown_outside (by omega) (by omega)
  | negSucc j => exact ⟨_, rfl⟩

/-! ### Every array that calls can make -/

/-- An array that `riak_array_new` made and that calls have changed, with any
    memory. `riak_array_sort` puts the elements in some order. -/
inductive RiakArray.Reachable : RiakArray α → Prop where
  | new {capacity : UInt64} {ra : RiakArray α} {heap final : Heap} :
      riakArrayNew capacity heap = .ok ((.ok, some ra), final) → Reachable ra
  | call {ra ra' : RiakArray α} {call : ArrayCall α} {reply : ArrayReply α} {heap final : Heap} :
      Reachable ra → call.run (.obj ra) heap = .ok (some (reply, .obj ra'), final) →
      Reachable ra'
  | sort {ra : RiakArray α} {elems sorted spare : List (Ptr α)} :
      Reachable ra → ra.array = .obj (elems ++ spare) → ra.length = elems.length →
      sorted.Perm elems → Reachable { ra with array := .obj (sorted ++ spare) }

theorem obj_of_riakArrayCalls {calls : List (ArrayCall α)} {p : Ptr (RiakArray α)}
    {ra' : RiakArray α} {replies : List (ArrayReply α)}
    (h : riakArrayCalls calls p heap = .ok (some (replies, .obj ra'), final)) :
    ∃ ra, p = .obj ra := by
  cases calls with
  | nil =>
    obtain ⟨hsame, _⟩ := C.pure_eq_ok.mp h
    simp only [Option.some.injEq, Prod.mk.injEq] at hsame
    exact ⟨ra', hsame.2⟩
  | cons call calls =>
    rw [riakArrayCalls] at h
    obtain ⟨_, _, hcall, _⟩ := C.bind_eq_ok.mp h
    unfold ArrayCall.run at hcall
    obtain ⟨ra, _, hderef, _⟩ := C.bind_eq_ok.mp hcall
    exact ⟨ra, (Ptr.deref_eq_ok.mp hderef).1⟩

theorem RiakArray.Reachable.calls {calls : List (ArrayCall α)} {ra ra' : RiakArray α}
    {replies : List (ArrayReply α)} {heap final : Heap} (h : ra.Reachable)
    (hcalls : riakArrayCalls calls (.obj ra) heap = .ok (some (replies, .obj ra'), final)) :
    ra'.Reachable := by
  induction calls generalizing ra replies heap with
  | nil =>
    obtain ⟨hsame, _⟩ := C.pure_eq_ok.mp hcalls
    simp only [Option.some.injEq, Prod.mk.injEq, Ptr.obj.injEq] at hsame
    rw [← hsame.2]
    exact h
  | cons call calls ih =>
    rw [riakArrayCalls] at hcalls
    obtain ⟨next, heap₁, hcall, hcalls⟩ := C.bind_eq_ok.mp hcalls
    cases next with
    | none =>
      obtain ⟨hnone, _⟩ := C.pure_eq_ok.mp hcalls
      cases hnone
    | some next =>
      obtain ⟨later, heap₂, hlater, hcalls⟩ := C.bind_eq_ok.mp hcalls
      cases later with
      | none =>
        obtain ⟨hnone, _⟩ := C.pure_eq_ok.mp hcalls
        cases hnone
      | some later =>
        obtain ⟨hsame, rfl⟩ := C.pure_eq_ok.mp hcalls
        simp only [Option.some.injEq, Prod.mk.injEq] at hsame
        obtain ⟨reply, p⟩ := next
        obtain ⟨replies, q⟩ := later
        obtain rfl : q = .obj ra' := hsame.2
        obtain ⟨ra₁, rfl⟩ := obj_of_riakArrayCalls hlater
        exact ih (h.call hcall) hlater

/-- What holds of all of them: a block, no more slots in it than a size can count,
    and a length that the capacity bounds. The length can be negative, but it stays in
    the `int64_t` that it is counted in. -/
structure RiakArray.Bounded (ra : RiakArray α) : Prop where
  block : ∃ slots, ra.array = .obj slots ∧ slots.length ≤ 2 ^ 61
  filled : ra.length ≤ ra.capacity.toNat
  short : ra.length ≤ 2 ^ 61 + 2 ^ 31
  signed : -2 ^ 63 ≤ ra.length

/-- No length that is counted up or down leaves its type. -/
theorem RiakArray.Bounded.length_fits {ra : RiakArray α} (h : ra.Bounded) :
    asInt64 ra.length = ra.length := by
  have hshort := h.short
  have hsigned := h.signed
  apply Int.bmod_eq_of_le <;> omega

theorem asInt64_low (i : Int) : -2 ^ 63 ≤ asInt64 i := by
  unfold asInt64
  have hlow := Int.le_bmod (x := i) (m := 2 ^ 64) (by decide)
  omega

theorem slotCount_le_pow (size : UInt64) : slotCount size ≤ 2 ^ 61 := by
  have hsize := (8 * size).toNat_lt
  unfold slotCount
  omega

theorem ofInt_succ_toNat {length : Int} (hlength : 0 ≤ length) (hshort : length ≤ 2 ^ 61 + 2 ^ 31) :
    ((UInt64.ofInt (length + 1)).toNat : Int) = length + 1 := by
  obtain ⟨n, rfl⟩ := Int.eq_ofNat_of_zero_le hlength
  rw [succ_length_toNat (by omega)]
  rfl

/-! ### What the calls have done

Inversion of the functions that may change the block, and of the calls as the caller
sees them: what has happened if they returned. Insertion and push go through the
resize, which leaves the length alone and the elements where they were. -/

theorem le_of_doubleUntil {size newCap : UInt64} {fuel : Nat} {cap : UInt64}
    (h : doubleUntil size fuel cap = some newCap) : size ≤ newCap := by
  induction fuel generalizing cap with
  | zero => cases h
  | succ fuel ih =>
    rw [doubleUntil] at h
    by_cases hless : cap < size
    · rw [if_pos hless] at h
      exact ih h
    · rw [if_neg hless] at h
      cases h
      exact UInt64.not_lt.mp hless

theorem riakArrayResize_eq_ok {ra : RiakArray α} {size : UInt64} {err : RiakError}
    {resized : Ptr (RiakArray α)}
    (h : riakArrayResize ra size heap = .ok (some (err, resized), final)) :
    (¬ ra.capacity < size ∧ err = .ok ∧ resized = .obj ra) ∨
      (err = .outOfMemory ∧ heap.answer 0 = false ∧ resized = .wild) ∨
      (ra.capacity < size ∧ err = .ok ∧ ∃ newCap slots,
        doubleUntil size 65 ra.capacity = some newCap ∧
        slots.length = newCap.toUInt32.toNat ∧
        resized = .obj { ra with array := .obj slots, capacity := newCap }) := by
  unfold riakArrayResize at h
  by_cases hless : ra.capacity < size
  · rw [if_pos hless] at h
    cases hloop : doubleUntil size 65 ra.capacity with
    | none =>
      rw [hloop] at h
      obtain ⟨hnone, _⟩ := C.pure_eq_ok.mp h
      cases hnone
    | some newCap =>
      rw [hloop] at h
      obtain ⟨⟨grown, array⟩, heap₁, hrealloc, hlast⟩ := C.bind_eq_ok.mp h
      obtain ⟨_, hgrown, _, hslots⟩ := riakArrayRealloc_eq_ok hrealloc
      cases grown with
      | false =>
        obtain ⟨hsome, _⟩ := C.pure_eq_ok.mp hlast
        cases hsome
        exact Or.inr (Or.inl ⟨rfl, hgrown.symm, rfl⟩)
      | true =>
        obtain ⟨hsome, _⟩ := C.pure_eq_ok.mp hlast
        cases hsome
        obtain ⟨old, _, hold, hnew, harray⟩ := hslots rfl
        refine Or.inr (Or.inr ⟨hless, rfl, newCap, _, rfl, ?_, by rw [harray]⟩)
        rw [List.length_append, List.length_take, List.length_replicate]
        omega
  · rw [if_neg hless] at h
    obtain ⟨hsome, _⟩ := C.pure_eq_ok.mp h
    cases hsome
    exact Or.inl ⟨hless, rfl, rfl⟩

/-- Insertion and push go on where `riak_array_resize` succeeded, and otherwise
    return what it returned: the array is gone. -/
theorem resized_eq_ok {ra : RiakArray α} {size : UInt64} {err : RiakError}
    {left : Ptr (RiakArray α)} {body : RiakArray α → C (Option (RiakError × Ptr (RiakArray α)))}
    (h : (riakArrayResize ra size >>= fun resized => match resized with
        | none => pure none
        | some (err, resized) =>
            if err ≠ .ok then pure (some (err, resized)) else resized.deref >>= body) heap =
      .ok (some (err, left), final)) :
    (err = .outOfMemory ∧ heap.answer 0 = false ∧ left = .wild) ∨
      ∃ ra₁ heap₁, riakArrayResize ra size heap = .ok (some (.ok, .obj ra₁), heap₁) ∧
        body ra₁ heap₁ = .ok (some (err, left), final) := by
  obtain ⟨resized, heap₁, hresize, hbody⟩ := C.bind_eq_ok.mp h
  cases resized with
  | none =>
    obtain ⟨hnone, _⟩ := C.pure_eq_ok.mp hbody
    cases hnone
  | some resized =>
    obtain ⟨err₁, p⟩ := resized
    by_cases herr : err₁ = .ok
    · subst herr
      simp only [ne_eq, not_true_eq_false, if_false] at hbody
      obtain ⟨ra₁, heap₂, hderef, hrest⟩ := C.bind_eq_ok.mp hbody
      obtain ⟨rfl, rfl⟩ := Ptr.deref_eq_ok.mp hderef
      exact Or.inr ⟨ra₁, _, hresize, hrest⟩
    · simp only [ne_eq, herr, not_false_eq_true, if_true] at hbody
      obtain ⟨hsome, _⟩ := C.pure_eq_ok.mp hbody
      cases hsome
      rcases riakArrayResize_eq_ok hresize with ⟨_, hok, _⟩ | hmemory | ⟨_, hok, _⟩
      · exact absurd hok herr
      · exact Or.inl hmemory
      · exact absurd hok herr

theorem riakArrayInsert_eq_ok {ra : RiakArray α} {pos : UInt64} {elem : Ptr α} {err : RiakError}
    {inserted : Ptr (RiakArray α)}
    (h : riakArrayInsert ra pos elem heap = .ok (some (err, inserted), final)) :
    (ra.length < asInt64 pos.toNat ∧ err = .outOfRange ∧ inserted = .obj ra ∧ final = heap) ∨
      (err = .outOfMemory ∧ heap.answer 0 = false ∧ inserted = .wild) ∨
      (asInt64 pos.toNat ≤ ra.length ∧ err = .ok ∧ ∃ ra₁ slots moved,
        riakArrayResize ra (UInt64.ofInt (ra.length + 1)) heap =
          .ok (some (.ok, .obj ra₁), final) ∧
        ra₁.array = .obj slots ∧ OpensInside ra₁.length pos slots.length ∧
        pos.toNat < slots.length ∧ moved.length = slots.length ∧
        inserted = .obj { ra₁ with length := ra₁.length + 1, array := .obj moved }) := by
  unfold riakArrayInsert at h
  by_cases hrefused : ra.length < asInt64 pos.toNat
  · rw [if_pos hrefused] at h
    obtain ⟨hsome, hheap⟩ := C.pure_eq_ok.mp h
    cases hsome
    exact Or.inl ⟨hrefused, rfl, rfl, hheap.symm⟩
  · rw [if_neg hrefused] at h
    rcases resized_eq_ok h with hmemory | ⟨ra₁, heap₁, hresize, hbody⟩
    · exact Or.inr (Or.inl hmemory)
    · obtain ⟨slots, heap₂, hblock, hmove⟩ := C.bind_eq_ok.mp hbody
      obtain ⟨hslots, rfl⟩ := Ptr.deref_eq_ok.mp hblock
      by_cases hopens : OpensInside ra₁.length pos slots.length
      · obtain ⟨moved, hmoved, hlength⟩ := openSlot_inside hopens
        rw [hmoved, pure_bind] at hmove
        obtain ⟨written, heap₃, hwrite, hlast⟩ := C.bind_eq_ok.mp hmove
        obtain ⟨hin, rfl, rfl⟩ := C.writeAt_eq_ok.mp hwrite
        obtain ⟨hsome, rfl⟩ := C.pure_eq_ok.mp hlast
        cases hsome
        refine Or.inr (Or.inr ⟨Int.not_lt.mp hrefused, rfl, ra₁, slots, _, hresize, hslots,
          hopens, hlength ▸ hin, ?_, rfl⟩)
        rw [List.length_set, hlength]
      · rw [openSlot_outside hopens] at hmove
        cases hmove

theorem riakArrayPush_eq_ok {ra : RiakArray α} {elem : Ptr α} {err : RiakError}
    {pushed : Ptr (RiakArray α)}
    (h : riakArrayPush ra elem heap = .ok (some (err, pushed), final)) :
    (err = .outOfMemory ∧ heap.answer 0 = false ∧ pushed = .wild) ∨
      (err = .ok ∧ ∃ ra₁ slots slots',
        riakArrayResize ra (UInt64.ofInt (ra.length + 1)) heap =
          .ok (some (.ok, .obj ra₁), final) ∧
        ra₁.array = .obj slots ∧ 0 ≤ ra₁.length ∧ ra₁.length < slots.length ∧
        slots'.length = slots.length ∧
        pushed = .obj { ra₁ with array := .obj slots', length := ra₁.length + 1 }) := by
  unfold riakArrayPush at h
  rcases resized_eq_ok h with hmemory | ⟨ra₁, heap₁, hresize, hbody⟩
  · exact Or.inl hmemory
  · obtain ⟨slots, heap₂, hblock, hstore⟩ := C.bind_eq_ok.mp hbody
    obtain ⟨hslots, rfl⟩ := Ptr.deref_eq_ok.mp hblock
    obtain ⟨written, heap₃, hwrite, hlast⟩ := C.bind_eq_ok.mp hstore
    obtain ⟨hsome, hheap⟩ := C.pure_eq_ok.mp hlast
    cases hsome
    cases hlength : ra₁.length with
    | ofNat n =>
      rw [hlength] at hwrite
      obtain ⟨hin, rfl, rfl⟩ := C.writeAt_eq_ok.mp hwrite
      exact Or.inr ⟨rfl, ra₁, slots, slots.set n elem, hheap ▸ hresize, hslots,
        hlength ▸ Int.natCast_nonneg n, hlength ▸ Int.ofNat_lt.mpr hin, List.length_set,
        by rw [hlength]⟩
    | negSucc n =>
      rw [hlength] at hwrite
      cases hwrite

theorem ArrayCall.run_insert_eq_ok {ra : RiakArray α} {pos : UInt64} {elem : Ptr α}
    {reply : ArrayReply α} {left : Ptr (RiakArray α)}
    (h : (insert pos elem).run (.obj ra) heap = .ok (some (reply, left), final)) :
    ∃ err, reply = .code err ∧
      riakArrayInsert ra pos elem heap = .ok (some (err, left), final) := by
  rw [run_insert] at h
  obtain ⟨inserted, heap₁, hinsert, hlast⟩ := C.bind_eq_ok.mp h
  obtain ⟨hsome, rfl⟩ := C.pure_eq_ok.mp hlast
  obtain ⟨⟨err, p⟩, rfl, hreply⟩ := Option.map_eq_some_iff.mp hsome
  cases hreply
  exact ⟨err, rfl, hinsert⟩

theorem ArrayCall.run_push_eq_ok {ra : RiakArray α} {elem : Ptr α} {reply : ArrayReply α}
    {left : Ptr (RiakArray α)}
    (h : (push elem).run (.obj ra) heap = .ok (some (reply, left), final)) :
    ∃ err, reply = .code err ∧ riakArrayPush ra elem heap = .ok (some (err, left), final) := by
  rw [run_push] at h
  obtain ⟨pushed, heap₁, hpush, hlast⟩ := C.bind_eq_ok.mp h
  obtain ⟨hsome, rfl⟩ := C.pure_eq_ok.mp hlast
  obtain ⟨⟨err, p⟩, rfl, hreply⟩ := Option.map_eq_some_iff.mp hsome
  cases hreply
  exact ⟨err, rfl, hpush⟩

theorem ArrayCall.run_pop_eq_ok {ra : RiakArray α} {reply : ArrayReply α}
    {left : Ptr (RiakArray α)}
    (h : (pop : ArrayCall α).run (.obj ra) heap = .ok (some (reply, left), final)) :
    (¬ 0 < ra.length ∧ reply = .elem .outOfRange none ∧ left = .obj ra) ∨
      (0 < ra.length ∧ (∃ elem, reply = .elem .ok (some elem)) ∧
        left = .obj { ra with length := ra.length - 1 }) := by
  rw [run_pop, riakArrayPop] at h
  by_cases hany : 0 < ra.length
  · rw [if_pos hany] at h
    obtain ⟨_, _, hpop, hlast⟩ := C.bind_eq_ok.mp h
    obtain ⟨_, _, _, hread⟩ := C.bind_eq_ok.mp hpop
    obtain ⟨elem, _, _, hdone⟩ := C.bind_eq_ok.mp hread
    obtain ⟨rfl, _⟩ := C.pure_eq_ok.mp hdone
    obtain ⟨hsome, _⟩ := C.pure_eq_ok.mp hlast
    cases hsome
    exact Or.inr ⟨hany, ⟨elem, rfl⟩, rfl⟩
  · rw [if_neg hany, pure_bind] at h
    obtain ⟨hsome, _⟩ := C.pure_eq_ok.mp h
    cases hsome
    exact Or.inl ⟨hany, rfl, rfl⟩

theorem RiakArray.Bounded.resize {ra ra₁ : RiakArray α} (h : ra.Bounded)
    (hresize : riakArrayResize ra (UInt64.ofInt (ra.length + 1)) heap =
      .ok (some (.ok, .obj ra₁), final)) :
    (∃ slots, ra₁.array = .obj slots ∧ slots.length ≤ 2 ^ 61) ∧ ra₁.length = ra.length ∧
      (0 ≤ ra.length → ra.length + 1 ≤ ra₁.capacity.toNat) := by
  rcases riakArrayResize_eq_ok hresize with
    ⟨hfits, _, hsame⟩ | ⟨hmemory, _⟩ | ⟨_, _, newCap, slots, hloop, hslots, hgrown⟩
  · cases hsame
    refine ⟨h.block, rfl, fun hlength => ?_⟩
    have hsize := ofInt_succ_toNat hlength h.short
    rw [UInt64.lt_iff_toNat_lt] at hfits
    omega
  · cases hmemory
  · cases hgrown
    refine ⟨⟨slots, rfl, ?_⟩, rfl, fun hlength => ?_⟩
    · have hcap := newCap.toUInt32.toNat_lt
      omega
    · have hsize := ofInt_succ_toNat hlength h.short
      have hgrows := UInt64.le_iff_toNat_le.mp (le_of_doubleUntil hloop)
      show ra.length + 1 ≤ newCap.toNat
      omega

theorem RiakArray.Bounded.insert {ra ra' : RiakArray α} {pos : UInt64} {elem : Ptr α}
    {err : RiakError} (h : ra.Bounded)
    (hinsert : riakArrayInsert ra pos elem heap = .ok (some (err, .obj ra'), final)) :
    ra'.Bounded := by
  rcases riakArrayInsert_eq_ok hinsert with
    ⟨_, _, hsame, _⟩ | ⟨_, _, hfreed⟩ |
    ⟨hpass, _, ra₁, slots, moved, hresize, hslots, hopens, hin, hmoved, hinserted⟩
  · cases hsame
    exact h
  · cases hfreed
  · cases hinserted
    obtain ⟨⟨block, hblock, hsmall⟩, hlength, hfilled⟩ := h.resize hresize
    rw [hblock, Ptr.obj.injEq] at hslots
    subst hslots
    have hshort := h.short
    rw [asInt64_of_lt (by omega)] at hpass
    rw [hlength] at hopens
    -- at the bound the `int` of the loop is negative
    have hbound : ra.length ≠ 2 ^ 61 + 2 ^ 31 := by
      intro heq
      have hmoves := (hopens (by omega) (by rw [asInt64_of_lt (by omega)]; omega)).1
      rw [heq] at hmoves
      exact absurd hmoves (by decide)
    refine ⟨⟨moved, rfl, by omega⟩, ?_, ?_, ?_⟩
    · show ra₁.length + 1 ≤ ra₁.capacity.toNat
      rw [hlength]
      exact hfilled (by omega)
    · show ra₁.length + 1 ≤ 2 ^ 61 + 2 ^ 31
      omega
    · show -2 ^ 63 ≤ ra₁.length + 1
      omega

theorem RiakArray.Bounded.push {ra ra' : RiakArray α} {elem : Ptr α} {err : RiakError}
    (h : ra.Bounded) (hpush : riakArrayPush ra elem heap = .ok (some (err, .obj ra'), final)) :
    ra'.Bounded := by
  rcases riakArrayPush_eq_ok hpush with
    ⟨_, _, hfreed⟩ | ⟨_, ra₁, slots, slots', hresize, hslots, hpositive, hin, hsize, hpushed⟩
  · cases hfreed
  · cases hpushed
    obtain ⟨⟨block, hblock, hsmall⟩, hlength, hfilled⟩ := h.resize hresize
    rw [hblock, Ptr.obj.injEq] at hslots
    subst hslots
    refine ⟨⟨slots', rfl, by omega⟩, ?_, ?_, ?_⟩
    · show ra₁.length + 1 ≤ ra₁.capacity.toNat
      rw [hlength]
      exact hfilled (by omega)
    · show ra₁.length + 1 ≤ 2 ^ 61 + 2 ^ 31
      omega
    · show -2 ^ 63 ≤ ra₁.length + 1
      omega

theorem RiakArray.Bounded.of_le {ra : RiakArray α} (h : ra.Bounded) {length : Int}
    {slots slots' : List (Ptr α)} (hblock : ra.array = .obj slots)
    (hlength : length ≤ ra.length) (hsigned : -2 ^ 63 ≤ length)
    (hslots : slots'.length = slots.length) :
    RiakArray.Bounded { ra with length := length, array := .obj slots' } := by
  obtain ⟨⟨block, hobj, hsmall⟩, hfilled, hshort, _⟩ := h
  rw [hblock, Ptr.obj.injEq] at hobj
  subst hobj
  exact ⟨⟨slots', rfl, hslots ▸ hsmall⟩, Int.le_trans hlength hfilled,
    Int.le_trans hlength hshort, hsigned⟩

/-! ### Calls with a position

Each of the four functions refuses a position or goes to its slots. It comes back
from there if all the slots it goes to exist. -/

def ArrayReply.err : ArrayReply α → RiakError
  | code err | elem err _ => err
  | length _ => .ok

/-- What was stored through the `elem` of the caller. -/
def ArrayReply.stored : ArrayReply α → Option (Ptr α)
  | elem _ slot => slot
  | code _ | length _ => none

/-- A call with a check that `passes` and with slots that fit or do not. -/
structure ArrayCall.Checked (call : ArrayCall α) (ra : RiakArray α) (heap : Heap)
    (passes fits : Prop) : Prop where
  refused : ¬ passes → ∃ reply, call.run (.obj ra) heap = .ok (some (reply, .obj ra), heap) ∧
    reply.err = .outOfRange
  inside : passes → fits → ∃ reply ra', call.run (.obj ra) heap =
    .ok (some (reply, .obj ra'), heap) ∧ reply.err = .ok ∧ ra'.Bounded
  outside : passes → ¬ fits → ∀ out final, call.run (.obj ra) heap ≠ .ok (some out, final)

/-- The slots of the block. -/
def RiakArray.room (ra : RiakArray α) : Nat :=
  match ra.array with
  | .obj slots => slots.length
  | .null | .wild => 0

theorem RiakArray.room_of_block {ra : RiakArray α} {slots : List (Ptr α)}
    (h : ra.array = .obj slots) : ra.room = slots.length := by
  unfold RiakArray.room
  rw [h]

theorem ArrayCall.run_get_refused {ra : RiakArray α} {pos : UInt64}
    (h : ra.length - 1 < asInt64 pos.toNat) :
    (get pos).run (.obj ra) = pure (some (.elem .outOfRange none, .obj ra)) := by
  rw [run_get, riakArrayGet, if_pos h, pure_bind]

theorem ArrayCall.run_set_refused {ra : RiakArray α} {pos : UInt64} {elem : Ptr α}
    (h : ra.length - 1 < asInt64 pos.toNat) :
    (set pos elem).run (.obj ra) = pure (some (.code .outOfRange, .obj ra)) := by
  rw [run_set, riakArraySet, if_pos h, pure_bind]

theorem ArrayCall.run_remove_refused {ra : RiakArray α} {pos : UInt64}
    (h : ra.length - 1 < asInt64 pos.toNat) :
    (remove pos).run (.obj ra) = pure (some (.code .outOfRange, .obj ra)) := by
  rw [run_remove, riakArrayRemove, if_pos h, pure_bind]

theorem ArrayCall.run_insert_refused {ra : RiakArray α} {pos : UInt64} {elem : Ptr α}
    (h : ra.length < asInt64 pos.toNat) :
    (insert pos elem).run (.obj ra) = pure (some (.code .outOfRange, .obj ra)) := by
  rw [run_insert, riakArrayInsert, if_pos h, pure_bind]
  rfl

theorem ArrayCall.run_pop_refused {ra : RiakArray α} (h : ¬ 0 < ra.length) :
    pop.run (.obj ra) = pure (some (.elem .outOfRange none, .obj ra)) := by
  rw [run_pop, riakArrayPop, if_neg h, pure_bind]

theorem ArrayCall.get_checked {ra : RiakArray α} (h : ra.Bounded) (pos : UInt64) :
    (get pos : ArrayCall α).Checked ra heap (asInt64 pos.toNat < ra.length)
      (pos.toNat < ra.room) := by
  obtain ⟨slots, hslots, _⟩ := h.block
  have hpassed : asInt64 pos.toNat < ra.length →
      riakArrayGet ra pos = (C.readAt slots pos.toNat >>= fun elem => pure (.ok, some elem)) := by
    intro hpass
    unfold riakArrayGet
    rw [if_neg (by omega), hslots, Ptr.deref_obj, pure_bind]
  rw [RiakArray.room_of_block hslots]
  refine ⟨fun hrefused => ?_, fun hpass hin => ?_, fun hpass hout out final => ?_⟩
  · refine ⟨.elem .outOfRange none, ?_, rfl⟩
    rw [run_get_refused (by omega)]
    rfl
  · refine ⟨.elem .ok (some slots[pos.toNat]), ra, ?_, rfl, h⟩
    rw [run_get, hpassed hpass, C.readAt_of_get (List.getElem?_eq_getElem hin)]
    rfl
  · rw [run_get, hpassed hpass, C.readAt_of_le (Nat.not_lt.mp hout)]
    nofun

theorem ArrayCall.set_checked {ra : RiakArray α} (h : ra.Bounded) (pos : UInt64)
    (elem : Ptr α) :
    (set pos elem).Checked ra heap (asInt64 pos.toNat < ra.length) (pos.toNat < ra.room) := by
  obtain ⟨slots, hslots, _⟩ := h.block
  have hpassed : asInt64 pos.toNat < ra.length →
      riakArraySet ra pos elem = (C.writeAt slots pos.toNat elem >>= fun slots =>
        pure (.ok, { ra with array := .obj slots })) := by
    intro hpass
    unfold riakArraySet
    rw [if_neg (by omega), hslots, Ptr.deref_obj, pure_bind]
  rw [RiakArray.room_of_block hslots]
  refine ⟨fun hrefused => ?_, fun hpass hin => ?_, fun hpass hout out final => ?_⟩
  · refine ⟨.code .outOfRange, ?_, rfl⟩
    rw [run_set_refused (by omega)]
    rfl
  · refine ⟨.code .ok, { ra with array := .obj (slots.set pos.toNat elem) }, ?_, rfl,
      h.of_le hslots (Int.le_refl _) h.signed List.length_set⟩
    rw [run_set, hpassed hpass, C.writeAt_of_lt hin]
    rfl
  · rw [run_set, hpassed hpass, C.writeAt_of_le (Nat.not_lt.mp hout)]
    nofun

theorem ArrayCall.remove_checked {ra : RiakArray α} (h : ra.Bounded) (pos : UInt64) :
    (remove pos : ArrayCall α).Checked ra heap (asInt64 pos.toNat < ra.length)
      (ClosesInside ra.length pos ra.room) := by
  obtain ⟨slots, hslots, _⟩ := h.block
  have hpassed : asInt64 pos.toNat < ra.length →
      riakArrayRemove ra pos = (closeSlot ra.length pos slots >>= fun slots =>
        pure (.ok, { ra with length := ra.length - 1, array := .obj slots })) := by
    intro hpass
    unfold riakArrayRemove
    rw [if_neg (by omega), hslots, Ptr.deref_obj, pure_bind]
  rw [RiakArray.room_of_block hslots]
  refine ⟨fun hrefused => ?_, fun hpass hin => ?_, fun hpass hout out final => ?_⟩
  · refine ⟨.code .outOfRange, ?_, rfl⟩
    rw [run_remove_refused (by omega)]
    rfl
  · obtain ⟨moved, hmoved, hsize⟩ := closeSlot_inside hin
    have hlow := asInt64_low pos.toNat
    refine ⟨.code .ok, { ra with length := ra.length - 1, array := .obj moved }, ?_, rfl,
      h.of_le hslots (by omega) (by omega) hsize⟩
    rw [run_remove, hpassed hpass, hmoved]
    rfl
  · obtain ⟨fault, hfault⟩ := closeSlot_outside hout
    rw [run_remove, hpassed hpass, hfault]
    nofun

/-! ### The insertion

A full array moves to a block of twice its capacity. Both capacities are passed on
as 32 bit numbers, of which the one says how many slots are copied and the other
how many there will be. -/

/-- The slots that there are after room for one more was made. -/
def RiakArray.roomAfter (ra : RiakArray α) : Nat :=
  if ra.length = ra.capacity.toNat then 2 * ra.capacity.toNat % 2 ^ 32 else ra.room

/-- A full array has a capacity to double, and its slots can be copied. -/
def RiakArray.GrowsInside (ra : RiakArray α) : Prop :=
  ra.length = ra.capacity.toNat → 0 < ra.capacity.toNat ∧
    ra.capacity.toNat % 2 ^ 32 ≤ ra.room ∧
    ra.capacity.toNat % 2 ^ 32 ≤ 2 * ra.capacity.toNat % 2 ^ 32

/-- An insertion finds the slots it goes to. -/
def RiakArray.InsertsInside (ra : RiakArray α) (pos : UInt64) : Prop :=
  ra.GrowsInside ∧ pos.toNat < ra.roomAfter ∧ OpensInside ra.length pos ra.roomAfter

theorem riakArrayResize_of_room {ra : RiakArray α} (h : ra.Bounded) (hlength : 0 ≤ ra.length)
    (hroom : ra.length ≠ ra.capacity.toNat) :
    riakArrayResize ra (UInt64.ofInt (ra.length + 1)) = pure (some (.ok, .obj ra)) := by
  have hsize := ofInt_succ_toNat hlength h.short
  have hfilled := h.filled
  unfold riakArrayResize
  rw [if_neg (by rw [UInt64.lt_iff_toNat_lt]; omega)]

theorem riakArrayResize_of_full {ra : RiakArray α} {slots : List (Ptr α)} (h : ra.Bounded)
    (hfull : ra.length = ra.capacity.toNat) (hslots : ra.array = .obj slots) :
    riakArrayResize ra (UInt64.ofInt (ra.length + 1)) =
      if 0 < ra.capacity.toNat then do
        let (grown, array) ← riakArrayRealloc (.obj slots) ra.capacity.toUInt32
          (ra.capacity * 2).toUInt32
        if grown then
          pure (some (.ok, .obj { ra with array := array, capacity := ra.capacity * 2 }))
        else pure (some (.outOfMemory, .wild))
      else pure none := by
  have hlength : 0 ≤ ra.length := by omega
  have hsize := ofInt_succ_toNat hlength h.short
  have hshort := h.short
  have hless : ra.capacity < UInt64.ofInt (ra.length + 1) := by
    rw [UInt64.lt_iff_toNat_lt]
    omega
  unfold riakArrayResize
  rw [if_pos hless, hslots]
  by_cases hpositive : 0 < ra.capacity.toNat
  · have hdouble : (ra.capacity * 2).toNat = 2 * ra.capacity.toNat := by
      rw [UInt64.toNat_mul, show (2 : UInt64).toNat = 2 from rfl, Nat.mod_eq_of_lt (by omega)]
      omega
    have hloop : doubleUntil (UInt64.ofInt (ra.length + 1)) 65 ra.capacity =
        some (ra.capacity * 2) := by
      rw [doubleUntil, if_pos hless, doubleUntil, if_neg (by rw [UInt64.lt_iff_toNat_lt]; omega)]
    rw [hloop, if_pos hpositive]
  · have hloop : doubleUntil (UInt64.ofInt (ra.length + 1)) 65 ra.capacity = none := by
      rw [doubleUntil_eq_none_iff]
      intro k _
      rw [Nat.eq_zero_of_not_pos hpositive, Nat.zero_mul, Nat.zero_mod]
      omega
    rw [hloop, if_neg hpositive]

theorem toUInt32_toNat_of_double (capacity : UInt64) :
    (capacity * 2).toUInt32.toNat = 2 * capacity.toNat % 2 ^ 32 := by
  rw [UInt64.toNat_toUInt32, UInt64.toNat_mul, show (2 : UInt64).toNat = 2 from rfl]
  omega

theorem riakArrayResize_inside (hheap : heap.Ample) {ra : RiakArray α} (h : ra.Bounded)
    (hlength : 0 ≤ ra.length) (hgrows : ra.GrowsInside) :
    ∃ ra₁ slots, riakArrayResize ra (UInt64.ofInt (ra.length + 1)) heap =
        .ok (some (.ok, .obj ra₁), heap) ∧
      ra₁.array = .obj slots ∧ slots.length = ra.roomAfter ∧ ra₁.length = ra.length := by
  obtain ⟨slots, hslots, _⟩ := h.block
  unfold RiakArray.roomAfter
  by_cases hfull : ra.length = ra.capacity.toNat
  · obtain ⟨hpositive, hold, hnew⟩ := hgrows hfull
    rw [RiakArray.room_of_block hslots] at hold
    have hcopied : ra.capacity.toUInt32.toNat = ra.capacity.toNat % 2 ^ 32 :=
      UInt64.toNat_toUInt32 _
    have hdouble := toUInt32_toNat_of_double ra.capacity
    have hrealloc := riakArrayRealloc_taken hheap (hcopied ▸ hold)
      (show ra.capacity.toUInt32.toNat ≤ (ra.capacity * 2).toUInt32.toNat by omega)
    refine ⟨{ ra with
      array := .obj (slots.take ra.capacity.toUInt32.toNat ++
        List.replicate ((ra.capacity * 2).toUInt32.toNat - ra.capacity.toUInt32.toNat) .null)
      capacity := ra.capacity * 2 }, _, ?_, rfl, ?_, rfl⟩
    · rw [riakArrayResize_of_full h hfull hslots, if_pos hpositive, C.bind_of_ok hrealloc]
      rfl
    · rw [if_pos hfull, List.length_append, List.length_take, List.length_replicate]
      omega
  · refine ⟨ra, slots, ?_, hslots, ?_, rfl⟩
    · rw [riakArrayResize_of_room h hlength hfull]
      rfl
    · rw [if_neg hfull, RiakArray.room_of_block hslots]

theorem riakArrayResize_outside (hheap : heap.Ample) {ra : RiakArray α} (h : ra.Bounded)
    (hgrows : ¬ ra.GrowsInside) (out : RiakError × Ptr (RiakArray α)) (final : Heap) :
    riakArrayResize ra (UInt64.ofInt (ra.length + 1)) heap ≠ .ok (some out, final) := by
  obtain ⟨slots, hslots, _⟩ := h.block
  unfold RiakArray.GrowsInside at hgrows
  rw [Classical.not_imp, RiakArray.room_of_block hslots] at hgrows
  obtain ⟨hfull, hgrows⟩ := hgrows
  have hcopied : ra.capacity.toUInt32.toNat = ra.capacity.toNat % 2 ^ 32 :=
    UInt64.toNat_toUInt32 _
  have hdouble := toUInt32_toNat_of_double ra.capacity
  rw [riakArrayResize_of_full h hfull hslots]
  by_cases hpositive : 0 < ra.capacity.toNat
  · have hrealloc : riakArrayRealloc (.obj slots) ra.capacity.toUInt32
        (ra.capacity * 2).toUInt32 heap = .error .outOfBounds := by
      by_cases hold : slots.length < ra.capacity.toUInt32.toNat
      · exact riakArrayRealloc_short hheap hold
      · apply riakArrayRealloc_shrinking hheap
        by_contra hnew
        exact hgrows ⟨hpositive, by omega, by omega⟩
    rw [if_pos hpositive, C.bind_of_error hrealloc]
    nofun
  · rw [if_neg hpositive]
    nofun

theorem RiakArray.Bounded.roomAfter_le {ra : RiakArray α} (h : ra.Bounded) :
    ra.roomAfter ≤ 2 ^ 61 := by
  obtain ⟨slots, hslots, hsmall⟩ := h.block
  unfold RiakArray.roomAfter
  by_cases hfull : ra.length = ra.capacity.toNat
  · rw [if_pos hfull]
    omega
  · rw [if_neg hfull, RiakArray.room_of_block hslots]
    exact hsmall

/-- `riak_array_insert` with a position that passes comes back from the slots that
    `InsertsInside` names, and from nowhere else. -/
theorem ArrayCall.insert_checked (hheap : heap.Ample) {ra : RiakArray α} (h : ra.Bounded)
    (pos : UInt64) (elem : Ptr α) :
    (insert pos elem).Checked ra heap (asInt64 pos.toNat ≤ ra.length)
      (ra.InsertsInside pos) := by
  refine ⟨fun hrefused => ?_, ?_, ?_⟩
  · refine ⟨.code .outOfRange, ?_, rfl⟩
    rw [run_insert_refused (by omega)]
    rfl
  · rintro hpass ⟨hgrows, hin, hopens⟩
    have hsmall := h.roomAfter_le
    have hpos := hpass
    rw [asInt64_of_lt (by omega)] at hpos
    obtain ⟨ra₁, slots, hresize, hslots, hroom, hlength⟩ :=
      riakArrayResize_inside hheap h (by omega) hgrows
    rw [← hroom] at hin hopens
    obtain ⟨moved, hmoved, hsize⟩ := openSlot_inside hopens
    have hinsert : riakArrayInsert ra pos elem heap = .ok (some (.ok, .obj { ra₁ with
        length := ra₁.length + 1, array := .obj (moved.set pos.toNat elem) }), heap) := by
      unfold riakArrayInsert
      rw [if_neg (by omega), C.bind_of_ok hresize]
      simp only [ne_eq, not_true_eq_false, if_false, Ptr.deref_obj, pure_bind, hslots]
      rw [hlength, hmoved, pure_bind, C.writeAt_of_lt (hsize ▸ hin)]
      rfl
    refine ⟨.code .ok, _, ?_, rfl, h.insert hinsert⟩
    rw [run_insert, C.bind_of_ok hinsert]
    rfl
  · rintro hpass hout ⟨reply, left⟩ final hrun
    obtain ⟨_, _, hinsert⟩ := run_insert_eq_ok hrun
    rcases riakArrayInsert_eq_ok hinsert with
      ⟨hrefused, _⟩ | ⟨_, hmemory, _⟩ | ⟨_, _, ra₁, slots, _, hresize, hslots, hopens, hin, _⟩
    · omega
    · rw [hheap.grants 1 0 Nat.one_pos] at hmemory
      cases hmemory
    · obtain ⟨⟨block, hblock, hsmall⟩, hlength, _⟩ := h.resize hresize
      rw [hblock, Ptr.obj.injEq] at hslots
      subst hslots
      rw [asInt64_of_lt (by omega)] at hpass
      by_cases hgrows : ra.GrowsInside
      · obtain ⟨ra₂, slots₂, hresize₂, hslots₂, hroom, _⟩ :=
          riakArrayResize_inside hheap h (by omega) hgrows
        rw [hresize₂] at hresize
        cases hresize
        rw [hblock, Ptr.obj.injEq] at hslots₂
        subst hslots₂
        rw [hroom] at hin hopens
        exact hout ⟨hgrows, hin, hlength ▸ hopens⟩
      · exact riakArrayResize_outside hheap h hgrows _ _ hresize

/-! ### Every reachable array is bounded -/

theorem RiakArray.Bounded.call {ra ra' : RiakArray α} {call : ArrayCall α}
    {reply : ArrayReply α} (h : ra.Bounded)
    (hrun : call.run (.obj ra) heap = .ok (some (reply, .obj ra'), final)) : ra'.Bounded := by
  have hchecked : ∀ {passes fits : Prop}, call.Checked ra heap passes fits → ra'.Bounded := by
    intro passes fits hcall
    by_cases hpass : passes
    · by_cases hfits : fits
      · obtain ⟨_, ra₁, hinside, _, hbounded⟩ := hcall.inside hpass hfits
        rw [hinside] at hrun
        cases hrun
        exact hbounded
      · exact absurd hrun (hcall.outside hpass hfits _ _)
    · obtain ⟨_, hrefused, _⟩ := hcall.refused hpass
      rw [hrefused] at hrun
      cases hrun
      exact h
  cases call with
  | get pos => exact hchecked (ArrayCall.get_checked h pos)
  | set pos elem => exact hchecked (ArrayCall.set_checked h pos elem)
  | remove pos => exact hchecked (ArrayCall.remove_checked h pos)
  | insert pos elem =>
    obtain ⟨_, _, hinsert⟩ := ArrayCall.run_insert_eq_ok hrun
    exact h.insert hinsert
  | push elem =>
    obtain ⟨_, _, hpush⟩ := ArrayCall.run_push_eq_ok hrun
    exact h.push hpush
  | pop =>
    rcases ArrayCall.run_pop_eq_ok hrun with ⟨_, _, hsame⟩ | ⟨hany, _, hpopped⟩
    · cases hsame
      exact h
    · cases hpopped
      obtain ⟨slots, hslots, _⟩ := h.block
      have hshorter := h.of_le hslots (show ra.length - 1 ≤ ra.length by omega) (by omega) rfl
      rw [← hslots] at hshorter
      exact hshorter
  | length =>
    obtain ⟨hsome, _⟩ := C.pure_eq_ok.mp hrun
    cases hsome
    exact h

theorem riakArrayNew_eq_ok {capacity : UInt64} {ra : RiakArray α}
    (h : riakArrayNew capacity heap = .ok ((.ok, some ra), final)) :
    ra = ⟨0, capacity, .obj (List.replicate (slotCount capacity) .null)⟩ := by
  unfold riakArrayNew at h
  obtain ⟨granted, heap₁, _, hbody⟩ := C.bind_eq_ok.mp h
  cases granted with
  | false =>
    obtain ⟨hnone, _⟩ := C.pure_eq_ok.mp hbody
    cases hnone
  | true =>
    obtain ⟨granted, heap₂, _, hblock⟩ := C.bind_eq_ok.mp hbody
    cases granted with
    | false =>
      obtain ⟨hnone, _⟩ := C.pure_eq_ok.mp hblock
      cases hnone
    | true =>
      obtain ⟨hsome, _⟩ := C.pure_eq_ok.mp hblock
      cases hsome
      rfl

theorem RiakArray.Reachable.bounded {ra : RiakArray α} (h : ra.Reachable) : ra.Bounded := by
  induction h with
  | @new capacity ra heap final hnew =>
    obtain rfl := riakArrayNew_eq_ok hnew
    refine ⟨⟨_, rfl, ?_⟩, Int.natCast_nonneg _, show (0 : Int) ≤ 2 ^ 61 + 2 ^ 31 by decide,
      show -2 ^ 63 ≤ (0 : Int) by decide⟩
    rw [List.length_replicate]
    exact slotCount_le_pow capacity
  | call _ hrun ih => exact ih.call hrun
  | @sort ra elems sorted spare _ harray hlength hperm ih =>
    apply ih.of_le harray (Int.le_refl _) ih.signed
    rw [List.length_append, List.length_append, hperm.length_eq]

/-! ### Exact checks

A call that passes its check does not refuse, so its position has to be allowed and
its slots have to be there; a call that refuses leaves everything alone, whatever the
memory. -/

/-- A refused call gives the array back as it was, stores nothing, asks for no memory
    and would have done the same wherever the slots had been. -/
structure ArrayCall.LeavesAlone (call : ArrayCall α) (ra : RiakArray α) (heap : Heap)
    (reply : ArrayReply α) (left : Ptr (RiakArray α)) (final : Heap) : Prop where
  array : left = .obj ra
  elem : reply.stored = none
  memory : final = heap
  slots : ∀ array, call.run (.obj { ra with array := array }) heap =
    .ok (some (reply, .obj { ra with array := array }), heap)

/-- A call returns, with success if and only if its position is `allowed`, and leaves
    everything alone when it refuses. -/
structure ArrayCall.ChecksExactly (call : ArrayCall α) (ra : RiakArray α) (heap : Heap)
    (allowed : Prop) : Prop where
  returns : ∃ reply left final, call.run (.obj ra) heap = .ok (some (reply, left), final) ∧
    (reply.err = .ok ↔ allowed)
  refuses : ∀ reply left final, call.run (.obj ra) heap = .ok (some (reply, left), final) →
    reply.err = .outOfRange → call.LeavesAlone ra heap reply left final

theorem ArrayCall.LeavesAlone.of_run {call : ArrayCall α} {ra : RiakArray α}
    {reply refusal : ArrayReply α} {left : Ptr (RiakArray α)}
    (h : ∀ array, call.run (.obj { ra with array := array }) =
      pure (some (refusal, .obj { ra with array := array }))) (hstored : refusal.stored = none)
    (hrun : call.run (.obj ra) heap = .ok (some (reply, left), final)) :
    call.LeavesAlone ra heap reply left final := by
  have hra : call.run (.obj ra) = pure (some (refusal, .obj ra)) := h ra.array
  rw [hra] at hrun
  obtain ⟨hsome, rfl⟩ := C.pure_eq_ok.mp hrun
  cases hsome
  refine ⟨rfl, hstored, rfl, fun array => ?_⟩
  rw [h array]
  rfl

theorem ArrayCall.Checked.err_of_passes {call : ArrayCall α} {ra : RiakArray α}
    {passes fits : Prop} (h : call.Checked ra heap passes fits) (hpass : passes)
    {reply : ArrayReply α} {left : Ptr (RiakArray α)}
    (hrun : call.run (.obj ra) heap = .ok (some (reply, left), final)) : reply.err = .ok := by
  by_cases hfits : fits
  · obtain ⟨_, _, hinside, herr, _⟩ := h.inside hpass hfits
    rw [hinside] at hrun
    cases hrun
    exact herr
  · exact absurd hrun (h.outside hpass hfits _ _)

theorem ArrayCall.leavesAlone_of_refused {call : ArrayCall α} {ra : RiakArray α}
    (h : ra.Bounded) {reply : ArrayReply α} {left : Ptr (RiakArray α)}
    (hrun : call.run (.obj ra) heap = .ok (some (reply, left), final))
    (herr : reply.err = .outOfRange) : call.LeavesAlone ra heap reply left final := by
  have hpassed : ∀ {passes fits : Prop}, call.Checked ra heap passes fits → ¬ passes := by
    intro passes fits hcall hpass
    rw [hcall.err_of_passes hpass hrun] at herr
    cases herr
  cases call with
  | get pos =>
    have hrefused := hpassed (get_checked h pos)
    exact .of_run (fun _ => run_get_refused (by simp only; omega)) rfl hrun
  | set pos elem =>
    have hrefused := hpassed (set_checked h pos elem)
    exact .of_run (fun _ => run_set_refused (by simp only; omega)) rfl hrun
  | remove pos =>
    have hrefused := hpassed (remove_checked h pos)
    exact .of_run (fun _ => run_remove_refused (by simp only; omega)) rfl hrun
  | insert pos elem =>
    obtain ⟨err, rfl, hinsert⟩ := run_insert_eq_ok hrun
    obtain rfl : err = .outOfRange := herr
    rcases riakArrayInsert_eq_ok hinsert with ⟨hrefused, _⟩ | ⟨hmemory, _⟩ | ⟨_, hok, _⟩
    · exact .of_run (fun _ => run_insert_refused hrefused) rfl hrun
    · cases hmemory
    · cases hok
  | push elem =>
    obtain ⟨err, rfl, hpush⟩ := run_push_eq_ok hrun
    obtain rfl : err = .outOfRange := herr
    rcases riakArrayPush_eq_ok hpush with ⟨hmemory, _⟩ | ⟨hok, _⟩
    · cases hmemory
    · cases hok
  | pop =>
    rcases run_pop_eq_ok hrun with ⟨hempty, _⟩ | ⟨_, ⟨_, rfl⟩, _⟩
    · exact .of_run (fun _ => run_pop_refused hempty) rfl hrun
    · cases herr
  | length =>
    obtain ⟨hsome, _⟩ := C.pure_eq_ok.mp hrun
    cases hsome
    cases herr

theorem ArrayCall.Checked.exactly_iff {call : ArrayCall α} {ra : RiakArray α}
    {passes fits allowed : Prop} (h : call.Checked ra heap passes fits) (hbounded : ra.Bounded)
    (hallowed : allowed → passes) :
    call.ChecksExactly ra heap allowed ↔ (passes → allowed ∧ fits) := by
  constructor
  · rintro ⟨⟨reply, left, final, hrun, hok⟩, _⟩ hpass
    by_cases hfits : fits
    · obtain ⟨reply', ra', hinside, herr, _⟩ := h.inside hpass hfits
      rw [hinside] at hrun
      cases hrun
      exact ⟨hok.mp herr, hfits⟩
    · exact absurd hrun (h.outside hpass hfits _ _)
  · intro hright
    refine ⟨?_, fun _ _ _ hrun herr => leavesAlone_of_refused hbounded hrun herr⟩
    by_cases hpass : passes
    · obtain ⟨hin, hfits⟩ := hright hpass
      obtain ⟨reply, ra', hinside, herr, _⟩ := h.inside hpass hfits
      exact ⟨reply, _, heap, hinside, fun _ => hin, fun _ => herr⟩
    · obtain ⟨reply, hrefused, herr⟩ := h.refused hpass
      refine ⟨reply, _, heap, hrefused, fun hok => ?_, fun hin => absurd (hallowed hin) hpass⟩
      rw [herr] at hok
      cases hok

theorem RiakArray.Bounded.asInt64_eq {ra : RiakArray α} (h : ra.Bounded) {pos : UInt64}
    (hpos : pos.toNat ≤ ra.length) : asInt64 pos.toNat = pos.toNat := by
  have hshort := h.short
  exact asInt64_of_lt (by omega)

theorem RiakArray.Bounded.room_le {ra : RiakArray α} (h : ra.Bounded) : ra.room ≤ 2 ^ 61 := by
  obtain ⟨slots, hslots, hsmall⟩ := h.block
  rw [RiakArray.room_of_block hslots]
  exact hsmall

/-- Where the position is one of the array, its loop closes the slot below the bound
    of an `int`, with a slot behind the last element. -/
theorem closesInside_iff {length : Int} {pos : UInt64} {room : Nat}
    (hpos : pos.toNat < length) :
    ClosesInside length pos room ↔ length < room ∧ length < 2 ^ 31 := by
  unfold ClosesInside
  have hint : asInt pos.toNat < 2 ^ 31 := Int.bmod_lt (by decide)
  constructor
  · intro h
    by_cases hlength : length < 2 ^ 31
    · rw [asInt_of_lt (by omega)] at h
      exact (h hpos).2
    · exact (h (by omega)).2
  · rintro ⟨hroom, hlength⟩ _
    rw [asInt_of_lt (by omega)]
    exact ⟨Int.natCast_nonneg _, hroom, hlength⟩

theorem reachable_empty : (⟨0, 2, .obj [.null, .null]⟩ : RiakArray Nat).Reachable := by
  have hnew : (riakArrayNew 2 : C (RiakError × Option (RiakArray Nat))) Heap.fresh =
      .ok ((.ok, some ⟨0, 2, .obj [.null, .null]⟩), Heap.fresh) := rfl
  exact .new hnew

theorem reachable_single : (⟨1, 2, .obj [.obj 7, .null]⟩ : RiakArray Nat).Reachable := by
  have hpush : riakArrayCalls [.push (.obj 7)] (.obj ⟨0, 2, .obj [.null, .null]⟩) Heap.fresh =
      .ok (some ([.code .ok], .obj ⟨1, 2, .obj [.obj 7, .null]⟩), Heap.fresh) := rfl
  exact reachable_empty.calls hpush

/-- **When the index checks are exact.** On every reachable array, at every position:
    a `get` or a `set` that passes has to name a slot of the block, a `remove` a
    position below `2 ^ 63` of an array with a slot to spare and a length that an `int`
    can count, an `insert` slots that `InsertsInside` finds. Every refusal leaves
    everything alone. -/
theorem riak_array_checks_exactly_iff {ra : RiakArray α} (h : ra.Reachable) (pos : UInt64)
    (elem : Ptr α) (heap : Heap) :
    ((ArrayCall.get pos).ChecksExactly ra heap (pos.toNat < ra.length) ↔
      (asInt64 pos.toNat < ra.length → pos.toNat < ra.room)) ∧
    ((ArrayCall.set pos elem).ChecksExactly ra heap (pos.toNat < ra.length) ↔
      (asInt64 pos.toNat < ra.length → pos.toNat < ra.room)) ∧
    ((ArrayCall.remove pos).ChecksExactly ra heap (pos.toNat < ra.length) ↔
      (asInt64 pos.toNat < ra.length →
        pos.toNat < 2 ^ 63 ∧ ra.length < ra.room ∧ ra.length < 2 ^ 31)) ∧
    (heap.Ample → ((ArrayCall.insert pos elem).ChecksExactly ra heap (pos.toNat ≤ ra.length) ↔
      (asInt64 pos.toNat ≤ ra.length → ra.InsertsInside pos))) ∧
    ∀ (call : ArrayCall α) reply left final,
      call.run (.obj ra) heap = .ok (some (reply, left), final) → reply.err = .outOfRange →
        call.LeavesAlone ra heap reply left final := by
  have hbounded := h.bounded
  have hroom := hbounded.room_le
  have hless : (pos.toNat : Int) < ra.length → asInt64 pos.toNat < ra.length := by
    intro hpos
    rw [hbounded.asInt64_eq (by omega)]
    exact hpos
  have hle : (pos.toNat : Int) ≤ ra.length → asInt64 pos.toNat ≤ ra.length := by
    intro hpos
    rw [hbounded.asInt64_eq hpos]
    exact hpos
  -- a position below `2 ^ 63` is the number it is compared as
  have hsigned : pos.toNat < 2 ^ 63 → asInt64 pos.toNat = pos.toNat := asInt64_of_lt
  have hslot : (asInt64 pos.toNat < ra.length → (pos.toNat : Int) < ra.length ∧
      pos.toNat < ra.room) ↔ (asInt64 pos.toNat < ra.length → pos.toNat < ra.room) := by
    refine ⟨fun hin hpass => (hin hpass).2, fun hin hpass => ⟨?_, hin hpass⟩⟩
    have hnumber := hsigned (by have := hin hpass; omega)
    omega
  refine ⟨?_, ?_, ?_, fun hheap => ?_, fun call reply left final hrun herr =>
    ArrayCall.leavesAlone_of_refused hbounded hrun herr⟩
  · exact ((ArrayCall.get_checked hbounded pos).exactly_iff hbounded hless).trans hslot
  · exact ((ArrayCall.set_checked hbounded pos elem).exactly_iff hbounded hless).trans hslot
  · apply ((ArrayCall.remove_checked hbounded pos).exactly_iff hbounded hless).trans
    constructor
    · intro hin hpass
      obtain ⟨hpos, hcloses⟩ := hin hpass
      have hshort := hbounded.short
      exact ⟨by omega, (closesInside_iff hpos).mp hcloses⟩
    · intro hin hpass
      obtain ⟨hsmall, hcloses⟩ := hin hpass
      have hpos : (pos.toNat : Int) < ra.length := by
        rw [← hsigned hsmall]
        exact hpass
      exact ⟨hpos, (closesInside_iff hpos).mpr hcloses⟩
  · apply ((ArrayCall.insert_checked hheap hbounded pos elem).exactly_iff hbounded hle).trans
    refine ⟨fun hin hpass => (hin hpass).2, fun hin hpass => ⟨?_, hin hpass⟩⟩
    have hafter := hbounded.roomAfter_le
    have hnumber := hsigned (by have := (hin hpass).2.1; omega)
    omega

/-- At the only element of an array of two slots all four are. -/
theorem riak_array_checks_exactly_single :
    (ArrayCall.get 0).ChecksExactly (⟨1, 2, .obj [.obj 7, .null]⟩ : RiakArray Nat) Heap.fresh
      ((0 : UInt64).toNat < (1 : Int)) ∧
    (ArrayCall.set 0 (.obj 8)).ChecksExactly (⟨1, 2, .obj [.obj 7, .null]⟩ : RiakArray Nat)
      Heap.fresh ((0 : UInt64).toNat < (1 : Int)) ∧
    (ArrayCall.remove 0).ChecksExactly (⟨1, 2, .obj [.obj 7, .null]⟩ : RiakArray Nat) Heap.fresh
      ((0 : UInt64).toNat < (1 : Int)) ∧
    (ArrayCall.insert 0 (.obj 8)).ChecksExactly (⟨1, 2, .obj [.obj 7, .null]⟩ : RiakArray Nat)
      Heap.fresh ((0 : UInt64).toNat ≤ (1 : Int)) := by
  obtain ⟨hget, hset, hremove, hinsert, _⟩ :=
    riak_array_checks_exactly_iff reachable_single 0 (.obj 8) Heap.fresh
  refine ⟨hget.mpr (by decide), hset.mpr (by decide), hremove.mpr (by decide),
    (hinsert Heap.fresh_ample).mpr ?_⟩
  unfold RiakArray.InsertsInside RiakArray.GrowsInside OpensInside
  decide

/-- Position `2 ^ 63` passes as a negative number: `riak_array_get` reads past the
    block, and `riak_array_remove` takes an element from the empty array. -/
theorem riak_array_position_negative :
    (∃ ra : RiakArray Nat, ra.Reachable ∧ ra.length = 1 ∧
      (ArrayCall.get 9223372036854775808).run (.obj ra) Heap.fresh = .error .outOfBounds ∧
      ¬ (ArrayCall.get 9223372036854775808).ChecksExactly ra Heap.fresh
        ((9223372036854775808 : UInt64).toNat < ra.length)) ∧
    ∃ ra : RiakArray Nat, ra.Reachable ∧ ra.length = 0 ∧
      (ArrayCall.remove 9223372036854775808).run (.obj ra) Heap.fresh =
        .ok (some (.code .ok, .obj { ra with length := -1 }), Heap.fresh) ∧
      ¬ (ArrayCall.remove 9223372036854775808).ChecksExactly ra Heap.fresh
        ((9223372036854775808 : UInt64).toNat < ra.length) := by
  have hget : (ArrayCall.get 9223372036854775808).run
      (.obj (⟨1, 2, .obj [.obj 7, .null]⟩ : RiakArray Nat)) Heap.fresh = .error .outOfBounds := by
    rw [ArrayCall.run_get, riakArrayGet, if_neg (by decide), Ptr.deref_obj, pure_bind,
      C.readAt_of_le (by decide)]
    rfl
  have hremove : (ArrayCall.remove 9223372036854775808).run
      (.obj (⟨0, 2, .obj [.null, .null]⟩ : RiakArray Nat)) Heap.fresh =
        .ok (some (.code .ok, .obj ⟨-1, 2, .obj [.null, .null]⟩), Heap.fresh) := by
    rw [ArrayCall.run_remove, riakArrayRemove, if_neg (by decide), Ptr.deref_obj, pure_bind,
      closeSlot, if_neg (by decide)]
    rfl
  refine ⟨⟨_, reachable_single, rfl, hget, ?_⟩, ⟨_, reachable_empty, rfl, hremove, ?_⟩⟩
  · rintro ⟨⟨_, _, _, hrun, _⟩, _⟩
    rw [hget] at hrun
    cases hrun
  · rintro ⟨⟨_, _, _, hrun, hok⟩, _⟩
    rw [hremove] at hrun
    cases hrun
    exact absurd (hok.mp rfl) (by decide)

end RiakClient
