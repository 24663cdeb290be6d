import Mathlib.Data.List.Infix
import RiakClient.RiakArray
import RiakClient.Run

/-!
# An array is a list

Above the array stands the list that it is meant to be, with one operation for
each call. Every call does to the first slots of the array what its operation
does to the list, unless it needs a slot that the block does not have.
-/

namespace RiakClient

open CSem LabelledRun

variable {α : Type} {heap : Heap}

/-! ### The list that an array is meant to be -/

/-- The elements, and the capacity, which doubles when they fill it. -/
structure ListState (α : Type) where
  elems : List (Ptr α)
  capacity : UInt64

/-- The operation on the list: what it answers. -/
def ArrayCall.reply (call : ArrayCall α) (elems : List (Ptr α)) : ArrayReply α :=
  match call with
  | insert pos _ => .code (if pos.toNat ≤ elems.length then .ok else .outOfRange)
  | remove pos => .code (if pos.toNat < elems.length then .ok else .outOfRange)
  | push _ => .code .ok
  | pop => .elem (if elems = [] then .outOfRange else .ok) elems.getLast?
  | get pos => .elem (if pos.toNat < elems.length then .ok else .outOfRange) elems[pos.toNat]?
  | set pos _ => .code (if pos.toNat < elems.length then .ok else .outOfRange)
  | length => .length (UInt64.ofNat elems.length)

/-- The operation on the list: what it makes of it. -/
def ArrayCall.result (call : ArrayCall α) (elems : List (Ptr α)) : List (Ptr α) :=
  match call with
  | insert pos elem => if pos.toNat ≤ elems.length then elems.insertIdx pos.toNat elem else elems
  | remove pos => elems.eraseIdx pos.toNat
  | push elem => elems ++ [elem]
  | pop => elems.dropLast
  | set pos elem => elems.set pos.toNat elem
  | get _ | length => elems

/-- A call that adds an element. -/
def ArrayCall.Adds (call : ArrayCall α) (elems : List (Ptr α)) : Prop :=
  match call with
  | insert pos _ => pos.toNat ≤ elems.length
  | push _ => True
  | _ => False

instance (call : ArrayCall α) (elems : List (Ptr α)) : Decidable (call.Adds elems) := by
  unfold ArrayCall.Adds
  cases call <;> infer_instance

/-- A call that takes out an element at a position. -/
def ArrayCall.Removes (call : ArrayCall α) (elems : List (Ptr α)) : Prop :=
  match call with
  | remove pos => pos.toNat < elems.length
  | _ => False

instance (call : ArrayCall α) (elems : List (Ptr α)) : Decidable (call.Removes elems) := by
  unfold ArrayCall.Removes
  cases call <;> infer_instance

def ArrayCall.next (call : ArrayCall α) (s : ListState α) : ListState α where
  elems := call.result s.elems
  capacity := if call.Adds s.elems ∧ s.capacity.toNat ≤ s.elems.length then s.capacity * 2
    else s.capacity

/-- The list after some calls on an array with this capacity. -/
def ListState.after (s : ListState α) (calls : List (ArrayCall α)) : ListState α :=
  calls.foldl (fun s call => call.next s) s

/-- The answers to some calls. -/
def ListState.replies (s : ListState α) : List (ArrayCall α) → List (ArrayReply α)
  | [] => []
  | call :: calls => call.reply s.elems :: (call.next s).replies calls

/-- **When a call stays inside its block.** One that removes an element needs a
    slot behind the last element. One that adds an element needs it too, unless
    the array is full and grows. -/
def ArrayCall.Fits (call : ArrayCall α) (s : ListState α) : Prop :=
  (call.Removes s.elems → s.elems.length < slotCount s.capacity) ∧
    (call.Adds s.elems → s.elems.length < slotCount s.capacity ∨
      s.capacity.toNat ≤ s.elems.length)

instance (call : ArrayCall α) (s : ListState α) : Decidable (call.Fits s) :=
  inferInstanceAs (Decidable (_ ∧ _))

/-- The position of a call, if it has one, is below `2 ^ 63`. -/
def ArrayCall.InRange : ArrayCall α → Prop
  | insert pos _ | remove pos | get pos | set pos _ => pos.toNat < 2 ^ 63
  | push _ | pop | length => True

/-- An array that holds the list in its first slots, and anything behind it. -/
structure RiakArray.Holds (ra : RiakArray α) (s : ListState α) : Prop where
  length : ra.length = s.elems.length
  capacity : ra.capacity = s.capacity
  slots : ∃ spare, ra.array = .obj (s.elems ++ spare) ∧
    s.elems.length + spare.length = slotCount s.capacity
  positive : 0 < s.capacity.toNat

/-! ### Room for one more -/

/-- The capacity after room for one more was asked for. -/
def ListState.reserved (s : ListState α) : ListState α :=
  { s with capacity := if s.capacity.toNat ≤ s.elems.length then s.capacity * 2 else s.capacity }

theorem succ_length_toNat {n : Nat} (h : n + 1 < 2 ^ 64) :
    (UInt64.ofInt ((n : Int) + 1)).toNat = n + 1 := by
  have hcast : (((n : Int) + 1) % 2 ^ 64).toNat = n + 1 := by omega
  unfold UInt64.ofInt
  rw [hcast, UInt64.toNat_ofNat']
  exact Nat.mod_eq_of_lt (by omega)

theorem riakArrayResize_reserves (hheap : heap.Ample) {ra : RiakArray α} {s : ListState α}
    (h : ra.Holds s) (hlength : s.elems.length + 1 < 2 ^ 31) :
    ∃ ra', riakArrayResize ra (UInt64.ofInt (ra.length + 1)) heap =
        .ok (some (.ok, .obj ra'), heap) ∧ ra'.Holds s.reserved ∧
      (s.elems.length < slotCount s.reserved.capacity ↔
        s.elems.length < slotCount s.capacity ∨ s.capacity.toNat ≤ s.elems.length) := by
  obtain ⟨hra, hcapacity, ⟨spare, harray, hslots⟩, hpositive⟩ := h
  have hsize := succ_length_toNat (show s.elems.length + 1 < 2 ^ 64 by omega)
  have hcount := slotCount_le s.capacity
  have hgrows : s.capacity < UInt64.ofInt (s.elems.length + 1) ↔
      s.capacity.toNat ≤ s.elems.length := by
    rw [UInt64.lt_iff_toNat_lt, hsize]
    exact Nat.lt_succ_iff
  unfold riakArrayResize ListState.reserved
  rw [hra, hcapacity]
  by_cases hfull : s.capacity.toNat ≤ s.elems.length
  · -- the array is full, and its block has exactly `capacity` slots
    have hspare : spare = [] := List.length_eq_zero_iff.mp (by omega)
    have hdouble : (s.capacity * 2).toNat = 2 * s.elems.length := by
      rw [UInt64.toNat_mul, show (2 : UInt64).toNat = 2 from rfl, Nat.mod_eq_of_lt (by omega)]
      omega
    have hloop : doubleUntil (UInt64.ofInt (s.elems.length + 1)) 65 s.capacity =
        some (s.capacity * 2) := by
      rw [doubleUntil, if_pos (hgrows.mpr hfull), doubleUntil,
        if_neg (by rw [UInt64.lt_iff_toNat_lt, hsize]; omega)]
    have hold : s.capacity.toUInt32.toNat = s.elems.length := by
      rw [UInt64.toNat_toUInt32, Nat.mod_eq_of_lt (by omega)]
      omega
    have hnew : (s.capacity * 2).toUInt32.toNat = 2 * s.elems.length := by
      rw [UInt64.toNat_toUInt32, hdouble, Nat.mod_eq_of_lt (by omega)]
    have hgrown : slotCount (s.capacity * 2) = 2 * s.elems.length := by
      rw [slotCount_of_lt (by omega), hdouble]
    have hrealloc : riakArrayRealloc ra.array s.capacity.toUInt32 (s.capacity * 2).toUInt32 heap =
        .ok ((true, .obj (s.elems ++ List.replicate
          ((s.capacity * 2).toUInt32.toNat - s.capacity.toUInt32.toNat) .null)), heap) := by
      rw [harray, hspare, List.append_nil]
      exact riakArrayRealloc_of_ample hheap hold (by omega)
    rw [if_pos (hgrows.mpr hfull), hloop, if_pos hfull]
    simp only
    rw [C.bind_of_ok hrealloc]
    refine ⟨_, rfl, ⟨rfl, rfl, ⟨_, rfl, ?_⟩, ?_⟩, ?_⟩
    · rw [List.length_replicate, hgrown, hnew, hold]
      show s.elems.length + (2 * s.elems.length - s.elems.length) = _
      omega
    · show 0 < (s.capacity * 2).toNat
      omega
    · rw [hgrown]
      omega
  · rw [if_neg (fun hless => hfull (hgrows.mp hless)), if_neg hfull]
    refine ⟨ra, rfl, ⟨hra, hcapacity, ⟨spare, harray, hslots⟩, hpositive⟩, ?_⟩
    exact (or_iff_left hfull).symm

/-! ### One call

`ArrayCall.Steps` says of a call what the simulation needs: it does to the array what
its operation does to the list if it fits, and otherwise reads or writes outside the
block. A call that neither adds nor removes always fits; appending is inserting at the
end. -/

theorem RiakArray.Holds.room {ra : RiakArray α} {s : ListState α} (h : ra.Holds s)
    (hroom : s.elems.length < slotCount s.capacity) :
    ∃ x spare, ra.array = .obj (s.elems ++ x :: spare) ∧
      s.elems.length + spare.length + 1 = slotCount s.capacity := by
  obtain ⟨spare, harray, hslots⟩ := h.slots
  cases spare with
  | nil => exact absurd hroom (by simp at hslots; omega)
  | cons x spare => exact ⟨x, spare, harray, by simp at hslots; omega⟩

theorem RiakArray.Holds.full {ra : RiakArray α} {s : ListState α} (h : ra.Holds s)
    (hfull : ¬ s.elems.length < slotCount s.capacity) : ra.array = .obj s.elems := by
  obtain ⟨spare, harray, hslots⟩ := h.slots
  have hspare : spare = [] := List.length_eq_zero_iff.mp (by omega)
  rw [harray, hspare, List.append_nil]

theorem riakArrayInsert_of_le (hheap : heap.Ample) {ra : RiakArray α} {s : ListState α}
    (h : ra.Holds s) {pos : UInt64} (hpos : pos.toNat ≤ s.elems.length) (elem : Ptr α)
    (hlength : s.elems.length + 1 < 2 ^ 31) :
    (s.elems.length < slotCount s.reserved.capacity →
      ∃ ra', riakArrayInsert ra pos elem heap = .ok (some (.ok, .obj ra'), heap) ∧
        ra'.Holds ⟨s.elems.insertIdx pos.toNat elem, s.reserved.capacity⟩) ∧
    (¬ s.elems.length < slotCount s.reserved.capacity →
      riakArrayInsert ra pos elem heap = .error .outOfBounds) := by
  obtain ⟨front, tail, hsplit, hfront⟩ : ∃ front tail, s.elems = front ++ tail ∧
      pos.toNat = front.length :=
    ⟨s.elems.take pos.toNat, s.elems.drop pos.toNat, (List.take_append_drop _ _).symm,
      by rw [List.length_take]; omega⟩
  obtain ⟨ra', hresize, hreserved, hroom⟩ := riakArrayResize_reserves hheap h hlength
  have hinsert : riakArrayInsert ra pos elem heap = (ra'.array.deref >>= fun slots =>
      (openSlot (s.elems.length : Int) pos slots >>= fun slots =>
        C.writeAt slots pos.toNat elem) >>= fun slots =>
      pure (some (.ok, .obj { ra' with length := ra'.length + 1, array := .obj slots }))) heap := by
    unfold riakArrayInsert
    rw [h.length, asInt64_of_lt (by omega), if_neg (by omega), ← h.length, C.bind_of_ok hresize]
    simp only [ne_eq, not_true_eq_false, if_false, Ptr.deref_obj, pure_bind, bind_assoc]
    rw [hreserved.length, h.length]
    rfl
  rw [hinsert]
  constructor
  · intro hspare
    obtain ⟨x, spare, harray, hslots⟩ := hreserved.room hspare
    have hlist : s.reserved.elems ++ x :: spare = front ++ tail ++ x :: spare := by
      rw [← hsplit]
      rfl
    have hopen := openSlot_insert hfront (by rw [← List.length_append, ← hsplit]; omega) elem x
      spare
    rw [harray, Ptr.deref_obj, pure_bind, hlist, hsplit, hopen, hfront, insertIdx_append]
    refine ⟨_, rfl, ⟨?_, hreserved.capacity, ⟨spare, rfl, ?_⟩, hreserved.positive⟩⟩
    · show ra'.length + 1 = _
      rw [hreserved.length]
      show (s.elems.length : Int) + 1 = _
      rw [hsplit]
      simp
      omega
    · rw [← hslots]
      show _ = s.elems.length + spare.length + 1
      rw [hsplit]
      simp
      omega
  · intro hfull
    rw [hreserved.full hfull, Ptr.deref_obj, pure_bind]
    show ((openSlot (s.elems.length : Int) pos s.elems >>= fun slots =>
      C.writeAt slots pos.toNat elem) >>= _) heap = _
    rw [openSlot_full hpos (by omega)]
    rfl

theorem riakArrayPush_eq_insert (hheap : heap.Ample) {ra : RiakArray α} {s : ListState α}
    (h : ra.Holds s) (hlength : s.elems.length + 1 < 2 ^ 31) (elem : Ptr α) :
    riakArrayPush ra elem heap =
      riakArrayInsert ra (UInt64.ofNat s.elems.length) elem heap := by
  have hpos : (UInt64.ofNat s.elems.length).toNat = s.elems.length := by
    rw [UInt64.toNat_ofNat']
    exact Nat.mod_eq_of_lt (by omega)
  obtain ⟨ra', hresize, hreserved, _⟩ := riakArrayResize_reserves hheap h hlength
  unfold riakArrayPush riakArrayInsert
  rw [hpos, h.length, asInt64_of_lt (by omega), if_neg (by omega), ← h.length,
    C.bind_of_ok hresize, C.bind_of_ok hresize]
  simp only [ne_eq, not_true_eq_false, if_false, Ptr.deref_obj, pure_bind]
  have hlen : ra'.length = s.elems.length := hreserved.length
  have hopen : ∀ slots : List (Ptr α),
      openSlot (s.elems.length : Int) (UInt64.ofNat s.elems.length) slots = pure slots := by
    intro slots
    unfold openSlot
    rw [hpos, asInt64_of_lt (by omega), if_neg (by omega)]
  simp only [hlen, hopen, pure_bind]
  rfl

theorem riakArrayRemove_of_lt {ra : RiakArray α} {s : ListState α} (h : ra.Holds s) {pos : UInt64}
    (hpos : pos.toNat < s.elems.length) (hlength : s.elems.length < 2 ^ 31) :
    (s.elems.length < slotCount s.capacity →
      ∃ ra', riakArrayRemove ra pos = pure (.ok, ra') ∧
        ra'.Holds ⟨s.elems.eraseIdx pos.toNat, s.capacity⟩) ∧
    (¬ s.elems.length < slotCount s.capacity →
      riakArrayRemove ra pos = C.fault .outOfBounds) := by
  obtain ⟨front, a, tail, hsplit, hfront⟩ : ∃ front a tail, s.elems = front ++ a :: tail ∧
      pos.toNat = front.length :=
    ⟨s.elems.take pos.toNat, s.elems[pos.toNat], s.elems.drop (pos.toNat + 1),
      by rw [List.getElem_cons_drop, List.take_append_drop], by rw [List.length_take]; omega⟩
  have hcount : front.length + tail.length + 1 = s.elems.length := by
    rw [hsplit]
    simp
    omega
  have herase : s.elems.eraseIdx pos.toNat = front ++ tail := by
    rw [hsplit, hfront, List.eraseIdx_append_of_length_le (Nat.le_refl _), Nat.sub_self,
      List.eraseIdx_cons_zero]
  have hremove : riakArrayRemove ra pos = (ra.array.deref >>= fun slots =>
      closeSlot ((front ++ a :: tail).length : Int) pos slots >>= fun slots =>
      pure (.ok, { ra with length := ra.length - 1, array := .obj slots })) := by
    unfold riakArrayRemove
    rw [h.length, asInt64_of_lt (by omega), if_neg (by omega), hsplit]
  rw [hremove]
  constructor
  · intro hroom
    obtain ⟨x, spare, harray, hslots⟩ := h.room hroom
    rw [harray, Ptr.deref_obj, pure_bind, hsplit, closeSlot_remove hfront (by omega), pure_bind,
      ← hsplit, herase]
    refine ⟨_, rfl, ⟨?_, h.capacity, ⟨x :: x :: spare, rfl, ?_⟩, h.positive⟩⟩
    · show ra.length - 1 = ((front ++ tail).length : Int)
      rw [h.length, List.length_append]
      omega
    · rw [← hslots]
      simp
      omega
  · intro hfull
    rw [h.full hfull, Ptr.deref_obj, pure_bind, hsplit, closeSlot_full hfront (by omega)]
    rfl

theorem riakArrayPop_of_ne_nil {ra : RiakArray α} {s : ListState α} (h : ra.Holds s)
    (hne : s.elems ≠ []) :
    ∃ ra', riakArrayPop ra = pure (.ok, s.elems.getLast?, ra') ∧
      ra'.Holds ⟨s.elems.dropLast, s.capacity⟩ := by
  obtain ⟨spare, harray, hslots⟩ := h.slots
  obtain ⟨front, a, hsplit⟩ : ∃ front a, s.elems = front ++ [a] :=
    ⟨s.elems.dropLast, s.elems.getLast hne, (List.dropLast_append_getLast hne).symm⟩
  have hlength : ra.length - 1 = (front.length : Int) := by
    rw [h.length, hsplit]
    simp
  have hpositive : 0 < ra.length := by omega
  have hread : readSlot (front ++ [a] ++ spare) (front.length : Int) = pure a := by
    show C.readAt _ front.length = _
    apply C.readAt_of_get
    simp
  refine ⟨{ ra with length := ra.length - 1 }, ?_,
    ⟨?_, h.capacity, ⟨a :: spare, ?_, ?_⟩, h.positive⟩⟩
  · unfold riakArrayPop
    rw [if_pos hpositive]
    simp only
    rw [hlength, harray, Ptr.deref_obj, pure_bind, hsplit, hread, pure_bind, List.getLast?_concat]
  · rw [hsplit, List.dropLast_concat]
    exact hlength
  · rw [hsplit, List.dropLast_concat]
    show ra.array = _
    rw [harray, hsplit, List.append_assoc]
    rfl
  · rw [← hslots, hsplit]
    simp
    omega

theorem RiakArray.Holds.get {ra : RiakArray α} {s : ListState α} (h : ra.Holds s) {pos : Nat}
    (hpos : pos < s.elems.length) :
    ∃ slots, ra.array = .obj slots ∧ slots[pos]? = s.elems[pos]? ∧ pos < slots.length := by
  obtain ⟨spare, harray, _⟩ := h.slots
  refine ⟨_, harray, List.getElem?_append_left hpos, ?_⟩
  rw [List.length_append]
  omega

theorem RiakArray.Holds.set {ra : RiakArray α} {s : ListState α} (h : ra.Holds s) {pos : Nat}
    (hpos : pos < s.elems.length) (elem : Ptr α) :
    ∃ slots, ra.array = .obj slots ∧ pos < slots.length ∧
      RiakArray.Holds { ra with array := .obj (slots.set pos elem) }
        ⟨s.elems.set pos elem, s.capacity⟩ := by
  obtain ⟨spare, harray, hslots⟩ := h.slots
  refine ⟨_, harray, ?_, ⟨?_, h.capacity, ⟨spare, ?_, ?_⟩, h.positive⟩⟩
  · rw [List.length_append]
    omega
  · rw [List.length_set]
    exact h.length
  · rw [List.set_append_left _ _ hpos]
  · rw [List.length_set]
    exact hslots

/-- What a call does to an array that holds a list: it does the same to the list
    if it fits, and leaves the block otherwise. -/
def ArrayCall.Steps (call : ArrayCall α) (ra : RiakArray α) (s : ListState α) (heap : Heap) :
    Prop :=
  (call.Fits s → ∃ ra', call.run (.obj ra) heap =
    .ok (some (call.reply s.elems, .obj ra'), heap) ∧ ra'.Holds (call.next s)) ∧
  (¬ call.Fits s → call.run (.obj ra) heap = .error .outOfBounds)

theorem ArrayCall.next_of_adds {call : ArrayCall α} {s : ListState α} (h : call.Adds s.elems) :
    call.next s = ⟨call.result s.elems, s.reserved.capacity⟩ := by
  unfold ArrayCall.next ListState.reserved
  simp only [h, true_and]

theorem ArrayCall.next_of_not_adds {call : ArrayCall α} {s : ListState α}
    (h : ¬ call.Adds s.elems) : call.next s = ⟨call.result s.elems, s.capacity⟩ := by
  unfold ArrayCall.next
  simp only [h, false_and, if_false]

theorem ArrayCall.steps_of_quiet {call : ArrayCall α} {ra : RiakArray α} {s : ListState α}
    (hadds : ¬ call.Adds s.elems) (hremoves : ¬ call.Removes s.elems)
    (h : ∃ ra', call.run (.obj ra) heap = .ok (some (call.reply s.elems, .obj ra'), heap) ∧
      ra'.Holds ⟨call.result s.elems, s.capacity⟩) : call.Steps ra s heap := by
  obtain ⟨ra', hrun, hholds⟩ := h
  refine ⟨fun _ => ⟨ra', hrun, ?_⟩, ?_⟩
  · rw [ArrayCall.next_of_not_adds hadds]
    exact hholds
  · intro hfits
    exact absurd ⟨fun h => absurd h hremoves, fun h => absurd h hadds⟩ hfits

theorem riakArrayInsert_steps (hheap : heap.Ample) {ra : RiakArray α} {s : ListState α}
    (h : ra.Holds s) {pos : UInt64} {elem : Ptr α} (hpos : pos.toNat < 2 ^ 63)
    (hafter : ((ArrayCall.insert pos elem).next s).elems.length < 2 ^ 31) :
    (ArrayCall.insert pos elem).Steps ra s heap := by
  have hrun := ArrayCall.run_insert ra pos elem
  by_cases hin : pos.toNat ≤ s.elems.length
  · have hadds : (ArrayCall.insert pos elem).Adds s.elems := hin
    have hresult : (ArrayCall.insert pos elem).result s.elems =
        s.elems.insertIdx pos.toNat elem := if_pos hin
    have hlength : s.elems.length + 1 < 2 ^ 31 := by
      have hnext : ((ArrayCall.insert pos elem).next s).elems =
        s.elems.insertIdx pos.toNat elem := hresult
      rwa [hnext, List.length_insertIdx_of_le_length hin] at hafter
    have hfits : (ArrayCall.insert pos elem).Fits s ↔
        s.elems.length < slotCount s.reserved.capacity := by
      obtain ⟨_, _, _, hroom⟩ := riakArrayResize_reserves hheap h hlength
      rw [hroom]
      exact ⟨fun hfits => hfits.2 hadds, fun hroom => ⟨nofun, fun _ => hroom⟩⟩
    obtain ⟨hroom, hfull⟩ := riakArrayInsert_of_le hheap h hin elem hlength
    rw [ArrayCall.Steps, hfits, hrun]
    refine ⟨fun hspare => ?_, fun hnone => C.bind_of_error (hfull hnone)⟩
    obtain ⟨ra', hinsert, hholds⟩ := hroom hspare
    refine ⟨ra', ?_, ?_⟩
    · rw [C.bind_of_ok hinsert]
      unfold ArrayCall.reply
      simp only [if_pos hin]
      rfl
    · rw [ArrayCall.next_of_adds hadds, hresult]
      exact hholds
  · have hadds : ¬ (ArrayCall.insert pos elem).Adds s.elems := hin
    apply ArrayCall.steps_of_quiet hadds id
    refine ⟨ra, ?_, ?_⟩
    · have hinsert : riakArrayInsert ra pos elem = pure (some (.outOfRange, .obj ra)) := by
        unfold riakArrayInsert
        rw [h.length, asInt64_of_lt hpos, if_pos (by omega)]
      rw [hrun, hinsert, pure_bind]
      unfold ArrayCall.reply
      simp only [if_neg hin]
      rfl
    · unfold ArrayCall.result
      simp only [if_neg hin]
      exact h

theorem riakArrayPush_steps (hheap : heap.Ample) {ra : RiakArray α} {s : ListState α}
    (h : ra.Holds s) {elem : Ptr α}
    (hafter : ((ArrayCall.push elem).next s).elems.length < 2 ^ 31) :
    (ArrayCall.push elem).Steps ra s heap := by
  have hlength : s.elems.length + 1 < 2 ^ 31 := by
    have hnext : ((ArrayCall.push elem).next s).elems = s.elems ++ [elem] := rfl
    rwa [hnext, List.length_append] at hafter
  have hpos : (UInt64.ofNat s.elems.length).toNat = s.elems.length := by
    rw [UInt64.toNat_ofNat']
    exact Nat.mod_eq_of_lt (by omega)
  have hadds : (ArrayCall.push elem).Adds s.elems := trivial
  have hfits : (ArrayCall.push elem).Fits s ↔
      s.elems.length < slotCount s.reserved.capacity := by
    obtain ⟨_, _, _, hroom⟩ := riakArrayResize_reserves hheap h hlength
    rw [hroom]
    exact ⟨fun hfits => hfits.2 hadds, fun hroom => ⟨nofun, fun _ => hroom⟩⟩
  obtain ⟨hroom, hfull⟩ := riakArrayInsert_of_le hheap h (Nat.le_of_eq hpos) elem hlength
  rw [← riakArrayPush_eq_insert hheap h hlength] at hroom hfull
  have hrun := ArrayCall.run_push ra elem
  rw [ArrayCall.Steps, hfits, hrun, ArrayCall.next_of_adds hadds]
  refine ⟨fun hspare => ?_, fun hnone => C.bind_of_error (hfull hnone)⟩
  obtain ⟨ra', hpush, hholds⟩ := hroom hspare
  rw [hpos, List.insertIdx_length_self] at hholds
  refine ⟨ra', ?_, hholds⟩
  rw [C.bind_of_ok hpush]
  rfl

theorem riakArrayRemove_steps {ra : RiakArray α} {s : ListState α} (h : ra.Holds s)
    {pos : UInt64} (hpos : pos.toNat < 2 ^ 63) (hbefore : s.elems.length < 2 ^ 31) :
    (ArrayCall.remove pos : ArrayCall α).Steps ra s heap := by
  have hrun := ArrayCall.run_remove ra pos
  have hadds : ¬ (ArrayCall.remove pos).Adds s.elems := id
  by_cases hin : pos.toNat < s.elems.length
  · have hfits : (ArrayCall.remove pos).Fits s ↔ s.elems.length < slotCount s.capacity :=
      ⟨fun hfits => hfits.1 hin, fun hroom => ⟨fun _ => hroom, fun h => absurd h hadds⟩⟩
    obtain ⟨hroom, hfull⟩ := riakArrayRemove_of_lt h hin hbefore
    rw [ArrayCall.Steps, hfits, hrun, ArrayCall.next_of_not_adds hadds]
    constructor
    · intro hspare
      obtain ⟨ra', hremove, hholds⟩ := hroom hspare
      refine ⟨ra', ?_, hholds⟩
      rw [hremove, pure_bind]
      unfold ArrayCall.reply
      simp only [if_pos hin]
      rfl
    · intro hnone
      rw [hfull hnone]
      rfl
  · have hremoves : ¬ (ArrayCall.remove pos).Removes s.elems := hin
    have hresult : (ArrayCall.remove pos).result s.elems = s.elems :=
      List.eraseIdx_of_length_le (by omega)
    apply ArrayCall.steps_of_quiet hadds hremoves
    refine ⟨ra, ?_, ?_⟩
    · have hremove : riakArrayRemove ra pos = pure (.outOfRange, ra) := by
        unfold riakArrayRemove
        rw [h.length, asInt64_of_lt hpos, if_pos (by omega)]
      rw [hrun, hremove, pure_bind]
      unfold ArrayCall.reply
      simp only [if_neg hin]
      rfl
    · rw [hresult]
      exact h

theorem riakArrayPop_steps {ra : RiakArray α} {s : ListState α} (h : ra.Holds s) :
    (ArrayCall.pop : ArrayCall α).Steps ra s heap := by
  have hrun := ArrayCall.run_pop ra
  apply ArrayCall.steps_of_quiet id id
  rw [hrun]
  by_cases hempty : s.elems = []
  · have hpop : riakArrayPop ra = pure (.outOfRange, none, ra) := by
      unfold riakArrayPop
      rw [h.length, hempty, if_neg (by simp)]
    rw [hpop, pure_bind]
    refine ⟨ra, ?_, ?_⟩
    · unfold ArrayCall.reply
      simp only [hempty, if_true]
      rfl
    · have hresult : ArrayCall.pop.result s.elems = s.elems := by
        show s.elems.dropLast = s.elems
        rw [hempty]
        rfl
      rw [hresult]
      exact h
  · obtain ⟨ra', hpop, hholds⟩ := riakArrayPop_of_ne_nil h hempty
    refine ⟨ra', ?_, hholds⟩
    rw [hpop, pure_bind]
    unfold ArrayCall.reply
    simp only [hempty, if_false]
    rfl

theorem riakArrayGet_steps {ra : RiakArray α} {s : ListState α} (h : ra.Holds s) {pos : UInt64}
    (hpos : pos.toNat < 2 ^ 63) : (ArrayCall.get pos : ArrayCall α).Steps ra s heap := by
  have hrun := ArrayCall.run_get ra pos
  have hget : riakArrayGet ra pos = pure
      (if pos.toNat < s.elems.length then .ok else .outOfRange, s.elems[pos.toNat]?) := by
    unfold riakArrayGet
    rw [h.length, asInt64_of_lt hpos]
    by_cases hin : pos.toNat < s.elems.length
    · obtain ⟨slots, harray, hslot, _⟩ := h.get hin
      have helem : s.elems[pos.toNat]? = some s.elems[pos.toNat] := List.getElem?_eq_getElem hin
      rw [if_neg (by omega), if_pos hin, harray, Ptr.deref_obj, pure_bind, helem]
      rw [helem] at hslot
      rw [C.readAt_of_get hslot, pure_bind]
    · rw [if_pos (by omega), if_neg hin, List.getElem?_eq_none (by omega)]
  apply ArrayCall.steps_of_quiet id id
  rw [hrun, hget, pure_bind]
  exact ⟨ra, rfl, h⟩

theorem riakArraySet_steps {ra : RiakArray α} {s : ListState α} (h : ra.Holds s) {pos : UInt64}
    {elem : Ptr α} (hpos : pos.toNat < 2 ^ 63) : (ArrayCall.set pos elem).Steps ra s heap := by
  have hrun := ArrayCall.run_set ra pos elem
  apply ArrayCall.steps_of_quiet id id
  rw [hrun]
  by_cases hin : pos.toNat < s.elems.length
  · obtain ⟨slots, harray, hslot, hholds⟩ := h.set hin elem
    refine ⟨_, ?_, hholds⟩
    unfold riakArraySet ArrayCall.reply
    rw [if_neg (by rw [h.length, asInt64_of_lt hpos]; omega), harray, Ptr.deref_obj, pure_bind,
      C.writeAt_of_lt hslot, pure_bind, pure_bind]
    simp only [if_pos hin]
    rfl
  · have hresult : (ArrayCall.set pos elem).result s.elems = s.elems :=
      List.set_eq_of_length_le (by omega)
    refine ⟨ra, ?_, by rw [hresult]; exact h⟩
    unfold riakArraySet ArrayCall.reply
    rw [if_pos (by rw [h.length, asInt64_of_lt hpos]; omega), pure_bind]
    simp only [if_neg hin]
    rfl

theorem ArrayCall.steps (hheap : heap.Ample) {ra : RiakArray α} {s : ListState α} (h : ra.Holds s)
    {call : ArrayCall α} (hrange : call.InRange) (hbefore : s.elems.length < 2 ^ 31)
    (hafter : (call.next s).elems.length < 2 ^ 31) : call.Steps ra s heap := by
  cases call with
  | insert pos elem => exact riakArrayInsert_steps hheap h hrange hafter
  | remove pos => exact riakArrayRemove_steps h hrange hbefore
  | push elem => exact riakArrayPush_steps hheap h hafter
  | pop => exact riakArrayPop_steps h
  | get pos => exact riakArrayGet_steps h hrange
  | set pos elem => exact riakArraySet_steps h hrange
  | length =>
    apply ArrayCall.steps_of_quiet id id
    have hcast : ((s.elems.length : Int) % 2 ^ 64).toNat = s.elems.length := by omega
    have hlength : riakArrayLength ra = UInt64.ofNat s.elems.length := by
      unfold riakArrayLength UInt64.ofInt
      rw [h.length, hcast]
    refine ⟨ra, ?_, h⟩
    unfold ArrayCall.run
    rw [Ptr.deref_obj, pure_bind, hlength]
    rfl

/-! ### All calls

From calls that all fit to the list, and from a list that comes out right to calls
that all fitted: the first one that does not is a fault. -/

theorem riakArrayCalls_of_fits (hheap : heap.Ample) {calls : List (ArrayCall α)}
    {ra : RiakArray α} {s : ListState α} (h : ra.Holds s) (hrange : ∀ call ∈ calls, call.InRange)
    (hlengths : ∀ before after, calls = before ++ after →
      (s.after before).elems.length < 2 ^ 31) :
    (Along (fun before call => call.Fits (s.after before)) calls →
      ∃ ra', riakArrayCalls calls (.obj ra) heap =
        .ok (some (s.replies calls, .obj ra'), heap) ∧ ra'.Holds (s.after calls)) ∧
    (¬ Along (fun before call => call.Fits (s.after before)) calls →
      riakArrayCalls calls (.obj ra) heap = .error .outOfBounds) := by
  induction calls generalizing ra s with
  | nil => exact ⟨fun _ => ⟨ra, rfl, h⟩, fun hfits => absurd along_nil hfits⟩
  | cons call calls ih =>
    obtain ⟨hstep, hfault⟩ := ArrayCall.steps hheap h (hrange call List.mem_cons_self)
      (hlengths [] (call :: calls) rfl) (hlengths [call] calls rfl)
    rw [along_cons]
    by_cases hfits : call.Fits s
    · obtain ⟨ra₁, hrun, hholds⟩ := hstep hfits
      obtain ⟨hlater, hfault⟩ := ih hholds (fun c hc => hrange c (List.mem_cons_of_mem _ hc))
        (fun before after hsplit => hlengths (call :: before) after (by rw [hsplit]; rfl))
      unfold riakArrayCalls
      rw [C.bind_of_ok hrun]
      constructor
      · rintro ⟨_, hrest⟩
        obtain ⟨ra', hcalls, hholds'⟩ := hlater hrest
        refine ⟨ra', ?_, hholds'⟩
        simp only
        rw [C.bind_of_ok hcalls]
        rfl
      · intro hnot
        exact C.bind_of_error (hfault fun hrest => hnot ⟨hfits, hrest⟩)
    · refine ⟨fun hall => absurd hall.1 hfits, fun _ => ?_⟩
      unfold riakArrayCalls
      exact C.bind_of_error (hfault hfits)

/-- **When an array is a list.** From a new array of any positive capacity, calls
    at positions below `2 ^ 63` that keep the list shorter than `2 ^ 31` return
    what the operations on the list return, and leave the list in the first
    slots, if and only if every call fits. -/
theorem riak_array_refines_list_iff (hheap : heap.Ample) {capacity : UInt64}
    (hcapacity : 1 ≤ capacity) (calls : List (ArrayCall α))
    (hrange : ∀ call ∈ calls, call.InRange)
    (hlengths : ∀ before after, calls = before ++ after →
      ((ListState.mk [] capacity).after before).elems.length < 2 ^ 31) :
    ∃ ra : RiakArray α, riakArrayNew capacity heap = .ok ((.ok, some ra), heap) ∧
      ra.Holds ⟨[], capacity⟩ ∧
      ((∃ replies ra', riakArrayCalls calls (.obj ra) heap =
          .ok (some (replies, .obj ra'), heap) ∧
          replies = (ListState.mk [] capacity).replies calls ∧
          ra'.Holds ((ListState.mk [] capacity).after calls)) ↔
        Along (fun before call => call.Fits ((ListState.mk [] capacity).after before)) calls) := by
  have hnew : (riakArrayNew capacity : C (RiakError × Option (RiakArray α))) heap =
      .ok ((.ok, some ⟨0, capacity, .obj (List.replicate (slotCount capacity) .null)⟩), heap) := by
    unfold riakArrayNew
    rw [C.bind_of_ok (C.allocate_of_ample hheap), if_pos rfl,
      C.bind_of_ok (C.allocate_of_ample hheap), if_pos rfl]
    rfl
  have hholds : RiakArray.Holds
      (⟨0, capacity, .obj (List.replicate (slotCount capacity) .null)⟩ : RiakArray α)
      ⟨[], capacity⟩ := by
    refine ⟨rfl, rfl, ⟨List.replicate (slotCount capacity) .null, rfl, ?_⟩, ?_⟩
    · rw [List.length_replicate]
      exact Nat.zero_add _
    · exact hcapacity
  obtain ⟨hright, hwrong⟩ := riakArrayCalls_of_fits hheap hholds hrange hlengths
  refine ⟨_, hnew, hholds, ?_⟩
  constructor
  · rintro ⟨replies, ra', hcalls, _⟩
    by_contra hnot
    rw [hwrong hnot] at hcalls
    cases hcalls
  · intro hfits
    obtain ⟨ra', hcalls, hholds'⟩ := hright hfits
    exact ⟨_, ra', hcalls, rfl, hholds'⟩

/-- In a block whose size has not wrapped, the calls that do not fit are those
    that remove an element of a full array. -/
theorem ArrayCall.fits_iff_of_lt {call : ArrayCall α} {s : ListState α}
    (hcapacity : s.capacity.toNat < 2 ^ 61) (hlength : s.elems.length ≤ s.capacity.toNat) :
    call.Fits s ↔ ¬ (call.Removes s.elems ∧ s.elems.length = s.capacity.toNat) := by
  unfold ArrayCall.Fits
  rw [slotCount_of_lt hcapacity]
  constructor
  · rintro ⟨hremoves, _⟩ ⟨hin, hfull⟩
    have hroom := hremoves hin
    omega
  · intro hnot
    refine ⟨fun hin => ?_, fun _ => Nat.lt_or_ge _ _⟩
    have hless : s.elems.length ≠ s.capacity.toNat := fun hfull => hnot ⟨hin, hfull⟩
    omega

/-- An array of two slots that grows once. -/
theorem riak_array_refines_list_grown :
    ∃ ra ra' : RiakArray Nat, riakArrayNew 2 Heap.fresh = .ok ((.ok, some ra), Heap.fresh) ∧
      riakArrayCalls [.push (.obj 1), .insert 0 (.obj 2), .push (.obj 3), .remove 1, .get 1]
          (.obj ra) Heap.fresh =
        .ok (some ([.code .ok, .code .ok, .code .ok, .code .ok, .elem .ok (some (.obj 3))],
          .obj ra'), Heap.fresh) ∧
      ra'.Holds ⟨[.obj 2, .obj 3], 4⟩ := by
  have hlengths : ∀ before ∈ [.push (.obj 1), .insert 0 (.obj 2), .push (.obj 3), .remove 1,
      (.get 1 : ArrayCall Nat)].inits,
      ((ListState.mk [] 2).after before).elems.length < 2 ^ 31 := by decide
  obtain ⟨ra, hnew, _, hiff⟩ := riak_array_refines_list_iff Heap.fresh_ample (by decide)
    [.push (.obj 1), .insert 0 (.obj 2), .push (.obj 3), .remove 1, (.get 1 : ArrayCall Nat)]
    (by simp [ArrayCall.InRange])
    (fun before after hsplit => hlengths before ((List.mem_inits _ _).mpr ⟨after, hsplit.symm⟩))
  obtain ⟨replies, ra', hcalls, rfl, hholds⟩ := hiff.mpr
    (along_cons.mpr ⟨by decide, along_cons.mpr ⟨by decide, along_cons.mpr ⟨by decide,
      along_cons.mpr ⟨by decide, along_cons.mpr ⟨by decide, along_nil⟩⟩⟩⟩⟩)
  exact ⟨ra, ra', hnew, hcalls, hholds⟩

/-- Removing the only element of an array of one slot reads a second slot. -/
theorem riak_array_remove_full :
    ∃ ra : RiakArray Nat, riakArrayNew 1 Heap.fresh = .ok ((.ok, some ra), Heap.fresh) ∧
      riakArrayCalls [.push (.obj 7), .remove 0] (.obj ra) Heap.fresh = .error .outOfBounds ∧
      (ListState.mk [] 1).replies [.push (.obj 7), (.remove 0 : ArrayCall Nat)] =
        [.code .ok, .code .ok] := by
  have hlengths : ∀ before ∈ [.push (.obj 7), (.remove 0 : ArrayCall Nat)].inits,
      ((ListState.mk [] 1).after before).elems.length < 2 ^ 31 := by decide
  have hholds : RiakArray.Holds (⟨0, 1, .obj [.null]⟩ : RiakArray Nat) ⟨[], 1⟩ :=
    ⟨rfl, rfl, ⟨[.null], rfl, by decide⟩, by decide⟩
  refine ⟨⟨0, 1, .obj [.null]⟩, rfl, ?_, rfl⟩
  refine (riakArrayCalls_of_fits Heap.fresh_ample hholds (by simp [ArrayCall.InRange])
    (fun before after hsplit =>
      hlengths before ((List.mem_inits _ _).mpr ⟨after, hsplit.symm⟩))).2 ?_
  intro hfits
  exact absurd (hfits [.push (.obj 7)] (.remove 0) [] rfl) (by decide)

end RiakClient
