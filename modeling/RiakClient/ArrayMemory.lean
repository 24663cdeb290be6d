import RiakClient.ArrayBounds

/-!
# What an array does with its memory

`ArrayBounds` asks what the check of a position is worth. Here the positions are
right, and the questions are about the block: whether a call stays inside the slots
that were allocated, whether an array that is full grows, and what is left of it
when the allocator refuses.
-/

namespace RiakClient

open CSem

variable {α : Type} {heap final : Heap}

/-! ### Arrays that allowed calls can make -/

/-- An array that `riak_array_new` made and that calls have changed, each of them
    allowed where it was made. -/
inductive RiakArray.ReachedBy (Allowed : RiakArray α → ArrayCall α → Heap → Prop) :
    RiakArray α → Prop where
  | new {capacity : UInt64} {ra : RiakArray α} {heap final : Heap} :
      riakArrayNew capacity heap = .ok ((.ok, some ra), final) → ReachedBy Allowed ra
  | call {ra ra' : RiakArray α} {call : ArrayCall α} {reply : ArrayReply α} {heap final : Heap} :
      ReachedBy Allowed ra → Allowed ra call heap →
      call.run (.obj ra) heap = .ok (some (reply, .obj ra'), final) → ReachedBy Allowed ra'
  | sort {ra : RiakArray α} {elems sorted spare : List (Ptr α)} :
      ReachedBy Allowed ra → ra.array = .obj (elems ++ spare) → ra.length = elems.length →
      sorted.Perm elems → ReachedBy Allowed { ra with array := .obj (sorted ++ spare) }

theorem RiakArray.ReachedBy.reachable {Allowed : RiakArray α → ArrayCall α → Heap → Prop}
    {ra : RiakArray α} (h : ra.ReachedBy Allowed) : ra.Reachable := by
  induction h with
  | new hnew => exact .new hnew
  | call _ _ hrun ih => exact ih.call hrun
  | sort _ harray hlength hperm ih => exact ih.sort harray hlength hperm

/-- The position of a call is one of the array. -/
def ArrayCall.InBounds (call : ArrayCall α) (ra : RiakArray α) : Prop :=
  match call with
  | insert pos _ => pos.toNat ≤ ra.length
  | remove pos | get pos | set pos _ => pos.toNat < ra.length
  | push _ | pop | length => True

/-- Its position is right, and it gets the memory that it asks for. -/
def ArrayCall.Proper (ra : RiakArray α) (call : ArrayCall α) (heap : Heap) : Prop :=
  call.InBounds ra ∧ heap.Ample

/-- The calls that make an array longer. -/
def ArrayCall.Adding : ArrayCall α → Prop
  | push _ | insert _ _ => True
  | remove _ | pop | get _ | set _ _ | length => False

/-! ### What a call leaves

Whatever a call is, it leaves the block as it was, or one of as many slots as its new
capacity has in 32 bits; and only a `pop` or a `remove` makes the array shorter, by one
element that it had. -/

/-- The same number of slots, under the same capacity. -/
structure RiakArray.SameBlock (ra ra' : RiakArray α) : Prop where
  capacity : ra'.capacity = ra.capacity
  room : ra'.room = ra.room

theorem RiakArray.SameBlock.refl (ra : RiakArray α) : ra.SameBlock ra := ⟨rfl, rfl⟩

theorem RiakArray.SameBlock.of_length {ra : RiakArray α} {slots slots' : List (Ptr α)}
    (hslots : ra.array = .obj slots) (hlength : slots'.length = slots.length) (length : Int) :
    ra.SameBlock { ra with length := length, array := .obj slots' } := by
  refine ⟨rfl, ?_⟩
  rw [RiakArray.room_of_block hslots, ← hlength]
  rfl

theorem ArrayCall.run_get_eq_ok {ra : RiakArray α} {pos : UInt64} {reply : ArrayReply α}
    {left : Ptr (RiakArray α)}
    (h : (get pos).run (.obj ra) heap = .ok (some (reply, left), final)) : left = .obj ra := by
  rw [run_get] at h
  obtain ⟨_, _, _, hlast⟩ := C.bind_eq_ok.mp h
  obtain ⟨hsome, _⟩ := C.pure_eq_ok.mp hlast
  cases hsome
  rfl

theorem ArrayCall.run_set_eq_ok {ra : RiakArray α} {pos : UInt64} {elem : Ptr α}
    {reply : ArrayReply α} {left : Ptr (RiakArray α)}
    (h : (set pos elem).run (.obj ra) heap = .ok (some (reply, left), final)) :
    ∃ ra', left = .obj ra' ∧ ra.SameBlock ra' ∧ ra'.length = ra.length := by
  by_cases hrefused : ra.length - 1 < asInt64 pos.toNat
  · rw [run_set_refused hrefused] at h
    obtain ⟨hsome, _⟩ := C.pure_eq_ok.mp h
    cases hsome
    exact ⟨ra, rfl, .refl ra, rfl⟩
  · rw [run_set, riakArraySet, if_neg hrefused] at h
    obtain ⟨_, _, hset, hlast⟩ := C.bind_eq_ok.mp h
    obtain ⟨slots, _, hblock, hstore⟩ := C.bind_eq_ok.mp hset
    obtain ⟨hslots, rfl⟩ := Ptr.deref_eq_ok.mp hblock
    obtain ⟨written, _, hwrite, hdone⟩ := C.bind_eq_ok.mp hstore
    obtain ⟨_, rfl, _⟩ := C.writeAt_eq_ok.mp hwrite
    obtain ⟨rfl, _⟩ := C.pure_eq_ok.mp hdone
    obtain ⟨hsome, _⟩ := C.pure_eq_ok.mp hlast
    cases hsome
    exact ⟨_, rfl, .of_length hslots List.length_set ra.length, rfl⟩

theorem ArrayCall.run_remove_eq_ok {ra : RiakArray α} {pos : UInt64} {reply : ArrayReply α}
    {left : Ptr (RiakArray α)}
    (h : (remove pos).run (.obj ra) heap = .ok (some (reply, left), final)) :
    ∃ ra', left = .obj ra' ∧ ra.SameBlock ra' ∧
      (ra'.length = ra.length ∨ asInt64 pos.toNat < ra.length ∧ ra'.length = ra.length - 1) := by
  by_cases hrefused : ra.length - 1 < asInt64 pos.toNat
  · rw [run_remove_refused hrefused] at h
    obtain ⟨hsome, _⟩ := C.pure_eq_ok.mp h
    cases hsome
    exact ⟨ra, rfl, .refl ra, Or.inl rfl⟩
  · rw [run_remove, riakArrayRemove, if_neg hrefused] at h
    obtain ⟨_, _, hremove, hlast⟩ := C.bind_eq_ok.mp h
    obtain ⟨slots, _, hblock, hmove⟩ := C.bind_eq_ok.mp hremove
    obtain ⟨hslots, rfl⟩ := Ptr.deref_eq_ok.mp hblock
    by_cases hcloses : ClosesInside ra.length pos slots.length
    · obtain ⟨moved, hmoved, hlength⟩ := closeSlot_inside hcloses
      rw [hmoved, pure_bind] at hmove
      obtain ⟨rfl, _⟩ := C.pure_eq_ok.mp hmove
      obtain ⟨hsome, _⟩ := C.pure_eq_ok.mp hlast
      cases hsome
      exact ⟨_, rfl, .of_length hslots hlength (ra.length - 1), Or.inr ⟨by omega, rfl⟩⟩
    · obtain ⟨fault, hfault⟩ := closeSlot_outside hcloses
      rw [hfault] at hmove
      cases hmove

/-- Room for one more leaves the block, or makes one of as many slots as the new
    capacity has in 32 bits. -/
theorem RiakArray.block_of_resize {ra ra₁ : RiakArray α} {size : UInt64}
    (h : riakArrayResize ra size heap = .ok (some (.ok, .obj ra₁), final)) :
    ra₁.length = ra.length ∧
      (ra.SameBlock ra₁ ∨ ra₁.room = ra₁.capacity.toUInt32.toNat) := by
  rcases riakArrayResize_eq_ok h with
    ⟨_, _, hsame⟩ | ⟨hmemory, _⟩ | ⟨_, _, newCap, slots, _, hslots, hgrown⟩
  · cases hsame
    exact ⟨rfl, Or.inl (.refl ra)⟩
  · cases hmemory
  · cases hgrown
    exact ⟨rfl, Or.inr hslots⟩

theorem RiakArray.block_of_added {ra ra₁ : RiakArray α} {size : UInt64}
    {slots slots' : List (Ptr α)}
    (hresize : riakArrayResize ra size heap = .ok (some (.ok, .obj ra₁), final))
    (hslots : ra₁.array = .obj slots) (hsize : slots'.length = slots.length) :
    let added : RiakArray α := { ra₁ with array := .obj slots', length := ra₁.length + 1 }
    (ra.SameBlock added ∨ added.room = added.capacity.toUInt32.toNat) ∧
      ra.length ≤ added.length := by
  obtain ⟨hlength, hblock⟩ := RiakArray.block_of_resize hresize
  have hroom : ra₁.room = slots'.length := by
    rw [RiakArray.room_of_block hslots, hsize]
  refine ⟨?_, show ra.length ≤ ra₁.length + 1 by omega⟩
  rcases hblock with ⟨hcapacity, hsame⟩ | hgrown
  · exact Or.inl ⟨hcapacity, hroom.symm.trans hsame⟩
  · exact Or.inr (hroom.symm.trans hgrown)

theorem ArrayCall.block_of_run {call : ArrayCall α} {ra ra' : RiakArray α}
    {reply : ArrayReply α}
    (h : call.run (.obj ra) heap = .ok (some (reply, .obj ra'), final)) :
    (ra.SameBlock ra' ∨ ra'.room = ra'.capacity.toUInt32.toNat) ∧
      (ra.length ≤ ra'.length ∨
        ra'.length = ra.length - 1 ∧ (call = .pop ∧ 0 < ra.length ∨
          ∃ pos, call = .remove pos ∧ asInt64 pos.toNat < ra.length)) := by
  cases call with
  | get pos =>
    cases run_get_eq_ok h
    exact ⟨Or.inl (.refl ra), Or.inl (Int.le_refl _)⟩
  | set pos elem =>
    obtain ⟨ra₁, hleft, hblock, hlength⟩ := run_set_eq_ok h
    cases hleft
    exact ⟨Or.inl hblock, Or.inl (by omega)⟩
  | remove pos =>
    obtain ⟨ra₁, hleft, hblock, hlength⟩ := run_remove_eq_ok h
    cases hleft
    refine ⟨Or.inl hblock, ?_⟩
    rcases hlength with hsame | ⟨hpass, hshorter⟩
    · exact Or.inl (by omega)
    · exact Or.inr ⟨hshorter, Or.inr ⟨pos, rfl, hpass⟩⟩
  | pop =>
    rcases run_pop_eq_ok h with ⟨_, _, hsame⟩ | ⟨hany, _, hpopped⟩
    · cases hsame
      exact ⟨Or.inl (.refl ra), Or.inl (Int.le_refl _)⟩
    · cases hpopped
      exact ⟨Or.inl ⟨rfl, rfl⟩, Or.inr ⟨rfl, Or.inl ⟨rfl, hany⟩⟩⟩
  | length =>
    obtain ⟨hsome, _⟩ := C.pure_eq_ok.mp h
    cases hsome
    exact ⟨Or.inl (.refl ra), Or.inl (Int.le_refl _)⟩
  | push elem =>
    obtain ⟨err, _, hpush⟩ := run_push_eq_ok h
    rcases riakArrayPush_eq_ok hpush with
      ⟨_, _, hfreed⟩ | ⟨_, ra₁, slots, slots', hresize, hslots, _, _, hsize, hpushed⟩
    · cases hfreed
    · cases hpushed
      obtain ⟨hblock, hlength⟩ := RiakArray.block_of_added hresize hslots hsize
      exact ⟨hblock, Or.inl hlength⟩
  | insert pos elem =>
    obtain ⟨err, _, hinsert⟩ := run_insert_eq_ok h
    rcases riakArrayInsert_eq_ok hinsert with
      ⟨_, _, hsame, _⟩ | ⟨_, _, hfreed⟩ |
      ⟨_, _, ra₁, slots, moved, hresize, hslots, _, _, hsize, hinserted⟩
    · cases hsame
      exact ⟨Or.inl (.refl ra), Or.inl (Int.le_refl _)⟩
    · cases hfreed
    · cases hinserted
      obtain ⟨hblock, hlength⟩ := RiakArray.block_of_added hresize hslots hsize
      exact ⟨hblock, Or.inl hlength⟩

/-! ### The block and the capacity -/

/-- The block has no more slots than the capacity says, and as many if the capacity is
    a number of 32 bits. -/
structure RiakArray.Sized (ra : RiakArray α) : Prop where
  room_le : ra.room ≤ ra.capacity.toNat
  room_eq : ra.capacity.toNat < 2 ^ 32 → ra.room = ra.capacity.toNat

theorem RiakArray.Sized.of_sameBlock {ra ra' : RiakArray α} (h : ra.Sized)
    (hblock : ra.SameBlock ra') : ra'.Sized := by
  obtain ⟨hcapacity, hroom⟩ := hblock
  refine ⟨?_, ?_⟩
  · rw [hcapacity, hroom]
    exact h.room_le
  · rw [hcapacity, hroom]
    exact h.room_eq

theorem RiakArray.Sized.of_grown {ra : RiakArray α}
    (h : ra.room = ra.capacity.toUInt32.toNat) : ra.Sized := by
  rw [UInt64.toNat_toUInt32] at h
  refine ⟨?_, fun hsmall => ?_⟩
  · rw [h]
    exact Nat.mod_le _ _
  · rw [h, Nat.mod_eq_of_lt hsmall]

theorem RiakArray.Sized.call {ra ra' : RiakArray α} {call : ArrayCall α} {reply : ArrayReply α}
    (h : ra.Sized) (hrun : call.run (.obj ra) heap = .ok (some (reply, .obj ra'), final)) :
    ra'.Sized := by
  rcases (ArrayCall.block_of_run hrun).1 with hblock | hgrown
  · exact h.of_sameBlock hblock
  · exact .of_grown hgrown

theorem RiakArray.sameBlock_of_perm {ra : RiakArray α} {elems sorted spare : List (Ptr α)}
    (harray : ra.array = .obj (elems ++ spare)) (hperm : sorted.Perm elems) :
    ra.SameBlock { ra with array := .obj (sorted ++ spare) } :=
  .of_length harray (by rw [List.length_append, List.length_append, hperm.length_eq]) ra.length

theorem RiakArray.Reachable.sized {ra : RiakArray α} (h : ra.Reachable) : ra.Sized := by
  induction h with
  | @new capacity ra heap final hnew =>
    rw [riakArrayNew_eq_ok hnew]
    have hroom : RiakArray.room (⟨0, capacity, .obj (List.replicate (slotCount capacity) .null)⟩ :
        RiakArray α) = slotCount capacity := List.length_replicate
    refine ⟨?_, fun hsmall => ?_⟩
    · rw [hroom]
      exact slotCount_le capacity
    · rw [hroom]
      exact slotCount_of_lt (Nat.lt_trans hsmall (by decide))
  | call _ hrun ih => exact ih.call hrun
  | sort _ harray _ hperm ih => exact ih.of_sameBlock (sameBlock_of_perm harray hperm)

/-- Where the calls take an element only from an array that has one, the length is
    never negative. -/
theorem RiakArray.ReachedBy.length_nonneg {Allowed : RiakArray α → ArrayCall α → Heap → Prop}
    (hremove : ∀ (ra : RiakArray α) pos heap, Allowed ra (.remove pos) heap → 0 < ra.length)
    {ra : RiakArray α} (h : ra.ReachedBy Allowed) : 0 ≤ ra.length := by
  induction h with
  | new hnew =>
    obtain rfl := riakArrayNew_eq_ok hnew
    exact Int.le_refl 0
  | @call ra ra' call _ heap _ _ hallowed hrun ih =>
    rcases (ArrayCall.block_of_run hrun).2 with hlonger | ⟨hshorter, hany | ⟨pos, hcall, _⟩⟩
    · omega
    · omega
    · rw [hcall] at hallowed
      have hany := hremove ra pos heap hallowed
      omega
  | sort _ _ _ _ ih => exact ih

theorem RiakArray.ReachedBy.length_nonneg_of_proper {ra : RiakArray α}
    (h : ra.ReachedBy ArrayCall.Proper) : 0 ≤ ra.length :=
  h.length_nonneg fun _ pos _ hproper => Int.lt_of_le_of_lt (Int.natCast_nonneg pos.toNat) hproper.1

theorem RiakArray.ReachedBy.length_nonneg_of_adding {ra : RiakArray α}
    (h : ra.ReachedBy fun _ call _ => call.Adding) : 0 ≤ ra.length :=
  h.length_nonneg fun _ _ _ hadding => False.elim hadding

/-! ### Staying inside

A call faults when it reads or writes a slot that the block does not have. -/

/-- No slot that the call reads or writes is outside its block, whose slots are all
    below the capacity, before the call and after it. -/
structure ArrayCall.StaysInside (call : ArrayCall α) (ra : RiakArray α) (heap : Heap) : Prop where
  faultless : ∀ fault, call.run (.obj ra) heap ≠ .error fault
  before : ra.room ≤ ra.capacity.toNat
  after : ∀ reply ra' final, call.run (.obj ra) heap = .ok (some (reply, .obj ra'), final) →
    ra'.room ≤ ra'.capacity.toNat

/-- The slots that a call with a right position goes to are there. An array that was
    made without a slot never gets one: the call does not come back from
    `riak_array_resize`, and goes nowhere. -/
def ArrayCall.SlotsExist (call : ArrayCall α) (ra : RiakArray α) : Prop :=
  match call with
  | get pos | set pos _ => pos.toNat < ra.room
  | remove _ => ra.length < ra.room ∧ ra.length < 2 ^ 31
  | insert pos _ => ra.capacity.toNat = 0 ∨ ra.InsertsInside pos
  | push _ => ra.capacity.toNat = 0 ∨ ra.GrowsInside ∧ ra.length < ra.roomAfter
  | pop => ra.length ≤ ra.room
  | length => True

theorem ArrayCall.Checked.faultless_iff {call : ArrayCall α} {ra : RiakArray α}
    {passes fits : Prop} (h : call.Checked ra heap passes fits) (hpass : passes)
    (hreturns : ∀ final, call.run (.obj ra) heap ≠ .ok (none, final)) :
    (∀ fault, call.run (.obj ra) heap ≠ .error fault) ↔ fits := by
  constructor
  · intro hfaultless
    by_contra hfits
    cases hrun : call.run (.obj ra) heap with
    | error fault => exact hfaultless fault hrun
    | ok result =>
      obtain ⟨out, final⟩ := result
      cases out with
      | none => exact hreturns final hrun
      | some out => exact h.outside hpass hfits out final hrun
  · intro hfits fault hfault
    obtain ⟨reply, ra', hinside, _⟩ := h.inside hpass hfits
    rw [hinside] at hfault
    cases hfault

theorem ArrayCall.push_checked (hheap : heap.Ample) {ra : RiakArray α} (h : ra.Bounded)
    (hlength : 0 ≤ ra.length) (elem : Ptr α) :
    (push elem).Checked ra heap True (ra.GrowsInside ∧ ra.length < ra.roomAfter) := by
  refine ⟨fun hrefused => absurd trivial hrefused, ?_, ?_⟩
  · rintro _ ⟨hgrows, hin⟩
    obtain ⟨ra₁, slots, hresize, hslots, hroom, hsame⟩ :=
      riakArrayResize_inside hheap h hlength hgrows
    obtain ⟨n, hn⟩ := Int.eq_ofNat_of_zero_le hlength
    have hwrite : writeSlot slots elem ra₁.length = pure (slots.set n elem) := by
      rw [hsame, hn]
      exact C.writeAt_of_lt (by omega) elem
    have hpush : riakArrayPush ra elem heap = .ok (some (.ok, .obj { ra₁ with
        array := .obj (slots.set n elem), length := ra₁.length + 1 }), heap) := by
      unfold riakArrayPush
      rw [C.bind_of_ok hresize]
      simp only [ne_eq, not_true_eq_false, if_false, Ptr.deref_obj, pure_bind, hslots]
      rw [hwrite]
      rfl
    refine ⟨.code .ok, _, ?_, rfl, h.push hpush⟩
    rw [run_push, C.bind_of_ok hpush]
    rfl
  · rintro _ hout ⟨reply, left⟩ final hrun
    obtain ⟨_, _, hpush⟩ := run_push_eq_ok hrun
    rcases riakArrayPush_eq_ok hpush with
      ⟨_, hmemory, _⟩ | ⟨_, ra₁, slots, _, hresize, hslots, _, hin, _⟩
    · rw [hheap.grants 1 0 Nat.one_pos] at hmemory
      cases hmemory
    · by_cases hgrows : ra.GrowsInside
      · obtain ⟨ra₂, slots₂, hresize₂, hslots₂, hroom, hsame⟩ :=
          riakArrayResize_inside hheap h hlength hgrows
        rw [hresize₂] at hresize
        cases hresize
        rw [hslots, Ptr.obj.injEq] at hslots₂
        subst hslots₂
        exact hout ⟨hgrows, by omega⟩
      · exact riakArrayResize_outside hheap h hgrows _ _ hresize

theorem ArrayCall.pop_checked {ra : RiakArray α} (h : ra.Bounded) :
    (pop : ArrayCall α).Checked ra heap (0 < ra.length) (ra.length ≤ ra.room) := by
  obtain ⟨slots, hslots, _⟩ := h.block
  have hpassed : 0 < ra.length → riakArrayPop ra =
      (readSlot slots (ra.length - 1) >>= fun elem =>
        pure (.ok, some elem, { ra with length := ra.length - 1 })) := by
    intro hpass
    have hblock : ra.array.deref = pure slots := by
      rw [hslots]
      rfl
    unfold riakArrayPop
    rw [if_pos hpass]
    show (ra.array.deref >>= fun slots => readSlot slots (ra.length - 1) >>= fun elem =>
      pure (RiakError.ok, some elem, { ra with length := ra.length - 1 })) = _
    rw [hblock, pure_bind]
  rw [RiakArray.room_of_block hslots]
  refine ⟨fun hrefused => ?_, fun hpass hin => ?_, fun hpass hout out final => ?_⟩
  · refine ⟨.elem .outOfRange none, ?_, rfl⟩
    rw [run_pop_refused hrefused]
    rfl
  · obtain ⟨n, hn⟩ := Int.eq_ofNat_of_zero_le (show 0 ≤ ra.length - 1 by omega)
    have hless : n < slots.length := by omega
    have hread : readSlot slots (ra.length - 1) = pure slots[n] := by
      rw [hn]
      exact C.readAt_of_get (List.getElem?_eq_getElem hless)
    have hshorter := h.of_le hslots (show ra.length - 1 ≤ ra.length by omega) (by omega) rfl
    rw [← hslots] at hshorter
    refine ⟨.elem .ok (some slots[n]), { ra with length := ra.length - 1 }, ?_, rfl, hshorter⟩
    rw [run_pop, hpassed hpass, hread]
    rfl
  · obtain ⟨n, hn⟩ := Int.eq_ofNat_of_zero_le (show 0 ≤ ra.length - 1 by omega)
    have hread : readSlot slots (ra.length - 1) = C.fault .outOfBounds := by
      rw [hn]
      exact C.readAt_of_le (by omega)
    rw [run_pop, hpassed hpass, hread]
    nofun

theorem riakArrayResize_ne_none {ra : RiakArray α} (h : ra.Bounded) (hlength : 0 ≤ ra.length)
    (hpositive : 0 < ra.capacity.toNat) :
    riakArrayResize ra (UInt64.ofInt (ra.length + 1)) heap ≠ .ok (none, final) := by
  intro hnone
  by_cases hfull : ra.length = ra.capacity.toNat
  · obtain ⟨slots, hslots, _⟩ := h.block
    rw [riakArrayResize_of_full h hfull hslots, if_pos hpositive] at hnone
    obtain ⟨⟨grown, array⟩, _, _, hlast⟩ := C.bind_eq_ok.mp hnone
    cases grown with
    | false =>
      obtain ⟨hsome, _⟩ := C.pure_eq_ok.mp hlast
      cases hsome
    | true =>
      obtain ⟨hsome, _⟩ := C.pure_eq_ok.mp hlast
      cases hsome
  · rw [riakArrayResize_of_room h hlength hfull] at hnone
    obtain ⟨hsome, _⟩ := C.pure_eq_ok.mp hnone
    cases hsome

theorem riakArrayResize_of_no_capacity {ra : RiakArray α} (h : ra.Bounded)
    (hlength : 0 ≤ ra.length) (hzero : ra.capacity.toNat = 0) :
    riakArrayResize ra (UInt64.ofInt (ra.length + 1)) = pure none := by
  obtain ⟨slots, hslots, _⟩ := h.block
  have hfilled := h.filled
  rw [riakArrayResize_of_full h (by omega) hslots, if_neg (by omega)]

theorem resized_ne_none {ra : RiakArray α} {size : UInt64}
    {body : RiakArray α → C (Option (RiakError × Ptr (RiakArray α)))}
    (hresize : ∀ final, riakArrayResize ra size heap ≠ .ok (none, final))
    (hbody : ∀ ra₁ heap₁ final, body ra₁ heap₁ ≠ .ok (none, final)) :
    (riakArrayResize ra size >>= fun resized => match resized with
      | none => pure none
      | some (err, resized) =>
          if err ≠ .ok then pure (some (err, resized)) else resized.deref >>= body) heap ≠
      .ok (none, final) := by
  intro hnone
  obtain ⟨resized, heap₁, hfirst, hrest⟩ := C.bind_eq_ok.mp hnone
  cases resized with
  | none => exact hresize heap₁ hfirst
  | some resized =>
    obtain ⟨err, p⟩ := resized
    by_cases herr : err = .ok
    · simp only [ne_eq, herr, not_true_eq_false, if_false] at hrest
      obtain ⟨ra₁, heap₂, _, hlast⟩ := C.bind_eq_ok.mp hrest
      exact hbody ra₁ heap₂ final hlast
    · simp only [ne_eq, herr, not_false_eq_true, if_true] at hrest
      obtain ⟨hsome, _⟩ := C.pure_eq_ok.mp hrest
      cases hsome

theorem ArrayCall.run_ne_none {call : ArrayCall α} {ra : RiakArray α} (h : ra.Bounded)
    (hlength : 0 ≤ ra.length) (hcapacity : call.Adding → 0 < ra.capacity.toNat) :
    call.run (.obj ra) heap ≠ .ok (none, final) := by
  intro hnone
  cases call with
  | get pos =>
    rw [run_get] at hnone
    obtain ⟨_, _, _, hlast⟩ := C.bind_eq_ok.mp hnone
    cases (C.pure_eq_ok.mp hlast).1
  | set pos elem =>
    rw [run_set] at hnone
    obtain ⟨_, _, _, hlast⟩ := C.bind_eq_ok.mp hnone
    cases (C.pure_eq_ok.mp hlast).1
  | remove pos =>
    rw [run_remove] at hnone
    obtain ⟨_, _, _, hlast⟩ := C.bind_eq_ok.mp hnone
    cases (C.pure_eq_ok.mp hlast).1
  | pop =>
    rw [run_pop] at hnone
    obtain ⟨_, _, _, hlast⟩ := C.bind_eq_ok.mp hnone
    cases (C.pure_eq_ok.mp hlast).1
  | length => cases (C.pure_eq_ok.mp hnone).1
  | push elem =>
    rw [run_push] at hnone
    obtain ⟨pushed, _, hpush, hlast⟩ := C.bind_eq_ok.mp hnone
    cases Option.map_eq_none_iff.mp (C.pure_eq_ok.mp hlast).1
    refine resized_ne_none (fun _ => riakArrayResize_ne_none h hlength (hcapacity trivial)) ?_ hpush
    intro ra₁ heap₁ final hbody
    obtain ⟨_, _, _, hstore⟩ := C.bind_eq_ok.mp hbody
    obtain ⟨_, _, _, hdone⟩ := C.bind_eq_ok.mp hstore
    cases (C.pure_eq_ok.mp hdone).1
  | insert pos elem =>
    rw [run_insert] at hnone
    obtain ⟨inserted, _, hinsert, hlast⟩ := C.bind_eq_ok.mp hnone
    cases Option.map_eq_none_iff.mp (C.pure_eq_ok.mp hlast).1
    unfold riakArrayInsert at hinsert
    by_cases hrefused : ra.length < asInt64 pos.toNat
    · rw [if_pos hrefused] at hinsert
      cases (C.pure_eq_ok.mp hinsert).1
    · rw [if_neg hrefused] at hinsert
      refine resized_ne_none (fun _ => riakArrayResize_ne_none h hlength (hcapacity trivial)) ?_
        hinsert
      intro ra₁ heap₁ final hbody
      obtain ⟨_, _, _, hmove⟩ := C.bind_eq_ok.mp hbody
      obtain ⟨_, _, _, hwrite⟩ := C.bind_eq_ok.mp hmove
      obtain ⟨_, _, _, hdone⟩ := C.bind_eq_ok.mp hwrite
      cases (C.pure_eq_ok.mp hdone).1

theorem reachedBy_new_one (Allowed : RiakArray Nat → ArrayCall Nat → Heap → Prop) :
    (⟨0, 1, .obj [.null]⟩ : RiakArray Nat).ReachedBy Allowed := by
  have hnew : (riakArrayNew 1 : C (RiakError × Option (RiakArray Nat))) Heap.fresh =
      .ok ((.ok, some ⟨0, 1, .obj [.null]⟩), Heap.fresh) := rfl
  exact .new hnew

theorem reachedBy_full {Allowed : RiakArray Nat → ArrayCall Nat → Heap → Prop}
    (hallowed : Allowed ⟨0, 1, .obj [.null]⟩ (.push (.obj 7)) Heap.fresh) :
    (⟨1, 1, .obj [.obj 7]⟩ : RiakArray Nat).ReachedBy Allowed := by
  have hpush : (ArrayCall.push (.obj 7)).run (.obj (⟨0, 1, .obj [.null]⟩ : RiakArray Nat))
      Heap.fresh = .ok (some (.code .ok, .obj ⟨1, 1, .obj [.obj 7]⟩), Heap.fresh) := rfl
  exact (reachedBy_new_one Allowed).call hallowed hpush

/-- **When the calls of an array stay inside its slots.** On every array that calls with
    right positions and enough memory make, such a call does if and only if its slots
    exist. -/
theorem riak_array_stays_inside_iff {ra : RiakArray α} (h : ra.ReachedBy ArrayCall.Proper)
    {call : ArrayCall α} (hproper : call.Proper ra heap) :
    call.StaysInside ra heap ↔ call.SlotsExist ra := by
  obtain ⟨hcall, hheap⟩ := hproper
  have hbounded := h.reachable.bounded
  have hsized := h.reachable.sized
  have hlength := h.length_nonneg_of_proper
  have hfaultless : call.StaysInside ra heap ↔
      ∀ fault, call.run (.obj ra) heap ≠ .error fault := by
    refine ⟨fun hstays => hstays.faultless, fun hstays => ⟨hstays, hsized.room_le, ?_⟩⟩
    intro reply ra' final hrun
    exact (hsized.call hrun).room_le
  rw [hfaultless]
  have hreturns : (call.Adding → 0 < ra.capacity.toNat) →
      ∀ final, call.run (.obj ra) heap ≠ .ok (none, final) :=
    fun hcapacity final => ArrayCall.run_ne_none hbounded hlength hcapacity
  cases call with
  | get pos =>
    have hpos : (pos.toNat : Int) < ra.length := hcall
    have hnumber := hbounded.asInt64_eq (Int.le_of_lt hpos)
    exact (ArrayCall.get_checked hbounded pos).faultless_iff (by omega) (hreturns False.elim)
  | set pos elem =>
    have hpos : (pos.toNat : Int) < ra.length := hcall
    have hnumber := hbounded.asInt64_eq (Int.le_of_lt hpos)
    exact (ArrayCall.set_checked hbounded pos elem).faultless_iff (by omega) (hreturns False.elim)
  | remove pos =>
    have hpos : (pos.toNat : Int) < ra.length := hcall
    have hnumber := hbounded.asInt64_eq (Int.le_of_lt hpos)
    rw [(ArrayCall.remove_checked hbounded pos).faultless_iff (by omega) (hreturns False.elim)]
    exact closesInside_iff hpos
  | pop =>
    by_cases hany : 0 < ra.length
    · exact (ArrayCall.pop_checked hbounded).faultless_iff hany (hreturns False.elim)
    · rw [ArrayCall.run_pop_refused hany]
      refine ⟨fun _ => ?_, fun _ fault hfault => ?_⟩
      · show ra.length ≤ ra.room
        omega
      · cases hfault
  | length => exact ⟨fun _ => trivial, fun _ fault hfault => by cases hfault⟩
  | push elem =>
    by_cases hzero : ra.capacity.toNat = 0
    · rw [ArrayCall.run_push, riakArrayPush, riakArrayResize_of_no_capacity hbounded hlength hzero]
      exact ⟨fun _ => Or.inl hzero, fun _ fault hfault => by cases hfault⟩
    · rw [(ArrayCall.push_checked hheap hbounded hlength elem).faultless_iff trivial
        (hreturns fun _ => Nat.pos_of_ne_zero hzero)]
      exact (or_iff_right hzero).symm
  | insert pos elem =>
    have hpos : (pos.toNat : Int) ≤ ra.length := hcall
    have hnumber := hbounded.asInt64_eq hpos
    by_cases hzero : ra.capacity.toNat = 0
    · rw [ArrayCall.run_insert, riakArrayInsert, if_neg (by omega),
        riakArrayResize_of_no_capacity hbounded hlength hzero]
      exact ⟨fun _ => Or.inl hzero, fun _ fault hfault => by cases hfault⟩
    · rw [(ArrayCall.insert_checked hheap hbounded pos elem).faultless_iff (by omega)
        (hreturns fun _ => Nat.pos_of_ne_zero hzero)]
      exact (or_iff_right hzero).symm

/-- Below `2 ^ 31` slots it is only the removal from a full array that goes outside. -/
theorem ArrayCall.slotsExist_iff_of_lt {ra : RiakArray α} (h : ra.ReachedBy ArrayCall.Proper)
    (hsmall : ra.capacity.toNat < 2 ^ 31) {call : ArrayCall α} (hcall : call.InBounds ra) :
    call.SlotsExist ra ↔ ∀ pos, call = .remove pos → ra.length ≠ ra.capacity.toNat := by
  have hroom := h.reachable.sized.room_eq (by omega)
  have hfilled := h.reachable.bounded.filled
  have hlength := h.length_nonneg_of_proper
  have hgrows : ra.capacity.toNat ≠ 0 → ra.GrowsInside := fun hpositive _ =>
    ⟨Nat.pos_of_ne_zero hpositive, by omega, by omega⟩
  have hafter : ra.capacity.toNat ≠ 0 → ra.length < ra.roomAfter := by
    intro hpositive
    unfold RiakArray.roomAfter
    by_cases hfull : ra.length = ra.capacity.toNat
    · rw [if_pos hfull]
      omega
    · rw [if_neg hfull]
      omega
  cases call with
  | get pos | set pos elem =>
    have hpos : (pos.toNat : Int) < ra.length := hcall
    refine ⟨fun _ _ hremove => ?_, fun _ => show pos.toNat < ra.room by omega⟩
    cases hremove
  | remove pos =>
    refine ⟨fun hexist _ _ => ?_, fun hspare => ?_⟩
    · have hbehind : ra.length < ra.room := hexist.1
      omega
    · have hnotfull := hspare pos rfl
      show ra.length < ra.room ∧ ra.length < 2 ^ 31
      omega
  | pop =>
    refine ⟨fun _ _ hremove => ?_, fun _ => show ra.length ≤ ra.room by omega⟩
    cases hremove
  | length =>
    refine ⟨fun _ _ hremove => ?_, fun _ => trivial⟩
    cases hremove
  | push elem =>
    refine ⟨fun _ _ hremove => ?_, fun _ => ?_⟩
    · cases hremove
    · by_cases hzero : ra.capacity.toNat = 0
      · exact Or.inl hzero
      · exact Or.inr ⟨hgrows hzero, hafter hzero⟩
  | insert pos elem =>
    have hpos : (pos.toNat : Int) ≤ ra.length := hcall
    refine ⟨fun _ _ hremove => ?_, fun _ => ?_⟩
    · cases hremove
    · by_cases hzero : ra.capacity.toNat = 0
      · exact Or.inl hzero
      · have hbehind := hafter hzero
        refine Or.inr ⟨hgrows hzero, by omega, fun _ _ => ?_⟩
        have hint : asInt ra.length = ra.length := by
          obtain ⟨n, hn⟩ := Int.eq_ofNat_of_zero_le hlength
          rw [hn]
          exact asInt_of_lt (by omega)
        rw [hint]
        exact ⟨hlength, fun _ => hbehind⟩

/-- A removal from an array with a slot to spare. -/
theorem riak_array_stays_inside_spare :
    ∃ ra : RiakArray Nat, ra.length = 1 ∧ (ArrayCall.remove 0).StaysInside ra Heap.fresh := by
  have hnew : (riakArrayNew 2 : C (RiakError × Option (RiakArray Nat))) Heap.fresh =
      .ok ((.ok, some ⟨0, 2, .obj [.null, .null]⟩), Heap.fresh) := rfl
  have hpush : (ArrayCall.push (.obj 7)).run (.obj (⟨0, 2, .obj [.null, .null]⟩ : RiakArray Nat))
      Heap.fresh = .ok (some (.code .ok, .obj ⟨1, 2, .obj [.obj 7, .null]⟩), Heap.fresh) := rfl
  have hempty : (⟨0, 2, .obj [.null, .null]⟩ : RiakArray Nat).ReachedBy ArrayCall.Proper :=
    .new hnew
  have hallowed : (ArrayCall.push (.obj 7)).Proper (⟨0, 2, .obj [.null, .null]⟩ : RiakArray Nat)
      Heap.fresh := ⟨trivial, Heap.fresh_ample⟩
  have hreached : (⟨1, 2, .obj [.obj 7, .null]⟩ : RiakArray Nat).ReachedBy ArrayCall.Proper :=
    hempty.call hallowed hpush
  have hproper : (ArrayCall.remove 0).Proper (⟨1, 2, .obj [.obj 7, .null]⟩ : RiakArray Nat)
      Heap.fresh :=
    ⟨show ((0 : UInt64).toNat : Int) < 1 by decide, Heap.fresh_ample⟩
  refine ⟨_, rfl, (riak_array_stays_inside_iff hreached hproper).mpr ⟨?_, by decide⟩⟩
  show (1 : Int) < (2 : Nat)
  decide

/-- The removal of the only element of a full array reads the slot behind its block. -/
theorem riak_array_remove_outside :
    ∃ ra : RiakArray Nat, ra.ReachedBy ArrayCall.Proper ∧ ra.length = ra.capacity.toNat ∧
      (ArrayCall.remove 0).Proper ra Heap.fresh ∧
      (ArrayCall.remove 0).run (.obj ra) Heap.fresh = .error .outOfBounds ∧
      ¬ (ArrayCall.remove 0).StaysInside ra Heap.fresh := by
  have hremove : (ArrayCall.remove 0).run (.obj (⟨1, 1, .obj [.obj 7]⟩ : RiakArray Nat))
      Heap.fresh = .error .outOfBounds := by
    have hcloses : closeSlot 1 0 [(.obj 7 : Ptr Nat)] = C.fault .outOfBounds :=
      @closeSlot_full Nat [] [] (.obj 7) 0 rfl (by decide)
    rw [ArrayCall.run_remove, riakArrayRemove, if_neg (by decide), Ptr.deref_obj, pure_bind,
      hcloses]
    rfl
  refine ⟨_, reachedBy_full ⟨trivial, Heap.fresh_ample⟩, rfl,
    ⟨show ((0 : UInt64).toNat : Int) < 1 by decide, Heap.fresh_ample⟩, hremove, ?_⟩
  intro hstays
  exact hstays.faultless _ hremove

/-! ### Growing -/

/-- The room for one more that an insertion or a push asks for is made: the doubling
    ends with a capacity that is large enough, the call comes back whatever the
    allocator says, and the capacity that a block got is the number of its slots. -/
structure RiakArray.GrowsRight (ra : RiakArray α) : Prop where
  ends : ∃ fuel newCap,
    doubleUntil (UInt64.ofInt (ra.length + 1)) fuel ra.capacity = some newCap ∧
      UInt64.ofInt (ra.length + 1) ≤ newCap ∧ ra.capacity ≤ newCap
  returns : ∀ heap, ∃ out final,
    riakArrayResize ra (UInt64.ofInt (ra.length + 1)) heap = .ok (some out, final)
  counted : ra.capacity < UInt64.ofInt (ra.length + 1) → ∀ heap ra₁ final,
    riakArrayResize ra (UInt64.ofInt (ra.length + 1)) heap = .ok (some (.ok, .obj ra₁), final) →
      ra₁.room = ra₁.capacity.toNat

/-- The doubling of a full array ends only where it has a capacity, and its block keeps the
    old slots only where the doubled capacity is a number of 32 bits. -/
theorem RiakArray.GrowsRight.capacity {ra : RiakArray α} (h : ra.GrowsRight)
    (hbounded : ra.Bounded) (hlength : 0 ≤ ra.length) (hshort : ra.length + 1 < 2 ^ 32)
    (hfull : ra.length = ra.capacity.toNat) :
    0 < ra.capacity.toNat ∧ ra.capacity.toNat < 2 ^ 31 := by
  obtain ⟨⟨fuel, newCap, hends, _, _⟩, hreturns, _⟩ := h
  have hsize := ofInt_succ_toNat hlength hbounded.short
  have hpositive : 0 < ra.capacity.toNat := by
    by_contra hzero
    have hdiverges : doubleUntil (UInt64.ofInt (ra.length + 1)) fuel ra.capacity = none := by
      rw [doubleUntil_eq_none_iff]
      intro k _
      rw [Nat.eq_zero_of_not_pos hzero, Nat.zero_mul, Nat.zero_mod]
      omega
    rw [hdiverges] at hends
    cases hends
  refine ⟨hpositive, ?_⟩
  by_contra hlarge
  -- the doubled capacity has lost its highest bit on its way to the allocator
  have hlost : ¬ ra.GrowsInside := by
    intro hgrows
    obtain ⟨_, _, hcopied⟩ := hgrows hfull
    omega
  obtain ⟨out, final, hresize⟩ := hreturns Heap.fresh
  exact riakArrayResize_outside Heap.fresh_ample hbounded hlost out final hresize

theorem RiakArray.growsRight_of_full {ra : RiakArray α} (hbounded : ra.Bounded)
    (hsized : ra.Sized) (hlength : 0 ≤ ra.length) (hfull : ra.length = ra.capacity.toNat)
    (hpositive : 0 < ra.capacity.toNat) (hsmall : ra.capacity.toNat < 2 ^ 31) :
    ra.GrowsRight := by
  obtain ⟨slots, hslots, _⟩ := hbounded.block
  have hsize := ofInt_succ_toNat hlength hbounded.short
  have hroom := hsized.room_eq (by omega)
  rw [RiakArray.room_of_block hslots] at hroom
  have hdouble : (ra.capacity * 2).toNat = 2 * ra.capacity.toNat := by
    rw [UInt64.toNat_mul, show (2 : UInt64).toNat = 2 from rfl, Nat.mod_eq_of_lt (by omega)]
    omega
  have hold : ra.capacity.toUInt32.toNat = ra.capacity.toNat := by
    rw [UInt64.toNat_toUInt32, Nat.mod_eq_of_lt (by omega)]
  have hnew : (ra.capacity * 2).toUInt32.toNat = 2 * ra.capacity.toNat := by
    rw [toUInt32_toNat_of_double, Nat.mod_eq_of_lt (by omega)]
  have hresize := riakArrayResize_of_full hbounded hfull hslots
  rw [if_pos hpositive] at hresize
  refine ⟨⟨2, ra.capacity * 2, ?_, ?_, ?_⟩, fun heap => ?_,
    fun hless heap ra₁ final hgrown => ?_⟩
  · rw [doubleUntil, if_pos (by rw [UInt64.lt_iff_toNat_lt]; omega), doubleUntil,
      if_neg (by rw [UInt64.lt_iff_toNat_lt]; omega)]
  · rw [UInt64.le_iff_toNat_le]
    omega
  · rw [UInt64.le_iff_toNat_le]
    omega
  · rw [hresize]
    cases hanswer : heap.answer 0 with
    | false =>
      rw [C.bind_of_ok (riakArrayRealloc_refused hanswer _ _ _)]
      exact ⟨_, _, rfl⟩
    | true =>
      rw [C.bind_of_ok (riakArrayRealloc_granted hanswer (by omega) (by omega))]
      exact ⟨_, _, rfl⟩
  · rcases riakArrayResize_eq_ok hgrown with
      ⟨hfits, _⟩ | ⟨hmemory, _⟩ | ⟨_, _, newCap, slots₁, hloop, hslots₁, hra⟩
    · exact absurd hless hfits
    · cases hmemory
    · cases hra
      rw [doubleUntil, if_pos hless, doubleUntil,
        if_neg (by rw [UInt64.lt_iff_toNat_lt]; omega)] at hloop
      cases hloop
      show slots₁.length = (ra.capacity * 2).toNat
      omega

theorem RiakArray.growsRight_of_room {ra : RiakArray α} (hbounded : ra.Bounded)
    (hlength : 0 ≤ ra.length) (hfull : ra.length ≠ ra.capacity.toNat) : ra.GrowsRight := by
  have hfilled := hbounded.filled
  have hsize := ofInt_succ_toNat hlength hbounded.short
  have hfits : ¬ ra.capacity < UInt64.ofInt (ra.length + 1) := by
    rw [UInt64.lt_iff_toNat_lt]
    omega
  refine ⟨⟨1, ra.capacity, ?_, ?_, ?_⟩, fun heap => ?_, fun hless => absurd hless hfits⟩
  · rw [doubleUntil, if_neg hfits]
  · exact UInt64.not_lt.mp hfits
  · rw [UInt64.le_iff_toNat_le]
  · rw [riakArrayResize_of_room hbounded hlength hfull]
    exact ⟨_, _, rfl⟩

/-- **When an array grows.** On every array that insertions and pushes make, whatever the
    allocator said, the next one grows it right if and only if it is not full, or has a
    capacity from 1 to `2 ^ 31 - 1` to double. -/
theorem riak_array_grows_right_iff {ra : RiakArray α}
    (h : ra.ReachedBy fun _ call _ => call.Adding) (hshort : ra.length + 1 < 2 ^ 32) :
    ra.GrowsRight ↔
      (ra.length = ra.capacity.toNat → 0 < ra.capacity.toNat ∧ ra.capacity.toNat < 2 ^ 31) := by
  have hbounded := h.reachable.bounded
  have hlength := h.length_nonneg_of_adding
  constructor
  · exact fun hgrows hfull => hgrows.capacity hbounded hlength hshort hfull
  · intro hright
    by_cases hfull : ra.length = ra.capacity.toNat
    · obtain ⟨hpositive, hsmall⟩ := hright hfull
      exact RiakArray.growsRight_of_full hbounded h.reachable.sized hlength hfull hpositive hsmall
    · exact RiakArray.growsRight_of_room hbounded hlength hfull

/-- A full array of one slot grows. -/
theorem riak_array_grows_right_full :
    (⟨1, 1, .obj [.obj 7]⟩ : RiakArray Nat).GrowsRight :=
  (riak_array_grows_right_iff (reachedBy_full trivial) (by decide)).mpr (by decide)

/-- An array of no slot is accepted, and the first push into it never comes back. -/
theorem riak_array_zero_capacity :
    ∃ ra : RiakArray Nat,
      riakArrayNew 0 Heap.fresh = .ok ((.ok, some ra), Heap.fresh) ∧
      ra.ReachedBy (fun _ call _ => call.Adding) ∧ ra.length + 1 < 2 ^ 32 ∧
      (∀ fuel, doubleUntil (UInt64.ofInt (ra.length + 1)) fuel ra.capacity = none) ∧
      (ArrayCall.push (.obj 7)).run (.obj ra) Heap.fresh = .ok (none, Heap.fresh) ∧
      ¬ ra.GrowsRight := by
  have hnew : (riakArrayNew 0 : C (RiakError × Option (RiakArray Nat))) Heap.fresh =
      .ok ((.ok, some ⟨0, 0, .obj []⟩), Heap.fresh) := rfl
  have hdiverges : ∀ fuel, doubleUntil 1 fuel 0 = none := by
    intro fuel
    rw [doubleUntil_eq_none_iff]
    intro k _
    rw [show (0 : UInt64).toNat = 0 from rfl, Nat.zero_mul]
    decide
  have hreached : (⟨0, 0, .obj []⟩ : RiakArray Nat).ReachedBy fun _ call _ => call.Adding :=
    .new hnew
  refine ⟨⟨0, 0, .obj []⟩, hnew, hreached, by decide, hdiverges, ?_, ?_⟩
  · rw [ArrayCall.run_push, riakArrayPush,
      riakArrayResize_of_no_capacity hreached.reachable.bounded (Int.le_refl 0) rfl]
    rfl
  · rintro ⟨⟨fuel, newCap, hends, _⟩, _, _⟩
    have hsome : doubleUntil 1 fuel 0 = some newCap := hends
    rw [hdiverges] at hsome
    cases hsome

/-! ### Without memory

`riak_array_resize` answers a refusal by freeing the array. Its own pointer becomes
NULL, and the one that the caller has is left as it was.

A refused push or insertion leaves its caller with a dangling pointer, and no call
gets anywhere with it. That holds of any array, so there is no invariant here. -/

/-- The call asks for a larger block and does not get it. -/
def ArrayCall.ReallocFails (call : ArrayCall α) (ra : RiakArray α) (heap : Heap) : Prop :=
  match call with
  | push _ => ra.capacity < UInt64.ofInt (ra.length + 1) ∧
      (doubleUntil (UInt64.ofInt (ra.length + 1)) 65 ra.capacity).isSome ∧ heap.answer 0 = false
  | insert pos _ => asInt64 pos.toNat ≤ ra.length ∧
      ra.capacity < UInt64.ofInt (ra.length + 1) ∧
      (doubleUntil (UInt64.ofInt (ra.length + 1)) 65 ra.capacity).isSome ∧ heap.answer 0 = false
  | remove _ | pop | get _ | set _ _ | length => False

/-- The call says that there is no memory, and leaves the array to its caller with the
    same length, capacity and elements: later calls find it as if this one had not
    been made. -/
def ArrayCall.LeavesUsable (call : ArrayCall α) (ra : RiakArray α) (heap : Heap) : Prop :=
  ∃ ra' final, call.run (.obj ra) heap = .ok (some (.code .outOfMemory, .obj ra'), final) ∧
    ra'.length = ra.length ∧ ra'.capacity = ra.capacity ∧ ra'.array = ra.array ∧
    ∀ later heap, riakArrayCalls later (.obj ra') heap = riakArrayCalls later (.obj ra) heap

theorem riakArrayResize_of_refused {ra : RiakArray α} {size : UInt64}
    (hless : ra.capacity < size) (hends : (doubleUntil size 65 ra.capacity).isSome)
    (hrefused : heap.answer 0 = false) :
    riakArrayResize ra size heap = .ok (some (.outOfMemory, .wild), heap.after 1) := by
  obtain ⟨newCap, hloop⟩ := Option.isSome_iff_exists.mp hends
  unfold riakArrayResize
  rw [if_pos hless, hloop]
  simp only
  rw [C.bind_of_ok (riakArrayRealloc_refused hrefused _ _ _)]
  rfl

theorem ArrayCall.run_of_reallocFails {call : ArrayCall α} {ra : RiakArray α}
    (h : call.ReallocFails ra heap) :
    call.run (.obj ra) heap = .ok (some (.code .outOfMemory, .wild), heap.after 1) := by
  cases call with
  | push elem =>
    obtain ⟨hless, hends, hrefused⟩ := h
    rw [run_push, riakArrayPush, bind_assoc,
      C.bind_of_ok (riakArrayResize_of_refused hless hends hrefused)]
    rfl
  | insert pos elem =>
    obtain ⟨hpass, hless, hends, hrefused⟩ := h
    rw [run_insert, riakArrayInsert, if_neg (Int.not_lt.mpr hpass), bind_assoc,
      C.bind_of_ok (riakArrayResize_of_refused hless hends hrefused)]
    rfl
  | remove pos | pop | get pos | set pos elem | length => exact False.elim h

theorem ArrayCall.run_wild (call : ArrayCall α) (heap : Heap) :
    call.run .wild heap = .error .wildDereference := by
  unfold ArrayCall.run
  exact C.bind_of_error rfl

/-- **An array that runs out of memory is gone.** Every push and every insertion whose
    reallocation fails says so, and leaves a pointer behind that no call can use, of any
    array whatsoever. -/
theorem riak_array_refused_not_usable {call : ArrayCall α} {ra : RiakArray α}
    (h : call.ReallocFails ra heap) :
    call.run (.obj ra) heap = .ok (some (.code .outOfMemory, .wild), heap.after 1) ∧
      (∀ (next : ArrayCall α) later heap,
        riakArrayCalls (next :: later) .wild heap = .error .wildDereference) ∧
      ¬ call.LeavesUsable ra heap := by
  have hrun := ArrayCall.run_of_reallocFails h
  refine ⟨hrun, fun next later heap => ?_, ?_⟩
  · rw [riakArrayCalls]
    exact C.bind_of_error (next.run_wild heap)
  · rintro ⟨ra', final, hleft, _⟩
    rw [hrun] at hleft
    cases hleft

/-- The second push into an array of one slot, refused. -/
theorem riak_array_refused_full :
    ¬ (ArrayCall.push (.obj 8)).LeavesUsable (⟨1, 1, .obj [.obj 7]⟩ : RiakArray Nat)
      ⟨[false], fun _ => 0⟩ := by
  have hfails : (ArrayCall.push (.obj 8)).ReallocFails (⟨1, 1, .obj [.obj 7]⟩ : RiakArray Nat)
      ⟨[false], fun _ => 0⟩ := ⟨by decide, by decide, rfl⟩
  exact (riak_array_refused_not_usable hfails).2.2

/-- `riak_array_new` with one slot, a push that fits and a push that is refused: reading
    the first element back follows a dangling pointer. -/
theorem riak_array_push_refused :
    ∃ ra : RiakArray Nat, ra.Reachable ∧
      (ArrayCall.push (.obj 8)).ReallocFails ra ⟨[false], fun _ => 0⟩ ∧
      (ArrayCall.get 0).run (.obj ra) Heap.fresh =
        .ok (some (.elem .ok (some (.obj 7)), .obj ra), Heap.fresh) ∧
      riakArrayCalls [.push (.obj 8), .get 0] (.obj ra) ⟨[false], fun _ => 0⟩ =
        .error .wildDereference ∧
      ¬ (ArrayCall.push (.obj 8)).LeavesUsable ra ⟨[false], fun _ => 0⟩ := by
  have hreached := @reachedBy_full (fun _ _ _ => True) trivial
  have hfails : (ArrayCall.push (.obj 8)).ReallocFails (⟨1, 1, .obj [.obj 7]⟩ : RiakArray Nat)
      ⟨[false], fun _ => 0⟩ := ⟨by decide, by decide, rfl⟩
  have hrun := ArrayCall.run_of_reallocFails hfails
  refine ⟨_, hreached.reachable, hfails, ?_, ?_, ?_⟩
  · rw [ArrayCall.run_get, riakArrayGet, if_neg (by decide)]
    rfl
  · rw [riakArrayCalls, C.bind_of_ok hrun]
    exact C.bind_of_error (C.bind_of_error (ArrayCall.run_wild _ _))
  · rintro ⟨ra', final, hleft, _⟩
    rw [hrun] at hleft
    cases hleft

end RiakClient
