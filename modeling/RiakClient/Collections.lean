import RiakClient.Setters
import RiakClient.ObjectContent

/-!
# Collections that grow

`riak_object_new_link`, `riak_object_new_usermeta`, `riak_object_new_index`
(`riak_object.c`) and `riak_search_options_add_fl` (`riak_search.c`): four copies
of the same code around `riak_array_realloc`. None of them looks at what that
returns, so an array that could not grow is written to as if it had.

An array backs its count if it has a slot for each entry; there may be free slots
behind them, which a call that failed has left. A call with room for one more entry is
all or nothing and keeps the arrays backed, and a call that returns had room.
-/

namespace RiakClient

open CSem

variable {α : Type} {heap final : Heap}

/-! ### The code -/

/-- `riak_array_realloc`, of an array whose slots are NULL or set. -/
def reallocSlots (from_ : List (Option α)) (oldnum newnum : UInt32) :
    C (Bool × List (Option α)) := do
  if ← C.allocate then
    if from_.length < oldnum.toNat then C.fault .outOfBounds
    else do
      let slots ← C.copyAt (List.replicate newnum.toNat none) 0 (from_.take oldnum.toNat)
      pure (true, slots)
  else pure (false, from_)

/-- One slot where there is no array, and `riak_array_realloc` where there is one. -/
def growSlots (array : Option (List (Option α))) (oldnum newnum : UInt32) :
    C (Option (List (Option α))) :=
  match array with
  | none => C.new [none]
  | some slots => do
      let (_, slots) ← reallocSlots slots oldnum newnum
      pure (some slots)

/-- `n + 1` of a `riak_int32_t`. -/
def intNext (n : Int) : C Int := if n + 1 < 2 ^ 31 then pure (n + 1) else C.fault .signedOverflow

/-- `array[n] = entry` with a signed index. -/
def writeEntry (slots : List (Option α)) (n : Int) (entry : Option α) : C (List (Option α)) :=
  if 0 ≤ n then C.writeAt slots n.toNat entry else C.fault .outOfBounds

/-- The sum that `riak_array_realloc` is called with; where there is no array,
    nothing is added up. -/
def newNumber (array : Option (List (Option α))) (n : Int) : C Int :=
  if array.isSome then intNext n else pure n

/-- The three functions that add to an object differ in the array and in what is
    added. The result is a pointer to that. -/
def objectNewEntry (entryNew : C (Option α)) (n : Int) (array : Option (List (Option α))) :
    C (Option α × Int × Option (List (Option α))) := do
  let newnum ← newNumber array n
  match ← growSlots array (UInt32.ofInt n) (UInt32.ofInt newnum) with
  | none => pure (none, n, none)
  | some slots => do
      let result ← entryNew
      let slots ← writeEntry slots n result
      if result.isSome then pure (result, ← intNext n, some slots)
      else pure (result, n, some slots)

def riakLinkNew : C (Option RiakLink) := C.new {}

def riakPairNew : C (Option RiakPair) := C.new {}

def riakObjectNewLink (obj : RiakObject) : C (Option RiakLink × RiakObject) := do
  let (result, nLinks, links) ← objectNewEntry riakLinkNew obj.nLinks obj.links
  pure (result, { obj with nLinks := nLinks, links := links })

def riakObjectNewUsermeta (obj : RiakObject) : C (Option RiakPair × RiakObject) := do
  let (result, nUsermeta, usermeta) ← objectNewEntry riakPairNew obj.nUsermeta obj.usermeta
  pure (result, { obj with nUsermeta := nUsermeta, usermeta := usermeta })

def riakObjectNewIndex (obj : RiakObject) : C (Option RiakPair × RiakObject) := do
  let (result, nIndexes, indexes) ← objectNewEntry riakPairNew obj.nIndexes obj.indexes
  pure (result, { obj with nIndexes := nIndexes, indexes := indexes })

/-! ### Growing

The slots are pointers of `riak_array_realloc`, and the field names of a search grow
like the others. -/

theorem riakArrayRealloc_ofOption (slots : List (Option α)) (oldnum newnum : UInt32) :
    riakArrayRealloc (.obj (slots.map Ptr.ofOption)) oldnum newnum =
      reallocSlots slots oldnum newnum >>= fun out =>
        pure (out.1, .obj (out.2.map Ptr.ofOption)) := by
  funext heap
  unfold riakArrayRealloc reallocSlots
  simp only [bind_assoc]
  rw [C.bind_of_ok (C.allocate_eq heap), C.bind_of_ok (C.allocate_eq heap)]
  cases heap.answer 0 with
  | false => rfl
  | true =>
    simp only [if_true, Ptr.deref_obj, pure_bind, List.length_map]
    by_cases hshort : slots.length < oldnum.toNat
    · rw [if_pos hshort, if_pos hshort]
      rfl
    · rw [if_neg hshort, if_neg hshort]
      unfold C.copyAt
      simp only [← List.map_take, List.length_map, List.length_replicate]
      split
      · simp [Ptr.ofOption]
      · split
        · simp [Ptr.ofOption]
        · rfl

theorem growFl_eq (opt : RiakSearchOptions) :
    growFl opt = growSlots opt.fl (UInt32.ofNat opt.nFl) (UInt32.ofNat (opt.nFl + 1)) := by
  unfold growFl growSlots
  cases opt.fl with
  | none => rfl
  | some fl =>
    unfold reallocSlots
    simp only [bind_assoc, UInt32.toNat_ofNat']
    congr 1
    funext granted
    cases granted with
    | false => rfl
    | true =>
      simp only [if_true]
      split
      · rfl
      · simp only [bind_assoc, pure_bind, map_eq_pure_bind]

/-- The array that one more slot leaves, if the request is granted. -/
def grownSlots (array : Option (List (Option α))) (n : Nat) (granted : Bool) :
    Option (List (Option α)) :=
  match array with
  | none => if granted then some [none] else none
  | some slots => some (if granted then slots.take n ++ [none] else slots)

theorem growSlots_eq {array : Option (List (Option α))} {n : Nat} {oldnum newnum : UInt32}
    (hold : oldnum.toNat = n) (hnew : newnum.toNat = n + 1)
    (hslots : ∀ slots, array = some slots → n ≤ slots.length) :
    growSlots array oldnum newnum heap = .ok (grownSlots array n (heap.answer 0), heap.after 1) := by
  cases array with
  | none => exact C.new_eq heap _
  | some slots =>
    have hinside := hslots slots rfl
    unfold growSlots reallocSlots grownSlots
    simp only [bind_assoc]
    rw [C.bind_of_ok (C.allocate_eq heap)]
    cases heap.answer 0 with
    | false => rfl
    | true =>
      have htaken : (slots.take n).length = n := by
        rw [List.length_take]
        omega
      have hcopied := C.copyAt_grown (slots.take n) none
      rw [htaken] at hcopied
      rw [hold, hnew]
      simp only [if_true]
      rw [if_neg (by omega), hcopied]
      rfl

/-! ### All or nothing -/

/-- One more entry, at the end. -/
structure AppendsEntry (n n' : Int) (array array' : Option (List (Option α)))
    (entry : Option α) : Prop where
  count : n' = n + 1
  kept : ∀ i < n.toNat, (array'.getD [])[i]? = (array.getD [])[i]?
  entry : (array'.getD [])[n.toNat]? = some entry

/-- The same entries. There may be a free slot behind them. -/
structure KeepsEntries (n n' : Int) (array array' : Option (List (Option α))) : Prop where
  count : n' = n
  kept : ∀ i < n.toNat, (array'.getD [])[i]? = (array.getD [])[i]?

/-- A call that succeeds adds an entry, and one that fails adds nothing. -/
def AllOrNothingCall (succeeded : Bool) (n n' : Int) (array array' : Option (List (Option α)))
    (entry : Option α) : Prop :=
  if succeeded then AppendsEntry n n' array array' entry else KeepsEntries n n' array array'

/-- The slots of an array are enough for its entries. -/
def Backed (n : Int) (array : Option (List (Option α))) : Prop :=
  (array = none → n = 0) ∧
    ∀ slots, array = some slots → n ≤ slots.length ∧ slots.length < 2 ^ 32

/-- The array is not there yet, or the request to grow is granted, or a call that
    failed has left a free slot. The sum has to be in range. -/
def GrowthReady (limit n : Int) (array : Option (List (Option α))) (heap : Heap) : Prop :=
  ∀ slots, array = some slots →
    0 ≤ n ∧ n + 1 < limit ∧ (heap.answer 0 = true ∨ n < slots.length)

/-- Slots behind `n` entries of an array. -/
structure RoomBehind (n : Nat) (array : Option (List (Option α))) (slots : List (Option α)) :
    Prop where
  room : n < slots.length
  bound : slots.length < 2 ^ 32
  kept : ∀ i < n, slots[i]? = (array.getD [])[i]?

theorem RoomBehind.keeps {n : Int} {array : Option (List (Option α))} {slots : List (Option α)}
    (h : RoomBehind n.toNat array slots) (entry : Option α) :
    KeepsEntries n n array (some (slots.set n.toNat entry)) := by
  refine ⟨rfl, fun i hi => ?_⟩
  show (slots.set n.toNat entry)[i]? = _
  rw [List.getElem?_set_ne (by omega)]
  exact h.kept i hi

theorem RoomBehind.appends {n : Int} {array : Option (List (Option α))} {slots : List (Option α)}
    (h : RoomBehind n.toNat array slots) (entry : Option α) :
    AppendsEntry n (n + 1) array (some (slots.set n.toNat entry)) entry := by
  refine ⟨rfl, (h.keeps entry).kept, ?_⟩
  show (slots.set n.toNat entry)[n.toNat]? = _
  exact List.getElem?_set_self h.room

theorem RoomBehind.backed {n n' : Int} {array : Option (List (Option α))}
    {slots : List (Option α)} (h : RoomBehind n.toNat array slots) (hn : n' ≤ n + 1)
    (hsign : 0 ≤ n) (entry : Option α) : Backed n' (some (slots.set n.toNat entry)) := by
  refine ⟨nofun, ?_⟩
  rintro _ ⟨⟩
  have hroom := h.room
  have hbound := h.bound
  rw [List.length_set]
  omega

theorem grownSlots_room {n limit : Int} {array : Option (List (Option α))}
    {slots : List (Option α)} (hbacked : Backed n array) (hready : GrowthReady limit n array heap)
    (hlimit : limit ≤ 2 ^ 32) (hslots : grownSlots array n.toNat (heap.answer 0) = some slots) :
    RoomBehind n.toNat array slots := by
  cases array with
  | none =>
    have hzero : n = 0 := hbacked.1 rfl
    cases hanswer : heap.answer 0 with
    | false =>
      rw [hanswer] at hslots
      cases hslots
    | true =>
      rw [hanswer] at hslots
      have hsame : slots = [none] := (Option.some.inj hslots).symm
      rw [hsame, hzero]
      exact ⟨Nat.one_pos, Nat.one_lt_two_pow (by decide), fun i hi => absurd hi (Nat.not_lt_zero i)⟩
  | some old =>
    obtain ⟨hinside, hbound⟩ := hbacked.2 old rfl
    obtain ⟨hsign, hrange, hroom⟩ := hready old rfl
    cases hanswer : heap.answer 0 with
    | false =>
      rw [hanswer] at hslots hroom
      have hsame : slots = old := (Option.some.inj hslots).symm
      have hfree : n < old.length := hroom.resolve_left Bool.false_ne_true
      rw [hsame]
      exact ⟨by omega, hbound, fun i _ => rfl⟩
    | true =>
      rw [hanswer] at hslots
      have hsame : slots = old.take n.toNat ++ [none] := (Option.some.inj hslots).symm
      have hlength : (old.take n.toNat).length = n.toNat := by
        rw [List.length_take]
        omega
      rw [hsame]
      refine ⟨?_, ?_, fun i hi => ?_⟩
      · rw [List.length_append, hlength, List.length_singleton]
        omega
      · rw [List.length_append, hlength, List.length_singleton]
        omega
      · rw [List.getElem?_append_left (by omega), List.getElem?_take_of_lt hi]
        rfl

/-- An array that is there stays there. Without memory it stays as it is, and with
    memory it can only grow. -/
theorem growSlots_eq_ok {slots : List (Option α)} {oldnum newnum : UInt32}
    {grown : Option (List (Option α))}
    (h : growSlots (some slots) oldnum newnum heap = .ok (grown, final)) :
    ∃ slots', grown = some slots' ∧ (heap.answer 0 = false → slots' = slots) ∧
      (heap.answer 0 = true → oldnum.toNat ≤ newnum.toNat) := by
  obtain ⟨⟨granted, slots'⟩, rest, hrealloc, hgrown⟩ := C.bind_eq_ok.mp h
  obtain ⟨rfl, _⟩ := C.pure_eq_ok.mp hgrown
  have hpointers : riakArrayRealloc (.obj (slots.map Ptr.ofOption)) oldnum newnum heap =
      .ok ((granted, .obj (slots'.map Ptr.ofOption)), rest) := by
    rw [riakArrayRealloc_ofOption, C.bind_of_ok hrealloc]
    rfl
  obtain ⟨_, hgranted, _, hgrew⟩ := riakArrayRealloc_eq_ok hpointers
  refine ⟨slots', rfl, ?_, ?_⟩
  · intro hanswer
    unfold reallocSlots at hrealloc
    rw [C.bind_of_ok (C.allocate_eq heap), hanswer] at hrealloc
    cases hrealloc
    rfl
  · intro hanswer
    obtain ⟨_, _, _, hle, _⟩ := hgrew (hgranted.trans hanswer)
    exact hle

theorem writeEntry_eq_ok {slots slots' : List (Option α)} {n : Int} {entry : Option α}
    (h : writeEntry slots n entry heap = .ok (slots', final)) : 0 ≤ n ∧ n < slots.length := by
  unfold writeEntry at h
  by_cases hsign : 0 ≤ n
  · rw [if_pos hsign] at h
    obtain ⟨hroom, _⟩ := C.writeAt_eq_ok.mp h
    omega
  · rw [if_neg hsign] at h
    cases h

/-! ### The collections of an object -/

theorem newNumber_of_ready {n : Int} {array : Option (List (Option α))}
    (hready : GrowthReady (2 ^ 31) n array heap) :
    newNumber array n = pure (if array.isSome then n + 1 else n) := by
  cases array with
  | none => rfl
  | some slots => exact if_pos (hready slots rfl).2.1

theorem growSlots_of_ready {n : Int} {array : Option (List (Option α))} (hbacked : Backed n array)
    (hready : GrowthReady (2 ^ 31) n array heap) :
    growSlots array (UInt32.ofInt n) (UInt32.ofInt (if array.isSome then n + 1 else n)) heap =
      .ok (grownSlots array n.toNat (heap.answer 0), heap.after 1) := by
  cases array with
  | none => exact C.new_eq heap _
  | some slots =>
    obtain ⟨hsign, hrange, _⟩ := hready slots rfl
    apply growSlots_eq
    · exact C.ofInt_toNat hsign (by omega)
    · rw [Option.isSome_some, if_pos rfl, C.ofInt_toNat (by omega) (by omega)]
      omega
    · rintro _ ⟨⟩
      have hinside := (hbacked.2 slots rfl).1
      omega

/-- A call with room for one more entry is all or nothing, and leaves an array that
    backs its count. -/
theorem objectNewEntry_of_ready {n : Int} {array : Option (List (Option α))}
    (hbacked : Backed n array) (hready : GrowthReady (2 ^ 31) n array heap) (a : α) :
    ∃ out n' array' rest, objectNewEntry (C.new a) n array heap = .ok ((out, n', array'), rest) ∧
      AllOrNothingCall out.isSome n n' array array' (some a) ∧ Backed n' array' := by
  unfold objectNewEntry
  rw [newNumber_of_ready hready, pure_bind, C.bind_of_ok (growSlots_of_ready hbacked hready)]
  cases hgrown : grownSlots array n.toNat (heap.answer 0) with
  | none =>
    cases array with
    | some slots => cases hgrown
    | none =>
      refine ⟨none, n, none, _, rfl, ⟨rfl, fun i _ => rfl⟩, hbacked⟩
  | some slots =>
    have hroom := grownSlots_room hbacked hready (by omega) hgrown
    have hrange : 0 ≤ n ∧ n + 1 < 2 ^ 31 := by
      cases array with
      | none =>
        rw [hbacked.1 rfl]
        decide
      | some old => exact ⟨(hready old rfl).1, (hready old rfl).2.1⟩
    have hwrite : ∀ entry : Option α,
        writeEntry slots n entry = pure (slots.set n.toNat entry) := by
      intro entry
      unfold writeEntry
      rw [if_pos hrange.1, C.writeAt_of_lt hroom.room]
    simp only
    rw [C.bind_of_ok (C.new_eq _ a)]
    cases (heap.after 1).answer 0 with
    | false =>
      rw [if_neg Bool.false_ne_true, hwrite, pure_bind, Option.isSome_none,
        if_neg Bool.false_ne_true]
      exact ⟨none, n, _, _, rfl, hroom.keeps none, hroom.backed (by omega) hrange.1 none⟩
    | true =>
      rw [if_pos rfl, hwrite, pure_bind, Option.isSome_some, if_pos rfl,
        show intNext n = pure (n + 1) from if_pos hrange.2, pure_bind]
      exact ⟨some a, n + 1, _, _, rfl, hroom.appends (some a),
        hroom.backed (Int.le_refl _) hrange.1 (some a)⟩

theorem objectNewEntry_eq_ok {n n' : Int} {array array' : Option (List (Option α))}
    {entryNew : C (Option α)} {out : Option α}
    (h : objectNewEntry entryNew n array heap = .ok ((out, n', array'), final)) :
    GrowthReady (2 ^ 31) n array heap := by
  rintro slots rfl
  obtain ⟨newnum, heap₁, hnumber, hrest⟩ := C.bind_eq_ok.mp h
  have hrange : n + 1 < 2 ^ 31 ∧ heap₁ = heap := by
    unfold newNumber intNext at hnumber
    rw [Option.isSome_some, if_pos rfl] at hnumber
    by_cases hsum : n + 1 < 2 ^ 31
    · rw [if_pos hsum] at hnumber
      exact ⟨hsum, (C.pure_eq_ok.mp hnumber).2.symm⟩
    · rw [if_neg hsum] at hnumber
      cases hnumber
  obtain ⟨hsum, rfl⟩ := hrange
  obtain ⟨grown, heap₂, hgrow, hadd⟩ := C.bind_eq_ok.mp hrest
  obtain ⟨slots', rfl, hsame, _⟩ := growSlots_eq_ok hgrow
  obtain ⟨result, heap₃, _, hwritten⟩ := C.bind_eq_ok.mp hadd
  obtain ⟨slots'', heap₄, hwrite, _⟩ := C.bind_eq_ok.mp hwritten
  obtain ⟨hsign, hroom⟩ := writeEntry_eq_ok hwrite
  refine ⟨hsign, hsum, ?_⟩
  cases hanswer : heap₁.answer 0 with
  | true => exact Or.inl rfl
  | false =>
    rw [hsame hanswer] at hroom
    exact Or.inr hroom

/-! ### The field names of a search -/

theorem riakSearchOptionsAddFl_of_ready {opt : RiakSearchOptions} (hbacked : Backed opt.nFl opt.fl)
    (hready : GrowthReady (2 ^ 32) opt.nFl opt.fl heap) (value : Option RiakBinary) :
    ∃ err opt' rest, riakSearchOptionsAddFl opt value heap = .ok ((err, opt'), rest) ∧
      AllOrNothingCall (err = .ok) opt.nFl opt'.nFl opt.fl opt'.fl (copiedBinary value) ∧
      opt' = { opt with nFl := opt'.nFl, fl := opt'.fl } ∧ Backed opt'.nFl opt'.fl := by
  have hgrow : growFl opt heap =
      .ok (grownSlots opt.fl (opt.nFl : Int).toNat (heap.answer 0), heap.after 1) := by
    rw [growFl_eq]
    cases hfl : opt.fl with
    | none => exact C.new_eq heap _
    | some fl =>
      obtain ⟨_, hrange, _⟩ := hready fl hfl
      apply growSlots_eq
      · rw [UInt32.toNat_ofNat_of_lt' (by show opt.nFl < 2 ^ 32; omega), Int.toNat_natCast]
      · rw [UInt32.toNat_ofNat_of_lt' (by show opt.nFl + 1 < 2 ^ 32; omega), Int.toNat_natCast]
      · rintro _ ⟨⟩
        have hinside := (hbacked.2 fl hfl).1
        omega
  unfold riakSearchOptionsAddFl
  rw [C.bind_of_ok hgrow]
  cases hgrown : grownSlots opt.fl (opt.nFl : Int).toNat (heap.answer 0) with
  | none =>
    cases hfl : opt.fl with
    | some fl =>
      rw [hfl] at hgrown
      cases hgrown
    | none =>
      rw [hfl] at hbacked
      exact ⟨.outOfMemory, _, _, rfl, ⟨rfl, fun i _ => rfl⟩, rfl, hbacked⟩
  | some slots =>
    have hroom := grownSlots_room hbacked hready (Int.le_refl _) hgrown
    have hinside := hroom.room
    rw [Int.toNat_natCast] at hinside
    obtain ⟨copy, rest, hcopy, hcopied⟩ := riakBinaryCopy_total value (heap.after 1)
    simp only
    rw [C.bind_of_ok hcopy, C.writeAt_of_lt hinside, pure_bind]
    rcases hcopied with rfl | rfl
    · cases hvalue : copiedBinary value with
      | none =>
        exact ⟨.outOfMemory, _, _, rfl, hroom.keeps none, rfl,
          hroom.backed (Int.le_of_lt (Int.lt_succ _)) (Int.natCast_nonneg _) none⟩
      | some bin =>
        exact ⟨.ok, _, _, rfl, hroom.appends (some bin), rfl,
          hroom.backed (Int.le_refl _) (Int.natCast_nonneg _) (some bin)⟩
    · exact ⟨.outOfMemory, _, _, rfl, hroom.keeps none, rfl,
        hroom.backed (Int.le_of_lt (Int.lt_succ _)) (Int.natCast_nonneg _) none⟩

theorem riakSearchOptionsAddFl_eq_ok {opt : RiakSearchOptions} (hbacked : Backed opt.nFl opt.fl)
    {value : Option RiakBinary} {out : RiakError × RiakSearchOptions}
    (h : riakSearchOptionsAddFl opt value heap = .ok (out, final)) :
    GrowthReady (2 ^ 32) opt.nFl opt.fl heap := by
  intro fl hfl
  obtain ⟨hinside, hbound⟩ := hbacked.2 fl hfl
  unfold riakSearchOptionsAddFl at h
  rw [growFl_eq, hfl] at h
  obtain ⟨grown, heap₁, hgrow, hadd⟩ := C.bind_eq_ok.mp h
  obtain ⟨slots, rfl, hsame, hgrew⟩ := growSlots_eq_ok hgrow
  obtain ⟨copy, heap₂, _, hwritten⟩ := C.bind_eq_ok.mp hadd
  obtain ⟨slots', heap₃, hwrite, _⟩ := C.bind_eq_ok.mp hwritten
  have hroom : opt.nFl < slots.length := (C.writeAt_eq_ok.mp hwrite).1
  cases hanswer : heap.answer 0 with
  | false =>
    rw [hsame hanswer] at hroom
    exact ⟨Int.natCast_nonneg _, by omega, Or.inr (by omega)⟩
  | true =>
    have hle := hgrew hanswer
    rw [UInt32.toNat_ofNat', UInt32.toNat_ofNat'] at hle
    exact ⟨Int.natCast_nonneg _, by omega, Or.inl rfl⟩

/-! ### Histories -/

/-- A call that adds to a collection of an object. -/
inductive CollectionCall where
  | newLink
  | newUsermeta
  | newIndex
deriving DecidableEq, Repr

namespace CollectionCall

/-- Whether a call returned a pointer, and the object behind it. -/
def call (obj : RiakObject) : CollectionCall → C (Bool × RiakObject)
  | newLink => do
      let (result, obj) ← riakObjectNewLink obj
      pure (result.isSome, obj)
  | newUsermeta => do
      let (result, obj) ← riakObjectNewUsermeta obj
      pure (result.isSome, obj)
  | newIndex => do
      let (result, obj) ← riakObjectNewIndex obj
      pure (result.isSome, obj)

/-- What a call may do: one more entry or none, in its own collection. -/
def Law (obj obj' : RiakObject) (succeeded : Bool) : CollectionCall → Prop
  | newLink => AllOrNothingCall succeeded obj.nLinks obj'.nLinks obj.links obj'.links (some {}) ∧
      obj' = { obj with nLinks := obj'.nLinks, links := obj'.links }
  | newUsermeta =>
      AllOrNothingCall succeeded obj.nUsermeta obj'.nUsermeta obj.usermeta obj'.usermeta
        (some {}) ∧
      obj' = { obj with nUsermeta := obj'.nUsermeta, usermeta := obj'.usermeta }
  | newIndex =>
      AllOrNothingCall succeeded obj.nIndexes obj'.nIndexes obj.indexes obj'.indexes (some {}) ∧
      obj' = { obj with nIndexes := obj'.nIndexes, indexes := obj'.indexes }

/-- Whether the collection of a call has room for one more entry, or gets it. -/
def Ready (obj : RiakObject) (heap : Heap) : CollectionCall → Prop
  | newLink => GrowthReady (2 ^ 31) obj.nLinks obj.links heap
  | newUsermeta => GrowthReady (2 ^ 31) obj.nUsermeta obj.usermeta heap
  | newIndex => GrowthReady (2 ^ 31) obj.nIndexes obj.indexes heap

end CollectionCall

/-- The three collections have slots for their entries. -/
structure RiakObject.AllBacked (obj : RiakObject) : Prop where
  links : Backed obj.nLinks obj.links
  usermeta : Backed obj.nUsermeta obj.usermeta
  indexes : Backed obj.nIndexes obj.indexes

theorem CollectionCall.call_eq_ok {obj obj' : RiakObject} {call : CollectionCall}
    {succeeded : Bool} (h : call.call obj heap = .ok ((succeeded, obj'), final)) :
    call.Ready obj heap := by
  cases call with
  | newLink =>
    obtain ⟨out, heap₁, hcall, _⟩ := C.bind_eq_ok.mp h
    obtain ⟨⟨result, n, array⟩, heap₂, hentry, _⟩ := C.bind_eq_ok.mp hcall
    exact objectNewEntry_eq_ok hentry
  | newUsermeta =>
    obtain ⟨out, heap₁, hcall, _⟩ := C.bind_eq_ok.mp h
    obtain ⟨⟨result, n, array⟩, heap₂, hentry, _⟩ := C.bind_eq_ok.mp hcall
    exact objectNewEntry_eq_ok hentry
  | newIndex =>
    obtain ⟨out, heap₁, hcall, _⟩ := C.bind_eq_ok.mp h
    obtain ⟨⟨result, n, array⟩, heap₂, hentry, _⟩ := C.bind_eq_ok.mp hcall
    exact objectNewEntry_eq_ok hentry

theorem CollectionCall.call_of_ready {obj : RiakObject} (hobj : obj.AllBacked)
    {call : CollectionCall} (hready : call.Ready obj heap) :
    ∃ succeeded obj' rest, call.call obj heap = .ok ((succeeded, obj'), rest) ∧
      call.Law obj obj' succeeded ∧ obj'.AllBacked := by
  cases call with
  | newLink =>
    obtain ⟨out, n, array, rest, hentry, hlaw, hbacked⟩ :=
      objectNewEntry_of_ready hobj.links hready ({} : RiakLink)
    refine ⟨out.isSome, { obj with nLinks := n, links := array }, rest, ?_, ⟨hlaw, rfl⟩,
      hbacked, hobj.usermeta, hobj.indexes⟩
    unfold CollectionCall.call riakObjectNewLink riakLinkNew
    simp only [bind_assoc, pure_bind]
    rw [C.bind_of_ok hentry]
    rfl
  | newUsermeta =>
    obtain ⟨out, n, array, rest, hentry, hlaw, hbacked⟩ :=
      objectNewEntry_of_ready hobj.usermeta hready ({} : RiakPair)
    refine ⟨out.isSome, { obj with nUsermeta := n, usermeta := array }, rest, ?_, ⟨hlaw, rfl⟩,
      hobj.links, hbacked, hobj.indexes⟩
    unfold CollectionCall.call riakObjectNewUsermeta riakPairNew
    simp only [bind_assoc, pure_bind]
    rw [C.bind_of_ok hentry]
    rfl
  | newIndex =>
    obtain ⟨out, n, array, rest, hentry, hlaw, hbacked⟩ :=
      objectNewEntry_of_ready hobj.indexes hready ({} : RiakPair)
    refine ⟨out.isSome, { obj with nIndexes := n, indexes := array }, rest, ?_, ⟨hlaw, rfl⟩,
      hobj.links, hobj.usermeta, hbacked⟩
    unfold CollectionCall.call riakObjectNewIndex riakPairNew
    simp only [bind_assoc, pure_bind]
    rw [C.bind_of_ok hentry]
    rfl

/-- Each call returns, and does what it may. -/
def ObjectGrows (obj : RiakObject) (heap : Heap) (calls : List CollectionCall) : Prop :=
  C.AlongCalls CollectionCall.call (fun obj call heap => ∃ succeeded obj' rest,
    call.call obj heap = .ok ((succeeded, obj'), rest) ∧ call.Law obj obj' succeeded) obj heap calls

/-- Each call finds room, or gets it. -/
def ObjectGrowthReady (obj : RiakObject) (heap : Heap) (calls : List CollectionCall) : Prop :=
  C.AlongCalls CollectionCall.call (fun obj call heap => call.Ready obj heap) obj heap calls

theorem objectGrows_iff {obj : RiakObject} (hobj : obj.AllBacked) (heap : Heap)
    (calls : List CollectionCall) :
    ObjectGrows obj heap calls ↔ ObjectGrowthReady obj heap calls := by
  refine C.alongCalls_congr RiakObject.AllBacked ?_ ?_ calls obj heap hobj
  · intro obj call heap succeeded obj' rest hobj hcall
    obtain ⟨_, _, _, hcall', _, hbacked⟩ :=
      CollectionCall.call_of_ready hobj (CollectionCall.call_eq_ok hcall)
    rw [hcall] at hcall'
    cases hcall'
    exact hbacked
  · intro obj call heap hobj
    constructor
    · rintro ⟨succeeded, obj', rest, hcall, _⟩
      exact CollectionCall.call_eq_ok hcall
    · intro hready
      obtain ⟨succeeded, obj', rest, hcall, hlaw, _⟩ := CollectionCall.call_of_ready hobj hready
      exact ⟨succeeded, obj', rest, hcall, hlaw⟩

/-- Each name is added or not, and nothing else happens. -/
def SearchOptionsGrow (opt : RiakSearchOptions) (heap : Heap)
    (values : List (Option RiakBinary)) : Prop :=
  C.AlongCalls riakSearchOptionsAddFl (fun opt value heap => ∃ err opt' rest,
    riakSearchOptionsAddFl opt value heap = .ok ((err, opt'), rest) ∧
      AllOrNothingCall (err = .ok) opt.nFl opt'.nFl opt.fl opt'.fl (copiedBinary value) ∧
      opt' = { opt with nFl := opt'.nFl, fl := opt'.fl }) opt heap values

def SearchOptionsGrowthReady (opt : RiakSearchOptions) (heap : Heap)
    (values : List (Option RiakBinary)) : Prop :=
  C.AlongCalls riakSearchOptionsAddFl (fun opt _ heap => GrowthReady (2 ^ 32) opt.nFl opt.fl heap)
    opt heap values

theorem searchOptionsGrow_iff {opt : RiakSearchOptions} (hopt : Backed opt.nFl opt.fl)
    (heap : Heap) (values : List (Option RiakBinary)) :
    SearchOptionsGrow opt heap values ↔ SearchOptionsGrowthReady opt heap values := by
  refine C.alongCalls_congr (fun opt => Backed opt.nFl opt.fl) ?_ ?_ values opt heap hopt
  · intro opt value heap err opt' rest hopt hcall
    obtain ⟨_, _, _, hcall', _, _, hbacked⟩ :=
      riakSearchOptionsAddFl_of_ready hopt (riakSearchOptionsAddFl_eq_ok hopt hcall) value
    rw [hcall] at hcall'
    cases hcall'
    exact hbacked
  · intro opt value heap hopt
    constructor
    · rintro ⟨err, opt', rest, hcall, _⟩
      exact riakSearchOptionsAddFl_eq_ok hopt hcall
    · intro hready
      obtain ⟨err, opt', rest, hcall, hlaw, hframe, _⟩ :=
        riakSearchOptionsAddFl_of_ready hopt hready value
      exact ⟨err, opt', rest, hcall, hlaw, hframe⟩

/-! ### Where objects come from

A history starts with a new object or with one that a decoder has made, and in both
the collections have slots for their entries. -/

theorem decodeRepeated_backed {count : Nat} {err : RiakError}
    {copy : Int → C (Option (List α))} {n : Int} {array : Option (List (Option α))}
    (hcopy : ∀ (m : Int) (entries : List α) (heap final : Heap),
      copy m heap = .ok (some entries, final) → entries.length = m.toNat)
    (h : decodeRepeated count err copy heap = .ok ((.ok, n, array), final)) :
    err = .ok ∧ Backed n array := by
  unfold decodeRepeated at h
  by_cases hsome : 0 < count ∧ err = .ok
  · rw [if_pos hsome] at h
    obtain ⟨copied, heap₁, hcopied, hrest⟩ := C.bind_eq_ok.mp h
    cases copied with
    | none => cases hrest
    | some entries =>
      have hlength := hcopy _ _ _ _ hcopied
      obtain ⟨hout, _⟩ := C.pure_eq_ok.mp hrest
      simp only [Prod.mk.injEq, true_and] at hout
      obtain ⟨rfl, rfl⟩ := hout
      refine ⟨hsome.2, nofun, ?_⟩
      rintro _ ⟨⟩
      rw [List.length_map, hlength]
      have hint : Int.bmod count (2 ^ 32) < 2 ^ 31 := Int.bmod_lt (by decide)
      omega
  · rw [if_neg hsome] at h
    cases h
    exact ⟨rfl, fun _ => rfl, nofun⟩

theorem copyArray_length {copy : Nat → C (Option α)} {m : Nat} {entries : List α}
    (h : copyArray m copy heap = .ok (some entries, final)) : entries.length = m := by
  obtain ⟨granted, heap₁, _, hloop⟩ := C.bind_eq_ok.mp h
  cases granted with
  | false => cases hloop
  | true => exact (copyLoop_rounds m 0 hloop).1

theorem riakLinksCopyFromPb_length {pblink : Option (List RpbLink)} {m : Int}
    {entries : List RiakLink}
    (h : riakLinksCopyFromPb pblink m heap = .ok (some entries, final)) :
    entries.length = m.toNat := by
  obtain ⟨link, heap₁, _, hlinks⟩ := C.bind_eq_ok.mp h
  cases pblink with
  | none => cases hlinks
  | some items => exact (copyLoop_rounds m.toNat 0 hlinks).1

theorem riakObjectNewFromPb_backed {c : RpbContent} {obj : RiakObject}
    (h : riakObjectNewFromPb c heap = .ok ((.ok, some obj), final)) : obj.AllBacked := by
  obtain ⟨granted, heap₁, _, h⟩ := C.bind_eq_ok.mp h
  cases granted with
  | false => cases h
  | true =>
  obtain ⟨value, heap₂, _, h⟩ := C.bind_eq_ok.mp h
  cases value with
  | none => cases h
  | some value =>
  obtain ⟨charset, heap₃, _, h⟩ := C.bind_eq_ok.mp h
  cases charset with
  | none => cases h
  | some charset =>
  obtain ⟨encoding, heap₄, _, h⟩ := C.bind_eq_ok.mp h
  cases encoding with
  | none => cases h
  | some encoding =>
  obtain ⟨contentType, heap₅, _, h⟩ := C.bind_eq_ok.mp h
  cases contentType with
  | none => cases h
  | some contentType =>
  obtain ⟨vtag, heap₆, _, h⟩ := C.bind_eq_ok.mp h
  cases vtag with
  | none => cases h
  | some vtag =>
  obtain ⟨⟨err₁, nIndexes, indexes⟩, heap₇, hindexes, h⟩ := C.bind_eq_ok.mp h
  obtain ⟨⟨err₂, nUsermeta, usermeta⟩, heap₈, husermeta, h⟩ := C.bind_eq_ok.mp h
  obtain ⟨⟨err₃, nLinks, links⟩, heap₉, hlinks, h⟩ := C.bind_eq_ok.mp h
  cases h
  obtain ⟨rfl, hlinksBacked⟩ := decodeRepeated_backed
    (fun _ _ _ _ hcopied => riakLinksCopyFromPb_length hcopied) hlinks
  obtain ⟨rfl, husermetaBacked⟩ := decodeRepeated_backed
    (fun _ _ _ _ hcopied => copyArray_length hcopied) husermeta
  obtain ⟨_, hindexesBacked⟩ := decodeRepeated_backed
    (fun _ _ _ _ hcopied => copyArray_length hcopied) hindexes
  exact ⟨hlinksBacked, husermetaBacked, hindexesBacked⟩

/-- An object as `riak_object_new` or the decoder of a response leaves it. -/
inductive RiakObject.Started : RiakObject → Prop
  | new : Started {}
  | decoded {c : RpbContent} {heap final : Heap} {obj : RiakObject}
      (h : riakObjectNewFromPb c heap = .ok ((.ok, some obj), final)) : Started obj

/-- The three collections of an object. -/
def RiakObject.collections (obj : RiakObject) :
    (Int × Option (List (Option RiakLink))) × (Int × Option (List (Option RiakPair))) ×
      (Int × Option (List (Option RiakPair))) :=
  ((obj.nLinks, obj.links), (obj.nUsermeta, obj.usermeta), (obj.nIndexes, obj.indexes))

theorem backed_empty : Backed 0 (none : Option (List (Option α))) := ⟨fun _ => rfl, nofun⟩

theorem RiakObject.Started.allBacked {start obj : RiakObject} (h : start.Started)
    (hsame : obj.collections = start.collections) : obj.AllBacked := by
  have hstart : start.AllBacked := by
    cases h with
    | new => exact ⟨backed_empty, backed_empty, backed_empty⟩
    | decoded hdecoded => exact riakObjectNewFromPb_backed hdecoded
  simp only [RiakObject.collections, Prod.mk.injEq] at hsame
  obtain ⟨⟨hnLinks, hlinks⟩, ⟨hnUsermeta, husermeta⟩, hnIndexes, hindexes⟩ := hsame
  constructor
  · rw [hnLinks, hlinks]
    exact hstart.links
  · rw [hnUsermeta, husermeta]
    exact hstart.usermeta
  · rw [hnIndexes, hindexes]
    exact hstart.indexes

/-- **Growing is all or nothing** along a history if and only if each call finds an
    array with room for one more entry, or gets it. -/
theorem riak_collections_all_or_nothing_iff {start obj : RiakObject} {opt : RiakSearchOptions}
    (hstart : start.Started) (hsame : obj.collections = start.collections)
    (hcount : opt.nFl = 0) (hnone : opt.fl = none) (heap : Heap) (calls : List CollectionCall)
    (values : List (Option RiakBinary)) :
    (ObjectGrows obj heap calls ↔ ObjectGrowthReady obj heap calls) ∧
      (SearchOptionsGrow opt heap values ↔ SearchOptionsGrowthReady opt heap values) := by
  have hbacked : Backed opt.nFl opt.fl := by
    rw [hcount, hnone]
    exact backed_empty
  exact ⟨objectGrows_iff (hstart.allBacked hsame) heap calls,
    searchOptionsGrow_iff hbacked heap values⟩

/-- The second link is refused and leaves a free slot; the array cannot grow for the
    third one, which takes that slot. -/
theorem riak_collections_all_or_nothing_free_slot :
    ObjectGrows {} ⟨[true, true, true, false, false, true], fun _ => 0⟩
      [.newLink, .newLink, .newLink] ∧
    SearchOptionsGrow {} Heap.fresh [some ⟨[0x61], true⟩, none, some ⟨[0x62], true⟩] := by
  constructor
  · refine (@riak_collections_all_or_nothing_iff {} {} {} .new rfl rfl rfl
      ⟨[true, true, true, false, false, true], fun _ => 0⟩ _ []).1.mpr ⟨nofun, ?_⟩
    rintro _ _ _ ⟨⟩
    refine ⟨?_, ?_⟩
    · rintro _ ⟨⟩
      exact ⟨by decide, by decide, Or.inl rfl⟩
    rintro _ _ _ ⟨⟩
    refine ⟨?_, fun _ _ _ _ => trivial⟩
    rintro _ ⟨⟩
    exact ⟨by decide, by decide, Or.inr (by decide)⟩
  · refine (@riak_collections_all_or_nothing_iff {} {} {} .new rfl rfl rfl Heap.fresh [] _).2.mpr
      ⟨nofun, ?_⟩
    rintro _ _ _ ⟨⟩
    refine ⟨?_, ?_⟩
    · rintro _ ⟨⟩
      exact ⟨by decide, by decide, Or.inl rfl⟩
    rintro _ _ _ ⟨⟩
    refine ⟨?_, fun _ _ _ _ => trivial⟩
    rintro _ ⟨⟩
    exact ⟨by decide, by decide, Or.inl rfl⟩

/-- The array cannot grow for the second link, or the second name, and that is
    written behind it. -/
theorem riak_collections_written_behind :
    (∃ obj rest, CollectionCall.newLink.call {} ⟨[true, true, false], fun _ => 0⟩ =
        .ok ((true, obj), rest) ∧
      CollectionCall.newLink.call obj rest = .error .outOfBounds) ∧
    ¬ ObjectGrows {} ⟨[true, true, false], fun _ => 0⟩ [.newLink, .newLink] ∧
    (∃ opt rest, riakSearchOptionsAddFl {} (some ⟨[0x61], true⟩)
        ⟨[true, true, true, false], fun _ => 0⟩ = .ok ((.ok, opt), rest) ∧
      riakSearchOptionsAddFl opt (some ⟨[0x62], true⟩) rest = .error .outOfBounds) := by
  refine ⟨⟨_, _, rfl, rfl⟩, ?_, ⟨_, _, rfl, rfl⟩⟩
  rintro ⟨_, hlater⟩
  obtain ⟨⟨_, _, _, hcall, _⟩, _⟩ := hlater _ _ _ rfl
  cases hcall

end RiakClient
