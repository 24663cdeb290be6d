import Mathlib.Tactic.Abel
import RiakClient.Bookkeeping
import RiakClient.FetchStore
import RiakClient.ResponseFree

/-!
# Where an object is stored

The objects of the client with the addresses of their blocks, the functions that
make them from a message, and those that free them. A binary made from a message
has no bytes of its own, and whoever frees it leaves those of the message alone.
Without the addresses every function here is the one of the same name.

Each struct is the one of the same name with the address of its block and, of its
members, those that lead to blocks; `plain` takes the addresses away, and `blocks`
says what a value answers for. Every function has a lemma `_tracks`, which says both
what it does to its blocks and that it is the function without addresses.
-/

namespace RiakClient.Stored

open CSem Booked

/-! ### Structs -/

section Structs

variable {α β : Type}

/-- `riak_config_clean_allocate` of a struct. -/
def structNew (make : Addr → α) : Booked (Option α) := do
  match ← malloc with
  | none => pure none
  | some addr => pure (some (make addr))

theorem structNew_tracks (g : α → β) {make : Addr → α} {b : β}
    {Post : Option α → Multiset Addr → Prop} (hplain : ∀ addr, g (make addr) = b)
    (hnone : Post none 0) (hmade : ∀ addr, Post (some (make addr)) {addr}) :
    Tracks 0 (structNew make) (Option.map g) (C.new b) Post := by
  refine Tracks.malloc.bind ?_
  rintro (_ | addr) _ rfl
  · exact Tracks.pure hnone
  · exact Tracks.pure_of (congrArg some (hplain addr)) (hmade addr)

end Structs

/-! ### Binaries

A copy has a struct and bytes of its own; a binary out of a message is nothing but its
struct, and so that is all that is freed of it. -/

/-- A binary, its block, and the block that its bytes are in, if it is not a part of
    another one. -/
structure RiakBinary where
  addr : Addr
  block : Option Addr
  data : Bytes
  managed : Bool

def RiakBinary.plain (b : RiakBinary) : RiakClient.RiakBinary := ⟨b.data, b.managed⟩

instance : Owns RiakBinary := ⟨fun b => (if b.managed then blocks b.block else 0) + {b.addr}⟩

/-- `riak_binary_new`, which takes the struct back if there is no memory for the
    bytes. -/
def riakBinaryNew (data : Bytes) : Booked (Option RiakBinary) := do
  match ← malloc with
  | none => pure none
  | some addr =>
      match ← malloc with
      | none => do
          release addr
          pure none
      | some block => pure (some ⟨addr, some block, data, true⟩)

def riakBinaryCopy : Option RiakClient.RiakBinary → Booked (Option RiakBinary)
  | none => pure none
  | some bin => riakBinaryNew bin.data

def riakBinaryCopyFromPb (data : Bytes) : Booked (Option RiakBinary) := do
  match ← malloc with
  | none => pure none
  | some addr => pure (some ⟨addr, none, data, false⟩)

def riakBinaryFree : Option RiakBinary → Booked Unit
  | none => pure ()
  | some b => do
      if b.managed then free b.block
      release b.addr

theorem riakBinaryNew_tracks (data : Bytes) :
    Tracks 0 (riakBinaryNew data) (Option.map RiakBinary.plain) (RiakClient.riakBinaryNew data)
      fun b after => after = blocks b := by
  unfold riakBinaryNew RiakClient.riakBinaryNew
  refine Tracks.malloc.bind ?_
  rintro (_ | addr) _ rfl
  · exact Tracks.pure rfl
  · refine Tracks.malloc.after ?_
    rintro (_ | block) _ rfl
    · exact (Tracks.release addr).frees (zero_add _) (Tracks.pure rfl)
    · exact Tracks.pure rfl

theorem riakBinaryCopy_tracks (bin : Option RiakClient.RiakBinary) :
    Tracks 0 (riakBinaryCopy bin) (Option.map RiakBinary.plain) (RiakClient.riakBinaryCopy bin)
      fun b after => after = blocks b := by
  cases bin with
  | none => exact Tracks.pure rfl
  | some bin => exact riakBinaryNew_tracks bin.data

theorem riakBinaryCopyFromPb_tracks (data : Bytes) :
    Tracks 0 (riakBinaryCopyFromPb data) (Option.map RiakBinary.plain)
      (RiakClient.riakBinaryCopyFromPb data) fun b after => after = blocks b := by
  unfold riakBinaryCopyFromPb RiakClient.riakBinaryCopyFromPb C.new
  refine Tracks.malloc.bind ?_
  rintro (_ | addr) _ rfl
  · exact Tracks.pure rfl
  · exact Tracks.pure (zero_add _).symm

theorem riakBinaryCopyFromPb_struct_tracks (data : Bytes) :
    Tracks 0 (riakBinaryCopyFromPb data) (Option.map RiakBinary.plain)
      (RiakClient.riakBinaryCopyFromPb data)
      fun b after => after = blocks (b.map RiakBinary.addr) := by
  unfold riakBinaryCopyFromPb RiakClient.riakBinaryCopyFromPb C.new
  refine Tracks.malloc.bind ?_
  rintro (_ | addr) _ rfl
  · exact Tracks.pure rfl
  · exact Tracks.pure rfl

theorem riakBinaryFree_tracks (b : Option RiakBinary) :
    Tracks (blocks b) (riakBinaryFree b) (fun _ => ()) (pure ()) fun _ after => after = 0 := by
  cases b with
  | none => exact Tracks.pure rfl
  | some b =>
    obtain ⟨addr, block, data, managed⟩ := b
    cases managed with
    | true => exact (Tracks.free block).frees rfl (Tracks.release addr)
    | false =>
      show Tracks (0 + {addr}) (release addr) _ _ _
      rw [zero_add]
      exact Tracks.release addr

theorem riakBinaryFree_frees (b : Option RiakBinary) :
    Frees True (blocks b) (riakBinaryFree b) () := by
  cases b with
  | none => exact Frees.pure ()
  | some b =>
    obtain ⟨addr, block, data, managed⟩ := b
    cases managed with
    | true => exact ((Frees.free block).bind (Frees.release addr)).of_iff and_self_iff fun _ => rfl
    | false => exact (Frees.release addr).of_iff Iff.rfl fun _ => (zero_add _).symm

/-! ### Arrays

The loops are described for entries of any kind. A copying loop leaves everything, or
what it made before it was refused, and what it has made can be counted; a freeing
loop frees the entries that it is sent over, if there is one in each slot. -/

section Arrays

variable {α β γ : Type}

/-- An array of pointers. One without slots may be NULL. -/
structure Slots (α : Type) where
  addr : Option Addr
  slots : List (Option α)

instance [Owns α] : Owns (Slots α) := ⟨fun array => blocks array.slots + blocks array.addr⟩

def Slots.plain (f : α → β) (array : Slots α) : List (Option β) := array.slots.map (Option.map f)

/-- The copying loops. They stop at the first entry that cannot be made, and what is
    made by then is somewhere. -/
def copyLoop (copy : Nat → Booked (Option α)) : Nat → Nat → Booked (Bool × List α)
  | 0, _ => pure (true, [])
  | left + 1, i => do
      match ← copy i with
      | none => pure (false, [])
      | some item => do
          let (all, items) ← copyLoop copy left (← lift (C.intSucc i))
          pure (all, item :: items)

/-- The freeing loops. -/
def freeLoop (body : Nat → Booked Unit) : Nat → Nat → Booked Unit
  | 0, _ => pure ()
  | left + 1, i => do
      body i
      freeLoop body left (← lift (C.intSucc i))

/-- `array[i]`. -/
def slotOf (array : Option (Slots α)) (i : Nat) : C (Option α) := do
  C.readAt (← C.deref array).slots i

/-- The functions that free an array and what its entries point to. -/
def freeSlots (freeEntry : Option α → Booked Unit) (array : Option (Slots α)) (n : Int) :
    Booked Unit := do
  freeLoop (fun i => do freeEntry (← lift (slotOf array i))) n.toNat 0
  free (array.bind Slots.addr)

/-- An array with `n` entries, and perhaps a slot behind them. -/
def Filled (Good : α → Prop) (n : Int) : Option (Slots α) → Prop
  | none => n ≤ 0
  | some array => n < 2 ^ 31 ∧ ∃ (items : List α) (spare : Nat),
      array.slots = items.map some ++ List.replicate spare none ∧ items.length = n.toNat ∧
        ∀ item ∈ items, Good item

theorem Slots.plain_map_some (g : α → β) (addr : Option Addr) (items : List α) :
    Slots.plain g ⟨addr, items.map some⟩ = (items.map g).map some := by
  show (items.map some).map (Option.map g) = _
  rw [List.map_map, List.map_map]
  rfl

variable [Owns α]

theorem blocks_map_some (items : List α) : blocks (items.map some) = blocks items := by
  induction items with
  | nil => rfl
  | cons item items ih => rw [List.map_cons, blocks_cons, blocks_cons, blocks_some, ih]

theorem blocks_slots (addr : Option Addr) (items : List α) :
    blocks (⟨addr, items.map some⟩ : Slots α) = blocks items + blocks addr := by
  show blocks (items.map some) + blocks addr = _
  rw [blocks_map_some]

omit [Owns α] in
theorem filled_of_room {Good : α → Prop} {items : List α}
    (hroom : items = [] ∨ 0 + items.length < 2 ^ 31) (hgood : ∀ item ∈ items, Good item)
    (addr : Option Addr) :
    Filled Good (items.length : Int) (some ⟨addr, items.map some⟩) ∧ items.length < 2 ^ 31 := by
  have hcount : items.length < 2 ^ 31 := by
    rcases hroom with rfl | hroom
    · exact Nat.two_pow_pos 31
    · exact (Nat.zero_add _).symm.trans_lt hroom
  exact ⟨⟨by omega, items, 0, (List.append_nil _).symm, (Int.toNat_natCast _).symm, hgood⟩, hcount⟩

theorem blocks_append (first later : List α) :
    blocks (first ++ later) = blocks first + blocks later := by
  induction first with
  | nil => exact (zero_add _).symm
  | cons item first ih => rw [List.cons_append, blocks_cons, blocks_cons, ih, add_assoc]

theorem blocks_replicate_none (n : Nat) : blocks (List.replicate n (none : Option α)) = 0 := by
  induction n with
  | zero => rfl
  | succ n ih => rw [List.replicate_succ, blocks_cons, ih, blocks_none, zero_add]

theorem blocks_filled (addr : Option Addr) (items : List α) (spare : Nat) :
    blocks (⟨addr, items.map some ++ List.replicate spare none⟩ : Slots α) =
      blocks items + blocks addr := by
  show blocks (items.map some ++ List.replicate spare none) + blocks addr = _
  rw [blocks_append, blocks_map_some, blocks_replicate_none, add_zero]

omit [Owns α] in
theorem slot_of_filled {items : List α} {i : Nat} {item : α} (h : items[i]? = some item)
    (spare : Nat) : (items.map some ++ List.replicate spare none)[i]? = some (some item) := by
  have hinside : i < (items.map some).length := by
    rw [List.length_map]
    exact (List.getElem?_eq_some_iff.mp h).1
  rw [List.getElem?_append_left hinside, List.getElem?_map, h]
  rfl

theorem copyLoop_tracks {copy : Nat → Booked (Option α)} {g : α → β}
    {plainCopy : Nat → C (Option β)} {Good : α → Prop}
    (hcopy : ∀ i, Tracks 0 (copy i) (Option.map g) (plainCopy i)
      fun p after => ∀ item, p = some item → after = blocks item ∧ Good item) :
    ∀ (left i : Nat), Tracks 0 (copyLoop copy left i)
      (fun out => if out.1 then some (out.2.map g) else none)
      (RiakClient.copyLoop plainCopy left i)
      fun out after => (∃ lost, after = blocks out.2 + lost ∧
          (out.1 = true → lost = 0 ∧ out.2.length = left)) ∧
        (∀ item ∈ out.2, Good item) ∧ (out.2 = [] ∨ i + out.2.length < 2 ^ 31) := by
  intro left
  induction left with
  | zero =>
    intro i
    exact Tracks.pure ⟨⟨0, rfl, fun _ => ⟨rfl, rfl⟩⟩, fun _ h => absurd h List.not_mem_nil,
      Or.inl rfl⟩
  | succ left ih =>
    intro i
    unfold copyLoop RiakClient.copyLoop
    refine (hcopy i).bind ?_
    rintro (_ | item) after hitem
    · exact Tracks.pure ⟨⟨after, (zero_add _).symm, fun h => absurd h Bool.false_ne_true⟩,
        fun _ h => absurd h List.not_mem_nil, Or.inl rfl⟩
    · obtain ⟨rfl, hgood⟩ := hitem item rfl
      refine Tracks.lift_bind ?_
      intro j heap final hsucc
      obtain ⟨hroom, rfl, _⟩ := C.intSucc_eq_ok.mp hsucc
      refine (ih (i + 1)).after ?_
      rintro ⟨all, items⟩ _ ⟨⟨lost, rfl, hall⟩, hitems, hlength⟩
      have hmade : ∀ x ∈ item :: items, Good x := by
        intro x hx
        rcases List.mem_cons.mp hx with rfl | hx
        · exact hgood
        · exact hitems x hx
      have hinside : item :: items = [] ∨ i + (item :: items).length < 2 ^ 31 := by
        right
        rw [List.length_cons]
        rcases hlength with hnil | hlength
        · have hnone : items.length = 0 := congrArg List.length hnil
          omega
        · have hlater : i + 1 + items.length < 2 ^ 31 := hlength
          omega
      have hblocks : blocks items + lost + blocks item = blocks (item :: items) + lost := by
        rw [blocks_cons]
        abel
      cases all with
      | true =>
        refine Tracks.pure ⟨⟨lost, hblocks, fun _ => ?_⟩, hmade, hinside⟩
        obtain ⟨hlost, hcount⟩ := hall rfl
        exact ⟨hlost, congrArg (· + 1) hcount⟩
      | false =>
        exact Tracks.pure ⟨⟨lost, hblocks, fun h => absurd h Bool.false_ne_true⟩, hmade, hinside⟩

theorem freeLoop_tracks {body : Nat → Booked Unit} {plainBody : Nat → C Unit} :
    ∀ (items : List α) (i : Nat),
      (∀ j item, items[j]? = some item → Tracks (blocks item) (body (i + j)) (fun _ => ())
        (plainBody (i + j)) fun _ after => after = 0) →
      Tracks (blocks items) (freeLoop body items.length i) (fun _ => ())
        (RiakClient.freeLoop plainBody items.length i) fun _ after => after = 0 := by
  intro items
  induction items with
  | nil =>
    intro i _
    exact Tracks.pure rfl
  | cons item items ih =>
    intro i hbody
    rw [List.length_cons, blocks_cons]
    unfold freeLoop RiakClient.freeLoop
    refine (hbody 0 item rfl).step rfl ?_
    rintro _ _ rfl
    rw [zero_add]
    refine Tracks.lift_bind ?_
    intro next heap final hsucc
    obtain ⟨_, rfl, _⟩ := C.intSucc_eq_ok.mp hsucc
    refine ih (i + 1) ?_
    intro j x hx
    have hnext := hbody (j + 1) x hx
    rwa [← Nat.add_assoc, Nat.add_right_comm] at hnext

/-- A freeing loop gets through if and only if there is an entry in each slot it comes
    to, each of them can be freed, and its index stays an `int`. -/
theorem freeLoop_frees {body : Nat → Booked Unit} {Fine : α → Prop} :
    ∀ (left i : Nat) (slots : List (Option α)),
      (∀ j, Frees (∃ item, slots[j]? = some (some item) ∧ Fine item) (blocks slots[j]?.join)
        (body (i + j)) ()) →
      Frees ((left = 0 ∨ i + left < 2 ^ 31) ∧
          ∀ j < left, ∃ item, slots[j]? = some (some item) ∧ Fine item)
        (blocks (slots.take left)) (freeLoop body left i) () := by
  intro left
  induction left with
  | zero =>
    intro i slots _
    exact (Frees.pure ()).of_iff ⟨fun _ => ⟨Or.inl rfl, nofun⟩, fun _ => trivial⟩ fun _ => rfl
  | succ left ih =>
    intro i slots hbody
    have hlater : Frees (i + 1 < 2 ^ 31 ∧ (left = 0 ∨ i + 1 + left < 2 ^ 31) ∧
          ∀ j < left, ∃ item, slots.tail[j]? = some (some item) ∧ Fine item)
        (blocks (slots.tail.take left))
        (lift (C.intSucc i) >>= fun next => freeLoop body left next) () := by
      by_cases hint : i + 1 < 2 ^ 31
      · rw [C.intSucc_of_lt hint, lift_pure, pure_bind]
        refine (ih (i + 1) slots.tail fun j => ?_).of_iff (and_iff_right hint).symm fun _ => rfl
        have hnext := hbody (j + 1)
        rw [List.getElem?_tail]
        rwa [← Nat.add_assoc, Nat.add_right_comm] at hnext
      · rw [C.intSucc_of_le (Nat.not_lt.mp hint)]
        exact Frees.fault .signedOverflow fun h => hint h.1
    refine ((hbody 0).bind hlater).of_iff ⟨?_, ?_⟩ fun _ => ?_
    · rintro ⟨hfirst, hint, hroom, hall⟩
      refine ⟨Or.inr (by omega), fun j hj => ?_⟩
      cases j with
      | zero => exact hfirst
      | succ j =>
        rw [← List.getElem?_tail]
        exact hall j (Nat.lt_of_succ_lt_succ hj)
    · rintro ⟨hroom, hall⟩
      have hroom : i + (left + 1) < 2 ^ 31 := hroom.resolve_left (Nat.succ_ne_zero left)
      refine ⟨hall 0 (Nat.succ_pos left), by omega, by omega, fun j hj => ?_⟩
      rw [List.getElem?_tail]
      exact hall (j + 1) (Nat.succ_lt_succ hj)
    · cases slots with
      | nil =>
        rw [List.tail_nil, List.take_nil, List.take_nil]
        exact zero_add _
      | cons slot slots => exact (blocks_cons slot (slots.take left)).symm

theorem freeSlots_tracks {freeEntry : Option α → Booked Unit} {Good : α → Prop}
    (hentry : ∀ item, Good item → Tracks (blocks item) (freeEntry (some item)) (fun _ => ())
      (pure ()) fun _ after => after = 0)
    {n : Int} {array : Option (Slots α)} (h : Filled Good n array) :
    Tracks (blocks array) (freeSlots freeEntry array n) (fun _ => ()) (pure ())
      fun _ after => after = 0 := by
  unfold freeSlots
  cases array with
  | none =>
    have hzero : n.toNat = 0 := Int.toNat_eq_zero.mpr h
    rw [hzero]
    exact Tracks.nothing.frees (zero_add _).symm (Tracks.free none)
  | some array =>
    obtain ⟨addr, slots⟩ := array
    obtain ⟨hroom, items, spare, hslots, hcount, hgood⟩ := h
    subst hslots
    have hbody : Tracks (blocks items) (freeLoop (fun i => do
        freeEntry (← lift (slotOf (some ⟨addr, items.map some ++ List.replicate spare none⟩) i)))
        items.length 0) (fun _ => ()) (pure ()) fun _ after => after = 0 := by
      rw [← freeLoop_eq items.length 0 (by omega) fun _ _ _ => rfl]
      refine freeLoop_tracks items 0 ?_
      intro j item hitem
      have hslot : slotOf (some ⟨addr, items.map some ++ List.replicate spare none⟩) (0 + j) =
          pure (some item) := by
        unfold slotOf
        rw [C.deref_some, pure_bind, Nat.zero_add]
        exact C.readAt_of_get (slot_of_filled hitem spare)
      rw [hslot]
      exact hentry item (hgood item (List.mem_of_getElem? hitem))
    rw [← hcount]
    exact hbody.frees (blocks_filled addr items spare) (Tracks.free addr)

end Arrays

/-! ### Pairs and links -/

structure RiakPair where
  addr : Addr
  key : Option RiakBinary := none
  hasValue : Bool := false
  value : Option RiakBinary := none

def RiakPair.plain (pair : RiakPair) : RiakClient.RiakPair where
  key := pair.key.map RiakBinary.plain
  hasValue := pair.hasValue
  value := pair.value.map RiakBinary.plain

instance : Owns RiakPair := ⟨fun pair => blocks pair.key + (blocks pair.value + {pair.addr})⟩

structure RiakLink where
  addr : Addr
  hasBucket : Bool := false
  bucket : Option RiakBinary := none
  hasKey : Bool := false
  key : Option RiakBinary := none
  hasTag : Bool := false
  tag : Option RiakBinary := none

def RiakLink.plain (link : RiakLink) : RiakClient.RiakLink where
  hasBucket := link.hasBucket
  bucket := link.bucket.map RiakBinary.plain
  hasKey := link.hasKey
  key := link.key.map RiakBinary.plain
  hasTag := link.hasTag
  tag := link.tag.map RiakBinary.plain

instance : Owns RiakLink :=
  ⟨fun link => blocks link.bucket + (blocks link.key + (blocks link.tag + {link.addr}))⟩

def riakPairsCopyFromPb (pbpair : RpbPair) : Booked (RiakError × Option RiakPair) := do
  match ← malloc with
  | none => pure (.outOfMemory, none)
  | some addr =>
      match ← riakBinaryCopyFromPb pbpair.key with
      | none => pure (.outOfMemory, none)
      | some key =>
          if pbpair.hasValue then
            match ← riakBinaryCopyFromPb pbpair.value with
            | none => pure (.outOfMemory, none)
            | some value =>
                pure (.ok, some { addr := addr, key := some key, hasValue := true,
                                  value := some value })
          else pure (.ok, some { addr := addr, key := some key })

def copyFromPbIf (has : Bool) (data : Bytes) : Booked (Option (Option RiakBinary)) :=
  if has then do
    match ← riakBinaryCopyFromPb data with
    | none => pure none
    | some bin => pure (some (some bin))
  else pure (some none)

/-- One round of the loop over the pairs. -/
def riakPairCopyFromPb (pbpair : Option (List RpbPair)) (i : Nat) : Booked (Option RiakPair) := do
  let array ← lift (C.deref pbpair)
  let entry ← lift (C.readAt array i)
  let (_, pair) ← riakPairsCopyFromPb entry
  pure pair

def riakPairsCopyArrayFromPb (pbpair : Option (List RpbPair)) (numPairs : Int) :
    Booked (Option (Option Addr × List RiakPair)) := do
  match ← malloc with
  | none => pure none
  | some addr => do
      let (all, pairs) ← copyLoop (riakPairCopyFromPb pbpair) numPairs.toNat 0
      if all then pure (some (some addr, pairs)) else pure none

def riakLinkCopyFromPb (link : Option Addr) (pblink : Option (List RpbLink)) (i : Nat) :
    Booked (Option RiakLink) := do
  let fresh ← malloc
  match link with
  | none => lift (C.fault .nullDereference)
  | some _ =>
      match fresh with
      | none => pure none
      | some addr => do
          let array ← lift (C.deref pblink)
          let entry ← lift (C.readAt array i)
          let some bucket ← copyFromPbIf entry.hasBucket entry.bucket | pure none
          let some key ← copyFromPbIf entry.hasKey entry.key | pure none
          let some tag ← copyFromPbIf entry.hasTag entry.tag | pure none
          pure (some {
            addr := addr
            hasBucket := entry.hasBucket, bucket := bucket
            hasKey := entry.hasKey, key := key
            hasTag := entry.hasTag, tag := tag })

def riakLinksCopyFromPb (pblink : Option (List RpbLink)) (numLinks : Int) :
    Booked (Option (Option Addr × List RiakLink)) := do
  let link ← malloc
  if pblink.isNone then pure none
  else do
    let (all, links) ← copyLoop (riakLinkCopyFromPb link pblink) numLinks.toNat 0
    if all then pure (some (link, links)) else pure none

/-! #### What they do to their blocks -/

theorem riakPairsCopyFromPb_tracks (pbpair : RpbPair) :
    Tracks 0 (riakPairsCopyFromPb pbpair) (fun out => (out.1, out.2.map RiakPair.plain))
      (RiakClient.riakPairsCopyFromPb pbpair)
      fun out after => ∀ pair, out.2 = some pair → after = blocks pair := by
  unfold riakPairsCopyFromPb RiakClient.riakPairsCopyFromPb
  refine Tracks.malloc.bind ?_
  rintro (_ | addr) _ rfl
  · exact Tracks.pure nofun
  · refine (riakBinaryCopyFromPb_tracks _).after ?_
    rintro (_ | key) _ rfl
    · exact Tracks.pure nofun
    · simp only [Option.map_some]
      cases pbpair.hasValue with
      | false =>
        refine Tracks.pure ?_
        rintro _ ⟨⟩
        show blocks key + {addr} = blocks key + (0 + {addr})
        rw [zero_add]
      | true =>
        refine (riakBinaryCopyFromPb_tracks _).after ?_
        rintro (_ | value) _ rfl
        · exact Tracks.pure nofun
        · refine Tracks.pure ?_
          rintro _ ⟨⟩
          show blocks value + (blocks key + {addr}) = blocks key + (blocks value + {addr})
          abel

theorem copyFromPbIf_tracks (has : Bool) (data : Bytes) :
    Tracks 0 (copyFromPbIf has data) (Option.map (Option.map RiakBinary.plain))
      (RiakClient.copyFromPbIf has data) fun out after => after = blocks out := by
  unfold copyFromPbIf RiakClient.copyFromPbIf
  cases has with
  | false => exact Tracks.pure rfl
  | true =>
    refine (riakBinaryCopyFromPb_tracks data).bind ?_
    rintro (_ | bin) _ rfl
    · exact Tracks.pure rfl
    · exact Tracks.pure rfl

theorem copyFromPbIf_struct_tracks (has : Bool) (data : Bytes) :
    Tracks 0 (copyFromPbIf has data) (Option.map (Option.map RiakBinary.plain))
      (RiakClient.copyFromPbIf has data)
      fun out after => after = blocks (out.map (Option.map RiakBinary.addr)) := by
  unfold copyFromPbIf RiakClient.copyFromPbIf
  cases has with
  | false => exact Tracks.pure rfl
  | true =>
    refine (riakBinaryCopyFromPb_struct_tracks data).bind ?_
    rintro (_ | bin) _ rfl
    · exact Tracks.pure rfl
    · exact Tracks.pure rfl

/-- What an array of copies is answerable for, and that it is whole. -/
def Copied {α : Type} [Owns α] (n : Int) (out : Option (Option Addr × List α))
    (after : Multiset Addr) : Prop :=
  ∀ addr items, out = some (addr, items) →
    after = blocks items + blocks addr ∧ items.length = n.toNat

theorem riakPairCopyFromPb_tracks (pbpair : Option (List RpbPair)) (i : Nat) :
    Tracks 0 (riakPairCopyFromPb pbpair i) (Option.map RiakPair.plain)
      (do
        let entry ← C.readAt (← C.deref pbpair) i
        let (_, pair) ← RiakClient.riakPairsCopyFromPb entry
        pure pair)
      fun out after => ∀ pair, out = some pair → after = blocks pair ∧ True := by
  unfold riakPairCopyFromPb
  refine Tracks.lift_bind ?_
  intro array _ _ _
  refine Tracks.lift_bind ?_
  intro entry _ _ _
  refine (riakPairsCopyFromPb_tracks entry).bind ?_
  rintro ⟨err, pair⟩ after hpair
  exact Tracks.pure fun item hitem => ⟨hpair item hitem, trivial⟩

theorem riakPairsCopyArrayFromPb_tracks (pbpair : Option (List RpbPair)) (numPairs : Int) :
    Tracks 0 (riakPairsCopyArrayFromPb pbpair numPairs)
      (Option.map fun array => array.2.map RiakPair.plain)
      (RiakClient.riakPairsCopyArrayFromPb pbpair numPairs) (Copied numPairs) := by
  unfold riakPairsCopyArrayFromPb RiakClient.riakPairsCopyArrayFromPb copyArray
  refine Tracks.malloc.bind ?_
  rintro (_ | addr) _ rfl
  · exact Tracks.pure nofun
  · simp only [Option.isSome_some, if_true]
    rw [← bind_pure (RiakClient.copyLoop _ _ _)]
    refine (copyLoop_tracks (riakPairCopyFromPb_tracks pbpair) numPairs.toNat 0).after ?_
    rintro ⟨all, pairs⟩ _ ⟨⟨lost, rfl, hall⟩, _, _⟩
    cases all with
    | false => exact Tracks.pure nofun
    | true =>
      obtain ⟨rfl, hcount⟩ := hall rfl
      refine Tracks.pure ?_
      rintro _ _ ⟨⟩
      rw [add_zero]
      exact ⟨rfl, hcount⟩

theorem riakLinkCopyFromPb_tracks (link : Option Addr) (pblink : Option (List RpbLink)) (i : Nat) :
    Tracks 0 (riakLinkCopyFromPb link pblink i) (Option.map RiakLink.plain)
      (RiakClient.riakLinkCopyFromPb link.isSome pblink i)
      fun out after => ∀ entry, out = some entry → after = blocks entry ∧ True := by
  unfold riakLinkCopyFromPb RiakClient.riakLinkCopyFromPb
  refine Tracks.malloc.bind ?_
  rintro fresh _ rfl
  cases link with
  | none => exact Tracks.fault .nullDereference
  | some _ =>
    cases fresh with
    | none => exact Tracks.pure nofun
    | some addr =>
      simp only [Option.isSome_some, Bool.true_eq_false, if_false, if_true]
      refine Tracks.lift_bind ?_
      intro array _ _ _
      refine Tracks.lift_bind ?_
      intro entry _ _ _
      refine (copyFromPbIf_tracks _ _).after ?_
      rintro (_ | bucket) _ rfl
      · exact Tracks.pure nofun
      · refine (copyFromPbIf_tracks _ _).after ?_
        rintro (_ | key) _ rfl
        · exact Tracks.pure nofun
        · refine (copyFromPbIf_tracks _ _).after ?_
          rintro (_ | tag) _ rfl
          · exact Tracks.pure nofun
          · refine Tracks.pure ?_
            rintro _ ⟨⟩
            refine ⟨?_, trivial⟩
            show blocks tag + (blocks key + (blocks bucket + {addr})) =
              blocks bucket + (blocks key + (blocks tag + {addr}))
            abel

theorem riakLinksCopyFromPb_tracks (pblink : Option (List RpbLink)) (numLinks : Int) :
    Tracks 0 (riakLinksCopyFromPb pblink numLinks)
      (Option.map fun array => array.2.map RiakLink.plain)
      (RiakClient.riakLinksCopyFromPb pblink numLinks) (Copied numLinks) := by
  unfold riakLinksCopyFromPb RiakClient.riakLinksCopyFromPb
  refine Tracks.malloc.bind ?_
  rintro link _ rfl
  cases pblink.isNone with
  | true => exact Tracks.pure nofun
  | false =>
    rw [if_neg Bool.false_ne_true, if_neg Bool.false_ne_true,
      ← bind_pure (RiakClient.copyLoop _ _ _)]
    refine (copyLoop_tracks (riakLinkCopyFromPb_tracks link pblink) numLinks.toNat 0).after ?_
    rintro ⟨all, links⟩ _ ⟨⟨lost, rfl, hall⟩, _, _⟩
    cases all with
    | false => exact Tracks.pure nofun
    | true =>
      obtain ⟨rfl, hcount⟩ := hall rfl
      refine Tracks.pure ?_
      rintro _ _ ⟨⟩
      rw [add_zero]
      exact ⟨rfl, hcount⟩

theorem riakPair_free_tracks (pair : RiakPair) :
    Tracks (blocks pair) (do
        let pair ← lift (C.deref (some pair))
        riakBinaryFree pair.key
        riakBinaryFree pair.value
        release pair.addr) (fun _ => ()) (pure ()) fun _ after => after = 0 :=
  ((riakBinaryFree_tracks pair.key).frees rfl
    ((riakBinaryFree_tracks pair.value).frees rfl (Tracks.release pair.addr)))

def riakPairsFree : Option (Slots RiakPair) → Int → Booked Unit :=
  freeSlots fun entry => do
    let pair ← lift (C.deref entry)
    riakBinaryFree pair.key
    riakBinaryFree pair.value
    release pair.addr

def riakLinksFree : Option (Slots RiakLink) → Int → Booked Unit :=
  freeSlots fun entry => do
    let link ← lift (C.deref entry)
    riakBinaryFree link.bucket
    riakBinaryFree link.key
    riakBinaryFree link.tag
    release link.addr

theorem riakPairsFree_tracks {n : Int} {pairs : Option (Slots RiakPair)}
    (h : Filled (fun _ => True) n pairs) :
    Tracks (blocks pairs) (riakPairsFree pairs n) (fun _ => ()) (pure ())
      fun _ after => after = 0 :=
  freeSlots_tracks (fun pair _ => riakPair_free_tracks pair) h

theorem riakLink_free_tracks (link : RiakLink) :
    Tracks (blocks link) (do
        let link ← lift (C.deref (some link))
        riakBinaryFree link.bucket
        riakBinaryFree link.key
        riakBinaryFree link.tag
        release link.addr) (fun _ => ()) (pure ()) fun _ after => after = 0 :=
  (riakBinaryFree_tracks link.bucket).frees rfl ((riakBinaryFree_tracks link.key).frees rfl
    ((riakBinaryFree_tracks link.tag).frees rfl (Tracks.release link.addr)))

theorem riakLinksFree_tracks {n : Int} {links : Option (Slots RiakLink)}
    (h : Filled (fun _ => True) n links) :
    Tracks (blocks links) (riakLinksFree links n) (fun _ => ()) (pure ())
      fun _ after => after = 0 :=
  freeSlots_tracks (fun link _ => riakLink_free_tracks link) h

/-! ### Objects

An object that is made owns everything that was made for it, and an object whose
arrays have the entries that the counts say is freed with all of it. -/

structure RiakObject where
  addr : Addr
  bucket : Option RiakBinary := none
  hasBucketType : Bool := false
  bucketType : Option RiakBinary := none
  hasKey : Bool := false
  key : Option RiakBinary := none
  value : Option RiakBinary := none
  hasCharset : Bool := false
  charset : Option RiakBinary := none
  hasLastMod : Bool := false
  lastMod : UInt32 := 0
  hasLastModUsecs : Bool := false
  lastModUsecs : UInt32 := 0
  hasContentType : Bool := false
  contentType : Option RiakBinary := none
  hasContentEncoding : Bool := false
  encoding : Option RiakBinary := none
  hasDeleted : Bool := false
  deleted : RiakBoolean := 0
  hasVtag : Bool := false
  vtag : Option RiakBinary := none
  nLinks : Int := 0
  links : Option (Slots RiakLink) := none
  nUsermeta : Int := 0
  usermeta : Option (Slots RiakPair) := none
  nIndexes : Int := 0
  indexes : Option (Slots RiakPair) := none

def RiakObject.plain (obj : RiakObject) : RiakClient.RiakObject where
  bucket := obj.bucket.map RiakBinary.plain
  hasBucketType := obj.hasBucketType
  bucketType := obj.bucketType.map RiakBinary.plain
  hasKey := obj.hasKey
  key := obj.key.map RiakBinary.plain
  value := obj.value.map RiakBinary.plain
  hasCharset := obj.hasCharset
  charset := obj.charset.map RiakBinary.plain
  hasLastMod := obj.hasLastMod
  lastMod := obj.lastMod
  hasLastModUsecs := obj.hasLastModUsecs
  lastModUsecs := obj.lastModUsecs
  hasContentType := obj.hasContentType
  contentType := obj.contentType.map RiakBinary.plain
  hasContentEncoding := obj.hasContentEncoding
  encoding := obj.encoding.map RiakBinary.plain
  hasDeleted := obj.hasDeleted
  deleted := obj.deleted
  hasVtag := obj.hasVtag
  vtag := obj.vtag.map RiakBinary.plain
  nLinks := obj.nLinks
  links := obj.links.map (Slots.plain RiakLink.plain)
  nUsermeta := obj.nUsermeta
  usermeta := obj.usermeta.map (Slots.plain RiakPair.plain)
  nIndexes := obj.nIndexes
  indexes := obj.indexes.map (Slots.plain RiakPair.plain)

instance : Owns RiakObject :=
  ⟨fun obj => blocks obj.bucketType + (blocks obj.bucket + (blocks obj.charset +
    (blocks obj.contentType + (blocks obj.encoding + (blocks obj.key + (blocks obj.value +
    (blocks obj.vtag + (blocks obj.indexes + (blocks obj.usermeta + (blocks obj.links +
    {obj.addr}))))))))))⟩

/-- The arrays have the entries that the counts say. -/
structure RiakObject.Whole (obj : RiakObject) : Prop where
  indexes : Filled (fun _ => True) obj.nIndexes obj.indexes
  usermeta : Filled (fun _ => True) obj.nUsermeta obj.usermeta
  links : Filled (fun _ => True) obj.nLinks obj.links

def decodeRepeated {α : Type} (count : Nat) (err : RiakError)
    (copy : Int → Booked (Option (Option Addr × List α))) :
    Booked (RiakError × Int × Option (Slots α)) :=
  if 0 < count ∧ err = .ok then do
    let n := Int.bmod count (2 ^ 32)
    match ← copy n with
    | none => pure (.outOfMemory, n, none)
    | some (addr, entries) => pure (.ok, n, some ⟨addr, entries.map some⟩)
  else pure (err, 0, none)

/-- `riak_object_new_from_pb`. What it frees when a binary cannot be copied is the
    struct. -/
def riakObjectNewFromPb (from_ : RpbContent) : Booked (RiakError × Option RiakObject) := do
  match ← malloc with
  | none => pure (.outOfMemory, none)
  | some addr => do
      let some value ← riakBinaryCopyFromPb from_.value
        | do
          release addr
          pure (.outOfMemory, none)
      let some charset ← copyFromPbIf from_.hasCharset from_.charset
        | do
          release addr
          pure (.outOfMemory, none)
      let some encoding ← copyFromPbIf from_.hasContentEncoding from_.contentEncoding
        | do
          release addr
          pure (.outOfMemory, none)
      let some contentType ← copyFromPbIf from_.hasContentType from_.contentType
        | do
          release addr
          pure (.outOfMemory, none)
      let some vtag ← copyFromPbIf from_.hasVtag from_.vtag
        | do
          release addr
          pure (.outOfMemory, none)
      let (err, nIndexes, indexes) ←
        decodeRepeated from_.indexes.count .ok (riakPairsCopyArrayFromPb from_.indexes.items)
      let (err, nUsermeta, usermeta) ←
        decodeRepeated from_.usermeta.count err (riakPairsCopyArrayFromPb from_.usermeta.items)
      let (err, nLinks, links) ←
        decodeRepeated from_.links.count err (riakLinksCopyFromPb from_.links.items)
      pure (err, some {
        addr := addr
        value := some value
        hasCharset := from_.hasCharset, charset := charset
        hasContentEncoding := from_.hasContentEncoding, encoding := encoding
        hasContentType := from_.hasContentType, contentType := contentType
        hasDeleted := from_.hasDeleted, deleted := assignIf from_.hasDeleted from_.deleted
        hasLastMod := from_.hasLastMod, lastMod := assignIf from_.hasLastMod from_.lastMod
        hasLastModUsecs := from_.hasLastModUsecs
        lastModUsecs := assignIf from_.hasLastModUsecs from_.lastModUsecs
        hasVtag := from_.hasVtag, vtag := vtag
        nIndexes := nIndexes, indexes := indexes
        nUsermeta := nUsermeta, usermeta := usermeta
        nLinks := nLinks, links := links })

def riakObjectFree : Option RiakObject → Booked Unit
  | none => pure ()
  | some object => do
      riakBinaryFree object.bucketType
      riakBinaryFree object.bucket
      riakBinaryFree object.charset
      riakBinaryFree object.contentType
      riakBinaryFree object.encoding
      riakBinaryFree object.key
      riakBinaryFree object.value
      riakBinaryFree object.vtag
      riakPairsFree object.indexes object.nIndexes
      riakPairsFree object.usermeta object.nUsermeta
      riakLinksFree object.links object.nLinks
      release object.addr

def riakObjectFreeArray : Option (Slots RiakObject) → Int → Booked Unit :=
  freeSlots riakObjectFree

theorem decodeRepeated_tracks {α β : Type} [Owns α] {g : α → β}
    {copy : Int → Booked (Option (Option Addr × List α))} {plainCopy : Int → C (Option (List β))}
    (hcopy : ∀ n, Tracks 0 (copy n) (Option.map fun array => array.2.map g) (plainCopy n)
      (Copied n))
    (count : Nat) (err : RiakError) :
    Tracks 0 (decodeRepeated count err copy)
      (fun out => (out.1, out.2.1, out.2.2.map (Slots.plain g)))
      (RiakClient.decodeRepeated count err plainCopy)
      fun out after => out.1 = .ok → err = .ok ∧ after = blocks out.2.2 ∧
        Filled (fun _ => True) out.2.1 out.2.2 := by
  unfold decodeRepeated RiakClient.decodeRepeated
  by_cases hsome : 0 < count ∧ err = .ok
  · rw [if_pos hsome, if_pos hsome]
    have hint : Int.bmod count (2 ^ 32) < 2 ^ 31 := by
      have hhalf := Int.bmod_lt (x := count) (m := 2 ^ 32) (by decide)
      omega
    generalize Int.bmod count (2 ^ 32) = n at hint
    refine (hcopy n).bind ?_
    rintro (_ | ⟨addr, entries⟩) after hcopied
    · exact Tracks.pure fun (h : RiakError.outOfMemory = .ok) => absurd h (by decide)
    · obtain ⟨rfl, hcount⟩ := hcopied addr entries rfl
      simp only [Option.map_some]
      rw [← Slots.plain_map_some g addr]
      refine Tracks.pure fun _ => ⟨hsome.2, ?_, hint, entries, 0, ?_, hcount, fun _ _ => trivial⟩
      · exact (blocks_slots addr entries).symm
      · exact (List.append_nil _).symm
  · rw [if_neg hsome, if_neg hsome]
    refine Tracks.pure fun herr => ⟨herr, rfl, le_refl (0 : Int)⟩

theorem riakObjectNewFromPb_tracks (from_ : RpbContent) :
    Tracks 0 (riakObjectNewFromPb from_) (fun out => (out.1, out.2.map RiakObject.plain))
      (RiakClient.riakObjectNewFromPb from_)
      fun out after => out.1 = .ok → ∃ obj, out.2 = some obj ∧ after = blocks obj ∧ obj.Whole ∧
        obj.bucket = none ∧ obj.bucketType = none ∧ obj.key = none := by
  unfold riakObjectNewFromPb RiakClient.riakObjectNewFromPb
  have hrefused : ∀ {addr : Addr} {rest : Multiset Addr}, addr ∈ rest →
      Tracks rest (do
          release addr
          pure (.outOfMemory, none) : Booked (RiakError × Option RiakObject))
        (fun out => (out.1, out.2.map RiakObject.plain)) (pure (.outOfMemory, none))
        fun out after => out.1 = .ok → ∃ obj, out.2 = some obj ∧ after = blocks obj ∧ obj.Whole ∧
          obj.bucket = none ∧ obj.bucketType = none ∧ obj.key = none := by
    intro addr rest haddr
    exact Tracks.releases haddr
      (Tracks.pure fun (h : RiakError.outOfMemory = .ok) => absurd h (by decide))
  refine Tracks.malloc.bind ?_
  rintro (_ | addr) _ rfl
  · exact Tracks.pure fun (h : RiakError.outOfMemory = .ok) => absurd h (by decide)
  simp only [Option.isSome_some, if_true]
  refine (riakBinaryCopyFromPb_tracks _).after ?_
  rintro (_ | value) _ rfl
  · exact hrefused (by simp [blocks_addr])
  refine (copyFromPbIf_tracks _ _).after ?_
  rintro (_ | charset) _ rfl
  · exact hrefused (by simp [blocks_addr])
  refine (copyFromPbIf_tracks _ _).after ?_
  rintro (_ | encoding) _ rfl
  · exact hrefused (by simp [blocks_addr])
  refine (copyFromPbIf_tracks _ _).after ?_
  rintro (_ | contentType) _ rfl
  · exact hrefused (by simp [blocks_addr])
  refine (copyFromPbIf_tracks _ _).after ?_
  rintro (_ | vtag) _ rfl
  · exact hrefused (by simp [blocks_addr])
  refine (decodeRepeated_tracks (riakPairsCopyArrayFromPb_tracks _) _ _).after ?_
  rintro ⟨err₁, nIndexes, indexes⟩ own₁ hindexes
  refine (decodeRepeated_tracks (riakPairsCopyArrayFromPb_tracks _) _ _).after ?_
  rintro ⟨err₂, nUsermeta, usermeta⟩ own₂ husermeta
  refine (decodeRepeated_tracks (riakLinksCopyFromPb_tracks _) _ _).after ?_
  rintro ⟨err₃, nLinks, links⟩ own₃ hlinks
  refine Tracks.pure ?_
  intro herr
  obtain ⟨herr₂, rfl, hlinked⟩ := hlinks herr
  obtain ⟨herr₁, rfl, hmeta⟩ := husermeta herr₂
  obtain ⟨_, rfl, hindexed⟩ := hindexes herr₁
  refine ⟨_, rfl, ?_, ⟨hindexed, hmeta, hlinked⟩, rfl, rfl, rfl⟩
  show blocks links + (blocks usermeta + (blocks indexes + (blocks vtag + (blocks contentType +
    (blocks encoding + (blocks charset + (blocks value + {addr}))))))) =
      0 + (0 + (blocks charset + (blocks contentType + (blocks encoding + (0 + (blocks value +
        (blocks vtag + (blocks indexes + (blocks usermeta + (blocks links + {addr}))))))))))
  abel

theorem riakObjectFree_tracks {obj : RiakObject} (h : obj.Whole) :
    Tracks (blocks obj) (riakObjectFree (some obj)) (fun _ => ()) (pure ())
      fun _ after => after = 0 := by
  unfold riakObjectFree
  refine (riakBinaryFree_tracks _).frees rfl ?_
  refine (riakBinaryFree_tracks _).frees rfl ?_
  refine (riakBinaryFree_tracks _).frees rfl ?_
  refine (riakBinaryFree_tracks _).frees rfl ?_
  refine (riakBinaryFree_tracks _).frees rfl ?_
  refine (riakBinaryFree_tracks _).frees rfl ?_
  refine (riakBinaryFree_tracks _).frees rfl ?_
  refine (riakBinaryFree_tracks _).frees rfl ?_
  refine (riakPairsFree_tracks h.indexes).frees rfl ?_
  refine (riakPairsFree_tracks h.usermeta).frees rfl ?_
  exact (riakLinksFree_tracks h.links).frees rfl (Tracks.release obj.addr)

theorem riakObjectFreeArray_tracks {n : Int} {objects : Option (Slots RiakObject)}
    (h : Filled RiakObject.Whole n objects) :
    Tracks (blocks objects) (riakObjectFreeArray objects n) (fun _ => ()) (pure ())
      fun _ after => after = 0 :=
  freeSlots_tracks (fun _ hwhole => riakObjectFree_tracks hwhole) h

end RiakClient.Stored
