import RiakClient.Decoders
import RiakClient.StoredOperations

/-!
# Where a listing is stored

The decoder of a listing is called for every message of a stream, with the response
so far. Its two arrays are moved to larger blocks every time, and what they hold stays
what it is: the entries with blocks of their own, and the messages. A message that
finds no memory leaves the response as it was, or longer, and is itself lost.
-/

namespace RiakClient.Stored

open CSem Booked

variable {α β μ : Type}

/-! ### Growing arrays -/

/-- An array of pointers that may not have been set yet. -/
structure PtrArray (α : Type) where
  addr : Addr
  slots : List (Ptr α)

def PtrArray.plain (g : α → β) (array : PtrArray α) : List (Ptr β) := array.slots.map (Ptr.map g)

/-- `riak_array_realloc`, which frees the old array when it has copied it. -/
def riakArrayRealloc (from_ : Ptr (PtrArray α)) (oldnum newnum : UInt32) :
    Booked (Bool × Ptr (PtrArray α)) := do
  match ← malloc with
  | none => pure (false, from_)
  | some addr => do
      let old ← lift from_.deref
      if old.slots.length < oldnum.toNat then lift (C.fault .outOfBounds)
      else do
        let slots ← lift (C.copyAt (List.replicate newnum.toNat Ptr.null) 0
          (old.slots.take oldnum.toNat))
        release old.addr
        pure (true, .obj ⟨addr, slots⟩)

/-- A message as protobuf-c unpacked it. -/
structure Unpacked (μ : Type) where
  addr : Addr
  message : μ

structure RawMessages (μ : Type) where
  nResponses : UInt32 := 0
  internal : Ptr (PtrArray (Unpacked μ)) := .null

def RawMessages.plain (raw : RawMessages μ) : RiakClient.RawMessages μ where
  nResponses := raw.nResponses
  internal := raw.internal.map (PtrArray.plain Unpacked.message)

def RawMessages.grow (raw : RawMessages μ) : Booked (Bool × Ptr (PtrArray (Unpacked μ))) :=
  if 0 < raw.nResponses then riakArrayRealloc raw.internal raw.nResponses (raw.nResponses + 1)
  else do
    match ← malloc with
    | none => pure (false, .null)
    | some addr => pure (true, .obj ⟨addr, [Ptr.wild]⟩)

def RawMessages.add (raw : RawMessages μ) (rpbresp : Unpacked μ) :
    Booked (Bool × RawMessages μ) := do
  let (grown, internal) ← raw.grow
  if grown then do
    let array ← lift internal.deref
    let slots ← lift (C.writeAt array.slots raw.nResponses.toNat (.obj rpbresp))
    pure (true, { nResponses := raw.nResponses + 1
                  internal := .obj { array with slots := slots } })
  else pure (false, { raw with internal := internal })

/-! ### The code -/

structure RiakListResponse (μ : Type) where
  addr : Addr
  nEntries : UInt32 := 0
  entries : Ptr (PtrArray RiakBinary) := .null
  done : RiakBoolean := 0
  raw : RawMessages μ := {}

def RiakListResponse.plain (response : RiakListResponse μ) : RiakClient.RiakListResponse μ where
  nEntries := response.nEntries
  entries := response.entries.map (PtrArray.plain RiakBinary.plain)
  done := response.done
  raw := response.raw.plain

def growEntries (entries : Ptr (PtrArray RiakBinary)) (existing additional : UInt32) :
    Booked (Bool × Ptr (PtrArray RiakBinary)) :=
  match entries with
  | .null => do
      match ← malloc with
      | none => pure (false, .null)
      | some addr => pure (true, .obj ⟨addr, List.replicate additional.toNat Ptr.wild⟩)
  | _ => riakArrayRealloc entries existing (additional + existing)

def copyEntries (entries : List Bytes) (existing : UInt32) :
    Nat → Nat → List (Ptr RiakBinary) → Booked (List (Ptr RiakBinary))
  | 0, _, slots => pure slots
  | left + 1, i, slots => do
      let entry ← lift (C.readAt entries i)
      let fresh ← riakBinaryNew entry
      let copy ← lift (C.deref fresh)
      let slots ← lift (C.writeAt slots (UInt32.ofNat i + existing).toNat (.obj copy))
      copyEntries entries existing left (← lift (C.intSucc i)) slots

/-- The response so far, or a new one. -/
def existingOr : Option (RiakListResponse μ) → Booked (Option (RiakListResponse μ))
  | some response => pure (some response)
  | none => do
      match ← malloc with
      | none => pure none
      | some addr => pure (some { addr := addr })

def listResponseDecode (message : ListMessage μ) (unpack : Bytes → Option μ)
    (pbresp : RiakPbMessage) (resp : Option (RiakListResponse μ)) (done : RiakBoolean) :
    Booked (Decoded (RiakListResponse μ)) := do
  let payload ← lift pbresp.plain.payload
  match unpack payload with
  | none => pure ⟨.messageFormat, resp, done⟩
  | some rpbresp => do
      let internal ← obtain
      match ← existingOr resp with
      | none => pure ⟨.outOfMemory, resp, done⟩
      | some response => do
          let additional := UInt32.ofNat (message.entries rpbresp).length
          match ← growEntries response.entries response.nEntries additional with
          | (false, entries) =>
              pure ⟨.outOfMemory, leftIn resp { response with entries := entries }, done⟩
          | (true, entries) => do
              let array ← lift entries.deref
              let slots ← copyEntries (message.entries rpbresp) response.nEntries
                additional.toNat 0 array.slots
              let flag := doneFlag (message.hasDone rpbresp) (message.done rpbresp)
              let nEntries := response.nEntries + additional
              let entries := .obj { array with slots := slots }
              match ← response.raw.add ⟨internal, rpbresp⟩ with
              | (false, raw) =>
                  pure ⟨.outOfMemory, leftIn resp ⟨response.addr, nEntries, entries, flag, raw⟩,
                    flag⟩
              | (true, raw) =>
                  pure ⟨.ok, some ⟨response.addr, nEntries, entries, flag, raw⟩, flag⟩

/-- `array[i]`. -/
def ptrSlot (array : Ptr (PtrArray α)) (i : Nat) : C (Ptr α) := do
  C.readAt (← array.deref).slots i

/-- `riak_binary_free` of a slot. -/
def freeBinarySlot : Ptr RiakBinary → Booked Unit
  | .null => pure ()
  | .wild => lift (C.fault .wildDereference)
  | .obj bin => riakBinaryFree (some bin)

/-- `riak_free` of an array. -/
def freeArray : Ptr (PtrArray α) → Booked Unit
  | .null => pure ()
  | .wild => lift (C.fault .wildDereference)
  | .obj array => release array.addr

/-- `rpb_x_resp__free_unpacked`. -/
def freeUnpacked (message : Ptr (Unpacked μ)) : Booked Unit := do
  let message ← lift message.deref
  release message.addr

/-- The messages of a response, if it has any. -/
def RawMessages.free (raw : RawMessages μ) : Booked Unit :=
  if 0 < raw.nResponses then do
    freeLoop (fun i => do freeUnpacked (← lift (ptrSlot raw.internal i))) raw.nResponses.toNat 0
    freeArray raw.internal
  else pure ()

def listResponseFree : Option (RiakListResponse μ) → Booked Unit
  | none => pure ()
  | some response => do
      freeLoop (fun i => do freeBinarySlot (← lift (ptrSlot response.entries i)))
        response.nEntries.toNat 0
      freeArray response.entries
      response.raw.free
      release response.addr

/-! ### What an array holds -/

instance [Owns α] : Owns (Ptr α) :=
  ⟨fun p => match p with
    | .obj a => blocks a
    | _ => 0⟩

instance [Owns α] : Owns (PtrArray α) := ⟨fun array => blocks array.slots + {array.addr}⟩

instance : Owns (Unpacked μ) := ⟨fun rpbresp => {rpbresp.addr}⟩

instance : Owns (RiakListResponse μ) :=
  ⟨fun response => blocks response.entries + (blocks response.raw.internal + {response.addr})⟩

/-- An array with as many entries as are counted. -/
def Counted (n : UInt32) (array : Ptr (PtrArray α)) : Prop :=
  (array = .null ∧ n = 0) ∨
    ∃ (addr : Addr) (items : List α), array = .obj ⟨addr, items.map .obj⟩ ∧
      items.length = n.toNat

/-- Every message is in its array, and without messages there is none. -/
structure RawMessages.Whole (raw : RawMessages μ) : Prop where
  counted : Counted raw.nResponses raw.internal
  empty : raw.nResponses = 0 → raw.internal = .null

structure RiakListResponse.Whole (response : RiakListResponse μ) : Prop where
  entries : Counted response.nEntries response.entries
  raw : response.raw.Whole

theorem blocks_map_obj [Owns α] (items : List α) : blocks (items.map Ptr.obj) = blocks items := by
  induction items with
  | nil => rfl
  | cons item items ih =>
    rw [List.map_cons, blocks_cons, blocks_cons, ih]
    rfl

theorem blocks_array [Owns α] (addr : Addr) (items : List α) :
    blocks (Ptr.obj (⟨addr, items.map .obj⟩ : PtrArray α)) = blocks items + {addr} := by
  show blocks (items.map Ptr.obj) + {addr} = _
  rw [blocks_map_obj]

/-! ### What the code does to its blocks

The first free slot is set, and a copy to the front of an array keeps what is behind;
so an array of entries grows with its entries, and a message goes behind the others or
is lost. -/

section Growing

variable [Owns α]

omit [Owns α] in
theorem copyAt_map (g : α → β) (buffer bytes : List α) (offset : Nat) :
    C.copyAt (buffer.map g) offset (bytes.map g) = List.map g <$> C.copyAt buffer offset bytes := by
  unfold C.copyAt
  rw [List.length_map, List.length_map]
  by_cases hnone : bytes.length = 0
  · rw [if_pos hnone, if_pos hnone, map_pure]
  · rw [if_neg hnone, if_neg hnone]
    by_cases hfits : offset + bytes.length ≤ buffer.length
    · rw [if_pos hfits, if_pos hfits, map_pure]
      simp only [List.map_append, List.map_take, List.map_drop]
    · rw [if_neg hfits, if_neg hfits]
      rfl

omit [Owns α] in
theorem copyAt_front {n : Nat} {a : α} {bytes result : List α} {heap final : Heap}
    (h : C.copyAt (List.replicate n a) 0 bytes heap = .ok (result, final)) :
    bytes.length ≤ n ∧ result = bytes ++ List.replicate (n - bytes.length) a := by
  by_cases hfits : 0 + bytes.length ≤ (List.replicate n a).length
  · rw [C.copyAt_of_le hfits, List.take_zero, List.nil_append, List.drop_replicate,
      Nat.zero_add] at h
    rw [List.length_replicate, Nat.zero_add] at hfits
    cases h
    exact ⟨hfits, rfl⟩
  · unfold C.copyAt at h
    have hsome : bytes.length ≠ 0 := by omega
    rw [if_neg hsome, if_neg hfits] at h
    cases h

/-- What is left of an array that has to grow: one with the same entries and free slots
    behind them, or the old one. -/
def Grown (array : Ptr (PtrArray α)) (oldnum newnum : UInt32) (out : Bool × Ptr (PtrArray α))
    (after : Multiset Addr) : Prop :=
  if out.1 then ∃ (addr : Addr) (items : List α) (free : List (Ptr α)),
      out.2 = .obj ⟨addr, items.map .obj ++ free⟩ ∧ items.length = oldnum.toNat ∧
        items.length + free.length = newnum.toNat ∧ after = blocks items + {addr}
  else out.2 = array ∧ after = blocks array

theorem riakArrayRealloc_tracks (g : α → β) {addr : Addr} {items : List α}
    {oldnum newnum : UInt32} (h : items.length = oldnum.toNat) :
    Tracks (blocks (Ptr.obj (⟨addr, items.map .obj⟩ : PtrArray α)))
      (riakArrayRealloc (.obj ⟨addr, items.map .obj⟩) oldnum newnum)
      (fun out => (out.1, out.2.map (PtrArray.plain g)))
      (RiakClient.riakArrayRealloc ((Ptr.obj ⟨addr, items.map .obj⟩).map (PtrArray.plain g)) oldnum
        newnum)
      (Grown (.obj ⟨addr, items.map .obj⟩) oldnum newnum) := by
  unfold riakArrayRealloc RiakClient.riakArrayRealloc
  refine Tracks.malloc.after ?_
  rintro (_ | fresh) _ rfl
  · exact Tracks.pure ⟨rfl, zero_add _⟩
  · simp only [Option.isSome_some, if_true]
    refine (Tracks.ptr_deref (PtrArray.plain g) (.obj ⟨addr, items.map .obj⟩)).bind ?_
    rintro old _ ⟨rfl, hold⟩
    obtain rfl : (⟨addr, items.map .obj⟩ : PtrArray α) = old := by
      injection hold
    have hlength : (items.map Ptr.obj).length = oldnum.toNat := by
      rw [List.length_map, h]
    have htaken : (items.map Ptr.obj).take oldnum.toNat = items.map Ptr.obj := by
      rw [← hlength, List.take_length]
    have hroom : ¬ (items.map Ptr.obj).length < oldnum.toNat := by
      rw [hlength]
      exact Nat.lt_irrefl _
    have hplain : ¬ ((items.map Ptr.obj).map (Ptr.map g)).length < oldnum.toNat := by
      rw [List.length_map]
      exact hroom
    have hcopy : C.copyAt (List.replicate newnum.toNat Ptr.null) 0
          (((items.map Ptr.obj).map (Ptr.map g)).take oldnum.toNat) =
        List.map (Ptr.map g) <$> C.copyAt (List.replicate newnum.toNat Ptr.null) 0
          (items.map Ptr.obj) := by
      rw [← List.map_take, htaken, ← copyAt_map, List.map_replicate]
      rfl
    show Tracks _ (if (items.map Ptr.obj).length < oldnum.toNat then _ else _) _
      (if ((items.map Ptr.obj).map (Ptr.map g)).length < oldnum.toNat then _ else
        C.copyAt (List.replicate newnum.toNat Ptr.null) 0
          (((items.map Ptr.obj).map (Ptr.map g)).take oldnum.toNat) >>= _) _
    rw [if_neg hroom, if_neg hplain, htaken, hcopy]
    refine (Tracks.lift_map _ _).bind ?_
    rintro slots _ ⟨rfl, _, _, hslots⟩
    obtain ⟨hfits, rfl⟩ := copyAt_front hslots
    have hsplit : blocks (some fresh) + blocks (Ptr.obj (⟨addr, items.map .obj⟩ : PtrArray α)) =
        {addr} + (blocks items + {fresh}) := by
      rw [blocks_array, blocks_some, blocks_addr]
      abel
    refine (Tracks.release addr).frees hsplit (Tracks.pure ⟨fresh, items, _, rfl, h, ?_, rfl⟩)
    rw [List.length_map] at hfits ⊢
    rw [List.length_replicate]
    exact Nat.add_sub_of_le hfits

theorem Counted.realloc_tracks (g : α → β) {oldnum newnum : UInt32} {array : Ptr (PtrArray α)}
    (h : Counted oldnum array) (hsome : array ≠ .null) :
    Tracks (blocks array) (riakArrayRealloc array oldnum newnum)
      (fun out => (out.1, out.2.map (PtrArray.plain g)))
      (RiakClient.riakArrayRealloc (array.map (PtrArray.plain g)) oldnum newnum)
      (Grown array oldnum newnum) := by
  obtain ⟨hnone, _⟩ | ⟨addr, items, rfl, hlength⟩ := h
  · exact absurd hnone hsome
  · exact riakArrayRealloc_tracks g hlength

end Growing

theorem RawMessages.grow_tracks {raw : RawMessages μ} (h : raw.Whole) :
    Tracks (blocks raw.internal) raw.grow
      (fun out => (out.1, out.2.map (PtrArray.plain Unpacked.message)))
      (if 0 < raw.nResponses then
          RiakClient.riakArrayRealloc raw.plain.internal raw.nResponses (raw.nResponses + 1)
        else C.new [Ptr.wild] >>= fun slots => match slots with
          | none => pure (false, .null)
          | some slots => pure (true, .obj slots))
      (Grown raw.internal raw.nResponses (raw.nResponses + 1)) := by
  unfold RawMessages.grow
  by_cases hsome : 0 < raw.nResponses
  · rw [if_pos hsome, if_pos hsome]
    refine h.counted.realloc_tracks Unpacked.message fun hnull => ?_
    obtain ⟨_, hzero⟩ | ⟨addr, items, harray, _⟩ := h.counted
    · rw [hzero] at hsome
      exact absurd hsome (by decide)
    · rw [hnull] at harray
      cases harray
  · rw [if_neg hsome, if_neg hsome]
    have hzero : raw.nResponses = 0 := by
      rw [UInt32.lt_iff_toNat_lt, UInt32.toNat_zero] at hsome
      exact UInt32.toNat_inj.mp (Nat.eq_zero_of_not_pos hsome)
    have hnull := h.empty hzero
    unfold C.new
    rw [bind_assoc, hnull, hzero]
    refine Tracks.malloc.bind ?_
    rintro (_ | addr) _ rfl
    · exact Tracks.pure ⟨rfl, rfl⟩
    · exact Tracks.pure ⟨addr, [], [.wild], rfl, rfl, rfl, (zero_add _).symm⟩

theorem writeAt_behind (items : List α) (slot : Ptr α) (free : List (Ptr α)) (a : α) :
    C.writeAt (items.map Ptr.obj ++ slot :: free) items.length (.obj a) =
      pure ((items ++ [a]).map Ptr.obj ++ free) := by
  have hlength : (items.map Ptr.obj).length = items.length := List.length_map ..
  rw [C.writeAt_of_lt (by rw [List.length_append, List.length_cons, hlength]; omega)]
  rw [← hlength, List.set_append_right _ _ (Nat.le_refl _), Nat.sub_self, List.set_cons_zero,
    List.map_append, List.append_assoc]
  rfl

theorem writeAt_behind_plain (g : α → β) (items : List α) (slot : Ptr α) (free : List (Ptr α))
    (a : α) :
    C.writeAt ((items.map Ptr.obj ++ slot :: free).map (Ptr.map g)) items.length (.obj (g a)) =
      pure (((items ++ [a]).map Ptr.obj ++ free).map (Ptr.map g)) := by
  have hplain : ∀ (items : List α) (free : List (Ptr α)),
      (items.map Ptr.obj ++ free).map (Ptr.map g) =
        (items.map g).map Ptr.obj ++ free.map (Ptr.map g) := by
    intro items free
    rw [List.map_append, List.map_map, List.map_map]
    rfl
  have hwrite := writeAt_behind (items.map g) (slot.map g) (free.map (Ptr.map g)) (g a)
  rw [List.length_map] at hwrite
  rw [hplain, hplain, List.map_cons, hwrite, List.map_append (f := g)]
  rfl

theorem rawMessages_add_eq (raw : RiakClient.RawMessages μ) (rpbresp : μ) :
    raw.add rpbresp =
      (if 0 < raw.nResponses then
          RiakClient.riakArrayRealloc raw.internal raw.nResponses (raw.nResponses + 1)
        else C.new [Ptr.wild] >>= fun slots => match slots with
          | none => pure (false, .null)
          | some slots => pure (true, .obj slots)) >>= fun out =>
        if out.1 then do
          let array ← out.2.deref
          let slots ← C.writeAt array raw.nResponses.toNat (.obj rpbresp)
          pure (true, { nResponses := raw.nResponses + 1, internal := .obj slots })
        else pure (false, { raw with internal := out.2 }) := by
  unfold RiakClient.RawMessages.add
  by_cases hsome : 0 < raw.nResponses
  · simp only [if_pos hsome]
  · simp only [if_neg hsome, bind_assoc]
    refine congrArg _ (funext fun slots => ?_)
    cases slots <;> rfl

theorem RawMessages.Whole.add_tracks {raw : RawMessages μ} (h : raw.Whole) (rpbresp : Unpacked μ) :
    Tracks (blocks raw.internal + {rpbresp.addr}) (raw.add rpbresp)
      (fun out => (out.1, out.2.plain)) (RiakClient.RawMessages.add raw.plain rpbresp.message)
      fun out after => ∃ lost, after = blocks out.2.internal + lost ∧ out.2.Whole ∧
        (out.1 = true → lost = 0) := by
  rw [rawMessages_add_eq]
  refine (RawMessages.grow_tracks h).step rfl ?_
  rintro ⟨grown, internal⟩ own hgrown
  cases grown with
  | false =>
    obtain ⟨rfl, rfl⟩ := hgrown
    exact Tracks.pure ⟨{rpbresp.addr}, rfl, h, nofun⟩
  | true =>
    obtain ⟨addr, items, free, rfl, hlength, hroom, rfl⟩ := hgrown
    have hnext : (raw.nResponses + 1).toNat = items.length + 1 := by
      rw [UInt32.toNat_add, UInt32.toNat_one] at hroom ⊢
      have hlt := raw.nResponses.toNat_lt
      omega
    obtain ⟨slot, rfl⟩ : ∃ slot, free = [slot] := by
      apply List.length_eq_one_iff.mp
      omega
    have hplain : ((Ptr.obj ⟨addr, items.map .obj ++ [slot]⟩).map
        (PtrArray.plain Unpacked.message)).deref =
        pure ((items.map Ptr.obj ++ [slot]).map (Ptr.map Unpacked.message)) := rfl
    have hcount : raw.plain.nResponses = raw.nResponses := rfl
    simp only [if_true, Ptr.deref_obj, lift_pure, pure_bind, hplain, hcount, ← hlength,
      writeAt_behind, writeAt_behind_plain, List.append_nil]
    refine Tracks.pure ⟨0, ?_, ⟨Or.inr ⟨addr, items ++ [rpbresp], rfl, ?_⟩, fun hzero => ?_⟩,
      fun _ => rfl⟩
    · show blocks items + {addr} + {rpbresp.addr} =
        blocks (Ptr.obj (⟨addr, (items ++ [rpbresp]).map .obj⟩ : PtrArray (Unpacked μ))) + 0
      rw [blocks_array, blocks_append]
      show _ = blocks items + ({rpbresp.addr} + 0) + {addr} + 0
      abel
    · rw [List.length_append]
      exact hnext.symm
    · have hwrapped : raw.nResponses + 1 = 0 := hzero
      rw [hwrapped, UInt32.toNat_zero] at hnext
      omega

/-! ### The decoder

The entries stay, there is room for the others, and the free slots are filled with
copies. A response that cannot take a message is still the response, and a new one is
lost. -/

/-- "Existing keys need some expansion": the entries stay, and there is room for the
    others. -/
theorem growEntries_tracks {entries : Ptr (PtrArray RiakBinary)} {existing : UInt32}
    (h : Counted existing entries) (additional : UInt32) :
    Tracks (blocks entries) (growEntries entries existing additional)
      (fun out => (out.1, out.2.map (PtrArray.plain RiakBinary.plain)))
      (RiakClient.growEntries (entries.map (PtrArray.plain RiakBinary.plain)) existing additional)
      (Grown entries existing (additional + existing)) := by
  obtain ⟨rfl, rfl⟩ | ⟨addr, items, rfl, hlength⟩ := h
  · unfold growEntries RiakClient.growEntries C.new
    simp only [Ptr.map, bind_assoc]
    refine Tracks.malloc.bind ?_
    rintro (_ | addr) _ rfl
    · exact Tracks.pure ⟨rfl, rfl⟩
    · refine Tracks.pure_of ?_ ⟨addr, [], List.replicate additional.toNat .wild, rfl, rfl, ?_,
        (zero_add _).symm⟩
      · exact congrArg (fun slots => (true, Ptr.obj slots)) List.map_replicate
      · rw [List.length_nil, List.length_replicate, UInt32.add_zero, Nat.zero_add]
  · exact riakArrayRealloc_tracks RiakBinary.plain hlength

theorem copyEntries_tracks (entries : List Bytes) (existing : UInt32) :
    ∀ (left i : Nat) (items : List RiakBinary) (free : List (Ptr RiakBinary)),
      items.length = existing.toNat + i → free.length = left → items.length + left < 2 ^ 32 →
      Tracks (blocks items) (copyEntries entries existing left i (items.map .obj ++ free))
        (List.map (Ptr.map RiakBinary.plain))
        (RiakClient.copyEntries entries existing left i
          ((items.map Ptr.obj ++ free).map (Ptr.map RiakBinary.plain)))
        fun out after => ∃ items' : List RiakBinary, out = items'.map .obj ∧
          items'.length = items.length + left ∧ after = blocks items' := by
  intro left
  induction left with
  | zero =>
    intro i items free _ hfree _
    obtain rfl := List.length_eq_zero_iff.mp hfree
    exact Tracks.pure ⟨items, List.append_nil _, rfl, rfl⟩
  | succ left ih =>
    intro i items free hitems hfree hroom
    obtain ⟨slot, free, rfl⟩ : ∃ slot later, free = slot :: later := by
      cases free with
      | nil => cases hfree
      | cons slot later => exact ⟨slot, later, rfl⟩
    rw [List.length_cons, Nat.add_right_cancel_iff] at hfree
    have hindex : (UInt32.ofNat i + existing).toNat = items.length := by
      rw [UInt32.toNat_add, UInt32.toNat_ofNat']
      omega
    unfold copyEntries RiakClient.copyEntries
    refine Tracks.lift_bind ?_
    intro entry _ _ _
    refine (riakBinaryNew_tracks entry).after ?_
    rintro fresh _ rfl
    refine (Tracks.deref RiakBinary.plain fresh).bind ?_
    rintro copy _ ⟨rfl, rfl⟩
    simp only [hindex, writeAt_behind, writeAt_behind_plain, lift_pure, pure_bind]
    refine Tracks.lift_bind ?_
    intro next heap final hsucc
    obtain ⟨_, rfl, _⟩ := C.intSucc_eq_ok.mp hsucc
    have hlength : (items ++ [copy]).length = items.length + 1 := by
      rw [List.length_append, List.length_singleton]
    have hblocks : blocks (some copy) + blocks items = blocks (items ++ [copy]) := by
      rw [blocks_append]
      show blocks copy + blocks items = blocks items + (blocks copy + 0)
      abel
    rw [hblocks]
    refine (ih (i + 1) (items ++ [copy]) free (by omega) hfree (by omega)).mono ?_
    rintro out after ⟨items', hout, hcount, hafter⟩
    exact ⟨items', hout, by omega, hafter⟩

theorem existingOr_tracks {resp : Option (RiakListResponse μ)}
    (h : WholeOrNull RiakListResponse.Whole resp) :
    Tracks (blocks resp) (existingOr resp) (Option.map RiakListResponse.plain)
      (RiakClient.existingOr (resp.map RiakListResponse.plain) {})
      fun out after => after = blocks out ∧ WholeOrNull RiakListResponse.Whole out ∧
        (resp ≠ none → out = resp) := by
  cases resp with
  | some response => exact Tracks.pure ⟨rfl, h, fun _ => rfl⟩
  | none =>
    unfold existingOr
    refine Tracks.malloc.bind ?_
    rintro (_ | addr) _ rfl
    · exact Tracks.pure ⟨rfl, nofun, fun hsome => absurd rfl hsome⟩
    · refine Tracks.pure ⟨(zero_add _).symm, ?_, fun hsome => absurd rfl hsome⟩
      rintro _ ⟨⟩
      exact ⟨Or.inl ⟨rfl, rfl⟩, ⟨Or.inl ⟨rfl, rfl⟩, fun _ => rfl⟩⟩

theorem leftIn_plain (resp : Option (RiakListResponse μ)) (response : RiakListResponse μ) :
    (leftIn resp response).map RiakListResponse.plain =
      leftIn (resp.map RiakListResponse.plain) response.plain := by
  cases resp <;> rfl

theorem DecodeLeaves.leftIn {Open Sound : Option (RiakListResponse μ) → Prop} {err : RiakError}
    (herr : err ≠ .ok) (resp : Option (RiakListResponse μ)) (response : RiakListResponse μ)
    (done : RiakBoolean) (lost : Multiset Addr) :
    DecodeLeaves Open Sound ⟨err, leftIn resp response, done⟩ (blocks response + lost) := by
  cases resp with
  | none => exact DecodeLeaves.failed herr _
  | some _ => exact ⟨lost, rfl, fun hok => absurd hok herr⟩

/-- **A message that is taken into a listing is all in the response**, whatever came
    before it. -/
theorem listResponseDecode_tracks (message : ListMessage μ) (unpack : Bytes → Option μ)
    (pbresp : RiakPbMessage) {resp : Option (RiakListResponse μ)}
    (h : WholeOrNull RiakListResponse.Whole resp) (done : RiakBoolean) :
    Tracks (blocks resp) (listResponseDecode message unpack pbresp resp done)
      (decodedMap RiakListResponse.plain)
      (RiakClient.listResponseDecode message unpack pbresp.plain
        (resp.map RiakListResponse.plain) done)
      (DecodeLeaves (WholeOrNull RiakListResponse.Whole)
        (WholeOrNull RiakListResponse.Whole)) := by
  unfold listResponseDecode RiakClient.listResponseDecode
  refine Tracks.lift_bind ?_
  intro payload _ _ _
  cases unpack payload with
  | none =>
    exact Tracks.pure ⟨0, (add_zero _).symm,
      fun (hok : RiakError.messageFormat = .ok) => absurd hok (by decide)⟩
  | some rpbresp =>
    refine Tracks.obtain.silent (zero_add _).symm ?_
    rintro internal _ rfl
    refine (existingOr_tracks h).step (add_comm _ _) ?_
    rintro (_ | response) _ ⟨rfl, hwhole, hsame⟩
    · obtain rfl : resp = none := by
        by_contra hsome
        exact hsome (hsame hsome).symm
      exact Tracks.pure (DecodeLeaves.failed (by decide) _)
    obtain ⟨hentries, hraw⟩ := hwhole response rfl
    have hsplit : blocks (some response) + {internal} = blocks response.entries +
        (blocks response.raw.internal + {response.addr} + {internal}) := by
      show blocks response.entries + (blocks response.raw.internal + {response.addr}) + _ = _
      abel
    simp only [Option.map_some]
    refine (growEntries_tracks hentries _).step hsplit ?_
    rintro ⟨grown, entries⟩ own hgrown
    cases grown with
    | false =>
      obtain ⟨rfl, rfl⟩ := hgrown
      refine Tracks.pure_of ?_ ?_
      · exact congrArg (fun resp => Decoded.mk .outOfMemory resp done) (leftIn_plain resp _)
      · rw [← hsplit]
        exact DecodeLeaves.leftIn (by decide) resp response done _
    | true =>
      obtain ⟨addr, items, free, rfl, hlength, hroom, rfl⟩ := hgrown
      have hplain : ((Ptr.obj ⟨addr, items.map .obj ++ free⟩).map
          (PtrArray.plain RiakBinary.plain)).deref =
          pure ((items.map Ptr.obj ++ free).map (Ptr.map RiakBinary.plain)) := rfl
      simp only [Ptr.deref_obj, lift_pure, pure_bind, hplain]
      have hspace : free.length = (UInt32.ofNat (message.entries rpbresp).length).toNat := by
        rw [UInt32.toNat_add] at hroom
        have hlt := response.nEntries.toNat_lt
        have hlt' := (UInt32.ofNat (message.entries rpbresp).length).toNat_lt
        omega
      have hfew : items.length + free.length < 2 ^ 32 := by
        rw [hroom]
        exact UInt32.toNat_lt _
      have hcopies := copyEntries_tracks (message.entries rpbresp) response.nEntries free.length 0
        items free hlength rfl hfew
      rw [hspace] at hcopies
      refine hcopies.step (add_assoc _ _ _) ?_
      rintro _ _ ⟨items', rfl, hlength', rfl⟩
      have htaken : blocks items' + ({addr} + (blocks response.raw.internal + {response.addr} +
            {internal})) =
          blocks response.raw.internal + {internal} +
            (blocks items' + {addr} + {response.addr}) := by abel
      refine (hraw.add_tracks ⟨internal, rpbresp⟩).step htaken ?_
      rintro ⟨added, raw⟩ _ ⟨lost, rfl, hraw', hkept⟩
      have hblocks : ∀ (nEntries : UInt32) (flag : RiakBoolean),
          blocks raw.internal + lost + (blocks items' + {addr} + {response.addr}) =
            blocks (⟨response.addr, nEntries, .obj ⟨addr, items'.map .obj⟩, flag, raw⟩ :
              RiakListResponse μ) + lost := by
        intro nEntries flag
        show _ = blocks (Ptr.obj (⟨addr, items'.map .obj⟩ : PtrArray RiakBinary)) +
          (blocks raw.internal + {response.addr}) + lost
        rw [blocks_array]
        abel
      cases added with
      | false =>
        refine Tracks.pure_of ?_ ?_
        · exact congrArg (fun resp => Decoded.mk .outOfMemory resp _) (leftIn_plain resp _)
        · rw [hblocks]
          exact DecodeLeaves.leftIn (by decide) resp _ _ lost
      | true =>
        obtain rfl := hkept rfl
        have hfull : WholeOrNull RiakListResponse.Whole (some ⟨response.addr,
            response.nEntries + UInt32.ofNat (message.entries rpbresp).length,
            .obj ⟨addr, items'.map .obj⟩, doneFlag (message.hasDone rpbresp)
              (message.done rpbresp), raw⟩) := by
          rintro _ ⟨⟩
          refine ⟨Or.inr ⟨addr, items', rfl, ?_⟩, hraw'⟩
          rw [hlength', ← hspace, hroom, UInt32.add_comm]
        exact Tracks.pure ⟨0, hblocks _ _, fun _ => ⟨rfl, hfull, fun _ => hfull⟩⟩

/-! ### Freeing a listing

The freeing loops count with an `int`, so entries are freed if one can count them; the
messages are freed one after another, and each of them is there. -/

theorem freeArray_tracks {γ : Type} (g : PtrArray α → γ) (array : Ptr (PtrArray α)) :
    Tracks (blocks (array.map PtrArray.addr)) (freeArray array) (fun _ => ())
      (riakFree (array.map g)) fun _ after => after = 0 := by
  cases array with
  | null => exact Tracks.pure rfl
  | wild => exact Tracks.fault .wildDereference
  | obj array => exact Tracks.release array.addr

theorem Counted.freeEntries_tracks [Owns α] {g : α → β} {freeEntry : Ptr α → Booked Unit}
    {plainFree : Ptr β → C Unit}
    (hentry : ∀ item, Tracks (blocks item) (freeEntry (.obj item)) (fun _ => ())
      (plainFree (.obj (g item))) fun _ after => after = 0)
    {n : UInt32} {array : Ptr (PtrArray α)} (h : Counted n array) :
    Tracks (blocks array) (freeLoop (fun i => do freeEntry (← lift (ptrSlot array i))) n.toNat 0)
      (fun _ => ())
      (RiakClient.freeLoop (fun i => do plainFree (← slotAt (array.map (PtrArray.plain g)) i))
        n.toNat 0)
      fun _ after => after = blocks (array.map PtrArray.addr) := by
  obtain ⟨rfl, rfl⟩ | ⟨addr, items, rfl, hlength⟩ := h
  · exact Tracks.pure rfl
  · have hslot : ∀ j item, items[j]? = some item →
        ptrSlot (.obj ⟨addr, items.map .obj⟩) (0 + j) = pure (.obj item) ∧
          slotAt ((Ptr.obj ⟨addr, items.map .obj⟩).map (PtrArray.plain g)) (0 + j) =
            pure (.obj (g item)) := by
      intro j item hitem
      rw [Nat.zero_add]
      refine ⟨C.readAt_of_get ?_, C.readAt_of_get ?_⟩
      · rw [List.getElem?_map, hitem]
        rfl
      · show ((items.map Ptr.obj).map (Ptr.map g))[j]? = _
        rw [List.getElem?_map, List.getElem?_map, hitem]
        rfl
    rw [← hlength, blocks_array]
    refine Tracks.mono (Tracks.frame (freeLoop_tracks items 0 ?_) {addr}) ?_
    · intro j item hitem
      obtain ⟨hstored, hplain⟩ := hslot j item hitem
      rw [hstored, hplain]
      exact hentry item
    · rintro _ _ ⟨own, rfl, rfl⟩
      exact zero_add _

theorem freeUnpacked_tracks (rpbresp : Unpacked μ) :
    Tracks (blocks rpbresp) (freeUnpacked (.obj rpbresp)) (fun _ => ())
      (RiakClient.freeUnpacked (.obj rpbresp.message)) fun _ after => after = 0 :=
  Tracks.release rpbresp.addr

theorem RawMessages.Whole.free_tracks {raw : RawMessages μ} (h : raw.Whole) :
    Tracks (blocks raw.internal) raw.free (fun _ => ())
      (if 0 < raw.nResponses then
          RiakClient.freeLoop (fun i => do
            RiakClient.freeUnpacked (← slotAt raw.plain.internal i)) raw.nResponses.toNat 0 >>=
            fun _ => riakFree raw.plain.internal
        else pure ())
      fun _ after => after = 0 := by
  unfold RawMessages.free
  by_cases hsome : 0 < raw.nResponses
  · rw [if_pos hsome, if_pos hsome]
    refine (h.counted.freeEntries_tracks freeUnpacked_tracks).bind ?_
    rintro _ _ rfl
    exact freeArray_tracks _ raw.internal
  · have hzero : raw.nResponses = 0 := by
      rw [UInt32.lt_iff_toNat_lt, UInt32.toNat_zero] at hsome
      exact UInt32.toNat_inj.mp (Nat.eq_zero_of_not_pos hsome)
    rw [if_neg hsome, if_neg hsome, h.empty hzero]
    exact Tracks.pure rfl

theorem listResponseFree_eq (response : RiakClient.RiakListResponse μ) :
    RiakClient.listResponseFree (some response) =
      RiakClient.freeLoop (fun i => do
        RiakClient.riakBinaryFree (← slotAt response.entries i)) response.nEntries.toNat 0 >>=
        fun _ => riakFree response.entries >>= fun _ =>
        (if 0 < response.raw.nResponses then
          RiakClient.freeLoop (fun i => do
            RiakClient.freeUnpacked (← slotAt response.raw.internal i))
            response.raw.nResponses.toNat 0 >>= fun _ => riakFree response.raw.internal
        else pure ()) >>= fun _ => pure none := by
  unfold RiakClient.listResponseFree
  by_cases hsome : 0 < response.raw.nResponses
  · simp only [if_pos hsome, bind_assoc]
  · simp only [if_neg hsome, pure_bind]

/-- **A listing is freed with everything that is in it.** -/
theorem listResponseFree_tracks {resp : Option (RiakListResponse μ)}
    (h : WholeOrNull RiakListResponse.Whole resp) :
    Tracks (blocks resp) (listResponseFree resp) (fun _ => none)
      (RiakClient.listResponseFree (resp.map RiakListResponse.plain))
      fun _ after => after = 0 := by
  cases resp with
  | none => exact Tracks.pure rfl
  | some response =>
    obtain ⟨hentries, hraw⟩ := h response rfl
    have hbinary : ∀ bin : RiakBinary, Tracks (blocks bin) (freeBinarySlot (.obj bin))
        (fun _ => ()) (RiakClient.riakBinaryFree (.obj bin.plain)) fun _ after => after = 0 :=
      fun bin => riakBinaryFree_tracks (some bin)
    rw [Option.map_some, listResponseFree_eq]
    refine (hentries.freeEntries_tracks hbinary).step rfl ?_
    rintro _ _ rfl
    refine (freeArray_tracks _ response.entries).step rfl ?_
    rintro _ _ rfl
    refine hraw.free_tracks.step (zero_add _) ?_
    rintro _ _ rfl
    rw [zero_add]
    exact (Tracks.release response.addr).map fun _ => none

end RiakClient.Stored
