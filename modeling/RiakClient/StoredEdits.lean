import RiakClient.Collections
import RiakClient.StoredListings

/-!
# What becomes of an object that a program makes

`riak_object_new`, the setters of the object, the functions that add a link or a pair to
it and those that find one again for its own setters, in any order, and
`riak_object_free` at the end. An array that grows is moved and what it holds goes with
it. But a setter does not free what it replaces, so a program gets everything back if
and only if it never sets a member that is there.
-/

namespace RiakClient

open CSem

variable {α β : Type}

/-! ### Programs -/

def riakObjectNew : C (Option RiakObject) := C.new {}

/-- The three functions that find an entry. The count is compared as an unsigned one. -/
def objectGetEntry (n : Int) (array : Option (List (Option α))) (i : UInt32) :
    C (RiakError × Option α) :=
  if UInt32.ofInt n ≤ i then pure (.outOfRange, none)
  else do
    let entry ← C.readAt (← C.deref array) i.toNat
    pure (.ok, entry)

def riakObjectGetLink (obj : RiakObject) (n : UInt32) : C (RiakError × Option RiakLink) :=
  objectGetEntry obj.nLinks obj.links n

def riakObjectGetUsermeta (obj : RiakObject) (n : UInt32) : C (RiakError × Option RiakPair) :=
  objectGetEntry obj.nUsermeta obj.usermeta n

def riakObjectGetIndex (obj : RiakObject) (n : UInt32) : C (RiakError × Option RiakPair) :=
  objectGetEntry obj.nIndexes obj.indexes n

/-- A setter of an entry that has been found, which changes it where it is. -/
def editEntry (found : C (RiakError × Option α)) (array : Option (List (Option α))) (i : UInt32)
    (set : α → C (RiakError × α)) : C (Bool × Option (List (Option α))) := do
  let (err, entry) ← found
  if err ≠ .ok then pure (false, array)
  else do
    let (err, entry) ← set (← C.deref entry)
    pure (decide (err = .ok), array.map fun slots => slots.set i.toNat (some entry))

/-- A call on an object, or on an entry of it. -/
inductive ObjectEdit where
  | set (call : ObjectCall)
  | add (call : CollectionCall)
  | linkSet (n : UInt32) (call : LinkCall)
  | usermetaSet (n : UInt32) (call : PairCall)
  | indexSet (n : UInt32) (call : PairCall)

/-- Whether a call went well, and the object behind it. -/
def ObjectEdit.call (obj : RiakObject) : ObjectEdit → C (Bool × RiakObject)
  | set call => do
      let (err, obj) ← objectSetters.run obj call
      pure (decide (err = .ok), obj)
  | add call => call.call obj
  | linkSet n call => do
      let (well, links) ← editEntry (riakObjectGetLink obj n) obj.links n (linkSetters.run · call)
      pure (well, { obj with links := links })
  | usermetaSet n call => do
      let (well, usermeta) ←
        editEntry (riakObjectGetUsermeta obj n) obj.usermeta n (pairSetters.run · call)
      pure (well, { obj with usermeta := usermeta })
  | indexSet n call => do
      let (well, indexes) ←
        editEntry (riakObjectGetIndex obj n) obj.indexes n (pairSetters.run · call)
      pure (well, { obj with indexes := indexes })

/-- One call after another. -/
def editObject (obj : RiakObject) : List ObjectEdit → C (List Bool × RiakObject)
  | [] => pure ([], obj)
  | edit :: edits => do
      let (well, obj) ← edit.call obj
      let (results, obj) ← editObject obj edits
      pure (well :: results, obj)

/-- A program that makes an object. -/
def objectProgram (edits : List ObjectEdit) : C (Option (List Bool)) := do
  match ← riakObjectNew with
  | none => pure none
  | some obj => do
      let (results, _) ← editObject obj edits
      pure (some results)

/-! ### What is replaced -/

def ObjectCall.replaces (obj : RiakObject) : ObjectCall → Option RiakBinary
  | bucket _ => obj.bucket
  | bucketType _ => obj.bucketType
  | key _ => obj.key
  | value _ | valueShallowCopy _ => obj.value
  | charset _ => obj.charset
  | contentType _ => obj.contentType
  | contentEncoding _ => obj.encoding
  | vtag _ => obj.vtag
  | lastMod _ | lastModUsecs _ | deleted _ => none

def LinkCall.replaces (link : RiakLink) : LinkCall → Option RiakBinary
  | bucket _ => link.bucket
  | key _ => link.key
  | tag _ => link.tag

def PairCall.replaces (pair : RiakPair) : PairCall → Option RiakBinary
  | key _ => pair.key
  | value _ => pair.value

/-- An entry, if there is one. -/
def entryIn (n : Int) (array : Option (List (Option α))) (i : UInt32) : Option α :=
  if UInt32.ofInt n ≤ i then none else array.bind fun slots => slots[i.toNat]?.join

/-- The binary that is in the member that a call sets. -/
def ObjectEdit.replaces (obj : RiakObject) : ObjectEdit → Option RiakBinary
  | set call => call.replaces obj
  | add _ => none
  | linkSet n call => (entryIn obj.nLinks obj.links n).bind call.replaces
  | usermetaSet n call => (entryIn obj.nUsermeta obj.usermeta n).bind call.replaces
  | indexSet n call => (entryIn obj.nIndexes obj.indexes n).bind call.replaces

/-- No call of a program sets a member that is there. -/
def NothingReplaced (edits : List ObjectEdit) (heap : Heap) : Prop :=
  ∀ obj rest, riakObjectNew heap = .ok (some obj, rest) →
    C.AlongCalls ObjectEdit.call (fun obj edit _ => edit.replaces obj = none) obj rest edits

theorem entryIn_map (g : α → β) (n : Int) (array : Option (List (Option α))) (i : UInt32) :
    entryIn n (array.map (List.map (Option.map g))) i = (entryIn n array i).map g := by
  unfold entryIn
  by_cases hrange : UInt32.ofInt n ≤ i
  · rw [if_pos hrange, if_pos hrange]
    rfl
  · rw [if_neg hrange, if_neg hrange]
    cases array with
    | none => rfl
    | some slots =>
      show (slots.map (Option.map g))[i.toNat]?.join = slots[i.toNat]?.join.map g
      rw [List.getElem?_map]
      cases slots[i.toNat]? <;> rfl

namespace Stored

open Booked

/-! ### The code -/

def riakObjectNew : Booked (Option RiakObject) := structNew fun addr => { addr := addr }

def riakLinkNew : Booked (Option RiakLink) := structNew fun addr => { addr := addr }

def riakPairNew : Booked (Option RiakPair) := structNew fun addr => { addr := addr }

def riakBinaryCopyShallow (bin : Option RiakClient.RiakBinary) : Booked (Option RiakBinary) := do
  let b ← lift (C.deref bin)
  match ← malloc with
  | none => pure none
  | some addr => pure (some ⟨addr, none, b.data, false⟩)

/-- Every setter of a binary: what was there before is not freed. -/
def storeCopy {σ : Type} (copy : Booked (Option RiakBinary)) (store : Option RiakBinary → σ) :
    Booked (RiakError × σ) := do
  let copy ← copy
  pure (if copy.isSome then .ok else .outOfMemory, store copy)

def riakObjectSetBucket (obj : RiakObject) (value : Option RiakClient.RiakBinary) :
    Booked (RiakError × RiakObject) :=
  storeCopy (riakBinaryCopy value) fun copy => { obj with bucket := copy }

def riakObjectSetBucketType (obj : RiakObject) (value : Option RiakClient.RiakBinary) :
    Booked (RiakError × RiakObject) :=
  storeCopy (riakBinaryCopy value) fun copy =>
    { obj with bucketType := copy, hasBucketType := copy.isSome || obj.hasBucketType }

def riakObjectSetKey (obj : RiakObject) (value : Option RiakClient.RiakBinary) :
    Booked (RiakError × RiakObject) :=
  storeCopy (riakBinaryCopy value) fun copy =>
    { obj with key := copy, hasKey := copy.isSome || obj.hasKey }

def riakObjectSetValue (obj : RiakObject) (value : Option RiakClient.RiakBinary) :
    Booked (RiakError × RiakObject) :=
  storeCopy (riakBinaryCopy value) fun copy => { obj with value := copy }

def riakObjectSetValueShallowCopy (obj : RiakObject) (value : Option RiakClient.RiakBinary) :
    Booked (RiakError × RiakObject) :=
  storeCopy (riakBinaryCopyShallow value) fun copy => { obj with value := copy }

def riakObjectSetCharset (obj : RiakObject) (value : Option RiakClient.RiakBinary) :
    Booked (RiakError × RiakObject) :=
  storeCopy (riakBinaryCopy value) fun copy =>
    { obj with charset := copy, hasCharset := copy.isSome || obj.hasCharset }

def riakObjectSetContentType (obj : RiakObject) (value : Option RiakClient.RiakBinary) :
    Booked (RiakError × RiakObject) :=
  storeCopy (riakBinaryCopy value) fun copy =>
    { obj with contentType := copy, hasContentType := copy.isSome || obj.hasContentType }

def riakObjectSetContentEncoding (obj : RiakObject) (value : Option RiakClient.RiakBinary) :
    Booked (RiakError × RiakObject) :=
  storeCopy (riakBinaryCopy value) fun copy =>
    { obj with encoding := copy, hasContentEncoding := copy.isSome || obj.hasContentEncoding }

def riakObjectSetVtag (obj : RiakObject) (value : Option RiakClient.RiakBinary) :
    Booked (RiakError × RiakObject) :=
  storeCopy (riakBinaryCopy value) fun copy =>
    { obj with vtag := copy, hasVtag := copy.isSome || obj.hasVtag }

def setObject (obj : RiakObject) : ObjectCall → Booked (RiakError × RiakObject)
  | .bucket value => riakObjectSetBucket obj value
  | .bucketType value => riakObjectSetBucketType obj value
  | .key value => riakObjectSetKey obj value
  | .value value => riakObjectSetValue obj value
  | .valueShallowCopy value => riakObjectSetValueShallowCopy obj value
  | .charset value => riakObjectSetCharset obj value
  | .lastMod value => pure (.ok, { obj with lastMod := value, hasLastMod := true })
  | .lastModUsecs value => pure (.ok, { obj with lastModUsecs := value, hasLastModUsecs := true })
  | .contentType value => riakObjectSetContentType obj value
  | .contentEncoding value => riakObjectSetContentEncoding obj value
  | .deleted value => pure (.ok, { obj with deleted := value, hasDeleted := true })
  | .vtag value => riakObjectSetVtag obj value

def setLink (link : RiakLink) : LinkCall → Booked (RiakError × RiakLink)
  | .bucket value => storeCopy (riakBinaryCopy value) fun copy =>
      { link with bucket := copy, hasBucket := copy.isSome || link.hasBucket }
  | .key value => storeCopy (riakBinaryCopy value) fun copy =>
      { link with key := copy, hasKey := copy.isSome || link.hasKey }
  | .tag value => storeCopy (riakBinaryCopy value) fun copy =>
      { link with tag := copy, hasTag := copy.isSome || link.hasTag }

def setPair (pair : RiakPair) : PairCall → Booked (RiakError × RiakPair)
  | .key value => storeCopy (riakBinaryCopy value) fun copy => { pair with key := copy }
  | .value value => storeCopy (riakBinaryCopy value) fun copy =>
      { pair with value := copy, hasValue := copy.isSome || pair.hasValue }

/-- One slot where there is no array, and `riak_array_realloc` where there is one, which
    frees the old one when it has copied it. -/
def growSlots (array : Option (Slots α)) (oldnum newnum : UInt32) : Booked (Option (Slots α)) :=
  match array with
  | none => do
      match ← malloc with
      | none => pure none
      | some addr => pure (some ⟨some addr, [none]⟩)
  | some array => do
      match ← malloc with
      | none => pure (some array)
      | some addr =>
          if array.slots.length < oldnum.toNat then lift (C.fault .outOfBounds)
          else do
            let slots ← lift (C.copyAt (List.replicate newnum.toNat none) 0
              (array.slots.take oldnum.toNat))
            free array.addr
            pure (some ⟨some addr, slots⟩)

def objectNewEntry (entryNew : Booked (Option α)) (n : Int) (array : Option (Slots α)) :
    Booked (Bool × Int × Option (Slots α)) := do
  let newnum ← lift (newNumber (array.map Slots.slots) n)
  match ← growSlots array (UInt32.ofInt n) (UInt32.ofInt newnum) with
  | none => pure (false, n, none)
  | some array => do
      let result ← entryNew
      let slots ← lift (writeEntry array.slots n result)
      if result.isSome then
        pure (true, ← lift (intNext n), some { array with slots := slots })
      else pure (false, n, some { array with slots := slots })

/-- `riak_object_new_link`, `riak_object_new_usermeta` and `riak_object_new_index`. -/
def addEntry (obj : RiakObject) : CollectionCall → Booked (Bool × RiakObject)
  | .newLink => do
      let (made, nLinks, links) ← objectNewEntry riakLinkNew obj.nLinks obj.links
      pure (made, { obj with nLinks := nLinks, links := links })
  | .newUsermeta => do
      let (made, nUsermeta, usermeta) ← objectNewEntry riakPairNew obj.nUsermeta obj.usermeta
      pure (made, { obj with nUsermeta := nUsermeta, usermeta := usermeta })
  | .newIndex => do
      let (made, nIndexes, indexes) ← objectNewEntry riakPairNew obj.nIndexes obj.indexes
      pure (made, { obj with nIndexes := nIndexes, indexes := indexes })

def editEntry (n : Int) (array : Option (Slots α)) (i : UInt32)
    (set : α → Booked (RiakError × α)) : Booked (Bool × Option (Slots α)) := do
  let (err, entry) ← lift (objectGetEntry n (array.map Slots.slots) i)
  if err ≠ .ok then pure (false, array)
  else do
    let (err, entry) ← set (← lift (C.deref entry))
    pure (decide (err = .ok),
      array.map fun array => { array with slots := array.slots.set i.toNat (some entry) })

def edit (obj : RiakObject) : ObjectEdit → Booked (Bool × RiakObject)
  | .set call => do
      let (err, obj) ← setObject obj call
      pure (decide (err = .ok), obj)
  | .add call => addEntry obj call
  | .linkSet n call => do
      let (well, links) ← editEntry obj.nLinks obj.links n (setLink · call)
      pure (well, { obj with links := links })
  | .usermetaSet n call => do
      let (well, usermeta) ← editEntry obj.nUsermeta obj.usermeta n (setPair · call)
      pure (well, { obj with usermeta := usermeta })
  | .indexSet n call => do
      let (well, indexes) ← editEntry obj.nIndexes obj.indexes n (setPair · call)
      pure (well, { obj with indexes := indexes })

def editObject (obj : RiakObject) : List ObjectEdit → Booked (List Bool × RiakObject)
  | [] => pure ([], obj)
  | first :: edits => do
      let (well, obj) ← edit obj first
      let (results, obj) ← editObject obj edits
      pure (well :: results, obj)

/-- The program frees its object at the end. -/
def objectProgram (edits : List ObjectEdit) : Booked (Option (List Bool)) := do
  match ← riakObjectNew with
  | none => pure none
  | some obj => do
      let (results, obj) ← editObject obj edits
      riakObjectFree (some obj)
      pure (some results)

/-! ### What a setter leaves behind

A binary is at least its struct, so a call leaves nothing behind exactly if it
replaces nothing; the copy comes to what the struct had before. -/

def RiakObject.replaced (obj : RiakObject) : ObjectCall → Option RiakBinary
  | .bucket _ => obj.bucket
  | .bucketType _ => obj.bucketType
  | .key _ => obj.key
  | .value _ | .valueShallowCopy _ => obj.value
  | .charset _ => obj.charset
  | .contentType _ => obj.contentType
  | .contentEncoding _ => obj.encoding
  | .vtag _ => obj.vtag
  | .lastMod _ | .lastModUsecs _ | .deleted _ => none

def RiakLink.replaced (link : RiakLink) : LinkCall → Option RiakBinary
  | .bucket _ => link.bucket
  | .key _ => link.key
  | .tag _ => link.tag

def RiakPair.replaced (pair : RiakPair) : PairCall → Option RiakBinary
  | .key _ => pair.key
  | .value _ => pair.value

/-- What a call on an object leaves behind. -/
def lost (obj : RiakObject) : ObjectEdit → Option RiakBinary
  | .set call => obj.replaced call
  | .add _ => none
  | .linkSet n call =>
      (entryIn obj.nLinks (obj.links.map Slots.slots) n).bind fun link => link.replaced call
  | .usermetaSet n call =>
      (entryIn obj.nUsermeta (obj.usermeta.map Slots.slots) n).bind fun pair => pair.replaced call
  | .indexSet n call =>
      (entryIn obj.nIndexes (obj.indexes.map Slots.slots) n).bind fun pair => pair.replaced call

theorem entryIn_plain (g : α → β) (n : Int) (array : Option (Slots α)) (i : UInt32) :
    entryIn n (array.map (Slots.plain g)) i = (entryIn n (array.map Slots.slots) i).map g := by
  rw [← entryIn_map, Option.map_map]
  rfl

theorem lost_plain (obj : RiakObject) (edit : ObjectEdit) :
    (lost obj edit).map RiakBinary.plain = edit.replaces obj.plain := by
  cases edit with
  | set call => cases call <;> rfl
  | add call => rfl
  | linkSet n call =>
    show _ = (entryIn obj.nLinks (obj.links.map (Slots.plain RiakLink.plain)) n).bind _
    rw [entryIn_plain, Option.bind_map]
    show Option.map _ (Option.bind _ _) = _
    rw [Option.map_bind]
    refine congrArg _ (funext fun link => ?_)
    cases call <;> rfl
  | usermetaSet n call =>
    show _ = (entryIn obj.nUsermeta (obj.usermeta.map (Slots.plain RiakPair.plain)) n).bind _
    rw [entryIn_plain, Option.bind_map]
    show Option.map _ (Option.bind _ _) = _
    rw [Option.map_bind]
    refine congrArg _ (funext fun pair => ?_)
    cases call <;> rfl
  | indexSet n call =>
    show _ = (entryIn obj.nIndexes (obj.indexes.map (Slots.plain RiakPair.plain)) n).bind _
    rw [entryIn_plain, Option.bind_map]
    show Option.map _ (Option.bind _ _) = _
    rw [Option.map_bind]
    refine congrArg _ (funext fun pair => ?_)
    cases call <;> rfl

theorem blocks_binary_eq_zero (b : Option RiakBinary) : blocks b = 0 ↔ b = none := by
  cases b with
  | none => exact ⟨fun _ => rfl, fun _ => rfl⟩
  | some b =>
    refine ⟨fun hzero => ?_, nofun⟩
    have haddr : b.addr ∈ blocks (some b) :=
      Multiset.mem_add.mpr (Or.inr (Multiset.mem_singleton_self b.addr))
    rw [hzero] at haddr
    exact absurd haddr (Multiset.notMem_zero _)

theorem blocks_lost_eq_zero (obj : RiakObject) (edit : ObjectEdit) :
    blocks (lost obj edit) = 0 ↔ edit.replaces obj.plain = none := by
  rw [blocks_binary_eq_zero, ← lost_plain, Option.map_eq_none_iff]

theorem riakBinaryCopyShallow_tracks (bin : Option RiakClient.RiakBinary) :
    Tracks 0 (riakBinaryCopyShallow bin) (Option.map RiakBinary.plain)
      (RiakClient.riakBinaryCopyShallow bin) fun b after => after = blocks b := by
  refine Tracks.lift_bind fun b _ _ _ => ?_
  refine Tracks.malloc.bind ?_
  rintro (_ | addr) _ rfl
  · exact Tracks.pure rfl
  · exact Tracks.pure (zero_add _).symm

theorem storeCopy_tracks {σ σ' : Type} [Owns σ] (f : σ → σ') {s : σ}
    {copy : Booked (Option RiakBinary)} {plainCopy : C (Option RiakClient.RiakBinary)}
    (hcopy : Tracks 0 copy (Option.map RiakBinary.plain) plainCopy fun b after => after = blocks b)
    {store : Option RiakBinary → σ} {plainStore : Option RiakClient.RiakBinary → σ'}
    {Post : RiakError × σ → Multiset Addr → Prop}
    (hplain : ∀ b, f (store b) = plainStore (b.map RiakBinary.plain))
    (hpost : ∀ err b, Post (err, store b) (blocks b + blocks s)) :
    Tracks (blocks s) (storeCopy copy store) (fun out => (out.1, f out.2))
      (plainCopy >>= fun copy => pure (copiedOr copy, plainStore copy)) Post := by
  unfold storeCopy
  refine hcopy.after ?_
  rintro b _ rfl
  refine Tracks.pure_of ?_ (hpost _ b)
  rw [hplain]
  cases b <;> rfl

theorem RiakLink.blocks_eq (link : RiakLink) : blocks link =
    blocks link.bucket + (blocks link.key + (blocks link.tag + {link.addr})) := rfl

theorem setLink_tracks (link : RiakLink) (call : LinkCall) :
    Tracks (blocks link) (setLink link call) (fun out => (out.1, out.2.plain))
      (linkSetters.run link.plain call)
      fun out after => after = blocks out.2 + blocks (link.replaced call) := by
  cases call with
  | bucket value =>
    refine storeCopy_tracks RiakLink.plain (riakBinaryCopy_tracks value) ?_ fun err b => ?_
    · rintro (_ | b) <;> rfl
    · simp only [RiakLink.blocks_eq, RiakLink.replaced]
      abel
  | key value =>
    refine storeCopy_tracks RiakLink.plain (riakBinaryCopy_tracks value) ?_ fun err b => ?_
    · rintro (_ | b) <;> rfl
    · simp only [RiakLink.blocks_eq, RiakLink.replaced]
      abel
  | tag value =>
    refine storeCopy_tracks RiakLink.plain (riakBinaryCopy_tracks value) ?_ fun err b => ?_
    · rintro (_ | b) <;> rfl
    · simp only [RiakLink.blocks_eq, RiakLink.replaced]
      abel

theorem RiakPair.blocks_eq (pair : RiakPair) : blocks pair =
    blocks pair.key + (blocks pair.value + {pair.addr}) := rfl

theorem setPair_tracks (pair : RiakPair) (call : PairCall) :
    Tracks (blocks pair) (setPair pair call) (fun out => (out.1, out.2.plain))
      (pairSetters.run pair.plain call)
      fun out after => after = blocks out.2 + blocks (pair.replaced call) := by
  cases call with
  | key value =>
    refine storeCopy_tracks RiakPair.plain (riakBinaryCopy_tracks value) ?_ fun err b => ?_
    · rintro (_ | b) <;> rfl
    · simp only [RiakPair.blocks_eq, RiakPair.replaced]
      abel
  | value value =>
    refine storeCopy_tracks RiakPair.plain (riakBinaryCopy_tracks value) ?_ fun err b => ?_
    · rintro (_ | b) <;> rfl
    · simp only [RiakPair.blocks_eq, RiakPair.replaced]
      abel

/-! ### Objects that grow

The setters leave the arrays alone, and an array that cannot be moved stays where it
is. For a setter of an entry the array is one entry and the others. -/

/-- An array that can grow. -/
structure Growable (n : Int) (array : Option (Slots α)) : Prop where
  sign : 0 ≤ n
  filled : Filled (fun _ => True) n array

structure RiakObject.Tidy (obj : RiakObject) : Prop where
  links : Growable obj.nLinks obj.links
  usermeta : Growable obj.nUsermeta obj.usermeta
  indexes : Growable obj.nIndexes obj.indexes

theorem RiakObject.Tidy.whole {obj : RiakObject} (h : obj.Tidy) : obj.Whole :=
  ⟨h.indexes.filled, h.usermeta.filled, h.links.filled⟩

theorem RiakObject.blocks_eq (obj : RiakObject) : blocks obj =
    blocks obj.bucketType + (blocks obj.bucket + (blocks obj.charset +
    (blocks obj.contentType + (blocks obj.encoding + (blocks obj.key + (blocks obj.value +
    (blocks obj.vtag + (blocks obj.indexes + (blocks obj.usermeta + (blocks obj.links +
    {obj.addr})))))))))) := rfl

theorem storeObject_tracks {obj : RiakObject} {copy : Booked (Option RiakBinary)}
    {plainCopy : C (Option RiakClient.RiakBinary)} {old : Option RiakBinary}
    (hcopy : Tracks 0 copy (Option.map RiakBinary.plain) plainCopy fun b after => after = blocks b)
    {store : Option RiakBinary → RiakObject}
    {plainStore : Option RiakClient.RiakBinary → RiakClient.RiakObject}
    (hplain : ∀ b, (store b).plain = plainStore (b.map RiakBinary.plain))
    (htidy : ∀ b, (store b).Tidy)
    (hblocks : ∀ b, blocks b + blocks obj = blocks (store b) + blocks old) :
    Tracks (blocks obj) (storeCopy copy store) (fun out => (out.1, out.2.plain))
      (plainCopy >>= fun copy => pure (copiedOr copy, plainStore copy))
      fun out after => out.2.Tidy ∧ after = blocks out.2 + blocks old :=
  storeCopy_tracks RiakObject.plain hcopy hplain fun _ b => ⟨htidy b, hblocks b⟩

theorem setObject_tracks {obj : RiakObject} (h : obj.Tidy) (call : ObjectCall) :
    Tracks (blocks obj) (setObject obj call) (fun out => (out.1, out.2.plain))
      (objectSetters.run obj.plain call)
      fun out after => out.2.Tidy ∧ after = blocks out.2 + blocks (obj.replaced call) := by
  cases call with
  | bucket value =>
    refine storeObject_tracks (riakBinaryCopy_tracks value) ?_
      (fun b => ⟨h.links, h.usermeta, h.indexes⟩) fun b => ?_
    · rintro (_ | b) <;> rfl
    · simp only [RiakObject.blocks_eq, RiakObject.replaced]
      abel
  | bucketType value =>
    refine storeObject_tracks (riakBinaryCopy_tracks value) ?_
      (fun b => ⟨h.links, h.usermeta, h.indexes⟩) fun b => ?_
    · rintro (_ | b) <;> rfl
    · simp only [RiakObject.blocks_eq, RiakObject.replaced]
      abel
  | key value =>
    refine storeObject_tracks (riakBinaryCopy_tracks value) ?_
      (fun b => ⟨h.links, h.usermeta, h.indexes⟩) fun b => ?_
    · rintro (_ | b) <;> rfl
    · simp only [RiakObject.blocks_eq, RiakObject.replaced]
      abel
  | value value =>
    refine storeObject_tracks (riakBinaryCopy_tracks value) ?_
      (fun b => ⟨h.links, h.usermeta, h.indexes⟩) fun b => ?_
    · rintro (_ | b) <;> rfl
    · simp only [RiakObject.blocks_eq, RiakObject.replaced]
      abel
  | valueShallowCopy value =>
    refine storeObject_tracks (riakBinaryCopyShallow_tracks value) ?_
      (fun b => ⟨h.links, h.usermeta, h.indexes⟩) fun b => ?_
    · rintro (_ | b) <;> rfl
    · simp only [RiakObject.blocks_eq, RiakObject.replaced]
      abel
  | charset value =>
    refine storeObject_tracks (riakBinaryCopy_tracks value) ?_
      (fun b => ⟨h.links, h.usermeta, h.indexes⟩) fun b => ?_
    · rintro (_ | b) <;> rfl
    · simp only [RiakObject.blocks_eq, RiakObject.replaced]
      abel
  | contentType value =>
    refine storeObject_tracks (riakBinaryCopy_tracks value) ?_
      (fun b => ⟨h.links, h.usermeta, h.indexes⟩) fun b => ?_
    · rintro (_ | b) <;> rfl
    · simp only [RiakObject.blocks_eq, RiakObject.replaced]
      abel
  | contentEncoding value =>
    refine storeObject_tracks (riakBinaryCopy_tracks value) ?_
      (fun b => ⟨h.links, h.usermeta, h.indexes⟩) fun b => ?_
    · rintro (_ | b) <;> rfl
    · simp only [RiakObject.blocks_eq, RiakObject.replaced]
      abel
  | vtag value =>
    refine storeObject_tracks (riakBinaryCopy_tracks value) ?_
      (fun b => ⟨h.links, h.usermeta, h.indexes⟩) fun b => ?_
    · rintro (_ | b) <;> rfl
    · simp only [RiakObject.blocks_eq, RiakObject.replaced]
      abel
  | lastMod value =>
    exact Tracks.pure ⟨⟨h.links, h.usermeta, h.indexes⟩, (add_zero _).symm⟩
  | lastModUsecs value =>
    exact Tracks.pure ⟨⟨h.links, h.usermeta, h.indexes⟩, (add_zero _).symm⟩
  | deleted value =>
    exact Tracks.pure ⟨⟨h.links, h.usermeta, h.indexes⟩, (add_zero _).symm⟩

section Growing

variable [Owns α]

omit [Owns α] in
theorem plain_filled (g : α → β) (addr : Option Addr) (items : List α) (spare : Nat) :
    Slots.plain g ⟨addr, items.map some ++ List.replicate spare none⟩ =
      (items.map g).map some ++ List.replicate spare none := by
  show (items.map some ++ List.replicate spare none).map (Option.map g) = _
  rw [List.map_append, List.map_replicate, List.map_map, List.map_map]
  rfl

omit [Owns α] in
theorem copyAt_one_more {items : List α} {n : Nat} (h : items.length = n) :
    C.copyAt (List.replicate (n + 1) none) 0 (items.map some) =
      pure (items.map some ++ List.replicate 1 none) := by
  have hlength : (items.map some).length = n := by
    rw [List.length_map, h]
  rw [C.copyAt_of_le (by rw [hlength, List.length_replicate]; omega), List.take_zero,
    List.nil_append, List.drop_replicate, hlength, Nat.zero_add, Nat.add_sub_cancel_left]

theorem growSlots_tracks (g : α → β) {n : Int} {array : Option (Slots α)} (h : Growable n array)
    (hroom : array.isSome = true → n + 1 < 2 ^ 31) :
    Tracks (blocks array)
      (growSlots array (UInt32.ofInt n) (UInt32.ofInt (if array.isSome then n + 1 else n)))
      (Option.map (Slots.plain g))
      (RiakClient.growSlots (array.map (Slots.plain g)) (UInt32.ofInt n)
        (UInt32.ofInt (if array.isSome then n + 1 else n)))
      fun out after => Growable n out ∧ after = blocks out := by
  cases array with
  | none =>
    refine Tracks.malloc.bind ?_
    rintro (_ | addr) _ rfl
    · exact Tracks.pure ⟨h, rfl⟩
    · have hzero : n = 0 := Int.le_antisymm h.filled h.sign
      refine Tracks.pure ⟨⟨h.sign, ?_, [], 1, rfl, ?_, nofun⟩, ?_⟩
      · rw [hzero]
        decide
      · rw [hzero]
        rfl
      · exact (blocks_filled (some addr) ([] : List α) 1 ▸ (zero_add _).symm)
  | some array =>
    obtain ⟨addr, slots⟩ := array
    obtain ⟨hsign, hint, items, spare, hslots, hcount, _⟩ := h
    simp only at hslots
    subst hslots
    have hnext := hroom rfl
    have hold : (UInt32.ofInt n).toNat = n.toNat := C.ofInt_toNat hsign (by omega)
    have hnew : (UInt32.ofInt (n + 1)).toNat = n.toNat + 1 := by
      rw [C.ofInt_toNat (by omega) (by omega)]
      omega
    have hlist : ∀ {γ : Type} (entries : List γ), entries.length = n.toNat →
        (entries.map some ++ List.replicate spare none).take n.toNat = entries.map some := by
      intro γ entries hlength
      exact List.take_left' (by rw [List.length_map, hlength])
    have hfits : ∀ {γ : Type} (entries : List γ), entries.length = n.toNat →
        ¬ (entries.map some ++ List.replicate spare none).length < n.toNat := by
      intro γ entries hlength
      rw [List.length_append, List.length_map, hlength]
      omega
    have hplain : (items.map g).length = n.toNat := by
      rw [List.length_map, hcount]
    rw [Option.map_some, plain_filled]
    simp only [Option.isSome_some, if_true]
    unfold growSlots RiakClient.growSlots reallocSlots
    simp only [bind_assoc]
    rw [hold, hnew]
    refine Tracks.malloc.after ?_
    rintro (_ | fresh) _ rfl
    · rw [← plain_filled g addr]
      exact Tracks.pure ⟨⟨hsign, hint, items, spare, rfl, hcount, fun _ _ => trivial⟩, zero_add _⟩
    · simp only [Option.isSome_some, if_true]
      rw [if_neg (hfits items hcount), if_neg (hfits (items.map g) hplain), hlist items hcount,
        hlist (items.map g) hplain, copyAt_one_more hcount, copyAt_one_more hplain]
      simp only [lift_pure, pure_bind]
      rw [← plain_filled g (some fresh)]
      have hsplit : blocks (some fresh) + blocks (some (⟨addr, items.map some ++
          List.replicate spare none⟩ : Slots α)) =
          blocks addr + (blocks items + blocks (some fresh)) := by
        rw [blocks_some (⟨addr, _⟩ : Slots α), blocks_filled]
        abel
      refine (Tracks.free addr).frees hsplit (Tracks.pure ⟨?_, ?_⟩)
      · exact ⟨hsign, hint, items, 1, rfl, hcount, fun _ _ => trivial⟩
      · rw [blocks_some (⟨some fresh, _⟩ : Slots α), blocks_filled]

theorem intNext_eq_ok {n next : Int} {heap final : Heap}
    (h : intNext n heap = .ok (next, final)) : next = n + 1 ∧ n + 1 < 2 ^ 31 := by
  unfold intNext at h
  by_cases hroom : n + 1 < 2 ^ 31
  · rw [if_pos hroom] at h
    cases h
    exact ⟨rfl, hroom⟩
  · rw [if_neg hroom] at h
    cases h

omit [Owns α] in
theorem writeEntry_behind {items : List α} {n : Int} (hsign : 0 ≤ n) (h : items.length = n.toNat)
    (spare : Nat) (entry : Option α) :
    writeEntry (items.map some ++ List.replicate (spare + 1) none) n entry =
      pure (items.map some ++ entry :: List.replicate spare none) := by
  have hlength : (items.map some).length = n.toNat := by
    rw [List.length_map, h]
  have hinside : n.toNat < (items.map some ++ List.replicate (spare + 1) none).length := by
    rw [List.length_append, hlength, List.length_replicate]
    omega
  unfold writeEntry
  rw [if_pos hsign, C.writeAt_of_lt hinside, ← hlength, List.set_append_right _ _ (le_refl _),
    Nat.sub_self]
  rfl

omit [Owns α] in
theorem filled_snoc (items : List α) (entry : α) (spare : Nat) :
    items.map some ++ some entry :: List.replicate spare none =
      (items ++ [entry]).map some ++ List.replicate spare none := by
  rw [List.map_append, List.append_assoc]
  rfl

omit [Owns α] in
theorem writeEntry_full {items : List α} {n : Int} (hsign : 0 ≤ n) (h : items.length = n.toNat)
    (entry : Option α) :
    writeEntry (items.map some ++ List.replicate 0 none) n entry = C.fault .outOfBounds := by
  unfold writeEntry
  rw [if_pos hsign, C.writeAt_of_le]
  rw [List.length_append, List.length_map, h]
  exact le_refl _

/-- **An array that grows keeps its entries**, or there is no slot for the new one. -/
theorem objectNewEntry_tracks (g : α → β) {fresh : Booked (Option α)} {plainFresh : C (Option β)}
    (hfresh : Tracks 0 fresh (Option.map g) plainFresh fun out after => after = blocks out)
    {n : Int} {array : Option (Slots α)} (h : Growable n array) :
    Tracks (blocks array) (objectNewEntry fresh n array)
      (fun out => (out.1, out.2.1, out.2.2.map (Slots.plain g)))
      ((fun out => (out.1.isSome, out.2)) <$>
        RiakClient.objectNewEntry plainFresh n (array.map (Slots.plain g)))
      fun out after => Growable out.2.1 out.2.2 ∧ after = blocks out.2.2 := by
  unfold objectNewEntry RiakClient.objectNewEntry
  rw [map_eq_pure_bind]
  simp only [bind_assoc]
  have hnumber : newNumber (array.map (Slots.plain g)) n = newNumber (array.map Slots.slots) n := by
    cases array <;> rfl
  rw [hnumber]
  refine Tracks.lift_bind fun newnum heap final hnew => ?_
  have hroom : newnum = (if array.isSome then n + 1 else n) ∧
      (array.isSome = true → n + 1 < 2 ^ 31) := by
    cases array with
    | none =>
      cases hnew
      exact ⟨rfl, nofun⟩
    | some array =>
      obtain ⟨rfl, hint⟩ := intNext_eq_ok hnew
      exact ⟨rfl, fun _ => hint⟩
  obtain ⟨rfl, hroom⟩ := hroom
  refine (growSlots_tracks g h hroom).bind ?_
  rintro (_ | ⟨addr, slots⟩) _ ⟨hgrown, rfl⟩
  · exact Tracks.pure ⟨hgrown, rfl⟩
  obtain ⟨hsign, hint, items, spare, hslots, hcount, _⟩ := hgrown
  simp only at hslots
  subst hslots
  have hplain : (items.map g).length = n.toNat := by
    rw [List.length_map, hcount]
  rw [Option.map_some, plain_filled]
  simp only [bind_assoc]
  refine hfresh.after ?_
  rintro entry _ rfl
  cases spare with
  | zero =>
    rw [writeEntry_full hsign hcount, writeEntry_full hsign hplain]
    exact Tracks.fault .outOfBounds
  | succ spare =>
    rw [writeEntry_behind hsign hcount, writeEntry_behind hsign hplain]
    simp only [lift_pure, pure_bind]
    rw [blocks_some (⟨addr, _⟩ : Slots α), blocks_filled]
    cases entry with
    | none =>
      simp only [Option.map_none, Option.isSome_none, Bool.false_eq_true, if_false]
      rw [← List.replicate_succ, ← List.replicate_succ, ← plain_filled g addr]
      refine Tracks.pure ⟨⟨hsign, hint, items, spare + 1, rfl, hcount, fun _ _ => trivial⟩, ?_⟩
      rw [blocks_some (⟨addr, _⟩ : Slots α), blocks_filled]
      exact zero_add _
    | some entry =>
      simp only [Option.map_some, Option.isSome_some, if_true, bind_assoc]
      refine Tracks.lift_bind fun next heap final hnext => ?_
      obtain ⟨rfl, hlast⟩ := intNext_eq_ok hnext
      rw [filled_snoc, filled_snoc, ← List.map_singleton, ← List.map_append,
        ← plain_filled g addr]
      refine Tracks.pure ⟨⟨?_, hlast, items ++ [entry], spare, rfl, ?_, fun _ _ => trivial⟩, ?_⟩
      · show 0 ≤ n + 1
        omega
      · rw [List.length_append, List.length_singleton, hcount]
        show n.toNat + 1 = (n + 1).toNat
        omega
      · rw [blocks_some (⟨addr, _⟩ : Slots α), blocks_filled, blocks_append, blocks_some,
          blocks_cons]
        show _ = blocks items + (blocks entry + 0) + blocks addr
        abel

theorem blocks_at {items : List α} {i : Nat} {item : α} (h : items[i]? = some item) :
    ∃ rest, blocks items = blocks item + rest ∧
      ∀ item', blocks (items.set i item') = blocks item' + rest := by
  induction items generalizing i with
  | nil => cases h
  | cons first items ih =>
    cases i with
    | zero =>
      obtain rfl : first = item := Option.some.inj h
      exact ⟨blocks items, blocks_cons first items, fun item' => blocks_cons item' items⟩
    | succ i =>
      obtain ⟨rest, hrest, hset⟩ := ih h
      refine ⟨blocks first + rest, ?_, fun item' => ?_⟩
      · rw [blocks_cons, hrest]
        abel
      · rw [List.set_cons_succ, blocks_cons, hset]
        abel

omit [Owns α] in
theorem filled_set {items : List α} {i : Nat} {item : α} (h : i < items.length) (spare : Nat) :
    (items.map some ++ List.replicate spare none).set i (some item) =
      (items.set i item).map some ++ List.replicate spare none := by
  rw [List.set_append_left _ _ (h.trans_eq (List.length_map some).symm), List.map_set]

omit [Owns α] in
theorem objectGetEntry_of_filled {items : List α} {n : Int} {i : UInt32} {item : α}
    (hrange : ¬ UInt32.ofInt n ≤ i) (h : items[i.toNat]? = some item) (spare : Nat) :
    objectGetEntry n (some (items.map some ++ List.replicate spare none)) i =
      pure (.ok, some item) := by
  unfold objectGetEntry
  rw [if_neg hrange, C.deref_some, pure_bind, C.readAt_of_get (slot_of_filled h spare), pure_bind]

/-- **A setter of an entry** leaves the array where it is, and behind it what it
    replaces. -/
theorem editEntry_tracks (g : α → β) {old : α → Option RiakBinary}
    {set : α → Booked (RiakError × α)} {plainSet : β → C (RiakError × β)}
    (hset : ∀ item, Tracks (blocks item) (set item) (fun out => (out.1, g out.2))
      (plainSet (g item)) fun out after => after = blocks out.2 + blocks (old item))
    {n : Int} {array : Option (Slots α)} (h : Growable n array) (i : UInt32) :
    Tracks (blocks array) (editEntry n array i set)
      (fun out => (out.1, out.2.map (Slots.plain g)))
      (RiakClient.editEntry (objectGetEntry n (array.map (Slots.plain g)) i)
        (array.map (Slots.plain g)) i plainSet)
      fun out after => Growable n out.2 ∧
        after = blocks out.2 + blocks ((entryIn n (array.map Slots.slots) i).bind old) := by
  unfold editEntry RiakClient.editEntry
  by_cases hrange : UInt32.ofInt n ≤ i
  · have hnone : ∀ {γ : Type} (slots : Option (List (Option γ))),
        objectGetEntry n slots i = pure (.outOfRange, none) := fun slots => if_pos hrange
    have hentry : entryIn n (array.map Slots.slots) i = none := if_pos hrange
    rw [hnone, hnone, hentry]
    exact Tracks.pure ⟨h, (add_zero _).symm⟩
  cases array with
  | none =>
    have hzero : n = 0 := Int.le_antisymm h.filled h.sign
    rw [hzero] at hrange
    exact absurd (UInt32.zero_le) hrange
  | some array =>
    obtain ⟨addr, slots⟩ := array
    obtain ⟨hsign, hint, items, spare, hslots, hcount, _⟩ := h
    simp only at hslots
    subst hslots
    have hinside : i.toNat < items.length := by
      rw [hcount, ← C.ofInt_toNat hsign (by omega)]
      exact UInt32.lt_iff_toNat_lt.mp (UInt32.not_le.mp hrange)
    obtain ⟨item, hitem⟩ : ∃ item, items[i.toNat]? = some item :=
      ⟨_, List.getElem?_eq_getElem hinside⟩
    have hplain : (items.map g)[i.toNat]? = some (g item) := by
      rw [List.getElem?_map, hitem]
      rfl
    have hentry : entryIn n (some (items.map some ++ List.replicate spare none)) i = some item := by
      unfold entryIn
      rw [if_neg hrange, Option.bind_some, slot_of_filled hitem]
      rfl
    obtain ⟨rest, hrest, hothers⟩ := blocks_at hitem
    rw [Option.map_some, Option.map_some, plain_filled,
      objectGetEntry_of_filled hrange hitem, objectGetEntry_of_filled hrange hplain, hentry,
      blocks_some (⟨addr, _⟩ : Slots α), blocks_filled]
    simp only [lift_pure, pure_bind, ne_eq, not_true, if_false, C.deref_some, Option.map_some,
      Option.bind_some]
    have hsplit : blocks items + blocks addr = blocks item + (rest + blocks addr) := by
      rw [hrest, add_assoc]
    refine (hset item).step hsplit ?_
    rintro ⟨err, item'⟩ _ rfl
    have hset' : (items.map g).set i.toNat (g item') = (items.set i.toNat item').map g :=
      (List.map_set ..).symm
    simp only [filled_set hinside, filled_set (hinside.trans_eq (List.length_map g).symm)]
    rw [hset', ← plain_filled g addr]
    refine Tracks.pure ⟨⟨hsign, hint, _, spare, rfl, ?_, fun _ _ => trivial⟩, ?_⟩
    · rw [List.length_set, hcount]
    · rw [blocks_some (⟨addr, _⟩ : Slots α), blocks_filled, hothers]
      abel

end Growing

/-! ### Calls on an object -/

theorem RiakObject.blocks_links (obj : RiakObject) (n : Int) (array : Option (Slots RiakLink)) :
    blocks { obj with nLinks := n, links := array } =
      blocks array + blocks { obj with links := none } := by
  simp only [RiakObject.blocks_eq, blocks_none]
  abel

theorem RiakObject.blocks_usermeta (obj : RiakObject) (n : Int) (array : Option (Slots RiakPair)) :
    blocks { obj with nUsermeta := n, usermeta := array } =
      blocks array + blocks { obj with usermeta := none } := by
  simp only [RiakObject.blocks_eq, blocks_none]
  abel

theorem RiakObject.blocks_indexes (obj : RiakObject) (n : Int) (array : Option (Slots RiakPair)) :
    blocks { obj with nIndexes := n, indexes := array } =
      blocks array + blocks { obj with indexes := none } := by
  simp only [RiakObject.blocks_eq, blocks_none]
  abel

theorem riakLinkNew_tracks :
    Tracks 0 riakLinkNew (Option.map RiakLink.plain) RiakClient.riakLinkNew
      fun link after => after = blocks link :=
  structNew_tracks RiakLink.plain (fun _ => rfl) rfl fun _ => (zero_add _).symm

theorem riakPairNew_tracks :
    Tracks 0 riakPairNew (Option.map RiakPair.plain) RiakClient.riakPairNew
      fun pair after => after = blocks pair :=
  structNew_tracks RiakPair.plain (fun _ => rfl) rfl fun _ => (zero_add _).symm

theorem addEntry_tracks {obj : RiakObject} (h : obj.Tidy) (call : CollectionCall) :
    Tracks (blocks obj) (addEntry obj call) (fun out => (out.1, out.2.plain))
      (call.call obj.plain) fun out after => out.2.Tidy ∧ after = blocks out.2 := by
  cases call with
  | newLink =>
    have hplain : CollectionCall.newLink.call obj.plain =
        ((fun out => (out.1.isSome, out.2)) <$> RiakClient.objectNewEntry RiakClient.riakLinkNew
          obj.nLinks (obj.links.map (Slots.plain RiakLink.plain))) >>= fun out =>
            pure (out.1, { obj.plain with nLinks := out.2.1, links := out.2.2 }) := by
      show (RiakClient.objectNewEntry _ _ _ >>= fun out => _) >>= _ = _
      rw [map_eq_pure_bind, bind_assoc, bind_assoc]
      rfl
    rw [hplain]
    refine (objectNewEntry_tracks RiakLink.plain riakLinkNew_tracks h.links).step
      (obj.blocks_links obj.nLinks obj.links) ?_
    rintro ⟨made, nLinks, links⟩ _ ⟨hgrown, rfl⟩
    exact Tracks.pure ⟨⟨hgrown, h.usermeta, h.indexes⟩, (obj.blocks_links nLinks links).symm⟩
  | newUsermeta =>
    have hplain : CollectionCall.newUsermeta.call obj.plain =
        ((fun out => (out.1.isSome, out.2)) <$> RiakClient.objectNewEntry RiakClient.riakPairNew
          obj.nUsermeta (obj.usermeta.map (Slots.plain RiakPair.plain))) >>= fun out =>
            pure (out.1, { obj.plain with nUsermeta := out.2.1, usermeta := out.2.2 }) := by
      show (RiakClient.objectNewEntry _ _ _ >>= fun out => _) >>= _ = _
      rw [map_eq_pure_bind, bind_assoc, bind_assoc]
      rfl
    rw [hplain]
    refine (objectNewEntry_tracks RiakPair.plain riakPairNew_tracks h.usermeta).step
      (obj.blocks_usermeta obj.nUsermeta obj.usermeta) ?_
    rintro ⟨made, nUsermeta, usermeta⟩ _ ⟨hgrown, rfl⟩
    exact Tracks.pure ⟨⟨h.links, hgrown, h.indexes⟩, (obj.blocks_usermeta nUsermeta usermeta).symm⟩
  | newIndex =>
    have hplain : CollectionCall.newIndex.call obj.plain =
        ((fun out => (out.1.isSome, out.2)) <$> RiakClient.objectNewEntry RiakClient.riakPairNew
          obj.nIndexes (obj.indexes.map (Slots.plain RiakPair.plain))) >>= fun out =>
            pure (out.1, { obj.plain with nIndexes := out.2.1, indexes := out.2.2 }) := by
      show (RiakClient.objectNewEntry _ _ _ >>= fun out => _) >>= _ = _
      rw [map_eq_pure_bind, bind_assoc, bind_assoc]
      rfl
    rw [hplain]
    refine (objectNewEntry_tracks RiakPair.plain riakPairNew_tracks h.indexes).step
      (obj.blocks_indexes obj.nIndexes obj.indexes) ?_
    rintro ⟨made, nIndexes, indexes⟩ _ ⟨hgrown, rfl⟩
    exact Tracks.pure ⟨⟨h.links, h.usermeta, hgrown⟩, (obj.blocks_indexes nIndexes indexes).symm⟩

/-- **A call on an object** leaves the object, and what it replaces. -/
theorem edit_tracks {obj : RiakObject} (h : obj.Tidy) (call : ObjectEdit) :
    Tracks (blocks obj) (edit obj call) (fun out => (out.1, out.2.plain)) (call.call obj.plain)
      fun out after => out.2.Tidy ∧ after = blocks out.2 + blocks (lost obj call) := by
  cases call with
  | set call =>
    refine (setObject_tracks h call).bind ?_
    rintro ⟨err, obj'⟩ _ ⟨htidy, rfl⟩
    exact Tracks.pure ⟨htidy, rfl⟩
  | add call =>
    refine (addEntry_tracks h call).mono ?_
    rintro ⟨made, obj'⟩ _ ⟨htidy, rfl⟩
    exact ⟨htidy, (add_zero _).symm⟩
  | linkSet n call =>
    refine (editEntry_tracks RiakLink.plain (fun entry => setLink_tracks entry call)
      h.links n).step (obj.blocks_links obj.nLinks obj.links) ?_
    rintro ⟨well, links⟩ _ ⟨hkept, rfl⟩
    refine Tracks.pure ⟨⟨hkept, h.usermeta, h.indexes⟩, ?_⟩
    rw [add_right_comm]
    exact congrArg (· + _) (obj.blocks_links obj.nLinks links).symm
  | usermetaSet n call =>
    refine (editEntry_tracks RiakPair.plain (fun entry => setPair_tracks entry call)
      h.usermeta n).step (obj.blocks_usermeta obj.nUsermeta obj.usermeta) ?_
    rintro ⟨well, usermeta⟩ _ ⟨hkept, rfl⟩
    refine Tracks.pure ⟨⟨h.links, hkept, h.indexes⟩, ?_⟩
    rw [add_right_comm]
    exact congrArg (· + _) (obj.blocks_usermeta obj.nUsermeta usermeta).symm
  | indexSet n call =>
    refine (editEntry_tracks RiakPair.plain (fun entry => setPair_tracks entry call)
      h.indexes n).step (obj.blocks_indexes obj.nIndexes obj.indexes) ?_
    rintro ⟨well, indexes⟩ _ ⟨hkept, rfl⟩
    refine Tracks.pure ⟨⟨h.links, h.usermeta, hkept⟩, ?_⟩
    rw [add_right_comm]
    exact congrArg (· + _) (obj.blocks_indexes obj.nIndexes indexes).symm

/-! ### Whole programs -/

theorem riakObjectNew_tracks :
    Tracks 0 riakObjectNew (Option.map RiakObject.plain) RiakClient.riakObjectNew
      fun out after => (∀ obj, out = some obj → obj.Tidy) ∧ after = blocks out := by
  have hempty : ∀ {γ : Type}, Growable 0 (none : Option (Slots γ)) :=
    ⟨le_refl 0, le_refl (0 : Int)⟩
  refine structNew_tracks RiakObject.plain (fun _ => rfl) ⟨?_, rfl⟩ fun addr => ⟨?_, ?_⟩
  · intro obj hobj
    cases hobj
  · rintro _ ⟨⟩
    exact ⟨hempty, hempty, hempty⟩
  · simp only [blocks_some, RiakObject.blocks_eq, blocks_none, zero_add]

/-- What the calls of a program leave of the object: something besides it exactly if one
    of them replaces something. -/
theorem editObject_books :
    ∀ (edits : List ObjectEdit) {obj : RiakObject}, obj.Tidy → ∀ (books : Ledger)
      (frame : Multiset Addr) (heap : Heap), books.live = blocks obj + frame →
      (∃ fault, editObject obj edits books heap = .error fault ∧
        RiakClient.editObject obj.plain edits heap = .error fault) ∨
      ∃ results obj' books' final left,
        editObject obj edits books heap = .ok (some ((results, obj'), books'), final) ∧
        RiakClient.editObject obj.plain edits heap = .ok ((results, obj'.plain), final) ∧
        obj'.Tidy ∧ books'.live = blocks obj' + (left + frame) ∧
        (left = 0 ↔ C.AlongCalls ObjectEdit.call (fun obj edit _ => edit.replaces obj = none)
          obj.plain heap edits) := by
  intro edits
  induction edits with
  | nil =>
    intro obj h books frame heap hlive
    exact Or.inr ⟨[], obj, books, heap, 0, rfl, rfl, h, by rw [hlive, zero_add],
      fun _ => trivial, fun _ => rfl⟩
  | cons first edits ih =>
    intro obj h books frame heap hlive
    unfold editObject RiakClient.editObject
    rcases edit_tracks h first books frame heap hlive with ⟨fault, hfault, hplain⟩ |
      ⟨⟨well, obj₁⟩, books₁, heap₁, _, hrun, hplain, hlive₁, htidy, rfl⟩
    · refine Or.inl ⟨fault, ?_, C.bind_of_error hplain⟩
      rw [bind_apply]
      exact C.bind_of_error hfault
    rw [bind_apply, C.bind_of_ok hrun, C.bind_of_ok hplain]
    rw [add_assoc] at hlive₁
    rcases ih htidy books₁ _ heap₁ hlive₁ with ⟨fault, hfault, hplain₂⟩ |
      ⟨results, obj', books', final, left, hrun₂, hplain₂, htidy', hlive', hleft⟩
    · refine Or.inl ⟨fault, ?_, C.bind_of_error hplain₂⟩
      show (editObject obj₁ edits >>= _) books₁ heap₁ = _
      rw [bind_apply]
      exact C.bind_of_error hfault
    refine Or.inr ⟨well :: results, obj', books', final, left + blocks (lost obj first), ?_, ?_,
      htidy', ?_, ?_⟩
    · show (editObject obj₁ edits >>= _) books₁ heap₁ = _
      rw [bind_apply, C.bind_of_ok hrun₂]
      rfl
    · exact C.bind_of_ok hplain₂
    · rw [hlive', add_assoc left]
    · rw [← Multiset.card_eq_zero, Multiset.card_add, Nat.add_eq_zero_iff, Multiset.card_eq_zero,
        Multiset.card_eq_zero, hleft, blocks_lost_eq_zero, and_comm]
      refine and_congr_right fun _ => ⟨fun hlater out state rest hcall => ?_, fun hlater => ?_⟩
      · rw [hplain] at hcall
        cases hcall
        exact hlater
      · exact hlater _ _ _ hplain

/-- A bucket that is set twice. -/
example : ¬ NothingReplaced [.set (.bucket (some ⟨[0x61], true⟩)),
    .set (.bucket (some ⟨[0x62], true⟩))] Heap.fresh := fun hnothing =>
  absurd ((hnothing _ _ rfl).2 _ _ _ rfl).1 (by decide)

end Stored

end RiakClient
