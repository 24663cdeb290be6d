import RiakClient.Operation

/-!
# Objects, links and pairs

The translation of a `riak_object` into the `RpbContent` of a put, and of single
pairs out of a protocol buffer (`riak_object.c`). Every count is stored in the
message before its array is allocated.

All copies of arrays are one loop, `copyLoop`, whose rounds make an item or are
refused. What it makes is what its rounds make, whether they all succeed
(`copyLoop_of_ample`) or the loop is only known to have come to its end
(`copyLoop_eq_some`, `copyLoop_rounds`).
-/

namespace RiakClient

open CSem

/-- The copying loops `for(i = 0; i < n; i++)` over an array of messages:
    `copy i` makes the `i`-th one, and `none` is a refused allocation, which
    ends the loop. -/
def copyLoop {β : Type} (copy : Nat → C (Option β)) : Nat → Nat → C (Option (List β))
  | 0, _ => pure (some [])
  | left + 1, i => do
      match ← copy i with
      | none => pure none
      | some item =>
          match ← copyLoop copy left (← C.intSucc i) with
          | none => pure none
          | some items => pure (some (item :: items))

/-- The array of pointers first, then its entries. -/
def copyArray {β : Type} (count : Nat) (copy : Nat → C (Option β)) : C (Option (List β)) := do
  if ← C.allocate then copyLoop copy count 0 else pure none

/-- `array[i]->...`. -/
def entryAt {α : Type} (array : Option (List (Option α))) (i : Nat) : C α := do
  C.deref (← C.readAt (← C.deref array) i)

/-! ### Pairs and links -/

def riakPairCopyToPb (pair : Option (List (Option RiakPair))) (i : Nat) :
    C (Option RpbPair) := do
  if ← C.allocate then
    let entry ← entryAt pair i
    let key ← riakBinaryCopyToPb entry.key
    let value ← copyToPbIf entry.hasValue entry.value
    pure (some { key := key, hasValue := entry.hasValue, value := value })
  else pure none

def riakPairsCopyToPb (pair : Option (List (Option RiakPair))) (numPairs : Nat) :
    C (Option (List RpbPair)) :=
  copyArray numPairs (riakPairCopyToPb pair)

def riakLinkCopyToPb (link : Option (List (Option RiakLink))) (i : Nat) :
    C (Option RpbLink) := do
  if ← C.allocate then
    let entry ← entryAt link i
    let bucket ← copyToPbIf entry.hasBucket entry.bucket
    let key ← copyToPbIf entry.hasKey entry.key
    let tag ← copyToPbIf entry.hasTag entry.tag
    pure (some {
      hasBucket := entry.hasBucket, bucket := bucket
      hasKey := entry.hasKey, key := key
      hasTag := entry.hasTag, tag := tag })
  else pure none

def riakLinksCopyToPb (link : Option (List (Option RiakLink))) (numLinks : Nat) :
    C (Option (List RpbLink)) :=
  copyArray numLinks (riakLinkCopyToPb link)

/-- `riak_pairs_copy_from_pb` sets its target only on success. -/
def riakPairsCopyFromPb (pbpair : RpbPair) : C (RiakError × Option RiakPair) := do
  if ← C.allocate then
    match ← riakBinaryCopyFromPb pbpair.key with
    | none => pure (.outOfMemory, none)
    | some key =>
        if pbpair.hasValue then
          match ← riakBinaryCopyFromPb pbpair.value with
          | none => pure (.outOfMemory, none)
          | some value =>
              pure (.ok, some { key := some key, hasValue := true, value := some value })
        else pure (.ok, some { key := some key })
  else pure (.outOfMemory, none)

/-! ### Objects -/

/-- `if ((from->n_x > 0) && (err == ERIAK_OK))` around one of the three array
    copies of `riak_object_to_pb_copy`. -/
def copyRepeated {β : Type} (n : Int) (err : RiakError) (copy : Nat → C (Option (List β))) :
    C (RiakError × Repeated β) :=
  if 0 < n ∧ err = .ok then do
    match ← copy n.toNat with
    | none => pure (.outOfMemory, ⟨n.toNat, none⟩)
    | some items => pure (.ok, ⟨n.toNat, some items⟩)
  else pure (err, {})

/-- `riak_object_to_pb_copy` into a message set up by `RPB_CONTENT__INIT`. -/
def riakObjectToPbCopy (from_ : RiakObject) : C (RiakError × RpbContent) := do
  let value ← riakBinaryCopyToPb from_.value
  let charset ← copyToPbIf from_.hasCharset from_.charset
  let contentEncoding ← copyToPbIf from_.hasContentEncoding from_.encoding
  let contentType ← copyToPbIf from_.hasContentType from_.contentType
  let vtag ← copyToPbIf from_.hasVtag from_.vtag
  let (err, indexes) ← copyRepeated from_.nIndexes .ok (riakPairsCopyToPb from_.indexes)
  let (err, usermeta) ← copyRepeated from_.nUsermeta err (riakPairsCopyToPb from_.usermeta)
  let (err, links) ← copyRepeated from_.nLinks err (riakLinksCopyToPb from_.links)
  pure (err, {
    value := value
    hasCharset := from_.hasCharset, charset := charset
    hasContentEncoding := from_.hasContentEncoding, contentEncoding := contentEncoding
    hasContentType := from_.hasContentType, contentType := contentType
    hasDeleted := from_.hasDeleted
    deleted := assignIf from_.hasDeleted from_.deleted
    hasLastMod := from_.hasLastMod
    lastMod := assignIf from_.hasLastMod from_.lastMod
    hasLastModUsecs := from_.hasLastModUsecs
    lastModUsecs := assignIf from_.hasLastModUsecs from_.lastModUsecs
    hasVtag := from_.hasVtag, vtag := vtag
    indexes := indexes, usermeta := usermeta, links := links })

/-- protobuf-c reads every repeated member of the content it packs. -/
def RpbContent.walk (content : RpbContent) : C Unit := do
  content.indexes.walk
  content.usermeta.walk
  content.links.walk

/-! ### What these functions do on an ample heap -/

/-- The copy of a binary member with a presence flag. -/
def decodedBinary (has : Bool) (data : Bytes) : Option RiakBinary :=
  if has then some ⟨data, false⟩ else none

/-- What `riak_pairs_copy_from_pb` makes of a pair. -/
def RpbPair.decoded (pbpair : RpbPair) : RiakPair where
  key := some ⟨pbpair.key, false⟩
  hasValue := pbpair.hasValue
  value := decodedBinary pbpair.hasValue pbpair.value

section Ample

variable {heap : Heap}

theorem riakPairsCopyFromPb_of_ample (h : heap.Ample) (pbpair : RpbPair) :
    riakPairsCopyFromPb pbpair heap = .ok ((.ok, some pbpair.decoded), heap) := by
  unfold riakPairsCopyFromPb RpbPair.decoded decodedBinary
  rw [C.bind_of_ok (C.allocate_of_ample h)]
  simp only [if_true]
  rw [C.bind_of_ok (riakBinaryCopyFromPb_of_ample h _)]
  cases hvalue : pbpair.hasValue with
  | false => rfl
  | true =>
    simp only [if_true]
    rw [C.bind_of_ok (riakBinaryCopyFromPb_of_ample h _)]
    rfl

theorem copyLoop_of_ample {β : Type} {copy : Nat → C (Option β)} : ∀ (items : List β) (i : Nat),
    i + items.length < 2 ^ 31 →
    (∀ j item, items[j]? = some item → copy (i + j) heap = .ok (some item, heap)) →
    copyLoop copy items.length i heap = .ok (some items, heap) := by
  intro items
  induction items with
  | nil => intro i _ _; rfl
  | cons item items ih =>
    intro i hbound hcopy
    rw [List.length_cons] at hbound
    have hitem : copy i heap = .ok (some item, heap) := hcopy 0 item rfl
    have hitems := ih (i + 1) (by omega) (by
      intro j later hlater
      have hround := hcopy (j + 1) later hlater
      rwa [show i + (j + 1) = i + 1 + j by omega] at hround)
    rw [List.length_cons, copyLoop, C.bind_of_ok hitem]
    simp only
    rw [C.intSucc_of_lt (by omega), pure_bind, C.bind_of_ok hitems]
    rfl

theorem copyLoop_eq_some {α β : Type} {copy : Nat → C (Option β)} (make : α → Option β) :
    ∀ (entries : List α) (i : Nat),
    (∀ j entry, entries[j]? = some entry → copy (i + j) heap = .ok (make entry, heap)) →
    ∀ {made : List β} {final : Heap},
    copyLoop copy entries.length i heap = .ok (some made, final) →
    final = heap ∧ entries.map make = made.map some ∧
      (entries ≠ [] → i + entries.length < 2 ^ 31) := by
  intro entries
  induction entries with
  | nil =>
    intro i _ made final hrun
    cases hrun
    exact ⟨rfl, rfl, fun hne => absurd rfl hne⟩
  | cons entry entries ih =>
    intro i hcopy made final hrun
    have hround : copy i heap = .ok (make entry, heap) := hcopy 0 entry rfl
    rw [List.length_cons, copyLoop, C.bind_of_ok hround] at hrun
    cases hmade : make entry with
    | none =>
      rw [hmade] at hrun
      cases hrun
    | some item =>
      rw [hmade] at hrun
      obtain ⟨next, heap₁, hnext, hrest⟩ := C.bind_eq_ok.mp hrun
      obtain ⟨hbound, rfl, hheap₁⟩ := C.intSucc_eq_ok.mp hnext
      obtain ⟨items, heap₂, hitems, hlast⟩ := C.bind_eq_ok.mp hrest
      rw [hheap₁] at hitems
      cases items with
      | none => cases hlast
      | some items =>
        obtain ⟨hheap₂, hsame, hlength⟩ := ih (i + 1) (by
          intro j later hlater
          have hlaterRound := hcopy (j + 1) later hlater
          rwa [show i + (j + 1) = i + 1 + j by omega] at hlaterRound) hitems
        simp only [C.pure_apply, Except.ok.injEq, Prod.mk.injEq, Option.some.injEq] at hlast
        obtain ⟨rfl, rfl⟩ := hlast
        refine ⟨hheap₂, ?_, ?_⟩
        · rw [List.map_cons, List.map_cons, hmade, hsame]
        · intro _
          cases entries with
          | nil =>
            rw [List.length_singleton]
            exact hbound
          | cons second entries =>
            have hlater := hlength (List.cons_ne_nil _ _)
            rw [List.length_cons]
            omega

theorem copyLoop_rounds {β : Type} {copy : Nat → C (Option β)} :
    ∀ (left i : Nat) {heap final : Heap} {items : List β},
    copyLoop copy left i heap = .ok (some items, final) →
    items.length = left ∧ (0 < left → i + left < 2 ^ 31) ∧
      ∀ j, j < left → ∃ heap₁ heap₂ item, items[j]? = some item ∧
        copy (i + j) heap₁ = .ok (some item, heap₂) := by
  intro left
  induction left with
  | zero =>
    intro i heap final items hrun
    cases hrun
    exact ⟨rfl, fun h => absurd h (Nat.lt_irrefl 0), fun j hj => absurd hj (Nat.not_lt_zero j)⟩
  | succ left ih =>
    intro i heap final items hrun
    rw [copyLoop] at hrun
    obtain ⟨item, heap₁, hitem, hrest⟩ := C.bind_eq_ok.mp hrun
    cases item with
    | none => cases hrest
    | some item =>
      obtain ⟨next, heap₂, hnext, hloop⟩ := C.bind_eq_ok.mp hrest
      obtain ⟨hbound, rfl, _⟩ := C.intSucc_eq_ok.mp hnext
      obtain ⟨later, heap₃, hlater, hlast⟩ := C.bind_eq_ok.mp hloop
      cases later with
      | none => cases hlast
      | some later =>
        cases hlast
        obtain ⟨hlength, hcount, hrounds⟩ := ih (i + 1) hlater
        refine ⟨by rw [List.length_cons, hlength], fun _ => ?_, ?_⟩
        · by_cases hzero : left = 0
          · omega
          · have hend := hcount (by omega)
            omega
        · rintro (_ | j) hj
          · exact ⟨_, _, item, rfl, hitem⟩
          · obtain ⟨heap₄, heap₅, item', hget, hround⟩ := hrounds j (by omega)
            rw [show i + 1 + j = i + (j + 1) by omega] at hround
            exact ⟨heap₄, heap₅, item', hget, hround⟩

theorem copyArray_of_ample (h : heap.Ample) {β : Type} {copy : Nat → C (Option β)}
    {items : List β} (hbound : items.length < 2 ^ 31)
    (hcopy : ∀ j item, items[j]? = some item → copy j heap = .ok (some item, heap)) :
    copyArray items.length copy heap = .ok (some items, heap) := by
  unfold copyArray
  rw [C.bind_of_ok (C.allocate_of_ample h)]
  simp only [if_true]
  exact copyLoop_of_ample items 0 (by omega) (by
    intro j item hitem
    rw [Nat.zero_add]
    exact hcopy j item hitem)

theorem entryAt_of_set {α : Type} {slots : List (Option α)} {i : Nat} {entry : α}
    (hslot : slots[i]? = some (some entry)) : entryAt (some slots) i = pure entry := by
  unfold entryAt
  rw [C.deref_some, pure_bind, C.readAt_of_get hslot, pure_bind, C.deref_some]

end Ample

/-! ### Objects that can be copied

A count that is larger than its array, or a slot without an entry, is a fault of the
copy. A complete object is one without them, whose flags go with binaries. -/

/-- The `n` entries of an array member of an object: the array is there, and
    each of its first `n` slots points to an entry that is all right. -/
structure EntriesSet {α : Type} (n : Int) (array : Option (List (Option α))) (ok : α → Prop) :
    Prop where
  bound : n < 2 ^ 31
  entry : ∀ i < n.toNat, ∃ slots entry, array = some slots ∧ slots[i]? = some (some entry) ∧
    ok entry

def RiakPair.Complete (pair : RiakPair) : Prop :=
  pair.key.isSome ∧ (pair.hasValue = true → pair.value.isSome)

def RiakLink.Complete (link : RiakLink) : Prop :=
  (link.hasBucket = true → link.bucket.isSome) ∧ (link.hasKey = true → link.key.isSome) ∧
    (link.hasTag = true → link.tag.isSome)

/-- An object with bucket and value whose other members are there when their
    flags and counts say so. -/
structure RiakObject.Complete (obj : RiakObject) : Prop where
  bucket : obj.bucket.isSome
  value : obj.value.isSome
  bucketType : obj.hasBucketType = true → obj.bucketType.isSome
  key : obj.hasKey = true → obj.key.isSome
  charset : obj.hasCharset = true → obj.charset.isSome
  encoding : obj.hasContentEncoding = true → obj.encoding.isSome
  contentType : obj.hasContentType = true → obj.contentType.isSome
  vtag : obj.hasVtag = true → obj.vtag.isSome
  indexes : EntriesSet obj.nIndexes obj.indexes RiakPair.Complete
  usermeta : EntriesSet obj.nUsermeta obj.usermeta RiakPair.Complete
  links : EntriesSet obj.nLinks obj.links RiakLink.Complete

end RiakClient
