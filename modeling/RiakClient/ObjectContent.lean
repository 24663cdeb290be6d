import RiakClient.Object

/-!
# The content of an object

`riak_object_new_from_pb` is the way back of `riak_object_to_pb_copy`. What the
two have to agree on is the content of an object as the application sees it:
the members that are there, and the entries of the three arrays in their order.

The round trip goes through an abstract content. The encoder makes of an object the
message that its content is sent as, the decoder makes of a sound message an object
with the content of that message, and the content of the message that a content is
sent as is that content again. So no field of a struct is compared with a field of
another struct, and the three arrays are one argument about lists.
-/

namespace RiakClient

open CSem

/-! ### Decoding an object -/

/-- The decoders' `if (has_x) to->x = riak_binary_copy_from_pb(...)`, on a member
    that starts out NULL; `none` is a refused allocation. -/
def copyFromPbIf (has : Bool) (data : Bytes) : C (Option (Option RiakBinary)) :=
  if has then do
    match ← riakBinaryCopyFromPb data with
    | none => pure none
    | some bin => pure (some (some bin))
  else pure (some none)

/-- `riak_pairs_copy_array_from_pb`; its only error is a refused allocation. -/
def riakPairsCopyArrayFromPb (pbpair : Option (List RpbPair)) (numPairs : Int) :
    C (Option (List RiakPair)) :=
  copyArray numPairs.toNat fun i => do
    let entry ← C.readAt (← C.deref pbpair) i
    let (_, pair) ← riakPairsCopyFromPb entry
    pure pair

/-- One round of the loop over the links. `link` says whether the array that the
    loop fills is there. -/
def riakLinkCopyFromPb (link : Bool) (pblink : Option (List RpbLink)) (i : Nat) :
    C (Option RiakLink) := do
  let fresh ← C.allocate
  if link = false then C.fault .nullDereference
  else if fresh then
    let entry ← C.readAt (← C.deref pblink) i
    let some bucket ← copyFromPbIf entry.hasBucket entry.bucket | pure none
    let some key ← copyFromPbIf entry.hasKey entry.key | pure none
    let some tag ← copyFromPbIf entry.hasTag entry.tag | pure none
    pure (some {
      hasBucket := entry.hasBucket, bucket := bucket
      hasKey := entry.hasKey, key := key
      hasTag := entry.hasTag, tag := tag })
  else pure none

/-- `riak_links_copy_from_pb`, which tests `pblink` where it means `link`. -/
def riakLinksCopyFromPb (pblink : Option (List RpbLink)) (numLinks : Int) :
    C (Option (List RiakLink)) := do
  let link ← C.allocate
  if pblink.isNone then pure none
  else copyLoop (riakLinkCopyFromPb link pblink) numLinks.toNat 0

/-- `if ((from->n_x > 0) && (err == ERIAK_OK))` around one of the three array
    copies of `riak_object_new_from_pb`. The count is a `size_t` in the message
    and a `riak_int32_t` in the object, which has it before the array. -/
def decodeRepeated {α : Type} (count : Nat) (err : RiakError)
    (copy : Int → C (Option (List α))) : C (RiakError × Int × Option (List (Option α))) :=
  if 0 < count ∧ err = .ok then do
    let n := Int.bmod count (2 ^ 32)
    match ← copy n with
    | none => pure (.outOfMemory, n, none)
    | some entries => pure (.ok, n, some (entries.map some))
  else pure (err, 0, none)

/-- `riak_object_new_from_pb`. A binary that cannot be copied frees the object;
    an array that cannot be copied leaves it to the caller. -/
def riakObjectNewFromPb (from_ : RpbContent) : C (RiakError × Option RiakObject) := do
  if ← C.allocate then
    let some value ← riakBinaryCopyFromPb from_.value | pure (.outOfMemory, none)
    let some charset ← copyFromPbIf from_.hasCharset from_.charset | pure (.outOfMemory, none)
    let some encoding ← copyFromPbIf from_.hasContentEncoding from_.contentEncoding
      | pure (.outOfMemory, none)
    let some contentType ← copyFromPbIf from_.hasContentType from_.contentType
      | pure (.outOfMemory, none)
    let some vtag ← copyFromPbIf from_.hasVtag from_.vtag | pure (.outOfMemory, none)
    let (err, nIndexes, indexes) ←
      decodeRepeated from_.indexes.count .ok (riakPairsCopyArrayFromPb from_.indexes.items)
    let (err, nUsermeta, usermeta) ←
      decodeRepeated from_.usermeta.count err (riakPairsCopyArrayFromPb from_.usermeta.items)
    let (err, nLinks, links) ←
      decodeRepeated from_.links.count err (riakLinksCopyFromPb from_.links.items)
    pure (err, some {
      value := some value
      hasCharset := from_.hasCharset, charset := charset
      hasContentEncoding := from_.hasContentEncoding, encoding := encoding
      hasContentType := from_.hasContentType, contentType := contentType
      hasDeleted := from_.hasDeleted, deleted := assignIf from_.hasDeleted from_.deleted
      hasLastMod := from_.hasLastMod, lastMod := assignIf from_.hasLastMod from_.lastMod
      hasLastModUsecs := from_.hasLastModUsecs
      lastModUsecs := assignIf from_.hasLastModUsecs from_.lastModUsecs
      hasVtag := from_.hasVtag, vtag := vtag
      nIndexes := nIndexes, indexes := indexes
      nUsermeta := nUsermeta, usermeta := usermeta
      nLinks := nLinks, links := links })
  else pure (.outOfMemory, none)

/-! ### What an application sees -/

/-- A member with a presence flag. -/
def flagged {α : Type} (has : Bool) (value : α) : Option α := if has then some value else none

/-- A binary with a presence flag. -/
def flaggedBytes (has : Bool) (bin : Option RiakBinary) : Option Bytes :=
  if has then bin.map RiakBinary.data else none

structure PairContent where
  key : Option Bytes
  value : Option Bytes
deriving DecidableEq, Repr

structure LinkContent where
  bucket : Option Bytes
  key : Option Bytes
  tag : Option Bytes
deriving DecidableEq, Repr

/-- The content of an object: the members that are there. -/
structure ObjectContent where
  value : Option Bytes
  charset : Option Bytes
  contentEncoding : Option Bytes
  contentType : Option Bytes
  deleted : Option RiakBoolean
  lastMod : Option UInt32
  lastModUsecs : Option UInt32
  vtag : Option Bytes
  indexes : List PairContent
  usermeta : List PairContent
  links : List LinkContent
deriving DecidableEq, Repr

/-- The first `n` entries of an array of pointers. -/
def firstEntries {α : Type} (n : Int) (array : Option (List (Option α))) : List α :=
  ((array.getD []).take n.toNat).filterMap id

def RiakPair.content (pair : RiakPair) : PairContent where
  key := pair.key.map RiakBinary.data
  value := flaggedBytes pair.hasValue pair.value

def RiakLink.content (link : RiakLink) : LinkContent where
  bucket := flaggedBytes link.hasBucket link.bucket
  key := flaggedBytes link.hasKey link.key
  tag := flaggedBytes link.hasTag link.tag

def RiakObject.content (obj : RiakObject) : ObjectContent where
  value := obj.value.map RiakBinary.data
  charset := flaggedBytes obj.hasCharset obj.charset
  contentEncoding := flaggedBytes obj.hasContentEncoding obj.encoding
  contentType := flaggedBytes obj.hasContentType obj.contentType
  deleted := flagged obj.hasDeleted obj.deleted
  lastMod := flagged obj.hasLastMod obj.lastMod
  lastModUsecs := flagged obj.hasLastModUsecs obj.lastModUsecs
  vtag := flaggedBytes obj.hasVtag obj.vtag
  indexes := (firstEntries obj.nIndexes obj.indexes).map RiakPair.content
  usermeta := (firstEntries obj.nUsermeta obj.usermeta).map RiakPair.content
  links := (firstEntries obj.nLinks obj.links).map RiakLink.content

/-- The items that a repeated member announces. -/
def Repeated.entries {α : Type} (r : Repeated α) : List α := (r.items.getD []).take r.count

def RpbPair.content (pair : RpbPair) : PairContent where
  key := some pair.key
  value := flagged pair.hasValue pair.value

def RpbLink.content (link : RpbLink) : LinkContent where
  bucket := flagged link.hasBucket link.bucket
  key := flagged link.hasKey link.key
  tag := flagged link.hasTag link.tag

def RpbContent.content (c : RpbContent) : ObjectContent where
  value := some c.value
  charset := flagged c.hasCharset c.charset
  contentEncoding := flagged c.hasContentEncoding c.contentEncoding
  contentType := flagged c.hasContentType c.contentType
  deleted := flagged c.hasDeleted c.deleted
  lastMod := flagged c.hasLastMod c.lastMod
  lastModUsecs := flagged c.hasLastModUsecs c.lastModUsecs
  vtag := flagged c.hasVtag c.vtag
  indexes := c.indexes.entries.map RpbPair.content
  usermeta := c.usermeta.entries.map RpbPair.content
  links := c.links.entries.map RpbLink.content

/-! ### Encoding a content

The message that a content is sent as: members that are not there keep the value
that `RPB_CONTENT__INIT` gives them. -/

/-- A repeated member with these items; without any it stays as initialised. -/
def repeatedOf {α : Type} (items : List α) : Repeated α :=
  if items.isEmpty then {} else ⟨items.length, some items⟩

def PairContent.encoded (pair : PairContent) : RpbPair where
  key := pair.key.getD []
  hasValue := pair.value.isSome
  value := pair.value.getD []

def LinkContent.encoded (link : LinkContent) : RpbLink where
  hasBucket := link.bucket.isSome
  bucket := link.bucket.getD []
  hasKey := link.key.isSome
  key := link.key.getD []
  hasTag := link.tag.isSome
  tag := link.tag.getD []

def ObjectContent.encoded (c : ObjectContent) : RpbContent where
  value := c.value.getD []
  hasContentType := c.contentType.isSome
  contentType := c.contentType.getD []
  hasCharset := c.charset.isSome
  charset := c.charset.getD []
  hasContentEncoding := c.contentEncoding.isSome
  contentEncoding := c.contentEncoding.getD []
  hasVtag := c.vtag.isSome
  vtag := c.vtag.getD []
  links := repeatedOf (c.links.map LinkContent.encoded)
  hasLastMod := c.lastMod.isSome
  lastMod := c.lastMod.getD 0
  hasLastModUsecs := c.lastModUsecs.isSome
  lastModUsecs := c.lastModUsecs.getD 0
  usermeta := repeatedOf (c.usermeta.map PairContent.encoded)
  indexes := repeatedOf (c.indexes.map PairContent.encoded)
  hasDeleted := c.deleted.isSome
  deleted := c.deleted.getD 0

/-- An object whose value is set, whose presence flags imply binaries, and whose
    arrays hold what their counts say. -/
structure RiakObject.HasContent (obj : RiakObject) : Prop where
  value : obj.value.isSome
  charset : obj.hasCharset = true → obj.charset.isSome
  encoding : obj.hasContentEncoding = true → obj.encoding.isSome
  contentType : obj.hasContentType = true → obj.contentType.isSome
  vtag : obj.hasVtag = true → obj.vtag.isSome
  indexes : EntriesSet obj.nIndexes obj.indexes RiakPair.Complete
  usermeta : EntriesSet obj.nUsermeta obj.usermeta RiakPair.Complete
  links : EntriesSet obj.nLinks obj.links RiakLink.Complete

theorem RiakObject.Complete.hasContent {obj : RiakObject} (h : obj.Complete) : obj.HasContent where
  value := h.value
  charset := h.charset
  encoding := h.encoding
  contentType := h.contentType
  vtag := h.vtag
  indexes := h.indexes
  usermeta := h.usermeta
  links := h.links

@[simp] theorem flagged_isSome {α : Type} (has : Bool) (value : α) :
    (flagged has value).isSome = has := by
  cases has <;> rfl

@[simp] theorem flagged_getD_zero {α : Type} [OfNat α 0] (has : Bool) (value : α) :
    (flagged has value).getD 0 = assignIf has value := by
  cases has <;> rfl

theorem flaggedBytes_isSome {has : Bool} {bin : Option RiakBinary}
    (hbin : has = true → bin.isSome) : (flaggedBytes has bin).isSome = has := by
  cases has with
  | false => rfl
  | true =>
    unfold flaggedBytes
    rw [if_pos rfl, Option.isSome_map, hbin rfl]

theorem copyToPbIf_of_flagged {has : Bool} {bin : Option RiakBinary}
    (hbin : has = true → bin.isSome) :
    copyToPbIf has bin = pure ((flaggedBytes has bin).getD []) := by
  cases has with
  | false => rfl
  | true =>
    obtain ⟨b, rfl⟩ := Option.isSome_iff_exists.mp (hbin rfl)
    rfl

theorem riakBinaryCopyToPb_of_data {bin : Option RiakBinary} (hbin : bin.isSome) :
    riakBinaryCopyToPb bin = pure ((bin.map RiakBinary.data).getD []) := by
  obtain ⟨b, rfl⟩ := Option.isSome_iff_exists.mp hbin
  rfl

/-! ### The entries of an array -/

theorem take_eq_map_some {α : Type} : ∀ (n : Nat) (slots : List (Option α)),
    (∀ i < n, ∃ entry, slots[i]? = some (some entry)) →
    ∃ entries : List α, slots.take n = entries.map some ∧ entries.length = n := by
  intro n
  induction n with
  | zero => intro slots _; exact ⟨[], rfl, rfl⟩
  | succ n ih =>
    intro slots hset
    cases slots with
    | nil =>
      obtain ⟨entry, hentry⟩ := hset 0 (Nat.succ_pos n)
      cases hentry
    | cons slot slots =>
      obtain ⟨first, hfirst⟩ := hset 0 (Nat.succ_pos n)
      rw [List.getElem?_cons_zero, Option.some.injEq] at hfirst
      obtain ⟨entries, hentries, hlength⟩ := ih slots (by
        intro i hi
        exact hset (i + 1) (Nat.succ_lt_succ hi))
      refine ⟨first :: entries, ?_, ?_⟩
      · rw [List.take_succ_cons, hfirst, hentries, List.map_cons]
      · rw [List.length_cons, hlength]

theorem firstEntries_of_take {α : Type} {n : Int} {array : Option (List (Option α))}
    {entries : List α} (h : (array.getD []).take n.toNat = entries.map some) :
    firstEntries n array = entries := by
  unfold firstEntries
  rw [h, List.filterMap_map]
  exact List.filterMap_some

theorem EntriesSet.entries {α : Type} {n : Int} {array : Option (List (Option α))} {ok : α → Prop}
    (h : EntriesSet n array ok) :
    (firstEntries n array).length = n.toNat ∧
      ∀ (j : Nat) (entry : α), (firstEntries n array)[j]? = some entry →
        ∃ slots, array = some slots ∧ slots[j]? = some (some entry) ∧ ok entry := by
  obtain ⟨entries, hentries, hlength⟩ := take_eq_map_some n.toNat (array.getD []) (by
    intro i hi
    obtain ⟨slots, entry, rfl, hslot, _⟩ := h.entry i hi
    exact ⟨entry, hslot⟩)
  rw [firstEntries_of_take hentries]
  refine ⟨hlength, ?_⟩
  intro j entry hentry
  have hj : j < n.toNat := by
    rw [← hlength]
    exact (List.getElem?_eq_some_iff.mp hentry).1
  obtain ⟨slots, found, rfl, hslot, hok⟩ := h.entry j hj
  have hsame : (entries.map some)[j]? = some (some found) := by
    rw [← hentries, List.getElem?_take_of_lt hj]
    exact hslot
  rw [List.getElem?_map, hentry, Option.map_some, Option.some.injEq, Option.some.injEq] at hsame
  exact ⟨slots, rfl, hsame ▸ hslot, hsame ▸ hok⟩

/-! ### Encoding an object

A repeated member whose array is complete is copied entry by entry, so the message of
an object with content is the one that its content is sent as. -/

section Ample

variable {heap : Heap}

theorem riakPairCopyToPb_of_complete (h : heap.Ample) {slots : List (Option RiakPair)} {i : Nat}
    {pair : RiakPair} (hslot : slots[i]? = some (some pair)) (hpair : pair.Complete) :
    riakPairCopyToPb (some slots) i heap = .ok (some pair.content.encoded, heap) := by
  unfold riakPairCopyToPb
  rw [C.bind_of_ok (C.allocate_of_ample h)]
  simp only [if_true, entryAt_of_set hslot, pure_bind, riakBinaryCopyToPb_of_data hpair.1,
    copyToPbIf_of_flagged hpair.2]
  simp only [RiakPair.content, PairContent.encoded, flaggedBytes_isSome hpair.2, C.pure_apply]

theorem riakLinkCopyToPb_of_complete (h : heap.Ample) {slots : List (Option RiakLink)} {i : Nat}
    {link : RiakLink} (hslot : slots[i]? = some (some link)) (hlink : link.Complete) :
    riakLinkCopyToPb (some slots) i heap = .ok (some link.content.encoded, heap) := by
  obtain ⟨hbucket, hkey, htag⟩ := hlink
  unfold riakLinkCopyToPb
  rw [C.bind_of_ok (C.allocate_of_ample h)]
  simp only [if_true, entryAt_of_set hslot, pure_bind, copyToPbIf_of_flagged hbucket,
    copyToPbIf_of_flagged hkey, copyToPbIf_of_flagged htag]
  simp only [RiakLink.content, LinkContent.encoded, flaggedBytes_isSome hbucket,
    flaggedBytes_isSome hkey, flaggedBytes_isSome htag, C.pure_apply]

theorem isEmpty_map_of_pos {α β : Type} {entries : List α} (f : α → β)
    (h : 0 < entries.length) : (entries.map f).isEmpty = false := by
  rw [List.isEmpty_eq_false_iff_exists_mem]
  exact List.exists_mem_of_length_pos (by rw [List.length_map]; exact h)

theorem copyRepeated_of_set (h : heap.Ample) {α β : Type} {n : Int}
    {array : Option (List (Option α))} {ok : α → Prop} (hset : EntriesSet n array ok)
    {copy : Option (List (Option α)) → Nat → C (Option β)} (encode : α → β)
    (hcopy : ∀ slots i entry, slots[i]? = some (some entry) → ok entry →
      copy (some slots) i heap = .ok (some (encode entry), heap)) :
    copyRepeated n .ok (fun count => copyArray count (copy array)) heap =
      .ok ((.ok, repeatedOf ((firstEntries n array).map encode)), heap) := by
  obtain ⟨hlength, hentries⟩ := hset.entries
  have hbound := hset.bound
  unfold copyRepeated repeatedOf
  by_cases hn : 0 < n
  · have hitems : ((firstEntries n array).map encode).length = n.toNat := by
      rw [List.length_map, hlength]
    have hne : ((firstEntries n array).map encode).isEmpty = false :=
      isEmpty_map_of_pos encode (by omega)
    have hcopied : copyArray ((firstEntries n array).map encode).length (copy array) heap =
        .ok (some ((firstEntries n array).map encode), heap) :=
      copyArray_of_ample h (by omega) (by
        intro j item hitem
        rw [List.getElem?_map, Option.map_eq_some_iff] at hitem
        obtain ⟨entry, hentry, rfl⟩ := hitem
        obtain ⟨slots, harray, hslot, hok⟩ := hentries j entry hentry
        rw [harray]
        exact hcopy slots j entry hslot hok)
    rw [if_pos ⟨hn, rfl⟩, hne]
    rw [hitems] at hcopied
    rw [C.bind_of_ok hcopied, hitems]
    rfl
  · have hnil : firstEntries n array = [] := List.length_eq_zero_iff.mp (by omega)
    rw [if_neg (by simp [hn]), hnil]
    rfl

theorem riakObjectToPbCopy_of_content (h : heap.Ample) {obj : RiakObject}
    (hobj : obj.HasContent) :
    riakObjectToPbCopy obj heap = .ok ((.ok, obj.content.encoded), heap) := by
  have hindexes := copyRepeated_of_set h hobj.indexes
    (fun pair : RiakPair => pair.content.encoded)
    (fun _ _ _ hslot hpair => riakPairCopyToPb_of_complete h hslot hpair)
  have husermeta := copyRepeated_of_set h hobj.usermeta
    (fun pair : RiakPair => pair.content.encoded)
    (fun _ _ _ hslot hpair => riakPairCopyToPb_of_complete h hslot hpair)
  have hlinks := copyRepeated_of_set h hobj.links
    (fun link : RiakLink => link.content.encoded)
    (fun _ _ _ hslot hlink => riakLinkCopyToPb_of_complete h hslot hlink)
  unfold riakObjectToPbCopy riakPairsCopyToPb riakLinksCopyToPb
  simp only [riakBinaryCopyToPb_of_data hobj.value, copyToPbIf_of_flagged hobj.charset,
    copyToPbIf_of_flagged hobj.encoding, copyToPbIf_of_flagged hobj.contentType,
    copyToPbIf_of_flagged hobj.vtag, pure_bind]
  rw [C.bind_of_ok hindexes]
  simp only
  rw [C.bind_of_ok husermeta]
  simp only
  rw [C.bind_of_ok hlinks]
  simp only [RiakObject.content, ObjectContent.encoded, flagged_isSome, flagged_getD_zero,
    flaggedBytes_isSome hobj.charset, flaggedBytes_isSome hobj.encoding,
    flaggedBytes_isSome hobj.contentType, flaggedBytes_isSome hobj.vtag, List.map_map,
    Function.comp_def, C.pure_apply]

end Ample

/-! ### Messages that can be decoded

A message is sound if each count is the length of its array and an `int`. What
protobuf-c unpacks is; what a content is sent as is, and protobuf-c can pack it again. -/

/-- The array holds what the count says, and the count is an `int`. -/
structure Repeated.Sound {α : Type} (r : Repeated α) : Prop where
  bound : r.count < 2 ^ 31
  items : r.entries.length = r.count

structure RpbContent.Sound (c : RpbContent) : Prop where
  indexes : c.indexes.Sound
  usermeta : c.usermeta.Sound
  links : c.links.Sound

theorem repeatedOf_entries {α : Type} (items : List α) : (repeatedOf items).entries = items := by
  cases items with
  | nil => rfl
  | cons item items => exact List.take_length

theorem repeatedOf_sound {α : Type} {items : List α} (hbound : items.length < 2 ^ 31) :
    (repeatedOf items).Sound := by
  have hcount : (repeatedOf items).count = items.length := by
    cases items with
    | nil => rfl
    | cons item items => rfl
  exact ⟨by rw [hcount]; exact hbound, by rw [repeatedOf_entries, hcount]⟩

theorem repeatedOf_walk {α : Type} (items : List α) : (repeatedOf items).walk = pure () := by
  cases items with
  | nil => rfl
  | cons item items =>
    unfold Repeated.walk repeatedOf
    simp only [List.isEmpty_cons, Bool.false_eq_true, if_false, Nat.le_refl, if_true]

theorem ObjectContent.encoded_walk (c : ObjectContent) : c.encoded.walk = pure () := by
  unfold RpbContent.walk ObjectContent.encoded
  simp only [repeatedOf_walk, pure_bind]

theorem riakObjectToPbCopy_of_complete {heap : Heap} (h : heap.Ample) {obj : RiakObject}
    (hobj : obj.Complete) :
    ∃ content, riakObjectToPbCopy obj heap = .ok ((.ok, content), heap) ∧
      content.walk = pure () :=
  ⟨_, riakObjectToPbCopy_of_content h hobj.hasContent, obj.content.encoded_walk⟩

theorem RiakObject.HasContent.encoded_sound {obj : RiakObject} (hobj : obj.HasContent) :
    obj.content.encoded.Sound := by
  have hcount : ∀ {α : Type} {n : Int} {array : Option (List (Option α))} {ok : α → Prop},
      EntriesSet n array ok → (firstEntries n array).length < 2 ^ 31 := by
    intro α n array ok hset
    have hlength := hset.entries.1
    have hbound := hset.bound
    omega
  have hindexes := hcount hobj.indexes
  have husermeta := hcount hobj.usermeta
  have hlinks := hcount hobj.links
  constructor
  all_goals
    apply repeatedOf_sound
    simp only [RiakObject.content, List.length_map]
    assumption

/-! ### Decoding a message -/

def RpbLink.decoded (pblink : RpbLink) : RiakLink where
  hasBucket := pblink.hasBucket
  bucket := decodedBinary pblink.hasBucket pblink.bucket
  hasKey := pblink.hasKey
  key := decodedBinary pblink.hasKey pblink.key
  hasTag := pblink.hasTag
  tag := decodedBinary pblink.hasTag pblink.tag

/-- The array that a decoder makes for these entries. -/
def decodedArray {α : Type} (entries : List α) : Option (List (Option α)) :=
  if entries.isEmpty then none else some (entries.map some)

/-- What `riak_object_new_from_pb` makes of a message. -/
def RpbContent.decoded (c : RpbContent) : RiakObject where
  value := some ⟨c.value, false⟩
  hasCharset := c.hasCharset
  charset := decodedBinary c.hasCharset c.charset
  hasLastMod := c.hasLastMod
  lastMod := assignIf c.hasLastMod c.lastMod
  hasLastModUsecs := c.hasLastModUsecs
  lastModUsecs := assignIf c.hasLastModUsecs c.lastModUsecs
  hasContentType := c.hasContentType
  contentType := decodedBinary c.hasContentType c.contentType
  hasContentEncoding := c.hasContentEncoding
  encoding := decodedBinary c.hasContentEncoding c.contentEncoding
  hasDeleted := c.hasDeleted
  deleted := assignIf c.hasDeleted c.deleted
  hasVtag := c.hasVtag
  vtag := decodedBinary c.hasVtag c.vtag
  nLinks := c.links.entries.length
  links := decodedArray (c.links.entries.map RpbLink.decoded)
  nUsermeta := c.usermeta.entries.length
  usermeta := decodedArray (c.usermeta.entries.map RpbPair.decoded)
  nIndexes := c.indexes.entries.length
  indexes := decodedArray (c.indexes.entries.map RpbPair.decoded)

section Ample

variable {heap : Heap}

theorem copyFromPbIf_of_ample (h : heap.Ample) (has : Bool) (data : Bytes) :
    copyFromPbIf has data heap = .ok (some (decodedBinary has data), heap) := by
  cases has with
  | false => rfl
  | true =>
    unfold copyFromPbIf
    rw [if_pos rfl, C.bind_of_ok (riakBinaryCopyFromPb_of_ample h data)]
    rfl

theorem Repeated.get {α : Type} {r : Repeated α} {j : Nat} {item : α}
    (hitem : r.entries[j]? = some item) : ∃ items, r.items = some items ∧ items[j]? = some item := by
  unfold Repeated.entries at hitem
  cases hitems : r.items with
  | none =>
    rw [hitems, Option.getD_none, List.take_nil] at hitem
    cases hitem
  | some items =>
    rw [hitems, Option.getD_some] at hitem
    rw [List.getElem?_take] at hitem
    by_cases hj : j < r.count
    · rw [if_pos hj] at hitem
      exact ⟨items, rfl, hitem⟩
    · rw [if_neg hj] at hitem
      cases hitem

theorem riakPairsCopyArrayFromPb_of_sound (h : heap.Ample) {r : Repeated RpbPair} (hr : r.Sound) :
    riakPairsCopyArrayFromPb r.items r.count heap =
      .ok (some (r.entries.map RpbPair.decoded), heap) := by
  have hlength : (r.entries.map RpbPair.decoded).length = r.count := by
    rw [List.length_map, hr.items]
  unfold riakPairsCopyArrayFromPb
  rw [Int.toNat_natCast, ← hlength]
  apply copyArray_of_ample h (by rw [hlength]; exact hr.bound)
  intro j item hitem
  rw [List.getElem?_map, Option.map_eq_some_iff] at hitem
  obtain ⟨pbpair, hpbpair, rfl⟩ := hitem
  obtain ⟨items, hitems, hget⟩ := Repeated.get hpbpair
  rw [hitems, C.deref_some, pure_bind, C.readAt_of_get hget, pure_bind,
    C.bind_of_ok (riakPairsCopyFromPb_of_ample h pbpair)]
  rfl

theorem riakLinkCopyFromPb_of_ample (h : heap.Ample) {items : List RpbLink} {i : Nat}
    {pblink : RpbLink} (hget : items[i]? = some pblink) :
    riakLinkCopyFromPb true (some items) i heap = .ok (some pblink.decoded, heap) := by
  unfold riakLinkCopyFromPb
  rw [C.bind_of_ok (C.allocate_of_ample h)]
  simp only [Bool.true_eq_false, if_false, if_true, C.deref_some, pure_bind,
    C.readAt_of_get hget]
  rw [C.bind_of_ok (copyFromPbIf_of_ample h _ _)]
  simp only
  rw [C.bind_of_ok (copyFromPbIf_of_ample h _ _)]
  simp only
  rw [C.bind_of_ok (copyFromPbIf_of_ample h _ _)]
  rfl

theorem riakLinksCopyFromPb_of_sound (h : heap.Ample) {r : Repeated RpbLink} (hr : r.Sound)
    (hpos : 0 < r.count) :
    riakLinksCopyFromPb r.items r.count heap =
      .ok (some (r.entries.map RpbLink.decoded), heap) := by
  have hlength : (r.entries.map RpbLink.decoded).length = r.count := by
    rw [List.length_map, hr.items]
  have hthere : r.items.isNone = false := by
    obtain ⟨items, hitems, _⟩ := Repeated.get (List.getElem?_eq_getElem (by rw [hr.items]; exact hpos))
    rw [hitems]
    rfl
  unfold riakLinksCopyFromPb
  rw [C.bind_of_ok (C.allocate_of_ample h), hthere]
  simp only [Bool.false_eq_true, if_false, Int.toNat_natCast]
  rw [← hlength]
  apply copyLoop_of_ample _ _ (by rw [hlength, Nat.zero_add]; exact hr.bound)
  intro j item hitem
  rw [List.getElem?_map, Option.map_eq_some_iff] at hitem
  obtain ⟨pblink, hpblink, rfl⟩ := hitem
  obtain ⟨items, hitems, hget⟩ := Repeated.get hpblink
  rw [hitems, Nat.zero_add]
  exact riakLinkCopyFromPb_of_ample h hget

theorem decodeRepeated_of_sound {α β : Type} {r : Repeated α} (hr : r.Sound) (decode : α → β)
    {copy : Int → C (Option (List β))}
    (hcopy : 0 < r.count → copy r.count heap = .ok (some (r.entries.map decode), heap)) :
    decodeRepeated r.count .ok copy heap =
      .ok ((.ok, r.entries.length, decodedArray (r.entries.map decode)), heap) := by
  unfold decodeRepeated decodedArray
  by_cases hpos : 0 < r.count
  · have hbound := hr.bound
    have hcount : Int.bmod r.count (2 ^ 32) = r.count := asInt_of_lt hbound
    have hne : (r.entries.map decode).isEmpty = false :=
      isEmpty_map_of_pos decode (by rw [hr.items]; exact hpos)
    rw [if_pos ⟨hpos, rfl⟩, hcount, C.bind_of_ok (hcopy hpos), hne, hr.items]
    rfl
  · have hzero : r.count = 0 := by omega
    have hnil : r.entries = [] := List.length_eq_zero_iff.mp (by rw [hr.items, hzero])
    rw [if_neg (by simp [hzero]), hnil]
    rfl

theorem riakObjectNewFromPb_of_sound (h : heap.Ample) {c : RpbContent} (hc : c.Sound) :
    riakObjectNewFromPb c heap = .ok ((.ok, some c.decoded), heap) := by
  have hindexes := decodeRepeated_of_sound hc.indexes RpbPair.decoded fun _ =>
    riakPairsCopyArrayFromPb_of_sound h hc.indexes
  have husermeta := decodeRepeated_of_sound hc.usermeta RpbPair.decoded fun _ =>
    riakPairsCopyArrayFromPb_of_sound h hc.usermeta
  have hlinks := decodeRepeated_of_sound hc.links RpbLink.decoded fun hpos =>
    riakLinksCopyFromPb_of_sound h hc.links hpos
  unfold riakObjectNewFromPb
  rw [C.bind_of_ok (C.allocate_of_ample h)]
  simp only [if_true]
  rw [C.bind_of_ok (riakBinaryCopyFromPb_of_ample h _)]
  simp only
  rw [C.bind_of_ok (copyFromPbIf_of_ample h _ _)]
  simp only
  rw [C.bind_of_ok (copyFromPbIf_of_ample h _ _)]
  simp only
  rw [C.bind_of_ok (copyFromPbIf_of_ample h _ _)]
  simp only
  rw [C.bind_of_ok (copyFromPbIf_of_ample h _ _)]
  simp only
  rw [C.bind_of_ok hindexes]
  simp only
  rw [C.bind_of_ok husermeta]
  simp only
  rw [C.bind_of_ok hlinks]
  rfl

end Ample

/-! ### The round trip

One lemma for each kind of member, and then the three kinds of entries;
`decoded_content` and `encoded_content` are the two halves. -/

theorem flaggedBytes_decodedBinary (has : Bool) (data : Bytes) :
    flaggedBytes has (decodedBinary has data) = flagged has data := by
  cases has <;> rfl

theorem flagged_flaggedBytes {has : Bool} {bin : Option RiakBinary}
    (hbin : has = true → bin.isSome) :
    flagged has ((flaggedBytes has bin).getD []) = flaggedBytes has bin := by
  cases has with
  | false => rfl
  | true =>
    obtain ⟨b, rfl⟩ := Option.isSome_iff_exists.mp (hbin rfl)
    rfl

theorem flagged_assignIf {α : Type} [OfNat α 0] (has : Bool) (value : α) :
    flagged has (assignIf has value) = flagged has value := by
  cases has <;> rfl

theorem decodedBinary_isSome {has : Bool} (data : Bytes) (hhas : has = true) :
    (decodedBinary has data).isSome := by
  rw [hhas]
  rfl

theorem firstEntries_decodedArray {α : Type} (entries : List α) :
    firstEntries entries.length (decodedArray entries) = entries := by
  apply firstEntries_of_take
  unfold decodedArray
  cases entries with
  | nil => rfl
  | cons entry entries =>
    rw [List.isEmpty_cons, if_neg Bool.false_ne_true, Option.getD_some, Int.toNat_natCast]
    exact List.take_of_length_le (Nat.le_of_eq (List.length_map some))

theorem Repeated.Sound.decoded_set {α β : Type} {r : Repeated α} (hr : r.Sound) {decode : α → β}
    {ok : β → Prop} (hok : ∀ item, ok (decode item)) :
    EntriesSet r.entries.length (decodedArray (r.entries.map decode)) ok where
  bound := by
    have hbound := hr.bound
    have hitems := hr.items
    omega
  entry := by
    intro i hi
    rw [Int.toNat_natCast] at hi
    have hne : (r.entries.map decode).isEmpty = false := isEmpty_map_of_pos decode (by omega)
    refine ⟨(r.entries.map decode).map some, decode r.entries[i], ?_, ?_, hok _⟩
    · unfold decodedArray
      rw [hne, if_neg Bool.false_ne_true]
    · rw [List.getElem?_map, List.getElem?_map, List.getElem?_eq_getElem hi]
      rfl

theorem RpbPair.decoded_complete (pbpair : RpbPair) : pbpair.decoded.Complete :=
  ⟨rfl, decodedBinary_isSome _⟩

theorem RpbLink.decoded_complete (pblink : RpbLink) : pblink.decoded.Complete :=
  ⟨decodedBinary_isSome _, decodedBinary_isSome _, decodedBinary_isSome _⟩

theorem RpbPair.decoded_content (pbpair : RpbPair) : pbpair.decoded.content = pbpair.content := by
  unfold RiakPair.content RpbPair.content RpbPair.decoded
  rw [flaggedBytes_decodedBinary]
  rfl

theorem RpbLink.decoded_content (pblink : RpbLink) : pblink.decoded.content = pblink.content := by
  unfold RiakLink.content RpbLink.content RpbLink.decoded
  simp only [flaggedBytes_decodedBinary]

theorem PairContent.encoded_content {pair : PairContent} (hkey : pair.key.isSome) :
    pair.encoded.content = pair := by
  obtain ⟨key, value⟩ := pair
  obtain ⟨data, rfl⟩ := Option.isSome_iff_exists.mp hkey
  cases value <;> rfl

theorem LinkContent.encoded_content (link : LinkContent) : link.encoded.content = link := by
  obtain ⟨bucket, key, tag⟩ := link
  cases bucket <;> cases key <;> cases tag <;> rfl

theorem RpbContent.Sound.decoded_hasContent {c : RpbContent} (hc : c.Sound) :
    c.decoded.HasContent where
  value := rfl
  charset := decodedBinary_isSome _
  encoding := decodedBinary_isSome _
  contentType := decodedBinary_isSome _
  vtag := decodedBinary_isSome _
  indexes := hc.indexes.decoded_set RpbPair.decoded_complete
  usermeta := hc.usermeta.decoded_set RpbPair.decoded_complete
  links := hc.links.decoded_set RpbLink.decoded_complete

theorem RpbContent.decoded_content (c : RpbContent) : c.decoded.content = c.content := by
  have hentries : ∀ {α β γ : Type} (items : List α) (decode : α → β) (read : β → γ) (view : α → γ),
      (∀ item, read (decode item) = view item) →
      (firstEntries items.length (decodedArray (items.map decode))).map read =
        items.map view := by
    intro α β γ items decode read view hview
    have hfirst := firstEntries_decodedArray (items.map decode)
    rw [List.length_map] at hfirst
    rw [hfirst, List.map_map]
    exact List.map_congr_left fun item _ => hview item
  unfold RiakObject.content RpbContent.content RpbContent.decoded
  simp only [flaggedBytes_decodedBinary, flagged_assignIf,
    hentries _ _ _ _ RpbPair.decoded_content, hentries _ _ _ _ RpbLink.decoded_content]
  rfl

theorem RiakObject.HasContent.encoded_content {obj : RiakObject} (hobj : obj.HasContent) :
    obj.content.encoded.content = obj.content := by
  have hpairs : ∀ {n : Int} {array : Option (List (Option RiakPair))},
      EntriesSet n array RiakPair.Complete →
      (repeatedOf (((firstEntries n array).map RiakPair.content).map
        PairContent.encoded)).entries.map RpbPair.content =
        (firstEntries n array).map RiakPair.content := by
    intro n array hset
    rw [repeatedOf_entries, List.map_map, List.map_map]
    apply List.map_congr_left
    intro pair hpair
    obtain ⟨j, hj⟩ := List.mem_iff_getElem?.mp hpair
    obtain ⟨_, _, _, hcomplete⟩ := hset.entries.2 j pair hj
    exact PairContent.encoded_content (by
      rw [RiakPair.content, Option.isSome_map]
      exact hcomplete.1)
  have hlinks : ∀ links : List LinkContent,
      (repeatedOf (links.map LinkContent.encoded)).entries.map RpbLink.content = links := by
    intro links
    rw [repeatedOf_entries, List.map_map]
    exact (List.map_congr_left fun link _ => link.encoded_content).trans (List.map_id _)
  have hflagged : ∀ {α : Type} (member : Option α) (init : α),
      flagged member.isSome (member.getD init) = member := by
    intro α member init
    cases member <;> rfl
  obtain ⟨value, hvalue⟩ := Option.isSome_iff_exists.mp hobj.value
  unfold RpbContent.content ObjectContent.encoded
  simp only [hflagged]
  unfold RiakObject.content
  simp only [hpairs hobj.indexes, hpairs hobj.usermeta, hlinks, hvalue, Option.map_some,
    Option.getD_some]

/-- **Content of an object.** An object with content, encoded into a fresh
    message that is decoded again, comes back with the same content: the same
    value, the same members there and absent with the same bytes, and the same
    links, user metadata and indexes in the same order. -/
theorem riak_object_content_round_trip (obj : RiakObject) (hobj : obj.HasContent)
    (heap heap' : Heap) (h : heap.Ample) (h' : heap'.Ample) :
    ∃ (content : RpbContent) (decoded : RiakObject),
      riakObjectToPbCopy obj heap = .ok ((.ok, content), heap) ∧
      riakObjectNewFromPb content heap' = .ok ((.ok, some decoded), heap') ∧
      decoded.HasContent ∧ decoded.content = obj.content := by
  have hsound := hobj.encoded_sound
  refine ⟨obj.content.encoded, obj.content.encoded.decoded, riakObjectToPbCopy_of_content h hobj,
    riakObjectNewFromPb_of_sound h' hsound, hsound.decoded_hasContent, ?_⟩
  rw [RpbContent.decoded_content, hobj.encoded_content]

/-- A link without a tag. -/
def untaggedLink : RiakLink where
  hasBucket := true
  bucket := some ⟨[0x62], true⟩
  hasKey := true
  key := some ⟨[0x6b], true⟩

/-- An object with such a link and a user metadata pair without a value. -/
def linkedObject : RiakObject where
  value := some ⟨[0x76], true⟩
  hasCharset := true
  charset := some ⟨[0x75], true⟩
  nLinks := 1
  links := some [some untaggedLink]
  nUsermeta := 1
  usermeta := some [some { key := some ⟨[0x6d], true⟩ }]

theorem riak_object_content_round_trip_linked :
    ∃ (content : RpbContent) (decoded : RiakObject),
      riakObjectToPbCopy linkedObject Heap.fresh = .ok ((.ok, content), Heap.fresh) ∧
      riakObjectNewFromPb content Heap.fresh = .ok ((.ok, some decoded), Heap.fresh) ∧
      decoded.HasContent ∧ decoded.content = linkedObject.content := by
  refine riak_object_content_round_trip linkedObject ?_ Heap.fresh Heap.fresh Heap.fresh_ample
    Heap.fresh_ample
  constructor
  case indexes => exact ⟨by decide, fun i hi => absurd hi (Nat.not_lt_zero i)⟩
  case usermeta =>
    refine ⟨by decide, fun i hi => ?_⟩
    change i < 1 at hi
    obtain rfl : i = 0 := Nat.lt_one_iff.mp hi
    exact ⟨_, _, rfl, rfl, rfl, fun hvalue => absurd hvalue Bool.false_ne_true⟩
  case links =>
    refine ⟨by decide, fun i hi => ?_⟩
    change i < 1 at hi
    obtain rfl : i = 0 := Nat.lt_one_iff.mp hi
    exact ⟨_, _, rfl, rfl, fun _ => rfl, fun _ => rfl,
      fun htag => absurd htag Bool.false_ne_true⟩
  all_goals decide

end RiakClient
