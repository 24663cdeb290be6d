import RiakClient.RequestMemory
import RiakClient.StoredListings

/-!
# Where a request is stored

The encoders. A request owns the buffer that it was packed into, and the operation owns
the request and its own copies of the address; the arrays that a put is packed from are
freed when it is packed. An encoder that finds no memory leaves the operation to its
caller, and the caller does not free it.
-/

namespace RiakClient.Stored

open CSem Booked

variable {ρ ρ' : Type}

/-! ### Operations without a request

What an encoder leaves is one of two things: an operation that can be sent and read
for, or one that nobody knows any more. The request belongs to the operation from the
moment that it is made. -/

def riakOperationSetBucketType (rop : RiakOperation ρ) (bucketType : Option RiakClient.RiakBinary) :
    Booked (RiakOperation ρ) := do
  let copy ← riakBinaryCopy bucketType
  pure { rop with request := { rop.request with bucketType := copy } }

def riakOperationSetBucket (rop : RiakOperation ρ) (bucket : Option RiakClient.RiakBinary) :
    Booked (RiakOperation ρ) := do
  let copy ← riakBinaryCopy bucket
  pure { rop with request := { rop.request with bucket := copy } }

def riakOperationSetKey (rop : RiakOperation ρ) (key : Option RiakClient.RiakBinary) :
    Booked (RiakOperation ρ) := do
  let copy ← riakBinaryCopy key
  pure { rop with request := { rop.request with key := copy } }

/-- The end of an encoder that packs a message. `freeArrays` is what stands between the
    packing and the request, which is nothing but in a put. -/
def packRequest (rop : RiakOperation ρ) (freeArrays : Booked Unit) (msgid : UInt8) (msglen : Nat)
    (packed : Bytes) (decoder : RiakResponseDecoder) (noBuffer : RiakError) :
    Booked (RiakError × RiakOperation ρ) := do
  match ← malloc with
  | none => pure (noBuffer, rop)
  | some block =>
      if msglen < packed.length then lift (C.fault .outOfBounds)
      else do
        freeArrays
        match ← riakPbMessageNew msgid msglen (some block) packed with
        | none => pure (.outOfMemory, rop)
        | some request =>
            pure (.ok, { rop with pbRequest := some request, decoder := some decoder })

def riakPackRequest (rop : RiakOperation ρ) (msgid : UInt8) (msglen : Nat) (packed : Bytes)
    (decoder : RiakResponseDecoder) (noBuffer : RiakError) :
    Booked (RiakError × RiakOperation ρ) :=
  packRequest rop (pure ()) msgid msglen packed decoder noBuffer

def riakEmptyRequest (rop : RiakOperation ρ) (msgid : UInt8) (decoder : RiakResponseDecoder) :
    Booked (RiakError × RiakOperation ρ) := do
  match ← riakPbMessageNew msgid 0 none [] with
  | none => pure (.outOfMemory, rop)
  | some request => pure (.ok, { rop with pbRequest := some request, decoder := some decoder })

/-- An operation that has just been made, perhaps with an address. -/
structure RiakOperation.Unbuilt (rop : RiakOperation ρ) : Prop where
  pbRequest : rop.pbRequest = none
  response : rop.response = none
  between : rop.Between

/-- The errors of the encoders. -/
def Unsent (err : RiakError) : Prop := err = .outOfMemory ∨ err = .testFailure

/-- What an encoder leaves: an operation that can be sent and read for, or one that
    nobody knows any more. -/
def Encoded (decoder : RiakResponseDecoder) (out : RiakError × RiakOperation ρ)
    (after : Multiset Addr) : Prop :=
  if out.1 = .ok then after = blocks out.2 ∧ out.2.decoder = some decoder ∧ out.2.Between ∧
    out.2.response = none
  else Unsent out.1 ∧ out.2.addr ∈ after

def encodedMap (f : ρ → ρ') (out : RiakError × RiakOperation ρ) :
    RiakError × RiakClient.RiakOperation ρ' :=
  (out.1, out.2.plain f)

theorem RiakOperation.addr_mem (rop : RiakOperation ρ) : rop.addr ∈ blocks rop := by
  rw [RiakOperation.blocks_eq]
  unfold RiakOperation.frame
  simp

theorem Encoded.refused {decoder : RiakResponseDecoder} {err : RiakError} (herr : Unsent err)
    (rop : RiakOperation ρ) {after : Multiset Addr} (h : blocks rop ≤ after) :
    Encoded decoder (err, rop) after := by
  unfold Encoded
  have hfailed : err ≠ .ok := by
    rintro rfl
    rcases herr with h | h <;> cases h
  rw [if_neg hfailed]
  exact ⟨herr, Multiset.mem_of_le h rop.addr_mem⟩

theorem Encoded.built {rop : RiakOperation ρ} (h : rop.Unbuilt) (decoder : RiakResponseDecoder)
    (request : RiakPbMessage) :
    Encoded decoder (.ok, { rop with pbRequest := some request, decoder := some decoder })
      (blocks request + blocks rop) := by
  unfold Encoded
  rw [if_pos rfl]
  refine ⟨?_, rfl, ⟨h.between.msgbuf, h.between.error⟩, h.response⟩
  show _ = blocks request + _
  show _ + (blocks rop.pbRequest + _) = _
  rw [h.pbRequest, blocks_none, zero_add]

theorem packRequest_tracks (f : ρ → ρ') {rop : RiakOperation ρ} (h : rop.Unbuilt)
    {freeArrays : Booked Unit} {arrays : Multiset Addr}
    (hfree : Tracks arrays freeArrays (fun _ => ()) (pure ()) fun _ after => after = 0)
    (msgid : UInt8) (msglen : Nat) (packed : Bytes) (decoder : RiakResponseDecoder)
    {noBuffer : RiakError} (hnoBuffer : Unsent noBuffer) :
    Tracks (arrays + blocks rop) (packRequest rop freeArrays msgid msglen packed decoder noBuffer)
      (encodedMap f)
      (RiakClient.riakPackRequest (rop.plain f) msgid msglen packed decoder noBuffer)
      (Encoded decoder) := by
  unfold packRequest RiakClient.riakPackRequest
  refine Tracks.malloc.after ?_
  rintro (_ | block) _ rfl
  · refine Tracks.pure (Encoded.refused hnoBuffer rop ?_)
    rw [blocks_none, zero_add]
    exact Multiset.le_add_left _ _
  · simp only [Option.isSome_some, if_true]
    by_cases hshort : msglen < packed.length
    · rw [if_pos hshort, if_pos hshort]
      exact Tracks.fault .outOfBounds
    · rw [if_neg hshort, if_neg hshort]
      have hsplit : blocks (some block) + (arrays + blocks rop) =
          arrays + ({block} + blocks rop) := by
        rw [blocks_some, blocks_addr]
        abel
      refine hfree.frees hsplit ?_
      refine (riakPbMessageNew_tracks _ _ _ _).after ?_
      rintro (_ | request) _ ⟨rfl, hblock⟩
      · refine Tracks.pure (Encoded.refused (Or.inl rfl) rop ?_)
        exact (Multiset.le_add_left _ _).trans (Multiset.le_add_left _ _)
      · have hrequest : pbrespBlocks (some request) + ({block} + blocks rop) =
            blocks request + blocks rop := by
          show {request.addr} + ({block} + blocks rop) =
            blocks request.block + {request.addr} + blocks rop
          rw [hblock request rfl, blocks_some, blocks_addr]
          abel
        refine Tracks.pure ?_
        rw [hrequest]
        exact Encoded.built h decoder request

theorem riakPackRequest_tracks (f : ρ → ρ') {rop : RiakOperation ρ} (h : rop.Unbuilt)
    (msgid : UInt8) (msglen : Nat) (packed : Bytes) (decoder : RiakResponseDecoder)
    {noBuffer : RiakError} (hnoBuffer : Unsent noBuffer) :
    Tracks (blocks rop) (riakPackRequest rop msgid msglen packed decoder noBuffer) (encodedMap f)
      (RiakClient.riakPackRequest (rop.plain f) msgid msglen packed decoder noBuffer)
      (Encoded decoder) := by
  have hpack := packRequest_tracks f h Tracks.nothing msgid msglen packed decoder hnoBuffer
  rwa [zero_add] at hpack

theorem riakEmptyRequest_tracks (f : ρ → ρ') {rop : RiakOperation ρ} (h : rop.Unbuilt)
    (msgid : UInt8) (decoder : RiakResponseDecoder) :
    Tracks (blocks rop) (riakEmptyRequest rop msgid decoder) (encodedMap f)
      (RiakClient.riakEmptyRequest (rop.plain f) msgid decoder) (Encoded decoder) := by
  unfold riakEmptyRequest RiakClient.riakEmptyRequest
  refine (riakPbMessageNew_tracks _ _ _ _).after ?_
  rintro (_ | request) _ ⟨rfl, hblock⟩
  · refine Tracks.pure (Encoded.refused (Or.inl rfl) rop ?_)
    exact Multiset.le_add_left _ _
  · have hrequest : blocks request = {request.addr} := by
      show blocks request.block + {request.addr} = _
      rw [hblock request rfl, blocks_none, zero_add]
    refine Tracks.pure ?_
    have hbuilt := Encoded.built h decoder request
    rw [hrequest] at hbuilt
    exact hbuilt

/-! ### The content of a put

A member is copied with everything, or protobuf-c cannot walk it and the call ends
there; so the arrays that are freed behind the packing are whole. -/

/-- A repeated member with the blocks of its array and of its entries. -/
structure PbArray (β : Type) where
  count : Nat := 0
  items : Option (Addr × List (Unpacked β)) := none

def PbArray.plain {β : Type} (array : PbArray β) : Repeated β :=
  ⟨array.count, array.items.map fun items => items.2.map Unpacked.message⟩

/-- The array as the freeing loops see it. -/
def PbArray.slots {β : Type} (array : PbArray β) : Option (Slots (Unpacked β)) :=
  array.items.map fun items => ⟨some items.1, items.2.map some⟩

/-- A content on its way out: its own members, and its arrays. -/
structure PbContent where
  members : RpbContent
  indexes : PbArray RpbPair
  usermeta : PbArray RpbPair
  links : PbArray RpbLink

def PbContent.plain (content : PbContent) : RpbContent :=
  { content.members with
    indexes := content.indexes.plain
    usermeta := content.usermeta.plain
    links := content.links.plain }

def riakPairCopyToPb (pair : Option (List (Option RiakClient.RiakPair))) (i : Nat) :
    Booked (Option (Unpacked RpbPair)) := do
  match ← malloc with
  | none => pure none
  | some addr => do
      let entry ← lift (entryAt pair i)
      let key ← lift (riakBinaryCopyToPb entry.key)
      let value ← lift (copyToPbIf entry.hasValue entry.value)
      pure (some ⟨addr, { key := key, hasValue := entry.hasValue, value := value }⟩)

def riakLinkCopyToPb (link : Option (List (Option RiakClient.RiakLink))) (i : Nat) :
    Booked (Option (Unpacked RpbLink)) := do
  match ← malloc with
  | none => pure none
  | some addr => do
      let entry ← lift (entryAt link i)
      let bucket ← lift (copyToPbIf entry.hasBucket entry.bucket)
      let key ← lift (copyToPbIf entry.hasKey entry.key)
      let tag ← lift (copyToPbIf entry.hasTag entry.tag)
      pure (some ⟨addr, {
        hasBucket := entry.hasBucket, bucket := bucket
        hasKey := entry.hasKey, key := key
        hasTag := entry.hasTag, tag := tag }⟩)

/-- `riak_pairs_copy_to_pb` and `riak_links_copy_to_pb`. What is made before an entry is
    refused is lost. -/
def copyArray {β : Type} (count : Nat) (copy : Nat → Booked (Option (Unpacked β))) :
    Booked (Option (Addr × List (Unpacked β))) := do
  match ← malloc with
  | none => pure none
  | some addr => do
      let (all, items) ← copyLoop copy count 0
      if all then pure (some (addr, items)) else pure none

def copyRepeated {β : Type} (n : Int) (err : RiakError)
    (copy : Nat → Booked (Option (Addr × List (Unpacked β)))) :
    Booked (RiakError × PbArray β) :=
  if 0 < n ∧ err = .ok then do
    match ← copy n.toNat with
    | none => pure (.outOfMemory, ⟨n.toNat, none⟩)
    | some items => pure (.ok, ⟨n.toNat, some items⟩)
  else pure (err, {})

def riakObjectToPbCopy (from_ : RiakClient.RiakObject) : Booked (RiakError × PbContent) := do
  let value ← lift (riakBinaryCopyToPb from_.value)
  let charset ← lift (copyToPbIf from_.hasCharset from_.charset)
  let contentEncoding ← lift (copyToPbIf from_.hasContentEncoding from_.encoding)
  let contentType ← lift (copyToPbIf from_.hasContentType from_.contentType)
  let vtag ← lift (copyToPbIf from_.hasVtag from_.vtag)
  let (err, indexes) ← copyRepeated from_.nIndexes .ok fun n =>
    copyArray n (riakPairCopyToPb from_.indexes)
  let (err, usermeta) ← copyRepeated from_.nUsermeta err fun n =>
    copyArray n (riakPairCopyToPb from_.usermeta)
  let (err, links) ← copyRepeated from_.nLinks err fun n =>
    copyArray n (riakLinkCopyToPb from_.links)
  pure (err, {
    members := {
      value := value
      hasCharset := from_.hasCharset, charset := charset
      hasContentEncoding := from_.hasContentEncoding, contentEncoding := contentEncoding
      hasContentType := from_.hasContentType, contentType := contentType
      hasDeleted := from_.hasDeleted
      deleted := assignIf from_.hasDeleted from_.deleted
      hasLastMod := from_.hasLastMod
      lastMod := assignIf from_.hasLastMod from_.lastMod
      hasLastModUsecs := from_.hasLastModUsecs
      lastModUsecs := assignIf from_.hasLastModUsecs from_.lastModUsecs
      hasVtag := from_.hasVtag, vtag := vtag }
    indexes := indexes
    usermeta := usermeta
    links := links })

/-- `riak_pairs_free_pb` and `riak_links_free_pb`. -/
def freePbArray {β : Type} (array : PbArray β) : Booked Unit :=
  freeSlots (fun entry => free (entry.map Unpacked.addr)) array.slots array.count

def riakObjectFreePb (content : PbContent) : Booked Unit := do
  freePbArray content.indexes
  freePbArray content.usermeta
  freePbArray content.links

instance {β : Type} : Owns (PbArray β) := ⟨fun array => blocks array.slots⟩

instance : Owns PbContent :=
  ⟨fun content => blocks content.indexes + (blocks content.usermeta + blocks content.links)⟩

/-- An array that can be freed. -/
def PbArray.Whole {β : Type} (array : PbArray β) : Prop :=
  Filled (fun _ => True) array.count array.slots

/-- What is left of an array that protobuf-c can walk. -/
def PackableLeaves {β : Type} (array : PbArray β) (after : Multiset Addr) : Prop :=
  (array.items = none → array.count = 0) → after = blocks array ∧ array.Whole

theorem riakPairCopyToPb_tracks (pair : Option (List (Option RiakClient.RiakPair))) (i : Nat) :
    Tracks 0 (riakPairCopyToPb pair i) (Option.map Unpacked.message)
      (RiakClient.riakPairCopyToPb pair i)
      fun out after => ∀ entry, out = some entry → after = blocks entry ∧ True := by
  unfold riakPairCopyToPb RiakClient.riakPairCopyToPb
  refine Tracks.malloc.bind ?_
  rintro (_ | addr) _ rfl
  · exact Tracks.pure nofun
  · refine Tracks.lift_bind fun entry _ _ _ => ?_
    refine Tracks.lift_bind fun key _ _ _ => ?_
    refine Tracks.lift_bind fun value _ _ _ => ?_
    refine Tracks.pure ?_
    rintro _ ⟨⟩
    exact ⟨rfl, trivial⟩

theorem riakLinkCopyToPb_tracks (link : Option (List (Option RiakClient.RiakLink))) (i : Nat) :
    Tracks 0 (riakLinkCopyToPb link i) (Option.map Unpacked.message)
      (RiakClient.riakLinkCopyToPb link i)
      fun out after => ∀ entry, out = some entry → after = blocks entry ∧ True := by
  unfold riakLinkCopyToPb RiakClient.riakLinkCopyToPb
  refine Tracks.malloc.bind ?_
  rintro (_ | addr) _ rfl
  · exact Tracks.pure nofun
  · refine Tracks.lift_bind fun entry _ _ _ => ?_
    refine Tracks.lift_bind fun bucket _ _ _ => ?_
    refine Tracks.lift_bind fun key _ _ _ => ?_
    refine Tracks.lift_bind fun tag _ _ _ => ?_
    refine Tracks.pure ?_
    rintro _ ⟨⟩
    exact ⟨rfl, trivial⟩

theorem copyRepeated_tracks {β : Type} {copy : Nat → Booked (Option (Unpacked β))}
    {plainCopy : Nat → C (Option β)}
    (hcopy : ∀ i, Tracks 0 (copy i) (Option.map Unpacked.message) (plainCopy i)
      fun out after => ∀ entry, out = some entry → after = blocks entry ∧ True)
    (n : Int) (err : RiakError) :
    Tracks 0 (copyRepeated n err fun count => copyArray count copy)
      (fun out => (out.1, out.2.plain))
      (RiakClient.copyRepeated n err fun count => RiakClient.copyArray count plainCopy)
      fun out after => PackableLeaves out.2 after := by
  unfold copyRepeated RiakClient.copyRepeated copyArray RiakClient.copyArray
  by_cases hsome : 0 < n ∧ err = .ok
  · rw [if_pos hsome, if_pos hsome, bind_assoc, bind_assoc]
    have hrefused : ∀ after : Multiset Addr,
        PackableLeaves (⟨n.toNat, none⟩ : PbArray β) after := by
      intro after hzero
      have hcount : n.toNat = 0 := hzero rfl
      omega
    refine Tracks.malloc.bind ?_
    rintro (_ | addr) _ rfl
    · exact Tracks.pure (hrefused _)
    · simp only [Option.isSome_some, if_true, bind_assoc]
      refine (copyLoop_tracks hcopy n.toNat 0).after ?_
      rintro ⟨all, items⟩ _ ⟨⟨lost, rfl, hall⟩, hgood, hroom⟩
      cases all with
      | false => exact Tracks.pure (hrefused _)
      | true =>
        obtain ⟨rfl, hlength⟩ := hall rfl
        obtain ⟨hfilled, _⟩ := filled_of_room hroom hgood (some addr)
        simp only at hlength hfilled
        rw [hlength] at hfilled
        refine Tracks.pure fun _ => ⟨?_, hfilled⟩
        show blocks items + 0 + blocks (some addr) =
          blocks (some (⟨some addr, items.map some⟩ : Slots (Unpacked β)))
        rw [blocks_some (⟨some addr, _⟩ : Slots _), blocks_slots, add_zero]
  · rw [if_neg hsome, if_neg hsome]
    exact Tracks.pure fun _ => ⟨rfl, le_refl (0 : Int)⟩

/-- The arrays of a content are there, and can be freed. -/
structure PbContent.Whole (content : PbContent) : Prop where
  indexes : content.indexes.Whole
  usermeta : content.usermeta.Whole
  links : content.links.Whole

theorem PbArray.of_walk {β : Type} {array : PbArray β} {heap final : Heap}
    (h : array.plain.walk heap = .ok ((), final)) : array.items = none → array.count = 0 := by
  intro hnone
  unfold Repeated.walk PbArray.plain at h
  rw [hnone] at h
  simp only [Option.map_none] at h
  by_contra hcount
  rw [if_neg hcount] at h
  cases h

theorem riakObjectToPbCopy_tracks (from_ : RiakClient.RiakObject) :
    Tracks 0 (riakObjectToPbCopy from_) (fun out => (out.1, out.2.plain))
      (RiakClient.riakObjectToPbCopy from_)
      fun out after => ∀ heap final, out.2.plain.walk heap = .ok ((), final) →
        after = blocks out.2 ∧ out.2.Whole := by
  unfold riakObjectToPbCopy RiakClient.riakObjectToPbCopy
  refine Tracks.lift_bind fun value _ _ _ => ?_
  refine Tracks.lift_bind fun charset _ _ _ => ?_
  refine Tracks.lift_bind fun contentEncoding _ _ _ => ?_
  refine Tracks.lift_bind fun contentType _ _ _ => ?_
  refine Tracks.lift_bind fun vtag _ _ _ => ?_
  refine (copyRepeated_tracks (riakPairCopyToPb_tracks _) _ _).bind ?_
  rintro ⟨err, indexes⟩ own hindexes
  refine (copyRepeated_tracks (riakPairCopyToPb_tracks _) _ _).after ?_
  rintro ⟨err', usermeta⟩ own' husermeta
  refine (copyRepeated_tracks (riakLinkCopyToPb_tracks _) _ _).after ?_
  rintro ⟨err'', links⟩ own'' hlinks
  refine Tracks.pure ?_
  intro heap final hwalk
  obtain ⟨_, _, hfirst, hwalk⟩ := C.bind_eq_ok.mp hwalk
  obtain ⟨_, _, hsecond, hthird⟩ := C.bind_eq_ok.mp hwalk
  obtain ⟨rfl, hindexes'⟩ := hindexes (PbArray.of_walk hfirst)
  obtain ⟨rfl, husermeta'⟩ := husermeta (PbArray.of_walk hsecond)
  obtain ⟨rfl, hlinks'⟩ := hlinks (PbArray.of_walk hthird)
  refine ⟨?_, hindexes', husermeta', hlinks'⟩
  show blocks links + (blocks usermeta + blocks indexes) =
    blocks indexes + (blocks usermeta + blocks links)
  abel

theorem freePbArray_tracks {β : Type} {array : PbArray β} (h : array.Whole) :
    Tracks (blocks array) (freePbArray array) (fun _ => ()) (pure ())
      fun _ after => after = 0 :=
  freeSlots_tracks (fun entry _ => Tracks.release entry.addr) h

theorem PbContent.Whole.free_tracks {content : PbContent} (h : content.Whole) :
    Tracks (blocks content) (riakObjectFreePb content) (fun _ => ()) (pure ())
      fun _ after => after = 0 :=
  (freePbArray_tracks h.indexes).frees rfl
    ((freePbArray_tracks h.usermeta).frees rfl (freePbArray_tracks h.links))

/-! ### The encoders -/

def riakPingRequestEncode (rop : RiakOperation ρ) : Booked (RiakError × RiakOperation ρ) :=
  riakEmptyRequest rop MSG_RPBPINGREQ .ping

def riakServerinfoRequestEncode (rop : RiakOperation ρ) : Booked (RiakError × RiakOperation ρ) :=
  riakEmptyRequest rop MSG_RPBGETSERVERINFOREQ .serverinfo

def riakGetClientidRequestEncode (rop : RiakOperation ρ) : Booked (RiakError × RiakOperation ρ) :=
  riakEmptyRequest rop MSG_RPBGETCLIENTIDREQ .getClientid

def riakGetRequestEncode (pack : RpbGetReq → Bytes) (rop : RiakOperation ρ)
    (bucketType bucket key : Option RiakClient.RiakBinary) (getOptions : Option RiakGetOptions) :
    Booked (RiakError × RiakOperation ρ) := do
  let rop ← riakOperationSetBucketType rop bucketType
  let rop ← riakOperationSetBucket rop bucket
  let rop ← riakOperationSetKey rop key
  let getmsg ← lift (riakGetRequestMsg bucketType bucket key getOptions)
  riakPackRequest rop MSG_RPBGETREQ (packedSize32 (pack getmsg)) (pack getmsg) .get .outOfMemory

/-- `riak_put_request_encode`, which frees the arrays of the content only if it gets a
    buffer. -/
def riakPutRequestEncode (pack : RpbPutReq → Bytes) (rop : RiakOperation ρ)
    (riakObj : RiakClient.RiakObject) (options : Option RiakPutOptions) :
    Booked (RiakError × RiakOperation ρ) := do
  let bucket ← lift (riakBinaryCopyToPb riakObj.bucket)
  let type ← lift (copyToPbIf riakObj.hasBucketType riakObj.bucketType)
  let key ← lift (copyToPbIf riakObj.hasKey riakObj.key)
  let (_, content) ← riakObjectToPbCopy riakObj
  let o := options.getD {}
  let vclock ← lift (copyToPbIf o.hasVclock o.vclock)
  let putmsg : RpbPutReq := { riakObj.putReq options with
    bucket := bucket, key := key, vclock := vclock, content := content.plain, type := type }
  lift putmsg.content.walk
  packRequest rop (riakObjectFreePb content) MSG_RPBPUTREQ (packedSize32 (pack putmsg))
    (pack putmsg) .put .outOfMemory

def riakDeleteRequestEncode (pack : RpbDelReq → Bytes) (rop : RiakOperation ρ)
    (bucketType bucket key : Option RiakClient.RiakBinary) (options : Option RiakDeleteOptions) :
    Booked (RiakError × RiakOperation ρ) := do
  let delmsg ← lift (riakDeleteRequestMsg bucketType bucket key options)
  riakPackRequest rop MSG_RPBDELREQ (packedSize32 (pack delmsg)) (pack delmsg) .delete .outOfMemory

def riakListbucketsRequestEncode (pack : RpbListBucketsReq → Bytes) (rop : RiakOperation ρ)
    (bucketType : Option RiakClient.RiakBinary) (timeout : UInt32) :
    Booked (RiakError × RiakOperation ρ) := do
  let type ← lift (copyToPbIf bucketType.isSome bucketType)
  let listbucketsreq : RpbListBucketsReq := {
    hasStream := true, stream := 1
    hasType := bucketType.isSome, type := type
    hasTimeout := 0 < timeout, timeout := timeout }
  riakPackRequest rop MSG_RPBLISTBUCKETSREQ (pack listbucketsreq).length (pack listbucketsreq)
    .listbuckets .outOfMemory

def riakListkeysRequestEncode (pack : RpbListKeysReq → Bytes) (rop : RiakOperation ρ)
    (bucketType bucket : Option RiakClient.RiakBinary) (timeout : UInt32) :
    Booked (RiakError × RiakOperation ρ) := do
  let type ← lift (copyToPbIf bucketType.isSome bucketType)
  let bucketBytes ← lift (riakBinaryCopyToPb bucket)
  let listkeysreq : RpbListKeysReq := {
    bucket := bucketBytes
    hasType := bucketType.isSome, type := type
    hasTimeout := 0 < timeout, timeout := timeout }
  riakPackRequest rop MSG_RPBLISTKEYSREQ (pack listkeysreq).length (pack listkeysreq) .listkeys
    .testFailure

def riakSetClientidRequestEncode (pack : RpbSetClientIdReq → Bytes) (rop : RiakOperation ρ)
    (clientid : Option RiakClient.RiakBinary) : Booked (RiakError × RiakOperation ρ) := do
  let clientId ← lift (riakBinaryCopyToPb clientid)
  let clidmsg : RpbSetClientIdReq := { clientId := clientId }
  riakPackRequest rop MSG_RPBSETCLIENTIDREQ (packedSize32 (pack clidmsg)) (pack clidmsg)
    .setClientid .outOfMemory

def riakResetBucketpropsRequestEncode (pack : RpbResetBucketReq → Bytes) (rop : RiakOperation ρ)
    (bucket bucketType : Option RiakClient.RiakBinary) : Booked (RiakError × RiakOperation ρ) := do
  let resetmsg ← lift (bucketRequestMsg bucketType bucket)
  riakPackRequest rop MSG_RPBSETBUCKETREQ (packedSize32 (pack resetmsg)) (pack resetmsg)
    .resetBucketprops .outOfMemory

/-! ### What they leave -/

section Encoders

variable (f : ρ → ρ') {rop : RiakOperation ρ}

theorem RiakOperation.Unbuilt.cached (h : rop.Unbuilt) (request : RiakRequestCache) :
    RiakOperation.Unbuilt { rop with request := request } :=
  ⟨h.pbRequest, h.response, ⟨h.between.msgbuf, h.between.error⟩⟩

theorem cacheCopy_tracks {store : Option RiakBinary → RiakRequestCache}
    {plainStore : Option RiakClient.RiakBinary → RiakClient.RiakRequestCache}
    (hplain : ∀ copy, (store copy).plain = plainStore (copy.map RiakBinary.plain))
    (hblocks : ∀ copy, blocks copy + blocks rop = blocks { rop with request := store copy })
    (bin : Option RiakClient.RiakBinary) :
    Tracks (blocks rop)
      (riakBinaryCopy bin >>= fun copy => pure { rop with request := store copy })
      (RiakOperation.plain f)
      (RiakClient.riakBinaryCopy bin >>= fun copy =>
        pure { rop.plain f with request := plainStore copy })
      fun rop' after => after = blocks rop' ∧ ∃ copy, rop' = { rop with request := store copy } := by
  refine (riakBinaryCopy_tracks bin).after ?_
  rintro copy _ rfl
  refine Tracks.pure_of ?_ ⟨hblocks copy, copy, rfl⟩
  rw [← hplain]
  rfl

theorem riakOperationSetBucketType_tracks (hnone : rop.request.bucketType = none)
    (bucketType : Option RiakClient.RiakBinary) :
    Tracks (blocks rop) (riakOperationSetBucketType rop bucketType) (RiakOperation.plain f)
      (RiakClient.riakOperationSetBucketType (rop.plain f) bucketType)
      fun rop' after => after = blocks rop' ∧ ∃ copy,
        rop' = { rop with request := { rop.request with bucketType := copy } } := by
  refine cacheCopy_tracks f (fun _ => rfl) (fun copy => ?_) bucketType
  simp only [RiakOperation.blocks_eq, RiakOperation.frame, hnone, blocks_none]
  abel

theorem riakOperationSetBucket_tracks (hnone : rop.request.bucket = none)
    (bucket : Option RiakClient.RiakBinary) :
    Tracks (blocks rop) (riakOperationSetBucket rop bucket) (RiakOperation.plain f)
      (RiakClient.riakOperationSetBucket (rop.plain f) bucket)
      fun rop' after => after = blocks rop' ∧ ∃ copy,
        rop' = { rop with request := { rop.request with bucket := copy } } := by
  refine cacheCopy_tracks f (fun _ => rfl) (fun copy => ?_) bucket
  simp only [RiakOperation.blocks_eq, RiakOperation.frame, hnone, blocks_none]
  abel

theorem riakOperationSetKey_tracks (hnone : rop.request.key = none)
    (key : Option RiakClient.RiakBinary) :
    Tracks (blocks rop) (riakOperationSetKey rop key) (RiakOperation.plain f)
      (RiakClient.riakOperationSetKey (rop.plain f) key)
      fun rop' after => after = blocks rop' ∧ ∃ copy,
        rop' = { rop with request := { rop.request with key := copy } } := by
  refine cacheCopy_tracks f (fun _ => rfl) (fun copy => ?_) key
  simp only [RiakOperation.blocks_eq, RiakOperation.frame, hnone, blocks_none]
  abel

theorem riakGetRequestEncode_tracks (pack : RpbGetReq → Bytes) (h : rop.Unbuilt)
    (hcache : rop.request = {}) (bucketType bucket key : Option RiakClient.RiakBinary)
    (getOptions : Option RiakGetOptions) :
    Tracks (blocks rop) (riakGetRequestEncode pack rop bucketType bucket key getOptions)
      (encodedMap f)
      (RiakClient.riakGetRequestEncode pack (rop.plain f) bucketType bucket key getOptions)
      (Encoded .get) := by
  unfold riakGetRequestEncode RiakClient.riakGetRequestEncode
  refine (riakOperationSetBucketType_tracks f (by rw [hcache]) bucketType).bind ?_
  rintro _ _ ⟨rfl, bucketType', rfl⟩
  refine (riakOperationSetBucket_tracks f (by rw [hcache]) bucket).bind ?_
  rintro _ _ ⟨rfl, bucket', rfl⟩
  refine (riakOperationSetKey_tracks f (by rw [hcache]) key).bind ?_
  rintro _ _ ⟨rfl, key', rfl⟩
  refine Tracks.lift_bind fun getmsg _ _ _ => ?_
  exact riakPackRequest_tracks f (h.cached _) _ _ _ _ (Or.inl rfl)

theorem riakPutRequestEncode_tracks (pack : RpbPutReq → Bytes) (h : rop.Unbuilt)
    (riakObj : RiakClient.RiakObject) (options : Option RiakPutOptions) :
    Tracks (blocks rop) (riakPutRequestEncode pack rop riakObj options) (encodedMap f)
      (RiakClient.riakPutRequestEncode pack (rop.plain f) riakObj options) (Encoded .put) := by
  unfold riakPutRequestEncode RiakClient.riakPutRequestEncode riakPutRequestMsg
  simp only [bind_assoc, pure_bind]
  refine Tracks.lift_bind fun bucket _ _ _ => ?_
  refine Tracks.lift_bind fun type _ _ _ => ?_
  refine Tracks.lift_bind fun key _ _ _ => ?_
  refine (riakObjectToPbCopy_tracks riakObj).after ?_
  rintro ⟨err, content⟩ own hcontent
  refine Tracks.lift_bind fun vclock _ _ _ => ?_
  refine Tracks.lift_bind fun _ heap final hwalk => ?_
  obtain ⟨rfl, hwhole⟩ := hcontent heap final hwalk
  exact packRequest_tracks f h hwhole.free_tracks _ _ _ _ (Or.inl rfl)

end Encoders

end RiakClient.Stored
