import RiakClient.ObjectContent
import RiakClient.Requests

/-!
# Fetch, then store

`riak_get_response_decode` gives every sibling of a response the address that
the operation was encoded for, so that an object that was fetched can be stored
as it is. This module follows one such object from the `RpbGetReq` to the
`RpbPutReq`.
-/

namespace RiakClient

open CSem

variable {ρ : Type} {heap : Heap}

/-! ### Get responses -/

structure RiakGetResponse where
  hasVclock : Bool := false
  vclock : Option RiakBinary := none
  hasUnchanged : Bool := false
  unchanged : RiakBoolean := 0
  nContent : Int := 0
  content : Option (List (Option RiakObject)) := none
deriving DecidableEq, Repr

/-- One round of the loop over the siblings: the object, and then copies of the
    address that the operation was encoded for, which nobody checks. -/
def riakGetObject (request : RiakRequestCache) (content : List RpbContent) (i : Nat) :
    C (Option RiakObject) := do
  let (err, object) ← riakObjectNewFromPb (← C.readAt content i)
  if err ≠ .ok then pure none
  else
    let object ← C.deref object
    let bucket ← riakBinaryCopy request.bucket
    let bucketType ← riakBinaryCopy request.bucketType
    let key ← riakBinaryCopy request.key
    pure (some { object with
      bucket := bucket
      hasBucketType := request.bucketType.isSome, bucketType := bucketType
      hasKey := true, key := key })

/-- `riak_get_response_decode`. It answers in one message; the array of siblings
    has its own error code when it is refused. -/
def riakGetResponseDecode (unpack : Bytes → Option RpbGetResp) (rop : RiakOperation ρ)
    (pbresp : RiakPbMessage) (resp : Option RiakGetResponse) (done : RiakBoolean) :
    C (Decoded RiakGetResponse) := do
  match unpack (← pbresp.payload) with
  | none => pure ⟨.messageFormat, resp, done⟩
  | some rpbresp =>
      if ← C.allocate then
        let some vclock ← copyFromPbIf rpbresp.hasVclock rpbresp.vclock
          | pure ⟨.outOfMemory, resp, 1⟩
        let response : RiakGetResponse := {
          hasVclock := rpbresp.hasVclock, vclock := vclock
          hasUnchanged := rpbresp.hasUnchanged
          unchanged := assignIf rpbresp.hasUnchanged rpbresp.unchanged }
        if 0 < rpbresp.content.length then
          if ← C.allocate then
            match ← copyLoop (riakGetObject rop.request rpbresp.content)
                rpbresp.content.length 0 with
            | none => pure ⟨.outOfMemory, resp, 1⟩
            | some objects =>
                pure ⟨.ok, some { response with
                  nContent := Int.bmod rpbresp.content.length (2 ^ 32)
                  content := some (objects.map some) }, 1⟩
          else pure ⟨.testFailure, resp, 1⟩
        else pure ⟨.ok, some response, 1⟩
      else pure ⟨.outOfMemory, resp, 1⟩

/-! ### What a fetch returns

A response with sound siblings is decoded object by object, each with a copy of the
cache that the get has left in the operation. -/

/-- The object that a message becomes on an operation with this cache. -/
def fetchedObject (request : RiakRequestCache) (c : RpbContent) : RiakObject :=
  { c.decoded with
    bucket := copiedBinary request.bucket
    hasBucketType := request.bucketType.isSome, bucketType := copiedBinary request.bucketType
    hasKey := true, key := copiedBinary request.key }

theorem riakGetObject_of_sound (h : heap.Ample) (request : RiakRequestCache)
    {content : List RpbContent} {i : Nat} {c : RpbContent} (hget : content[i]? = some c)
    (hc : c.Sound) :
    riakGetObject request content i heap = .ok (some (fetchedObject request c), heap) := by
  unfold riakGetObject
  rw [C.readAt_of_get hget, pure_bind, C.bind_of_ok (riakObjectNewFromPb_of_sound h hc)]
  simp only [ne_eq, not_true_eq_false, if_false, C.deref_some, pure_bind]
  rw [C.bind_of_ok (riakBinaryCopy_of_ample h _), C.bind_of_ok (riakBinaryCopy_of_ample h _),
    C.bind_of_ok (riakBinaryCopy_of_ample h _)]
  rfl

theorem riakGetResponseDecode_of_sound (h : heap.Ample) {unpack : Bytes → Option RpbGetResp}
    {pbresp : RiakPbMessage} {m : RpbGetResp} (hm : Unpacks unpack pbresp m)
    (hcount : m.content.length < 2 ^ 31) (hsound : ∀ c ∈ m.content, c.Sound)
    (rop : RiakOperation ρ) (resp : Option RiakGetResponse) (done : RiakBoolean) :
    riakGetResponseDecode unpack rop pbresp resp done heap =
      .ok (⟨.ok, some {
        hasVclock := m.hasVclock, vclock := decodedBinary m.hasVclock m.vclock
        hasUnchanged := m.hasUnchanged, unchanged := assignIf m.hasUnchanged m.unchanged
        nContent := m.content.length
        content := decodedArray (m.content.map (fetchedObject rop.request)) }, 1⟩, heap) := by
  unfold riakGetResponseDecode
  rw [hm.payload, pure_bind, hm.unpacked]
  simp only
  rw [C.bind_of_ok (C.allocate_of_ample h)]
  simp only [if_true]
  rw [C.bind_of_ok (copyFromPbIf_of_ample h _ _)]
  simp only
  cases hcontent : m.content with
  | nil => rfl
  | cons first rest =>
    have hloop : copyLoop (riakGetObject rop.request m.content)
        (m.content.map (fetchedObject rop.request)).length 0 heap =
          .ok (some (m.content.map (fetchedObject rop.request)), heap) :=
      copyLoop_of_ample _ 0 (by rw [List.length_map, Nat.zero_add]; exact hcount) (by
        intro j object hobject
        rw [List.getElem?_map, Option.map_eq_some_iff] at hobject
        obtain ⟨c, hc, rfl⟩ := hobject
        rw [Nat.zero_add]
        exact riakGetObject_of_sound h rop.request hc
          (hsound c (List.mem_of_getElem? hc)))
    have hn : Int.bmod (first :: rest).length (2 ^ 32) = (first :: rest).length := by
      rw [← hcontent]
      exact asInt_of_lt hcount
    rw [List.length_map, hcontent] at hloop
    rw [if_pos (by rw [List.length_cons]; omega), C.bind_of_ok (C.allocate_of_ample h)]
    simp only [if_true]
    rw [C.bind_of_ok hloop]
    simp only [hn]
    rfl

theorem riakGetRequestEncode_request (h : heap.Ample) {pack : RpbGetReq → Bytes}
    {rop rop' : RiakOperation ρ} {bucketType bucket key : Option RiakBinary}
    {getOptions : Option RiakGetOptions} {final : Heap}
    (hencode : riakGetRequestEncode pack rop bucketType bucket key getOptions heap =
      .ok ((.ok, rop'), final)) :
    rop'.request = { rop.request with
      bucketType := copiedBinary bucketType
      bucket := copiedBinary bucket
      key := copiedBinary key } := by
  unfold riakGetRequestEncode riakOperationSetBucketType riakOperationSetBucket
    riakOperationSetKey at hencode
  simp only [bind_assoc, pure_bind] at hencode
  rw [C.bind_of_ok (riakBinaryCopy_of_ample h _), C.bind_of_ok (riakBinaryCopy_of_ample h _),
    C.bind_of_ok (riakBinaryCopy_of_ample h _)] at hencode
  obtain ⟨getmsg, rest, _, hpack⟩ := C.bind_eq_ok.mp hencode
  rw [riakPackRequest_eq_ok (by decide) hpack]

/-! ### Storing what was fetched

An unpacked message is the one that its content is sent as, so the put sends back what
the get received, if the object is stored as it is. -/

/-- The members that a message does not have are as `unpack` leaves them: with
    the value that the generated `__init` gives them. -/
structure RpbPair.Unpacked (pair : RpbPair) : Prop where
  value : pair.hasValue = false → pair.value = []

structure RpbLink.Unpacked (link : RpbLink) : Prop where
  bucket : link.hasBucket = false → link.bucket = []
  key : link.hasKey = false → link.key = []
  tag : link.hasTag = false → link.tag = []

/-- A repeated member has an array of the announced length, or none at all. -/
inductive Repeated.Unpacked {α : Type} (ok : α → Prop) : Repeated α → Prop
  | empty : Unpacked ok {}
  | items {items : List α} (hne : items ≠ []) (hok : ∀ item ∈ items, ok item) :
      Unpacked ok ⟨items.length, some items⟩

structure RpbContent.Unpacked (c : RpbContent) : Prop where
  contentType : c.hasContentType = false → c.contentType = []
  charset : c.hasCharset = false → c.charset = []
  contentEncoding : c.hasContentEncoding = false → c.contentEncoding = []
  vtag : c.hasVtag = false → c.vtag = []
  lastMod : c.hasLastMod = false → c.lastMod = 0
  lastModUsecs : c.hasLastModUsecs = false → c.lastModUsecs = 0
  deleted : c.hasDeleted = false → c.deleted = 0
  links : c.links.Unpacked RpbLink.Unpacked
  usermeta : c.usermeta.Unpacked RpbPair.Unpacked
  indexes : c.indexes.Unpacked RpbPair.Unpacked

theorem flagged_getD {α : Type} {has : Bool} {value init : α} (h : has = false → value = init) :
    (flagged has value).getD init = value := by
  cases has with
  | false => exact (h rfl).symm
  | true => rfl

theorem Repeated.Unpacked.repeatedOf_map {α β : Type} {ok : α → Prop} {r : Repeated α}
    (hr : r.Unpacked ok) {view : α → β} {encode : β → α}
    (hencode : ∀ item, ok item → encode (view item) = item) :
    repeatedOf ((r.entries.map view).map encode) = r := by
  cases hr with
  | empty => rfl
  | @items items hne hok =>
    have hentries : (Repeated.mk items.length (some items)).entries = items := List.take_length
    have hsame : (items.map view).map encode = items := by
      rw [List.map_map]
      exact (List.map_congr_left fun item hitem => hencode item (hok item hitem)).trans
        (List.map_id items)
    rw [hentries, hsame]
    unfold repeatedOf
    rw [if_neg (by rw [List.isEmpty_iff]; exact hne)]

theorem RpbPair.Unpacked.content_encoded {pair : RpbPair} (h : pair.Unpacked) :
    pair.content.encoded = pair := by
  unfold RpbPair.content PairContent.encoded
  simp only [flagged_isSome, flagged_getD h.value, Option.getD_some]

theorem RpbLink.Unpacked.content_encoded {link : RpbLink} (h : link.Unpacked) :
    link.content.encoded = link := by
  unfold RpbLink.content LinkContent.encoded
  simp only [flagged_isSome, flagged_getD h.bucket, flagged_getD h.key, flagged_getD h.tag]

theorem RpbContent.Unpacked.content_encoded {c : RpbContent} (h : c.Unpacked) :
    c.content.encoded = c := by
  unfold RpbContent.content ObjectContent.encoded
  simp only [flagged_isSome, flagged_getD h.contentType, flagged_getD h.charset,
    flagged_getD h.contentEncoding, flagged_getD h.vtag, flagged_getD h.lastMod,
    flagged_getD h.lastModUsecs, flagged_getD h.deleted, Option.getD_some,
    h.links.repeatedOf_map fun _ hlink => RpbLink.Unpacked.content_encoded hlink,
    h.usermeta.repeatedOf_map fun _ hpair => RpbPair.Unpacked.content_encoded hpair,
    h.indexes.repeatedOf_map fun _ hpair => RpbPair.Unpacked.content_encoded hpair]

theorem riakPutRequestMsg_of_content (h : heap.Ample) {object : RiakObject}
    (hcontent : object.HasContent) {bucket key : RiakBinary}
    (hbucket : object.bucket = some bucket) (hhas : object.hasKey = true)
    (hkey : object.key = some key)
    (htype : object.hasBucketType = true → object.bucketType.isSome) :
    riakPutRequestMsg object none heap = .ok ({
      bucket := bucket.data
      hasKey := true, key := key.data
      content := object.content.encoded
      hasType := object.hasBucketType
      type := (flaggedBytes object.hasBucketType object.bucketType).getD [] }, heap) := by
  have hbucketBytes : riakBinaryCopyToPb object.bucket = pure bucket.data := by
    rw [hbucket]
    rfl
  have hkeyBytes : copyToPbIf object.hasKey object.key = pure key.data := by
    rw [hhas, hkey]
    rfl
  unfold riakPutRequestMsg
  rw [hbucketBytes, pure_bind, copyToPbIf_of_flagged htype, pure_bind, hkeyBytes, pure_bind,
    C.bind_of_ok (riakObjectToPbCopy_of_content h hcontent), hhas]
  rfl

theorem fetchedObject_hasContent (request : RiakRequestCache) {c : RpbContent} (hc : c.Sound) :
    (fetchedObject request c).HasContent where
  value := hc.decoded_hasContent.value
  charset := hc.decoded_hasContent.charset
  encoding := hc.decoded_hasContent.encoding
  contentType := hc.decoded_hasContent.contentType
  vtag := hc.decoded_hasContent.vtag
  indexes := hc.decoded_hasContent.indexes
  usermeta := hc.decoded_hasContent.usermeta
  links := hc.decoded_hasContent.links

/-- **Fetch, then store.** On an operation that a get was encoded on, every
    response with sound siblings is decoded into one object for each of them, in
    order. The put of such an object goes to the type, the bucket and the key of
    the get, and its content has the members of the sibling, the arrays in order;
    it is the sibling itself where `unpack` has left the absent members alone. -/
theorem riak_fetch_then_store (packGet : RpbGetReq → Bytes) (packPut : RpbPutReq → Bytes)
    (unpack : Bytes → Option RpbGetResp) (rop₀ rop rop' : RiakOperation ρ)
    (bucketType : Option RiakBinary) (bucket key : RiakBinary)
    (getOptions : Option RiakGetOptions) (heap₀ final heap heap' : Heap)
    (h₀ : heap₀.Ample) (h : heap.Ample) (h' : heap'.Ample)
    (hencode : riakGetRequestEncode packGet rop₀ bucketType (some bucket) (some key) getOptions
      heap₀ = .ok ((.ok, rop), final))
    (hrequest : rop'.request = rop.request)
    (pbresp : RiakPbMessage) (m : RpbGetResp) (hm : Unpacks unpack pbresp m)
    (hcount : m.content.length < 2 ^ 31) (hsound : ∀ c ∈ m.content, c.Sound)
    (resp : Option RiakGetResponse) (done : RiakBoolean) :
    ∃ (response : RiakGetResponse) (objects : List RiakObject),
      riakGetResponseDecode unpack rop' pbresp resp done heap =
        .ok (⟨.ok, some response, 1⟩, heap) ∧
      response.nContent = m.content.length ∧
      response.content = decodedArray objects ∧ objects.length = m.content.length ∧
      ∀ (i : Nat) (object : RiakObject) (c : RpbContent),
        objects[i]? = some object → m.content[i]? = some c →
        ∃ putmsg : RpbPutReq, riakPutRequestMsg object none heap' = .ok (putmsg, heap') ∧
          (∀ rop'' : RiakOperation ρ, (packPut putmsg).length < 2 ^ 32 →
            riakPutRequestEncode packPut rop'' object none heap' = .ok ((.ok, { rop'' with
              pbRequest :=
                some ⟨MSG_RPBPUTREQ, UInt32.ofNat (packPut putmsg).length, packPut putmsg⟩
              decoder := some .put }), heap')) ∧
          putmsg.hasType = bucketType.isSome ∧
          (∀ type, bucketType = some type → putmsg.type = type.data) ∧
          putmsg.bucket = bucket.data ∧ putmsg.hasKey = true ∧ putmsg.key = key.data ∧
          putmsg.content.content = c.content ∧ (c.Unpacked → putmsg.content = c) := by
  have hcache := riakGetRequestEncode_request h₀ hencode
  rw [← hrequest] at hcache
  refine ⟨_, m.content.map (fetchedObject rop'.request),
    riakGetResponseDecode_of_sound h hm hcount hsound rop' resp done, rfl, rfl,
    by rw [List.length_map], ?_⟩
  intro i object c hobject hget
  rw [List.getElem?_map, hget, Option.map_some, Option.some.injEq] at hobject
  subst hobject
  have hc : c.Sound := hsound c (List.mem_of_getElem? hget)
  have hview : (fetchedObject rop'.request c).content = c.content := c.decoded_content
  have hbucket : (fetchedObject rop'.request c).bucket = some ⟨bucket.data, true⟩ := by
    rw [fetchedObject, hcache]
    rfl
  have hkey : (fetchedObject rop'.request c).key = some ⟨key.data, true⟩ := by
    rw [fetchedObject, hcache]
    rfl
  have hmsg := riakPutRequestMsg_of_content h' (fetchedObject_hasContent rop'.request hc) hbucket
    rfl hkey (fun htype => Option.isSome_map.trans htype)
  rw [hview] at hmsg
  have hsame : c.content.encoded.content = c.content := by
    rw [← c.decoded_content]
    exact hc.decoded_hasContent.encoded_content
  refine ⟨_, hmsg, ?_, ?_, ?_, rfl, rfl, rfl, hsame, fun hunpacked => hunpacked.content_encoded⟩
  · intro rop'' hlength
    unfold riakPutRequestEncode packedSize32
    rw [C.bind_of_ok hmsg, ObjectContent.encoded_walk, pure_bind, Nat.mod_eq_of_lt hlength]
    exact riakPackRequest_of_ample h' rop'' MSG_RPBPUTREQ .put .outOfMemory (Nat.le_refl _)
  · rw [fetchedObject, hcache]
    exact Option.isSome_map
  · intro type htype
    rw [fetchedObject, hcache, htype]
    rfl

/-- A sibling with a link. -/
def linkedContent : RpbContent where
  value := [0x76]
  links := ⟨1, some [{ hasTag := true, tag := [0x74] }]⟩

/-- Fetched and stored without a bucket type. -/
theorem riak_fetch_then_store_linked :
    ∃ (response : RiakGetResponse) (object : RiakObject) (putmsg : RpbPutReq),
      riakGetResponseDecode (fun _ => some { content := [linkedContent] })
        ({ request := { bucket := some ⟨[0x62], true⟩, key := some ⟨[0x6b], true⟩ } } :
          RiakOperation Unit) ⟨10, 1, [10]⟩ none 0 Heap.fresh =
        .ok (⟨.ok, some response, 1⟩, Heap.fresh) ∧
      response.content = some [some object] ∧
      riakPutRequestMsg object none Heap.fresh = .ok (putmsg, Heap.fresh) ∧
      putmsg.hasType = false ∧ putmsg.bucket = [0x62] ∧ putmsg.key = [0x6b] ∧
      putmsg.content.content = linkedContent.content := by
  obtain ⟨response, objects, hdecode, _, hcontent, hlength, hput⟩ :=
    riak_fetch_then_store (fun _ => []) (fun _ => []) (fun _ => some { content := [linkedContent] })
      ({} : RiakOperation Unit) _
      { request := { bucket := some ⟨[0x62], true⟩, key := some ⟨[0x6b], true⟩ } }
      none ⟨[0x62], true⟩ ⟨[0x6b], true⟩ none Heap.fresh _ Heap.fresh Heap.fresh
      Heap.fresh_ample Heap.fresh_ample Heap.fresh_ample rfl rfl
      ⟨10, 1, [10]⟩ { content := [linkedContent] } ⟨by decide, by decide, rfl⟩ (by decide)
      (by
        intro c hc
        obtain rfl := List.mem_singleton.mp hc
        exact ⟨⟨by decide, rfl⟩, ⟨by decide, rfl⟩, ⟨by decide, rfl⟩⟩) none 0
  obtain ⟨object, rfl⟩ := List.length_eq_one_iff.mp hlength
  obtain ⟨putmsg, hmsg, _, htype, _, hbucket, _, hkey, hsame, _⟩ :=
    hput 0 object linkedContent rfl rfl
  exact ⟨response, object, putmsg, hdecode, hcontent, hmsg, htype, hbucket, hkey, hsame⟩

end RiakClient
