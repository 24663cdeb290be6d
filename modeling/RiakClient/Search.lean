import RiakClient.ResponseMemory
import RiakClient.StreamCalls

/-!
# Search results

The answer to a search is a list of documents, and every document is a list of
pairs. The decoder copies both levels (`riak_search.c`), one loop inside another,
and the application reads the copy through accessors that check the index.

The loop over the documents has the loop over the fields in each of its rounds, and
the theorem about the first uses the one about the second as its round. The indices of
both are `int`s; in a frame there is no room for more documents or fields than that.
-/

namespace RiakClient

open CSem

variable {heap : Heap}

/-! ### Responses and their accessors -/

/-- `_riak_search_doc`. -/
structure RiakSearchDoc where
  nFields : Nat := 0
  fields : Option (List (Option RiakPair)) := none
deriving DecidableEq, Repr

/-- `_riak_search_response`, without the message that it keeps to free it. -/
structure RiakSearchResponse where
  nDocs : Nat := 0
  docs : Option (List RiakSearchDoc) := none
  hasMaxScore : Bool := false
  maxScore : UInt32 := 0
  hasNumFound : Bool := false
  numFound : UInt32 := 0
deriving DecidableEq, Repr

def riakSearchGetDoc (response : RiakSearchResponse) (n : UInt32) :
    C (Option RiakSearchDoc) := do
  if response.nDocs ≤ n.toNat then pure none
  else some <$> C.readAt (← C.deref response.docs) n.toNat

def riakSearchDocGetField (doc : RiakSearchDoc) (n : UInt32) : C (Option RiakPair) := do
  if doc.nFields ≤ n.toNat then pure none
  else C.readAt (← C.deref doc.fields) n.toNat

/-! ### Decoding -/

/-- What `riak_search_response_decode` leaves behind. A response that it has freed is
    still where `*resp` points to, if it was there before. -/
structure SearchDecoded where
  err : RiakError
  resp : Ptr RiakSearchResponse
  done : RiakBoolean
deriving DecidableEq, Repr

/-- One round of the loop over the documents. The number of fields is an `int` for the
    function that copies them. -/
def riakSearchDocCopy (docs : List RpbSearchDoc) (i : Nat) : C (Option RiakSearchDoc) := do
  let doc ← C.readAt docs i
  match ← riakPairsCopyArrayFromPb doc.fields.items (Int.bmod doc.fields.count (2 ^ 32)) with
  | none => pure none
  | some fields => pure (some { nFields := doc.fields.count, fields := some (fields.map some) })

/-- `riak_search_response_decode` with a response: the members, and then the array. -/
def riakSearchResponseFill (rpbresp : RpbSearchQueryResp) (existing : RiakSearchResponse)
    (lost : Ptr RiakSearchResponse) : C SearchDecoded := do
  let response : RiakSearchResponse := { existing with
    hasMaxScore := rpbresp.hasMaxScore, maxScore := rpbresp.maxScore
    hasNumFound := rpbresp.hasNumFound, numFound := rpbresp.numFound
    nDocs := rpbresp.docs.length }
  if 0 < rpbresp.docs.length then
    match ← copyArray rpbresp.docs.length (riakSearchDocCopy rpbresp.docs) with
    | none => pure ⟨.outOfMemory, lost, 1⟩
    | some docs => pure ⟨.ok, .obj { response with docs := some docs }, 1⟩
  else pure ⟨.ok, .obj response, 1⟩

def riakSearchResponseDecode (unpack : Bytes → Option RpbSearchQueryResp)
    (pbresp : RiakPbMessage) (resp : Ptr RiakSearchResponse) (done : RiakBoolean) :
    C SearchDecoded := do
  match unpack (← pbresp.payload) with
  | none => pure ⟨.messageFormat, resp, done⟩
  | some rpbresp =>
      if resp = .null then
        if ← C.allocate then riakSearchResponseFill rpbresp {} .null
        else pure ⟨.outOfMemory, resp, done⟩
      else riakSearchResponseFill rpbresp (← resp.deref) .wild

/-! ### What a decoder makes -/

/-- The copy of a document. -/
def RpbSearchDoc.decoded (doc : RpbSearchDoc) : RiakSearchDoc where
  nFields := doc.fields.count
  fields := some ((doc.fields.entries.map RpbPair.decoded).map some)

/-- The copy of a message, in a response that was empty. -/
def RpbSearchQueryResp.decoded (m : RpbSearchQueryResp) : RiakSearchResponse where
  nDocs := m.docs.length
  docs := if 0 < m.docs.length then some (m.docs.map RpbSearchDoc.decoded) else none
  hasMaxScore := m.hasMaxScore
  maxScore := m.maxScore
  hasNumFound := m.hasNumFound
  numFound := m.numFound

/-- Documents whose fields are there, and all counts small enough for an `int`. -/
structure RpbSearchQueryResp.Sound (m : RpbSearchQueryResp) : Prop where
  bound : m.docs.length < 2 ^ 31
  fields : ∀ doc ∈ m.docs, doc.fields.Sound

theorem riakSearchDocCopy_of_ample (h : heap.Ample) {docs : List RpbSearchDoc} {i : Nat}
    {doc : RpbSearchDoc} (hget : docs[i]? = some doc) (hfields : doc.fields.Sound) :
    riakSearchDocCopy docs i heap = .ok (some doc.decoded, heap) := by
  have hcount : Int.bmod doc.fields.count (2 ^ 32) = doc.fields.count :=
    asInt_of_lt hfields.bound
  unfold riakSearchDocCopy
  rw [C.readAt_of_get hget, pure_bind, hcount,
    C.bind_of_ok (riakPairsCopyArrayFromPb_of_sound h hfields)]
  rfl

theorem riakSearchDocs_of_ample (h : heap.Ample) {m : RpbSearchQueryResp} (hm : m.Sound) :
    copyArray m.docs.length (riakSearchDocCopy m.docs) heap =
      .ok (some (m.docs.map RpbSearchDoc.decoded), heap) := by
  have hlength : (m.docs.map RpbSearchDoc.decoded).length = m.docs.length := List.length_map _
  rw [← hlength]
  apply copyArray_of_ample h (by rw [hlength]; exact hm.bound)
  intro j item hitem
  rw [List.getElem?_map, Option.map_eq_some_iff] at hitem
  obtain ⟨doc, hget, rfl⟩ := hitem
  exact riakSearchDocCopy_of_ample h hget (hm.fields doc (List.mem_of_getElem? hget))

theorem riakSearchResponseFill_of_ample (h : heap.Ample) {m : RpbSearchQueryResp} (hm : m.Sound)
    (lost : Ptr RiakSearchResponse) :
    riakSearchResponseFill m {} lost heap = .ok (⟨.ok, .obj m.decoded, 1⟩, heap) := by
  unfold riakSearchResponseFill RpbSearchQueryResp.decoded
  by_cases hdocs : 0 < m.docs.length
  · rw [if_pos hdocs, if_pos hdocs, C.bind_of_ok (riakSearchDocs_of_ample h hm)]
    rfl
  · rw [if_neg hdocs, if_neg hdocs]
    rfl

theorem riakSearchResponseDecode_of_ample (h : heap.Ample)
    {unpack : Bytes → Option RpbSearchQueryResp} {pbresp : RiakPbMessage}
    {m : RpbSearchQueryResp} (hunpacks : Unpacks unpack pbresp m) (hm : m.Sound)
    {resp : Ptr RiakSearchResponse} (hresp : resp = .null ∨ resp = .obj {}) (done : RiakBoolean) :
    riakSearchResponseDecode unpack pbresp resp done heap =
      .ok (⟨.ok, .obj m.decoded, 1⟩, heap) := by
  unfold riakSearchResponseDecode
  rw [hunpacks.payload, pure_bind, hunpacks.unpacked]
  simp only
  rcases hresp with rfl | rfl
  · rw [if_pos rfl, C.bind_of_ok (C.allocate_of_ample h)]
    exact riakSearchResponseFill_of_ample h hm _
  · rw [if_neg (by rintro ⟨⟩), Ptr.deref_obj, pure_bind]
    exact riakSearchResponseFill_of_ample h hm _

/-! ### Reading it back -/

/-- The accessors show the documents of a message, field by field, and what the message
    says about all of them. -/
structure SearchMirrors (response : RiakSearchResponse) (m : RpbSearchQueryResp) (heap : Heap) :
    Prop where
  /-- There is a document for every index below their number, and no other. -/
  docs : ∀ i : UInt32, ∃ doc, riakSearchGetDoc response i heap = .ok (doc, heap) ∧
    (doc = none ↔ m.docs.length ≤ i.toNat)
  /-- A field of a document has the key and the value of the message's; where the message
      has no field, it is NULL. -/
  fields : ∀ (i j : UInt32) (pbdoc : RpbSearchDoc), m.docs[i.toNat]? = some pbdoc →
    ∃ field, (riakSearchGetDoc response i >>= fun doc =>
        C.deref doc >>= fun doc => riakSearchDocGetField doc j) heap = .ok (field, heap) ∧
      field.map RiakPair.content = pbdoc.fields.entries[j.toNat]?.map RpbPair.content
  hasMaxScore : response.hasMaxScore = m.hasMaxScore
  maxScore : response.maxScore = m.maxScore
  hasNumFound : response.hasNumFound = m.hasNumFound
  numFound : response.numFound = m.numFound

theorem riakSearchGetDoc_decoded (m : RpbSearchQueryResp) (n : UInt32) (heap : Heap) :
    riakSearchGetDoc m.decoded n heap =
      .ok (m.docs[n.toNat]?.map RpbSearchDoc.decoded, heap) := by
  unfold riakSearchGetDoc RpbSearchQueryResp.decoded
  simp only
  by_cases hn : m.docs.length ≤ n.toNat
  · rw [if_pos hn, List.getElem?_eq_none hn]
    rfl
  · have hdoc : m.docs[n.toNat]? = some (m.docs.get ⟨n.toNat, by omega⟩) :=
      List.getElem?_eq_getElem _
    have hget : (m.docs.map RpbSearchDoc.decoded)[n.toNat]? =
        some (m.docs.get ⟨n.toNat, by omega⟩).decoded := by
      rw [List.getElem?_map, hdoc]
      rfl
    rw [if_neg hn, if_pos (by omega), C.deref_some, pure_bind, C.readAt_of_get hget, hdoc]
    rfl

theorem riakSearchDocGetField_decoded {doc : RpbSearchDoc} (hdoc : doc.fields.Sound) (n : UInt32)
    (heap : Heap) :
    riakSearchDocGetField doc.decoded n heap =
      .ok (doc.fields.entries[n.toNat]?.map RpbPair.decoded, heap) := by
  have hlength := hdoc.items
  unfold riakSearchDocGetField RpbSearchDoc.decoded
  simp only
  by_cases hn : doc.fields.count ≤ n.toNat
  · rw [if_pos hn, List.getElem?_eq_none (by omega)]
    rfl
  · have hfield : doc.fields.entries[n.toNat]? =
        some (doc.fields.entries.get ⟨n.toNat, by omega⟩) := List.getElem?_eq_getElem _
    have hget : ((doc.fields.entries.map RpbPair.decoded).map some)[n.toNat]? =
        some (some (doc.fields.entries.get ⟨n.toNat, by omega⟩).decoded) := by
      rw [List.getElem?_map, List.getElem?_map, hfield]
      rfl
    rw [if_neg hn, C.deref_some, pure_bind, C.readAt_of_get hget, hfield]
    rfl

theorem RpbSearchQueryResp.Sound.mirrors {m : RpbSearchQueryResp} (hm : m.Sound) (heap : Heap) :
    SearchMirrors m.decoded m heap where
  docs := by
    intro i
    refine ⟨_, riakSearchGetDoc_decoded m i heap, ?_⟩
    rw [Option.map_eq_none_iff, List.getElem?_eq_none_iff]
  fields := by
    intro i j pbdoc hget
    refine ⟨pbdoc.fields.entries[j.toNat]?.map RpbPair.decoded, ?_, ?_⟩
    · rw [C.bind_of_ok (riakSearchGetDoc_decoded m i heap), hget, Option.map_some, C.deref_some,
        pure_bind]
      exact riakSearchDocGetField_decoded (hm.fields pbdoc (List.mem_of_getElem? hget)) j heap
    · rw [Option.map_map]
      exact congrArg (Option.map · _) (funext RpbPair.decoded_content)
  hasMaxScore := rfl
  maxScore := rfl
  hasNumFound := rfl
  numFound := rfl

/-! ### Whole messages -/

/-- What `rpb_search_query_resp__unpack` makes of documents. On the wire each of them, and
    each of its fields, takes a tag and a length. -/
structure ReadsDocs (unpack : Bytes → Option RpbSearchQueryResp) : Prop where
  room : ∀ bytes m, unpack bytes = some m → 2 * m.docs.length ≤ bytes.length
  fields : ∀ bytes m, unpack bytes = some m → ∀ doc ∈ m.docs, doc.fields.ReadFrom bytes.length

theorem ReadsDocs.sound {unpack : Bytes → Option RpbSearchQueryResp} (h : ReadsDocs unpack)
    {pbresp : RiakPbMessage} {m : RpbSearchQueryResp} (hm : Unpacks unpack pbresp m) :
    m.Sound := by
  have hsize := pbresp.payload_length
  have hroom := h.room _ m hm.unpacked
  exact ⟨by omega, fun doc hdoc => (h.fields _ m hm.unpacked doc hdoc).sound hsize⟩

/-- **Search results mirror the message of the server**, whatever the number of its
    documents and of their fields. -/
theorem riak_search_results (h : heap.Ample) {unpack : Bytes → Option RpbSearchQueryResp}
    (hunpack : ReadsDocs unpack) {pbresp : RiakPbMessage} {m : RpbSearchQueryResp}
    (hunpacks : Unpacks unpack pbresp m) {resp : Ptr RiakSearchResponse}
    (hresp : resp = .null ∨ resp = .obj {}) (done : RiakBoolean) :
    ∃ response, riakSearchResponseDecode unpack pbresp resp done heap =
        .ok (⟨.ok, .obj response, 1⟩, heap) ∧
      SearchMirrors response m heap := by
  have hm := hunpack.sound hunpacks
  exact ⟨m.decoded, riakSearchResponseDecode_of_ample h hunpacks hm hresp done, hm.mirrors heap⟩

/-- Two documents were found, and only one of them has a field. -/
def raggedResults : RpbSearchQueryResp where
  docs := [{ fields := ⟨1, some [{ key := [0x6b], hasValue := true, value := [0x76] }]⟩ }, {}]
  hasNumFound := true
  numFound := 2

/-- `raggedResults` as the server sends it. -/
def raggedPayload : Bytes :=
  [0x0a, 0x08, 0x0a, 0x06, 0x0a, 0x01, 0x6b, 0x12, 0x01, 0x76, 0x0a, 0x00, 0x18, 0x02]

def raggedUnpack (bytes : Bytes) : Option RpbSearchQueryResp :=
  if bytes = raggedPayload then some raggedResults else none

theorem raggedUnpack_reads : ReadsDocs raggedUnpack := by
  have hunpacked : ∀ bytes m, raggedUnpack bytes = some m →
      bytes = raggedPayload ∧ m = raggedResults := by
    intro bytes m hm
    unfold raggedUnpack at hm
    split at hm
    · rename_i hbytes
      exact ⟨hbytes, (Option.some.inj hm).symm⟩
    · cases hm
  constructor
  · intro bytes m hm
    obtain ⟨rfl, rfl⟩ := hunpacked bytes m hm
    decide
  · intro bytes m hm doc hdoc
    obtain ⟨rfl, rfl⟩ := hunpacked bytes m hm
    simp only [raggedResults, List.mem_cons, List.not_mem_nil, or_false] at hdoc
    rcases hdoc with rfl | rfl
    · exact ⟨rfl, by decide⟩
    · exact ⟨rfl, by decide⟩

theorem riak_search_results_ragged :
    ∃ response, riakSearchResponseDecode raggedUnpack ⟨28, 15, 28 :: raggedPayload⟩ .null 0
        Heap.fresh = .ok (⟨.ok, .obj response, 1⟩, Heap.fresh) ∧
      SearchMirrors response raggedResults Heap.fresh :=
  riak_search_results Heap.fresh_ample raggedUnpack_reads
    (m := raggedResults) ⟨by decide, by decide, rfl⟩ (Or.inl rfl) 0

end RiakClient
