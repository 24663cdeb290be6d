import RiakClient.Decoders
import RiakClient.Exchange

/-!
# What the decoders make of an exchange

Every decoder gathers: one that reports done at once makes its response of one
frame, and one that is given its own response again adds each frame to what it
has. `Sound` says what a decoder needs of the responses, `isFinal` which of them
is the last one, and `Answers` what the application gets for them.
-/

namespace RiakClient

open CSem Framing

variable {ρ α μ : Type} {heap final : Heap}

/-! ### Typed decoders -/

/-- `Gathers`, for a decoder and responses of its own kind. -/
def Collects (decode : RiakOperation ρ → RiakPbMessage → Option α → C (Decoded α))
    (request : RiakRequestCache) (isFinal : WireMessage → Bool)
    (Seen : List WireMessage → Option α → Prop) (msgs : List WireMessage) : Prop :=
  ∀ before m after, msgs = before ++ m :: after →
    (∀ x ∈ before, x.closes isFinal = false) → m.isError = false →
    ∀ (rop : RiakOperation ρ) (resp : Option α) (heap : Heap), heap.Ample → rop.Asks request →
      Seen before resp →
      ∃ result, decode rop m.received resp heap = .ok (result, heap) ∧
        result.err = .ok ∧ (result.done ≠ 0 ↔ isFinal m = true) ∧
        Seen (before ++ [m]) result.resp

def RiakResponse.Holds (decoder : RiakResponseDecoder)
    (Seen : List WireMessage → Option decoder.Response → Prop) (msgs : List WireMessage)
    (resp : Option RiakResponse) : Prop :=
  ∃ value, resp = value.map (fun value => ⟨decoder, value⟩) ∧ Seen msgs value

theorem RiakResponse.as_own (decoder : RiakResponseDecoder) (value : Option decoder.Response) :
    RiakResponse.as decoder (value.map fun value => ⟨decoder, value⟩) = pure value := by
  cases value with
  | none => rfl
  | some value =>
    show (if h : decoder = decoder then pure (some (h ▸ value)) else C.fault .wildDereference) = _
    rw [dif_pos rfl]

theorem Collects.gathers {unpackers : Unpackers} {decoder : RiakResponseDecoder}
    {request : RiakRequestCache} {isFinal : WireMessage → Bool}
    {Seen : List WireMessage → Option decoder.Response → Prop} {msgs : List WireMessage}
    (h : Collects (fun (rop : RiakOperation RiakResponse) pbresp resp =>
      decoder.decode unpackers rop (some pbresp) resp 1) request isFinal Seen msgs) :
    Gathers (riakReadEnv unpackers) decoder request isFinal (RiakResponse.Holds decoder Seen)
      msgs := by
  intro before m after hmsgs hopen hresponse rop heap hheap hasks hseen
  obtain ⟨value, hvalue, hseen⟩ := hseen
  obtain ⟨result, hdecode, hok, hdone, hseen'⟩ :=
    h before m after hmsgs hopen hresponse rop value heap hheap hasks hseen
  refine ⟨⟨result.err, result.resp.map fun value => ⟨decoder, value⟩, result.done⟩, heap, ?_,
    hheap, hok, hdone, result.resp, rfl, hseen'⟩
  show (RiakResponse.as decoder rop.response >>= fun resp =>
    decoder.decode unpackers rop (some m.received) resp 1 >>= _) heap = _
  rw [hvalue, RiakResponse.as_own, pure_bind, C.bind_of_ok hdecode]
  rfl

/-! ### Responses -/

def replies (unpack : Bytes → Option μ) (msgs : List WireMessage) : List μ :=
  msgs.filterMap fun m => if m.isError then none else unpack m.payload

def Readable (unpack : Bytes → Option μ) (Right : μ → Prop) (msgs : List WireMessage) : Prop :=
  ∀ m ∈ msgs, m.isError = false → ∃ reply, unpack m.payload = some reply ∧ Right reply

def Announceable (msgs : List WireMessage) : Prop :=
  ∀ m ∈ msgs, m.payload.length < 2 ^ 32 - 1

theorem replies_append (unpack : Bytes → Option μ) (before later : List WireMessage) :
    replies unpack (before ++ later) = replies unpack before ++ replies unpack later :=
  List.filterMap_append

theorem replies_single {unpack : Bytes → Option μ} {m : WireMessage} (hresponse : m.isError = false)
    {reply : μ} (h : unpack m.payload = some reply) : replies unpack [m] = [reply] := by
  unfold replies
  rw [List.filterMap_cons_some (b := reply)]
  · rfl
  · rw [hresponse, if_neg Bool.false_ne_true]
    exact h

/-- A response that says that it is the last one. -/
def saysDone (unpack : Bytes → Option μ) (flag : μ → RiakBoolean) (m : WireMessage) : Bool :=
  (unpack m.payload).any fun reply => flag reply ≠ 0

/-! ### One frame, and many

Of the decoders that report done at once some look at nothing, and the others make
their response of what the frame says. A decoder that is given its own response is
described by what one frame adds. -/

section Kinds

variable {decode : RiakOperation ρ → RiakPbMessage → Option α → C (Decoded α)}
  {request : RiakRequestCache} {msgs : List WireMessage}

/-- **A decoder that reports done at once.** -/
theorem collects_single {Seen : List WireMessage → Option α → Prop}
    (hnone : ∀ resp, Seen [] resp → resp = none)
    (hdecode : ∀ m ∈ msgs, m.isError = false → ∀ (rop : RiakOperation ρ) (heap : Heap),
      heap.Ample → rop.Asks request →
      ∃ value, decode rop m.received none heap = .ok (⟨.ok, some value, 1⟩, heap) ∧
        Seen [m] (some value)) :
    Collects decode request (fun _ => true) Seen msgs := by
  intro before m after hmsgs hopen hresponse rop resp heap hheap hasks hseen
  cases before with
  | cons first before =>
    have hfinal := (Bool.or_eq_false_iff.mp (hopen first List.mem_cons_self)).2
    cases hfinal
  | nil =>
    obtain rfl := hnone resp hseen
    have hm : m ∈ msgs := by
      rw [hmsgs]
      exact List.mem_cons_self
    obtain ⟨value, hresult, hseen'⟩ := hdecode m hm hresponse rop heap hheap hasks
    have hone : (1 : RiakBoolean) ≠ 0 := by decide
    exact ⟨_, hresult, rfl, ⟨fun _ => rfl, fun _ => hone⟩, hseen'⟩

theorem collects_constant {value : α}
    (hdecode : ∀ (rop : RiakOperation ρ) (pbresp : RiakPbMessage) (heap : Heap), heap.Ample →
      decode rop pbresp none heap = .ok (⟨.ok, some value, 1⟩, heap)) :
    Collects decode request (fun _ => true)
      (fun msgs resp => resp = msgs.head?.map fun _ => value) msgs := by
  refine collects_single (fun resp hresp => hresp) ?_
  intro m _ _ rop heap hheap _
  exact ⟨value, hdecode rop m.received heap hheap, rfl⟩

theorem collects_reply {unpack : Bytes → Option μ} {Right : μ → Prop} {make : μ → α}
    (hlength : Announceable msgs) (hreads : Readable unpack Right msgs)
    (hdecode : ∀ (pbresp : RiakPbMessage) (reply : μ) (rop : RiakOperation ρ) (heap : Heap),
      Unpacks unpack pbresp reply → Right reply → heap.Ample → rop.Asks request →
      decode rop pbresp none heap = .ok (⟨.ok, some (make reply), 1⟩, heap)) :
    Collects decode request (fun _ => true)
      (fun msgs resp => resp = msgs.head?.bind fun m => (unpack m.payload).map make) msgs := by
  refine collects_single (fun resp hresp => hresp) ?_
  intro m hm hresponse rop heap hheap hasks
  obtain ⟨reply, hunpack, hright⟩ := hreads m hm hresponse
  refine ⟨make reply, ?_, ?_⟩
  · exact hdecode _ reply rop heap (m.unpacks (hlength m hm) hunpack) hright hheap hasks
  · show some (make reply) = (unpack m.payload).map make
    rw [hunpack]
    rfl

/-- **A decoder that adds to its own response**: what a frame adds is all there is to
    show. -/
theorem collects_stream {unpack : Bytes → Option μ} {flag : μ → RiakBoolean}
    {Gathered : List μ → Option α → Prop} (hlength : Announceable msgs)
    (hreads : Readable unpack (fun _ => True) msgs)
    (hframe : ∀ seen reply, seen ++ [reply] <+: replies unpack msgs →
      ∀ (rop : RiakOperation ρ) (pbresp : RiakPbMessage) (resp : Option α) (heap : Heap),
        Unpacks unpack pbresp reply → heap.Ample → rop.Asks request → Gathered seen resp →
        ∃ result, decode rop pbresp resp heap = .ok (result, heap) ∧ result.err = .ok ∧
          result.done = flag reply ∧ Gathered (seen ++ [reply]) result.resp) :
    Collects decode request (saysDone unpack flag)
      (fun msgs resp => Gathered (replies unpack msgs) resp) msgs := by
  intro before m after hmsgs hopen hresponse rop resp heap hheap hasks hseen
  have hm : m ∈ msgs := by
    rw [hmsgs]
    exact List.mem_append_right _ List.mem_cons_self
  obtain ⟨reply, hunpack, _⟩ := hreads m hm hresponse
  have hsplit : replies unpack (before ++ [m]) = replies unpack before ++ [reply] := by
    rw [replies_append, replies_single hresponse hunpack]
  have hprefix : replies unpack before ++ [reply] <+: replies unpack msgs := by
    rw [← hsplit, hmsgs, show before ++ m :: after = (before ++ [m]) ++ after by
      rw [List.append_assoc]; rfl, replies_append _ (before ++ [m])]
    exact List.prefix_append _ _
  obtain ⟨result, hdecode, hok, hdone, hseen'⟩ := hframe _ _ hprefix rop m.received resp heap
    (m.unpacks (hlength m hm) hunpack) hheap hasks hseen
  refine ⟨result, hdecode, hok, ?_, ?_⟩
  · unfold saysDone
    rw [hdone, hunpack, Option.any_some, decide_eq_true_iff]
  · show Gathered (replies unpack (before ++ [m])) result.resp
    rw [hsplit]
    exact hseen'

end Kinds

/-! ### Responses of one frame -/

theorem emptyResponseDecode_of_ample (h : heap.Ample) (resp : Option RiakEmptyResponse) :
    emptyResponseDecode resp heap = .ok (⟨.ok, some ⟨⟩, 1⟩, heap) := by
  unfold emptyResponseDecode
  rw [C.bind_of_ok (C.new_of_ample h _)]
  rfl

theorem riakGetClientidResponseDecode_of_ample (h : heap.Ample)
    {unpack : Bytes → Option RpbGetClientIdResp} {pbresp : RiakPbMessage} {m : RpbGetClientIdResp}
    (hm : Unpacks unpack pbresp m) (resp : Option RiakGetClientidResponse) (done : RiakBoolean) :
    riakGetClientidResponseDecode unpack pbresp resp done heap =
      .ok (⟨.ok, some ⟨some ⟨m.clientId, false⟩⟩, 1⟩, heap) := by
  unfold riakGetClientidResponseDecode
  rw [hm.payload, pure_bind, hm.unpacked]
  simp only
  rw [C.bind_of_ok (C.allocate_of_ample h)]
  simp only [if_true]
  rw [C.bind_of_ok (riakBinaryCopyFromPb_of_ample h _)]
  rfl

/-- The response that a server's description of itself becomes. -/
def RpbGetServerInfoResp.decoded (m : RpbGetServerInfoResp) : RiakServerinfoResponse where
  hasNode := m.hasNode
  node := decodedBinary m.hasNode m.node
  hasServerVersion := m.hasServerVersion
  serverVersion := decodedBinary m.hasServerVersion m.serverVersion

theorem riakServerinfoResponseDecode_of_ample (h : heap.Ample)
    {unpack : Bytes → Option RpbGetServerInfoResp} {pbresp : RiakPbMessage}
    {m : RpbGetServerInfoResp} (hm : Unpacks unpack pbresp m)
    (resp : Option RiakServerinfoResponse) (done : RiakBoolean) :
    riakServerinfoResponseDecode unpack pbresp resp done heap =
      .ok (⟨.ok, some m.decoded, 1⟩, heap) := by
  unfold riakServerinfoResponseDecode
  rw [hm.payload, pure_bind, hm.unpacked]
  simp only
  rw [C.bind_of_ok (C.allocate_of_ample h)]
  simp only [if_true]
  rw [C.bind_of_ok (copyFromPbIf_of_ample h _ _)]
  simp only
  rw [C.bind_of_ok (copyFromPbIf_of_ample h _ _)]
  rfl

/-- The response that a fetch becomes on an operation with this cache. -/
def RpbGetResp.decoded (request : RiakRequestCache) (m : RpbGetResp) : RiakGetResponse where
  hasVclock := m.hasVclock
  vclock := decodedBinary m.hasVclock m.vclock
  hasUnchanged := m.hasUnchanged
  unchanged := assignIf m.hasUnchanged m.unchanged
  nContent := m.content.length
  content := decodedArray (m.content.map (fetchedObject request))

/-- The response that a store becomes. -/
def RpbPutResp.decoded (m : RpbPutResp) : RiakPutResponse where
  hasVclock := m.hasVclock
  vclock := decodedBinary m.hasVclock m.vclock
  hasKey := m.hasKey
  key := decodedBinary m.hasKey m.key
  nContent := m.content.length
  content := decodedArray (m.content.map RpbContent.decoded)

/-- Siblings that can be counted and copied. -/
def SoundContents (content : List RpbContent) : Prop :=
  content.length < 2 ^ 31 ∧ ∀ c ∈ content, c.Sound

theorem riakPutObject_of_sound (h : heap.Ample) {content : List RpbContent} {i : Nat}
    {c : RpbContent} (hget : content[i]? = some c) (hc : c.Sound) :
    riakPutObject content i heap = .ok (some c.decoded, heap) := by
  unfold riakPutObject
  rw [C.readAt_of_get hget, pure_bind, C.bind_of_ok (riakObjectNewFromPb_of_sound h hc)]
  simp only [ne_eq, not_true_eq_false, if_false]
  rfl

theorem riakPutResponseDecode_of_sound (h : heap.Ample) {unpack : Bytes → Option RpbPutResp}
    {pbresp : RiakPbMessage} {m : RpbPutResp} (hm : Unpacks unpack pbresp m)
    (hsound : SoundContents m.content) (resp : Option RiakPutResponse) (done : RiakBoolean) :
    riakPutResponseDecode unpack pbresp resp done heap =
      .ok (⟨.ok, some m.decoded, 1⟩, heap) := by
  obtain ⟨hcount, hsound⟩ := hsound
  unfold riakPutResponseDecode RpbPutResp.decoded
  rw [hm.payload, pure_bind, hm.unpacked]
  simp only
  rw [C.bind_of_ok (C.allocate_of_ample h)]
  simp only [if_true]
  rw [C.bind_of_ok (copyFromPbIf_of_ample h _ _)]
  simp only
  rw [C.bind_of_ok (copyFromPbIf_of_ample h _ _)]
  simp only
  cases hcontent : m.content with
  | nil => rfl
  | cons first rest =>
    have hloop : copyLoop (riakPutObject m.content) (m.content.map RpbContent.decoded).length 0
        heap = .ok (some (m.content.map RpbContent.decoded), heap) :=
      copyLoop_of_ample _ 0 (by rw [List.length_map, Nat.zero_add]; exact hcount) (by
        intro j object hobject
        rw [List.getElem?_map, Option.map_eq_some_iff] at hobject
        obtain ⟨c, hc, rfl⟩ := hobject
        rw [Nat.zero_add]
        exact riakPutObject_of_sound h hc (hsound c (List.mem_of_getElem? hc)))
    have hn : Int.bmod (first :: rest).length (2 ^ 32) = (first :: rest).length := by
      rw [← hcontent]
      exact asInt_of_lt hcount
    rw [List.length_map, hcontent] at hloop
    rw [if_pos (by rw [List.length_cons]; omega), C.bind_of_ok (C.allocate_of_ample h)]
    simp only [if_true]
    rw [C.bind_of_ok hloop]
    simp only [hn]
    rfl

/-- Properties that can be built from as many hooks as their message says. -/
structure SoundProps (props : RpbBucketProps) : Prop where
  buildable : props.Buildable
  precommit : props.precommit.entries.length = props.precommit.count
  postcommit : props.postcommit.entries.length = props.postcommit.count

theorem riakGetBucketpropsResponseDecode_of_sound (h : heap.Ample)
    {unpack : Bytes → Option RpbGetBucketResp} {pbresp : RiakPbMessage} {m : RpbGetBucketResp}
    (hm : Unpacks unpack pbresp m) (hsound : SoundProps m.props)
    (resp : Option RiakGetBucketpropsResponse) (done : RiakBoolean) :
    riakGetBucketpropsResponseDecode unpack (some pbresp) resp done heap =
      .ok (⟨.ok, some ⟨some m.props.decoded⟩, 1⟩, heap) := by
  have hbuilt := (riakBucketpropsNewFromPb_allOrNothing hsound.buildable hsound.precommit
    hsound.postcommit).granted heap (h.grants _)
  rw [h.after] at hbuilt
  unfold riakGetBucketpropsResponseDecode
  rw [C.deref_some, pure_bind, hm.payload, pure_bind, hm.unpacked]
  simp only
  rw [C.bind_of_ok (C.allocate_of_ample h)]
  simp only [if_true]
  rw [C.bind_of_ok hbuilt]
  rfl

theorem searchDecode_of_ample (h : heap.Ample) {unpack : Bytes → Option RpbSearchQueryResp}
    {pbresp : RiakPbMessage} {m : RpbSearchQueryResp} (hm : Unpacks unpack pbresp m)
    (hsound : m.Sound) (done : RiakBoolean) :
    RiakResponseDecoder.searchDecode unpack pbresp none done heap =
      .ok (⟨.ok, some (.obj m.decoded), 1⟩, heap) := by
  have hdecode : riakSearchResponseDecode unpack pbresp
      ((none : Option (Ptr RiakSearchResponse)).getD .null) done heap =
        .ok (⟨.ok, .obj m.decoded, 1⟩, heap) :=
    riakSearchResponseDecode_of_ample h hm hsound (Or.inl rfl) done
  unfold RiakResponseDecoder.searchDecode
  rw [C.bind_of_ok hdecode]
  rfl

/-! ### The table

What each decoder needs and what it makes, by cases on the decoder; both listings are
extended in the same way. The invariant starts with no response. -/

namespace RiakResponseDecoder

variable (unpackers : Unpackers) (request : RiakRequestCache)

/-- The frame that closes an exchange in which all goes well. -/
def isFinal : RiakResponseDecoder → WireMessage → Bool
  | listbuckets => saysDone unpackers.listBuckets fun m => doneFlag m.hasDone m.done
  | listkeys => saysDone unpackers.listKeys fun m => doneFlag m.hasDone m.done
  | mapreduce => saysDone unpackers.mapRed fun m => doneFlag m.hasDone m.done
  | index2i => saysDone unpackers.index fun m => doneFlag m.hasDone m.done
  | _ => fun _ => true

/-- What a decoder needs of the responses. -/
def Sound : RiakResponseDecoder → List WireMessage → Prop
  | ping, _ | delete, _ | setClientid, _ | resetBucketprops, _ | setBucketprops, _ => True
  | serverinfo, msgs => Readable unpackers.getServerInfo (fun _ => True) msgs
  | getClientid, msgs => Readable unpackers.getClientId (fun _ => True) msgs
  | get, msgs => Readable unpackers.get (fun m => SoundContents m.content) msgs
  | put, msgs => Readable unpackers.put (fun m => SoundContents m.content) msgs
  | getBucketprops, msgs => Readable unpackers.getBucket (fun m => SoundProps m.props) msgs
  | search, msgs => Readable unpackers.searchQuery RpbSearchQueryResp.Sound msgs
  | listbuckets, msgs => Readable unpackers.listBuckets (fun _ => True) msgs ∧
      (replies unpackers.listBuckets msgs).length < 2 ^ 32 ∧
      (allEntries listbucketsMessage (replies unpackers.listBuckets msgs)).length < 2 ^ 31
  | listkeys, msgs => Readable unpackers.listKeys (fun _ => True) msgs ∧
      (replies unpackers.listKeys msgs).length < 2 ^ 32 ∧
      (allEntries listkeysMessage (replies unpackers.listKeys msgs)).length < 2 ^ 31
  | mapreduce, msgs => Readable unpackers.mapRed (fun _ => True) msgs ∧
      (replies unpackers.mapRed msgs).length < 2 ^ 31
  | index2i, msgs => Readable unpackers.index (fun _ => True) msgs ∧
      Gatherable (replies unpackers.index msgs)

/-- The response to a job: what was received, and with the last frame a message for
    each. -/
def MapreduceAnswers (seen : List RpbMapRedResp) (resp : Option RiakMapreduceResponse) : Prop :=
  MapreduceGathered seen resp ∧
    ∀ last ∈ seen.getLast?, doneFlag last.hasDone last.done ≠ 0 →
      ∃ response, resp = some response ∧ response.msg = .obj (seen.map fun m => .obj m.delivered)

/-- The response to a query: likewise, with its keys in one array. -/
def IndexAnswers (seen : List RpbIndexResp) (resp : Option Riak2iResponse) : Prop :=
  IndexInv seen resp ∧
    ∀ last ∈ seen.getLast?, doneFlag last.hasDone last.done ≠ 0 →
      ∃ response, resp = some response ∧ response.nKeys.toNat = (allKeys seen).length ∧
        response.keys = .obj ((allKeys seen).map keySlot)

/-- What the operation has after some frames. -/
def Answers : (decoder : RiakResponseDecoder) → List WireMessage → Option decoder.Response → Prop
  | ping, msgs, resp => resp = msgs.head?.map fun _ => ⟨1⟩
  | delete, msgs, resp | setClientid, msgs, resp | resetBucketprops, msgs, resp
  | setBucketprops, msgs, resp => resp = msgs.head?.map fun _ => ⟨⟩
  | serverinfo, msgs, resp => resp = msgs.head?.bind fun m =>
      (unpackers.getServerInfo m.payload).map RpbGetServerInfoResp.decoded
  | getClientid, msgs, resp => resp = msgs.head?.bind fun m =>
      (unpackers.getClientId m.payload).map fun reply => ⟨some ⟨reply.clientId, false⟩⟩
  | get, msgs, resp => resp = msgs.head?.bind fun m =>
      (unpackers.get m.payload).map (RpbGetResp.decoded request)
  | put, msgs, resp => resp = msgs.head?.bind fun m =>
      (unpackers.put m.payload).map RpbPutResp.decoded
  | getBucketprops, msgs, resp => resp = msgs.head?.bind fun m =>
      (unpackers.getBucket m.payload).map fun reply => ⟨some reply.props.decoded⟩
  | search, msgs, resp => resp = msgs.head?.bind fun m =>
      (unpackers.searchQuery m.payload).map fun reply => .obj reply.decoded
  | listbuckets, msgs, resp => ListInv listbucketsMessage (replies unpackers.listBuckets msgs) resp
  | listkeys, msgs, resp => ListInv listkeysMessage (replies unpackers.listKeys msgs) resp
  | mapreduce, msgs, resp => MapreduceAnswers (replies unpackers.mapRed msgs) resp
  | index2i, msgs, resp => IndexAnswers (replies unpackers.index msgs) resp

variable {unpackers : Unpackers} {request : RiakRequestCache} {msgs : List WireMessage}

theorem collects_listing {message : ListMessage μ} {unpack : Bytes → Option μ}
    (hlength : Announceable msgs)
    (hsound : Readable unpack (fun _ => True) msgs ∧ (replies unpack msgs).length < 2 ^ 32 ∧
      (allEntries message (replies unpack msgs)).length < 2 ^ 31) :
    Collects (fun (_ : RiakOperation ρ) pbresp resp =>
        listResponseDecode message unpack pbresp resp 1)
      request (saysDone unpack fun m => doneFlag (message.hasDone m) (message.done m))
      (fun msgs resp => ListInv message (replies unpack msgs) resp) msgs := by
  obtain ⟨hreads, hfew, hbound⟩ := hsound
  refine collects_stream hlength hreads ?_
  intro seen reply hprefix rop pbresp resp heap hframe hheap _ hinv
  have hcount := hprefix.length_le
  have hentries := allEntries_length_le message hprefix
  rw [List.length_append, List.length_singleton] at hcount
  obtain ⟨response, hdecode, hlisted⟩ := listResponseDecode_of_ample hheap message 1 hframe hinv
    (by omega) (by omega)
  exact ⟨_, hdecode, rfl, rfl, Or.inr ⟨response, rfl, hlisted⟩⟩

theorem collects_mapreduce {unpack : Bytes → Option RpbMapRedResp} (hlength : Announceable msgs)
    (hreads : Readable unpack (fun _ => True) msgs) (hfew : (replies unpack msgs).length < 2 ^ 31) :
    Collects (fun (rop : RiakOperation ρ) pbresp resp =>
        riakMapreduceResponseDecode unpack rop pbresp resp 1)
      request (saysDone unpack fun m => doneFlag m.hasDone m.done)
      (fun msgs resp => MapreduceAnswers (replies unpack msgs) resp) msgs := by
  refine collects_stream hlength hreads ?_
  intro seen reply hprefix rop pbresp resp heap hframe hheap _ hinv
  have hcount := hprefix.length_le
  rw [List.length_append, List.length_singleton] at hcount
  obtain ⟨decoded, hdecode, hout⟩ :=
    riakMapreduceResponseDecode_gathers hheap hframe hinv.1 (by omega) rop 1
  obtain ⟨last, hlast, hdone⟩ := hout.done
  rw [List.getLast?_concat, Option.some.injEq] at hlast
  subst hlast
  refine ⟨decoded, hdecode, hout.ok, hdone, hout.gathered, ?_⟩
  intro last hlast hflag
  rw [List.getLast?_concat, Option.mem_some_iff] at hlast
  subst hlast
  obtain ⟨response, hresp, _, hmsg⟩ := hout.response
  exact ⟨response, hresp, hmsg (by rw [hdone]; exact hflag)⟩

theorem collects_index {unpack : Bytes → Option RpbIndexResp} (hlength : Announceable msgs)
    (hreads : Readable unpack (fun _ => True) msgs) (hgood : Gatherable (replies unpack msgs)) :
    Collects (fun (rop : RiakOperation ρ) pbresp resp =>
        riak2iResponseDecode unpack rop pbresp resp 1)
      request (saysDone unpack fun m => doneFlag m.hasDone m.done)
      (fun msgs resp => IndexAnswers (replies unpack msgs) resp) msgs := by
  refine collects_stream hlength hreads ?_
  intro seen reply hprefix rop pbresp resp heap hframe hheap _ hinv
  have hgood' := hgood.of_isPrefix hprefix
  obtain ⟨decoded, hdecode⟩ := riak2iResponseDecode_of_gatherable hheap rop 1 hframe hinv.1 hgood'
  obtain ⟨_, hdone, hout⟩ := riak2iResponseDecode_eq_ok hheap hframe hinv.1 hdecode
  have hok := hout.noResults hgood'.noResults
  refine ⟨decoded, hdecode, hok, hdone, hout.holds hok, ?_⟩
  intro last hlast hflag
  rw [List.getLast?_concat, Option.mem_some_iff] at hlast
  subst hlast
  obtain ⟨response, hresp, hassembled⟩ := hout.assembled hok (Or.inr (by rw [hdone]; exact hflag))
  exact ⟨response, hresp, hassembled.allKeys_of_lt hgood'.fewKeys⟩

/-- **Every decoder of the table** makes of the frames what they say. -/
theorem collects (decoder : RiakResponseDecoder) (hlength : Announceable msgs)
    (hsound : decoder.Sound unpackers msgs) :
    Collects (fun (rop : RiakOperation ρ) pbresp resp =>
        decoder.decode unpackers rop (some pbresp) resp 1)
      request (decoder.isFinal unpackers) (decoder.Answers unpackers request) msgs := by
  have hempty : Collects (fun (_ : RiakOperation ρ) _ resp => emptyResponseDecode resp) request
      (fun _ => true) (fun msgs resp => resp = msgs.head?.map fun _ => ⟨⟩) msgs :=
    collects_constant fun _ _ _ hheap => emptyResponseDecode_of_ample hheap none
  cases decoder with
  | ping => exact collects_constant fun _ _ _ hheap => riakPingResponseDecode_of_ample hheap none
  | delete => exact hempty
  | setClientid => exact hempty
  | resetBucketprops => exact hempty
  | setBucketprops => exact hempty
  | serverinfo =>
    refine collects_reply hlength hsound ?_
    intro pbresp reply rop heap hm _ hheap _
    exact riakServerinfoResponseDecode_of_ample hheap hm none 1
  | getClientid =>
    refine collects_reply hlength hsound ?_
    intro pbresp reply rop heap hm _ hheap _
    exact riakGetClientidResponseDecode_of_ample hheap hm none 1
  | get =>
    refine collects_reply hlength hsound ?_
    intro pbresp reply rop heap hm hright hheap hasks
    have hdecode := riakGetResponseDecode_of_sound hheap hm hright.1 hright.2 rop none 1
    rw [hasks.request] at hdecode
    exact hdecode
  | put =>
    refine collects_reply hlength hsound ?_
    intro pbresp reply rop heap hm hright hheap _
    exact riakPutResponseDecode_of_sound hheap hm hright none 1
  | getBucketprops =>
    refine collects_reply hlength hsound ?_
    intro pbresp reply rop heap hm hright hheap _
    exact riakGetBucketpropsResponseDecode_of_sound hheap hm hright none 1
  | search =>
    refine collects_reply hlength hsound ?_
    intro pbresp reply rop heap hm hright hheap _
    exact searchDecode_of_ample hheap hm hright 1
  | listbuckets => exact collects_listing hlength hsound
  | listkeys => exact collects_listing hlength hsound
  | mapreduce => exact collects_mapreduce hlength hsound.1 hsound.2
  | index2i => exact collects_index hlength hsound.1 hsound.2

theorem answers_nil (decoder : RiakResponseDecoder) :
    decoder.Answers unpackers request [] none := by
  cases decoder with
  | listbuckets => exact Or.inl ⟨rfl, rfl⟩
  | listkeys => exact Or.inl ⟨rfl, rfl⟩
  | mapreduce => exact ⟨rfl, nofun⟩
  | index2i => exact ⟨indexInv_none, nofun⟩
  | ping | serverinfo | get | put | delete | getClientid | setClientid | getBucketprops
  | resetBucketprops | setBucketprops | search => rfl

end RiakResponseDecoder

/-- **The decoders of the client succeed** in every session on an answer that is sound. -/
theorem riakReadEnv_decodersSucceed {unpackers : Unpackers} {decoder : RiakResponseDecoder}
    {msgs : List WireMessage} (hmsgs : ∀ m ∈ msgs, m.Sendable)
    (hsound : decoder.Sound unpackers msgs)
    (hopen : ∀ before m after, msgs = before ++ m :: after →
      ∀ x ∈ before, x.closes (decoder.isFinal unpackers) = false)
    {rop : RiakOperation RiakResponse} (hdecoder : rop.decoder = some decoder) (hidle : rop.Idle)
    (hstreaming : rop.streaming = false) (hresponse : rop.response = none) (hheap : heap.Ample)
    (entries : List (SessionTurn RiakResponse)) :
    DecodersSucceed (riakReadEnv unpackers)
      ⟨rop, 0, heap, frames (msgs.map WireMessage.body)⟩ entries := by
  have hgathers : Gathers (riakReadEnv unpackers) decoder rop.request (decoder.isFinal unpackers)
      (RiakResponse.Holds decoder (decoder.Answers unpackers rop.request)) msgs :=
    (RiakResponseDecoder.collects decoder (fun m hm => (hmsgs m hm).2) hsound).gathers
  exact decodersSucceed_of_gathersAll hmsgs (hgathers.gathersAll hmsgs hopen ⟨rfl, hstreaming⟩)
    ⟨none, hresponse, RiakResponseDecoder.answers_nil decoder⟩ hdecoder hidle hheap entries

/-! ### An answer -/

/-- protobuf-c, for a listing of keys. -/
def keysUnpackers : Unpackers where
  error _ := none
  getClientId _ := none
  getServerInfo _ := none
  get _ := none
  put _ := none
  listBuckets _ := none
  listKeys := sampleKeysUnpack
  getBucket _ := none
  mapRed _ := none
  index _ := none
  searchQuery _ := none

/-- A message with a key, and the last one. -/
def keysAnswer : List WireMessage := [⟨18, [0x0a, 1, 0x61]⟩, ⟨18, [0x10, 1]⟩]

theorem keysAnswer_wellFormed : ∀ m ∈ keysAnswer, m.WellFormed (riakReadEnv keysUnpackers) := by
  intro m hm
  rcases List.mem_pair.mp hm with rfl | rfl
  · exact ⟨by decide, fun h => absurd h (by decide)⟩
  · exact ⟨by decide, fun h => absurd h (by decide)⟩

theorem keysAnswer_sound : RiakResponseDecoder.listkeys.Sound keysUnpackers keysAnswer := by
  refine ⟨?_, by decide, by decide⟩
  intro m hm _
  rcases List.mem_pair.mp hm with rfl | rfl
  · exact ⟨_, rfl, trivial⟩
  · exact ⟨_, rfl, trivial⟩

/-- protobuf-c, for a request for the keys of a bucket. -/
def keysPackers : Packers where
  get _ := []
  put _ := []
  del _ := []
  listBuckets _ := []
  listKeys m := [0x0a, UInt8.ofNat m.bucket.length] ++ m.bucket
  setClientId _ := []
  getBucket _ := []
  resetBucket _ := []
  setBucket _ := []
  mapRed _ := []
  index _ := []
  searchQuery _ := []

end RiakClient
