import RiakClient.BucketpropsResponse
import RiakClient.FetchStore
import RiakClient.IndexStream
import RiakClient.MapReduceStream
import RiakClient.Ping
import RiakClient.ResponseMemory
import RiakClient.Search

/-!
# All decoders

The decoders of the small responses, and `riak_read` with every decoder that an
encoder installs: `rop->response` is a `void*`, which each decoder takes for a
response of its own kind.
-/

namespace RiakClient

open CSem

variable {ρ : Type} {heap final : Heap}

/-! ### Small responses -/

structure RpbGetClientIdResp where
  clientId : Bytes
deriving DecidableEq, Repr

structure RpbGetServerInfoResp where
  hasNode : Bool := false
  node : Bytes := []
  hasServerVersion : Bool := false
  serverVersion : Bytes := []
deriving DecidableEq, Repr

/-- `_riak_get_clientid_response`, without the message that it keeps to free it. -/
structure RiakGetClientidResponse where
  clientId : Option RiakBinary := none
deriving DecidableEq, Repr

structure RiakServerinfoResponse where
  hasNode : Bool := false
  node : Option RiakBinary := none
  hasServerVersion : Bool := false
  serverVersion : Option RiakBinary := none
deriving DecidableEq, Repr

/-- A response with nothing in it that anything reads. -/
structure RiakEmptyResponse where
deriving DecidableEq, Repr

abbrev RiakDeleteResponse := RiakEmptyResponse

abbrev RiakSetClientidResponse := RiakEmptyResponse

abbrev RiakResetBucketpropsResponse := RiakEmptyResponse

abbrev RiakSetBucketpropsResponse := RiakEmptyResponse

def riakGetClientidResponseDecode (unpack : Bytes → Option RpbGetClientIdResp)
    (pbresp : RiakPbMessage) (resp : Option RiakGetClientidResponse) (done : RiakBoolean) :
    C (Decoded RiakGetClientidResponse) := do
  match unpack (← pbresp.payload) with
  | none => pure ⟨.messageFormat, resp, done⟩
  | some rpbresp =>
      if ← C.allocate then
        match ← riakBinaryCopyFromPb rpbresp.clientId with
        | none => pure ⟨.outOfMemory, resp, 1⟩
        | some clientId => pure ⟨.ok, some ⟨some clientId⟩, 1⟩
      else pure ⟨.outOfMemory, resp, 1⟩

def riakServerinfoResponseDecode (unpack : Bytes → Option RpbGetServerInfoResp)
    (pbresp : RiakPbMessage) (resp : Option RiakServerinfoResponse) (done : RiakBoolean) :
    C (Decoded RiakServerinfoResponse) := do
  match unpack (← pbresp.payload) with
  | none => pure ⟨.messageFormat, resp, done⟩
  | some rpbresp =>
      if ← C.allocate then
        let some node ← copyFromPbIf rpbresp.hasNode rpbresp.node
          | pure ⟨.outOfMemory, resp, 1⟩
        let some version ← copyFromPbIf rpbresp.hasServerVersion rpbresp.serverVersion
          | pure ⟨.outOfMemory, resp, 1⟩
        pure ⟨.ok, some ⟨rpbresp.hasNode, node, rpbresp.hasServerVersion, version⟩, 1⟩
      else pure ⟨.outOfMemory, resp, 1⟩

/-- The four decoders that look at nothing of the message are the same. -/
def emptyResponseDecode (resp : Option RiakEmptyResponse) : C (Decoded RiakEmptyResponse) := do
  match ← C.new (⟨⟩ : RiakEmptyResponse) with
  | none => pure ⟨.outOfMemory, resp, 1⟩
  | some response => pure ⟨.ok, some response, 1⟩

def riakDeleteResponseDecode (resp : Option RiakDeleteResponse) :
    C (Decoded RiakDeleteResponse) := emptyResponseDecode resp

def riakSetClientidResponseDecode (resp : Option RiakSetClientidResponse) :
    C (Decoded RiakSetClientidResponse) := emptyResponseDecode resp

def riakResetBucketpropsResponseDecode (resp : Option RiakResetBucketpropsResponse) :
    C (Decoded RiakResetBucketpropsResponse) := emptyResponseDecode resp

def riakSetBucketpropsResponseDecode (resp : Option RiakSetBucketpropsResponse) :
    C (Decoded RiakSetBucketpropsResponse) := emptyResponseDecode resp

/-! ### The table

A response carries the decoder that made it, and a decoder that is handed another kind
would read it as what it is not; in the table that is a fault, and no operation gets
there, since its decoder is only ever set by its encoder. -/

/-- protobuf-c, for the messages that a server sends. -/
structure Unpackers where
  error : Bytes → Option RpbErrorResp
  getClientId : Bytes → Option RpbGetClientIdResp
  getServerInfo : Bytes → Option RpbGetServerInfoResp
  get : Bytes → Option RpbGetResp
  put : Bytes → Option RpbPutResp
  listBuckets : Bytes → Option RpbListBucketsResp
  listKeys : Bytes → Option RpbListKeysResp
  getBucket : Bytes → Option RpbGetBucketResp
  mapRed : Bytes → Option RpbMapRedResp
  index : Bytes → Option RpbIndexResp
  searchQuery : Bytes → Option RpbSearchQueryResp

namespace RiakResponseDecoder

/-- The kind of response that a decoder makes. -/
def Response : RiakResponseDecoder → Type
  | ping => RiakPingResponse
  | serverinfo => RiakServerinfoResponse
  | get => RiakGetResponse
  | put => RiakPutResponse
  | delete => RiakDeleteResponse
  | listbuckets => RiakListbucketsResponse
  | listkeys => RiakListkeysResponse
  | getClientid => RiakGetClientidResponse
  | setClientid => RiakSetClientidResponse
  | getBucketprops => RiakGetBucketpropsResponse
  | resetBucketprops => RiakResetBucketpropsResponse
  | setBucketprops => RiakSetBucketpropsResponse
  | mapreduce => RiakMapreduceResponse
  | index2i => Riak2iResponse
  | search => Ptr RiakSearchResponse

/-- `riak_search_response_decode` leaves a pointer behind, which may be wild. -/
def searchDecode (unpack : Bytes → Option RpbSearchQueryResp) (pbresp : RiakPbMessage)
    (resp : Option (Ptr RiakSearchResponse)) (done : RiakBoolean) :
    C (Decoded (Ptr RiakSearchResponse)) := do
  let result ← riakSearchResponseDecode unpack pbresp (resp.getD .null) done
  pure ⟨result.err, if result.resp = .null then none else some result.resp, result.done⟩

/-- `rop->decoder`. The decoders of the empty responses do not follow `pbresp`, which
    is NULL when there was no memory for it. -/
def decode (unpackers : Unpackers) (rop : RiakOperation ρ) (pbresp : Option RiakPbMessage) :
    (decoder : RiakResponseDecoder) → Option decoder.Response → RiakBoolean →
      C (Decoded decoder.Response)
  | ping, resp, _ => riakPingResponseDecode resp
  | serverinfo, resp, done => do
      riakServerinfoResponseDecode unpackers.getServerInfo (← C.deref pbresp) resp done
  | get, resp, done => do riakGetResponseDecode unpackers.get rop (← C.deref pbresp) resp done
  | put, resp, done => do riakPutResponseDecode unpackers.put (← C.deref pbresp) resp done
  | delete, resp, _ => riakDeleteResponseDecode resp
  | listbuckets, resp, done => do
      riakListbucketsResponseDecode unpackers.listBuckets (← C.deref pbresp) resp done
  | listkeys, resp, done => do
      riakListkeysResponseDecode unpackers.listKeys (← C.deref pbresp) resp done
  | getClientid, resp, done => do
      riakGetClientidResponseDecode unpackers.getClientId (← C.deref pbresp) resp done
  | setClientid, resp, _ => riakSetClientidResponseDecode resp
  | getBucketprops, resp, done =>
      riakGetBucketpropsResponseDecode unpackers.getBucket pbresp resp done
  | resetBucketprops, resp, _ => riakResetBucketpropsResponseDecode resp
  | setBucketprops, resp, _ => riakSetBucketpropsResponseDecode resp
  | mapreduce, resp, done => do
      riakMapreduceResponseDecode unpackers.mapRed rop (← C.deref pbresp) resp done
  | index2i, resp, done => do
      riak2iResponseDecode unpackers.index rop (← C.deref pbresp) resp done
  | search, resp, done => do searchDecode unpackers.searchQuery (← C.deref pbresp) resp done

end RiakResponseDecoder

/-- What `rop->response` points to. -/
structure RiakResponse where
  decoder : RiakResponseDecoder
  value : decoder.Response

/-- The response as a decoder takes it. Another kind of response than its own would
    be read as what it is not. -/
def RiakResponse.as (decoder : RiakResponseDecoder) :
    Option RiakResponse → C (Option decoder.Response)
  | none => pure none
  | some response =>
      if h : response.decoder = decoder then pure (some (h ▸ response.value))
      else C.fault .wildDereference

/-- `riak_read` with all decoders. -/
def riakReadEnv (unpackers : Unpackers) : ReadEnv RiakResponse where
  decode decoder rop pbresp resp done := do
    let result ← decoder.decode unpackers rop pbresp (← RiakResponse.as decoder resp) done
    pure ⟨result.err, result.resp.map fun value => ⟨decoder, value⟩, result.done⟩
  rpbErrorRespUnpack := unpackers.error

end RiakClient
