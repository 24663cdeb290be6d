import RiakClient.Bucketprops
import RiakClient.IndexRequest
import RiakClient.Ping
import RiakClient.Put

/-!
# The other requests

The encoders of `src/messages` that the modules on single requests do not have. Each
fills in its message, packs it, and installs its decoder; what they share is
`riakPackRequest`. Three of them keep the packed size in a `riak_size_t`, the others
in a `riak_uint32_t`.

The messages are definitions of their own, since what a request says is a question
about its message and not about the buffer that it is packed into. Arguments and
options of the application may be NULL: an encoder that reads one without a check
faults where it does, and one that tests it leaves the members as the initialised
message has them.
-/

namespace RiakClient

open CSem

variable {ρ : Type}

/-- The generated functions that pack a message. -/
structure Packers where
  get : RpbGetReq → Bytes
  put : RpbPutReq → Bytes
  del : RpbDelReq → Bytes
  listBuckets : RpbListBucketsReq → Bytes
  listKeys : RpbListKeysReq → Bytes
  setClientId : RpbSetClientIdReq → Bytes
  getBucket : RpbGetBucketReq → Bytes
  resetBucket : RpbResetBucketReq → Bytes
  setBucket : RpbSetBucketReq → Bytes
  mapRed : RpbMapRedReq → Bytes
  index : RpbIndexReq → Bytes
  searchQuery : RpbSearchQueryReq → Bytes

def riakServerinfoRequestEncode (rop : RiakOperation ρ) : C (RiakError × RiakOperation ρ) :=
  riakEmptyRequest rop MSG_RPBGETSERVERINFOREQ .serverinfo

/-! ### Get

`src/messages/riak_get.c`. Flags and values of the options are copied as they are,
except for `if_modified`, which is a binary; the arguments go into the cache of the
operation as well, for the response has neither bucket nor key. -/

def riakGetRequestMsg (bucketType bucket key : Option RiakBinary)
    (getOptions : Option RiakGetOptions) : C RpbGetReq := do
  let bucketBytes ← riakBinaryCopyToPb bucket
  let keyBytes ← riakBinaryCopyToPb key
  let type ← copyToPbIf bucketType.isSome bucketType
  let o := getOptions.getD {}
  let ifModified ← copyToPbIf o.hasIfModified o.ifModified
  pure {
    bucket := bucketBytes
    key := keyBytes
    hasR := o.hasR, r := o.r
    hasPr := o.hasPr, pr := o.pr
    hasBasicQuorum := o.hasBasicQuorum, basicQuorum := o.basicQuorum
    hasNotfoundOk := o.hasNotfoundOk, notfoundOk := o.notfoundOk
    hasIfModified := o.hasIfModified, ifModified := ifModified
    hasHead := o.hasHead, head := o.head
    hasDeletedvclock := o.hasDeletedvclock, deletedvclock := o.deletedvclock
    hasTimeout := o.hasTimeout, timeout := o.timeout
    hasSloppyQuorum := o.hasSloppyQuorum, sloppyQuorum := o.sloppyQuorum
    hasNVal := o.hasNVal, nVal := o.nVal
    hasType := bucketType.isSome, type := type }

def riakGetRequestEncode (pack : RpbGetReq → Bytes) (rop : RiakOperation ρ)
    (bucketType bucket key : Option RiakBinary) (getOptions : Option RiakGetOptions) :
    C (RiakError × RiakOperation ρ) := do
  let rop ← riakOperationSetBucketType rop bucketType
  let rop ← riakOperationSetBucket rop bucket
  let rop ← riakOperationSetKey rop key
  let getmsg ← riakGetRequestMsg bucketType bucket key getOptions
  riakPackRequest rop MSG_RPBGETREQ (packedSize32 (pack getmsg)) (pack getmsg) .get .outOfMemory

/-! ### Delete

`src/messages/riak_delete.c`. Here every value is copied only under its flag. -/

def riakDeleteRequestMsg (bucketType bucket key : Option RiakBinary)
    (options : Option RiakDeleteOptions) : C RpbDelReq := do
  let type ← copyToPbIf bucketType.isSome bucketType
  let bucketBytes ← riakBinaryCopyToPb bucket
  let keyBytes ← riakBinaryCopyToPb key
  let o := options.getD {}
  let vclock ← copyToPbIf o.hasVclock o.vclock
  pure {
    bucket := bucketBytes
    key := keyBytes
    hasVclock := o.hasVclock, vclock := vclock
    hasW := o.hasW, w := assignIf o.hasW o.w
    hasPw := o.hasPw, pw := assignIf o.hasPw o.pw
    hasDw := o.hasDw, dw := assignIf o.hasDw o.dw
    hasTimeout := o.hasTimeout, timeout := assignIf o.hasTimeout o.timeout
    hasSloppyQuorum := o.hasSloppyQuorum
    sloppyQuorum := assignIf o.hasSloppyQuorum o.sloppyQuorum
    hasNVal := o.hasNVal, nVal := assignIf o.hasNVal o.nVal
    hasType := bucketType.isSome, type := type }

def riakDeleteRequestEncode (pack : RpbDelReq → Bytes) (rop : RiakOperation ρ)
    (bucketType bucket key : Option RiakBinary) (options : Option RiakDeleteOptions) :
    C (RiakError × RiakOperation ρ) := do
  let delmsg ← riakDeleteRequestMsg bucketType bucket key options
  riakPackRequest rop MSG_RPBDELREQ (packedSize32 (pack delmsg)) (pack delmsg) .delete .outOfMemory

/-! ### Listings

`src/messages/riak_listbuckets.c` and `riak_listkeys.c`. A listing of buckets always
asks for a stream; a listing of keys is one without asking. Timeouts are sent if they
are not zero, and without a buffer a listing of keys returns 1. -/

def riakListbucketsRequestEncode (pack : RpbListBucketsReq → Bytes) (rop : RiakOperation ρ)
    (bucketType : Option RiakBinary) (timeout : UInt32) : C (RiakError × RiakOperation ρ) := do
  let type ← copyToPbIf bucketType.isSome bucketType
  let listbucketsreq : RpbListBucketsReq := {
    hasStream := true, stream := 1
    hasType := bucketType.isSome, type := type
    hasTimeout := 0 < timeout, timeout := timeout }
  riakPackRequest rop MSG_RPBLISTBUCKETSREQ (pack listbucketsreq).length (pack listbucketsreq)
    .listbuckets .outOfMemory

def riakListkeysRequestEncode (pack : RpbListKeysReq → Bytes) (rop : RiakOperation ρ)
    (bucketType bucket : Option RiakBinary) (timeout : UInt32) :
    C (RiakError × RiakOperation ρ) := do
  let type ← copyToPbIf bucketType.isSome bucketType
  let bucketBytes ← riakBinaryCopyToPb bucket
  let listkeysreq : RpbListKeysReq := {
    bucket := bucketBytes
    hasType := bucketType.isSome, type := type
    hasTimeout := 0 < timeout, timeout := timeout }
  riakPackRequest rop MSG_RPBLISTKEYSREQ (pack listkeysreq).length (pack listkeysreq) .listkeys
    .testFailure

/-! ### Client ids

`src/messages/riak_get_clientid.c` and `riak_set_clientid.c`. -/

def riakGetClientidRequestEncode (rop : RiakOperation ρ) : C (RiakError × RiakOperation ρ) :=
  riakEmptyRequest rop MSG_RPBGETCLIENTIDREQ .getClientid

def riakSetClientidRequestEncode (pack : RpbSetClientIdReq → Bytes) (rop : RiakOperation ρ)
    (clientid : Option RiakBinary) : C (RiakError × RiakOperation ρ) := do
  let clientId ← riakBinaryCopyToPb clientid
  let clidmsg : RpbSetClientIdReq := { clientId := clientId }
  riakPackRequest rop MSG_RPBSETCLIENTIDREQ (packedSize32 (pack clidmsg)) (pack clidmsg)
    .setClientid .outOfMemory

/-! ### Bucket properties

`src/messages/riak_get_bucketprops.c`, `riak_reset_bucketprops.c` and
`riak_set_bucketprops.c`. A get and a reset send the bucket and its type, if there is
one; a get without a buffer returns 1. A set copies the properties of the application
and ignores what the copy returns, and protobuf-c then walks through whatever it has
left. -/

def bucketRequestMsg (bucketType bucket : Option RiakBinary) : C RpbBucketReq := do
  let type ← copyToPbIf bucketType.isSome bucketType
  let bucketBytes ← riakBinaryCopyToPb bucket
  pure { bucket := bucketBytes, hasType := bucketType.isSome, type := type }

def riakGetBucketpropsRequestEncode (pack : RpbGetBucketReq → Bytes) (rop : RiakOperation ρ)
    (bucketType bucket : Option RiakBinary) : C (RiakError × RiakOperation ρ) := do
  let bucketreq ← bucketRequestMsg bucketType bucket
  riakPackRequest rop MSG_RPBGETBUCKETREQ (pack bucketreq).length (pack bucketreq) .getBucketprops
    .testFailure

/-- `riak_reset_bucketprops_request_encode`. Its definition has the bucket first,
    its prototype and its callers the bucket type; and it sends the message id of
    a set. -/
def riakResetBucketpropsRequestEncode (pack : RpbResetBucketReq → Bytes) (rop : RiakOperation ρ)
    (bucket bucketType : Option RiakBinary) : C (RiakError × RiakOperation ρ) := do
  let resetmsg ← bucketRequestMsg bucketType bucket
  riakPackRequest rop MSG_RPBSETBUCKETREQ (packedSize32 (pack resetmsg)) (pack resetmsg)
    .resetBucketprops .outOfMemory

def riakSetBucketpropsRequestMsg (bucketType bucket : Option RiakBinary)
    (props : Option RiakBucketprops) : C RpbSetBucketReq := do
  let type ← copyToPbIf bucketType.isSome bucketType
  let bucketBytes ← riakBinaryCopyToPb bucket
  let (_, pbprops) ← riakBucketpropsToPbCopy (← C.deref props)
  pure { bucket := bucketBytes, props := pbprops, hasType := bucketType.isSome, type := type }

def riakSetBucketpropsRequestEncode (pack : RpbSetBucketReq → Bytes) (rop : RiakOperation ρ)
    (bucketType bucket : Option RiakBinary) (props : Option RiakBucketprops) :
    C (RiakError × RiakOperation ρ) := do
  let setmsg ← riakSetBucketpropsRequestMsg bucketType bucket props
  setmsg.props.walk
  riakPackRequest rop MSG_RPBSETBUCKETREQ (packedSize32 (pack setmsg)) (pack setmsg)
    .setBucketprops .outOfMemory

/-! ### MapReduce and search

`src/messages/riak_mapreduce.c` and `riak_search.c`. The names of `fl` are the only
option of a request that is an array. -/

def riakMapreduceRequestEncode (pack : RpbMapRedReq → Bytes) (rop : RiakOperation ρ)
    (contentType mapRequest : Option RiakBinary) : C (RiakError × RiakOperation ρ) := do
  let request ← riakBinaryCopyToPb mapRequest
  let contentTypeBytes ← riakBinaryCopyToPb contentType
  let mapmsg : RpbMapRedReq := { request := request, contentType := contentTypeBytes }
  riakPackRequest rop MSG_RPBMAPREDREQ (packedSize32 (pack mapmsg)) (pack mapmsg) .mapreduce
    .outOfMemory

/-- The array `fl`: no array for an empty list, and `none` when it is refused. -/
def searchFieldList (o : RiakSearchOptions) : C (Option (Repeated Bytes)) :=
  if 0 < o.nFl then do
    let fl ← copyArray o.nFl fun i => do
      let field ← C.readAt (← C.deref o.fl) i
      let bytes ← riakBinaryCopyToPb field
      pure (some bytes)
    pure (fl.map fun items => ⟨o.nFl, some items⟩)
  else pure (some {})

def riakSearchRequestMsg (bucket query : Option RiakBinary)
    (searchOptions : Option RiakSearchOptions) : C (Option RpbSearchQueryReq) := do
  let q ← riakBinaryCopyToPb query
  let index ← riakBinaryCopyToPb bucket
  let o := searchOptions.getD {}
  let sort ← copyToPbIf o.hasSort o.sort
  let filter ← copyToPbIf o.hasFilter o.filter
  let df ← copyToPbIf o.hasDf o.df
  let op ← copyToPbIf o.hasOp o.op
  let presort ← copyToPbIf o.hasPresort o.presort
  let fl ← searchFieldList o
  pure (fl.map fun fl => {
    q := q
    index := index
    hasRows := o.hasRows, rows := o.rows
    hasStart := o.hasStart, start := o.start
    hasSort := o.hasSort, sort := sort
    hasFilter := o.hasFilter, filter := filter
    hasDf := o.hasDf, df := df
    hasOp := o.hasOp, op := op
    fl := fl
    hasPresort := o.hasPresort, presort := presort })

def riakSearchRequestEncode (pack : RpbSearchQueryReq → Bytes) (rop : RiakOperation ρ)
    (bucket query : Option RiakBinary) (searchOptions : Option RiakSearchOptions) :
    C (RiakError × RiakOperation ρ) := do
  let rop ← riakOperationSetBucket rop bucket
  match ← riakSearchRequestMsg bucket query searchOptions with
  | none => pure (.outOfMemory, rop)
  | some srchmsg =>
      riakPackRequest rop MSG_RPBSEARCHQUERYREQ (packedSize32 (pack srchmsg)) (pack srchmsg)
        .search .outOfMemory

end RiakClient
