import RiakClient.Protobuf

/-!
# The structs of the client

The structs of `src/internal`, member by member. A pointer member is an
`Option`; an array is a pointer to its slots. `riak_config` is the allocator,
which every computation carries, and `riak_connection` is only handed through,
so neither appears; the same goes for `cb_data` and the `_internal` pointers
that a struct keeps only to free the message it was decoded from.
-/

namespace RiakClient

/-- The conversion to `int` and `riak_int32_t`. -/
def asInt (i : Int) : Int := i.bmod (2 ^ 32)

theorem asInt_of_lt {n : Nat} (h : n < 2 ^ 31) : asInt n = n := by
  apply Int.bmod_eq_of_le <;> omega

/-- `riak_error`. -/
inductive RiakError where
  | ok
  | testFailure
  | outOfRange
  | dnsResolution
  | connect
  | outOfMemory
  | read
  | write
  | event
  | noEvent
  | noPing
  | logging
  | uninitialized
  | serverError
  | messageFormat
  | thread
  | invalid
deriving DecidableEq, Repr

/-- `_riak_binary`; its `len` is the length of `data`. -/
structure RiakBinary where
  data : Bytes
  managed : Bool
deriving DecidableEq, Repr

/-- `_riak_pb_message`: a message on its way out, or a frame that came in, whose
    first byte is the message id again. -/
structure RiakPbMessage where
  msgid : UInt8
  len : UInt32
  data : Bytes
deriving DecidableEq, Repr

/-! ### Objects -/

structure RiakPair where
  key : Option RiakBinary := none
  hasValue : Bool := false
  value : Option RiakBinary := none
deriving DecidableEq, Repr

structure RiakLink where
  hasBucket : Bool := false
  bucket : Option RiakBinary := none
  hasKey : Bool := false
  key : Option RiakBinary := none
  hasTag : Bool := false
  tag : Option RiakBinary := none
deriving DecidableEq, Repr

/-- `_riak_object`. The three counts are `riak_int32_t`. -/
structure RiakObject where
  bucket : Option RiakBinary := none
  hasBucketType : Bool := false
  bucketType : Option RiakBinary := none
  hasKey : Bool := false
  key : Option RiakBinary := none
  value : Option RiakBinary := none
  hasCharset : Bool := false
  charset : Option RiakBinary := none
  hasLastMod : Bool := false
  lastMod : UInt32 := 0
  hasLastModUsecs : Bool := false
  lastModUsecs : UInt32 := 0
  hasContentType : Bool := false
  contentType : Option RiakBinary := none
  hasContentEncoding : Bool := false
  encoding : Option RiakBinary := none
  hasDeleted : Bool := false
  deleted : RiakBoolean := 0
  hasVtag : Bool := false
  vtag : Option RiakBinary := none
  nLinks : Int := 0
  links : Option (List (Option RiakLink)) := none
  nUsermeta : Int := 0
  usermeta : Option (List (Option RiakPair)) := none
  nIndexes : Int := 0
  indexes : Option (List (Option RiakPair)) := none
deriving DecidableEq, Repr

/-! ### Bucket properties -/

structure RiakModfun where
  module : Option RiakBinary := none
  function : Option RiakBinary := none
deriving DecidableEq, Repr

structure RiakCommitHook where
  modfun : Option RiakModfun := none
  hasName : Bool := false
  name : Option RiakBinary := none
deriving DecidableEq, Repr

structure RiakBucketprops where
  hasNVal : Bool := false
  nVal : UInt32 := 0
  hasAllowMult : Bool := false
  allowMult : RiakBoolean := 0
  hasLastWriteWins : Bool := false
  lastWriteWins : RiakBoolean := 0
  nPrecommit : Nat := 0
  precommit : Option (List (Option RiakCommitHook)) := none
  hasHasPrecommit : Bool := false
  hasPrecommit : RiakBoolean := 0
  nPostcommit : Nat := 0
  postcommit : Option (List (Option RiakCommitHook)) := none
  hasHasPostcommit : Bool := false
  hasPostcommit : RiakBoolean := 0
  chashKeyfun : Option RiakModfun := none
  linkfun : Option RiakModfun := none
  hasOldVclock : Bool := false
  oldVclock : UInt32 := 0
  hasYoungVclock : Bool := false
  youngVclock : UInt32 := 0
  hasBigVclock : Bool := false
  bigVclock : UInt32 := 0
  hasSmallVclock : Bool := false
  smallVclock : UInt32 := 0
  hasPr : Bool := false
  pr : UInt32 := 0
  hasR : Bool := false
  r : UInt32 := 0
  hasW : Bool := false
  w : UInt32 := 0
  hasPw : Bool := false
  pw : UInt32 := 0
  hasDw : Bool := false
  dw : UInt32 := 0
  hasRw : Bool := false
  rw : UInt32 := 0
  hasBasicQuorum : Bool := false
  basicQuorum : RiakBoolean := 0
  hasNotfoundOk : Bool := false
  notfoundOk : RiakBoolean := 0
  hasBackend : Bool := false
  backend : Option RiakBinary := none
  hasSearch : Bool := false
  search : RiakBoolean := 0
  hasRepl : Bool := false
  repl : UInt32 := 0
  hasSearchIndex : Bool := false
  searchIndex : Option RiakBinary := none
deriving DecidableEq, Repr

/-! ### Request options -/

structure RiakGetOptions where
  hasR : Bool := false
  r : UInt32 := 0
  hasPr : Bool := false
  pr : UInt32 := 0
  hasBasicQuorum : Bool := false
  basicQuorum : RiakBoolean := 0
  hasNotfoundOk : Bool := false
  notfoundOk : RiakBoolean := 0
  hasIfModified : Bool := false
  ifModified : Option RiakBinary := none
  hasHead : Bool := false
  head : RiakBoolean := 0
  hasDeletedvclock : Bool := false
  deletedvclock : RiakBoolean := 0
  hasTimeout : Bool := false
  timeout : UInt32 := 0
  hasSloppyQuorum : Bool := false
  sloppyQuorum : RiakBoolean := 0
  hasNVal : Bool := false
  nVal : UInt32 := 0
deriving DecidableEq, Repr

structure RiakPutOptions where
  hasVclock : Bool := false
  vclock : Option RiakBinary := none
  hasW : Bool := false
  w : UInt32 := 0
  hasDw : Bool := false
  dw : UInt32 := 0
  hasReturnBody : Bool := false
  returnBody : RiakBoolean := 0
  hasPw : Bool := false
  pw : UInt32 := 0
  hasIfNotModified : Bool := false
  ifNotModified : RiakBoolean := 0
  hasIfNoneMatch : Bool := false
  ifNoneMatch : RiakBoolean := 0
  hasReturnHead : Bool := false
  returnHead : RiakBoolean := 0
  hasTimeout : Bool := false
  timeout : UInt32 := 0
  hasAsis : Bool := false
  asis : RiakBoolean := 0
  hasSloppyQuorum : Bool := false
  sloppyQuorum : RiakBoolean := 0
  hasNVal : Bool := false
  nVal : UInt32 := 0
deriving DecidableEq, Repr

structure RiakDeleteOptions where
  hasVclock : Bool := false
  vclock : Option RiakBinary := none
  hasW : Bool := false
  w : UInt32 := 0
  hasDw : Bool := false
  dw : UInt32 := 0
  hasPw : Bool := false
  pw : UInt32 := 0
  hasTimeout : Bool := false
  timeout : UInt32 := 0
  hasSloppyQuorum : Bool := false
  sloppyQuorum : RiakBoolean := 0
  hasNVal : Bool := false
  nVal : UInt32 := 0
deriving DecidableEq, Repr

structure Riak2iOptions where
  qtype : IndexQueryType := .eq
  hasKey : Bool := false
  key : Option RiakBinary := none
  hasRangeMin : Bool := false
  rangeMin : Option RiakBinary := none
  hasRangeMax : Bool := false
  rangeMax : Option RiakBinary := none
  hasReturnTerms : Bool := false
  returnTerms : RiakBoolean := 0
  hasStream : Bool := false
  stream : RiakBoolean := 0
  hasMaxResults : Bool := false
  maxResults : UInt32 := 0
  hasContinuation : Bool := false
  continuation : Option RiakBinary := none
  hasTimeout : Bool := false
  timeout : UInt32 := 0
  hasType : Bool := false
  type : Option RiakBinary := none
  hasTermRegex : Bool := false
  termRegex : Option RiakBinary := none
  hasPaginationSort : Bool := false
  paginationSort : RiakBoolean := 0
deriving DecidableEq, Repr

structure RiakSearchOptions where
  hasRows : Bool := false
  rows : UInt32 := 0
  hasStart : Bool := false
  start : UInt32 := 0
  hasSort : Bool := false
  sort : Option RiakBinary := none
  hasFilter : Bool := false
  filter : Option RiakBinary := none
  hasDf : Bool := false
  df : Option RiakBinary := none
  hasOp : Bool := false
  op : Option RiakBinary := none
  nFl : Nat := 0
  fl : Option (List (Option RiakBinary)) := none
  hasPresort : Bool := false
  presort : Option RiakBinary := none
deriving DecidableEq, Repr

/-! ### Errors sent by the server -/

structure RiakServerError where
  errcode : UInt32
  errmsg : Option RiakBinary
deriving DecidableEq, Repr

structure RiakServerErrorResponse where
  errcode : UInt32
  errmsg : Option RiakBinary
deriving DecidableEq, Repr

/-! ### Operations

An operation carries a request on its way out and the state of the message that is
coming in: how much of the length or the body has arrived, the buffer for the body,
and the response that its decoder has made so far. The response is whatever the
decoder of the operation makes, so it is a parameter of the struct. -/

/-- The decoders an encoder can install, by the name of the C function. -/
inductive RiakResponseDecoder where
  | ping
  | serverinfo
  | get
  | put
  | delete
  | listbuckets
  | listkeys
  | getClientid
  | setClientid
  | getBucketprops
  | resetBucketprops
  | setBucketprops
  | mapreduce
  | index2i
  | search
deriving DecidableEq, Repr

/-- The address of a callback of the application. -/
abbrev RiakResponseCallback := Nat

/-- The cache of request data inside an operation. -/
structure RiakRequestCache where
  bucketType : Option RiakBinary := none
  bucket : Option RiakBinary := none
  key : Option RiakBinary := none
  index : Option RiakBinary := none
deriving DecidableEq, Repr

/-- `_riak_operation`. `ρ` is what the `void *response` of this operation
    points to. `msglen` holds the memory of the prefix as it arrives until
    `msglenComplete` is set, and the length in host order from then on. -/
structure RiakOperation (ρ : Type) where
  decoder : Option RiakResponseDecoder := none
  responseCb : Option RiakResponseCallback := none
  errorCb : Option RiakResponseCallback := none
  position : UInt32 := 0
  msglen : UInt32 := 0
  msgbuf : Option Bytes := none
  msglenComplete : Bool := false
  streaming : Bool := false
  pbRequest : Option RiakPbMessage := none
  error : Option RiakServerError := none
  response : Option ρ := none
  request : RiakRequestCache := {}
deriving DecidableEq, Repr

end RiakClient
