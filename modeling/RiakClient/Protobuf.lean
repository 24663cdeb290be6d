import RiakClient.Computation

/-!
# The protocol buffer messages of the client

protobuf-c generates one C struct for each message of the Riak protocol. The
client fills such a struct and hands it to a generated `pack` function, or gets
one from a generated `unpack` function; the generated code itself is not part
of the repository, so the functions that call it take `pack` and `unpack` as
parameters. An optional member `x` of the protocol is the pair `has_x` and `x`,
and only the members the client touches are kept.

`has_x` flags are only ever set to `RIAK_TRUE` by the client and to zero or one
by `unpack`. A boolean *value* is a C `int` that the application chooses.
-/

namespace RiakClient

abbrev Bytes := List UInt8

/-- `riak_boolean_t`, which protobuf-c maps to an `int`. -/
abbrev RiakBoolean := Int32

/-- A repeated member built by the client: the count is stored in the message
    before the array is allocated, so that the two can disagree. -/
structure Repeated (α : Type) where
  count : Nat := 0
  items : Option (List α) := none
deriving DecidableEq, Repr

/-- protobuf-c walks the whole array when it packs a repeated member. -/
def Repeated.walk {α : Type} (r : Repeated α) : CSem.C Unit :=
  match r.items with
  | none => if r.count = 0 then pure () else CSem.C.fault .nullDereference
  | some items =>
      if r.count ≤ items.length then pure () else CSem.C.fault .outOfBounds

structure RpbPair where
  key : Bytes := []
  hasValue : Bool := false
  value : Bytes := []
deriving DecidableEq, Repr

structure RpbLink where
  hasBucket : Bool := false
  bucket : Bytes := []
  hasKey : Bool := false
  key : Bytes := []
  hasTag : Bool := false
  tag : Bytes := []
deriving DecidableEq, Repr

structure RpbContent where
  value : Bytes := []
  hasContentType : Bool := false
  contentType : Bytes := []
  hasCharset : Bool := false
  charset : Bytes := []
  hasContentEncoding : Bool := false
  contentEncoding : Bytes := []
  hasVtag : Bool := false
  vtag : Bytes := []
  links : Repeated RpbLink := {}
  hasLastMod : Bool := false
  lastMod : UInt32 := 0
  hasLastModUsecs : Bool := false
  lastModUsecs : UInt32 := 0
  usermeta : Repeated RpbPair := {}
  indexes : Repeated RpbPair := {}
  hasDeleted : Bool := false
  deleted : RiakBoolean := 0
deriving DecidableEq, Repr

/-! ### Requests

Every request struct starts out as its generated `__init` leaves it: the defaults of
the fields are those values, and an encoder overwrites what it sets. -/

structure RpbGetReq where
  bucket : Bytes := []
  key : Bytes := []
  hasR : Bool := false
  r : UInt32 := 0
  hasPr : Bool := false
  pr : UInt32 := 0
  hasBasicQuorum : Bool := false
  basicQuorum : RiakBoolean := 0
  hasNotfoundOk : Bool := false
  notfoundOk : RiakBoolean := 0
  hasIfModified : Bool := false
  ifModified : Bytes := []
  hasHead : Bool := false
  head : RiakBoolean := 0
  hasDeletedvclock : Bool := false
  deletedvclock : RiakBoolean := 0
  hasTimeout : Bool := false
  timeout : UInt32 := 0
  hasSloppyQuorum : Bool := false
  sloppyQuorum : RiakBoolean := 0
  hasNVal : Bool := false
  nVal : UInt32 := 0
  hasType : Bool := false
  type : Bytes := []
deriving DecidableEq, Repr

structure RpbPutReq where
  bucket : Bytes := []
  hasKey : Bool := false
  key : Bytes := []
  hasVclock : Bool := false
  vclock : Bytes := []
  content : RpbContent := {}
  hasW : Bool := false
  w : UInt32 := 0
  hasDw : Bool := false
  dw : UInt32 := 0
  hasReturnBody : Bool := false
  returnBody : RiakBoolean := 0
  hasPw : Bool := false
  pw : UInt32 := 0
  hasIfNotModified : Bool := false
  ifNotModified : RiakBoolean := 0
  hasIfNoneMatch : Bool := false
  ifNoneMatch : RiakBoolean := 0
  hasReturnHead : Bool := false
  returnHead : RiakBoolean := 0
  hasTimeout : Bool := false
  timeout : UInt32 := 0
  hasAsis : Bool := false
  asis : RiakBoolean := 0
  hasSloppyQuorum : Bool := false
  sloppyQuorum : RiakBoolean := 0
  hasNVal : Bool := false
  nVal : UInt32 := 0
  hasType : Bool := false
  type : Bytes := []
deriving DecidableEq, Repr

structure RpbDelReq where
  bucket : Bytes := []
  key : Bytes := []
  hasVclock : Bool := false
  vclock : Bytes := []
  hasW : Bool := false
  w : UInt32 := 0
  hasPw : Bool := false
  pw : UInt32 := 0
  hasDw : Bool := false
  dw : UInt32 := 0
  hasTimeout : Bool := false
  timeout : UInt32 := 0
  hasSloppyQuorum : Bool := false
  sloppyQuorum : RiakBoolean := 0
  hasNVal : Bool := false
  nVal : UInt32 := 0
  hasType : Bool := false
  type : Bytes := []
deriving DecidableEq, Repr

structure RpbListBucketsReq where
  hasTimeout : Bool := false
  timeout : UInt32 := 0
  hasStream : Bool := false
  stream : RiakBoolean := 0
  hasType : Bool := false
  type : Bytes := []
deriving DecidableEq, Repr

structure RpbListKeysReq where
  bucket : Bytes := []
  hasTimeout : Bool := false
  timeout : UInt32 := 0
  hasType : Bool := false
  type : Bytes := []
deriving DecidableEq, Repr

structure RpbSetClientIdReq where
  clientId : Bytes := []
deriving DecidableEq, Repr

/-- `RpbGetBucketReq` and `RpbResetBucketReq` have the same members. -/
structure RpbBucketReq where
  bucket : Bytes := []
  hasType : Bool := false
  type : Bytes := []
deriving DecidableEq, Repr

abbrev RpbGetBucketReq := RpbBucketReq

abbrev RpbResetBucketReq := RpbBucketReq

/-- `initialised` says that the generated `__init` has set the descriptor of
    the struct, without which protobuf-c cannot pack it. -/
structure RpbModFun where
  initialised : Bool
  module : Bytes := []
  function : Bytes := []
deriving DecidableEq, Repr

structure RpbCommitHook where
  initialised : Bool
  modfun : Option RpbModFun := none
  hasName : Bool := false
  name : Bytes := []
deriving DecidableEq, Repr

structure RpbBucketProps where
  initialised : Bool
  hasNVal : Bool := false
  nVal : UInt32 := 0
  hasAllowMult : Bool := false
  allowMult : RiakBoolean := 0
  hasLastWriteWins : Bool := false
  lastWriteWins : RiakBoolean := 0
  precommit : Repeated RpbCommitHook := {}
  hasHasPrecommit : Bool := false
  hasPrecommit : RiakBoolean := 0
  postcommit : Repeated RpbCommitHook := {}
  hasHasPostcommit : Bool := false
  hasPostcommit : RiakBoolean := 0
  chashKeyfun : Option RpbModFun := none
  linkfun : Option RpbModFun := none
  hasOldVclock : Bool := false
  oldVclock : UInt32 := 0
  hasYoungVclock : Bool := false
  youngVclock : UInt32 := 0
  hasBigVclock : Bool := false
  bigVclock : UInt32 := 0
  hasSmallVclock : Bool := false
  smallVclock : UInt32 := 0
  hasPr : Bool := false
  pr : UInt32 := 0
  hasR : Bool := false
  r : UInt32 := 0
  hasW : Bool := false
  w : UInt32 := 0
  hasPw : Bool := false
  pw : UInt32 := 0
  hasDw : Bool := false
  dw : UInt32 := 0
  hasRw : Bool := false
  rw : UInt32 := 0
  hasBasicQuorum : Bool := false
  basicQuorum : RiakBoolean := 0
  hasNotfoundOk : Bool := false
  notfoundOk : RiakBoolean := 0
  hasBackend : Bool := false
  backend : Bytes := []
  hasSearch : Bool := false
  search : RiakBoolean := 0
  hasRepl : Bool := false
  repl : UInt32 := 0
  hasSearchIndex : Bool := false
  searchIndex : Bytes := []
deriving DecidableEq, Repr

structure RpbSetBucketReq where
  bucket : Bytes := []
  props : RpbBucketProps
  hasType : Bool := false
  type : Bytes := []
deriving DecidableEq, Repr

structure RpbMapRedReq where
  request : Bytes := []
  contentType : Bytes := []
deriving DecidableEq, Repr

inductive IndexQueryType where
  | eq
  | range
deriving DecidableEq, Repr

structure RpbIndexReq where
  bucket : Bytes := []
  index : Bytes := []
  qtype : IndexQueryType := .eq
  hasKey : Bool := false
  key : Bytes := []
  hasRangeMin : Bool := false
  rangeMin : Bytes := []
  hasRangeMax : Bool := false
  rangeMax : Bytes := []
  hasReturnTerms : Bool := false
  returnTerms : RiakBoolean := 0
  hasStream : Bool := false
  stream : RiakBoolean := 0
  hasMaxResults : Bool := false
  maxResults : UInt32 := 0
  hasContinuation : Bool := false
  continuation : Bytes := []
  hasTimeout : Bool := false
  timeout : UInt32 := 0
  hasType : Bool := false
  type : Bytes := []
  hasTermRegex : Bool := false
  termRegex : Bytes := []
  hasPaginationSort : Bool := false
  paginationSort : RiakBoolean := 0
deriving DecidableEq, Repr

structure RpbSearchQueryReq where
  q : Bytes := []
  index : Bytes := []
  hasRows : Bool := false
  rows : UInt32 := 0
  hasStart : Bool := false
  start : UInt32 := 0
  hasSort : Bool := false
  sort : Bytes := []
  hasFilter : Bool := false
  filter : Bytes := []
  hasDf : Bool := false
  df : Bytes := []
  hasOp : Bool := false
  op : Bytes := []
  fl : Repeated Bytes := {}
  hasPresort : Bool := false
  presort : Bytes := []
deriving DecidableEq, Repr

/-! ### Responses

The array of a repeated member that `unpack` returns has exactly the length it
announces, so it is a list. -/

structure RpbErrorResp where
  errmsg : Bytes := []
  errcode : UInt32 := 0
deriving DecidableEq, Repr

structure RpbGetResp where
  content : List RpbContent := []
  hasVclock : Bool := false
  vclock : Bytes := []
  hasUnchanged : Bool := false
  unchanged : RiakBoolean := 0
deriving DecidableEq, Repr

structure RpbPutResp where
  content : List RpbContent := []
  hasVclock : Bool := false
  vclock : Bytes := []
  hasKey : Bool := false
  key : Bytes := []
deriving DecidableEq, Repr

structure RpbGetBucketResp where
  props : RpbBucketProps
deriving DecidableEq, Repr

structure RpbListKeysResp where
  keys : List Bytes := []
  hasDone : Bool := false
  done : RiakBoolean := 0
deriving DecidableEq, Repr

structure RpbListBucketsResp where
  buckets : List Bytes := []
  hasDone : Bool := false
  done : RiakBoolean := 0
deriving DecidableEq, Repr

structure RpbMapRedResp where
  hasPhase : Bool := false
  phase : UInt32 := 0
  hasResponse : Bool := false
  response : Bytes := []
  hasDone : Bool := false
  done : RiakBoolean := 0
deriving DecidableEq, Repr

structure RpbIndexResp where
  keys : List Bytes := []
  results : List RpbPair := []
  hasContinuation : Bool := false
  continuation : Bytes := []
  hasDone : Bool := false
  done : RiakBoolean := 0
deriving DecidableEq, Repr

structure RpbSearchDoc where
  fields : Repeated RpbPair := {}
deriving DecidableEq, Repr

/-- The score is a `float`, which the client only copies: here it is its bits. -/
structure RpbSearchQueryResp where
  docs : List RpbSearchDoc := []
  hasMaxScore : Bool := false
  maxScore : UInt32 := 0
  hasNumFound : Bool := false
  numFound : UInt32 := 0
deriving DecidableEq, Repr

end RiakClient
