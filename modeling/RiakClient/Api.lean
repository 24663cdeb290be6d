import RiakClient.Related
import RiakClient.Requests

/-!
# Two forms of one operation

`riak.c` has a call for each operation that sends its request and waits,
`riak_async.c` one that registers the request on an operation of the application.
Each pair calls the same encoder, and `Related` says that an encoder does not
look at the operation it fills. What is left to compare are the arguments: all
of them are handed on, except for the options of a delete.
-/

namespace RiakClient

open CSem

variable {ρ : Type} {heap final : Heap}

/-! ### The two forms -/

/-- An operation of the interface, with the arguments that both forms have. -/
inductive RiakCall where
  | ping
  | serverinfo
  | get (bucketType bucket key : Option RiakBinary) (options : Option RiakGetOptions)
  | put (obj : Option RiakObject) (options : Option RiakPutOptions)
  | delete (bucketType bucket key : Option RiakBinary) (options : Option RiakDeleteOptions)
  | listbuckets (bucketType : Option RiakBinary) (timeout : UInt32)
  | listkeys (bucketType bucket : Option RiakBinary) (timeout : UInt32)
  | getClientid
  | setClientid (clientid : Option RiakBinary)
  | getBucketprops (bucketType bucket : Option RiakBinary)
  | resetBucketprops (bucketType bucket : Option RiakBinary)
  | setBucketprops (bucketType bucket : Option RiakBinary) (props : Option RiakBucketprops)
  | mapreduce (contentType mapRequest : Option RiakBinary)
  | index2i (bucketType bucket index : Option RiakBinary) (options : Option Riak2iOptions)
  | search (bucket query : Option RiakBinary) (options : Option RiakSearchOptions)
deriving DecidableEq, Repr

namespace RiakCall

/-- The encoder that `riak_ping`, `riak_serverinfo` and so on call, with its
    arguments. -/
def encode (packs : Packers) (rop : RiakOperation ρ) : RiakCall → C (RiakError × RiakOperation ρ)
  | ping => riakPingRequestEncode rop
  | serverinfo => riakServerinfoRequestEncode rop
  | get bucketType bucket key opts => riakGetRequestEncode packs.get rop bucketType bucket key opts
  | put obj opts => C.deref obj >>= fun obj => riakPutRequestEncode packs.put rop obj opts
  | delete bucketType bucket key opts =>
      riakDeleteRequestEncode packs.del rop bucketType bucket key opts
  | listbuckets bucketType timeout =>
      riakListbucketsRequestEncode packs.listBuckets rop bucketType timeout
  | listkeys bucketType bucket timeout =>
      riakListkeysRequestEncode packs.listKeys rop bucketType bucket timeout
  | getClientid => riakGetClientidRequestEncode rop
  | setClientid clientid => riakSetClientidRequestEncode packs.setClientId rop clientid
  | getBucketprops bucketType bucket =>
      riakGetBucketpropsRequestEncode packs.getBucket rop bucketType bucket
  | resetBucketprops bucketType bucket =>
      riakResetBucketpropsRequestEncode packs.resetBucket rop bucketType bucket
  | setBucketprops bucketType bucket props =>
      riakSetBucketpropsRequestEncode packs.setBucket rop bucketType bucket props
  | mapreduce contentType mapRequest =>
      riakMapreduceRequestEncode packs.mapRed rop contentType mapRequest
  | index2i bucketType bucket index opts =>
      riak2iRequestEncode packs.index rop bucketType bucket index opts
  | search bucket query opts => riakSearchRequestEncode packs.searchQuery rop bucket query opts

/-- What a synchronous call does before `riak_sync_request`. -/
def build (packs : Packers) (call : RiakCall) : C (RiakError × RiakOperation ρ) :=
  riakBuildRequest fun rop => call.encode packs rop

end RiakCall

section Async

variable (packs : Packers) (rop : RiakOperation ρ) (cb : Option RiakResponseCallback)

def riakAsyncRegisterPing : C (RiakError × RiakOperation ρ) :=
  riakPingRequestEncode (riakOperationSetResponseCb rop cb)

def riakAsyncRegisterServerinfo : C (RiakError × RiakOperation ρ) :=
  riakServerinfoRequestEncode (riakOperationSetResponseCb rop cb)

def riakAsyncRegisterGet (bucketType bucket key : Option RiakBinary)
    (getOptions : Option RiakGetOptions) : C (RiakError × RiakOperation ρ) :=
  riakGetRequestEncode packs.get (riakOperationSetResponseCb rop cb) bucketType bucket key
    getOptions

def riakAsyncRegisterPut (riakObj : Option RiakObject) (options : Option RiakPutOptions) :
    C (RiakError × RiakOperation ρ) :=
  C.deref riakObj >>= fun riakObj =>
    riakPutRequestEncode packs.put (riakOperationSetResponseCb rop cb) riakObj options

/-- The options are an argument, but the encoder gets NULL. -/
def riakAsyncRegisterDelete (bucketType bucket key : Option RiakBinary)
    (_options : Option RiakDeleteOptions) : C (RiakError × RiakOperation ρ) :=
  riakDeleteRequestEncode packs.del (riakOperationSetResponseCb rop cb) bucketType bucket key none

def riakAsyncRegisterListbuckets (bucketType : Option RiakBinary) (timeout : UInt32) :
    C (RiakError × RiakOperation ρ) :=
  riakListbucketsRequestEncode packs.listBuckets (riakOperationSetResponseCb rop cb) bucketType
    timeout

def riakAsyncRegisterListkeys (bucketType bucket : Option RiakBinary) (timeout : UInt32) :
    C (RiakError × RiakOperation ρ) :=
  riakListkeysRequestEncode packs.listKeys (riakOperationSetResponseCb rop cb) bucketType bucket
    timeout

def riakAsyncRegisterGetClientid : C (RiakError × RiakOperation ρ) :=
  riakGetClientidRequestEncode (riakOperationSetResponseCb rop cb)

def riakAsyncRegisterSetClientid (clientid : Option RiakBinary) :
    C (RiakError × RiakOperation ρ) :=
  riakSetClientidRequestEncode packs.setClientId (riakOperationSetResponseCb rop cb) clientid

def riakAsyncRegisterGetBucketprops (bucketType bucket : Option RiakBinary) :
    C (RiakError × RiakOperation ρ) :=
  riakGetBucketpropsRequestEncode packs.getBucket (riakOperationSetResponseCb rop cb) bucketType
    bucket

def riakAsyncRegisterResetBucketprops (bucketType bucket : Option RiakBinary) :
    C (RiakError × RiakOperation ρ) :=
  riakResetBucketpropsRequestEncode packs.resetBucket (riakOperationSetResponseCb rop cb)
    bucketType bucket

def riakAsyncRegisterSetBucketprops (bucketType bucket : Option RiakBinary)
    (props : Option RiakBucketprops) : C (RiakError × RiakOperation ρ) :=
  riakSetBucketpropsRequestEncode packs.setBucket (riakOperationSetResponseCb rop cb) bucketType
    bucket props

/-- `streaming` is an argument that nothing reads, and the synchronous form does
    not have it. -/
def riakAsyncRegisterMapreduce (contentType mapRequest : Option RiakBinary)
    (_streaming : RiakBoolean) : C (RiakError × RiakOperation ρ) :=
  riakMapreduceRequestEncode packs.mapRed (riakOperationSetResponseCb rop cb) contentType
    mapRequest

def riakAsyncRegister2i (bucketType bucket index : Option RiakBinary)
    (indexOptions : Option Riak2iOptions) : C (RiakError × RiakOperation ρ) :=
  riak2iRequestEncode packs.index (riakOperationSetResponseCb rop cb) bucketType bucket index
    indexOptions

def riakAsyncRegisterSearch (bucket query : Option RiakBinary)
    (searchOptions : Option RiakSearchOptions) : C (RiakError × RiakOperation ρ) :=
  riakSearchRequestEncode packs.searchQuery (riakOperationSetResponseCb rop cb) bucket query
    searchOptions

/-- The asynchronous form of a call. -/
def RiakCall.register (streaming : RiakBoolean) : RiakCall → C (RiakError × RiakOperation ρ)
  | ping => riakAsyncRegisterPing rop cb
  | serverinfo => riakAsyncRegisterServerinfo rop cb
  | get bucketType bucket key opts => riakAsyncRegisterGet packs rop cb bucketType bucket key opts
  | put obj opts => riakAsyncRegisterPut packs rop cb obj opts
  | delete bucketType bucket key opts =>
      riakAsyncRegisterDelete packs rop cb bucketType bucket key opts
  | listbuckets bucketType timeout => riakAsyncRegisterListbuckets packs rop cb bucketType timeout
  | listkeys bucketType bucket timeout =>
      riakAsyncRegisterListkeys packs rop cb bucketType bucket timeout
  | getClientid => riakAsyncRegisterGetClientid rop cb
  | setClientid clientid => riakAsyncRegisterSetClientid packs rop cb clientid
  | getBucketprops bucketType bucket =>
      riakAsyncRegisterGetBucketprops packs rop cb bucketType bucket
  | resetBucketprops bucketType bucket =>
      riakAsyncRegisterResetBucketprops packs rop cb bucketType bucket
  | setBucketprops bucketType bucket props =>
      riakAsyncRegisterSetBucketprops packs rop cb bucketType bucket props
  | mapreduce contentType mapRequest =>
      riakAsyncRegisterMapreduce packs rop cb contentType mapRequest streaming
  | index2i bucketType bucket index opts =>
      riakAsyncRegister2i packs rop cb bucketType bucket index opts
  | search bucket query opts => riakAsyncRegisterSearch packs rop cb bucket query opts

end Async

/-! ### An encoder does not look at its operation -/

/-- The same result, and with success the same request and the same decoder. -/
def SameBuilt (a b : RiakError × RiakOperation ρ) : Prop :=
  a.1 = b.1 ∧ (a.1 = .ok → a.2.pbRequest = b.2.pbRequest ∧ a.2.decoder = b.2.decoder)

theorem sameBuilt_of_error (err : RiakError) (herr : err ≠ .ok) (rop rop' : RiakOperation ρ) :
    SameBuilt (err, rop) (err, rop') :=
  ⟨rfl, fun hok => absurd hok herr⟩

section Related

variable (rop rop' : RiakOperation ρ)

theorem riakPackRequest_related (msgid : UInt8) (msglen : Nat) (packed : Bytes)
    (decoder : RiakResponseDecoder) {noBuffer : RiakError} (herr : noBuffer ≠ .ok) :
    C.Related SameBuilt (riakPackRequest rop msgid msglen packed decoder noBuffer)
      (riakPackRequest rop' msgid msglen packed decoder noBuffer) := by
  unfold riakPackRequest
  apply C.Related.bind_same
  intro granted
  cases granted with
  | false => exact .pure (sameBuilt_of_error noBuffer herr rop rop')
  | true =>
    by_cases hlong : msglen < packed.length
    · simp only [if_true, if_pos hlong]
      exact .fault _
    · simp only [if_true, if_neg hlong]
      apply C.Related.bind_same
      intro request
      cases request with
      | none => exact .pure (sameBuilt_of_error .outOfMemory nofun rop rop')
      | some request => exact .pure ⟨rfl, fun _ => ⟨rfl, rfl⟩⟩

theorem riakEmptyRequest_related (msgid : UInt8) (decoder : RiakResponseDecoder) :
    C.Related SameBuilt (riakEmptyRequest rop msgid decoder)
      (riakEmptyRequest rop' msgid decoder) := by
  unfold riakEmptyRequest
  apply C.Related.bind_same
  intro request
  cases request with
  | none => exact .pure (sameBuilt_of_error .outOfMemory nofun rop rop')
  | some request => exact .pure ⟨rfl, fun _ => ⟨rfl, rfl⟩⟩

/-! Caching an argument changes the operation only. -/

theorem riakOperationSetBucketType_related (bin : Option RiakBinary) :
    C.Related (fun _ _ => True) (riakOperationSetBucketType rop bin)
      (riakOperationSetBucketType rop' bin) :=
  .bind_same _ fun _ => .pure trivial

theorem riakOperationSetBucket_related (bin : Option RiakBinary) :
    C.Related (fun _ _ => True) (riakOperationSetBucket rop bin)
      (riakOperationSetBucket rop' bin) :=
  .bind_same _ fun _ => .pure trivial

theorem riakOperationSetKey_related (bin : Option RiakBinary) :
    C.Related (fun _ _ => True) (riakOperationSetKey rop bin) (riakOperationSetKey rop' bin) :=
  .bind_same _ fun _ => .pure trivial

theorem riakOperationSetIndex_related (bin : Option RiakBinary) :
    C.Related (fun _ _ => True) (riakOperationSetIndex rop bin)
      (riakOperationSetIndex rop' bin) :=
  .bind_same _ fun _ => .pure trivial

/-- **No encoder looks at the operation it fills.** -/
theorem RiakCall.encode_related (packs : Packers) (call : RiakCall) :
    C.Related SameBuilt (call.encode packs rop) (call.encode packs rop') := by
  cases call with
  | ping => exact riakEmptyRequest_related rop rop' _ _
  | serverinfo => exact riakEmptyRequest_related rop rop' _ _
  | get bucketType bucket key opts =>
    refine (riakOperationSetBucketType_related rop rop' bucketType).bind fun rop rop' _ => ?_
    refine (riakOperationSetBucket_related rop rop' bucket).bind fun rop rop' _ => ?_
    refine (riakOperationSetKey_related rop rop' key).bind fun rop rop' _ => ?_
    refine .bind_same _ fun getmsg => ?_
    exact riakPackRequest_related rop rop' _ _ _ _ nofun
  | put obj opts =>
    refine .bind_same _ fun obj => .bind_same _ fun putmsg => .bind_same _ fun _ => ?_
    exact riakPackRequest_related rop rop' _ _ _ _ nofun
  | delete bucketType bucket key opts =>
    refine .bind_same _ fun delmsg => ?_
    exact riakPackRequest_related rop rop' _ _ _ _ nofun
  | listbuckets bucketType timeout =>
    refine .bind_same _ fun type => ?_
    exact riakPackRequest_related rop rop' _ _ _ _ nofun
  | listkeys bucketType bucket timeout =>
    refine .bind_same _ fun type => .bind_same _ fun bucketBytes => ?_
    exact riakPackRequest_related rop rop' _ _ _ _ nofun
  | getClientid => exact riakEmptyRequest_related rop rop' _ _
  | setClientid clientid =>
    refine .bind_same _ fun clientId => ?_
    exact riakPackRequest_related rop rop' _ _ _ _ nofun
  | getBucketprops bucketType bucket =>
    refine .bind_same _ fun bucketreq => ?_
    exact riakPackRequest_related rop rop' _ _ _ _ nofun
  | resetBucketprops bucketType bucket =>
    refine .bind_same _ fun resetmsg => ?_
    exact riakPackRequest_related rop rop' _ _ _ _ nofun
  | setBucketprops bucketType bucket props =>
    refine .bind_same _ fun setmsg => .bind_same _ fun _ => ?_
    exact riakPackRequest_related rop rop' _ _ _ _ nofun
  | mapreduce contentType mapRequest =>
    refine .bind_same _ fun request => .bind_same _ fun contentTypeBytes => ?_
    exact riakPackRequest_related rop rop' _ _ _ _ nofun
  | index2i bucketType bucket index opts =>
    have hcache : C.Related (fun _ _ => True) (riak2iRequestCache rop bucketType bucket index)
        (riak2iRequestCache rop' bucketType bucket index) := by
      refine (riakOperationSetBucketType_related rop rop' bucketType).bind fun rop rop' _ => ?_
      refine (riakOperationSetBucket_related rop rop' bucket).bind fun rop rop' _ => ?_
      exact riakOperationSetIndex_related rop rop' index
    refine hcache.bind fun rop rop' _ => .bind_same _ fun twoimsg => ?_
    exact riakPackRequest_related rop rop' _ _ _ _ nofun
  | search bucket query opts =>
    refine (riakOperationSetBucket_related rop rop' bucket).bind fun rop rop' _ => ?_
    refine .bind_same _ fun srchmsg => ?_
    cases srchmsg with
    | none => exact .pure (sameBuilt_of_error .outOfMemory nofun rop rop')
    | some srchmsg => exact riakPackRequest_related rop rop' _ _ _ _ nofun

end Related

/-! ### The options of a delete

Whether an option is set shows in the message of a delete, if there is one at all:
without a bucket or a key no message is made, and an option that says there is a
vector clock needs one. So the two messages of a delete differ exactly where an option
is lost. -/

/-- Some option is set. -/
def RiakDeleteOptions.AnySet (o : RiakDeleteOptions) : Prop :=
  o.hasVclock ∨ o.hasW ∨ o.hasPw ∨ o.hasDw ∨ o.hasTimeout ∨ o.hasSloppyQuorum ∨ o.hasNVal

/-- A delete of a key with an option that is set. -/
def RiakCall.LosesOptions : RiakCall → Prop
  | delete _ bucket key (some o) => bucket.isSome ∧ key.isSome ∧ o.AnySet
  | _ => False

/-- The same of a message. -/
def RpbDelReq.anySet (m : RpbDelReq) : Bool :=
  m.hasVclock || m.hasW || m.hasPw || m.hasDw || m.hasTimeout || m.hasSloppyQuorum || m.hasNVal

theorem riakDeleteRequestMsg_of_unset (bucketType bucket key : Option RiakBinary)
    {o : RiakDeleteOptions} (h : ¬ o.AnySet) :
    riakDeleteRequestMsg bucketType bucket key (some o) =
      riakDeleteRequestMsg bucketType bucket key none := by
  unfold RiakDeleteOptions.AnySet at h
  simp only [not_or, Bool.not_eq_true] at h
  obtain ⟨hvclock, hw, hpw, hdw, htimeout, hsloppy, hnval⟩ := h
  unfold riakDeleteRequestMsg
  simp only [Option.getD_some, Option.getD_none, hvclock, hw, hpw, hdw, htimeout, hsloppy, hnval]
  rfl

theorem riakDeleteRequestMsg_of_null (bucketType : Option RiakBinary)
    {bucket key : Option RiakBinary} (h : ¬ (bucket.isSome ∧ key.isSome))
    (options : Option RiakDeleteOptions) :
    riakDeleteRequestMsg bucketType bucket key options = C.fault .nullDereference := by
  obtain ⟨type, htype⟩ : ∃ type, copyToPbIf bucketType.isSome bucketType = pure type :=
    copyToPbIf_of_isSome id
  unfold riakDeleteRequestMsg
  rw [htype, pure_bind]
  cases bucket with
  | none => rfl
  | some bucket =>
    cases key with
    | none => rfl
    | some key => exact absurd ⟨rfl, rfl⟩ h

theorem riakDeleteRequestMsg_of_null_vclock (bucketType bucket key : Option RiakBinary)
    {o : RiakDeleteOptions} (hbucket : bucket.isSome) (hkey : key.isSome)
    (hset : o.hasVclock = true) (hnull : o.vclock = none) :
    riakDeleteRequestMsg bucketType bucket key (some o) = C.fault .nullDereference := by
  obtain ⟨type, htype⟩ : ∃ type, copyToPbIf bucketType.isSome bucketType = pure type :=
    copyToPbIf_of_isSome id
  obtain ⟨bucketBytes, hbucket⟩ := riakBinaryCopyToPb_of_isSome hbucket
  obtain ⟨keyBytes, hkey⟩ := riakBinaryCopyToPb_of_isSome hkey
  unfold riakDeleteRequestMsg
  simp only [htype, hbucket, hkey, pure_bind, Option.getD_some, hset, hnull]
  rfl

theorem riakDeleteRequestMsg_of_isSome (bucketType : Option RiakBinary)
    {bucket key : Option RiakBinary} (options : Option RiakDeleteOptions)
    (hbucket : bucket.isSome) (hkey : key.isSome)
    (hvclock : (options.getD {}).hasVclock = true → (options.getD {}).vclock.isSome) :
    ∃ delmsg, riakDeleteRequestMsg bucketType bucket key options = pure delmsg := by
  obtain ⟨type, htype⟩ : ∃ type, copyToPbIf bucketType.isSome bucketType = pure type :=
    copyToPbIf_of_isSome id
  obtain ⟨bucketBytes, hbucket⟩ := riakBinaryCopyToPb_of_isSome hbucket
  obtain ⟨keyBytes, hkey⟩ := riakBinaryCopyToPb_of_isSome hkey
  obtain ⟨vclock, hvclock⟩ := copyToPbIf_of_isSome hvclock
  unfold riakDeleteRequestMsg
  simp only [htype, hbucket, hkey, pure_bind, hvclock]
  exact ⟨_, rfl⟩

theorem riakDeleteRequestMsg_anySet {bucketType bucket key : Option RiakBinary}
    {options : Option RiakDeleteOptions} {delmsg : RpbDelReq}
    (h : riakDeleteRequestMsg bucketType bucket key options heap = .ok (delmsg, final)) :
    delmsg.anySet ↔ (options.getD {}).AnySet := by
  unfold riakDeleteRequestMsg at h
  obtain ⟨type, heap₁, _, h₁⟩ := C.bind_eq_ok.mp h
  obtain ⟨bucketBytes, heap₂, _, h₂⟩ := C.bind_eq_ok.mp h₁
  obtain ⟨keyBytes, heap₃, _, h₃⟩ := C.bind_eq_ok.mp h₂
  obtain ⟨vclock, heap₄, _, h₄⟩ := C.bind_eq_ok.mp h₃
  cases h₄
  unfold RpbDelReq.anySet RiakDeleteOptions.AnySet
  simp only [Bool.or_eq_true, or_assoc]

theorem riakDeleteRequestEncode_of_ample (h : heap.Ample) (rop : RiakOperation ρ)
    {pack : RpbDelReq → Bytes} {bucketType bucket key : Option RiakBinary}
    {options : Option RiakDeleteOptions} {delmsg : RpbDelReq}
    (hmsg : riakDeleteRequestMsg bucketType bucket key options heap = .ok (delmsg, heap))
    (hlength : (pack delmsg).length < 2 ^ 32) :
    riakDeleteRequestEncode pack rop bucketType bucket key options heap =
      .ok ((.ok, { rop with
        pbRequest := some ⟨MSG_RPBDELREQ, UInt32.ofNat (pack delmsg).length, pack delmsg⟩
        decoder := some .delete }), heap) := by
  have hsize : packedSize32 (pack delmsg) = (pack delmsg).length := Nat.mod_eq_of_lt hlength
  unfold riakDeleteRequestEncode
  rw [C.bind_of_ok hmsg, hsize, riakPackRequest_of_ample h rop _ _ _ (Nat.le_refl _)]

/-! ### The comparison

For each pair of forms, `encode_related` leaves the arguments of the encoder to
compare. That a lost option makes a difference depends on what packing keeps apart;
some packer shows it, and no call but a delete loses one. -/

/-- Both forms fail, or both return the same, with the same request and the same
    decoder if that is success. -/
inductive SameRequest : Except Fault ((RiakError × RiakOperation ρ) × Heap) →
    Except Fault ((RiakError × RiakOperation ρ) × Heap) → Prop
  | fault (f f' : Fault) : SameRequest (.error f) (.error f')
  | returned {a b : RiakError × RiakOperation ρ} (heap heap' : Heap) (h : SameBuilt a b) :
      SameRequest (.ok (a, heap)) (.ok (b, heap'))

theorem sameRequest_of_ends {x y : Except Fault ((RiakError × RiakOperation ρ) × Heap)}
    (h : C.Ends SameBuilt x y) : SameRequest x y := by
  cases h with
  | fault f => exact .fault f f
  | returned heap h => exact .returned heap heap h

theorem RiakCall.build_eq (packs : Packers) (call : RiakCall) {heap rest : Heap}
    (h : C.allocate heap = .ok (true, rest)) :
    call.build packs heap = call.encode packs ({} : RiakOperation ρ) rest := by
  have hnew : riakOperationNew none none heap = .ok ((.ok, ({} : RiakOperation ρ)), rest) := by
    unfold riakOperationNew C.new
    rw [bind_assoc, C.bind_of_ok h]
    rfl
  unfold RiakCall.build riakBuildRequest
  rw [C.bind_of_ok hnew, if_neg (fun hne => hne rfl)]

theorem RiakCall.register_same (packs : Packers) {call : RiakCall}
    {rop : RiakOperation ρ} {cb : Option RiakResponseCallback} {streaming : RiakBoolean}
    {heap rest : Heap} (h : C.allocate heap = .ok (true, rest))
    (hregister : call.register packs rop cb streaming rest =
      call.encode packs (riakOperationSetResponseCb rop cb) rest) :
    SameRequest (call.build packs heap) (call.register packs rop cb streaming rest) := by
  rw [call.build_eq packs h, hregister]
  exact sameRequest_of_ends (call.encode_related _ _ packs rest)

theorem riakDeleteRequestMsg_of_keeps {bucketType bucket key : Option RiakBinary}
    {opts : Option RiakDeleteOptions}
    (h : ¬ (RiakCall.delete bucketType bucket key opts).LosesOptions) :
    riakDeleteRequestMsg bucketType bucket key opts =
      riakDeleteRequestMsg bucketType bucket key none := by
  cases opts with
  | none => rfl
  | some o =>
    by_cases hset : o.AnySet
    · have hnull : ¬ (bucket.isSome ∧ key.isSome) := by
        rintro ⟨hbucket, hkey⟩
        exact h ⟨hbucket, hkey, hset⟩
      rw [riakDeleteRequestMsg_of_null bucketType hnull,
        riakDeleteRequestMsg_of_null bucketType hnull]
    · exact riakDeleteRequestMsg_of_unset bucketType bucket key hset

/-- **A lost option shows**: whenever packing keeps apart the message with the
    options and the one without, the two forms of a delete differ. -/
theorem riak_delete_request_differs (hheap : heap.Ample) {packs : Packers}
    {rop : RiakOperation ρ} {cb : Option RiakResponseCallback} {streaming : RiakBoolean}
    {bucketType bucket key : Option RiakBinary} {opts : Option RiakDeleteOptions}
    {delmsg plain : RpbDelReq}
    (hmsg : riakDeleteRequestMsg bucketType bucket key opts heap = .ok (delmsg, heap))
    (hplain : riakDeleteRequestMsg bucketType bucket key none heap = .ok (plain, heap))
    (hlength : (packs.del delmsg).length < 2 ^ 32) (hlength' : (packs.del plain).length < 2 ^ 32)
    (hne : packs.del delmsg ≠ packs.del plain) :
    ¬ SameRequest ((RiakCall.delete bucketType bucket key opts).build packs heap)
      ((RiakCall.delete bucketType bucket key opts).register packs rop cb streaming heap) := by
  have hbuild := RiakCall.build_eq (ρ := ρ) packs (.delete bucketType bucket key opts)
    (C.allocate_of_ample hheap)
  have hencode := riakDeleteRequestEncode_of_ample hheap (ρ := ρ) {} hmsg hlength
  have hregister := riakDeleteRequestEncode_of_ample hheap (riakOperationSetResponseCb rop cb) hplain
    hlength'
  intro hsame
  rw [hbuild.trans hencode] at hsame
  unfold RiakCall.register riakAsyncRegisterDelete at hsame
  simp only [hregister] at hsame
  cases hsame with
  | returned _ _ hbuilt =>
    have hrequest := (hbuilt.2 rfl).1
    rw [Option.some.injEq, RiakPbMessage.mk.injEq] at hrequest
    exact hne hrequest.2.2

/-- A packer that tells only whether an option of a delete is set. -/
def optionPackers : Packers where
  get _ := []
  put _ := []
  del m := if m.anySet then [1] else []
  listBuckets _ := []
  listKeys _ := []
  setClientId _ := []
  getBucket _ := []
  resetBucket _ := []
  setBucket _ := []
  mapRed _ := []
  index _ := []
  searchQuery _ := []

theorem optionPackers_length (m : RpbDelReq) : (optionPackers.del m).length < 2 ^ 32 := by
  show (if m.anySet then ([1] : Bytes) else []).length < 2 ^ 32
  by_cases hset : m.anySet
  · rw [if_pos hset]
    decide
  · rw [if_neg hset]
    decide

theorem RiakCall.LosesOptions.differs {bucketType bucket key : Option RiakBinary}
    {opts : Option RiakDeleteOptions}
    (h : (RiakCall.delete bucketType bucket key opts).LosesOptions) (rop : RiakOperation ρ) :
    ¬ SameRequest ((RiakCall.delete bucketType bucket key opts).build optionPackers Heap.fresh)
      ((RiakCall.delete bucketType bucket key opts).register optionPackers rop none 0
        Heap.fresh) := by
  cases opts with
  | none => exact h.elim
  | some o =>
    obtain ⟨hbucket, hkey, hset⟩ := h
    obtain ⟨plain, hplain⟩ :=
      riakDeleteRequestMsg_of_isSome bucketType none hbucket hkey nofun
    have hplainRun : riakDeleteRequestMsg bucketType bucket key none Heap.fresh =
        .ok (plain, Heap.fresh) := by
      rw [hplain]
      rfl
    by_cases hvclock : o.hasVclock = true → o.vclock.isSome
    · obtain ⟨delmsg, hmsg⟩ :=
        riakDeleteRequestMsg_of_isSome bucketType (some o) hbucket hkey hvclock
      have hmsgRun : riakDeleteRequestMsg bucketType bucket key (some o) Heap.fresh =
          .ok (delmsg, Heap.fresh) := by
        rw [hmsg]
        rfl
      refine riak_delete_request_differs Heap.fresh_ample hmsgRun hplainRun
        (optionPackers_length delmsg) (optionPackers_length plain) ?_
      have hdelmsg : delmsg.anySet = true := (riakDeleteRequestMsg_anySet hmsgRun).mpr hset
      have hnone : ¬ plain.anySet = true := by
        rw [riakDeleteRequestMsg_anySet hplainRun]
        simp [RiakDeleteOptions.AnySet]
      show (if delmsg.anySet then ([1] : Bytes) else []) ≠ if plain.anySet then [1] else []
      rw [if_pos hdelmsg, if_neg hnone]
      exact List.cons_ne_nil 1 []
    · -- the synchronous form follows the NULL vector clock, the other never looks
      rw [Classical.not_imp, Option.not_isSome_iff_eq_none] at hvclock
      have hfault := riakDeleteRequestMsg_of_null_vclock bucketType bucket key hbucket hkey
        hvclock.1 hvclock.2
      have hencode := riakDeleteRequestEncode_of_ample Heap.fresh_ample
        (riakOperationSetResponseCb rop none) hplainRun (optionPackers_length plain)
      rw [RiakCall.build_eq optionPackers _ (C.allocate_of_ample Heap.fresh_ample)]
      unfold RiakCall.encode RiakCall.register riakAsyncRegisterDelete
      simp only [hencode]
      unfold riakDeleteRequestEncode
      rw [hfault]
      nofun

/-- **The synchronous and the asynchronous form build the same request**, except
    for a delete with an option that is set. -/
theorem riak_async_same_request_iff (ρ : Type) (call : RiakCall) :
    (∀ (packs : Packers) (rop : RiakOperation ρ) (cb : Option RiakResponseCallback)
      (streaming : RiakBoolean) (heap rest : Heap), C.allocate heap = .ok (true, rest) →
      SameRequest (call.build packs heap) (call.register packs rop cb streaming rest)) ↔
      ¬ call.LosesOptions := by
  constructor
  · intro hsame hloses
    have hfresh := hsame optionPackers {} none 0 Heap.fresh Heap.fresh
      (C.allocate_of_ample Heap.fresh_ample)
    cases call with
    | delete bucketType bucket key opts => exact hloses.differs {} hfresh
    | _ => exact hloses
  · intro hkeeps packs rop cb streaming heap rest h
    apply RiakCall.register_same packs h
    cases call with
    | delete bucketType bucket key opts =>
      show riakDeleteRequestEncode _ _ _ _ _ none rest = riakDeleteRequestEncode _ _ _ _ _ opts rest
      unfold riakDeleteRequestEncode
      rw [riakDeleteRequestMsg_of_keeps hkeeps]
    | _ => rfl

/-- The key `k` of the bucket `b`, deleted with no option that is set. -/
theorem riak_async_same_request_delete :
    SameRequest
      ((RiakCall.delete none (some ⟨[0x62], true⟩) (some ⟨[0x6b], true⟩) (some {})).build
        optionPackers Heap.fresh)
      ((RiakCall.delete none (some ⟨[0x62], true⟩) (some ⟨[0x6b], true⟩) (some {})).register
        optionPackers ({} : RiakOperation Unit) (some 7) 0 Heap.fresh) := by
  refine (riak_async_same_request_iff Unit _).mpr ?_ optionPackers {} (some 7) 0 Heap.fresh
    Heap.fresh rfl
  rintro ⟨_, _, hset⟩
  exact absurd hset (by simp [RiakDeleteOptions.AnySet])

/-- What protobuf-c makes of a delete with a short bucket and key and, if any, a
    small `w`. -/
def samplePackers : Packers :=
  { optionPackers with
    del := fun m => [0x0a, UInt8.ofNat m.bucket.length] ++ m.bucket ++
      [0x12, UInt8.ofNat m.key.length] ++ m.key ++
      if m.hasW then [0x30, UInt8.ofNat m.w.toNat] else [] }

/-- The same delete with `w` set to 3, which only the synchronous form sends. -/
theorem riak_async_delete_drops_w :
    ∃ sync async : RiakOperation Unit,
      (RiakCall.delete none (some ⟨[0x62], true⟩) (some ⟨[0x6b], true⟩)
        (some { hasW := true, w := 3 })).build samplePackers Heap.fresh =
          .ok ((.ok, sync), Heap.fresh) ∧
      (RiakCall.delete none (some ⟨[0x62], true⟩) (some ⟨[0x6b], true⟩)
        (some { hasW := true, w := 3 })).register samplePackers {} none 0 Heap.fresh =
          .ok ((.ok, async), Heap.fresh) ∧
      sync.pbRequest = some ⟨13, 8, [0x0a, 1, 0x62, 0x12, 1, 0x6b, 0x30, 3]⟩ ∧
      async.pbRequest = some ⟨13, 6, [0x0a, 1, 0x62, 0x12, 1, 0x6b]⟩ ∧
      ¬ SameBuilt (RiakError.ok, sync) (RiakError.ok, async) := by
  refine ⟨_, _, rfl, rfl, rfl, rfl, ?_⟩
  rintro ⟨_, hsame⟩
  have hrequest := (hsame rfl).1
  cases hrequest

end RiakClient
