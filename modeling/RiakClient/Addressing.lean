import RiakClient.Api
import RiakClient.ObjectContent

/-!
# Where a request goes

A request about a bucket or an object names its operation by the message id and
its target by the members `type`, `bucket` and `key`. This module reads both from
the message that is sent and compares them with what the application passed.

All encoders end alike, so one lemma about that end covers them: the request goes to
the address in its message if its packed length fits. What is different is where the
target comes from, the arguments or, for a put, the object; the reset is the one
encoder whose arguments are swapped.
-/

namespace RiakClient

open CSem

variable {ρ : Type} {heap final : Heap}

/-! ### Addresses -/

/-- The operation, by its message id, and its target. -/
structure Address where
  msgid : UInt8
  type : Option Bytes
  bucket : Option Bytes
  key : Option Bytes
deriving DecidableEq, Repr

/-- A message that has a target. -/
inductive AddressedMsg where
  | get (m : RpbGetReq)
  | put (m : RpbPutReq)
  | del (m : RpbDelReq)
  | listBuckets (m : RpbListBucketsReq)
  | listKeys (m : RpbListKeysReq)
  | getBucket (m : RpbGetBucketReq)
  | resetBucket (m : RpbResetBucketReq)
  | setBucket (m : RpbSetBucketReq)

def AddressedMsg.packed (packs : Packers) : AddressedMsg → Bytes
  | get m => packs.get m
  | put m => packs.put m
  | del m => packs.del m
  | listBuckets m => packs.listBuckets m
  | listKeys m => packs.listKeys m
  | getBucket m => packs.getBucket m
  | resetBucket m => packs.resetBucket m
  | setBucket m => packs.setBucket m

/-- The target in a message, with the id that its operation has. -/
def AddressedMsg.address : AddressedMsg → Address
  | get m => ⟨MSG_RPBGETREQ, flagged m.hasType m.type, some m.bucket, some m.key⟩
  | put m => ⟨MSG_RPBPUTREQ, flagged m.hasType m.type, some m.bucket, flagged m.hasKey m.key⟩
  | del m => ⟨MSG_RPBDELREQ, flagged m.hasType m.type, some m.bucket, some m.key⟩
  | listBuckets m => ⟨MSG_RPBLISTBUCKETSREQ, flagged m.hasType m.type, none, none⟩
  | listKeys m => ⟨MSG_RPBLISTKEYSREQ, flagged m.hasType m.type, some m.bucket, none⟩
  | getBucket m => ⟨MSG_RPBGETBUCKETREQ, flagged m.hasType m.type, some m.bucket, none⟩
  | resetBucket m => ⟨MSG_RPBRESETBUCKETREQ, flagged m.hasType m.type, some m.bucket, none⟩
  | setBucket m => ⟨MSG_RPBSETBUCKETREQ, flagged m.hasType m.type, some m.bucket, none⟩

/-- The request of this operation is a message to this address. -/
def SentTo (packs : Packers) (address : Address) (rop : RiakOperation ρ) : Prop :=
  ∃ m : AddressedMsg, m.address = address ∧ rop.pbRequest =
    some ⟨address.msgid, UInt32.ofNat (m.packed packs).length, m.packed packs⟩

namespace RiakCall

/-- The address that the application asks for: a bucket type or none, and the
    bucket and the key where the operation has them. -/
def address? : RiakCall → Option Address
  | get bucketType (some bucket) (some key) _ =>
      some ⟨MSG_RPBGETREQ, bucketType.map RiakBinary.data, some bucket.data, some key.data⟩
  | put (some obj) _ =>
      obj.bucket.map fun bucket => ⟨MSG_RPBPUTREQ, flaggedBytes obj.hasBucketType obj.bucketType,
        some bucket.data, flaggedBytes obj.hasKey obj.key⟩
  | delete bucketType (some bucket) (some key) _ =>
      some ⟨MSG_RPBDELREQ, bucketType.map RiakBinary.data, some bucket.data, some key.data⟩
  | listbuckets bucketType _ =>
      some ⟨MSG_RPBLISTBUCKETSREQ, bucketType.map RiakBinary.data, none, none⟩
  | listkeys bucketType (some bucket) _ =>
      some ⟨MSG_RPBLISTKEYSREQ, bucketType.map RiakBinary.data, some bucket.data, none⟩
  | getBucketprops bucketType (some bucket) =>
      some ⟨MSG_RPBGETBUCKETREQ, bucketType.map RiakBinary.data, some bucket.data, none⟩
  | resetBucketprops bucketType (some bucket) =>
      some ⟨MSG_RPBRESETBUCKETREQ, bucketType.map RiakBinary.data, some bucket.data, none⟩
  | setBucketprops bucketType (some bucket) _ =>
      some ⟨MSG_RPBSETBUCKETREQ, bucketType.map RiakBinary.data, some bucket.data, none⟩
  | _ => none

/-- What else a call passes can be read: a binary, an array or a struct is there
    where a flag or a count says so. -/
def Readable : RiakCall → Prop
  | get _ _ _ opts => (opts.getD {}).hasIfModified = true → (opts.getD {}).ifModified.isSome
  | put obj opts => (∃ o, obj = some o ∧ o.Complete) ∧
      ((opts.getD {}).hasVclock = true → (opts.getD {}).vclock.isSome)
  | delete _ _ _ opts => (opts.getD {}).hasVclock = true → (opts.getD {}).vclock.isSome
  | setBucketprops _ _ props => ∃ prop, props = some prop ∧
      ∀ heap : Heap, heap.Ample → ∃ err pbprops,
        riakBucketpropsToPbCopy prop heap = .ok ((err, pbprops), heap) ∧ pbprops.walk = pure ()
  | _ => True

def IsReset : RiakCall → Prop
  | resetBucketprops _ _ => True
  | _ => False

end RiakCall

/-- A packed message of any kind has a length that 32 bits can hold. -/
def Packers.Short (packs : Packers) : Prop :=
  ∀ m : AddressedMsg, (m.packed packs).length < 2 ^ 32

/-- A call is routed to an address when the requests that its two forms build all
    go there, and both build one when nothing is refused and what else they are
    given can be read: whether the bucket type is NULL or not. -/
structure RiakCall.RoutedTo (ρ : Type) (call : RiakCall) (address : Address) : Prop where
  sent : ∀ (packs : Packers) (heap final : Heap) (rop : RiakOperation ρ),
    call.build packs heap = .ok ((.ok, rop), final) → SentTo packs address rop
  registered : ∀ (packs : Packers) (rop rop' : RiakOperation ρ)
    (cb : Option RiakResponseCallback) (streaming : RiakBoolean) (heap final : Heap),
    call.register packs rop cb streaming heap = .ok ((.ok, rop'), final) →
    SentTo packs address rop'
  builds : ∀ (packs : Packers) (heap : Heap), packs.Short → heap.Ample → call.Readable →
    ∃ rop : RiakOperation ρ, call.build packs heap = .ok ((.ok, rop), heap)
  registers : ∀ (packs : Packers) (rop : RiakOperation ρ) (cb : Option RiakResponseCallback)
    (streaming : RiakBoolean) (heap : Heap), packs.Short → heap.Ample → call.Readable →
    ∃ rop', call.register packs rop cb streaming heap = .ok ((.ok, rop'), heap)

/-! ### What an encoder sends -/

theorem copyToPbIf_isSome (bin : Option RiakBinary) :
    copyToPbIf bin.isSome bin = pure ((bin.map RiakBinary.data).getD []) := by
  cases bin with
  | none => rfl
  | some b => rfl

theorem flagged_type (bin : Option RiakBinary) :
    flagged bin.isSome ((bin.map RiakBinary.data).getD []) = bin.map RiakBinary.data := by
  cases bin with
  | none => rfl
  | some b => rfl

theorem uint32_ofNat_packedSize32 (packed : Bytes) :
    UInt32.ofNat (packedSize32 packed) = UInt32.ofNat packed.length := by
  apply UInt32.toNat_inj.mp
  rw [UInt32.toNat_ofNat', UInt32.toNat_ofNat']
  exact Nat.mod_mod _ _

theorem riakPackRequest_sent {packs : Packers} {rop rop' : RiakOperation ρ} (m : AddressedMsg)
    {address : Address} {msglen : Nat} {decoder : RiakResponseDecoder} {noBuffer : RiakError}
    (hno : noBuffer ≠ .ok) (haddress : m.address = address)
    (hlen : UInt32.ofNat msglen = UInt32.ofNat (m.packed packs).length)
    (h : riakPackRequest rop address.msgid msglen (m.packed packs) decoder noBuffer heap =
      .ok ((.ok, rop'), final)) : SentTo packs address rop' := by
  refine ⟨m, haddress, ?_⟩
  rw [riakPackRequest_eq_ok hno h, hlen]

section Sent

variable {packs : Packers} {rop rop' : RiakOperation ρ} {bucketType : Option RiakBinary}
  {bucket key : RiakBinary}

theorem riakGetRequestEncode_sent {opts : Option RiakGetOptions}
    (h : riakGetRequestEncode packs.get rop bucketType (some bucket) (some key) opts heap =
      .ok ((.ok, rop'), final)) :
    SentTo packs ⟨MSG_RPBGETREQ, bucketType.map RiakBinary.data, some bucket.data,
      some key.data⟩ rop' := by
  unfold riakGetRequestEncode riakGetRequestMsg at h
  obtain ⟨rop₁, heap₁, _, h₁⟩ := C.bind_eq_ok.mp h
  obtain ⟨rop₂, heap₂, _, h₂⟩ := C.bind_eq_ok.mp h₁
  obtain ⟨rop₃, heap₃, _, h₃⟩ := C.bind_eq_ok.mp h₂
  simp only [riakBinaryCopyToPb, C.deref_some, pure_bind, copyToPbIf_isSome, bind_assoc] at h₃
  obtain ⟨ifModified, heap₄, _, h₄⟩ := C.bind_eq_ok.mp h₃
  exact riakPackRequest_sent (.get _) (by decide)
    (by simp only [AddressedMsg.address, flagged_type]) (uint32_ofNat_packedSize32 _) h₄

theorem riakDeleteRequestEncode_sent {opts : Option RiakDeleteOptions}
    (h : riakDeleteRequestEncode packs.del rop bucketType (some bucket) (some key) opts heap =
      .ok ((.ok, rop'), final)) :
    SentTo packs ⟨MSG_RPBDELREQ, bucketType.map RiakBinary.data, some bucket.data,
      some key.data⟩ rop' := by
  unfold riakDeleteRequestEncode riakDeleteRequestMsg at h
  simp only [riakBinaryCopyToPb, C.deref_some, pure_bind, copyToPbIf_isSome, bind_assoc] at h
  obtain ⟨vclock, heap₁, _, h₁⟩ := C.bind_eq_ok.mp h
  exact riakPackRequest_sent (.del _) (by decide)
    (by simp only [AddressedMsg.address, flagged_type]) (uint32_ofNat_packedSize32 _) h₁

theorem riakPutRequestEncode_sent {obj : RiakObject} {opts : Option RiakPutOptions}
    (hbucket : obj.bucket = some bucket)
    (h : riakPutRequestEncode packs.put rop obj opts heap = .ok ((.ok, rop'), final)) :
    SentTo packs ⟨MSG_RPBPUTREQ, flaggedBytes obj.hasBucketType obj.bucketType,
      some bucket.data, flaggedBytes obj.hasKey obj.key⟩ rop' := by
  have hflagged : ∀ {has : Bool} {bin : Option RiakBinary} {data : Bytes} {before after : Heap},
      copyToPbIf has bin before = .ok (data, after) → flagged has data = flaggedBytes has bin := by
    intro has bin data before after hcopy
    obtain ⟨_, hset, _⟩ := copyToPbIf_eq_ok.mp hcopy
    cases has with
    | false => rfl
    | true =>
      obtain ⟨b, rfl, rfl⟩ := hset rfl
      rfl
  unfold riakPutRequestEncode riakPutRequestMsg at h
  rw [hbucket] at h
  simp only [riakBinaryCopyToPb, C.deref_some, pure_bind, bind_assoc] at h
  obtain ⟨type, heap₁, htype, h₁⟩ := C.bind_eq_ok.mp h
  obtain ⟨keyBytes, heap₂, hkey, h₂⟩ := C.bind_eq_ok.mp h₁
  obtain ⟨content, heap₃, _, h₃⟩ := C.bind_eq_ok.mp h₂
  obtain ⟨vclock, heap₄, _, h₄⟩ := C.bind_eq_ok.mp h₃
  obtain ⟨_, heap₅, _, h₅⟩ := C.bind_eq_ok.mp h₄
  exact riakPackRequest_sent (.put _) (by decide)
    (by simp only [AddressedMsg.address, hflagged htype, hflagged hkey])
    (uint32_ofNat_packedSize32 _) h₅

theorem riakListbucketsRequestEncode_sent {timeout : UInt32}
    (h : riakListbucketsRequestEncode packs.listBuckets rop bucketType timeout heap =
      .ok ((.ok, rop'), final)) :
    SentTo packs ⟨MSG_RPBLISTBUCKETSREQ, bucketType.map RiakBinary.data, none, none⟩ rop' := by
  unfold riakListbucketsRequestEncode at h
  rw [copyToPbIf_isSome, pure_bind] at h
  exact riakPackRequest_sent (.listBuckets _) (by decide)
    (by simp only [AddressedMsg.address, flagged_type]) rfl h

theorem riakListkeysRequestEncode_sent {timeout : UInt32}
    (h : riakListkeysRequestEncode packs.listKeys rop bucketType (some bucket) timeout heap =
      .ok ((.ok, rop'), final)) :
    SentTo packs ⟨MSG_RPBLISTKEYSREQ, bucketType.map RiakBinary.data, some bucket.data, none⟩
      rop' := by
  unfold riakListkeysRequestEncode at h
  simp only [riakBinaryCopyToPb, C.deref_some, pure_bind, copyToPbIf_isSome] at h
  exact riakPackRequest_sent (.listKeys _) (by decide)
    (by simp only [AddressedMsg.address, flagged_type]) rfl h

theorem riakGetBucketpropsRequestEncode_sent
    (h : riakGetBucketpropsRequestEncode packs.getBucket rop bucketType (some bucket) heap =
      .ok ((.ok, rop'), final)) :
    SentTo packs ⟨MSG_RPBGETBUCKETREQ, bucketType.map RiakBinary.data, some bucket.data, none⟩
      rop' := by
  unfold riakGetBucketpropsRequestEncode bucketRequestMsg at h
  simp only [riakBinaryCopyToPb, C.deref_some, pure_bind, copyToPbIf_isSome] at h
  exact riakPackRequest_sent (.getBucket _) (by decide)
    (by simp only [AddressedMsg.address, flagged_type]) rfl h

theorem riakSetBucketpropsRequestEncode_sent {props : Option RiakBucketprops}
    (h : riakSetBucketpropsRequestEncode packs.setBucket rop bucketType (some bucket) props heap =
      .ok ((.ok, rop'), final)) :
    SentTo packs ⟨MSG_RPBSETBUCKETREQ, bucketType.map RiakBinary.data, some bucket.data, none⟩
      rop' := by
  unfold riakSetBucketpropsRequestEncode riakSetBucketpropsRequestMsg at h
  simp only [riakBinaryCopyToPb, C.deref_some, pure_bind, copyToPbIf_isSome, bind_assoc] at h
  obtain ⟨prop, heap₁, _, h₁⟩ := C.bind_eq_ok.mp h
  obtain ⟨pbprops, heap₂, _, h₂⟩ := C.bind_eq_ok.mp h₁
  obtain ⟨_, heap₃, _, h₃⟩ := C.bind_eq_ok.mp h₂
  exact riakPackRequest_sent (.setBucket _) (by decide)
    (by simp only [AddressedMsg.address, flagged_type]) (uint32_ofNat_packedSize32 _) h₃

end Sent

theorem RiakCall.encode_sent {packs : Packers} {rop rop' : RiakOperation ρ} {call : RiakCall}
    {address : Address} (haddress : call.address? = some address) (hreset : ¬ call.IsReset)
    (h : call.encode packs rop heap = .ok ((.ok, rop'), final)) : SentTo packs address rop' := by
  cases call with
  | get bucketType bucket key opts =>
    cases bucket with
    | none => cases haddress
    | some bucket =>
      cases key with
      | none => cases haddress
      | some key =>
        cases haddress
        exact riakGetRequestEncode_sent h
  | put obj opts =>
    cases obj with
    | none => cases haddress
    | some obj =>
      obtain ⟨bucket, hbucket, rfl⟩ := Option.map_eq_some_iff.mp haddress
      exact riakPutRequestEncode_sent hbucket h
  | delete bucketType bucket key opts =>
    cases bucket with
    | none => cases haddress
    | some bucket =>
      cases key with
      | none => cases haddress
      | some key =>
        cases haddress
        exact riakDeleteRequestEncode_sent h
  | listbuckets bucketType timeout =>
    cases haddress
    exact riakListbucketsRequestEncode_sent h
  | listkeys bucketType bucket timeout =>
    cases bucket with
    | none => cases haddress
    | some bucket =>
      cases haddress
      exact riakListkeysRequestEncode_sent h
  | getBucketprops bucketType bucket =>
    cases bucket with
    | none => cases haddress
    | some bucket =>
      cases haddress
      exact riakGetBucketpropsRequestEncode_sent h
  | setBucketprops bucketType bucket props =>
    cases bucket with
    | none => cases haddress
    | some bucket =>
      cases haddress
      exact riakSetBucketpropsRequestEncode_sent h
  | resetBucketprops bucketType bucket => exact absurd trivial hreset
  | _ => cases haddress

/-! ### That an encoder sends something -/

theorem riakPackRequest_of_short (h : heap.Ample) {packs : Packers} (hshort : packs.Short)
    (m : AddressedMsg) (rop : RiakOperation ρ) (msgid : UInt8) (decoder : RiakResponseDecoder)
    (noBuffer : RiakError) :
    ∃ rop', riakPackRequest rop msgid (packedSize32 (m.packed packs)) (m.packed packs) decoder
      noBuffer heap = .ok ((.ok, rop'), heap) := by
  have hsize : packedSize32 (m.packed packs) = (m.packed packs).length :=
    Nat.mod_eq_of_lt (hshort m)
  exact ⟨_, riakPackRequest_of_ample h rop msgid decoder noBuffer (Nat.le_of_eq hsize.symm)⟩

theorem riakPutRequestMsg_of_complete (h : heap.Ample) {obj : RiakObject} (hobj : obj.Complete)
    {opts : Option RiakPutOptions}
    (hvclock : (opts.getD {}).hasVclock = true → (opts.getD {}).vclock.isSome) :
    ∃ m, riakPutRequestMsg obj opts heap = .ok (m, heap) ∧ m.content.walk = pure () := by
  obtain ⟨content, hcontent, hwalk⟩ := riakObjectToPbCopy_of_complete h hobj
  unfold riakPutRequestMsg
  rw [riakBinaryCopyToPb_of_data hobj.bucket, pure_bind, copyToPbIf_of_flagged hobj.bucketType,
    pure_bind, copyToPbIf_of_flagged hobj.key, pure_bind, C.bind_of_ok hcontent]
  simp only [copyToPbIf_of_flagged hvclock, pure_bind]
  exact ⟨_, rfl, hwalk⟩

/-- Every encoder but the one of a reset builds a request, with a bucket type and
    without. -/
theorem RiakCall.encode_of_ample (h : heap.Ample) {packs : Packers} (hshort : packs.Short)
    (rop : RiakOperation ρ) {call : RiakCall} {address : Address}
    (haddress : call.address? = some address) (hreset : ¬ call.IsReset)
    (hread : call.Readable) :
    ∃ rop', call.encode packs rop heap = .ok ((.ok, rop'), heap) := by
  cases call with
  | get bucketType bucket key opts =>
    cases bucket with
    | none => cases haddress
    | some bucket =>
      cases key with
      | none => cases haddress
      | some key =>
        unfold RiakCall.encode riakGetRequestEncode riakGetRequestMsg riakOperationSetBucketType
          riakOperationSetBucket riakOperationSetKey
        simp only [bind_assoc, pure_bind]
        rw [C.bind_of_ok (riakBinaryCopy_of_ample h _), C.bind_of_ok (riakBinaryCopy_of_ample h _),
          C.bind_of_ok (riakBinaryCopy_of_ample h _)]
        simp only [riakBinaryCopyToPb, C.deref_some, pure_bind, copyToPbIf_isSome,
          copyToPbIf_of_flagged hread]
        exact riakPackRequest_of_short h hshort (.get _) _ _ _ _
  | put obj opts =>
    obtain ⟨⟨o, rfl, hobj⟩, hvclock⟩ := hread
    obtain ⟨m, hmsg, hwalk⟩ := riakPutRequestMsg_of_complete h hobj hvclock
    unfold RiakCall.encode riakPutRequestEncode
    simp only [C.deref_some, pure_bind]
    rw [C.bind_of_ok hmsg, hwalk, pure_bind]
    exact riakPackRequest_of_short h hshort (.put m) _ _ _ _
  | delete bucketType bucket key opts =>
    cases bucket with
    | none => cases haddress
    | some bucket =>
      cases key with
      | none => cases haddress
      | some key =>
        unfold RiakCall.encode riakDeleteRequestEncode riakDeleteRequestMsg
        simp only [riakBinaryCopyToPb, C.deref_some, pure_bind, copyToPbIf_isSome,
          copyToPbIf_of_flagged hread]
        exact riakPackRequest_of_short h hshort (.del _) _ _ _ _
  | listbuckets bucketType timeout =>
    unfold RiakCall.encode riakListbucketsRequestEncode
    simp only [copyToPbIf_isSome, pure_bind]
    exact ⟨_, riakPackRequest_of_ample h rop _ _ _ (Nat.le_refl _)⟩
  | listkeys bucketType bucket timeout =>
    cases bucket with
    | none => cases haddress
    | some bucket =>
      unfold RiakCall.encode riakListkeysRequestEncode
      simp only [riakBinaryCopyToPb, C.deref_some, pure_bind, copyToPbIf_isSome]
      exact ⟨_, riakPackRequest_of_ample h rop _ _ _ (Nat.le_refl _)⟩
  | getBucketprops bucketType bucket =>
    cases bucket with
    | none => cases haddress
    | some bucket =>
      unfold RiakCall.encode riakGetBucketpropsRequestEncode bucketRequestMsg
      simp only [riakBinaryCopyToPb, C.deref_some, pure_bind, copyToPbIf_isSome]
      exact ⟨_, riakPackRequest_of_ample h rop _ _ _ (Nat.le_refl _)⟩
  | setBucketprops bucketType bucket props =>
    cases bucket with
    | none => cases haddress
    | some bucket =>
      obtain ⟨prop, rfl, hprop⟩ := hread
      obtain ⟨err, pbprops, hcopy, hwalk⟩ := hprop heap h
      unfold RiakCall.encode riakSetBucketpropsRequestEncode riakSetBucketpropsRequestMsg
      simp only [riakBinaryCopyToPb, C.deref_some, pure_bind, copyToPbIf_isSome, bind_assoc]
      rw [C.bind_of_ok hcopy, hwalk, pure_bind]
      exact riakPackRequest_of_short h hshort (.setBucket _) _ _ _ _
  | resetBucketprops bucketType bucket => exact absurd trivial hreset
  | _ => cases haddress

/-! ### The asynchronous forms -/

/-- The call whose encoder the asynchronous form calls: options of a delete are
    lost on the way. -/
def RiakCall.registered : RiakCall → RiakCall
  | delete bucketType bucket key _ => delete bucketType bucket key none
  | call => call

theorem RiakCall.register_eq (packs : Packers) (rop : RiakOperation ρ)
    (cb : Option RiakResponseCallback) (streaming : RiakBoolean) (call : RiakCall) :
    call.register packs rop cb streaming =
      call.registered.encode packs (riakOperationSetResponseCb rop cb) := by
  cases call <;> rfl

theorem RiakCall.registered_address (call : RiakCall) :
    call.registered.address? = call.address? := by
  cases call with
  | delete bucketType bucket key opts =>
    cases bucket with
    | none => rfl
    | some bucket => cases key <;> rfl
  | _ => rfl

theorem RiakCall.registered_isReset {call : RiakCall} (hreset : ¬ call.IsReset) :
    ¬ call.registered.IsReset := by
  cases call with
  | resetBucketprops bucketType bucket => exact absurd trivial hreset
  | _ => exact id

theorem RiakCall.registered_readable {call : RiakCall} (hread : call.Readable) :
    call.registered.Readable := by
  cases call with
  | delete bucketType bucket key opts => exact fun hset => absurd hset Bool.false_ne_true
  | _ => exact hread

/-! ### Every entry point -/

theorem RiakCall.build_eq_ok {packs : Packers} {call : RiakCall} {rop : RiakOperation ρ}
    (h : call.build packs heap = .ok ((.ok, rop), final)) :
    ∃ rest, call.encode packs ({} : RiakOperation ρ) rest = .ok ((.ok, rop), final) := by
  obtain ⟨granted, rest, hallocate⟩ := C.allocate_total heap
  cases granted with
  | true => exact ⟨rest, (call.build_eq packs hallocate).symm.trans h⟩
  | false =>
    have hnew : C.new ({} : RiakOperation ρ) heap = .ok (none, rest) := by
      unfold C.new
      rw [C.bind_of_ok hallocate]
      rfl
    unfold RiakCall.build riakBuildRequest riakOperationNew at h
    rw [bind_assoc, C.bind_of_ok hnew] at h
    cases h

theorem optionPackers_short : optionPackers.Short := by
  intro m
  cases m with
  | del m => exact optionPackers_length m
  | _ => exact Nat.two_pow_pos 32

/-- **Requests go where the application says**, for every operation on a bucket
    or an object in both forms, with a bucket type and without, except for a reset
    of bucket properties. -/
theorem riak_requests_routed_iff (ρ : Type) (call : RiakCall) (address : Address)
    (haddress : call.address? = some address) : call.RoutedTo ρ address ↔ ¬ call.IsReset := by
  constructor
  · intro hrouted hreset
    cases call with
    | resetBucketprops bucketType bucket =>
      cases bucket with
      | none => cases haddress
      | some bucket =>
        cases haddress
        cases bucketType with
        | none =>
          -- the encoder takes the type for the bucket and follows it
          obtain ⟨rop, hbuild⟩ := hrouted.builds optionPackers Heap.fresh optionPackers_short
            Heap.fresh_ample trivial
          cases hbuild
        | some bucketType =>
          obtain ⟨m, _, hrequest⟩ := hrouted.sent optionPackers Heap.fresh _ _ rfl
          rw [Option.some.injEq, RiakPbMessage.mk.injEq] at hrequest
          have hids : MSG_RPBSETBUCKETREQ = MSG_RPBRESETBUCKETREQ := hrequest.1
          exact absurd hids (by decide)
    | _ => exact hreset
  · intro hreset
    constructor
    case sent =>
      intro packs heap final rop hbuild
      obtain ⟨rest, hencode⟩ := RiakCall.build_eq_ok hbuild
      exact RiakCall.encode_sent haddress hreset hencode
    case registered =>
      intro packs rop rop' cb streaming heap final hregister
      rw [RiakCall.register_eq] at hregister
      exact RiakCall.encode_sent (call.registered_address.trans haddress)
        (RiakCall.registered_isReset hreset) hregister
    case builds =>
      intro packs heap hshort h hread
      rw [call.build_eq packs (C.allocate_of_ample h)]
      exact RiakCall.encode_of_ample h hshort _ haddress hreset hread
    case registers =>
      intro packs rop cb streaming heap hshort h hread
      rw [RiakCall.register_eq]
      exact RiakCall.encode_of_ample h hshort _ (call.registered_address.trans haddress)
        (RiakCall.registered_isReset hreset) (RiakCall.registered_readable hread)

/-- A listing of the keys of the bucket `b`, without a type. -/
theorem riak_requests_routed_listkeys :
    (RiakCall.listkeys none (some ⟨[0x62], true⟩) 0).RoutedTo Unit
      ⟨MSG_RPBLISTKEYSREQ, none, some [0x62], none⟩ :=
  (riak_requests_routed_iff Unit _ _ rfl).mpr id

/-- What protobuf-c makes of a reset with a short bucket and type. -/
def resetPackers : Packers :=
  { optionPackers with
    resetBucket := fun m => [0x0a, UInt8.ofNat m.bucket.length] ++ m.bucket ++
      if m.hasType then [0x12, UInt8.ofNat m.type.length] ++ m.type else [] }

/-- `riak_reset_bucketprops` with the type `t` and the bucket `b` sends a set to the
    bucket `t` of the type `b`, and without a type it follows NULL. -/
theorem riak_reset_bucketprops_misrouted :
    (∃ rop : RiakOperation Unit,
      (RiakCall.resetBucketprops (some ⟨[0x74], true⟩) (some ⟨[0x62], true⟩)).build resetPackers
        Heap.fresh = .ok ((.ok, rop), Heap.fresh) ∧
      rop.pbRequest = some ⟨21, 6, [0x0a, 1, 0x74, 0x12, 1, 0x62]⟩) ∧
    (RiakCall.resetBucketprops none (some ⟨[0x62], true⟩)).build (ρ := Unit) resetPackers
      Heap.fresh = .error .nullDereference ∧
    ¬ (RiakCall.resetBucketprops none (some ⟨[0x62], true⟩)).RoutedTo Unit
      ⟨MSG_RPBRESETBUCKETREQ, none, some [0x62], none⟩ := by
  refine ⟨⟨_, rfl, rfl⟩, rfl, ?_⟩
  intro hrouted
  obtain ⟨rop, hbuild⟩ := hrouted.builds optionPackers Heap.fresh optionPackers_short
    Heap.fresh_ample trivial
  cases hbuild

end RiakClient
