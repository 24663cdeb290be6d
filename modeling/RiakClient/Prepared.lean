import RiakClient.Addressing
import RiakClient.ReadFraming

/-!
# What an encoder leaves in its operation

Every encoder that succeeds has put its request there and the decoder of its
response, and touched nothing else that `riak_write` or `riak_read` look at.

It is a statement about what a computation returns, if it does (`Returns`), and
follows the text of an encoder: what comes first may return anything, and the end is
`riakPackRequest`, which makes the request.
-/

namespace CSem

namespace C

variable {α β : Type}

/-- Whatever a computation returns is like this. -/
def Returns (P : α → Prop) (m : C α) : Prop :=
  ∀ heap a final, m heap = .ok (a, final) → P a

variable {P : α → Prop} {Q : β → Prop}

theorem Returns.pure {a : α} (h : P a) : Returns P (Pure.pure a : C α) := by
  rintro heap _ _ ⟨⟩
  exact h

theorem Returns.fault (f : Fault) : Returns P (C.fault f : C α) := by
  rintro heap _ _ ⟨⟩

theorem Returns.bind {m : C α} {f : α → C β} (h : Returns P m) (hf : ∀ a, P a → Returns Q (f a)) :
    Returns Q (m >>= f) := by
  intro heap b final hrun
  obtain ⟨a, rest, hm, hrest⟩ := C.bind_eq_ok.mp hrun
  exact hf a (h heap a rest hm) rest b final hrest

theorem Returns.after (m : C α) {f : α → C β} (hf : ∀ a, Returns Q (f a)) :
    Returns Q (m >>= f) :=
  Returns.bind (P := fun _ => True) (fun _ _ _ _ => trivial) fun a _ => hf a

end C

end CSem

namespace RiakClient

open CSem

variable {ρ : Type} {heap final : Heap}

/-- The decoder that a call installs. -/
def RiakCall.decoder : RiakCall → RiakResponseDecoder
  | ping => .ping
  | serverinfo => .serverinfo
  | get .. => .get
  | put .. => .put
  | delete .. => .delete
  | listbuckets .. => .listbuckets
  | listkeys .. => .listkeys
  | getClientid => .getClientid
  | setClientid .. => .setClientid
  | getBucketprops .. => .getBucketprops
  | resetBucketprops .. => .resetBucketprops
  | setBucketprops .. => .setBucketprops
  | mapreduce .. => .mapreduce
  | index2i .. => .index2i
  | search .. => .search

/-- The operation is the one before, up to its cache, its decoder and its request. -/
structure RiakOperation.SameStream (rop rop' : RiakOperation ρ) : Prop where
  responseCb : rop'.responseCb = rop.responseCb
  errorCb : rop'.errorCb = rop.errorCb
  position : rop'.position = rop.position
  msglen : rop'.msglen = rop.msglen
  msglenComplete : rop'.msglenComplete = rop.msglenComplete
  streaming : rop'.streaming = rop.streaming
  response : rop'.response = rop.response

theorem RiakOperation.SameStream.refl (rop : RiakOperation ρ) : rop.SameStream rop :=
  ⟨rfl, rfl, rfl, rfl, rfl, rfl, rfl⟩

theorem RiakOperation.SameStream.trans {rop rop' rop'' : RiakOperation ρ}
    (h : rop.SameStream rop') (h' : rop'.SameStream rop'') : rop.SameStream rop'' :=
  ⟨h'.responseCb.trans h.responseCb, h'.errorCb.trans h.errorCb, h'.position.trans h.position,
    h'.msglen.trans h.msglen, h'.msglenComplete.trans h.msglenComplete,
    h'.streaming.trans h.streaming, h'.response.trans h.response⟩

/-- A request for `rop` that succeeded: what it sends, and what it waits for. -/
structure Prepares (decoder : RiakResponseDecoder) (rop : RiakOperation ρ)
    (out : RiakError × RiakOperation ρ) : Prop where
  stream : rop.SameStream out.2
  decoder : out.1 = .ok → out.2.decoder = some decoder
  request : out.1 = .ok → ∃ request : WireMessage, request.msgid ≠ MSG_RPBERRORRESP ∧
    out.2.pbRequest = some request.request

section Encoders

variable {rop : RiakOperation ρ} {decoder : RiakResponseDecoder}

theorem Prepares.of_error {err : RiakError} (herr : err ≠ .ok) {rop' : RiakOperation ρ}
    (h : rop.SameStream rop') : Prepares decoder rop (err, rop') :=
  ⟨h, fun hok => absurd hok herr, fun hok => absurd hok herr⟩

theorem prepares_new {rop' : RiakOperation ρ} (h : rop.SameStream rop') {msgid : UInt8}
    (hmsgid : msgid ≠ MSG_RPBERRORRESP) {msglen : Nat} {packed : Bytes}
    (hlen : UInt32.ofNat msglen = UInt32.ofNat packed.length) :
    C.Returns (Prepares decoder rop) (riakPbMessageNew msgid msglen packed >>= fun slot =>
      match slot with
      | none => pure (.outOfMemory, rop')
      | some request =>
          pure (.ok, { rop' with pbRequest := some request, decoder := some decoder })) := by
  have hnew : C.Returns (fun slot => slot = some ⟨msgid, UInt32.ofNat msglen, packed⟩ ∨
      slot = none) (riakPbMessageNew msgid msglen packed) := by
    intro heap slot final hrun
    exact C.new_eq_ok hrun
  refine hnew.bind fun slot hslot => ?_
  rcases hslot with rfl | rfl
  · refine .pure ⟨?_, fun _ => rfl, fun _ => ⟨⟨msgid, packed⟩, hmsgid, ?_⟩⟩
    · exact h.trans ⟨rfl, rfl, rfl, rfl, rfl, rfl, rfl⟩
    · show some _ = some _
      rw [hlen]
      rfl
  · exact .pure (.of_error (by decide) h)

theorem riakPackRequest_prepares {rop' : RiakOperation ρ} (h : rop.SameStream rop')
    {msgid : UInt8} (hmsgid : msgid ≠ MSG_RPBERRORRESP) {msglen : Nat} {packed : Bytes}
    (hlen : UInt32.ofNat msglen = UInt32.ofNat packed.length) {noBuffer : RiakError}
    (herr : noBuffer ≠ .ok) :
    C.Returns (Prepares decoder rop)
      (riakPackRequest rop' msgid msglen packed decoder noBuffer) := by
  unfold riakPackRequest
  refine .after _ fun granted => ?_
  cases granted with
  | false => exact .pure (.of_error herr h)
  | true =>
    by_cases hshort : msglen < packed.length
    · simp only [if_true, if_pos hshort]
      exact .fault _
    · simp only [if_true, if_neg hshort]
      exact prepares_new h hmsgid hlen

theorem riakEmptyRequest_prepares {rop' : RiakOperation ρ} (h : rop.SameStream rop')
    {msgid : UInt8} (hmsgid : msgid ≠ MSG_RPBERRORRESP) :
    C.Returns (Prepares decoder rop) (riakEmptyRequest rop' msgid decoder) :=
  prepares_new h hmsgid rfl

/-! Caching an argument changes the cache only. -/

theorem riakOperationSetBucketType_sameStream {rop' : RiakOperation ρ} (h : rop.SameStream rop')
    (bin : Option RiakBinary) :
    C.Returns (fun rop' => rop.SameStream rop') (riakOperationSetBucketType rop' bin) :=
  .after _ fun _ => .pure (h.trans ⟨rfl, rfl, rfl, rfl, rfl, rfl, rfl⟩)

theorem riakOperationSetBucket_sameStream {rop' : RiakOperation ρ} (h : rop.SameStream rop')
    (bin : Option RiakBinary) :
    C.Returns (fun rop' => rop.SameStream rop') (riakOperationSetBucket rop' bin) :=
  .after _ fun _ => .pure (h.trans ⟨rfl, rfl, rfl, rfl, rfl, rfl, rfl⟩)

theorem riakOperationSetKey_sameStream {rop' : RiakOperation ρ} (h : rop.SameStream rop')
    (bin : Option RiakBinary) :
    C.Returns (fun rop' => rop.SameStream rop') (riakOperationSetKey rop' bin) :=
  .after _ fun _ => .pure (h.trans ⟨rfl, rfl, rfl, rfl, rfl, rfl, rfl⟩)

theorem riakOperationSetIndex_sameStream {rop' : RiakOperation ρ} (h : rop.SameStream rop')
    (bin : Option RiakBinary) :
    C.Returns (fun rop' => rop.SameStream rop') (riakOperationSetIndex rop' bin) :=
  .after _ fun _ => .pure (h.trans ⟨rfl, rfl, rfl, rfl, rfl, rfl, rfl⟩)

end Encoders

/-- **Every encoder prepares its operation.** -/
theorem RiakCall.encode_prepares (packs : Packers) (rop : RiakOperation ρ) (call : RiakCall) :
    C.Returns (Prepares call.decoder rop) (call.encode packs rop) := by
  have hsame := RiakOperation.SameStream.refl rop
  have hsize := uint32_ofNat_packedSize32
  have hown : ∀ packed : Bytes, UInt32.ofNat packed.length = UInt32.ofNat packed.length :=
    fun _ => rfl
  cases call with
  | ping => exact riakEmptyRequest_prepares hsame (by decide)
  | serverinfo => exact riakEmptyRequest_prepares hsame (by decide)
  | getClientid => exact riakEmptyRequest_prepares hsame (by decide)
  | get bucketType bucket key opts =>
    refine (riakOperationSetBucketType_sameStream hsame bucketType).bind fun rop' hsame => ?_
    refine (riakOperationSetBucket_sameStream hsame bucket).bind fun rop' hsame => ?_
    refine (riakOperationSetKey_sameStream hsame key).bind fun rop' hsame => ?_
    refine .after _ fun getmsg => ?_
    exact riakPackRequest_prepares hsame (by decide) (hsize _) (by decide)
  | put obj opts =>
    refine .after _ fun obj => .after _ fun putmsg => .after _ fun _ => ?_
    exact riakPackRequest_prepares hsame (by decide) (hsize _) (by decide)
  | delete bucketType bucket key opts =>
    refine .after _ fun delmsg => ?_
    exact riakPackRequest_prepares hsame (by decide) (hsize _) (by decide)
  | listbuckets bucketType timeout =>
    refine .after _ fun type => ?_
    exact riakPackRequest_prepares hsame (by decide) (hown _) (by decide)
  | listkeys bucketType bucket timeout =>
    refine .after _ fun type => .after _ fun bucketBytes => ?_
    exact riakPackRequest_prepares hsame (by decide) (hown _) (by decide)
  | setClientid clientid =>
    refine .after _ fun clientId => ?_
    exact riakPackRequest_prepares hsame (by decide) (hsize _) (by decide)
  | getBucketprops bucketType bucket =>
    refine .after _ fun bucketreq => ?_
    exact riakPackRequest_prepares hsame (by decide) (hown _) (by decide)
  | resetBucketprops bucketType bucket =>
    refine .after _ fun resetmsg => ?_
    exact riakPackRequest_prepares hsame (by decide) (hsize _) (by decide)
  | setBucketprops bucketType bucket props =>
    refine .after _ fun setmsg => .after _ fun _ => ?_
    exact riakPackRequest_prepares hsame (by decide) (hsize _) (by decide)
  | mapreduce contentType mapRequest =>
    refine .after _ fun request => .after _ fun contentTypeBytes => ?_
    exact riakPackRequest_prepares hsame (by decide) (hsize _) (by decide)
  | index2i bucketType bucket index opts =>
    have hcache : C.Returns (fun rop' => rop.SameStream rop')
        (riak2iRequestCache rop bucketType bucket index) := by
      refine (riakOperationSetBucketType_sameStream hsame bucketType).bind fun rop' hsame => ?_
      refine (riakOperationSetBucket_sameStream hsame bucket).bind fun rop' hsame => ?_
      exact riakOperationSetIndex_sameStream hsame index
    refine hcache.bind fun rop' hsame => .after _ fun twoimsg => ?_
    exact riakPackRequest_prepares hsame (by decide) (hsize _) (by decide)
  | search bucket query opts =>
    refine (riakOperationSetBucket_sameStream hsame bucket).bind fun rop' hsame => ?_
    refine .after _ fun srchmsg => ?_
    cases srchmsg with
    | none => exact .pure (.of_error (by decide) hsame)
    | some srchmsg => exact riakPackRequest_prepares hsame (by decide) (hsize _) (by decide)

end RiakClient
