import RiakClient.Binary

/-!
# Operations and messages

`riak_operation.c`, `riak_messages.c` and what every encoder and every decoder
has in common: an encoder ends by packing its message into a fresh buffer and
installing its decoder, and a decoder starts by unpacking the bytes behind the
message id.

Both are stated once. An encoder is its message and `riakPackRequest`, with two
lemmas: what it leaves behind when its requests for memory are granted, and that they
were granted if it succeeded. A decoder reads its payload through
`RiakPbMessage.payload`, and `Unpacks` says which message it finds there, going by
protobuf-c.
-/

namespace RiakClient

open CSem

variable {ρ : Type} {heap final : Heap}

/-! ### Message ids (`riak_messages-internal.h`) -/

def MSG_RPBERRORRESP : UInt8 := 0
def MSG_RPBPINGREQ : UInt8 := 1
def MSG_RPBGETCLIENTIDREQ : UInt8 := 3
def MSG_RPBSETCLIENTIDREQ : UInt8 := 5
def MSG_RPBGETSERVERINFOREQ : UInt8 := 7
def MSG_RPBGETREQ : UInt8 := 9
def MSG_RPBPUTREQ : UInt8 := 11
def MSG_RPBDELREQ : UInt8 := 13
def MSG_RPBLISTBUCKETSREQ : UInt8 := 15
def MSG_RPBLISTKEYSREQ : UInt8 := 17
def MSG_RPBGETBUCKETREQ : UInt8 := 19
def MSG_RPBSETBUCKETREQ : UInt8 := 21
def MSG_RPBMAPREDREQ : UInt8 := 23
def MSG_RPBINDEXREQ : UInt8 := 25
def MSG_RPBSEARCHQUERYREQ : UInt8 := 27
def MSG_RPBRESETBUCKETREQ : UInt8 := 29

/-! ### Operations -/

/-- `riak_operation_new`. The source tests `cxn` where it means `rop`, so that a
    refused allocation is written through. -/
def riakOperationNew (responseCb errorCb : Option RiakResponseCallback) :
    C (RiakError × RiakOperation ρ) := do
  let rop ← C.deref (← C.new ({} : RiakOperation ρ))
  pure (.ok, { rop with responseCb := responseCb, errorCb := errorCb })

def riakOperationSetResponseCb (rop : RiakOperation ρ) (cb : Option RiakResponseCallback) :
    RiakOperation ρ :=
  { rop with responseCb := cb }

def riakOperationSetBucketType (rop : RiakOperation ρ) (bucketType : Option RiakBinary) :
    C (RiakOperation ρ) := do
  let copy ← riakBinaryCopy bucketType
  pure { rop with request := { rop.request with bucketType := copy } }

def riakOperationSetBucket (rop : RiakOperation ρ) (bucket : Option RiakBinary) :
    C (RiakOperation ρ) := do
  let copy ← riakBinaryCopy bucket
  pure { rop with request := { rop.request with bucket := copy } }

def riakOperationSetKey (rop : RiakOperation ρ) (key : Option RiakBinary) :
    C (RiakOperation ρ) := do
  let copy ← riakBinaryCopy key
  pure { rop with request := { rop.request with key := copy } }

def riakOperationSetIndex (rop : RiakOperation ρ) (key : Option RiakBinary) :
    C (RiakOperation ρ) := do
  let copy ← riakBinaryCopy key
  pure { rop with request := { rop.request with index := copy } }

/-! ### Messages -/

def riakPbMessageNew (msgtype : UInt8) (msglen : Nat) (buffer : Bytes) :
    C (Option RiakPbMessage) :=
  C.new { msgid := msgtype, len := UInt32.ofNat msglen, data := buffer }

/-- The end of every encoder that packs a message: a buffer of `msglen` bytes,
    the packed message in it, the request and its decoder. `noBuffer` is what
    the encoder returns when it gets no buffer. -/
def riakPackRequest (rop : RiakOperation ρ) (msgid : UInt8) (msglen : Nat) (packed : Bytes)
    (decoder : RiakResponseDecoder) (noBuffer : RiakError) :
    C (RiakError × RiakOperation ρ) := do
  if ← C.allocate then
    if msglen < packed.length then C.fault .outOfBounds
    else match ← riakPbMessageNew msgid msglen packed with
      | none => pure (.outOfMemory, rop)
      | some request =>
          pure (.ok, { rop with pbRequest := some request, decoder := some decoder })
  else pure (noBuffer, rop)

/-- `riak_uint32_t msglen = ..._get_packed_size(...)`. -/
def packedSize32 (packed : Bytes) : Nat := packed.length % 2 ^ 32

/-- The encoders of messages without a payload. -/
def riakEmptyRequest (rop : RiakOperation ρ) (msgid : UInt8) (decoder : RiakResponseDecoder) :
    C (RiakError × RiakOperation ρ) := do
  match ← riakPbMessageNew msgid 0 [] with
  | none => pure (.outOfMemory, rop)
  | some request =>
      pure (.ok, { rop with pbRequest := some request, decoder := some decoder })

/-- How every synchronous call begins: with a new operation and its encoder. -/
def riakBuildRequest (encode : RiakOperation ρ → C (RiakError × RiakOperation ρ)) :
    C (RiakError × RiakOperation ρ) := do
  let new ← riakOperationNew none none
  if new.1 ≠ .ok then pure new else encode new.2

theorem riakPackRequest_of_ample (h : heap.Ample) (rop : RiakOperation ρ) (msgid : UInt8)
    {msglen : Nat} {packed : Bytes} (decoder : RiakResponseDecoder) (noBuffer : RiakError)
    (hlen : packed.length ≤ msglen) :
    riakPackRequest rop msgid msglen packed decoder noBuffer heap =
      .ok ((.ok, { rop with
        pbRequest := some ⟨msgid, UInt32.ofNat msglen, packed⟩, decoder := some decoder }),
        heap) := by
  unfold riakPackRequest riakPbMessageNew
  rw [C.bind_of_ok (C.allocate_of_ample h)]
  simp only [if_true]
  rw [if_neg (Nat.not_lt_of_le hlen), C.bind_of_ok (C.new_of_ample h _)]
  rfl

theorem riakPackRequest_eq_ok {rop rop' : RiakOperation ρ} {msgid : UInt8} {msglen : Nat}
    {packed : Bytes} {decoder : RiakResponseDecoder} {noBuffer : RiakError}
    (hno : noBuffer ≠ .ok)
    (h : riakPackRequest rop msgid msglen packed decoder noBuffer heap = .ok ((.ok, rop'), final)) :
    rop' = { rop with
      pbRequest := some ⟨msgid, UInt32.ofNat msglen, packed⟩, decoder := some decoder } := by
  unfold riakPackRequest at h
  obtain ⟨granted, heap₁, _, h₁⟩ := C.bind_eq_ok.mp h
  cases granted with
  | false =>
    cases h₁
    exact absurd rfl hno
  | true =>
    rw [if_pos rfl] at h₁
    by_cases hshort : msglen < packed.length
    · rw [if_pos hshort] at h₁
      cases h₁
    · rw [if_neg hshort] at h₁
      obtain ⟨slot, heap₂, hslot, h₂⟩ := C.bind_eq_ok.mp h₁
      rcases C.new_eq_ok hslot with rfl | rfl
      · cases h₂
        rfl
      · cases h₂

/-! ### Decoders -/

/-- What a response decoder leaves behind: its return value, `*resp` and `*done`. -/
structure Decoded (ρ : Type) where
  err : RiakError
  resp : Option ρ
  done : RiakBoolean
deriving DecidableEq, Repr

/-- The `(pbresp->len)-1` bytes from `(pbresp->data)+1` that an unpack function
    reads. The subtraction wraps on a message of length zero. -/
def RiakPbMessage.payload (pbresp : RiakPbMessage) : C Bytes :=
  if pbresp.len.toNat = 0 ∨ pbresp.data.length < pbresp.len.toNat then C.fault .outOfBounds
  else pure ((pbresp.data.take pbresp.len.toNat).drop 1)

/-- The frame `pbresp` carries the message `m`, going by protobuf-c. -/
structure Unpacks {μ : Type} (unpack : Bytes → Option μ) (pbresp : RiakPbMessage) (m : μ) :
    Prop where
  nonempty : pbresp.len.toNat ≠ 0
  complete : pbresp.len.toNat ≤ pbresp.data.length
  unpacked : unpack ((pbresp.data.take pbresp.len.toNat).drop 1) = some m

theorem Unpacks.payload {μ : Type} {unpack : Bytes → Option μ} {pbresp : RiakPbMessage} {m : μ}
    (h : Unpacks unpack pbresp m) :
    pbresp.payload = pure ((pbresp.data.take pbresp.len.toNat).drop 1) := by
  have hread : ¬ (pbresp.len.toNat = 0 ∨ pbresp.data.length < pbresp.len.toNat) := by
    rintro (hzero | hshort)
    · exact h.nonempty hzero
    · exact Nat.not_lt_of_le h.complete hshort
  unfold RiakPbMessage.payload
  rw [if_neg hread]

end RiakClient
