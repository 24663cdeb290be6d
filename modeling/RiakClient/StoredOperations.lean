import RiakClient.StoredObjects
import RiakClient.Sync

/-!
# Where an operation is stored

The life of an operation with the addresses of its blocks: `riak_operation_new`, the
end of every encoder, `riak_read` and `riak_sync_request`, and `riak_operation_free`.
The buffer of a message belongs to the operation, and the message that a decoder is
given only points into it.
-/

namespace RiakClient.Stored

open CSem Booked

variable {ρ ρ' : Type}

/-! ### Operations

An operation is freed with everything that it owns: its request, the buffer of the
message that is coming in, the error of the server, and its copies of the address. The
response it leaves alone. -/

/-- `_riak_pb_message`, and the block of its data. -/
structure RiakPbMessage where
  addr : Addr
  msgid : UInt8
  len : UInt32
  block : Option Addr
  data : Bytes

def RiakPbMessage.plain (msg : RiakPbMessage) : RiakClient.RiakPbMessage :=
  ⟨msg.msgid, msg.len, msg.data⟩

instance : Owns RiakPbMessage := ⟨fun msg => blocks msg.block + {msg.addr}⟩

structure RiakServerError where
  addr : Addr
  errcode : UInt32
  errmsg : Option RiakBinary

def RiakServerError.plain (err : RiakServerError) : RiakClient.RiakServerError :=
  ⟨err.errcode, err.errmsg.map RiakBinary.plain⟩

instance : Owns RiakServerError := ⟨fun err => blocks err.errmsg + {err.addr}⟩

structure RiakRequestCache where
  bucketType : Option RiakBinary := none
  bucket : Option RiakBinary := none
  key : Option RiakBinary := none
  index : Option RiakBinary := none

def RiakRequestCache.plain (request : RiakRequestCache) : RiakClient.RiakRequestCache where
  bucketType := request.bucketType.map RiakBinary.plain
  bucket := request.bucket.map RiakBinary.plain
  key := request.key.map RiakBinary.plain
  index := request.index.map RiakBinary.plain

/-- A buffer. -/
structure Buffer where
  addr : Addr
  bytes : Bytes

instance : Owns Buffer := ⟨fun buffer => {buffer.addr}⟩

/-- `_riak_operation`. It does not free its response. -/
structure RiakOperation (ρ : Type) where
  addr : Addr
  decoder : Option RiakResponseDecoder := none
  responseCb : Option RiakResponseCallback := none
  errorCb : Option RiakResponseCallback := none
  position : UInt32 := 0
  msglen : UInt32 := 0
  msgbuf : Option Buffer := none
  msglenComplete : Bool := false
  streaming : Bool := false
  pbRequest : Option RiakPbMessage := none
  error : Option RiakServerError := none
  response : Option ρ := none
  request : RiakRequestCache := {}

def RiakOperation.plain (f : ρ → ρ') (rop : RiakOperation ρ) : RiakClient.RiakOperation ρ' where
  decoder := rop.decoder
  responseCb := rop.responseCb
  errorCb := rop.errorCb
  position := rop.position
  msglen := rop.msglen
  msgbuf := rop.msgbuf.map Buffer.bytes
  msglenComplete := rop.msglenComplete
  streaming := rop.streaming
  pbRequest := rop.pbRequest.map RiakPbMessage.plain
  error := rop.error.map RiakServerError.plain
  response := rop.response.map f
  request := rop.request.plain

/-- The blocks of an operation but for its buffer. -/
def RiakOperation.frame (rop : RiakOperation ρ) : Multiset Addr :=
  blocks rop.pbRequest + (blocks rop.request.bucketType + (blocks rop.request.bucket +
    (blocks rop.request.key + (blocks rop.request.index + (blocks rop.error + {rop.addr})))))

instance : Owns (RiakOperation ρ) :=
  ⟨fun rop => blocks rop.pbRequest + (blocks rop.request.bucketType + (blocks rop.request.bucket +
    (blocks rop.request.key + (blocks rop.request.index + (blocks rop.msgbuf +
    (blocks rop.error + {rop.addr}))))))⟩

theorem RiakOperation.blocks_eq (rop : RiakOperation ρ) :
    blocks rop = blocks rop.msgbuf + rop.frame := by
  show blocks rop.pbRequest + (blocks rop.request.bucketType + (blocks rop.request.bucket +
    (blocks rop.request.key + (blocks rop.request.index + (blocks rop.msgbuf +
    (blocks rop.error + {rop.addr})))))) = _
  unfold RiakOperation.frame
  abel

theorem RiakOperation.blocks_error {rop : RiakOperation ρ} (h : rop.error = none)
    (error : Option RiakServerError) :
    blocks { rop with error := error } = blocks error + blocks rop := by
  show blocks rop.pbRequest + (blocks rop.request.bucketType + (blocks rop.request.bucket +
      (blocks rop.request.key + (blocks rop.request.index + (blocks rop.msgbuf +
      (blocks error + {rop.addr})))))) =
    blocks error + (blocks rop.pbRequest + (blocks rop.request.bucketType +
      (blocks rop.request.bucket + (blocks rop.request.key + (blocks rop.request.index +
      (blocks rop.msgbuf + (blocks rop.error + {rop.addr})))))))
  rw [h, blocks_none, zero_add]
  abel

def riakOperationNew (responseCb errorCb : Option RiakResponseCallback) :
    Booked (RiakError × RiakOperation ρ) := do
  match ← malloc with
  | none => lift (C.fault .nullDereference)
  | some addr => pure (.ok, { addr := addr, responseCb := responseCb, errorCb := errorCb })

def riakPbMessageFree (msg : RiakPbMessage) : Booked Unit := do
  free msg.block
  release msg.addr

/-- The request of an operation, if it has one. -/
def freeRequest : Option RiakPbMessage → Booked Unit
  | none => pure ()
  | some msg => riakPbMessageFree msg

def riakServerErrorFree : Option RiakServerError → Booked Unit
  | none => pure ()
  | some err => do
      riakBinaryFree err.errmsg
      release err.addr

def riakOperationFree (rop : RiakOperation ρ) : Booked Unit := do
  freeRequest rop.pbRequest
  riakBinaryFree rop.request.bucketType
  riakBinaryFree rop.request.bucket
  riakBinaryFree rop.request.key
  riakBinaryFree rop.request.index
  free (rop.msgbuf.map Buffer.addr)
  riakServerErrorFree rop.error
  release rop.addr

theorem riakOperationNew_tracks (f : ρ → ρ') (responseCb errorCb : Option RiakResponseCallback) :
    Tracks 0 (riakOperationNew responseCb errorCb) (fun out => (out.1, out.2.plain f))
      (RiakClient.riakOperationNew responseCb errorCb)
      fun out after => out.1 = .ok ∧ after = blocks out.2 ∧
        out.2 = { addr := out.2.addr, responseCb := responseCb, errorCb := errorCb } := by
  unfold riakOperationNew RiakClient.riakOperationNew C.new
  rw [bind_assoc]
  refine Tracks.malloc.bind ?_
  rintro (_ | addr) _ rfl
  · exact Tracks.fault .nullDereference
  · refine Tracks.pure ⟨rfl, ?_, rfl⟩
    show ({addr} : Multiset Addr) = 0 + (0 + (0 + (0 + (0 + (0 + (0 + {addr}))))))
    abel

theorem Buffer.free_tracks (buffer : Option Buffer) :
    Tracks (blocks buffer) (free (buffer.map Buffer.addr)) (fun _ => ()) (pure ())
      fun _ after => after = 0 := by
  cases buffer with
  | none => exact Tracks.nothing
  | some buffer => exact Tracks.release buffer.addr

theorem freeRequest_tracks (request : Option RiakPbMessage) :
    Tracks (blocks request) (freeRequest request) (fun _ => ()) (pure ())
      fun _ after => after = 0 := by
  cases request with
  | none => exact Tracks.nothing
  | some msg => exact (Tracks.free msg.block).frees rfl (Tracks.release msg.addr)

theorem riakServerErrorFree_tracks (err : Option RiakServerError) :
    Tracks (blocks err) (riakServerErrorFree err) (fun _ => ()) (pure ())
      fun _ after => after = 0 := by
  cases err with
  | none => exact Tracks.nothing
  | some err => exact (riakBinaryFree_tracks err.errmsg).frees rfl (Tracks.release err.addr)

theorem riakOperationFree_tracks (rop : RiakOperation ρ) :
    Tracks (blocks rop) (riakOperationFree rop) (fun _ => ()) (pure ())
      fun _ after => after = 0 := by
  unfold riakOperationFree
  refine (freeRequest_tracks _).frees rfl ?_
  refine (riakBinaryFree_tracks _).frees rfl ?_
  refine (riakBinaryFree_tracks _).frees rfl ?_
  refine (riakBinaryFree_tracks _).frees rfl ?_
  refine (riakBinaryFree_tracks _).frees rfl ?_
  refine (Buffer.free_tracks _).frees rfl ?_
  exact (riakServerErrorFree_tracks _).frees rfl (Tracks.release rop.addr)

/-! ### Reading

The turns of `riak_read` with their blocks. The bytes go into the buffer that is
there, and a message is its struct, whatever its block belongs to. -/

def decodedMap (f : ρ → ρ') (result : Decoded ρ) : Decoded ρ' :=
  ⟨result.err, result.resp.map f, result.done⟩

def eventMap (f : ρ → ρ') : ReadEvent ρ → ReadEvent ρ'
  | .decoded pbresp result => .decoded pbresp (decodedMap f result)
  | .responseCb cb response => .responseCb cb (response.map f)
  | .errorCb cb response => .errorCb cb response

/-- The end of a turn. -/
structure Turn (ρ : Type) where
  rop : RiakOperation ρ
  done : RiakBoolean
  exit : Option RiakError := none
  events : List (ReadEvent ρ) := []

def Turn.plain (f : ρ → ρ') (turn : Turn ρ) : RiakClient.Turn ρ' where
  rop := turn.rop.plain f
  done := turn.done
  exit := turn.exit
  events := turn.events.map (eventMap f)

structure ReadEnv (ρ : Type) where
  decode : RiakResponseDecoder → RiakOperation ρ → Option RiakPbMessage → Option ρ →
    RiakBoolean → Booked (Decoded ρ)
  rpbErrorRespUnpack : Bytes → Option RpbErrorResp

/-- The number of bytes that the next read asks for. -/
def RiakOperation.asked (rop : RiakOperation ρ) : Nat := (rop.plain id).readRequest.count

def riakReadPrefix (rop : RiakOperation ρ) (done : RiakBoolean) (r : ReadResult) :
    Booked (Turn ρ) := do
  let inmsglen ← lift (C.copyAt (hostBytes rop.msglen) rop.position.toNat r.bytes)
  if r.buflen ≠ rop.asked then
    if r.buflen = 0 then pure { rop := rop, done := done, exit := some .ok }
    else if r.buflen < 4 then
      pure {
        rop := { rop with position := UInt32.ofNat r.buflen, msglen := hostWord inmsglen }
        done := done
        exit := some .ok }
    else pure { rop := rop, done := done, exit := some .read }
  else
    let msglen := ntohl (hostWord inmsglen)
    match ← mallocBytes msglen.toNat with
    | none =>
        pure {
          rop := { rop with msglenComplete := true, msglen := msglen, msgbuf := none }
          done := done
          exit := some .read }
    | some (addr, bytes) =>
        pure {
          rop := { rop with msglenComplete := true, msglen := msglen, msgbuf := some ⟨addr, bytes⟩ }
          done := done }

def riakReadInto (rop : RiakOperation ρ) (r : ReadResult) : Booked (Option Buffer) :=
  if r.bytes = [] then pure rop.msgbuf
  else do
    let msgbuf ← lift (C.deref rop.msgbuf)
    let bytes ← lift (C.copyAt msgbuf.bytes rop.position.toNat r.bytes)
    pure (some { msgbuf with bytes := bytes })

def riakReadStore (rop : RiakOperation ρ) (r : ReadResult) : Booked (RiakOperation ρ) := do
  let msgbuf ← riakReadInto rop r
  pure { rop with position := rop.position + UInt32.ofNat r.buflen, msgbuf := msgbuf }

/-- `riak_pb_message_new`, which takes the data as it is. -/
def riakPbMessageNew (msgtype : UInt8) (msglen : Nat) (block : Option Addr) (data : Bytes) :
    Booked (Option RiakPbMessage) := do
  match ← malloc with
  | none => pure none
  | some addr => pure (some ⟨addr, msgtype, UInt32.ofNat msglen, block, data⟩)

def riakReadReceive (rop : RiakOperation ρ) (r : ReadResult) :
    Booked (RiakOperation ρ × Option (UInt8 × Option RiakPbMessage)) := do
  let rop ← riakReadStore rop r
  if rop.position < rop.msglen then pure (rop, none)
  else if rop.position ≠ rop.msglen then lift (C.fault .assertionFailed)
  else do
    let msgbuf ← lift (C.deref rop.msgbuf)
    let msgid ← lift (C.readAt msgbuf.bytes 0)
    let pbresp ← riakPbMessageNew msgid rop.msglen.toNat (some msgbuf.addr) msgbuf.bytes
    pure ({ rop with position := 0, msglen := 0, msglenComplete := false }, some (msgid, pbresp))

/-- `_riak_server_error_response`, which keeps the message that it was made of. -/
structure RiakServerErrorResponse where
  addr : Addr
  internal : Addr
  errcode : UInt32
  errmsg : Option RiakBinary

def RiakServerErrorResponse.plain (response : RiakServerErrorResponse) :
    RiakClient.RiakServerErrorResponse :=
  ⟨response.errcode, response.errmsg.map RiakBinary.plain⟩

/-- `riak_server_error_response_free`, which does not look into the binary. -/
def riakServerErrorResponseFree (response : RiakServerErrorResponse) : Booked Unit := do
  release response.internal
  free (response.errmsg.map RiakBinary.addr)
  release response.addr

/-- `riak_server_error_new`. The error that was there before is not freed. -/
def riakServerErrorNew (err : Option RiakServerError) (errcode : UInt32)
    (errmsg : Option RiakBinary) : Booked (RiakError × Option RiakServerError) := do
  match ← malloc with
  | none => pure (.outOfMemory, err)
  | some addr =>
      match ← riakBinaryCopy (errmsg.map RiakBinary.plain) with
      | none => do
          release addr
          pure (.outOfMemory, none)
      | some copy => pure (.ok, some ⟨addr, errcode, some copy⟩)

structure ServerErrorDecoded (ρ : Type) where
  err : RiakError
  resp : Ptr RiakServerErrorResponse
  done : RiakBoolean
  rop : RiakOperation ρ
  events : List (ReadEvent ρ)

def errorCbEvents (rop : RiakOperation ρ) (response : RiakServerErrorResponse) :
    List (ReadEvent ρ) :=
  match rop.errorCb with
  | none => []
  | some cb => [.errorCb cb response.plain]

/-- `riak_server_error_response_decode`, which frees the message that it is given as
    soon as it has unpacked it. -/
def riakServerErrorResponseDecode (unpack : Bytes → Option RpbErrorResp) (rop : RiakOperation ρ)
    (pbresp : Option RiakPbMessage) (done : RiakBoolean) : Booked (ServerErrorDecoded ρ) := do
  let message ← lift (C.deref pbresp)
  let payload ← lift message.plain.payload
  match unpack payload with
  | none => pure ⟨.messageFormat, .null, done, rop, []⟩
  | some errresp => do
      let internal ← obtain
      let response ← malloc
      release message.addr
      match response with
      | none => do
          release internal
          pure ⟨.outOfMemory, .null, 1, rop, []⟩
      | some addr =>
          match ← riakBinaryCopyFromPb errresp.errmsg with
          | none => do
              release addr
              release internal
              pure ⟨.outOfMemory, .null, 1, rop, []⟩
          | some errmsg => do
              let response : RiakServerErrorResponse :=
                ⟨addr, internal, errresp.errcode, some errmsg⟩
              let events := errorCbEvents rop response
              let (err, error) ← riakServerErrorNew rop.error response.errcode response.errmsg
              let rop := { rop with error := error }
              if err = .ok then pure ⟨.ok, .obj response, 1, rop, events⟩
              else do
                release addr
                release internal
                pure ⟨err, .wild, 1, rop, events⟩

def riakReadServerError (env : ReadEnv ρ) (rop : RiakOperation ρ)
    (pbresp : Option RiakPbMessage) : Booked (Turn ρ) := do
  let decoded ← riakServerErrorResponseDecode env.rpbErrorRespUnpack rop pbresp 1
  let errResponse ← lift decoded.resp.deref
  let events := decoded.events ++ errorCbEvents decoded.rop errResponse
  riakServerErrorResponseFree errResponse
  pure {
    rop := { decoded.rop with response := none }
    done := decoded.done
    exit := some .serverError
    events := events }

def responseCbEvents (rop : RiakOperation ρ) : List (ReadEvent ρ) :=
  match rop.responseCb with
  | none => []
  | some cb => [.responseCb cb rop.response]

/-- What becomes of a complete message. Without a decoder nobody frees it. -/
def riakReadDispatch (env : ReadEnv ρ) (rop : RiakOperation ρ) (msgid : UInt8)
    (pbresp : Option RiakPbMessage) : Booked (Turn ρ) := do
  match rop.decoder with
  | none => pure { rop := rop, done := 1, exit := some .read }
  | some decoder =>
      if msgid = MSG_RPBERRORRESP then riakReadServerError env rop pbresp
      else do
        let result ← env.decode decoder rop pbresp rop.response 1
        free (pbresp.map RiakPbMessage.addr)
        free (rop.msgbuf.map Buffer.addr)
        let decoded : ReadEvent ρ := .decoded (pbresp.map RiakPbMessage.plain) result
        let rop := { rop with response := result.resp, msgbuf := none }
        if result.err ≠ .ok then
          pure { rop := rop, done := result.done, exit := some .read, events := [decoded] }
        else if result.done ≠ 0 then
          pure { rop := rop, done := result.done, exit := some .ok,
                 events := decoded :: responseCbEvents rop }
        else pure { rop := rop, done := result.done, events := [decoded] }

def riakReadBody (env : ReadEnv ρ) (rop : RiakOperation ρ) (done : RiakBoolean)
    (r : ReadResult) : Booked (Turn ρ) := do
  match ← riakReadReceive rop r with
  | (rop, none) => pure { rop := rop, done := done, exit := some .ok }
  | (rop, some (msgid, pbresp)) => riakReadDispatch env rop msgid pbresp

def riakReadTurn (env : ReadEnv ρ) (rop : RiakOperation ρ) (done : RiakBoolean)
    (r : ReadResult) : Booked (Turn ρ) :=
  if rop.msglenComplete then riakReadBody env rop done r else riakReadPrefix rop done r

structure ReadOutcome (ρ : Type) where
  returned : Option RiakError
  rop : RiakOperation ρ
  done : RiakBoolean
  events : List (ReadEvent ρ)
  unused : List ReadResult

def riakReadLoop (env : ReadEnv ρ) (rop : RiakOperation ρ) (done : RiakBoolean) :
    List ReadResult → Booked (ReadOutcome ρ)
  | [] => pure ⟨none, rop, done, [], []⟩
  | r :: results => do
      let turn ← riakReadTurn env rop done r
      match turn.exit with
      | some err => pure ⟨some err, turn.rop, turn.done, turn.events, results⟩
      | none => do
          let outcome ← riakReadLoop env turn.rop turn.done results
          pure { outcome with events := turn.events ++ outcome.events }

/-- The struct of a message that came in. -/
def pbrespBlocks (pbresp : Option RiakPbMessage) : Multiset Addr :=
  blocks (pbresp.map RiakPbMessage.addr)

/-! ### What a read does to its blocks

Between two messages there is no buffer. A decoder that fails leaves no response if it
had none, one that is done with the request leaves a response that the application can
get; an error that can be told is stored, and its message is gone. A server error
loses nothing but the response so far. -/

theorem riakReadInto_tracks (f : ρ → ρ') (rop : RiakOperation ρ) (r : ReadResult) :
    Tracks (blocks rop.msgbuf) (riakReadInto rop r) (Option.map Buffer.bytes)
      (RiakClient.riakReadInto (rop.plain f) r)
      fun out after => after = blocks out := by
  unfold riakReadInto RiakClient.riakReadInto
  by_cases hnone : r.bytes = []
  · rw [if_pos hnone, if_pos hnone]
    exact Tracks.pure rfl
  · rw [if_neg hnone, if_neg hnone]
    rw [map_eq_pure_bind, bind_assoc]
    refine (Tracks.deref Buffer.bytes rop.msgbuf).bind ?_
    rintro buffer _ ⟨rfl, hbuffer⟩
    refine Tracks.lift_bind ?_
    intro bytes _ _ _
    refine Tracks.pure ?_
    rw [hbuffer]
    rfl

theorem riakReadStore_tracks (f : ρ → ρ') (rop : RiakOperation ρ) (r : ReadResult) :
    Tracks (blocks rop) (riakReadStore rop r) (RiakOperation.plain f)
      (RiakClient.riakReadStore (rop.plain f) r)
      fun rop' after => after = blocks rop' ∧ ∃ msgbuf,
        rop' = { rop with position := rop.position + UInt32.ofNat r.buflen, msgbuf := msgbuf } := by
  unfold riakReadStore RiakClient.riakReadStore
  refine (riakReadInto_tracks f rop r).step rop.blocks_eq ?_
  rintro msgbuf _ rfl
  refine Tracks.pure ⟨?_, msgbuf, rfl⟩
  rw [RiakOperation.blocks_eq]
  rfl

theorem riakPbMessageNew_tracks (msgtype : UInt8) (msglen : Nat) (block : Option Addr)
    (data : Bytes) :
    Tracks 0 (riakPbMessageNew msgtype msglen block data) (Option.map RiakPbMessage.plain)
      (RiakClient.riakPbMessageNew msgtype msglen data)
      fun msg after => after = pbrespBlocks msg ∧ ∀ m, msg = some m → m.block = block := by
  unfold riakPbMessageNew RiakClient.riakPbMessageNew C.new
  refine Tracks.malloc.bind ?_
  rintro (_ | addr) _ rfl
  · exact Tracks.pure ⟨rfl, nofun⟩
  · refine Tracks.pure ⟨rfl, ?_⟩
    rintro _ ⟨⟩
    rfl

theorem riakReadReceive_tracks (f : ρ → ρ') (rop : RiakOperation ρ) (r : ReadResult) :
    Tracks (blocks rop) (riakReadReceive rop r)
      (fun out => (out.1.plain f, out.2.map fun m => (m.1, m.2.map RiakPbMessage.plain)))
      (RiakClient.riakReadReceive (rop.plain f) r)
      fun out after => out.1.error = rop.error ∧ out.1.decoder = rop.decoder ∧
        out.1.response = rop.response ∧
        after = blocks out.1 + ((out.2.map fun m => pbrespBlocks m.2).getD 0) := by
  unfold riakReadReceive RiakClient.riakReadReceive
  refine (riakReadStore_tracks f rop r).bind ?_
  rintro rop' _ ⟨rfl, msgbuf, hrop'⟩
  have hkept : rop'.error = rop.error ∧ rop'.decoder = rop.decoder ∧
      rop'.response = rop.response := by
    rw [hrop']
    exact ⟨rfl, rfl, rfl⟩
  obtain ⟨herror, hdecoder, hresponse⟩ := hkept
  by_cases hpart : rop'.position < rop'.msglen
  · rw [if_pos hpart, if_pos (show (rop'.plain f).position < (rop'.plain f).msglen from hpart)]
    exact Tracks.pure ⟨herror, hdecoder, hresponse, (add_zero _).symm⟩
  · rw [if_neg hpart, if_neg (show ¬ (rop'.plain f).position < (rop'.plain f).msglen from hpart)]
    by_cases hend : rop'.position = rop'.msglen
    · rw [if_neg (fun hne => hne hend),
        if_neg (show ¬ (rop'.plain f).position ≠ (rop'.plain f).msglen from fun hne => hne hend)]
      refine (Tracks.deref Buffer.bytes rop'.msgbuf).bind ?_
      rintro buffer _ ⟨rfl, _⟩
      refine Tracks.lift_bind ?_
      intro msgid _ _ _
      refine (riakPbMessageNew_tracks _ _ _ _).after ?_
      rintro pbresp _ ⟨rfl, _⟩
      refine Tracks.pure ⟨herror, hdecoder, hresponse, ?_⟩
      exact add_comm _ _
    · rw [if_pos hend,
        if_pos (show (rop'.plain f).position ≠ (rop'.plain f).msglen from hend)]
      exact Tracks.fault .assertionFailed

section Errors

/-- The blocks of the response, the message that it was made of among them. -/
instance : Owns RiakServerErrorResponse :=
  ⟨fun response => {response.internal} +
    (blocks (response.errmsg.map RiakBinary.addr) + {response.addr})⟩

def ServerErrorDecoded.plain (f : ρ → ρ') (decoded : ServerErrorDecoded ρ) :
    RiakClient.ServerErrorDecoded ρ' where
  err := decoded.err
  resp := decoded.resp.map RiakServerErrorResponse.plain
  done := decoded.done
  rop := decoded.rop.plain f
  events := decoded.events.map (eventMap f)

theorem riakServerErrorResponseFree_tracks (response : RiakServerErrorResponse) :
    Tracks (blocks response) (riakServerErrorResponseFree response) (fun _ => ()) (pure ())
      fun _ after => after = 0 :=
  (Tracks.release response.internal).frees rfl
    ((Tracks.free _).frees rfl (Tracks.release response.addr))

theorem riakServerErrorNew_tracks (errcode : UInt32) (errmsg : Option RiakBinary) :
    Tracks 0 (riakServerErrorNew none errcode errmsg)
      (fun out => (out.1, out.2.map RiakServerError.plain))
      (RiakClient.riakServerErrorNew none errcode (errmsg.map RiakBinary.plain))
      fun out after => after = blocks out.2 := by
  unfold riakServerErrorNew RiakClient.riakServerErrorNew
  refine Tracks.malloc.bind ?_
  rintro (_ | addr) _ rfl
  · exact Tracks.pure rfl
  · refine (riakBinaryCopy_tracks _).after ?_
    rintro (_ | copy) _ rfl
    · exact (Tracks.release addr).frees (zero_add _) (Tracks.pure rfl)
    · exact Tracks.pure rfl

theorem errorCbEvents_map (f : ρ → ρ') (rop : RiakOperation ρ)
    (response : RiakServerErrorResponse) :
    (errorCbEvents rop response).map (eventMap f) =
      RiakClient.errorCbEvents (rop.plain f) response.plain := by
  unfold errorCbEvents RiakClient.errorCbEvents RiakOperation.plain
  cases rop.errorCb with
  | none => rfl
  | some cb => rfl

theorem riakServerErrorResponseDecode_tracks (f : ρ → ρ') {rop : RiakOperation ρ}
    (herror : rop.error = none) (unpack : Bytes → Option RpbErrorResp)
    (pbresp : Option RiakPbMessage) (done : RiakBoolean) :
    Tracks (pbrespBlocks pbresp) (riakServerErrorResponseDecode unpack rop pbresp done)
      (ServerErrorDecoded.plain f)
      (RiakClient.riakServerErrorResponseDecode unpack (rop.plain f)
        (pbresp.map RiakPbMessage.plain) done)
      fun out after => ∀ response, out.resp = .obj response →
        after = blocks out.rop.error + blocks response ∧
          out.rop = { rop with error := out.rop.error } := by
  unfold riakServerErrorResponseDecode RiakClient.riakServerErrorResponseDecode
  refine (Tracks.deref RiakPbMessage.plain pbresp).bind ?_
  rintro message _ ⟨rfl, rfl⟩
  refine Tracks.lift_bind ?_
  intro payload _ _ _
  cases unpack payload with
  | none => exact Tracks.pure nofun
  | some errresp =>
    refine Tracks.obtain.silent (zero_add _).symm ?_
    rintro internal _ rfl
    refine Tracks.malloc.after ?_
    rintro slot _ rfl
    have hsplit : blocks slot + ({internal} + {message.addr}) =
        {message.addr} + (blocks slot + {internal}) := by abel
    refine (Tracks.release message.addr).frees hsplit ?_
    cases slot with
    | none => exact (Tracks.release internal).frees (add_comm _ _) (Tracks.pure nofun)
    | some addr =>
      refine (riakBinaryCopyFromPb_struct_tracks _).after ?_
      rintro (_ | errmsg) _ rfl
      · refine (Tracks.release addr).frees (zero_add _) ?_
        exact (Tracks.release internal).frees (add_zero _).symm (Tracks.pure nofun)
      · have hplain : (rop.plain f).error = none := congrArg (Option.map _) herror
        simp only [Option.map_some]
        rw [herror, hplain]
        refine (riakServerErrorNew_tracks _ _).after ?_
        rintro ⟨err, error⟩ _ rfl
        have hevents := errorCbEvents_map f rop ⟨addr, internal, errresp.errcode, some errmsg⟩
        by_cases herr : err = .ok
        · subst herr
          refine Tracks.pure_of ?_ ?_
          · exact congrArg (RiakClient.ServerErrorDecoded.mk _ _ _ _) hevents
          · rintro _ ⟨⟩
            refine ⟨?_, rfl⟩
            show blocks error + ({errmsg.addr} + ({addr} + {internal})) =
              blocks error + ({internal} + ({errmsg.addr} + {addr}))
            abel
        · simp only [herr, if_false]
          have hfirst : blocks error + ({errmsg.addr} + ({addr} + {internal})) =
              {addr} + ({internal} + (blocks error + {errmsg.addr})) := by abel
          refine (Tracks.release addr).frees hfirst ?_
          refine (Tracks.release internal).frees rfl ?_
          exact Tracks.pure_of (congrArg (RiakClient.ServerErrorDecoded.mk _ _ _ _) hevents) nofun

end Errors

theorem responseCbEvents_map (f : ρ → ρ') (rop : RiakOperation ρ) :
    (responseCbEvents rop).map (eventMap f) = RiakClient.responseCbEvents (rop.plain f) := by
  unfold responseCbEvents RiakClient.responseCbEvents RiakOperation.plain
  cases rop.responseCb with
  | none => rfl
  | some cb => rfl

theorem riakWrite_error {σ : Type} {rop : RiakClient.RiakOperation ρ}
    {writeCb : σ → Bytes → Int × σ} {s : σ} {out : RiakError × σ} {heap final : Heap}
    (h : riakWrite rop writeCb s heap = .ok (out, final)) : out.1 = .ok ∨ out.1 = .write := by
  unfold riakWrite at h
  obtain ⟨msg, heap₁, _, hrest⟩ := C.bind_eq_ok.mp h
  split at hrest
  · cases hrest
  · simp only at hrest
    split at hrest
    · cases hrest
      exact Or.inr rfl
    · split at hrest
      · cases hrest
        exact Or.inr rfl
      · split at hrest
        · split at hrest
          · cases hrest
            exact Or.inr rfl
          · cases hrest
            exact Or.inl rfl
        · cases hrest
          exact Or.inl rfl

section Reading

variable [Owns ρ]

/-- Between two messages there is no buffer, and no error has come in. -/
structure RiakOperation.Between (rop : RiakOperation ρ) : Prop where
  msgbuf : rop.msglenComplete = false → rop.msgbuf = none
  error : rop.error = none

/-- What a turn leaves. A server error loses the response so far, and a call that
    fails may lose anything that it was not given. -/
def TurnLeaves (Open Sound : Option ρ → Prop) (rop : RiakOperation ρ) (turn : Turn ρ)
    (after : Multiset Addr) : Prop :=
  match turn.exit with
  | none => after = blocks turn.rop + blocks turn.rop.response ∧ turn.rop.Between ∧
      Open turn.rop.response ∧ turn.rop.decoder = rop.decoder
  | some .ok => after = blocks turn.rop + blocks turn.rop.response ∧ Sound turn.rop.response
  | some .serverError => turn.rop.response = none ∧ after = blocks turn.rop + blocks rop.response
  | some .read => ∃ lost, after = blocks turn.rop + (blocks turn.rop.response + lost)
  | some _ => False

variable {Open Sound : Option ρ → Prop} {rop : RiakOperation ρ}

theorem riakReadPrefix_tracks (f : ρ → ρ') (hbetween : rop.Between)
    (hphase : rop.msglenComplete = false) (hopen : Open rop.response)
    (hsound : Sound rop.response) (done : RiakBoolean)
    (r : ReadResult) :
    Tracks (blocks rop + blocks rop.response) (riakReadPrefix rop done r) (Turn.plain f)
      (RiakClient.riakReadPrefix (rop.plain f) done r) (TurnLeaves Open Sound rop) := by
  have hrop : blocks rop = rop.frame := by
    rw [RiakOperation.blocks_eq, hbetween.msgbuf hphase]
    exact zero_add _
  unfold riakReadPrefix RiakClient.riakReadPrefix
  refine Tracks.lift_bind ?_
  intro inmsglen _ _ _
  have hasked : (rop.plain f).readRequest.count = rop.asked := rfl
  rw [hasked]
  by_cases hcount : r.buflen = rop.asked
  · rw [if_neg (fun hne => hne hcount), if_neg (fun hne => hne hcount)]
    refine (Tracks.mallocBytes _).after ?_
    rintro (_ | ⟨addr, bytes⟩) _ rfl
    · refine Tracks.pure ⟨0, ?_⟩
      rw [hrop, RiakOperation.blocks_eq]
      show 0 + (rop.frame + blocks rop.response) = 0 + rop.frame + (blocks rop.response + 0)
      abel
    · refine Tracks.pure ⟨?_, ⟨fun h => ?_, hbetween.error⟩, hopen, rfl⟩
      · rw [hrop, RiakOperation.blocks_eq]
        show {addr} + (rop.frame + blocks rop.response) = {addr} + rop.frame + blocks rop.response
        abel
      · cases h
  · rw [if_pos hcount, if_pos hcount]
    by_cases hzero : r.buflen = 0
    · rw [if_pos hzero, if_pos hzero]
      exact Tracks.pure ⟨rfl, hsound⟩
    · rw [if_neg hzero, if_neg hzero]
      by_cases hfew : r.buflen < 4
      · rw [if_pos hfew, if_pos hfew]
        exact Tracks.pure ⟨rfl, hsound⟩
      · rw [if_neg hfew, if_neg hfew]
        exact Tracks.pure ⟨0, congrArg (blocks rop + ·) (add_zero _).symm⟩

theorem riakReadServerError_tracks (f : ρ → ρ') {env : ReadEnv ρ} {plainEnv : RiakClient.ReadEnv ρ'}
    (hunpack : env.rpbErrorRespUnpack = plainEnv.rpbErrorRespUnpack) (herror : rop.error = none)
    (pbresp : Option RiakPbMessage) :
    Tracks (blocks rop + pbrespBlocks pbresp + blocks rop.response)
      (riakReadServerError env rop pbresp) (Turn.plain f)
      (RiakClient.riakReadServerError plainEnv (rop.plain f) (pbresp.map RiakPbMessage.plain))
      (TurnLeaves Open Sound rop) := by
  unfold riakReadServerError RiakClient.riakReadServerError
  rw [hunpack]
  have hsplit : blocks rop + pbrespBlocks pbresp + blocks rop.response =
      pbrespBlocks pbresp + (blocks rop + blocks rop.response) := by abel
  refine (riakServerErrorResponseDecode_tracks f herror _ pbresp 1).step hsplit ?_
  rintro decoded own hdecoded
  refine (Tracks.ptr_deref RiakServerErrorResponse.plain decoded.resp).bind ?_
  rintro response _ ⟨rfl, hresp⟩
  obtain ⟨rfl, hrop⟩ := hdecoded response hresp
  have hfree : blocks decoded.rop.error + blocks response + (blocks rop + blocks rop.response) =
      blocks response + (blocks decoded.rop.error + (blocks rop + blocks rop.response)) := by abel
  refine (riakServerErrorResponseFree_tracks response).frees hfree ?_
  refine Tracks.pure_of ?_ ⟨rfl, ?_⟩
  · have hevents : (decoded.events ++ errorCbEvents decoded.rop response).map (eventMap f) =
        (decoded.plain f).events ++
          RiakClient.errorCbEvents (decoded.plain f).rop response.plain := by
      rw [List.map_append, errorCbEvents_map]
      rfl
    exact congrArg (RiakClient.Turn.mk _ _ _) hevents
  · have hblocks : blocks decoded.rop = blocks decoded.rop.error + blocks rop := by
      conv_lhs => rw [hrop]
      exact RiakOperation.blocks_error herror _
    show _ = blocks decoded.rop + blocks rop.response
    rw [hblocks, add_assoc]

/-- What a decoder leaves: the response, and what it has lost, which is nothing if it
    succeeds. -/
def DecodeLeaves (Open Sound : Option ρ → Prop) (out : Decoded ρ) (after : Multiset Addr) :
    Prop :=
  ∃ lost, after = blocks out.resp + lost ∧
    (out.err = .ok → lost = 0 ∧ Sound out.resp ∧ (out.done = 0 → Open out.resp))

theorem DecodeLeaves.failed {err : RiakError} {done : RiakBoolean} (herr : err ≠ .ok)
    (after : Multiset Addr) : DecodeLeaves Open Sound (⟨err, none, done⟩ : Decoded ρ) after :=
  ⟨after, (zero_add after).symm, fun hok => absurd hok herr⟩

theorem DecodeLeaves.closed {out : Decoded ρ} {after : Multiset Addr}
    (hafter : after = blocks out.resp) (hsound : Sound out.resp) (hdone : out.done = 1) :
    DecodeLeaves Open Sound out after := by
  refine ⟨0, hafter.trans (add_zero _).symm, fun _ => ⟨rfl, hsound, fun hzero => ?_⟩⟩
  rw [hdone] at hzero
  exact absurd hzero (by decide)

theorem DecodeLeaves.mono {Open' : Option ρ → Prop} (hopen : ∀ resp, Open resp → Open' resp)
    {out : Decoded ρ} {after : Multiset Addr} (h : DecodeLeaves Open Sound out after) :
    DecodeLeaves Open' Sound out after := by
  obtain ⟨lost, hafter, hok⟩ := h
  refine ⟨lost, hafter, fun herr => ?_⟩
  obtain ⟨hlost, hsound, hnext⟩ := hok herr
  exact ⟨hlost, hsound, fun hdone => hopen _ (hnext hdone)⟩

/-- No response, or one that is `Whole`. -/
def WholeOrNull (Whole : ρ → Prop) (resp : Option ρ) : Prop :=
  ∀ response, resp = some response → Whole response

/-- What the decoder of an operation has to keep to. `Open` says which responses it can
    be given, and `Sound` which ones the application can get. -/
structure ReadEnv.Keeps (env : ReadEnv ρ) (plainEnv : RiakClient.ReadEnv ρ') (f : ρ → ρ')
    (Open Sound : Option ρ → Prop) (decoder : RiakResponseDecoder) : Prop where
  unpack : env.rpbErrorRespUnpack = plainEnv.rpbErrorRespUnpack
  decode : ∀ (rop : RiakOperation ρ) (pbresp : Option RiakPbMessage) (resp : Option ρ),
    Open resp → Tracks (blocks resp) (env.decode decoder rop pbresp resp 1) (decodedMap f)
      (plainEnv.decode decoder (rop.plain f) (pbresp.map RiakPbMessage.plain) (resp.map f) 1)
      (DecodeLeaves Open Sound)

section Turns

variable {env : ReadEnv ρ} {plainEnv : RiakClient.ReadEnv ρ'} {f : ρ → ρ'}

theorem riakReadDispatch_tracks
    (henv : ∀ decoder, rop.decoder = some decoder → env.Keeps plainEnv f Open Sound decoder)
    (herror : rop.error = none) (hopen : Open rop.response) (msgid : UInt8)
    (pbresp : Option RiakPbMessage) :
    Tracks (blocks rop + pbrespBlocks pbresp + blocks rop.response)
      (riakReadDispatch env rop msgid pbresp) (Turn.plain f)
      (RiakClient.riakReadDispatch plainEnv (rop.plain f) msgid (pbresp.map RiakPbMessage.plain))
      (TurnLeaves Open Sound rop) := by
  unfold riakReadDispatch RiakClient.riakReadDispatch
  have hplain : (rop.plain f).decoder = rop.decoder := rfl
  rw [hplain]
  cases hdecoder : rop.decoder with
  | none =>
    refine Tracks.pure ⟨pbrespBlocks pbresp, ?_⟩
    rw [add_assoc, add_comm (blocks rop.response)]
  | some decoder =>
    have hkeeps := henv decoder hdecoder
    simp only
    by_cases herr : msgid = MSG_RPBERRORRESP
    · rw [if_pos herr, if_pos herr]
      exact riakReadServerError_tracks f hkeeps.unpack herror pbresp
    · rw [if_neg herr, if_neg herr]
      refine (hkeeps.decode rop pbresp rop.response hopen).step (add_comm _ _) ?_
      rintro result own ⟨lost, hown, hresult⟩
      have hfirst : own + (blocks rop + pbrespBlocks pbresp) =
          pbrespBlocks pbresp + (own + blocks rop) := by abel
      refine (Tracks.free _).frees hfirst ?_
      have hsecond : own + blocks rop = blocks rop.msgbuf + (own + rop.frame) := by
        rw [rop.blocks_eq]
        abel
      refine (Buffer.free_tracks _).frees hsecond ?_
      have hleft : blocks { rop with response := result.resp, msgbuf := none } = rop.frame := by
        rw [RiakOperation.blocks_eq]
        exact zero_add _
      have hsame : (decodedMap f result).err = result.err := rfl
      have hdone : (decodedMap f result).done = result.done := rfl
      rw [hsame, hdone]
      by_cases hok : result.err = .ok
      · obtain ⟨rfl, hsound, hnext⟩ := hresult hok
        rw [add_zero] at hown
        subst hown
        simp only [hok, ne_eq, not_true_eq_false, if_false]
        by_cases hlast : result.done = 0
        · simp only [hlast, not_true_eq_false, if_false]
          refine Tracks.pure ⟨?_, ⟨fun _ => rfl, herror⟩, hnext hlast, hdecoder.symm⟩
          rw [← hdecoder, hleft]
          exact add_comm _ _
        · simp only [hlast, not_false_eq_true, if_true]
          refine Tracks.pure_of ?_ ?_
          · have hevents := responseCbEvents_map f
              { rop with response := result.resp, msgbuf := none }
            exact congrArg (fun later => RiakClient.Turn.mk _ _ _ (_ :: later)) hevents
          · rw [← hdecoder]
            refine ⟨?_, hsound⟩
            rw [hleft]
            exact add_comm _ _
      · simp only [hok, ne_eq, not_false_eq_true, if_true]
        refine Tracks.pure ⟨lost, ?_⟩
        rw [← hdecoder, hleft, hown]
        exact add_comm _ _

theorem TurnLeaves.congr {rop' : RiakOperation ρ} (hresponse : rop'.response = rop.response)
    (hdecoder : rop'.decoder = rop.decoder) {turn : Turn ρ} {after : Multiset Addr}
    (h : TurnLeaves Open Sound rop' turn after) : TurnLeaves Open Sound rop turn after := by
  unfold TurnLeaves at h ⊢
  rwa [hresponse, hdecoder] at h

/-- **What a turn leaves.** -/
theorem riakReadTurn_tracks (himp : ∀ resp, Open resp → Sound resp)
    (henv : ∀ decoder, rop.decoder = some decoder → env.Keeps plainEnv f Open Sound decoder)
    (hbetween : rop.Between) (hopen : Open rop.response) (done : RiakBoolean) (r : ReadResult) :
    Tracks (blocks rop + blocks rop.response) (riakReadTurn env rop done r) (Turn.plain f)
      (RiakClient.riakReadTurn plainEnv (rop.plain f) done r) (TurnLeaves Open Sound rop) := by
  unfold riakReadTurn RiakClient.riakReadTurn
  have hplain : (rop.plain f).msglenComplete = rop.msglenComplete := rfl
  rw [hplain]
  cases hphase : rop.msglenComplete with
  | false => exact riakReadPrefix_tracks f hbetween hphase hopen (himp _ hopen) done r
  | true =>
    simp only [if_true]
    unfold riakReadBody RiakClient.riakReadBody
    refine (riakReadReceive_tracks f rop r).step rfl ?_
    rintro ⟨rop', message⟩ _ ⟨herror, hdecoder, hresponse, rfl⟩
    simp only at herror hdecoder hresponse
    cases message with
    | none =>
      refine Tracks.pure ⟨?_, hresponse ▸ himp _ hopen⟩
      show blocks rop' + 0 + blocks rop.response = blocks rop' + blocks rop'.response
      rw [hresponse, add_zero]
    | some message =>
      obtain ⟨msgid, pbresp⟩ := message
      have hdispatch : Tracks (blocks rop' + pbrespBlocks pbresp + blocks rop'.response)
          (riakReadDispatch env rop' msgid pbresp) (Turn.plain f)
          (RiakClient.riakReadDispatch plainEnv (rop'.plain f) msgid
            (pbresp.map RiakPbMessage.plain)) (TurnLeaves Open Sound rop') := by
        refine riakReadDispatch_tracks ?_ (herror.trans hbetween.error) (hresponse ▸ hopen) msgid
          pbresp
        rw [hdecoder]
        exact henv
      rw [hresponse] at hdispatch
      exact hdispatch.mono fun turn after h => h.congr hresponse hdecoder

/-- What a call leaves, when it comes back. -/
def CallLeaves (Open Sound : Option ρ → Prop) (outcome : ReadOutcome ρ)
    (after : Multiset Addr) : Prop :=
  match outcome.returned with
  | none => True
  | some .ok => after = blocks outcome.rop + blocks outcome.rop.response ∧
      Sound outcome.rop.response
  | some .serverError => outcome.rop.response = none ∧
      ∃ lost, Open lost ∧ after = blocks outcome.rop + blocks lost
  | some .read => ∃ lost, after = blocks outcome.rop + (blocks outcome.rop.response + lost)
  | some _ => False

def ReadOutcome.plain (f : ρ → ρ') (outcome : ReadOutcome ρ) : RiakClient.ReadOutcome ρ' where
  returned := outcome.returned
  rop := outcome.rop.plain f
  done := outcome.done
  events := outcome.events.map (eventMap f)
  unused := outcome.unused

/-- **What a call leaves**, however often it reads. -/
theorem riakReadLoop_tracks (himp : ∀ resp, Open resp → Sound resp)
    {decoder : Option RiakResponseDecoder}
    (henv : ∀ d, decoder = some d → env.Keeps plainEnv f Open Sound d) :
    ∀ (results : List ReadResult) (rop : RiakOperation ρ) (done : RiakBoolean),
      rop.decoder = decoder → rop.Between → Open rop.response →
      Tracks (blocks rop + blocks rop.response) (riakReadLoop env rop done results)
        (ReadOutcome.plain f) (RiakClient.riakReadLoop plainEnv (rop.plain f) done results)
        (CallLeaves Open Sound) := by
  intro results
  induction results with
  | nil =>
    intro rop done _ _ _
    exact Tracks.pure trivial
  | cons r results ih =>
    intro rop done hdecoder hbetween hopen
    subst hdecoder
    unfold riakReadLoop RiakClient.riakReadLoop
    refine (riakReadTurn_tracks himp henv hbetween hopen done r).bind ?_
    rintro turn own hturn
    have hexit : (turn.plain f).exit = turn.exit := rfl
    rw [hexit]
    unfold TurnLeaves at hturn
    cases hcase : turn.exit with
    | none =>
      rw [hcase] at hturn
      obtain ⟨rfl, hbetween', hopen', hdecoder'⟩ := hturn
      refine (ih turn.rop turn.done hdecoder' hbetween' hopen').bind ?_
      rintro outcome own houtcome
      refine Tracks.pure_of ?_ houtcome
      have hevents : (turn.events ++ outcome.events).map (eventMap f) =
          (turn.plain f).events ++ (outcome.plain f).events := List.map_append
      exact congrArg (fun events => RiakClient.ReadOutcome.mk _ _ _ events _) hevents
    | some err =>
      rw [hcase] at hturn
      refine Tracks.pure ?_
      cases err with
      | ok => exact hturn
      | serverError => exact ⟨hturn.1, rop.response, hopen, hturn.2⟩
      | _ => exact hturn

/-! ### Synchronous requests -/

structure SyncOutcome (ρ : Type) where
  returned : Option RiakError
  response : Option ρ
  events : List (ReadEvent ρ)

def SyncOutcome.plain (f : ρ → ρ') (outcome : SyncOutcome ρ) : RiakClient.SyncOutcome ρ' :=
  ⟨outcome.returned, outcome.response.map f, outcome.events.map (eventMap f)⟩

def riakSyncRequest {σ : Type} (env : ReadEnv ρ) (rop : RiakOperation ρ)
    (writeCb : σ → Bytes → Int × σ) (s : σ) (results : List ReadResult) (response : Option ρ) :
    Booked (SyncOutcome ρ) := do
  let wrote ← lift (riakWrite (rop.plain id) writeCb s)
  if wrote.1 ≠ .ok then do
    riakOperationFree rop
    pure ⟨some wrote.1, response, []⟩
  else do
    let outcome ← riakReadLoop env rop 0 results
    match outcome.returned with
    | none => pure ⟨none, response, outcome.events⟩
    | some err => do
        riakOperationFree outcome.rop
        pure ⟨some err, outcome.rop.response, outcome.events⟩

/-- What a synchronous request leaves, when it comes back: the response if it
    succeeds, nothing if the request cannot be sent, the response so far if the server
    reports an error, and what the decoder has lost besides if it fails to read. There
    is no other error. -/
def SyncLeaves (Open Sound : Option ρ → Prop) (outcome : SyncOutcome ρ)
    (after : Multiset Addr) : Prop :=
  match outcome.returned with
  | some .ok => after = blocks outcome.response ∧ Sound outcome.response
  | some .write => outcome.response = none ∧ after = 0
  | some .serverError => outcome.response = none ∧ ∃ lost, Open lost ∧ after = blocks lost
  | some .read => ∃ lost, after = blocks outcome.response + lost
  | some _ => False
  | none => True

/-- **A synchronous request frees its operation**, whatever the socket does and
    whatever memory there is, and what is left is the response. -/
theorem riakSyncRequest_tracks {σ : Type} (himp : ∀ resp, Open resp → Sound resp)
    (henv : ∀ d, rop.decoder = some d → env.Keeps plainEnv f Open Sound d) (hbetween : rop.Between)
    (hresponse : rop.response = none) (hopen : Open none) (writeCb : σ → Bytes → Int × σ) (s : σ)
    (results : List ReadResult) :
    Tracks (blocks rop) (riakSyncRequest env rop writeCb s results none) (SyncOutcome.plain f)
      (RiakClient.riakSyncRequest plainEnv (rop.plain f) writeCb s results none)
      (SyncLeaves Open Sound) := by
  have hwrite : riakWrite (rop.plain f) writeCb s = riakWrite (rop.plain id) writeCb s := rfl
  unfold riakSyncRequest RiakClient.riakSyncRequest RiakClient.riakRead
  rw [hwrite]
  refine Tracks.lift_bind ?_
  intro wrote heap final hwrote
  by_cases hsent : wrote.1 = .ok
  · rw [if_neg (fun hne => hne hsent), if_neg (fun hne => hne hsent)]
    have hread := riakReadLoop_tracks himp henv results rop 0 rfl hbetween (hresponse ▸ hopen)
    rw [hresponse, blocks_none, add_zero] at hread
    refine hread.bind ?_
    intro outcome own hleft
    have hreturned : (outcome.plain f).returned = outcome.returned := rfl
    rw [hreturned]
    unfold CallLeaves at hleft
    cases hcase : outcome.returned with
    | none => exact Tracks.pure trivial
    | some err =>
      rw [hcase] at hleft
      have hfree := riakOperationFree_tracks outcome.rop
      cases err with
      | ok => exact hfree.frees hleft.1 (Tracks.pure ⟨rfl, hleft.2⟩)
      | serverError =>
        obtain ⟨hnone, lost, hlost, hown⟩ := hleft
        exact hfree.frees hown (Tracks.pure ⟨hnone, lost, hlost, rfl⟩)
      | read =>
        obtain ⟨lost, hown⟩ := hleft
        exact hfree.frees hown (Tracks.pure ⟨lost, rfl⟩)
      | _ => exact absurd hleft id
  · rw [if_pos hsent, if_pos hsent]
    refine (riakOperationFree_tracks rop).frees (add_zero _).symm (Tracks.pure ?_)
    have herr : wrote.1 = .write := (riakWrite_error hwrote).resolve_left hsent
    unfold SyncLeaves
    rw [herr]
    exact ⟨rfl, rfl⟩

end Turns

end Reading

end RiakClient.Stored
