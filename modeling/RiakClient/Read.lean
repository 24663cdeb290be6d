import RiakClient.Framing
import RiakClient.Operation

/-!
# Reading and writing messages

`riak_read` and `riak_write`. A call of `riak_read` is a loop around `read_cb`,
and what is left in the operation when it returns lets the next call go on in
the middle of a message. The model takes the loop apart into turns: a turn is
one call of `read_cb` and everything up to the next one, or up to the return.
The host is little-endian.
-/

namespace RiakClient

open CSem Framing

variable {ρ : Type} {heap final : Heap}

/-! ### The memory of a `riak_uint32_t` -/

/-- The four bytes of a `riak_uint32_t` in memory. -/
def hostBytes (word : UInt32) : Bytes := littleEndian 4 word.toNat

/-- The `riak_uint32_t` that four bytes of memory are. -/
def hostWord (memory : Bytes) : UInt32 := UInt32.ofNat (leValue memory)

/-- `ntohl` reads the same bytes with the highest first. -/
def ntohl (word : UInt32) : UInt32 := UInt32.ofNat (beValue (hostBytes word))

/-- `htonl` puts the highest byte first. -/
def htonl (word : UInt32) : UInt32 := hostWord (bigEndian 4 word.toNat)

/-! ### Callbacks

What `read_cb` does is an input: the bytes that it stores, or a negative number, for
each of its calls. The decoder and protobuf-c are parameters, and everything that the
application can see of a read is an event. -/

/-- What a call of `read_cb` does: it stores bytes and returns how many, or it
    returns the negative number `-1 - e`. -/
inductive ReadResult where
  | received (bytes : Bytes)
  | failed (e : Nat)
deriving DecidableEq, Repr

/-- The bytes stored in the buffer. -/
def ReadResult.bytes : ReadResult → Bytes
  | received bytes => bytes
  | failed _ => []

/-- The result as the `riak_size_t` it is assigned to. -/
def ReadResult.buflen : ReadResult → Nat
  | received bytes => bytes.length
  | failed e => 2 ^ 64 - 1 - e % 2 ^ 63

@[simp] theorem ReadResult.bytes_received (bytes : Bytes) : (received bytes).bytes = bytes := rfl

@[simp] theorem ReadResult.buflen_received (bytes : Bytes) :
    (received bytes).buflen = bytes.length := rfl

/-- The code outside `riak.c` that a read calls: the decoders, and protobuf-c
    for an error message. -/
structure ReadEnv (ρ : Type) where
  decode : RiakResponseDecoder → RiakOperation ρ → Option RiakPbMessage → Option ρ →
    RiakBoolean → C (Decoded ρ)
  rpbErrorRespUnpack : Bytes → Option RpbErrorResp

/-- What the application can see of a read. -/
inductive ReadEvent (ρ : Type) where
  | decoded (pbresp : Option RiakPbMessage) (result : Decoded ρ)
  | responseCb (cb : RiakResponseCallback) (response : Option ρ)
  | errorCb (cb : RiakResponseCallback) (response : RiakServerErrorResponse)
deriving DecidableEq, Repr

/-- The end of a turn: the operation, `*done_streaming`, the value returned if
    the call is over, and what happened. -/
structure Turn (ρ : Type) where
  rop : RiakOperation ρ
  done : RiakBoolean
  exit : Option RiakError := none
  events : List (ReadEvent ρ) := []
deriving DecidableEq, Repr

/-- The request that a read of an operation makes next: where the bytes are to go
    and how many are asked for. -/
inductive ReadRequest where
  | lengthPrefix (offset count : Nat)
  | body (offset count : Nat)
deriving DecidableEq, Repr

/-- `sizeof(inmsglen) - rop->position` is a `riak_size_t`, and
    `rop->msglen - rop->position` a `riak_uint32_t`. -/
def RiakOperation.readRequest (rop : RiakOperation ρ) : ReadRequest :=
  if rop.msglenComplete then .body rop.position.toNat (rop.msglen - rop.position).toNat
  else .lengthPrefix rop.position.toNat ((2 ^ 64 + 4 - rop.position.toNat) % 2 ^ 64)

def ReadRequest.count : ReadRequest → Nat
  | lengthPrefix _ count => count
  | body _ count => count

/-! ### Errors sent by the server -/

/-- `riak_server_error_new`, which stores through its `err` argument. -/
def riakServerErrorNew (err : Option RiakServerError) (errcode : UInt32)
    (errmsg : Option RiakBinary) : C (RiakError × Option RiakServerError) := do
  if ← C.allocate then
    match ← riakBinaryCopy errmsg with
    | none => pure (.outOfMemory, none)
    | some copy => pure (.ok, some ⟨errcode, some copy⟩)
  else pure (.outOfMemory, err)

/-- Call a callback of the application, if there is one. -/
def errorCbEvents (rop : RiakOperation ρ) (response : RiakServerErrorResponse) :
    List (ReadEvent ρ) :=
  match rop.errorCb with
  | none => []
  | some cb => [.errorCb cb response]

def responseCbEvents (rop : RiakOperation ρ) : List (ReadEvent ρ) :=
  match rop.responseCb with
  | none => []
  | some cb => [.responseCb cb rop.response]

/-- What `riak_server_error_response_decode` leaves behind. Its target is left
    dangling when the error itself cannot be stored. -/
structure ServerErrorDecoded (ρ : Type) where
  err : RiakError
  resp : Ptr RiakServerErrorResponse
  done : RiakBoolean
  rop : RiakOperation ρ
  events : List (ReadEvent ρ)

def riakServerErrorResponseDecode (unpack : Bytes → Option RpbErrorResp) (rop : RiakOperation ρ)
    (pbresp : Option RiakPbMessage) (done : RiakBoolean) : C (ServerErrorDecoded ρ) := do
  let message ← C.deref pbresp
  match unpack (← message.payload) with
  | none => pure ⟨.messageFormat, .null, done, rop, []⟩
  | some errresp =>
      if ← C.allocate then
        match ← riakBinaryCopyFromPb errresp.errmsg with
        | none => pure ⟨.outOfMemory, .null, 1, rop, []⟩
        | some errmsg =>
            let response : RiakServerErrorResponse := ⟨errresp.errcode, some errmsg⟩
            let events := errorCbEvents rop response
            let (err, error) ← riakServerErrorNew rop.error response.errcode response.errmsg
            let rop := { rop with error := error }
            if err = .ok then pure ⟨.ok, .obj response, 1, rop, events⟩
            else pure ⟨err, .wild, 1, rop, events⟩
      else pure ⟨.outOfMemory, .null, 1, rop, []⟩

/-! ### The turns of a read

A turn in the length is `riakReadPrefix`, a turn in the body is `riakReadBody`: store
the bytes, take a complete message out of the operation, and dispatch it. Both say of
the call whether it is over. -/

/-- "Read the first 32-bits which are the message size". -/
def riakReadPrefix (rop : RiakOperation ρ) (done : RiakBoolean) (r : ReadResult) :
    C (Turn ρ) := do
  let inmsglen ← C.copyAt (hostBytes rop.msglen) rop.position.toNat r.bytes
  if r.buflen ≠ rop.readRequest.count then
    if r.buflen = 0 then pure { rop := rop, done := done, exit := some .ok }
    else if r.buflen < 4 then
      -- "Stuff the partial size into rop->msglen and note the position"
      pure {
        rop := { rop with position := UInt32.ofNat r.buflen, msglen := hostWord inmsglen }
        done := done
        exit := some .ok }
    else pure { rop := rop, done := done, exit := some .read }
  else
    let msglen := ntohl (hostWord inmsglen)
    match ← C.newBytes msglen.toNat with
    | none =>
        pure {
          rop := { rop with msglenComplete := true, msglen := msglen, msgbuf := none }
          done := done
          exit := some .read }
    | some msgbuf =>
        pure {
          rop := { rop with msglenComplete := true, msglen := msglen, msgbuf := some msgbuf }
          done := done }

/-- What `read_cb` makes of `rop->msgbuf`. A NULL buffer is harmless only if
    nothing is read into it. -/
def riakReadInto (rop : RiakOperation ρ) (r : ReadResult) : C (Option Bytes) :=
  if r.bytes = [] then pure rop.msgbuf
  else some <$> (C.deref rop.msgbuf >>= fun msgbuf =>
    C.copyAt msgbuf rop.position.toNat r.bytes)

/-- What the body part of a read does before the message is complete: store the
    bytes and count them. -/
def riakReadStore (rop : RiakOperation ρ) (r : ReadResult) : C (RiakOperation ρ) := do
  let msgbuf ← riakReadInto rop r
  pure { rop with position := rop.position + UInt32.ofNat r.buflen, msgbuf := msgbuf }

/-- Store the bytes; with the last one, take the whole message out of the
    operation. `none` means that the message is not complete. -/
def riakReadReceive (rop : RiakOperation ρ) (r : ReadResult) :
    C (RiakOperation ρ × Option (UInt8 × Option RiakPbMessage)) := do
  let rop ← riakReadStore rop r
  if rop.position < rop.msglen then pure (rop, none)
  else if rop.position ≠ rop.msglen then C.fault .assertionFailed
  else
    let msgbuf ← C.deref rop.msgbuf
    let msgid ← C.readAt msgbuf 0
    let pbresp ← riakPbMessageNew msgid rop.msglen.toNat msgbuf
    pure ({ rop with position := 0, msglen := 0, msglenComplete := false }, some (msgid, pbresp))

/-- "Convert error response": the decoded error is read without a check, and the
    error callback is called a second time. -/
def riakReadServerError (env : ReadEnv ρ) (rop : RiakOperation ρ)
    (pbresp : Option RiakPbMessage) : C (Turn ρ) := do
  let decoded ← riakServerErrorResponseDecode env.rpbErrorRespUnpack rop pbresp 1
  let errResponse ← decoded.resp.deref
  pure {
    rop := { decoded.rop with response := none }
    done := decoded.done
    exit := some .serverError
    events := decoded.events ++ errorCbEvents decoded.rop errResponse }

/-- What becomes of a complete message. -/
def riakReadDispatch (env : ReadEnv ρ) (rop : RiakOperation ρ) (msgid : UInt8)
    (pbresp : Option RiakPbMessage) : C (Turn ρ) := do
  -- "Assume we are doing a single loop, unless told otherwise"
  match rop.decoder with
  | none => pure { rop := rop, done := 1, exit := some .read }
  | some decoder =>
      if msgid = MSG_RPBERRORRESP then riakReadServerError env rop pbresp
      else
        let result ← env.decode decoder rop pbresp rop.response 1
        let rop := { rop with response := result.resp, msgbuf := none }
        if result.err ≠ .ok then
          pure { rop := rop, done := result.done, exit := some .read,
                 events := [.decoded pbresp result] }
        else if result.done ≠ 0 then
          pure { rop := rop, done := result.done, exit := some .ok,
                 events := .decoded pbresp result :: responseCbEvents rop }
        else pure { rop := rop, done := result.done, events := [.decoded pbresp result] }

def riakReadBody (env : ReadEnv ρ) (rop : RiakOperation ρ) (done : RiakBoolean)
    (r : ReadResult) : C (Turn ρ) := do
  match ← riakReadReceive rop r with
  | (rop, none) => pure { rop := rop, done := done, exit := some .ok }
  | (rop, some (msgid, pbresp)) => riakReadDispatch env rop msgid pbresp

/-- One call of `read_cb`, which returns `r`, and what follows. -/
def riakReadTurn (env : ReadEnv ρ) (rop : RiakOperation ρ) (done : RiakBoolean)
    (r : ReadResult) : C (Turn ρ) :=
  if rop.msglenComplete then riakReadBody env rop done r else riakReadPrefix rop done r

/-! ### The whole call -/

/-- The end of a call of `riak_read` on a socket whose reads return the given
    results: it has returned, or it waits for the next result. -/
structure ReadOutcome (ρ : Type) where
  returned : Option RiakError
  rop : RiakOperation ρ
  done : RiakBoolean
  events : List (ReadEvent ρ)
  unused : List ReadResult

def riakReadLoop (env : ReadEnv ρ) (rop : RiakOperation ρ) (done : RiakBoolean) :
    List ReadResult → C (ReadOutcome ρ)
  | [] => pure ⟨none, rop, done, [], []⟩
  | r :: results => do
      let turn ← riakReadTurn env rop done r
      match turn.exit with
      | some err => pure ⟨some err, turn.rop, turn.done, turn.events, results⟩
      | none =>
          let outcome ← riakReadLoop env turn.rop turn.done results
          pure { outcome with events := turn.events ++ outcome.events }

def riakRead (env : ReadEnv ρ) (rop : RiakOperation ρ) (results : List ReadResult) :
    C (ReadOutcome ρ) :=
  riakReadLoop env rop 0 results

/-! ### Writing -/

/-- `wrote` is a `riak_int32_t`, and only zero counts as a failure. -/
def wroteNothing (wrote : Int) : Bool := wrote % 2 ^ 32 = 0

/-- `riak_write`, with a callback that has a state of its own. -/
def riakWrite {σ : Type} (rop : RiakOperation ρ) (writeCb : σ → Bytes → Int × σ) (s : σ) :
    C (RiakError × σ) := do
  let msg ← C.deref rop.pbRequest
  if msg.data.length < msg.len.toNat then C.fault .outOfBounds
  else
    let (wrote, s) := writeCb s (hostBytes (htonl (msg.len + 1)))
    if wroteNothing wrote then pure (.write, s)
    else
      let (wrote, s) := writeCb s [msg.msgid]
      if wroteNothing wrote then pure (.write, s)
      else if 0 < msg.len then
        let (wrote, s) := writeCb s (msg.data.take msg.len.toNat)
        if wroteNothing wrote then pure (.write, s) else pure (.ok, s)
      else pure (.ok, s)

/-- A write callback that writes everything it is given. -/
def writeEverything (sent data : Bytes) : Int × Bytes := (data.length, sent ++ data)

end RiakClient
