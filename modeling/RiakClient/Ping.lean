import RiakClient.Read

/-!
# Ping

`riak_ping.c`: the request and the response without a payload.
-/

namespace RiakClient

open CSem

variable {ρ : Type} {heap : Heap}

/-- `_riak_ping_response`. -/
structure RiakPingResponse where
  success : RiakBoolean
deriving DecidableEq, Repr

def riakPingRequestEncode (rop : RiakOperation ρ) : C (RiakError × RiakOperation ρ) :=
  riakEmptyRequest rop MSG_RPBPINGREQ .ping

/-- `riak_ping_response_decode`, which looks at nothing of the message. -/
def riakPingResponseDecode (resp : Option RiakPingResponse) : C (Decoded RiakPingResponse) := do
  match ← C.new (⟨1⟩ : RiakPingResponse) with
  | none => pure ⟨.outOfMemory, resp, 1⟩
  | some response => pure ⟨.ok, some response, 1⟩

theorem riakPingResponseDecode_of_ample (h : heap.Ample) (resp : Option RiakPingResponse) :
    riakPingResponseDecode resp heap = .ok (⟨.ok, some ⟨1⟩, 1⟩, heap) := by
  unfold riakPingResponseDecode
  rw [C.bind_of_ok (C.new_of_ample h _)]
  rfl

/-- The environment of a ping: the only decoder it installs is its own.
    `rpbErrorRespUnpack` is protobuf-c for an error message. -/
def pingReadEnv (rpbErrorRespUnpack : Bytes → Option RpbErrorResp) : ReadEnv RiakPingResponse where
  decode _ _ _ resp _ := riakPingResponseDecode resp
  rpbErrorRespUnpack := rpbErrorRespUnpack

/-- An operation that waits for its ping response. -/
def pingSent : RiakOperation RiakPingResponse := { decoder := some .ping }

end RiakClient
