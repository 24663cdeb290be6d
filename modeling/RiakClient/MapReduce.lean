import RiakClient.Streaming

/-!
# Map/reduce responses

`riak_mapreduce_response_decode` keeps every message like the other streaming
decoders. The array of messages for the application is rebuilt from all of them
whenever the response is assembled, which a decoder that does not stream puts off
to the last message; the number of messages counts each of them at once.

The array is asked for before its messages, and each of those takes two requests, one
for the struct and one for its binary. A struct that is refused ends the loop, which
leaves NULL in place of the array under a count that stays; a binary that is refused is
not noticed.
-/

namespace RiakClient

open CSem

variable {ρ : Type}

structure RiakMapreduceMessage where
  hasPhase : Bool := false
  phase : UInt32 := 0
  hasResponse : Bool := false
  response : Option RiakBinary := none
  hasDone : Bool := false
  done : RiakBoolean := 0
deriving DecidableEq, Repr

structure RiakMapreduceResponse where
  msg : Ptr (List (Ptr RiakMapreduceMessage)) := .null
  raw : RawMessages RpbMapRedResp := {}
deriving DecidableEq, Repr

/-- The loop over the raw messages; `none` is its error branch. -/
def mapreduceMessages (internal : List (Ptr RpbMapRedResp)) :
    Nat → Nat → C (Option (List (Ptr RiakMapreduceMessage)))
  | 0, _ => pure (some [])
  | left + 1, i => do
      let cell ← C.readAt internal i
      if ← C.allocate then
        let rpbResponse ← cell.deref
        let response ← riakBinaryCopyFromPb rpbResponse.response
        match ← mapreduceMessages internal left (← C.intSucc i) with
        | none => pure none
        | some slots =>
            pure (some (.obj {
              hasPhase := rpbResponse.hasPhase, phase := rpbResponse.phase
              hasResponse := rpbResponse.hasResponse, response := response
              hasDone := rpbResponse.hasDone, done := rpbResponse.done } :: slots))
      else pure none

/-- "Assemble a user-consumable response". -/
def riakMapreduceAssemble (response : RiakMapreduceResponse) :
    C (RiakError × RiakMapreduceResponse) := do
  if ← C.allocate then
    let internal ← response.raw.internal.deref
    match ← mapreduceMessages internal response.raw.nResponses.toNat 0 with
    | none => pure (.outOfMemory, { response with msg := .null })
    | some slots => pure (.ok, { response with msg := .obj slots })
  else pure (.outOfMemory, { response with msg := .null })

/-- "If we are streaming, i.e., returning partial results or if we have the
    complete message". -/
def riakMapreduceAssembleIf (wanted : Prop) [Decidable wanted]
    (response : RiakMapreduceResponse) : C (RiakError × RiakMapreduceResponse) :=
  if wanted then riakMapreduceAssemble response else pure (.ok, response)

def riakMapreduceResponseDecode (unpack : Bytes → Option RpbMapRedResp) (rop : RiakOperation ρ)
    (pbresp : RiakPbMessage) (resp : Option RiakMapreduceResponse) (done : RiakBoolean) :
    C (Decoded RiakMapreduceResponse) := do
  match unpack (← pbresp.payload) with
  | none => pure ⟨.messageFormat, resp, done⟩
  | some rpbresp =>
      match ← existingOr resp {} with
      | none => pure ⟨.outOfMemory, resp, done⟩
      | some response =>
          let done := doneFlag rpbresp.hasDone rpbresp.done
          match ← response.raw.add rpbresp with
          | (false, raw) =>
              pure ⟨.outOfMemory, leftIn resp { response with raw := raw }, done⟩
          | (true, raw) =>
              let (err, response) ←
                riakMapreduceAssembleIf (rop.streaming ∨ done ≠ 0) { response with raw := raw }
              if err = .ok then pure ⟨.ok, some response, done⟩
              else pure ⟨err, leftIn resp response, done⟩

end RiakClient
