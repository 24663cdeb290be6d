import RiakClient.EventLoop
import RiakClient.Prepared
import RiakClient.Replies

/-!
# Asynchronous calls

An operation that the application makes, registers and hands to the libevent
adapter, from `riak_operation_new` to the last frame of the answer.

The registered operation is what `Prepared` says, its decoder gathers what `Replies`
says, and the run of the event loop is the one of `EventLoop`; this module puts the
three together.
-/

namespace RiakClient

open CSem Framing LabelledRun

variable {β : Type} {heap final : Heap} {api : BuffereventApi β}

/-- The operation that an application gets: a new one, with the call registered on
    it. -/
def riakAsyncCall (packs : Packers) (call : RiakCall)
    (responseCb errorCb : Option RiakResponseCallback) (streaming : RiakBoolean) :
    C (RiakError × RiakOperation RiakResponse) := do
  let new ← riakOperationNew none errorCb
  if new.1 ≠ .ok then pure new else call.register packs new.2 responseCb streaming

theorem RiakCall.registered_decoder (call : RiakCall) : call.registered.decoder = call.decoder := by
  cases call <;> rfl

/-- It has the callbacks of the application, and is between two frames of a stream
    that is to come. -/
theorem riakAsyncCall_eq_ok {packs : Packers} {call : RiakCall}
    {responseCb errorCb : Option RiakResponseCallback} {streaming : RiakBoolean}
    {rop : RiakOperation RiakResponse}
    (h : riakAsyncCall packs call responseCb errorCb streaming heap = .ok ((.ok, rop), final)) :
    rop.decoder = some call.decoder ∧ rop.Idle ∧ rop.streaming = false ∧ rop.response = none ∧
      rop.responseCb = responseCb ∧ rop.errorCb = errorCb := by
  unfold riakAsyncCall at h
  obtain ⟨new, heap₁, hnew, h⟩ := C.bind_eq_ok.mp h
  have hfresh : new = (.ok, { errorCb := errorCb }) := by
    unfold riakOperationNew at hnew
    obtain ⟨slot, heap₂, hslot, hnew⟩ := C.bind_eq_ok.mp hnew
    rcases C.new_eq_ok hslot with rfl | rfl
    · cases hnew
      rfl
    · cases hnew
  subst hfresh
  have hregister : call.register packs ({ errorCb := errorCb } : RiakOperation RiakResponse)
      responseCb streaming heap₁ = .ok ((.ok, rop), final) := h
  rw [RiakCall.register_eq] at hregister
  have hprepares := call.registered.encode_prepares packs _ _ _ _ hregister
  rw [call.registered_decoder] at hprepares
  have hstream := hprepares.stream
  exact ⟨hprepares.decoder rfl, ⟨hstream.position, hstream.msglen, hstream.msglenComplete⟩,
    hstream.streaming, hstream.response, hstream.responseCb, hstream.errorCb⟩

/-- The operation of a listing of the bucket `b`. -/
def keysRegistered : RiakOperation RiakResponse where
  decoder := some .listkeys
  responseCb := some 1
  errorCb := some 2
  pbRequest := some ⟨17, 3, [0x0a, 1, 0x62]⟩

/-- It has got half of the first frame of the answer. -/
def keysPart : RiakOperation RiakResponse :=
  { keysRegistered with
    position := 2, msglen := 4, msglenComplete := true, msgbuf := some [18, 0x0a, 0, 0] }

end RiakClient
