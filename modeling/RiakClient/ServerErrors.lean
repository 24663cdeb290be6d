import RiakClient.Callbacks

/-!
# Errors of the server

What `riak_read` makes of an error frame, for every payload and every answer of
the allocator. The decoder reports a failure in its result, which nobody reads,
and leaves the error response NULL or freed, which the caller follows.

The decoder asks for five pieces of memory. With all of them the error of the server
is in the operation, with a text that is a copy of its own; without one of them, or
without a payload that unpacks, the response that the caller follows is NULL or freed.
-/

namespace RiakClient

open CSem Framing

variable {ρ : Type} {heap final : Heap} {env : ReadEnv ρ}

/-! ### The error of the operation -/

theorem riakServerErrorNew_granted (h : heap.Grants 3) (err : Option RiakServerError)
    (errcode : UInt32) (errmsg : RiakBinary) :
    riakServerErrorNew err errcode (some errmsg) heap =
      .ok ((.ok, some ⟨errcode, some ⟨errmsg.data, true⟩⟩), heap.after 3) := by
  obtain ⟨herror, hcopy⟩ := (Heap.grants_succ heap 2).mp h
  unfold riakServerErrorNew
  rw [C.bind_of_ok (C.allocate_eq heap), if_pos herror, riakBinaryCopy,
    C.bind_of_ok (riakBinaryNew_granted hcopy _), Heap.after_after]
  rfl

theorem riakServerErrorNew_refused (h : ¬ heap.Grants 3) (err : Option RiakServerError)
    (errcode : UInt32) (errmsg : RiakBinary) :
    ∃ error final, riakServerErrorNew err errcode (some errmsg) heap =
      .ok ((.outOfMemory, error), final) := by
  unfold riakServerErrorNew
  rw [C.bind_of_ok (C.allocate_eq heap)]
  cases herror : heap.answer 0 with
  | false => exact ⟨_, _, rfl⟩
  | true =>
    have hcopy : ¬ (heap.after 1).Grants 2 := fun hcopy =>
      h ((Heap.grants_succ heap 2).mpr ⟨herror, hcopy⟩)
    obtain ⟨final, hrefused⟩ := riakBinaryNew_refused hcopy errmsg.data
    rw [if_pos rfl, riakBinaryCopy, C.bind_of_ok hrefused]
    exact ⟨_, _, rfl⟩

/-! ### The decoder of errors -/

/-- The error that the server sent is in the operation, with a text that is a copy of
    its own. -/
def ErrorStored (rop : RiakOperation ρ) (errresp : RpbErrorResp) : Prop :=
  rop.error = some ⟨errresp.errcode, some ⟨errresp.errmsg, true⟩⟩

/-- With five requests granted the response can be followed, and the error is
    stored. -/
theorem riakServerErrorResponseDecode_granted (h : heap.Grants 5)
    {unpack : Bytes → Option RpbErrorResp} {message : RiakPbMessage} {payload : Bytes}
    {errresp : RpbErrorResp} (hpayload : message.payload = pure payload)
    (hunpack : unpack payload = some errresp) (rop : RiakOperation ρ) (done : RiakBoolean) :
    ∃ decoded response,
      riakServerErrorResponseDecode unpack rop (some message) done heap =
        .ok (decoded, heap.after 5) ∧
      decoded.resp = .obj response ∧ ErrorStored decoded.rop errresp := by
  obtain ⟨hresponse, h⟩ := (Heap.grants_succ heap 4).mp h
  obtain ⟨herrmsg, herror⟩ := (Heap.grants_succ _ 3).mp h
  have hcopied : riakBinaryCopyFromPb errresp.errmsg (heap.after 1) =
      .ok (some ⟨errresp.errmsg, false⟩, (heap.after 1).after 1) := by
    unfold riakBinaryCopyFromPb
    rw [C.new_eq, if_pos herrmsg]
  have hstored := riakServerErrorNew_granted herror rop.error errresp.errcode
    ⟨errresp.errmsg, false⟩
  rw [Heap.after_after, Heap.after_after] at hstored
  unfold riakServerErrorResponseDecode
  rw [C.deref_some, pure_bind, hpayload, pure_bind, hunpack]
  simp only
  rw [C.bind_of_ok (C.allocate_eq heap), if_pos hresponse, C.bind_of_ok hcopied]
  simp only
  rw [Heap.after_after, C.bind_of_ok hstored]
  exact ⟨_, _, rfl, rfl, rfl⟩

theorem riakServerErrorResponseDecode_refused {unpack : Bytes → Option RpbErrorResp}
    {message : RiakPbMessage} {payload : Bytes} (hpayload : message.payload = pure payload)
    (h : ∀ errresp, unpack payload = some errresp → ¬ heap.Grants 5) (rop : RiakOperation ρ)
    (done : RiakBoolean) :
    ∃ decoded final,
      riakServerErrorResponseDecode unpack rop (some message) done heap = .ok (decoded, final) ∧
      (decoded.resp = .null ∨ decoded.resp = .wild) := by
  unfold riakServerErrorResponseDecode
  rw [C.deref_some, pure_bind, hpayload, pure_bind]
  cases hunpack : unpack payload with
  | none => exact ⟨_, _, rfl, Or.inl rfl⟩
  | some errresp =>
    simp only
    rw [C.bind_of_ok (C.allocate_eq heap)]
    cases hresponse : heap.answer 0 with
    | false => exact ⟨_, _, rfl, Or.inl rfl⟩
    | true =>
      rw [if_pos rfl, riakBinaryCopyFromPb, C.bind_of_ok (C.new_eq _ _)]
      cases herrmsg : (heap.after 1).answer 0 with
      | false => exact ⟨_, _, rfl, Or.inl rfl⟩
      | true =>
        have herror : ¬ ((heap.after 1).after 1).Grants 3 := fun herror =>
          h errresp hunpack ((Heap.grants_succ heap 4).mpr
            ⟨hresponse, (Heap.grants_succ _ 3).mpr ⟨herrmsg, herror⟩⟩)
        obtain ⟨error, final, hrefused⟩ := riakServerErrorNew_refused herror rop.error
          errresp.errcode ⟨errresp.errmsg, false⟩
        simp only [if_true]
        rw [C.bind_of_ok hrefused]
        exact ⟨_, _, rfl, Or.inr rfl⟩

/-! ### Dispatching an error frame -/

/-- The frame of an error with this payload, as it is handed to the decoder. -/
def errorMessage (payload : Bytes) : WireMessage := ⟨MSG_RPBERRORRESP, payload⟩

theorem errorMessage_payload {payload : Bytes} (hlength : payload.length < 2 ^ 32 - 1) :
    (errorMessage payload).received.payload = pure payload :=
  WireMessage.received_payload hlength

theorem riakReadDispatch_noMessage {rop : RiakOperation ρ} (hdecoder : rop.decoder.isSome) :
    riakReadDispatch env rop MSG_RPBERRORRESP none heap = .error .nullDereference := by
  obtain ⟨decoder, hdecoder⟩ := Option.isSome_iff_exists.mp hdecoder
  unfold riakReadDispatch
  rw [hdecoder]
  rfl

theorem riakReadDispatch_error_granted (h : heap.Grants 5) {rop : RiakOperation ρ}
    (hdecoder : rop.decoder.isSome) {payload : Bytes} (hlength : payload.length < 2 ^ 32 - 1)
    {errresp : RpbErrorResp} (hunpack : env.rpbErrorRespUnpack payload = some errresp) :
    ∃ turn, riakReadDispatch env rop MSG_RPBERRORRESP (some (errorMessage payload).received) heap =
        .ok (turn, heap.after 5) ∧
      turn.exit = some .serverError ∧ ErrorStored turn.rop errresp := by
  obtain ⟨decoder, hdecoder⟩ := Option.isSome_iff_exists.mp hdecoder
  obtain ⟨decoded, response, hdecode, hresp, hstored⟩ :=
    riakServerErrorResponseDecode_granted h (errorMessage_payload hlength) hunpack rop 1
  unfold riakReadDispatch riakReadServerError
  rw [hdecoder]
  simp only [if_true]
  rw [C.bind_of_ok hdecode, hresp, Ptr.deref_obj, pure_bind]
  exact ⟨_, rfl, rfl, hstored⟩

theorem riakReadDispatch_error_refused {rop : RiakOperation ρ} (hdecoder : rop.decoder.isSome)
    {payload : Bytes} (hlength : payload.length < 2 ^ 32 - 1)
    (h : ∀ errresp, env.rpbErrorRespUnpack payload = some errresp → ¬ heap.Grants 5) :
    ∃ fault, riakReadDispatch env rop MSG_RPBERRORRESP (some (errorMessage payload).received)
      heap = .error fault := by
  obtain ⟨decoder, hdecoder⟩ := Option.isSome_iff_exists.mp hdecoder
  obtain ⟨decoded, final, hdecode, hresp⟩ :=
    riakServerErrorResponseDecode_refused (errorMessage_payload hlength) h rop 1
  unfold riakReadDispatch riakReadServerError
  rw [hdecoder]
  simp only [if_true]
  rw [C.bind_of_ok hdecode]
  rcases hresp with hnull | hwild
  · exact ⟨.nullDereference, by rw [hnull]; rfl⟩
  · exact ⟨.wildDereference, by rw [hwild]; rfl⟩

/-! ### The call that gets the frame

The frame may be complete at once or after any number of turns that do not end the
call; only the turn that completes it matters. Without a decoder in the operation
nothing is decoded, and the operation keeps the error it had. -/

/-- A call of `riak_read` on an error frame returns an error, and has stored the
    error of the server if its payload unpacks to one and every request is granted. -/
def ErrorHandled (unpacked : Option RpbErrorResp) (granted : Prop)
    (run : Except Fault (ReadOutcome ρ × Heap)) : Prop :=
  ∃ outcome final err, run = .ok (outcome, final) ∧ outcome.returned = some err ∧ err ≠ .ok ∧
    ∀ errresp, unpacked = some errresp → granted → ErrorStored outcome.rop errresp

/-- With a decoder in the operation, the payload unpacks and every request is
    granted; without one, there is nothing to store or it is there already. -/
def ErrorExpected (rop : RiakOperation ρ) (unpacked : Option RpbErrorResp) (granted : Prop) :
    Prop :=
  if rop.decoder.isSome then unpacked.isSome ∧ granted
  else ∀ errresp, unpacked = some errresp → granted → ErrorStored rop errresp

theorem riakReadTurn_body (heap : Heap) {rop : RiakOperation ρ} (m : WireMessage)
    {got left : Bytes} (hstands : Stands rop (.within got left)) (hbody : got ++ left = m.body)
    (done : RiakBoolean) :
    riakReadTurn env rop done (.received left) heap =
      riakReadDispatch env { rop.reset with msgbuf := some m.body } m.msgid
        (if heap.answer 0 then some m.received else none) (heap.after 1) := by
  obtain ⟨hphase, hmsglen, msgbuf, hholds⟩ := hstands
  have htotal : rop.msglen.toNat = m.payload.length + 1 := by
    rw [hmsglen, ← List.length_append, hbody]
    rfl
  have hnew : riakPbMessageNew m.msgid rop.msglen.toNat m.body heap =
      .ok (if heap.answer 0 then some m.received else none, heap.after 1) := by
    unfold riakPbMessageNew
    rw [C.new_eq, htotal]
    rfl
  unfold riakReadTurn riakReadBody
  rw [hphase, if_pos rfl, riakReadReceive_complete hholds hmsglen.symm hbody, bind_assoc,
    show m.msgid :: m.payload = m.body from rfl, C.bind_of_ok hnew, pure_bind]

/-- The turn that completes an error frame. Without a decoder nothing is decoded, and
    the operation keeps the error it had. -/
theorem riakReadTurn_error_skipped (heap : Heap) {rop : RiakOperation ρ} {got left payload : Bytes}
    (hstands : Stands rop (.within got left)) (hbody : got ++ left = (errorMessage payload).body)
    (hdecoder : rop.decoder = none) (done : RiakBoolean) :
    riakReadTurn env rop done (.received left) heap = .ok ({
      rop := { rop.reset with msgbuf := some (errorMessage payload).body }
      done := 1
      exit := some .read }, heap.after 1) := by
  rw [riakReadTurn_body heap _ hstands hbody]
  unfold riakReadDispatch
  rw [show ({ rop.reset with msgbuf := _ } : RiakOperation ρ).decoder = none from hdecoder]
  rfl

theorem riakReadTurn_error_granted {rop : RiakOperation ρ} {got left payload : Bytes}
    (hstands : Stands rop (.within got left)) (hbody : got ++ left = (errorMessage payload).body)
    (hdecoder : rop.decoder.isSome) (hlength : payload.length < 2 ^ 32 - 1)
    (hgrants : heap.Grants 6) {errresp : RpbErrorResp}
    (hunpack : env.rpbErrorRespUnpack payload = some errresp) (done : RiakBoolean) :
    ∃ turn, riakReadTurn env rop done (.received left) heap = .ok (turn, (heap.after 1).after 5) ∧
      turn.exit = some .serverError ∧ ErrorStored turn.rop errresp := by
  obtain ⟨hmessage, hdecode⟩ := (Heap.grants_succ heap 5).mp hgrants
  obtain ⟨turn, hdispatch, hexit, hstored⟩ := @riakReadDispatch_error_granted _ _ env hdecode
    { rop.reset with msgbuf := some (errorMessage payload).body } hdecoder _ hlength _ hunpack
  refine ⟨turn, ?_, hexit, hstored⟩
  rw [riakReadTurn_body heap _ hstands hbody, if_pos hmessage]
  exact hdispatch

/-- A payload that does not unpack, or a refusal, makes the turn follow a pointer to no
    response. -/
theorem riakReadTurn_error_refused {rop : RiakOperation ρ} {got left payload : Bytes}
    (hstands : Stands rop (.within got left)) (hbody : got ++ left = (errorMessage payload).body)
    (hdecoder : rop.decoder.isSome) (hlength : payload.length < 2 ^ 32 - 1)
    (hnot : ¬ ((env.rpbErrorRespUnpack payload).isSome ∧ heap.Grants 6)) (done : RiakBoolean) :
    ∃ fault, riakReadTurn env rop done (.received left) heap = .error fault := by
  have hsome : ({ rop.reset with msgbuf := some (errorMessage payload).body } :
      RiakOperation ρ).decoder.isSome := hdecoder
  rw [riakReadTurn_body heap _ hstands hbody]
  cases hmessage : heap.answer 0 with
  | false => exact ⟨_, riakReadDispatch_noMessage hsome⟩
  | true =>
    apply riakReadDispatch_error_refused hsome hlength
    intro errresp hunpack hdecode
    exact hnot ⟨by rw [hunpack]; rfl, (Heap.grants_succ heap 5).mpr ⟨hmessage, hdecode⟩⟩

theorem errorHandled_of_body (heap : Heap) {rop : RiakOperation ρ} {got left payload : Bytes}
    (hstands : Stands rop (.within got left)) (hbody : got ++ left = (errorMessage payload).body)
    (done : RiakBoolean) (rest : List ReadResult) :
    ErrorHandled (env.rpbErrorRespUnpack payload) (heap.Grants 6)
        (riakReadLoop env rop done (.received left :: rest) heap) ↔
      ErrorExpected rop (env.rpbErrorRespUnpack payload) (heap.Grants 6) := by
  have hlength : payload.length < 2 ^ 32 - 1 := by
    have hmsglen := hstands.2.1
    rw [← List.length_append, hbody] at hmsglen
    have hlt : rop.msglen.toNat < 2 ^ 32 := rop.msglen.toNat_lt
    rw [hmsglen] at hlt
    exact Nat.lt_sub_of_add_lt hlt
  unfold ErrorExpected
  rw [riakReadLoop]
  by_cases hdecoder : rop.decoder.isSome
  · rw [if_pos hdecoder]
    by_cases hready : (env.rpbErrorRespUnpack payload).isSome ∧ heap.Grants 6
    · obtain ⟨errresp, hunpack⟩ := Option.isSome_iff_exists.mp hready.1
      obtain ⟨turn, hturn, hexit, hstored⟩ := riakReadTurn_error_granted hstands hbody hdecoder
        hlength hready.2 hunpack done
      rw [C.bind_of_ok hturn, hexit]
      refine ⟨fun _ => hready, fun _ => ⟨_, _, .serverError, rfl, rfl, by decide, ?_⟩⟩
      intro errresp' hunpack' _
      rw [hunpack] at hunpack'
      cases hunpack'
      exact hstored
    · obtain ⟨fault, hfault⟩ := riakReadTurn_error_refused hstands hbody hdecoder hlength hready done
      rw [C.bind_of_error hfault]
      refine ⟨?_, fun h => absurd h hready⟩
      rintro ⟨_, _, _, hrun, _⟩
      cases hrun
  · have hnone : rop.decoder = none := Option.not_isSome_iff_eq_none.mp hdecoder
    rw [C.bind_of_ok (riakReadTurn_error_skipped heap hstands hbody hnone done), if_neg hdecoder]
    constructor
    · rintro ⟨outcome, final, err, hrun, _, _, hstored⟩
      cases hrun
      exact hstored
    · intro hstored
      exact ⟨_, _, .read, rfl, rfl, by decide, hstored⟩

/-! ### A call that gets the whole frame -/

theorem errorHandled_later {rop : RiakOperation ρ} {done : RiakBoolean} {r : ReadResult}
    {turn : Turn ρ} {heap' : Heap} (hturn : riakReadTurn env rop done r heap = .ok (turn, heap'))
    (hexit : turn.exit = none) (rest : List ReadResult) (unpacked : Option RpbErrorResp)
    (granted : Prop) :
    ErrorHandled unpacked granted (riakReadLoop env rop done (r :: rest) heap) ↔
      ErrorHandled unpacked granted (riakReadLoop env turn.rop turn.done rest heap') := by
  rw [riakReadLoop, C.bind_of_ok hturn, hexit]
  constructor
  · rintro ⟨outcome, final, err, hrun, hreturned, herr, hstored⟩
    obtain ⟨later, heap₁, hlater, hpure⟩ := C.bind_eq_ok.mp hrun
    cases hpure
    exact ⟨later, _, err, hlater, hreturned, herr, hstored⟩
  · rintro ⟨outcome, final, err, hrun, hreturned, herr, hstored⟩
    refine ⟨_, _, err, C.bind_of_ok hrun, hreturned, herr, hstored⟩

/-- **Error frames.** However much of an error frame has arrived before, and from
    an idle operation: `riak_read` handles it if and only if its payload unpacks
    and every request is granted, or the operation has no decoder, or already the
    buffer for the frame is refused. -/
theorem riak_read_server_error_iff {rop : RiakOperation ρ} {payload : Bytes} (heap : Heap)
    (done : RiakBoolean) (rest : List ReadResult) :
    (∀ got left, Stands rop (.within got left) → got ++ left = (errorMessage payload).body →
      (ErrorHandled (env.rpbErrorRespUnpack payload) (heap.Grants 6)
          (riakReadLoop env rop done (.received left :: rest) heap) ↔
        ErrorExpected rop (env.rpbErrorRespUnpack payload) (heap.Grants 6))) ∧
    (rop.Idle → payload.length < 2 ^ 32 - 1 →
      (ErrorHandled (env.rpbErrorRespUnpack payload) (heap.Grants 7)
          (riakRead env rop (.received (bigEndian 4 (errorMessage payload).body.length) ::
            .received (errorMessage payload).body :: rest) heap) ↔
        heap.answer 0 = false ∨
          ErrorExpected rop (env.rpbErrorRespUnpack payload) (heap.Grants 7))) := by
  constructor
  · intro got left hstands hbody
    exact errorHandled_of_body heap hstands hbody done rest
  · intro hidle hlength
    have hbody : (errorMessage payload).body.length < 2 ^ 32 := by
      show payload.length + 1 < 2 ^ 32
      omega
    obtain ⟨turn, heap', hturn, houtcomes, hrefused, hgranted⟩ :=
      riakReadTurn_length env heap hidle hbody 0
    cases hbuffer : heap.answer 0 with
    | false =>
      refine ⟨fun _ => Or.inl rfl, fun _ => ?_⟩
      unfold riakRead
      rw [riakReadLoop, C.bind_of_ok hturn, hrefused hbuffer]
      refine ⟨_, _, .read, rfl, rfl, by decide, ?_⟩
      intro errresp _ hall
      rw [hall 0 (by decide)] at hbuffer
      cases hbuffer
    | true =>
      obtain ⟨hexit, hstands, hquiet, herror⟩ := hgranted hbuffer
      have hsix : heap.Grants 7 ↔ heap'.Grants 6 := by
        rw [Heap.grants_succ, Heap.grants_congr houtcomes]
        exact ⟨fun h => h.2, fun h => ⟨hbuffer, h⟩⟩
      have hexpected : ErrorExpected turn.rop (env.rpbErrorRespUnpack payload) (heap'.Grants 6) ↔
          ErrorExpected rop (env.rpbErrorRespUnpack payload) (heap'.Grants 6) := by
        unfold ErrorExpected ErrorStored
        rw [hquiet.agrees.decoder, herror]
      rw [hsix]
      apply (errorHandled_later hturn hexit _ _ _).trans
      rw [errorHandled_of_body heap' hstands rfl turn.done rest, hexpected]
      exact ⟨Or.inr, fun h => h.resolve_left (by decide)⟩

/-- An environment in which every payload is error 7 with that text. -/
def errorEnv : ReadEnv Unit where
  decode _ _ _ resp done := pure ⟨.ok, resp, done⟩
  rpbErrorRespUnpack payload := some ⟨payload, 7⟩

/-- A frame that comes whole, on a heap that grants everything. -/
theorem riak_read_server_error_sample :
    ErrorHandled (some ⟨[0x6e, 0x6f], 7⟩) (Heap.fresh.Grants 7)
        (riakRead errorEnv { decoder := some .get } [.received [0, 0, 0, 3],
          .received [0, 0x6e, 0x6f]] Heap.fresh) ↔
      Heap.fresh.answer 0 = false ∨
        ErrorExpected ({ decoder := some .get } : RiakOperation Unit) (some ⟨[0x6e, 0x6f], 7⟩)
          (Heap.fresh.Grants 7) :=
  (@riak_read_server_error_iff Unit errorEnv { decoder := some .get } [0x6e, 0x6f] Heap.fresh 0
    []).2 ⟨rfl, rfl, rfl⟩ (by decide)

/-- A payload that does not unpack, and one whose copy is refused behind the
    response: the caller follows a NULL and a freed error response. -/
theorem riak_read_server_error_crashes :
    riakRead ({ errorEnv with rpbErrorRespUnpack := fun _ => none } : ReadEnv Unit)
        { decoder := some .get } [.received [0, 0, 0, 2], .received [0, 0xff]] Heap.fresh =
      .error .nullDereference ∧
    riakRead errorEnv { decoder := some .get } [.received [0, 0, 0, 2], .received [0, 0x6e]]
        ⟨[true, true, true, true, false], fun _ => 0⟩ = .error .wildDereference :=
  ⟨rfl, rfl⟩

end RiakClient
