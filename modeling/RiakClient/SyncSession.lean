import RiakClient.Prepared
import RiakClient.Replies
import RiakClient.Sync

/-!
# Synchronous calls over one connection

`riak_sync_request` on a connection of its own, and the calls of `riak.c` one after
another over the same one. The server is a function from a request to the frames
that answer it, and it answers when the request is whole.

One call is what `riak_sync_request` makes of an exchange: the request is written, its
last byte lets the server answer, and the read gets to the end of the answer and no
further, so that the connection is empty again. A session is an induction over its
calls with that as its step.
-/

namespace Framing

/-- One frame off the front, if there is a whole one. -/
def unframe (bytes : List UInt8) : Option (List UInt8 × List UInt8) :=
  if bytes.length < 4 then none
  else if bytes.length < 4 + beValue (bytes.take 4) then none
  else some ((bytes.drop 4).take (beValue (bytes.take 4)), bytes.drop (4 + beValue (bytes.take 4)))

theorem frame_take {body : List UInt8} (h : body.length < 2 ^ 32) :
    beValue ((frame body).take 4) = body.length := by
  have hfour := bigEndian_length 4 body.length
  unfold frame
  rw [List.take_left' hfour]
  exact beValue_bigEndian h

theorem unframe_frame {body : List UInt8} (h : body.length < 2 ^ 32) :
    unframe (frame body) = some (body, []) := by
  have hlength := frame_length body
  have hbody : (frame body).drop 4 = body := by
    unfold frame
    exact List.drop_left' (bigEndian_length 4 _)
  unfold unframe
  rw [frame_take h, if_neg (by omega), if_neg (by omega), hbody, List.take_length,
    ← hlength, List.drop_length]

theorem unframe_of_front {body bytes later : List UInt8} (h : body.length < 2 ^ 32)
    (hsplit : frame body = bytes ++ later) (hlater : later ≠ []) : unframe bytes = none := by
  have hlength := congrArg List.length hsplit
  have hpos := List.length_pos_iff.mpr hlater
  rw [frame_length, List.length_append] at hlength
  unfold unframe
  by_cases hshort : bytes.length < 4
  · rw [if_pos hshort]
  · have hvalue := frame_take h
    rw [hsplit, List.take_append_of_le_length (by omega)] at hvalue
    rw [if_neg hshort, hvalue, if_pos (by omega)]

theorem cutsLength_all {α : Type} (body : α → List UInt8) (closes : α → Bool) (items : List α) :
    cutsLength body closes items (frames (items.map body)).length = false := by
  induction items with
  | nil => rfl
  | cons item later ih =>
    rw [List.map_cons, frames_cons, List.length_append, List.length_append, bigEndian_length,
      cutsLength, if_neg (by omega), show 4 + ((body item).length +
        (frames (later.map body)).length) - (4 + (body item).length) =
          (frames (later.map body)).length by omega, ih, Bool.and_false]

end Framing

namespace RiakClient

open CSem Framing

variable {ρ σ : Type} {heap final : Heap}

/-! ### The request -/

/-- What `riak_sync_request` comes back with. -/
structure SyncReturn (ρ σ : Type) where
  err : RiakError
  response : Option ρ
  events : List (ReadEvent ρ)
  connection : σ

/-- `riak_sync_request` on a connection that has the bytes that its reads ask for, or
    will not get them. The call makes no more reads than it is given here. -/
def riakSyncRequestOn (source : ByteSource σ) (env : ReadEnv ρ) (rop : RiakOperation ρ)
    (writeCb : σ → Bytes → Int × σ) (s : σ) (response : Option ρ) :
    C (Option (SyncReturn ρ σ)) := do
  let (err, s) ← riakWrite rop writeCb s
  if err ≠ .ok then pure (some ⟨err, response, [], s⟩)
  else
    match ← riakReadOn env (sourceReadCb source) ((source.pending s).length + 3) rop s with
    | none => pure none
    | some ret => pure (some ⟨ret.err, ret.rop.response, ret.events, ret.source⟩)

/-- It is `riak_sync_request` on the results that the connection gives. -/
theorem riakSyncRequestOn_riakSyncRequest {source : ByteSource σ} {env : ReadEnv ρ}
    {rop : RiakOperation ρ} {writeCb : σ → Bytes → Int × σ} {s : σ} {response : Option ρ}
    {ret : SyncReturn ρ σ}
    (h : riakSyncRequestOn source env rop writeCb s response heap = .ok (some ret, final)) :
    ∃ results, riakSyncRequest env rop writeCb s results response heap =
      .ok (⟨some ret.err, ret.response, ret.events⟩, final) := by
  unfold riakSyncRequestOn at h
  obtain ⟨⟨err, s'⟩, heap₁, hwrite, h⟩ := C.bind_eq_ok.mp h
  simp only at h
  by_cases herr : err = .ok
  · rw [if_neg (fun hne => hne herr)] at h
    obtain ⟨out, heap₂, hread, h⟩ := C.bind_eq_ok.mp h
    cases out with
    | none => cases h
    | some out =>
      cases h
      have hpure : ∀ s n heap out final, sourceReadCb source s n heap = .ok (out, final) →
          final = heap := by
        rintro s n heap _ _ ⟨⟩
        rfl
      obtain ⟨results, hloop⟩ := riakReadOnLoop_riakReadLoop hpure _ _ _ _ _ _ hread
      refine ⟨results, ?_⟩
      unfold riakSyncRequest riakRead
      rw [C.bind_of_ok hwrite]
      simp only
      rw [if_neg (fun hne => hne herr), C.bind_of_ok hloop]
      rfl
  · rw [if_pos herr] at h
    cases h
    refine ⟨[], ?_⟩
    unfold riakSyncRequest
    rw [C.bind_of_ok hwrite]
    simp only
    rw [if_pos herr]
    rfl

/-! ### The connection -/

/-- What was sent and is not answered yet, and what was answered and is not read
    yet. -/
structure Wire where
  sent : Bytes := []
  inbox : Bytes := []
deriving DecidableEq, Repr

/-- The client's end to read from. -/
def Wire.source : ByteSource Wire where
  pending wire := wire.inbox
  read wire n := (wire.inbox.take n, { wire with inbox := wire.inbox.drop n })
  append wire bytes := { wire with inbox := wire.inbox ++ bytes }
  read_fst _ _ := rfl
  pending_read _ _ := rfl
  pending_append _ _ := rfl

/-- The client's end to write to, with the server behind it. -/
def Wire.write (serve : Bytes → List WireMessage) (wire : Wire) (bytes : Bytes) : Int × Wire :=
  (bytes.length,
    match unframe (wire.sent ++ bytes) with
    | none => { wire with sent := wire.sent ++ bytes }
    | some (request, later) =>
        ⟨later, wire.inbox ++ frames ((serve request).map WireMessage.body)⟩)

section Writes

variable (serve : Bytes → List WireMessage) (inbox : Bytes) {sent bytes body later : Bytes}

theorem wire_write_part (hbody : body.length < 2 ^ 32)
    (hsplit : frame body = sent ++ bytes ++ later) (hlater : later ≠ []) :
    Wire.write serve ⟨sent, inbox⟩ bytes = ((bytes.length : Int), ⟨sent ++ bytes, inbox⟩) := by
  unfold Wire.write
  rw [unframe_of_front hbody hsplit hlater]

theorem wire_write_whole (hbody : body.length < 2 ^ 32) (hsplit : frame body = sent ++ bytes) :
    Wire.write serve ⟨sent, inbox⟩ bytes =
      ((bytes.length : Int), ⟨[], inbox ++ frames ((serve body).map WireMessage.body)⟩) := by
  unfold Wire.write
  rw [← hsplit, unframe_frame hbody]

end Writes

theorem riakWrite_wire {rop : RiakOperation ρ} {m : WireMessage} (hm : m.Sendable)
    (hrequest : rop.pbRequest = some m.request) (serve : Bytes → List WireMessage) (inbox : Bytes) :
    riakWrite rop (Wire.write serve) ⟨[], inbox⟩ =
      pure (.ok, ⟨[], inbox ++ frames ((serve m.body).map WireMessage.body)⟩) := by
  obtain ⟨_, hlength⟩ := hm
  have hbody : m.body.length < 2 ^ 32 := by
    show m.payload.length + 1 < 2 ^ 32
    omega
  have hlen : (UInt32.ofNat m.payload.length).toNat = m.payload.length := by
    rw [UInt32.toNat_ofNat']
    exact Nat.mod_eq_of_lt (by omega)
  have hannounced : (UInt32.ofNat m.payload.length + 1).toNat = m.payload.length + 1 := by
    rw [UInt32.toNat_add, UInt32.toNat_one, hlen]
    exact Nat.mod_eq_of_lt (by omega)
  have hframe : frame m.body =
      [] ++ bigEndian 4 (m.payload.length + 1) ++ ([m.msgid] ++ m.payload) := rfl
  have hprefix := wire_write_part serve inbox hbody hframe (List.cons_ne_nil _ _)
  unfold riakWrite
  rw [hrequest]
  simp only [C.deref_some, pure_bind, WireMessage.request, hlen, Nat.lt_irrefl, if_false,
    hostBytes_htonl, hannounced, hprefix, bigEndian_length, List.take_length]
  rw [wroteNothing_of_lt (by decide) (by decide)]
  simp only [Bool.false_eq_true, if_false, List.nil_append]
  by_cases hempty : m.payload = []
  · have hwhole : frame m.body = bigEndian 4 (m.payload.length + 1) ++ [m.msgid] := by
      rw [hframe, hempty]
      rfl
    have hzero : ¬ 0 < UInt32.ofNat m.payload.length := by
      rw [hempty]
      decide
    rw [wire_write_whole serve inbox hbody hwhole, List.length_singleton, if_neg hzero,
      wroteNothing_of_lt (by decide) (by decide)]
    rfl
  · have hpos : 0 < m.payload.length := List.length_pos_iff.mpr hempty
    have hsome : 0 < UInt32.ofNat m.payload.length := by
      rw [UInt32.lt_iff_toNat_lt, hlen, UInt32.toNat_zero]
      exact hpos
    have hpart : frame m.body =
        bigEndian 4 (m.payload.length + 1) ++ [m.msgid] ++ m.payload := by
      rw [hframe, List.append_assoc _ [m.msgid]]
      rfl
    rw [wire_write_part serve inbox hbody hpart hempty, List.length_singleton,
      wroteNothing_of_lt (by decide) (by decide)]
    simp only [Bool.false_eq_true, if_false]
    rw [if_pos hsome, wire_write_whole serve inbox hbody hpart, wroteNothing_of_lt hpos (by omega)]
    rfl

/-! ### One exchange

Only the last frame of an answer closes the exchange, so a call that takes all of it
has taken the answer and nothing else. -/

/-- The frames that answer a request: they end with the one that closes the
    exchange, and the decoder can do with them. -/
structure IsExchange (unpackers : Unpackers) (decoder : RiakResponseDecoder)
    (answers : List WireMessage) : Prop where
  wellFormed : ∀ m ∈ answers, m.WellFormed (riakReadEnv unpackers)
  sound : decoder.Sound unpackers answers
  closed : ∃ first m, answers = first ++ [m] ∧
    (∀ x ∈ first, x.closes (decoder.isFinal unpackers) = false) ∧
    m.closes (decoder.isFinal unpackers) = true

/-- What the client makes of an answer: what its last frame is, decides. -/
structure Understood (unpackers : Unpackers) (decoder : RiakResponseDecoder)
    (rop : RiakOperation RiakResponse) (answers : List WireMessage) (err : RiakError)
    (response : Option RiakResponse) (events : List (ReadEvent RiakResponse)) : Prop where
  shows : Shows (decoder.isFinal unpackers) rop answers events
  error : (∃ m ∈ answers, m.isError = true) → err = .serverError ∧ response = none
  answered : (∀ m ∈ answers, m.isError = false) → err = .ok ∧
    RiakResponse.Holds decoder (decoder.Answers unpackers rop.request) answers response

theorem eq_of_first_closed {closes : WireMessage → Bool} {first first' rest : List WireMessage}
    {m m' : WireMessage} (h : first ++ [m] = first' ++ m' :: rest)
    (hfirst : ∀ x ∈ first, closes x = false) (hm' : closes m' = true) :
    first = first' ∧ m = m' ∧ rest = [] := by
  rcases List.eq_nil_or_concat rest with rfl | ⟨rest, last, rfl⟩
  · obtain ⟨rfl, hlast⟩ := List.append_inj' h rfl
    exact ⟨rfl, List.singleton_inj.mp hlast, rfl⟩
  · have hsplit : first ++ [m] = (first' ++ m' :: rest) ++ [last] := by
      rw [h, List.concat_eq_append, List.append_assoc]
      rfl
    obtain ⟨rfl, _⟩ := List.append_inj' hsplit rfl
    have hopen := hfirst m' (List.mem_append_right _ List.mem_cons_self)
    rw [hm'] at hopen
    cases hopen

/-- **An answer that is all there is read to its end, and no further.** -/
theorem riakReadOn_understood {unpackers : Unpackers} {decoder : RiakResponseDecoder}
    {answers : List WireMessage} (h : IsExchange unpackers decoder answers) (hheap : heap.Ample)
    {rop : RiakOperation RiakResponse} (hdecoder : rop.decoder = some decoder) (hidle : rop.Idle)
    (hstreaming : rop.streaming = false) (hresponse : rop.response = none) :
    ∃ ret final, riakReadOn (riakReadEnv unpackers) (sourceReadCb Wire.source)
        ((frames (answers.map WireMessage.body)).length + 3) rop
        ⟨[], frames (answers.map WireMessage.body)⟩ heap = .ok (some ret, final) ∧
      final.Ample ∧ ret.source = ⟨[], []⟩ ∧
      Understood unpackers decoder rop answers ret.err ret.rop.response ret.events := by
  obtain ⟨first, m, hanswers, hfirst, hm⟩ := h.closed
  have hannounced : Announceable answers := fun m hm => (h.wellFormed m hm).1
  have hgathers : Gathers (riakReadEnv unpackers) decoder rop.request
      (decoder.isFinal unpackers)
      (RiakResponse.Holds decoder (decoder.Answers unpackers rop.request)) answers :=
    (RiakResponseDecoder.collects decoder hannounced h.sound).gathers
  have hseen : RiakResponse.Holds decoder (decoder.Answers unpackers rop.request) []
      rop.response := ⟨none, hresponse, RiakResponseDecoder.answers_nil decoder⟩
  have hcut := cutsLength_all WireMessage.body (WireMessage.closes (decoder.isFinal unpackers))
    answers
  have hpatience : rop.patience = 0 := by
    unfold RiakOperation.patience
    rw [hidle.2.2, if_neg Bool.false_ne_true, if_pos hidle.1]
  have hfollows : Follows decoder ⟨rop, 0, heap, Wire.source.pending
      ⟨[], frames (answers.map WireMessage.body)⟩ ++ []⟩ answers
      ⟨.between, answers.map WireMessage.body⟩ := by
    rw [List.append_nil]
    exact follows_between hdecoder hheap hidle rfl
  obtain ⟨ret, final, got, hloop, hserves⟩ := riakReadOnLoop_serves hgathers h.wellFormed
    ((frames (answers.map WireMessage.body)).length + 3) [] answers rop
    (⟨[], frames (answers.map WireMessage.body)⟩ : Wire) heap _ rfl nofun hfollows
    ⟨rfl, hstreaming⟩ hseen (by rw [List.length_nil, Nat.sub_zero]; exact hcut)
    (by rw [hpatience]; show (frames (answers.map WireMessage.body)).length + 0 < _; omega)
  have hsent : ret.source.sent = [] := by
    refine riakReadOnLoop_invariant (P := fun wire => wire.sent = []) ?_ _ _ _ _ _ _ rfl hloop
    rintro s n heap _ _ _ hs ⟨⟩
    exact hs
  refine ⟨ret, final, hloop, hserves.ample, ?_⟩
  rcases hserves.outcome with ⟨rest, hsplit, hwaits⟩ | ⟨first', m', rest, rfl, hsplit, hends⟩
  · -- the closing frame has arrived, so the call does not wait
    obtain ⟨r, hrest⟩ := hwaits.follows
    obtain ⟨rfl, _⟩ := hrest.ended rfl
    rw [List.append_nil] at hsplit
    have hopen := hwaits.isOpen m (by
      rw [← hsplit, hanswers]
      exact List.mem_append_right _ List.mem_cons_self)
    rw [hm] at hopen
    cases hopen
  · rw [hanswers] at hsplit
    obtain ⟨rfl, rfl, rfl⟩ := eq_of_first_closed hsplit hfirst hends.closes
    have hinbox : ret.source.inbox = [] := by
      have hleft := hends.left
      rw [List.append_nil] at hleft
      exact hleft
    refine ⟨?_, ?_, ?_, ?_⟩
    · cases hsource : ret.source
      rw [hsource] at hsent hinbox
      subst hsent hinbox
      rfl
    · rw [hanswers]
      exact hserves.shows
    · rintro ⟨x, hx, herror⟩
      rw [hanswers] at hx
      rcases List.mem_append.mp hx with hx | hx
      · have hopen := (Bool.or_eq_false_iff.mp (hfirst x hx)).1
        rw [herror] at hopen
        cases hopen
      · obtain rfl := List.mem_singleton.mp hx
        exact hends.closed.error herror
    · intro hnone
      have hresponse' : m.isError = false := by
        apply hnone
        rw [hanswers]
        exact List.mem_append_right _ List.mem_cons_self
      obtain ⟨hok, hseen', _⟩ := hends.closed.final hresponse'
      rw [hanswers]
      exact ⟨hok, hseen'⟩

/-! ### Calls

The fifteen functions of `riak.c` are one definition with the encoder of each call.
They pass on what they got, or free it; only a ping looks into its response, and a
ping that is answered is a success. -/

/-- What a function of `riak.c` returns, what it leaves in its last argument, if it has
    one for a response, and what happened. -/
structure CallReturn where
  err : RiakError
  response : Option RiakResponse
  events : List (ReadEvent RiakResponse)

namespace RiakCall

/-- The application gets the response of a call, unless the call frees it. -/
def keepsResponse : RiakCall → Bool
  | ping | delete .. | setClientid .. => false
  | _ => true

/-- What a call does behind `riak_sync_request`: `riak_ping` looks into its response. -/
def finish (call : RiakCall) (err : RiakError) (response : Option RiakResponse) :
    C (RiakError × Option RiakResponse) :=
  match call with
  | ping =>
      if err ≠ .ok then pure (err, none)
      else do
        let pong : RiakPingResponse ← C.deref (← RiakResponse.as .ping response)
        pure (if pong.success ≠ 0 then .ok else .noPing, none)
  | delete .. | setClientid .. => pure (err, none)
  | _ => pure (err, response)

variable (packs : Packers) (unpackers : Unpackers) (serve : Bytes → List WireMessage)

/-- `riak_ping`, `riak_get` and so on. -/
def perform (call : RiakCall) (wire : Wire) : C (Option (CallReturn × Wire)) := do
  let (err, rop) ← call.build packs
  if err ≠ .ok then pure (some (⟨err, none, []⟩, wire))
  else
    match ← riakSyncRequestOn Wire.source (riakReadEnv unpackers) rop (Wire.write serve) wire
        none with
    | none => pure none
    | some ret => do
        let (err, response) ← call.finish ret.err ret.response
        pure (some (⟨err, response, ret.events⟩, ret.connection))

/-- The same on a socket whose reads return given results. -/
def performWith (call : RiakCall) (writeCb : σ → Bytes → Int × σ) (s : σ)
    (results : List ReadResult) : C (SyncOutcome RiakResponse) := do
  let (err, rop) ← call.build packs
  if err ≠ .ok then pure ⟨some err, none, []⟩
  else
    let outcome ← riakSyncRequest (riakReadEnv unpackers) rop writeCb s results none
    match outcome.returned with
    | none => pure ⟨none, none, outcome.events⟩
    | some err => do
        let (err, response) ← call.finish err outcome.response
        pure ⟨some err, response, outcome.events⟩

/-- One call after another over the same connection. -/
def performAll : List RiakCall → Wire → C (Option (List CallReturn × Wire))
  | [], wire => pure (some ([], wire))
  | call :: calls, wire => do
      match ← call.perform packs unpackers serve wire with
      | none => pure none
      | some (ret, wire) =>
          match ← performAll calls wire with
          | none => pure none
          | some (rets, wire) => pure (some (ret :: rets, wire))

/-- The arguments of a call can be sent, and the server answers what is sent. -/
def Served (call : RiakCall) : Prop :=
  ∀ heap : Heap, heap.Ample → ∃ (rop : RiakOperation RiakResponse) (request : WireMessage),
    call.build packs heap = .ok ((.ok, rop), heap) ∧ rop.pbRequest = some request.request ∧
      request.payload.length < 2 ^ 32 - 1 ∧
      IsExchange unpackers call.decoder (serve request.body)

/-- A call got the answer to its own request. -/
def Answered (call : RiakCall) (ret : CallReturn) : Prop :=
  ∃ (heap : Heap) (rop : RiakOperation RiakResponse) (request : WireMessage)
      (response : Option RiakResponse),
    heap.Ample ∧ call.build packs heap = .ok ((.ok, rop), heap) ∧
    rop.pbRequest = some request.request ∧
    Understood unpackers call.decoder rop (serve request.body) ret.err response ret.events ∧
    ret.response = if call.keepsResponse then response else none

end RiakCall

theorem RiakCall.build_prepares {packs : Packers} {call : RiakCall} {rop : RiakOperation ρ}
    (h : call.build packs heap = .ok ((.ok, rop), final)) :
    rop.decoder = some call.decoder ∧ rop.Idle ∧ rop.streaming = false ∧ rop.response = none ∧
      ∃ request : WireMessage, request.msgid ≠ MSG_RPBERRORRESP ∧
        rop.pbRequest = some request.request := by
  obtain ⟨rest, hencode⟩ := call.build_eq_ok h
  have hprepares := call.encode_prepares packs {} rest _ _ hencode
  obtain ⟨hposition, hmsglen, hphase⟩ :=
    (⟨hprepares.stream.position, hprepares.stream.msglen, hprepares.stream.msglenComplete⟩ :
      rop.position = 0 ∧ rop.msglen = 0 ∧ rop.msglenComplete = false)
  exact ⟨hprepares.decoder rfl, ⟨hposition, hmsglen, hphase⟩, hprepares.stream.streaming,
    hprepares.stream.response, hprepares.request rfl⟩

theorem RiakCall.finish_of_ne_ping {call : RiakCall} (h : call ≠ .ping) (err : RiakError)
    (response : Option RiakResponse) :
    call.finish err response = pure (err, if call.keepsResponse then response else none) := by
  cases call with
  | ping => exact absurd rfl h
  | _ => rfl

/-- **A successful call has a complete response exactly if it was not cut short**, whatever
    the function: what it received is what `riak_sync_request` left, and the application
    gets that, unless the function frees it. -/
theorem riak_call_complete_iff {packs : Packers} {unpackers : Unpackers} {call : RiakCall}
    (hcall : call ≠ .ping) {rop : RiakOperation RiakResponse} {built : Heap}
    (hbuild : call.build packs heap = .ok ((.ok, rop), built)) {writeCb : σ → Bytes → Int × σ}
    {s : σ} {results : List ReadResult} {outcome : SyncOutcome RiakResponse}
    (hrun : call.performWith packs unpackers writeCb s results heap = .ok (outcome, final)) :
    ∃ received, outcome.response = (if call.keepsResponse then received else none) ∧
      (CompleteResponse outcome.returned outcome.events received ↔
        ¬ (Sent rop writeCb s built ∧ CutShort (riakReadEnv unpackers) rop 0 built results)) := by
  unfold RiakCall.performWith at hrun
  rw [C.bind_of_ok hbuild] at hrun
  simp only [ne_eq, not_true_eq_false, if_false] at hrun
  obtain ⟨answer, heap₁, hsync, hrest⟩ := C.bind_eq_ok.mp hrun
  have hcomplete := riakSyncRequest_complete_iff hsync
  obtain ⟨returned, response, events⟩ := answer
  cases returned with
  | none =>
    -- a call that waits has returned nothing yet
    cases hrest
    refine ⟨none, by rw [ite_self], Iff.trans ?_ hcomplete⟩
    exact ⟨fun _ => nofun, fun _ => nofun⟩
  | some err =>
    simp only [RiakCall.finish_of_ne_ping hcall, pure_bind] at hrest
    cases hrest
    exact ⟨response, rfl, hcomplete⟩

theorem RiakCall.finish_eq {unpackers : Unpackers} {call : RiakCall}
    {rop : RiakOperation RiakResponse} {answers : List WireMessage} (hanswers : answers ≠ [])
    {err : RiakError} {response : Option RiakResponse} {events : List (ReadEvent RiakResponse)}
    (h : Understood unpackers call.decoder rop answers err response events) :
    call.finish err response =
      pure (err, if call.keepsResponse then response else none) := by
  cases call with
  | ping =>
    by_cases herror : ∃ m ∈ answers, m.isError = true
    · obtain ⟨rfl, rfl⟩ := h.error herror
      rfl
    · have hnone : ∀ m ∈ answers, m.isError = false := by
        intro m hm
        rw [← Bool.not_eq_true]
        intro hm'
        exact herror ⟨m, hm, hm'⟩
      obtain ⟨rfl, value, rfl, hvalue⟩ := h.answered hnone
      cases answers with
      | nil => exact absurd rfl hanswers
      | cons m later =>
        obtain rfl : value = some (⟨1⟩ : RiakPingResponse) := hvalue
        rfl
  | _ => rfl

/-- **One call.** -/
theorem RiakCall.perform_answered {packs : Packers} {unpackers : Unpackers}
    {serve : Bytes → List WireMessage} {call : RiakCall}
    (hserved : call.Served packs unpackers serve) (hheap : heap.Ample) :
    ∃ ret final, call.perform packs unpackers serve {} heap = .ok (some (ret, {}), final) ∧
      final.Ample ∧ call.Answered packs unpackers serve ret := by
  obtain ⟨rop, request, hbuild, hrequest, hlength, hexchange⟩ := hserved heap hheap
  obtain ⟨hdecoder, hidle, hstreaming, hresponse, request', hmsgid, hrequest'⟩ :=
    call.build_prepares hbuild
  have hid : request.msgid ≠ MSG_RPBERRORRESP := by
    rw [hrequest, Option.some.injEq] at hrequest'
    have hsame : request.msgid = request'.msgid := congrArg RiakPbMessage.msgid hrequest'
    rw [hsame]
    exact hmsgid
  have hwrite : riakWrite rop (Wire.write serve) {} heap = _ :=
    congrFun (riakWrite_wire ⟨hid, hlength⟩ hrequest serve []) heap
  obtain ⟨ret, final, hread, hample, hsource, hunderstood⟩ :=
    riakReadOn_understood hexchange hheap hdecoder hidle hstreaming hresponse
  obtain ⟨first, m, hanswers, _⟩ := hexchange.closed
  have hne : serve request.body ≠ [] := by
    rw [hanswers]
    exact List.append_ne_nil_of_right_ne_nil _ (List.cons_ne_nil _ _)
  have hsync : riakSyncRequestOn Wire.source (riakReadEnv unpackers) rop (Wire.write serve) {} none
      heap = .ok (some ⟨ret.err, ret.rop.response, ret.events, {}⟩, final) := by
    unfold riakSyncRequestOn
    rw [C.bind_of_ok hwrite]
    simp only [ne_eq, not_true_eq_false, if_false, List.nil_append]
    have hpending : Wire.source.pending
        ⟨[], frames ((serve request.body).map WireMessage.body)⟩ =
          frames ((serve request.body).map WireMessage.body) := rfl
    rw [hpending, C.bind_of_ok hread]
    simp only
    rw [hsource]
    rfl
  refine ⟨⟨ret.err, if call.keepsResponse then ret.rop.response else none, ret.events⟩, final, ?_,
    hample, heap, rop, request, ret.rop.response, hheap, hbuild, hrequest, hunderstood, rfl⟩
  unfold RiakCall.perform
  rw [C.bind_of_ok hbuild]
  simp only [ne_eq, not_true_eq_false, if_false]
  rw [C.bind_of_ok hsync]
  simp only
  rw [RiakCall.finish_eq hne hunderstood]
  rfl

/-- A server with one key in the bucket `b`, whatever is asked besides. -/
def keysServer : Bytes → List WireMessage
  | [1] => [⟨2, []⟩]
  | [17, 0x0a, 1, 0x62] => keysAnswer
  | _ => []

def keysCall : RiakCall := .listkeys none (some ⟨[0x62], true⟩) 0

end RiakClient
