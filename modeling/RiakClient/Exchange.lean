import RiakClient.Callbacks
import RiakClient.ReadSource

/-!
# One exchange

The responses to one request, up to the frame that closes the exchange: the last
response, or an error of the server. A decoder is known by what it gathers from
the frames, and a call of `riak_read` on a source by the frames it gets to: it
takes what is whole, and where it stops depends on the bytes alone.
-/

namespace RiakClient

open CSem Framing LabelledRun

variable {ρ σ : Type} {heap final : Heap}

/-! ### What a decoder gathers

`Gathers` is the invariant on the response: what a decoder has made of the frames so
far is what `Seen` says, and it reports done on a final one and on no other. What the
application is shown is a function of the frames alone. -/

/-- A frame that closes an exchange. -/
def WireMessage.closes (isFinal : WireMessage → Bool) (m : WireMessage) : Bool :=
  m.isError || isFinal m

/-- What a decoder may look at in its operation. No operation is ever set to
    `streaming`. -/
structure RiakOperation.Asks (rop : RiakOperation ρ) (request : RiakRequestCache) : Prop where
  request : rop.request = request
  streaming : rop.streaming = false

theorem RiakOperation.Agrees.asks {rop rop' : RiakOperation ρ} (h : rop.Agrees rop')
    {request : RiakRequestCache} (h' : rop'.Asks request) : rop.Asks request :=
  ⟨h.request.trans h'.request, h.streaming.trans h'.streaming⟩

/-- A decoder that gathers what `Seen` says of the frames so far, and reports done
    on a final one. -/
def Gathers (env : ReadEnv ρ) (decoder : RiakResponseDecoder) (request : RiakRequestCache)
    (isFinal : WireMessage → Bool) (Seen : List WireMessage → Option ρ → Prop)
    (msgs : List WireMessage) : Prop :=
  ∀ before m after, msgs = before ++ m :: after →
    (∀ x ∈ before, x.closes isFinal = false) → m.isError = false →
    ∀ (rop : RiakOperation ρ) (heap : Heap), heap.Ample → rop.Asks request →
      Seen before rop.response →
      ∃ result heap', env.decode decoder rop (some m.received) rop.response 1 heap =
          .ok (result, heap') ∧
        heap'.Ample ∧ result.err = .ok ∧ (result.done ≠ 0 ↔ isFinal m = true) ∧
        Seen (before ++ [m]) result.resp

theorem Gathers.gathersAll {env : ReadEnv ρ} {decoder : RiakResponseDecoder}
    {request : RiakRequestCache} {isFinal : WireMessage → Bool}
    {Seen : List WireMessage → Option ρ → Prop} {msgs : List WireMessage}
    (h : Gathers env decoder request isFinal Seen msgs) (hmsgs : ∀ m ∈ msgs, m.Sendable)
    (hopen : ∀ before m after, msgs = before ++ m :: after →
      ∀ x ∈ before, x.closes isFinal = false) {rop : RiakOperation ρ} (hasks : rop.Asks request) :
    GathersAll env decoder rop Seen msgs := by
  intro before m after hsplit rop' heap hheap hagrees hseen
  have hm : m ∈ msgs := by
    rw [hsplit]
    exact List.mem_append_right before List.mem_cons_self
  have hresponse : m.isError = false := decide_eq_false (hmsgs m hm).1
  obtain ⟨result, heap', hdecode, hample, hok, _, hseen'⟩ :=
    h before m after hsplit (hopen before m after hsplit) hresponse rop' heap hheap
      (hagrees.asks hasks) hseen
  exact ⟨result, heap', hdecode, hample, hok, hseen'⟩

/-- The frames that go to the decoder. -/
def decodedFrames (msgs : List WireMessage) : List (Option RiakPbMessage) :=
  (msgs.filter fun m => !m.isError).map fun m => some m.received

/-- The calls of `response_cb` that the frames are due. -/
def responseCalls (isFinal : WireMessage → Bool) (rop : RiakOperation ρ)
    (msgs : List WireMessage) : List RiakResponseCallback :=
  msgs.flatMap fun m => if !m.isError && isFinal m then rop.responseCb.toList else []

/-- The calls of `error_cb` that they get: two for each error. -/
def errorCalls (rop : RiakOperation ρ) (msgs : List WireMessage) : List RiakResponseCallback :=
  msgs.flatMap fun m => if m.isError then rop.errorCb.toList ++ rop.errorCb.toList else []

/-- What frames make the application see. -/
structure Shows (isFinal : WireMessage → Bool) (rop : RiakOperation ρ) (msgs : List WireMessage)
    (events : List (ReadEvent ρ)) : Prop where
  messages : events.filterMap ReadEvent.message? = decodedFrames msgs
  responses : events.filterMap ReadEvent.responseCall? = responseCalls isFinal rop msgs
  errors : events.filterMap ReadEvent.errorCall? = errorCalls rop msgs

theorem Shows.nil {isFinal : WireMessage → Bool} {rop : RiakOperation ρ} :
    Shows isFinal rop [] ([] : List (ReadEvent ρ)) := ⟨rfl, rfl, rfl⟩

theorem Shows.append {isFinal : WireMessage → Bool} {rop : RiakOperation ρ}
    {msgs later : List WireMessage} {events events' : List (ReadEvent ρ)}
    (h : Shows isFinal rop msgs events) (h' : Shows isFinal rop later events') :
    Shows isFinal rop (msgs ++ later) (events ++ events') := by
  refine ⟨?_, ?_, ?_⟩
  · rw [List.filterMap_append, h.messages, h'.messages]
    unfold decodedFrames
    rw [List.filter_append, List.map_append]
  · rw [List.filterMap_append, h.responses, h'.responses]
    exact List.flatMap_append.symm
  · rw [List.filterMap_append, h.errors, h'.errors]
    exact List.flatMap_append.symm

theorem Shows.congr {isFinal : WireMessage → Bool} {rop rop' : RiakOperation ρ}
    {msgs : List WireMessage} {events : List (ReadEvent ρ)} (h : Shows isFinal rop msgs events)
    (hresponseCb : rop.responseCb = rop'.responseCb) (herrorCb : rop.errorCb = rop'.errorCb) :
    Shows isFinal rop' msgs events := by
  obtain ⟨hmessages, hresponses, herrors⟩ := h
  unfold responseCalls at hresponses
  unfold errorCalls at herrors
  rw [hresponseCb] at hresponses
  rw [herrorCb] at herrors
  exact ⟨hmessages, hresponses, herrors⟩

/-! ### One frame

A response is decoded, and the call goes on unless it was the last one. An error
closes the exchange and leaves no response, whichever way the decoder of errors takes:
all of them report done. -/

theorem shows_single {isFinal : WireMessage → Bool} {rop : RiakOperation ρ} {m : WireMessage}
    {events : List (ReadEvent ρ)}
    (hmessages : events.filterMap ReadEvent.message? = decodedFrames [m])
    (hresponses : events.filterMap ReadEvent.responseCall? =
      if !m.isError && isFinal m then rop.responseCb.toList else [])
    (herrors : events.filterMap ReadEvent.errorCall? =
      if m.isError then rop.errorCb.toList ++ rop.errorCb.toList else []) :
    Shows isFinal rop [m] events :=
  ⟨hmessages, hresponses.trans (List.flatMap_singleton _ _).symm,
    herrors.trans (List.flatMap_singleton _ _).symm⟩

/-- What became of a frame that closes an exchange. -/
structure Closed (Seen : List WireMessage → Option ρ → Prop) (seen : List WireMessage)
    (m : WireMessage) (err : RiakError) (response : Option ρ) (events : List (ReadEvent ρ)) :
    Prop where
  final : m.isError = false → err = .ok ∧ Seen seen response ∧
    ∀ cb answer, .responseCb cb answer ∈ events → answer = response
  error : m.isError = true → err = .serverError ∧ response = none

theorem riakReadDispatch_gathers {env : ReadEnv ρ} {isFinal : WireMessage → Bool}
    {Seen : List WireMessage → Option ρ → Prop} {before : List WireMessage} {m : WireMessage}
    {rop : RiakOperation ρ} {decoder : RiakResponseDecoder} {result : Decoded ρ}
    (hdecoder : rop.decoder = some decoder) (hidle : rop.Idle) (hresponse : m.isError = false)
    (hresult : env.decode decoder rop (some m.received) rop.response 1 heap =
      .ok (result, final)) (hok : result.err = .ok)
    (hdone : result.done ≠ 0 ↔ isFinal m = true) (hseen : Seen (before ++ [m]) result.resp) :
    ∃ turn, riakReadDispatch env rop m.msgid (some m.received) heap = .ok (turn, final) ∧
      turn.rop.Idle ∧ turn.rop.Agrees rop ∧ Shows isFinal rop [m] turn.events ∧
      (isFinal m = false → turn.exit = none ∧ turn.done = 0 ∧
        Seen (before ++ [m]) turn.rop.response) ∧
      (isFinal m = true → turn.exit = some .ok ∧ turn.done ≠ 0 ∧
        Closed Seen (before ++ [m]) m .ok turn.rop.response turn.events) := by
  have hmsgid : m.msgid ≠ MSG_RPBERRORRESP := of_decide_eq_false hresponse
  obtain ⟨turn, hdispatch, hanswers, hevents⟩ :=
    riakReadDispatch_of_decoded hdecoder hmsgid hresult hok
  have hrop := hanswers.rop
  have hexit := hanswers.exit
  have hcb : turn.rop.responseCb = rop.responseCb := by
    rw [hrop]
    rfl
  have hmessages : turn.events.filterMap ReadEvent.message? = decodedFrames [m] := by
    unfold decodedFrames
    rw [List.filter_cons_of_pos (by rw [hresponse]; rfl)]
    exact hanswers.messages
  refine ⟨turn, hdispatch, ?_, ?_, ?_, ?_, ?_⟩
  · rw [hrop]
    exact hidle
  · rw [hrop]
    exact ⟨rfl, rfl, rfl, rfl, rfl⟩
  · by_cases hfinal : isFinal m = true
    · rw [if_pos (hdone.mpr hfinal)] at hevents
      refine shows_single hmessages ?_ ?_
      · rw [hevents, List.filterMap_cons_none rfl, (responseCbEvents_calls _).1, hcb, hresponse,
          hfinal]
        rfl
      · rw [hevents, List.filterMap_cons_none rfl, (responseCbEvents_calls _).2.1, hresponse]
        rfl
    · rw [if_neg (fun hne => hfinal (hdone.mp hne))] at hevents
      rw [Bool.not_eq_true] at hfinal
      refine shows_single hmessages ?_ ?_
      · rw [hevents, hresponse, hfinal]
        rfl
      · rw [hevents, hresponse]
        rfl
  · intro hopen
    have hzero : result.done = 0 := by
      by_contra hne
      rw [hdone.mp hne] at hopen
      cases hopen
    rw [if_neg (fun hne => hne hzero)] at hexit
    refine ⟨hexit, hanswers.done.trans hzero, ?_⟩
    rw [hrop]
    exact hseen
  · intro hfinal
    have hne := hdone.mpr hfinal
    rw [if_pos hne] at hexit
    refine ⟨hexit, ?_, ⟨fun _ => ⟨rfl, ?_, ?_⟩, ?_⟩⟩
    · rw [hanswers.done]
      exact hne
    · rw [hrop]
      exact hseen
    · intro cb answer hmem
      rw [hevents, if_pos hne] at hmem
      rcases List.mem_cons.mp hmem with hcase | hmem
      · cases hcase
      · unfold responseCbEvents at hmem
        cases hslot : turn.rop.responseCb with
        | none =>
          rw [hslot] at hmem
          exact absurd hmem List.not_mem_nil
        | some cb' =>
          rw [hslot] at hmem
          cases List.mem_singleton.mp hmem
          rfl
    · intro herror
      rw [hresponse] at herror
      cases herror

theorem riakServerErrorResponseDecode_done {unpack : Bytes → Option RpbErrorResp}
    {rop : RiakOperation ρ} {pbresp : Option RiakPbMessage} {decoded : ServerErrorDecoded ρ}
    (h : riakServerErrorResponseDecode unpack rop pbresp 1 heap = .ok (decoded, final)) :
    decoded.done = 1 := by
  unfold riakServerErrorResponseDecode at h
  obtain ⟨message, heap₁, _, h⟩ := C.bind_eq_ok.mp h
  obtain ⟨payload, heap₂, _, h⟩ := C.bind_eq_ok.mp h
  cases hunpack : unpack payload with
  | none =>
    rw [hunpack] at h
    cases h
    rfl
  | some errresp =>
    rw [hunpack] at h
    obtain ⟨granted, heap₃, _, h⟩ := C.bind_eq_ok.mp h
    cases granted with
    | false =>
      cases h
      rfl
    | true =>
      obtain ⟨errmsg, heap₄, _, h⟩ := C.bind_eq_ok.mp h
      cases errmsg with
      | none =>
        cases h
        rfl
      | some errmsg =>
        obtain ⟨⟨err, error⟩, heap₅, _, h⟩ := C.bind_eq_ok.mp h
        by_cases hok : err = .ok
        · simp only [hok, if_true] at h
          cases h
          rfl
        · simp only [hok, if_false] at h
          cases h
          rfl

theorem riakReadDispatch_errs {env : ReadEnv ρ} (hheap : heap.Ample)
    (isFinal : WireMessage → Bool) (Seen : List WireMessage → Option ρ → Prop)
    (seen : List WireMessage) {m : WireMessage} {rop : RiakOperation ρ}
    {decoder : RiakResponseDecoder} (hdecoder : rop.decoder = some decoder) (hidle : rop.Idle)
    (hm : m.WellFormed env) (herror : m.isError = true) :
    ∃ turn, riakReadDispatch env rop m.msgid (some m.received) heap = .ok (turn, heap) ∧
      turn.rop.Idle ∧ turn.rop.Agrees rop ∧ Shows isFinal rop [m] turn.events ∧
      turn.exit = some .serverError ∧ turn.done ≠ 0 ∧
      Closed Seen seen m .serverError turn.rop.response turn.events := by
  obtain ⟨turn, error, hdispatch, hrop, hfires⟩ := riakReadDispatch_error hheap hdecoder hm herror
  have hmsgid : m.msgid = MSG_RPBERRORRESP := of_decide_eq_true herror
  have hends : turn.exit = some .serverError ∧ turn.done = 1 := by
    have hrun := hdispatch
    unfold riakReadDispatch at hrun
    simp only [hdecoder, hmsgid, if_true] at hrun
    unfold riakReadServerError at hrun
    obtain ⟨decoded, heap₁, hdecode, hrun⟩ := C.bind_eq_ok.mp hrun
    obtain ⟨errResponse, heap₂, _, hrun⟩ := C.bind_eq_ok.mp hrun
    cases hrun
    exact ⟨rfl, riakServerErrorResponseDecode_done hdecode⟩
  refine ⟨turn, hdispatch, ?_, ?_, ?_, hends.1, ?_, ⟨?_, fun _ => ⟨rfl, ?_⟩⟩⟩
  · rw [hrop]
    exact hidle
  · rw [hrop]
    exact ⟨rfl, rfl, rfl, rfl, rfl⟩
  · refine shows_single ?_ ?_ ?_
    · have hmessages : turn.messages =
          ((some m).filter fun m => !m.isError).toList.map fun m => some m.received :=
        hfires.messages
      rw [Option.filter_some, herror] at hmessages
      unfold decodedFrames
      rw [List.filter_cons_of_neg (by rw [herror]; decide)]
      exact hmessages
    · have hnone : turn.events.filter ReadEvent.isFinal = [] := by
        have hmessages := hfires.messages
        rw [Option.filter_some, herror] at hmessages
        rw [List.filter_eq_nil_iff]
        intro event hmem hevent
        cases event with
        | decoded pbresp result => exact messages_eq_nil_iff.mp hmessages pbresp result hmem
        | responseCb cb response => cases hevent
        | errorCb cb response => cases hevent
      rw [hfires.response, hnone, herror]
      rfl
    · rw [hfires.error, Option.any_some]
  · rw [hends.2]
    decide
  · intro hresponse
    rw [herror] at hresponse
    cases hresponse
  · rw [hrop]

/-- **What becomes of a frame** of an exchange: it leaves the call open, or it is
    the end of the call. -/
theorem riakReadDispatch_frame {env : ReadEnv ρ} {isFinal : WireMessage → Bool}
    {Seen : List WireMessage → Option ρ → Prop} {all before later : List WireMessage}
    {m : WireMessage} {decoder : RiakResponseDecoder} {request : RiakRequestCache}
    {rop : RiakOperation ρ} (hgathers : Gathers env decoder request isFinal Seen all)
    (hall : all = before ++ m :: later)
    (hopen : ∀ x ∈ before, x.closes isFinal = false) (hm : m.WellFormed env)
    (hheap : heap.Ample) (hdecoder : rop.decoder = some decoder) (hidle : rop.Idle)
    (hasks : rop.Asks request) (hseen : Seen before rop.response) :
    ∃ turn heap', riakReadDispatch env rop m.msgid (some m.received) heap = .ok (turn, heap') ∧
      heap'.Ample ∧ turn.rop.Idle ∧ turn.rop.Agrees rop ∧ Shows isFinal rop [m] turn.events ∧
      (m.closes isFinal = false → turn.exit = none ∧ turn.done = 0 ∧
        Seen (before ++ [m]) turn.rop.response) ∧
      (m.closes isFinal = true → ∃ err, turn.exit = some err ∧ turn.done ≠ 0 ∧
        Closed Seen (before ++ [m]) m err turn.rop.response turn.events) := by
  unfold WireMessage.closes
  cases herror : m.isError with
  | true =>
    obtain ⟨turn, hdispatch, hidle', hagrees, hshows, hexit, hdone, hclosed⟩ :=
      riakReadDispatch_errs hheap isFinal Seen (before ++ [m]) hdecoder hidle hm herror
    exact ⟨turn, heap, hdispatch, hheap, hidle', hagrees, hshows, nofun,
      fun _ => ⟨_, hexit, hdone, hclosed⟩⟩
  | false =>
    obtain ⟨result, heap', hresult, hample, hok, hdone, hseen'⟩ :=
      hgathers before m later hall hopen herror rop heap hheap hasks hseen
    obtain ⟨turn, hdispatch, hidle', hagrees, hshows, hgoes, hends⟩ :=
      riakReadDispatch_gathers hdecoder hidle herror hresult hok hdone hseen'
    exact ⟨turn, heap', hdispatch, hample, hidle', hagrees, hshows, hgoes,
      fun hfinal => ⟨_, hends hfinal⟩⟩

/-! ### A call on a source

By induction on the reads. A frame that leaves the exchange open is put in front of
the call behind it, and the rest of the stream decides whether what has arrived ends
in a length. -/

/-- A call that has taken what is there, and waits for the rest. -/
structure Waits (source : ByteSource σ) (decoder : RiakResponseDecoder)
    (isFinal : WireMessage → Bool) (Seen : List WireMessage → Option ρ → Prop)
    (before got rest : List WireMessage) (future : Bytes) (ret : ReadReturn ρ σ) (final : Heap) :
    Prop where
  isOpen : ∀ m ∈ got, m.closes isFinal = false
  err : ret.err = .ok
  done : ret.done = 0
  drained : source.pending ret.source = []
  seen : Seen (before ++ got) ret.rop.response
  follows : ∃ r, Follows decoder ⟨ret.rop, 0, final, future⟩ rest r

/-- A call that has closed the exchange, right behind the frame that did it. -/
structure Ends (source : ByteSource σ) (isFinal : WireMessage → Bool)
    (Seen : List WireMessage → Option ρ → Prop) (before got : List WireMessage) (m : WireMessage)
    (rest : List WireMessage) (future : Bytes) (ret : ReadReturn ρ σ) : Prop where
  isOpen : ∀ x ∈ got, x.closes isFinal = false
  closes : m.closes isFinal = true
  done : ret.done ≠ 0
  idle : ret.rop.Idle
  left : source.pending ret.source ++ future = frames (rest.map WireMessage.body)
  closed : Closed Seen (before ++ got ++ [m]) m ret.err ret.rop.response ret.events

/-- A call on a source, which gets to the frames `got`. -/
structure Serves (source : ByteSource σ) (decoder : RiakResponseDecoder)
    (isFinal : WireMessage → Bool) (Seen : List WireMessage → Option ρ → Prop)
    (before later : List WireMessage) (future : Bytes) (rop : RiakOperation ρ)
    (got : List WireMessage) (ret : ReadReturn ρ σ) (final : Heap) : Prop where
  ample : final.Ample
  agrees : ret.rop.Agrees rop
  shows : Shows isFinal rop got ret.events
  outcome : (∃ rest, later = got ++ rest ∧
      Waits source decoder isFinal Seen before got rest future ret final) ∨
    ∃ first m rest, got = first ++ [m] ∧ later = first ++ m :: rest ∧
      Ends source isFinal Seen before first m rest future ret

section Call

variable {source : ByteSource σ} {env : ReadEnv ρ} {decoder : RiakResponseDecoder}
  {isFinal : WireMessage → Bool} {Seen : List WireMessage → Option ρ → Prop}
  {before later got : List WireMessage} {future : Bytes} {rop : RiakOperation ρ}
  {request : RiakRequestCache}

theorem Serves.cons {m : WireMessage} {turn : Turn ρ} {ret : ReadReturn ρ σ}
    (hopen : m.closes isFinal = false) (hagrees : turn.rop.Agrees rop)
    (hshows : Shows isFinal rop [m] turn.events)
    (h : Serves source decoder isFinal Seen (before ++ [m]) later future turn.rop got ret final) :
    Serves source decoder isFinal Seen before (m :: later) future rop (m :: got)
      { ret with events := turn.events ++ ret.events } final := by
  have hopen' : ∀ first : List WireMessage, (∀ x ∈ first, x.closes isFinal = false) →
      ∀ x ∈ m :: first, x.closes isFinal = false := by
    intro first hfirst x hx
    rcases List.mem_cons.mp hx with rfl | hx
    · exact hopen
    · exact hfirst x hx
  refine ⟨h.ample, h.agrees.trans hagrees,
    hshows.append (h.shows.congr hagrees.responseCb hagrees.errorCb), ?_⟩
  rcases h.outcome with ⟨rest, hlater, hwaits⟩ | ⟨first, last, rest, hgot, hlater, hends⟩
  · refine Or.inl ⟨rest, by rw [hlater]; rfl, hopen' got hwaits.isOpen, hwaits.err, hwaits.done,
      hwaits.drained, ?_, hwaits.follows⟩
    have hseen := hwaits.seen
    rwa [List.append_assoc] at hseen
  · refine Or.inr ⟨m :: first, last, rest, by rw [hgot]; rfl, by rw [hlater]; rfl,
      hopen' first hends.isOpen, hends.closes, hends.done, hends.idle, hends.left, ?_⟩
    have hclosed := hends.closed
    rw [List.append_assoc before [m] first] at hclosed
    refine ⟨fun hresponse => ?_, hclosed.error⟩
    obtain ⟨herr, hseen, hanswer⟩ := hclosed.final hresponse
    refine ⟨herr, hseen, ?_⟩
    intro cb answer hmem
    rcases List.mem_append.mp hmem with hearlier | hlast
    · -- the frame is not final, so nothing was called for it
      have hnone : turn.events.filterMap ReadEvent.responseCall? = [] := by
        have hfinal : isFinal m = false := (Bool.or_eq_false_iff.mp hopen).2
        rw [hshows.responses]
        unfold responseCalls
        rw [List.flatMap_singleton, hfinal, Bool.and_false]
        rfl
      cases List.filterMap_eq_nil_iff.mp hnone _ hearlier
    · exact hanswer cb answer hlast

/-- A read of an exchange gets a fragment, unless what has arrived ends in the
    middle of a length. -/
theorem Follows.fragment {s : σ} {r : Reader}
    (h : Follows decoder ⟨rop, 0, heap, source.pending s ++ future⟩ later r)
    (hcut : cutsLength WireMessage.body (WireMessage.closes isFinal) later
      ((frames (later.map WireMessage.body)).length - future.length) = false) :
    Fragment rop (source.read s rop.readRequest.count).1 := by
  rw [source.read_fst]
  unfold Fragment
  cases hphase : rop.msglenComplete with
  | true =>
    rw [if_pos rfl, List.length_take]
    exact Nat.min_le_left _ _
  | false =>
    rw [if_neg (by decide)]
    have hbetween : rop.Idle ∧
        source.pending s ++ future = frames (later.map WireMessage.body) := h.between hphase
    obtain ⟨hidle, hunread⟩ := hbetween
    have hcount : rop.readRequest.count = 4 := by
      have hzero : rop.position.toNat = 0 := by rw [hidle.1]; rfl
      rw [readRequest_lengthPrefix hidle.2.2 (by omega), ReadRequest.count, hzero]
    rw [hcount, List.length_take]
    cases later with
    | nil =>
      rw [List.map_nil, frames_nil, List.append_eq_nil_iff] at hunread
      rw [hunread.1]
      exact Or.inl rfl
    | cons m later =>
      rw [← hunread, List.length_append, Nat.add_sub_cancel] at hcut
      rcases whole_length_of_cutsLength hcut with hzero | hfull
      · left
        omega
      · right
        omega

theorem cutsLength_behind {m : WireMessage} (hopen : m.closes isFinal = false)
    (hroom : future.length ≤ (frames (later.map WireMessage.body)).length) :
    cutsLength WireMessage.body (WireMessage.closes isFinal) (m :: later)
        ((frames ((m :: later).map WireMessage.body)).length - future.length) =
      cutsLength WireMessage.body (WireMessage.closes isFinal) later
        ((frames (later.map WireMessage.body)).length - future.length) := by
  have hsplit : (frames ((m :: later).map WireMessage.body)).length - future.length =
      (frames (([m] : List WireMessage).map WireMessage.body)).length +
        ((frames (later.map WireMessage.body)).length - future.length) := by
    rw [show m :: later = [m] ++ later from rfl, List.map_append, frames_append,
      List.length_append]
    omega
  have hfirst : ∀ x ∈ [m], x.closes isFinal = false := by
    intro x hx
    rw [List.mem_singleton.mp hx]
    exact hopen
  rw [hsplit]
  exact cutsLength_append hfirst _

theorem Turn.Quiet.after {turn : Turn ρ} (h : turn.Quiet rop 0) (heap : Heap) (unread : Bytes) :
    Session.after turn heap unread = ⟨turn.rop, 0, heap, unread⟩ := by
  unfold Session.after
  rw [h.done]
  cases turn.exit <;> rfl

/-- **A call on a source serves the exchange**: it takes the frames that have
    arrived one after another, up to the one that closes the exchange. -/
theorem riakReadOnLoop_serves {all : List WireMessage}
    (hgathers : Gathers env decoder request isFinal Seen all)
    (hwell : ∀ m ∈ all, m.WellFormed env) :
    ∀ (fuel : Nat) (before later : List WireMessage) (rop : RiakOperation ρ) (s : σ) (heap : Heap)
      (r : Reader), all = before ++ later → (∀ m ∈ before, m.closes isFinal = false) →
      Follows decoder ⟨rop, 0, heap, source.pending s ++ future⟩ later r →
      rop.Asks request → Seen before rop.response →
      cutsLength WireMessage.body (WireMessage.closes isFinal) later
        ((frames (later.map WireMessage.body)).length - future.length) = false →
      (source.pending s).length + rop.patience < fuel →
      ∃ ret final got,
        riakReadOnLoop env (sourceReadCb source) fuel rop 0 s heap = .ok (some ret, final) ∧
          Serves source decoder isFinal Seen before later future rop got ret final := by
  intro fuel
  induction fuel with
  | zero =>
    intro before later rop s heap r _ _ _ _ _ _ hfuel
    exact absurd hfuel (Nat.not_lt_zero _)
  | succ fuel ih =>
    intro before later rop s heap r hall hopen hfollows hasks hseen hcut hfuel
    have hfragment := hfollows.fragment hcut
    have hwell' : ∀ m ∈ later, m.WellFormed env := by
      intro m hm
      apply hwell
      rw [hall]
      exact List.mem_append_right _ hm
    have hread : sourceReadCb source s rop.readRequest.count heap =
        .ok ((.received (source.read s rop.readRequest.count).1,
          (source.read s rop.readRequest.count).2), heap) := rfl
    have hunread := source.read_append s rop.readRequest.count future
    rcases hfollows.turn_cases env (fun m hm => (hwell' m hm).1) hunread hfragment with
      ⟨_, turn, heap', r', hturn, hquiet, hexit, hfollows'⟩ | ⟨m, later', rfl, hrest, hcompletes⟩
    · rw [hquiet.after] at hfollows'
      rcases hexit with hexit | ⟨hexit, hshort⟩
      · have hturn : riakReadTurn env rop 0 (.received (source.read s rop.readRequest.count).1)
            heap = .ok (turn, heap') := hturn
        have hmeasure := riakReadTurn_patience source hturn hexit
        obtain ⟨ret, final, got, hloop, hserves⟩ := ih before later turn.rop _ heap' r' hall hopen
          hfollows' (hquiet.agrees.asks hasks) (by rw [hquiet.response]; exact hseen)
          hcut (by omega)
        have hdone : turn.done = 0 := hquiet.done
        rw [← hdone] at hloop
        refine ⟨_, final, got, riakReadOnLoop_goes_on hread hturn hexit hloop, hserves.ample,
          hserves.agrees.trans hquiet.agrees, ?_, ?_⟩
        · rw [hquiet.events]
          exact hserves.shows.congr hquiet.agrees.responseCb hquiet.agrees.errorCb
        · rw [hquiet.events]
          exact hserves.outcome
      · have hdrained := source.pending_of_short hshort
        rw [hdrained] at hfollows'
        refine ⟨_, heap', [], riakReadOnLoop_exit hread hturn hexit fuel, hfollows'.ample,
          hquiet.agrees, ?_,
          Or.inl ⟨later, rfl, nofun, rfl, hquiet.done, hdrained, ?_, r', hfollows'⟩⟩
        · rw [hquiet.events]
          exact Shows.nil
        · rw [List.append_nil, hquiet.response]
          exact hseen
    · have hdecoder : (rop.without m).decoder = some decoder := hfollows.decoder
      obtain ⟨turn, heap', hdispatch, hample, hidle, hagrees, hshows, hgoes, hends⟩ :=
        riakReadDispatch_frame hgathers hall hopen (hwell' m List.mem_cons_self) hfollows.ample
          hdecoder ⟨rfl, rfl, rfl⟩ ⟨hasks.request, hasks.streaming⟩ hseen
      have hturn : riakReadTurn env rop 0 (.received (source.read s rop.readRequest.count).1)
          heap = .ok (turn, heap') := (hcompletes.turn env 0).trans hdispatch
      have hagrees : turn.rop.Agrees rop := hagrees.trans (rop.without_agrees m)
      have hshows : Shows isFinal rop [m] turn.events := hshows.congr rfl rfl
      cases hcloses : m.closes isFinal with
      | true =>
        obtain ⟨err, hexit, hdone, hclosed⟩ := hends hcloses
        refine ⟨_, heap', [m], riakReadOnLoop_exit hread hturn hexit fuel, hample, hagrees, hshows,
          Or.inr ⟨[], m, later', rfl, rfl, nofun, hcloses, hdone, hidle, hrest, ?_⟩⟩
        rw [List.append_nil]
        exact hclosed
      | false =>
        obtain ⟨hexit, hzero, hseen'⟩ := hgoes hcloses
        have hmeasure := riakReadTurn_patience source hturn hexit
        have hroom : future.length ≤ (frames (later'.map WireMessage.body)).length := by
          rw [← hrest, List.length_append]
          omega
        rw [cutsLength_behind hcloses hroom] at hcut
        have hfollows' := follows_between (s := ⟨turn.rop, 0, heap', _⟩)
          (hagrees.decoder.trans hfollows.decoder) hample hidle hrest
        obtain ⟨ret, final, got, hloop, hserves⟩ := ih (before ++ [m]) later' turn.rop _ heap' _
          (by rw [hall, List.append_assoc]; rfl) (by
            intro x hx
            rcases List.mem_append.mp hx with hx | hx
            · exact hopen x hx
            · rw [List.mem_singleton.mp hx]
              exact hcloses)
          hfollows' (hagrees.asks hasks) hseen' hcut (by omega)
        rw [← hzero] at hloop
        exact ⟨_, final, m :: got, riakReadOnLoop_goes_on hread hturn hexit hloop,
          hserves.cons hcloses hagrees hshows⟩

end Call

end RiakClient
