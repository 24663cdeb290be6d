import RiakClient.Ping
import RiakClient.ReadFraming

/-!
# Callbacks

An application gets the responses of an operation through `response_cb` and the
errors of the server through `error_cb`. Both are called from inside `riak_read`:
the first one where a decoder has reported done, the second one both by the
decoder of error messages and by the loop that called it.
-/

namespace RiakClient

open CSem Framing LabelledRun

variable {ρ : Type} {heap final : Heap}

/-! ### What an application sees -/

/-- A call of the callback for responses. -/
def ReadEvent.responseCall? : ReadEvent ρ → Option RiakResponseCallback
  | responseCb cb _ => some cb
  | _ => none

/-- A call of the callback for errors. -/
def ReadEvent.errorCall? : ReadEvent ρ → Option RiakResponseCallback
  | errorCb cb _ => some cb
  | _ => none

/-- A final response: its decoder has reported done. -/
def ReadEvent.isFinal : ReadEvent ρ → Bool
  | decoded _ result => result.done ≠ 0
  | _ => false

def WireMessage.isError (m : WireMessage) : Bool := m.msgid = MSG_RPBERRORRESP

/-- A turn that completed the given frame called `response_cb` once if the frame
    was a final response, and `error_cb` once if it was an error of the server,
    and neither of them otherwise. -/
structure FiresOnce (rop : RiakOperation ρ) (frame : Option WireMessage) (turn : Turn ρ) :
    Prop where
  response : turn.events.filterMap ReadEvent.responseCall? =
    (turn.events.filter ReadEvent.isFinal).flatMap fun _ => rop.responseCb.toList
  error : turn.events.filterMap ReadEvent.errorCall? =
    if frame.any WireMessage.isError then rop.errorCb.toList else []

/-- A frame of the server: an error that protobuf-c can unpack, or a response. -/
def WireMessage.WellFormed (env : ReadEnv ρ) (m : WireMessage) : Prop :=
  m.payload.length < 2 ^ 32 - 1 ∧
    (m.isError = true → ∃ errresp, env.rpbErrorRespUnpack m.payload = some errresp)

/-! ### What one frame does

`Fires` says what happens and `FiresOnce` what should: the two differ in the second
call of the error callback alone. A response goes to its decoder, and to the callback
if it was the last one; an error ends the call. -/

/-- What a turn does with the frame it completes: a response goes to the decoder,
    an error to the error callback *twice*, and the callbacks stay as they are. -/
structure Fires (rop : RiakOperation ρ) (frame : Option WireMessage) (turn : Turn ρ) : Prop where
  responseCb : turn.rop.responseCb = rop.responseCb
  errorCb : turn.rop.errorCb = rop.errorCb
  messages : turn.messages =
    (frame.filter fun m => !m.isError).toList.map fun m => some m.received
  response : turn.events.filterMap ReadEvent.responseCall? =
    (turn.events.filter ReadEvent.isFinal).flatMap fun _ => rop.responseCb.toList
  error : turn.events.filterMap ReadEvent.errorCall? =
    if frame.any WireMessage.isError then rop.errorCb.toList ++ rop.errorCb.toList else []

theorem Fires.once_iff {rop : RiakOperation ρ} {frame : Option WireMessage} {turn : Turn ρ}
    (h : Fires rop frame turn) :
    FiresOnce rop frame turn ↔ rop.errorCb = none ∨ frame.any WireMessage.isError = false := by
  constructor
  · rintro ⟨_, herror⟩
    rw [h.error] at herror
    cases hframe : frame.any WireMessage.isError with
    | false => exact Or.inr rfl
    | true =>
      rw [hframe] at herror
      cases hcb : rop.errorCb with
      | none => exact Or.inl rfl
      | some cb =>
        rw [hcb] at herror
        cases herror
  · intro hquiet
    refine ⟨h.response, ?_⟩
    rw [h.error]
    rcases hquiet with hcb | hframe
    · rw [hcb]
      rfl
    · rw [hframe]
      rfl

theorem Turn.Quiet.fires {rop : RiakOperation ρ} {done : RiakBoolean} {turn : Turn ρ}
    (h : turn.Quiet rop done) : Fires rop none turn := by
  refine ⟨h.agrees.responseCb, h.agrees.errorCb, ?_, ?_, ?_⟩
  · unfold Turn.messages
    rw [h.events]
    rfl
  · rw [h.events]
    rfl
  · rw [h.events]
    rfl

theorem responseCbEvents_calls (rop : RiakOperation ρ) :
    (responseCbEvents rop).filterMap ReadEvent.responseCall? = rop.responseCb.toList ∧
      (responseCbEvents rop).filterMap ReadEvent.errorCall? = [] ∧
      (responseCbEvents rop).filter ReadEvent.isFinal = [] := by
  unfold responseCbEvents
  cases rop.responseCb with
  | none => exact ⟨rfl, rfl, rfl⟩
  | some cb => exact ⟨rfl, rfl, rfl⟩

theorem errorCbEvents_calls (rop : RiakOperation ρ) (response : RiakServerErrorResponse) :
    (errorCbEvents rop response).filterMap ReadEvent.errorCall? = rop.errorCb.toList ∧
      (errorCbEvents rop response).filterMap ReadEvent.responseCall? = [] ∧
      (errorCbEvents rop response).filter ReadEvent.isFinal = [] := by
  unfold errorCbEvents
  cases rop.errorCb with
  | none => exact ⟨rfl, rfl, rfl⟩
  | some cb => exact ⟨rfl, rfl, rfl⟩

theorem WireMessage.received_payload {m : WireMessage} (hlength : m.payload.length < 2 ^ 32 - 1) :
    m.received.payload = pure m.payload := by
  have hlen : (UInt32.ofNat (m.payload.length + 1)).toNat = m.payload.length + 1 := by
    rw [UInt32.toNat_ofNat']
    exact Nat.mod_eq_of_lt (by omega)
  have hbody : m.body.length = m.payload.length + 1 := rfl
  unfold RiakPbMessage.payload WireMessage.received
  simp only [hlen]
  rw [if_neg (by omega), ← hbody, List.take_length]
  rfl

theorem riakReadDispatch_error {env : ReadEnv ρ} (hheap : heap.Ample) {rop : RiakOperation ρ}
    {decoder : RiakResponseDecoder} (hdecoder : rop.decoder = some decoder) {m : WireMessage}
    (hm : m.WellFormed env) (herror : m.isError = true) :
    ∃ turn error, riakReadDispatch env rop m.msgid (some m.received) heap = .ok (turn, heap) ∧
      turn.rop = { rop with error := error, response := none } ∧ Fires rop (some m) turn := by
  obtain ⟨hlength, hunpack⟩ := hm
  obtain ⟨errresp, hunpack⟩ := hunpack herror
  have hmsgid : m.msgid = MSG_RPBERRORRESP := of_decide_eq_true herror
  have hstored : riakServerErrorNew rop.error errresp.errcode (some ⟨errresp.errmsg, false⟩) heap =
      .ok ((.ok, some ⟨errresp.errcode, some ⟨errresp.errmsg, true⟩⟩), heap) := by
    unfold riakServerErrorNew
    rw [C.bind_of_ok (C.allocate_of_ample hheap), if_pos rfl,
      C.bind_of_ok (riakBinaryCopy_of_ample hheap _)]
    rfl
  unfold riakReadDispatch
  simp only [hdecoder, hmsgid, if_true]
  unfold riakReadServerError riakServerErrorResponseDecode
  simp only [C.deref_some, pure_bind, WireMessage.received_payload hlength, hunpack, bind_assoc]
  rw [C.bind_of_ok (C.allocate_of_ample hheap), if_pos rfl, bind_assoc,
    C.bind_of_ok (riakBinaryCopyFromPb_of_ample hheap _)]
  simp only [bind_assoc]
  rw [C.bind_of_ok hstored]
  refine ⟨_, _, rfl, by rw [← hdecoder], rfl, rfl, ?_, ?_, ?_⟩
  · show List.filterMap _ (_ ++ _) = _
    rw [List.filterMap_append, errorCbEvents_messages, errorCbEvents_messages, Option.filter_some,
      herror]
    rfl
  · simp only [List.filterMap_append, List.filter_append, errorCbEvents_calls, List.flatMap_nil,
      List.append_nil]
  · rw [List.filterMap_append, (errorCbEvents_calls _ _).1, (errorCbEvents_calls _ _).1,
      Option.any_some, herror]
    rfl

theorem riakReadDispatch_response {env : ReadEnv ρ} {rop : RiakOperation ρ}
    {decoder : RiakResponseDecoder} (hdecoder : rop.decoder = some decoder) {m : WireMessage}
    (hresponse : m.isError = false) {result : Decoded ρ}
    (hresult : env.decode decoder rop (some m.received) rop.response 1 heap = .ok (result, final))
    (hok : result.err = .ok) :
    ∃ turn, riakReadDispatch env rop m.msgid (some m.received) heap = .ok (turn, final) ∧
      turn.rop = rop.answered result.resp ∧ Fires rop (some m) turn := by
  have hmsgid : m.msgid ≠ MSG_RPBERRORRESP := of_decide_eq_false hresponse
  obtain ⟨turn, hdispatch, hanswers, hevents⟩ :=
    riakReadDispatch_of_decoded hdecoder hmsgid hresult hok
  have hcb : turn.rop.responseCb = rop.responseCb := by
    rw [hanswers.rop]
    rfl
  refine ⟨turn, hdispatch, hanswers.rop, hcb, ?_, ?_, ?_, ?_⟩
  · rw [hanswers.rop]
    rfl
  · rw [hanswers.messages, Option.filter_some, hresponse]
    rfl
  · rw [hevents]
    by_cases hdone : result.done = 0
    · rw [if_neg (fun hne => hne hdone), List.filter_cons_of_neg (by simp [ReadEvent.isFinal, hdone])]
      rfl
    · rw [if_pos hdone, List.filter_cons_of_pos (by simp [ReadEvent.isFinal, hdone]),
        List.filterMap_cons_none rfl, (responseCbEvents_calls _).1, (responseCbEvents_calls _).2.2,
        hcb]
      simp
  · rw [hevents, List.filterMap_cons_none rfl, Option.any_some, hresponse]
    by_cases hdone : result.done = 0
    · rw [if_neg (fun hne => hne hdone)]
      rfl
    · rw [if_pos hdone, (responseCbEvents_calls _).2.1]
      rfl

theorem Fires.congr {rop rop' : RiakOperation ρ} {frame : Option WireMessage} {turn : Turn ρ}
    (h : Fires rop frame turn) (hresponseCb : rop.responseCb = rop'.responseCb)
    (herrorCb : rop.errorCb = rop'.errorCb) : Fires rop' frame turn := by
  obtain ⟨hkeeps, hkeeps', hmessages, hresponse, herror⟩ := h
  rw [hresponseCb] at hkeeps hresponse
  rw [herrorCb] at hkeeps' herror
  exact ⟨hkeeps, hkeeps', hmessages, hresponse, herror⟩

/-- Any frame is handled between messages, and nothing but its own callbacks is
    called for it. -/
theorem riakReadDispatch_fires {env : ReadEnv ρ} (hheap : heap.Ample) {rop : RiakOperation ρ}
    (hidle : rop.Idle) {decoder : RiakResponseDecoder} (hdecoder : rop.decoder = some decoder)
    {m : WireMessage} (hm : m.WellFormed env)
    (hdecode : m.isError = false → ∃ result final,
      env.decode decoder rop (some m.received) rop.response 1 heap = .ok (result, final) ∧
        final.Ample ∧ result.err = .ok) :
    ∃ turn heap', riakReadDispatch env rop m.msgid (some m.received) heap = .ok (turn, heap') ∧
      heap'.Ample ∧ turn.rop.Idle ∧ turn.rop.decoder = some decoder ∧ Fires rop (some m) turn := by
  cases herror : m.isError with
  | true =>
    obtain ⟨turn, error, hdispatch, hrop, hfires⟩ :=
      riakReadDispatch_error hheap hdecoder hm herror
    refine ⟨turn, heap, hdispatch, hheap, ?_, ?_, hfires⟩
    · rw [hrop]
      exact hidle
    · rw [hrop]
      exact hdecoder
  | false =>
    obtain ⟨result, final, hresult, hample, hok⟩ := hdecode herror
    obtain ⟨turn, hdispatch, hrop, hfires⟩ :=
      riakReadDispatch_response hdecoder herror hresult hok
    refine ⟨turn, final, hdispatch, hample, ?_, ?_, hfires⟩
    · rw [hrop]
      exact hidle
    · rw [hrop]
      exact hdecoder

/-! ### Whole sessions

An error frame moves the stream on like any other frame, so a session with errors
follows the abstract reader as one without. The invariant knows which turn completed
which frame. -/

/-- The frames of a stream that its turns completed, turn by turn. -/
abbrev Completions (ρ : Type) := List (SessionTurn ρ × Option WireMessage)

/-- The frames in the order they were completed. -/
def Completions.frames (seen : Completions ρ) : List WireMessage := seen.filterMap Prod.snd

/-- A turn that completes a frame stops right behind it, and hands it to the
    decoder unless it is an error. -/
structure SessionTurn.Completes (entry : SessionTurn ρ) (msgs : List WireMessage)
    (frame : Option WireMessage) : Prop where
  messages : entry.turn.messages =
    (frame.filter fun m => !m.isError).toList.map fun m => some m.received
  unread : ∀ m, frame = some m → ∃ earlier after, msgs = earlier ++ m :: after ∧
    entry.unread = Framing.frames (after.map WireMessage.body)

/-- What holds after every turn: it is known which frames were completed when,
    each fired as it does alone, and the session follows a reader of the others. -/
structure Fired (decoder : RiakResponseDecoder) (msgs : List WireMessage) (rop : RiakOperation ρ)
    (entries : List (SessionTurn ρ)) (s : Session ρ) (seen : Completions ρ)
    (later : List WireMessage) (r : Reader) : Prop where
  split : msgs = seen.frames ++ later
  entries : seen.map Prod.fst = entries
  completes : ∀ p ∈ seen, p.1.Completes msgs p.2
  fires : ∀ p ∈ seen, Fires rop p.2 p.1.turn
  responseCb : s.rop.responseCb = rop.responseCb
  errorCb : s.rop.errorCb = rop.errorCb
  follows : Follows decoder s later r

theorem Follows.turn_fires {env : ReadEnv ρ} {decoder : RiakResponseDecoder} {s : Session ρ}
    {msgs : List WireMessage} {r : Reader} (h : Follows decoder s msgs r)
    (hmsgs : ∀ m ∈ msgs, m.WellFormed env) {chunk rest : Bytes}
    (hunread : s.unread = chunk ++ rest) (hfragment : Fragment s.rop chunk)
    (hdecode : s.rop.Decodes env s.heap chunk) :
    ∃ turn heap' frame later r',
      riakReadTurn env s.rop s.done (.received chunk) s.heap = .ok (turn, heap') ∧
      Fires s.rop frame turn ∧ msgs = frame.toList ++ later ∧
      (frame.isSome → turn.rop.Idle) ∧
      Follows decoder (Session.after turn heap' rest) later r' := by
  rcases h.turn_cases env (fun m hm => (hmsgs m hm).1) hunread hfragment with
    ⟨_, turn, heap', r', hturn, hquiet, _, hfollows⟩ | ⟨m, later, rfl, hrest, hcompletes⟩
  · exact ⟨turn, heap', none, msgs, r', hturn, hquiet.fires, rfl, nofun, hfollows⟩
  · have hdecoder : (s.rop.without m).decoder = some decoder := h.decoder
    obtain ⟨turn, heap', hdispatch, hample, hidle, hdecoder', hfires⟩ :=
      riakReadDispatch_fires h.ample ⟨rfl, rfl, rfl⟩ hdecoder (hmsgs m List.mem_cons_self)
        fun hresponse => hdecode _ _ _ _ _ hcompletes hdecoder (of_decide_eq_false hresponse)
    exact ⟨turn, heap', some m, later, ⟨.between, later.map WireMessage.body⟩,
      (hcompletes.turn env s.done).trans hdispatch, hfires.congr rfl rfl, rfl, fun _ => hidle,
      follows_between hdecoder' hample hidle hrest⟩

theorem Fired.wellFormed {env : ReadEnv ρ} {decoder : RiakResponseDecoder}
    {msgs : List WireMessage} {rop : RiakOperation ρ} {entries : List (SessionTurn ρ)}
    {s : Session ρ} {seen : Completions ρ} {later : List WireMessage} {r : Reader}
    (h : Fired decoder msgs rop entries s seen later r) (hmsgs : ∀ m ∈ msgs, m.WellFormed env) :
    ∀ m ∈ later, m.WellFormed env := by
  intro m hm
  apply hmsgs
  rw [h.split]
  exact List.mem_append_right _ hm

theorem Fired.step {env : ReadEnv ρ} {decoder : RiakResponseDecoder} {msgs : List WireMessage}
    {rop : RiakOperation ρ} (hmsgs : ∀ m ∈ msgs, m.WellFormed env)
    {entries : List (SessionTurn ρ)} {entry : SessionTurn ρ} {s s' : Session ρ}
    {seen : Completions ρ} {later : List WireMessage} {r : Reader}
    (h : Fired decoder msgs rop entries s seen later r)
    (hdecode : ∀ chunk rest, s.unread = chunk ++ rest → Fragment s.rop chunk →
      s.rop.Decodes env s.heap chunk) (hstep : Session.Step env s entry s') :
    ∃ seen' later' r', Fired decoder msgs rop (entries ++ [entry]) s' seen' later' r' := by
  cases hstep with
  | turn chunk rest turn heap hunread hfragment hturn =>
    obtain ⟨turn', heap', frame, later', r', hturn', hfires, hmsgs', hidle, hfollows⟩ :=
      h.follows.turn_fires (h.wellFormed hmsgs) hunread hfragment
        (hdecode chunk rest hunread hfragment)
    rw [hturn] at hturn'
    cases hturn'
    have hsplit : msgs = seen.frames ++ frame.toList ++ later' := by
      rw [List.append_assoc, ← hmsgs']
      exact h.split
    have hcompletes : SessionTurn.Completes ⟨turn, rest⟩ msgs frame := by
      refine ⟨hfires.messages, ?_⟩
      rintro m rfl
      refine ⟨seen.frames, later', ?_, (hfollows.between (hidle rfl).2.2).2⟩
      rw [hsplit, List.append_assoc]
      rfl
    refine ⟨seen ++ [(⟨turn, rest⟩, frame)], later', r', ?_, ?_, ?_, ?_,
      hfires.responseCb.trans h.responseCb, hfires.errorCb.trans h.errorCb, hfollows⟩
    · rw [hsplit]
      unfold Completions.frames
      rw [List.filterMap_append]
      cases frame <;> rfl
    · rw [List.map_append, h.entries]
      rfl
    · intro p hp
      rcases List.mem_append.mp hp with hearlier | hnew
      · exact h.completes p hearlier
      · rw [List.mem_singleton.mp hnew]
        exact hcompletes
    · intro p hp
      rcases List.mem_append.mp hp with hearlier | hnew
      · exact h.fires p hearlier
      · rw [List.mem_singleton.mp hnew]
        exact hfires.congr h.responseCb h.errorCb

theorem fired_of_run {env : ReadEnv ρ} {decoder : RiakResponseDecoder} {msgs : List WireMessage}
    {rop : RiakOperation ρ} {heap : Heap} {entries : List (SessionTurn ρ)} {last : Session ρ}
    (hmsgs : ∀ m ∈ msgs, m.WellFormed env) (hdecoder : rop.decoder = some decoder)
    (hidle : rop.Idle) (hheap : heap.Ample)
    (hdecode : DecodersSucceed env ⟨rop, 0, heap, frames (msgs.map WireMessage.body)⟩ entries)
    (hrun : Run (Session.Step env) ⟨rop, 0, heap, frames (msgs.map WireMessage.body)⟩ entries
      last) :
    ∃ seen later r, Fired decoder msgs rop entries last seen later r := by
  refine hrun.invariant_throughout
    (fun entries s => ∃ seen later r, Fired decoder msgs rop entries s seen later r) hdecode ?_ ?_
  · exact ⟨[], msgs, _, rfl, rfl, fun p hp => (List.not_mem_nil hp).elim,
      fun p hp => (List.not_mem_nil hp).elim, rfl, rfl,
      follows_between hdecoder hheap hidle rfl⟩
  · rintro entries s entry s' hdecodes ⟨seen, later, r, hfired⟩ hstep
    exact hfired.step hmsgs hdecodes hstep

/-- **When callbacks fire once.** In every session on responses and errors, it is
    known which turn completes which frame. The callbacks are called once for
    each of their frames and never for another one if and only if there is no
    error callback or no error was read. -/
theorem riak_callbacks_once_iff {env : ReadEnv ρ} {decoder : RiakResponseDecoder}
    {msgs : List WireMessage} {rop : RiakOperation ρ} {heap : Heap}
    {entries : List (SessionTurn ρ)} {last : Session ρ}
    (hmsgs : ∀ m ∈ msgs, m.WellFormed env) (hdecoder : rop.decoder = some decoder)
    (hidle : rop.Idle) (hheap : heap.Ample)
    (hdecode : DecodersSucceed env ⟨rop, 0, heap, frames (msgs.map WireMessage.body)⟩ entries)
    (hrun : Run (Session.Step env) ⟨rop, 0, heap, frames (msgs.map WireMessage.body)⟩ entries
      last) :
    (∃ (seen : Completions ρ) (later : List WireMessage), msgs = seen.frames ++ later ∧
      seen.map Prod.fst = entries ∧ (∀ p ∈ seen, p.1.Completes msgs p.2) ∧
      (last.rop.msglenComplete = false → last.rop.Idle ∧
        last.unread = frames (later.map WireMessage.body)) ∧
      (last.unread = [] → later = [] ∧ last.rop.Idle) ∧
      ((∀ p ∈ seen, FiresOnce rop p.2 p.1.turn) ↔
        rop.errorCb = none ∨ ∀ m ∈ seen.frames, m.isError = false)) ∧
    ∀ chunk rest, last.unread = chunk ++ rest → Fragment last.rop chunk →
      ∃ turn next, Session.Step env last ⟨turn, rest⟩ next := by
  obtain ⟨seen, later, r, hfired⟩ := fired_of_run hmsgs hdecoder hidle hheap hdecode hrun
  refine ⟨⟨seen, later, hfired.split, hfired.entries, hfired.completes, hfired.follows.between,
    hfired.follows.ended, ?_⟩, ?_⟩
  · constructor
    · intro honce
      cases hcb : rop.errorCb with
      | none => exact Or.inl rfl
      | some cb =>
        refine Or.inr fun m hm => ?_
        obtain ⟨p, hp, hframe⟩ := List.mem_filterMap.mp hm
        rcases (hfired.fires p hp).once_iff.mp (honce p hp) with hnone | hquiet
        · rw [hcb] at hnone
          cases hnone
        · rw [hframe] at hquiet
          exact hquiet
    · intro hquiet p hp
      apply (hfired.fires p hp).once_iff.mpr
      rcases hquiet with hcb | hquiet
      · exact Or.inl hcb
      · apply Or.inr
        cases hframe : p.2 with
        | none => rfl
        | some m => exact hquiet m (List.mem_filterMap.mpr ⟨p, hp, hframe⟩)
  · intro chunk rest hunread hfragment
    obtain ⟨turn, heap', _, _, _, hturn, _⟩ := hfired.follows.turn_fires (hfired.wellFormed hmsgs)
      hunread hfragment (hdecode.last hrun chunk rest hunread hfragment)
    exact ⟨turn, _, .turn last chunk rest turn heap' hunread hfragment hturn⟩

/-- An operation that waits for its ping response, with both callbacks. -/
def pingWatched : RiakOperation RiakPingResponse :=
  { decoder := some .ping, responseCb := some 7, errorCb := some 9 }

/-- A ping response, which is final. -/
theorem riak_callbacks_once_pong :
    ∃ (entries : List (SessionTurn RiakPingResponse)) (last : Session RiakPingResponse),
      Run (Session.Step (pingReadEnv fun _ => none))
        ⟨pingWatched, 0, Heap.fresh, [0, 0, 0, 1, 2]⟩ entries last ∧
      ∃ seen : Completions RiakPingResponse, seen.map Prod.fst = entries ∧
        seen.frames = [⟨2, []⟩] ∧ ∀ p ∈ seen, FiresOnce pingWatched p.2 p.1.turn := by
  have hannounce : Session.Step (pingReadEnv fun _ => none)
      ⟨pingWatched, 0, Heap.fresh, [0, 0, 0, 1, 2]⟩
      ⟨⟨pingWatched.announced 1 (some [0]), 0, none, []⟩, [2]⟩
      ⟨pingWatched.announced 1 (some [0]), 0, Heap.fresh, [2]⟩ :=
    .turn _ [0, 0, 0, 1] _ _ _ rfl (by decide) rfl
  have hdeliver : Session.Step (pingReadEnv fun _ => none)
      ⟨pingWatched.announced 1 (some [0]), 0, Heap.fresh, [2]⟩
      ⟨⟨pingWatched.answered (some ⟨1⟩), 1, some .ok,
        [.decoded (some ⟨2, 1, [2]⟩) ⟨.ok, some ⟨1⟩, 1⟩, .responseCb 7 (some ⟨1⟩)]⟩, []⟩
      ⟨pingWatched.answered (some ⟨1⟩), 0, Heap.fresh, []⟩ :=
    .turn _ [2] _ _ _ rfl (by decide) rfl
  have hrun := (Run.single hannounce).snoc hdeliver
  have hmsgs : ∀ m ∈ [(⟨2, []⟩ : WireMessage)], m.WellFormed (pingReadEnv fun _ => none) := by
    intro m hm
    rw [List.mem_singleton.mp hm]
    exact ⟨by decide, nofun⟩
  have hsendable : ∀ m ∈ [(⟨2, []⟩ : WireMessage)], m.Sendable := by
    intro m hm
    rw [List.mem_singleton.mp hm]
    exact ⟨by decide, by decide⟩
  have hgathers : GathersAll (pingReadEnv fun _ => none) .ping pingWatched (fun _ _ => True)
      [⟨2, []⟩] :=
    fun _ _ _ _ rop heap hheap _ _ =>
      ⟨_, heap, riakPingResponseDecode_of_ample hheap rop.response, hheap, rfl, trivial⟩
  have hdecode := decodersSucceed_of_gathersAll hsendable hgathers trivial rfl ⟨rfl, rfl, rfl⟩
    Heap.fresh_ample
  obtain ⟨⟨seen, later, hsplit, hentries, _, _, hended, honce⟩, _⟩ :=
    riak_callbacks_once_iff hmsgs rfl ⟨rfl, rfl, rfl⟩ Heap.fresh_ample (hdecode _) hrun
  rw [(hended rfl).1, List.append_nil] at hsplit
  refine ⟨_, _, hrun, seen, hentries, hsplit.symm, honce.mpr (Or.inr ?_)⟩
  rw [← hsplit]
  decide

/-- One error of the server, two calls of `error_cb`. -/
theorem riak_error_callback_twice :
    ∃ (entries : List (SessionTurn RiakPingResponse)) (last : Session RiakPingResponse),
      Run (Session.Step (pingReadEnv fun _ => some ⟨[], 0⟩))
        ⟨pingWatched, 0, Heap.fresh, frames [WireMessage.body ⟨0, [10, 0, 16, 0]⟩]⟩ entries last ∧
      last.unread = [] ∧
      (entries.flatMap fun entry => entry.turn.events).filterMap ReadEvent.errorCall? =
        [9, 9] := by
  have hannounce : Session.Step (pingReadEnv fun _ => some ⟨[], 0⟩)
      ⟨pingWatched, 0, Heap.fresh, [0, 0, 0, 5, 0, 10, 0, 16, 0]⟩
      ⟨⟨pingWatched.announced 5 (some [0, 0, 0, 0, 0]), 0, none, []⟩, [0, 10, 0, 16, 0]⟩
      ⟨pingWatched.announced 5 (some [0, 0, 0, 0, 0]), 0, Heap.fresh, [0, 10, 0, 16, 0]⟩ :=
    .turn _ [0, 0, 0, 5] _ _ _ rfl (by decide) rfl
  refine ⟨_, _, (Run.single hannounce).snoc (.turn _ [0, 10, 0, 16, 0] [] _ _ rfl (by decide) rfl),
    rfl, rfl⟩

/-- What the calls of `riak_read` make an application see: a call of `response_cb` for
    each final response, and two of `error_cb` for each error. -/
theorem riak_read_calls_fire {env : ReadEnv ρ} {decoder : RiakResponseDecoder}
    {msgs : List WireMessage} {rop : RiakOperation ρ} {heap : Heap} {calls : List (ReadCall ρ)}
    {last : Caller ρ} (hmsgs : ∀ m ∈ msgs, m.WellFormed env) (hdecoder : rop.decoder = some decoder)
    (hidle : rop.Idle) (hheap : heap.Ample)
    (hdecode : ∀ groups, TurnsOf calls groups →
      DecodersSucceed env ⟨rop, 0, heap, frames (msgs.map WireMessage.body)⟩
        (groups.flatten.map ReadTurn.entry))
    (hrun : Run (Caller.Step env Fragment) ⟨rop, heap, frames (msgs.map WireMessage.body)⟩ calls
      last) :
    ∃ seen later, msgs = seen ++ later ∧
      (last.unread = [] → later = [] ∧ last.rop.Idle) ∧
      (calls.flatMap fun call => call.outcome.events).filterMap ReadEvent.responseCall? =
        (((calls.flatMap fun call => call.outcome.events).filter ReadEvent.isFinal).flatMap
          fun _ => rop.responseCb.toList) ∧
      (calls.flatMap fun call => call.outcome.events).filterMap ReadEvent.errorCall? =
        seen.flatMap fun m => if m.isError then rop.errorCb.toList ++ rop.errorCb.toList else [] := by
  obtain ⟨groups, hmade, hsession⟩ := Caller.session hrun
  obtain ⟨seen, later, r, hfired⟩ :=
    fired_of_run hmsgs hdecoder hidle hheap (hdecode groups hmade) hsession
  have hevents : (calls.flatMap fun call => call.outcome.events) =
      seen.flatMap fun p => p.1.turn.events := by
    calc (calls.flatMap fun call => call.outcome.events)
        = groups.flatten.flatMap fun read => read.entry.turn.events := hmade.events
      _ = (seen.map Prod.fst).flatMap fun entry => entry.turn.events := by
        rw [hfired.entries, List.flatMap_map]
      _ = seen.flatMap fun p => p.1.turn.events := List.flatMap_map Prod.fst _ seen
  refine ⟨seen.frames, later, hfired.split, hfired.follows.ended, ?_, ?_⟩
  · rw [hevents, List.filterMap_flatMap, List.filter_flatMap, List.flatMap_assoc]
    exact List.flatMap_congr fun p hp => (hfired.fires p hp).response
  · rw [hevents, List.filterMap_flatMap]
    unfold Completions.frames
    rw [List.filterMap_eq_flatMap_toList, List.flatMap_assoc]
    refine List.flatMap_congr fun p hp => ?_
    rw [(hfired.fires p hp).error]
    cases p.2 with
    | none => rfl
    | some m => rw [Option.any_some, Option.toList_some, List.flatMap_singleton]

end RiakClient
