import RiakClient.Listing
import RiakClient.ReadTurns

/-!
# What is written is read

A peer that writes its messages with `riak_write`, and `riak_read` on the other
side, which gets the stream in pieces: any pieces of the bodies, but every length
whole. The operation then follows the abstract reader of `Framing`, step by step,
and what holds of that reader holds of the code.
-/

namespace RiakClient

open CSem Framing LabelledRun

variable {ρ μ : Type} {heap final : Heap}

/-! ### The writing side -/

/-- A message of a peer. -/
structure WireMessage where
  msgid : UInt8
  payload : Bytes
deriving DecidableEq, Repr

namespace WireMessage

/-- What travels behind the length. -/
def body (m : WireMessage) : Bytes := m.msgid :: m.payload

/-- The message as a request on its way out. -/
def request (m : WireMessage) : RiakPbMessage :=
  ⟨m.msgid, UInt32.ofNat m.payload.length, m.payload⟩

/-- The message as a decoder should get it. -/
def received (m : WireMessage) : RiakPbMessage :=
  ⟨m.msgid, UInt32.ofNat (m.payload.length + 1), m.body⟩

/-- A message that is not an error and whose length can be announced. -/
def Sendable (m : WireMessage) : Prop :=
  m.msgid ≠ MSG_RPBERRORRESP ∧ m.payload.length < 2 ^ 32 - 1

end WireMessage

/-- The bytes that `riak_write` makes of messages written one after another. -/
def sendAll (msgs : List WireMessage) (sent : Bytes) : C Bytes :=
  msgs.foldlM (fun sent m => do
    let wrote ← riakWrite ({ pbRequest := some m.request } : RiakOperation Unit)
      writeEverything sent
    pure wrote.2) sent

theorem wroteNothing_of_lt {n : Nat} (hpos : 0 < n) (hlt : n < 2 ^ 32) :
    wroteNothing (n : Int) = false := by
  unfold wroteNothing
  rw [decide_eq_false_iff_not]
  omega

theorem riakWrite_everything {m : WireMessage} (hm : m.Sendable) (sent : Bytes) :
    riakWrite ({ pbRequest := some m.request } : RiakOperation Unit) writeEverything sent =
      pure (.ok, sent ++ frame m.body) := by
  obtain ⟨_, hlength⟩ := hm
  have hlen : (UInt32.ofNat m.payload.length).toNat = m.payload.length := by
    rw [UInt32.toNat_ofNat']
    exact Nat.mod_eq_of_lt (by omega)
  have hannounced : (UInt32.ofNat m.payload.length + 1).toNat = m.payload.length + 1 := by
    rw [UInt32.toNat_add, UInt32.toNat_one, hlen]
    exact Nat.mod_eq_of_lt (by omega)
  have hframe : frame m.body = bigEndian 4 (m.payload.length + 1) ++ (m.msgid :: m.payload) := rfl
  unfold riakWrite WireMessage.request writeEverything
  simp only [C.deref_some, pure_bind, hlen, Nat.lt_irrefl, if_false, hostBytes_htonl, hannounced,
    bigEndian_length, List.length_singleton, List.take_length, List.append_assoc]
  rw [wroteNothing_of_lt (by decide) (by decide), wroteNothing_of_lt (by decide) (by decide)]
  simp only [Bool.false_eq_true, if_false]
  by_cases hempty : m.payload = []
  · have hzero : ¬ 0 < UInt32.ofNat m.payload.length := by
      rw [hempty]
      decide
    rw [if_neg hzero, hframe, hempty]
  · have hpos : 0 < m.payload.length := List.length_pos_iff.mpr hempty
    have hsome : 0 < UInt32.ofNat m.payload.length := by
      rw [UInt32.lt_iff_toNat_lt, hlen, UInt32.toNat_zero]
      exact hpos
    rw [if_pos hsome, wroteNothing_of_lt hpos (by omega), hframe]
    rfl

theorem sendAll_eq {msgs : List WireMessage} (hmsgs : ∀ m ∈ msgs, m.Sendable) (sent : Bytes) :
    sendAll msgs sent = pure (sent ++ frames (msgs.map WireMessage.body)) := by
  induction msgs generalizing sent with
  | nil =>
    rw [List.map_nil, frames_nil, List.append_nil]
    rfl
  | cons m msgs ih =>
    have hrest := ih (fun m' hm' => hmsgs m' (List.mem_cons_of_mem _ hm')) (sent ++ frame m.body)
    unfold sendAll at hrest ⊢
    rw [List.foldlM_cons, riakWrite_everything (hmsgs m List.mem_cons_self)]
    simp only [pure_bind]
    rw [hrest, List.append_assoc]
    rfl

/-! ### The reading side

A session is what one side of a connection sees of the stream. Its steps are turns of
`riak_read`, each on the next piece of the stream, whichever call it belongs to: the
application calls again whenever a call returns. A piece of a body can be of any length
up to what is asked for, and a length comes whole or not at all. -/

/-- A connection in use: the operation, `*done_streaming` of the current call,
    the heap, and the bytes that were sent and not yet read. -/
structure Session (ρ : Type) where
  rop : RiakOperation ρ
  done : RiakBoolean
  heap : Heap
  unread : Bytes

/-- The pieces that a read may get: of a body at most what it asks for, of a
    length all four bytes or none. -/
def Fragment (rop : RiakOperation ρ) (chunk : Bytes) : Prop :=
  if rop.msglenComplete then chunk.length ≤ rop.readRequest.count
  else chunk.length = 0 ∨ chunk.length = 4

instance (rop : RiakOperation ρ) (chunk : Bytes) : Decidable (Fragment rop chunk) :=
  inferInstanceAs (Decidable (if rop.msglenComplete then chunk.length ≤ rop.readRequest.count
    else chunk.length = 0 ∨ chunk.length = 4))

/-- What one turn did, and what it left in the stream. -/
structure SessionTurn (ρ : Type) where
  turn : Turn ρ
  unread : Bytes

/-- The application calls `riak_read` again whenever it returns. -/
def Session.after (turn : Turn ρ) (heap : Heap) (unread : Bytes) : Session ρ :=
  ⟨turn.rop, if turn.exit.isSome then 0 else turn.done, heap, unread⟩

/-- A turn on a piece of the stream. -/
inductive Session.Step (env : ReadEnv ρ) : Session ρ → SessionTurn ρ → Session ρ → Prop
  | turn (s : Session ρ) (chunk rest : Bytes) (turn : Turn ρ) (heap : Heap)
      (hunread : s.unread = chunk ++ rest) (hfragment : Fragment s.rop chunk)
      (hturn : riakReadTurn env s.rop s.done (.received chunk) s.heap = .ok (turn, heap)) :
      Session.Step env s ⟨turn, rest⟩ (Session.after turn heap rest)

/-- A piece of a body that completes its message: `riak_read` takes the message out of
    the operation. -/
structure RiakOperation.Completes (rop : RiakOperation ρ) (heap : Heap) (chunk : Bytes)
    (rop' : RiakOperation ρ) (msgid : UInt8) (pbresp : Option RiakPbMessage) (final : Heap) :
    Prop where
  phase : rop.msglenComplete = true
  receive : riakReadReceive rop (.received chunk) heap =
    .ok ((rop', some (msgid, pbresp)), final)

/-- The call of the decoder that a read of this piece leads to succeeds, and leaves
    memory for the next one. There is such a call if the piece completes a message that
    is no error, on that message and the response that the operation holds. -/
def RiakOperation.Decodes (env : ReadEnv ρ) (rop : RiakOperation ρ) (heap : Heap)
    (chunk : Bytes) : Prop :=
  ∀ rop' msgid pbresp final decoder, rop.Completes heap chunk rop' msgid pbresp final →
    rop'.decoder = some decoder → msgid ≠ MSG_RPBERRORRESP →
    ∃ result final', env.decode decoder rop' pbresp rop'.response 1 final =
        .ok (result, final') ∧
      final'.Ample ∧ result.err = .ok

/-- Every call of a decoder succeeds that a run of a session makes, or that a piece of
    the stream would lead to where the run has come. -/
def DecodersSucceed (env : ReadEnv ρ) (start : Session ρ) (entries : List (SessionTurn ρ)) :
    Prop :=
  Throughout (Session.Step env) start entries fun s =>
    ∀ chunk rest, s.unread = chunk ++ rest → Fragment s.rop chunk → s.rop.Decodes env s.heap chunk

/-! ### The turns of a session

Where an operation stands is said once, for a reader between frames and for one inside
a body; each kind of turn moves it as the abstract reader moves. A turn is quiet or
completes a message, and a message that is complete is dispatched, to the decoder if
it is no error. -/

/-- Where an operation stands in the stream. -/
def Stands (rop : RiakOperation ρ) : Place → Prop
  | .between => rop.Idle
  | .within got left => rop.msglenComplete = true ∧
      rop.msglen.toNat = got.length + left.length ∧ ∃ msgbuf, rop.Holds msgbuf got

/-- A turn hands exactly the delivered body to the decoder, and ends the call
    with it if and only if the decoder reports done. -/
def Delivers (turn : Turn ρ) : Option WireMessage → Prop
  | none => turn.messages = []
  | some m => turn.messages = [some m.received] ∧ turn.rop.Idle ∧
      ∀ pbresp result, .decoded pbresp result ∈ turn.events →
        turn.exit = if result.done ≠ 0 then some .ok else none

/-- The members of an operation that reads do not touch. -/
structure RiakOperation.Agrees (rop rop' : RiakOperation ρ) : Prop where
  decoder : rop.decoder = rop'.decoder
  responseCb : rop.responseCb = rop'.responseCb
  errorCb : rop.errorCb = rop'.errorCb
  streaming : rop.streaming = rop'.streaming
  request : rop.request = rop'.request

theorem RiakOperation.Agrees.trans {rop rop' rop'' : RiakOperation ρ} (h : rop.Agrees rop')
    (h' : rop'.Agrees rop'') : rop.Agrees rop'' :=
  ⟨h.decoder.trans h'.decoder, h.responseCb.trans h'.responseCb, h.errorCb.trans h'.errorCb,
    h.streaming.trans h'.streaming, h.request.trans h'.request⟩

/-- A turn that completes no message. -/
structure Turn.Quiet (turn : Turn ρ) (rop : RiakOperation ρ) (done : RiakBoolean) : Prop where
  events : turn.events = []
  done : turn.done = done
  response : turn.rop.response = rop.response
  agrees : turn.rop.Agrees rop

theorem stuffed_of_idle {rop : RiakOperation ρ} (hposition : rop.position = 0) {chunk : Bytes}
    (hlength : chunk.length = 4) : stuffed rop chunk = chunk := by
  have hdrop : (hostBytes rop.msglen).drop 4 = [] :=
    List.drop_eq_nil_iff.mpr (Nat.le_of_eq (hostBytes_length rop.msglen))
  unfold stuffed
  rw [hposition, UInt32.toNat_zero, List.take_zero, List.nil_append, Nat.zero_add, hlength, hdrop,
    List.append_nil]

theorem riakReadTurn_length (env : ReadEnv ρ) (heap : Heap) {rop : RiakOperation ρ}
    (hidle : rop.Idle) {body : Bytes} (hbody : body.length < 2 ^ 32) (done : RiakBoolean) :
    ∃ turn heap', riakReadTurn env rop done (.received (bigEndian 4 body.length)) heap =
        .ok (turn, heap') ∧ heap'.outcomes = (heap.after 1).outcomes ∧
      (heap.answer 0 = false → turn.exit = some .read) ∧
      (heap.answer 0 = true → turn.exit = none ∧ Stands turn.rop (.within [] body) ∧
        turn.Quiet rop done ∧ turn.rop.error = rop.error) := by
  obtain ⟨hposition, _, hphase⟩ := hidle
  have hzero : rop.position.toNat = 0 := by rw [hposition]; rfl
  have hlength : (bigEndian 4 body.length).length = 4 := bigEndian_length 4 _
  have hmsglen : (ntohl (hostWord (bigEndian 4 body.length))).toNat = body.length := by
    rw [ntohl_hostWord hlength, beValue_bigEndian hbody]
  unfold riakReadTurn
  rw [hphase, if_neg (by decide), riakReadPrefix_full hphase (by omega) (by omega),
    stuffed_of_idle hposition hlength]
  -- from here on the length counts, not the bytes it was read from
  generalize ntohl (hostWord (bigEndian 4 body.length)) = msglen at hmsglen ⊢
  rw [C.bind_of_ok (C.newBytes_eq heap _)]
  cases hbuffer : heap.answer 0 with
  | false => exact ⟨_, _, rfl, rfl, fun _ => rfl, nofun⟩
  | true =>
    refine ⟨_, _, rfl, rfl, nofun, fun _ => ⟨rfl, ⟨rfl, ?_, _, rfl, ?_, ?_, rfl⟩,
      ⟨rfl, rfl, rfl, ⟨rfl, rfl, rfl, rfl, rfl⟩⟩, rfl⟩⟩
    · rw [List.length_nil, Nat.zero_add]
      exact hmsglen
    · rw [List.length_map, List.length_range]
      rfl
    · exact hzero

theorem riakReadTurn_announce (env : ReadEnv ρ) (hheap : heap.Ample) {rop : RiakOperation ρ}
    (hidle : rop.Idle) {body : Bytes} (hbody : body.length < 2 ^ 32) (done : RiakBoolean) :
    ∃ turn heap', riakReadTurn env rop done (.received (bigEndian 4 body.length)) heap =
        .ok (turn, heap') ∧ heap'.Ample ∧ turn.exit = none ∧ Stands turn.rop (.within [] body) ∧
      turn.Quiet rop done := by
  obtain ⟨turn, heap', hturn, houtcomes, _, hgranted⟩ :=
    riakReadTurn_length env heap hidle hbody done
  obtain ⟨hexit, hstands, hquiet, _⟩ := hgranted (hheap.grants 1 0 Nat.one_pos)
  refine ⟨turn, heap', hturn, ?_, hexit, hstands, hquiet⟩
  unfold Heap.Ample
  rw [houtcomes, hheap.after]
  exact hheap

theorem riakReadTurn_more (env : ReadEnv ρ) (heap : Heap) {rop : RiakOperation ρ}
    {got chunk left : Bytes} (hstands : Stands rop (.within got (chunk ++ left)))
    (hleft : left ≠ []) (done : RiakBoolean) :
    ∃ turn, riakReadTurn env rop done (.received chunk) heap = .ok (turn, heap) ∧
      turn.exit = some .ok ∧ Stands turn.rop (.within (got ++ chunk) left) ∧
      turn.Quiet rop done := by
  obtain ⟨hphase, hmsglen, msgbuf, hholds⟩ := hstands
  have hpos : 0 < left.length := List.length_pos_iff.mpr hleft
  rw [List.length_append] at hmsglen
  unfold riakReadTurn riakReadBody
  rw [hphase, if_pos rfl, riakReadReceive_incomplete hholds (by omega), pure_bind]
  refine ⟨_, rfl, rfl, ⟨hphase, ?_, _, hholds.store (by omega)⟩,
    ⟨rfl, rfl, rfl, ⟨rfl, rfl, rfl, rfl, rfl⟩⟩⟩
  rw [List.length_append]
  show rop.msglen.toNat = _
  omega

/-- The operation when a message of the stream has been taken out of it. -/
def RiakOperation.without (rop : RiakOperation ρ) (m : WireMessage) : RiakOperation ρ :=
  { rop.reset with msgbuf := some m.body }

theorem RiakOperation.without_agrees (rop : RiakOperation ρ) (m : WireMessage) :
    (rop.without m).Agrees rop := ⟨rfl, rfl, rfl, rfl, rfl⟩

theorem Stands.completes (hheap : heap.Ample) {rop : RiakOperation ρ} (m : WireMessage)
    {got chunk : Bytes} (hstands : Stands rop (.within got chunk)) (hbody : got ++ chunk = m.body) :
    rop.Completes heap chunk (rop.without m) m.msgid (some m.received) heap := by
  obtain ⟨hphase, hmsglen, msgbuf, hholds⟩ := hstands
  have hreceived : (⟨m.msgid, UInt32.ofNat rop.msglen.toNat, m.body⟩ : RiakPbMessage) =
      m.received := by
    have htotal : rop.msglen.toNat = m.payload.length + 1 := by
      rw [hmsglen, ← List.length_append, hbody]
      rfl
    rw [htotal]
    rfl
  have hnew : riakPbMessageNew m.msgid rop.msglen.toNat m.body heap =
      .ok (some m.received, heap) := by
    unfold riakPbMessageNew
    rw [C.new_of_ample hheap, hreceived]
  refine ⟨hphase, ?_⟩
  rw [riakReadReceive_complete hholds hmsglen.symm hbody,
    show m.msgid :: m.payload = m.body from rfl, C.bind_of_ok hnew]
  rfl

theorem RiakOperation.Completes.turn (env : ReadEnv ρ) {rop rop' : RiakOperation ρ}
    {chunk : Bytes} {msgid : UInt8} {pbresp : Option RiakPbMessage}
    (h : rop.Completes heap chunk rop' msgid pbresp final) (done : RiakBoolean) :
    riakReadTurn env rop done (.received chunk) heap =
      riakReadDispatch env rop' msgid pbresp final := by
  unfold riakReadTurn riakReadBody
  rw [h.phase, if_pos rfl, C.bind_of_ok h.receive]

theorem riakReadDispatch_delivers {env : ReadEnv ρ} {rop : RiakOperation ρ} (hidle : rop.Idle)
    {decoder : RiakResponseDecoder} (hdecoder : rop.decoder = some decoder) {m : WireMessage}
    (hmsgid : m.msgid ≠ MSG_RPBERRORRESP) {result : Decoded ρ}
    (hresult : env.decode decoder rop (some m.received) rop.response 1 heap = .ok (result, final))
    (hok : result.err = .ok) :
    ∃ turn, riakReadDispatch env rop m.msgid (some m.received) heap = .ok (turn, final) ∧
      turn.rop = rop.answered result.resp ∧ Delivers turn (some m) := by
  obtain ⟨turn, hdispatch, hanswers, _⟩ := riakReadDispatch_of_decoded hdecoder hmsgid hresult hok
  refine ⟨turn, hdispatch, hanswers.rop, hanswers.messages, ?_, ?_⟩
  · rw [hanswers.rop]
    exact hidle
  · intro pbresp result' hmem
    rw [hanswers.eq_of_mem hmem]
    exact hanswers.exit

/-! ### The operation follows the abstract reader

`Follows` is the simulation relation: the operation stands where the reader stands,
and asks for no more than the reader may take. At the end of the stream everything has
been delivered. -/

/-- A session that follows a reader, with the messages it has not delivered. -/
structure Follows (decoder : RiakResponseDecoder) (s : Session ρ) (msgs : List WireMessage)
    (r : Reader) : Prop where
  decoder : s.rop.decoder = some decoder
  ample : s.heap.Ample
  stands : Stands s.rop r.place
  unread : r.unread = s.unread
  proper : r.Proper
  bodies : r.bodies = msgs.map WireMessage.body

theorem Follows.within {decoder : RiakResponseDecoder} {s : Session ρ} {msgs : List WireMessage}
    {r : Reader} (h : Follows decoder s msgs r) {got left : Bytes}
    (hplace : r.place = .within got left) : s.rop.msglenComplete = true ∧
      s.rop.readRequest.count = left.length := by
  have hstands := h.stands
  rw [hplace] at hstands
  obtain ⟨hphase, hmsglen, msgbuf, hholds⟩ := hstands
  have hposition : s.rop.position ≤ s.rop.msglen := by
    rw [UInt32.le_iff_toNat_le, hholds.position]
    omega
  refine ⟨hphase, ?_⟩
  rw [readRequest_body hphase hposition, ReadRequest.count, hholds.position]
  omega

/-- **Between messages nothing of a message is left**: the operation is idle, and
    the stream goes on with whole frames. -/
theorem Follows.between {decoder : RiakResponseDecoder} {s : Session ρ} {msgs : List WireMessage}
    {r : Reader} (h : Follows decoder s msgs r) (hphase : s.rop.msglenComplete = false) :
    s.rop.Idle ∧ s.unread = frames (msgs.map WireMessage.body) := by
  obtain ⟨place, pending⟩ := r
  cases place with
  | between =>
    refine ⟨h.stands, ?_⟩
    rw [← h.bodies, ← h.unread]
    rfl
  | within got left =>
    have hcomplete := (h.within rfl).1
    rw [hphase] at hcomplete
    cases hcomplete

theorem follows_between {decoder : RiakResponseDecoder} {s : Session ρ} {msgs : List WireMessage}
    (hdecoder : s.rop.decoder = some decoder) (hheap : s.heap.Ample) (hidle : s.rop.Idle)
    (hunread : s.unread = frames (msgs.map WireMessage.body)) :
    Follows decoder s msgs ⟨.between, msgs.map WireMessage.body⟩ := by
  refine ⟨hdecoder, hheap, hidle, hunread.symm, ⟨?_, nofun⟩, rfl⟩
  intro body hbody
  obtain ⟨m, _, rfl⟩ := List.mem_map.mp hbody
  exact List.cons_ne_nil _ _

theorem Follows.ended {decoder : RiakResponseDecoder} {s : Session ρ} {msgs : List WireMessage}
    {r : Reader} (h : Follows decoder s msgs r) (hend : s.unread = []) :
    msgs = [] ∧ s.rop.Idle := by
  have hunread := h.unread
  rw [hend] at hunread
  obtain ⟨hplace, hbodies⟩ := Reader.bodies_eq_nil_of_unread h.proper hunread
  have hstands := h.stands
  rw [hplace] at hstands
  rw [h.bodies, List.map_eq_nil_iff] at hbodies
  exact ⟨hbodies, hstands⟩

/-- **One turn is one step of the reader**: it is quiet and completes nothing, or its
    piece completes the next message. A quiet turn that returns has got less than it
    asked for. -/
theorem Follows.turn_cases {decoder : RiakResponseDecoder} {s : Session ρ}
    {msgs : List WireMessage} {r : Reader} (h : Follows decoder s msgs r) (env : ReadEnv ρ)
    (hmsgs : ∀ m ∈ msgs, m.payload.length < 2 ^ 32 - 1) {chunk rest : Bytes}
    (hunread : s.unread = chunk ++ rest) (hfragment : Fragment s.rop chunk) :
    ((∀ rop' msgid pbresp final, ¬ s.rop.Completes s.heap chunk rop' msgid pbresp final) ∧
      ∃ turn heap' r',
        riakReadTurn env s.rop s.done (.received chunk) s.heap = .ok (turn, heap') ∧
        turn.Quiet s.rop s.done ∧
        (turn.exit = none ∨ turn.exit = some .ok ∧ chunk.length < s.rop.readRequest.count) ∧
        Follows decoder (Session.after turn heap' rest) msgs r') ∨
    ∃ m later, msgs = m :: later ∧ rest = frames (later.map WireMessage.body) ∧
      s.rop.Completes s.heap chunk (s.rop.without m) m.msgid (some m.received) s.heap := by
  have hbetween : r.place = .between → chunk.length = 0 ∨ chunk.length = 4 := by
    intro hplace
    have hidle := h.stands
    rw [hplace] at hidle
    unfold Fragment at hfragment
    rwa [if_neg (by rw [hidle.2.2]; decide)] at hfragment
  have hwithin : ∀ got left, r.place = .within got left → chunk.length ≤ left.length := by
    intro got left hplace
    obtain ⟨hphase, hcount⟩ := h.within hplace
    unfold Fragment at hfragment
    rwa [if_pos hphase, hcount] at hfragment
  have hmissing : ∀ got left, r.place = .within got left →
      s.rop.readRequest.count = left.length := fun got left hplace => (h.within hplace).2
  have hphase : s.rop.msglenComplete = false → ∀ rop' msgid pbresp final,
      ¬ s.rop.Completes s.heap chunk rop' msgid pbresp final := by
    rintro hincomplete rop' msgid pbresp final ⟨hcomplete, _⟩
    rw [hincomplete] at hcomplete
    cases hcomplete
  rw [← h.unread] at hunread
  obtain ⟨body?, r', hstep⟩ := Reader.exists_step hunread hbetween hwithin
  have hrest : r'.unread = rest :=
    List.append_cancel_left (hstep.unread_eq.symm.trans hunread)
  have hkeeps := hstep.bodies_eq
  have hproper := hstep.proper h.proper
  have hstands := h.stands
  have hbodies := h.bodies
  cases hstep with
  | wait pending =>
    have hposition : s.rop.position.toNat < 4 := by
      rw [hstands.1]
      decide
    refine Or.inl ⟨hphase hstands.2.2, { rop := s.rop, done := s.done, exit := some .ok },
      s.heap, ⟨.between, pending⟩, ?_, ⟨rfl, rfl, rfl, ⟨rfl, rfl, rfl, rfl, rfl⟩⟩,
      Or.inr ⟨rfl, ?_⟩, h.decoder, h.ample, hstands, hrest, hproper, hbodies⟩
    · unfold riakReadTurn
      rw [if_neg (by rw [hstands.2.2]; decide), riakReadPrefix_nil hstands.2.2 hposition]
      rfl
    · rw [readRequest_lengthPrefix hstands.2.2 (by omega), ReadRequest.count, List.length_nil]
      omega
  | announce body pending =>
    have hlength : body.length < 2 ^ 32 := by
      have hmem : body ∈ msgs.map WireMessage.body := by
        rw [← hbodies]
        exact List.mem_cons_self
      obtain ⟨m, hm, rfl⟩ := List.mem_map.mp hmem
      have hsize := hmsgs m hm
      show m.payload.length + 1 < 2 ^ 32
      omega
    obtain ⟨turn, heap', hturn, hample, hexit, hwaits, hquiet⟩ :=
      riakReadTurn_announce env h.ample hstands hlength s.done
    exact Or.inl ⟨hphase hstands.2.2, turn, heap', ⟨.within [] body, pending⟩, hturn, hquiet,
      Or.inl hexit, hquiet.agrees.decoder.trans h.decoder, hample, hwaits, hrest, hproper,
      hbodies⟩
  | more got chunk left pending hleft =>
    obtain ⟨turn, hturn, hexit, hwaits, hquiet⟩ :=
      riakReadTurn_more env s.heap hstands hleft s.done
    have hpos : 0 < left.length := List.length_pos_iff.mpr hleft
    refine Or.inl ⟨?_, turn, s.heap, ⟨.within (got ++ chunk) left, pending⟩, hturn, hquiet,
      Or.inr ⟨hexit, ?_⟩, hquiet.agrees.decoder.trans h.decoder, h.ample, hwaits, hrest, hproper,
      hkeeps.symm.trans hbodies⟩
    · rintro rop' msgid pbresp final ⟨_, hreceive⟩
      obtain ⟨_, hmsglen, msgbuf, hholds⟩ := hstands
      rw [List.length_append] at hmsglen
      rw [riakReadReceive_incomplete hholds (by omega)] at hreceive
      cases hreceive
    · rw [hmissing got (chunk ++ left) rfl, List.length_append]
      omega
  | deliver got chunk pending =>
    obtain ⟨m, later, rfl, hbody, hpending⟩ := List.map_eq_cons_iff.mp hbodies.symm
    refine Or.inr ⟨m, later, rfl, ?_, hstands.completes h.ample m hbody.symm⟩
    rw [hpending]
    exact hrest.symm

/-- On every piece of the stream whose decoder succeeds the turn runs to its end, and
    hands the next message to the decoder or none. -/
theorem Follows.turn {env : ReadEnv ρ} {decoder : RiakResponseDecoder} {s : Session ρ}
    {msgs : List WireMessage} {r : Reader} (h : Follows decoder s msgs r)
    (hmsgs : ∀ m ∈ msgs, m.Sendable) {chunk rest : Bytes} (hunread : s.unread = chunk ++ rest)
    (hfragment : Fragment s.rop chunk) (hdecode : s.rop.Decodes env s.heap chunk) :
    ∃ turn heap' delivered later r',
      riakReadTurn env s.rop s.done (.received chunk) s.heap = .ok (turn, heap') ∧
      msgs = Option.toList delivered ++ later ∧ Delivers turn delivered ∧
      Follows decoder (Session.after turn heap' rest) later r' := by
  rcases h.turn_cases env (fun m hm => (hmsgs m hm).2) hunread hfragment with
    ⟨_, turn, heap', r', hturn, hquiet, _, hfollows⟩ | ⟨m, later, rfl, hrest, hcompletes⟩
  · refine ⟨turn, heap', none, msgs, r', hturn, rfl, ?_, hfollows⟩
    show turn.events.filterMap ReadEvent.message? = []
    rw [hquiet.events]
    rfl
  · have hdecoder : (s.rop.without m).decoder = some decoder := h.decoder
    have hmsgid := (hmsgs m List.mem_cons_self).1
    obtain ⟨result, final, hresult, hample, hok⟩ := hdecode _ _ _ _ _ hcompletes hdecoder hmsgid
    obtain ⟨turn, hdispatch, hrop, hdelivers⟩ :=
      riakReadDispatch_delivers ⟨rfl, rfl, rfl⟩ hdecoder hmsgid hresult hok
    refine ⟨turn, final, some m, later, ⟨.between, later.map WireMessage.body⟩,
      (hcompletes.turn env s.done).trans hdispatch, rfl, hdelivers, follows_between ?_ hample
        hdelivers.2.1 hrest⟩
    show turn.rop.decoder = some decoder
    rw [hrop]
    exact hdecoder

/-! ### Decoders that gather

Whether a decoder succeeds can depend on the response that it is given, and a streaming
decoder is given its own. It succeeds in every session if what it has gathered from the
messages so far is always a response that it can go on from. -/

/-- A decoder that gathers from these messages what `Seen` says, on operations that agree
    with `rop`. -/
def GathersAll (env : ReadEnv ρ) (decoder : RiakResponseDecoder) (rop : RiakOperation ρ)
    (Seen : List WireMessage → Option ρ → Prop) (msgs : List WireMessage) : Prop :=
  ∀ before m after, msgs = before ++ m :: after → ∀ (rop' : RiakOperation ρ) (heap : Heap),
    heap.Ample → rop'.Agrees rop → Seen before rop'.response →
    ∃ result final, env.decode decoder rop' (some m.received) rop'.response 1 heap =
        .ok (result, final) ∧
      final.Ample ∧ result.err = .ok ∧ Seen (before ++ [m]) result.resp

/-- What holds after every turn: the operation has the response gathered from the first
    messages, and follows a reader of the others. -/
structure Gathered (decoder : RiakResponseDecoder) (rop : RiakOperation ρ)
    (Seen : List WireMessage → Option ρ → Prop) (msgs : List WireMessage) (s : Session ρ)
    (before later : List WireMessage) (r : Reader) : Prop where
  split : msgs = before ++ later
  agrees : s.rop.Agrees rop
  seen : Seen before s.rop.response
  follows : Follows decoder s later r

section Gathering

variable {env : ReadEnv ρ} {decoder : RiakResponseDecoder} {rop : RiakOperation ρ}
  {Seen : List WireMessage → Option ρ → Prop} {msgs before later : List WireMessage}
  {s : Session ρ} {r : Reader} {chunk rest : Bytes}

theorem Gathered.sendable (h : Gathered decoder rop Seen msgs s before later r)
    (hmsgs : ∀ m ∈ msgs, m.Sendable) : ∀ m ∈ later, m.Sendable := by
  intro m hm
  apply hmsgs
  rw [h.split]
  exact List.mem_append_right before hm

theorem Gathered.decodes (h : Gathered decoder rop Seen msgs s before later r)
    (hmsgs : ∀ m ∈ msgs, m.Sendable) (hgathers : GathersAll env decoder rop Seen msgs)
    (hunread : s.unread = chunk ++ rest) (hfragment : Fragment s.rop chunk) :
    s.rop.Decodes env s.heap chunk := by
  intro rop' msgid pbresp final decoder' hcompletes' hdecoder _
  rcases h.follows.turn_cases env (fun m hm => (h.sendable hmsgs m hm).2) hunread
    hfragment with ⟨hnone, _⟩ | ⟨m, later', rfl, _, hcompletes⟩
  · exact absurd hcompletes' (hnone _ _ _ _)
  · have hsame := hcompletes.receive.symm.trans hcompletes'.receive
    cases hsame
    have hsame : some decoder = some decoder' := h.follows.decoder.symm.trans hdecoder
    cases hsame
    obtain ⟨result, final', hresult, hample, hok, _⟩ :=
      hgathers before m later' h.split (s.rop.without m) s.heap h.follows.ample
        ((s.rop.without_agrees m).trans h.agrees) h.seen
    exact ⟨result, final', hresult, hample, hok⟩

theorem Gathered.step {s' : Session ρ} {entry : SessionTurn ρ}
    (h : Gathered decoder rop Seen msgs s before later r) (hmsgs : ∀ m ∈ msgs, m.Sendable)
    (hgathers : GathersAll env decoder rop Seen msgs) (hstep : Session.Step env s entry s') :
    ∃ before' later' r', Gathered decoder rop Seen msgs s' before' later' r' := by
  cases hstep with
  | turn chunk rest turn heap hunread hfragment hturn =>
    rcases h.follows.turn_cases env (fun m hm => (h.sendable hmsgs m hm).2) hunread
      hfragment with
      ⟨_, turn', heap', r', hturn', hquiet, _, hfollows⟩ | ⟨m, later', rfl, hrest, hcompletes⟩
    · rw [hturn] at hturn'
      cases hturn'
      refine ⟨before, later, r', h.split, hquiet.agrees.trans h.agrees, ?_, hfollows⟩
      show Seen before turn.rop.response
      rw [hquiet.response]
      exact h.seen
    · have hagrees : (s.rop.without m).Agrees rop := (s.rop.without_agrees m).trans h.agrees
      have hdecoder : (s.rop.without m).decoder = some decoder := h.follows.decoder
      obtain ⟨result, final, hresult, hample, hok, hseen⟩ :=
        hgathers before m later' h.split (s.rop.without m) s.heap h.follows.ample hagrees h.seen
      obtain ⟨turn', hdispatch, hrop, hdelivers⟩ := riakReadDispatch_delivers
        ⟨rfl, rfl, rfl⟩ hdecoder (h.sendable hmsgs m List.mem_cons_self).1 hresult hok
      rw [hcompletes.turn env s.done, hdispatch] at hturn
      cases hturn
      have hkeeps : turn.rop.Agrees (s.rop.without m) := by
        rw [hrop]
        exact ⟨rfl, rfl, rfl, rfl, rfl⟩
      refine ⟨before ++ [m], later', ⟨.between, later'.map WireMessage.body⟩, ?_,
        hkeeps.trans hagrees, ?_,
        follows_between (hkeeps.decoder.trans hdecoder) hample hdelivers.2.1 hrest⟩
      · rw [h.split, List.append_assoc]
        rfl
      · show Seen (before ++ [m]) turn.rop.response
        rw [hrop]
        exact hseen

/-- **A decoder that gathers succeeds** in every session. -/
theorem decodersSucceed_of_gathersAll {heap : Heap} (hmsgs : ∀ m ∈ msgs, m.Sendable)
    (hgathers : GathersAll env decoder rop Seen msgs) (hseen : Seen [] rop.response)
    (hdecoder : rop.decoder = some decoder) (hidle : rop.Idle) (hheap : heap.Ample)
    (entries : List (SessionTurn ρ)) :
    DecodersSucceed env ⟨rop, 0, heap, frames (msgs.map WireMessage.body)⟩ entries := by
  intro labels s _ hrun chunk rest hunread hfragment
  have hgathered : ∃ before later r, Gathered decoder rop Seen msgs s before later r := by
    refine hrun.invariant
      (fun _ s => ∃ before later r, Gathered decoder rop Seen msgs s before later r) ?_ ?_
    · exact ⟨[], msgs, _, rfl, ⟨rfl, rfl, rfl, rfl, rfl⟩, hseen,
        follows_between hdecoder hheap hidle rfl⟩
    · rintro _ s entry s' ⟨before, later, r, hgathered⟩ hstep
      exact hgathered.step hmsgs hgathers hstep
  obtain ⟨before, later, r, hgathered⟩ := hgathered
  exact hgathered.decodes hmsgs hgathers hunread hfragment

end Gathering

/-! ### Whole sessions

The invariant of a session carries the messages decoded so far; it starts with what
`riak_write` has made of all messages, and every turn takes the next message off the
others or none. -/

/-- What a decoded message leaves behind: an idle operation, a stream that goes
    on behind the frame of the message, and a call that is over if and only if
    the decoder reported done. -/
def SessionTurn.Punctual (msgs : List WireMessage) (entry : SessionTurn ρ) : Prop :=
  ∀ pbresp result, .decoded pbresp result ∈ entry.turn.events →
    entry.turn.rop.Idle ∧ (entry.turn.exit = if result.done ≠ 0 then some .ok else none) ∧
      ∃ before m after, msgs = before ++ m :: after ∧ pbresp = some m.received ∧
        entry.unread = frames (after.map WireMessage.body)

/-- The messages decoded in a session. -/
def decodedMessages (entries : List (SessionTurn ρ)) : List (Option RiakPbMessage) :=
  entries.flatMap fun entry => entry.turn.messages

/-- What holds after every turn: the first messages have been decoded, and the
    session follows a reader of the others. -/
structure Reads (decoder : RiakResponseDecoder) (msgs : List WireMessage)
    (entries : List (SessionTurn ρ)) (s : Session ρ) (before later : List WireMessage)
    (r : Reader) : Prop where
  split : msgs = before ++ later
  decoded : decodedMessages entries = before.map fun m => some m.received
  punctual : ∀ entry ∈ entries, entry.Punctual msgs
  follows : Follows decoder s later r

theorem Reads.sendable {decoder : RiakResponseDecoder} {msgs : List WireMessage}
    {entries : List (SessionTurn ρ)} {s : Session ρ} {before later : List WireMessage} {r : Reader}
    (h : Reads decoder msgs entries s before later r) (hmsgs : ∀ m ∈ msgs, m.Sendable) :
    ∀ m ∈ later, m.Sendable := by
  intro m hm
  apply hmsgs
  rw [h.split]
  exact List.mem_append_right before hm

theorem Reads.step {env : ReadEnv ρ} {decoder : RiakResponseDecoder} {msgs : List WireMessage}
    (hmsgs : ∀ m ∈ msgs, m.Sendable) {entries : List (SessionTurn ρ)} {entry : SessionTurn ρ}
    {s s' : Session ρ} {before later : List WireMessage} {r : Reader}
    (h : Reads decoder msgs entries s before later r)
    (hdecode : ∀ chunk rest, s.unread = chunk ++ rest → Fragment s.rop chunk →
      s.rop.Decodes env s.heap chunk) (hstep : Session.Step env s entry s') :
    ∃ before' later' r', Reads decoder msgs (entries ++ [entry]) s' before' later' r' := by
  have hlater := h.sendable hmsgs
  obtain ⟨hsplit, hdecoded, hpunctual, hfollows⟩ := h
  cases hstep with
  | turn chunk rest turn heap hunread hfragment hturn =>
    obtain ⟨turn', heap', delivered, later', r', hturn', hmsgs', hdelivers, hfollows'⟩ :=
      hfollows.turn hlater hunread hfragment (hdecode chunk rest hunread hfragment)
    rw [hturn] at hturn'
    cases hturn'
    refine ⟨before ++ delivered.toList, later', r', ?_, ?_, ?_, hfollows'⟩
    · rw [List.append_assoc, ← hmsgs']
      exact hsplit
    · have hlast : turn.messages = delivered.toList.map fun m => some m.received := by
        cases delivered with
        | none => exact hdelivers
        | some m => exact hdelivers.1
      unfold decodedMessages at hdecoded ⊢
      rw [List.flatMap_append, hdecoded, List.flatMap_singleton, hlast, List.map_append]
    · intro entry hentry
      rcases List.mem_append.mp hentry with hearlier | hnew
      · exact hpunctual entry hearlier
      · rw [List.mem_singleton.mp hnew]
        intro pbresp result hmem
        cases delivered with
        | none => exact absurd hmem (messages_eq_nil_iff.mp hdelivers pbresp result)
        | some m =>
          obtain ⟨hmessages, hidle, hexit⟩ := hdelivers
          have hpbresp : pbresp ∈ turn.messages :=
            List.mem_filterMap.mpr ⟨_, hmem, rfl⟩
          rw [hmessages] at hpbresp
          refine ⟨hidle, hexit pbresp result hmem, before, m, later', ?_,
            List.mem_singleton.mp hpbresp, (hfollows'.between hidle.2.2).2⟩
          rw [hsplit, hmsgs']
          rfl

theorem sendAll_stream {msgs : List WireMessage} (hmsgs : ∀ m ∈ msgs, m.Sendable)
    {stream : Bytes} (hsent : sendAll msgs [] heap = .ok (stream, final)) :
    stream = frames (msgs.map WireMessage.body) := by
  rw [sendAll_eq hmsgs, C.pure_apply, List.nil_append] at hsent
  cases hsent
  rfl

theorem reads_of_run {env : ReadEnv ρ} {decoder : RiakResponseDecoder} {msgs : List WireMessage}
    {rop : RiakOperation ρ} {heap : Heap} {entries : List (SessionTurn ρ)} {last : Session ρ}
    (hmsgs : ∀ m ∈ msgs, m.Sendable) (hdecoder : rop.decoder = some decoder) (hidle : rop.Idle)
    (hheap : heap.Ample)
    (hdecode : DecodersSucceed env ⟨rop, 0, heap, frames (msgs.map WireMessage.body)⟩ entries)
    (hrun : Run (Session.Step env) ⟨rop, 0, heap, frames (msgs.map WireMessage.body)⟩ entries
      last) :
    ∃ before later r, Reads decoder msgs entries last before later r := by
  refine hrun.invariant_throughout
    (fun entries s => ∃ before later r, Reads decoder msgs entries s before later r) hdecode ?_ ?_
  · exact ⟨[], msgs, _, rfl, rfl, fun _ hentry => (List.not_mem_nil hentry).elim,
      follows_between hdecoder hheap hidle rfl⟩
  · rintro entries s entry s' hdecodes ⟨before, later, r, hreads⟩ hstep
    exact hreads.step hmsgs hdecodes hstep

/-- **Framing round trip.** Messages written by `riak_write` are decoded once
    each and in order, whatever pieces their bodies arrive in and wherever calls
    of `riak_read` are suspended in them. -/
theorem riak_read_decodes_written {env : ReadEnv ρ} {decoder : RiakResponseDecoder}
    {msgs : List WireMessage} {rop : RiakOperation ρ} {heap sendHeap sendFinal : Heap}
    {stream : Bytes} {entries : List (SessionTurn ρ)} {last : Session ρ}
    (hmsgs : ∀ m ∈ msgs, m.Sendable) (hdecoder : rop.decoder = some decoder) (hidle : rop.Idle)
    (hheap : heap.Ample) (hsent : sendAll msgs [] sendHeap = .ok (stream, sendFinal))
    (hdecode : DecodersSucceed env ⟨rop, 0, heap, stream⟩ entries)
    (hrun : Run (Session.Step env) ⟨rop, 0, heap, stream⟩ entries last) :
    (∃ before later, msgs = before ++ later ∧
      decodedMessages entries = (before.map fun m => some m.received) ∧
      (last.rop.msglenComplete = false →
        last.rop.Idle ∧ last.unread = frames (later.map WireMessage.body)) ∧
      (last.unread = [] → later = [] ∧ last.rop.Idle)) ∧
    (∀ entry ∈ entries, entry.Punctual msgs) ∧
    ∀ chunk rest, last.unread = chunk ++ rest → Fragment last.rop chunk →
      ∃ turn next, Session.Step env last ⟨turn, rest⟩ next := by
  obtain rfl := sendAll_stream hmsgs hsent
  obtain ⟨before, later, r, hreads⟩ := reads_of_run hmsgs hdecoder hidle hheap hdecode hrun
  refine ⟨⟨before, later, hreads.split, hreads.decoded, hreads.follows.between,
    hreads.follows.ended⟩, hreads.punctual, ?_⟩
  intro chunk rest hunread hfragment
  obtain ⟨turn, heap', _, _, _, hturn, _⟩ := hreads.follows.turn (hreads.sendable hmsgs) hunread
    hfragment (hdecode.last hrun chunk rest hunread hfragment)
  exact ⟨turn, _, .turn last chunk rest turn heap' hunread hfragment hturn⟩

/-- The environment of a listing of keys. -/
def listkeysReadEnv (unpack : Bytes → Option RpbListKeysResp) : ReadEnv RiakListkeysResponse where
  decode _ _ pbresp resp done := do
    riakListkeysResponseDecode unpack (← C.deref pbresp) resp done
  rpbErrorRespUnpack _ := none

/-- An operation that waits for the keys of a bucket. -/
def listkeysSent : RiakOperation RiakListkeysResponse := { decoder := some .listkeys }

/-- What the messages unpack to. -/
def listedKeys (unpack : Bytes → Option RpbListKeysResp) (msgs : List WireMessage) :
    List RpbListKeysResp :=
  msgs.filterMap fun m => unpack m.payload

theorem WireMessage.unpacks {m : WireMessage} (hlength : m.payload.length < 2 ^ 32 - 1)
    {unpack : Bytes → Option μ} {reply : μ} (h : unpack m.payload = some reply) :
    Unpacks unpack m.received reply := by
  have hlen : m.received.len.toNat = m.payload.length + 1 := by
    show (UInt32.ofNat (m.payload.length + 1)).toNat = _
    rw [UInt32.toNat_ofNat']
    exact Nat.mod_eq_of_lt (by omega)
  have hbody : m.received.data.length = m.payload.length + 1 := rfl
  refine ⟨by omega, by omega, ?_⟩
  rw [hlen, ← hbody, List.take_length]
  exact h

theorem listkeys_gathersAll {unpack : Bytes → Option RpbListKeysResp} {msgs : List WireMessage}
    (hmsgs : ∀ m ∈ msgs, m.Sendable ∧ (unpack m.payload).isSome) (hfew : msgs.length < 2 ^ 32)
    (hbound : (allEntries listkeysMessage (listedKeys unpack msgs)).length < 2 ^ 31)
    (rop : RiakOperation RiakListkeysResponse) :
    GathersAll (listkeysReadEnv unpack) .listkeys rop
      (fun msgs resp => ListInv listkeysMessage (listedKeys unpack msgs) resp) msgs := by
  intro before m after hsplit rop' heap hheap _ hseen
  have hm : m ∈ msgs := by
    rw [hsplit]
    exact List.mem_append_right before List.mem_cons_self
  obtain ⟨⟨_, hlength⟩, hunpacks⟩ := hmsgs m hm
  obtain ⟨reply, hunpack⟩ := Option.isSome_iff_exists.mp hunpacks
  have hnext : listedKeys unpack (before ++ [m]) = listedKeys unpack before ++ [reply] := by
    unfold listedKeys
    rw [List.filterMap_append, List.filterMap_cons_some (b := reply), List.filterMap_nil]
    exact hunpack
  have hpart : listedKeys unpack before ++ [reply] <+: listedKeys unpack msgs := by
    refine ⟨listedKeys unpack after, ?_⟩
    rw [← hnext, hsplit]
    unfold listedKeys
    rw [← List.filterMap_append, List.append_assoc]
    rfl
  have hcount : (listedKeys unpack before).length + 1 < 2 ^ 32 := by
    have hbefore : (listedKeys unpack before).length ≤ before.length :=
      List.length_filterMap_le _ _
    rw [hsplit, List.length_append, List.length_cons] at hfew
    omega
  obtain ⟨response, hdecode, hlisted⟩ := listResponseDecode_of_ample hheap listkeysMessage 1
    (m.unpacks hlength hunpack) hseen hcount
    (Nat.lt_of_le_of_lt (allEntries_length_le listkeysMessage hpart) hbound)
  rw [← hnext] at hlisted
  exact ⟨_, heap, hdecode, hheap, rfl, Or.inr ⟨response, rfl, hlisted⟩⟩

/-- The response with the key `a`, and with the message it came in. -/
def sampleListed : RiakListkeysResponse where
  nEntries := 1
  entries := .obj [.obj ⟨[0x61], true⟩]
  raw := ⟨1, .obj [.obj { keys := [[0x61]] }]⟩

/-- A message with a key, and one that says that there are no more: the first arrives in
    two pieces, and the call that gets the rest of it goes on to the other. -/
theorem riak_read_decodes_written_keys :
    ∃ (entries : List (SessionTurn RiakListkeysResponse)) (last : Session RiakListkeysResponse),
      Run (Session.Step (listkeysReadEnv sampleKeysUnpack))
        ⟨listkeysSent, 0, Heap.fresh, [0, 0, 0, 4, 18, 0x0a, 1, 0x61, 0, 0, 0, 3, 18, 0x10, 1]⟩
        entries last ∧
      decodedMessages entries =
        [some ⟨18, 4, [18, 0x0a, 1, 0x61]⟩, some ⟨18, 3, [18, 0x10, 1]⟩] ∧
      last.unread = [] ∧ last.rop.Idle := by
  have hannounce : Session.Step (listkeysReadEnv sampleKeysUnpack)
      ⟨listkeysSent, 0, Heap.fresh, [0, 0, 0, 4, 18, 0x0a, 1, 0x61, 0, 0, 0, 3, 18, 0x10, 1]⟩
      ⟨⟨listkeysSent.announced 4 (some [0, 0, 0, 0]), 0, none, []⟩,
        [18, 0x0a, 1, 0x61, 0, 0, 0, 3, 18, 0x10, 1]⟩
      ⟨listkeysSent.announced 4 (some [0, 0, 0, 0]), 0, Heap.fresh,
        [18, 0x0a, 1, 0x61, 0, 0, 0, 3, 18, 0x10, 1]⟩ :=
    .turn _ [0, 0, 0, 4] _ _ _ rfl (by decide) rfl
  have hmore : Session.Step (listkeysReadEnv sampleKeysUnpack)
      ⟨listkeysSent.announced 4 (some [0, 0, 0, 0]), 0, Heap.fresh,
        [18, 0x0a, 1, 0x61, 0, 0, 0, 3, 18, 0x10, 1]⟩
      ⟨⟨(listkeysSent.announced 4 (some [0, 0, 0, 0])).stored [0, 0, 0, 0] [18, 0x0a], 0,
        some .ok, []⟩, [1, 0x61, 0, 0, 0, 3, 18, 0x10, 1]⟩
      ⟨(listkeysSent.announced 4 (some [0, 0, 0, 0])).stored [0, 0, 0, 0] [18, 0x0a], 0,
        Heap.fresh, [1, 0x61, 0, 0, 0, 3, 18, 0x10, 1]⟩ :=
    .turn _ [18, 0x0a] _ _ _ rfl (by decide) rfl
  have hdeliver : Session.Step (listkeysReadEnv sampleKeysUnpack)
      ⟨(listkeysSent.announced 4 (some [0, 0, 0, 0])).stored [0, 0, 0, 0] [18, 0x0a], 0,
        Heap.fresh, [1, 0x61, 0, 0, 0, 3, 18, 0x10, 1]⟩
      ⟨⟨listkeysSent.answered (some sampleListed), 0, none,
        [.decoded (some ⟨18, 4, [18, 0x0a, 1, 0x61]⟩) ⟨.ok, some sampleListed, 0⟩]⟩,
        [0, 0, 0, 3, 18, 0x10, 1]⟩
      ⟨listkeysSent.answered (some sampleListed), 0, Heap.fresh, [0, 0, 0, 3, 18, 0x10, 1]⟩ :=
    .turn _ [1, 0x61] _ _ _ rfl (by decide) rfl
  have hannounce' : Session.Step (listkeysReadEnv sampleKeysUnpack)
      ⟨listkeysSent.answered (some sampleListed), 0, Heap.fresh, [0, 0, 0, 3, 18, 0x10, 1]⟩
      ⟨⟨(listkeysSent.answered (some sampleListed)).announced 3 (some [0, 0, 0]), 0, none, []⟩,
        [18, 0x10, 1]⟩
      ⟨(listkeysSent.answered (some sampleListed)).announced 3 (some [0, 0, 0]), 0, Heap.fresh,
        [18, 0x10, 1]⟩ :=
    .turn _ [0, 0, 0, 3] _ _ _ rfl (by decide) rfl
  have hrun := (((Run.single hannounce).snoc hmore).snoc hdeliver).snoc hannounce'
  have hrun := hrun.snoc (.turn _ [18, 0x10, 1] [] _ _ rfl (by decide) rfl)
  have hsent : sendAll [⟨18, [0x0a, 1, 0x61]⟩, ⟨18, [0x10, 1]⟩] [] Heap.fresh =
      .ok ([0, 0, 0, 4, 18, 0x0a, 1, 0x61, 0, 0, 0, 3, 18, 0x10, 1], Heap.fresh) := rfl
  have hsound : ∀ m ∈ [(⟨18, [0x0a, 1, 0x61]⟩ : WireMessage), ⟨18, [0x10, 1]⟩],
      m.Sendable ∧ (sampleKeysUnpack m.payload).isSome := by
    intro m hm
    rcases List.mem_pair.mp hm with rfl | rfl
    · exact ⟨⟨by decide, by decide⟩, rfl⟩
    · exact ⟨⟨by decide, by decide⟩, rfl⟩
  have hdecode := decodersSucceed_of_gathersAll (fun m hm => (hsound m hm).1)
    (listkeys_gathersAll hsound (by decide) (by decide) listkeysSent) (Or.inl ⟨rfl, rfl⟩) rfl
    ⟨rfl, rfl, rfl⟩ Heap.fresh_ample
  obtain ⟨⟨before, later, hsplit, hdecoded, _, hend⟩, _, _⟩ :=
    riak_read_decodes_written (fun m hm => (hsound m hm).1) rfl ⟨rfl, rfl, rfl⟩ Heap.fresh_ample
      hsent (hdecode _) hrun
  obtain ⟨hlater, hidle⟩ := hend rfl
  rw [hlater, List.append_nil] at hsplit
  refine ⟨_, _, hrun, ?_, rfl, hidle⟩
  rw [hdecoded, ← hsplit]
  rfl

/-- A turn of a call, in a session. -/
def ReadTurn.entry (read : ReadTurn ρ) : SessionTurn ρ := ⟨read.turn, read.rest⟩

/-- Calls of `riak_read` on pieces of the stream are a session. -/
theorem Caller.session {env : ReadEnv ρ} {start last : Caller ρ} {calls : List (ReadCall ρ)}
    (hrun : Run (Caller.Step env Fragment) start calls last) :
    ∃ groups, TurnsOf calls groups ∧
      Run (Session.Step env) ⟨start.rop, 0, start.heap, start.unread⟩
        (groups.flatten.map ReadTurn.entry) ⟨last.rop, 0, last.heap, last.unread⟩ :=
  Caller.run_turns Session.mk ReadTurn.entry
    (fun rop done heap chunk rest turn heap' hfragment hturn =>
      .turn ⟨rop, done, heap, chunk ++ rest⟩ chunk rest turn heap' rfl hfragment hturn) hrun

/-- The round trip, call by call: the calls decode what was written, and one that
    decodes a message with which its decoder is done returns behind that message. -/
theorem riak_read_calls_decode_written {env : ReadEnv ρ} {decoder : RiakResponseDecoder}
    {msgs : List WireMessage} {rop : RiakOperation ρ} {heap sendHeap sendFinal : Heap}
    {stream : Bytes} {calls : List (ReadCall ρ)} {last : Caller ρ}
    (hmsgs : ∀ m ∈ msgs, m.Sendable) (hdecoder : rop.decoder = some decoder) (hidle : rop.Idle)
    (hheap : heap.Ample) (hsent : sendAll msgs [] sendHeap = .ok (stream, sendFinal))
    (hdecode : ∀ groups, TurnsOf calls groups →
      DecodersSucceed env ⟨rop, 0, heap, stream⟩ (groups.flatten.map ReadTurn.entry))
    (hrun : Run (Caller.Step env Fragment) ⟨rop, heap, stream⟩ calls last) :
    (∃ before later, msgs = before ++ later ∧
      (calls.flatMap fun call => call.outcome.events).filterMap ReadEvent.message? =
        (before.map fun m => some m.received) ∧
      (last.rop.msglenComplete = false →
        last.rop.Idle ∧ last.unread = frames (later.map WireMessage.body)) ∧
      (last.unread = [] → later = [] ∧ last.rop.Idle)) ∧
    ∀ call ∈ calls, ∀ pbresp result, .decoded pbresp result ∈ call.outcome.events →
      result.done ≠ 0 → call.outcome.returned = some .ok ∧
        ∃ before m after, msgs = before ++ m :: after ∧ pbresp = some m.received ∧
          call.unread = frames (after.map WireMessage.body) := by
  obtain rfl := sendAll_stream hmsgs hsent
  obtain ⟨groups, hmade, hsession⟩ := Caller.session hrun
  obtain ⟨before, later, r, hreads⟩ :=
    reads_of_run hmsgs hdecoder hidle hheap (hdecode groups hmade) hsession
  refine ⟨⟨before, later, hreads.split, ?_, hreads.follows.between, hreads.follows.ended⟩, ?_⟩
  · rw [← hreads.decoded, hmade.events]
    unfold decodedMessages
    rw [List.filterMap_flatMap, List.flatMap_map]
    rfl
  · intro call hcall pbresp result hmem hdone
    obtain ⟨reads, hgroup, hcalled, hunused⟩ := hmade.turns_of_mem hcall
    rw [hcalled.events] at hmem
    obtain ⟨read, hread, hmem⟩ := List.mem_flatMap.mp hmem
    have hentry : read.entry ∈ groups.flatten.map ReadTurn.entry :=
      List.mem_map_of_mem (List.mem_flatten_of_mem hgroup hread)
    obtain ⟨_, hexit, before, m, after, hsplit, hpbresp, hunread⟩ :=
      hreads.punctual _ hentry pbresp result hmem
    rw [if_pos hdone] at hexit
    obtain ⟨hreturned, hrest⟩ := hcalled.ends hread hexit
    rw [hunused] at hrest
    exact ⟨hreturned, before, m, after, hsplit, hpbresp, hrest.symm.trans hunread⟩

end RiakClient
