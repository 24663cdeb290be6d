import RiakClient.Ping
import RiakClient.ReadTurns

/-!
# The read buffer

What a peer can do to the buffer of a message. The lengths it announces are not
checked: a length of zero makes an empty buffer whose first byte is read all the
same, and a length below the position that a split length leaves behind makes
`msglen - position` wrap. A refused allocation moreover leaves a NULL buffer that
the next call of `riak_read` writes to. `Harmless` excludes these three, and no
run without them leaves the buffer.

The invariant is `RiakOperation.InBounds`. In such an operation no subtraction has
wrapped, and the next read stays within the buffer if and only if it is harmless; if
it is, it leaves an operation that is in bounds.
-/

namespace RiakClient

open CSem Framing LabelledRun

variable {ρ : Type} {heap final : Heap}

/-- Where a read of an operation may stand between two turns. -/
structure RiakOperation.InBounds (rop : RiakOperation ρ) : Prop where
  lengthPrefix : rop.msglenComplete = false → rop.position.toNat < 4
  body : rop.msglenComplete = true → rop.position ≤ rop.msglen ∧ 0 < rop.msglen
  buffer : rop.msglenComplete = true →
    ∀ msgbuf, rop.msgbuf = some msgbuf → msgbuf.length = rop.msglen.toNat

/-- The bytes asked for are the missing ones: no subtraction has wrapped. -/
def RiakOperation.AsksForRest (rop : RiakOperation ρ) : Prop :=
  match rop.readRequest with
  | .lengthPrefix offset count => offset + count = 4
  | .body offset count => offset + count = rop.msglen.toNat

/-- A message whose payload can be unpacked: `pbresp->len - 1` does not wrap, and
    that many bytes are there. -/
def RiakPbMessage.Readable (pbresp : RiakPbMessage) : Prop :=
  0 < pbresp.len.toNat ∧ pbresp.data.length = pbresp.len.toNat

/-- A read of `chunk` stays within the buffer. -/
def ReadsWithin (rop : RiakOperation ρ) (heap : Heap) (done : RiakBoolean) (chunk : Bytes) :
    Prop :=
  if rop.msglenComplete then
    ∃ rop' message heap', riakReadReceive rop (.received chunk) heap =
        .ok ((rop', message), heap') ∧ rop'.InBounds ∧
      ∀ msgid pbresp, message = some (msgid, some pbresp) → pbresp.Readable
  else
    ∃ turn heap', riakReadPrefix rop done (.received chunk) heap = .ok (turn, heap') ∧
      turn.rop.InBounds

/-- A length is at least one, and at least the position when it is complete; a
    body has a buffer. -/
def Harmless (rop : RiakOperation ρ) (chunk : Bytes) : Prop :=
  if rop.msglenComplete then rop.msgbuf = none → chunk = [] ∧ rop.position < rop.msglen
  else rop.position.toNat + chunk.length = 4 →
    0 < beValue (stuffed rop chunk) ∧ rop.position.toNat ≤ beValue (stuffed rop chunk)

theorem inBounds_of_idle {rop : RiakOperation ρ} (h : rop.Idle) : rop.InBounds := by
  obtain ⟨hposition, _, hphase⟩ := h
  constructor
  · intro _
    rw [hposition]
    decide
  · intro hcomplete
    rw [hphase] at hcomplete
    cases hcomplete
  · intro hcomplete
    rw [hphase] at hcomplete
    cases hcomplete

theorem RiakOperation.InBounds.asksForRest {rop : RiakOperation ρ} (h : rop.InBounds) :
    rop.AsksForRest := by
  unfold RiakOperation.AsksForRest
  cases hphase : rop.msglenComplete with
  | false =>
    have hposition := h.lengthPrefix hphase
    rw [readRequest_lengthPrefix hphase (by omega)]
    show rop.position.toNat + (4 - rop.position.toNat) = 4
    omega
  | true =>
    obtain ⟨hposition, _⟩ := h.body hphase
    rw [readRequest_body hphase hposition]
    rw [UInt32.le_iff_toNat_le] at hposition
    show rop.position.toNat + (rop.msglen.toNat - rop.position.toNat) = rop.msglen.toNat
    omega

/-! ### The length -/

/-- A read of a length never faults, and the operation is in bounds afterwards
    exactly if the read was harmless. -/
theorem readsWithin_lengthPrefix_iff {rop : RiakOperation ρ} (h : rop.InBounds)
    (hphase : rop.msglenComplete = false) (heap : Heap) (done : RiakBoolean) {chunk : Bytes}
    (hchunk : chunk.length ≤ rop.readRequest.count) :
    ReadsWithin rop heap done chunk ↔ Harmless rop chunk := by
  have hposition := h.lengthPrefix hphase
  rw [readRequest_lengthPrefix hphase (by omega), ReadRequest.count] at hchunk
  unfold ReadsWithin Harmless
  rw [if_neg (by rw [hphase]; decide), if_neg (by rw [hphase]; decide)]
  by_cases hempty : chunk = []
  · subst hempty
    rw [riakReadPrefix_nil hphase hposition]
    constructor
    · intro _ hfull
      rw [List.length_nil] at hfull
      omega
    · intro _
      exact ⟨_, _, rfl, h⟩
  · by_cases hshort : rop.position.toNat + chunk.length < 4
    · rw [riakReadPrefix_short hphase hempty hshort]
      constructor
      · intro _ hfull
        omega
      · intro _
        refine ⟨_, _, rfl, ?_, ?_, ?_⟩
        · intro _
          show (UInt32.ofNat chunk.length).toNat < 4
          rw [UInt32.toNat_ofNat', Nat.mod_eq_of_lt (by omega)]
          omega
        · intro hcomplete
          rw [show _ = rop.msglenComplete from rfl, hphase] at hcomplete
          cases hcomplete
        · intro hcomplete
          rw [show _ = rop.msglenComplete from rfl, hphase] at hcomplete
          cases hcomplete
    · have hfull : rop.position.toNat + chunk.length = 4 := by omega
      have hmsglen := ntohl_hostWord (stuffed_length (Nat.le_of_eq hfull))
      obtain ⟨msgbuf, rest, hnew, hbuffer⟩ :=
        C.newBytes_total heap (ntohl (hostWord (stuffed rop chunk))).toNat
      rw [riakReadPrefix_full hphase hposition hfull, C.bind_of_ok hnew]
      have hiff : (rop.announced (ntohl (hostWord (stuffed rop chunk))) msgbuf).InBounds ↔
          0 < beValue (stuffed rop chunk) ∧
            rop.position.toNat ≤ beValue (stuffed rop chunk) := by
        rw [← hmsglen]
        constructor
        · intro hbounds
          obtain ⟨hle, hpos⟩ := hbounds.body rfl
          exact ⟨UInt32.lt_iff_toNat_lt.mp hpos, UInt32.le_iff_toNat_le.mp hle⟩
        · rintro ⟨hpos, hle⟩
          refine ⟨?_, fun _ => ⟨?_, ?_⟩, fun _ => hbuffer⟩
          · intro hfalse
            cases hfalse
          · exact UInt32.le_iff_toNat_le.mpr hle
          · exact UInt32.lt_iff_toNat_lt.mpr hpos
      constructor
      · rintro ⟨turn, heap', hturn, hbounds⟩ _
        cases hturn
        exact hiff.mp hbounds
      · intro hharmless
        exact ⟨_, _, rfl, hiff.mpr (hharmless hfull)⟩

/-! ### The body -/

theorem riakReadReceive_nothing {rop : RiakOperation ρ} (hposition : rop.position < rop.msglen) :
    riakReadReceive rop (.received []) = pure (rop, none) := by
  have hstore : riakReadStore rop (.received []) = pure rop := by
    unfold riakReadStore riakReadInto
    simp
  unfold riakReadReceive
  rw [hstore, pure_bind, if_pos hposition]

theorem RiakOperation.InBounds.holds {rop : RiakOperation ρ} (h : rop.InBounds)
    (hphase : rop.msglenComplete = true) {msgbuf : Bytes} (hbuffer : rop.msgbuf = some msgbuf) :
    rop.Holds msgbuf (msgbuf.take rop.position.toNat) := by
  have hlength := h.buffer hphase msgbuf hbuffer
  have hposition := UInt32.le_iff_toNat_le.mp (h.body hphase).1
  have htake : (msgbuf.take rop.position.toNat).length = rop.position.toNat := by
    rw [List.length_take]
    omega
  exact ⟨hbuffer, hlength, htake.symm, by rw [htake]⟩

theorem readsWithin_of_buffer {rop : RiakOperation ρ} (h : rop.InBounds)
    (hphase : rop.msglenComplete = true) (heap : Heap) (done : RiakBoolean) {chunk : Bytes}
    (hchunk : chunk.length ≤ rop.readRequest.count) {msgbuf : Bytes}
    (hbuffer : rop.msgbuf = some msgbuf) : ReadsWithin rop heap done chunk := by
  obtain ⟨hle, hpos⟩ := h.body hphase
  have hholds := h.holds hphase hbuffer
  have hgot := hholds.position
  rw [readRequest_body hphase hle, ReadRequest.count] at hchunk
  rw [UInt32.le_iff_toNat_le] at hle
  rw [UInt32.lt_iff_toNat_lt, UInt32.toNat_zero] at hpos
  unfold ReadsWithin
  rw [if_pos hphase]
  by_cases hmissing : rop.position.toNat + chunk.length < rop.msglen.toNat
  · rw [riakReadReceive_incomplete hholds (by omega)]
    have hstored : (rop.stored msgbuf chunk).Holds _ _ := hholds.store (by omega)
    have hposition : (rop.stored msgbuf chunk).position.toNat = _ :=
      stored_position (Nat.le_of_lt hmissing)
    refine ⟨_, _, _, rfl, ⟨?_, ?_, ?_⟩, ?_⟩
    · intro hfalse
      exact absurd (hphase.symm.trans hfalse) (by decide)
    · intro _
      refine ⟨UInt32.le_iff_toNat_le.mpr ?_, UInt32.lt_iff_toNat_lt.mpr hpos⟩
      rw [hposition]
      exact Nat.le_of_lt hmissing
    · intro _ buffer hstore
      rw [hstored.buffer] at hstore
      cases hstore
      exact hstored.length
    · intro msgid pbresp hnone
      cases hnone
  · have hlength : (msgbuf.take rop.position.toNat ++ chunk).length = rop.msglen.toNat := by
      rw [List.length_append]
      omega
    cases hbody : msgbuf.take rop.position.toNat ++ chunk with
    | nil =>
      rw [hbody] at hlength
      exact absurd hlength (Nat.ne_of_lt hpos)
    | cons msgid payload =>
      have hdata : (msgid :: payload).length = rop.msglen.toNat := by
        rw [← hbody]
        exact hlength
      obtain ⟨slot, rest, hnew, hslot⟩ := C.new_total heap
        (⟨msgid, UInt32.ofNat rop.msglen.toNat, msgid :: payload⟩ : RiakPbMessage)
      rw [riakReadReceive_complete hholds (by omega) hbody]
      unfold riakPbMessageNew
      rw [C.bind_of_ok hnew]
      refine ⟨_, _, _, rfl, inBounds_of_idle ⟨rfl, rfl, rfl⟩, ?_⟩
      intro msgid' pbresp hmessage
      cases hmessage
      rcases hslot with hgranted | hrefused
      · cases hgranted
        show 0 < (UInt32.ofNat rop.msglen.toNat).toNat ∧ _ = (UInt32.ofNat rop.msglen.toNat).toNat
        rw [UInt32.ofNat_toNat]
        exact ⟨hpos, hdata⟩
      · cases hrefused

/-- A read of a body without a buffer is harmless only if it gets nothing and
    misses something. -/
theorem readsWithin_null_iff {rop : RiakOperation ρ} (h : rop.InBounds)
    (hphase : rop.msglenComplete = true) (heap : Heap) (done : RiakBoolean) {chunk : Bytes}
    (hchunk : chunk.length ≤ rop.readRequest.count) (hbuffer : rop.msgbuf = none) :
    ReadsWithin rop heap done chunk ↔ chunk = [] ∧ rop.position < rop.msglen := by
  unfold ReadsWithin
  rw [if_pos hphase]
  constructor
  · rintro ⟨rop', message, heap', hreceive, _⟩
    by_cases hempty : chunk = []
    · refine ⟨hempty, ?_⟩
      subst hempty
      by_contra hnot
      have hfull : rop.position = rop.msglen :=
        UInt32.le_antisymm (h.body hphase).1 (UInt32.not_lt.mp hnot)
      unfold riakReadReceive riakReadStore riakReadInto at hreceive
      simp [hfull, hbuffer] at hreceive
      cases hreceive
    · unfold riakReadReceive riakReadStore riakReadInto at hreceive
      simp only [ReadResult.bytes_received, if_neg hempty, hbuffer, C.deref_none] at hreceive
      cases hreceive
  · rintro ⟨rfl, hposition⟩
    rw [riakReadReceive_nothing hposition]
    refine ⟨_, _, _, rfl, h, ?_⟩
    intro msgid pbresp hnone
    cases hnone

/-! ### Runs -/

theorem riakReadReceive_message_idle {rop rop' : RiakOperation ρ} {r : ReadResult}
    {message : UInt8 × Option RiakPbMessage}
    (h : riakReadReceive rop r heap = .ok ((rop', some message), final)) : rop'.Idle := by
  unfold riakReadReceive at h
  obtain ⟨stored, heap₁, _, h⟩ := C.bind_eq_ok.mp h
  by_cases hmissing : stored.position < stored.msglen
  · rw [if_pos hmissing] at h
    cases h
  · rw [if_neg hmissing] at h
    by_cases hassert : stored.position ≠ stored.msglen
    · rw [if_pos hassert] at h
      cases h
    · rw [if_neg hassert] at h
      obtain ⟨msgbuf, heap₂, _, h⟩ := C.bind_eq_ok.mp h
      obtain ⟨msgid, heap₃, _, h⟩ := C.bind_eq_ok.mp h
      obtain ⟨pbresp, heap₄, _, h⟩ := C.bind_eq_ok.mp h
      cases h
      exact ⟨rfl, rfl, rfl⟩

/-- **A read stays within its buffer exactly if it is harmless**, as long as all
    reads before it were. -/
theorem readsWithin_iff {rop : RiakOperation ρ} (h : rop.InBounds) (heap : Heap)
    (done : RiakBoolean) {chunk : Bytes} (hchunk : chunk.length ≤ rop.readRequest.count) :
    ReadsWithin rop heap done chunk ↔ Harmless rop chunk := by
  cases hphase : rop.msglenComplete with
  | false => exact readsWithin_lengthPrefix_iff h hphase heap done hchunk
  | true =>
    unfold Harmless
    rw [if_pos hphase]
    cases hbuffer : rop.msgbuf with
    | none =>
      rw [readsWithin_null_iff h hphase heap done hchunk hbuffer]
      exact ⟨fun hnothing _ => hnothing, fun himp => himp rfl⟩
    | some msgbuf =>
      exact ⟨fun _ => nofun, fun _ => readsWithin_of_buffer h hphase heap done hchunk hbuffer⟩

/-- A turn whose read is harmless. -/
def ReadState.HarmlessStep (env : ReadEnv ρ) (s : ReadState ρ) (l : ReadStep ρ)
    (s' : ReadState ρ) : Prop :=
  s.Step env l s' ∧ Harmless s.rop l.chunk

theorem ReadState.HarmlessStep.inBounds {env : ReadEnv ρ} {s s' : ReadState ρ} {l : ReadStep ρ}
    (hstep : ReadState.HarmlessStep env s l s') (h : s.rop.InBounds) : s'.rop.InBounds := by
  obtain ⟨hstep, hharmless⟩ := hstep
  cases hstep with
  | read done chunk turn heap hchunk hturn =>
    have hwithin := (readsWithin_iff h s.heap done hchunk).mpr hharmless
    unfold ReadsWithin at hwithin
    unfold riakReadTurn at hturn
    cases hphase : s.rop.msglenComplete with
    | false =>
      rw [if_neg (by rw [hphase]; decide)] at hwithin hturn
      obtain ⟨turn', heap', hturn', hbounds⟩ := hwithin
      rw [hturn] at hturn'
      cases hturn'
      exact hbounds
    | true =>
      rw [if_pos hphase] at hwithin hturn
      obtain ⟨rop', message, heap', hreceive, hbounds, _⟩ := hwithin
      unfold riakReadBody at hturn
      rw [C.bind_of_ok hreceive] at hturn
      cases message with
      | none =>
        cases hturn
        exact hbounds
      | some message =>
        have hidle := riakReadReceive_message_idle hreceive
        exact inBounds_of_idle ((riakReadDispatch_cases hturn).1 hidle)

theorem inBounds_of_run {env : ReadEnv ρ} {start last : ReadState ρ} {reads : List (ReadStep ρ)}
    (hidle : start.rop.Idle) (hrun : Run (ReadState.HarmlessStep env) start reads last) :
    last.rop.InBounds := by
  refine hrun.invariant (fun _ s => s.rop.InBounds) ?_ ?_
  · exact inBounds_of_idle hidle
  · intro _ s l s' hinv hstep
    exact hstep.inBounds hinv

/-- **Buffer safety.** In every state that harmless reads lead to, from whatever
    peer they come and whatever the allocator and the decoders do, nothing wraps
    and the next read stays within the buffer if and only if it is harmless too. -/
theorem riak_read_in_bounds {env : ReadEnv ρ} {rop : RiakOperation ρ} {reads : List (ReadStep ρ)}
    {last : ReadState ρ} (hidle : rop.Idle)
    (hrun : Run (ReadState.HarmlessStep env) ⟨rop, heap⟩ reads last) :
    last.rop.InBounds ∧ last.rop.AsksForRest ∧
      ∀ done chunk, chunk.length ≤ last.rop.readRequest.count →
        (ReadsWithin last.rop last.heap done chunk ↔ Harmless last.rop chunk) := by
  have hbounds : last.rop.InBounds := inBounds_of_run hidle hrun
  refine ⟨hbounds, hbounds.asksForRest, ?_⟩
  intro done chunk hchunk
  exact readsWithin_iff hbounds last.heap done hchunk

/-- A length of two, and the first byte of the body. -/
theorem riak_read_in_bounds_pong :
    ∃ (reads : List (ReadStep RiakPingResponse)) (last : ReadState RiakPingResponse),
      Run (ReadState.HarmlessStep (pingReadEnv fun _ => none)) ⟨pingSent, Heap.fresh⟩ reads last ∧
      reads.map ReadStep.chunk = [[0, 0, 0, 2], [2]] ∧
      ReadsWithin last.rop last.heap 0 [9] := by
  have hlength : ReadState.HarmlessStep (pingReadEnv fun _ => none) ⟨pingSent, Heap.fresh⟩
      ⟨[0, 0, 0, 2], ⟨pingSent.announced 2 (some [0, 0]), 0, none, []⟩⟩
      ⟨pingSent.announced 2 (some [0, 0]), Heap.fresh⟩ :=
    ⟨.read _ 0 [0, 0, 0, 2] _ _ (by decide) rfl, fun _ => by decide⟩
  have hbody : ReadState.HarmlessStep (pingReadEnv fun _ => none)
      ⟨pingSent.announced 2 (some [0, 0]), Heap.fresh⟩
      ⟨[2], ⟨(pingSent.announced 2 (some [0, 0])).stored [0, 0] [2], 0, some .ok, []⟩⟩
      ⟨(pingSent.announced 2 (some [0, 0])).stored [0, 0] [2], Heap.fresh⟩ :=
    ⟨.read _ 0 [2] _ _ (by decide) rfl, nofun⟩
  have hrun := (Run.single hlength).snoc hbody
  obtain ⟨_, _, hnext⟩ := riak_read_in_bounds ⟨rfl, rfl, rfl⟩ hrun
  exact ⟨_, _, hrun, rfl, (hnext 0 [9] (by decide)).mpr nofun⟩

/-- A length of zero: the buffer is empty, and its first byte is read. -/
theorem riak_read_empty_frame :
    ∃ (reads : List (ReadStep RiakPingResponse)) (last : ReadState RiakPingResponse),
      Run (ReadState.Step (pingReadEnv fun _ => none)) ⟨pingSent, Heap.fresh⟩ reads last ∧
      reads.map ReadStep.chunk = [[0, 0, 0, 0]] ∧ last.rop.readRequest = .body 0 0 ∧
      riakReadReceive last.rop (.received []) last.heap = .error .outOfBounds ∧
      ¬ ReadsWithin last.rop last.heap 0 [] := by
  have hlength : ReadState.Step (pingReadEnv fun _ => none) ⟨pingSent, Heap.fresh⟩
      ⟨[0, 0, 0, 0], ⟨pingSent.announced 0 (some []), 0, none, []⟩⟩
      ⟨pingSent.announced 0 (some []), Heap.fresh⟩ :=
    .read _ 0 [0, 0, 0, 0] _ _ (by decide) rfl
  refine ⟨_, _, Run.single hlength, rfl, rfl, rfl, ?_⟩
  rintro ⟨rop', message, heap', hreceive, _⟩
  cases hreceive

/-- What a read of a call may get: what it asks for at most, and nothing harmful. -/
def HarmlessPiece (rop : RiakOperation ρ) (chunk : Bytes) : Prop :=
  chunk.length ≤ rop.readRequest.count ∧ Harmless rop chunk

/-- The same for calls of `riak_read`, however many of them and wherever they return. -/
theorem riak_read_calls_in_bounds {env : ReadEnv ρ} {start last : Caller ρ}
    {calls : List (ReadCall ρ)} (hidle : start.rop.Idle)
    (hrun : Run (Caller.Step env HarmlessPiece) start calls last) :
    last.rop.InBounds ∧ last.rop.AsksForRest ∧
      ∀ done chunk, chunk.length ≤ last.rop.readRequest.count →
        (ReadsWithin last.rop last.heap done chunk ↔ Harmless last.rop chunk) := by
  have hstep : ∀ rop done heap chunk (_ : Bytes) turn heap', HarmlessPiece rop chunk →
      riakReadTurn env rop done (.received chunk) heap = .ok (turn, heap') →
      ReadState.HarmlessStep env ⟨rop, heap⟩ ⟨chunk, turn⟩ ⟨turn.rop, heap'⟩ := by
    rintro rop done heap chunk _ turn heap' ⟨hchunk, hharmless⟩ hturn
    exact ⟨.read ⟨rop, heap⟩ done chunk turn heap' hchunk hturn, hharmless⟩
  obtain ⟨groups, _, hturns⟩ := Caller.run_turns (fun rop _ heap _ => ReadState.mk rop heap)
    (fun read => ReadStep.mk read.chunk read.turn) hstep hrun
  have hbounds : last.rop.InBounds := inBounds_of_run hidle hturns
  refine ⟨hbounds, hbounds.asksForRest, ?_⟩
  intro done chunk hchunk
  exact readsWithin_iff hbounds last.heap done hchunk

end RiakClient
