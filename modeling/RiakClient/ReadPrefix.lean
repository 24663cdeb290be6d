import RiakClient.Ping
import RiakClient.ReadTurns

/-!
# The length of a message

A length may arrive in pieces. `riak_read` keeps the pieces in `msglen` and asks
for the missing bytes only, but it *sets* the position to the number of bytes of
the last piece where it should add them, and it keeps the position when the
length is complete, so that the body goes behind it. Both are harmless exactly
as long as no piece follows another one.

`Suspended` and `Announced` are the two states that are right, before the length is
there and after. One read of a run is right exactly if it gets no bytes or the first
ones, and by induction a run is if no piece follows another one.
-/

namespace RiakClient

open CSem Framing LabelledRun

variable {ρ : Type} {heap final : Heap}

/-- A read of some bytes of a length. -/
def ReadState.PrefixStep (env : ReadEnv ρ) (s : ReadState ρ) (l : ReadStep ρ) (s' : ReadState ρ) :
    Prop :=
  s.rop.msglenComplete = false ∧ s.Step env l s'

/-- The bytes that some reads got. -/
def receivedBytes (reads : List (ReadStep ρ)) : Bytes := reads.flatMap ReadStep.chunk

theorem receivedBytes_snoc (reads : List (ReadStep ρ)) (last : ReadStep ρ) :
    receivedBytes (reads ++ [last]) = receivedBytes reads ++ last.chunk := by
  unfold receivedBytes
  rw [List.flatMap_append, List.flatMap_singleton]

/-- A suspended operation: it knows how many bytes of the length have come, and
    `msglen` holds them and nothing else. -/
structure Suspended (received : Bytes) (rop : RiakOperation ρ) : Prop where
  phase : rop.msglenComplete = false
  short : received.length < 4
  position : rop.position.toNat = received.length
  msglen : hostBytes rop.msglen = received ++ List.replicate (4 - received.length) 0

/-- An operation that has got its length: it reads the body from offset 0, into a
    buffer of its size, if there was memory for one. -/
structure Announced (received : Bytes) (rop : RiakOperation ρ) : Prop where
  phase : rop.msglenComplete = true
  length : received.length = 4
  msglen : rop.msglen.toNat = beValue received
  request : rop.readRequest = .body 0 rop.msglen.toNat
  buffer : ∀ msgbuf, rop.msgbuf = some msgbuf → msgbuf.length = rop.msglen.toNat

/-- The operation has put its length together correctly. -/
def Reassembled (received : Bytes) (rop : RiakOperation ρ) : Prop :=
  Suspended received rop ∨ Announced received rop

theorem reassembled_of_idle {rop : RiakOperation ρ} (h : rop.Idle) : Reassembled [] rop := by
  obtain ⟨hposition, hmsglen, hphase⟩ := h
  refine Or.inl ⟨hphase, by decide, ?_, ?_⟩
  · rw [hposition]
    rfl
  · rw [hmsglen]
    rfl

theorem stuffed_of_suspended {received : Bytes} {rop : RiakOperation ρ} (chunk : Bytes)
    (h : Suspended received rop) (hroom : received.length + chunk.length ≤ 4) :
    stuffed rop chunk =
      (received ++ chunk) ++ List.replicate (4 - (received ++ chunk).length) 0 := by
  unfold stuffed
  rw [h.msglen, h.position, List.take_left, List.drop_append, List.drop_replicate,
    List.drop_eq_nil_of_le (by omega), List.nil_append, List.length_append]
  congr 2
  omega

/-- A piece that leaves some of the length missing: the position is set to its
    size, which is right for the first piece only. -/
theorem Suspended.reassembled_short_iff {received chunk : Bytes} {rop : RiakOperation ρ}
    (h : Suspended received rop) (hroom : received.length + chunk.length < 4) :
    Reassembled (received ++ chunk) { rop with
      position := UInt32.ofNat chunk.length, msglen := hostWord (stuffed rop chunk) } ↔
      received = [] := by
  have hcount : (UInt32.ofNat chunk.length).toNat = chunk.length := by
    rw [UInt32.toNat_ofNat']
    exact Nat.mod_eq_of_lt (by omega)
  have hposition := h.position
  constructor
  · rintro (hlater | hlater)
    · have hadded := hlater.position
      rw [List.length_append] at hadded
      have hset : chunk.length = received.length + chunk.length := hcount.symm.trans hadded
      rw [← List.length_eq_zero_iff]
      omega
    · have hcomplete : rop.msglenComplete = true := hlater.phase
      rw [h.phase] at hcomplete
      cases hcomplete
  · intro hfirst
    refine Or.inl ⟨h.phase, ?_, ?_, ?_⟩
    · rw [List.length_append]
      exact hroom
    · rw [hfirst, List.nil_append]
      exact hcount
    · rw [← stuffed_of_suspended chunk h (Nat.le_of_lt hroom)]
      exact hostBytes_hostWord (stuffed_length (by omega))

/-- The last piece: the position stays, so the body is read from offset 0 only if
    there was no piece before. -/
theorem Suspended.reassembled_full_iff {received chunk : Bytes} {rop : RiakOperation ρ}
    (h : Suspended received rop) (hroom : received.length + chunk.length = 4)
    {msgbuf : Option Bytes}
    (hbuffer : ∀ buffer, msgbuf = some buffer →
      buffer.length = (ntohl (hostWord (stuffed rop chunk))).toNat) :
    Reassembled (received ++ chunk) (rop.announced (ntohl (hostWord (stuffed rop chunk))) msgbuf) ↔
      received = [] := by
  have hlength : (received ++ chunk).length = 4 := by
    rw [List.length_append]
    exact hroom
  have hstuffed := stuffed_of_suspended chunk h (Nat.le_of_eq hroom)
  rw [hlength, Nat.sub_self, List.replicate_zero, List.append_nil] at hstuffed
  constructor
  · rintro (hlater | hlater)
    · cases hlater.phase
    · have hrequest := hlater.request
      unfold RiakOperation.readRequest at hrequest
      rw [hlater.phase, if_pos rfl, ReadRequest.body.injEq] at hrequest
      rw [← List.length_eq_zero_iff, ← h.position]
      exact hrequest.1
  · intro hfirst
    have hzero : rop.position = 0 := by
      apply UInt32.toNat.inj
      rw [h.position, hfirst]
      rfl
    refine Or.inr ⟨rfl, hlength, ?_, ?_, hbuffer⟩
    · rw [← ntohl_hostWord hlength, ← hstuffed]
      rfl
    · rw [readRequest_body rfl (by
        show rop.position ≤ _
        rw [hzero]
        exact UInt32.zero_le)]
      show ReadRequest.body rop.position.toNat (_ - rop.position.toNat) = _
      rw [hzero]
      rfl

/-- **One read of a length is right exactly if it gets no bytes or the first
    ones.** -/
theorem ReadState.PrefixStep.reassembled_iff {env : ReadEnv ρ} {s s' : ReadState ρ}
    {last : ReadStep ρ} {received : Bytes} (hstep : ReadState.PrefixStep env s last s')
    (h : Reassembled received s.rop) :
    Reassembled (received ++ last.chunk) last.turn.rop ↔ (last.chunk ≠ [] → received = []) := by
  obtain ⟨hphase, hstep⟩ := hstep
  cases hstep with
  | read done chunk turn heap hchunk hturn =>
    rcases h with hsuspended | hannounced
    swap
    · rw [hannounced.phase] at hphase
      cases hphase
    have hshort := hsuspended.short
    have hposition := hsuspended.position
    rw [readRequest_lengthPrefix hphase (by omega), ReadRequest.count] at hchunk
    unfold riakReadTurn at hturn
    rw [if_neg (by rw [hphase]; decide)] at hturn
    show Reassembled (received ++ chunk) turn.rop ↔ (chunk ≠ [] → received = [])
    by_cases hempty : chunk = []
    · subst hempty
      rw [riakReadPrefix_nil hphase (by omega)] at hturn
      cases hturn
      constructor
      · intro _ hne
        exact absurd rfl hne
      · intro _
        rw [List.append_nil]
        exact Or.inl hsuspended
    · have hne : 0 < chunk.length := List.length_pos_iff.mpr hempty
      rw [imp_iff_right hempty]
      by_cases hroom : received.length + chunk.length < 4
      · rw [riakReadPrefix_short hphase hempty (by omega)] at hturn
        cases hturn
        exact hsuspended.reassembled_short_iff hroom
      · rw [riakReadPrefix_full hphase (by omega) (by omega)] at hturn
        obtain ⟨msgbuf, rest, hnew, hbuffer⟩ := C.newBytes_total s.heap
          (ntohl (hostWord (stuffed s.rop chunk))).toNat
        rw [C.bind_of_ok hnew] at hturn
        cases hturn
        exact hsuspended.reassembled_full_iff (by omega) hbuffer

/-- Every read of a run is right if and only if no piece follows another one, and then
    the run leaves an operation that knows what it has received. -/
theorem reassembled_of_run {env : ReadEnv ρ} {start last : ReadState ρ}
    {reads : List (ReadStep ρ)} (hidle : start.rop.Idle)
    (hrun : Run (ReadState.PrefixStep env) start reads last) :
    (Along (fun before l => Reassembled (receivedBytes before ++ l.chunk) l.turn.rop) reads ↔
      Along (fun before l => l.chunk ≠ [] → receivedBytes before = []) reads) ∧
    (Along (fun before l => Reassembled (receivedBytes before ++ l.chunk) l.turn.rop) reads →
      Reassembled (receivedBytes reads) last.rop) := by
  refine hrun.invariant (fun reads s => (Along (fun before l =>
    Reassembled (receivedBytes before ++ l.chunk) l.turn.rop) reads ↔
      Along (fun before l => l.chunk ≠ [] → receivedBytes before = []) reads) ∧
    (Along (fun before l => Reassembled (receivedBytes before ++ l.chunk) l.turn.rop) reads →
      Reassembled (receivedBytes reads) s.rop)) ?_ ?_
  · exact ⟨⟨fun _ => along_nil, fun _ => along_nil⟩, fun _ => reassembled_of_idle hidle⟩
  · rintro reads s l s' ⟨hiff, hlast⟩ hstep
    rw [along_snoc, along_snoc]
    constructor
    · constructor
      · rintro ⟨hearlier, hright⟩
        exact ⟨hiff.mp hearlier, (hstep.reassembled_iff (hlast hearlier)).mp hright⟩
      · rintro ⟨hearlier, hfirst⟩
        have hgood := hiff.mpr hearlier
        exact ⟨hgood, (hstep.reassembled_iff (hlast hgood)).mpr hfirst⟩
    · rintro ⟨_, hright⟩
      rw [receivedBytes_snoc]
      cases hstep.2 with
      | read done chunk turn heap hchunk hturn => exact hright

/-- **The length is put together exactly as long as no piece of it follows
    another one**, at every read and whatever the lengths and the pieces are. -/
theorem riak_read_prefix_reassembled_iff {env : ReadEnv ρ} {rop : RiakOperation ρ}
    {reads : List (ReadStep ρ)} {last : ReadState ρ} (hidle : rop.Idle)
    (hrun : Run (ReadState.PrefixStep env) ⟨rop, heap⟩ reads last) :
    Along (fun before l => Reassembled (receivedBytes before ++ l.chunk) l.turn.rop) reads ↔
      Along (fun before l => l.chunk ≠ [] → receivedBytes before = []) reads :=
  (reassembled_of_run hidle hrun).1

/-- A read that gets nothing, and then the whole length. -/
theorem riak_read_prefix_reassembled_whole :
    ∃ (reads : List (ReadStep RiakPingResponse)) (last : ReadState RiakPingResponse),
      Run (ReadState.PrefixStep (pingReadEnv fun _ => none)) ⟨pingSent, Heap.fresh⟩ reads last ∧
      reads.map ReadStep.chunk = [[], [0, 0, 0, 5]] ∧
      Along (fun before l => Reassembled (receivedBytes before ++ l.chunk) l.turn.rop) reads := by
  have hempty : ReadState.PrefixStep (pingReadEnv fun _ => none) ⟨pingSent, Heap.fresh⟩
      ⟨[], ⟨pingSent, 0, some .ok, []⟩⟩ ⟨pingSent, Heap.fresh⟩ :=
    ⟨rfl, .read _ 0 [] _ _ (by decide) rfl⟩
  have hwhole : ReadState.PrefixStep (pingReadEnv fun _ => none) ⟨pingSent, Heap.fresh⟩
      ⟨[0, 0, 0, 5], ⟨pingSent.announced 5 (some [0, 0, 0, 0, 0]), 0, none, []⟩⟩
      ⟨pingSent.announced 5 (some [0, 0, 0, 0, 0]), Heap.fresh⟩ :=
    ⟨rfl, .read _ 0 [0, 0, 0, 5] _ _ (by decide) rfl⟩
  have hrun := (Run.single hempty).snoc hwhole
  refine ⟨_, _, hrun, rfl, (riak_read_prefix_reassembled_iff ⟨rfl, rfl, rfl⟩ hrun).mpr ?_⟩
  rw [along_snoc, ← List.nil_append [_], along_snoc]
  exact ⟨⟨along_nil, fun _ => rfl⟩, fun _ => rfl⟩

/-- One byte of the length 5, then the other three: the body is read from offset
    1, and only 4 bytes of it are asked for. -/
theorem riak_read_prefix_split :
    ∃ (reads : List (ReadStep RiakPingResponse)) (last : ReadState RiakPingResponse),
      Run (ReadState.PrefixStep (pingReadEnv fun _ => none)) ⟨pingSent, Heap.fresh⟩ reads last ∧
      reads.map ReadStep.chunk = [[0], [0, 0, 5]] ∧
      last.rop.readRequest = .body 1 4 ∧ ¬ Reassembled (receivedBytes reads) last.rop := by
  have hfirst : ReadState.PrefixStep (pingReadEnv fun _ => none) ⟨pingSent, Heap.fresh⟩
      ⟨[0], ⟨{ pingSent with position := 1 }, 0, some .ok, []⟩⟩
      ⟨{ pingSent with position := 1 }, Heap.fresh⟩ :=
    ⟨rfl, .read _ 0 [0] _ _ (by decide) rfl⟩
  have hothers : ReadState.PrefixStep (pingReadEnv fun _ => none)
      ⟨{ pingSent with position := 1 }, Heap.fresh⟩
      ⟨[0, 0, 5], ⟨({ pingSent with position := 1 } : RiakOperation _).announced 5
        (some [0, 0, 0, 0, 0]), 0, none, []⟩⟩
      ⟨({ pingSent with position := 1 } : RiakOperation _).announced 5 (some [0, 0, 0, 0, 0]),
        Heap.fresh⟩ :=
    ⟨rfl, .read _ 0 [0, 0, 5] _ _ (by decide) rfl⟩
  refine ⟨_, _, (Run.single hfirst).snoc hothers, rfl, rfl, ?_⟩
  rintro (hsuspended | hannounced)
  · cases hsuspended.phase
  · cases hannounced.request

/-- What a read of a call may get that is to stay in the length: what it asks for at
    most. -/
def PrefixPiece (rop : RiakOperation ρ) (chunk : Bytes) : Prop :=
  rop.msglenComplete = false ∧ chunk.length ≤ rop.readRequest.count

/-- The same for calls of `riak_read`, which end wherever a piece is too short. -/
theorem riak_read_calls_reassemble_iff {env : ReadEnv ρ} {start last : Caller ρ}
    {calls : List (ReadCall ρ)} (hidle : start.rop.Idle)
    (hrun : Run (Caller.Step env PrefixPiece) start calls last) :
    ∃ groups : List (List (ReadTurn ρ)), TurnsOf calls groups ∧
      let reads := groups.flatten.map fun read => ReadStep.mk read.chunk read.turn
      (Along (fun before l => Reassembled (receivedBytes before ++ l.chunk) l.turn.rop) reads ↔
        Along (fun before l => l.chunk ≠ [] → receivedBytes before = []) reads) ∧
      (Along (fun before l => Reassembled (receivedBytes before ++ l.chunk) l.turn.rop) reads →
        Reassembled (receivedBytes reads) last.rop) := by
  have hstep : ∀ rop done heap chunk (_ : Bytes) turn heap', PrefixPiece rop chunk →
      riakReadTurn env rop done (.received chunk) heap = .ok (turn, heap') →
      ReadState.PrefixStep env ⟨rop, heap⟩ ⟨chunk, turn⟩ ⟨turn.rop, heap'⟩ := by
    rintro rop done heap chunk _ turn heap' ⟨hphase, hchunk⟩ hturn
    exact ⟨hphase, .read ⟨rop, heap⟩ done chunk turn heap' hchunk hturn⟩
  obtain ⟨groups, hmade, hturns⟩ := Caller.run_turns (fun rop _ heap _ => ReadState.mk rop heap)
    (fun read => ReadStep.mk read.chunk read.turn) hstep hrun
  exact ⟨groups, hmade, reassembled_of_run hidle hturns⟩

end RiakClient
