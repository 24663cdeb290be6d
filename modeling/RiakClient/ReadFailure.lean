import RiakClient.ReadTurns

/-!
# Reads that fail

What a call of `riak_read` makes of a negative result of `read_cb`. The result is
assigned to a `riak_size_t`: in the length it is larger than anything that was
asked for and is answered with an error, in the body it is added to the position
like a number of bytes.

The invariant of all reads, failed ones among them, is that a length which is not
complete has fewer than four bytes. So a failed read of the length is always told
apart from one that got bytes, and changes nothing; a failed read of a body never is.
-/

namespace RiakClient

open CSem LabelledRun

variable {ρ : Type} {heap final : Heap} {env : ReadEnv ρ}

/-! ### The operations that reads leave behind -/

/-- A turn whose read returns at most the bytes requested, or fails, whatever the
    allocator does. -/
inductive RiakOperation.Attempt (env : ReadEnv ρ) :
    RiakOperation ρ → ReadResult → RiakOperation ρ → Prop
  | read (rop : RiakOperation ρ) (done : RiakBoolean) (r : ReadResult) (heap : Heap)
      (turn : Turn ρ) (heap' : Heap) (hr : r.bytes.length ≤ rop.readRequest.count)
      (hturn : riakReadTurn env rop done r heap = .ok (turn, heap')) :
      RiakOperation.Attempt env rop r turn.rop

/-- A length that is not complete has fewer than four bytes. -/
def RiakOperation.LengthPending (rop : RiakOperation ρ) : Prop :=
  rop.msglenComplete = false → rop.position.toNat < 4

theorem RiakOperation.Idle.lengthPending {rop : RiakOperation ρ} (h : rop.Idle) :
    rop.LengthPending := by
  intro _
  rw [h.1]
  decide

theorem ReadResult.buflen_failed (e : Nat) : (failed e).buflen = 2 ^ 64 - 1 - e % 2 ^ 63 := rfl

theorem buflen_failed_ne {rop : RiakOperation ρ} (hphase : rop.msglenComplete = false)
    (hposition : rop.position.toNat < 4) (e : Nat) :
    (ReadResult.failed e).buflen ≠ rop.readRequest.count := by
  rw [readRequest_lengthPrefix hphase (Nat.le_of_lt hposition), ReadResult.buflen_failed,
    ReadRequest.count]
  omega

theorem riakReadPrefix_failed {rop : RiakOperation ρ} (hphase : rop.msglenComplete = false)
    (hposition : rop.position.toNat < 4) (done : RiakBoolean) (e : Nat) :
    riakReadPrefix rop done (.failed e) = pure { rop := rop, done := done, exit := some .read } := by
  have hlarge : 2 ^ 63 ≤ (ReadResult.failed e).buflen := by
    rw [ReadResult.buflen_failed]
    omega
  unfold riakReadPrefix
  rw [show C.copyAt (hostBytes rop.msglen) rop.position.toNat (ReadResult.failed e).bytes =
    pure (hostBytes rop.msglen) from rfl, pure_bind, if_pos (buflen_failed_ne hphase hposition e),
    if_neg (by omega), if_neg (by omega)]

theorem riakReadPrefix_lengthPending {rop : RiakOperation ρ} (hphase : rop.msglenComplete = false)
    (hposition : rop.position.toNat < 4) {done : RiakBoolean} {r : ReadResult} {turn : Turn ρ}
    (hr : r.bytes.length ≤ rop.readRequest.count)
    (hturn : riakReadPrefix rop done r heap = .ok (turn, final)) : turn.rop.LengthPending := by
  cases r with
  | failed e =>
    rw [riakReadPrefix_failed hphase hposition] at hturn
    cases hturn
    exact fun _ => hposition
  | received chunk =>
    rw [readRequest_lengthPrefix hphase (Nat.le_of_lt hposition)] at hr
    have hcount : chunk.length ≤ 4 - rop.position.toNat := hr
    by_cases hempty : chunk = []
    · subst hempty
      rw [riakReadPrefix_nil hphase hposition] at hturn
      cases hturn
      exact fun _ => hposition
    by_cases hshort : rop.position.toNat + chunk.length < 4
    · rw [riakReadPrefix_short hphase hempty hshort] at hturn
      cases hturn
      intro _
      show (UInt32.ofNat chunk.length).toNat < 4
      rw [UInt32.toNat_ofNat', Nat.mod_eq_of_lt (by omega)]
      omega
    · rw [riakReadPrefix_full hphase hposition (by omega)] at hturn
      obtain ⟨msgbuf, heap₁, _, hturn⟩ := C.bind_eq_ok.mp hturn
      cases hturn
      exact nofun

theorem riakReadReceive_cases {rop rop' : RiakOperation ρ} {r : ReadResult}
    {message : Option (UInt8 × Option RiakPbMessage)}
    (h : riakReadReceive rop r heap = .ok ((rop', message), final)) :
    (message = none ∧ rop'.msglenComplete = rop.msglenComplete) ∨
      (message.isSome ∧ rop'.Idle) := by
  unfold riakReadReceive riakReadStore at h
  rw [bind_assoc] at h
  obtain ⟨msgbuf, heap₁, _, h⟩ := C.bind_eq_ok.mp h
  rw [pure_bind] at h
  split at h
  · cases h
    exact Or.inl ⟨rfl, rfl⟩
  · split at h
    · cases h
    · obtain ⟨buffer, heap₂, _, h⟩ := C.bind_eq_ok.mp h
      obtain ⟨msgid, heap₃, _, h⟩ := C.bind_eq_ok.mp h
      obtain ⟨pbresp, heap₄, _, h⟩ := C.bind_eq_ok.mp h
      cases h
      exact Or.inr ⟨rfl, rfl, rfl, rfl⟩

/-- A turn in the body returns ERIAK_OK and stays there, or takes the message out
    of the operation. -/
theorem riakReadBody_cases {rop : RiakOperation ρ} {done : RiakBoolean} {r : ReadResult}
    {turn : Turn ρ} (h : riakReadBody env rop done r heap = .ok (turn, final)) :
    (turn.exit = some .ok ∧ turn.rop.msglenComplete = rop.msglenComplete) ∨ turn.rop.Idle := by
  unfold riakReadBody at h
  obtain ⟨⟨rop', message⟩, heap₁, hreceive, h⟩ := C.bind_eq_ok.mp h
  rcases riakReadReceive_cases hreceive with ⟨rfl, hphase⟩ | ⟨hmessage, hidle⟩
  · cases h
    exact Or.inl ⟨rfl, hphase⟩
  · obtain ⟨⟨msgid, pbresp⟩, rfl⟩ := Option.isSome_iff_exists.mp hmessage
    exact Or.inr ((riakReadDispatch_cases h).1 hidle)

theorem RiakOperation.Attempt.lengthPending {rop rop' : RiakOperation ρ} {r : ReadResult}
    (hstep : RiakOperation.Attempt env rop r rop') (h : rop.LengthPending) :
    rop'.LengthPending := by
  cases hstep with
  | read done _ heap turn heap' hr hturn =>
    unfold riakReadTurn at hturn
    cases hphase : rop.msglenComplete with
    | false =>
      rw [hphase, if_neg (by decide)] at hturn
      exact riakReadPrefix_lengthPending hphase (h hphase) hr hturn
    | true =>
      rw [hphase, if_pos rfl] at hturn
      rcases riakReadBody_cases hturn with ⟨_, hstays⟩ | hidle
      · intro hpending
        rw [hstays, hphase] at hpending
        cases hpending
      · exact hidle.lengthPending

/-- Whatever reads came before, a length that is not complete has fewer than four
    bytes. -/
theorem lengthPending_of_run {start rop : RiakOperation ρ} {results : List ReadResult}
    (hstart : start.Idle) (hrun : Run (RiakOperation.Attempt env) start results rop) :
    rop.LengthPending :=
  hrun.invariant (fun _ rop => rop.LengthPending) hstart.lengthPending
    (fun _ _ _ _ h hstep => hstep.lengthPending h)

/-! ### The failure -/

/-- From this operation on, a call of `riak_read` whose next read fails returns an
    error, and what was received is where it was. -/
def FailureReported (env : ReadEnv ρ) (rop : RiakOperation ρ) (e : Nat) : Prop :=
  ∀ (done : RiakBoolean) (heap : Heap) (rest : List ReadResult),
    ∃ outcome final err,
      riakReadLoop env rop done (.failed e :: rest) heap = .ok (outcome, final) ∧
      outcome.returned = some err ∧ err ≠ .ok ∧
      outcome.rop.position = rop.position ∧ outcome.rop.msglen = rop.msglen ∧
      outcome.rop.msglenComplete = rop.msglenComplete ∧ outcome.rop.msgbuf = rop.msgbuf

theorem failureReported_of_length {rop : RiakOperation ρ} (hphase : rop.msglenComplete = false)
    (hposition : rop.position.toNat < 4) (e : Nat) : FailureReported env rop e := by
  intro done heap rest
  have hturn : riakReadTurn env rop done (.failed e) =
      pure { rop := rop, done := done, exit := some .read } := by
    unfold riakReadTurn
    rw [if_neg (by rw [hphase]; decide), riakReadPrefix_failed hphase hposition]
  rw [riakReadLoop, hturn, pure_bind]
  exact ⟨_, _, .read, rfl, rfl, by decide, rfl, rfl, rfl, rfl⟩

/-- A failure in the body is not: where the call returns at all, it returns
    ERIAK_OK, or the message is gone. -/
theorem not_failureReported_of_body {rop : RiakOperation ρ} (hphase : rop.msglenComplete = true)
    (e : Nat) : ¬ FailureReported env rop e := by
  intro h
  obtain ⟨outcome, final, err, hrun, hreturned, herr, _, _, hstays, _⟩ := h 0 Heap.fresh []
  rw [riakReadLoop] at hrun
  obtain ⟨turn, heap₁, hturn, hrun⟩ := C.bind_eq_ok.mp hrun
  unfold riakReadTurn at hturn
  rw [hphase, if_pos rfl] at hturn
  cases hexit : turn.exit with
  | none =>
    rw [hexit] at hrun
    obtain ⟨waiting, heap₂, hwaiting, hrun⟩ := C.bind_eq_ok.mp hrun
    cases hwaiting
    cases hrun
    cases hreturned
  | some code =>
    rw [hexit] at hrun
    cases hrun
    rcases riakReadBody_cases hturn with ⟨hok, _⟩ | hidle
    · rw [hexit] at hok
      rw [hok, Option.some.injEq] at hreturned
      exact herr hreturned.symm
    · rw [hphase] at hstays
      exact absurd (hstays.symm.trans hidle.2.2) (by decide)

/-- **A failed read is reported** in exactly those operations that reads can leave
    behind in which the length is not complete. -/
theorem riak_read_failure_reported_iff {start rop : RiakOperation ρ} {results : List ReadResult}
    (hstart : start.Idle) (hrun : Run (RiakOperation.Attempt env) start results rop) (e : Nat) :
    FailureReported env rop e ↔ rop.msglenComplete = false := by
  constructor
  · intro h
    cases hphase : rop.msglenComplete with
    | false => rfl
    | true => exact absurd h (not_failureReported_of_body hphase e)
  · intro hphase
    exact failureReported_of_length hphase (lengthPending_of_run hstart hrun hphase) e

/-- An application whose decoders leave a message as it is. -/
def sampleReadEnv : ReadEnv Unit where
  decode _ _ _ resp done := pure ⟨.ok, resp, done⟩
  rpbErrorRespUnpack _ := none

/-- The first two bytes of a length have come when the read fails. -/
theorem riak_read_failure_reported_sample : FailureReported sampleReadEnv { position := 2 } 0 := by
  have hread : RiakOperation.Attempt sampleReadEnv {} (.received [0, 0]) { position := 2 } :=
    .read {} 0 (.received [0, 0]) Heap.fresh
      { rop := { position := 2 }, done := 0, exit := some .ok } Heap.fresh (by decide) (by rfl)
  exact (riak_read_failure_reported_iff ⟨rfl, rfl, rfl⟩ (Run.single hread) 0).mpr rfl

/-- The operation that has got a length of ten bytes and three bytes of the body. -/
def partialBody : RiakOperation Unit where
  position := 3
  msglen := 10
  msglenComplete := true
  msgbuf := some [12, 1, 2, 0, 0, 0, 0, 0, 0, 0]

/-- A read that fails behind the third byte of a body takes the third byte away and
    returns ERIAK_OK; one that fails before the first byte ends in the assertion. -/
theorem riak_read_failure_in_body :
    (∃ outcome final, riakRead sampleReadEnv {} [.received [0, 0, 0, 10], .received [12, 1, 2]]
      Heap.fresh = .ok (outcome, final) ∧ outcome.rop = partialBody) ∧
    (∃ outcome final, riakRead sampleReadEnv partialBody [.failed 0] Heap.fresh =
      .ok (outcome, final) ∧ outcome.returned = some .ok ∧
        outcome.rop = { partialBody with position := 2 }) ∧
    riakRead sampleReadEnv {} [.received [0, 0, 0, 10], .failed 0] Heap.fresh =
      .error .assertionFailed ∧
    ¬ FailureReported sampleReadEnv partialBody 0 :=
  ⟨⟨_, _, rfl, rfl⟩, ⟨_, _, rfl, rfl, rfl⟩, rfl, not_failureReported_of_body rfl 0⟩

end RiakClient
