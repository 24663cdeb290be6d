import Mathlib.Data.List.Forall2
import RiakClient.Read
import RiakClient.Run

/-!
# What a turn of a read can do

One lemma for each part of a turn, for the results a `read_cb` may give: at most
as many bytes as were asked for. The proofs about whole reads cite these and
never unfold the code.

The parts are taken in the order in which a message goes through them: its length, its
body, and the decoder. Of a length there is nothing, a part or all that is missing; of
a body, the same; and of a message, that it was an error, that its decoder failed, or
that it was answered. The last case says the most, since only an answer ends a call
with a response.
-/

namespace RiakClient

open CSem Framing LabelledRun

variable {ρ : Type} {heap final : Heap}

/-! ### Host memory -/

@[simp] theorem hostBytes_length (word : UInt32) : (hostBytes word).length = 4 :=
  littleEndian_length 4 _

theorem hostBytes_hostWord {memory : Bytes} (h : memory.length = 4) :
    hostBytes (hostWord memory) = memory := by
  have hlt := leValue_lt memory
  rw [h] at hlt
  have hmod : leValue memory % 2 ^ 32 = leValue memory := Nat.mod_eq_of_lt hlt
  unfold hostBytes hostWord
  rw [UInt32.toNat_ofNat', hmod, ← h, littleEndian_leValue]

theorem ntohl_hostWord {memory : Bytes} (h : memory.length = 4) :
    (ntohl (hostWord memory)).toNat = beValue memory := by
  have hlt := beValue_lt memory
  rw [h] at hlt
  unfold ntohl
  rw [hostBytes_hostWord h, UInt32.toNat_ofNat']
  exact Nat.mod_eq_of_lt hlt

theorem hostBytes_htonl (word : UInt32) : hostBytes (htonl word) = bigEndian 4 word.toNat :=
  hostBytes_hostWord (bigEndian_length 4 _)

/-! ### The request of a turn -/

/-- Between messages. -/
def RiakOperation.Idle (rop : RiakOperation ρ) : Prop :=
  rop.position = 0 ∧ rop.msglen = 0 ∧ rop.msglenComplete = false

theorem readRequest_lengthPrefix {rop : RiakOperation ρ} (hphase : rop.msglenComplete = false)
    (hposition : rop.position.toNat ≤ 4) :
    rop.readRequest = .lengthPrefix rop.position.toNat (4 - rop.position.toNat) := by
  unfold RiakOperation.readRequest
  rw [hphase]
  simp only [Bool.false_eq_true, if_false, ReadRequest.lengthPrefix.injEq, true_and]
  omega

theorem readRequest_body {rop : RiakOperation ρ} (hphase : rop.msglenComplete = true)
    (hposition : rop.position ≤ rop.msglen) :
    rop.readRequest = .body rop.position.toNat (rop.msglen.toNat - rop.position.toNat) := by
  unfold RiakOperation.readRequest
  rw [hphase, if_pos rfl, UInt32.toNat_sub_of_le _ _ hposition]

/-! ### Turn after turn -/

/-- An operation with the heap it lives in. -/
structure ReadState (ρ : Type) where
  rop : RiakOperation ρ
  heap : Heap

/-- One turn: the bytes that its read got, and how it ended. -/
structure ReadStep (ρ : Type) where
  chunk : Bytes
  turn : Turn ρ

/-- A read that returns at most the number of bytes requested, in the same call
    of `riak_read` as the one before or in a later one. -/
inductive ReadState.Step (env : ReadEnv ρ) : ReadState ρ → ReadStep ρ → ReadState ρ → Prop
  | read (s : ReadState ρ) (done : RiakBoolean) (chunk : Bytes) (turn : Turn ρ) (heap : Heap)
      (hchunk : chunk.length ≤ s.rop.readRequest.count)
      (hturn : riakReadTurn env s.rop done (.received chunk) s.heap = .ok (turn, heap)) :
      ReadState.Step env s ⟨chunk, turn⟩ ⟨turn.rop, heap⟩

/-! ### Calls

`riak_read` goes on until it has to wait or is done, and is then called again. The
results of the code are about turns, of whatever calls; a call is a row of them that
ends with the first one to return. What holds of every row of turns is carried over to
rows of calls here, once for all step relations. -/

/-- One read of a call: the bytes that it got, the turn that it is a part of, and the
    bytes that are still to come. -/
structure ReadTurn (ρ : Type) where
  chunk : Bytes
  turn : Turn ρ
  rest : Bytes

/-- The turns of a call. Each of them but the last goes on. -/
structure ReadOutcome.MadeOf (outcome : ReadOutcome ρ) (chunks : List Bytes) (rest : Bytes)
    (reads : List (ReadTurn ρ)) : Prop where
  events : outcome.events = reads.flatMap fun read => read.turn.events
  chunks : chunks = reads.map ReadTurn.chunk ++ outcome.unused.map ReadResult.bytes
  exits : ∀ before read after, reads = before ++ read :: after →
    read.turn.exit = if after.isEmpty then outcome.returned else none
  last : ∀ before read, reads = before ++ [read] →
    read.rest = (outcome.unused.map ReadResult.bytes).flatten ++ rest

theorem map_bytes_received (chunks : List Bytes) :
    (chunks.map ReadResult.received).map ReadResult.bytes = chunks := by
  rw [List.map_map, show ReadResult.bytes ∘ ReadResult.received = id from rfl, List.map_id]

theorem ReadOutcome.madeOf_nil (outcome : ReadOutcome ρ) (hevents : outcome.events = [])
    (rest : Bytes) : outcome.MadeOf (outcome.unused.map ReadResult.bytes) rest [] :=
  ⟨hevents, rfl,
    fun _ _ _ hsplit =>
      absurd hsplit.symm (List.append_ne_nil_of_right_ne_nil _ (List.cons_ne_nil _ _)),
    fun _ _ hsplit =>
      absurd hsplit.symm (List.append_ne_nil_of_right_ne_nil _ (List.cons_ne_nil _ _))⟩

theorem ReadOutcome.MadeOf.cons {outcome : ReadOutcome ρ} {chunks : List Bytes} {rest : Bytes}
    {reads : List (ReadTurn ρ)} (h : outcome.MadeOf chunks rest reads) (read : ReadTurn ρ)
    (hexit : read.turn.exit = if reads.isEmpty then outcome.returned else none)
    (hrest : read.rest = chunks.flatten ++ rest) :
    ({ outcome with events := read.turn.events ++ outcome.events } : ReadOutcome ρ).MadeOf
      (read.chunk :: chunks) rest (read :: reads) := by
  refine ⟨?_, ?_, ?_, ?_⟩
  · rw [List.flatMap_cons, ← h.events]
  · rw [List.map_cons, List.cons_append, ← h.chunks]
  · intro before found after hsplit
    cases before with
    | nil =>
      obtain ⟨rfl, rfl⟩ := List.cons.inj hsplit
      exact hexit
    | cons _ before => exact h.exits before found after (List.cons.inj hsplit).2
  · intro before found hsplit
    cases before with
    | nil =>
      obtain ⟨rfl, rfl⟩ := List.cons.inj hsplit
      rw [hrest, h.chunks]
      rfl
    | cons _ before => exact h.last before found (List.cons.inj hsplit).2

theorem ReadOutcome.MadeOf.ends {outcome : ReadOutcome ρ} {chunks : List Bytes} {rest : Bytes}
    {reads : List (ReadTurn ρ)} (h : outcome.MadeOf chunks rest reads) {read : ReadTurn ρ}
    (hread : read ∈ reads) {err : RiakError} (hexit : read.turn.exit = some err) :
    outcome.returned = some err ∧
      read.rest = (outcome.unused.map ReadResult.bytes).flatten ++ rest := by
  obtain ⟨before, after, rfl⟩ := List.append_of_mem hread
  have hlast := h.exits before read after rfl
  rw [hexit] at hlast
  cases after with
  | nil => exact ⟨hlast.symm, h.last before read rfl⟩
  | cons _ _ => cases hlast

/-- What every turn of a call does, the call does: it is a run. `Allowed` says
    which results `read_cb` may give, and `place` what a step relation sees of
    the operation, of `*done_streaming`, of the heap and of the bytes to come. -/
theorem riakReadLoop_run {S L : Type} {env : ReadEnv ρ} {Step : S → L → S → Prop}
    {Allowed : RiakOperation ρ → Bytes → Prop}
    {place : RiakOperation ρ → RiakBoolean → Heap → Bytes → S} {label : ReadTurn ρ → L}
    (hstep : ∀ rop done heap chunk rest turn heap', Allowed rop chunk →
      riakReadTurn env rop done (.received chunk) heap = .ok (turn, heap') →
      Step (place rop done heap (chunk ++ rest)) (label ⟨chunk, turn, rest⟩)
        (place turn.rop (if turn.exit.isSome then 0 else turn.done) heap' rest)) (rest : Bytes) :
    ∀ (chunks : List Bytes) (rop : RiakOperation ρ) (done : RiakBoolean) (heap : Heap)
      (outcome : ReadOutcome ρ),
      riakReadLoop env rop done (chunks.map .received) heap = .ok (outcome, final) →
      (∀ before chunk after, chunks = before ++ chunk :: after → ∀ waiting heap',
        riakReadLoop env rop done (before.map .received) heap = .ok (waiting, heap') →
        waiting.returned = none → Allowed waiting.rop chunk) →
      ∃ reads, outcome.MadeOf chunks rest reads ∧ (reads = [] → outcome.returned = none) ∧
        Run Step (place rop done heap (chunks.flatten ++ rest)) (reads.map label)
          (place outcome.rop (if outcome.returned.isSome then 0 else outcome.done) final
            ((outcome.unused.map ReadResult.bytes).flatten ++ rest)) := by
  intro chunks
  induction chunks with
  | nil =>
    intro rop done heap outcome hcall _
    cases hcall
    exact ⟨[], ReadOutcome.madeOf_nil _ rfl rest, fun _ => rfl, .refl⟩
  | cons chunk chunks ih =>
    intro rop done heap outcome hcall hallowed
    have hchunk : Allowed rop chunk := hallowed [] chunk chunks rfl _ heap rfl rfl
    rw [List.map_cons, riakReadLoop] at hcall
    obtain ⟨turn, heap₁, hturn, hreturn⟩ := C.bind_eq_ok.mp hcall
    have hfirst := hstep rop done heap chunk (chunks.flatten ++ rest) turn heap₁ hchunk hturn
    rw [List.flatten_cons, List.append_assoc]
    cases hexit : turn.exit with
    | some err =>
      rw [hexit] at hreturn hfirst
      cases hreturn
      have hnone : ReadOutcome.MadeOf
          ⟨some err, turn.rop, turn.done, [], chunks.map .received⟩ chunks rest [] := by
        have hmade := ReadOutcome.madeOf_nil
          ⟨some err, turn.rop, turn.done, [], chunks.map .received⟩ rfl rest
        rwa [map_bytes_received] at hmade
      have hmade := hnone.cons ⟨chunk, turn, chunks.flatten ++ rest⟩ hexit rfl
      rw [List.append_nil] at hmade
      refine ⟨_, hmade, nofun, ?_⟩
      rw [map_bytes_received]
      exact Run.single hfirst
    | none =>
      rw [hexit] at hreturn hfirst
      obtain ⟨outcome', heap₂, hloop, hpure⟩ := C.bind_eq_ok.mp hreturn
      cases hpure
      obtain ⟨reads, hmade, hnone, hrun⟩ := ih turn.rop turn.done heap₁ outcome' hloop (by
        intro before chunk' after hchunks waiting heap' hwaiting hreturned
        refine hallowed (chunk :: before) chunk' after (by rw [hchunks]; rfl)
          { waiting with events := turn.events ++ waiting.events } heap' ?_ hreturned
        rw [List.map_cons, riakReadLoop, C.bind_of_ok hturn]
        simp only [hexit]
        rw [C.bind_of_ok hwaiting]
        rfl)
      have hgoes : turn.exit = if reads.isEmpty then outcome'.returned else none := by
        rw [hexit]
        cases reads with
        | nil => exact (hnone rfl).symm
        | cons _ _ => rfl
      exact ⟨_, hmade.cons ⟨chunk, turn, chunks.flatten ++ rest⟩ hgoes rfl, nofun,
        (Run.single hfirst).append hrun⟩

/-- What an application has between two calls of `riak_read`: the operation, the heap,
    and the bytes that were sent and not yet read. -/
structure Caller (ρ : Type) where
  rop : RiakOperation ρ
  heap : Heap
  unread : Bytes

/-- A call: the pieces that its reads got, what came of it, and what it left unread. -/
structure ReadCall (ρ : Type) where
  chunks : List Bytes
  outcome : ReadOutcome ρ
  unread : Bytes

/-- A call of `riak_read` that returns behind its last piece, each of them allowed for
    the operation that the reads before it leave. -/
inductive Caller.Step (env : ReadEnv ρ) (Allowed : RiakOperation ρ → Bytes → Prop) :
    Caller ρ → ReadCall ρ → Caller ρ → Prop
  | call (rop : RiakOperation ρ) (heap final : Heap) (chunks : List Bytes) (rest : Bytes)
      (outcome : ReadOutcome ρ)
      (hcall : riakRead env rop (chunks.map .received) heap = .ok (outcome, final))
      (hallowed : ∀ before chunk after, chunks = before ++ chunk :: after → ∀ waiting heap',
        riakRead env rop (before.map .received) heap = .ok (waiting, heap') →
        waiting.returned = none → Allowed waiting.rop chunk)
      (hreturned : outcome.returned.isSome = true) (hunused : outcome.unused = []) :
      Caller.Step env Allowed ⟨rop, heap, chunks.flatten ++ rest⟩ ⟨chunks, outcome, rest⟩
        ⟨outcome.rop, final, rest⟩

/-- The turns of calls that left nothing over of the pieces they got, call by call. -/
def TurnsOf (calls : List (ReadCall ρ)) (groups : List (List (ReadTurn ρ))) : Prop :=
  List.Forall₂ (fun call reads => call.outcome.MadeOf call.chunks call.unread reads ∧
    call.outcome.unused = []) calls groups

/-- What the calls showed is what their turns did. -/
theorem TurnsOf.events {calls : List (ReadCall ρ)} {groups : List (List (ReadTurn ρ))}
    (h : TurnsOf calls groups) : (calls.flatMap fun call => call.outcome.events) =
      groups.flatten.flatMap fun read => read.turn.events := by
  induction h with
  | nil => rfl
  | cons hcall _ ih =>
    rw [List.flatMap_cons, List.flatten_cons, List.flatMap_append, hcall.1.events, ih]

theorem TurnsOf.turns_of_mem {calls : List (ReadCall ρ)} {groups : List (List (ReadTurn ρ))}
    (h : TurnsOf calls groups) {call : ReadCall ρ} (hcall : call ∈ calls) :
    ∃ reads ∈ groups, call.outcome.MadeOf call.chunks call.unread reads ∧
      call.outcome.unused = [] := by
  induction h with
  | nil => cases hcall
  | cons hfirst _ ih =>
    rcases List.mem_cons.mp hcall with rfl | hlater
    · exact ⟨_, List.mem_cons_self, hfirst⟩
    · obtain ⟨reads, hreads, hmade⟩ := ih hlater
      exact ⟨reads, List.mem_cons_of_mem _ hreads, hmade⟩

/-- **Calls are runs of turns**, one group of turns for each call. -/
theorem Caller.run_turns {S L : Type} {env : ReadEnv ρ} {Step : S → L → S → Prop}
    {Allowed : RiakOperation ρ → Bytes → Prop}
    (place : RiakOperation ρ → RiakBoolean → Heap → Bytes → S) (label : ReadTurn ρ → L)
    (hstep : ∀ rop done heap chunk rest turn heap', Allowed rop chunk →
      riakReadTurn env rop done (.received chunk) heap = .ok (turn, heap') →
      Step (place rop done heap (chunk ++ rest)) (label ⟨chunk, turn, rest⟩)
        (place turn.rop (if turn.exit.isSome then 0 else turn.done) heap' rest))
    {start last : Caller ρ} {calls : List (ReadCall ρ)}
    (hrun : Run (Caller.Step env Allowed) start calls last) :
    ∃ groups : List (List (ReadTurn ρ)), TurnsOf calls groups ∧
      Run Step (place start.rop 0 start.heap start.unread) (groups.flatten.map label)
        (place last.rop 0 last.heap last.unread) := by
  refine hrun.invariant (fun calls s => ∃ groups : List (List (ReadTurn ρ)), TurnsOf calls groups ∧
    Run Step (place start.rop 0 start.heap start.unread) (groups.flatten.map label)
      (place s.rop 0 s.heap s.unread)) ⟨[], .nil, .refl⟩ ?_
  rintro calls s call s' ⟨groups, hmade, hsofar⟩ hcalled
  cases hcalled with
  | call rop heap final chunks rest outcome hcall hallowed hreturned hunused =>
    obtain ⟨reads, hreads, _, hturns⟩ :=
      riakReadLoop_run hstep rest chunks rop 0 heap outcome hcall hallowed
    refine ⟨groups ++ [reads], List.rel_append hmade (.cons ⟨hreads, hunused⟩ .nil), ?_⟩
    rw [List.flatten_append, List.flatten_singleton, List.map_append]
    rw [hreturned, hunused] at hturns
    exact hsofar.append hturns

/-! ### The length -/

/-- The memory of `inmsglen` once `chunk` has been read into it. -/
def stuffed (rop : RiakOperation ρ) (chunk : Bytes) : Bytes :=
  (hostBytes rop.msglen).take rop.position.toNat ++ chunk ++
    (hostBytes rop.msglen).drop (rop.position.toNat + chunk.length)

theorem stuffed_length {rop : RiakOperation ρ} {chunk : Bytes}
    (h : rop.position.toNat + chunk.length ≤ 4) : (stuffed rop chunk).length = 4 := by
  unfold stuffed
  rw [List.length_append, List.length_append, List.length_take, List.length_drop,
    hostBytes_length]
  omega

/-- The operation when its length is there and its buffer was asked for. -/
def RiakOperation.announced (rop : RiakOperation ρ) (msglen : UInt32) (msgbuf : Option Bytes) :
    RiakOperation ρ :=
  { rop with msglenComplete := true, msglen := msglen, msgbuf := msgbuf }

theorem copyAt_hostBytes (rop : RiakOperation ρ) (chunk : Bytes)
    (h : rop.position.toNat + chunk.length ≤ 4) :
    C.copyAt (hostBytes rop.msglen) rop.position.toNat chunk = pure (stuffed rop chunk) :=
  C.copyAt_of_le (by rw [hostBytes_length]; exact h)

theorem riakReadPrefix_nil {rop : RiakOperation ρ} (hphase : rop.msglenComplete = false)
    (hposition : rop.position.toNat < 4) (done : RiakBoolean) :
    riakReadPrefix rop done (.received []) =
      pure { rop := rop, done := done, exit := some .ok } := by
  have hstuffed := copyAt_hostBytes rop [] (by simp; omega)
  have hshort : (ReadResult.received []).buflen ≠ rop.readRequest.count := by
    rw [readRequest_lengthPrefix hphase (by omega)]
    simp only [ReadResult.buflen_received, ReadRequest.count, List.length_nil]
    omega
  unfold riakReadPrefix
  simp only [ReadResult.bytes_received, hstuffed, pure_bind]
  rw [if_pos hshort, if_pos (by rfl)]

/-- Some bytes, but not all that are missing: they are stuffed into `msglen`, and
    their number *replaces* the position. -/
theorem riakReadPrefix_short {rop : RiakOperation ρ} (hphase : rop.msglenComplete = false)
    {chunk : Bytes} (hne : chunk ≠ []) (hshort : rop.position.toNat + chunk.length < 4)
    (done : RiakBoolean) :
    riakReadPrefix rop done (.received chunk) =
      pure {
        rop := { rop with
          position := UInt32.ofNat chunk.length, msglen := hostWord (stuffed rop chunk) }
        done := done
        exit := some .ok } := by
  have hstuffed := copyAt_hostBytes rop chunk (Nat.le_of_lt hshort)
  have hlength : chunk.length ≠ 0 := fun h => hne (List.length_eq_zero_iff.mp h)
  have hcount : (ReadResult.received chunk).buflen ≠ rop.readRequest.count := by
    rw [readRequest_lengthPrefix hphase (by omega)]
    simp only [ReadResult.buflen_received, ReadRequest.count]
    omega
  unfold riakReadPrefix
  simp only [ReadResult.bytes_received, hstuffed, pure_bind]
  rw [if_pos hcount, ReadResult.buflen_received, if_neg hlength, if_pos (by omega)]

theorem riakReadPrefix_full {rop : RiakOperation ρ} (hphase : rop.msglenComplete = false)
    {chunk : Bytes} (hposition : rop.position.toNat < 4)
    (hfull : rop.position.toNat + chunk.length = 4) (done : RiakBoolean) :
    riakReadPrefix rop done (.received chunk) =
      (C.newBytes (ntohl (hostWord (stuffed rop chunk))).toNat >>= fun msgbuf => pure {
        rop := rop.announced (ntohl (hostWord (stuffed rop chunk))) msgbuf
        done := done
        exit := if msgbuf.isSome then none else some .read }) := by
  have hstuffed := copyAt_hostBytes rop chunk (Nat.le_of_eq hfull)
  have hcount : (ReadResult.received chunk).buflen = rop.readRequest.count := by
    rw [readRequest_lengthPrefix hphase (by omega)]
    simp only [ReadResult.buflen_received, ReadRequest.count]
    omega
  unfold riakReadPrefix
  simp only [ReadResult.bytes_received, hstuffed, pure_bind]
  rw [if_neg (by rw [hcount]; exact fun h => h rfl)]
  congr 1
  funext msgbuf
  cases msgbuf <;> rfl

/-! ### The body

An operation inside a body is described by `Holds`: a buffer of the announced size
with the bytes so far in front. A chunk that fits is stored behind them; with the last
byte the buffer is the message, and the operation is idle again. -/

/-- A buffer of `msglen` bytes whose first `position` ones are `got`. -/
structure RiakOperation.Holds (rop : RiakOperation ρ) (msgbuf got : Bytes) : Prop where
  buffer : rop.msgbuf = some msgbuf
  length : msgbuf.length = rop.msglen.toNat
  position : rop.position.toNat = got.length
  stored : msgbuf.take got.length = got

/-- The operation when `chunk` has been stored. -/
def RiakOperation.stored (rop : RiakOperation ρ) (msgbuf chunk : Bytes) : RiakOperation ρ :=
  { rop with
    position := rop.position + UInt32.ofNat chunk.length
    msgbuf := some (msgbuf.take rop.position.toNat ++ chunk ++
      msgbuf.drop (rop.position.toNat + chunk.length)) }

theorem riakReadStore_of_le {rop : RiakOperation ρ} {msgbuf chunk : Bytes}
    (hbuffer : rop.msgbuf = some msgbuf)
    (hroom : rop.position.toNat + chunk.length ≤ msgbuf.length) :
    riakReadStore rop (.received chunk) = pure (rop.stored msgbuf chunk) := by
  unfold riakReadStore riakReadInto RiakOperation.stored
  by_cases hempty : chunk = []
  · subst hempty
    simp [hbuffer]
  · simp only [ReadResult.bytes_received, hbuffer, if_neg hempty, C.deref_some, pure_bind]
    rw [C.copyAt_of_le hroom]
    rfl

theorem stored_position {rop : RiakOperation ρ} {msgbuf chunk : Bytes}
    (hroom : rop.position.toNat + chunk.length ≤ rop.msglen.toNat) :
    (rop.stored msgbuf chunk).position.toNat = rop.position.toNat + chunk.length := by
  have hlt : rop.msglen.toNat < 2 ^ 32 := rop.msglen.toNat_lt
  unfold RiakOperation.stored
  rw [UInt32.toNat_add, UInt32.toNat_ofNat', Nat.mod_eq_of_lt (a := chunk.length) (by omega)]
  exact Nat.mod_eq_of_lt (by omega)

theorem RiakOperation.Holds.store {rop : RiakOperation ρ} {msgbuf got chunk : Bytes}
    (h : rop.Holds msgbuf got) (hroom : got.length + chunk.length ≤ rop.msglen.toNat) :
    (rop.stored msgbuf chunk).Holds
      (msgbuf.take rop.position.toNat ++ chunk ++
        msgbuf.drop (rop.position.toNat + chunk.length)) (got ++ chunk) := by
  have hbuffer := h.length
  rw [h.position]
  refine ⟨by unfold RiakOperation.stored; rw [h.position], ?_, ?_, ?_⟩
  · show _ = rop.msglen.toNat
    rw [List.length_append, List.length_append, List.length_take, List.length_drop]
    omega
  · rw [stored_position (by rw [h.position]; exact hroom), h.position, List.length_append]
  · rw [h.stored, ← List.length_append, List.take_left]

theorem riakReadReceive_incomplete {rop : RiakOperation ρ} {msgbuf got chunk : Bytes}
    (h : rop.Holds msgbuf got) (hroom : got.length + chunk.length < rop.msglen.toNat) :
    riakReadReceive rop (.received chunk) = pure (rop.stored msgbuf chunk, none) := by
  have hfits : rop.position.toNat + chunk.length ≤ msgbuf.length := by
    rw [h.position, h.length]; omega
  have hposition : (rop.stored msgbuf chunk).position < (rop.stored msgbuf chunk).msglen := by
    rw [UInt32.lt_iff_toNat_lt, stored_position (by rw [h.position]; omega), h.position]
    exact hroom
  unfold riakReadReceive
  rw [riakReadStore_of_le h.buffer hfits]
  simp only [pure_bind]
  rw [if_pos hposition]

/-- The operation when a message has been taken out of it. -/
def RiakOperation.reset (rop : RiakOperation ρ) : RiakOperation ρ :=
  { rop with position := 0, msglen := 0, msglenComplete := false }

theorem riakReadReceive_complete {rop : RiakOperation ρ} {msgbuf got chunk : Bytes} {msgid : UInt8}
    {payload : Bytes} (h : rop.Holds msgbuf got)
    (hroom : got.length + chunk.length = rop.msglen.toNat)
    (hbody : got ++ chunk = msgid :: payload) :
    riakReadReceive rop (.received chunk) =
      (riakPbMessageNew msgid rop.msglen.toNat (msgid :: payload) >>= fun pbresp =>
        pure ({ rop.reset with msgbuf := some (msgid :: payload) }, some (msgid, pbresp))) := by
  have hfits : rop.position.toNat + chunk.length ≤ msgbuf.length := by
    rw [h.position, h.length]; omega
  have hposition : (rop.stored msgbuf chunk).position = (rop.stored msgbuf chunk).msglen := by
    apply UInt32.toNat.inj
    rw [stored_position (by rw [h.position]; omega), h.position]
    exact hroom
  have hbuffer : (rop.stored msgbuf chunk).msgbuf = some (msgid :: payload) := by
    have hdrop : msgbuf.drop (got.length + chunk.length) = [] := by
      rw [List.drop_eq_nil_iff, h.length]; omega
    unfold RiakOperation.stored
    rw [h.position, h.stored, hdrop, List.append_nil, hbody]
  unfold riakReadReceive
  rw [riakReadStore_of_le h.buffer hfits]
  simp only [pure_bind]
  rw [if_neg (by rw [hposition]; exact UInt32.lt_irrefl _), if_neg (by rw [hposition]; simp),
    hbuffer]
  rfl

/-! ### The message -/

/-- The events in which a message was decoded. -/
def ReadEvent.message? : ReadEvent ρ → Option (Option RiakPbMessage)
  | decoded pbresp _ => some pbresp
  | _ => none

/-- The messages that a turn handed to the decoder. -/
def Turn.messages (turn : Turn ρ) : List (Option RiakPbMessage) :=
  turn.events.filterMap ReadEvent.message?

theorem responseCbEvents_messages (rop : RiakOperation ρ) :
    (responseCbEvents rop).filterMap ReadEvent.message? = [] := by
  unfold responseCbEvents
  cases rop.responseCb with
  | none => rfl
  | some cb => rfl

/-- The operation when a message has been decoded. -/
def RiakOperation.answered (rop : RiakOperation ρ) (response : Option ρ) : RiakOperation ρ :=
  { rop with response := response, msgbuf := none }

theorem messages_eq_nil_iff {events : List (ReadEvent ρ)} :
    events.filterMap ReadEvent.message? = [] ↔
      ∀ pbresp result, .decoded pbresp result ∉ events := by
  rw [List.filterMap_eq_nil_iff]
  constructor
  · intro h pbresp result hmem
    cases h _ hmem
  · intro h event hmem
    cases event with
    | decoded pbresp result => exact absurd hmem (h pbresp result)
    | responseCb cb response => rfl
    | errorCb cb response => rfl

theorem errorCbEvents_messages (rop : RiakOperation ρ) (response : RiakServerErrorResponse) :
    (errorCbEvents rop response).filterMap ReadEvent.message? = [] := by
  unfold errorCbEvents
  cases rop.errorCb with
  | none => rfl
  | some cb => rfl

/-- Decoding an error of the server changes nothing of the operation but its
    error, and calls no other decoder. -/
theorem riakServerErrorResponseDecode_cases {unpack : Bytes → Option RpbErrorResp}
    {rop : RiakOperation ρ} {pbresp : Option RiakPbMessage} {done : RiakBoolean}
    {decoded : ServerErrorDecoded ρ}
    (h : riakServerErrorResponseDecode unpack rop pbresp done heap = .ok (decoded, final)) :
    (∃ error, decoded.rop = { rop with error := error }) ∧
      decoded.events.filterMap ReadEvent.message? = [] := by
  unfold riakServerErrorResponseDecode at h
  obtain ⟨message, heap₁, _, h⟩ := C.bind_eq_ok.mp h
  obtain ⟨payload, heap₂, _, h⟩ := C.bind_eq_ok.mp h
  cases hunpack : unpack payload with
  | none =>
    rw [hunpack] at h
    cases h
    exact ⟨⟨rop.error, rfl⟩, rfl⟩
  | some errresp =>
    rw [hunpack] at h
    obtain ⟨granted, heap₃, _, h⟩ := C.bind_eq_ok.mp h
    cases granted with
    | false =>
      cases h
      exact ⟨⟨rop.error, rfl⟩, rfl⟩
    | true =>
      obtain ⟨errmsg, heap₄, _, h⟩ := C.bind_eq_ok.mp h
      cases errmsg with
      | none =>
        cases h
        exact ⟨⟨rop.error, rfl⟩, rfl⟩
      | some errmsg =>
        obtain ⟨⟨err, error⟩, heap₅, _, h⟩ := C.bind_eq_ok.mp h
        by_cases hok : err = .ok
        · simp only [hok, if_true] at h
          cases h
          exact ⟨⟨error, rfl⟩, errorCbEvents_messages rop _⟩
        · simp only [hok, if_false] at h
          cases h
          exact ⟨⟨error, rfl⟩, errorCbEvents_messages rop _⟩

/-- A message that was decoded without an error ends the call if and only if its
    decoder reported done, and leaves its response in the operation. -/
structure Turn.Answers (turn : Turn ρ) (rop : RiakOperation ρ) (pbresp : Option RiakPbMessage)
    (result : Decoded ρ) : Prop where
  events : ∃ events, turn.events = .decoded pbresp result :: events ∧
    events.filterMap ReadEvent.message? = ([] : List (Option RiakPbMessage))
  ok : result.err = .ok
  rop : turn.rop = rop.answered result.resp
  done : turn.done = result.done
  exit : turn.exit = if result.done ≠ 0 then some .ok else none

theorem Turn.Answers.messages {turn : Turn ρ} {rop : RiakOperation ρ}
    {pbresp : Option RiakPbMessage} {result : Decoded ρ} (h : turn.Answers rop pbresp result) :
    turn.messages = [pbresp] := by
  obtain ⟨events, hevents, hnone⟩ := h.events
  unfold Turn.messages
  rw [hevents, List.filterMap_cons, hnone]
  rfl

theorem Turn.Answers.eq_of_mem {turn : Turn ρ} {rop : RiakOperation ρ}
    {pbresp pbresp' : Option RiakPbMessage} {result result' : Decoded ρ}
    (h : turn.Answers rop pbresp result) (hmem : .decoded pbresp' result' ∈ turn.events) :
    result' = result := by
  obtain ⟨events, hevents, hnone⟩ := h.events
  rw [hevents] at hmem
  rcases List.mem_cons.mp hmem with heq | hlater
  · cases heq
    rfl
  · exact absurd hlater (messages_eq_nil_iff.mp hnone pbresp' result')

theorem riakReadDispatch_of_decoded {env : ReadEnv ρ} {rop : RiakOperation ρ} {msgid : UInt8}
    {pbresp : Option RiakPbMessage} {decoder : RiakResponseDecoder} {result : Decoded ρ}
    (hdecoder : rop.decoder = some decoder) (hmsgid : msgid ≠ MSG_RPBERRORRESP)
    (hresult : env.decode decoder rop pbresp rop.response 1 heap = .ok (result, final))
    (hok : result.err = .ok) :
    ∃ turn, riakReadDispatch env rop msgid pbresp heap = .ok (turn, final) ∧
      turn.Answers rop pbresp result ∧ turn.events = .decoded pbresp result ::
        if result.done ≠ 0 then responseCbEvents turn.rop else [] := by
  unfold riakReadDispatch
  rw [hdecoder]
  simp only
  rw [if_neg hmsgid, C.bind_of_ok hresult]
  simp only [hok, ne_eq, not_true_eq_false, if_false]
  by_cases hdone : result.done = 0
  · simp only [hdone, not_true_eq_false, if_false]
    refine ⟨_, rfl, ⟨⟨[], rfl, rfl⟩, hok, ?_, hdone.symm, ?_⟩, rfl⟩
    · rw [← hdecoder]
      rfl
    · rw [if_neg (fun hne => hne hdone)]
  · simp only [hdone, not_false_eq_true, if_true]
    refine ⟨_, rfl, ⟨⟨_, rfl, responseCbEvents_messages _⟩, hok, ?_, rfl, ?_⟩, rfl⟩
    · rw [← hdecoder]
      rfl
    · rw [if_pos hdone]

/-- A turn that fails: a decoder that ran reported an error. -/
def Turn.Fails (turn : Turn ρ) : Prop :=
  (∃ err, turn.exit = some err ∧ err ≠ .ok) ∧
    ∀ pbresp result, .decoded pbresp result ∈ turn.events → result.err ≠ .ok

/-- What the decoders of an environment can answer. -/
def ReadEnv.Yields (env : ReadEnv ρ) (result : Decoded ρ) : Prop :=
  ∃ decoder rop pbresp resp heap final,
    env.decode decoder rop pbresp resp 1 heap = .ok (result, final)

/-- **What becomes of a message**: it is answered, or the call fails; the
    operation stays idle. -/
theorem riakReadDispatch_cases {env : ReadEnv ρ} {rop : RiakOperation ρ} {msgid : UInt8}
    {pbresp : Option RiakPbMessage} {turn : Turn ρ}
    (h : riakReadDispatch env rop msgid pbresp heap = .ok (turn, final)) :
    (rop.Idle → turn.rop.Idle) ∧
      (turn.Fails ∨ ∃ result, turn.Answers rop pbresp result ∧ env.Yields result) := by
  have hrun := h
  unfold riakReadDispatch at h
  cases hdecoder : rop.decoder with
  | none =>
    rw [hdecoder] at h
    cases h
    exact ⟨id, Or.inl ⟨⟨.read, rfl, nofun⟩, nofun⟩⟩
  | some decoder =>
    rw [hdecoder] at h
    simp only at h
    by_cases herror : msgid = MSG_RPBERRORRESP
    · rw [if_pos herror] at h
      unfold riakReadServerError at h
      obtain ⟨decoded, heap₁, hdecode, h⟩ := C.bind_eq_ok.mp h
      obtain ⟨errResponse, heap₂, _, h⟩ := C.bind_eq_ok.mp h
      obtain ⟨⟨error, hrop⟩, hevents⟩ := riakServerErrorResponseDecode_cases hdecode
      cases h
      refine ⟨?_, Or.inl ⟨⟨.serverError, rfl, nofun⟩, ?_⟩⟩
      · intro hidle
        rw [hrop]
        exact hidle
      · intro pbresp result hmem
        have hnone : (decoded.events ++ errorCbEvents decoded.rop errResponse).filterMap
            ReadEvent.message? = [] := by
          rw [List.filterMap_append, hevents, errorCbEvents_messages, List.append_nil]
        exact absurd hmem (messages_eq_nil_iff.mp hnone pbresp result)
    · rw [if_neg herror] at h
      obtain ⟨result, heap₁, hresult, h⟩ := C.bind_eq_ok.mp h
      by_cases hok : result.err = .ok
      · obtain ⟨turn', hturn', hanswers, _⟩ :=
          riakReadDispatch_of_decoded hdecoder herror hresult hok
        rw [hrun] at hturn'
        cases hturn'
        refine ⟨?_, Or.inr ⟨result, hanswers, decoder, rop, pbresp, _, _, _, hresult⟩⟩
        intro hidle
        rw [hanswers.rop]
        exact hidle
      · simp only [hok, ne_eq, not_false_eq_true, if_true] at h
        cases h
        refine ⟨id, Or.inl ⟨⟨.read, rfl, nofun⟩, ?_⟩⟩
        intro pbresp' result' hmem
        cases List.mem_singleton.mp hmem
        exact hok

end RiakClient
