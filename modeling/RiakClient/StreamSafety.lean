import RiakClient.IndexSafety
import RiakClient.Run

/-!
# Streams that leave a response safe to hold

Over whole streams of calls, the responses of all four decoders can be read and
freed as long as every call is allowed.

Listings and 2i queries start from nothing, and every call that is allowed leaves a
sound response or NULL. A map/reduce response has to be there before it is sound, so
its streams begin with a call that makes one.
-/

namespace RiakClient

open CSem LabelledRun

variable {ρ μ : Type} {heap final : Heap}

/-! ### Map/reduce

The array for the application is made anew by every assembly, and a call that is
refused in the middle of it leaves the count of the messages without an array. So a call
behind the first one may be refused the slot for its own message, which is then dropped,
or the second request of each message, which leaves a NULL binary in a message that is
there. -/

/-- What a map/reduce response needs of a call. The first message has to be
    accepted and assembled, because there is no freeing NULL; every later one has
    to be assembled again, and each of its messages takes two requests, of which
    the second may be refused. -/
def MapreduceAllowed (unpack : Bytes → Option RpbMapRedResp) (rop : RiakOperation ρ)
    (resp : Option RiakMapreduceResponse) (call : DecodeCall) : Prop :=
  match resp with
  | none => ∃ m, call.message unpack = some m ∧
      (rop.streaming ∨ doneFlag m.hasDone m.done ≠ 0) ∧ ∀ k < 4, call.heap.answer k = true
  | some response => ∀ m, call.message unpack = some m →
      call.heap.answer 0 = false ∨
        (rop.streaming ∨ doneFlag m.hasDone m.done ≠ 0) ∧ call.heap.answer 1 = true ∧
          ∀ k ≤ response.raw.nResponses.toNat, call.heap.answer (2 + 2 * k) = true

/-- The loop over the raw messages makes a message of each, unless it is refused
    one. -/
theorem mapreduceMessages_cases {internal : List (Ptr RpbMapRedResp)} :
    ∀ (left i : Nat) (slots : Option (List (Ptr RiakMapreduceMessage))) (heap final : Heap),
    mapreduceMessages internal left i heap = .ok (slots, final) →
    (slots = none ∧ ∃ k < left, heap.answer (2 * k) = false) ∨
      ∃ msgs : List RiakMapreduceMessage, slots = some (msgs.map .obj) ∧ msgs.length = left ∧
        (left = 0 ∨ i + left < 2 ^ 31) := by
  intro left
  induction left with
  | zero =>
    intro i slots heap final h
    simp only [mapreduceMessages, C.pure_apply, Except.ok.injEq, Prod.mk.injEq] at h
    exact Or.inr ⟨[], h.1.symm, rfl, Or.inl rfl⟩
  | succ left ih =>
    intro i slots heap final h
    obtain ⟨cell, heap₁, hread, h₁⟩ := C.bind_eq_ok.mp h
    obtain ⟨_, rfl⟩ := C.readAt_eq_ok.mp hread
    rw [C.bind_of_ok (C.allocate_eq _)] at h₁
    cases hanswer : heap₁.answer 0 with
    | false =>
      simp only [hanswer, Bool.false_eq_true, if_false, C.pure_apply, Except.ok.injEq,
        Prod.mk.injEq] at h₁
      exact Or.inl ⟨h₁.1.symm, 0, Nat.succ_pos left, hanswer⟩
    | true =>
      simp only [hanswer, if_true] at h₁
      obtain ⟨m, heap₂, hm, h₂⟩ := C.bind_eq_ok.mp h₁
      obtain ⟨_, rfl⟩ := Ptr.deref_eq_ok.mp hm
      unfold riakBinaryCopyFromPb at h₂
      rw [C.bind_of_ok (C.new_eq _ _), Heap.after_after] at h₂
      obtain ⟨i', heap₃, hi, h₃⟩ := C.bind_eq_ok.mp h₂
      obtain ⟨hint, rfl, rfl⟩ := C.intSucc_eq_ok.mp hi
      obtain ⟨later, heap₄, hlater, hlast⟩ := C.bind_eq_ok.mp h₃
      rcases ih (i + 1) later _ _ hlater with ⟨rfl, k, hk, hrefused⟩ | ⟨msgs, rfl, hlength, hbound⟩
      · simp only [C.pure_apply, Except.ok.injEq, Prod.mk.injEq] at hlast
        rw [Heap.answer_after] at hrefused
        refine Or.inl ⟨hlast.1.symm, k + 1, by omega, ?_⟩
        rw [show 2 * (k + 1) = 1 + 1 + 2 * k by omega]
        exact hrefused
      · simp only [C.pure_apply, Except.ok.injEq, Prod.mk.injEq] at hlast
        exact Or.inr ⟨_ :: msgs, hlast.1.symm, by rw [List.length_cons, hlength], Or.inr (by omega)⟩

theorem riakMapreduceAssemble_sound {response response' : RiakMapreduceResponse}
    {seen : List RpbMapRedResp} {err : RiakError} (hraw : response.raw.Holds seen)
    (hne : seen ≠ []) (harray : heap.answer 0 = true)
    (hgranted : ∀ k < seen.length, heap.answer (1 + 2 * k) = true)
    (hrun : riakMapreduceAssemble response heap = .ok ((err, response'), final)) :
    err = .ok ∧ response'.Sound seen := by
  unfold riakMapreduceAssemble at hrun
  rw [C.bind_of_ok (C.allocate_eq heap), harray] at hrun
  simp only [if_true, hraw.slots hne, Ptr.deref_obj, pure_bind, hraw.count] at hrun
  obtain ⟨slots, heap₁, hloop, hrun₁⟩ := C.bind_eq_ok.mp hrun
  rcases mapreduceMessages_cases _ _ _ _ _ hloop with ⟨rfl, k, hk, hrefused⟩ |
    ⟨msgs, rfl, hlength, hbound⟩
  · rw [Heap.answer_after, hgranted k hk] at hrefused
    cases hrefused
  · simp only [C.pure_apply, Except.ok.injEq, Prod.mk.injEq] at hrun₁
    obtain ⟨⟨rfl, rfl⟩, _⟩ := hrun₁
    have hpositive := List.length_pos_iff.mpr hne
    exact ⟨rfl, ⟨msgs, rfl, hlength⟩, hraw, hne, by omega⟩

def SoundMapreduce (resp : Option RiakMapreduceResponse) : Prop :=
  ∃ response seen, resp = some response ∧ RiakMapreduceResponse.Sound response seen

theorem riakMapreduce_finish {resp : Option RiakMapreduceResponse}
    {response : RiakMapreduceResponse} {seen : List RpbMapRedResp} {done : RiakBoolean}
    {wanted : Prop} [Decidable wanted] {decoded : Decoded RiakMapreduceResponse}
    (hraw : response.raw.Holds seen) (hne : seen ≠ []) (hwanted : wanted)
    (harray : heap.answer 0 = true)
    (hgranted : ∀ k < seen.length, heap.answer (1 + 2 * k) = true)
    (hrun : (do
      let (err, response) ← riakMapreduceAssembleIf wanted response
      if err = .ok then pure ⟨.ok, some response, done⟩
      else pure ⟨err, leftIn resp response, done⟩ : C (Decoded RiakMapreduceResponse)) heap =
        .ok (decoded, final)) : SoundMapreduce decoded.resp := by
  obtain ⟨⟨err, response'⟩, heap₁, hassemble, hrun₁⟩ := C.bind_eq_ok.mp hrun
  unfold riakMapreduceAssembleIf at hassemble
  rw [if_pos hwanted] at hassemble
  obtain ⟨rfl, hsound⟩ := riakMapreduceAssemble_sound hraw hne harray hgranted hassemble
  simp only [if_true, C.pure_apply, Except.ok.injEq, Prod.mk.injEq] at hrun₁
  obtain ⟨rfl, _⟩ := hrun₁
  exact ⟨response', seen, rfl, hsound⟩

/-- **A call that is allowed** leaves a sound map/reduce response. -/
theorem riakMapreduceResponseDecode_sound {unpack : Bytes → Option RpbMapRedResp}
    {rop : RiakOperation ρ} {resp : Option RiakMapreduceResponse} {call : DecodeCall}
    {decoded : Decoded RiakMapreduceResponse} (hsound : resp = none ∨ SoundMapreduce resp)
    (hallowed : MapreduceAllowed unpack rop resp call)
    (hrun : riakMapreduceResponseDecode unpack rop call.pbresp resp call.done call.heap =
      .ok (decoded, final)) :
    SoundMapreduce decoded.resp := by
  obtain ⟨bytes, heap₁, hpayload, hrun₁⟩ := C.bind_eq_ok.mp hrun
  obtain ⟨rfl, rfl⟩ := payload_eq_ok hpayload
  rcases hsound with rfl | ⟨response, seen, rfl, hold⟩
  · obtain ⟨m, hm, hwanted, hgranted⟩ := hallowed
    have hunpack : unpack ((call.pbresp.data.take call.pbresp.len.toNat).drop 1) = some m := hm
    simp only [hunpack] at hrun₁
    have hnew : existingOr (none : Option RiakMapreduceResponse) {} call.heap =
        .ok (some {}, call.heap.after 1) := by
      show C.new _ _ = _
      rw [C.new_eq, hgranted 0 (by decide)]
      rfl
    rw [C.bind_of_ok hnew] at hrun₁
    obtain ⟨⟨added, raw⟩, heap₂, hadd, hrun₂⟩ := C.bind_eq_ok.mp hrun₁
    obtain ⟨rfl, hadded, _, hraw⟩ := RawMessages.holds_nil.add_eq_ok hadd
    rw [Heap.answer_after, hgranted 1 (by decide)] at hadded
    subst hadded
    refine riakMapreduce_finish (hraw rfl) (List.cons_ne_nil m []) hwanted ?_ ?_ hrun₂
    · rw [Heap.after_after, Heap.answer_after]
      exact hgranted 2 (by decide)
    · intro k hk
      rw [List.length_singleton, Nat.lt_one_iff] at hk
      rw [hk, Heap.after_after, Heap.answer_after]
      exact hgranted 3 (by decide)
  · cases hm : unpack ((call.pbresp.data.take call.pbresp.len.toNat).drop 1) with
    | none =>
      simp only [hm, C.pure_apply, Except.ok.injEq, Prod.mk.injEq] at hrun₁
      obtain ⟨rfl, _⟩ := hrun₁
      exact ⟨response, seen, rfl, hold⟩
    | some m =>
      simp only [hm, existingOr, pure_bind] at hrun₁
      obtain ⟨⟨added, raw⟩, heap₂, hadd, hrun₂⟩ := C.bind_eq_ok.mp hrun₁
      obtain ⟨rfl, hadded, hkept, hnew⟩ := hold.raw.holds.add_eq_ok hadd
      cases added with
      | false =>
        obtain ⟨rfl, _⟩ := C.pure_eq_ok.mp hrun₂
        exact ⟨_, seen, rfl, hold.msg, hkept rfl, hold.raw.some, hold.raw.few⟩
      | true =>
        rcases hallowed m hm with hrefused | ⟨hwanted, harray, hgranted⟩
        · rw [← hadded] at hrefused
          cases hrefused
        · rw [hold.raw.holds.count] at hgranted
          refine riakMapreduce_finish (hnew rfl)
            (List.append_ne_nil_of_right_ne_nil _ (List.cons_ne_nil _ _)) hwanted ?_ ?_ hrun₂
          · rw [Heap.answer_after]
            exact harray
          · intro k hk
            rw [List.length_append, List.length_singleton] at hk
            rw [Heap.answer_after, ← Nat.add_assoc]
            exact hgranted k (by omega)

/-! ### Whole streams

One induction over the calls for each decoder, with the step of its own module. -/

/-- Every response that a stream of calls leaves is safe to hold, whatever is
    refused on the way. -/
def AlwaysHeldSafely (decode : RiakPbMessage → Option ρ → RiakBoolean → C (Decoded ρ))
    (Readable : ρ → Prop) (free : Option ρ → C (Option ρ)) : Prop :=
  ∀ calls resp, Run (StreamStep decode fun _ _ => True) none calls resp →
    HeldSafely Readable free resp

theorem listResponses_sound {message : ListMessage μ} {unpack : Bytes → Option μ}
    {calls : List DecodeCall} {resp : Option (RiakListResponse μ)}
    (h : Run (StreamStep (listResponseDecode message unpack) (ListAllowed message unpack)) none
      calls resp) : SoundOrNull RiakListResponse.Sound resp := by
  apply h.invariant (fun _ resp => SoundOrNull RiakListResponse.Sound resp) soundOrNull_none
  rintro _ before call _ hbefore ⟨hallowed, decoded, final, hrun, rfl⟩
  exact listResponseDecode_sound hbefore hallowed hrun

theorem riak2iResponses_sound {unpack : Bytes → Option RpbIndexResp} {rop : RiakOperation ρ}
    {calls : List DecodeCall} {resp : Option Riak2iResponse}
    (h : Run (StreamStep (riak2iResponseDecode unpack rop) (IndexAllowed unpack rop)) none
      calls resp) : SoundOrNull Riak2iResponse.Sound resp := by
  apply h.invariant (fun _ resp => SoundOrNull Riak2iResponse.Sound resp) soundOrNull_none
  rintro _ before call _ hbefore ⟨hallowed, decoded, final, hrun, rfl⟩
  exact riak2iResponseDecode_sound hbefore hallowed hrun

theorem riakMapreduceResponses_sound {unpack : Bytes → Option RpbMapRedResp}
    {rop : RiakOperation ρ} {calls : List DecodeCall} {resp : Option RiakMapreduceResponse}
    (h : Run (StreamStep (riakMapreduceResponseDecode unpack rop) (MapreduceAllowed unpack rop))
      none calls resp) : calls = [] ∧ resp = none ∨ SoundMapreduce resp := by
  apply h.invariant (fun calls resp => calls = [] ∧ resp = none ∨ SoundMapreduce resp)
    (Or.inl ⟨rfl, rfl⟩)
  rintro _ before call _ hbefore ⟨hallowed, decoded, final, hrun, rfl⟩
  refine Or.inr (riakMapreduceResponseDecode_sound ?_ hallowed hrun)
  rcases hbefore with ⟨_, hnull⟩ | hsound
  · exact Or.inl hnull
  · exact Or.inr hsound

/-- **Streamed responses.** As long as every call is allowed, the response is safe
    to read and to free after each of them; map/reduce needs a first call. -/
theorem riak_streamed_responses_held_safely :
    (∀ (unpack : Bytes → Option RpbListKeysResp) (calls : List DecodeCall)
      (resp : Option RiakListkeysResponse),
      Run (StreamStep (riakListkeysResponseDecode unpack) (ListAllowed listkeysMessage unpack))
        none calls resp →
      HeldSafely RiakListResponse.Readable riakListkeysResponseFree resp) ∧
    (∀ (unpack : Bytes → Option RpbListBucketsResp) (calls : List DecodeCall)
      (resp : Option RiakListbucketsResponse),
      Run (StreamStep (riakListbucketsResponseDecode unpack)
        (ListAllowed listbucketsMessage unpack)) none calls resp →
      HeldSafely RiakListResponse.Readable riakListbucketsResponseFree resp) ∧
    (∀ (unpack : Bytes → Option RpbIndexResp) (rop : RiakOperation ρ)
      (calls : List DecodeCall) (resp : Option Riak2iResponse),
      Run (StreamStep (riak2iResponseDecode unpack rop) (IndexAllowed unpack rop)) none calls
        resp →
      HeldSafely Riak2iResponse.Readable riak2iResponseFree resp) ∧
    (∀ (unpack : Bytes → Option RpbMapRedResp) (rop : RiakOperation ρ)
      (calls : List DecodeCall) (resp : Option RiakMapreduceResponse),
      Run (StreamStep (riakMapreduceResponseDecode unpack rop) (MapreduceAllowed unpack rop))
        none calls resp → calls ≠ [] →
      HeldSafely RiakMapreduceResponse.Readable riakMapreduceResponseFree resp) := by
  refine ⟨?listkeys, ?listbuckets, ?index, ?mapreduce⟩
  case listkeys =>
    intro unpack calls resp h
    exact listResponse_heldSafely (listResponses_sound h)
  case listbuckets =>
    intro unpack calls resp h
    exact listResponse_heldSafely (listResponses_sound h)
  case index =>
    intro unpack rop calls resp h
    exact riak2i_heldSafely (riak2iResponses_sound h)
  case mapreduce =>
    intro unpack rop calls resp h hcalls
    rcases riakMapreduceResponses_sound h with ⟨hnone, _⟩ | ⟨response, seen, rfl, hsound⟩
    · exact absurd hnone hcalls
    · exact riakMapreduce_heldSafely hsound

/-- What protobuf-c makes of the payload of a message with the bucket `b`. -/
def sampleBucketsUnpack : Bytes → Option RpbListBucketsResp
  | [0x0a, 1, 0x62] => some { buckets := [[0x62]] }
  | _ => none

/-- What protobuf-c makes of the payload of a message of phase 0 with the response
    `[1]`, and of the last message. -/
def sampleMapRedUnpack : Bytes → Option RpbMapRedResp
  | [0x08, 0, 0x12, 3, 0x5b, 0x31, 0x5d] =>
      some { hasPhase := true, hasResponse := true, response := [0x5b, 0x31, 0x5d] }
  | [0x18, 1] => some { hasDone := true, done := 1 }
  | _ => none

/-- A call that is handed the frame of a payload. -/
def callWith (msgid : UInt8) (payload : Bytes) (outcomes : List Bool) : DecodeCall :=
  ⟨⟨msgid, UInt32.ofNat (payload.length + 1), msgid :: payload⟩, 0, ⟨outcomes, fun _ => 0⟩⟩

/-- A key and a call that is refused its array; a bucket; a streamed message with a
    key; and a streamed map/reduce query of two messages whose second copy is refused. -/
theorem riak_streamed_responses_held_safely_sample :
    HeldSafely RiakListResponse.Readable riakListkeysResponseFree
        (some ⟨1, .obj [.obj ⟨[0x61], true⟩], 0, ⟨1, .obj [.obj { keys := [[0x61]] }]⟩⟩) ∧
      HeldSafely RiakListResponse.Readable riakListbucketsResponseFree
        (some ⟨1, .obj [.obj ⟨[0x62], true⟩], 0, ⟨1, .obj [.obj { buckets := [[0x62]] }]⟩⟩) ∧
      HeldSafely Riak2iResponse.Readable riak2iResponseFree
        (some { nKeys := 1, keys := .obj [.obj ⟨[0x61], false⟩], results := .obj []
                continuation := some ⟨[], false⟩
                raw := ⟨1, .obj [.obj { keys := [[0x61]] }]⟩ }) ∧
      HeldSafely RiakMapreduceResponse.Readable riakMapreduceResponseFree
        (some ⟨.obj [.obj { hasPhase := true, hasResponse := true
                            response := some ⟨[0x5b, 0x31, 0x5d], false⟩ },
            .obj { hasDone := true, done := 1 }],
          ⟨2, .obj [.obj { hasPhase := true, hasResponse := true, response := [0x5b, 0x31, 0x5d] },
            .obj { hasDone := true, done := 1 }]⟩⟩) := by
  refine ⟨?listkeys, ?listbuckets, ?index, ?mapreduce⟩
  case listkeys =>
    apply (riak_streamed_responses_held_safely (ρ := Unit)).1 sampleKeysUnpack
      [callWith 18 [0x0a, 1, 0x61] [], callWith 18 [0x0a, 1, 0x61] [false]]
    refine (Run.single ⟨?first, _, _, rfl, rfl⟩).append (Run.single ⟨?second, _, _, rfl, rfl⟩)
    case first => rintro response m ⟨⟩
    case second =>
      rintro response m ⟨⟩ _
      exact Or.inl rfl
  case listbuckets =>
    apply (riak_streamed_responses_held_safely (ρ := Unit)).2.1 sampleBucketsUnpack
      [callWith 16 [0x0a, 1, 0x62] []]
    refine Run.single ⟨?_, _, _, rfl, rfl⟩
    rintro response m ⟨⟩
  case index =>
    apply (riak_streamed_responses_held_safely (ρ := Unit)).2.2.1 sampleIndexUnpack
      { streaming := true } [callWith 26 [0x0a, 1, 0x61] []]
    refine Run.single ⟨?_, _, _, rfl, rfl⟩
    intro m hm
    obtain rfl : ({ keys := [[0x61]] } : RpbIndexResp) = m := Option.some.inj hm
    exact ⟨fun _ _ => Or.inr (Or.inl rfl), by rintro response ⟨⟩⟩
  case mapreduce =>
    apply (riak_streamed_responses_held_safely (ρ := Unit)).2.2.2 sampleMapRedUnpack
      { streaming := true } [callWith 24 [0x08, 0, 0x12, 3, 0x5b, 0x31, 0x5d] [],
        callWith 24 [0x18, 1] [true, true, true, true, true, false]]
    · refine (Run.single ⟨?first, _, _, rfl, rfl⟩).append (Run.single ⟨?second, _, _, rfl, rfl⟩)
      case first => exact ⟨_, rfl, Or.inl rfl, by decide⟩
      case second =>
        intro m hm
        exact Or.inr ⟨Or.inl rfl, rfl, by decide⟩
    · exact List.cons_ne_nil _ _

/-- What protobuf-c makes of the payload of a message with the result `a`, and of
    the last message. -/
def sampleResultsUnpack : Bytes → Option RpbIndexResp
  | [0x12, 3, 0x0a, 1, 0x61] => some { results := [{ key := [0x61] }] }
  | [0x20, 1] => some { hasDone := true, done := 1 }
  | _ => none

/-- A 2i query that does not stream: with the last message its result is copied,
    which is taken for an error and leaves the count without its array. There is no freeing a
    map/reduce response before the first message, and after a message that is not
    the last one the count of messages has no array, either. -/
theorem riak_streamed_responses_left_unsafe :
    ¬ AlwaysHeldSafely (riak2iResponseDecode sampleResultsUnpack ({} : RiakOperation Unit))
        Riak2iResponse.Readable riak2iResponseFree ∧
      ¬ (∀ resp, Run (StreamStep (riakMapreduceResponseDecode sampleMapRedUnpack
            ({} : RiakOperation Unit)) fun _ _ => True) none [] resp →
          HeldSafely RiakMapreduceResponse.Readable riakMapreduceResponseFree resp) ∧
      ¬ (∀ resp, Run (StreamStep (riakMapreduceResponseDecode sampleMapRedUnpack
            ({} : RiakOperation Unit)) fun _ _ => True) none
            [callWith 24 [0x08, 0, 0x12, 3, 0x5b, 0x31, 0x5d] []] resp →
          HeldSafely RiakMapreduceResponse.Readable riakMapreduceResponseFree resp) := by
  refine ⟨?index, ?null, ?counted⟩
  case index =>
    intro h
    have hfirst : StreamStep (riak2iResponseDecode sampleResultsUnpack ({} : RiakOperation Unit))
        (fun _ _ => True) none (callWith 26 [0x12, 3, 0x0a, 1, 0x61] [])
        (some { continuation := some ⟨[], false⟩
                raw := ⟨1, .obj [.obj { results := [{ key := [0x61] }] }]⟩ }) :=
      ⟨trivial, ⟨.ok, _, 0⟩, Heap.fresh, rfl, rfl⟩
    have hsecond : StreamStep (riak2iResponseDecode sampleResultsUnpack ({} : RiakOperation Unit))
        (fun _ _ => True) (some { continuation := some ⟨[], false⟩
                                  raw := ⟨1, .obj [.obj { results := [{ key := [0x61] }] }]⟩ })
        (callWith 26 [0x20, 1] [])
        (some { keys := .obj [], nResults := 1, continuation := some ⟨[], false⟩
                raw := ⟨2, .obj [.obj { results := [{ key := [0x61] }] },
                  .obj { hasDone := true, done := 1 }]⟩ }) :=
      ⟨trivial, ⟨.outOfMemory, _, 1⟩, Heap.fresh, rfl, rfl⟩
    have hheld := h _ _ ((Run.single hfirst).append (Run.single hsecond))
    obtain ⟨slots, entry, hslots, _⟩ := (hheld.readable _ rfl).2 0 (by decide)
    cases hslots
  case null =>
    intro h
    have hfreed := (h none Run.refl).freed Heap.fresh
    cases hfreed
  case counted =>
    intro h
    have hheld := h _ (Run.single ⟨trivial, _, _, rfl, rfl⟩)
    obtain ⟨slots, entry, hslots, _⟩ := hheld.readable _ rfl 0 (by decide)
    cases hslots

end RiakClient
