import RiakClient.Ping
import RiakClient.ReadTurns

/-!
# Synchronous requests

`riak_sync_request` and `riak_ping`. A synchronous request calls `riak_read` once
and takes whatever it returns for the answer. But `riak_read` returns `ERIAK_OK`
as well when the socket had less to give than it asked for, so that the caller
gets success without a response.

A call of `riak_read` is taken apart into turns, and each turn is short, fails,
answers a message or goes on. A turn that goes on contributes no answer, and one that
ends the response leaves it complete unless the decoder left none; so a call that
returns success has a complete response exactly if none of its turns was short.
-/

namespace RiakClient

open CSem Framing

variable {ρ σ : Type} {heap final : Heap}

/-- The end of a synchronous call on a socket whose reads return given results:
    what it returned, if it has, and `*response`. -/
structure SyncOutcome (ρ : Type) where
  returned : Option RiakError
  response : Option ρ
  events : List (ReadEvent ρ)

def riakSyncRequest (env : ReadEnv ρ) (rop : RiakOperation ρ) (writeCb : σ → Bytes → Int × σ)
    (s : σ) (results : List ReadResult) (response : Option ρ) : C (SyncOutcome ρ) := do
  let wrote ← riakWrite rop writeCb s
  if wrote.1 ≠ .ok then pure ⟨some wrote.1, response, []⟩
  else
    let outcome ← riakRead env rop results
    match outcome.returned with
    | none => pure ⟨none, response, outcome.events⟩
    | some err => pure ⟨some err, outcome.rop.response, outcome.events⟩

/-- The end of `riak_ping`, which follows its response without a check. -/
def riakPingReturn (outcome : SyncOutcome RiakPingResponse) : C (Option RiakError) :=
  match outcome.returned with
  | none => pure none
  | some err =>
      if err ≠ .ok then pure (some err)
      else do
        let response ← C.deref outcome.response
        pure (some (if response.success ≠ 0 then .ok else .noPing))

def riakPing (env : ReadEnv RiakPingResponse) (writeCb : σ → Bytes → Int × σ) (s : σ)
    (results : List ReadResult) : C (Option RiakError) := do
  let built ← riakBuildRequest riakPingRequestEncode
  if built.1 ≠ .ok then pure (some built.1)
  else riakSyncRequest env built.2 writeCb s results none >>= riakPingReturn

/-! ### What can go wrong -/

/-- `riak_write` sends the request. -/
def Sent (rop : RiakOperation ρ) (writeCb : σ → Bytes → Int × σ) (s : σ) (heap : Heap) : Prop :=
  ∃ s', riakWrite rop writeCb s heap = .ok ((.ok, s'), heap)

/-- A read that gets fewer bytes than it asked for: of a length less than four,
    of a body less than it misses. -/
def Short (rop : RiakOperation ρ) (r : ReadResult) : Prop :=
  if rop.msglenComplete then rop.position + UInt32.ofNat r.buflen < rop.msglen
  else r.buflen ≠ rop.readRequest.count ∧ r.buflen < 4

instance (rop : RiakOperation ρ) (r : ReadResult) : Decidable (Short rop r) :=
  inferInstanceAs (Decidable (if rop.msglenComplete then
    rop.position + UInt32.ofNat r.buflen < rop.msglen
    else r.buflen ≠ rop.readRequest.count ∧ r.buflen < 4))

/-- A turn in which a decoder reported success and the end of the response, and
    left no response. -/
def Turn.Empty (turn : Turn ρ) : Prop :=
  ∃ pbresp result, .decoded pbresp result ∈ turn.events ∧ result.err = .ok ∧
    result.done ≠ 0 ∧ result.resp = none

/-- The socket, or a decoder, stops before there is a whole response: one of the
    reads is short, and all turns before it go on. -/
inductive CutShort (env : ReadEnv ρ) :
    RiakOperation ρ → RiakBoolean → Heap → List ReadResult → Prop
  | short {rop : RiakOperation ρ} {done : RiakBoolean} {heap : Heap} {r : ReadResult}
      {results : List ReadResult} (hshort : Short rop r) :
      CutShort env rop done heap (r :: results)
  | empty {rop : RiakOperation ρ} {done : RiakBoolean} {heap heap' : Heap} {r : ReadResult}
      {results : List ReadResult} {turn : Turn ρ}
      (hturn : riakReadTurn env rop done r heap = .ok (turn, heap')) (hempty : turn.Empty) :
      CutShort env rop done heap (r :: results)
  | later {rop : RiakOperation ρ} {done : RiakBoolean} {heap heap' : Heap} {r : ReadResult}
      {results : List ReadResult} {turn : Turn ρ}
      (hturn : riakReadTurn env rop done r heap = .ok (turn, heap')) (hexit : turn.exit = none)
      (hlater : CutShort env turn.rop turn.done heap' results) :
      CutShort env rop done heap (r :: results)

/-- A call that reports success has a complete response: the decoder ran on a
    message that was the last one, and `*response` is what it produced. -/
def CompleteResponse (returned : Option RiakError) (events : List (ReadEvent ρ))
    (response : Option ρ) : Prop :=
  returned = some .ok → ∃ pbresp result answer, .decoded pbresp result ∈ events ∧
    result.err = .ok ∧ result.done ≠ 0 ∧ result.resp = some answer ∧ response = some answer

/-! ### One turn -/

/-- What a turn can do: it is short and the call returns `ERIAK_OK` with nothing,
    it fails, or it answers a message or reads a length. -/
theorem riakReadTurn_cases {env : ReadEnv ρ} {rop : RiakOperation ρ} {done : RiakBoolean}
    {r : ReadResult} {turn : Turn ρ} (h : riakReadTurn env rop done r heap = .ok (turn, final)) :
    (Short rop r ∧ turn.exit = some .ok ∧ turn.events = [] ∧ turn.rop.response = rop.response) ∨
    ¬ Short rop r ∧ (turn.Fails ∨
      (turn.exit = none ∧ turn.events = [] ∧ turn.rop.response = rop.response) ∨
      ∃ rop' pbresp result, turn.Answers rop' pbresp result ∧ env.Yields result) := by
  unfold riakReadTurn at h
  unfold Short
  cases hphase : rop.msglenComplete with
  | false =>
    rw [hphase, if_neg (by decide)] at h
    rw [if_neg (by decide)]
    unfold riakReadPrefix at h
    obtain ⟨inmsglen, heap₁, _, h⟩ := C.bind_eq_ok.mp h
    by_cases hcount : r.buflen = rop.readRequest.count
    · refine Or.inr ⟨fun hshort => hshort.1 hcount, ?_⟩
      rw [if_neg (fun hne => hne hcount)] at h
      obtain ⟨msgbuf, heap₂, _, h⟩ := C.bind_eq_ok.mp h
      cases msgbuf with
      | none =>
        cases h
        exact Or.inl ⟨⟨.read, rfl, nofun⟩, nofun⟩
      | some msgbuf =>
        cases h
        exact Or.inr (Or.inl ⟨rfl, rfl, rfl⟩)
    · rw [if_pos hcount] at h
      by_cases hzero : r.buflen = 0
      · rw [if_pos hzero] at h
        cases h
        exact Or.inl ⟨⟨hcount, by omega⟩, rfl, rfl, rfl⟩
      · rw [if_neg hzero] at h
        by_cases hfew : r.buflen < 4
        · rw [if_pos hfew] at h
          cases h
          exact Or.inl ⟨⟨hcount, hfew⟩, rfl, rfl, rfl⟩
        · rw [if_neg hfew] at h
          cases h
          exact Or.inr ⟨fun hshort => hfew hshort.2, Or.inl ⟨⟨.read, rfl, nofun⟩, nofun⟩⟩
  | true =>
    rw [hphase, if_pos rfl] at h
    rw [if_pos rfl]
    unfold riakReadBody riakReadReceive at h
    rw [bind_assoc] at h
    obtain ⟨stored, heap₁, hstore, h⟩ := C.bind_eq_ok.mp h
    unfold riakReadStore at hstore
    obtain ⟨msgbuf, heap₂, _, hstored⟩ := C.bind_eq_ok.mp hstore
    cases hstored
    by_cases hmissing : rop.position + UInt32.ofNat r.buflen < rop.msglen
    · simp only [if_pos hmissing, pure_bind] at h
      cases h
      exact Or.inl ⟨hmissing, rfl, rfl, rfl⟩
    · refine Or.inr ⟨hmissing, ?_⟩
      simp only [if_neg hmissing] at h
      by_cases hassert : rop.position + UInt32.ofNat r.buflen ≠ rop.msglen
      · simp only [if_pos hassert] at h
        cases h
      · simp only [if_neg hassert, bind_assoc, pure_bind] at h
        obtain ⟨whole, heap₃, _, h⟩ := C.bind_eq_ok.mp h
        obtain ⟨msgid, heap₄, _, h⟩ := C.bind_eq_ok.mp h
        obtain ⟨pbresp, heap₅, _, h⟩ := C.bind_eq_ok.mp h
        rcases (riakReadDispatch_cases h).2 with hfails | hanswers
        · exact Or.inl hfails
        · exact Or.inr (Or.inr ⟨_, _, hanswers⟩)

/-! ### One call of `riak_read` -/

theorem cutShort_cons_iff {env : ReadEnv ρ} {rop : RiakOperation ρ} {done : RiakBoolean}
    {r : ReadResult} {results : List ReadResult} {turn : Turn ρ}
    (hturn : riakReadTurn env rop done r heap = .ok (turn, final)) :
    CutShort env rop done heap (r :: results) ↔ Short rop r ∨ turn.Empty ∨
      (turn.exit = none ∧ CutShort env turn.rop turn.done final results) := by
  constructor
  · intro h
    cases h with
    | short hshort => exact Or.inl hshort
    | empty hturn' hempty =>
      rw [hturn] at hturn'
      cases hturn'
      exact Or.inr (Or.inl hempty)
    | later hturn' hexit hlater =>
      rw [hturn] at hturn'
      cases hturn'
      exact Or.inr (Or.inr ⟨hexit, hlater⟩)
  · rintro (hshort | hempty | ⟨hexit, hlater⟩)
    · exact .short hshort
    · exact .empty hturn hempty
    · exact .later hturn hexit hlater

theorem completeResponse_of_append {returned : Option RiakError}
    {events later : List (ReadEvent ρ)} {response : Option ρ}
    (hevents : ∀ pbresp result, .decoded pbresp result ∈ events → result.done = 0) :
    CompleteResponse returned (events ++ later) response ↔
      CompleteResponse returned later response := by
  constructor
  · intro h hreturned
    obtain ⟨pbresp, result, answer, hmem, hok, hdone, hanswer⟩ := h hreturned
    rcases List.mem_append.mp hmem with hearlier | hlater
    · exact absurd (hevents pbresp result hearlier) hdone
    · exact ⟨pbresp, result, answer, hlater, hok, hdone, hanswer⟩
  · intro h hreturned
    obtain ⟨pbresp, result, answer, hmem, hanswer⟩ := h hreturned
    exact ⟨pbresp, result, answer, List.mem_append_right events hmem, hanswer⟩

theorem Turn.Answers.completeResponse_iff {turn : Turn ρ} {rop : RiakOperation ρ}
    {pbresp : Option RiakPbMessage} {result : Decoded ρ} (h : turn.Answers rop pbresp result)
    (hdone : result.done ≠ 0) :
    CompleteResponse (some .ok) turn.events turn.rop.response ↔ ¬ turn.Empty := by
  obtain ⟨events, hevents, _⟩ := h.events
  have hmem : .decoded pbresp result ∈ turn.events := by
    rw [hevents]
    exact List.mem_cons_self
  have hresponse : turn.rop.response = result.resp := by
    rw [h.rop]
    rfl
  constructor
  · rintro hcomplete ⟨pbresp', result', hmem', _, _, hnull⟩
    obtain ⟨_, result'', answer, hmem'', _, _, hanswer, _⟩ := hcomplete rfl
    rw [h.eq_of_mem hmem'] at hnull
    rw [h.eq_of_mem hmem'', hnull] at hanswer
    cases hanswer
  · intro hnot _
    cases hresp : result.resp with
    | none => exact absurd ⟨pbresp, result, hmem, h.ok, hdone, hresp⟩ hnot
    | some answer =>
      rw [hresp] at hresponse
      exact ⟨pbresp, result, answer, hmem, h.ok, hdone, hresp, hresponse⟩

/-- **A call of `riak_read` that returns `ERIAK_OK` has the whole response unless
    it was cut short.** -/
theorem riakReadLoop_complete_iff {env : ReadEnv ρ} :
    ∀ (results : List ReadResult) (rop : RiakOperation ρ) (done : RiakBoolean) (heap : Heap)
      (outcome : ReadOutcome ρ),
      riakReadLoop env rop done results heap = .ok (outcome, final) →
      (CompleteResponse outcome.returned outcome.events outcome.rop.response ↔
        ¬ CutShort env rop done heap results) := by
  intro results
  induction results with
  | nil =>
    intro rop done heap outcome h
    cases h
    constructor
    · intro _ hcut
      cases hcut
    · intro _ hreturned
      cases hreturned
  | cons r results ih =>
    intro rop done heap outcome h
    rw [riakReadLoop] at h
    obtain ⟨turn, heap₁, hturn, h⟩ := C.bind_eq_ok.mp h
    rw [cutShort_cons_iff hturn]
    -- a turn that goes on and has not answered: the rest of the call decides
    have hgoes : turn.exit = none → ¬ Short rop r →
        (∀ pbresp result, .decoded pbresp result ∈ turn.events → result.done = 0) →
        (CompleteResponse outcome.returned outcome.events outcome.rop.response ↔
          ¬ (Short rop r ∨ turn.Empty ∨
            (turn.exit = none ∧ CutShort env turn.rop turn.done heap₁ results))) := by
      intro hexit hlong hevents
      rw [hexit] at h
      obtain ⟨outcome', heap₂, hloop, hpure⟩ := C.bind_eq_ok.mp h
      cases hpure
      have hnonempty : ¬ turn.Empty := by
        rintro ⟨pbresp, result, hmem, _, hdone, _⟩
        exact hdone (hevents pbresp result hmem)
      rw [completeResponse_of_append hevents, ih _ _ _ _ hloop]
      simp only [hlong, hnonempty, hexit, false_or, true_and]
    rcases riakReadTurn_cases hturn with
      ⟨hshort, hexit, hevents, _⟩ | ⟨hlong, hfails | hlength | ⟨rop', pbresp, result, hanswers, _⟩⟩
    · rw [hexit] at h
      cases h
      rw [hevents]
      constructor
      · intro hcomplete
        obtain ⟨_, _, _, hmem, _⟩ := hcomplete rfl
        exact absurd hmem List.not_mem_nil
      · intro hnot
        exact absurd (Or.inl hshort) hnot
    · obtain ⟨⟨err, hexit, herr⟩, hevents⟩ := hfails
      rw [hexit] at h
      cases h
      constructor
      · rintro _ (hshort | ⟨pbresp, result, hmem, hok, _⟩ | ⟨hnone, _⟩)
        · exact hlong hshort
        · exact hevents pbresp result hmem hok
        · rw [hexit] at hnone
          cases hnone
      · intro _ hreturned
        cases hreturned
        exact absurd rfl herr
    · obtain ⟨hexit, hevents, _⟩ := hlength
      apply hgoes hexit hlong
      rw [hevents]
      intro pbresp result hmem
      exact absurd hmem List.not_mem_nil
    · have hexit := hanswers.exit
      by_cases hdone : result.done = 0
      · rw [if_neg (fun hne => hne hdone)] at hexit
        apply hgoes hexit hlong
        intro pbresp' result' hmem
        rw [hanswers.eq_of_mem hmem]
        exact hdone
      · rw [if_pos hdone] at hexit
        rw [hexit] at h
        cases h
        rw [hanswers.completeResponse_iff hdone]
        simp only [hlong, hexit, false_or, reduceCtorEq, false_and, or_false]

/-! ### The request -/

theorem riakWrite_heap {rop : RiakOperation ρ} {writeCb : σ → Bytes → Int × σ} {s s' : σ}
    {err : RiakError} (h : riakWrite rop writeCb s heap = .ok ((err, s'), final)) :
    final = heap := by
  unfold riakWrite at h
  obtain ⟨msg, heap₁, hmsg, hrest⟩ := C.bind_eq_ok.mp h
  obtain ⟨_, rfl⟩ := C.deref_eq_ok.mp hmsg
  split at hrest
  · cases hrest
  · simp only at hrest
    split at hrest
    · cases hrest
      rfl
    · split at hrest
      · cases hrest
        rfl
      · split at hrest
        · split at hrest
          · cases hrest
            rfl
          · cases hrest
            rfl
        · cases hrest
          rfl

/-- A synchronous call that returns, or waits, has a complete response exactly if
    its request could not be sent or its response was not cut short. -/
theorem riakSyncRequest_complete_iff {env : ReadEnv ρ} {rop : RiakOperation ρ}
    {writeCb : σ → Bytes → Int × σ} {s : σ} {results : List ReadResult} {response : Option ρ}
    {outcome : SyncOutcome ρ}
    (h : riakSyncRequest env rop writeCb s results response heap = .ok (outcome, final)) :
    CompleteResponse outcome.returned outcome.events outcome.response ↔
      ¬ (Sent rop writeCb s heap ∧ CutShort env rop 0 heap results) := by
  unfold riakSyncRequest at h
  obtain ⟨⟨err, s'⟩, heap₁, hwrite, hrest⟩ := C.bind_eq_ok.mp h
  obtain rfl := riakWrite_heap hwrite
  by_cases herr : err = .ok
  · subst herr
    rw [if_neg (fun hne => hne rfl)] at hrest
    obtain ⟨read, heap₂, hread, hreturn⟩ := C.bind_eq_ok.mp hrest
    have hiff := riakReadLoop_complete_iff results rop 0 heap₁ read hread
    have hsent : Sent rop writeCb s heap₁ := ⟨s', hwrite⟩
    simp only [hsent, true_and]
    rw [← hiff]
    cases hreturned : read.returned with
    | none =>
      rw [hreturned] at hreturn
      cases hreturn
      exact ⟨fun _ => nofun, fun _ => nofun⟩
    | some err =>
      rw [hreturned] at hreturn
      cases hreturn
      rfl
  · rw [if_pos herr] at hrest
    cases hrest
    constructor
    · rintro _ ⟨⟨_, hsent⟩, _⟩
      rw [hwrite] at hsent
      cases hsent
      exact herr rfl
    · intro _ hreturned
      cases hreturned
      exact absurd rfl herr

/-! ### Ping

A read of the response to a ping either has it or has nothing: the decoder of a ping
reports done whenever it succeeds. -/

/-- The operation that `riak_ping` sends. -/
def pingRequested : RiakOperation RiakPingResponse :=
  { pbRequest := some ⟨MSG_RPBPINGREQ, 0, []⟩, decoder := some .ping }

theorem riakPing_of_ample (h : heap.Ample) (env : ReadEnv RiakPingResponse)
    (writeCb : σ → Bytes → Int × σ) (s : σ) (results : List ReadResult) :
    riakPing env writeCb s results heap =
      (riakSyncRequest env pingRequested writeCb s results none >>= riakPingReturn) heap := by
  have hnew : riakOperationNew none none heap =
      .ok ((.ok, ({} : RiakOperation RiakPingResponse)), heap) := by
    unfold riakOperationNew
    rw [C.bind_of_ok (C.new_of_ample h _)]
    rfl
  have hbuild : riakBuildRequest riakPingRequestEncode heap = .ok ((.ok, pingRequested), heap) := by
    unfold riakBuildRequest riakPingRequestEncode riakEmptyRequest riakPbMessageNew
    rw [C.bind_of_ok hnew, if_neg (fun hne => hne rfl), C.bind_of_ok (C.new_of_ample h _)]
    rfl
  unfold riakPing
  rw [C.bind_of_ok hbuild, if_neg (fun hne => hne rfl)]

theorem pingReadEnv_yields {unpack : Bytes → Option RpbErrorResp}
    {result : Decoded RiakPingResponse} (h : (pingReadEnv unpack).Yields result) :
    result.done ≠ 0 := by
  obtain ⟨_, _, _, resp, heap, final, hdecode⟩ := h
  have hrun : riakPingResponseDecode resp heap = .ok (result, final) := hdecode
  unfold riakPingResponseDecode at hrun
  obtain ⟨slot, heap₁, _, hpure⟩ := C.bind_eq_ok.mp hrun
  cases slot with
  | none =>
    cases hpure
    exact (by decide : (1 : RiakBoolean) ≠ 0)
  | some response =>
    cases hpure
    exact (by decide : (1 : RiakBoolean) ≠ 0)

theorem riakReadLoop_ping {unpack : Bytes → Option RpbErrorResp} :
    ∀ (results : List ReadResult) (rop : RiakOperation RiakPingResponse) (done : RiakBoolean)
      (heap : Heap) (outcome : ReadOutcome RiakPingResponse), rop.response = none →
      riakReadLoop (pingReadEnv unpack) rop done results heap = .ok (outcome, final) →
      ¬ CompleteResponse outcome.returned outcome.events outcome.rop.response →
      outcome.rop.response = none := by
  intro results
  induction results with
  | nil =>
    intro rop done heap outcome hnull h _
    cases h
    exact hnull
  | cons r results ih =>
    intro rop done heap outcome hnull h hincomplete
    rw [riakReadLoop] at h
    obtain ⟨turn, heap₁, hturn, hrest⟩ := C.bind_eq_ok.mp h
    rcases riakReadTurn_cases hturn with
      ⟨_, hexit, _, hresponse⟩ | ⟨_, hfails | ⟨hexit, hevents, hresponse⟩ |
        ⟨rop', pbresp, result, hanswers, hyields⟩⟩
    · rw [hexit] at hrest
      cases hrest
      exact hresponse.trans hnull
    · obtain ⟨⟨err, hexit, herr⟩, _⟩ := hfails
      rw [hexit] at hrest
      cases hrest
      refine absurd ?_ hincomplete
      intro hreturned
      cases hreturned
      exact absurd rfl herr
    · rw [hexit] at hrest
      obtain ⟨outcome', heap₂, hloop, hpure⟩ := C.bind_eq_ok.mp hrest
      cases hpure
      apply ih turn.rop turn.done heap₁ outcome' (hresponse.trans hnull) hloop
      rw [hevents] at hincomplete
      exact hincomplete
    · have hdone := pingReadEnv_yields hyields
      have hexit := hanswers.exit
      rw [if_pos hdone] at hexit
      rw [hexit] at hrest
      cases hrest
      cases hresp : result.resp with
      | none =>
        rw [hanswers.rop]
        exact hresp
      | some answer =>
        refine absurd ((hanswers.completeResponse_iff hdone).mpr ?_) hincomplete
        rintro ⟨_, result', hmem, _, _, hempty⟩
        rw [hanswers.eq_of_mem hmem, hresp] at hempty
        cases hempty

theorem riakPingReturn_null_iff {unpack : Bytes → Option RpbErrorResp}
    {writeCb : σ → Bytes → Int × σ} {s : σ} {results : List ReadResult}
    {outcome : SyncOutcome RiakPingResponse}
    (h : riakSyncRequest (pingReadEnv unpack) pingRequested writeCb s results none heap =
      .ok (outcome, final)) :
    riakPingReturn outcome final = .error .nullDereference ↔
      ¬ CompleteResponse outcome.returned outcome.events outcome.response := by
  constructor
  · intro hfault hcomplete
    unfold riakPingReturn at hfault
    cases hreturned : outcome.returned with
    | none =>
      rw [hreturned] at hfault
      cases hfault
    | some err =>
      rw [hreturned] at hfault
      by_cases herr : err = .ok
      · subst herr
        obtain ⟨_, _, answer, _, _, _, _, hresponse⟩ := hcomplete hreturned
        rw [hresponse] at hfault
        cases hfault
      · simp only [herr, ne_eq, not_false_eq_true, if_true] at hfault
        cases hfault
  · intro hincomplete
    have hreturned : outcome.returned = some .ok := by
      by_contra hnot
      exact hincomplete (fun hreturned => absurd hreturned hnot)
    have hresponse : outcome.response = none := by
      unfold riakSyncRequest at h
      obtain ⟨⟨err, s'⟩, heap₁, _, hrest⟩ := C.bind_eq_ok.mp h
      by_cases herr : err = .ok
      · rw [if_neg (fun hne => hne herr)] at hrest
        obtain ⟨read, heap₂, hread, hreturn⟩ := C.bind_eq_ok.mp hrest
        cases hread' : read.returned with
        | none =>
          rw [hread'] at hreturn
          cases hreturn
          rfl
        | some err =>
          rw [hread'] at hreturn
          cases hreturn
          rw [← hread'] at hincomplete
          exact riakReadLoop_ping results pingRequested 0 heap₁ read rfl hread hincomplete
      · rw [if_pos herr] at hrest
        cases hrest
        rfl
    unfold riakPingReturn
    rw [hreturned, hresponse]
    rfl

/-- **A successful request is complete exactly if it was not cut short**, and
    `riak_ping` follows a NULL response exactly if it was. -/
theorem riak_sync_request_complete_iff (env : ReadEnv ρ) (rop : RiakOperation ρ)
    (writeCb : σ → Bytes → Int × σ) (s : σ) (results : List ReadResult) (response : Option ρ)
    (heap : Heap) :
    (∀ outcome final, riakSyncRequest env rop writeCb s results response heap =
        .ok (outcome, final) →
      (CompleteResponse outcome.returned outcome.events outcome.response ↔
        ¬ (Sent rop writeCb s heap ∧ CutShort env rop 0 heap results))) ∧
    (∀ unpack outcome final, heap.Ample →
      riakSyncRequest (pingReadEnv unpack) pingRequested writeCb s results none heap =
        .ok (outcome, final) →
      (riakPing (pingReadEnv unpack) writeCb s results heap = .error .nullDereference ↔
        Sent pingRequested writeCb s heap ∧
          CutShort (pingReadEnv unpack) pingRequested 0 heap results)) := by
  constructor
  · intro outcome final h
    exact riakSyncRequest_complete_iff h
  · intro unpack outcome final hample h
    rw [riakPing_of_ample hample, C.bind_of_ok h, riakPingReturn_null_iff h,
      riakSyncRequest_complete_iff h, not_not]

/-- A whole ping response, and a connection that is closed instead. -/
theorem riak_sync_request_complete_pong :
    CompleteResponse (some .ok) [.decoded (some ⟨2, 1, [2]⟩) ⟨.ok, some ⟨1⟩, 1⟩]
      (some (⟨1⟩ : RiakPingResponse)) ∧
    riakPing (pingReadEnv fun _ => none) writeEverything [] [.received []] Heap.fresh =
      .error .nullDereference := by
  constructor
  · have hcall : riakSyncRequest (pingReadEnv fun _ => none) pingRequested writeEverything []
        [.received [0, 0, 0, 1], .received [2]] none Heap.fresh =
          .ok (⟨some .ok, some ⟨1⟩, [.decoded (some ⟨2, 1, [2]⟩) ⟨.ok, some ⟨1⟩, 1⟩]⟩,
            Heap.fresh) := rfl
    refine ((riak_sync_request_complete_iff (pingReadEnv fun _ => none) pingRequested
      writeEverything [] [.received [0, 0, 0, 1], .received [2]] none Heap.fresh).1 _ _
        hcall).mpr ?_
    have hlength : riakReadTurn (pingReadEnv fun _ => none) pingRequested 0
        (.received [0, 0, 0, 1]) Heap.fresh =
          .ok ({ rop := pingRequested.announced 1 (some [0]), done := 0 }, Heap.fresh) := rfl
    have hbody : riakReadTurn (pingReadEnv fun _ => none)
        (pingRequested.announced 1 (some [0])) 0 (.received [2]) Heap.fresh =
          .ok (⟨pingRequested.answered (some ⟨1⟩), 1, some .ok,
            [.decoded (some ⟨2, 1, [2]⟩) ⟨.ok, some ⟨1⟩, 1⟩]⟩, Heap.fresh) := rfl
    rintro ⟨_, hcut⟩
    rcases (cutShort_cons_iff hlength).mp hcut with hshort | ⟨_, _, hmem, _⟩ | ⟨_, hlater⟩
    · exact hshort.1 rfl
    · exact List.not_mem_nil hmem
    · rcases (cutShort_cons_iff hbody).mp hlater with hshort | ⟨_, _, hmem, _, _, hnull⟩ | ⟨hgoes, _⟩
      · exact absurd hshort (by decide)
      · cases List.mem_singleton.mp hmem
        cases hnull
      · cases hgoes
  · have hcall : riakSyncRequest (pingReadEnv fun _ => none) pingRequested writeEverything []
        [.received []] none Heap.fresh = .ok (⟨some .ok, none, []⟩, Heap.fresh) := rfl
    refine ((riak_sync_request_complete_iff (pingReadEnv fun _ => none) pingRequested
      writeEverything [] [.received []] none Heap.fresh).2 (fun _ => none) _ _ Heap.fresh_ample
        hcall).mpr ⟨⟨_, rfl⟩, .short ⟨?_, ?_⟩⟩
    · decide
    · decide

/-- The peer closes the connection before it answers: `riak_sync_request`
    returns `ERIAK_OK` with a NULL response, and `riak_ping` follows it. -/
theorem riak_ping_closed_connection :
    riakSyncRequest (pingReadEnv fun _ => none) pingRequested writeEverything []
        [.received []] none Heap.fresh = .ok (⟨some .ok, none, []⟩, Heap.fresh) ∧
      ¬ CompleteResponse (some .ok) ([] : List (ReadEvent RiakPingResponse)) none ∧
      riakPing (pingReadEnv fun _ => none) writeEverything [] [.received []] Heap.fresh =
        .error .nullDereference := by
  refine ⟨rfl, ?_, rfl⟩
  intro hcomplete
  obtain ⟨_, _, _, hmem, _⟩ := hcomplete rfl
  exact List.not_mem_nil hmem

end RiakClient
