import RiakClient.StreamSafety

/-!
# Whole map/reduce jobs

What a sequence of `RpbMapRedResp` messages leaves in the response, on a heap that
grants every request. Between calls only the raw messages count; the array for the
application is made from all of them by the call that needs it, in one loop with an
`int` for its index.
-/

namespace RiakClient

open CSem

variable {ρ : Type} {heap : Heap} {unpack : Bytes → Option RpbMapRedResp}

/-! ### What is delivered -/

/-- What the application gets for a raw message. -/
def RpbMapRedResp.delivered (m : RpbMapRedResp) : RiakMapreduceMessage where
  hasPhase := m.hasPhase
  phase := m.phase
  hasResponse := m.hasResponse
  response := some ⟨m.response, false⟩
  hasDone := m.hasDone
  done := m.done

/-- Only the last message reports done. -/
def MapreduceEnds (msgs : List RpbMapRedResp) : Prop :=
  ∃ before last, msgs = before ++ [last] ∧ doneFlag last.hasDone last.done ≠ 0 ∧
    ∀ m ∈ before, doneFlag m.hasDone m.done = 0

/-- All calls succeed, `*done` is true after the last of them and after no other, and the
    last one leaves a message for every one that was received, in order. -/
def MapreduceDelivered (unpack : Bytes → Option RpbMapRedResp) (rop : RiakOperation ρ)
    (heap : Heap) (pbresps : List RiakPbMessage) (msgs : List RpbMapRedResp)
    (done : RiakBoolean) : Prop :=
  ∃ results response,
    decodeAll (riakMapreduceResponseDecode unpack rop) pbresps none done heap =
      .ok (results, heap) ∧
    results.length = msgs.length ∧
    (∀ i decoded, results[i]? = some decoded →
      decoded.err = .ok ∧ (decoded.done ≠ 0 ↔ i + 1 = msgs.length)) ∧
    finalResponse results = some response ∧
    response.raw.nResponses.toNat = msgs.length ∧
    response.msg = .obj (msgs.map fun m => .obj m.delivered)

/-! ### One message

The loop over the raw messages is described from behind those that it has been
through, and its index is an `int`: an assembly that comes back has an index for every
message. -/

theorem mapreduceMessages_of_ample (h : heap.Ample) : ∀ (rest before : List RpbMapRedResp),
    before.length + rest.length < 2 ^ 31 →
    mapreduceMessages ((before ++ rest).map .obj) rest.length before.length heap =
      .ok (some (rest.map fun m => .obj m.delivered), heap) := by
  intro rest
  induction rest with
  | nil => exact fun _ _ => rfl
  | cons m rest ih =>
    intro before hlength
    rw [List.length_cons] at hlength
    have hget : ((before ++ m :: rest).map (Ptr.obj : RpbMapRedResp → _))[before.length]? =
        some (.obj m) := by simp
    have hrest := ih (before ++ [m]) (by rw [List.length_append, List.length_singleton]; omega)
    rw [List.append_assoc, List.singleton_append, List.length_append, List.length_singleton]
      at hrest
    rw [List.length_cons, mapreduceMessages, C.readAt_of_get hget, pure_bind,
      C.bind_of_ok (C.allocate_of_ample h)]
    simp only [if_true, Ptr.deref_obj, pure_bind, riakBinaryCopyFromPb]
    rw [C.bind_of_ok (C.new_of_ample h _), C.intSucc_of_lt (by omega), pure_bind,
      C.bind_of_ok hrest]
    rfl

theorem riakMapreduceAssemble_of_ample (h : heap.Ample) {response : RiakMapreduceResponse}
    {seen : List RpbMapRedResp} (hraw : response.raw.Holds seen) (hne : seen ≠ [])
    (hfew : seen.length < 2 ^ 31) :
    riakMapreduceAssemble response heap =
      .ok ((.ok, { response with msg := .obj (seen.map fun m => .obj m.delivered) }), heap) := by
  have hloop := mapreduceMessages_of_ample h seen [] (by rw [List.length_nil]; omega)
  rw [List.nil_append, List.length_nil] at hloop
  unfold riakMapreduceAssemble
  rw [C.bind_of_ok (C.allocate_of_ample h)]
  simp only [if_true, hraw.slots hne, Ptr.deref_obj, pure_bind, hraw.count]
  rw [C.bind_of_ok hloop]
  rfl

/-- The raw messages between two calls. -/
def MapreduceGathered (seen : List RpbMapRedResp) (resp : Option RiakMapreduceResponse) : Prop :=
  match resp with
  | none => seen = []
  | some response => response.raw.Holds seen

theorem MapreduceGathered.holds {seen : List RpbMapRedResp}
    {resp : Option RiakMapreduceResponse} (h : MapreduceGathered seen resp) :
    (resp.getD {}).raw.Holds seen := by
  cases resp with
  | none =>
    obtain rfl : seen = [] := h
    exact RawMessages.holds_nil
  | some response => exact h

/-- What a call says, and what it leaves for the application. -/
structure MapreduceOut (seen : List RpbMapRedResp) (decoded : Decoded RiakMapreduceResponse) :
    Prop where
  ok : decoded.err = .ok
  done : ∃ m, seen.getLast? = some m ∧ decoded.done = doneFlag m.hasDone m.done
  response : ∃ response, decoded.resp = some response ∧ response.raw.Holds seen ∧
    (decoded.done ≠ 0 → response.msg = .obj (seen.map fun m => .obj m.delivered))

/-- **One message** more is gathered, and all of them are delivered with it if they are
    wanted. -/
theorem riakMapreduceResponseDecode_gathers (h : heap.Ample) {seen : List RpbMapRedResp}
    {m : RpbMapRedResp} {pbresp : RiakPbMessage} (hm : Unpacks unpack pbresp m)
    {resp : Option RiakMapreduceResponse} (hseen : MapreduceGathered seen resp)
    (hfew : seen.length + 1 < 2 ^ 31) (rop : RiakOperation ρ) (done : RiakBoolean) :
    ∃ decoded, riakMapreduceResponseDecode unpack rop pbresp resp done heap =
      .ok (decoded, heap) ∧ MapreduceOut (seen ++ [m]) decoded := by
  have hholds := hseen.holds
  obtain ⟨raw, hadd, hraw⟩ := hholds.add h m (by omega)
  have hne : seen ++ [m] ≠ [] := List.append_ne_nil_of_right_ne_nil _ (List.cons_ne_nil _ _)
  have hassemble := @riakMapreduceAssemble_of_ample _ h { resp.getD {} with raw := raw } _ hraw hne
    (by rw [List.length_append, List.length_singleton]; exact hfew)
  unfold riakMapreduceResponseDecode riakMapreduceAssembleIf
  rw [hm.payload, pure_bind, hm.unpacked]
  simp only
  rw [C.bind_of_ok (existingOr_of_ample h resp {})]
  simp only
  rw [C.bind_of_ok hadd]
  simp only
  by_cases hwanted : rop.streaming ∨ doneFlag m.hasDone m.done ≠ 0
  · rw [if_pos hwanted, C.bind_of_ok hassemble]
    exact ⟨_, rfl, rfl, ⟨m, List.getLast?_concat, rfl⟩, _, rfl, hraw, fun _ => rfl⟩
  · rw [if_neg hwanted, pure_bind]
    refine ⟨_, rfl, rfl, ⟨m, List.getLast?_concat, rfl⟩, _, rfl, hraw, fun hdone => ?_⟩
    exact absurd (Or.inr hdone) hwanted

/-! ### A whole job

The flags of the results are those of the messages, and the last call, which is done,
has assembled all of them. -/

theorem MapreduceOut.gathered {seen : List RpbMapRedResp}
    {decoded : Decoded RiakMapreduceResponse} (h : MapreduceOut seen decoded) :
    MapreduceGathered seen decoded.resp := by
  obtain ⟨response, hresp, hraw, _⟩ := h.response
  rw [hresp]
  exact hraw

theorem MapreduceEnds.done_iff {msgs : List RpbMapRedResp} (hlast : MapreduceEnds msgs) {i : Nat}
    (hi : i < msgs.length) {m : RpbMapRedResp} (hm : (msgs.take (i + 1)).getLast? = some m) :
    doneFlag m.hasDone m.done ≠ 0 ↔ i + 1 = msgs.length := by
  have hget : msgs[i]? = some m := by
    rw [List.getLast?_eq_getElem?, List.length_take, Nat.min_eq_left hi, Nat.succ_sub_one,
      List.getElem?_take_of_lt (Nat.lt_succ_self i)] at hm
    exact hm
  obtain ⟨before, last, rfl, hdone, hbefore⟩ := hlast
  rw [List.length_append, List.length_singleton] at hi ⊢
  by_cases hend : i = before.length
  · subst hend
    rw [List.getElem?_concat_length, Option.some.injEq] at hget
    rw [← hget]
    exact ⟨fun _ => rfl, fun _ => hdone⟩
  · rw [List.getElem?_append_left (by omega)] at hget
    refine ⟨fun h => absurd (hbefore m (List.mem_of_getElem? hget)) h, fun hlength => ?_⟩
    omega

/-- **Map/reduce.** A job of fewer than `2^31` messages, of which only the last one reports
    done, is delivered completely and in order. -/
theorem riak_mapreduce_delivered (h : heap.Ample) {pbresps : List RiakPbMessage}
    {msgs : List RpbMapRedResp} (hframes : List.Forall₂ (Unpacks unpack) pbresps msgs)
    (hlast : MapreduceEnds msgs) (hfew : msgs.length < 2 ^ 31) (rop : RiakOperation ρ)
    (done : RiakBoolean) : MapreduceDelivered unpack rop heap pbresps msgs done := by
  have hroom : ∀ {seen : List RpbMapRedResp} {m : RpbMapRedResp}, seen ++ [m] <+: msgs →
      seen.length + 1 < 2 ^ 31 := by
    intro seen m hprefix
    have hle := hprefix.length_le
    rw [List.length_append, List.length_singleton] at hle
    omega
  have hstep : ∀ seen m pbresp resp done decoded final, seen ++ [m] <+: msgs →
      Unpacks unpack pbresp m → MapreduceGathered seen resp →
      riakMapreduceResponseDecode unpack rop pbresp resp done heap = .ok (decoded, final) →
      True → final = heap ∧ MapreduceGathered (seen ++ [m]) decoded.resp ∧
        MapreduceOut (seen ++ [m]) decoded := by
    intro seen m pbresp resp done decoded final hprefix hm hseen hrun _
    obtain ⟨decoded', hrun', hout⟩ :=
      riakMapreduceResponseDecode_gathers h hm hseen (hroom hprefix) rop done
    rw [hrun] at hrun'
    cases hrun'
    exact ⟨rfl, hout.gathered, hout⟩
  obtain ⟨results, hrun, hgood⟩ := decodeAll_total hstep (by
    intro seen m pbresp resp done hprefix hm hseen
    obtain ⟨decoded, hrun, _⟩ :=
      riakMapreduceResponseDecode_gathers h hm hseen (hroom hprefix) rop done
    exact ⟨decoded, hrun, trivial⟩) hframes [] none done rfl (List.nil_append _)
  obtain ⟨_, hlength, hresults⟩ := decodeAll_invariant hstep hframes [] none done results heap
    (List.nil_append _) rfl hrun hgood
  simp only [List.nil_append] at hresults
  have hne : msgs ≠ [] := by
    obtain ⟨before, last, rfl, _⟩ := hlast
    exact List.append_ne_nil_of_right_ne_nil _ (List.cons_ne_nil _ _)
  have hpositive := List.length_pos_iff.mpr hne
  have hdone : ∀ i decoded, results[i]? = some decoded →
      decoded.err = .ok ∧ (decoded.done ≠ 0 ↔ i + 1 = msgs.length) := by
    intro i decoded hget
    have hi := (List.getElem?_eq_some_iff.mp hget).1
    obtain ⟨m, hm, hflag⟩ := (hresults i decoded hget).done
    rw [hflag]
    exact ⟨(hresults i decoded hget).ok, hlast.done_iff (by omega) hm⟩
  obtain ⟨last, hget, hfinal⟩ := exists_last_of_length hlength hne
  have hout := hresults _ _ hget
  rw [Nat.sub_add_cancel hpositive, List.take_length] at hout
  obtain ⟨response, hresp, hraw, hmsg⟩ := hout.response
  have hend : last.done ≠ 0 := (hdone _ _ hget).2.mpr (Nat.sub_add_cancel hpositive)
  exact ⟨results, response, hrun, hlength, hdone, hfinal.trans hresp, hraw.count, hmsg hend⟩

/-- What protobuf-c makes of the payload of an empty message, of one with the response `a`
    of phase 0, and of one that is done. -/
def sampleJobUnpack : Bytes → Option RpbMapRedResp
  | [] => some {}
  | [0x08, 0, 0x12, 1, 0x61] =>
      some { hasPhase := true, phase := 0, hasResponse := true, response := [0x61] }
  | [0x18, 1] => some { hasDone := true, done := 1 }
  | _ => none

/-- A frame of type `MSG_RPBMAPREDRESP`. -/
def jobFrame (payload : Bytes) : RiakPbMessage :=
  ⟨24, UInt32.ofNat (payload.length + 1), 24 :: payload⟩

/-- A response, and the end of the job. -/
theorem riak_mapreduce_delivered_sample :
    MapreduceDelivered sampleJobUnpack ({} : RiakOperation Unit) Heap.fresh
      [jobFrame [0x08, 0, 0x12, 1, 0x61], jobFrame [0x18, 1]]
      [{ hasPhase := true, phase := 0, hasResponse := true, response := [0x61] },
        { hasDone := true, done := 1 }] 0 := by
  apply riak_mapreduce_delivered Heap.fresh_ample
  · exact .cons ⟨by decide, by decide, rfl⟩ (.cons ⟨by decide, by decide, rfl⟩ .nil)
  · exact ⟨[_], _, rfl, by decide, by decide⟩
  · decide

/-! ### Jobs of more messages -/

theorem riakMapreduceAssemble_few {response response' : RiakMapreduceResponse}
    {seen : List RpbMapRedResp} {err : RiakError} {final : Heap} (h : heap.Ample)
    (hraw : response.raw.Holds seen) (hne : seen ≠ [])
    (hrun : riakMapreduceAssemble response heap = .ok ((err, response'), final)) :
    seen.length < 2 ^ 31 := by
  unfold riakMapreduceAssemble at hrun
  rw [C.bind_of_ok (C.allocate_of_ample h)] at hrun
  simp only [if_true, hraw.slots hne, Ptr.deref_obj, pure_bind, hraw.count] at hrun
  obtain ⟨slots, heap₁, hloop, _⟩ := C.bind_eq_ok.mp hrun
  rcases mapreduceMessages_cases _ _ _ _ _ hloop with ⟨_, k, _, hrefused⟩ |
    ⟨_, _, _, hzero | hbound⟩
  · rw [h.grants (2 * k + 1) (2 * k) (Nat.lt_succ_self _)] at hrefused
    cases hrefused
  · exact absurd (List.length_eq_zero_iff.mp hzero) hne
  · omega

/-- Once the job is done, there was an index for every message. -/
def MapreduceCounted (seen : List RpbMapRedResp) (decoded : Decoded RiakMapreduceResponse) :
    Prop := decoded.done ≠ 0 → seen.length < 2 ^ 31

theorem MapreduceDelivered.few (h : heap.Ample) {rop : RiakOperation ρ}
    {pbresps : List RiakPbMessage} {msgs : List RpbMapRedResp} {done : RiakBoolean}
    (hframes : List.Forall₂ (Unpacks unpack) pbresps msgs) (hne : msgs ≠ [])
    (hdelivered : MapreduceDelivered unpack rop heap pbresps msgs done) :
    msgs.length < 2 ^ 31 := by
  obtain ⟨results, response, hrun, hlength, hresults, _⟩ := hdelivered
  have hstep : ∀ seen m pbresp resp done decoded final, seen ++ [m] <+: msgs →
      Unpacks unpack pbresp m → MapreduceGathered seen resp →
      riakMapreduceResponseDecode unpack rop pbresp resp done heap = .ok (decoded, final) →
      decoded.err = .ok → final = heap ∧ MapreduceGathered (seen ++ [m]) decoded.resp ∧
        MapreduceCounted (seen ++ [m]) decoded := by
    intro seen m pbresp resp done decoded final _ hm hseen hrun hok
    have hholds := hseen.holds
    unfold riakMapreduceResponseDecode at hrun
    rw [hm.payload, pure_bind, hm.unpacked] at hrun
    simp only at hrun
    rw [C.bind_of_ok (existingOr_of_ample h resp {})] at hrun
    obtain ⟨⟨added, raw⟩, heap₁, hadd, hrun₁⟩ := C.bind_eq_ok.mp hrun
    obtain ⟨hheap, hadded, _, hnew⟩ := hholds.add_eq_ok hadd
    rw [h.grants 1 0 Nat.one_pos] at hadded
    rw [h.after] at hheap
    subst hadded hheap
    have hraw := hnew rfl
    have hne : seen ++ [m] ≠ [] := List.append_ne_nil_of_right_ne_nil _ (List.cons_ne_nil _ _)
    by_cases hwanted : rop.streaming ∨ doneFlag m.hasDone m.done ≠ 0
    · simp only [riakMapreduceAssembleIf, if_pos hwanted] at hrun₁
      obtain ⟨⟨err, response'⟩, heap₂, hassemble, hlast⟩ := C.bind_eq_ok.mp hrun₁
      have hfew := riakMapreduceAssemble_few h hraw hne hassemble
      rw [riakMapreduceAssemble_of_ample h hraw hne hfew] at hassemble
      cases hassemble
      cases hlast
      exact ⟨rfl, hraw, fun _ => hfew⟩
    · simp only [riakMapreduceAssembleIf, if_neg hwanted, pure_bind] at hrun₁
      cases hrun₁
      exact ⟨rfl, hraw, fun hdone => absurd (Or.inr hdone) hwanted⟩
  obtain ⟨_, _, hfew⟩ := decodeAll_invariant hstep hframes [] none done results heap
    (List.nil_append _) rfl hrun (by
      intro decoded hmem
      obtain ⟨i, hget⟩ := List.mem_iff_getElem?.mp hmem
      exact (hresults i decoded hget).1)
  obtain ⟨last, hget, _⟩ := exists_last_of_length hlength hne
  have hpositive := List.length_pos_iff.mpr hne
  have hdone := (hresults _ _ hget).2.mpr (Nat.sub_add_cancel hpositive)
  have hlast := hfew _ _ hget hdone
  rwa [List.nil_append, Nat.sub_add_cancel hpositive, List.take_length] at hlast

/-- A job of `2^31` messages, all but the last of them empty, is not delivered: the index
    of the loop over them overflows. -/
theorem riak_mapreduce_too_long :
    List.Forall₂ (Unpacks sampleJobUnpack)
        (List.replicate (2 ^ 31 - 1) (jobFrame []) ++ [jobFrame [0x18, 1]])
        (List.replicate (2 ^ 31 - 1) ({} : RpbMapRedResp) ++ [{ hasDone := true, done := 1 }]) ∧
      MapreduceEnds (List.replicate (2 ^ 31 - 1) ({} : RpbMapRedResp) ++ [{ hasDone := true, done := 1 }]) ∧
      ¬ MapreduceDelivered sampleJobUnpack ({} : RiakOperation Unit) Heap.fresh
        (List.replicate (2 ^ 31 - 1) (jobFrame []) ++ [jobFrame [0x18, 1]])
        (List.replicate (2 ^ 31 - 1) ({} : RpbMapRedResp) ++ [{ hasDone := true, done := 1 }]) 0 := by
  have hlong : 2 ^ 31 - 1 + 1 = 2 ^ 31 := by decide
  generalize 2 ^ 31 - 1 = n at hlong ⊢
  have hframes : List.Forall₂ (Unpacks sampleJobUnpack)
      (List.replicate n (jobFrame []) ++ [jobFrame [0x18, 1]])
      (List.replicate n ({} : RpbMapRedResp) ++ [{ hasDone := true, done := 1 }]) := by
    apply List.rel_append
    · rw [List.forall₂_iff_get]
      refine ⟨by rw [List.length_replicate, List.length_replicate], fun i hi hi' => ?_⟩
      simp only [List.get_eq_getElem, List.getElem_replicate]
      exact ⟨by decide, by decide, rfl⟩
    · exact .cons ⟨by decide, by decide, rfl⟩ .nil
  refine ⟨hframes, ⟨_, _, rfl, by decide, fun m hm => ?_⟩, fun hdelivered => ?_⟩
  · rw [List.eq_of_mem_replicate hm]
    rfl
  · have hfew := hdelivered.few Heap.fresh_ample hframes
      (List.append_ne_nil_of_right_ne_nil _ (List.cons_ne_nil _ _))
    rw [List.length_append, List.length_replicate, List.length_singleton, hlong] at hfew
    exact absurd hfew (Nat.lt_irrefl _)

end RiakClient
