import RiakClient.Index

/-!
# Whole 2i queries

What a sequence of `RpbIndexResp` messages leaves in the response, on a heap that
grants every request. The invariant of a run is that `_internal` holds exactly
the messages that arrived; everything else is rebuilt from it whenever the
response is assembled.

The assembly is described first, for messages of any kind (`riak2iAssemble_eq_ok`) and
for messages that it can cope with (`riak2iAssemble_of_gatherable`). One message then
is adding it and assembling, and a query is a run of such steps: the run either ends
with an error or has assembled all messages with the last one.
-/

namespace RiakClient

open CSem ChunkCursor

variable {ρ : Type} {heap final : Heap}

/-! ### Assembling the response

The loop over the results cannot get past its first entry: it takes success for the
failure. So there is an assembly only of messages without results. -/

theorem flattenLoop_results_eq_ok (h : heap.Ample) {msgs : List RpbIndexResp}
    {left i chunk j : Nat} {slots : Option (List (Ptr RiakPair))}
    (hrun : flattenLoop (msgs.map .obj) copyResultSlot left i (chunk, j) heap =
      .ok (slots, final)) :
    final = heap ∧ (left = 0 ∧ slots = some [] ∨ left ≠ 0 ∧ slots = none) := by
  cases left with
  | zero =>
    simp only [flattenLoop, C.pure_apply, Except.ok.injEq, Prod.mk.injEq] at hrun
    exact ⟨hrun.2.symm, Or.inl ⟨rfl, hrun.1.symm⟩⟩
  | succ left =>
    obtain ⟨cell, heap₁, hread, hrun₁⟩ := C.bind_eq_ok.mp hrun
    obtain ⟨hcell, hheap₁⟩ := C.readAt_eq_ok.mp hread
    obtain ⟨m, _, rfl⟩ := getElem?_map_obj hcell
    rw [Ptr.deref_obj, pure_bind, hheap₁] at hrun₁
    obtain ⟨slot, heap₂, hslot, hrun₂⟩ := C.bind_eq_ok.mp hrun₁
    obtain ⟨pbpair, heap₃, hpair, hslot₁⟩ := C.bind_eq_ok.mp hslot
    obtain ⟨_, hheap₃⟩ := C.readAt_eq_ok.mp hpair
    rw [hheap₃, C.bind_of_ok (riakPairsCopyFromPb_of_ample h pbpair)] at hslot₁
    simp only [if_true, C.pure_apply, Except.ok.injEq, Prod.mk.injEq] at hslot₁
    obtain ⟨rfl, rfl⟩ := hslot₁
    simp only [C.pure_apply, Except.ok.injEq, Prod.mk.injEq] at hrun₂
    exact ⟨hrun₂.2.symm, Or.inr ⟨Nat.succ_ne_zero left, hrun₂.1.symm⟩⟩

/-- What the response looks like once it has been assembled from `msgs`. The
    counts are the totals as far as a `riak_uint32_t` holds them. -/
structure Assembled (msgs : List RpbIndexResp) (err : RiakError) (response : Riak2iResponse) :
    Prop where
  few : msgs.length < 2 ^ 31
  nKeys : response.nKeys = UInt32.ofNat (allKeys msgs).length
  fewKeys : response.nKeys.toNat < 2 ^ 31
  keys : ∃ keys, gather (msgs.map RpbIndexResp.keys) response.nKeys.toNat (0, 0) = some keys ∧
    response.keys = .obj (keys.map keySlot)
  nResults : response.nResults = UInt32.ofNat (allResults msgs).length
  results : response.nResults.toNat = 0 ∧ err = .ok ∧ response.results = .obj [] ∨
    response.nResults.toNat ≠ 0 ∧ err = .outOfMemory

theorem sumLoop_all {msgs : List RpbIndexResp} (hfew : msgs.length < 2 ^ 31) :
    sumLoop (msgs.map .obj) msgs.length 0 0 0 =
      pure (UInt32.ofNat (allKeys msgs).length, UInt32.ofNat (allResults msgs).length) := by
  have hsum := sumLoop_of_lt msgs [] 0 0 (by rw [List.length_nil, Nat.zero_add]; exact hfew)
  rw [List.nil_append, List.length_nil, UInt32.zero_add, UInt32.zero_add] at hsum
  exact hsum

theorem riak2iAssemble_eq_ok (h : heap.Ample) {response : Riak2iResponse}
    {msgs : List RpbIndexResp} (hraw : response.raw.Holds msgs) (hne : msgs ≠ [])
    {err : RiakError} {response' : Riak2iResponse}
    (hrun : riak2iAssemble response heap = .ok ((err, response'), final)) :
    final = heap ∧ response'.raw = response.raw ∧ Assembled msgs err response' := by
  unfold riak2iAssemble at hrun
  rw [hraw.slots hne, Ptr.deref_obj, pure_bind, hraw.count] at hrun
  obtain ⟨totals, heap₁, hsum, hrun₁⟩ := C.bind_eq_ok.mp hrun
  have hfew : msgs.length < 2 ^ 31 := by
    rcases sumLoop_bound _ _ _ _ _ _ hsum with hzero | hbound
    · omega
    · omega
  rw [sumLoop_all hfew, C.pure_apply, Except.ok.injEq, Prod.mk.injEq] at hsum
  obtain ⟨rfl, rfl⟩ := hsum
  simp only at hrun₁
  rw [C.bind_of_ok (C.allocate_of_ample h)] at hrun₁
  simp only [if_true] at hrun₁
  rw [C.bind_of_ok (C.allocate_of_ample h)] at hrun₁
  simp only [if_true] at hrun₁
  obtain ⟨keySlots, heap₂, hkeys, hrun₂⟩ := C.bind_eq_ok.mp hrun₁
  obtain ⟨hbound, hheap₂, keys, hgather, rfl⟩ := flattenLoop_keys_eq_ok h _ _ _ _ _ _ hkeys
  rw [hheap₂] at hrun₂
  have hfewKeys : (UInt32.ofNat (allKeys msgs).length).toNat < 2 ^ 31 := by
    rcases hbound with hzero | hbound
    · rw [hzero]; exact Nat.two_pow_pos 31
    · omega
  obtain ⟨resultSlots, heap₃, hresults, hrun₃⟩ := C.bind_eq_ok.mp hrun₂
  obtain ⟨hheap₃, hcase⟩ := flattenLoop_results_eq_ok h hresults
  rw [hheap₃] at hrun₃
  rcases hcase with ⟨hzero, rfl⟩ | ⟨hsome, rfl⟩
  · simp only [C.pure_apply, Except.ok.injEq, Prod.mk.injEq] at hrun₃
    obtain ⟨⟨rfl, rfl⟩, rfl⟩ := hrun₃
    exact ⟨rfl, rfl, hfew, rfl, hfewKeys, ⟨keys, hgather, rfl⟩, rfl,
      Or.inl ⟨hzero, rfl, rfl⟩⟩
  · simp only [C.pure_apply, Except.ok.injEq, Prod.mk.injEq] at hrun₃
    obtain ⟨⟨rfl, rfl⟩, rfl⟩ := hrun₃
    exact ⟨rfl, rfl, hfew, rfl, hfewKeys, ⟨keys, hgather, rfl⟩, rfl, Or.inr ⟨hsome, rfl⟩⟩

/-- Messages that the assembly can cope with: few enough to be counted by an
    `int`, without results, and with empty ones only at the end. -/
structure Gatherable (msgs : List RpbIndexResp) : Prop where
  few : msgs.length < 2 ^ 31
  fewKeys : (allKeys msgs).length < 2 ^ 31
  packed : Packed (msgs.map RpbIndexResp.keys)
  noResults : allResults msgs = []

theorem allResults_eq_nil_iff {msgs : List RpbIndexResp} :
    allResults msgs = [] ↔ ∀ m ∈ msgs, m.results = [] := by
  unfold allResults
  rw [List.flatten_eq_nil_iff]
  exact List.forall_mem_map

theorem Gatherable.of_isPrefix {seen msgs : List RpbIndexResp} (h : Gatherable msgs)
    (hpre : seen <+: msgs) : Gatherable seen := by
  obtain ⟨later, rfl⟩ := hpre
  have hfew := h.few
  have hfewKeys := h.fewKeys
  have hsplit := h.packed
  rw [List.length_append] at hfew
  rw [allKeys_append, List.length_append] at hfewKeys
  unfold Packed at hsplit
  rw [List.map_append] at hsplit
  refine ⟨?_, ?_, ?_, ?_⟩
  · omega
  · omega
  · exact (List.pairwise_append.mp hsplit).1
  · rw [allResults_eq_nil_iff]
    intro m hm
    exact allResults_eq_nil_iff.mp h.noResults m (List.mem_append_left _ hm)

theorem riak2iAssemble_of_gatherable (h : heap.Ample) {response : Riak2iResponse}
    {msgs : List RpbIndexResp} (hraw : response.raw.Holds msgs) (hne : msgs ≠ [])
    (hgood : Gatherable msgs) :
    ∃ response', riak2iAssemble response heap = .ok ((.ok, response'), heap) := by
  have hkeys : (UInt32.ofNat (allKeys msgs).length).toNat = (allKeys msgs).length := by
    rw [UInt32.toNat_ofNat']
    exact Nat.mod_eq_of_lt (by have := hgood.fewKeys; omega)
  have hgather : gather (msgs.map RpbIndexResp.keys) (allKeys msgs).length (0, 0) =
      some (allKeys msgs) := gather_flatten hgood.packed
  have hloop := flattenLoop_keys_of_gather h (allKeys msgs).length 0 0 0 _ hgather
    (by have := hgood.fewKeys; omega) (Nat.le_refl 0) (Nat.le_refl 0)
  have hzero : (UInt32.ofNat (allResults msgs).length).toNat = 0 := by
    rw [hgood.noResults]; rfl
  unfold riak2iAssemble
  rw [hraw.slots hne, Ptr.deref_obj, pure_bind, hraw.count, sumLoop_all hgood.few, pure_bind]
  simp only
  rw [C.bind_of_ok (C.allocate_of_ample h)]
  simp only [if_true]
  rw [C.bind_of_ok (C.allocate_of_ample h)]
  simp only [if_true, hkeys, hzero]
  rw [C.bind_of_ok hloop]
  exact ⟨_, rfl⟩

theorem Assembled.allKeys_of_lt {msgs : List RpbIndexResp} {err : RiakError}
    {response : Riak2iResponse} (h : Assembled msgs err response)
    (hfewKeys : (allKeys msgs).length < 2 ^ 31) :
    response.nKeys.toNat = (allKeys msgs).length ∧
      response.keys = .obj ((allKeys msgs).map keySlot) := by
  have hn : response.nKeys.toNat = (allKeys msgs).length := by
    rw [h.nKeys, UInt32.toNat_ofNat']
    exact Nat.mod_eq_of_lt (by omega)
  obtain ⟨keys, hgather, hkeys⟩ := h.keys
  rw [hn] at hgather
  obtain ⟨_, rfl⟩ := gather_flatten_eq_some_iff.mp hgather
  exact ⟨hn, hkeys⟩

/-! ### One message -/

theorem riak2iTrailer_of_holds (h : heap.Ample) {response : Riak2iResponse}
    {msgs : List RpbIndexResp} (hraw : response.raw.Holds msgs) (hne : msgs ≠ [])
    (hfew : msgs.length < 2 ^ 32) :
    ∃ response', riak2iTrailer response heap = .ok (response', heap) ∧
      response'.raw = response.raw ∧ response'.nKeys = response.nKeys ∧
      response'.keys = response.keys ∧ response'.nResults = response.nResults ∧
      response'.results = response.results := by
  have hpos : 0 < msgs.length := List.length_pos_iff.mpr hne
  have hlast : (response.raw.nResponses - 1).toNat = msgs.length - 1 := by
    rw [UInt32.toNat_sub_of_le _ _ (by
      rw [UInt32.le_iff_toNat_le, UInt32.toNat_one, hraw.count]; exact hpos),
      UInt32.toNat_one, hraw.count]
  have hcell : (msgs.map (Ptr.obj : RpbIndexResp → _))[msgs.length - 1]? =
      some (.obj (msgs.get ⟨msgs.length - 1, by omega⟩)) := by
    rw [List.getElem?_map, List.getElem?_eq_getElem (by omega)]; rfl
  unfold riak2iTrailer
  rw [hraw.slots hne, Ptr.deref_obj, pure_bind, hlast, C.readAt_of_get hcell, pure_bind,
    Ptr.deref_obj, pure_bind, C.bind_of_ok (riakBinaryCopyFromPb_of_ample h _)]
  exact ⟨_, rfl, rfl, rfl, rfl, rfl, rfl⟩

/-- The invariant of a run: the messages so far are all in `_internal`. -/
def IndexInv (seen : List RpbIndexResp) (resp : Option Riak2iResponse) : Prop :=
  (resp.getD {}).raw.Holds seen

theorem indexInv_none : IndexInv [] none := RawMessages.holds_nil

/-- What is known of the result of a message, given all messages up to it. -/
structure IndexOut (rop : RiakOperation ρ) (seen : List RpbIndexResp)
    (decoded : Decoded Riak2iResponse) : Prop where
  noResults : allResults seen = [] → decoded.err = .ok
  holds : decoded.err = .ok → IndexInv seen decoded.resp
  assembled : decoded.err = .ok → rop.streaming ∨ decoded.done ≠ 0 →
    ∃ response, decoded.resp = some response ∧ Assembled seen .ok response

/-- **One message.** A call that returns has added its message to the others
    and, where it assembled, has assembled all of them. -/
theorem riak2iResponseDecode_eq_ok (h : heap.Ample) {unpack : Bytes → Option RpbIndexResp}
    {rop : RiakOperation ρ} {seen : List RpbIndexResp} {m : RpbIndexResp}
    {pbresp : RiakPbMessage} {resp : Option Riak2iResponse} {done : RiakBoolean}
    {decoded : Decoded Riak2iResponse} (hframe : Unpacks unpack pbresp m)
    (hinv : IndexInv seen resp)
    (hrun : riak2iResponseDecode unpack rop pbresp resp done heap = .ok (decoded, final)) :
    final = heap ∧ decoded.done = doneFlag m.hasDone m.done ∧
      IndexOut rop (seen ++ [m]) decoded := by
  unfold riak2iResponseDecode at hrun
  rw [hframe.payload, pure_bind, hframe.unpacked] at hrun
  simp only at hrun
  rw [C.bind_of_ok (existingOr_of_ample h resp _)] at hrun
  simp only at hrun
  by_cases hroom : seen.length + 1 < 2 ^ 32
  · have hne : seen ++ [m] ≠ [] := by simp
    have hlen : (seen ++ [m]).length < 2 ^ 32 := by
      rw [List.length_append, List.length_singleton]; exact hroom
    obtain ⟨raw', hadd, hraw'⟩ := hinv.add h m hroom
    have hstored : ({ resp.getD {} with raw := raw' } : Riak2iResponse).raw.Holds (seen ++ [m]) :=
      hraw'
    rw [C.bind_of_ok hadd] at hrun
    simp only at hrun
    unfold riak2iAssembleIf at hrun
    by_cases hwanted : rop.streaming ∨ doneFlag m.hasDone m.done ≠ 0
    · rw [if_pos hwanted] at hrun
      obtain ⟨⟨err, response⟩, heap₁, hassemble, hrun₁⟩ := C.bind_eq_ok.mp hrun
      obtain ⟨rfl, hsame, hassembled⟩ := riak2iAssemble_eq_ok h hstored hne hassemble
      have hholds : response.raw.Holds (seen ++ [m]) := by rw [hsame]; exact hstored
      obtain ⟨response', htrailer, hraw, hnKeys, hkeys, hnResults, hresults⟩ :=
        riak2iTrailer_of_holds h hholds hne hlen
      rcases hassembled.results with ⟨_, rfl, _⟩ | ⟨hsome, rfl⟩
      · simp only [if_true] at hrun₁
        rw [C.bind_of_ok htrailer, C.pure_apply, Except.ok.injEq, Prod.mk.injEq] at hrun₁
        obtain ⟨rfl, rfl⟩ := hrun₁
        refine ⟨rfl, rfl, fun _ => rfl, fun _ => ?_, fun _ _ => ⟨response', rfl, ?_⟩⟩
        · show response'.raw.Holds (seen ++ [m])
          rw [hraw]; exact hholds
        · exact ⟨hassembled.few, by rw [hnKeys, hassembled.nKeys],
            by rw [hnKeys]; exact hassembled.fewKeys,
            by rw [hnKeys, hkeys]; exact hassembled.keys,
            by rw [hnResults, hassembled.nResults],
            by rw [hnResults, hresults]; exact hassembled.results⟩
      · simp only [reduceCtorEq, if_false, C.pure_apply, Except.ok.injEq, Prod.mk.injEq] at hrun₁
        obtain ⟨rfl, rfl⟩ := hrun₁
        refine ⟨rfl, rfl, fun hnil => ?_, fun herr => ?_, fun herr _ => ?_⟩
        · rw [hassembled.nResults, hnil] at hsome
          exact absurd rfl hsome
        · cases herr
        · cases herr
    · rw [if_neg hwanted, pure_bind] at hrun
      obtain ⟨response', htrailer, hraw, _⟩ := riak2iTrailer_of_holds h hstored hne hlen
      simp only [if_true] at hrun
      rw [C.bind_of_ok htrailer, C.pure_apply, Except.ok.injEq, Prod.mk.injEq] at hrun
      obtain ⟨rfl, rfl⟩ := hrun
      refine ⟨rfl, rfl, fun _ => rfl, fun _ => ?_, fun _ hdone => absurd hdone hwanted⟩
      show response'.raw.Holds (seen ++ [m])
      rw [hraw]; exact hstored
  · rw [C.bind_of_error (hinv.add_full h m (Nat.le_of_not_lt hroom))] at hrun
    cases hrun

theorem riak2iResponseDecode_of_gatherable (h : heap.Ample)
    {unpack : Bytes → Option RpbIndexResp} (rop : RiakOperation ρ) {seen : List RpbIndexResp}
    {m : RpbIndexResp} {pbresp : RiakPbMessage} {resp : Option Riak2iResponse}
    (done : RiakBoolean) (hframe : Unpacks unpack pbresp m) (hinv : IndexInv seen resp)
    (hgood : Gatherable (seen ++ [m])) :
    ∃ decoded, riak2iResponseDecode unpack rop pbresp resp done heap = .ok (decoded, heap) := by
  have hne : seen ++ [m] ≠ [] := by simp
  have hfew := hgood.few
  obtain ⟨raw', hadd, hraw'⟩ := hinv.add h m (by
    rw [List.length_append, List.length_singleton] at hfew; omega)
  have hstored : ({ resp.getD {} with raw := raw' } : Riak2iResponse).raw.Holds (seen ++ [m]) :=
    hraw'
  have hlen : (seen ++ [m]).length < 2 ^ 32 := by omega
  unfold riak2iResponseDecode riak2iAssembleIf
  rw [hframe.payload, pure_bind, hframe.unpacked]
  simp only
  rw [C.bind_of_ok (existingOr_of_ample h resp _)]
  simp only
  rw [C.bind_of_ok hadd]
  simp only
  by_cases hwanted : rop.streaming ∨ doneFlag m.hasDone m.done ≠ 0
  · rw [if_pos hwanted]
    obtain ⟨response', hassemble⟩ := riak2iAssemble_of_gatherable h hstored hne hgood
    obtain ⟨_, hsame, _⟩ := riak2iAssemble_eq_ok h hstored hne hassemble
    have hholds : response'.raw.Holds (seen ++ [m]) := by rw [hsame]; exact hstored
    obtain ⟨response'', htrailer, _⟩ := riak2iTrailer_of_holds h hholds hne hlen
    rw [C.bind_of_ok hassemble]
    simp only [if_true]
    rw [C.bind_of_ok htrailer]
    exact ⟨_, rfl⟩
  · rw [if_neg hwanted, pure_bind]
    obtain ⟨response', htrailer, _⟩ := riak2iTrailer_of_holds h hstored hne hlen
    simp only [if_true]
    rw [C.bind_of_ok htrailer]
    exact ⟨_, rfl⟩

/-! ### A whole query

The condition of the first theorem is about the messages alone: which of them are
empty, and how many keys there are. Where a prefix of a query can be gathered, all of
its prefixes can. -/

/-- Only the last message reports done. -/
def OnlyLastDone (msgs : List RpbIndexResp) : Prop :=
  ∃ before last, msgs = before ++ [last] ∧ doneFlag last.hasDone last.done ≠ 0 ∧
    ∀ m ∈ before, doneFlag m.hasDone m.done = 0

/-- The response after the last message has all keys, in order of arrival. -/
def KeysComplete (unpack : Bytes → Option RpbIndexResp) (rop : RiakOperation ρ) (heap : Heap)
    (pbresps : List RiakPbMessage) (msgs : List RpbIndexResp) (done : RiakBoolean) : Prop :=
  ∃ results final response,
    decodeAll (riak2iResponseDecode unpack rop) pbresps none done heap = .ok (results, final) ∧
    finalResponse results = some response ∧
    response.nKeys.toNat = (allKeys msgs).length ∧
    response.keys = .obj ((allKeys msgs).map keySlot)

/-- The slot that a result of a message should end up in. -/
def resultSlot (pbpair : RpbPair) : Ptr RiakPair :=
  .obj {
    key := some ⟨pbpair.key, false⟩
    hasValue := pbpair.hasValue
    value := if pbpair.hasValue then some ⟨pbpair.value, false⟩ else none }

/-- Every message is decoded without an error, and the response after the last
    one has all results, in order of arrival. -/
def ResultsComplete (unpack : Bytes → Option RpbIndexResp) (rop : RiakOperation ρ) (heap : Heap)
    (pbresps : List RiakPbMessage) (msgs : List RpbIndexResp) (done : RiakBoolean) : Prop :=
  ∃ results final response,
    decodeAll (riak2iResponseDecode unpack rop) pbresps none done heap = .ok (results, final) ∧
    (∀ decoded ∈ results, decoded.err = .ok) ∧
    finalResponse results = some response ∧
    response.nResults.toNat = (allResults msgs).length ∧
    response.results = .obj ((allResults msgs).map resultSlot)

section Query

variable {unpack : Bytes → Option RpbIndexResp} {rop : RiakOperation ρ}
  {pbresps : List RiakPbMessage} {msgs : List RpbIndexResp} {done : RiakBoolean}

theorem OnlyLastDone.ne_nil (h : OnlyLastDone msgs) : msgs ≠ [] := by
  obtain ⟨before, last, rfl, _⟩ := h
  simp

theorem assembled_of_run (h : heap.Ample) (hframes : List.Forall₂ (Unpacks unpack) pbresps msgs)
    (hlast : OnlyLastDone msgs) {results : List (Decoded Riak2iResponse)}
    (hrun : decodeAll (riak2iResponseDecode unpack rop) pbresps none done heap =
      .ok (results, final))
    (hgood : (∀ decoded ∈ results, decoded.err = .ok) ∨ allResults msgs = []) :
    ∃ response, finalResponse results = some response ∧ Assembled msgs .ok response := by
  -- a message reports done exactly when it says so, so the results carry the flags
  let Out : List RpbIndexResp → Decoded Riak2iResponse → Prop := fun seen decoded =>
    IndexOut rop seen decoded ∧ decoded.err = .ok ∧
      ∃ m, seen.getLast? = some m ∧ decoded.done = doneFlag m.hasDone m.done
  have hnone : ∀ seen, seen <+: msgs → allResults msgs = [] → allResults seen = [] := by
    rintro seen ⟨later, rfl⟩ hnil
    rw [allResults_eq_nil_iff] at hnil ⊢
    intro m hm
    exact hnil m (List.mem_append_left _ hm)
  have step : ∀ seen m pbresp resp done decoded final, seen ++ [m] <+: msgs →
      Unpacks unpack pbresp m → IndexInv seen resp →
      riak2iResponseDecode unpack rop pbresp resp done heap = .ok (decoded, final) →
      (decoded.err = .ok ∨ allResults msgs = []) →
      final = heap ∧ IndexInv (seen ++ [m]) decoded.resp ∧ Out (seen ++ [m]) decoded := by
    intro seen m pbresp resp done decoded final hpre hframe hinv hstep herr
    obtain ⟨hheap, hdone, hout⟩ := riak2iResponseDecode_eq_ok h hframe hinv hstep
    have hok : decoded.err = .ok := by
      rcases herr with hok | hnil
      · exact hok
      · exact hout.noResults (hnone _ hpre hnil)
    exact ⟨hheap, hout.holds hok, hout, hok, m, by simp, hdone⟩
  obtain ⟨_, hlength, hall⟩ := decodeAll_invariant step hframes [] none done results final rfl
    indexInv_none hrun (by
      intro decoded hmem
      rcases hgood with hok | hnil
      · exact Or.inl (hok decoded hmem)
      · exact Or.inr hnil)
  obtain ⟨last, hget, hfinal⟩ := exists_last_of_length hlength hlast.ne_nil
  obtain ⟨hout, hok, m, hm, hdone⟩ := hall _ last hget
  have htake : ([] : List RpbIndexResp) ++ msgs.take (msgs.length - 1 + 1) = msgs := by
    have hpos : 0 < msgs.length := List.length_pos_iff.mpr hlast.ne_nil
    rw [List.nil_append, Nat.sub_add_cancel hpos, List.take_length]
  rw [htake] at hout hm
  obtain ⟨before, final', rfl, hflag, _⟩ := hlast
  rw [List.getLast?_concat, Option.some.injEq] at hm
  subst hm
  obtain ⟨response, hresp, hassembled⟩ := hout.assembled hok (Or.inr (by rw [hdone]; exact hflag))
  exact ⟨response, by rw [hfinal]; exact hresp, hassembled⟩

theorem run_of_gatherable (h : heap.Ample) (rop : RiakOperation ρ) (done : RiakBoolean)
    (hframes : List.Forall₂ (Unpacks unpack) pbresps msgs) (hgood : Gatherable msgs) :
    ∃ results, decodeAll (riak2iResponseDecode unpack rop) pbresps none done heap =
      .ok (results, heap) ∧ ∀ decoded ∈ results, decoded.err = .ok := by
  have step : ∀ seen m pbresp resp done decoded final, seen ++ [m] <+: msgs →
      Unpacks unpack pbresp m → IndexInv seen resp →
      riak2iResponseDecode unpack rop pbresp resp done heap = .ok (decoded, final) →
      decoded.err = .ok →
      final = heap ∧ IndexInv (seen ++ [m]) decoded.resp ∧ IndexOut rop (seen ++ [m]) decoded := by
    intro seen m pbresp resp done decoded final _ hframe hinv hstep hok
    obtain ⟨hheap, _, hout⟩ := riak2iResponseDecode_eq_ok h hframe hinv hstep
    exact ⟨hheap, hout.holds hok, hout⟩
  have progress : ∀ seen m pbresp resp done, seen ++ [m] <+: msgs →
      Unpacks unpack pbresp m → IndexInv seen resp →
      ∃ decoded, riak2iResponseDecode unpack rop pbresp resp done heap = .ok (decoded, heap) ∧
        decoded.err = .ok := by
    intro seen m pbresp resp done hpre hframe hinv
    have hsofar := hgood.of_isPrefix hpre
    obtain ⟨decoded, hstep⟩ := riak2iResponseDecode_of_gatherable h rop done hframe hinv hsofar
    obtain ⟨_, _, hout⟩ := riak2iResponseDecode_eq_ok h hframe hinv hstep
    exact ⟨decoded, hstep, hout.noResults hsofar.noResults⟩
  exact decodeAll_total step progress hframes [] none done indexInv_none rfl

/-- **The keys of a query.** Without results, all keys arrive if and only if
    every message without keys comes after all messages with keys, and both the
    keys and the messages can be counted by an `int`. -/
theorem riak_2i_keys_complete_iff (h : heap.Ample)
    (hframes : List.Forall₂ (Unpacks unpack) pbresps msgs) (hlast : OnlyLastDone msgs)
    (hresults : ∀ m ∈ msgs, m.results = []) :
    KeysComplete unpack rop heap pbresps msgs done ↔
      Packed (msgs.map RpbIndexResp.keys) ∧ (allKeys msgs).length < 2 ^ 31 ∧
        msgs.length < 2 ^ 31 := by
  have hnil : allResults msgs = [] := allResults_eq_nil_iff.mpr hresults
  constructor
  · rintro ⟨results, final, response, hrun, hfinal, hcount, _⟩
    obtain ⟨response', hfinal', hassembled⟩ :=
      assembled_of_run h hframes hlast hrun (Or.inr hnil)
    rw [hfinal, Option.some.injEq] at hfinal'
    subst hfinal'
    obtain ⟨keys, hgather, _⟩ := hassembled.keys
    rw [hcount] at hgather
    have hfewKeys := hassembled.fewKeys
    rw [hcount] at hfewKeys
    exact ⟨packed_of_gather_flatten hgather, hfewKeys, hassembled.few⟩
  · rintro ⟨hpacked, hfewKeys, hfew⟩
    obtain ⟨results, hrun, _⟩ := run_of_gatherable h rop done hframes
      ⟨hfew, hfewKeys, hpacked, hnil⟩
    obtain ⟨response, hfinal, hassembled⟩ := assembled_of_run h hframes hlast hrun (Or.inr hnil)
    obtain ⟨hcount, hkeys⟩ := hassembled.allKeys_of_lt hfewKeys
    exact ⟨results, heap, response, hrun, hfinal, hcount, hkeys⟩

/-- What protobuf-c makes of some payloads: nothing, the key `a`, a result with
    the key `a`, the first two with the `done` flag. -/
def sampleIndexUnpack : Bytes → Option RpbIndexResp
  | [] => some {}
  | [0x0a, 1, 0x61] => some { keys := [[0x61]] }
  | [0x12, 3, 0x0a, 1, 0x61, 0x20, 1] =>
      some { results := [{ key := [0x61] }], hasDone := true, done := 1 }
  | [0x20, 1] => some { hasDone := true, done := 1 }
  | [0x0a, 1, 0x61, 0x20, 1] => some { keys := [[0x61]], hasDone := true, done := 1 }
  | _ => none

/-- A frame of type `MSG_RPBINDEXRESP`. -/
def indexFrame (payload : Bytes) : RiakPbMessage :=
  ⟨26, UInt32.ofNat (payload.length + 1), 26 :: payload⟩

/-- The usual query: a message with keys, then an empty one that is done. -/
theorem riak_2i_keys_complete_last_empty :
    KeysComplete sampleIndexUnpack ({} : RiakOperation Unit) Heap.fresh
      [indexFrame [0x0a, 1, 0x61], indexFrame [0x20, 1]]
      [{ keys := [[0x61]] }, { hasDone := true, done := 1 }] 0 := by
  refine (riak_2i_keys_complete_iff Heap.fresh_ample ?_ ?_ ?_).mpr ?_
  · exact .cons ⟨by decide, by decide, rfl⟩ (.cons ⟨by decide, by decide, rfl⟩ .nil)
  · exact ⟨[{ keys := [[0x61]] }], { hasDone := true, done := 1 }, rfl, by decide, by decide⟩
  · decide
  · exact ⟨by decide, by decide, by decide⟩

/-- An empty message before one with a key: the key is read out of bounds. -/
theorem riak_2i_keys_lost_after_empty :
    OnlyLastDone [{}, { keys := [[0x61]], hasDone := true, done := 1 }] ∧
      List.Forall₂ (Unpacks sampleIndexUnpack)
        [indexFrame [], indexFrame [0x0a, 1, 0x61, 0x20, 1]]
        [{}, { keys := [[0x61]], hasDone := true, done := 1 }] ∧
      decodeAll (riak2iResponseDecode sampleIndexUnpack ({} : RiakOperation Unit))
        [indexFrame [], indexFrame [0x0a, 1, 0x61, 0x20, 1]] none 0 Heap.fresh =
          .error .outOfBounds ∧
      ¬ KeysComplete sampleIndexUnpack ({} : RiakOperation Unit) Heap.fresh
        [indexFrame [], indexFrame [0x0a, 1, 0x61, 0x20, 1]]
        [{}, { keys := [[0x61]], hasDone := true, done := 1 }] 0 := by
  have hfault : decodeAll (riak2iResponseDecode sampleIndexUnpack ({} : RiakOperation Unit))
      [indexFrame [], indexFrame [0x0a, 1, 0x61, 0x20, 1]] none 0 Heap.fresh =
        .error .outOfBounds := rfl
  refine ⟨?_, ?_, hfault, ?_⟩
  · exact ⟨[{}], { keys := [[0x61]], hasDone := true, done := 1 }, rfl, by decide, by decide⟩
  · exact .cons ⟨by decide, by decide, rfl⟩ (.cons ⟨by decide, by decide, rfl⟩ .nil)
  · rintro ⟨results, final, response, hrun, _⟩
    rw [hfault] at hrun
    cases hrun

/-- **The results of a query.** Without keys, a query whose messages are all
    decoded without an error and whose response has all results is one that has
    no result at all. -/
theorem riak_2i_results_complete_iff (h : heap.Ample)
    (hframes : List.Forall₂ (Unpacks unpack) pbresps msgs) (hlast : OnlyLastDone msgs)
    (hkeys : ∀ m ∈ msgs, m.keys = []) :
    ResultsComplete unpack rop heap pbresps msgs done ↔
      (∀ m ∈ msgs, m.results = []) ∧ msgs.length < 2 ^ 31 := by
  have hnokeys : allKeys msgs = [] := by
    unfold allKeys
    rw [List.flatten_eq_nil_iff]
    exact List.forall_mem_map.mpr hkeys
  constructor
  · rintro ⟨results, final, response, hrun, hok, hfinal, hcount, _⟩
    obtain ⟨response', hfinal', hassembled⟩ := assembled_of_run h hframes hlast hrun (Or.inl hok)
    rw [hfinal, Option.some.injEq] at hfinal'
    subst hfinal'
    rcases hassembled.results with ⟨hzero, _, _⟩ | ⟨_, herr⟩
    · rw [hcount] at hzero
      exact ⟨allResults_eq_nil_iff.mp (List.length_eq_zero_iff.mp hzero), hassembled.few⟩
    · cases herr
  · rintro ⟨hresults, hfew⟩
    have hnil : allResults msgs = [] := allResults_eq_nil_iff.mpr hresults
    obtain ⟨results, hrun, hok⟩ := run_of_gatherable h rop done hframes
      ⟨hfew, by rw [hnokeys]; exact Nat.two_pow_pos 31, packed_of_flatten_eq_nil hnokeys, hnil⟩
    obtain ⟨response, hfinal, hassembled⟩ := assembled_of_run h hframes hlast hrun (Or.inl hok)
    rcases hassembled.results with ⟨hzero, _, hempty⟩ | ⟨_, herr⟩
    · refine ⟨results, heap, response, hrun, hok, hfinal, ?_, ?_⟩
      · rw [hzero, hnil]; rfl
      · rw [hempty, hnil]; rfl
    · cases herr

/-- A query without any result. -/
theorem riak_2i_results_complete_none :
    ResultsComplete sampleIndexUnpack ({} : RiakOperation Unit) Heap.fresh
      [indexFrame [0x20, 1]] [{ hasDone := true, done := 1 }] 0 := by
  refine (riak_2i_results_complete_iff Heap.fresh_ample ?_ ?_ ?_).mpr ?_
  · exact .cons ⟨by decide, by decide, rfl⟩ .nil
  · exact ⟨[], { hasDone := true, done := 1 }, rfl, by decide, by decide⟩
  · decide
  · exact ⟨by decide, by decide⟩

/-- A query with one result reports that it is out of memory. -/
theorem riak_2i_results_refused :
    OnlyLastDone [{ results := [{ key := [0x61] }], hasDone := true, done := 1 }] ∧
      List.Forall₂ (Unpacks sampleIndexUnpack) [indexFrame [0x12, 3, 0x0a, 1, 0x61, 0x20, 1]]
        [{ results := [{ key := [0x61] }], hasDone := true, done := 1 }] ∧
      decodeAll (riak2iResponseDecode sampleIndexUnpack ({} : RiakOperation Unit))
        [indexFrame [0x12, 3, 0x0a, 1, 0x61, 0x20, 1]] none 0 Heap.fresh =
          .ok ([⟨.outOfMemory, none, 1⟩], Heap.fresh) ∧
      ¬ ResultsComplete sampleIndexUnpack ({} : RiakOperation Unit) Heap.fresh
        [indexFrame [0x12, 3, 0x0a, 1, 0x61, 0x20, 1]]
        [{ results := [{ key := [0x61] }], hasDone := true, done := 1 }] 0 := by
  have hrefused : decodeAll (riak2iResponseDecode sampleIndexUnpack ({} : RiakOperation Unit))
      [indexFrame [0x12, 3, 0x0a, 1, 0x61, 0x20, 1]] none 0 Heap.fresh =
        .ok ([⟨.outOfMemory, none, 1⟩], Heap.fresh) := rfl
  refine ⟨?_, ?_, hrefused, ?_⟩
  · exact ⟨[], { results := [{ key := [0x61] }], hasDone := true, done := 1 }, rfl,
      by decide, by decide⟩
  · exact .cons ⟨by decide, by decide, rfl⟩ .nil
  · rintro ⟨results, final, response, hrun, hok, _⟩
    rw [hrefused, Except.ok.injEq, Prod.mk.injEq] at hrun
    obtain ⟨rfl, rfl⟩ := hrun
    have herr := hok ⟨.outOfMemory, none, 1⟩ (List.mem_singleton_self _)
    cases herr

end Query

end RiakClient
