import RiakClient.StreamCalls

/-!
# 2i responses that stay sound

The array of keys and the array of results are built anew whenever a response is
flattened, and their counts are set before they are filled. An error in between
does no harm to a first message, whose response is dropped; a response that was
handed out before keeps what the error left in it.

What the assembly does is again an inductive type with a constructor for each way out
(`Flattening`), and a call is looked at twice: a first message is kept only if
everything about it is fine, and a later one has to leave its response sound even
where it reports an error.
-/

namespace RiakClient

open CSem ChunkCursor

variable {ρ μ : Type} {heap final : Heap}

/-! ### What a call needs -/

/-- The messages that a response holds. -/
def RawMessages.messages (raw : RawMessages μ) : List μ :=
  match raw.internal with
  | .obj slots => (slots.take raw.nResponses.toNat).filterMap fun
      | .obj m => some m
      | _ => none
  | _ => []

theorem RawMessages.Sound.messages {raw : RawMessages μ} {seen : List μ} (h : raw.Sound seen) :
    raw.messages = seen := by
  unfold RawMessages.messages
  rw [h.holds.slots h.some, h.holds.count]
  show ((seen.map Ptr.obj).take seen.length).filterMap _ = seen
  rw [List.take_of_length_le (Nat.le_of_eq (List.length_map _)), List.filterMap_map]
  exact List.filterMap_some

/-- The totals of the messages, as far as a `riak_uint32_t` holds them. -/
def totalKeys (msgs : List RpbIndexResp) : UInt32 := UInt32.ofNat (allKeys msgs).length

def totalResults (msgs : List RpbIndexResp) : UInt32 := UInt32.ofNat (allResults msgs).length

/-- Whether `riak_pairs_copy_from_pb` is refused an allocation. -/
def pairRefused (pair : RpbPair) (heap : Heap) : Bool :=
  !heap.answer 0 || !heap.answer 1 || (pair.hasValue && !heap.answer 2)

/-- The number of allocations that it asks for. -/
def pairRequests (pair : RpbPair) (heap : Heap) : Nat :=
  if heap.answer 0 then if heap.answer 1 && pair.hasValue then 3 else 2 else 1

/-- Whether every pair that the loop over the results gets to is refused one. -/
def resultsRefused (msgs : List RpbIndexResp) : Nat → Nat × Nat → Heap → Bool
  | 0, _, _ => true
  | left + 1, (chunk, j), heap =>
      match msgs[chunk]? with
      | none => true
      | some m =>
          match m.results[j]? with
          | none => true
          | some pair =>
              pairRefused pair heap &&
                resultsRefused msgs left (advance m.keys.length chunk j)
                  (heap.after (pairRequests pair heap))

/-- What a first message needs that is flattened at once: it leaves NULL if any
    request up to its results is refused, or if it has any result that can be
    copied. -/
def FirstFlattens (m : RpbIndexResp) (heap : Heap) : Prop :=
  (∃ k < 4 + (totalKeys [m]).toNat, heap.answer k = false) ∨ totalResults [m] = 0 ∨
    resultsRefused [m] (totalResults [m]).toNat (0, 0)
      (heap.after (4 + (totalKeys [m]).toNat)) = false

/-- What a response needs that is flattened again: nothing is refused, unless that
    does no harm, and there are no results. -/
def LaterFlattens (msgs : List RpbIndexResp) (nKeys : UInt32) (heap : Heap) : Prop :=
  heap.answer 1 = false ∧ nKeys = 0 ∨
    heap.answer 1 = true ∧ heap.answer 2 = false ∧ (totalKeys msgs).toNat < 2 ^ 31 ∨
    heap.answer 1 = true ∧ heap.answer 2 = true ∧
      (∀ k < (totalKeys msgs).toNat, heap.answer (3 + k) = true) ∧ totalResults msgs = 0

/-- What a 2i response needs of a call. -/
def IndexAllowed (unpack : Bytes → Option RpbIndexResp) (rop : RiakOperation ρ)
    (resp : Option Riak2iResponse) (call : DecodeCall) : Prop :=
  ∀ m, call.message unpack = some m →
    (resp = none → (rop.streaming ∨ doneFlag m.hasDone m.done ≠ 0) → FirstFlattens m call.heap) ∧
      ∀ response, resp = some response →
        call.heap.answer 0 = false ∨ response.raw.nResponses.toNat + 1 < 2 ^ 31 ∧
          ((rop.streaming ∨ doneFlag m.hasDone m.done ≠ 0) →
            LaterFlattens (response.raw.messages ++ [m]) response.nKeys call.heap)

/-! ### Flattening

The loop over the keys stops where a copy is refused. The loop over the results goes
on exactly there, and so gets to its end only if no pair could be copied. -/

theorem flattenLoop_keys_cases {internal : List (Ptr RpbIndexResp)} :
    ∀ (left i : Nat) (cursor : Nat × Nat) (slots : Option (List (Ptr RiakBinary)))
      (heap final : Heap),
    flattenLoop internal copyKeySlot left i cursor heap = .ok (slots, final) →
    (slots = none ∧ ∃ k < left, heap.answer k = false) ∨
      ∃ keys, slots = some keys ∧ keys.length = left ∧ .wild ∉ keys ∧
        (left = 0 ∨ i + left < 2 ^ 31) ∧ (∀ k < left, heap.answer k = true) ∧
        final = heap.after left := by
  intro left
  induction left with
  | zero =>
    rintro i ⟨chunk, j⟩ slots heap final h
    simp only [flattenLoop, C.pure_apply, Except.ok.injEq, Prod.mk.injEq] at h
    obtain ⟨rfl, rfl⟩ := h
    refine Or.inr ⟨[], rfl, rfl, List.not_mem_nil, Or.inl rfl, ?_, rfl⟩
    intro k hk
    cases hk
  | succ left ih =>
    rintro i ⟨chunk, j⟩ slots heap final h
    obtain ⟨cell, heap₁, hread, h₁⟩ := C.bind_eq_ok.mp h
    obtain ⟨_, rfl⟩ := C.readAt_eq_ok.mp hread
    obtain ⟨m, heap₂, hm, h₂⟩ := C.bind_eq_ok.mp h₁
    obtain ⟨_, rfl⟩ := Ptr.deref_eq_ok.mp hm
    obtain ⟨slot, heap₃, hslot, h₃⟩ := C.bind_eq_ok.mp h₂
    obtain ⟨key, heap₄, hkey, hcopy⟩ := C.bind_eq_ok.mp hslot
    obtain ⟨_, rfl⟩ := C.readAt_eq_ok.mp hkey
    unfold riakBinaryCopyFromPb at hcopy
    rw [C.bind_of_ok (C.new_eq _ _)] at hcopy
    cases hanswer : heap₄.answer 0 with
    | false =>
      simp only [hanswer, Bool.false_eq_true, if_false, C.pure_apply, Except.ok.injEq,
        Prod.mk.injEq] at hcopy
      obtain ⟨rfl, rfl⟩ := hcopy
      simp only [C.pure_apply, Except.ok.injEq, Prod.mk.injEq] at h₃
      exact Or.inl ⟨h₃.1.symm, 0, Nat.succ_pos left, hanswer⟩
    | true =>
      simp only [hanswer, if_true, C.pure_apply, Except.ok.injEq, Prod.mk.injEq] at hcopy
      obtain ⟨rfl, rfl⟩ := hcopy
      obtain ⟨j', heap₅, hj, h₄⟩ := C.bind_eq_ok.mp h₃
      obtain ⟨_, rfl, rfl⟩ := C.intSucc_eq_ok.mp hj
      obtain ⟨next, heap₆, hnext, h₅⟩ := C.bind_eq_ok.mp h₄
      obtain ⟨_, rfl⟩ := moveCursor_eq_ok hnext
      obtain ⟨i', heap₇, hi, h₆⟩ := C.bind_eq_ok.mp h₅
      obtain ⟨hint, rfl, rfl⟩ := C.intSucc_eq_ok.mp hi
      obtain ⟨later, heap₈, hlater, hlast⟩ := C.bind_eq_ok.mp h₆
      rcases ih (i + 1) next later _ _ hlater with ⟨rfl, k, hk, hrefused⟩ |
        ⟨keys, rfl, hlength, hset, hbound, hgranted, rfl⟩
      · simp only [C.pure_apply, Except.ok.injEq, Prod.mk.injEq] at hlast
        rw [Heap.answer_after] at hrefused
        exact Or.inl ⟨hlast.1.symm, 1 + k, by omega, hrefused⟩
      · obtain ⟨rfl, rfl⟩ := C.pure_eq_ok.mp hlast
        refine Or.inr ⟨_, rfl, by rw [List.length_cons, hlength], ?_, Or.inr (by omega), ?_, ?_⟩
        · intro hmem
          rcases List.mem_cons.mp hmem with habsurd | hmem
          · cases habsurd
          · exact hset hmem
        · intro k hk
          cases k with
          | zero => exact hanswer
          | succ k =>
            have hlaterk := hgranted k (by omega)
            rw [Heap.answer_after] at hlaterk
            rw [Nat.add_comm]
            exact hlaterk
        · rw [Heap.after_after, Nat.add_comm]

theorem riakPairsCopyFromPb_eq_ok {pair : RpbPair} {copied : RiakError × Option RiakPair}
    (h : riakPairsCopyFromPb pair heap = .ok (copied, final)) (herr : copied.1 ≠ .ok) :
    pairRefused pair heap = true ∧ final = heap.after (pairRequests pair heap) := by
  unfold riakPairsCopyFromPb at h
  unfold pairRefused pairRequests
  rw [C.bind_of_ok (C.allocate_eq heap)] at h
  cases hpair : heap.answer 0 with
  | false =>
    simp only [hpair, Bool.false_eq_true, if_false, C.pure_apply, Except.ok.injEq,
      Prod.mk.injEq] at h
    exact ⟨rfl, h.2.symm⟩
  | true =>
    simp only [hpair, if_true] at h
    unfold riakBinaryCopyFromPb at h
    rw [C.bind_of_ok (C.new_eq _ _), Heap.answer_after] at h
    cases hkey : heap.answer 1 with
    | false =>
      simp only [hkey, Bool.false_eq_true, if_false, C.pure_apply, Except.ok.injEq,
        Prod.mk.injEq, Heap.after_after] at h
      exact ⟨rfl, h.2.symm⟩
    | true =>
      simp only [hkey, if_true] at h
      cases hvalue : pair.hasValue with
      | false =>
        simp only [hvalue, Bool.false_eq_true, if_false, C.pure_apply, Except.ok.injEq,
          Prod.mk.injEq] at h
        rw [← h.1] at herr
        exact absurd rfl herr
      | true =>
        simp only [hvalue, if_true] at h
        rw [C.bind_of_ok (C.new_eq _ _), Heap.after_after, Heap.answer_after] at h
        cases hlast : heap.answer 2 with
        | false =>
          simp only [hlast, Bool.false_eq_true, if_false, C.pure_apply, Except.ok.injEq,
            Prod.mk.injEq, Heap.after_after] at h
          exact ⟨rfl, h.2.symm⟩
        | true =>
          simp only [hlast, if_true, C.pure_apply, Except.ok.injEq, Prod.mk.injEq] at h
          rw [← h.1] at herr
          exact absurd rfl herr

theorem flattenLoop_results_cases {msgs : List RpbIndexResp} :
    ∀ (left i : Nat) (cursor : Nat × Nat) (slots : Option (List (Ptr RiakPair)))
      (heap final : Heap),
    flattenLoop (msgs.map .obj) copyResultSlot left i cursor heap = .ok (slots, final) →
    (slots = none ∧ left ≠ 0) ∨
      ∃ results, slots = some results ∧ results.length = left ∧
        resultsRefused msgs left cursor heap = true := by
  intro left
  induction left with
  | zero =>
    rintro i ⟨chunk, j⟩ slots heap final h
    simp only [flattenLoop, C.pure_apply, Except.ok.injEq, Prod.mk.injEq] at h
    obtain ⟨rfl, rfl⟩ := h
    exact Or.inr ⟨[], rfl, rfl, rfl⟩
  | succ left ih =>
    rintro i ⟨chunk, j⟩ slots heap final h
    obtain ⟨cell, heap₁, hread, h₁⟩ := C.bind_eq_ok.mp h
    obtain ⟨hcell, rfl⟩ := C.readAt_eq_ok.mp hread
    obtain ⟨m, hget, rfl⟩ := getElem?_map_obj hcell
    rw [Ptr.deref_obj, pure_bind] at h₁
    obtain ⟨slot, heap₂, hslot, h₂⟩ := C.bind_eq_ok.mp h₁
    obtain ⟨pair, heap₃, hpair, hcopy⟩ := C.bind_eq_ok.mp hslot
    obtain ⟨hentry, rfl⟩ := C.readAt_eq_ok.mp hpair
    obtain ⟨copied, heap₄, hcopied, hstored⟩ := C.bind_eq_ok.mp hcopy
    by_cases herr : copied.1 = .ok
    · rw [if_pos herr] at hstored
      obtain ⟨rfl, rfl⟩ := C.pure_eq_ok.mp hstored
      simp only [C.pure_apply, Except.ok.injEq, Prod.mk.injEq] at h₂
      exact Or.inl ⟨h₂.1.symm, Nat.succ_ne_zero left⟩
    · rw [if_neg herr] at hstored
      obtain ⟨rfl, rfl⟩ := C.pure_eq_ok.mp hstored
      obtain ⟨hrefused, rfl⟩ := riakPairsCopyFromPb_eq_ok hcopied herr
      obtain ⟨j', heap₅, hj, h₃⟩ := C.bind_eq_ok.mp h₂
      obtain ⟨_, rfl, rfl⟩ := C.intSucc_eq_ok.mp hj
      obtain ⟨next, heap₆, hnext, h₄⟩ := C.bind_eq_ok.mp h₃
      obtain ⟨rfl, rfl⟩ := moveCursor_eq_ok hnext
      obtain ⟨i', heap₇, hi, h₅⟩ := C.bind_eq_ok.mp h₄
      obtain ⟨_, rfl, rfl⟩ := C.intSucc_eq_ok.mp hi
      obtain ⟨later, heap₈, hlater, hlast⟩ := C.bind_eq_ok.mp h₅
      rcases ih (i + 1) _ later _ _ hlater with ⟨rfl, _⟩ | ⟨results, rfl, hlength, hall⟩
      · simp only [C.pure_apply, Except.ok.injEq, Prod.mk.injEq] at hlast
        exact Or.inl ⟨hlast.1.symm, Nat.succ_ne_zero left⟩
      · simp only [C.pure_apply, Except.ok.injEq, Prod.mk.injEq] at hlast
        refine Or.inr ⟨_, hlast.1.symm, by rw [List.length_cons, hlength], ?_⟩
        simp only [resultsRefused, hget, hentry, hrefused, hall, Bool.and_self]

/-- What the assembly has done to a response when it comes back. -/
inductive Flattening (msgs : List RpbIndexResp) (heap : Heap) (response : Riak2iResponse) :
    RiakError → Riak2iResponse → Prop
  | noKeys (hkeys : heap.answer 0 = false) :
      Flattening msgs heap response .outOfMemory { response with keys := .null }
  | noResults (hkeys : heap.answer 0 = true) (hresults : heap.answer 1 = false) :
      Flattening msgs heap response .outOfMemory { response with
        nKeys := totalKeys msgs, keys := .obj (List.replicate (totalKeys msgs).toNat .null)
        results := .null }
  | keyRefused (left : Riak2iResponse) (k : Nat) (hk : k < (totalKeys msgs).toNat)
      (hkeys : heap.answer 0 = true) (hresults : heap.answer 1 = true)
      (hrefused : heap.answer (2 + k) = false) :
      Flattening msgs heap response .outOfMemory left
  | pairCopied (left : Riak2iResponse) (hkeys : heap.answer 0 = true)
      (hresults : heap.answer 1 = true)
      (hgranted : ∀ k < (totalKeys msgs).toNat, heap.answer (2 + k) = true)
      (hsome : totalResults msgs ≠ 0) : Flattening msgs heap response .outOfMemory left
  | whole (keys : List (Ptr RiakBinary)) (results : List (Ptr RiakPair))
      (hkeys : heap.answer 0 = true) (hresults : heap.answer 1 = true)
      (hgranted : ∀ k < (totalKeys msgs).toNat, heap.answer (2 + k) = true)
      (hlength : keys.length = (totalKeys msgs).toNat) (hset : .wild ∉ keys)
      (hfew : (totalKeys msgs).toNat < 2 ^ 31)
      (hrefused : resultsRefused msgs (totalResults msgs).toNat (0, 0)
        (heap.after (2 + (totalKeys msgs).toNat)) = true) :
      Flattening msgs heap response .ok { response with
        nKeys := totalKeys msgs, keys := .obj keys
        nResults := totalResults msgs, results := .obj results }

theorem riak2iAssemble_cases {response response' : Riak2iResponse} {msgs : List RpbIndexResp}
    {err : RiakError} (hraw : response.raw.Holds msgs) (hne : msgs ≠ [])
    (hrun : riak2iAssemble response heap = .ok ((err, response'), final)) :
    msgs.length < 2 ^ 31 ∧ Flattening msgs heap response err response' := by
  unfold riak2iAssemble at hrun
  rw [hraw.slots hne, Ptr.deref_obj, pure_bind, hraw.count] at hrun
  obtain ⟨totals, heap₁, hsum, hrun₁⟩ := C.bind_eq_ok.mp hrun
  have hfew : msgs.length < 2 ^ 31 := by
    have hpositive := List.length_pos_iff.mpr hne
    rcases sumLoop_bound _ _ _ _ _ _ hsum with hzero | hbound <;> omega
  refine ⟨hfew, ?_⟩
  rw [sumLoop_all hfew, C.pure_apply, Except.ok.injEq, Prod.mk.injEq] at hsum
  obtain ⟨rfl, rfl⟩ := hsum
  simp only at hrun₁
  rw [C.bind_of_ok (C.allocate_eq heap)] at hrun₁
  cases hkeys : heap.answer 0 with
  | false =>
    simp only [hkeys, Bool.false_eq_true, if_false, C.pure_apply, Except.ok.injEq,
      Prod.mk.injEq] at hrun₁
    obtain ⟨⟨rfl, rfl⟩, _⟩ := hrun₁
    exact .noKeys hkeys
  | true =>
    simp only [hkeys, if_true] at hrun₁
    rw [C.bind_of_ok (C.allocate_eq _), Heap.answer_after, Heap.after_after] at hrun₁
    cases hresults : heap.answer 1 with
    | false =>
      simp only [hresults, Bool.false_eq_true, if_false, C.pure_apply, Except.ok.injEq,
        Prod.mk.injEq] at hrun₁
      obtain ⟨⟨rfl, rfl⟩, _⟩ := hrun₁
      exact .noResults hkeys hresults
    | true =>
      simp only [hresults, if_true] at hrun₁
      obtain ⟨keySlots, heap₂, hcopies, hrun₂⟩ := C.bind_eq_ok.mp hrun₁
      rcases flattenLoop_keys_cases _ _ _ _ _ _ hcopies with ⟨rfl, k, hk, hrefused⟩ |
        ⟨keys, rfl, hlength, hset, hbound, hgranted, rfl⟩
      · simp only [C.pure_apply, Except.ok.injEq, Prod.mk.injEq] at hrun₂
        obtain ⟨⟨rfl, rfl⟩, _⟩ := hrun₂
        rw [Heap.answer_after] at hrefused
        exact .keyRefused _ k hk hkeys hresults hrefused
      · have hall : ∀ k < (totalKeys msgs).toNat, heap.answer (2 + k) = true := by
          intro k hk
          have hlater := hgranted k hk
          rw [Heap.answer_after] at hlater
          exact hlater
        obtain ⟨resultSlots, heap₃, hpairs, hrun₃⟩ := C.bind_eq_ok.mp hrun₂
        rcases flattenLoop_results_cases _ _ _ _ _ _ hpairs with ⟨rfl, hsome⟩ |
          ⟨results, rfl, _, hrefused⟩
        · simp only [C.pure_apply, Except.ok.injEq, Prod.mk.injEq] at hrun₃
          obtain ⟨⟨rfl, rfl⟩, _⟩ := hrun₃
          refine .pairCopied _ hkeys hresults hall ?_
          intro hzero
          exact hsome (by rw [show UInt32.ofNat (allResults msgs).length = 0 from hzero]; rfl)
        · simp only [C.pure_apply, Except.ok.injEq, Prod.mk.injEq] at hrun₃
          obtain ⟨⟨rfl, rfl⟩, _⟩ := hrun₃
          rw [Heap.after_after] at hrefused
          refine .whole keys results hkeys hresults hall hlength hset ?_ hrefused
          show (UInt32.ofNat (allKeys msgs).length).toNat < 2 ^ 31
          omega

/-! ### One message

The trailer, and a message that is only kept, leave the arrays and their counts alone.
What `LaterFlattens` asks for is taken apart: the array of keys may be refused only
where there were none, the array of results only where the keys can be counted, and with
both arrays no key may be refused and there may not be any result. -/

theorem riak2iTrailer_eq_ok {response response' : Riak2iResponse}
    (h : riak2iTrailer response heap = .ok (response', final)) :
    response'.nKeys = response.nKeys ∧ response'.keys = response.keys ∧
      response'.nResults = response.nResults ∧ response'.results = response.results ∧
      response'.raw = response.raw := by
  obtain ⟨internal, heap₁, _, h₁⟩ := C.bind_eq_ok.mp h
  obtain ⟨cell, heap₂, _, h₂⟩ := C.bind_eq_ok.mp h₁
  obtain ⟨last, heap₃, _, h₃⟩ := C.bind_eq_ok.mp h₂
  obtain ⟨continuation, heap₄, _, h₄⟩ := C.bind_eq_ok.mp h₃
  obtain ⟨rfl, _⟩ := C.pure_eq_ok.mp h₄
  exact ⟨rfl, rfl, rfl, rfl, rfl⟩

theorem Riak2iResponse.Sound.trailer {response response' : Riak2iResponse}
    {seen : List RpbIndexResp} (h : response.Sound seen)
    (htrailer : riak2iTrailer response heap = .ok (response', final)) : response'.Sound seen := by
  obtain ⟨hnKeys, hkeys, hnResults, hresults, hraw⟩ := riak2iTrailer_eq_ok htrailer
  refine ⟨?_, ?_, ?_, ?_, ?_, ?_⟩
  · rw [hnKeys, hkeys]
    exact h.keys
  · rw [hkeys]
    exact h.keysSet
  · rw [hnKeys]
    exact h.few
  · rw [hnResults]
    exact h.nResults
  · rw [hresults]
    exact h.resultsSet
  · rw [hraw]
    exact h.raw

theorem Riak2iResponse.Sound.withRaw {response : Riak2iResponse} {seen msgs : List RpbIndexResp}
    (h : response.Sound seen) {raw : RawMessages RpbIndexResp} (hraw : raw.Sound msgs) :
    Riak2iResponse.Sound { response with raw := raw } msgs :=
  ⟨h.keys, h.keysSet, h.few, h.nResults, h.resultsSet, hraw⟩

theorem initialised_zero {array : Ptr (List (Ptr RiakBinary))} : Initialised 0 array := by
  rintro i ⟨⟩

theorem riak2iResponse_whole_sound {msgs : List RpbIndexResp} {response : Riak2iResponse}
    (hraw : response.raw.Sound msgs) (hnone : totalResults msgs = 0)
    {keys : List (Ptr RiakBinary)} {results : List (Ptr RiakPair)}
    (hlength : keys.length = (totalKeys msgs).toNat) (hset : .wild ∉ keys)
    (hfew : (totalKeys msgs).toNat < 2 ^ 31) :
    Riak2iResponse.Sound { response with
      nKeys := totalKeys msgs, keys := .obj keys
      nResults := totalResults msgs, results := .obj results } msgs where
  keys := initialised_of_length hlength hset
  keysSet := by rintro ⟨⟩
  few := hfew
  nResults := hnone
  resultsSet := by rintro ⟨⟩
  raw := hraw

theorem LaterFlattens.noKeys {msgs : List RpbIndexResp} {nKeys : UInt32}
    (h : LaterFlattens msgs nKeys heap) (hkeys : heap.answer 1 = false) : nKeys = 0 := by
  rcases h with ⟨_, hnone⟩ | ⟨habsurd, _⟩ | ⟨habsurd, _⟩
  · exact hnone
  · rw [hkeys] at habsurd
    cases habsurd
  · rw [hkeys] at habsurd
    cases habsurd

theorem LaterFlattens.noResults {msgs : List RpbIndexResp} {nKeys : UInt32}
    (h : LaterFlattens msgs nKeys heap) (hkeys : heap.answer 1 = true)
    (hresults : heap.answer 2 = false) : (totalKeys msgs).toNat < 2 ^ 31 := by
  rcases h with ⟨habsurd, _⟩ | ⟨_, _, hfew⟩ | ⟨_, habsurd, _⟩
  · rw [hkeys] at habsurd
    cases habsurd
  · exact hfew
  · rw [hresults] at habsurd
    cases habsurd

theorem LaterFlattens.whole {msgs : List RpbIndexResp} {nKeys : UInt32}
    (h : LaterFlattens msgs nKeys heap) (hkeys : heap.answer 1 = true)
    (hresults : heap.answer 2 = true) :
    (∀ k < (totalKeys msgs).toNat, heap.answer (3 + k) = true) ∧ totalResults msgs = 0 := by
  rcases h with ⟨habsurd, _⟩ | ⟨_, habsurd, _⟩ | ⟨_, _, hwhole⟩
  · rw [hkeys] at habsurd
    cases habsurd
  · rw [hresults] at habsurd
    cases habsurd
  · exact hwhole

/-- A response that was there before is sound after the assembly, whether it
    reports an error or not. -/
theorem Flattening.later {msgs : List RpbIndexResp} {response response' before : Riak2iResponse}
    {err : RiakError} {seen : List RpbIndexResp}
    (h : Flattening msgs (heap.after 1) response err response')
    (hallowed : LaterFlattens msgs before.nKeys heap) (hraw : response.raw.Sound msgs)
    (hold : before.Sound seen) (hsame : response = { before with raw := response.raw }) :
    response'.Sound msgs := by
  have hnKeys : response.nKeys = before.nKeys := by rw [hsame]
  have hnResults : response.nResults = 0 := by
    rw [hsame]
    exact hold.nResults
  have hresultsSet : response.results ≠ .wild := by
    rw [hsame]
    exact hold.resultsSet
  cases h with
  | noKeys hkeys =>
    rw [Heap.answer_after] at hkeys
    have hnone := hallowed.noKeys hkeys
    rw [← hnKeys] at hnone
    refine ⟨?_, ?_, ?_, hnResults, hresultsSet, hraw⟩
    · show Initialised response.nKeys .null
      rw [hnone]
      exact initialised_zero
    · rintro ⟨⟩
    · show response.nKeys.toNat < 2 ^ 31
      rw [hnone]
      decide
  | noResults hkeys hresults =>
    rw [Heap.answer_after] at hkeys hresults
    have hfew := hallowed.noResults hkeys hresults
    refine ⟨initialised_of_length List.length_replicate ?_, ?_, hfew, hnResults, ?_, hraw⟩
    · intro hmem
      cases List.eq_of_mem_replicate hmem
    · rintro ⟨⟩
    · rintro ⟨⟩
  | keyRefused left k hk hkeys hresults hrefused =>
    rw [Heap.answer_after] at hkeys hresults hrefused
    obtain ⟨hgranted, _⟩ := hallowed.whole hkeys hresults
    rw [← Nat.add_assoc, hgranted k hk] at hrefused
    cases hrefused
  | pairCopied left hkeys hresults hgranted hsome =>
    rw [Heap.answer_after] at hkeys hresults
    exact absurd (hallowed.whole hkeys hresults).2 hsome
  | whole keys results hkeys hresults hgranted hlength hset hfew hrefused =>
    rw [Heap.answer_after] at hkeys hresults
    exact riak2iResponse_whole_sound hraw (hallowed.whole hkeys hresults).2 hlength hset hfew

theorem Flattening.first {m : RpbIndexResp} {response response' : Riak2iResponse}
    (h : Flattening [m] (heap.after 2) response .ok response') (hfirst : heap.answer 0 = true)
    (hsecond : heap.answer 1 = true) (hallowed : FirstFlattens m heap)
    (hraw : response.raw.Sound [m]) : response'.Sound [m] := by
  cases h with
  | whole keys results hkeys hresults hgranted hlength hset hfew hrefused =>
    rw [Heap.answer_after] at hkeys hresults
    rw [Heap.after_after, ← Nat.add_assoc] at hrefused
    have hnone : totalResults [m] = 0 := by
      rcases hallowed with ⟨k, hk, hrefusedk⟩ | hnone | hcopied
      · have hgrantedk : heap.answer k = true := by
          rcases k with _ | _ | _ | _ | k
          · exact hfirst
          · exact hsecond
          · exact hkeys
          · exact hresults
          · have hlater := hgranted k (by omega)
            rw [Heap.answer_after] at hlater
            rw [show k + 1 + 1 + 1 + 1 = 2 + (2 + k) by omega]
            exact hlater
        rw [hgrantedk] at hrefusedk
        cases hrefusedk
      · exact hnone
      · rw [show 2 + 2 = 4 from rfl, hcopied] at hrefused
        cases hrefused
    exact riak2iResponse_whole_sound hraw hnone hlength hset hfew

/-- Assembled or not, a first message leaves a sound response where there is no
    error. -/
theorem riak2iAssembleIf_first {m : RpbIndexResp} {raw : RawMessages RpbIndexResp}
    {response : Riak2iResponse} {wanted : Prop} [Decidable wanted] (hfirst : heap.answer 0 = true)
    (hsecond : heap.answer 1 = true) (hallowed : wanted → FirstFlattens m heap)
    (hraw : raw.Sound [m])
    (hrun : riak2iAssembleIf wanted { ({} : Riak2iResponse) with raw := raw } (heap.after 2) =
      .ok ((.ok, response), final)) :
    response.Sound [m] := by
  unfold riak2iAssembleIf at hrun
  by_cases hwanted : wanted
  · rw [if_pos hwanted] at hrun
    obtain ⟨_, hflat⟩ := riak2iAssemble_cases hraw.holds hraw.some hrun
    exact hflat.first hfirst hsecond (hallowed hwanted) hraw
  · rw [if_neg hwanted] at hrun
    obtain ⟨hsame, _⟩ := C.pure_eq_ok.mp hrun
    cases hsame
    refine ⟨initialised_zero, by rintro ⟨⟩, ?_, rfl, by rintro ⟨⟩, hraw⟩
    show (0 : UInt32).toNat < 2 ^ 31
    decide

theorem Riak2iResponse.Sound.assembleIf {before response : Riak2iResponse} {err : RiakError}
    {seen msgs : List RpbIndexResp} {raw : RawMessages RpbIndexResp} {wanted : Prop}
    [Decidable wanted] (hold : before.Sound seen) (hraw : raw.Sound msgs)
    (hallowed : wanted → LaterFlattens msgs before.nKeys heap)
    (hrun : riak2iAssembleIf wanted { before with raw := raw } (heap.after 1) =
      .ok ((err, response), final)) :
    response.Sound msgs := by
  unfold riak2iAssembleIf at hrun
  by_cases hwanted : wanted
  · rw [if_pos hwanted] at hrun
    obtain ⟨_, hflat⟩ := riak2iAssemble_cases hraw.holds hraw.some hrun
    exact hflat.later (hallowed hwanted) hraw hold rfl
  · rw [if_neg hwanted] at hrun
    obtain ⟨hsame, _⟩ := C.pure_eq_ok.mp hrun
    cases hsame
    exact hold.withRaw hraw

theorem riak2i_finish {resp : Option Riak2iResponse} {response : Riak2iResponse} {err : RiakError}
    {done : RiakBoolean} {decoded : Decoded Riak2iResponse} (seen : List RpbIndexResp)
    (hok : err = .ok → response.Sound seen)
    (herr : err ≠ .ok → ∀ before, resp = some before → response.Sound seen)
    (hrun : (if err = .ok then do
        pure ⟨.ok, some (← riak2iTrailer response), done⟩
      else pure ⟨err, leftIn resp response, done⟩ : C (Decoded Riak2iResponse)) heap =
        .ok (decoded, final)) :
    SoundOrNull Riak2iResponse.Sound decoded.resp := by
  by_cases hgood : err = .ok
  · rw [if_pos hgood] at hrun
    obtain ⟨response', heap₁, htrailer, hrun₁⟩ := C.bind_eq_ok.mp hrun
    obtain ⟨rfl, _⟩ := C.pure_eq_ok.mp hrun₁
    exact soundOrNull_some ((hok hgood).trailer htrailer)
  · rw [if_neg hgood] at hrun
    obtain ⟨rfl, _⟩ := C.pure_eq_ok.mp hrun
    apply soundOrNull_leftIn
    intro before hbefore
    exact ⟨seen, herr hgood before hbefore⟩

/-- **A call that is allowed** leaves a sound 2i response, or NULL. -/
theorem riak2iResponseDecode_sound {unpack : Bytes → Option RpbIndexResp} {rop : RiakOperation ρ}
    {resp : Option Riak2iResponse} {call : DecodeCall} {decoded : Decoded Riak2iResponse}
    (hsound : SoundOrNull Riak2iResponse.Sound resp) (hallowed : IndexAllowed unpack rop resp call)
    (hrun : riak2iResponseDecode unpack rop call.pbresp resp call.done call.heap =
      .ok (decoded, final)) :
    SoundOrNull Riak2iResponse.Sound decoded.resp := by
  obtain ⟨bytes, heap₁, hpayload, hrun₁⟩ := C.bind_eq_ok.mp hrun
  obtain ⟨rfl, rfl⟩ := payload_eq_ok hpayload
  cases hm : unpack ((call.pbresp.data.take call.pbresp.len.toNat).drop 1) with
  | none =>
    simp only [hm, C.pure_apply, Except.ok.injEq, Prod.mk.injEq] at hrun₁
    obtain ⟨rfl, _⟩ := hrun₁
    exact hsound
  | some m =>
    simp only [hm] at hrun₁
    obtain ⟨hfirst, hlater⟩ := hallowed m hm
    obtain ⟨slot, heap₂, hexisting, hrun₂⟩ := C.bind_eq_ok.mp hrun₁
    rcases existingOr_eq_ok hexisting with ⟨rfl, rfl, _⟩ | ⟨response, rfl, hstart⟩
    · obtain ⟨rfl, _⟩ := C.pure_eq_ok.mp hrun₂
      exact soundOrNull_none
    · obtain ⟨⟨added, raw⟩, heap₃, hadd, hrun₃⟩ := C.bind_eq_ok.mp hrun₂
      rcases hstart with ⟨rfl, rfl, hstruct, rfl⟩ | ⟨rfl, rfl⟩
      · obtain ⟨rfl, hadded, _, hnew⟩ := RawMessages.holds_nil.add_eq_ok hadd
        rw [Heap.answer_after] at hadded
        cases added with
        | false =>
          obtain ⟨rfl, _⟩ := C.pure_eq_ok.mp hrun₃
          exact soundOrNull_none
        | true =>
          have hraw : raw.Sound [m] := RawMessages.Holds.sound (hnew rfl) (by decide)
          obtain ⟨⟨err, response⟩, heap₄, hassemble, hrun₄⟩ := C.bind_eq_ok.mp hrun₃
          refine riak2i_finish [m] ?_ (fun _ before => by rintro ⟨⟩) hrun₄
          rintro rfl
          rw [Heap.after_after] at hassemble
          exact riak2iAssembleIf_first hstruct hadded.symm (hfirst rfl) hraw hassemble
      · obtain ⟨seen, hold⟩ := hsound response rfl
        obtain ⟨rfl, hadded, hkept, hnew⟩ := hold.raw.holds.add_eq_ok hadd
        cases added with
        | false =>
          obtain ⟨rfl, _⟩ := C.pure_eq_ok.mp hrun₃
          apply soundOrNull_some
          exact hold.withRaw ⟨hkept rfl, hold.raw.some, hold.raw.few⟩
        | true =>
          rcases hlater response rfl with hrefused | ⟨hcounted, hflattens⟩
          · rw [← hadded] at hrefused
            cases hrefused
          · rw [hold.raw.holds.count] at hcounted
            have hraw : raw.Sound (seen ++ [m]) := (hnew rfl).sound hcounted
            rw [hold.raw.messages] at hflattens
            obtain ⟨⟨err, response'⟩, heap₄, hassemble, hrun₄⟩ := C.bind_eq_ok.mp hrun₃
            have hsound' := hold.assembleIf hraw hflattens hassemble
            exact riak2i_finish (seen ++ [m]) (fun _ => hsound') (fun _ _ _ => hsound') hrun₄

end RiakClient
