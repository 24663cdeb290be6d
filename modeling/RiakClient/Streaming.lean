import RiakClient.Operation

/-!
# Streamed responses

The decoders of the streaming requests (listing, 2i, map/reduce) are called once
for every message and gather everything in one response. Each of them keeps the
raw messages in a growing array `_internal` next to their number; the code that
adds one is the same in all of them and is modelled once. The counter is a
`riak_uint32_t`, so the array can hold at most `2^32 - 1` messages: the next one
asks `riak_array_realloc` for an array of zero slots.
-/

namespace RiakClient

open CSem

variable {ρ μ : Type} {heap final : Heap}

/-! ### The array of raw messages

One lemma says everything that adding a message can do; the others are its cases, for
a granted array, for a counter that is full, and for the number of requests. -/

/-- The members `n_responses` and `_internal` of a streamed response. -/
structure RawMessages (μ : Type) where
  nResponses : UInt32 := 0
  internal : Ptr (List (Ptr μ)) := .null
deriving DecidableEq, Repr

/-- "Expand the vector of internal links as necessary" and store the message in
    the new slot. The result says whether the array could be had. -/
def RawMessages.add (raw : RawMessages μ) (rpbresp : μ) : C (Bool × RawMessages μ) := do
  let existing := raw.nResponses
  let (grown, internal) ←
    if 0 < existing then riakArrayRealloc raw.internal existing (existing + 1)
    else do
      match ← C.new [Ptr.wild] with
      | none => pure (false, .null)
      | some slots => pure (true, .obj slots)
  if grown then
    let slots ← C.writeAt (← internal.deref) existing.toNat (.obj rpbresp)
    pure (true, { nResponses := existing + 1, internal := .obj slots })
  else pure (false, { raw with internal := internal })

/-- The array holds exactly the messages `seen`, in order. -/
structure RawMessages.Holds (raw : RawMessages μ) (seen : List μ) : Prop where
  count : raw.nResponses.toNat = seen.length
  slots : seen ≠ [] → raw.internal = .obj (seen.map .obj)

theorem RawMessages.holds_nil : ({} : RawMessages μ).Holds [] :=
  ⟨rfl, fun h => absurd rfl h⟩

theorem UInt32.toNat_succ {n : UInt32} (h : n.toNat + 1 < 2 ^ 32) :
    (n + 1).toNat = n.toNat + 1 := by
  rw [UInt32.toNat_add, UInt32.toNat_one]
  exact Nat.mod_eq_of_lt h

/-- The slot for a message: refused, or behind the others, or not to be counted. A counter
    that is full wraps to zero, and the copy of the old array runs past the empty new one. -/
theorem RawMessages.Holds.add_cases {raw : RawMessages μ} {seen : List μ} (h : raw.Holds seen)
    (m : μ) (heap : Heap) :
    heap.answer 0 = false ∧ (∃ raw', raw.add m heap = .ok ((false, raw'), heap.after 1) ∧
        raw'.Holds seen) ∨
      heap.answer 0 = true ∧ seen.length + 1 < 2 ^ 32 ∧
        (∃ raw', raw.add m heap = .ok ((true, raw'), heap.after 1) ∧
          raw'.Holds (seen ++ [m])) ∨
      heap.answer 0 = true ∧ 2 ^ 32 ≤ seen.length + 1 ∧
        raw.add m heap = .error .outOfBounds := by
  have hcount := h.count
  unfold RawMessages.add
  by_cases hempty : seen = []
  · subst hempty
    have hzero : raw.nResponses = 0 := UInt32.toNat_inj.mp hcount
    simp only [hzero, UInt32.lt_irrefl, if_false]
    rw [C.bind_of_ok (C.new_eq heap _)]
    cases heap.answer 0 with
    | false => exact Or.inl ⟨rfl, _, rfl, RawMessages.holds_nil⟩
    | true =>
      have hroom : ([] : List μ).length + 1 < 2 ^ 32 := by
        rw [List.length_nil]
        omega
      exact Or.inr (Or.inl ⟨rfl, hroom, _, rfl, rfl, fun _ => rfl⟩)
  · have hpos : 0 < raw.nResponses := by
      rw [UInt32.lt_iff_toNat_lt, UInt32.toNat_zero, hcount]
      exact List.length_pos_iff.mpr hempty
    have hslots := h.slots hempty
    have hlength : (seen.map (Ptr.obj : μ → Ptr μ)).length = raw.nResponses.toNat := by
      rw [List.length_map, hcount]
    simp only [if_pos hpos, hslots]
    cases hanswer : heap.answer 0 with
    | false =>
      rw [C.bind_of_ok (riakArrayRealloc_refused hanswer _ _ _)]
      exact Or.inl ⟨rfl, _, rfl, hcount, fun _ => rfl⟩
    | true =>
      by_cases hroom : seen.length + 1 < 2 ^ 32
      · have hsucc : (raw.nResponses + 1).toNat = raw.nResponses.toNat + 1 :=
          UInt32.toNat_succ (by rw [hcount]; exact hroom)
        rw [C.bind_of_ok (riakArrayRealloc_granted hanswer (by omega) (by omega)),
          List.take_of_length_le (by omega), hsucc, Nat.add_sub_cancel_left, List.replicate_one]
        simp only [if_true, Ptr.deref_obj, pure_bind]
        rw [C.writeAt_of_lt (by rw [List.length_append, List.length_singleton]; omega), pure_bind,
          ← hlength, List.set_append_right _ _ (Nat.le_refl _), Nat.sub_self, List.set_cons_zero]
        refine Or.inr (Or.inl ⟨trivial, hroom, _, rfl, ?_, fun _ => ?_⟩)
        · rw [List.length_append, List.length_singleton, ← hcount]
          exact hsucc
        · rw [List.map_append]
          rfl
      · have hwraps : (raw.nResponses + 1).toNat = 0 := by
          have hlt := raw.nResponses.toNat_lt
          rw [UInt32.toNat_add, UInt32.toNat_one]
          omega
        rw [C.bind_of_error (riakArrayRealloc_faults hanswer fun hboth => by omega)]
        exact Or.inr (Or.inr ⟨rfl, Nat.not_lt.mp hroom, rfl⟩)

theorem RawMessages.Holds.add (h : heap.Ample) {raw : RawMessages μ} {seen : List μ}
    (hraw : raw.Holds seen) (m : μ) (hroom : seen.length + 1 < 2 ^ 32) :
    ∃ raw', raw.add m heap = .ok ((true, raw'), heap) ∧ raw'.Holds (seen ++ [m]) := by
  have hanswer := h.grants 1 0 Nat.one_pos
  rcases hraw.add_cases m heap with ⟨hrefused, _⟩ | ⟨_, _, raw', hadd, hholds⟩ | ⟨_, hfull, _⟩
  · rw [hanswer] at hrefused
    cases hrefused
  · rw [h.after] at hadd
    exact ⟨raw', hadd, hholds⟩
  · omega

theorem RawMessages.Holds.add_full (h : heap.Ample) {raw : RawMessages μ} {seen : List μ}
    (hraw : raw.Holds seen) (m : μ) (hfull : 2 ^ 32 ≤ seen.length + 1) :
    raw.add m heap = .error .outOfBounds := by
  have hanswer := h.grants 1 0 Nat.one_pos
  rcases hraw.add_cases m heap with ⟨hrefused, _⟩ | ⟨_, hroom, _⟩ | ⟨_, _, hadd⟩
  · rw [hanswer] at hrefused
    cases hrefused
  · omega
  · exact hadd

/-- A slot is added if the allocator grants the array, and only then; a counter
    that would wrap does not come back. -/
theorem RawMessages.Holds.add_eq_ok {raw raw' : RawMessages μ} {seen : List μ} {m : μ}
    {added : Bool} (hraw : raw.Holds seen)
    (hadd : raw.add m heap = .ok ((added, raw'), final)) :
    final = heap.after 1 ∧ added = heap.answer 0 ∧ (added = false → raw'.Holds seen) ∧
      (added = true → raw'.Holds (seen ++ [m])) := by
  rcases hraw.add_cases m heap with
    ⟨hanswer, other, hrun, hholds⟩ | ⟨hanswer, _, other, hrun, hholds⟩ | ⟨_, _, hrun⟩
  · rw [hrun] at hadd
    cases hadd
    refine ⟨rfl, hanswer.symm, fun _ => hholds, ?_⟩
    rintro ⟨⟩
  · rw [hrun] at hadd
    cases hadd
    refine ⟨rfl, hanswer.symm, ?_, fun _ => hholds⟩
    rintro ⟨⟩
  · rw [hrun] at hadd
    cases hadd

/-! ### Decoding message after message -/

/-- `riak_X_response *response = *resp`, or a zeroed struct when there was no
    previous message. -/
def existingOr (resp : Option ρ) (empty : ρ) : C (Option ρ) :=
  match resp with
  | some response => pure (some response)
  | none => C.new empty

theorem existingOr_of_ample (h : heap.Ample) (resp : Option ρ) (empty : ρ) :
    existingOr resp empty heap = .ok (some (resp.getD empty), heap) := by
  cases resp with
  | some response => rfl
  | none => exact C.new_of_ample h empty

/-- What `*resp` points to after an early return: the struct that was changed in
    place, or still nothing. -/
def leftIn (resp : Option ρ) (response : ρ) : Option ρ := resp.map fun _ => response

/-- Decode messages one after another into the same response. -/
def decodeAll (decode : RiakPbMessage → Option ρ → RiakBoolean → C (Decoded ρ)) :
    List RiakPbMessage → Option ρ → RiakBoolean → C (List (Decoded ρ))
  | [], _, _ => pure []
  | pbresp :: rest, resp, done => do
      let decoded ← decode pbresp resp done
      let later ← decodeAll decode rest decoded.resp decoded.done
      pure (decoded :: later)

/-- The response after all messages. -/
def finalResponse (results : List (Decoded ρ)) : Option ρ :=
  results.getLast?.bind Decoded.resp

/-- The `done` flag of a message: what the message says, false when it says
    nothing. -/
def doneFlag (hasDone : Bool) (done : RiakBoolean) : RiakBoolean :=
  if hasDone then done else 0

/-! ### Runs of a decoder

A decoder is described by an invariant on the messages decoded so far and the
response they left, and by what it says about each message. One message is one
step; the two lemmas below carry the step over a whole run, once for the runs
that come to an end and once to show that a run does. -/

section Runs

variable {unpack : Bytes → Option μ}
  {decode : RiakPbMessage → Option ρ → RiakBoolean → C (Decoded ρ)}
  {Inv : List μ → Option ρ → Prop} {Good : Decoded ρ → Prop}
  {Out : List μ → Decoded ρ → Prop}

/-- What every step preserves holds along a run, and each result is what the
    messages up to it call for. -/
theorem decodeAll_invariant {all : List μ}
    (step : ∀ seen m pbresp resp done decoded final, seen ++ [m] <+: all →
      Unpacks unpack pbresp m → Inv seen resp →
      decode pbresp resp done heap = .ok (decoded, final) → Good decoded →
      final = heap ∧ Inv (seen ++ [m]) decoded.resp ∧ Out (seen ++ [m]) decoded)
    {pbresps : List RiakPbMessage} {msgs : List μ}
    (hframes : List.Forall₂ (Unpacks unpack) pbresps msgs) :
    ∀ (seen : List μ) (resp : Option ρ) (done : RiakBoolean) (results : List (Decoded ρ))
      (final : Heap), seen ++ msgs = all → Inv seen resp →
      decodeAll decode pbresps resp done heap = .ok (results, final) →
      (∀ decoded ∈ results, Good decoded) →
      final = heap ∧ results.length = msgs.length ∧
        ∀ i decoded, results[i]? = some decoded → Out (seen ++ msgs.take (i + 1)) decoded := by
  induction hframes with
  | nil =>
    intro seen resp done results final _ _ hrun _
    simp only [decodeAll, C.pure_apply, Except.ok.injEq, Prod.mk.injEq] at hrun
    obtain ⟨rfl, rfl⟩ := hrun
    exact ⟨rfl, rfl, by simp⟩
  | @cons pbresp m pbresps msgs hframe _ ih =>
    intro seen resp done results final hall hinv hrun hgood
    have hsplit : (seen ++ [m]) ++ msgs = all := by
      rw [List.append_assoc, List.singleton_append]; exact hall
    obtain ⟨decoded, rest, hfirst, hrun⟩ := C.bind_eq_ok.mp hrun
    obtain ⟨later, rest', hlater, hresults⟩ := C.bind_eq_ok.mp hrun
    obtain ⟨rfl, rfl⟩ := C.pure_eq_ok.mp hresults
    obtain ⟨rfl, hinv', hout⟩ :=
      step seen m pbresp resp done decoded rest ⟨msgs, hsplit⟩ hframe hinv hfirst
        (hgood decoded (by simp))
    obtain ⟨hheap, hlength, hrest⟩ := ih (seen ++ [m]) decoded.resp decoded.done later rest'
      hsplit hinv' hlater (fun d hd => hgood d (List.mem_cons_of_mem _ hd))
    refine ⟨hheap, by rw [List.length_cons, List.length_cons, hlength], ?_⟩
    intro i d hd
    cases i with
    | zero =>
      simp only [List.getElem?_cons_zero, Option.some.injEq] at hd
      subst hd
      simpa using hout
    | succ i =>
      rw [List.getElem?_cons_succ] at hd
      have hpre := hrest i d hd
      rwa [List.append_assoc, List.singleton_append, ← List.take_succ_cons] at hpre

theorem decodeAll_total {all : List μ}
    (step : ∀ seen m pbresp resp done decoded final, seen ++ [m] <+: all →
      Unpacks unpack pbresp m → Inv seen resp →
      decode pbresp resp done heap = .ok (decoded, final) → Good decoded →
      final = heap ∧ Inv (seen ++ [m]) decoded.resp ∧ Out (seen ++ [m]) decoded)
    (progress : ∀ seen m pbresp resp done, seen ++ [m] <+: all →
      Unpacks unpack pbresp m → Inv seen resp →
      ∃ decoded, decode pbresp resp done heap = .ok (decoded, heap) ∧ Good decoded)
    {pbresps : List RiakPbMessage} {msgs : List μ}
    (hframes : List.Forall₂ (Unpacks unpack) pbresps msgs) :
    ∀ (seen : List μ) (resp : Option ρ) (done : RiakBoolean), Inv seen resp →
      seen ++ msgs = all →
      ∃ results, decodeAll decode pbresps resp done heap = .ok (results, heap) ∧
        ∀ decoded ∈ results, Good decoded := by
  induction hframes with
  | nil =>
    intro seen resp done _ _
    exact ⟨[], rfl, by simp⟩
  | @cons pbresp m pbresps msgs hframe _ ih =>
    intro seen resp done hinv hall
    have hsplit : (seen ++ [m]) ++ msgs = all := by
      rw [List.append_assoc, List.singleton_append]; exact hall
    obtain ⟨decoded, hfirst, hgood⟩ :=
      progress seen m pbresp resp done ⟨msgs, hsplit⟩ hframe hinv
    have hinv' :=
      (step seen m pbresp resp done decoded heap ⟨msgs, hsplit⟩ hframe hinv hfirst hgood).2.1
    obtain ⟨later, hlater, hrest⟩ := ih (seen ++ [m]) decoded.resp decoded.done hinv' hsplit
    refine ⟨decoded :: later, ?_, ?_⟩
    · unfold decodeAll
      rw [C.bind_of_ok hfirst, C.bind_of_ok hlater]
      rfl
    · intro d hd
      rcases List.mem_cons.mp hd with rfl | hd
      · exact hgood
      · exact hrest d hd

end Runs

theorem exists_last_of_length {results : List (Decoded ρ)} {msgs : List μ}
    (hlength : results.length = msgs.length) (hne : msgs ≠ []) :
    ∃ last, results[msgs.length - 1]? = some last ∧ finalResponse results = last.resp := by
  have hpos : 0 < msgs.length := List.length_pos_iff.mpr hne
  obtain ⟨last, hlast⟩ : ∃ last, results[msgs.length - 1]? = some last :=
    ⟨_, List.getElem?_eq_getElem (by omega)⟩
  refine ⟨last, hlast, ?_⟩
  unfold finalResponse
  rw [List.getLast?_eq_getElem?, hlength, hlast]
  rfl

end RiakClient
