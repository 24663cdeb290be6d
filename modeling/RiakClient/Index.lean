import RiakClient.ChunkCursor
import RiakClient.Object
import RiakClient.Streaming

/-!
# Secondary-index responses

`riak_2i_response_decode` keeps every message of a 2i query and, with the last
one, flattens their keys and their results into two arrays. Both loops walk the
messages with a flat counter and a cursor, and both move the cursor by the
number of *keys* of the current message. The loop over the results moreover
takes `ERIAK_OK` for the failure. What the first slip means for keys is said by
`ChunkCursor`: empty messages may only come at the end. What the second means
for results is that there may not be any.
-/

namespace RiakClient

open CSem ChunkCursor

variable {ρ : Type} {heap final : Heap}

/-- `_riak_2i_response`. -/
structure Riak2iResponse where
  nKeys : UInt32 := 0
  keys : Ptr (List (Ptr RiakBinary)) := .null
  nResults : UInt32 := 0
  results : Ptr (List (Ptr RiakPair)) := .null
  hasContinuation : Bool := false
  continuation : Option RiakBinary := none
  hasDone : Bool := false
  done : RiakBoolean := 0
  raw : RawMessages RpbIndexResp := {}
deriving DecidableEq, Repr

/-! ### The decoder -/

/-- The loop that adds up `n_keys` and `n_results`; both totals are
    `riak_uint32_t`. -/
def sumLoop (internal : List (Ptr RpbIndexResp)) :
    Nat → Nat → UInt32 → UInt32 → C (UInt32 × UInt32)
  | 0, _, totalKeys, totalResults => pure (totalKeys, totalResults)
  | left + 1, i, totalKeys, totalResults => do
      let rpbResponse ← (← C.readAt internal i).deref
      sumLoop internal left (← C.intSucc i)
        (totalKeys + UInt32.ofNat rpbResponse.keys.length)
        (totalResults + UInt32.ofNat rpbResponse.results.length)

/-- "If we have run out of keys in the current response, start working on the
    next response". Both loops compare with the number of keys. -/
def moveCursor (nKeys chunk j : Nat) : C (Nat × Nat) :=
  if nKeys ≤ j then do pure (← C.intSucc chunk, 0) else pure (chunk, j)

/-- `for(i = 0, j = 0, chunk = 0; ...)`: `copy` fills slot `i` from entry `j` of
    the current message, and `none` is the error branch of the loop. -/
def flattenLoop {β : Type} (internal : List (Ptr RpbIndexResp))
    (copy : RpbIndexResp → Nat → C (Option (Ptr β))) :
    Nat → Nat → Nat × Nat → C (Option (List (Ptr β)))
  | 0, _, _ => pure (some [])
  | left + 1, i, (chunk, j) => do
      let rpbResponse ← (← C.readAt internal chunk).deref
      match ← copy rpbResponse j with
      | none => pure none
      | some slot =>
          let next ← moveCursor rpbResponse.keys.length chunk (← C.intSucc j)
          let i ← C.intSucc i
          match ← flattenLoop internal copy left i next with
          | none => pure none
          | some slots => pure (some (slot :: slots))

/-- The body of the loop over the keys. -/
def copyKeySlot (rpbResponse : RpbIndexResp) (j : Nat) : C (Option (Ptr RiakBinary)) := do
  match ← riakBinaryCopyFromPb (← C.readAt rpbResponse.keys j) with
  | none => pure none
  | some bin => pure (some (.obj bin))

/-- The body of the loop over the results, which goes on when the copy failed. -/
def copyResultSlot (rpbResponse : RpbIndexResp) (j : Nat) : C (Option (Ptr RiakPair)) := do
  let copied ← riakPairsCopyFromPb (← C.readAt rpbResponse.results j)
  if copied.1 = .ok then pure none else pure (some (.ofOption copied.2))

/-- "Assemble a user-consumable response". The arrays are zeroed, and each count
    is stored once its array is there. -/
def riak2iAssemble (response : Riak2iResponse) : C (RiakError × Riak2iResponse) := do
  let internal ← response.raw.internal.deref
  let (totalKeys, totalResults) ← sumLoop internal response.raw.nResponses.toNat 0 0 0
  if ← C.allocate then
    let nokeys := List.replicate totalKeys.toNat Ptr.null
    if ← C.allocate then
      let noresults := List.replicate totalResults.toNat Ptr.null
      match ← flattenLoop internal copyKeySlot totalKeys.toNat 0 (0, 0) with
      | none =>
          pure (.outOfMemory, { response with
            nKeys := totalKeys, keys := .null
            nResults := totalResults, results := .obj noresults })
      | some keys =>
          match ← flattenLoop internal copyResultSlot totalResults.toNat 0 (0, 0) with
          | none =>
              pure (.outOfMemory, { response with
                nKeys := totalKeys, keys := .obj keys
                nResults := totalResults, results := .null })
          | some results =>
              pure (.ok, { response with
                nKeys := totalKeys, keys := .obj keys
                nResults := totalResults, results := .obj results })
    else pure (.outOfMemory, { response with
      nKeys := totalKeys, keys := .obj nokeys, results := .null })
  else pure (.outOfMemory, { response with keys := .null })

/-- "If we are streaming, i.e., returning partial results or if we have the
    complete message". -/
def riak2iAssembleIf (wanted : Prop) [Decidable wanted] (response : Riak2iResponse) :
    C (RiakError × Riak2iResponse) :=
  if wanted then riak2iAssemble response else pure (.ok, response)

/-- The end of the decoder: what only the last message says. -/
def riak2iTrailer (response : Riak2iResponse) : C Riak2iResponse := do
  let internal ← response.raw.internal.deref
  let last ← (← C.readAt internal (response.raw.nResponses - 1).toNat).deref
  let continuation ← riakBinaryCopyFromPb last.continuation
  pure { response with
    hasContinuation := last.hasContinuation, continuation := continuation
    hasDone := last.hasDone, done := last.done }

def riak2iResponseDecode (unpack : Bytes → Option RpbIndexResp) (rop : RiakOperation ρ)
    (pbresp : RiakPbMessage) (resp : Option Riak2iResponse) (done : RiakBoolean) :
    C (Decoded Riak2iResponse) := do
  match unpack (← pbresp.payload) with
  | none => pure ⟨.messageFormat, resp, done⟩
  | some rpbresp =>
      match ← existingOr resp {} with
      | none => pure ⟨.outOfMemory, resp, done⟩
      | some response =>
          let done := doneFlag rpbresp.hasDone rpbresp.done
          match ← response.raw.add rpbresp with
          | (false, raw) =>
              pure ⟨.outOfMemory, leftIn resp { response with raw := raw }, done⟩
          | (true, raw) =>
              let (err, response) ←
                riak2iAssembleIf (rop.streaming ∨ done ≠ 0) { response with raw := raw }
              if err = .ok then
                pure ⟨.ok, some (← riak2iTrailer response), done⟩
              else pure ⟨err, leftIn resp response, done⟩

/-! ### The sums -/

/-- The keys of all messages, in order of arrival. -/
def allKeys (msgs : List RpbIndexResp) : List Bytes := (msgs.map RpbIndexResp.keys).flatten

/-- The results of all messages, in order of arrival. -/
def allResults (msgs : List RpbIndexResp) : List RpbPair :=
  (msgs.map RpbIndexResp.results).flatten

theorem allKeys_append (msgs later : List RpbIndexResp) :
    allKeys (msgs ++ later) = allKeys msgs ++ allKeys later := by
  unfold allKeys
  rw [List.map_append, List.flatten_append]

theorem sumLoop_of_lt : ∀ (rest before : List RpbIndexResp) (totalKeys totalResults : UInt32),
    before.length + rest.length < 2 ^ 31 →
    sumLoop ((before ++ rest).map .obj) rest.length before.length totalKeys totalResults =
      pure (totalKeys + UInt32.ofNat (allKeys rest).length,
        totalResults + UInt32.ofNat (allResults rest).length) := by
  intro rest
  induction rest with
  | nil =>
    intro before totalKeys totalResults _
    simp [sumLoop, allKeys, allResults]
  | cons m rest ih =>
    intro before totalKeys totalResults hlen
    have hget : ((before ++ m :: rest).map (Ptr.obj : RpbIndexResp → _))[before.length]? =
        some (.obj m) := by simp
    have hnext : before.length + 1 < 2 ^ 31 := by
      rw [List.length_cons] at hlen; omega
    rw [List.length_cons, sumLoop, C.readAt_of_get hget]
    simp only [pure_bind, Ptr.deref_obj, C.intSucc_of_lt hnext]
    have hrest := ih (before ++ [m]) (totalKeys + UInt32.ofNat m.keys.length)
      (totalResults + UInt32.ofNat m.results.length)
      (by rw [List.length_append, List.length_singleton]; rw [List.length_cons] at hlen; omega)
    rw [List.append_assoc, List.singleton_append, List.length_append, List.length_singleton]
      at hrest
    rw [hrest]
    simp only [allKeys, allResults, List.map_cons, List.flatten_cons, List.length_append,
      UInt32.ofNat_add, UInt32.add_assoc]

theorem sumLoop_bound {internal : List (Ptr RpbIndexResp)} : ∀ (left i : Nat)
    (totalKeys totalResults : UInt32) (heap : Heap) (out : (UInt32 × UInt32) × Heap),
    sumLoop internal left i totalKeys totalResults heap = .ok out →
    left = 0 ∨ i + left < 2 ^ 31 := by
  intro left
  induction left with
  | zero => intro i _ _ _ _ _; exact Or.inl rfl
  | succ left ih =>
    intro i totalKeys totalResults heap out hrun
    right
    obtain ⟨results, last⟩ := out
    obtain ⟨cell, heap₁, _, hcell⟩ := C.bind_eq_ok.mp hrun
    obtain ⟨rpbResponse, heap₂, _, hderef⟩ := C.bind_eq_ok.mp hcell
    obtain ⟨next, heap₃, hnext, hrest⟩ := C.bind_eq_ok.mp hderef
    obtain ⟨hlt, rfl, rfl⟩ := C.intSucc_eq_ok.mp hnext
    rcases ih _ _ _ _ _ hrest with hzero | hbound
    · omega
    · omega

/-! ### The loop over the keys

The loop is compared with the cursor of `ChunkCursor`, one round with one read. A run
that returned has read what the cursor reads, and when the cursor reads everything, so
does the loop. -/

theorem moveCursor_eq_ok {nKeys chunk j : Nat} {next : Nat × Nat}
    (h : moveCursor nKeys chunk (j + 1) heap = .ok (next, final)) :
    next = advance nKeys chunk j ∧ final = heap := by
  unfold moveCursor at h
  unfold advance
  by_cases hlast : nKeys ≤ j + 1
  · rw [if_pos hlast] at h ⊢
    obtain ⟨chunk', rest, hchunk, hnext⟩ := C.bind_eq_ok.mp h
    obtain ⟨_, rfl, rfl⟩ := C.intSucc_eq_ok.mp hchunk
    simp only [C.pure_apply, Except.ok.injEq, Prod.mk.injEq] at hnext
    exact ⟨hnext.1.symm, hnext.2.symm⟩
  · rw [if_neg hlast] at h ⊢
    simp only [C.pure_apply, Except.ok.injEq, Prod.mk.injEq] at h
    exact ⟨h.1.symm, h.2.symm⟩

theorem moveCursor_of_lt {nKeys chunk j : Nat} (h : chunk + 1 < 2 ^ 31) :
    moveCursor nKeys chunk (j + 1) = pure (advance nKeys chunk j) := by
  unfold moveCursor advance
  by_cases hlast : nKeys ≤ j + 1
  · rw [if_pos hlast, if_pos hlast, C.intSucc_of_lt h]; rfl
  · rw [if_neg hlast, if_neg hlast]

/-- The slot that a key of a message ends up in: it shares the bytes. -/
def keySlot (key : Bytes) : Ptr RiakBinary := .obj ⟨key, false⟩

theorem copyKeySlot_of_ample (h : heap.Ample) {m : RpbIndexResp} {j : Nat} {key : Bytes}
    (hkey : m.keys[j]? = some key) :
    copyKeySlot m j heap = .ok (some (keySlot key), heap) := by
  unfold copyKeySlot
  rw [C.readAt_of_get hkey]
  simp only [pure_bind]
  rw [C.bind_of_ok (riakBinaryCopyFromPb_of_ample h key)]
  rfl

theorem copyKeySlot_eq_ok (h : heap.Ample) {m : RpbIndexResp} {j : Nat}
    {slot : Option (Ptr RiakBinary)} (hcopy : copyKeySlot m j heap = .ok (slot, final)) :
    ∃ key, m.keys[j]? = some key ∧ slot = some (keySlot key) ∧ final = heap := by
  obtain ⟨key, heap₁, hread, _⟩ := C.bind_eq_ok.mp hcopy
  obtain ⟨hkey, _⟩ := C.readAt_eq_ok.mp hread
  rw [copyKeySlot_of_ample h hkey, Except.ok.injEq, Prod.mk.injEq] at hcopy
  exact ⟨key, hkey, hcopy.1.symm, hcopy.2.symm⟩

theorem getElem?_map_obj {msgs : List RpbIndexResp} {chunk : Nat} {cell : Ptr RpbIndexResp}
    (hcell : (msgs.map (Ptr.obj : RpbIndexResp → _))[chunk]? = some cell) :
    ∃ m, msgs[chunk]? = some m ∧ cell = .obj m := by
  rw [List.getElem?_map, Option.map_eq_some_iff] at hcell
  obtain ⟨m, hm, rfl⟩ := hcell
  exact ⟨m, hm, rfl⟩

theorem gather_keys_succ {msgs : List RpbIndexResp} {m : RpbIndexResp} {key : Bytes}
    {chunk j : Nat} (hm : msgs[chunk]? = some m) (hkey : m.keys[j]? = some key) (left : Nat) :
    gather (msgs.map RpbIndexResp.keys) (left + 1) (chunk, j) =
      (gather (msgs.map RpbIndexResp.keys) left (advance m.keys.length chunk j)).map
        (key :: ·) := by
  have hchunk : (msgs.map RpbIndexResp.keys)[chunk]? = some m.keys := by
    rw [List.getElem?_map, hm]; rfl
  simp only [gather, hchunk, hkey, Option.bind_eq_bind, Option.bind_some]
  cases gather (msgs.map RpbIndexResp.keys) left (advance m.keys.length chunk j) <;> rfl

/-- A run of the loop over the keys has read what the cursor reads, and its
    index has stayed an `int`. -/
theorem flattenLoop_keys_eq_ok (h : heap.Ample) {msgs : List RpbIndexResp} :
    ∀ (left i chunk j : Nat) (slots : Option (List (Ptr RiakBinary))) (final : Heap),
    flattenLoop (msgs.map .obj) copyKeySlot left i (chunk, j) heap = .ok (slots, final) →
    (left = 0 ∨ i + left < 2 ^ 31) ∧ final = heap ∧
      ∃ keys, gather (msgs.map RpbIndexResp.keys) left (chunk, j) = some keys ∧
        slots = some (keys.map keySlot) := by
  intro left
  induction left with
  | zero =>
    intro i chunk j slots final hrun
    simp only [flattenLoop, C.pure_apply, Except.ok.injEq, Prod.mk.injEq] at hrun
    obtain ⟨rfl, rfl⟩ := hrun
    exact ⟨Or.inl rfl, rfl, [], rfl, rfl⟩
  | succ left ih =>
    intro i chunk j slots final hrun
    obtain ⟨cell, heap₁, hread, hrun₁⟩ := C.bind_eq_ok.mp hrun
    obtain ⟨hcell, hheap₁⟩ := C.readAt_eq_ok.mp hread
    obtain ⟨m, hm, rfl⟩ := getElem?_map_obj hcell
    rw [Ptr.deref_obj, pure_bind, hheap₁] at hrun₁
    obtain ⟨slot, heap₂, hslot, hrun₂⟩ := C.bind_eq_ok.mp hrun₁
    obtain ⟨key, hkey, rfl, hheap₂⟩ := copyKeySlot_eq_ok h hslot
    rw [hheap₂] at hrun₂
    obtain ⟨j', heap₃, hj, hrun₃⟩ := C.bind_eq_ok.mp hrun₂
    obtain ⟨_, rfl, hheap₃⟩ := C.intSucc_eq_ok.mp hj
    rw [hheap₃] at hrun₃
    obtain ⟨⟨chunk', j'⟩, heap₄, hnext, hrun₄⟩ := C.bind_eq_ok.mp hrun₃
    obtain ⟨hadvance, hheap₄⟩ := moveCursor_eq_ok hnext
    rw [hheap₄] at hrun₄
    obtain ⟨i', heap₅, hi, hrun₅⟩ := C.bind_eq_ok.mp hrun₄
    obtain ⟨hlt, rfl, hheap₅⟩ := C.intSucc_eq_ok.mp hi
    rw [hheap₅] at hrun₅
    obtain ⟨later, heap₆, hlater, hlast⟩ := C.bind_eq_ok.mp hrun₅
    obtain ⟨hbound, rfl, keys, hkeys, rfl⟩ := ih _ _ _ _ _ hlater
    simp only [C.pure_apply, Except.ok.injEq, Prod.mk.injEq] at hlast
    refine ⟨Or.inr (by omega), hlast.2.symm, key :: keys, ?_, hlast.1.symm⟩
    rw [gather_keys_succ hm hkey, ← hadvance, hkeys]
    rfl

theorem flattenLoop_keys_of_gather (h : heap.Ample) {msgs : List RpbIndexResp} :
    ∀ (left i chunk j : Nat) (keys : List Bytes),
    gather (msgs.map RpbIndexResp.keys) left (chunk, j) = some keys →
    i + left < 2 ^ 31 → chunk ≤ i → j ≤ i →
    flattenLoop (msgs.map .obj) copyKeySlot left i (chunk, j) heap =
      .ok (some (keys.map keySlot), heap) := by
  intro left
  induction left with
  | zero =>
    intro i chunk j keys hgather _ _ _
    simp only [gather, Option.some.injEq] at hgather
    subst hgather
    rfl
  | succ left ih =>
    intro i chunk j keys hgather hbound hchunk hj
    cases hm : msgs[chunk]? with
    | none => simp [gather, hm] at hgather
    | some m =>
      cases hkey : m.keys[j]? with
      | none => simp [gather, hm, hkey] at hgather
      | some key =>
        rw [gather_keys_succ hm hkey, Option.map_eq_some_iff] at hgather
        obtain ⟨later, hlater, rfl⟩ := hgather
        have hcell : (msgs.map (Ptr.obj : RpbIndexResp → _))[chunk]? = some (.obj m) := by
          rw [List.getElem?_map, hm]; rfl
        rw [flattenLoop, C.readAt_of_get hcell]
        simp only [pure_bind, Ptr.deref_obj]
        rw [C.bind_of_ok (copyKeySlot_of_ample h hkey)]
        simp only [C.intSucc_of_lt (show j + 1 < 2 ^ 31 by omega), pure_bind,
          moveCursor_of_lt (show chunk + 1 < 2 ^ 31 by omega),
          C.intSucc_of_lt (show i + 1 < 2 ^ 31 by omega)]
        have hcursor : (advance m.keys.length chunk j).1 ≤ i + 1 ∧
            (advance m.keys.length chunk j).2 ≤ i + 1 := by
          unfold advance
          by_cases hlast : m.keys.length ≤ j + 1
          · rw [if_pos hlast]; exact ⟨by omega, by omega⟩
          · rw [if_neg hlast]; exact ⟨by omega, by omega⟩
        generalize advance m.keys.length chunk j = next at hlater hcursor ⊢
        obtain ⟨chunk', j'⟩ := next
        rw [C.bind_of_ok (ih (i + 1) _ _ later hlater (by omega) hcursor.1 hcursor.2)]
        rfl

end RiakClient
