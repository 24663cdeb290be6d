import RiakClient.IndexStream
import RiakClient.Listing
import RiakClient.MapReduce

/-!
# Freeing a streamed response

The four functions that free a streamed response, and what an application may
count on when it holds one: every public count is backed by an array with that
many entries that have been set, and the response can be freed.

`HeldSafely` is that promise and `Sound` the invariant behind it, one for each of the
four responses: it says what the arrays are, where the promise says only that they can
be read. Every sound response is held safely; a response that is not there is, too,
except for map/reduce, whose free function has no test for NULL.
-/

namespace RiakClient

open CSem

variable {α μ ρ : Type} {heap : Heap}

/-! ### The code

The functions free without addresses: giving back a valid pointer or NULL has no
effect here, and following a wild one is the fault that matters. -/

/-- `riak_free` does nothing to NULL. -/
def riakFree : Ptr α → C Unit
  | .wild => C.fault .wildDereference
  | .null | .obj _ => pure ()

/-- `riak_binary_free`: NULL is accepted. The bytes of a binary that it manages
    are its own. -/
def riakBinaryFree : Ptr RiakBinary → C Unit
  | .wild => C.fault .wildDereference
  | .null | .obj _ => pure ()

/-- `rpb_x_resp__free_unpacked` looks into the message. -/
def freeUnpacked (message : Ptr μ) : C Unit := do
  let _ ← message.deref
  pure ()

/-- `for(i = 0; i < n; i++)` with an `int` and an unsigned bound. -/
def freeLoop (body : Nat → C Unit) : Nat → Nat → C Unit
  | 0, _ => pure ()
  | left + 1, i => do
      body i
      freeLoop body left (← C.intSucc i)

/-- `array[i]`. -/
def slotAt (array : Ptr (List (Ptr α))) (i : Nat) : C (Ptr α) := do
  C.readAt (← array.deref) i

/-- The two functions that free a listing are the same. -/
def listResponseFree (resp : Option (RiakListResponse μ)) : C (Option (RiakListResponse μ)) :=
  match resp with
  | none => pure none
  | some response => do
      freeLoop (fun i => do riakBinaryFree (← slotAt response.entries i))
        response.nEntries.toNat 0
      riakFree response.entries
      if 0 < response.raw.nResponses then
        freeLoop (fun i => do freeUnpacked (← slotAt response.raw.internal i))
          response.raw.nResponses.toNat 0
        riakFree response.raw.internal
      pure none

def riakListkeysResponseFree (resp : Option RiakListkeysResponse) :
    C (Option RiakListkeysResponse) := listResponseFree resp

def riakListbucketsResponseFree (resp : Option RiakListbucketsResponse) :
    C (Option RiakListbucketsResponse) := listResponseFree resp

/-- `riak_pairs_free`, whose number of pairs is an `int`. It frees the array and
    leaves NULL. -/
def riakPairsFree (pairs : Ptr (List (Ptr RiakPair))) (numPairs : Int) :
    C (Ptr (List (Ptr RiakPair))) := do
  freeLoop (fun i => do
    let slot ← slotAt pairs i
    let pair ← slot.deref
    riakBinaryFree (.ofOption pair.key)
    riakBinaryFree (.ofOption pair.value)
    riakFree slot) numPairs.toNat 0
  riakFree pairs
  pure .null

def riak2iResponseFree (resp : Option Riak2iResponse) : C (Option Riak2iResponse) :=
  match resp with
  | none => pure none
  | some response => do
      freeLoop (fun i => do riakBinaryFree (← slotAt response.keys i)) response.nKeys.toNat 0
      riakFree response.keys
      let results ← riakPairsFree response.results (asInt response.nResults.toNat)
      riakFree results
      freeLoop (fun i => do freeUnpacked (← slotAt response.raw.internal i))
        response.raw.nResponses.toNat 0
      riakFree response.raw.internal
      pure none

/-- `riak_mapreduce_response_free` has no test for NULL. -/
def riakMapreduceResponseFree (resp : Option RiakMapreduceResponse) :
    C (Option RiakMapreduceResponse) := do
  let response ← C.deref resp
  freeLoop (fun i => do
    let slot ← slotAt response.msg i
    let msg ← slot.deref
    riakBinaryFree (.ofOption msg.response)
    riakFree slot
    freeUnpacked (← slotAt response.raw.internal i)) response.raw.nResponses.toNat 0
  riakFree response.msg
  riakFree response.raw.internal
  pure none

/-! ### What an application counts on -/

/-- An array with `n` entries that have been set. -/
def Initialised (n : UInt32) (array : Ptr (List (Ptr α))) : Prop :=
  ∀ i < n.toNat, ∃ slots entry, array = .obj slots ∧ slots[i]? = some entry ∧ entry ≠ .wild

/-- The response is NULL or can be read, and it can be freed. -/
structure HeldSafely (Readable : ρ → Prop) (free : Option ρ → C (Option ρ)) (resp : Option ρ) :
    Prop where
  readable : ∀ response, resp = some response → Readable response
  freed : ∀ heap, free resp heap = .ok (none, heap)

def RiakListResponse.Readable (response : RiakListResponse μ) : Prop :=
  Initialised response.nEntries response.entries

def Riak2iResponse.Readable (response : Riak2iResponse) : Prop :=
  Initialised response.nKeys response.keys ∧ Initialised response.nResults response.results

def RiakMapreduceResponse.Readable (response : RiakMapreduceResponse) : Prop :=
  Initialised response.raw.nResponses response.msg

/-! ### Responses that are sound -/

theorem freeLoop_eq {body : Nat → C Unit} : ∀ (left i : Nat), i + left < 2 ^ 31 →
    (∀ k, i ≤ k → k < i + left → body k = pure ()) → freeLoop body left i = pure () := by
  intro left
  induction left with
  | zero => intros; rfl
  | succ left ih =>
    intro i hbound hbody
    rw [freeLoop, hbody i (Nat.le_refl i) (by omega), pure_bind, C.intSucc_of_lt (by omega), pure_bind]
    apply ih
    · omega
    · intro k hk hlast
      exact hbody k (by omega) (by omega)

theorem slotAt_of_get {array : Ptr (List (Ptr α))} {slots : List (Ptr α)} {entry : Ptr α} {i : Nat}
    (harray : array = .obj slots) (hentry : slots[i]? = some entry) :
    slotAt array i = pure entry := by
  unfold slotAt
  rw [harray, Ptr.deref_obj, pure_bind, C.readAt_of_get hentry]

theorem riakFree_of_ne_wild {p : Ptr α} (h : p ≠ .wild) : riakFree p = pure () := by
  cases p with
  | wild => exact absurd rfl h
  | null => rfl
  | obj a => rfl

theorem riakBinaryFree_of_ne_wild {p : Ptr RiakBinary} (h : p ≠ .wild) :
    riakBinaryFree p = pure () := by
  cases p with
  | wild => exact absurd rfl h
  | null => rfl
  | obj a => rfl

theorem riakBinaryFree_ofOption (bin : Option RiakBinary) :
    riakBinaryFree (.ofOption bin) = pure () := by
  cases bin <;> rfl

theorem initialised_of_length {n : UInt32} {slots : List (Ptr RiakBinary)}
    (hlength : slots.length = n.toNat) (hset : .wild ∉ slots) : Initialised n (.obj slots) := by
  intro i hi
  have hentry := List.getElem?_eq_getElem (show i < slots.length by omega)
  refine ⟨slots, slots[i], rfl, hentry, ?_⟩
  intro hwild
  exact hset (hwild ▸ List.getElem_mem _)

theorem freeLoop_binaries {n : UInt32} {array : Ptr (List (Ptr RiakBinary))}
    (h : Initialised n array) (hbound : n.toNat < 2 ^ 31) :
    freeLoop (fun i => do riakBinaryFree (← slotAt array i)) n.toNat 0 = pure () := by
  apply freeLoop_eq
  · rw [Nat.zero_add]
    exact hbound
  · intro i _ hi
    obtain ⟨slots, entry, harray, hentry, hset⟩ := h i (by omega)
    rw [slotAt_of_get harray hentry, pure_bind, riakBinaryFree_of_ne_wild hset]

/-- The raw messages can be looked into, and there are not too many. -/
structure RawMessages.Sound (raw : RawMessages μ) (seen : List μ) : Prop where
  holds : raw.Holds seen
  some : seen ≠ []
  few : seen.length < 2 ^ 31

theorem RawMessages.Holds.sound {raw : RawMessages μ} {seen : List μ} {m : μ}
    (h : raw.Holds (seen ++ [m])) (hfew : seen.length + 1 < 2 ^ 31) : raw.Sound (seen ++ [m]) := by
  refine ⟨h, List.append_ne_nil_of_right_ne_nil _ (List.cons_ne_nil _ _), ?_⟩
  rw [List.length_append, List.length_singleton]
  exact hfew

theorem RawMessages.Sound.slot {raw : RawMessages μ} {seen : List μ} (h : raw.Sound seen) {i : Nat}
    (hi : i < raw.nResponses.toNat) :
    (do freeUnpacked (← slotAt raw.internal i) : C Unit) = pure () := by
  have hentry : (seen.map (Ptr.obj : μ → Ptr μ))[i]? =
      Option.some (.obj (seen.get ⟨i, by rw [← h.holds.count]; exact hi⟩)) := by
    rw [List.getElem?_map, List.getElem?_eq_getElem (by rw [← h.holds.count]; exact hi)]
    rfl
  rw [slotAt_of_get (h.holds.slots h.some) hentry, pure_bind]
  rfl

theorem RawMessages.Sound.freeLoop {raw : RawMessages μ} {seen : List μ} (h : raw.Sound seen) :
    RiakClient.freeLoop (fun i => do freeUnpacked (← slotAt raw.internal i)) raw.nResponses.toNat 0 =
      pure () := by
  apply freeLoop_eq
  · rw [Nat.zero_add, h.holds.count]
    exact h.few
  · intro i _ hi
    exact h.slot (by omega)

theorem RawMessages.Sound.riakFree {raw : RawMessages μ} {seen : List μ} (h : raw.Sound seen) :
    riakFree raw.internal = pure () := by
  rw [h.holds.slots h.some]
  rfl

/-- A listing: its array has exactly its entries. -/
structure RiakListResponse.Sound (response : RiakListResponse μ) (seen : List μ) : Prop where
  entries : ∃ slots, response.entries = .obj slots ∧ slots.length = response.nEntries.toNat ∧
    .wild ∉ slots
  few : response.nEntries.toNat < 2 ^ 31
  raw : response.raw.Sound seen

/-- A 2i response: it has no results. -/
structure Riak2iResponse.Sound (response : Riak2iResponse) (seen : List RpbIndexResp) : Prop where
  keys : Initialised response.nKeys response.keys
  keysSet : response.keys ≠ .wild
  few : response.nKeys.toNat < 2 ^ 31
  nResults : response.nResults = 0
  resultsSet : response.results ≠ .wild
  raw : response.raw.Sound seen

/-- A map/reduce response: there is a message for every raw one. -/
structure RiakMapreduceResponse.Sound (response : RiakMapreduceResponse)
    (seen : List RpbMapRedResp) : Prop where
  msg : ∃ msgs : List RiakMapreduceMessage, response.msg = .obj (msgs.map .obj) ∧
    msgs.length = seen.length
  raw : response.raw.Sound seen

/-- A sound response, if there is one at all. -/
def SoundOrNull (Sound : ρ → List μ → Prop) (resp : Option ρ) : Prop :=
  ∀ response, resp = some response → ∃ seen, Sound response seen

theorem RiakListResponse.Sound.readable {response : RiakListResponse μ} {seen : List μ}
    (h : response.Sound seen) : response.Readable := by
  obtain ⟨slots, hslots, hlength, hset⟩ := h.entries
  unfold RiakListResponse.Readable
  rw [hslots]
  exact initialised_of_length hlength hset

theorem listResponse_heldSafely {resp : Option (RiakListResponse μ)}
    (h : SoundOrNull RiakListResponse.Sound resp) :
    HeldSafely RiakListResponse.Readable listResponseFree resp := by
  cases resp with
  | none =>
    refine ⟨?_, fun heap => rfl⟩
    rintro response ⟨⟩
  | some response =>
    obtain ⟨seen, hsound⟩ := h response rfl
    refine ⟨?_, ?_⟩
    · rintro _ ⟨⟩
      exact hsound.readable
    · intro heap
      have hentries : riakFree response.entries = pure () := by
        obtain ⟨slots, hslots, _⟩ := hsound.entries
        rw [hslots]
        rfl
      unfold listResponseFree
      simp only [freeLoop_binaries hsound.readable hsound.few, hentries, hsound.raw.freeLoop,
        hsound.raw.riakFree, pure_bind, ite_self, C.pure_apply]

theorem riakPairsFree_nil {pairs : Ptr (List (Ptr RiakPair))} (h : pairs ≠ .wild) :
    riakPairsFree pairs 0 = pure .null := by
  unfold riakPairsFree
  rw [Int.toNat_zero, freeLoop, pure_bind, riakFree_of_ne_wild h, pure_bind]

theorem riak2i_heldSafely {resp : Option Riak2iResponse}
    (h : SoundOrNull Riak2iResponse.Sound resp) :
    HeldSafely Riak2iResponse.Readable riak2iResponseFree resp := by
  cases resp with
  | none =>
    refine ⟨?_, fun heap => rfl⟩
    rintro response ⟨⟩
  | some response =>
    obtain ⟨seen, hsound⟩ := h response rfl
    refine ⟨?_, ?_⟩
    · rintro _ ⟨⟩
      refine ⟨hsound.keys, ?_⟩
      intro i hi
      rw [hsound.nResults] at hi
      cases hi
    · intro heap
      have hnone : asInt response.nResults.toNat = 0 := by
        rw [hsound.nResults]
        exact asInt_of_lt (by decide)
      have hresults := riakPairsFree_nil hsound.resultsSet
      rw [← hnone] at hresults
      unfold riak2iResponseFree
      simp only [freeLoop_binaries hsound.keys hsound.few, riakFree_of_ne_wild hsound.keysSet,
        hresults, hsound.raw.freeLoop, hsound.raw.riakFree, pure_bind]
      rfl

theorem RiakMapreduceResponse.Sound.slot {response : RiakMapreduceResponse}
    {seen : List RpbMapRedResp} (h : response.Sound seen) {i : Nat}
    (hi : i < response.raw.nResponses.toNat) :
    ∃ slots msg, response.msg = .obj slots ∧ slots[i]? = some (.obj msg) := by
  obtain ⟨msgs, hmsg, hlength⟩ := h.msg
  have hinside : i < msgs.length := by rw [hlength, ← h.raw.holds.count]; exact hi
  refine ⟨_, msgs[i], hmsg, ?_⟩
  rw [List.getElem?_map, List.getElem?_eq_getElem hinside]
  rfl

theorem riakMapreduce_heldSafely {response : RiakMapreduceResponse} {seen : List RpbMapRedResp}
    (h : response.Sound seen) :
    HeldSafely RiakMapreduceResponse.Readable riakMapreduceResponseFree (some response) := by
  refine ⟨?_, ?_⟩
  · rintro _ ⟨⟩ i hi
    obtain ⟨slots, msg, hslots, hmsg⟩ := h.slot hi
    refine ⟨slots, _, hslots, hmsg, ?_⟩
    rintro ⟨⟩
  · intro heap
    have hloop : freeLoop (fun i => do
        let slot ← slotAt response.msg i
        let msg ← slot.deref
        riakBinaryFree (.ofOption msg.response)
        riakFree slot
        freeUnpacked (← slotAt response.raw.internal i)) response.raw.nResponses.toNat 0 =
        pure () := by
      apply freeLoop_eq
      · rw [Nat.zero_add, h.raw.holds.count]
        exact h.raw.few
      · intro i _ hi
        have hinside : i < response.raw.nResponses.toNat := by omega
        obtain ⟨slots, msg, hslots, hmsg⟩ := h.slot hinside
        have hraw := h.raw.slot hinside
        simp only [slotAt_of_get hslots hmsg, pure_bind, Ptr.deref_obj, riakBinaryFree_ofOption]
        exact hraw
    have hmsg : riakFree response.msg = pure () := by
      obtain ⟨msgs, hmsgs, _⟩ := h.msg
      rw [hmsgs]
      rfl
    unfold riakMapreduceResponseFree
    simp only [C.deref_some, pure_bind, hloop, hmsg, h.raw.riakFree]
    rfl

end RiakClient
