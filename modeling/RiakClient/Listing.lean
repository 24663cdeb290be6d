import Mathlib.Data.List.Forall2
import RiakClient.Streaming

/-!
# Listing keys and buckets

`riak_listkeys_response_decode` and `riak_listbuckets_response_decode` are the
same decoder over two message types: the entries of a message are copied behind
those already there, the `done` flag is taken over, and the message itself is
kept. Two arrays grow along, the entries by as many slots as the message has and
the raw messages by one. The invariant of a run ties both to the messages seen.

The loop overwrites the free slots behind the existing ones, in order, so that a
message extends the list of entries by its own; the sum of the entries is an `int`,
and the number of the messages a `riak_uint32_t`, which is all that a listing asks for
on an ample heap.
-/

namespace RiakClient

open CSem

variable {ρ μ : Type} {heap final : Heap}

/-! ### The decoder -/

/-- What the decoder reads from a message. -/
structure ListMessage (μ : Type) where
  entries : μ → List Bytes
  hasDone : μ → Bool
  done : μ → RiakBoolean

/-- `_riak_listkeys_response` and `_riak_listbuckets_response`, whose `n_keys`
    and `keys` (`n_buckets` and `buckets`) are the entries. -/
structure RiakListResponse (μ : Type) where
  nEntries : UInt32 := 0
  entries : Ptr (List (Ptr RiakBinary)) := .null
  done : RiakBoolean := 0
  raw : RawMessages μ := {}
deriving DecidableEq, Repr

/-- "Existing keys need some expansion, so copy the pointers of the old keys to a
    new, larger array". The first array is not cleared. -/
def growEntries (entries : Ptr (List (Ptr RiakBinary))) (existing additional : UInt32) :
    C (Bool × Ptr (List (Ptr RiakBinary))) :=
  match entries with
  | .null => do
      match ← C.new (List.replicate additional.toNat Ptr.wild) with
      | none => pure (false, .null)
      | some slots => pure (true, .obj slots)
  | _ => riakArrayRealloc entries existing (additional + existing)

/-- The copying loop. `riak_binary_new` returns NULL when either of its
    allocations is refused, and the test behind it reads through that NULL. -/
def copyEntries (entries : List Bytes) (existing : UInt32) :
    Nat → Nat → List (Ptr RiakBinary) → C (List (Ptr RiakBinary))
  | 0, _, slots => pure slots
  | left + 1, i, slots => do
      let entry ← C.readAt entries i
      let copy ← C.deref (← riakBinaryNew entry)
      let slots ← C.writeAt slots (UInt32.ofNat i + existing).toNat (.obj copy)
      copyEntries entries existing left (← C.intSucc i) slots

/-- The decoder of a listing. -/
def listResponseDecode (message : ListMessage μ) (unpack : Bytes → Option μ)
    (pbresp : RiakPbMessage) (resp : Option (RiakListResponse μ)) (done : RiakBoolean) :
    C (Decoded (RiakListResponse μ)) := do
  match unpack (← pbresp.payload) with
  | none => pure ⟨.messageFormat, resp, done⟩
  | some rpbresp =>
      match ← existingOr resp {} with
      | none => pure ⟨.outOfMemory, resp, done⟩
      | some response =>
          let additional := UInt32.ofNat (message.entries rpbresp).length
          match ← growEntries response.entries response.nEntries additional with
          | (false, entries) =>
              pure ⟨.outOfMemory, leftIn resp { response with entries := entries }, done⟩
          | (true, entries) =>
              let slots ← copyEntries (message.entries rpbresp) response.nEntries
                additional.toNat 0 (← entries.deref)
              let flag := doneFlag (message.hasDone rpbresp) (message.done rpbresp)
              let nEntries := response.nEntries + additional
              match ← response.raw.add rpbresp with
              | (false, raw) =>
                  pure ⟨.outOfMemory, leftIn resp ⟨nEntries, .obj slots, flag, raw⟩, flag⟩
              | (true, raw) => pure ⟨.ok, some ⟨nEntries, .obj slots, flag, raw⟩, flag⟩

abbrev RiakListkeysResponse := RiakListResponse RpbListKeysResp

abbrev RiakListbucketsResponse := RiakListResponse RpbListBucketsResp

def listkeysMessage : ListMessage RpbListKeysResp :=
  ⟨RpbListKeysResp.keys, RpbListKeysResp.hasDone, RpbListKeysResp.done⟩

def listbucketsMessage : ListMessage RpbListBucketsResp :=
  ⟨RpbListBucketsResp.buckets, RpbListBucketsResp.hasDone, RpbListBucketsResp.done⟩

def riakListkeysResponseDecode (unpack : Bytes → Option RpbListKeysResp)
    (pbresp : RiakPbMessage) (resp : Option RiakListkeysResponse) (done : RiakBoolean) :
    C (Decoded RiakListkeysResponse) :=
  listResponseDecode listkeysMessage unpack pbresp resp done

def riakListbucketsResponseDecode (unpack : Bytes → Option RpbListBucketsResp)
    (pbresp : RiakPbMessage) (resp : Option RiakListbucketsResponse) (done : RiakBoolean) :
    C (Decoded RiakListbucketsResponse) :=
  listResponseDecode listbucketsMessage unpack pbresp resp done

/-! ### Copying the entries -/

/-- The slot of a copied entry: it owns its bytes. -/
def ownedSlot (entry : Bytes) : Ptr RiakBinary := .obj ⟨entry, true⟩

theorem copyEntries_of_ample (h : heap.Ample) {existing : UInt32} :
    ∀ (rest before : List Bytes) (slots free : List (Ptr RiakBinary)),
    existing.toNat = slots.length → free.length = rest.length →
    existing.toNat + before.length + rest.length < 2 ^ 31 →
    copyEntries (before ++ rest) existing rest.length before.length
        (slots ++ before.map ownedSlot ++ free) heap =
      .ok (slots ++ (before ++ rest).map ownedSlot, heap) := by
  intro rest
  induction rest with
  | nil =>
    intro before slots free hslots hfree _
    have hnil : free = [] := List.length_eq_zero_iff.mp hfree
    subst hnil
    simp [copyEntries]
  | cons entry rest ih =>
    intro before slots free hslots hfree hbound
    rw [List.length_cons] at hbound
    obtain ⟨slot, free, rfl⟩ : ∃ slot later, free = slot :: later := by
      cases free with
      | nil => cases hfree
      | cons slot later => exact ⟨slot, later, rfl⟩
    rw [List.length_cons, List.length_cons, Nat.add_right_cancel_iff] at hfree
    have hget : (before ++ entry :: rest)[before.length]? = some entry := by simp
    have hindex : (UInt32.ofNat before.length + existing).toNat =
        (slots ++ before.map ownedSlot).length := by
      rw [UInt32.toNat_add, UInt32.toNat_ofNat_of_lt' (show _ < 2 ^ 32 by omega),
        List.length_append, List.length_map, ← hslots, Nat.mod_eq_of_lt (by omega)]
      omega
    rw [List.length_cons, copyEntries, C.readAt_of_get hget, pure_bind,
      C.bind_of_ok (riakBinaryNew_of_ample h entry)]
    simp only [C.deref_some, pure_bind, hindex]
    rw [C.writeAt_of_lt (by rw [List.length_append]; simp), pure_bind,
      C.intSucc_of_lt (by omega), pure_bind,
      List.set_append_right _ _ (Nat.le_refl _), Nat.sub_self, List.set_cons_zero]
    have hrest := ih (before ++ [entry]) slots free hslots hfree
      (by rw [List.length_append, List.length_singleton]; omega)
    rw [List.append_assoc before, List.singleton_append, List.length_append,
      List.length_singleton, List.map_append, ← List.append_assoc slots, List.append_assoc _ _ free]
      at hrest
    exact hrest

theorem growEntries_of_ample (h : heap.Ample) {slots : List (Ptr RiakBinary)}
    {entries : Ptr (List (Ptr RiakBinary))} {existing additional : UInt32}
    (hentries : entries = .obj slots ∨ entries = .null ∧ slots = [])
    (hexisting : existing.toNat = slots.length)
    (hroom : existing.toNat + additional.toNat < 2 ^ 32) :
    ∃ free, free.length = additional.toNat ∧
      growEntries entries existing additional heap =
        .ok ((true, .obj (slots ++ free)), heap) := by
  rcases hentries with rfl | ⟨rfl, rfl⟩
  · have hsum : (additional + existing).toNat = additional.toNat + existing.toNat := by
      rw [UInt32.toNat_add]
      exact Nat.mod_eq_of_lt (by omega)
    refine ⟨List.replicate ((additional + existing).toNat - existing.toNat) .null, ?_, ?_⟩
    · rw [List.length_replicate, hsum]; omega
    · exact riakArrayRealloc_of_ample h hexisting (by omega)
  · refine ⟨List.replicate additional.toNat .wild, List.length_replicate, ?_⟩
    simp only [growEntries]
    rw [C.bind_of_ok (C.new_of_ample h _)]
    rfl

/-! ### One message -/

/-- The entries of all messages, in order of arrival. -/
def allEntries (message : ListMessage μ) (msgs : List μ) : List Bytes :=
  (msgs.map message.entries).flatten

theorem allEntries_concat (message : ListMessage μ) (seen : List μ) (m : μ) :
    allEntries message (seen ++ [m]) = allEntries message seen ++ message.entries m := by
  unfold allEntries
  rw [List.map_append, List.flatten_append, List.map_singleton, List.flatten_singleton]

theorem allEntries_length_le (message : ListMessage μ) {seen msgs : List μ}
    (hpre : seen <+: msgs) :
    (allEntries message seen).length ≤ (allEntries message msgs).length := by
  obtain ⟨later, rfl⟩ := hpre
  unfold allEntries
  rw [List.map_append, List.flatten_append, List.length_append]
  exact Nat.le_add_right _ _

/-- What the messages `seen` leave in a response: their entries, in order and
    with equal bytes, their number, and the messages themselves. -/
structure Listed (message : ListMessage μ) (seen : List μ) (response : RiakListResponse μ) :
    Prop where
  nEntries : response.nEntries.toNat = (allEntries message seen).length
  entries : response.entries = .obj ((allEntries message seen).map ownedSlot)
  raw : response.raw.Holds seen

/-- The invariant of a run. -/
def ListInv (message : ListMessage μ) (seen : List μ) (resp : Option (RiakListResponse μ)) :
    Prop :=
  seen = [] ∧ resp = none ∨ ∃ response, resp = some response ∧ Listed message seen response

/-- **One message** extends the listing by its entries and reports its own flag. -/
theorem listResponseDecode_of_ample (h : heap.Ample) (message : ListMessage μ)
    {unpack : Bytes → Option μ} {seen : List μ} {m : μ} {pbresp : RiakPbMessage}
    {resp : Option (RiakListResponse μ)} (done : RiakBoolean) (hframe : Unpacks unpack pbresp m)
    (hinv : ListInv message seen resp) (hfew : seen.length + 1 < 2 ^ 32)
    (hbound : (allEntries message (seen ++ [m])).length < 2 ^ 31) :
    ∃ response, listResponseDecode message unpack pbresp resp done heap =
        .ok (⟨.ok, some response, doneFlag (message.hasDone m) (message.done m)⟩, heap) ∧
      Listed message (seen ++ [m]) response := by
  rw [allEntries_concat, List.length_append] at hbound
  have hadditional : (UInt32.ofNat (message.entries m).length).toNat =
      (message.entries m).length := UInt32.toNat_ofNat_of_lt' (show _ < 2 ^ 32 by omega)
  have hstart : (resp.getD {}).nEntries.toNat = ((allEntries message seen).map ownedSlot).length ∧
      ((resp.getD {}).entries = .obj ((allEntries message seen).map ownedSlot) ∨
        (resp.getD {}).entries = .null ∧ (allEntries message seen).map ownedSlot = []) ∧
      (resp.getD {}).raw.Holds seen := by
    rcases hinv with ⟨rfl, rfl⟩ | ⟨response, rfl, hlisted⟩
    · exact ⟨rfl, Or.inr ⟨rfl, rfl⟩, RawMessages.holds_nil⟩
    · rw [List.length_map]
      exact ⟨hlisted.nEntries, Or.inl hlisted.entries, hlisted.raw⟩
  obtain ⟨hcount, hentries, hraw⟩ := hstart
  unfold listResponseDecode
  rw [hframe.payload, pure_bind, hframe.unpacked]
  simp only
  rw [C.bind_of_ok (existingOr_of_ample h resp _)]
  generalize resp.getD {} = response at hcount hentries hraw ⊢
  obtain ⟨free, hfree, hgrow⟩ := growEntries_of_ample h hentries hcount
    (by rw [hadditional, hcount, List.length_map]; omega)
  have hcopy := copyEntries_of_ample h (message.entries m) [] _ free hcount
    (by rw [hfree, hadditional])
    (by rw [hcount, List.length_map, List.length_nil]; omega)
  rw [List.nil_append, List.length_nil, List.map_nil, List.append_nil, ← List.map_append,
    ← allEntries_concat] at hcopy
  obtain ⟨raw', hadd, hraw'⟩ := hraw.add h m hfew
  simp only
  rw [C.bind_of_ok hgrow]
  simp only [Ptr.deref_obj, pure_bind, hadditional]
  rw [C.bind_of_ok hcopy, C.bind_of_ok hadd]
  refine ⟨_, rfl, ?_, rfl, hraw'⟩
  rw [UInt32.toNat_add, hcount, hadditional, List.length_map, allEntries_concat,
    List.length_append]
  exact Nat.mod_eq_of_lt (by omega)

/-! ### A whole listing -/

/-- What a listing should be: every message is decoded without an error and
    reports its own flag, and leaves the response with the entries of all
    messages up to it. -/
def ListsAll (message : ListMessage μ)
    (decode : RiakPbMessage → Option (RiakListResponse μ) → RiakBoolean →
      C (Decoded (RiakListResponse μ)))
    (heap : Heap) (pbresps : List RiakPbMessage) (msgs : List μ) (done : RiakBoolean) : Prop :=
  ∃ results, decodeAll decode pbresps none done heap = .ok (results, heap) ∧
    results.length = msgs.length ∧
    ∀ i m, msgs[i]? = some m → ∃ response,
      results[i]? =
        some ⟨.ok, some response, doneFlag (message.hasDone m) (message.done m)⟩ ∧
      Listed message (msgs.take (i + 1)) response

/-- The result of one message in a listing. -/
structure ListOut (message : ListMessage μ) (seen : List μ)
    (decoded : Decoded (RiakListResponse μ)) : Prop where
  listed : ∃ response, decoded.resp = some response ∧ Listed message seen response
  done : ∀ m, seen.getLast? = some m →
    decoded.done = doneFlag (message.hasDone m) (message.done m)

theorem listsAll_of_ample (h : heap.Ample) (message : ListMessage μ) (unpack : Bytes → Option μ)
    {pbresps : List RiakPbMessage} {msgs : List μ}
    (hframes : List.Forall₂ (Unpacks unpack) pbresps msgs) (hfew : msgs.length < 2 ^ 32)
    (hbound : (allEntries message msgs).length < 2 ^ 31) (done : RiakBoolean) :
    ListsAll message (listResponseDecode message unpack) heap pbresps msgs done := by
  have hroom : ∀ (seen : List μ) (m : μ), seen ++ [m] <+: msgs →
      seen.length + 1 < 2 ^ 32 ∧ (allEntries message (seen ++ [m])).length < 2 ^ 31 := by
    intro seen m hpre
    have hlength := hpre.length_le
    have hentries := allEntries_length_le message hpre
    rw [List.length_append, List.length_singleton] at hlength
    exact ⟨by omega, by omega⟩
  have progress : ∀ seen m pbresp resp done, seen ++ [m] <+: msgs →
      Unpacks unpack pbresp m → ListInv message seen resp →
      ∃ decoded, listResponseDecode message unpack pbresp resp done heap =
        .ok (decoded, heap) ∧ decoded.err = .ok := by
    intro seen m pbresp resp done hpre hframe hinv
    obtain ⟨hfew, hbound⟩ := hroom seen m hpre
    obtain ⟨response, hrun, _⟩ :=
      listResponseDecode_of_ample h message done hframe hinv hfew hbound
    exact ⟨_, hrun, rfl⟩
  have step : ∀ seen m pbresp resp done decoded final, seen ++ [m] <+: msgs →
      Unpacks unpack pbresp m → ListInv message seen resp →
      listResponseDecode message unpack pbresp resp done heap = .ok (decoded, final) →
      decoded.err = .ok →
      final = heap ∧ ListInv message (seen ++ [m]) decoded.resp ∧
        ListOut message (seen ++ [m]) decoded := by
    intro seen m pbresp resp done decoded final hpre hframe hinv hrun _
    obtain ⟨hfew, hbound⟩ := hroom seen m hpre
    obtain ⟨response, hrun', hlisted⟩ :=
      listResponseDecode_of_ample h message done hframe hinv hfew hbound
    rw [hrun', Except.ok.injEq, Prod.mk.injEq] at hrun
    obtain ⟨rfl, rfl⟩ := hrun
    refine ⟨rfl, Or.inr ⟨response, rfl, hlisted⟩, ⟨response, rfl, hlisted⟩, ?_⟩
    intro m' hm'
    rw [List.getLast?_concat, Option.some.injEq] at hm'
    rw [hm']
  have hempty : ListInv message [] none := Or.inl ⟨rfl, rfl⟩
  obtain ⟨results, hrun, hok⟩ := decodeAll_total step progress hframes [] none done hempty rfl
  obtain ⟨_, hlength, hall⟩ :=
    decodeAll_invariant step hframes [] none done results heap rfl hempty hrun hok
  refine ⟨results, hrun, hlength, ?_⟩
  intro i m hm
  obtain ⟨decoded, hdecoded⟩ : ∃ decoded, results[i]? = some decoded := by
    have hi : i < msgs.length := (List.getElem?_eq_some_iff.mp hm).1
    exact ⟨_, List.getElem?_eq_getElem (by omega)⟩
  have hout := hall i decoded hdecoded
  rw [List.nil_append] at hout
  obtain ⟨response, hresp, hlisted⟩ := hout.listed
  have hlast : (msgs.take (i + 1)).getLast? = some m := by
    rw [List.take_add_one, hm, Option.toList_some, List.getLast?_concat]
  refine ⟨response, ?_, hlisted⟩
  rw [hdecoded, ← hresp, ← hout.done m hlast,
    ← hok decoded (List.mem_of_getElem? hdecoded)]

theorem ListsAll.length_lt {message : ListMessage μ}
    {decode : RiakPbMessage → Option (RiakListResponse μ) → RiakBoolean →
      C (Decoded (RiakListResponse μ))}
    {pbresps : List RiakPbMessage} {msgs : List μ} {done : RiakBoolean}
    (h : ListsAll message decode heap pbresps msgs done) : msgs.length < 2 ^ 32 := by
  by_cases hempty : msgs.length = 0
  · rw [hempty]; exact Nat.two_pow_pos 32
  · obtain ⟨results, _, _, hall⟩ := h
    have hlast : msgs.length - 1 < msgs.length := by omega
    obtain ⟨response, _, hlisted⟩ := hall _ _ (List.getElem?_eq_getElem hlast)
    have hcount := hlisted.raw.count
    rw [Nat.sub_add_cancel (Nat.pos_of_ne_zero hempty), List.take_length] at hcount
    rw [← hcount]
    exact response.raw.nResponses.toNat_lt

/-- **Listings.** Decoding fewer than `2^32` messages with fewer than `2^31`
    entries one after another concatenates their entries, for keys and for
    buckets. -/
theorem riak_list_responses_concatenate (h : heap.Ample) (done : RiakBoolean) :
    (∀ (unpack : Bytes → Option RpbListKeysResp) (pbresps : List RiakPbMessage)
      (msgs : List RpbListKeysResp), List.Forall₂ (Unpacks unpack) pbresps msgs →
      msgs.length < 2 ^ 32 → (allEntries listkeysMessage msgs).length < 2 ^ 31 →
      ListsAll listkeysMessage (riakListkeysResponseDecode unpack) heap pbresps msgs done) ∧
    (∀ (unpack : Bytes → Option RpbListBucketsResp) (pbresps : List RiakPbMessage)
      (msgs : List RpbListBucketsResp), List.Forall₂ (Unpacks unpack) pbresps msgs →
      msgs.length < 2 ^ 32 → (allEntries listbucketsMessage msgs).length < 2 ^ 31 →
      ListsAll listbucketsMessage (riakListbucketsResponseDecode unpack) heap pbresps msgs
        done) := by
  constructor
  · intro unpack pbresps msgs hframes hfew hbound
    exact listsAll_of_ample h listkeysMessage unpack hframes hfew hbound done
  · intro unpack pbresps msgs hframes hfew hbound
    exact listsAll_of_ample h listbucketsMessage unpack hframes hfew hbound done

/-- What protobuf-c makes of the payload of an empty message, of one with the key
    `a`, and of one that is done. -/
def sampleKeysUnpack : Bytes → Option RpbListKeysResp
  | [] => some {}
  | [0x0a, 1, 0x61] => some { keys := [[0x61]] }
  | [0x10, 1] => some { hasDone := true, done := 1 }
  | _ => none

/-- A frame of type `MSG_RPBLISTKEYSRESP`. -/
def keysFrame (payload : Bytes) : RiakPbMessage :=
  ⟨18, UInt32.ofNat (payload.length + 1), 18 :: payload⟩

/-- An empty message, one with a key, and the last one. -/
theorem riak_list_responses_concatenate_sample :
    ListsAll listkeysMessage (riakListkeysResponseDecode sampleKeysUnpack) Heap.fresh
      [keysFrame [], keysFrame [0x0a, 1, 0x61], keysFrame [0x10, 1]]
      [{}, { keys := [[0x61]] }, { hasDone := true, done := 1 }] 0 := by
  apply (riak_list_responses_concatenate Heap.fresh_ample 0).1
  · exact .cons ⟨by decide, by decide, rfl⟩ (.cons ⟨by decide, by decide, rfl⟩
      (.cons ⟨by decide, by decide, rfl⟩ .nil))
  · decide
  · decide

/-- A listing of `2^32` empty messages has no entry at all, but `n_responses`
    cannot count its messages. -/
theorem riak_listkeys_cannot_count :
    List.Forall₂ (Unpacks sampleKeysUnpack) (List.replicate (2 ^ 32) (keysFrame []))
        (List.replicate (2 ^ 32) {}) ∧
      (allEntries listkeysMessage (List.replicate (2 ^ 32) {})).length = 0 ∧
      ¬ ListsAll listkeysMessage (riakListkeysResponseDecode sampleKeysUnpack) Heap.fresh
        (List.replicate (2 ^ 32) (keysFrame [])) (List.replicate (2 ^ 32) {}) 0 := by
  generalize hn : 2 ^ 32 = n
  refine ⟨?_, ?_, ?_⟩
  · rw [List.forall₂_iff_get]
    refine ⟨by rw [List.length_replicate, List.length_replicate], ?_⟩
    intro i hi hi'
    simp only [List.get_eq_getElem, List.getElem_replicate]
    exact ⟨by decide, by decide, rfl⟩
  · unfold allEntries
    rw [List.map_replicate]
    simp [listkeysMessage]
  · intro hall
    have hlt := hall.length_lt
    rw [List.length_replicate, hn] at hlt
    exact absurd hlt (Nat.lt_irrefl n)

end RiakClient
