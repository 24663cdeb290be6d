import RiakClient.ResponseFree

/-!
# Calls of a streaming decoder

A decoder is called for one message after another, whatever the allocator says to
each call. What a call may need for the response to stay sound is a condition on
the response before it, on its message, and on the requests that are refused. For
a listing it is that its loops can count.
-/

namespace RiakClient

open CSem

variable {ρ μ : Type} {heap final : Heap}

/-! ### Calls of a decoder -/

/-- A call: the frame, what `*done` was, and what the allocator is going to say. -/
structure DecodeCall where
  pbresp : RiakPbMessage
  done : RiakBoolean
  heap : Heap

/-- The message that a frame carries, going by protobuf-c. -/
def DecodeCall.message (unpack : Bytes → Option μ) (call : DecodeCall) : Option μ :=
  unpack ((call.pbresp.data.take call.pbresp.len.toNat).drop 1)

/-- A call that returns, under a condition. -/
def StreamStep (decode : RiakPbMessage → Option ρ → RiakBoolean → C (Decoded ρ))
    (Allowed : Option ρ → DecodeCall → Prop) (resp : Option ρ) (call : DecodeCall)
    (resp' : Option ρ) : Prop :=
  Allowed resp call ∧ ∃ decoded final,
    decode call.pbresp resp call.done call.heap = .ok (decoded, final) ∧ decoded.resp = resp'

theorem payload_eq_ok {pbresp : RiakPbMessage} {bytes : Bytes}
    (h : pbresp.payload heap = .ok (bytes, final)) :
    bytes = (pbresp.data.take pbresp.len.toNat).drop 1 ∧ final = heap := by
  unfold RiakPbMessage.payload at h
  by_cases hbad : pbresp.len.toNat = 0 ∨ pbresp.data.length < pbresp.len.toNat
  · rw [if_pos hbad] at h
    cases h
  · rw [if_neg hbad] at h
    simp only [C.pure_apply, Except.ok.injEq, Prod.mk.injEq] at h
    exact ⟨h.1.symm, h.2.symm⟩

theorem existingOr_eq_ok {resp slot : Option ρ} {empty : ρ}
    (h : existingOr resp empty heap = .ok (slot, final)) :
    resp = none ∧ slot = none ∧ heap.answer 0 = false ∨
      ∃ response, slot = some response ∧
        (resp = none ∧ response = empty ∧ heap.answer 0 = true ∧ final = heap.after 1 ∨
          resp = some response ∧ final = heap) := by
  cases resp with
  | some response =>
    cases h
    exact Or.inr ⟨response, rfl, Or.inr ⟨rfl, rfl⟩⟩
  | none =>
    have hnew : C.new empty heap = .ok (slot, final) := h
    rw [C.new_eq] at hnew
    simp only [Except.ok.injEq, Prod.mk.injEq] at hnew
    obtain ⟨rfl, rfl⟩ := hnew
    cases hanswer : heap.answer 0 with
    | false => exact Or.inl ⟨rfl, rfl, rfl⟩
    | true => exact Or.inr ⟨empty, rfl, Or.inl ⟨rfl, rfl, rfl, rfl⟩⟩

theorem soundOrNull_none {Sound : ρ → List μ → Prop} : SoundOrNull Sound none := by
  rintro response ⟨⟩

theorem soundOrNull_some {Sound : ρ → List μ → Prop} {response : ρ} {seen : List μ}
    (h : Sound response seen) : SoundOrNull Sound (some response) := by
  rintro _ ⟨⟩
  exact ⟨seen, h⟩

theorem soundOrNull_leftIn {Sound : ρ → List μ → Prop} {resp : Option ρ} {response' : ρ}
    (h : ∀ response, resp = some response → ∃ seen, Sound response' seen) :
    SoundOrNull Sound (leftIn resp response') := by
  cases resp with
  | none => exact soundOrNull_none
  | some response =>
    rintro _ ⟨⟩
    exact h response rfl

/-! ### Listings

The decoder is taken apart as it is written: the array of entries, the copying loop,
and the rest of the call once there is a response. Each part is described by what it
has done if it returned, for any answers of the allocator; a first message only has to
be looked at if it leaves a response. -/

/-- What a listing needs of a call: the indices of its loops stay `int`s. A first
    message can only be too long for the decoder itself. The requests are one for
    the array, two for every entry, and one for the raw messages. -/
def ListAllowed (message : ListMessage μ) (unpack : Bytes → Option μ)
    (resp : Option (RiakListResponse μ)) (call : DecodeCall) : Prop :=
  ∀ response m, resp = some response → call.message unpack = some m →
    let additional := (UInt32.ofNat (message.entries m).length).toNat
    call.heap.answer 0 = false ∨
      response.nEntries.toNat + additional < 2 ^ 31 ∧
        (call.heap.answer (1 + 2 * additional) = false ∨
          response.raw.nResponses.toNat + 1 < 2 ^ 31)

theorem riakBinaryNew_eq_ok {data : Bytes} {bin : RiakBinary}
    (h : riakBinaryNew data heap = .ok (some bin, final)) : final = heap.after 2 := by
  unfold riakBinaryNew at h
  rw [C.bind_of_ok (C.allocate_eq heap)] at h
  cases hfirst : heap.answer 0 with
  | false =>
    simp only [hfirst, Bool.false_eq_true, if_false, C.pure_apply, Except.ok.injEq,
      Prod.mk.injEq] at h
    cases h.1
  | true =>
    simp only [hfirst, if_true] at h
    rw [C.bind_of_ok (C.allocate_eq _)] at h
    cases hsecond : (heap.after 1).answer 0 with
    | false =>
      simp only [hsecond, Bool.false_eq_true, if_false, C.pure_apply, Except.ok.injEq,
        Prod.mk.injEq] at h
      cases h.1
    | true =>
      simp only [hsecond, if_true, C.pure_apply, Except.ok.injEq, Prod.mk.injEq] at h
      rw [← h.2, Heap.after_after]

theorem growEntries_eq_ok {slots : List (Ptr RiakBinary)} {entries array : Ptr (List (Ptr RiakBinary))}
    {existing additional : UInt32} {grown : Bool}
    (hentries : entries = .obj slots ∨ entries = .null ∧ slots = [])
    (hexisting : existing.toNat = slots.length)
    (h : growEntries entries existing additional heap = .ok ((grown, array), final)) :
    final = heap.after 1 ∧ grown = heap.answer 0 ∧ (grown = false → array = entries) ∧
      (grown = true → slots.length + additional.toNat < 2 ^ 32 ∧
        ∃ free, free.length = additional.toNat ∧ array = .obj (slots ++ free)) := by
  rcases hentries with rfl | ⟨rfl, rfl⟩
  · obtain ⟨hheap, hgrown, hsame, harray⟩ := riakArrayRealloc_eq_ok h
    refine ⟨hheap, hgrown, hsame, ?_⟩
    intro htrue
    obtain ⟨old, hold, _, hfits, hnew⟩ := harray htrue
    rw [Ptr.obj.injEq] at hold
    subst hold
    have hadditional := additional.toNat_lt
    have hsum : (additional + existing).toNat = slots.length + additional.toNat ∧
        slots.length + additional.toNat < 2 ^ 32 := by
      rw [UInt32.toNat_add] at hfits ⊢
      omega
    refine ⟨hsum.2, List.replicate ((additional + existing).toNat - existing.toNat) .null, ?_,
      hnew.trans ?_⟩
    · rw [List.length_replicate]
      omega
    · rw [hexisting, List.take_length]
  · unfold growEntries at h
    simp only at h
    rw [C.bind_of_ok (C.new_eq heap _)] at h
    have hadditional := additional.toNat_lt
    cases hanswer : heap.answer 0 with
    | false =>
      simp only [hanswer, Bool.false_eq_true, if_false, C.pure_apply, Except.ok.injEq,
        Prod.mk.injEq] at h
      obtain ⟨⟨rfl, rfl⟩, rfl⟩ := h
      refine ⟨rfl, rfl, fun _ => rfl, ?_⟩
      rintro ⟨⟩
    | true =>
      simp only [hanswer, if_true, C.pure_apply, Except.ok.injEq, Prod.mk.injEq] at h
      obtain ⟨⟨rfl, rfl⟩, rfl⟩ := h
      refine ⟨rfl, rfl, ?_, fun _ => ⟨?_, _, List.length_replicate, rfl⟩⟩
      · rintro ⟨⟩
      · rw [List.length_nil]
        omega

/-- The copying loop sets the slots that it goes over, and asks for two
    allocations a slot. -/
theorem copyEntries_eq_ok {entries : List Bytes} {existing : UInt32} :
    ∀ (left i : Nat) (slots slots' : List (Ptr RiakBinary)) (heap final : Heap),
    slots.length < 2 ^ 32 → existing.toNat + i + left ≤ slots.length →
    copyEntries entries existing left i slots heap = .ok (slots', final) →
    (left = 0 ∨ i + left < 2 ^ 31) ∧ final = heap.after (2 * left) ∧
      slots'.length = slots.length ∧
      ∀ k, slots'[k]? = some .wild →
        slots[k]? = some .wild ∧ (k < existing.toNat + i ∨ existing.toNat + i + left ≤ k) := by
  intro left
  induction left with
  | zero =>
    intro i slots slots' heap final _ _ h
    simp only [copyEntries, C.pure_apply, Except.ok.injEq, Prod.mk.injEq] at h
    obtain ⟨rfl, rfl⟩ := h
    refine ⟨Or.inl rfl, rfl, rfl, ?_⟩
    intro k hk
    exact ⟨hk, by omega⟩
  | succ left ih =>
    intro i slots slots' heap final hsmall hinside h
    obtain ⟨entry, heap₁, hread, h₁⟩ := C.bind_eq_ok.mp h
    obtain ⟨_, rfl⟩ := C.readAt_eq_ok.mp hread
    obtain ⟨copied, heap₂, hcopied, h₂⟩ := C.bind_eq_ok.mp h₁
    obtain ⟨copy, heap₃, hderef, h₃⟩ := C.bind_eq_ok.mp h₂
    obtain ⟨rfl, rfl⟩ := C.deref_eq_ok.mp hderef
    have hheap₂ := riakBinaryNew_eq_ok hcopied
    obtain ⟨stored, heap₄, hstore, h₄⟩ := C.bind_eq_ok.mp h₃
    obtain ⟨next, heap₅, hnext, h₅⟩ := C.bind_eq_ok.mp h₄
    obtain ⟨hint, rfl, rfl⟩ := C.intSucc_eq_ok.mp hnext
    have hindex : (UInt32.ofNat i + existing).toNat = existing.toNat + i := by
      rw [UInt32.toNat_add, UInt32.toNat_ofNat_of_lt' (show _ < 2 ^ 32 by omega)]
      omega
    rw [hindex, C.writeAt_of_lt (by omega)] at hstore
    obtain ⟨rfl, rfl⟩ := C.pure_eq_ok.mp hstore
    obtain ⟨hbound, hfinal, hlength, hwild⟩ := ih (i + 1) _ slots' _ final
      (by rw [List.length_set]; exact hsmall) (by rw [List.length_set]; omega) h₅
    refine ⟨Or.inr (by omega), ?_, by rw [hlength, List.length_set], ?_⟩
    · rw [hfinal, hheap₂, Heap.after_after]
      congr 1
      omega
    · intro k hk
      obtain ⟨hold, hplace⟩ := hwild k hk
      by_cases hsame : existing.toNat + i = k
      · rw [hsame, List.getElem?_set_self (by omega)] at hold
        cases hold
      · rw [List.getElem?_set_ne hsame] at hold
        exact ⟨hold, by omega⟩

/-- Where a call starts: with the slots and the raw messages of the response, or
    with an empty one. -/
structure ListStart (resp : Option (RiakListResponse μ)) (response : RiakListResponse μ)
    (slots : List (Ptr RiakBinary)) (seen : List μ) : Prop where
  entries : response.entries = .obj slots ∨ response.entries = .null ∧ slots = []
  count : response.nEntries.toNat = slots.length
  set : .wild ∉ slots
  holds : response.raw.Holds seen
  existing : resp = some response ∧ response.raw.Sound seen ∨ resp = none ∧ slots = [] ∧ seen = []

theorem listStart_empty : ListStart none ({} : RiakListResponse μ) [] [] where
  entries := Or.inr ⟨rfl, rfl⟩
  count := rfl
  set := List.not_mem_nil
  holds := RawMessages.holds_nil
  existing := Or.inr ⟨rfl, rfl, rfl⟩

theorem RiakListResponse.Sound.start {response : RiakListResponse μ} {seen : List μ}
    (h : response.Sound seen) : ∃ slots, ListStart (some response) response slots seen := by
  obtain ⟨slots, hslots, hlength, hset⟩ := h.entries
  exact ⟨slots, Or.inl hslots, hlength.symm, hset, h.raw.holds, Or.inl ⟨rfl, h.raw⟩⟩

theorem ListStart.copied {resp : Option (RiakListResponse μ)} {response : RiakListResponse μ}
    {slots free slots' : List (Ptr RiakBinary)} {seen : List μ}
    (h : ListStart resp response slots seen) {entries : List Bytes} {additional : UInt32}
    (hsmall : slots.length + additional.toNat < 2 ^ 32) (hfree : free.length = additional.toNat)
    (hcopy : copyEntries entries response.nEntries additional.toNat 0 (slots ++ free) heap =
      .ok (slots', final)) :
    (additional.toNat = 0 ∨ additional.toNat < 2 ^ 31) ∧
      final = heap.after (2 * additional.toNat) ∧
      (response.nEntries + additional).toNat = slots.length + additional.toNat ∧
      slots'.length = slots.length + additional.toNat ∧ .wild ∉ slots' := by
  have hcount := h.count
  obtain ⟨hint, hheap, hlength, hwild⟩ := copyEntries_eq_ok _ _ _ _ _ _
    (by rw [List.length_append]; omega) (by rw [List.length_append]; omega) hcopy
  rw [List.length_append, hfree] at hlength
  refine ⟨by omega, hheap, ?_, hlength, ?_⟩
  · rw [UInt32.toNat_add, hcount, Nat.mod_eq_of_lt hsmall]
  · intro hmem
    obtain ⟨k, hk⟩ := List.mem_iff_getElem?.mp hmem
    obtain ⟨hold, hplace⟩ := hwild k hk
    have hinside := (List.getElem?_eq_some_iff.mp hk).1
    rw [List.getElem?_append_left (by omega)] at hold
    exact h.set (List.mem_of_getElem? hold)

/-- The rest of a call, once there is a response. -/
def listResponseExtend (message : ListMessage μ) (resp : Option (RiakListResponse μ))
    (response : RiakListResponse μ) (m : μ) (done : RiakBoolean) :
    C (Decoded (RiakListResponse μ)) := do
  let additional := UInt32.ofNat (message.entries m).length
  match ← growEntries response.entries response.nEntries additional with
  | (false, entries) =>
      pure ⟨.outOfMemory, leftIn resp { response with entries := entries }, done⟩
  | (true, entries) =>
      let slots ← copyEntries (message.entries m) response.nEntries
        additional.toNat 0 (← entries.deref)
      let flag := doneFlag (message.hasDone m) (message.done m)
      let nEntries := response.nEntries + additional
      match ← response.raw.add m with
      | (false, raw) =>
          pure ⟨.outOfMemory, leftIn resp ⟨nEntries, .obj slots, flag, raw⟩, flag⟩
      | (true, raw) => pure ⟨.ok, some ⟨nEntries, .obj slots, flag, raw⟩, flag⟩

theorem ListStart.extend {message : ListMessage μ} {resp : Option (RiakListResponse μ)}
    {response : RiakListResponse μ} {slots : List (Ptr RiakBinary)} {seen : List μ} {m : μ}
    {done : RiakBoolean} {decoded : Decoded (RiakListResponse μ)}
    (h : ListStart resp response slots seen) (hsound : SoundOrNull RiakListResponse.Sound resp)
    (hallowed : resp = some response →
      let additional := (UInt32.ofNat (message.entries m).length).toNat
      heap.answer 0 = false ∨ response.nEntries.toNat + additional < 2 ^ 31 ∧
        (heap.answer (1 + 2 * additional) = false ∨ response.raw.nResponses.toNat + 1 < 2 ^ 31))
    (hrun : listResponseExtend message resp response m done heap = .ok (decoded, final)) :
    SoundOrNull RiakListResponse.Sound decoded.resp := by
  obtain ⟨⟨grown, array⟩, heap₁, hgrow, hrun₁⟩ := C.bind_eq_ok.mp hrun
  obtain ⟨rfl, rfl, hsame, hgrown⟩ := growEntries_eq_ok h.entries h.count hgrow
  cases hanswer : heap.answer 0 with
  | false =>
    simp only [hanswer, C.pure_apply, Except.ok.injEq, Prod.mk.injEq] at hrun₁
    obtain ⟨rfl, _⟩ := hrun₁
    rcases h.existing with ⟨rfl, _⟩ | ⟨rfl, _⟩
    · rw [hsame hanswer]
      exact hsound
    · exact soundOrNull_none
  | true =>
    obtain ⟨hsmall, free, hfree, rfl⟩ := hgrown hanswer
    simp only [hanswer, Ptr.deref_obj, pure_bind] at hrun₁
    obtain ⟨slots', heap₂, hcopy, hrun₂⟩ := C.bind_eq_ok.mp hrun₁
    obtain ⟨hint, rfl, hcount, hlength, hset⟩ := h.copied hsmall hfree hcopy
    obtain ⟨⟨added, raw⟩, heap₃, hadd, hrun₃⟩ := C.bind_eq_ok.mp hrun₂
    obtain ⟨_, hadded, hkept, hnew⟩ := h.holds.add_eq_ok hadd
    rw [Heap.answer_after, Heap.answer_after] at hadded
    have hstart := h.count
    cases added with
    | false =>
      obtain ⟨rfl, _⟩ := C.pure_eq_ok.mp hrun₃
      rcases h.existing with ⟨rfl, hraw⟩ | ⟨rfl, _⟩
      · rcases hallowed rfl with hrefused | ⟨hfew, _⟩
        · rw [hanswer] at hrefused
          cases hrefused
        · apply soundOrNull_some
          refine ⟨⟨slots', rfl, by rw [hlength, hcount], hset⟩, ?_, hkept rfl, hraw.some, hraw.few⟩
          show (response.nEntries + _).toNat < 2 ^ 31
          omega
      · exact soundOrNull_none
    | true =>
      obtain ⟨rfl, _⟩ := C.pure_eq_ok.mp hrun₃
      apply soundOrNull_some
      have hbounds : slots.length + (UInt32.ofNat (message.entries m).length).toNat < 2 ^ 31 ∧
          seen.length + 1 < 2 ^ 31 := by
        rcases h.existing with ⟨rfl, hraw⟩ | ⟨rfl, rfl, rfl⟩
        · rcases hallowed rfl with hrefused | ⟨hfew, hrefused | hcounted⟩
          · rw [hanswer] at hrefused
            cases hrefused
          · rw [Nat.add_zero] at hadded
            rw [← hadded] at hrefused
            cases hrefused
          · rw [hraw.holds.count] at hcounted
            exact ⟨by omega, hcounted⟩
        · rw [List.length_nil, List.length_nil]
          exact ⟨by omega, by omega⟩
      refine ⟨⟨slots', rfl, by rw [hlength, hcount], hset⟩, ?_, (hnew rfl).sound hbounds.2⟩
      show (response.nEntries + _).toNat < 2 ^ 31
      omega

/-- **A call that is allowed** leaves a sound listing, or NULL. -/
theorem listResponseDecode_sound {message : ListMessage μ} {unpack : Bytes → Option μ}
    {resp : Option (RiakListResponse μ)} {call : DecodeCall}
    {decoded : Decoded (RiakListResponse μ)} (hsound : SoundOrNull RiakListResponse.Sound resp)
    (hallowed : ListAllowed message unpack resp call)
    (hrun : listResponseDecode message unpack call.pbresp resp call.done call.heap =
      .ok (decoded, final)) :
    SoundOrNull RiakListResponse.Sound decoded.resp := by
  obtain ⟨bytes, heap₁, hpayload, hrun₁⟩ := C.bind_eq_ok.mp hrun
  obtain ⟨rfl, rfl⟩ := payload_eq_ok hpayload
  cases hm : unpack ((call.pbresp.data.take call.pbresp.len.toNat).drop 1) with
  | none =>
    simp only [hm, C.pure_apply, Except.ok.injEq, Prod.mk.injEq] at hrun₁
    obtain ⟨rfl, _⟩ := hrun₁
    exact hsound
  | some m =>
    simp only [hm] at hrun₁
    obtain ⟨slot, heap₂, hexisting, hrun₂⟩ := C.bind_eq_ok.mp hrun₁
    rcases existingOr_eq_ok hexisting with ⟨rfl, rfl, _⟩ | ⟨response, rfl, hstart⟩
    · obtain ⟨rfl, _⟩ := C.pure_eq_ok.mp hrun₂
      exact soundOrNull_none
    · rcases hstart with ⟨rfl, rfl, _, rfl⟩ | ⟨rfl, rfl⟩
      · exact listStart_empty.extend hsound (by rintro ⟨⟩) hrun₂
      · obtain ⟨seen, hold⟩ := hsound response rfl
        obtain ⟨slots, hlist⟩ := hold.start
        exact hlist.extend hsound (fun _ => hallowed response m rfl hm) hrun₂

end RiakClient
