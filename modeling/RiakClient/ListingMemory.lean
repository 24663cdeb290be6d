import RiakClient.Run
import RiakClient.StreamCalls

/-!
# Listings without memory

One message of a listing asks for a response, if there is none yet, for an array of
entries, twice for every entry and once for the array of raw messages. This module
says what the decoder has done when any of these requests is refused: which refusals
it survives, and which of them leave the response as it was before the message.

One message is described by an inductive type, one constructor for each way that it
can end, with what it leaves behind on that way. Whether a call is all or nothing is
then read off the constructors, and the invariant that later calls need is that what
was returned has its slots and its messages, whatever was refused before.
-/

namespace RiakClient

open CSem LabelledRun

variable {ρ μ : Type} {heap final : Heap}

/-! ### What is asked of a decoder -/

/-- A frame that has the bytes that it claims, with a message type among them. -/
structure RiakPbMessage.Whole (pbresp : RiakPbMessage) : Prop where
  nonempty : pbresp.len.toNat ≠ 0
  complete : pbresp.len.toNat ≤ pbresp.data.length

theorem RiakPbMessage.Whole.payload {pbresp : RiakPbMessage} (h : pbresp.Whole) :
    pbresp.payload = pure ((pbresp.data.take pbresp.len.toNat).drop 1) :=
  @Unpacks.payload _ some pbresp _ ⟨h.nonempty, h.complete, rfl⟩

/-- A response that calls have left, whatever the allocator said to them. -/
def Accumulated (decode : RiakPbMessage → Option ρ → RiakBoolean → C (Decoded ρ))
    (resp : Option ρ) : Prop :=
  ∃ calls, Run (StreamStep decode fun _ _ => True) none calls resp

/-- The same entries, as many of them, and as many messages. -/
structure RiakListResponse.Unchanged (response response' : RiakListResponse μ) : Prop where
  entries : response'.entries = response.entries
  nEntries : response'.nEntries = response.nEntries
  messages : response'.raw.nResponses = response.raw.nResponses

/-- A call does not follow NULL, and after an error `*resp` is NULL or what it was. -/
structure Undone (resp : Option (RiakListResponse μ))
    (outcome : Except Fault (Decoded (RiakListResponse μ) × Heap)) : Prop where
  follows : outcome ≠ .error .nullDereference
  undone : ∀ decoded final, outcome = .ok (decoded, final) → decoded.err ≠ .ok →
    decoded.resp = none ∨ ∃ response response', resp = some response ∧
      decoded.resp = some response' ∧ response.Unchanged response'

/-- The rounds that the copying loop makes before its `int` overflows. -/
def copyRounds (additional : Nat) : Nat := min additional (2 ^ 31)

/-- The requests that a message has to be granted, if it has a response and gets an array
    for the entries: all the copies are made; and where there was a response before that
    got longer, so is its array of raw messages. -/
def ExtendSupplied (resp : Option (RiakListResponse μ)) (existing additional : Nat)
    (heap : Heap) : Prop :=
  heap.Grants 1 → existing + additional < 2 ^ 32 →
    (heap.after 1).Grants (2 * copyRounds additional) ∧
      (resp.isSome → 0 < additional → additional < 2 ^ 31 →
        heap.answer (1 + 2 * additional) = true)

/-- The same for a call, which asks for the response first if there is none. -/
def ListSupplied (message : ListMessage μ) (unpack : Bytes → Option μ)
    (resp : Option (RiakListResponse μ)) (call : DecodeCall) : Prop :=
  ∀ m, call.message unpack = some m →
    let additional := (UInt32.ofNat (message.entries m).length).toNat
    match resp with
    | some response => ExtendSupplied resp response.nEntries.toNat additional call.heap
    | none => call.heap.answer 0 = true → ExtendSupplied resp 0 additional (call.heap.after 1)

/-! ### The copying loop on any heap -/

/-- With its requests granted the loop fills the slots, or its `int` overflows. At the
    first refusal it reads through the NULL of `riak_binary_new`. -/
theorem copyEntries_cases {entries : List Bytes} {existing : UInt32} :
    ∀ (left i : Nat) (slots : List (Ptr RiakBinary)) (heap : Heap), slots.length < 2 ^ 32 →
    existing.toNat + i + left ≤ slots.length → i + left ≤ entries.length → i < 2 ^ 31 →
    heap.Grants (2 * min left (2 ^ 31 - i)) ∧ i + left < 2 ^ 31 ∧
        (∃ slots', copyEntries entries existing left i slots heap =
          .ok (slots', heap.after (2 * left))) ∨
      heap.Grants (2 * min left (2 ^ 31 - i)) ∧ 2 ^ 31 ≤ i + left ∧
        copyEntries entries existing left i slots heap = .error .signedOverflow ∨
      ¬ heap.Grants (2 * min left (2 ^ 31 - i)) ∧
        copyEntries entries existing left i slots heap = .error .nullDereference := by
  intro left
  induction left with
  | zero =>
    intro i slots heap _ _ _ hint
    rw [Nat.zero_min]
    exact Or.inl ⟨heap.grants_zero, hint, slots, rfl⟩
  | succ left ih =>
    intro i slots heap hsmall hinside hentries hint
    have hread : entries[i]? = some entries[i] := List.getElem?_eq_getElem (by omega)
    have hindex : (UInt32.ofNat i + existing).toNat = existing.toNat + i := by
      rw [UInt32.toNat_add, UInt32.toNat_ofNat_of_lt' (show _ < 2 ^ 32 by omega)]
      omega
    have hrounds : 2 * min (left + 1) (2 ^ 31 - i) = 2 + 2 * min left (2 ^ 31 - (i + 1)) := by
      omega
    rw [hrounds, Heap.grants_add, copyEntries, C.readAt_of_get hread, pure_bind]
    by_cases hcopy : heap.Grants 2
    · rw [C.bind_of_ok (riakBinaryNew_granted hcopy _), C.deref_some, pure_bind, hindex,
        C.writeAt_of_lt (by omega), pure_bind]
      by_cases hnext : i + 1 < 2 ^ 31
      · rw [C.intSucc_of_lt hnext, pure_bind]
        have hlater := ih (i + 1) (slots.set (existing.toNat + i) (.obj ⟨entries[i], true⟩))
          (heap.after 2) (by rw [List.length_set]; exact hsmall)
          (by rw [List.length_set]; omega) (by omega) hnext
        rcases hlater with ⟨hgrants, hfew, slots', hrun⟩ | ⟨hgrants, hmany, hrun⟩ | ⟨hrefused, hrun⟩
        · refine Or.inl ⟨⟨hcopy, hgrants⟩, by omega, slots', ?_⟩
          rw [hrun, Heap.after_after, show 2 + 2 * left = 2 * (left + 1) by omega]
        · exact Or.inr (Or.inl ⟨⟨hcopy, hgrants⟩, by omega, hrun⟩)
        · exact Or.inr (Or.inr ⟨fun hall => hrefused hall.2, hrun⟩)
      · have hlast : min left (2 ^ 31 - (i + 1)) = 0 := by omega
        rw [hlast]
        refine Or.inr (Or.inl ⟨⟨hcopy, Heap.grants_zero _⟩, by omega, ?_⟩)
        rw [C.intSucc_of_le (by omega)]
        rfl
    · obtain ⟨final, hrefused⟩ := riakBinaryNew_refused hcopy entries[i]
      refine Or.inr (Or.inr ⟨fun hall => hcopy hall.1, ?_⟩)
      rw [C.bind_of_ok hrefused]
      rfl

/-! ### The two arrays on any heap -/

/-- The larger array: refused, or with free slots behind the old ones, or too long for
    its length to be a number of 32 bits. -/
theorem growEntries_cases {slots : List (Ptr RiakBinary)} {entries : Ptr (List (Ptr RiakBinary))}
    {existing additional : UInt32} (heap : Heap)
    (hentries : entries = .obj slots ∨ entries = .null ∧ slots = [])
    (hexisting : existing.toNat = slots.length) :
    heap.answer 0 = false ∧
        growEntries entries existing additional heap = .ok ((false, entries), heap.after 1) ∨
      heap.answer 0 = true ∧ slots.length + additional.toNat < 2 ^ 32 ∧
        (∃ free, free.length = additional.toNat ∧
          growEntries entries existing additional heap =
            .ok ((true, .obj (slots ++ free)), heap.after 1)) ∨
      heap.answer 0 = true ∧ 2 ^ 32 ≤ slots.length + additional.toNat ∧
        growEntries entries existing additional heap = .error .outOfBounds := by
  have hadditional := additional.toNat_lt
  have hcount := existing.toNat_lt
  cases hanswer : heap.answer 0 with
  | false =>
    refine Or.inl ⟨rfl, ?_⟩
    rcases hentries with rfl | ⟨rfl, _⟩
    · exact riakArrayRealloc_refused hanswer _ _ _
    · unfold growEntries
      simp only
      rw [C.bind_of_ok (C.new_eq heap _), hanswer]
      rfl
  | true =>
    rcases hentries with rfl | ⟨rfl, rfl⟩
    · have hsum : (additional + existing).toNat = (additional.toNat + existing.toNat) % 2 ^ 32 :=
        UInt32.toNat_add _ _
      by_cases hfits : slots.length + additional.toNat < 2 ^ 32
      · refine Or.inr (Or.inl ⟨rfl, hfits,
          List.replicate ((additional + existing).toNat - existing.toNat) .null, ?_, ?_⟩)
        · rw [List.length_replicate]
          omega
        · have hgrown := @riakArrayRealloc_granted _ heap hanswer slots existing
            (additional + existing) (by omega) (by omega)
          rw [hexisting, List.take_length] at hgrown
          rw [hexisting]
          exact hgrown
      · refine Or.inr (Or.inr ⟨rfl, Nat.not_lt.mp hfits, ?_⟩)
        exact riakArrayRealloc_faults hanswer (by omega)
    · refine Or.inr (Or.inl ⟨rfl, ?_, List.replicate additional.toNat .wild,
        List.length_replicate, ?_⟩)
      · rw [List.length_nil]
        omega
      · unfold growEntries
        simp only
        rw [C.bind_of_ok (C.new_eq heap _), hanswer]
        rfl

/-! ### One message

`extend_outcome` goes through the requests in their order: the array of entries, two
for each entry, the array of messages. -/

/-- The slots and the messages of a response, or of an empty one. -/
structure ListBase (response : RiakListResponse μ) (slots : List (Ptr RiakBinary))
    (seen : List μ) : Prop where
  entries : response.entries = .obj slots ∨ response.entries = .null ∧ slots = []
  count : response.nEntries.toNat = slots.length
  holds : response.raw.Holds seen

theorem listBase_empty : ListBase ({} : RiakListResponse μ) [] [] :=
  ⟨Or.inr ⟨rfl, rfl⟩, rfl, RawMessages.holds_nil⟩

/-- The entries of a message have been copied behind the slots. -/
structure EntriesCopied (slots slots' : List (Ptr RiakBinary)) (additional : Nat) (heap : Heap) :
    Prop where
  answer : heap.answer 0 = true
  fits : slots.length + additional < 2 ^ 32
  grants : (heap.after 1).Grants (2 * copyRounds additional)
  few : additional < 2 ^ 31
  length : slots'.length = slots.length + additional
  same : additional = 0 → slots' = slots

/-- What one message comes to, once there is a response: `nEntries` and `flag` are what it
    makes of the number of entries and of `*done`. -/
inductive ListOutcome (resp : Option (RiakListResponse μ)) (response : RiakListResponse μ)
    (slots : List (Ptr RiakBinary)) (seen : List μ) (m : μ) (done : RiakBoolean) (heap : Heap)
    (additional : Nat) (nEntries : UInt32) (flag : RiakBoolean) :
    Except Fault (Decoded (RiakListResponse μ) × Heap) → Prop
  | arrayRefused (hanswer : heap.answer 0 = false) :
      ListOutcome resp response slots seen m done heap additional nEntries flag
        (.ok (⟨.outOfMemory, leftIn resp response, done⟩, heap.after 1))
  | tooManyEntries (hanswer : heap.answer 0 = true) (hlarge : 2 ^ 32 ≤ slots.length + additional) :
      ListOutcome resp response slots seen m done heap additional nEntries flag
        (.error .outOfBounds)
  | copyRefused (hanswer : heap.answer 0 = true) (hfits : slots.length + additional < 2 ^ 32)
      (hrefused : ¬ (heap.after 1).Grants (2 * copyRounds additional)) :
      ListOutcome resp response slots seen m done heap additional nEntries flag
        (.error .nullDereference)
  | indexOverflow (hanswer : heap.answer 0 = true) (hfits : slots.length + additional < 2 ^ 32)
      (hgrants : (heap.after 1).Grants (2 * copyRounds additional))
      (hmany : 2 ^ 31 ≤ additional) :
      ListOutcome resp response slots seen m done heap additional nEntries flag
        (.error .signedOverflow)
  | messageRefused {slots' : List (Ptr RiakBinary)} {raw : RawMessages μ} {final : Heap}
      (hcopied : EntriesCopied slots slots' additional heap)
      (hanswer : heap.answer (1 + 2 * additional) = false) (hholds : raw.Holds seen)
      (hcount : raw.nResponses = response.raw.nResponses) :
      ListOutcome resp response slots seen m done heap additional nEntries flag
        (.ok (⟨.outOfMemory, leftIn resp ⟨nEntries, .obj slots', flag, raw⟩, flag⟩, final))
  | stored {slots' : List (Ptr RiakBinary)} {raw : RawMessages μ} {final : Heap}
      (hcopied : EntriesCopied slots slots' additional heap)
      (hanswer : heap.answer (1 + 2 * additional) = true) (hholds : raw.Holds (seen ++ [m])) :
      ListOutcome resp response slots seen m done heap additional nEntries flag
        (.ok (⟨.ok, some ⟨nEntries, .obj slots', flag, raw⟩, flag⟩, final))
  | tooManyMessages {slots' : List (Ptr RiakBinary)}
      (hcopied : EntriesCopied slots slots' additional heap)
      (hanswer : heap.answer (1 + 2 * additional) = true) :
      ListOutcome resp response slots seen m done heap additional nEntries flag
        (.error .outOfBounds)

theorem ListBase.extend_outcome {response : RiakListResponse μ} {slots : List (Ptr RiakBinary)}
    {seen : List μ} (h : ListBase response slots seen) (message : ListMessage μ)
    (resp : Option (RiakListResponse μ)) (m : μ) (done : RiakBoolean) (heap : Heap)
    {additional : Nat} (hadditional : (UInt32.ofNat (message.entries m).length).toNat = additional)
    {nEntries : UInt32}
    (hentries : response.nEntries + UInt32.ofNat (message.entries m).length = nEntries)
    {flag : RiakBoolean} (hflag : doneFlag (message.hasDone m) (message.done m) = flag) :
    ListOutcome resp response slots seen m done heap additional nEntries flag
      (listResponseExtend message resp response m done heap) := by
  have hle : additional ≤ (message.entries m).length := by
    rw [← hadditional, UInt32.toNat_ofNat']
    exact Nat.mod_le _ _
  unfold listResponseExtend
  simp only
  rcases growEntries_cases heap h.entries h.count with
    ⟨hrefused, hgrow⟩ | ⟨hgranted, hfits, free, hfree, hgrow⟩ | ⟨hgranted, hlarge, hgrow⟩
  · rw [C.bind_of_ok hgrow]
    exact .arrayRefused hrefused
  · rw [hadditional] at hfits hfree
    rw [C.bind_of_ok hgrow]
    simp only [Ptr.deref_obj, pure_bind, hadditional]
    rcases copyEntries_cases additional 0 (slots ++ free) (heap.after 1)
        (by rw [List.length_append]; omega)
        (by rw [List.length_append, h.count]; omega)
        (by rw [Nat.zero_add]; exact hle) (by decide) with
      ⟨hgrants, hfew, slots', hcopy⟩ | ⟨hgrants, hmany, hcopy⟩ | ⟨hrefused, hcopy⟩
    · have hlength := (copyEntries_eq_ok _ _ _ _ _ _ (by rw [List.length_append]; omega)
        (by rw [List.length_append, h.count]; omega) hcopy).2.2.1
      rw [List.length_append, hfree] at hlength
      have hsame : additional = 0 → slots' = slots := by
        intro hzero
        rw [hzero] at hcopy hfree
        obtain ⟨rfl, _⟩ := C.pure_eq_ok.mp hcopy
        rw [List.length_eq_zero_iff.mp hfree, List.append_nil]
      have hcopied : EntriesCopied slots slots' additional heap :=
        ⟨hgranted, hfits, hgrants, by omega, hlength, hsame⟩
      rw [C.bind_of_ok hcopy, hentries, hflag]
      have hlast : ((heap.after 1).after (2 * additional)).answer 0 =
          heap.answer (1 + 2 * additional) := by
        rw [Heap.answer_after, Heap.answer_after, Nat.add_zero]
      rcases h.holds.add_cases m ((heap.after 1).after (2 * additional)) with
        ⟨hanswer, raw, hadd, hholds⟩ | ⟨hanswer, _, raw, hadd, hholds⟩ | ⟨hanswer, _, hadd⟩
      · rw [hlast] at hanswer
        rw [C.bind_of_ok hadd]
        have hcount : raw.nResponses = response.raw.nResponses := by
          rw [← UInt32.toNat_inj, hholds.count, h.holds.count]
        exact .messageRefused hcopied hanswer hholds hcount
      · rw [hlast] at hanswer
        rw [C.bind_of_ok hadd]
        exact .stored hcopied hanswer hholds
      · rw [hlast] at hanswer
        rw [C.bind_of_error hadd]
        exact .tooManyMessages hcopied hanswer
    · rw [C.bind_of_error hcopy]
      exact .indexOverflow hgranted hfits hgrants (by omega)
    · rw [C.bind_of_error hcopy]
      exact .copyRefused hgranted hfits hrefused
  · rw [hadditional] at hlarge
    rw [C.bind_of_error hgrow]
    exact .tooManyEntries hgranted hlarge

theorem undone_error {resp : Option (RiakListResponse μ)} {fault : Fault}
    (h : fault ≠ .nullDereference) : Undone resp (.error fault) := by
  refine ⟨?_, ?_⟩
  · rintro ⟨⟩
    exact h rfl
  · rintro _ _ ⟨⟩

theorem undone_ok_iff {resp resp' : Option (RiakListResponse μ)} {err : RiakError}
    {done : RiakBoolean} : Undone resp (.ok (⟨err, resp', done⟩, final)) ↔
      (err ≠ .ok → resp' = none ∨ ∃ response response', resp = some response ∧
        resp' = some response' ∧ response.Unchanged response') := by
  constructor
  · intro h
    exact h.undone _ final rfl
  · intro h
    refine ⟨?_, ?_⟩
    · rintro ⟨⟩
    · rintro _ _ ⟨⟩
      exact h

theorem ListBase.extend_undone_iff {response : RiakListResponse μ}
    {slots : List (Ptr RiakBinary)} {seen : List μ} (h : ListBase response slots seen)
    {resp : Option (RiakListResponse μ)}
    (hresp : resp = none ∨ resp = some response ∧ response.entries = .obj slots)
    (message : ListMessage μ) (m : μ) (done : RiakBoolean) (heap : Heap) :
    Undone resp (listResponseExtend message resp response m done heap) ↔
      ExtendSupplied resp response.nEntries.toNat
        (UInt32.ofNat (message.entries m).length).toNat heap := by
  have hone : heap.Grants 1 ↔ heap.answer 0 = true := by
    rw [Heap.grants_succ]
    exact and_iff_left (Heap.grants_zero _)
  unfold ExtendSupplied
  rw [hone, h.count]
  generalize hadditional : (UInt32.ofNat (message.entries m).length).toNat = additional
  have houtcome := h.extend_outcome message resp m done heap hadditional rfl rfl
  generalize listResponseExtend message resp response m done heap = outcome at houtcome ⊢
  cases houtcome with
  | arrayRefused hrefused =>
    -- nothing was changed yet
    rw [undone_ok_iff, hrefused]
    refine ⟨fun _ => by rintro ⟨⟩, fun _ _ => ?_⟩
    rcases hresp with rfl | ⟨rfl, _⟩
    · exact Or.inl rfl
    · exact Or.inr ⟨response, response, rfl, rfl, rfl, rfl, rfl⟩
  | tooManyEntries _ hlarge =>
    refine ⟨fun _ _ hfits => absurd hfits (Nat.not_lt.mpr hlarge), fun _ => undone_error ?_⟩
    rintro ⟨⟩
  | copyRefused hgranted hfits hrefused =>
    refine ⟨fun hundone => absurd rfl hundone.follows, fun hsupplied => ?_⟩
    exact absurd (hsupplied hgranted hfits).1 hrefused
  | indexOverflow _ _ hgrants hmany =>
    refine ⟨fun _ _ _ => ⟨hgrants, fun _ _ hfew => by omega⟩, fun _ => undone_error ?_⟩
    rintro ⟨⟩
  | messageRefused hcopied hanswer _ hcount =>
    -- the entries are there, and the message is not
    rw [undone_ok_iff]
    rcases hresp with rfl | ⟨rfl, hentries⟩
    · refine ⟨fun _ _ _ => ⟨hcopied.grants, ?_⟩, fun _ _ => Or.inl rfl⟩
      rintro ⟨⟩
    · constructor
      · intro hundone _ _
        refine ⟨hcopied.grants, fun _ hpositive hfew => ?_⟩
        rcases hundone (by decide) with hnull | ⟨_, _, hold, hnew, hunchanged⟩
        · cases hnull
        · cases hold
          cases hnew
          have hcounted : response.nEntries + UInt32.ofNat (message.entries m).length =
              response.nEntries := hunchanged.nEntries
          have hsum := congrArg UInt32.toNat hcounted
          rw [UInt32.toNat_add, hadditional, h.count] at hsum
          omega
      · intro hsupplied _
        obtain ⟨_, hraw⟩ := hsupplied hcopied.answer hcopied.fits
        have hzero : additional = 0 := by
          by_contra hpositive
          rw [hraw rfl (Nat.pos_of_ne_zero hpositive) hcopied.few] at hanswer
          cases hanswer
        refine Or.inr ⟨response, _, rfl, rfl, ?_, ?_, hcount⟩
        · rw [hcopied.same hzero, hentries]
        · show response.nEntries + _ = response.nEntries
          rw [← UInt32.toNat_inj, UInt32.toNat_add, hadditional, hzero, Nat.add_zero]
          exact Nat.mod_eq_of_lt response.nEntries.toNat_lt
  | stored hcopied hanswer _ =>
    rw [undone_ok_iff]
    exact ⟨fun _ _ _ => ⟨hcopied.grants, fun _ _ _ => hanswer⟩, fun _ herr => absurd rfl herr⟩
  | tooManyMessages hcopied hanswer =>
    refine ⟨fun _ _ _ => ⟨hcopied.grants, fun _ _ _ => hanswer⟩, fun _ => undone_error ?_⟩
    rintro ⟨⟩

/-! ### The calls -/

/-- A response that was returned has its slots and its messages. -/
def ListKept (resp : Option (RiakListResponse μ)) : Prop :=
  ∀ response, resp = some response →
    ∃ slots seen, ListBase response slots seen ∧ response.entries = .obj slots

theorem listKept_none : ListKept (none : Option (RiakListResponse μ)) := by
  rintro _ ⟨⟩

theorem listKept_some {response : RiakListResponse μ} {slots : List (Ptr RiakBinary)}
    {seen : List μ} (h : ListBase response slots seen) (hentries : response.entries = .obj slots) :
    ListKept (some response) := by
  rintro _ ⟨⟩
  exact ⟨slots, seen, h, hentries⟩

theorem ListBase.extend_kept {response : RiakListResponse μ} {slots : List (Ptr RiakBinary)}
    {seen : List μ} (h : ListBase response slots seen) {resp : Option (RiakListResponse μ)}
    (hresp : resp = none ∨ resp = some response ∧ response.entries = .obj slots)
    {message : ListMessage μ} {m : μ} {done : RiakBoolean}
    {decoded : Decoded (RiakListResponse μ)}
    (hrun : listResponseExtend message resp response m done heap = .ok (decoded, final)) :
    ListKept decoded.resp := by
  generalize hadditional : (UInt32.ofNat (message.entries m).length).toNat = additional
  have hnew : ∀ {slots' raw seen'}, slots'.length = slots.length + additional →
      slots.length + additional < 2 ^ 32 → raw.Holds seen' →
      ListBase (⟨response.nEntries + UInt32.ofNat (message.entries m).length, .obj slots',
        doneFlag (message.hasDone m) (message.done m), raw⟩ : RiakListResponse μ) slots' seen' := by
    intro slots' raw seen' hlength hfits hholds
    refine ⟨Or.inl rfl, ?_, hholds⟩
    rw [UInt32.toNat_add, hadditional, h.count, Nat.mod_eq_of_lt hfits, hlength]
  have houtcome := h.extend_outcome message resp m done heap hadditional rfl rfl
  rw [hrun] at houtcome
  cases houtcome with
  | arrayRefused _ =>
    rcases hresp with rfl | ⟨rfl, hentries⟩
    · exact listKept_none
    · exact listKept_some h hentries
  | messageRefused hcopied _ hholds _ =>
    rcases hresp with rfl | ⟨rfl, _⟩
    · exact listKept_none
    · exact listKept_some (hnew hcopied.length hcopied.fits hholds) rfl
  | stored hcopied _ hholds => exact listKept_some (hnew hcopied.length hcopied.fits hholds) rfl

theorem ListKept.step {message : ListMessage μ} {unpack : Bytes → Option μ}
    {resp resp' : Option (RiakListResponse μ)} {call : DecodeCall} (h : ListKept resp)
    (hstep : StreamStep (listResponseDecode message unpack) (fun _ _ => True) resp call resp') :
    ListKept resp' := by
  obtain ⟨_, decoded, final, hrun, rfl⟩ := hstep
  obtain ⟨bytes, heap₁, hpayload, hrun₁⟩ := C.bind_eq_ok.mp hrun
  obtain ⟨rfl, rfl⟩ := payload_eq_ok hpayload
  cases hm : unpack ((call.pbresp.data.take call.pbresp.len.toNat).drop 1) with
  | none =>
    simp only [hm, C.pure_apply, Except.ok.injEq, Prod.mk.injEq] at hrun₁
    obtain ⟨rfl, _⟩ := hrun₁
    exact h
  | some m =>
    simp only [hm] at hrun₁
    obtain ⟨slot, heap₂, hexisting, hrun₂⟩ := C.bind_eq_ok.mp hrun₁
    rcases existingOr_eq_ok hexisting with ⟨rfl, rfl, _⟩ | ⟨response, rfl, hstart⟩
    · obtain ⟨rfl, _⟩ := C.pure_eq_ok.mp hrun₂
      exact listKept_none
    · rcases hstart with ⟨rfl, rfl, _, rfl⟩ | ⟨rfl, rfl⟩
      · exact listBase_empty.extend_kept (Or.inl rfl) hrun₂
      · obtain ⟨slots, seen, hbase, hentries⟩ := h response rfl
        exact hbase.extend_kept (Or.inr ⟨rfl, hentries⟩) hrun₂

theorem ListKept.of_accumulated {message : ListMessage μ} {unpack : Bytes → Option μ}
    {resp : Option (RiakListResponse μ)}
    (h : Accumulated (listResponseDecode message unpack) resp) : ListKept resp := by
  obtain ⟨calls, hrun⟩ := h
  exact hrun.invariant (fun _ => ListKept) listKept_none fun _ _ _ _ hkept hstep =>
    hkept.step hstep

theorem listResponseDecode_undone_iff {message : ListMessage μ} {unpack : Bytes → Option μ}
    {resp : Option (RiakListResponse μ)}
    (hresp : Accumulated (listResponseDecode message unpack) resp) {call : DecodeCall}
    (hframe : call.pbresp.Whole) :
    Undone resp (listResponseDecode message unpack call.pbresp resp call.done call.heap) ↔
      ListSupplied message unpack resp call := by
  have hkept := ListKept.of_accumulated hresp
  unfold ListSupplied DecodeCall.message listResponseDecode
  rw [hframe.payload, pure_bind]
  cases hm : unpack ((call.pbresp.data.take call.pbresp.len.toNat).drop 1) with
  | none =>
    simp only [C.pure_apply]
    rw [undone_ok_iff]
    refine ⟨fun _ => by rintro _ ⟨⟩, fun _ _ => ?_⟩
    cases resp with
    | none => exact Or.inl rfl
    | some response => exact Or.inr ⟨response, response, rfl, rfl, rfl, rfl, rfl⟩
  | some m =>
    simp only [Option.some.injEq, forall_eq']
    cases resp with
    | some response =>
      obtain ⟨slots, seen, hbase, hentries⟩ := hkept response rfl
      exact hbase.extend_undone_iff (Or.inr ⟨rfl, hentries⟩) message m call.done call.heap
    | none =>
      unfold existingOr
      rw [C.bind_of_ok (C.new_eq call.heap _)]
      cases hanswer : call.heap.answer 0 with
      | false =>
        show Undone none (.ok (⟨.outOfMemory, none, call.done⟩, call.heap.after 1)) ↔ _
        rw [undone_ok_iff]
        exact ⟨fun _ => by rintro ⟨⟩, fun _ _ => Or.inl rfl⟩
      | true =>
        refine (listBase_empty.extend_undone_iff (Or.inl rfl) message m call.done
          (call.heap.after 1)).trans ?_
        exact ⟨fun hsupplied _ => hsupplied, fun hsupplied => hsupplied rfl⟩

/-- **When the decoder of a listing is all or nothing.** For every response that calls
    have accumulated, for keys and for buckets: the next message does not make the
    decoder follow NULL, and leaves NULL or the response as it was if it returns an
    error, if and only if `ListSupplied`. -/
theorem riak_list_responses_undone_iff {call : DecodeCall} (hframe : call.pbresp.Whole) :
    (∀ (unpack : Bytes → Option RpbListKeysResp) (resp : Option RiakListkeysResponse),
      Accumulated (riakListkeysResponseDecode unpack) resp →
      (Undone resp (riakListkeysResponseDecode unpack call.pbresp resp call.done call.heap) ↔
        ListSupplied listkeysMessage unpack resp call)) ∧
    (∀ (unpack : Bytes → Option RpbListBucketsResp) (resp : Option RiakListbucketsResponse),
      Accumulated (riakListbucketsResponseDecode unpack) resp →
      (Undone resp (riakListbucketsResponseDecode unpack call.pbresp resp call.done call.heap) ↔
        ListSupplied listbucketsMessage unpack resp call)) :=
  ⟨fun _ _ hresp => listResponseDecode_undone_iff hresp hframe,
    fun _ _ hresp => listResponseDecode_undone_iff hresp hframe⟩

/-- A message with the key `a` whose array of entries is refused, and nothing else. -/
theorem riak_list_responses_undone_refused :
    Undone none (riakListkeysResponseDecode sampleKeysUnpack (keysFrame [0x0a, 1, 0x61]) none 0
      ⟨[true, false], fun _ => 0⟩) := by
  apply ((@riak_list_responses_undone_iff
    ⟨keysFrame [0x0a, 1, 0x61], 0, ⟨[true, false], fun _ => 0⟩⟩ ⟨by decide, by decide⟩).1
      sampleKeysUnpack none ⟨[], .refl⟩).mpr
  intro m _ _ _ hgrants
  exact absurd (hgrants 0 Nat.one_pos) (by decide)

/-- The copy of the key `a` is refused, and the decoder reads through NULL. After one
    message with the key, the next has its own copied, and no room in the array of raw
    messages: the response that is left has two keys and one message. -/
theorem riak_listkeys_half_decoded :
    ¬ Undone none (riakListkeysResponseDecode sampleKeysUnpack (keysFrame [0x0a, 1, 0x61]) none 0
        ⟨[true, true, false], fun _ => 0⟩) ∧
      ∃ response, Accumulated (riakListkeysResponseDecode sampleKeysUnpack) (some response) ∧
        response.nEntries = 1 ∧
        ¬ Undone (some response) (riakListkeysResponseDecode sampleKeysUnpack
          (keysFrame [0x0a, 1, 0x61]) (some response) 0
          ⟨[true, true, true, false], fun _ => 0⟩) := by
  refine ⟨fun hundone => ?_, ?_⟩
  · exact hundone.follows rfl
  · have hfirst : riakListkeysResponseDecode sampleKeysUnpack (keysFrame [0x0a, 1, 0x61]) none 0
        Heap.fresh = .ok (⟨.ok, some ⟨1, .obj [.obj ⟨[0x61], true⟩], 0,
          ⟨1, .obj [.obj { keys := [[0x61]] }]⟩⟩, 0⟩, Heap.fresh) := rfl
    have hsingle : Accumulated (riakListkeysResponseDecode sampleKeysUnpack)
        (some ⟨1, .obj [.obj ⟨[0x61], true⟩], 0, ⟨1, .obj [.obj { keys := [[0x61]] }]⟩⟩) :=
      ⟨[⟨keysFrame [0x0a, 1, 0x61], 0, Heap.fresh⟩],
        Run.single ⟨trivial, _, _, hfirst, rfl⟩⟩
    refine ⟨_, hsingle, rfl, fun hundone => ?_⟩
    rcases hundone.undone _ _ rfl (by decide) with hnull | ⟨_, _, hold, hnew, hunchanged⟩
    · cases hnull
    · cases hold
      cases hnew
      exact absurd hunchanged.nEntries (by decide)

end RiakClient
