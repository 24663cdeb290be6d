import RiakClient.Cascade
import RiakClient.Collections
import RiakClient.Print

/-!
# Comparing objects

`riak_object_compare` (`riak_object.c`) compares two objects member by member and
returns at the first difference. Each binary is followed without a check. For a
member of an entry the flag is looked at first, but the charset, the content type
and the encoding of an object are compared whether they are there or not.

The comparison is a cascade (`Cascade`), so it is described by a verdict: when it is
defined, and when it finds no difference. Both are read off the members in the order
in which they are compared, and for objects that setters build the second is equality
of their contents.
-/

namespace RiakClient

open CSem Comparison

variable {heap final : Heap}

/-! ### The code -/

/-- `memcmp` of as many bytes on either side; only the sign is promised. -/
def memcmp : Bytes → Bytes → Int
  | b1 :: data1, b2 :: data2 => if b1 = b2 then memcmp data1 data2 else if b1 < b2 then -1 else 1
  | _, _ => 0

def riakBinaryCompare (bin1 bin2 : Option RiakBinary) : C Int := do
  let b1 ← C.deref bin1
  let b2 ← C.deref bin2
  if b2.data.length < b1.data.length then pure 1
  else if b1.data.length < b2.data.length then pure (-1)
  else pure (memcmp b1.data b2.data)

/-- A difference is printed if there is a print state. -/
def reportDifference (debug : Option PrintState) (result : Int) (report : Printer) :
    C (Int × Option PrintState) :=
  match debug with
  | some state =>
      if result ≠ 0 then do
        let (_, state) ← report state
        pure (result, some state)
      else pure (result, some state)
  | none => pure (result, none)

def riakObjectCompareBinary (message : String) (bin1 bin2 : Option RiakBinary) :
    Comparison (Option PrintState) := fun debug => do
  let result ← riakBinaryCompare bin1 bin2
  reportDifference debug result
    (riakPrint (ascii "Object " ++ ascii message ++ ascii " differ: ") ++ riakPrintBinary bin1 ++
      riakPrint (ascii " vs ") ++ riakPrintBinary bin2 ++ riakPrint (ascii "\n"))

def riakObjectCompareInt (message : String) (int1 int2 : UInt32) :
    Comparison (Option PrintState) := fun debug =>
  reportDifference debug (if int1 = int2 then 0 else 1)
    (riakPrint (ascii "Object " ++ ascii message ++ ascii " differ: " ++
      decimal (asInt int1.toNat) ++ ascii " vs " ++ decimal (asInt int2.toNat) ++ ascii "\n"))

/-- A presence flag as it is compared. -/
def flagInt (has : Bool) : UInt32 := if has then 1 else 0

/-- Everything in front of the loops. "Only compare VTag and Lost Modified times if
    the are both non-NULL". -/
def riakObjectCompareMembers (obj1 obj2 : RiakObject) : Comparison (Option PrintState) :=
  cascade [
    riakObjectCompareBinary "Buckets" obj1.bucket obj2.bucket,
    riakObjectCompareBinary "Keys" obj1.key obj2.key,
    riakObjectCompareBinary "Values" obj1.value obj2.value,
    riakObjectCompareInt "Charset Flags" (flagInt obj1.hasCharset) (flagInt obj2.hasCharset),
    riakObjectCompareBinary "Charset" obj1.charset obj2.charset,
    riakObjectCompareInt "Content Type Flags" (flagInt obj1.hasContentType)
      (flagInt obj2.hasContentType),
    riakObjectCompareBinary "Content Types" obj1.contentType obj2.contentType,
    riakObjectCompareInt "Encoding Flags" (flagInt obj1.hasContentEncoding)
      (flagInt obj2.hasContentEncoding),
    riakObjectCompareBinary "Encodings" obj1.encoding obj2.encoding,
    Comparison.when (obj1.hasVtag && obj2.hasVtag)
      (riakObjectCompareBinary "VTags" obj1.vtag obj2.vtag),
    Comparison.when (obj1.hasLastMod && obj2.hasLastMod)
      (riakObjectCompareInt "Last Modified Dates" obj1.lastMod obj2.lastMod),
    Comparison.when (obj1.hasLastModUsecs && obj2.hasLastModUsecs)
      (riakObjectCompareInt "Last Modified uSecs" obj1.lastModUsecs obj2.lastModUsecs),
    riakObjectCompareInt "Delete Flags" obj1.deleted.toUInt32 obj2.deleted.toUInt32,
    riakObjectCompareInt "Number of Indexes" (UInt32.ofInt obj1.nIndexes)
      (UInt32.ofInt obj2.nIndexes),
    riakObjectCompareInt "Number of Links" (UInt32.ofInt obj1.nLinks) (UInt32.ofInt obj2.nLinks),
    riakObjectCompareInt "Number of User Metadata" (UInt32.ofInt obj1.nUsermeta)
      (UInt32.ofInt obj2.nUsermeta)]

/-- The bodies of the loops over indexes and user metadata differ in their messages. -/
def comparePairs (flags keys values : String) (pair1 pair2 : RiakPair) :
    Comparison (Option PrintState) :=
  cascade [
    riakObjectCompareInt flags (flagInt pair1.hasValue) (flagInt pair2.hasValue),
    riakObjectCompareBinary keys pair1.key pair2.key,
    Comparison.when pair1.hasValue (riakObjectCompareBinary values pair1.value pair2.value)]

def compareLinks (link1 link2 : RiakLink) : Comparison (Option PrintState) :=
  cascade [
    riakObjectCompareInt "Link Bucket Flags" (flagInt link1.hasBucket) (flagInt link2.hasBucket),
    riakObjectCompareInt "Link Key Flags" (flagInt link1.hasKey) (flagInt link2.hasKey),
    riakObjectCompareInt "Link Tag Flags" (flagInt link1.hasTag) (flagInt link2.hasTag),
    Comparison.when link1.hasBucket
      (riakObjectCompareBinary "Link Buckets" link1.bucket link2.bucket),
    Comparison.when link1.hasKey (riakObjectCompareBinary "Link Keys" link1.key link2.key),
    Comparison.when link1.hasTag (riakObjectCompareBinary "Link Tags" link1.tag link2.tag)]

/-- A loop over two arrays of entries. -/
def compareEntries {α : Type} (n : Int) (array1 array2 : Option (List (Option α)))
    (compare : α → α → Comparison (Option PrintState)) : Comparison (Option PrintState) :=
  loop n.toNat fun i =>
    reading (entryAt array1 i) fun entry1 =>
      reading (entryAt array2 i) fun entry2 => compare entry1 entry2

def riakObjectCompareInternal (obj1 obj2 : RiakObject) : Comparison (Option PrintState) :=
  (riakObjectCompareMembers obj1 obj2).andThen <|
    (compareEntries obj1.nIndexes obj1.indexes obj2.indexes
      (comparePairs "Index Value Flags" "Index Keys" "Index Values")).andThen <|
    (compareEntries obj1.nLinks obj1.links obj2.links compareLinks).andThen <|
    compareEntries obj1.nUsermeta obj1.usermeta obj2.usermeta
      (comparePairs "User Meta-data Value Flags" "User Meta-data Keys" "User Meta-data Values")

def riakObjectCompare (obj1 obj2 : RiakObject) : C Int := do
  let (result, _) ← riakObjectCompareInternal obj1 obj2 none
  pure result

def riakObjectCompareDebug (obj1 obj2 : RiakObject) (state : PrintState) :
    C (Int × Option PrintState) :=
  riakObjectCompareInternal obj1 obj2 (some state)

/-! ### Verdicts of the single comparisons -/

/-- The bytes behind a pointer. -/
def Compared.bytes (bin1 bin2 : Option RiakBinary) : Verdict where
  defined := bin1.isSome = true ∧ bin2.isSome = true
  same := bin1.map RiakBinary.data = bin2.map RiakBinary.data

def Compared.value {α : Type} (value1 value2 : α) : Verdict where
  defined := True
  same := value1 = value2

theorem memcmp_eq_zero : ∀ {data1 data2 : Bytes}, data1.length = data2.length →
    (memcmp data1 data2 = 0 ↔ data1 = data2) := by
  intro data1
  induction data1 with
  | nil =>
    intro data2 hlength
    rw [List.length_eq_zero_iff.mp hlength.symm]
    exact iff_of_true rfl rfl
  | cons b1 data1 ih =>
    intro data2 hlength
    cases data2 with
    | nil => cases hlength
    | cons b2 data2 =>
      have hrest := ih (Nat.succ.inj hlength)
      unfold memcmp
      by_cases hbyte : b1 = b2
      · rw [if_pos hbyte, hrest, hbyte, List.cons.injEq]
        exact (and_iff_right rfl).symm
      · have hdiffers : ¬ b1 :: data1 = b2 :: data2 := fun hsame => hbyte (List.cons.inj hsame).1
        rw [if_neg hbyte]
        split
        · exact iff_of_false (by decide) hdiffers
        · exact iff_of_false (by decide) hdiffers

theorem riakBinaryCompare_some (b1 b2 : RiakBinary) :
    ∃ result, riakBinaryCompare (some b1) (some b2) = pure result ∧
      (result = 0 ↔ b1.data = b2.data) := by
  unfold riakBinaryCompare
  simp only [C.deref_some, pure_bind]
  by_cases hlong : b2.data.length < b1.data.length
  · refine ⟨1, if_pos hlong, iff_of_false (by decide) fun hsame => ?_⟩
    rw [hsame] at hlong
    exact absurd hlong (Nat.lt_irrefl _)
  · by_cases hshort : b1.data.length < b2.data.length
    · refine ⟨-1, by rw [if_neg hlong, if_pos hshort], iff_of_false (by decide) fun hsame => ?_⟩
      rw [hsame] at hshort
      exact absurd hshort (Nat.lt_irrefl _)
    · exact ⟨_, by rw [if_neg hlong, if_neg hshort], memcmp_eq_zero (by omega)⟩

namespace Compared

theorem binary (message : String) (bin1 bin2 : Option RiakBinary) :
    Decides none (riakObjectCompareBinary message bin1 bin2) (bytes bin1 bin2) where
  returns := by
    rintro ⟨hbin1, hbin2⟩ heap
    obtain ⟨b1, rfl⟩ := Option.isSome_iff_exists.mp hbin1
    obtain ⟨b2, rfl⟩ := Option.isSome_iff_exists.mp hbin2
    obtain ⟨result, hrun, hzero⟩ := riakBinaryCompare_some b1 b2
    refine ⟨result, ?_, ?_⟩
    · unfold riakObjectCompareBinary
      rw [hrun, pure_bind]
      rfl
    · rw [hzero]
      exact Option.some_inj.symm
  faults := by
    intro hmissing heap
    cases bin1 with
    | none => exact ⟨_, rfl⟩
    | some b1 =>
      cases bin2 with
      | none => exact ⟨_, rfl⟩
      | some b2 => exact absurd ⟨rfl, rfl⟩ hmissing

theorem int (message : String) (int1 int2 : UInt32) :
    Decides none (riakObjectCompareInt message int1 int2) (value int1 int2) where
  returns _ heap := by
    refine ⟨if int1 = int2 then 0 else 1, rfl, ?_⟩
    show (if int1 = int2 then (0 : Int) else 1) = 0 ↔ int1 = int2
    by_cases hsame : int1 = int2
    · rw [if_pos hsame]
      exact iff_of_true rfl hsame
    · rw [if_neg hsame]
      exact iff_of_false (by decide) hsame
  faults h := absurd trivial h

end Compared

/-! ### Objects that were built

In an object that setters build flags go with data. The invariant is kept by a setter
that succeeds, by replacing an entry of a collection by another one of its kind, and
by a call that adds an entry or none. -/

/-- An object of an application all of whose setters succeed. It may set members of
    the entries of its collections, too; a new entry may be refused. -/
inductive RiakObject.Built : RiakObject → Prop
  | new : Built {}
  | set {obj obj' : RiakObject} {call : ObjectCall} {heap final : Heap} (before : Built obj)
      (h : objectSetters.run obj call heap = .ok ((.ok, obj'), final)) : Built obj'
  | grow {obj obj' : RiakObject} {call : CollectionCall} {succeeded : Bool} {heap final : Heap}
      (before : Built obj) (h : call.call obj heap = .ok ((succeeded, obj'), final)) : Built obj'
  | setLink {obj : RiakObject} {slots : List (Option RiakLink)} {i : Nat} {link link' : RiakLink}
      {call : LinkCall} {heap final : Heap} (before : Built obj) (hslots : obj.links = some slots)
      (hi : i < obj.nLinks.toNat) (hslot : slots[i]? = some (some link))
      (h : linkSetters.run link call heap = .ok ((.ok, link'), final)) :
      Built { obj with links := some (slots.set i (some link')) }
  | setUsermeta {obj : RiakObject} {slots : List (Option RiakPair)} {i : Nat}
      {pair pair' : RiakPair} {call : PairCall} {heap final : Heap} (before : Built obj)
      (hslots : obj.usermeta = some slots) (hi : i < obj.nUsermeta.toNat)
      (hslot : slots[i]? = some (some pair))
      (h : pairSetters.run pair call heap = .ok ((.ok, pair'), final)) :
      Built { obj with usermeta := some (slots.set i (some pair')) }
  | setIndex {obj : RiakObject} {slots : List (Option RiakPair)} {i : Nat}
      {pair pair' : RiakPair} {call : PairCall} {heap final : Heap} (before : Built obj)
      (hslots : obj.indexes = some slots) (hi : i < obj.nIndexes.toNat)
      (hslot : slots[i]? = some (some pair))
      (h : pairSetters.run pair call heap = .ok ((.ok, pair'), final)) :
      Built { obj with indexes := some (slots.set i (some pair')) }

/-- The flag of an entry is up exactly where there is data. -/
def RiakPair.Tidy (pair : RiakPair) : Prop := pair.hasValue = pair.value.isSome

structure RiakLink.Tidy (link : RiakLink) : Prop where
  bucket : link.hasBucket = link.bucket.isSome
  key : link.hasKey = link.key.isSome
  tag : link.hasTag = link.tag.isSome

/-- The slots in front point to entries of a kind. -/
structure EntriesTidy {α : Type} (n : Int) (array : Option (List (Option α))) (ok : α → Prop) :
    Prop where
  sign : 0 ≤ n
  bound : n < 2 ^ 31
  backed : Backed n array
  entry : ∀ i < n.toNat, ∃ entry, (array.getD [])[i]? = some (some entry) ∧ ok entry

/-- What setters build. -/
structure RiakObject.Tidy (obj : RiakObject) : Prop where
  charset : obj.hasCharset = obj.charset.isSome
  contentType : obj.hasContentType = obj.contentType.isSome
  encoding : obj.hasContentEncoding = obj.encoding.isSome
  vtag : obj.hasVtag = obj.vtag.isSome
  links : EntriesTidy obj.nLinks obj.links RiakLink.Tidy
  usermeta : EntriesTidy obj.nUsermeta obj.usermeta RiakPair.Tidy
  indexes : EntriesTidy obj.nIndexes obj.indexes RiakPair.Tidy

theorem setMember_eq_ok {σ ι : Type} {L : FlaggedMembers.Layout σ ι RiakBinary} {i : ι}
    {s s' : σ} {value : Option RiakBinary}
    (h : setMember L .flagLast i s value heap = .ok ((.ok, s'), final)) :
    ∃ b, s' = L.put i s (true, some b) := by
  obtain ⟨copy, heap₁, _, hpure⟩ := C.bind_eq_ok.mp h
  cases copy with
  | none => cases hpure
  | some b =>
    cases hpure
    exact ⟨b, rfl⟩

section Entries

variable {α : Type} {n n' : Int} {array array' : Option (List (Option α))} {ok : α → Prop}

theorem entriesTidy_empty : EntriesTidy 0 (none : Option (List (Option α))) ok :=
  ⟨Int.le_refl 0, by decide, backed_empty, fun i hi => absurd hi (Nat.not_lt_zero i)⟩

theorem EntriesTidy.replace {slots : List (Option α)} {i : Nat} {entry entry' : α}
    (h : EntriesTidy n (some slots) ok) (hslot : slots[i]? = some (some entry)) (hok : ok entry') :
    EntriesTidy n (some (slots.set i (some entry'))) ok := by
  have hinside := (List.getElem?_eq_some_iff.mp hslot).1
  refine ⟨h.sign, h.bound, ⟨nofun, ?_⟩, ?_⟩
  · rintro _ ⟨⟩
    rw [List.length_set]
    exact h.backed.2 slots rfl
  · intro j hj
    show ∃ found, (slots.set i (some entry'))[j]? = some (some found) ∧ ok found
    by_cases hsame : i = j
    · exact ⟨entry', by rw [← hsame, List.getElem?_set_self hinside], hok⟩
    · rw [List.getElem?_set_ne hsame]
      exact h.entry j hj

theorem EntriesTidy.grow {a : α} {succeeded : Bool} (h : EntriesTidy n array ok)
    (hready : GrowthReady (2 ^ 31) n array heap) (hbacked : Backed n' array')
    (hlaw : AllOrNothingCall succeeded n n' array array' (some a)) (hok : ok a) :
    EntriesTidy n' array' ok := by
  have hsign := h.sign
  cases succeeded with
  | false =>
    obtain ⟨hcount, hkept⟩ : KeepsEntries n n' array array' := hlaw
    rw [hcount] at hbacked ⊢
    refine ⟨hsign, h.bound, hbacked, fun i hi => ?_⟩
    rw [hkept i hi]
    exact h.entry i hi
  | true =>
    obtain ⟨hcount, hkept, hentry⟩ : AppendsEntry n n' array array' (some a) := hlaw
    have hrange : n + 1 < 2 ^ 31 := by
      cases array with
      | none =>
        rw [h.backed.1 rfl]
        decide
      | some slots => exact (hready slots rfl).2.1
    rw [hcount] at hbacked ⊢
    refine ⟨by omega, hrange, hbacked, fun i hi => ?_⟩
    by_cases hlast : i = n.toNat
    · rw [hlast]
      exact ⟨a, hentry, hok⟩
    · rw [hkept i (by omega)]
      exact h.entry i (by omega)

theorem EntriesTidy.set (h : EntriesTidy n array ok) : EntriesSet n array ok := by
  refine ⟨h.bound, fun i hi => ?_⟩
  obtain ⟨entry, hslot, hok⟩ := h.entry i hi
  cases array with
  | none => cases hslot
  | some slots => exact ⟨slots, entry, rfl, hslot, hok⟩

end Entries

theorem linkSetters_tidy {link link' : RiakLink} {call : LinkCall} (hlink : link.Tidy)
    (h : linkSetters.run link call heap = .ok ((.ok, link'), final)) : link'.Tidy := by
  cases call with
  | bucket value =>
    obtain ⟨b, rfl⟩ := setMember_eq_ok h
    exact ⟨rfl, hlink.key, hlink.tag⟩
  | key value =>
    obtain ⟨b, rfl⟩ := setMember_eq_ok h
    exact ⟨hlink.bucket, rfl, hlink.tag⟩
  | tag value =>
    obtain ⟨b, rfl⟩ := setMember_eq_ok h
    exact ⟨hlink.bucket, hlink.key, rfl⟩

theorem pairSetters_tidy {pair pair' : RiakPair} {call : PairCall} (hpair : pair.Tidy)
    (h : pairSetters.run pair call heap = .ok ((.ok, pair'), final)) : pair'.Tidy := by
  cases call with
  | key value =>
    obtain ⟨copy, heap₁, _, hpure⟩ := C.bind_eq_ok.mp h
    obtain ⟨hout, _⟩ := C.pure_eq_ok.mp hpure
    rw [← (Prod.mk.inj hout).2]
    exact hpair
  | value value =>
    obtain ⟨b, rfl⟩ := setMember_eq_ok h
    rfl

theorem objectSetters_tidy {obj obj' : RiakObject} {call : ObjectCall} (hobj : obj.Tidy)
    (h : objectSetters.run obj call heap = .ok ((.ok, obj'), final)) : obj'.Tidy := by
  obtain ⟨hcharset, hcontentType, hencoding, hvtag, hlinks, husermeta, hindexes⟩ := hobj
  cases call with
  | bucketType value | key value =>
    obtain ⟨b, rfl⟩ := setMember_eq_ok h
    exact ⟨hcharset, hcontentType, hencoding, hvtag, hlinks, husermeta, hindexes⟩
  | charset value =>
    obtain ⟨b, rfl⟩ := setMember_eq_ok h
    exact ⟨rfl, hcontentType, hencoding, hvtag, hlinks, husermeta, hindexes⟩
  | contentType value =>
    obtain ⟨b, rfl⟩ := setMember_eq_ok h
    exact ⟨hcharset, rfl, hencoding, hvtag, hlinks, husermeta, hindexes⟩
  | contentEncoding value =>
    obtain ⟨b, rfl⟩ := setMember_eq_ok h
    exact ⟨hcharset, hcontentType, rfl, hvtag, hlinks, husermeta, hindexes⟩
  | vtag value =>
    obtain ⟨b, rfl⟩ := setMember_eq_ok h
    exact ⟨hcharset, hcontentType, hencoding, rfl, hlinks, husermeta, hindexes⟩
  | bucket value | value value | valueShallowCopy value =>
    obtain ⟨copy, heap₁, _, hpure⟩ := C.bind_eq_ok.mp h
    obtain ⟨hout, _⟩ := C.pure_eq_ok.mp hpure
    rw [← (Prod.mk.inj hout).2]
    exact ⟨hcharset, hcontentType, hencoding, hvtag, hlinks, husermeta, hindexes⟩
  | lastMod value | lastModUsecs value | deleted value =>
    cases h
    exact ⟨hcharset, hcontentType, hencoding, hvtag, hlinks, husermeta, hindexes⟩

theorem CollectionCall.call_tidy {obj obj' : RiakObject} {call : CollectionCall}
    {succeeded : Bool} (hobj : obj.Tidy) (h : call.call obj heap = .ok ((succeeded, obj'), final)) :
    obj'.Tidy := by
  obtain ⟨hcharset, hcontentType, hencoding, hvtag, hlinks, husermeta, hindexes⟩ := hobj
  have hready := CollectionCall.call_eq_ok h
  obtain ⟨_, _, _, hcall, hlaw, hbacked⟩ := CollectionCall.call_of_ready
    ⟨hlinks.backed, husermeta.backed, hindexes.backed⟩ hready
  rw [h] at hcall
  cases hcall
  cases call with
  | newLink =>
    obtain ⟨hlaw, hframe⟩ := hlaw
    have hgrown := hlinks.grow hready hbacked.links hlaw ⟨rfl, rfl, rfl⟩
    rw [hframe]
    exact ⟨hcharset, hcontentType, hencoding, hvtag, hgrown, husermeta, hindexes⟩
  | newUsermeta =>
    obtain ⟨hlaw, hframe⟩ := hlaw
    have hgrown := husermeta.grow hready hbacked.usermeta hlaw rfl
    rw [hframe]
    exact ⟨hcharset, hcontentType, hencoding, hvtag, hlinks, hgrown, hindexes⟩
  | newIndex =>
    obtain ⟨hlaw, hframe⟩ := hlaw
    have hgrown := hindexes.grow hready hbacked.indexes hlaw rfl
    rw [hframe]
    exact ⟨hcharset, hcontentType, hencoding, hvtag, hlinks, husermeta, hgrown⟩

theorem RiakObject.Built.tidy {obj : RiakObject} (h : obj.Built) : obj.Tidy := by
  induction h with
  | new =>
    exact ⟨rfl, rfl, rfl, rfl, entriesTidy_empty, entriesTidy_empty, entriesTidy_empty⟩
  | set before hcall ih => exact objectSetters_tidy ih hcall
  | grow before hcall ih => exact CollectionCall.call_tidy ih hcall
  | setLink before hslots hi hslot hcall ih =>
    obtain ⟨hcharset, hcontentType, hencoding, hvtag, hlinks, husermeta, hindexes⟩ := ih
    rw [hslots] at hlinks
    obtain ⟨_, hfound, htidy⟩ := hlinks.entry _ hi
    rw [Option.getD_some, hslot] at hfound
    cases hfound
    exact ⟨hcharset, hcontentType, hencoding, hvtag,
      hlinks.replace hslot (linkSetters_tidy htidy hcall), husermeta, hindexes⟩
  | setUsermeta before hslots hi hslot hcall ih =>
    obtain ⟨hcharset, hcontentType, hencoding, hvtag, hlinks, husermeta, hindexes⟩ := ih
    rw [hslots] at husermeta
    obtain ⟨_, hfound, htidy⟩ := husermeta.entry _ hi
    rw [Option.getD_some, hslot] at hfound
    cases hfound
    exact ⟨hcharset, hcontentType, hencoding, hvtag, hlinks,
      husermeta.replace hslot (pairSetters_tidy htidy hcall), hindexes⟩
  | setIndex before hslots hi hslot hcall ih =>
    obtain ⟨hcharset, hcontentType, hencoding, hvtag, hlinks, husermeta, hindexes⟩ := ih
    rw [hslots] at hindexes
    obtain ⟨_, hfound, htidy⟩ := hindexes.entry _ hi
    rw [Option.getD_some, hslot] at hfound
    cases hfound
    exact ⟨hcharset, hcontentType, hencoding, hvtag, hlinks, husermeta,
      hindexes.replace hslot (pairSetters_tidy htidy hcall)⟩

/-! ### Entries

Where flags go with data, the same bytes come with the same flag, so pairs with keys
are compared by their content, and two arrays with as many entries by what these hold. -/

theorem flagInt_inj {has1 has2 : Bool} : flagInt has1 = flagInt has2 ↔ has1 = has2 := by
  revert has1 has2
  decide

theorem flaggedBytes_of_tidy {has : Bool} {bin : Option RiakBinary} (h : has = bin.isSome) :
    flaggedBytes has bin = bin.map RiakBinary.data := by
  subst h
  cases bin <;> rfl

theorem flags_of_bytes {has1 has2 : Bool} {bin1 bin2 : Option RiakBinary}
    (h1 : has1 = bin1.isSome) (h2 : has2 = bin2.isSome)
    (hsame : bin1.map RiakBinary.data = bin2.map RiakBinary.data) : has1 = has2 := by
  have hsome := congrArg Option.isSome hsame
  rw [Option.isSome_map, Option.isSome_map] at hsome
  rw [h1, h2, hsome]

theorem Compared.flagged (message : String) {has1 has2 : Bool} {bin1 bin2 : Option RiakBinary}
    (h1 : has1 = bin1.isSome) (h2 : has2 = bin2.isSome) (hflags : has1 = has2) :
    Decides none (Comparison.when has1 (riakObjectCompareBinary message bin1 bin2))
      ⟨True, bin1.map RiakBinary.data = bin2.map RiakBinary.data⟩ := by
  refine (Decides.when has1 fun _ => binary message bin1 bin2).congr ?_ ?_
  · refine iff_of_true (fun hhas => ?_) trivial
    exact ⟨by rw [← h1, hhas], by rw [← h2, ← hflags, hhas]⟩
  · intro _
    refine ⟨fun hbytes => ?_, fun hbytes _ => hbytes⟩
    cases has1 with
    | true => exact hbytes rfl
    | false =>
      rw [Option.isNone_iff_eq_none.mp (Option.isSome_eq_false_iff.mp h1.symm),
        Option.isNone_iff_eq_none.mp (Option.isSome_eq_false_iff.mp (h2.symm.trans hflags.symm))]

theorem comparePairs_decides (flags keys values : String) {pair1 pair2 : RiakPair}
    (h1 : pair1.Tidy ∧ pair1.key.isSome = true) (h2 : pair2.Tidy ∧ pair2.key.isSome = true) :
    Decides none (comparePairs flags keys values pair1 pair2)
      ⟨True, pair1.content = pair2.content⟩ := by
  have hflags := Compared.int flags (flagInt pair1.hasValue) (flagInt pair2.hasValue)
  have hkeys := Compared.binary keys pair1.key pair2.key
  refine (hflags.andThen fun hsame => hkeys.andThen fun _ =>
    (Compared.flagged values h1.1 h2.1 (flagInt_inj.mp hsame)).andThen fun _ => .same).congr ?_ ?_
  · exact iff_of_true ⟨trivial, fun _ => ⟨⟨h1.2, h2.2⟩, fun _ => ⟨trivial, fun _ => trivial⟩⟩⟩ trivial
  · intro _
    unfold RiakPair.content
    rw [flaggedBytes_of_tidy h1.1, flaggedBytes_of_tidy h2.1, PairContent.mk.injEq]
    refine ⟨fun hsame => ⟨hsame.2.1, hsame.2.2.1⟩, fun hsame => ?_⟩
    exact ⟨flagInt_inj.mpr (flags_of_bytes h1.1 h2.1 hsame.2), hsame.1, hsame.2, trivial⟩

theorem compareLinks_decides {link1 link2 : RiakLink} (h1 : link1.Tidy) (h2 : link2.Tidy) :
    Decides none (compareLinks link1 link2) ⟨True, link1.content = link2.content⟩ := by
  refine ((Compared.int _ _ _).andThen fun hbucket => (Compared.int _ _ _).andThen fun hkey =>
    (Compared.int _ _ _).andThen fun htag =>
    (Compared.flagged _ h1.bucket h2.bucket (flagInt_inj.mp hbucket)).andThen fun _ =>
    (Compared.flagged _ h1.key h2.key (flagInt_inj.mp hkey)).andThen fun _ =>
    (Compared.flagged _ h1.tag h2.tag (flagInt_inj.mp htag)).andThen fun _ => .same).congr ?_ ?_
  · exact iff_of_true ⟨trivial, fun _ => ⟨trivial, fun _ => ⟨trivial, fun _ => ⟨trivial, fun _ =>
      ⟨trivial, fun _ => ⟨trivial, fun _ => trivial⟩⟩⟩⟩⟩⟩ trivial
  · intro _
    unfold RiakLink.content
    rw [flaggedBytes_of_tidy h1.bucket, flaggedBytes_of_tidy h2.bucket,
      flaggedBytes_of_tidy h1.key, flaggedBytes_of_tidy h2.key, flaggedBytes_of_tidy h1.tag,
      flaggedBytes_of_tidy h2.tag, LinkContent.mk.injEq]
    constructor
    · rintro ⟨_, _, _, hbucket, hkey, htag, _⟩
      exact ⟨hbucket, hkey, htag⟩
    · rintro ⟨hbucket, hkey, htag⟩
      exact ⟨flagInt_inj.mpr (flags_of_bytes h1.bucket h2.bucket hbucket),
        flagInt_inj.mpr (flags_of_bytes h1.key h2.key hkey),
        flagInt_inj.mpr (flags_of_bytes h1.tag h2.tag htag), hbucket, hkey, htag, trivial⟩

theorem compareEntries_decides {α β : Type} {n : Int} {array1 array2 : Option (List (Option α))}
    {ok : α → Prop} {compare : α → α → Comparison (Option PrintState)} (content : α → β)
    (h1 : EntriesSet n array1 ok) (h2 : EntriesSet n array2 ok)
    (hcompare : ∀ a b, ok a → ok b → Decides none (compare a b) ⟨True, content a = content b⟩) :
    Decides none (compareEntries n array1 array2 compare)
      ⟨True, (firstEntries n array1).map content = (firstEntries n array2).map content⟩ := by
  obtain ⟨hlength1, hentry1⟩ := h1.entries
  obtain ⟨hlength2, hentry2⟩ := h2.entries
  have hbody : ∀ i < n.toNat, Decides none
      (reading (entryAt array1 i) fun entry1 =>
        reading (entryAt array2 i) fun entry2 => compare entry1 entry2)
      ⟨True, (firstEntries n array1)[i]?.map content = (firstEntries n array2)[i]?.map content⟩ := by
    intro i hi
    have hget1 := List.getElem?_eq_getElem (show i < (firstEntries n array1).length by omega)
    have hget2 := List.getElem?_eq_getElem (show i < (firstEntries n array2).length by omega)
    obtain ⟨slots1, rfl, hslot1, hok1⟩ := hentry1 i _ hget1
    obtain ⟨slots2, rfl, hslot2, hok2⟩ := hentry2 i _ hget2
    rw [hget1, hget2]
    refine .reading (entryAt_of_set hslot1) (.reading (entryAt_of_set hslot2) ?_)
    refine (hcompare _ _ hok1 hok2).congr Iff.rfl fun _ => ?_
    exact Option.some_inj.symm
  refine (Decides.loop hbody).congr ?_ ?_
  · refine iff_of_true (Verdict.all_defined fun v hv => ?_) trivial
    obtain ⟨i, _, rfl⟩ := List.mem_map.mp hv
    trivial
  · intro _
    rw [Verdict.all_same]
    constructor
    · intro hsame
      apply List.ext_getElem?
      intro i
      rw [List.getElem?_map, List.getElem?_map]
      by_cases hi : i < n.toNat
      · exact hsame _ (List.mem_map.mpr ⟨i, List.mem_range.mpr hi, rfl⟩)
      · rw [List.getElem?_eq_none (by omega), List.getElem?_eq_none (by omega)]
    · intro hsame v hv
      obtain ⟨i, _, rfl⟩ := List.mem_map.mp hv
      show (firstEntries n array1)[i]?.map content = (firstEntries n array2)[i]?.map content
      rw [← List.getElem?_map, ← List.getElem?_map, hsame]

/-! ### Objects

The verdict of everything in front of the loops, the three loops behind equal counts,
and both together. -/

/-- What an object is compared by before its optional members. -/
structure RiakObject.SameAddress (obj1 obj2 : RiakObject) : Prop where
  bucket : obj1.bucket.map RiakBinary.data = obj2.bucket.map RiakBinary.data
  key : obj1.key.map RiakBinary.data = obj2.key.map RiakBinary.data
  value : obj1.value.map RiakBinary.data = obj2.value.map RiakBinary.data

/-- Two objects are equal in value. Where a vtag or a time of modification is
    missing on one side, it does not count. -/
structure RiakObject.Agrees (obj1 obj2 : RiakObject) : Prop where
  address : obj1.SameAddress obj2
  charset : flaggedBytes obj1.hasCharset obj1.charset = flaggedBytes obj2.hasCharset obj2.charset
  contentType : flaggedBytes obj1.hasContentType obj1.contentType =
    flaggedBytes obj2.hasContentType obj2.contentType
  encoding : flaggedBytes obj1.hasContentEncoding obj1.encoding =
    flaggedBytes obj2.hasContentEncoding obj2.encoding
  vtag : obj1.hasVtag = true → obj2.hasVtag = true →
    obj1.vtag.map RiakBinary.data = obj2.vtag.map RiakBinary.data
  lastMod : obj1.hasLastMod = true → obj2.hasLastMod = true → obj1.lastMod = obj2.lastMod
  lastModUsecs : obj1.hasLastModUsecs = true → obj2.hasLastModUsecs = true →
    obj1.lastModUsecs = obj2.lastModUsecs
  deleted : obj1.deleted = obj2.deleted
  indexes : (firstEntries obj1.nIndexes obj1.indexes).map RiakPair.content =
    (firstEntries obj2.nIndexes obj2.indexes).map RiakPair.content
  links : (firstEntries obj1.nLinks obj1.links).map RiakLink.content =
    (firstEntries obj2.nLinks obj2.links).map RiakLink.content
  usermeta : (firstEntries obj1.nUsermeta obj1.usermeta).map RiakPair.content =
    (firstEntries obj2.nUsermeta obj2.usermeta).map RiakPair.content

/-- Where neither object has a charset, a content type or an encoding, they differ in
    something that is compared before it. -/
structure RiakObject.Comparable (obj1 obj2 : RiakObject) : Prop where
  charset : obj1.hasCharset = false → obj2.hasCharset = false → ¬ obj1.SameAddress obj2
  contentType : obj1.hasContentType = false → obj2.hasContentType = false →
    ¬ (obj1.SameAddress obj2 ∧
      flaggedBytes obj1.hasCharset obj1.charset = flaggedBytes obj2.hasCharset obj2.charset)
  encoding : obj1.hasContentEncoding = false → obj2.hasContentEncoding = false →
    ¬ (obj1.SameAddress obj2 ∧
      flaggedBytes obj1.hasCharset obj1.charset = flaggedBytes obj2.hasCharset obj2.charset ∧
      flaggedBytes obj1.hasContentType obj1.contentType =
        flaggedBytes obj2.hasContentType obj2.contentType)

/-- Bucket, key and value of an object are set, and so are the keys of its pairs. -/
structure RiakObject.KeysSet (obj : RiakObject) : Prop where
  bucket : obj.bucket.isSome
  key : obj.key.isSome
  value : obj.value.isSome
  usermeta : ∀ pair ∈ firstEntries obj.nUsermeta obj.usermeta, pair.key.isSome
  indexes : ∀ pair ∈ firstEntries obj.nIndexes obj.indexes, pair.key.isSome

/-- An optional binary of an object, in front of which its flags are compared: it is
    there on both sides or on neither. -/
theorem Compared.optional (flags message : String) {has1 has2 : Bool}
    {bin1 bin2 : Option RiakBinary} (h1 : has1 = bin1.isSome) (h2 : has2 = bin2.isSome)
    {p : Comparison (Option PrintState)} {v : Verdict}
    (hp : flaggedBytes has1 bin1 = flaggedBytes has2 bin2 → Decides none p v) :
    Decides none
      ((riakObjectCompareInt flags (flagInt has1) (flagInt has2)).andThen
        ((riakObjectCompareBinary message bin1 bin2).andThen p))
      ⟨¬ (has1 = false ∧ has2 = false) ∧
          (flaggedBytes has1 bin1 = flaggedBytes has2 bin2 → v.defined),
        flaggedBytes has1 bin1 = flaggedBytes has2 bin2 ∧ v.same⟩ := by
  rw [flaggedBytes_of_tidy h1, flaggedBytes_of_tidy h2] at *
  refine ((int flags _ _).andThen fun _ => (binary message bin1 bin2).andThen hp).congr ?_ ?_
  · constructor
    · rintro ⟨_, hlater⟩
      refine ⟨?_, fun hsame => (hlater (flagInt_inj.mpr (flags_of_bytes h1 h2 hsame))).2 hsame⟩
      rintro ⟨hno1, hno2⟩
      have hsome := (hlater (flagInt_inj.mpr (hno1.trans hno2.symm))).1.1
      rw [← h1, hno1] at hsome
      cases hsome
    · rintro ⟨hthere, hlater⟩
      refine ⟨trivial, fun hflags => ⟨?_, hlater⟩⟩
      have hsame := flagInt_inj.mp hflags
      have hhas : has1 = true := by
        rw [← Bool.not_eq_false]
        exact fun hno => hthere ⟨hno, hsame.symm.trans hno⟩
      exact ⟨by rw [← h1, hhas], by rw [← h2, ← hsame, hhas]⟩
  · intro _
    constructor
    · rintro ⟨_, hbytes, hlater⟩
      exact ⟨hbytes, hlater⟩
    · rintro ⟨hbytes, hlater⟩
      exact ⟨flagInt_inj.mpr (flags_of_bytes h1 h2 hbytes), hbytes, hlater⟩

/-- What is compared of two objects behind their optional binaries, in front of the
    loops. -/
structure RiakObject.SameRest (obj1 obj2 : RiakObject) : Prop where
  vtag : obj1.hasVtag = true → obj2.hasVtag = true →
    obj1.vtag.map RiakBinary.data = obj2.vtag.map RiakBinary.data
  lastMod : obj1.hasLastMod = true → obj2.hasLastMod = true → obj1.lastMod = obj2.lastMod
  lastModUsecs : obj1.hasLastModUsecs = true → obj2.hasLastModUsecs = true →
    obj1.lastModUsecs = obj2.lastModUsecs
  deleted : obj1.deleted = obj2.deleted
  nIndexes : obj1.nIndexes = obj2.nIndexes
  nLinks : obj1.nLinks = obj2.nLinks
  nUsermeta : obj1.nUsermeta = obj2.nUsermeta

theorem ofInt_inj {n m : Int} (hn : 0 ≤ n ∧ n < 2 ^ 31) (hm : 0 ≤ m ∧ m < 2 ^ 31) :
    UInt32.ofInt n = UInt32.ofInt m ↔ n = m := by
  constructor
  · intro hsame
    have hnat := congrArg UInt32.toNat hsame
    rw [C.ofInt_toNat hn.1 (by omega), C.ofInt_toNat hm.1 (by omega)] at hnat
    omega
  · rintro rfl
    rfl

theorem bool_and_imp {has1 has2 : Bool} {P : Prop} :
    ((has1 && has2) = true → P) ↔ (has1 = true → has2 = true → P) := by
  rw [Bool.and_eq_true, and_imp]

section Objects

variable {obj1 obj2 : RiakObject}

theorem compareRest_decides (h1 : obj1.Tidy) (h2 : obj2.Tidy) :
    Decides none (cascade [
      Comparison.when (obj1.hasVtag && obj2.hasVtag)
        (riakObjectCompareBinary "VTags" obj1.vtag obj2.vtag),
      Comparison.when (obj1.hasLastMod && obj2.hasLastMod)
        (riakObjectCompareInt "Last Modified Dates" obj1.lastMod obj2.lastMod),
      Comparison.when (obj1.hasLastModUsecs && obj2.hasLastModUsecs)
        (riakObjectCompareInt "Last Modified uSecs" obj1.lastModUsecs obj2.lastModUsecs),
      riakObjectCompareInt "Delete Flags" obj1.deleted.toUInt32 obj2.deleted.toUInt32,
      riakObjectCompareInt "Number of Indexes" (UInt32.ofInt obj1.nIndexes)
        (UInt32.ofInt obj2.nIndexes),
      riakObjectCompareInt "Number of Links" (UInt32.ofInt obj1.nLinks) (UInt32.ofInt obj2.nLinks),
      riakObjectCompareInt "Number of User Metadata" (UInt32.ofInt obj1.nUsermeta)
        (UInt32.ofInt obj2.nUsermeta)]) ⟨True, obj1.SameRest obj2⟩ := by
  have hindexes := ofInt_inj ⟨h1.indexes.sign, h1.indexes.bound⟩ ⟨h2.indexes.sign, h2.indexes.bound⟩
  have hlinks := ofInt_inj ⟨h1.links.sign, h1.links.bound⟩ ⟨h2.links.sign, h2.links.bound⟩
  have husermeta :=
    ofInt_inj ⟨h1.usermeta.sign, h1.usermeta.bound⟩ ⟨h2.usermeta.sign, h2.usermeta.bound⟩
  have hdeleted : obj1.deleted.toUInt32 = obj2.deleted.toUInt32 ↔ obj1.deleted = obj2.deleted :=
    ⟨congrArg Int32.ofUInt32, congrArg Int32.toUInt32⟩
  refine (Decides.cascade (.cons (.when _ fun _ => Compared.binary _ _ _) <|
    .cons (.when _ fun _ => Compared.int _ _ _) <| .cons (.when _ fun _ => Compared.int _ _ _) <|
    .cons (Compared.int _ _ _) <| .cons (Compared.int _ _ _) <| .cons (Compared.int _ _ _) <|
    .cons (Compared.int _ _ _) .nil)).congr ?_ ?_
  · refine iff_of_true (Verdict.all_defined ?_) trivial
    simp only [List.forall_mem_cons]
    refine ⟨fun hboth => ?_, fun _ => trivial, fun _ => trivial, trivial, trivial, trivial, trivial,
      fun v hv => absurd hv List.not_mem_nil⟩
    rw [Bool.and_eq_true] at hboth
    exact ⟨by rw [← h1.vtag, hboth.1], by rw [← h2.vtag, hboth.2]⟩
  · intro _
    rw [Verdict.all_same]
    simp only [List.forall_mem_cons, Verdict.when, Compared.bytes, Compared.value, bool_and_imp,
      hdeleted, hindexes, hlinks, husermeta]
    constructor
    · rintro ⟨hvtag, hlastMod, hlastModUsecs, hdeleted, hnIndexes, hnLinks, hnUsermeta, _⟩
      exact ⟨hvtag, hlastMod, hlastModUsecs, hdeleted, hnIndexes, hnLinks, hnUsermeta⟩
    · rintro ⟨hvtag, hlastMod, hlastModUsecs, hdeleted, hnIndexes, hnLinks, hnUsermeta⟩
      exact ⟨hvtag, hlastMod, hlastModUsecs, hdeleted, hnIndexes, hnLinks, hnUsermeta,
        fun v hv => absurd hv List.not_mem_nil⟩

theorem riakObjectCompareMembers_decides (h1 : obj1.Tidy) (h2 : obj2.Tidy) (hset1 : obj1.KeysSet)
    (hset2 : obj2.KeysSet) :
    Decides none (riakObjectCompareMembers obj1 obj2)
      ⟨obj1.Comparable obj2, obj1.SameAddress obj2 ∧
        flaggedBytes obj1.hasCharset obj1.charset = flaggedBytes obj2.hasCharset obj2.charset ∧
        flaggedBytes obj1.hasContentType obj1.contentType =
          flaggedBytes obj2.hasContentType obj2.contentType ∧
        flaggedBytes obj1.hasContentEncoding obj1.encoding =
          flaggedBytes obj2.hasContentEncoding obj2.encoding ∧ obj1.SameRest obj2⟩ := by
  refine ((Compared.binary _ _ _).andThen fun _ => (Compared.binary _ _ _).andThen fun _ =>
    (Compared.binary _ _ _).andThen fun _ =>
    Compared.optional _ _ h1.charset h2.charset fun _ =>
    Compared.optional _ _ h1.contentType h2.contentType fun _ =>
    Compared.optional _ _ h1.encoding h2.encoding fun _ =>
    compareRest_decides h1 h2).congr ?_ ?_
  · constructor
    · rintro ⟨_, hkey⟩
      have hcharset : obj1.SameAddress obj2 → _ := fun haddress =>
        ((hkey haddress.bucket).2 haddress.key).2 haddress.value
      refine ⟨fun hno1 hno2 haddress => (hcharset haddress).1 ⟨hno1, hno2⟩, ?_, ?_⟩
      · rintro hno1 hno2 ⟨haddress, hsame⟩
        exact ((hcharset haddress).2 hsame).1 ⟨hno1, hno2⟩
      · rintro hno1 hno2 ⟨haddress, hsame, hsame'⟩
        exact (((hcharset haddress).2 hsame).2 hsame').1 ⟨hno1, hno2⟩
    · intro h
      refine ⟨⟨hset1.bucket, hset2.bucket⟩, fun hbucket => ⟨⟨hset1.key, hset2.key⟩, fun hkey =>
        ⟨⟨hset1.value, hset2.value⟩, fun hvalue => ?_⟩⟩⟩
      have haddress : obj1.SameAddress obj2 := ⟨hbucket, hkey, hvalue⟩
      exact ⟨fun hno => h.charset hno.1 hno.2 haddress, fun hcharset =>
        ⟨fun hno => h.contentType hno.1 hno.2 ⟨haddress, hcharset⟩, fun hcontentType =>
          ⟨fun hno => h.encoding hno.1 hno.2 ⟨haddress, hcharset, hcontentType⟩, fun _ => trivial⟩⟩⟩
  · intro _
    constructor
    · rintro ⟨hbucket, hkey, hvalue, hrest⟩
      exact ⟨⟨hbucket, hkey, hvalue⟩, hrest⟩
    · rintro ⟨⟨hbucket, hkey, hvalue⟩, hrest⟩
      exact ⟨hbucket, hkey, hvalue, hrest⟩

theorem EntriesTidy.withKeys {n : Int} {array : Option (List (Option RiakPair))}
    (h : EntriesTidy n array RiakPair.Tidy) (hkeys : ∀ pair ∈ firstEntries n array, pair.key.isSome) :
    EntriesSet n array fun pair => pair.Tidy ∧ pair.key.isSome = true := by
  refine ⟨h.bound, fun i hi => ?_⟩
  obtain ⟨slots, pair, rfl, hslot, htidy⟩ := h.set.entry i hi
  have htaken : (((some slots).getD []).take n.toNat)[i]? = some (some pair) := by
    rw [Option.getD_some, List.getElem?_take_of_lt hi, hslot]
  refine ⟨slots, pair, rfl, hslot, htidy, hkeys pair ?_⟩
  rw [firstEntries, List.mem_filterMap]
  exact ⟨some pair, List.mem_of_getElem? htaken, rfl⟩

theorem EntriesTidy.count {α β : Type} {n : Int} {array : Option (List (Option α))}
    {ok : α → Prop} (h : EntriesTidy n array ok) (content : α → β) :
    (((firstEntries n array).map content).length : Int) = n := by
  rw [List.length_map, h.set.entries.1]
  have hsign := h.sign
  omega

theorem compareCollections_decides (h1 : obj1.Tidy) (h2 : obj2.Tidy) (hset1 : obj1.KeysSet)
    (hset2 : obj2.KeysSet) (hrest : obj1.SameRest obj2) :
    Decides none
      ((compareEntries obj1.nIndexes obj1.indexes obj2.indexes
        (comparePairs "Index Value Flags" "Index Keys" "Index Values")).andThen <|
      (compareEntries obj1.nLinks obj1.links obj2.links compareLinks).andThen <|
      compareEntries obj1.nUsermeta obj1.usermeta obj2.usermeta
        (comparePairs "User Meta-data Value Flags" "User Meta-data Keys" "User Meta-data Values"))
      ⟨True, (firstEntries obj1.nIndexes obj1.indexes).map RiakPair.content =
          (firstEntries obj2.nIndexes obj2.indexes).map RiakPair.content ∧
        (firstEntries obj1.nLinks obj1.links).map RiakLink.content =
          (firstEntries obj2.nLinks obj2.links).map RiakLink.content ∧
        (firstEntries obj1.nUsermeta obj1.usermeta).map RiakPair.content =
          (firstEntries obj2.nUsermeta obj2.usermeta).map RiakPair.content⟩ := by
  have hindexes2 := h2.indexes.withKeys hset2.indexes
  have hlinks2 := h2.links.set
  have husermeta2 := h2.usermeta.withKeys hset2.usermeta
  rw [← hrest.nIndexes] at hindexes2
  rw [← hrest.nLinks] at hlinks2
  rw [← hrest.nUsermeta] at husermeta2
  rw [← hrest.nIndexes, ← hrest.nLinks, ← hrest.nUsermeta]
  have hindexes := compareEntries_decides RiakPair.content (h1.indexes.withKeys hset1.indexes)
    hindexes2 fun _ _ => comparePairs_decides "Index Value Flags" "Index Keys" "Index Values"
  have hlinks := compareEntries_decides RiakLink.content h1.links.set hlinks2 fun _ _ =>
    compareLinks_decides
  have husermeta := compareEntries_decides RiakPair.content
    (h1.usermeta.withKeys hset1.usermeta) husermeta2 fun _ _ =>
    comparePairs_decides "User Meta-data Value Flags" "User Meta-data Keys"
      "User Meta-data Values"
  refine (hindexes.andThen fun _ => hlinks.andThen fun _ => husermeta).congr ?_ fun _ => Iff.rfl
  exact iff_of_true ⟨trivial, fun _ => ⟨trivial, fun _ => trivial⟩⟩ trivial

theorem riakObjectCompareInternal_decides (h1 : obj1.Tidy) (h2 : obj2.Tidy)
    (hset1 : obj1.KeysSet) (hset2 : obj2.KeysSet) :
    Decides none (riakObjectCompareInternal obj1 obj2)
      ⟨obj1.Comparable obj2, obj1.Agrees obj2⟩ := by
  refine ((riakObjectCompareMembers_decides h1 h2 hset1 hset2).andThen fun hmembers =>
    compareCollections_decides h1 h2 hset1 hset2 hmembers.2.2.2.2).congr ?_ ?_
  · exact ⟨And.left, fun h => ⟨h, fun _ => trivial⟩⟩
  · intro _
    constructor
    · rintro ⟨⟨haddress, hcharset, hcontentType, hencoding, hrest⟩, hindexes, hlinks, husermeta⟩
      exact ⟨haddress, hcharset, hcontentType, hencoding, hrest.vtag, hrest.lastMod,
        hrest.lastModUsecs, hrest.deleted, hindexes, hlinks, husermeta⟩
    · intro h
      have hnIndexes : obj1.nIndexes = obj2.nIndexes := by
        rw [← h1.indexes.count RiakPair.content, ← h2.indexes.count RiakPair.content, h.indexes]
      have hnLinks : obj1.nLinks = obj2.nLinks := by
        rw [← h1.links.count RiakLink.content, ← h2.links.count RiakLink.content, h.links]
      have hnUsermeta : obj1.nUsermeta = obj2.nUsermeta := by
        rw [← h1.usermeta.count RiakPair.content, ← h2.usermeta.count RiakPair.content, h.usermeta]
      exact ⟨⟨h.address, h.charset, h.contentType, h.encoding, h.vtag, h.lastMod, h.lastModUsecs,
        h.deleted, hnIndexes, hnLinks, hnUsermeta⟩, h.indexes, h.links, h.usermeta⟩

/-- **Comparing decides equality** if and only if no charset, content type or encoding
    that both objects lack is come to. -/
theorem riak_object_compare_decides_iff (h1 : obj1.Built) (h2 : obj2.Built)
    (hset1 : obj1.KeysSet) (hset2 : obj2.KeysSet) (heap : Heap) :
    (∃ result, riakObjectCompare obj1 obj2 heap = .ok (result, heap) ∧
      (result = 0 ↔ obj1.Agrees obj2)) ↔ obj1.Comparable obj2 := by
  have hdecides := riakObjectCompareInternal_decides h1.tidy h2.tidy hset1 hset2
  constructor
  · rintro ⟨result, hrun, _⟩
    by_contra hundefined
    obtain ⟨fault, hfault⟩ := hdecides.faults hundefined heap
    obtain ⟨out, rest, hinternal, _⟩ := C.bind_eq_ok.mp hrun
    rw [hfault] at hinternal
    cases hinternal
  · intro hcomparable
    obtain ⟨result, hinternal, hzero⟩ := hdecides.returns hcomparable heap
    refine ⟨result, ?_, hzero⟩
    unfold riakObjectCompare
    rw [C.bind_of_ok hinternal]
    rfl

end Objects

/-- Bucket, key and value. -/
def plainObject : RiakObject where
  bucket := some ⟨[0x62], true⟩
  hasKey := true
  key := some ⟨[0x6b], true⟩
  value := some ⟨[0x76], true⟩

theorem plainObject_built : plainObject.Built := by
  have hbucket : RiakObject.Built { bucket := some ⟨[0x62], true⟩ } :=
    @RiakObject.Built.set _ _ (.bucket (some ⟨[0x62], true⟩)) Heap.fresh Heap.fresh .new rfl
  have hkey : RiakObject.Built { plainObject with value := none } :=
    @RiakObject.Built.set _ _ (.key (some ⟨[0x6b], true⟩)) Heap.fresh Heap.fresh hbucket rfl
  exact @RiakObject.Built.set _ _ (.value (some ⟨[0x76], true⟩)) Heap.fresh Heap.fresh hkey rfl

/-- The same with the optional binaries and an index. -/
def indexedObject : RiakObject :=
  { plainObject with
    hasCharset := true, charset := some ⟨[0x63], true⟩
    hasContentType := true, contentType := some ⟨[0x74], true⟩
    hasContentEncoding := true, encoding := some ⟨[0x65], true⟩
    nIndexes := 1, indexes := some [some { key := some ⟨[0x69], true⟩ }] }

theorem indexedObject_built : indexedObject.Built := by
  have hcharset : RiakObject.Built
      { plainObject with hasCharset := true, charset := some ⟨[0x63], true⟩ } :=
    @RiakObject.Built.set _ _ (.charset (some ⟨[0x63], true⟩)) Heap.fresh Heap.fresh
      plainObject_built rfl
  have hcontentType : RiakObject.Built
      { indexedObject with
        hasContentEncoding := false, encoding := none, nIndexes := 0, indexes := none } :=
    @RiakObject.Built.set _ _ (.contentType (some ⟨[0x74], true⟩)) Heap.fresh Heap.fresh hcharset
      rfl
  have hencoding : RiakObject.Built { indexedObject with nIndexes := 0, indexes := none } :=
    @RiakObject.Built.set _ _ (.contentEncoding (some ⟨[0x65], true⟩)) Heap.fresh Heap.fresh
      hcontentType rfl
  have hindex : RiakObject.Built { indexedObject with indexes := some [some {}] } :=
    @RiakObject.Built.grow _ _ .newIndex true Heap.fresh Heap.fresh hencoding rfl
  exact @RiakObject.Built.setIndex _ [some {}] 0 {} { key := some ⟨[0x69], true⟩ }
    (.key (some ⟨[0x69], true⟩)) Heap.fresh Heap.fresh hindex rfl Nat.one_pos rfl rfl

theorem indexedObject_keysSet : indexedObject.KeysSet := by
  refine ⟨rfl, rfl, rfl, ?_, ?_⟩
  · intro pair hpair
    cases hpair
  · intro pair hpair
    rw [List.mem_singleton.mp hpair]
    rfl

/-- An object with the optional binaries, and the same object with a time of
    modification. -/
theorem riak_object_compare_decides_indexed :
    ∃ obj2, objectSetters.run indexedObject (.lastMod 5) Heap.fresh = .ok ((.ok, obj2), Heap.fresh) ∧
      ∃ result, riakObjectCompare indexedObject obj2 Heap.fresh = .ok (result, Heap.fresh) ∧
        (result = 0 ↔ indexedObject.Agrees obj2) := by
  refine ⟨_, rfl, (riak_object_compare_decides_iff indexedObject_built
    (@RiakObject.Built.set _ _ (.lastMod 5) Heap.fresh Heap.fresh indexedObject_built rfl)
    indexedObject_keysSet ?_ Heap.fresh).mpr ⟨nofun, nofun, nofun⟩⟩
  exact ⟨rfl, rfl, rfl, indexedObject_keysSet.usermeta, indexedObject_keysSet.indexes⟩

/-- Two objects without a charset: comparing one of them with itself follows NULL. -/
theorem riak_object_compare_without_charset :
    plainObject.Built ∧ plainObject.KeysSet ∧ plainObject.Agrees plainObject ∧
      riakObjectCompare plainObject plainObject Heap.fresh = .error .nullDereference := by
  refine ⟨plainObject_built, ⟨rfl, rfl, rfl, nofun, nofun⟩, ?_, rfl⟩
  exact ⟨⟨rfl, rfl, rfl⟩, rfl, rfl, rfl, fun _ _ => rfl, fun _ _ => rfl, fun _ _ => rfl, rfl, rfl,
    rfl, rfl⟩

end RiakClient
