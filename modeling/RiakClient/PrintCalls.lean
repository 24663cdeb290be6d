import RiakClient.PrintSafety
import RiakClient.ResponseFree

/-!
# Printing never leaves its buffer, if it fits

What the calls of the interface print, part by part; a part may be left out when
there is no room for it. With the account of the room this tells exactly which
calls stay inside their buffer.
-/

namespace RiakClient

open CSem LabelledRun Printer

variable {heap : Heap}

/-! ### Parts

Some prints are made only if there is room in front of them, so what a call prints
depends on the room, but only in this way. -/

/-- Some prints that follow each other, behind a test for room or not. -/
inductive Part where
  | always (prints : List Print)
  | guarded (prints : List Print)
deriving DecidableEq, Repr

namespace Part

def printer : Part → Printer
  | always prints => printAll prints
  | guarded prints => whenRoom (printAll prints)

/-- The prints that a part makes in some room. -/
def made (room : Nat) : Part → List Print
  | always prints => prints
  | guarded prints => if 0 < room then prints else []

end Part

/-- The prints that some parts make in some room. -/
def printsMade (room : Nat) : List Part → List Print
  | [] => []
  | part :: parts =>
      part.made room ++ printsMade (roomAfter room (part.made room)) parts

theorem roomAfter_append (room : Nat) (first later : List Print) :
    roomAfter room (first ++ later) = roomAfter (roomAfter room first) later :=
  List.foldl_append

theorem printsMade_append (room : Nat) (first later : List Part) :
    printsMade room (first ++ later) =
      printsMade room first ++ printsMade (roomAfter room (printsMade room first)) later := by
  induction first generalizing room with
  | nil => rfl
  | cons part first ih =>
    rw [List.cons_append, printsMade, printsMade, ih, roomAfter_append, List.append_assoc]

theorem Part.printer_apply (part : Part) (s : PrintState) :
    part.printer s = printAll (part.made s.len.toNat) s := by
  cases part with
  | always prints => rfl
  | guarded prints =>
    unfold printer made
    by_cases hpositive : 0 < s.len
    · have hroom : 0 < s.len.toNat := by omega
      simp only [whenRoom, hpositive, hroom, if_true]
    · have hroom : ¬ 0 < s.len.toNat := by omega
      simp only [whenRoom, hpositive, hroom, if_false]
      rfl

theorem all_parts_apply : ∀ (parts : List Part) (s : PrintState) (heap : Heap), s.len < 2 ^ 31 →
    all (parts.map Part.printer) s heap = printAll (printsMade s.len.toNat parts) s heap := by
  intro parts
  induction parts with
  | nil => intros; rfl
  | cons part parts ih =>
    intro s heap hbound
    rw [List.map_cons, all_cons, printsMade, printAll_append, append_apply, append_apply,
      part.printer_apply, C.bind_apply, C.bind_apply]
    cases hfirst : printAll (part.made s.len.toNat) s heap with
    | error fault => rfl
    | ok out =>
      obtain ⟨⟨wrote, s'⟩, rest⟩ := out
      obtain ⟨_, hle, hroom, _⟩ := printAll_returned hbound hfirst
      have hlater := ih s' rest (Int.lt_of_le_of_lt hle hbound)
      rw [hroom] at hlater
      simp only [C.bind_apply, hlater]

/-! ### The parts of a call -/

variable (formats : PrintFormats)

/-- `if (has_x) ...`. -/
def partsWhen (has : Bool) (parts : List Part) : List Part := if has then parts else []

def labelParts (name value : Bytes) : List Part :=
  [.always [.text (name ++ ascii ": " ++ value ++ ascii "\n")]]

def labelBinaryParts (form : BinaryForm) (name : Bytes) (value : Option RiakBinary) : List Part :=
  [.always [.text (name ++ ascii ": ")], .guarded [.binary form value], .always [.text (ascii "\n")]]

def pairParts (entry : RiakPair) : List Part :=
  labelBinaryParts .plain (ascii "Key") entry.key ++
    partsWhen entry.hasValue (labelBinaryParts .plain (ascii "Value") entry.value)

/-- The parts of a loop over an array. -/
def loopParts {α : Type} (body : α → Nat → List Part) (entries : List α) : List Part :=
  entries.zipIdx.flatMap fun (entry, i) => body entry i

def pairsParts (pair : Option (List (Option RiakPair))) (numPairs : UInt32) : List Part :=
  loopParts (fun entry i => pairParts entry ++ [.always [.next i]])
    (firstEntries numPairs.toNat pair)

def linkParts (link : RiakLink) : List Part :=
  partsWhen link.hasBucket (labelBinaryParts .plain (ascii "Link Bucket") link.bucket) ++
    partsWhen link.hasKey (labelBinaryParts .plain (ascii "Link Key") link.key) ++
    partsWhen link.hasTag (labelBinaryParts .plain (ascii "Link Tag") link.tag)

def timeParts (name : Bytes) (value : Int) : List Part :=
  [.guarded [.text (name ++ ascii ": " ++ formats.time value ++ ascii "\n")]]

def boolParts (name : Bytes) (value : RiakBoolean) : List Part :=
  labelParts name (ascii (if value ≠ 0 then "true" else "false"))

def objectMemberParts (obj : RiakObject) : List Part :=
  labelBinaryParts .plain (ascii "Bucket") obj.bucket ++
    partsWhen obj.hasBucketType (labelBinaryParts .plain (ascii "Bucket type") obj.bucketType) ++
    partsWhen obj.hasKey (labelBinaryParts .plain (ascii "Key") obj.key) ++
    labelBinaryParts .plain (ascii "Value") obj.value ++
    partsWhen obj.hasCharset (labelBinaryParts .plain (ascii "Charsets") obj.charset) ++
    partsWhen obj.hasLastMod (timeParts formats (ascii "Last Mod") (asInt obj.lastMod.toNat)) ++
    partsWhen obj.hasLastModUsecs
      (labelParts (ascii "Last Mod uSecs") (decimal (asInt obj.lastModUsecs.toNat))) ++
    partsWhen obj.hasContentType
      (labelBinaryParts .plain (ascii "Content Type") obj.contentType) ++
    partsWhen obj.hasContentEncoding
      (labelBinaryParts .plain (ascii "Content Encoding") obj.encoding) ++
    partsWhen obj.hasDeleted (boolParts (ascii "Deleted") obj.deleted) ++
    partsWhen obj.hasVtag (labelBinaryParts .plain (ascii "VTag") obj.vtag)

def objectParts (obj : RiakObject) : List Part :=
  objectMemberParts formats obj ++
    loopParts (fun link _ => linkParts link) (firstEntries obj.nLinks obj.links) ++
    [.always [.text (ascii "User Meta-data\n")]] ++
    pairsParts obj.usermeta (UInt32.ofInt obj.nUsermeta) ++
    [.always [.text (ascii "Indexes\n")]] ++
    pairsParts obj.indexes (UInt32.ofInt obj.nIndexes)

/-- The first entries of a listing. -/
def firstBinaries (n : Nat) : Ptr (List (Ptr RiakBinary)) → List (Option RiakBinary)
  | .obj slots => (slots.take n).map fun
      | .obj bin => some bin
      | _ => none
  | _ => []

def listingParts {μ : Type} (label : Bytes) (response : RiakListResponse μ) : List Part :=
  labelParts label (decimal (asInt response.nEntries.toNat)) ++
    loopParts (fun bin i => [.guarded [.text (decimal (i : Nat) ++ ascii " - "),
        .binary .plain bin, .text (ascii "\n"), .next i]])
      (firstBinaries response.nEntries.toNat response.entries) ++
    boolParts (ascii "Done") response.done

/-- What a call prints. -/
def PrintCall.parts : PrintCall → List Part
  | print chars => [.always [.text chars]]
  | labelInt name value => labelParts name (decimal value)
  | labelFloat name value => labelParts name (formats.float value)
  | labelBool name value => boolParts name value
  | labelString name value => labelParts name value
  | labelTime name value => timeParts formats name value
  | labelBinary name value => labelBinaryParts .plain name value
  | labelBinaryHex name value => labelBinaryParts .hex name value
  | labelRawHexArray value valueLen =>
      .always [.text (ascii "0x")] ::
        loopParts (fun b _ => [.guarded [.text (hexByte b)]]) (value.take valueLen.toNat)
  | binary bin => [.always [.binary .plain bin]]
  | binaryHex bin => [.always [.binary .hex bin]]
  | pairs pair numPairs => pairsParts pair numPairs
  | links link => linkParts link
  | object obj => objectParts formats obj
  | listkeys response => listingParts (ascii "Num Keys") response
  | listbuckets response => listingParts (ascii "Num Buckets") response

/-! ### Calls print their parts

One rule for each way in which the code puts prints together, `if (state->len > 0)` in
front of some of them and the two kinds of loops among them, and then one lemma for
each function. -/

/-- A printer that prints some parts. -/
def Printer.MadeOf (p : Printer) (parts : List Part) : Prop := p = all (parts.map Part.printer)

namespace Printer.MadeOf

variable {p q : Printer} {first later : List Part}

theorem append (hp : p.MadeOf first) (hq : q.MadeOf later) : (p ++ q).MadeOf (first ++ later) := by
  unfold MadeOf at *
  rw [hp, hq, List.map_append, all_append]

theorem single (part : Part) : part.printer.MadeOf [part] := (all_singleton _).symm

theorem print (p : Print) : p.printer.MadeOf [.always [p]] := by
  have hall : (Part.always [p]).printer = p.printer := all_singleton _
  rw [← hall]
  exact single _

theorem text (chars : Bytes) : (riakPrint chars).MadeOf [.always [.text chars]] := print (.text chars)

theorem whenRoom {prints : List Print} (hp : p = printAll prints) :
    (Printer.whenRoom p).MadeOf [.guarded prints] := by
  rw [hp]
  exact single (.guarded prints)

theorem when (has : Bool) (hp : p.MadeOf first) : (Printer.when has p).MadeOf (partsWhen has first) := by
  cases has with
  | true => exact hp
  | false => rfl

theorem loop {α : Type} {n : Nat} {entries : List α} {body : Nat → Printer}
    {parts : α → Nat → List Part} (hlength : entries.length = n)
    (hbody : ∀ i entry, entries[i]? = some entry → (body i).MadeOf (parts entry i)) :
    (all ((List.range n).map body)).MadeOf (loopParts parts entries) := by
  have hsame : (List.range n).map body =
      entries.zipIdx.map fun (entry, i) => all ((parts entry i).map Part.printer) := by
    apply List.ext_getElem?
    intro i
    rw [List.getElem?_map, List.getElem?_map, List.getElem?_zipIdx]
    by_cases hi : i < n
    · have hentry := List.getElem?_eq_getElem (show i < entries.length by rw [hlength]; exact hi)
      rw [List.getElem?_range hi, hentry]
      show some (body i) = some (all ((parts entries[i] (0 + i)).map Part.printer))
      rw [Nat.zero_add, hbody i _ hentry]
    · rw [List.getElem?_eq_none (by rw [List.length_range]; omega), List.getElem?_eq_none (by omega)]
      rfl
  unfold MadeOf loopParts
  rw [hsame, List.map_flatMap, all_flatMap]

theorem roomLoop {α : Type} {n : Nat} {entries : List α} {body : Nat → Printer}
    (prints : α → Nat → List Print) (hlength : entries.length = n)
    (hbody : ∀ i entry, entries[i]? = some entry → body i = printAll (prints entry i)) :
    (whileRoom ((List.range n).map body)).MadeOf
      (loopParts (fun entry i => [.guarded (prints entry i)]) entries) := by
  rw [whileRoom_eq, List.map_map]
  apply loop hlength
  intro i entry hentry
  exact whenRoom (hbody i entry hentry)

theorem label (name value : Bytes) :
    (riakPrint (name ++ ascii ": " ++ value ++ ascii "\n")).MadeOf (labelParts name value) := text _

theorem labelTime (name : Bytes) (value : Int) :
    (riakPrintLabelTime formats name value).MadeOf (timeParts formats name value) := by
  apply whenRoom
  exact (all_singleton _).symm

theorem labelBinary (form : BinaryForm) (name : Bytes) (value : Option RiakBinary) :
    (riakPrint (name ++ ascii ": ") ++ Printer.whenRoom (form.printer value) ++
      riakPrint (ascii "\n")).MadeOf (labelBinaryParts form name value) := by
  have hvalue : (Printer.whenRoom (form.printer value)).MadeOf [.guarded [.binary form value]] :=
    whenRoom (all_singleton _).symm
  exact ((text _).append hvalue).append (text _)

theorem plainLabel (name : Bytes) (value : Option RiakBinary) :
    (riakPrintLabelBinary name value).MadeOf (labelBinaryParts .plain name value) :=
  labelBinary .plain name value

theorem pair (entry : RiakPair) : (riakPairPrint entry).MadeOf (pairParts entry) :=
  (plainLabel _ _).append ((plainLabel _ _).when _)

theorem link (link : RiakLink) : (riakLinksPrint link).MadeOf (linkParts link) :=
  (((plainLabel _ _).when _).append ((plainLabel _ _).when _)).append ((plainLabel _ _).when _)

theorem objectMembers (obj : RiakObject) :
    (riakObjectPrintMembers formats obj).MadeOf (objectMemberParts formats obj) := by
  unfold riakObjectPrintMembers objectMemberParts
  refine append (append (append (append (append (append (append (append (append (append
    ?bucket ?bucketType) ?key) ?value) ?charset) ?lastMod) ?lastModUsecs) ?contentType)
    ?encoding) ?deleted) ?vtag
  case bucket => exact plainLabel _ _
  case bucketType => exact (plainLabel _ _).when _
  case key => exact (plainLabel _ _).when _
  case value => exact plainLabel _ _
  case charset => exact (plainLabel _ _).when _
  case lastMod => exact (labelTime formats _ _).when _
  case lastModUsecs => exact (label _ _).when _
  case contentType => exact (plainLabel _ _).when _
  case encoding => exact (plainLabel _ _).when _
  case deleted => exact (label _ _).when _
  case vtag => exact (plainLabel _ _).when _

end Printer.MadeOf

/-! ### Calls that can be read -/

/-- The first `n` slots of an array point to entries. -/
def SlotsSet {α : Type} (n : Nat) (array : Option (List (Option α))) : Prop :=
  ∀ i < n, ∃ slots entry, array = some slots ∧ slots[i]? = some (some entry)

/-- The counts of a call do not promise more than its arrays hold. -/
def PrintCall.Readable : PrintCall → Prop
  | labelRawHexArray value valueLen => valueLen ≤ value.length
  | pairs pair numPairs => SlotsSet numPairs.toNat pair
  | object obj =>
      SlotsSet obj.nLinks.toNat obj.links ∧
        SlotsSet (UInt32.ofInt obj.nUsermeta).toNat obj.usermeta ∧
        SlotsSet (UInt32.ofInt obj.nIndexes).toNat obj.indexes
  | listkeys response => response.Readable
  | listbuckets response => response.Readable
  | _ => True

theorem SlotsSet.entries {α : Type} {n : Nat} {array : Option (List (Option α))}
    (h : SlotsSet n array) :
    (firstEntries n array).length = n ∧
      ∀ (i : Nat) (entry : α), (firstEntries n array)[i]? = some entry →
        entryAt array i = pure entry := by
  obtain ⟨entries, hentries, hlength⟩ := take_eq_map_some n (array.getD []) (by
    intro i hi
    obtain ⟨slots, entry, rfl, hslot⟩ := h i hi
    exact ⟨entry, hslot⟩)
  have hfirst : firstEntries (n : Int) array = entries := firstEntries_of_take (by
    rw [Int.toNat_natCast]
    exact hentries)
  rw [hfirst]
  refine ⟨hlength, ?_⟩
  intro i entry hentry
  have hi : i < n := by
    rw [← hlength]
    exact (List.getElem?_eq_some_iff.mp hentry).1
  obtain ⟨slots, found, rfl, hslot⟩ := h i hi
  have hsame : (entries.map some)[i]? = some (some found) := by
    rw [← hentries, List.getElem?_take_of_lt hi]
    exact hslot
  rw [List.getElem?_map, hentry, Option.map_some, Option.some.injEq, Option.some.injEq] at hsame
  unfold entryAt
  rw [C.deref_some, pure_bind, C.readAt_of_get hslot, pure_bind, C.deref_some, hsame]

theorem firstEntries_toNat {α : Type} (n : Int) (array : Option (List (Option α))) :
    firstEntries (n.toNat : Int) array = firstEntries n array := by
  unfold firstEntries
  rw [Int.toNat_natCast]

theorem Printer.MadeOf.pairs {pair : Option (List (Option RiakPair))} {numPairs : UInt32}
    (h : SlotsSet numPairs.toNat pair) :
    (riakPairsPrint pair numPairs).MadeOf (pairsParts pair numPairs) := by
  obtain ⟨hlength, hentry⟩ := h.entries
  apply loop hlength
  intro i entry hget
  simp only [hentry i entry hget, pure_bind]
  exact (MadeOf.pair entry).append (print (.next i))

theorem Printer.MadeOf.links {links : Option (List (Option RiakLink))} {n : Int}
    (h : SlotsSet n.toNat links) :
    (all ((List.range n.toNat).map fun i s => do
      let link ← entryAt links i
      riakLinksPrint link s)).MadeOf
      (loopParts (fun link _ => linkParts link) (firstEntries n links)) := by
  obtain ⟨hlength, hentry⟩ := h.entries
  rw [firstEntries_toNat] at hlength hentry
  apply loop hlength
  intro i entry hget
  simp only [hentry i entry hget, pure_bind]
  exact MadeOf.link entry

theorem Printer.MadeOf.object {obj : RiakObject} (h : (PrintCall.object obj).Readable) :
    (riakObjectPrint formats obj).MadeOf (objectParts formats obj) := by
  obtain ⟨hlinks, husermeta, hindexes⟩ := h
  unfold riakObjectPrint objectParts
  refine append (append (append (append (append ?members ?links) (text _)) ?usermeta) (text _))
    ?indexes
  case members => exact MadeOf.objectMembers formats obj
  case links => exact MadeOf.links hlinks
  case usermeta => exact MadeOf.pairs husermeta
  case indexes => exact MadeOf.pairs hindexes

theorem RiakListResponse.Readable.binaries {μ : Type} {response : RiakListResponse μ}
    (h : response.Readable) :
    (firstBinaries response.nEntries.toNat response.entries).length = response.nEntries.toNat ∧
      ∀ (i : Nat) (bin : Option RiakBinary),
        (firstBinaries response.nEntries.toNat response.entries)[i]? = some bin →
        printEntry response.entries i = riakPrintBinary bin := by
  by_cases hnone : response.nEntries.toNat = 0
  · rw [hnone]
    have hempty : firstBinaries 0 response.entries = [] := by
      cases response.entries with
      | obj slots => rfl
      | null => rfl
      | wild => rfl
    rw [hempty]
    refine ⟨rfl, ?_⟩
    rintro i bin ⟨⟩
  · obtain ⟨slots, _, hslots, _⟩ := h 0 (Nat.pos_of_ne_zero hnone)
    have hslot : ∀ i < response.nEntries.toNat, ∃ entry, slots[i]? = some entry ∧ entry ≠ .wild := by
      intro i hi
      obtain ⟨found, entry, hfound, hget, hne⟩ := h i hi
      rw [hslots] at hfound
      cases hfound
      exact ⟨entry, hget, hne⟩
    rw [hslots]
    constructor
    · show ((slots.take response.nEntries.toNat).map _).length = _
      rw [List.length_map, List.length_take]
      obtain ⟨_, hlast, _⟩ := hslot (response.nEntries.toNat - 1) (by omega)
      have hinside := (List.getElem?_eq_some_iff.mp hlast).1
      omega
    · intro i bin hbin
      simp only [firstBinaries, List.getElem?_map, Option.map_eq_some_iff] at hbin
      obtain ⟨entry, hget, hentry⟩ := hbin
      have hi : i < response.nEntries.toNat := by
        have hinside := (List.getElem?_eq_some_iff.mp hget).1
        rw [List.length_take] at hinside
        omega
      rw [List.getElem?_take_of_lt hi] at hget
      obtain ⟨found, hfound, hne⟩ := hslot i hi
      rw [hget] at hfound
      cases hfound
      funext s
      unfold printEntry
      rw [Ptr.deref_obj, pure_bind, C.readAt_of_get hget, pure_bind]
      cases entry with
      | null =>
        cases hentry
        rfl
      | wild => exact absurd rfl hne
      | obj found =>
        cases hentry
        rfl

theorem Printer.MadeOf.listing {μ : Type} (label : Bytes) {response : RiakListResponse μ}
    (h : response.Readable) :
    (listResponsePrint label response).MadeOf (listingParts label response) := by
  obtain ⟨hlength, hentry⟩ := h.binaries
  unfold listResponsePrint listingParts
  refine append (append (MadeOf.label _ _) ?entries) (MadeOf.label _ _)
  case entries =>
    apply roomLoop (fun bin i => [.text (decimal (i : Nat) ++ ascii " - "), .binary .plain bin,
      .text (ascii "\n"), .next i]) hlength
    intro i bin hget
    rw [hentry i bin hget, append_assoc, append_assoc]
    simp only [printAll, List.map_cons, List.map_nil, all_cons, all, append_skip]
    rfl

/-- **Calls print their parts.** -/
theorem PrintCall.printer_madeOf {call : PrintCall} (h : call.Readable) :
    (call.printer formats).MadeOf (call.parts formats) := by
  cases call with
  | print chars => exact MadeOf.text chars
  | labelInt name value => exact MadeOf.label name _
  | labelFloat name value => exact MadeOf.label name _
  | labelBool name value => exact MadeOf.label name _
  | labelString name value => exact MadeOf.label name value
  | labelTime name value => exact MadeOf.labelTime formats name value
  | labelBinary name value => exact MadeOf.labelBinary .plain name value
  | labelBinaryHex name value => exact MadeOf.labelBinary .hex name value
  | labelRawHexArray value valueLen =>
    have hlength : (value.take valueLen.toNat).length = valueLen.toNat := by
      have hreadable : valueLen ≤ value.length := h
      rw [List.length_take]
      omega
    apply (MadeOf.text (ascii "0x")).append
    apply MadeOf.roomLoop (fun b _ => [.text (hexByte b)]) hlength
    intro i b hget
    have hi : i < valueLen.toNat := by
      rw [← hlength]
      exact (List.getElem?_eq_some_iff.mp hget).1
    rw [List.getElem?_take_of_lt hi] at hget
    simp only [C.readAt_of_get hget, pure_bind]
    exact (all_singleton _).symm
  | binary bin => exact MadeOf.print (.binary .plain bin)
  | binaryHex bin => exact MadeOf.print (.binary .hex bin)
  | pairs pair numPairs => exact MadeOf.pairs h
  | links link => exact MadeOf.link link
  | object obj => exact MadeOf.object formats h
  | listkeys response => exact MadeOf.listing _ h
  | listbuckets response => exact MadeOf.listing _ h

theorem riakPrintCalls_madeOf {calls : List PrintCall} (h : ∀ call ∈ calls, call.Readable) :
    (riakPrintCalls formats calls).MadeOf (calls.flatMap (PrintCall.parts formats)) := by
  induction calls with
  | nil => rfl
  | cons call calls ih =>
    have hfirst := PrintCall.printer_madeOf formats (h call List.mem_cons_self)
    have hlater := ih fun later hmem => h later (List.mem_cons_of_mem _ hmem)
    exact hfirst.append hlater

/-! ### Staying inside the buffer -/

/-- Where a print state has to be. -/
structure PrintState.Contained (s : PrintState) (size : Nat) : Prop where
  len : 0 ≤ s.len
  target : (s.target : Int) ≤ s.total - 1
  total : s.total = size
  buffer : s.buffer.length = size

/-- The calls return, with the state in its buffer after each of them, and behind the
    output of all of them, at the place to write at, there is a NUL. -/
def PrintsContained (location : Bytes) (calls : List PrintCall) (heap : Heap) : Prop :=
  ∀ before, before <+: calls → ∃ wrote s,
    riakPrintCalls formats before (riakPrintInit location location.length) heap =
      .ok ((wrote, s), heap) ∧ s.Contained location.length ∧ (before = calls → s.Terminated)

/-- What some calls print into a buffer of this size. -/
def printsOf (size : Nat) (calls : List PrintCall) : List Print :=
  printsMade (size - 1) (calls.flatMap (PrintCall.parts formats))

theorem riakPrintInit_balanced {location : Bytes} (hint : location.length < 2 ^ 31) :
    (riakPrintInit location location.length).Balanced location.length where
  total := rfl
  buffer := rfl
  balance := by
    show ((0 : Nat) : Int) + (location.length - 1) = location.length - 1
    omega
  bound := hint

theorem riakPrintInit_len {location : Bytes} (hlocation : 1 ≤ location.length) :
    (riakPrintInit location location.length).len = (location.length - 1 : Nat) := by
  show (location.length : Int) - 1 = _
  omega

theorem riakPrintCalls_apply {location : Bytes} (hlocation : 1 ≤ location.length)
    (hint : location.length < 2 ^ 31) {calls : List PrintCall}
    (h : ∀ call ∈ calls, call.Readable) (heap : Heap) :
    riakPrintCalls formats calls (riakPrintInit location location.length) heap =
      printAll (printsOf formats location.length calls)
        (riakPrintInit location location.length) heap := by
  have hlen := riakPrintInit_len hlocation
  have hparts := all_parts_apply (calls.flatMap (PrintCall.parts formats))
    (riakPrintInit location location.length) heap (by omega)
  rw [riakPrintCalls_madeOf formats h, hparts, hlen, Int.toNat_natCast]
  rfl

theorem printsOf_append (size : Nat) (first later : List PrintCall) :
    ∃ prints, printsOf formats size (first ++ later) = printsOf formats size first ++ prints := by
  unfold printsOf
  rw [List.flatMap_append, printsMade_append]
  exact ⟨_, rfl⟩

/-- **Exactly the calls whose prints fit stay inside their buffer**, and the last of
    their prints that shows something tells whether they terminate what they show. -/
theorem riak_print_contained_iff {location : Bytes} (hlocation : 1 ≤ location.length)
    (hint : location.length < 2 ^ 31) {calls : List PrintCall}
    (hreadable : ∀ call ∈ calls, call.Readable) (heap : Heap) :
    PrintsContained formats location calls heap ↔
      AllFit (location.length - 1) (printsOf formats location.length calls) ∧
        EndsInNul location.head? location.getLast? (location.length - 1)
          (printsOf formats location.length calls) := by
  have hlen := riakPrintInit_len hlocation
  have hbalanced := riakPrintInit_balanced hint
  rw [List.head?_eq_getElem?]
  constructor
  · intro h
    obtain ⟨wrote, s, hrun, hcontained, hnul⟩ := h calls (List.prefix_refl calls)
    rw [riakPrintCalls_apply formats hlocation hint hreadable] at hrun
    obtain ⟨_, _, _, hfit⟩ := printAll_returned (by omega) hrun
    have hall := hfit hcontained.len
    rw [hlen, Int.toNat_natCast] at hall
    refine ⟨hall, ?_⟩
    obtain ⟨wrote', s', hrun', _, _, hends⟩ := printAll_fits heap hbalanced hlen hall
    rw [hrun, Except.ok.injEq, Prod.mk.injEq, Prod.mk.injEq] at hrun'
    obtain ⟨⟨_, rfl⟩, _⟩ := hrun'
    exact hends.mp (hnul rfl)
  · rintro ⟨hall, hnul⟩ before ⟨later, rfl⟩
    obtain ⟨prints, hprints⟩ := printsOf_append formats location.length before later
    have hbefore : AllFit (location.length - 1) (printsOf formats location.length before) := by
      rw [hprints] at hall
      exact hall.of_append
    obtain ⟨wrote, s, hrun, hbal, hroom, hends⟩ := printAll_fits heap hbalanced hlen hbefore
    refine ⟨wrote, s, ?_, ⟨?_, ?_, hbal.total, hbal.buffer⟩, ?_⟩
    · rw [riakPrintCalls_apply formats hlocation hint
        (fun call hcall => hreadable call (List.mem_append_left _ hcall))]
      exact hrun
    · omega
    · have hsum := hbal.balance
      have htotal := hbal.total
      omega
    · intro hsame
      rw [← hsame] at hnul
      exact hends.mpr hnul

/-- A binary that is cut, one in hexadecimal that fills the last byte, and a text
    without room. -/
theorem riak_print_contained_short :
    PrintsContained ⟨fun _ => ascii "0.000000", fun _ => ascii "1970-01-01 00:00:00"⟩
      (List.replicate 12 1)
      [.labelBinary [107] (some ⟨[118, 0, 119], true⟩),
        .binaryHex (some ⟨[171, 205, 239], true⟩), .print [33]]
      Heap.fresh := by
  refine (riak_print_contained_iff _ (by decide) (by decide) ?_ _).mpr
    ⟨by decide, by decide⟩
  intro call hcall
  rcases hcall with _ | ⟨_, _ | ⟨_, _ | ⟨_, ⟨⟩⟩⟩⟩ <;> trivial

/-- A text of six characters in a buffer of four bytes: the room becomes -3. -/
theorem riak_print_leaves_buffer :
    ¬ ∀ (formats : PrintFormats) (location : Bytes) (calls : List PrintCall) (heap : Heap),
      1 ≤ location.length → location.length < 2 ^ 31 → (∀ call ∈ calls, call.Readable) →
        PrintsContained formats location calls heap := by
  intro h
  obtain ⟨wrote, s, hrun, hcontained, _⟩ := h ⟨fun _ => [], fun _ => []⟩ [1, 1, 1, 1]
    [.print [97, 98, 99, 100, 101, 102]] Heap.fresh (by decide) (by decide) (by
      intro call hcall
      rcases hcall with _ | ⟨_, ⟨⟩⟩
      trivial) _ (List.prefix_refl _)
  have hresult : riakPrintCalls ⟨fun _ => [], fun _ => []⟩ [.print [97, 98, 99, 100, 101, 102]]
      (riakPrintInit [1, 1, 1, 1] 4) Heap.fresh =
      .ok ((6, ⟨[97, 98, 0, 1], 6, -3, 4, 6⟩), Heap.fresh) := rfl
  have hsame := hrun.symm.trans hresult
  simp only [Except.ok.injEq, Prod.mk.injEq] at hsame
  have hlen := hcontained.len
  rw [hsame.1.2] at hlen
  exact absurd hlen (by decide)

end RiakClient
