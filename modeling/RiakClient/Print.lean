import RiakClient.Object
import RiakClient.Listing

/-!
# Printing into a buffer

`riak_print.c`, the two routines of `riak_binary.c` behind it, and the functions
that print pairs, links, objects and listings. A print state is a buffer with a
place to write at and the number of bytes left. That number is signed and has the
untruncated length of every text taken off, and some routines get it as an
unsigned size.
-/

namespace RiakClient

open CSem

variable {heap : Heap}

/-! ### The state -/

/-- `_riak_print_state`, with the memory at `start`; `target` is an offset from
    there. -/
structure PrintState where
  buffer : Bytes
  target : Nat
  len : Int
  total : Int
  wrote : Int
deriving DecidableEq, Repr

/-- `riak_print_init`: "Leave room for NULL". -/
def riakPrintInit (location : Bytes) (maxlen : Int) : PrintState where
  buffer := location
  target := 0
  len := maxlen - 1
  total := maxlen
  wrote := 0

/-- A function that prints and returns the number of bytes it wrote. -/
def Printer : Type := PrintState → C (Int × PrintState)

namespace Printer

/-- Print nothing. -/
def skip : Printer := fun s => pure (0, s)

/-- One after the other: `wrote += ...`. -/
protected def append (p q : Printer) : Printer := fun s => do
  let (wrote, s) ← p s
  let (more, s) ← q s
  pure (wrote + more, s)

instance : Append Printer := ⟨Printer.append⟩

/-- `i++` at the end of a loop body. -/
def nextIndex (i : Nat) : Printer := fun s => do
  let _ ← C.intSucc i
  pure (0, s)

/-- `if (state->len > 0) ...`. -/
def whenRoom (p : Printer) : Printer := fun s => if 0 < s.len then p s else pure (0, s)

/-- A `for` loop. -/
def all : List Printer → Printer
  | [] => skip
  | p :: ps => p ++ all ps

/-- A `for` loop that also stops without room. -/
def whileRoom : List Printer → Printer
  | [] => skip
  | p :: ps => whenRoom (p ++ whileRoom ps)

end Printer

open Printer

/-! ### Texts

The memory behind `start` is a list of bytes, and a write outside it is a fault. A
text is stored with its NUL if there is room, cut where the room ends; the routines of
`riak_binary.c` store what they show and then the NUL, and are told the room as an
unsigned size. -/

def ascii (text : String) : Bytes := text.toList.map fun c => UInt8.ofNat c.toNat

def decimal (value : Int) : Bytes := ascii (toString value)

/-- `vsnprintf` returns the length of the whole text, if it is an `int`. -/
def vsnprintfResult (text : Bytes) : Int := if text.length < 2 ^ 31 then text.length else -1

/-- `riak_print` of the text that its arguments make. -/
def riakPrint (text : Bytes) : Printer := fun s => do
  if 0 < s.len then
    -- at most `len - 1` characters and a NUL
    let buffer ← C.copyAt s.buffer s.target (text.take (s.len.toNat - 1) ++ [0])
    let wrote := vsnprintfResult text
    if 0 < wrote then
      pure (wrote, { s with
        buffer := buffer
        len := s.len - wrote
        target := s.target + wrote.toNat
        wrote := s.wrote + wrote })
    else pure (wrote, { s with buffer := buffer })
  else pure (0, s)

/-- What a loop shows, and a NUL behind it if there is any room. -/
def storeShown (shown buffer : Bytes) (target : Nat) (len : UInt32) : C (Nat × Bytes) := do
  let buffer ← C.copyAt buffer target shown
  if 0 < len then
    pure (shown.length, ← C.copyAt buffer (target + shown.length) [0])
  else pure (shown.length, buffer)

/-- What the loop of `riak_binary_print` shows before it stops: "Non-printable
    characters are replaced by a dot". -/
def printable (limit : Nat) : Nat → Bytes → Bytes
  | _, [] => []
  | i, b :: data => if i < limit then (if 32 ≤ b then b else 46) :: printable limit (i + 1) data else []

/-- `riak_binary_print` at an offset of a buffer; `len - 1` may wrap. -/
def riakBinaryPrint (bin : Option RiakBinary) (buffer : Bytes) (target : Nat) (len : UInt32) :
    C (Nat × Bytes) :=
  storeShown (printable (len - 1).toNat 0 ((bin.map RiakBinary.data).getD [])) buffer target len

def hexDigit (nibble : UInt8) : UInt8 := if nibble < 10 then 48 + nibble else 87 + nibble

/-- What the loop of `riak_binary_hex_print` shows before it stops. -/
def hexDigits (limit : Nat) : Nat → Bytes → Bytes
  | _, [] => []
  | count, b :: data =>
      if count * 2 < limit then
        hexDigit (b / 16) :: hexDigit (b % 16) :: hexDigits limit (count + 1) data
      else []

def riakBinaryHexPrint (bin : Option RiakBinary) (buffer : Bytes) (target : Nat) (len : UInt32) :
    C (Nat × Bytes) :=
  storeShown (hexDigits (len - 1).toNat 0 ((bin.map RiakBinary.data).getD [])) buffer target len

/-- The number of bytes written goes off the room and onto the rest. It is at most
    the size of the buffer, so nothing wraps. -/
def PrintState.advance (s : PrintState) (wrote : Nat) (buffer : Bytes) : PrintState :=
  { s with
    buffer := buffer
    len := s.len - wrote
    target := s.target + wrote
    wrote := s.wrote + wrote }

/-- `riak_print_binary`, without a look at the room. -/
def riakPrintBinary (bin : Option RiakBinary) : Printer := fun s => do
  let (wrote, buffer) ← riakBinaryPrint bin s.buffer s.target (UInt32.ofInt s.len)
  pure (wrote, s.advance wrote buffer)

def riakPrintBinaryHex (bin : Option RiakBinary) : Printer := fun s => do
  let (wrote, buffer) ← riakBinaryHexPrint bin s.buffer s.target (UInt32.ofInt s.len)
  pure (wrote, s.advance wrote buffer)

/-! ### Labels -/

/-- The formats of `printf` and `strftime` that depend on the platform: `%f` of
    the bits of a `riak_float32_t`, and the local time. -/
structure PrintFormats where
  float : UInt32 → Bytes
  time : Int → Bytes

variable (formats : PrintFormats)

def riakPrintLabelString (name value : Bytes) : Printer :=
  riakPrint (name ++ ascii ": " ++ value ++ ascii "\n")

def riakPrintLabelInt (name : Bytes) (value : Int) : Printer :=
  riakPrint (name ++ ascii ": " ++ decimal value ++ ascii "\n")

def riakPrintLabelFloat (name : Bytes) (value : UInt32) : Printer :=
  riakPrint (name ++ ascii ": " ++ formats.float value ++ ascii "\n")

def riakPrintLabelBool (name : Bytes) (value : RiakBoolean) : Printer :=
  riakPrintLabelString name (ascii (if value ≠ 0 then "true" else "false"))

def riakPrintLabelTime (name : Bytes) (value : Int) : Printer :=
  whenRoom (riakPrintLabelString name (formats.time value))

def riakPrintLabelBinary (name : Bytes) (value : Option RiakBinary) : Printer :=
  riakPrint (name ++ ascii ": ") ++ whenRoom (riakPrintBinary value) ++ riakPrint (ascii "\n")

def riakPrintLabelBinaryHex (name : Bytes) (value : Option RiakBinary) : Printer :=
  riakPrint (name ++ ascii ": ") ++ whenRoom (riakPrintBinaryHex value) ++ riakPrint (ascii "\n")

def hexByte (b : UInt8) : Bytes := [hexDigit (b / 16), hexDigit (b % 16)]

def riakPrintLabelRawHexArray (value : Bytes) (valueLen : Int) : Printer :=
  riakPrint (ascii "0x") ++ whileRoom ((List.range valueLen.toNat).map fun bytes s => do
    let b ← C.readAt value bytes
    riakPrint (hexByte b) s)

/-! ### Pairs, links, objects and listings -/

/-- `if (has_x) ...`. -/
def Printer.when (has : Bool) (p : Printer) : Printer := if has then p else skip

def riakPairPrint (entry : RiakPair) : Printer :=
  riakPrintLabelBinary (ascii "Key") entry.key ++
    when entry.hasValue (riakPrintLabelBinary (ascii "Value") entry.value)

def riakPairsPrint (pair : Option (List (Option RiakPair))) (numPairs : UInt32) : Printer :=
  all ((List.range numPairs.toNat).map fun i s => do
    let entry ← entryAt pair i
    (riakPairPrint entry ++ nextIndex i) s)

/-- `riak_links_print`, of one link. -/
def riakLinksPrint (link : RiakLink) : Printer :=
  when link.hasBucket (riakPrintLabelBinary (ascii "Link Bucket") link.bucket) ++
    when link.hasKey (riakPrintLabelBinary (ascii "Link Key") link.key) ++
    when link.hasTag (riakPrintLabelBinary (ascii "Link Tag") link.tag)

/-- The members of an object that come before its links. -/
def riakObjectPrintMembers (obj : RiakObject) : Printer :=
  riakPrintLabelBinary (ascii "Bucket") obj.bucket ++
    when obj.hasBucketType (riakPrintLabelBinary (ascii "Bucket type") obj.bucketType) ++
    when obj.hasKey (riakPrintLabelBinary (ascii "Key") obj.key) ++
    riakPrintLabelBinary (ascii "Value") obj.value ++
    when obj.hasCharset (riakPrintLabelBinary (ascii "Charsets") obj.charset) ++
    when obj.hasLastMod
      (riakPrintLabelTime formats (ascii "Last Mod") (asInt obj.lastMod.toNat)) ++
    when obj.hasLastModUsecs
      (riakPrintLabelInt (ascii "Last Mod uSecs") (asInt obj.lastModUsecs.toNat)) ++
    when obj.hasContentType (riakPrintLabelBinary (ascii "Content Type") obj.contentType) ++
    when obj.hasContentEncoding
      (riakPrintLabelBinary (ascii "Content Encoding") obj.encoding) ++
    when obj.hasDeleted (riakPrintLabelBool (ascii "Deleted") obj.deleted) ++
    when obj.hasVtag (riakPrintLabelBinary (ascii "VTag") obj.vtag)

def riakObjectPrint (obj : RiakObject) : Printer :=
  riakObjectPrintMembers formats obj ++
    all ((List.range obj.nLinks.toNat).map fun i s => do
      let link ← entryAt obj.links i
      riakLinksPrint link s) ++
    riakPrint (ascii "User Meta-data\n") ++
    riakPairsPrint obj.usermeta (UInt32.ofInt obj.nUsermeta) ++
    riakPrint (ascii "Indexes\n") ++
    riakPairsPrint obj.indexes (UInt32.ofInt obj.nIndexes)

/-- A pointer to a binary that is handed to `riak_binary_print`. -/
def binaryPointer : Ptr RiakBinary → C (Option RiakBinary)
  | .null => pure none
  | .wild => C.fault .wildDereference
  | .obj bin => pure (some bin)

/-- `riak_print_binary(state, response->keys[i])`. -/
def printEntry (entries : Ptr (List (Ptr RiakBinary))) (i : Nat) : Printer := fun s => do
  let entry ← C.readAt (← entries.deref) i
  riakPrintBinary (← binaryPointer entry) s

/-- The two functions that print a listing differ in their label. -/
def listResponsePrint {μ : Type} (label : Bytes) (response : RiakListResponse μ) : Printer :=
  riakPrintLabelInt label (asInt response.nEntries.toNat) ++
    whileRoom ((List.range response.nEntries.toNat).map fun i =>
      riakPrint (decimal (i : Nat) ++ ascii " - ") ++ printEntry response.entries i ++
        riakPrint (ascii "\n") ++ nextIndex i) ++
    riakPrintLabelBool (ascii "Done") response.done

def riakListkeysResponsePrint (response : RiakListResponse RpbListKeysResp) : Printer :=
  listResponsePrint (ascii "Num Keys") response

def riakListbucketsResponsePrint (response : RiakListResponse RpbListBucketsResp) : Printer :=
  listResponsePrint (ascii "Num Buckets") response

/-! ### Calls -/

/-- A call of the interface. -/
inductive PrintCall where
  | print (text : Bytes)
  | labelInt (name : Bytes) (value : Int)
  | labelFloat (name : Bytes) (value : UInt32)
  | labelBool (name : Bytes) (value : RiakBoolean)
  | labelString (name value : Bytes)
  | labelTime (name : Bytes) (value : Int)
  | labelBinary (name : Bytes) (value : Option RiakBinary)
  | labelBinaryHex (name : Bytes) (value : Option RiakBinary)
  | labelRawHexArray (value : Bytes) (valueLen : Int)
  | binary (bin : Option RiakBinary)
  | binaryHex (bin : Option RiakBinary)
  | pairs (pair : Option (List (Option RiakPair))) (numPairs : UInt32)
  | links (link : RiakLink)
  | object (obj : RiakObject)
  | listkeys (response : RiakListResponse RpbListKeysResp)
  | listbuckets (response : RiakListResponse RpbListBucketsResp)

def PrintCall.printer : PrintCall → Printer
  | print text => riakPrint text
  | labelInt name value => riakPrintLabelInt name value
  | labelFloat name value => riakPrintLabelFloat formats name value
  | labelBool name value => riakPrintLabelBool name value
  | labelString name value => riakPrintLabelString name value
  | labelTime name value => riakPrintLabelTime formats name value
  | labelBinary name value => riakPrintLabelBinary name value
  | labelBinaryHex name value => riakPrintLabelBinaryHex name value
  | labelRawHexArray value valueLen => riakPrintLabelRawHexArray value valueLen
  | binary bin => riakPrintBinary bin
  | binaryHex bin => riakPrintBinaryHex bin
  | pairs pair numPairs => riakPairsPrint pair numPairs
  | links link => riakLinksPrint link
  | object obj => riakObjectPrint formats obj
  | listkeys response => riakListkeysResponsePrint response
  | listbuckets response => riakListbucketsResponsePrint response

/-- Calls one after another. -/
def riakPrintCalls (calls : List PrintCall) : Printer :=
  all (calls.map (PrintCall.printer formats))

end RiakClient
