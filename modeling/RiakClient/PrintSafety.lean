import RiakClient.ObjectContent
import RiakClient.Print
import RiakClient.Run
import RiakClient.TextBuffer

/-!
# What fits in a buffer

Every call of the interface comes down to a row of single prints: a text, a
binary, or a binary in hexadecimal. Which of them are made, and whether they fit,
can be told from their lengths and the size of the buffer alone. This account of
the room that is left is set beside the code here, and the two agree step by step
until a print does not fit; from then on the code has left its buffer for good.

A print that fits keeps the balance between the room and the place to write at. One that
does not fit faults or leaves a negative room, and no later print makes the room larger;
so a row of prints that returns without a negative room is one that fits. Whether it is
terminated is told by the last print that shows something.
-/

namespace RiakClient

open CSem LabelledRun Printer

variable {heap final : Heap}

/-! ### Binaries

What is shown of a binary is known character by character: a dot for what cannot be
printed, and two digits in each round, also in the one that starts right in front of
the limit. An unsigned size that is not 0 has a predecessor; without room the size
wraps, and everything is shown. -/

/-- The two forms in which a binary is printed. -/
inductive BinaryForm where
  | plain
  | hex
deriving DecidableEq, Repr

namespace BinaryForm

/-- How much of the room the bytes of a binary take. -/
def taken (room size : Nat) : BinaryForm → Nat
  | plain => min size (room - 1)
  | hex => 2 * min size (room / 2)

/-- What `riak_binary_print` or `riak_binary_hex_print` shows, given the room as
    an unsigned size. -/
def shown (len : UInt32) (data : Bytes) : BinaryForm → Bytes
  | plain => printable (len - 1).toNat 0 data
  | hex => hexDigits (len - 1).toNat 0 data

def printer (bin : Option RiakBinary) : BinaryForm → Printer
  | plain => riakPrintBinary bin
  | hex => riakPrintBinaryHex bin

end BinaryForm

/-- The bytes of a binary that may be NULL. -/
def bytesOf (bin : Option RiakBinary) : Bytes := (bin.map RiakBinary.data).getD []

theorem printable_eq (limit i : Nat) (data : Bytes) :
    printable limit i data =
      (data.take (limit - i)).map fun b => if 32 ≤ b then b else 46 := by
  induction data generalizing i with
  | nil => rw [printable, List.take_nil, List.map_nil]
  | cons b data ih =>
    rw [printable]
    by_cases hin : i < limit
    · have hmore : limit - i = limit - (i + 1) + 1 := by omega
      rw [if_pos hin, ih, hmore, List.take_succ_cons, List.map_cons]
    · rw [if_neg hin, Nat.sub_eq_zero_of_le (Nat.not_lt.mp hin), List.take_zero, List.map_nil]

theorem printable_length (limit i : Nat) (data : Bytes) :
    (printable limit i data).length = min data.length (limit - i) := by
  rw [printable_eq, List.length_map, List.length_take, Nat.min_comm]

/-- Two digits are shown in each round, also in the one that starts right in front of the
    limit. -/
theorem hexDigits_eq (limit count : Nat) (data : Bytes) :
    hexDigits limit count data = (data.take ((limit + 1) / 2 - count)).flatMap hexByte := by
  induction data generalizing count with
  | nil => rw [hexDigits, List.take_nil, List.flatMap_nil]
  | cons b data ih =>
    rw [hexDigits]
    by_cases hin : count * 2 < limit
    · have hmore : (limit + 1) / 2 - count = (limit + 1) / 2 - (count + 1) + 1 := by omega
      rw [if_pos hin, ih, hmore, List.take_succ_cons, List.flatMap_cons]
      rfl
    · have hnone : (limit + 1) / 2 - count = 0 := by omega
      rw [if_neg hin, hnone, List.take_zero, List.flatMap_nil]

theorem flatMap_hexByte_length (data : Bytes) :
    (data.flatMap hexByte).length = 2 * data.length := by
  induction data with
  | nil => rfl
  | cons b data ih =>
    rw [List.flatMap_cons, List.length_append, ih, List.length_cons, Nat.mul_succ, Nat.add_comm]
    rfl

theorem hexDigits_length (limit count : Nat) (data : Bytes) :
    (hexDigits limit count data).length = 2 * min data.length ((limit + 1) / 2 - count) := by
  rw [hexDigits_eq, flatMap_hexByte_length, List.length_take, Nat.min_comm]

theorem pred_toNat {len : UInt32} (hpositive : 0 < len) : (len - 1).toNat = len.toNat - 1 :=
  UInt32.toNat_sub_of_le _ _ (UInt32.le_iff_toNat_le.mpr (UInt32.lt_iff_toNat_lt.mp hpositive))

theorem room_pred_toNat {room : Nat} (hpositive : 0 < room) (hbound : room < 2 ^ 31) :
    (UInt32.ofInt room - 1).toNat = room - 1 := by
  have htoNat : (UInt32.ofInt room).toNat = room := C.ofInt_toNat (by omega) (by omega)
  have hroom : 0 < UInt32.ofInt room := by
    rw [UInt32.lt_iff_toNat_lt, htoNat]
    exact hpositive
  rw [pred_toNat hroom, htoNat]

namespace BinaryForm

theorem shown_length (form : BinaryForm) {room : Nat} (hpositive : 0 < room)
    (hbound : room < 2 ^ 31) (data : Bytes) :
    (form.shown (UInt32.ofInt room) data).length = form.taken room data.length := by
  cases form with
  | plain =>
    unfold shown taken
    rw [printable_length, room_pred_toNat hpositive hbound, Nat.sub_zero]
  | hex =>
    unfold shown taken
    rw [hexDigits_length, room_pred_toNat hpositive hbound, Nat.sub_zero,
      Nat.sub_add_cancel hpositive]

theorem shown_zero (form : BinaryForm) (data : Bytes) :
    form.shown 0 data = [] ↔ data = [] := by
  have hlimit : ((0 : UInt32) - 1).toNat = 2 ^ 32 - 1 := by decide
  rw [← List.length_eq_zero_iff, ← List.length_eq_zero_iff]
  cases form with
  | plain =>
    unfold shown
    rw [printable_length, hlimit]
    omega
  | hex =>
    unfold shown
    rw [hexDigits_length, hlimit]
    omega

theorem taken_le (form : BinaryForm) (room size : Nat) : form.taken room size ≤ room := by
  cases form with
  | plain =>
    show min size (room - 1) ≤ room
    omega
  | hex =>
    show 2 * min size (room / 2) ≤ room
    omega

theorem printer_eq (form : BinaryForm) (bin : Option RiakBinary) (s : PrintState) :
    form.printer bin s =
      storeShown (form.shown (UInt32.ofInt s.len) (bytesOf bin)) s.buffer s.target
          (UInt32.ofInt s.len) >>=
        fun out => pure ((out.1 : Int), s.advance out.1 out.2) := by
  cases form <;> rfl

end BinaryForm

/-! ### The account -/

/-- A single print, or the end of a loop body. -/
inductive Print where
  | text (chars : Bytes)
  | binary (form : BinaryForm) (bin : Option RiakBinary)
  | next (i : Nat)
deriving DecidableEq, Repr

namespace Print

/-- The room that a print leaves. -/
def rest (room : Nat) : Print → Nat
  | text chars => if chars.length < 2 ^ 31 then room - chars.length else room
  | binary form bin => room - form.taken room (bytesOf bin).length
  | next _ => room

/-- A text fits if it is not longer than the room, or if there is none and it is
    not printed. A binary fits in any room, but it is printed without room, too.
    The index of a loop has to stay an `int`. -/
def Fits (room : Nat) : Print → Prop
  | text chars => room = 0 ∨ chars.length ≤ room ∨ 2 ^ 31 ≤ chars.length
  | binary _ bin => 0 < room ∨ bytesOf bin = []
  | next i => i + 1 < 2 ^ 31

instance (room : Nat) (p : Print) : Decidable (p.Fits room) := by
  unfold Fits
  cases p <;> infer_instance

/-- Whether a print puts anything in the buffer, be it only a NUL. -/
def isShown : Print → Bool
  | next _ => false
  | text _ | binary _ _ => true

def printer : Print → Printer
  | text chars => riakPrint chars
  | binary form bin => form.printer bin
  | next i => nextIndex i

theorem rest_le (room : Nat) (p : Print) : p.rest room ≤ room := by
  cases p with
  | text chars =>
    unfold rest
    by_cases hint : chars.length < 2 ^ 31
    · simp only [hint, if_true]
      exact Nat.sub_le _ _
    · simp only [hint, if_false]
      exact Nat.le_refl _
  | binary form bin => exact Nat.sub_le _ _
  | next i => exact Nat.le_refl _

end Print

/-- The room that some prints leave. -/
def roomAfter (room : Nat) (prints : List Print) : Nat := prints.foldl Print.rest room

/-! ### A print that fits -/

/-- The room and the place to write at add up to the buffer. -/
structure PrintState.Balanced (s : PrintState) (size : Nat) : Prop where
  total : s.total = size
  buffer : s.buffer.length = size
  balance : (s.target : Int) + s.len = size - 1
  bound : size < 2 ^ 31

/-- There is a NUL at the place to write at. -/
def PrintState.Terminated (s : PrintState) : Prop := s.buffer[s.target]? = some 0

/-- The NUL of a print that shows something is at the place to write at behind it, but
    for texts: one that takes all the room is cut by a character, so that its NUL is in
    front of that place, which is the last byte of the buffer then; and one that is too
    long for its length to be returned does not move the place. -/
def Print.LeavesNul (last : Option UInt8) (room : Nat) : Print → Prop
  | text chars =>
      if chars.length < 2 ^ 31 then chars.length < room ∨ last = some 0
      else room = 1 ∨ chars.head? = some 0
  | binary _ _ | next _ => True

instance (last : Option UInt8) (room : Nat) (p : Print) : Decidable (p.LeavesNul last room) := by
  unfold Print.LeavesNul
  cases p <;> infer_instance

/-- The last print that shows something, and the room that it has. -/
def lastShown (room : Nat) : List Print → Option (Nat × Print)
  | [] => none
  | p :: prints =>
      (lastShown (p.rest room) prints).or
        (if 0 < room ∧ p.isShown = true then some (room, p) else none)

/-- Prints end in a NUL if the last one of them that shows something leaves it, or if
    none does and there is one where the first would write. -/
def EndsInNul (first last : Option UInt8) (room : Nat) (prints : List Print) : Prop :=
  (lastShown room prints).elim (first = some 0) fun made => made.2.LeavesNul last made.1

instance (first last : Option UInt8) (room : Nat) (prints : List Print) :
    Decidable (EndsInNul first last room prints) :=
  match h : lastShown room prints with
  | none => decidable_of_iff (first = some 0) (by rw [EndsInNul, h]; rfl)
  | some made => decidable_of_iff (made.2.LeavesNul last made.1) (by rw [EndsInNul, h]; rfl)

/-- How a print that fits goes: it takes its part of the room and leaves a NUL, or it
    shows nothing and changes nothing. The last byte stays as long as there is room. -/
structure Advances (p : Print) (s s' : PrintState) (size room : Nat) : Prop where
  balanced : s'.Balanced size
  len : s'.len = p.rest room
  terminated : 0 < room → p.isShown = true →
    (s'.Terminated ↔ p.LeavesNul s.buffer.getLast? room)
  unchanged : ¬ (0 < room ∧ p.isShown = true) → (s'.Terminated ↔ s.Terminated)
  last : 0 < p.rest room → s'.buffer.getLast? = s.buffer.getLast?

theorem PrintState.Balanced.room {s : PrintState} {size room : Nat} (h : s.Balanced size)
    (hroom : s.len = room) : s.target + room + 1 = size := by
  have hbalance := h.balance
  rw [hroom] at hbalance
  omega

/-- How much of the room a text takes, whether it is there or not. -/
def textTaken (chars : Bytes) : Nat := if chars.length < 2 ^ 31 then chars.length else 0

theorem Print.rest_text (room : Nat) (chars : Bytes) :
    (Print.text chars).rest room = room - textTaken chars := by
  unfold rest textTaken
  by_cases hint : chars.length < 2 ^ 31
  · simp only [hint, if_true]
  · simp only [hint, if_false, Nat.sub_zero]

theorem Print.text_fits_iff {room : Nat} {chars : Bytes} :
    (Print.text chars).Fits room ↔ room = 0 ∨ textTaken chars ≤ room := by
  unfold Fits textTaken
  by_cases hint : chars.length < 2 ^ 31
  · simp only [hint, if_true]
    omega
  · simp only [hint, if_false]
    omega

theorem riakPrint_full {s : PrintState} (hfull : ¬ 0 < s.len) (text : Bytes) :
    riakPrint text s = pure (0, s) := by
  unfold riakPrint
  rw [if_neg hfull]

theorem riakPrint_room {s : PrintState} (hpositive : 0 < s.len) (chars : Bytes) :
    riakPrint chars s =
      C.copyAt s.buffer s.target (chars.take (s.len.toNat - 1) ++ [0]) >>= fun buffer =>
        pure (vsnprintfResult chars, s.advance (textTaken chars) buffer) := by
  unfold riakPrint textTaken vsnprintfResult PrintState.advance
  rw [if_pos hpositive]
  by_cases hint : chars.length < 2 ^ 31
  · by_cases hempty : chars.length = 0
    · simp [hempty]
    · have hsome : 0 < (chars.length : Int) := by omega
      simp only [hint, if_true, hsome, Int.toNat_natCast]
  · have hnone : ¬ (0 : Int) < -1 := by decide
    simp only [hint, if_false, hnone, Nat.add_zero, Int.natCast_zero, Int.sub_zero, Int.add_zero]

theorem PrintState.Balanced.last {s : PrintState} {size room : Nat} (h : s.Balanced size)
    (hroom : s.len = room) : s.buffer.getLast? = s.buffer[s.target + room]? := by
  have hend := h.room hroom
  rw [List.getLast?_eq_getElem?, h.buffer]
  congr 1
  omega

theorem text_leavesNul_iff {buffer chars : Bytes} {target room : Nat} (hpositive : 0 < room)
    (htaken : textTaken chars ≤ room)
    (hplaced : ∀ j < min (room - 1) chars.length + 1,
      buffer[target + j]? = (chars.take (room - 1) ++ [(0 : UInt8)])[j]?) :
    buffer[target + textTaken chars]? = some 0 ↔
      (Print.text chars).LeavesNul buffer[target + room]? room := by
  unfold textTaken at htaken ⊢
  unfold Print.LeavesNul
  by_cases hint : chars.length < 2 ^ 31
  · simp only [hint, if_true] at htaken ⊢
    rcases Nat.lt_or_eq_of_le htaken with hshort | hfull
    · have hwhole : chars.take (room - 1) = chars := List.take_of_length_le (by omega)
      rw [hplaced chars.length (by omega), hwhole, List.getElem?_concat_length]
      exact ⟨fun _ => Or.inl hshort, fun _ => rfl⟩
    · rw [hfull]
      exact ⟨Or.inr, fun h => h.resolve_left (Nat.lt_irrefl room)⟩
  · simp only [hint, if_false]
    rw [hplaced 0 (by omega)]
    by_cases hone : room = 1
    · rw [hone]
      exact ⟨fun _ => Or.inl rfl, fun _ => rfl⟩
    · rw [List.getElem?_append_left (by rw [List.length_take]; omega),
        List.getElem?_take_of_lt (by omega), ← List.head?_eq_getElem?]
      exact ⟨Or.inr, fun h => h.resolve_left hone⟩

theorem riakPrint_fits {s : PrintState} {size room : Nat} (h : s.Balanced size)
    (hroom : s.len = room) {chars : Bytes} (hfits : (Print.text chars).Fits room) :
    ∃ wrote s', riakPrint chars s = pure (wrote, s') ∧
      Advances (.text chars) s s' size room := by
  by_cases hpositive : 0 < s.len
  · have hend := h.room hroom
    have hbalance := h.balance
    have htaken : textTaken chars ≤ room := by
      rcases Print.text_fits_iff.mp hfits with hnone | htaken
      · omega
      · exact htaken
    have hlen : s.len.toNat = room := by omega
    have hstored : (chars.take (room - 1) ++ [(0 : UInt8)]).length =
        min (room - 1) chars.length + 1 := by
      rw [List.length_append, List.length_take, List.length_singleton]
    obtain ⟨buffer, hcopy, hlength, hplaced, hbehind⟩ := C.copyAt_inside
      (show s.target + (chars.take (room - 1) ++ [(0 : UInt8)]).length ≤ s.buffer.length by
        rw [h.buffer, hstored]
        omega)
    rw [hstored] at hplaced hbehind
    have hlast : buffer[s.target + room]? = s.buffer.getLast? := by
      rw [h.last hroom, hbehind (s.target + room) (by omega)]
    have hnul := text_leavesNul_iff (by omega) htaken hplaced
    rw [h.buffer] at hlength
    rw [hlast] at hnul
    rw [riakPrint_room hpositive, hlen, hcopy, pure_bind]
    refine ⟨_, _, rfl, ⟨h.total, hlength, ?_, h.bound⟩, ?_, fun _ _ => hnul, fun hnot => ?_,
      fun _ => ?_⟩
    · show ((s.target + textTaken chars : Nat) : Int) + (s.len - textTaken chars) = _
      omega
    · rw [Print.rest_text]
      show s.len - textTaken chars = _
      omega
    · exact absurd ⟨by omega, rfl⟩ hnot
    · show buffer.getLast? = _
      rw [← hlast, List.getLast?_eq_getElem?, hlength]
      congr 1
      omega
  · refine ⟨0, s, riakPrint_full hpositive chars, h, ?_, ?_, fun _ => Iff.rfl, fun _ => rfl⟩
    · rw [Print.rest_text]
      omega
    · intro habsurd
      omega

theorem storeShown_eq (shown buffer : Bytes) (target : Nat) (len : UInt32) :
    storeShown shown buffer target len =
      C.copyAt buffer target (shown ++ if 0 < len then [0] else []) >>= fun written =>
        pure (shown.length, written) := by
  unfold storeShown
  rw [C.copyAt_append_text, bind_assoc]
  refine bind_congr fun written => ?_
  by_cases hpositive : 0 < len
  · rw [if_pos hpositive, if_pos hpositive]
  · rw [if_neg hpositive, if_neg hpositive, C.copyAt_nil, pure_bind]

theorem storeShown_inside {shown buffer : Bytes} {target : Nat} {len : UInt32}
    (hpositive : 0 < len) (hinside : target + shown.length < buffer.length) :
    ∃ result, storeShown shown buffer target len = pure (shown.length, result) ∧
      result.length = buffer.length ∧ result[target + shown.length]? = some 0 ∧
      ∀ j, target + shown.length < j → result[j]? = buffer[j]? := by
  have hstored : (shown ++ [(0 : UInt8)]).length = shown.length + 1 := by
    rw [List.length_append, List.length_singleton]
  obtain ⟨result, hcopy, hlength, hplaced, hbehind⟩ := C.copyAt_inside
    (show target + (shown ++ [(0 : UInt8)]).length ≤ buffer.length by
      rw [hstored]
      omega)
  rw [hstored] at hplaced hbehind
  refine ⟨result, ?_, hlength, ?_, fun j hj => hbehind j (by omega)⟩
  · rw [storeShown_eq, if_pos hpositive, hcopy, pure_bind]
  · rw [hplaced shown.length (by omega), List.getElem?_concat_length]

theorem storeShown_nil (buffer : Bytes) (target : Nat) :
    storeShown [] buffer target 0 = pure (0, buffer) := by
  rw [storeShown_eq, if_neg (by decide), List.append_nil, C.copyAt_nil, pure_bind,
    List.length_nil]

theorem BinaryForm.printer_fits (form : BinaryForm) {s : PrintState} {size room : Nat}
    (h : s.Balanced size) (hroom : s.len = room) {bin : Option RiakBinary}
    (hfits : (Print.binary form bin).Fits room) :
    ∃ wrote s', form.printer bin s = pure (wrote, s') ∧
      Advances (.binary form bin) s s' size room := by
  have hend := h.room hroom
  have hbalance := h.balance
  have hbound := h.bound
  have htaken := form.taken_le room (bytesOf bin).length
  rw [form.printer_eq, hroom]
  by_cases hpositive : 0 < room
  · have hlength := form.shown_length hpositive (by omega) (bytesOf bin)
    obtain ⟨result, hstore, hsame, hnul, hbehind⟩ := storeShown_inside
      (show 0 < UInt32.ofInt room by
        rw [UInt32.lt_iff_toNat_lt, C.ofInt_toNat (by omega) (by omega)]
        exact hpositive)
      (show s.target + (form.shown (UInt32.ofInt room) (bytesOf bin)).length < s.buffer.length by
        rw [hlength, h.buffer]
        omega)
    rw [hstore, pure_bind, hlength]
    rw [hlength] at hnul hbehind
    rw [h.buffer] at hsame
    refine ⟨_, s.advance (form.taken room (bytesOf bin).length) result, rfl,
      ⟨h.total, hsame, ?_, h.bound⟩, ?_, fun _ _ => ⟨fun _ => trivial, fun _ => hnul⟩,
      fun hnot => absurd ⟨hpositive, rfl⟩ hnot, fun hleft => ?_⟩
    · show ((s.target + form.taken room (bytesOf bin).length : Nat) : Int) +
        (s.len - form.taken room (bytesOf bin).length) = _
      omega
    · show s.len - form.taken room (bytesOf bin).length =
        ((room - form.taken room (bytesOf bin).length : Nat) : Int)
      omega
    · have hleft : 0 < room - form.taken room (bytesOf bin).length := hleft
      show result.getLast? = _
      rw [h.last hroom, ← hbehind (s.target + room) (by omega), List.getLast?_eq_getElem?, hsame]
      congr 1
      omega
  · have hzero : room = 0 := by omega
    subst hzero
    have hempty : bytesOf bin = [] := hfits.resolve_left hpositive
    have hnone : form.shown (UInt32.ofInt (0 : Nat)) (bytesOf bin) = [] :=
      (form.shown_zero _).mpr hempty
    rw [hnone]
    have hstore := storeShown_nil s.buffer s.target
    refine ⟨0, s, ?_, h, ?_, fun habsurd => absurd habsurd hpositive, fun _ => Iff.rfl,
      fun _ => rfl⟩
    · show storeShown [] s.buffer s.target 0 >>= _ = _
      rw [hstore, pure_bind]
      unfold PrintState.advance
      simp
    · show s.len = ((0 - form.taken 0 (bytesOf bin).length : Nat) : Int)
      rw [Nat.zero_sub, hroom]

theorem Print.fits_advances (p : Print) {s : PrintState} {size room : Nat} (h : s.Balanced size)
    (hroom : s.len = room) (hfits : p.Fits room) :
    ∃ wrote s', p.printer s = pure (wrote, s') ∧ Advances p s s' size room := by
  cases p with
  | text chars => exact riakPrint_fits h hroom hfits
  | binary form bin => exact form.printer_fits h hroom hfits
  | next i =>
    refine ⟨0, s, ?_, h, hroom, fun _ habsurd => ?_, fun _ => Iff.rfl, fun _ => rfl⟩
    · show (C.intSucc i >>= fun _ => pure (0, s)) = _
      rw [C.intSucc_of_lt hfits, pure_bind]
    · cases habsurd

/-! ### A print that returns

It may have left the buffer, and then the room is gone. -/

/-- What the account says of any print that returns. -/
structure Print.Returned (p : Print) (s s' : PrintState) : Prop where
  le : s'.len ≤ s.len
  room : s'.len.toNat = p.rest s.len.toNat
  fits : 0 ≤ s'.len → p.Fits s.len.toNat

theorem riakPrint_returned {s s' : PrintState} {chars : Bytes} {wrote : Int}
    (h : riakPrint chars s heap = .ok ((wrote, s'), final)) :
    final = heap ∧ (Print.text chars).Returned s s' := by
  by_cases hpositive : 0 < s.len
  · rw [riakPrint_room hpositive] at h
    obtain ⟨buffer, rest, hcopy, hprinted⟩ := C.bind_eq_ok.mp h
    obtain ⟨_, rfl⟩ := C.copyAt_eq_ok hcopy
    simp only [C.pure_apply, Except.ok.injEq, Prod.mk.injEq] at hprinted
    obtain ⟨⟨_, rfl⟩, rfl⟩ := hprinted
    refine ⟨rfl, ?_, ?_, ?_⟩
    · show s.len - textTaken chars ≤ s.len
      omega
    · show (s.len - textTaken chars).toNat = _
      rw [Print.rest_text]
      omega
    · intro hleft
      have hroom : 0 ≤ s.len - textTaken chars := hleft
      exact Print.text_fits_iff.mpr (Or.inr (by omega))
  · rw [riakPrint_full hpositive] at h
    simp only [C.pure_apply, Except.ok.injEq, Prod.mk.injEq] at h
    obtain ⟨⟨_, rfl⟩, rfl⟩ := h
    have hzero : s.len.toNat = 0 := by omega
    refine ⟨rfl, Int.le_refl _, ?_, fun _ => Or.inl hzero⟩
    rw [Print.rest_text, hzero, Nat.zero_sub]

theorem storeShown_eq_ok {shown buffer : Bytes} {target : Nat} {len : UInt32} {out : Nat × Bytes}
    (h : storeShown shown buffer target len heap = .ok (out, final)) :
    out.1 = shown.length ∧ final = heap := by
  unfold storeShown at h
  obtain ⟨first, rest, hfirst, hstored⟩ := C.bind_eq_ok.mp h
  obtain ⟨_, rfl⟩ := C.copyAt_eq_ok hfirst
  by_cases hpositive : 0 < len
  · rw [if_pos hpositive] at hstored
    obtain ⟨second, rest', hsecond, hout⟩ := C.bind_eq_ok.mp hstored
    obtain ⟨_, rfl⟩ := C.copyAt_eq_ok hsecond
    simp only [C.pure_apply, Except.ok.injEq] at hout
    cases hout
    exact ⟨rfl, rfl⟩
  · rw [if_neg hpositive] at hstored
    simp only [C.pure_apply, Except.ok.injEq] at hstored
    cases hstored
    exact ⟨rfl, rfl⟩

theorem BinaryForm.printer_returned (form : BinaryForm) {s s' : PrintState}
    {bin : Option RiakBinary} {wrote : Int} (hbound : s.len < 2 ^ 31)
    (h : form.printer bin s heap = .ok ((wrote, s'), final)) :
    final = heap ∧ (Print.binary form bin).Returned s s' := by
  rw [form.printer_eq] at h
  obtain ⟨out, rest, hstore, hout⟩ := C.bind_eq_ok.mp h
  obtain ⟨hwrote, rfl⟩ := storeShown_eq_ok hstore
  simp only [C.pure_apply, Except.ok.injEq, Prod.mk.injEq] at hout
  obtain ⟨⟨_, rfl⟩, rfl⟩ := hout
  have hle : (s.advance out.1 out.2).len ≤ s.len := by
    show s.len - out.1 ≤ s.len
    omega
  refine ⟨rfl, hle, ?_, ?_⟩
  · show (s.len - out.1).toNat = s.len.toNat - form.taken s.len.toNat (bytesOf bin).length
    by_cases hpositive : 0 < s.len
    · have hroom : s.len = s.len.toNat := by omega
      rw [hroom, form.shown_length (by omega) (by omega)] at hwrote
      omega
    · omega
  · intro hleft
    have hleft : 0 ≤ s.len - out.1 := hleft
    by_cases hpositive : 0 < s.len
    · exact Or.inl (by omega)
    · have hzero : s.len = 0 := by omega
      rw [hzero] at hwrote
      refine Or.inr ((form.shown_zero _).mp (List.length_eq_zero_iff.mp ?_))
      rw [show (0 : UInt32) = UInt32.ofInt 0 from rfl, ← hwrote]
      omega

theorem Print.returned (p : Print) {s s' : PrintState} {wrote : Int} (hbound : s.len < 2 ^ 31)
    (h : p.printer s heap = .ok ((wrote, s'), final)) : final = heap ∧ p.Returned s s' := by
  cases p with
  | text chars => exact riakPrint_returned h
  | binary form bin => exact form.printer_returned hbound h
  | next i =>
    obtain ⟨j, rest, hnext, hout⟩ := C.bind_eq_ok.mp h
    obtain ⟨hint, _, rfl⟩ := C.intSucc_eq_ok.mp hnext
    simp only [C.pure_apply, Except.ok.injEq, Prod.mk.injEq] at hout
    obtain ⟨⟨_, rfl⟩, rfl⟩ := hout
    exact ⟨rfl, Int.le_refl _, rfl, fun _ => hint⟩

/-! ### Rows of prints

Printers are put together by `append` and loops by `all`; a loop that stops without
room may as well go on and print nothing, so every row is a list of prints. -/

namespace Printer

theorem append_apply (p q : Printer) (s : PrintState) :
    (p ++ q) s = p s >>= fun out => q out.2 >>= fun out' => pure (out.1 + out'.1, out'.2) := rfl

theorem append_eq_ok {p q : Printer} {s s' : PrintState} {wrote : Int} :
    (p ++ q) s heap = .ok ((wrote, s'), final) ↔
      ∃ out rest more, p s heap = .ok (out, rest) ∧ q out.2 rest = .ok ((more, s'), final) ∧
        wrote = out.1 + more := by
  rw [append_apply, C.bind_eq_ok]
  constructor
  · rintro ⟨out, rest, hp, h⟩
    obtain ⟨out', rest', hq, hout⟩ := C.bind_eq_ok.mp h
    simp only [C.pure_apply, Except.ok.injEq, Prod.mk.injEq] at hout
    obtain ⟨⟨rfl, rfl⟩, rfl⟩ := hout
    exact ⟨out, rest, out'.1, hp, hq, rfl⟩
  · rintro ⟨out, rest, more, hp, hq, rfl⟩
    exact ⟨out, rest, hp, by rw [C.bind_of_ok hq]; rfl⟩

theorem append_skip (p : Printer) : p ++ skip = p := by
  funext s
  rw [append_apply]
  simp only [skip, pure_bind, Int.add_zero]
  exact bind_pure (p s)

theorem skip_append (p : Printer) : skip ++ p = p := by
  funext s
  rw [append_apply]
  simp only [skip, pure_bind, Int.zero_add]
  exact bind_pure (p s)

theorem append_assoc (p q r : Printer) : p ++ q ++ r = p ++ (q ++ r) := by
  funext s
  simp only [append_apply, bind_assoc, pure_bind, Int.add_assoc]

theorem all_cons (p : Printer) (ps : List Printer) : all (p :: ps) = p ++ all ps := rfl

theorem all_singleton (p : Printer) : all [p] = p := append_skip p

theorem all_append (ps qs : List Printer) : all (ps ++ qs) = all ps ++ all qs := by
  induction ps with
  | nil => exact (skip_append _).symm
  | cons p ps ih => rw [List.cons_append, all_cons, ih, all_cons, append_assoc]

theorem all_flatMap {α : Type} (f : α → List Printer) (as : List α) :
    all (as.flatMap f) = all (as.map fun a => all (f a)) := by
  induction as with
  | nil => rfl
  | cons a as ih => rw [List.flatMap_cons, all_append, ih, List.map_cons, all_cons]

theorem whenRoom_full (p : Printer) {s : PrintState} (hfull : ¬ 0 < s.len) :
    whenRoom p s = pure (0, s) := if_neg hfull

theorem all_whenRoom_full (ps : List Printer) {s : PrintState} (hfull : ¬ 0 < s.len) :
    all (ps.map whenRoom) s = pure (0, s) := by
  induction ps with
  | nil => rfl
  | cons p ps ih =>
    rw [List.map_cons, all_cons, append_apply, whenRoom_full p hfull, pure_bind, ih, pure_bind]
    rfl

theorem whileRoom_eq (ps : List Printer) : whileRoom ps = all (ps.map whenRoom) := by
  induction ps with
  | nil => rfl
  | cons p ps ih =>
    funext s
    by_cases hpositive : 0 < s.len
    · have hfirst : whenRoom p s = p s := if_pos hpositive
      rw [whileRoom, show whenRoom (p ++ whileRoom ps) s = (p ++ whileRoom ps) s from if_pos hpositive,
        ih, List.map_cons, all_cons, append_apply, append_apply, hfirst]
    · rw [whileRoom, whenRoom_full _ hpositive, all_whenRoom_full _ hpositive]

end Printer

/-- Prints one after another. -/
def printAll (prints : List Print) : Printer := all (prints.map Print.printer)

theorem printAll_append (first later : List Print) :
    printAll (first ++ later) = printAll first ++ printAll later := by
  unfold printAll
  rw [List.map_append, all_append]

/-- Every print fits into the room that those before it leave. -/
def AllFit (room : Nat) (prints : List Print) : Prop :=
  Along (fun before p => p.Fits (roomAfter room before)) prints

theorem allFit_cons {room : Nat} {p : Print} {prints : List Print} :
    AllFit room (p :: prints) ↔ p.Fits room ∧ AllFit (p.rest room) prints := along_cons

instance decidableAllFit : ∀ (room : Nat) (prints : List Print), Decidable (AllFit room prints)
  | _, [] => isTrue along_nil
  | room, p :: prints =>
      have := decidableAllFit (p.rest room) prints
      decidable_of_iff _ allFit_cons.symm

theorem printAll_returned {prints : List Print} : ∀ {s s' : PrintState} {heap final : Heap}
    {wrote : Int}, s.len < 2 ^ 31 → printAll prints s heap = .ok ((wrote, s'), final) →
      final = heap ∧ s'.len ≤ s.len ∧ s'.len.toNat = roomAfter s.len.toNat prints ∧
        (0 ≤ s'.len → AllFit s.len.toNat prints) := by
  induction prints with
  | nil =>
    intro s s' heap final wrote _ h
    cases h
    exact ⟨rfl, Int.le_refl _, rfl, fun _ => along_nil⟩
  | cons p prints ih =>
    intro s s' heap final wrote hbound h
    obtain ⟨⟨first, next⟩, rest, more, hp, hrest, _⟩ := append_eq_ok.mp h
    obtain ⟨rfl, hreturned⟩ := p.returned hbound hp
    obtain ⟨hheap, hle, hroom, hfit⟩ := ih (Int.lt_of_le_of_lt hreturned.le hbound) hrest
    refine ⟨hheap, Int.le_trans hle hreturned.le, ?_, ?_⟩
    · rw [hroom, hreturned.room]
      rfl
    · intro hleft
      have hlater := hfit hleft
      rw [hreturned.room] at hlater
      exact allFit_cons.mpr ⟨hreturned.fits (Int.le_trans hleft hle), hlater⟩

theorem lastShown_room {prints : List Print} : ∀ {room : Nat} {made : Nat × Print},
    lastShown room prints = some made → 0 < room := by
  induction prints with
  | nil => exact nofun
  | cons p prints ih =>
    intro room made h
    rcases Option.or_eq_some_iff.mp h with hlater | ⟨_, hfirst⟩
    · exact Nat.lt_of_lt_of_le (ih hlater) (p.rest_le room)
    · split at hfirst
      · next hmade => exact hmade.1
      · cases hfirst

theorem Advances.endsInNul_iff {p : Print} {s s' : PrintState} {size room : Nat}
    (h : Advances p s s' size room) (prints : List Print) :
    EndsInNul s'.buffer[s'.target]? s'.buffer.getLast? (p.rest room) prints ↔
      EndsInNul s.buffer[s.target]? s.buffer.getLast? room (p :: prints) := by
  unfold EndsInNul
  rw [lastShown]
  cases hlater : lastShown (p.rest room) prints with
  | some made =>
    rw [Option.some_or, h.last (lastShown_room hlater)]
    exact Iff.rfl
  | none =>
    rw [Option.none_or]
    by_cases hmade : 0 < room ∧ p.isShown = true
    · rw [if_pos hmade]
      exact h.terminated hmade.1 hmade.2
    · rw [if_neg hmade]
      exact h.unchanged hmade

theorem printAll_fits (heap : Heap) {prints : List Print} : ∀ {s : PrintState} {size room : Nat},
    s.Balanced size → s.len = room → AllFit room prints →
      ∃ wrote s', printAll prints s heap = .ok ((wrote, s'), heap) ∧ s'.Balanced size ∧
        s'.len = roomAfter room prints ∧
        (s'.Terminated ↔ EndsInNul s.buffer[s.target]? s.buffer.getLast? room prints) := by
  induction prints with
  | nil =>
    intro s size room h hroom _
    exact ⟨0, s, rfl, h, hroom, Iff.rfl⟩
  | cons p prints ih =>
    intro s size room h hroom hfit
    obtain ⟨hp, hlater⟩ := allFit_cons.mp hfit
    obtain ⟨first, next, hprint, hadvances⟩ := p.fits_advances h hroom hp
    obtain ⟨more, s', hrest, hbalanced, hlen, hnul⟩ := ih hadvances.balanced hadvances.len hlater
    refine ⟨first + more, s', append_eq_ok.mpr ⟨(first, next), heap, more, ?_, hrest, rfl⟩,
      hbalanced, hlen, hnul.trans (hadvances.endsInNul_iff prints)⟩
    rw [hprint]
    rfl

end RiakClient
