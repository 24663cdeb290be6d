import RiakClient.PrintSafety

/-!
# Printing a binary into a buffer

`riak_binary_print` and `riak_binary_hex_print` (`riak_binary.c`) get the size of
their buffer as an unsigned number `len` and compare an index with `len - 1` in each
round. The first shows one character a round and the second shows two, so that they
stop in front of the end of the buffer for different sizes.

The two loops are modelled with every write on its own, and compared with the text
that they amount to (`TextBuffer`): what is shown has to be the text that is meant,
and to leave a byte for the NUL.
-/

namespace RiakClient

open CSem

variable {heap : Heap}

/-! ### Write by write -/

/-- The loop of `riak_binary_print` from `i` on. -/
def binaryPrintLoop (len : UInt32) (target : Nat) : Nat → Bytes → Bytes → C (Nat × Bytes)
  | i, [], buffer => pure (i, buffer)
  | i, b :: data, buffer =>
      if i < (len - 1).toNat then do
        let c := if 32 ≤ b then b else 46
        let buffer ← C.writeAt buffer (target + i) c
        binaryPrintLoop len target (i + 1) data buffer
      else pure (i, buffer)

/-- `riak_binary_print`, with every write on its own. -/
def riakBinaryPrintWrites (bin : Option RiakBinary) (buffer : Bytes) (target : Nat)
    (len : UInt32) : C (Nat × Bytes) := do
  let (i, buffer) ← binaryPrintLoop len target 0 (bytesOf bin) buffer
  if 0 < len then
    pure (i, ← C.writeAt buffer (target + i) 0)
  else pure (i, buffer)

/-- `static char hex[]`. -/
def hex : Bytes := [48, 49, 50, 51, 52, 53, 54, 55, 56, 57, 97, 98, 99, 100, 101, 102]

/-- The loop of `riak_binary_hex_print` from `count` on. -/
def binaryHexPrintLoop (len : UInt32) (target : Nat) : Nat → Bytes → Bytes → C (Nat × Bytes)
  | count, [], buffer => pure (count, buffer)
  | count, b :: data, buffer =>
      if count * 2 < (len - 1).toNat then do
        let high ← C.readAt hex ((b &&& 0xf0) >>> 4).toNat
        let buffer ← C.writeAt buffer (target + count * 2) high
        let low ← C.readAt hex (b &&& 0x0f).toNat
        let buffer ← C.writeAt buffer (target + (count * 2 + 1)) low
        binaryHexPrintLoop len target (count + 1) data buffer
      else pure (count, buffer)

/-- `riak_binary_hex_print`, with every write on its own. -/
def riakBinaryHexPrintWrites (bin : Option RiakBinary) (buffer : Bytes) (target : Nat)
    (len : UInt32) : C (Nat × Bytes) := do
  let (count, buffer) ← binaryHexPrintLoop len target 0 (bytesOf bin) buffer
  if 0 < len then
    pure (count * 2, ← C.writeAt buffer (target + count * 2) 0)
  else pure (count * 2, buffer)

theorem binaryPrintLoop_eq (len : UInt32) (target i : Nat) (data buffer : Bytes) :
    binaryPrintLoop len target i data buffer =
      C.copyAt buffer (target + i) (printable (len - 1).toNat i data) >>= fun written =>
        pure (i + (printable (len - 1).toNat i data).length, written) := by
  induction data generalizing i buffer with
  | nil => rfl
  | cons b data ih =>
    rw [binaryPrintLoop, printable]
    by_cases hin : i < (len - 1).toNat
    · rw [if_pos hin, if_pos hin, C.copyAt_cons, bind_assoc]
      refine bind_congr fun written => ?_
      rw [ih, List.length_cons, Nat.add_assoc target, Nat.add_assoc i, Nat.add_comm 1]
    · rw [if_neg hin, if_neg hin]
      rfl

theorem readAt_hex_high (b : UInt8) :
    C.readAt hex ((b &&& 0xf0) >>> 4).toNat = pure (hexDigit (b / 16)) := by
  have hnibble : ∀ b : BitVec 8, hex[((b &&& 0xf0) >>> 4).toNat]? =
      some (hexDigit (UInt8.ofBitVec b / 16)) := by decide
  exact C.readAt_of_get (hnibble b.toBitVec)

theorem readAt_hex_low (b : UInt8) :
    C.readAt hex (b &&& 0x0f).toNat = pure (hexDigit (b % 16)) := by
  have hnibble : ∀ b : BitVec 8, hex[(b &&& 0x0f).toNat]? =
      some (hexDigit (UInt8.ofBitVec b % 16)) := by decide
  exact C.readAt_of_get (hnibble b.toBitVec)

theorem binaryHexPrintLoop_eq (len : UInt32) (target count : Nat) (data buffer : Bytes) :
    binaryHexPrintLoop len target count data buffer =
      C.copyAt buffer (target + count * 2) (hexDigits (len - 1).toNat count data) >>=
        fun written =>
          pure (count + (hexDigits (len - 1).toNat count data).length / 2, written) := by
  induction data generalizing count buffer with
  | nil =>
    rw [binaryHexPrintLoop, hexDigits]
    rfl
  | cons b data ih =>
    rw [binaryHexPrintLoop, hexDigits]
    by_cases hin : count * 2 < (len - 1).toNat
    · rw [if_pos hin, if_pos hin, readAt_hex_high, pure_bind, C.copyAt_cons, bind_assoc]
      refine bind_congr fun first => ?_
      rw [readAt_hex_low, pure_bind, C.copyAt_cons, bind_assoc, Nat.add_assoc target]
      refine bind_congr fun second => ?_
      have hoffset : target + (count * 2 + 1) + 1 = target + (count + 1) * 2 := by omega
      have hcount : ∀ n, count + 1 + n / 2 = count + (n + 1 + 1) / 2 := by omega
      rw [ih, hoffset, hcount, List.length_cons, List.length_cons]
    · rw [if_neg hin, if_neg hin]
      rfl

theorem riakBinaryPrintWrites_eq (bin : Option RiakBinary) (buffer : Bytes) (target : Nat)
    (len : UInt32) :
    riakBinaryPrintWrites bin buffer target len = riakBinaryPrint bin buffer target len := by
  unfold riakBinaryPrintWrites riakBinaryPrint storeShown
  rw [binaryPrintLoop_eq, bind_assoc]
  refine bind_congr fun written => ?_
  rw [pure_bind, Nat.zero_add, C.copyAt_singleton]
  rfl

theorem riakBinaryHexPrintWrites_eq (bin : Option RiakBinary) (buffer : Bytes) (target : Nat)
    (len : UInt32) :
    riakBinaryHexPrintWrites bin buffer target len = riakBinaryHexPrint bin buffer target len := by
  have heven : (hexDigits (len - 1).toNat 0 (bytesOf bin)).length / 2 * 2 =
      (hexDigits (len - 1).toNat 0 (bytesOf bin)).length := by
    rw [hexDigits_length]
    omega
  unfold riakBinaryHexPrintWrites riakBinaryHexPrint storeShown
  rw [binaryHexPrintLoop_eq, bind_assoc, Nat.zero_mul]
  refine bind_congr fun written => ?_
  rw [pure_bind, Nat.zero_add, C.copyAt_singleton]
  simp only [heven]
  rfl

/-! ### What a buffer is to hold -/

/-- The text for a binary, with a dot for each byte that is not printable. -/
def dotted (data : Bytes) : Bytes := data.map fun b => if b < 32 then 46 else b

def lowercaseDigit (n : Nat) : UInt8 := UInt8.ofNat (Nat.digitChar n).toNat

/-- The two digits of each byte. -/
def lowercaseHex (data : Bytes) : Bytes :=
  data.flatMap fun b => [lowercaseDigit (b.toNat / 16), lowercaseDigit (b.toNat % 16)]

theorem dotted_eq (data : Bytes) : dotted data = data.map fun b => if 32 ≤ b then b else 46 := by
  unfold dotted
  congr 1
  funext b
  by_cases hprintable : 32 ≤ b
  · rw [if_pos hprintable, if_neg (UInt8.not_lt.mpr hprintable)]
  · rw [if_neg hprintable, if_pos (UInt8.not_le.mp hprintable)]

theorem lowercaseHex_eq (data : Bytes) : lowercaseHex data = data.flatMap hexByte := by
  have hbyte : ∀ b : BitVec 8,
      [lowercaseDigit (b.toNat / 16), lowercaseDigit (b.toNat % 16)] =
        hexByte (UInt8.ofBitVec b) := by decide
  unfold lowercaseHex
  congr 1
  funext b
  exact hbyte b.toBitVec

/-- A buffer of `len` bytes is given to a routine that prints. It writes nothing outside,
    and if there is any room, it leaves `text` and a NUL there and returns `wrote`. -/
def PrintsInside (print : Bytes → Nat → UInt32 → C (Nat × Bytes)) (before room : Bytes)
    (len : UInt32) (heap : Heap) (wrote : Nat) (text : Bytes) : Prop :=
  C.Inside (fun buffer => print buffer before.length len) before room heap
    fun count room' => 0 < len → count = wrote ∧ text ++ [0] <+: room'

theorem zero_or_positive (len : UInt32) : len = 0 ∨ 0 < len :=
  (eq_or_ne len 0).imp_right UInt32.pos_iff_ne_zero.mpr

theorem printsInside_iff {print : Bytes → Nat → UInt32 → C (Nat × Bytes)}
    {shown text before room : Bytes} {len : UInt32} {wrote : Nat}
    (hprint : ∀ buffer, print buffer before.length len =
      storeShown shown buffer before.length len)
    (hroom : room.length = len.toNat) (htext : text.length = wrote) :
    PrintsInside print before room len heap wrote text ↔
      (len = 0 → shown = []) ∧ (0 < len → shown = text ∧ shown.length < len.toNat) := by
  unfold PrintsInside
  rw [C.inside_iff_of_copyAt fun _ => (hprint _).trans (storeShown_eq shown _ _ len), hroom]
  rcases zero_or_positive len with rfl | hpositive
  · rw [if_neg (by decide), List.append_nil]
    constructor
    · rintro ⟨hfits, _⟩
      refine ⟨fun _ => List.length_eq_zero_iff.mp (Nat.le_zero.mp hfits), ?_⟩
      rintro ⟨⟩
    · rintro ⟨hempty, _⟩
      rw [hempty rfl]
      refine ⟨Nat.zero_le _, ?_⟩
      rintro ⟨⟩
  · have hlen : len ≠ 0 := UInt32.pos_iff_ne_zero.mp hpositive
    rw [if_pos hpositive, List.length_append, List.length_singleton]
    constructor
    · rintro ⟨hfits, hresult⟩
      obtain ⟨hcount, hprefix⟩ := hresult hpositive
      have hlength : (text ++ [0]).length = (shown ++ [0]).length := by
        rw [List.length_append, List.length_append, htext, hcount]
      have hsame : text ++ [0] = shown ++ [0] :=
        (List.prefix_of_prefix_length_le hprefix (List.prefix_append _ _)
          (Nat.le_of_eq hlength)).eq_of_length hlength
      exact ⟨fun hzero => absurd hzero hlen,
        fun _ => ⟨(List.append_cancel_right hsame).symm, hfits⟩⟩
    · rintro ⟨_, hshown⟩
      obtain ⟨rfl, hfits⟩ := hshown hpositive
      exact ⟨hfits, fun _ => ⟨htext, List.prefix_append _ _⟩⟩

/-! ### Printing characters -/

/-- How many bytes of a binary have room in front of a NUL. -/
def plainCount (bin : Option RiakBinary) (len : UInt32) : Nat :=
  min (bytesOf bin).length (len.toNat - 1)

/-- **Printing a binary** stays inside the buffer and leaves the text of the binary there, cut
    to the buffer, exactly if the buffer has a size or there is nothing to print. -/
theorem riak_binary_print_fits_iff (bin : Option RiakBinary) {before room : Bytes}
    {len : UInt32} (hroom : room.length = len.toNat) (heap : Heap) :
    PrintsInside (riakBinaryPrintWrites bin) before room len heap (plainCount bin len)
        (dotted ((bytesOf bin).take (plainCount bin len))) ↔
      bytesOf bin = [] ∨ 0 < len := by
  have hprint : ∀ buffer, riakBinaryPrintWrites bin buffer before.length len =
      storeShown (printable (len - 1).toNat 0 (bytesOf bin)) buffer before.length len :=
    fun buffer => riakBinaryPrintWrites_eq bin buffer before.length len
  have hcount : (dotted ((bytesOf bin).take (plainCount bin len))).length =
      plainCount bin len := by
    unfold dotted
    rw [List.length_map, List.length_take]
    exact Nat.min_eq_left (Nat.min_le_left _ _)
  rw [printsInside_iff hprint hroom hcount]
  constructor
  · rintro ⟨hzero, _⟩
    rcases zero_or_positive len with rfl | hpositive
    · exact Or.inl ((BinaryForm.shown_zero .plain _).mp (hzero rfl))
    · exact Or.inr hpositive
  · intro hcondition
    refine ⟨?_, fun hpositive => ?_⟩
    · rintro rfl
      rcases hcondition with hempty | habsurd
      · exact (BinaryForm.shown_zero .plain _).mpr hempty
      · cases habsurd
    · have hsize : 0 < len.toNat := UInt32.lt_iff_toNat_lt.mp hpositive
      rw [printable_length, printable_eq, pred_toNat hpositive, Nat.sub_zero]
      refine ⟨?_, by omega⟩
      rw [dotted_eq, List.take_eq_take_min, Nat.min_comm]
      rfl

/-- `"a\tb"` in a buffer that has room for two characters. -/
theorem riak_binary_print_fits_cut :
    PrintsInside (riakBinaryPrintWrites (some ⟨[97, 9, 98], false⟩)) [] [1, 1, 1] 3 Heap.fresh
      2 [97, 46] :=
  (riak_binary_print_fits_iff (some ⟨[97, 9, 98], false⟩) rfl Heap.fresh).mpr
    (Or.inr (by decide))

/-- Without a buffer a character is written all the same. -/
theorem riak_binary_print_without_room :
    ¬ PrintsInside (riakBinaryPrintWrites (some ⟨[97], false⟩)) [] [] 0 Heap.fresh
      (plainCount (some ⟨[97], false⟩) 0) (dotted ([97].take (plainCount (some ⟨[97], false⟩) 0))) := by
  intro h
  obtain ⟨_, _, _, hrun, _⟩ := h []
  cases hrun

/-! ### Printing digits -/

/-- How many bytes of a binary have room for two digits in front of a NUL. -/
def hexCount (bin : Option RiakBinary) (len : UInt32) : Nat :=
  min (bytesOf bin).length ((len.toNat - 1) / 2)

/-- **Printing a binary in hexadecimal** stays inside the buffer and leaves the digits there
    that have room, exactly if the size of the buffer is odd or all digits have room: in a
    buffer of even size the last round takes the byte of the NUL. -/
theorem riak_binary_hex_print_fits_iff (bin : Option RiakBinary) {before room : Bytes}
    {len : UInt32} (hroom : room.length = len.toNat) (heap : Heap) :
    PrintsInside (riakBinaryHexPrintWrites bin) before room len heap (2 * hexCount bin len)
        (lowercaseHex ((bytesOf bin).take (hexCount bin len))) ↔
      bytesOf bin = [] ∨ len.toNat % 2 = 1 ∨ 2 * (bytesOf bin).length < len.toNat := by
  have hprint : ∀ buffer, riakBinaryHexPrintWrites bin buffer before.length len =
      storeShown (hexDigits (len - 1).toNat 0 (bytesOf bin)) buffer before.length len :=
    fun buffer => riakBinaryHexPrintWrites_eq bin buffer before.length len
  have hcount : (lowercaseHex ((bytesOf bin).take (hexCount bin len))).length =
      2 * hexCount bin len := by
    rw [lowercaseHex_eq, flatMap_hexByte_length, List.length_take]
    exact congrArg (2 * ·) (Nat.min_eq_left (Nat.min_le_left _ _))
  rw [printsInside_iff hprint hroom hcount]
  rcases zero_or_positive len with rfl | hpositive
  · have hshown := BinaryForm.shown_zero .hex (bytesOf bin)
    constructor
    · rintro ⟨hzero, _⟩
      exact Or.inl (hshown.mp (hzero rfl))
    · rintro (hempty | hodd | hfew)
      · refine ⟨fun _ => hshown.mpr hempty, ?_⟩
        rintro ⟨⟩
      · cases hodd
      · cases hfew
  · have hlen : len ≠ 0 := UInt32.pos_iff_ne_zero.mp hpositive
    have hsize : 0 < len.toNat := UInt32.lt_iff_toNat_lt.mp hpositive
    rw [hexDigits_length, hexDigits_eq, pred_toNat hpositive, Nat.sub_zero,
      Nat.sub_add_cancel hsize, lowercaseHex_eq]
    constructor
    · rintro ⟨_, hshown⟩
      obtain ⟨_, hfits⟩ := hshown hpositive
      by_cases hodd : len.toNat % 2 = 1
      · exact Or.inr (Or.inl hodd)
      · exact Or.inr (Or.inr (by omega))
    · intro hcondition
      have hsame : min (bytesOf bin).length (len.toNat / 2) = hexCount bin len := by
        unfold hexCount
        rcases hcondition with hempty | hodd | hfew
        · rw [hempty, List.length_nil, Nat.zero_min, Nat.zero_min]
        · omega
        · omega
      have hcut : 2 * hexCount bin len < len.toNat := by
        unfold hexCount
        omega
      refine ⟨fun hzero => absurd hzero hlen, fun _ => ?_⟩
      rw [hsame, List.take_eq_take_min, Nat.min_comm, hsame]
      exact ⟨rfl, hcut⟩

/-- `"abc"` in a buffer that has room for the digits of two characters. -/
theorem riak_binary_hex_print_fits_abc :
    PrintsInside (riakBinaryHexPrintWrites (some ⟨[97, 98, 99], false⟩)) [] [1, 1, 1, 1, 1] 5
      Heap.fresh 4 [54, 49, 54, 50] :=
  (riak_binary_hex_print_fits_iff (some ⟨[97, 98, 99], false⟩) rfl Heap.fresh).mpr
    (Or.inr (Or.inl (by decide)))

/-- Two digits and a NUL in a buffer of two bytes. -/
theorem riak_binary_hex_print_overruns :
    ¬ PrintsInside (riakBinaryHexPrintWrites (some ⟨[97], false⟩)) [] [0, 0] 2 Heap.fresh
      (2 * hexCount (some ⟨[97], false⟩) 2)
      (lowercaseHex ([97].take (hexCount (some ⟨[97], false⟩) 2))) := by
  intro h
  obtain ⟨_, _, _, hrun, _⟩ := h []
  cases hrun

end RiakClient
