import Mathlib.Data.List.Shortlex
import RiakClient.Compare

/-!
# The order of binaries

`riak_binary_compare` and `riak_binary_compare_string` (`riak_binary.c`) return a
number of which only the sign means anything. The first takes the length of a binary
as a `size_t`, the second takes that of a string as an `int`. What both of them decide
is the order that puts shorter lists of bytes first.

The comparison of two binaries is the sign of one order, lengths first and then bytes.
It does not depend on the comparison that was made, only on the bytes, and a string
whose length is an `int` is compared as its bytes are.
-/

namespace RiakClient

open CSem

variable {heap final : Heap}

/-! ### Comparisons that decide an order -/

section Decided

variable {α : Type} {r : α → α → Prop} {a b c : α} {result result' : Int}

/-- The sign of a result says how two values are ordered. -/
structure SignOf (r : α → α → Prop) (a b : α) (result : Int) : Prop where
  lt : result < 0 ↔ r a b
  eq : result = 0 ↔ a = b
  gt : 0 < result ↔ r b a

theorem SignOf.unique (h : SignOf r a b result) (h' : SignOf r a b result') :
    result.sign = result'.sign := by
  rcases Int.lt_trichotomy result 0 with hneg | hzero | hpos
  · rw [Int.sign_eq_neg_one_of_neg hneg, Int.sign_eq_neg_one_of_neg (h'.lt.mpr (h.lt.mp hneg))]
  · rw [hzero, h'.eq.mpr (h.eq.mp hzero)]
  · rw [Int.sign_eq_one_of_pos hpos, Int.sign_eq_one_of_pos (h'.gt.mpr (h.gt.mp hpos))]

theorem SignOf.swap (h : SignOf r a b result) : SignOf r b a (-result) where
  lt := Int.neg_neg_iff_pos.trans h.gt
  eq := Int.neg_eq_zero.trans (h.eq.trans eq_comm)
  gt := Int.neg_pos.trans h.lt

theorem SignOf.antisymm (h : SignOf r a b result) (h' : SignOf r b a result') :
    result'.sign = -result.sign := by
  rw [h'.unique h.swap, Int.sign_neg]

/-- Values that are not ordered the wrong way are not when one of them is left out, and
    the two ends are equal only if all three are. -/
theorem SignOf.trans (htrans : ∀ x y z : α, r x y → r y z → r x z) {ab bc ac : Int}
    (hab : SignOf r a b ab) (hbc : SignOf r b c bc) (hac : SignOf r a c ac)
    (hfirst : ab ≤ 0) (hlater : bc ≤ 0) : ac ≤ 0 ∧ (ab < 0 ∨ bc < 0 → ac < 0) := by
  rcases Int.lt_or_eq_of_le hfirst with hfirst | hfirst
  · rcases Int.lt_or_eq_of_le hlater with hlater | hlater
    · have hless := hac.lt.mpr (htrans _ _ _ (hab.lt.mp hfirst) (hbc.lt.mp hlater))
      exact ⟨Int.le_of_lt hless, fun _ => hless⟩
    · obtain rfl := hbc.eq.mp hlater
      have hless := hac.lt.mpr (hab.lt.mp hfirst)
      exact ⟨Int.le_of_lt hless, fun _ => hless⟩
  · obtain rfl := hab.eq.mp hfirst
    rcases Int.lt_or_eq_of_le hlater with hlater | hlater
    · have hless := hac.lt.mpr (hbc.lt.mp hlater)
      exact ⟨Int.le_of_lt hless, fun _ => hless⟩
    · have hsame := hac.eq.mpr (hbc.eq.mp hlater)
      exact ⟨Int.le_of_eq hsame, fun hsome => by omega⟩

end Decided

/-! ### Strings -/

/-- The bytes of a string, without the NUL. -/
def cString (str : Bytes) : Bytes := str.takeWhile (· ≠ 0)

/-- `strlen`, which goes on until there is a NUL. -/
def strlen (str : Bytes) : C Nat :=
  if 0 ∈ str then pure (cString str).length else C.fault .outOfBounds

/-- `riak_binary_compare_string`. The length of the string is an `int`, and is a `size_t`
    again where it is compared. -/
def riakBinaryCompareString (bin : Option RiakBinary) (str : Option Bytes) : C Int := do
  let str ← C.deref str
  let len := Int.bmod (← strlen str) (2 ^ 32)
  let size := (len % 2 ^ 64).toNat
  let b ← C.deref bin
  if size < b.data.length then pure 1
  else if b.data.length < size then pure (-1)
  else pure (memcmp b.data str)

def riakBinaryCopyFromString (from_ : Option Bytes) : C (Option RiakBinary) :=
  match from_ with
  | none => pure none
  | some str => do
      let len ← strlen str
      riakBinaryNew (str.take len)

theorem cString_append (str : Bytes) :
    ∃ rest, str = cString str ++ rest ∧ str.take (cString str).length = cString str := by
  obtain ⟨rest, hrest⟩ := List.takeWhile_prefix (· ≠ (0 : UInt8)) (l := str)
  exact ⟨rest, hrest.symm, List.prefix_iff_eq_take.mp ⟨rest, hrest⟩ |>.symm⟩

theorem strlen_of_mem {str : Bytes} (h : 0 ∈ str) : strlen str = pure (cString str).length :=
  if_pos h

theorem riakBinaryCopyFromString_eq {str : Bytes} (h : 0 ∈ str) :
    riakBinaryCopyFromString (some str) = riakBinaryNew (cString str) := by
  obtain ⟨_, _, htaken⟩ := cString_append str
  unfold riakBinaryCopyFromString
  simp only
  rw [strlen_of_mem h, pure_bind, htaken]

theorem riakBinaryCopyFromString_data {str : Bytes} (h : 0 ∈ str) {bin : RiakBinary}
    (hcopy : riakBinaryCopyFromString (some str) heap = .ok (some bin, final)) :
    bin.data = cString str := by
  rw [riakBinaryCopyFromString_eq h] at hcopy
  by_cases hgrants : heap.Grants 2
  · rw [riakBinaryNew_granted hgrants] at hcopy
    cases hcopy
    rfl
  · obtain ⟨other, hrefused⟩ := riakBinaryNew_refused hgrants (cString str)
    rw [hrefused] at hcopy
    cases hcopy

/-! ### What is decided

`memcmp` goes by the first byte that differs, and bytes behind those that are compared
do not matter. -/

/-- Shorter first, then by the first byte that differs. -/
def bytesLt : Bytes → Bytes → Prop := List.Shortlex (· < ·)

theorem bytesLt.trans {data1 data2 data3 : Bytes} (h : bytesLt data1 data2)
    (h' : bytesLt data2 data3) : bytesLt data1 data3 := by
  unfold bytesLt at *
  rw [List.shortlex_def] at *
  rcases h with hless | ⟨hsame, hlex⟩
  · exact Or.inl (by rcases h' with hless' | ⟨hsame', _⟩ <;> omega)
  · rcases h' with hless' | ⟨hsame', hlex'⟩
    · exact Or.inl (by omega)
    · exact Or.inr ⟨by omega, List.lex_trans (fun h h' => UInt8.lt_trans h h') hlex hlex'⟩

theorem memcmp_sign : ∀ {data1 data2 : Bytes}, data1.length = data2.length →
    SignOf (List.Lex (· < ·)) data1 data2 (memcmp data1 data2) := by
  intro data1
  induction data1 with
  | nil =>
    intro data2 hlength
    rw [List.length_eq_zero_iff.mp hlength.symm]
    exact ⟨iff_of_false (by decide) List.not_lex_nil, iff_of_true rfl rfl,
      iff_of_false (by decide) List.not_lex_nil⟩
  | cons b1 data1 ih =>
    intro data2 hlength
    cases data2 with
    | nil => cases hlength
    | cons b2 data2 =>
      have hrest := ih (Nat.succ.inj hlength)
      unfold memcmp
      by_cases hbyte : b1 = b2
      · subst hbyte
        have hcons : b1 :: data1 = b1 :: data2 ↔ data1 = data2 := by
          rw [List.cons.injEq]
          exact and_iff_right rfl
        rw [if_pos rfl]
        exact ⟨hrest.lt.trans List.lex_cons_iff.symm, hrest.eq.trans hcons.symm,
          hrest.gt.trans List.lex_cons_iff.symm⟩
      · have hdiffers : ¬ b1 :: data1 = b2 :: data2 := fun hsame => hbyte (List.cons.inj hsame).1
        have hfirst : List.Lex (· < ·) (b1 :: data1) (b2 :: data2) ↔ b1 < b2 := by
          rw [List.cons_lex_cons_iff]
          exact or_iff_left fun hsame => hbyte hsame.1
        have hother : List.Lex (· < ·) (b2 :: data2) (b1 :: data1) ↔ b2 < b1 := by
          rw [List.cons_lex_cons_iff]
          exact or_iff_left fun hsame => hbyte hsame.1.symm
        rw [if_neg hbyte]
        by_cases hless : b1 < b2
        · rw [if_pos hless]
          exact ⟨iff_of_true (by decide) (hfirst.mpr hless), iff_of_false (by decide) hdiffers,
            iff_of_false (by decide) fun h => UInt8.lt_asymm hless (hother.mp h)⟩
        · have hgreater : b2 < b1 := UInt8.lt_of_le_of_ne (UInt8.not_lt.mp hless) (Ne.symm hbyte)
          rw [if_neg hless]
          exact ⟨iff_of_false (by decide) fun h => hless (hfirst.mp h),
            iff_of_false (by decide) hdiffers, iff_of_true (by decide) (hother.mpr hgreater)⟩

theorem memcmp_append (rest : Bytes) : ∀ {data1 data2 : Bytes}, data1.length = data2.length →
    memcmp data1 (data2 ++ rest) = memcmp data1 data2 := by
  intro data1
  induction data1 with
  | nil =>
    intro data2 _
    unfold memcmp
    rfl
  | cons b1 data1 ih =>
    intro data2 hlength
    cases data2 with
    | nil => cases hlength
    | cons b2 data2 =>
      rw [List.cons_append, memcmp, memcmp, ih (Nat.succ.inj hlength)]

theorem bytesLt_sign (data1 data2 : Bytes) :
    SignOf bytesLt data1 data2
      (if data2.length < data1.length then 1
        else if data1.length < data2.length then -1 else memcmp data1 data2) := by
  by_cases hlong : data2.length < data1.length
  · rw [if_pos hlong]
    refine ⟨iff_of_false (by decide) fun h => ?_, iff_of_false (by decide) fun hsame => ?_,
      iff_of_true (by decide) (List.Shortlex.of_length_lt hlong)⟩
    · rcases List.shortlex_def.mp h with hless | ⟨hsame, _⟩ <;> omega
    · rw [hsame] at hlong
      exact Nat.lt_irrefl _ hlong
  · rw [if_neg hlong]
    by_cases hshort : data1.length < data2.length
    · rw [if_pos hshort]
      refine ⟨iff_of_true (by decide) (List.Shortlex.of_length_lt hshort),
        iff_of_false (by decide) fun hsame => ?_, iff_of_false (by decide) fun h => ?_⟩
      · rw [hsame] at hshort
        exact Nat.lt_irrefl _ hshort
      · rcases List.shortlex_def.mp h with hless | ⟨hsame, _⟩ <;> omega
    · have hlength : data1.length = data2.length := by omega
      have hsign := memcmp_sign hlength
      rw [if_neg hshort]
      exact ⟨hsign.lt.trans (List.shortlex_iff_lex hlength).symm, hsign.eq,
        hsign.gt.trans (List.shortlex_iff_lex hlength.symm).symm⟩

theorem riakBinaryCompare_sign (a b : RiakBinary) :
    ∃ result, riakBinaryCompare (some a) (some b) = pure result ∧
      SignOf bytesLt a.data b.data result := by
  refine ⟨_, ?_, bytesLt_sign a.data b.data⟩
  unfold riakBinaryCompare
  rw [C.deref_some, pure_bind, C.deref_some, pure_bind]
  split
  · rfl
  · split <;> rfl

theorem riakBinaryCompareString_sign (a : RiakBinary) {str : Bytes} (hterminated : 0 ∈ str)
    (hint : (cString str).length < 2 ^ 31) :
    ∃ result, riakBinaryCompareString (some a) (some str) = pure result ∧
      SignOf bytesLt a.data (cString str) result := by
  obtain ⟨rest, hrest, _⟩ := cString_append str
  have hsize : (Int.bmod (cString str).length (2 ^ 32) % 2 ^ 64).toNat = (cString str).length := by
    have hlen : Int.bmod (cString str).length (2 ^ 32) = (cString str).length :=
      asInt_of_lt hint
    rw [hlen]
    omega
  refine ⟨_, ?_, bytesLt_sign a.data (cString str)⟩
  unfold riakBinaryCompareString
  rw [C.deref_some, pure_bind, strlen_of_mem hterminated, pure_bind, C.deref_some]
  simp only
  rw [pure_bind, hsize]
  by_cases hlong : (cString str).length < a.data.length
  · rw [if_pos hlong, if_pos hlong]
  · rw [if_neg hlong, if_neg hlong]
    by_cases hshort : a.data.length < (cString str).length
    · rw [if_pos hshort, if_pos hshort]
    · have hmemory : memcmp a.data str = memcmp a.data (cString str) := by
        calc memcmp a.data str = memcmp a.data (cString str ++ rest) := by rw [← hrest]
          _ = memcmp a.data (cString str) := memcmp_append rest (by omega)
      rw [if_neg hshort, if_neg hshort, hmemory]

/-! ### The order -/

/-- `riak_binary_compare` is a total order of binaries by their bytes. -/
structure BinariesOrdered (heap : Heap) : Prop where
  /-- It says which of two binaries is the smaller one, and that they have the same bytes. -/
  sign : ∀ a b : RiakBinary, ∃ result,
    riakBinaryCompare (some a) (some b) heap = .ok (result, heap) ∧
      SignOf bytesLt a.data b.data result
  antisymm : ∀ (a b : RiakBinary) (ab ba : Int),
    riakBinaryCompare (some a) (some b) heap = .ok (ab, heap) →
    riakBinaryCompare (some b) (some a) heap = .ok (ba, heap) → ba.sign = -ab.sign
  trans : ∀ (a b c : RiakBinary) (ab bc ac : Int),
    riakBinaryCompare (some a) (some b) heap = .ok (ab, heap) →
    riakBinaryCompare (some b) (some c) heap = .ok (bc, heap) →
    riakBinaryCompare (some a) (some c) heap = .ok (ac, heap) →
    ab ≤ 0 → bc ≤ 0 → ac ≤ 0 ∧ (ab < 0 ∨ bc < 0 → ac < 0)

/-- A string and its copy are compared alike with any binary. -/
structure StringCompared (str : Bytes) (heap : Heap) : Prop where
  copied : heap.Grants 2 → ∃ bin,
    riakBinaryCopyFromString (some str) heap = .ok (some bin, heap.after 2)
  alike : ∀ (bin : RiakBinary) (final : Heap),
    riakBinaryCopyFromString (some str) heap = .ok (some bin, final) →
    ∀ a : RiakBinary, ∃ result result',
      riakBinaryCompareString (some a) (some str) final = .ok (result, final) ∧
      riakBinaryCompare (some a) (some bin) final = .ok (result', final) ∧
      result.sign = result'.sign

theorem riakBinaryCompare_eq_ok {a b : RiakBinary} {result : Int}
    (h : riakBinaryCompare (some a) (some b) heap = .ok (result, final)) :
    SignOf bytesLt a.data b.data result := by
  obtain ⟨other, hother, hsign⟩ := riakBinaryCompare_sign a b
  rw [hother, C.pure_eq_ok] at h
  rw [← h.1]
  exact hsign

/-- **Comparing binaries** is a total order, shorter binaries first, and comparing with a
    string is the same order. -/
theorem riak_binary_compare_order (heap : Heap) {str : Bytes} (hterminated : 0 ∈ str)
    (hint : (cString str).length < 2 ^ 31) : BinariesOrdered heap ∧ StringCompared str heap := by
  refine ⟨⟨?sign, ?antisymm, ?trans⟩, ⟨?copied, ?alike⟩⟩
  case sign =>
    intro a b
    obtain ⟨result, hrun, hsign⟩ := riakBinaryCompare_sign a b
    exact ⟨result, by rw [hrun]; rfl, hsign⟩
  case antisymm =>
    intro a b ab ba hab hba
    exact (riakBinaryCompare_eq_ok hab).antisymm (riakBinaryCompare_eq_ok hba)
  case trans =>
    intro a b c ab bc ac hab hbc hac
    have htrans : ∀ data1 data2 data3, bytesLt data1 data2 → bytesLt data2 data3 →
        bytesLt data1 data3 := fun _ _ _ => bytesLt.trans
    exact (riakBinaryCompare_eq_ok hab).trans htrans (riakBinaryCompare_eq_ok hbc)
      (riakBinaryCompare_eq_ok hac)
  case copied =>
    intro hgrants
    rw [riakBinaryCopyFromString_eq hterminated]
    exact ⟨_, riakBinaryNew_granted hgrants _⟩
  case alike =>
    intro bin final hcopy a
    obtain ⟨result, hrun, hsign⟩ := riakBinaryCompareString_sign a hterminated hint
    obtain ⟨result', hrun', hsign'⟩ := riakBinaryCompare_sign a bin
    rw [riakBinaryCopyFromString_data hterminated hcopy] at hsign'
    refine ⟨result, result', ?_, ?_, hsign.unique hsign'⟩
    · rw [hrun]
      rfl
    · rw [hrun']
      rfl

/-- `"ab"`, with something else behind it. -/
theorem riak_binary_compare_order_ab :
    BinariesOrdered Heap.fresh ∧ StringCompared [97, 98, 0, 99] Heap.fresh :=
  riak_binary_compare_order Heap.fresh (by decide) (by decide)

end RiakClient
