import Mathlib.Algebra.GroupWithZero.Nat
import Mathlib.Algebra.Order.BigOperators.Group.List
import Mathlib.Algebra.Order.Group.Nat
import Mathlib.Algebra.Ring.Int.Defs
import RiakClient.BucketpropsPrint

/-!
# What printing returns

Every function that prints returns a count, and its callers add the counts up. The
state keeps three numbers of its own: what has been written, where to go on and what
is left. This module sets the counts beside these numbers, whatever is printed, and
whether it fits or not.

A print that returns has gone on by its count, in all three numbers, and rows of
prints and sequences of calls add up. What is left to show is that a call does return
where its memory is large enough, which is a bound on the number of its characters.
-/

namespace RiakClient

open CSem LabelledRun Printer

variable {heap final : Heap}

/-! ### Counts -/

/-- The state has gone on by a count, in all of its numbers. -/
structure PrintState.Counted (s s' : PrintState) (count : Int) : Prop where
  wrote : s'.wrote = s.wrote + count
  target : (s'.target : Int) = s.target + count
  len : s'.len = s.len - count
  total : s'.total = s.total
  nonneg : 0 ≤ count

namespace PrintState

variable {s s₁ s' : PrintState} {count more : Int}

theorem Counted.refl (s : PrintState) : s.Counted s 0 where
  wrote := (Int.add_zero _).symm
  target := (Int.add_zero _).symm
  len := (Int.sub_zero _).symm
  total := rfl
  nonneg := Int.le_refl 0

theorem Counted.trans (h : s.Counted s₁ count) (h' : s₁.Counted s' more) :
    s.Counted s' (count + more) where
  wrote := by rw [h'.wrote, h.wrote, Int.add_assoc]
  target := by rw [h'.target, h.target, Int.add_assoc]
  len := by
    have hfirst := h.len
    have hlater := h'.len
    omega
  total := h'.total.trans h.total
  nonneg := Int.add_nonneg h.nonneg h'.nonneg

theorem advance_counted (s : PrintState) (wrote : Nat) (buffer : Bytes) :
    s.Counted (s.advance wrote buffer) wrote where
  wrote := rfl
  target := Int.natCast_add _ _
  len := rfl
  total := rfl
  nonneg := Int.natCast_nonneg wrote

/-- The numbers of a state that started with `maxlen`. As long as the count of all that
    was written is an `int`, so is what is left. -/
structure Ledger (s : PrintState) (maxlen : Int) : Prop where
  total : s.total = maxlen
  room : s.wrote + s.len = s.total - 1
  target : (s.target : Int) = s.wrote
  len : 0 ≤ maxlen → maxlen < 2 ^ 31 → s.wrote < 2 ^ 31 → -(2 ^ 31) ≤ s.len ∧ s.len < 2 ^ 31

theorem Counted.ledger {location : Bytes} {maxlen : Int}
    (h : (riakPrintInit location maxlen).Counted s count) : s.Ledger maxlen := by
  have hwrote : s.wrote = 0 + count := h.wrote
  have htarget : (s.target : Int) = 0 + count := h.target
  have hlen : s.len = maxlen - 1 - count := h.len
  have htotal : s.total = maxlen := h.total
  have hnonneg := h.nonneg
  exact ⟨htotal, by omega, by omega, fun hmin hmax hint => ⟨by omega, by omega⟩⟩

end PrintState

/-! ### Single prints

The count of a text is its whole length, also when some of it is cut off; a binary
counts what it shows. -/

namespace Print

/-- `vsnprintf` returns the length of the text, which has to be an `int`. -/
def Formatted : Print → Prop
  | text chars => chars.length < 2 ^ 31
  | binary _ _ | next _ => True

instance decidableFormatted : ∀ p : Print, Decidable p.Formatted
  | text chars => Nat.decLt chars.length (2 ^ 31)
  | binary _ _ | next _ => isTrue trivial

/-- The index of a loop stays an `int`. -/
def Indexed : Print → Prop
  | next i => i + 1 < 2 ^ 31
  | text _ | binary _ _ => True

/-- How many characters a print has when nothing is cut off. -/
def size : Print → Nat
  | text chars => chars.length
  | binary .plain bin => (bytesOf bin).length
  | binary .hex bin => 2 * (bytesOf bin).length
  | next _ => 0

end Print

theorem riakPrint_counted {s s' : PrintState} {chars : Bytes} {count : Int}
    (hformatted : chars.length < 2 ^ 31)
    (h : riakPrint chars s heap = .ok ((count, s'), final)) : s.Counted s' count := by
  by_cases hpositive : 0 < s.len
  · have htaken : textTaken chars = chars.length := if_pos hformatted
    have hresult : vsnprintfResult chars = chars.length := if_pos hformatted
    rw [riakPrint_room hpositive, htaken, hresult] at h
    obtain ⟨buffer, rest, _, hprinted⟩ := C.bind_eq_ok.mp h
    rw [C.pure_eq_ok, Prod.mk.injEq] at hprinted
    obtain ⟨⟨rfl, rfl⟩, _⟩ := hprinted
    exact s.advance_counted _ _
  · rw [riakPrint_full hpositive, C.pure_eq_ok, Prod.mk.injEq] at h
    obtain ⟨⟨rfl, rfl⟩, _⟩ := h
    exact PrintState.Counted.refl s

theorem Print.counted {p : Print} (hformatted : p.Formatted) {s s' : PrintState} {count : Int}
    (h : p.printer s heap = .ok ((count, s'), final)) : s.Counted s' count := by
  cases p with
  | text chars => exact riakPrint_counted hformatted h
  | binary form bin =>
    have h : form.printer bin s heap = .ok ((count, s'), final) := h
    rw [form.printer_eq] at h
    obtain ⟨out, rest, _, hout⟩ := C.bind_eq_ok.mp h
    rw [C.pure_eq_ok, Prod.mk.injEq] at hout
    obtain ⟨⟨rfl, rfl⟩, _⟩ := hout
    exact s.advance_counted _ _
  | next i =>
    obtain ⟨j, rest, _, hout⟩ := C.bind_eq_ok.mp h
    rw [C.pure_eq_ok, Prod.mk.injEq] at hout
    obtain ⟨⟨rfl, rfl⟩, _⟩ := hout
    exact PrintState.Counted.refl s

/-! ### What keeps a print from returning -/

theorem BinaryForm.shown_length_le (form : BinaryForm) (len : UInt32) (bin : Option RiakBinary) :
    (form.shown len (bytesOf bin)).length ≤ (Print.binary form bin).size := by
  cases form with
  | plain =>
    unfold shown Print.size
    rw [printable_length]
    exact Nat.min_le_left _ _
  | hex =>
    unfold shown Print.size
    rw [hexDigits_length]
    exact Nat.mul_le_mul_left 2 (Nat.min_le_left _ _)

theorem storeShown_of_lt {shown buffer : Bytes} {target : Nat} (len : UInt32)
    (hinside : target + shown.length < buffer.length) :
    ∃ result, storeShown shown buffer target len = pure (shown.length, result) ∧
      result.length = buffer.length := by
  by_cases hpositive : 0 < len
  · obtain ⟨result, hstore, hlength, _⟩ := storeShown_inside hpositive hinside
    exact ⟨result, hstore, hlength⟩
  · obtain ⟨result, hcopy, hlength, _⟩ := C.copyAt_inside (Nat.le_of_lt hinside)
    refine ⟨result, ?_, hlength⟩
    unfold storeShown
    rw [hcopy, pure_bind, if_neg hpositive]

theorem Print.returns {p : Print} (hindexed : p.Indexed) {s : PrintState}
    (hmemory : s.target + p.size < s.buffer.length) :
    ∃ count s', p.printer s = pure (count, s') ∧ s'.target ≤ s.target + p.size ∧
      s'.buffer.length = s.buffer.length := by
  cases p with
  | text chars =>
    have hmemory : s.target + chars.length < s.buffer.length := hmemory
    show ∃ count s', riakPrint chars s = pure (count, s') ∧ _
    by_cases hpositive : 0 < s.len
    · obtain ⟨buffer, hcopy, hlength, _⟩ := C.copyAt_inside
        (show s.target + (chars.take (s.len.toNat - 1) ++ [0]).length ≤ s.buffer.length by
          rw [List.length_append, List.length_take, List.length_singleton]
          omega)
      rw [riakPrint_room hpositive, hcopy, pure_bind]
      refine ⟨_, _, rfl, ?_, hlength⟩
      show s.target + textTaken chars ≤ s.target + chars.length
      unfold textTaken
      split <;> omega
    · exact ⟨0, s, riakPrint_full hpositive chars, Nat.le_add_right _ _, rfl⟩
  | binary form bin =>
    have hshown := form.shown_length_le (UInt32.ofInt s.len) bin
    obtain ⟨result, hstore, hlength⟩ := storeShown_of_lt (UInt32.ofInt s.len)
      (Nat.lt_of_le_of_lt (Nat.add_le_add_left hshown s.target) hmemory)
    show ∃ count s', form.printer bin s = pure (count, s') ∧ _
    rw [form.printer_eq, hstore, pure_bind]
    exact ⟨_, _, rfl, Nat.add_le_add_left hshown _, hlength⟩
  | next i =>
    refine ⟨0, s, ?_, Nat.le_refl _, rfl⟩
    show (C.intSucc i >>= fun _ => pure (0, s)) = _
    rw [C.intSucc_of_lt hindexed, pure_bind]

/-! ### Rows of prints -/

theorem printAll_counted {prints : List Print} (hformatted : ∀ p ∈ prints, p.Formatted) :
    ∀ {s s' : PrintState} {heap final : Heap} {count : Int},
    printAll prints s heap = .ok ((count, s'), final) → s.Counted s' count := by
  induction prints with
  | nil =>
    intro s s' heap final count h
    cases h
    exact PrintState.Counted.refl s
  | cons p prints ih =>
    intro s s' heap final count h
    obtain ⟨⟨first, next⟩, rest, more, hp, hrest, rfl⟩ := append_eq_ok.mp h
    have hfirst := Print.counted (hformatted p List.mem_cons_self) hp
    have hlater := ih (fun later hmem => hformatted later (List.mem_cons_of_mem _ hmem)) hrest
    exact hfirst.trans hlater

/-- How many characters some prints have when nothing is cut off. -/
def totalSize (prints : List Print) : Nat := (prints.map Print.size).sum

theorem printAll_returns (heap : Heap) {prints : List Print}
    (hindexed : ∀ p ∈ prints, p.Indexed) : ∀ {s : PrintState},
    s.target + totalSize prints < s.buffer.length →
      ∃ count s', printAll prints s heap = .ok ((count, s'), heap) := by
  induction prints with
  | nil => exact fun _ => ⟨_, _, rfl⟩
  | cons p prints ih =>
    intro s hmemory
    unfold totalSize at hmemory
    rw [List.map_cons, List.sum_cons] at hmemory
    obtain ⟨first, next, hfirst, htarget, hbuffer⟩ :=
      Print.returns (hindexed p List.mem_cons_self)
        (show s.target + p.size < s.buffer.length by omega)
    obtain ⟨more, s', hlater⟩ := ih (fun later hmem => hindexed later (List.mem_cons_of_mem _ hmem))
      (show next.target + totalSize prints < next.buffer.length by
        unfold totalSize
        omega)
    refine ⟨first + more, s', append_eq_ok.mpr ⟨(first, next), heap, more, ?_, hlater, rfl⟩⟩
    rw [hfirst]
    rfl

/-! ### Parts -/

/-- The prints of a part, whether they are made or not. -/
def Part.prints : Part → List Print
  | always prints => prints
  | guarded prints => prints

theorem Part.made_sublist (part : Part) (room : Nat) : (part.made room).Sublist part.prints := by
  cases part with
  | always prints => exact List.Sublist.refl _
  | guarded prints =>
    show (if 0 < room then prints else []).Sublist prints
    split
    · exact List.Sublist.refl _
    · exact List.nil_sublist _

theorem printsMade_sublist : ∀ (parts : List Part) (room : Nat),
    (printsMade room parts).Sublist (parts.flatMap Part.prints) := by
  intro parts
  induction parts with
  | nil => exact fun _ => List.Sublist.refl _
  | cons part parts ih =>
    intro room
    rw [printsMade, List.flatMap_cons]
    exact (part.made_sublist room).append (ih _)

/-! ### Calls -/

/-- A call of a function that prints and returns a count. -/
inductive CountedCall where
  | interface (call : PrintCall)
  | modfun (name : Bytes) (modFun : Option RiakModfun)
  | commitHooks (hooks : Option (List (Option RiakCommitHook))) (numHooks : Int)
  | bucketprops (prop : RiakBucketprops)

namespace CountedCall

variable (formats : PrintFormats)

def printer : CountedCall → Printer
  | interface call => call.printer formats
  | modfun name modFun => riakModfunPrint name modFun
  | commitHooks hooks numHooks => riakCommitHooksPrint hooks numHooks
  | bucketprops prop => riakBucketpropsPrint prop

def parts : CountedCall → List Part
  | interface call => call.parts formats
  | modfun name modFun => modfunParts name modFun
  | commitHooks hooks numHooks => loopParts commitHookParts (firstEntries numHooks hooks)
  | bucketprops prop => bucketpropsParts prop

def prints (call : CountedCall) : List Print := (call.parts formats).flatMap Part.prints

/-- The counts of a call do not promise more than its arrays hold, and the functions
    that it follows are there. -/
def Readable : CountedCall → Prop
  | interface call => call.Readable
  | modfun _ modFun => modFun.isSome = true
  | commitHooks hooks numHooks => EntriesSet numHooks hooks fun hook => hook.modfun.isSome = true
  | bucketprops prop => prop.FunctionsSet

/-- Every text of a call has a length that `vsnprintf` can return. -/
def Formatted (call : CountedCall) : Prop := ∀ p ∈ call.prints formats, p.Formatted

theorem printer_madeOf {call : CountedCall} (h : call.Readable) :
    (call.printer formats).MadeOf (call.parts formats) := by
  cases call with
  | interface call => exact PrintCall.printer_madeOf formats h
  | modfun name modFun => exact MadeOf.modfun name h
  | commitHooks hooks numHooks => exact MadeOf.commitHooks h
  | bucketprops prop => exact MadeOf.bucketprops h

theorem printer_apply {call : CountedCall} (h : call.Readable) {s : PrintState}
    (hlen : s.len < 2 ^ 31) (heap : Heap) :
    call.printer formats s heap =
      printAll (printsMade s.len.toNat (call.parts formats)) s heap := by
  rw [printer_madeOf formats h]
  exact all_parts_apply _ s heap hlen

theorem counted {call : CountedCall} (h : call.Readable) (hformatted : call.Formatted formats)
    {s s' : PrintState} (hlen : s.len < 2 ^ 31) {count : Int}
    (hrun : call.printer formats s heap = .ok ((count, s'), final)) : s.Counted s' count := by
  rw [printer_apply formats h hlen] at hrun
  exact printAll_counted
    (fun p hmem => hformatted p ((printsMade_sublist _ _).subset hmem)) hrun

theorem returns {call : CountedCall} (h : call.Readable)
    (hindexed : ∀ p ∈ call.prints formats, p.Indexed) {s : PrintState} (hlen : s.len < 2 ^ 31)
    (hmemory : s.target + totalSize (call.prints formats) < s.buffer.length) (heap : Heap) :
    ∃ count s', call.printer formats s heap = .ok ((count, s'), heap) := by
  have hsublist := printsMade_sublist (call.parts formats) s.len.toNat
  have hsize : totalSize (printsMade s.len.toNat (call.parts formats)) ≤
      totalSize (call.prints formats) := (hsublist.map Print.size).sum_le_sum fun _ _ => Nat.zero_le _
  rw [printer_apply formats h hlen]
  exact printAll_returns heap (fun p hmem => hindexed p (hsublist.subset hmem)) (by omega)

end CountedCall

/-! ### Sequences of calls -/

variable (formats : PrintFormats)

/-- A call, on a heap of its own, and the count that it returns. -/
def CountedStep (s : PrintState) (call : CountedCall × Int) (s' : PrintState) : Prop :=
  ∃ heap final, call.1.printer formats s heap = .ok ((call.2, s'), final)

/-- What calls return, one after another from a state. -/
structure PrintsCounted (start : PrintState) (calls : List CountedCall) : Prop where
  /-- The count of every call is what it adds to the state, and what it takes from the room. -/
  counted : ∀ before s call count s', before.map Prod.fst ++ [call] <+: calls →
    Run (CountedStep formats) start before s → CountedStep formats s (call, count) s' →
    s.Counted s' count
  /-- From `riak_print_init` on the numbers of the state belong together. -/
  ledger : ∀ location maxlen before s, start = riakPrintInit location maxlen →
    before.map Prod.fst <+: calls → Run (CountedStep formats) start before s → s.Ledger maxlen
  /-- Only memory that ends, or a loop too long for its index, keeps a call from returning. -/
  returns : ∀ before s call, before.map Prod.fst ++ [call] <+: calls →
    Run (CountedStep formats) start before s → (∀ p ∈ call.prints formats, p.Indexed) →
    s.target + totalSize (call.prints formats) < s.buffer.length →
    ∀ heap, ∃ count s', call.printer formats s heap = .ok ((count, s'), heap)

theorem CountedStep.run {start s : PrintState} {calls : List (CountedCall × Int)}
    (hlen : start.len < 2 ^ 31) (hrun : Run (CountedStep formats) start calls s) :
    (∀ call ∈ calls.map Prod.fst, call.Readable ∧ call.Formatted formats) →
      start.Counted s (calls.map Prod.snd).sum := by
  refine hrun.invariant (fun calls s =>
    (∀ call ∈ calls.map Prod.fst, call.Readable ∧ call.Formatted formats) →
      start.Counted s (calls.map Prod.snd).sum) ?_ ?_
  · exact fun _ => PrintState.Counted.refl start
  · rintro before s ⟨call, count⟩ s' hbefore ⟨heap, final, hlast⟩ hcalls
    rw [List.map_append] at hcalls
    have hearlier := hbefore fun earlier hmem => hcalls earlier (List.mem_append_left _ hmem)
    obtain ⟨hreadable, hformatted⟩ :=
      hcalls call (List.mem_append_right _ List.mem_cons_self)
    have hroom : s.len < 2 ^ 31 := by
      have htaken := hearlier.len
      have hnonneg := hearlier.nonneg
      omega
    rw [List.map_append, List.sum_append, List.map_singleton, List.sum_singleton]
    exact hearlier.trans (CountedCall.counted formats hreadable hformatted hroom hlast)

/-- **Counts are kept**: whatever is printed and whether it fits or not, a call returns what
    it adds to the state. -/
theorem riak_print_counts {calls : List CountedCall} (hreadable : ∀ call ∈ calls, call.Readable)
    (hformatted : ∀ call ∈ calls, call.Formatted formats) {start : PrintState}
    (hlen : start.len < 2 ^ 31) : PrintsCounted formats start calls := by
  have hrun : ∀ before s, before.map Prod.fst <+: calls →
      Run (CountedStep formats) start before s →
      start.Counted s (before.map Prod.snd).sum ∧ s.len < 2 ^ 31 := by
    intro before s hbefore hrun
    have hcounted := CountedStep.run formats hlen hrun fun call hmem =>
      ⟨hreadable call (hbefore.subset hmem), hformatted call (hbefore.subset hmem)⟩
    have htaken := hcounted.len
    have hnonneg := hcounted.nonneg
    exact ⟨hcounted, by omega⟩
  have hlast : ∀ (before : List CountedCall) call, before ++ [call] <+: calls →
      before <+: calls ∧ call ∈ calls := by
    intro before call hprefix
    exact ⟨(List.prefix_append _ _).trans hprefix,
      hprefix.subset (List.mem_append_right _ List.mem_cons_self)⟩
  constructor
  · rintro before s call count s' hprefix hearlier ⟨heap, final, hcall⟩
    obtain ⟨hbefore, hmem⟩ := hlast _ call hprefix
    exact CountedCall.counted formats (hreadable call hmem) (hformatted call hmem)
      (hrun before s hbefore hearlier).2 hcall
  · rintro location maxlen before s rfl hbefore hearlier
    exact (hrun before s hbefore hearlier).1.ledger
  · intro before s call hprefix hearlier hindexed hmemory heap
    obtain ⟨hbefore, hmem⟩ := hlast _ call hprefix
    exact CountedCall.returns formats (hreadable call hmem) hindexed
      (hrun before s hbefore hearlier).2 hmemory heap

/-- A text that is cut, and hooks that there is no room for. -/
def cutCalls : List CountedCall :=
  [.interface (.print [97, 98, 99, 100, 101, 102]),
    .commitHooks (some [some { modfun := some {} }]) 1]

theorem riak_print_counts_cut :
    PrintsCounted ⟨fun _ => [], fun _ => []⟩ (riakPrintInit [1, 1, 1, 1] 4) cutCalls := by
  refine riak_print_counts _ ?readable ?formatted (by decide)
  case readable =>
    intro call hcall
    rcases hcall with _ | ⟨_, _ | ⟨_, ⟨⟩⟩⟩
    · trivial
    · refine ⟨by decide, fun i hi => ?_⟩
      obtain rfl : i = 0 := Nat.lt_one_iff.mp hi
      exact ⟨_, _, rfl, rfl, rfl⟩
  case formatted =>
    intro call hcall
    unfold CountedCall.Formatted
    rcases hcall with _ | ⟨_, _ | ⟨_, ⟨⟩⟩⟩ <;> decide

end RiakClient
