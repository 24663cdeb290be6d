import Mathlib.Algebra.Group.Int.Defs
import Mathlib.Algebra.Group.Nat.Defs
import Mathlib.Tactic.Common

/-!
# Computations with a fallible allocator

A C function of a client library does three things that a pure function does
not: it asks the allocator for memory and may be refused, it reads memory that
nobody has written yet, and it may run into undefined behaviour. `C α` is a
computation with exactly these effects. Pointers are values here: a pointer to
an object is the object itself, and `none` is NULL; `Ptr` adds the pointer that
was never set or whose object is gone.

Nothing in this module depends on a particular program.

The first part is the monad with its inversion rules: `bind_eq_ok` takes a run that
returns apart, and `bind_of_ok` and `bind_of_error` put one together. After it come
the allocator, whose answers are a list that every request takes the head of, and the
primitive steps of C that a program is made of, each with the lemmas that say when it
returns and what it then is.
-/

namespace CSem

/-- What ends a run for good: undefined behaviour, or a failed `assert`. -/
inductive Fault where
  | nullDereference
  | wildDereference
  | outOfBounds
  | signedOverflow
  | assertionFailed
deriving DecidableEq, Repr

/-- The allocator as the program sees it. `outcomes` says for the coming
    requests which one is granted; past the end of the list all of them are.
    `junk` is what fresh memory will turn out to hold. -/
structure Heap where
  outcomes : List Bool
  junk : Nat → UInt8

/-- No request will be refused any more. -/
def Heap.Ample (heap : Heap) : Prop := heap.outcomes = []

/-- The heap that grants everything and hands out zeroed memory. -/
def Heap.fresh : Heap := ⟨[], fun _ => 0⟩

theorem Heap.fresh_ample : Heap.fresh.Ample := rfl

/-! ### Requests to come

The requests of a computation are counted from the heap that it starts on: `Grants n`
is about the next `n`, and `after n` is the heap behind them. A sum of requests is
granted if its summands are, one behind the other, and an ample heap is the same
behind any number. -/

/-- What the allocator will say to request `i` from now. -/
def Heap.answer (heap : Heap) (i : Nat) : Bool := heap.outcomes.getD i true

/-- The heap after `n` requests. -/
def Heap.after (heap : Heap) (n : Nat) : Heap := { heap with outcomes := heap.outcomes.drop n }

theorem Heap.after_after (heap : Heap) (m n : Nat) :
    (heap.after m).after n = heap.after (m + n) := by
  unfold after
  simp only [List.drop_drop]

theorem Heap.answer_after (heap : Heap) (n i : Nat) :
    (heap.after n).answer i = heap.answer (n + i) := by
  simp only [answer, after, List.getD_eq_getElem?_getD, List.getElem?_drop]

/-- The next `n` requests are granted. -/
def Heap.Grants (heap : Heap) (n : Nat) : Prop := ∀ i, i < n → heap.answer i = true

theorem Heap.Ample.grants {heap : Heap} (h : heap.Ample) (n : Nat) : heap.Grants n := by
  intro i _
  unfold answer
  rw [show heap.outcomes = [] from h]
  rfl

theorem Heap.Ample.after {heap : Heap} (h : heap.Ample) (n : Nat) : heap.after n = heap := by
  obtain ⟨outcomes, junk⟩ := heap
  obtain rfl : outcomes = [] := h
  unfold Heap.after
  rw [List.drop_nil]

theorem Heap.grants_congr {heap heap' : Heap} (h : heap.outcomes = heap'.outcomes) (n : Nat) :
    heap.Grants n ↔ heap'.Grants n := by
  unfold Grants answer
  rw [h]

theorem Heap.grants_zero (heap : Heap) : heap.Grants 0 := fun _ hi => absurd hi (Nat.not_lt_zero _)

theorem Heap.after_zero (heap : Heap) : heap.after 0 = heap := rfl

theorem Heap.grants_add (heap : Heap) (m n : Nat) :
    heap.Grants (m + n) ↔ heap.Grants m ∧ (heap.after m).Grants n := by
  constructor
  · intro h
    refine ⟨fun i hi => h i (by omega), fun i hi => ?_⟩
    rw [answer_after]
    exact h (m + i) (by omega)
  · rintro ⟨hfirst, hlater⟩ i hi
    by_cases hlow : i < m
    · exact hfirst i hlow
    · have hgranted := hlater (i - m) (by omega)
      rwa [answer_after, show m + (i - m) = i by omega] at hgranted

theorem Heap.grants_succ (heap : Heap) (n : Nat) :
    heap.Grants (n + 1) ↔ heap.answer 0 = true ∧ (heap.after 1).Grants n := by
  have hone : heap.Grants 1 ↔ heap.answer 0 = true :=
    ⟨fun h => h 0 Nat.one_pos, fun h i hi => by rwa [Nat.lt_one_iff.mp hi]⟩
  rw [Nat.add_comm, grants_add, hone]

/-- A computation: from a heap to a fault, or to a result and the heap left. -/
def C (α : Type) : Type := Heap → Except Fault (α × Heap)

namespace C

variable {α β γ : Type}

protected def pure (a : α) : C α := fun heap => .ok (a, heap)

protected def bind (m : C α) (f : α → C β) : C β := fun heap =>
  match m heap with
  | .error fault => .error fault
  | .ok (a, rest) => f a rest

instance : Monad C where
  pure := C.pure
  bind := C.bind

@[simp] theorem pure_apply (a : α) (heap : Heap) :
    (pure a : C α) heap = .ok (a, heap) := rfl

theorem pure_eq_ok {a b : α} {heap final : Heap} :
    (pure a : C α) heap = .ok (b, final) ↔ a = b ∧ heap = final := by
  rw [pure_apply, Except.ok.injEq, Prod.mk.injEq]

theorem bind_apply (m : C α) (f : α → C β) (heap : Heap) :
    (m >>= f) heap =
      match m heap with
      | .error fault => .error fault
      | .ok (a, rest) => f a rest := rfl

theorem bind_of_ok {m : C α} {f : α → C β} {heap rest : Heap} {a : α}
    (h : m heap = .ok (a, rest)) : (m >>= f) heap = f a rest := by
  rw [bind_apply, h]

theorem bind_of_error {m : C α} {f : α → C β} {heap : Heap} {fault : Fault}
    (h : m heap = .error fault) : (m >>= f) heap = .error fault := by
  rw [bind_apply, h]

theorem bind_eq_ok {m : C α} {f : α → C β} {heap final : Heap} {b : β} :
    (m >>= f) heap = .ok (b, final) ↔
      ∃ a rest, m heap = .ok (a, rest) ∧ f a rest = .ok (b, final) := by
  rw [bind_apply]
  constructor
  · intro h
    cases hm : m heap with
    | error fault => rw [hm] at h; cases h
    | ok out => rw [hm] at h; exact ⟨out.1, out.2, rfl, h⟩
  · rintro ⟨a, rest, hm, hf⟩
    rw [hm]; exact hf

theorem bind_ne_error {m : C α} {f : α → C β} {heap : Heap} {fault : Fault}
    (hm : m heap ≠ .error fault)
    (hf : ∀ a rest, m heap = .ok (a, rest) → f a rest ≠ .error fault) :
    (m >>= f) heap ≠ .error fault := by
  cases hfirst : m heap with
  | error other =>
    rw [bind_of_error hfirst]
    rintro ⟨⟩
    exact hm hfirst
  | ok out =>
    rw [bind_of_ok hfirst]
    exact hf out.1 out.2 hfirst

theorem map_apply (f : α → β) (m : C α) (heap : Heap) :
    (f <$> m) heap =
      match m heap with
      | .error fault => .error fault
      | .ok (a, rest) => .ok (f a, rest) := rfl

instance : LawfulMonad C := LawfulMonad.mk' C
  (by
    intro α m; funext heap
    rw [map_apply]
    cases m heap <;> rfl)
  (by intros; rfl)
  (by
    intro α β γ m f g; funext heap
    simp only [bind_apply]
    cases m heap <;> rfl)

/-- Undefined behaviour, or an abort. -/
def fault (f : Fault) : C α := fun _ => .error f

@[simp] theorem fault_apply (f : Fault) (heap : Heap) :
    (fault f : C α) heap = .error f := rfl

/-- Ask the allocator once. -/
def allocate : C Bool := fun heap =>
  match heap.outcomes with
  | [] => .ok (true, heap)
  | granted :: later => .ok (granted, { heap with outcomes := later })

/-- Allocate an object and fill it in; NULL when the request is refused. -/
def new (a : α) : C (Option α) := do
  if ← allocate then pure (some a) else pure none

/-- Allocate `size` bytes without writing to them. -/
def newBytes (size : Nat) : C (Option (List UInt8)) := fun heap =>
  match allocate heap with
  | .error f => .error f
  | .ok (false, rest) => .ok (none, rest)
  | .ok (true, rest) =>
      .ok (some ((List.range size).map rest.junk),
        { rest with junk := fun i => rest.junk (i + size) })

/-- Follow a pointer that is NULL or valid. -/
def deref : Option α → C α
  | none => fault .nullDereference
  | some a => pure a

/-- `++i` on a nonnegative `int`, whose overflow is undefined. -/
def intSucc (i : Nat) : C Nat :=
  if i + 1 < 2 ^ 31 then pure (i + 1) else fault .signedOverflow

/-- Read a cell of an array. -/
def readAt (cells : List α) (i : Nat) : C α :=
  match cells[i]? with
  | none => fault .outOfBounds
  | some a => pure a

/-- Write a cell of an array. -/
def writeAt (cells : List α) (i : Nat) (a : α) : C (List α) :=
  if i < cells.length then pure (cells.set i a) else fault .outOfBounds

/-- `memcpy` of `bytes` to an offset of a buffer; copying nothing is harmless
    wherever the offset is. -/
def copyAt (buffer : List α) (offset : Nat) (bytes : List α) : C (List α) :=
  if bytes.length = 0 then pure buffer
  else if offset + bytes.length ≤ buffer.length then
    pure (buffer.take offset ++ bytes ++ buffer.drop (offset + bytes.length))
  else fault .outOfBounds

/-! ### Runs on an ample heap -/

section Ample

variable {heap : Heap}

theorem allocate_of_ample (h : heap.Ample) : allocate heap = .ok (true, heap) := by
  unfold allocate
  rw [show heap.outcomes = [] from h]

theorem new_of_ample (h : heap.Ample) (a : α) : new a heap = .ok (some a, heap) := by
  unfold new
  rw [bind_of_ok (allocate_of_ample h)]
  rfl

theorem new_eq_ok {final : Heap} {a : α} {slot : Option α}
    (hnew : new a heap = .ok (slot, final)) : slot = some a ∨ slot = none := by
  obtain ⟨granted, rest, _, hslot⟩ := bind_eq_ok.mp hnew
  cases granted with
  | false =>
    simp only [Bool.false_eq_true, if_false, pure_apply, Except.ok.injEq, Prod.mk.injEq] at hslot
    exact Or.inr hslot.1.symm
  | true =>
    simp only [if_true, pure_apply, Except.ok.injEq, Prod.mk.injEq] at hslot
    exact Or.inl hslot.1.symm

end Ample

/-! ### The allocator answers

Whatever it says, an allocation does not fault. -/

section Answers

variable (heap : Heap)

theorem allocate_eq : allocate heap = .ok (heap.answer 0, heap.after 1) := by
  obtain ⟨outcomes, junk⟩ := heap
  cases outcomes with
  | nil => rfl
  | cons granted later => rfl

theorem new_eq (a : α) :
    new a heap = .ok (if heap.answer 0 then some a else none, heap.after 1) := by
  unfold new
  rw [bind_of_ok (allocate_eq heap)]
  cases heap.answer 0 <;> rfl

theorem newBytes_eq (size : Nat) :
    newBytes size heap =
      .ok (if heap.answer 0 then some ((List.range size).map (heap.after 1).junk) else none,
        if heap.answer 0 then { heap.after 1 with junk := fun i => heap.junk (i + size) }
        else heap.after 1) := by
  unfold newBytes
  rw [allocate_eq heap]
  cases heap.answer 0 <;> rfl

theorem allocate_total : ∃ granted rest, allocate heap = .ok (granted, rest) := by
  unfold allocate
  cases heap.outcomes with
  | nil => exact ⟨_, _, rfl⟩
  | cons granted later => exact ⟨_, _, rfl⟩

theorem new_total (a : α) :
    ∃ slot rest, new a heap = .ok (slot, rest) ∧ (slot = some a ∨ slot = none) := by
  obtain ⟨granted, rest, h⟩ := allocate_total heap
  unfold new
  rw [bind_of_ok h]
  cases granted with
  | true => exact ⟨_, _, rfl, Or.inl rfl⟩
  | false => exact ⟨_, _, rfl, Or.inr rfl⟩

theorem newBytes_total (size : Nat) :
    ∃ buffer rest, newBytes size heap = .ok (buffer, rest) ∧
      ∀ bytes, buffer = some bytes → bytes.length = size := by
  obtain ⟨granted, rest, h⟩ := allocate_total heap
  unfold newBytes
  rw [h]
  cases granted with
  | true =>
    refine ⟨_, _, rfl, ?_⟩
    rintro bytes ⟨⟩
    rw [List.length_map, List.length_range]
  | false =>
    refine ⟨_, _, rfl, ?_⟩
    rintro bytes ⟨⟩

end Answers

/-! ### Sequences of calls

A sequence of calls is a fold. An invariant between the calls made so far and
the state they left is carried over the whole sequence by its step.

`AlongCalls` asks something of each call where it is made; a call behind a fault is
not made. -/

section Calls

variable {σ : Type} {f : β → σ → C β} {Inv : List σ → β → Prop}

theorem foldlM_invariant
    (step : ∀ before call state state' heap final, Inv before state →
      f state call heap = .ok (state', final) → Inv (before ++ [call]) state') :
    ∀ (calls before : List σ) (state state' : β) (heap final : Heap), Inv before state →
      calls.foldlM f state heap = .ok (state', final) → Inv (before ++ calls) state' := by
  intro calls
  induction calls with
  | nil =>
    intro before state state' heap final hinv hrun
    rw [List.foldlM_nil, pure_apply, Except.ok.injEq, Prod.mk.injEq] at hrun
    rw [List.append_nil, ← hrun.1]
    exact hinv
  | cons call calls ih =>
    intro before state state' heap final hinv hrun
    rw [List.foldlM_cons] at hrun
    obtain ⟨next, heap₁, hcall, hrest⟩ := bind_eq_ok.mp hrun
    have hnext := step before call state next heap heap₁ hinv hcall
    have hlast := ih (before ++ [call]) next state' heap₁ final hnext hrest
    rwa [List.append_assoc, List.singleton_append] at hlast

theorem foldlM_total {heap : Heap}
    (step : ∀ before call state, Inv before state →
      ∃ state', f state call heap = .ok (state', heap) ∧ Inv (before ++ [call]) state') :
    ∀ (calls before : List σ) (state : β), Inv before state →
      ∃ state', calls.foldlM f state heap = .ok (state', heap) ∧ Inv (before ++ calls) state' := by
  intro calls
  induction calls with
  | nil =>
    intro before state hinv
    refine ⟨state, rfl, ?_⟩
    rw [List.append_nil]
    exact hinv
  | cons call calls ih =>
    intro before state hinv
    obtain ⟨next, hcall, hnext⟩ := step before call state hinv
    obtain ⟨state', hrest, hlast⟩ := ih (before ++ [call]) next hnext
    refine ⟨state', ?_, ?_⟩
    · rw [List.foldlM_cons, bind_of_ok hcall]
      exact hrest
    · rwa [List.append_assoc, List.singleton_append] at hlast

/-- Each call of a run is right where it is made, as far as the run gets. -/
def AlongCalls {ω : Type} (f : β → σ → C (ω × β)) (P : β → σ → Heap → Prop) :
    β → Heap → List σ → Prop
  | _, _, [] => True
  | state, heap, call :: calls => P state call heap ∧
      ∀ out state' rest, f state call heap = .ok ((out, state'), rest) →
        AlongCalls f P state' rest calls

theorem alongCalls_congr {ω : Type} {f : β → σ → C (ω × β)} {P Q : β → σ → Heap → Prop}
    (Inv : β → Prop)
    (step : ∀ state call heap out state' rest, Inv state →
      f state call heap = .ok ((out, state'), rest) → Inv state')
    (hsame : ∀ state call heap, Inv state → (P state call heap ↔ Q state call heap)) :
    ∀ (calls : List σ) (state : β) (heap : Heap), Inv state →
      (AlongCalls f P state heap calls ↔ AlongCalls f Q state heap calls) := by
  intro calls
  induction calls with
  | nil => exact fun _ _ _ => Iff.rfl
  | cons call calls ih =>
    intro state heap hinv
    apply and_congr (hsame state call heap hinv)
    constructor
    · intro h out state' rest hcall
      exact (ih state' rest (step _ _ _ _ _ _ hinv hcall)).mp (h out state' rest hcall)
    · intro h out state' rest hcall
      exact (ih state' rest (step _ _ _ _ _ _ hinv hcall)).mpr (h out state' rest hcall)

end Calls

/-! ### Reads and writes in bounds

Every step has a lemma for the bound that it keeps and one for the run that returned:
whoever has a result knows that the bound was kept. `copyAt_grown` is the copy of a
full array into one with a slot more, which keeps what is in front of that slot. -/

section Bounds

variable {heap final : Heap} {cells : List α} {i : Nat} {a : α}

@[simp] theorem deref_some (a : α) : deref (some a) = pure a := rfl

@[simp] theorem deref_none : (deref none : C α) = fault .nullDereference := rfl

theorem deref_eq_ok {p : Option α} :
    deref p heap = .ok (a, final) ↔ p = some a ∧ final = heap := by
  cases p with
  | none => simp
  | some b =>
    simp only [deref_some, pure_apply, Except.ok.injEq, Prod.mk.injEq, Option.some.injEq]
    exact and_congr_right fun _ => eq_comm

theorem readAt_of_get (h : cells[i]? = some a) : readAt cells i = pure a := by
  unfold readAt
  rw [h]

theorem readAt_of_le (h : cells.length ≤ i) : readAt cells i = fault .outOfBounds := by
  unfold readAt
  rw [List.getElem?_eq_none h]

theorem readAt_eq_ok : readAt cells i heap = .ok (a, final) ↔
    cells[i]? = some a ∧ final = heap := by
  unfold readAt
  cases cells[i]? with
  | none => simp
  | some b =>
    simp only [pure_apply, Except.ok.injEq, Prod.mk.injEq, Option.some.injEq]
    exact and_congr_right fun _ => eq_comm

theorem writeAt_of_lt (h : i < cells.length) (a : α) :
    writeAt cells i a = pure (cells.set i a) := if_pos h

theorem writeAt_of_le (h : cells.length ≤ i) (a : α) :
    writeAt cells i a = fault .outOfBounds := if_neg (Nat.not_lt.mpr h)

theorem writeAt_eq_ok {written : List α} : writeAt cells i a heap = .ok (written, final) ↔
    i < cells.length ∧ written = cells.set i a ∧ final = heap := by
  by_cases h : i < cells.length
  · rw [writeAt_of_lt h, pure_apply, Except.ok.injEq, Prod.mk.injEq]
    simp only [h, true_and]
    exact and_congr eq_comm eq_comm
  · rw [writeAt_of_le (Nat.not_lt.mp h), fault_apply]
    simp [h]

theorem intSucc_of_lt (h : i + 1 < 2 ^ 31) : intSucc i = pure (i + 1) := if_pos h

theorem intSucc_of_le (h : 2 ^ 31 ≤ i + 1) : intSucc i = fault .signedOverflow :=
  if_neg (Nat.not_lt.mpr h)

theorem intSucc_eq_ok {j : Nat} : intSucc i heap = .ok (j, final) ↔
    i + 1 < 2 ^ 31 ∧ j = i + 1 ∧ final = heap := by
  unfold intSucc
  by_cases h : i + 1 < 2 ^ 31
  · rw [if_pos h, pure_apply, Except.ok.injEq, Prod.mk.injEq]
    simp only [h, true_and]
    exact and_congr eq_comm eq_comm
  · rw [if_neg h, fault_apply]
    constructor
    · intro hfault
      cases hfault
    · rintro ⟨hlt, _⟩
      exact absurd hlt h

/-- A nonnegative `int` as an unsigned number. -/
theorem ofInt_toNat {n : Int} (hsign : 0 ≤ n) (hrange : n < 2 ^ 32) :
    (UInt32.ofInt n).toNat = n.toNat := by
  have hsmall : (n % 2 ^ 32).toNat = n.toNat := by omega
  unfold UInt32.ofInt
  rw [hsmall, UInt32.toNat_ofNat_of_lt' (by show n.toNat < 2 ^ 32; omega)]

theorem copyAt_of_le {buffer bytes : List α} {offset : Nat}
    (h : offset + bytes.length ≤ buffer.length) :
    copyAt buffer offset bytes =
      pure (buffer.take offset ++ bytes ++ buffer.drop (offset + bytes.length)) := by
  unfold copyAt
  by_cases hz : bytes.length = 0
  · have hnil : bytes = [] := List.length_eq_zero_iff.mp hz
    simp [hnil]
  · rw [if_neg hz, if_pos h]

theorem copyAt_grown (old : List α) (free : α) :
    copyAt (List.replicate (old.length + 1) free) 0 old = pure (old ++ [free]) := by
  rw [copyAt_of_le (by rw [List.length_replicate]; omega), List.take_zero, List.nil_append,
    List.drop_replicate, Nat.zero_add, Nat.add_sub_cancel_left]
  rfl

theorem copyAt_eq_ok {buffer bytes result : List α} {offset : Nat}
    (h : copyAt buffer offset bytes heap = .ok (result, final)) :
    result.length = buffer.length ∧ final = heap := by
  unfold copyAt at h
  by_cases hz : bytes.length = 0
  · rw [if_pos hz] at h
    cases h
    exact ⟨rfl, rfl⟩
  · rw [if_neg hz] at h
    by_cases hfits : offset + bytes.length ≤ buffer.length
    · rw [if_pos hfits] at h
      cases h
      refine ⟨?_, rfl⟩
      rw [List.length_append, List.length_append, List.length_take, List.length_drop]
      omega
    · rw [if_neg hfits] at h
      cases h

end Bounds

end C

/-! ### Wild pointers

A pointer that was never set, or whose object has been freed, is neither NULL nor
valid; following it is a fault of its own. -/

/-- A pointer that may also be wild: never set, or left behind by `free`. -/
inductive Ptr (α : Type) where
  | null
  | wild
  | obj (a : α)
deriving DecidableEq, Repr

namespace Ptr

variable {α : Type}

def deref : Ptr α → C α
  | null => C.fault .nullDereference
  | wild => C.fault .wildDereference
  | obj a => pure a

/-- The pointer an allocation returns. -/
def ofOption : Option α → Ptr α
  | none => null
  | some a => obj a

@[simp] theorem deref_obj (a : α) : (obj a).deref = pure a := rfl

theorem deref_eq_ok {p : Ptr α} {a : α} {heap final : Heap} :
    p.deref heap = .ok (a, final) ↔ p = obj a ∧ final = heap := by
  cases p with
  | null => simp [deref]
  | wild => simp [deref]
  | obj b =>
    simp only [deref_obj, C.pure_apply, Except.ok.injEq, Prod.mk.injEq, obj.injEq]
    exact and_congr_right fun _ => eq_comm

end Ptr

end CSem
