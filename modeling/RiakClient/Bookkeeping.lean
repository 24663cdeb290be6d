import Mathlib.Algebra.Order.Group.Multiset
import RiakClient.Computation

/-!
# Computations that keep books

`C α` knows whether the allocator grants a request, but not which block it hands
out. Here every block has an address, a ledger lists the blocks that are live, and a
free takes one off the list. A free of a block that is not on the list is a double
free, or no block at all, and ends the computation. What a computation does to the
blocks that it is given, whatever else is live, is its specification; and without the
addresses it is a computation of the other kind, and does the same.

Nothing in this module depends on a particular program.

A computation takes the books to itself and is otherwise a computation `C`: `none`
stands for the free that does not succeed, so that a theorem about a run that returns
says that there was none.
-/

namespace CSem

/-- The address of a block. -/
abbrev Addr := Nat

/-! ### Books -/

/-- The live blocks, each of them once, and the address of the next one. -/
@[ext]
structure Ledger where
  live : Multiset Addr
  next : Addr
  nodup : live.Nodup
  below : ∀ a ∈ live, a < next

/-- A block is handed out. -/
def Ledger.add (l : Ledger) : Ledger where
  live := l.next ::ₘ l.live
  next := l.next + 1
  nodup := Multiset.nodup_cons.mpr ⟨fun h => Nat.lt_irrefl _ (l.below _ h), l.nodup⟩
  below := by
    intro a ha
    rcases Multiset.mem_cons.mp ha with rfl | ha
    · exact Nat.lt_succ_self _
    · exact Nat.lt_succ_of_lt (l.below a ha)

/-- A block is taken back. -/
def Ledger.remove (l : Ledger) (a : Addr) : Ledger where
  live := l.live.erase a
  next := l.next
  nodup := l.nodup.erase a
  below := fun b hb => l.below b (Multiset.mem_of_mem_erase hb)

/-- Only a part of the blocks stays. -/
def Ledger.part (l : Ledger) {live : Multiset Addr} (h : live ≤ l.live) : Ledger where
  live := live
  next := l.next
  nodup := Multiset.nodup_of_le h l.nodup
  below := fun a ha => l.below a (Multiset.mem_of_le h ha)

/-- The books of a program that has just started. -/
def Ledger.blank : Ledger where
  live := 0
  next := 0
  nodup := Multiset.nodup_zero
  below := fun a ha => absurd ha (Multiset.notMem_zero a)

/-- What is behind a pointer, seen another way. -/
def Ptr.map {α β : Type} (f : α → β) : Ptr α → Ptr β
  | null => null
  | wild => wild
  | obj a => obj (f a)

/-! ### Computations

Reading and writing the memory of a block is left to the computation without books;
here are the steps that do something to the list of live blocks. -/

/-- A computation with books; `none` is a free of a block that is not there. -/
def Booked (α : Type) : Type := Ledger → C (Option (α × Ledger))

namespace Booked

variable {α β γ δ : Type}

protected def pure (a : α) : Booked α := fun l => pure (some (a, l))

protected def bind (m : Booked α) (f : α → Booked β) : Booked β := fun l => do
  match ← m l with
  | none => pure none
  | some (a, l) => f a l

instance : Monad Booked where
  pure := Booked.pure
  bind := Booked.bind

theorem pure_apply (a : α) (l : Ledger) (heap : Heap) :
    (pure a : Booked α) l heap = .ok (some (a, l), heap) := rfl

theorem bind_apply (m : Booked α) (f : α → Booked β) (l : Ledger) :
    (m >>= f) l = m l >>= fun out =>
      match out with
      | none => pure none
      | some (a, l) => f a l := rfl

theorem bind_eq_some {m : Booked α} {f : α → Booked β} {l l' : Ledger} {heap final : Heap} {b : β} :
    (m >>= f) l heap = .ok (some (b, l'), final) ↔
      ∃ a between rest, m l heap = .ok (some (a, between), rest) ∧
        f a between rest = .ok (some (b, l'), final) := by
  rw [bind_apply, C.bind_eq_ok]
  constructor
  · rintro ⟨first, rest, hm, h⟩
    cases first with
    | none => cases h
    | some first => exact ⟨first.1, first.2, rest, hm, h⟩
  · rintro ⟨a, between, rest, hm, h⟩
    exact ⟨_, rest, hm, h⟩

theorem foldlM_invariant {σ : Type} {f : β → σ → Booked β} {Inv : List σ → β → Prop}
    (step : ∀ before call state state' l l' heap final, Inv before state →
      f state call l heap = .ok (some (state', l'), final) → Inv (before ++ [call]) state') :
    ∀ (calls before : List σ) (state state' : β) (l l' : Ledger) (heap final : Heap),
      Inv before state → calls.foldlM f state l heap = .ok (some (state', l'), final) →
        Inv (before ++ calls) state' := by
  intro calls
  induction calls with
  | nil =>
    intro before state state' l l' heap final hinv hrun
    cases hrun
    rwa [List.append_nil]
  | cons call calls ih =>
    intro before state state' l l' heap final hinv hrun
    rw [List.foldlM_cons] at hrun
    obtain ⟨next, l₁, heap₁, hcall, hrest⟩ := bind_eq_some.mp hrun
    have hnext := step before call state next l l₁ heap heap₁ hinv hcall
    have hlast := ih (before ++ [call]) next state' l₁ l' heap₁ final hnext hrest
    rwa [List.append_assoc, List.singleton_append] at hlast

instance : LawfulMonad Booked := LawfulMonad.mk' Booked
  (by
    intro α m
    funext l
    show (m l >>= fun out => _) = m l
    refine Eq.trans (congrArg _ (funext fun out => ?_)) (bind_pure (m l))
    cases out <;> rfl)
  (by intros; rfl)
  (by
    intro α β γ m f g
    funext l
    simp only [bind_apply, bind_assoc]
    refine congrArg _ (funext fun out => ?_)
    cases out with
    | none => rfl
    | some out => rfl)

/-- What does not touch the books. -/
def lift (m : C α) : Booked α := fun l => do
  let a ← m
  pure (some (a, l))

theorem lift_pure (a : α) : lift (pure a) = pure a := rfl

/-- `malloc`. -/
def malloc : Booked (Option Addr) := fun l => do
  if ← C.allocate then pure (some (some l.next, l.add)) else pure (some (none, l))

/-- `malloc` of memory that is read before it is written. -/
def mallocBytes (size : Nat) : Booked (Option (Addr × List UInt8)) := fun l => do
  match ← C.newBytes size with
  | none => pure (some (none, l))
  | some bytes => pure (some (some (l.next, bytes), l.add))

/-- A block from an allocator that is not asked here whether it has one. -/
def obtain : Booked Addr := fun l => pure (some (l.next, l.add))

/-- `free`. -/
def release (a : Addr) : Booked Unit := fun l =>
  if a ∈ l.live then pure (some ((), l.remove a)) else pure none

/-- `free` of a pointer that may be NULL. -/
def free : Option Addr → Booked Unit
  | none => pure ()
  | some a => release a

/-! ### Blocks -/

end Booked

/-- The blocks that a value answers for. -/
class Owns (α : Type) where
  blocks : α → Multiset Addr

export Owns (blocks)

instance : Owns Addr := ⟨fun a => {a}⟩

instance {α : Type} [Owns α] : Owns (Option α) := ⟨fun a => (a.map blocks).getD 0⟩

instance {α : Type} [Owns α] : Owns (List α) := ⟨fun items => (items.map blocks).sum⟩

section Blocks

variable {α : Type} [Owns α]

theorem blocks_addr (a : Addr) : blocks a = {a} := rfl

@[simp] theorem blocks_none : blocks (none : Option α) = 0 := rfl

@[simp] theorem blocks_some (a : α) : blocks (some a) = blocks a := rfl

@[simp] theorem blocks_cons (a : α) (items : List α) :
    blocks (a :: items) = blocks a + blocks items := List.sum_cons

end Blocks

namespace Booked

variable {α β γ δ : Type}

/-! ### What a computation does to its blocks

The rules follow the monad, with a rule for each step. What stands in front of a
sequence needs a part of the blocks (`step`), none of them (`after`), or changes the
books only (`silent`); whatever else is live is in no statement and stays (`frame`).
Post-conditions are weakened by `mono`, and what comes of a computation may be seen
another way (`map`). -/

/-- With these blocks, and whatever else is live, the computation does what `c` does,
    frees only what is there, and leaves blocks for which `Post` holds, and the rest as
    it was. -/
def Tracks (before : Multiset Addr) (m : Booked α) (f : α → β) (c : C β)
    (Post : α → Multiset Addr → Prop) : Prop :=
  ∀ l frame heap, l.live = before + frame →
    (∃ fault, m l heap = .error fault ∧ c heap = .error fault) ∨
      ∃ a l' final after, m l heap = .ok (some (a, l'), final) ∧ c heap = .ok (f a, final) ∧
        l'.live = after + frame ∧ Post a after

section Rules

variable {before extra : Multiset Addr} {m : Booked α} {f : α → β} {c : C β}
  {k : α → Booked γ} {g : γ → δ} {d : β → C δ}
  {Post Mid : α → Multiset Addr → Prop} {End : γ → Multiset Addr → Prop}

theorem Tracks.pure {a : α} (h : Post a before) :
    Tracks before (pure a) f (pure (f a)) Post :=
  fun l _ heap hlive => Or.inr ⟨a, l, heap, before, rfl, rfl, hlive, h⟩

theorem Tracks.pure_of {a : α} {b : β} (hplain : f a = b) (h : Post a before) :
    Tracks before (Pure.pure a) f (Pure.pure b) Post :=
  hplain ▸ Tracks.pure h

theorem Tracks.nothing :
    Tracks 0 (Pure.pure ()) (fun _ => ()) (Pure.pure ()) fun _ after => after = 0 :=
  Tracks.pure rfl

theorem Tracks.bind (hm : Tracks before m f c Mid)
    (hk : ∀ a after, Mid a after → Tracks after (k a) g (d (f a)) End) :
    Tracks before (m >>= k) g (c >>= d) End := by
  intro l frame heap hlive
  rcases hm l frame heap hlive with ⟨fault, hfault, hplain⟩ |
    ⟨a, l', rest, after, hrun, hplain, hlive', hmid⟩
  · refine Or.inl ⟨fault, ?_, C.bind_of_error hplain⟩
    rw [bind_apply]
    exact C.bind_of_error hfault
  · rw [bind_apply, C.bind_of_ok hrun, C.bind_of_ok hplain]
    exact hk a after hmid l' frame rest hlive'

theorem Tracks.mono (hm : Tracks before m f c Mid)
    (h : ∀ a after, Mid a after → Post a after) : Tracks before m f c Post := by
  intro l frame heap hlive
  rcases hm l frame heap hlive with hfault | ⟨a, l', final, after, hrun, hplain, hlive', hmid⟩
  · exact Or.inl hfault
  · exact Or.inr ⟨a, l', final, after, hrun, hplain, hlive', h a after hmid⟩

theorem Tracks.map (hm : Tracks before m f c Post) (h : β → γ) :
    Tracks before m (fun a => h (f a)) (h <$> c) Post := by
  intro l frame heap hlive
  rw [map_eq_pure_bind]
  rcases hm l frame heap hlive with ⟨fault, hfault, hplain⟩ |
    ⟨a, l', final, after, hrun, hplain, hlive', hpost⟩
  · exact Or.inl ⟨fault, hfault, C.bind_of_error hplain⟩
  · exact Or.inr ⟨a, l', final, after, hrun, C.bind_of_ok hplain, hlive', hpost⟩

theorem Tracks.frame (hm : Tracks before m f c Mid) (extra : Multiset Addr) :
    Tracks (before + extra) m f c fun a after => ∃ own, after = own + extra ∧ Mid a own := by
  intro l frame heap hlive
  rw [add_assoc] at hlive
  rcases hm l _ heap hlive with hfault | ⟨a, l', final, after, hrun, hplain, hlive', hmid⟩
  · exact Or.inl hfault
  · rw [← add_assoc] at hlive'
    exact Or.inr ⟨a, l', final, _, hrun, hplain, hlive', after, rfl, hmid⟩

theorem Tracks.step {rest : Multiset Addr} (hm : Tracks before m f c Mid)
    (hsplit : rest = before + extra)
    (hk : ∀ a after, Mid a after → Tracks (after + extra) (k a) g (d (f a)) End) :
    Tracks rest (m >>= k) g (c >>= d) End := by
  subst hsplit
  refine (hm.frame extra).bind ?_
  rintro a _ ⟨own, rfl, hmid⟩
  exact hk a own hmid

theorem Tracks.after {rest : Multiset Addr} (hm : Tracks 0 m f c Mid)
    (hk : ∀ a after, Mid a after → Tracks (after + rest) (k a) g (d (f a)) End) :
    Tracks rest (m >>= k) g (c >>= d) End :=
  hm.step (zero_add rest).symm hk

theorem Tracks.silent {rest : Multiset Addr} {k : α → Booked γ} {d : C δ}
    (hm : Tracks before m (fun _ => ()) (Pure.pure ()) Mid) (hsplit : rest = before + extra)
    (hk : ∀ a after, Mid a after → Tracks (after + extra) (k a) g d End) :
    Tracks rest (m >>= k) g d End := by
  have hbind : Tracks rest (m >>= k) g (Pure.pure () >>= fun _ => d) End := hm.step hsplit hk
  rwa [pure_bind] at hbind

theorem Tracks.fault (fault : Fault) :
    Tracks before (lift (C.fault fault)) f (C.fault fault) Post :=
  fun _ _ _ _ => Or.inl ⟨fault, rfl, rfl⟩

theorem Tracks.lift (c : C β) :
    Tracks before (lift c) id c fun b after =>
      after = before ∧ ∃ heap final, c heap = .ok (b, final) := by
  intro l frame heap hlive
  cases hrun : c heap with
  | error fault => exact Or.inl ⟨fault, C.bind_of_error hrun, rfl⟩
  | ok out =>
    exact Or.inr ⟨out.1, l, out.2, before, C.bind_of_ok hrun, rfl, hlive, rfl, heap, out.2, hrun⟩

theorem Tracks.lift_map (f : α → β) (c : C α) :
    Tracks before (Booked.lift c) f (f <$> c) fun a after =>
      after = before ∧ ∃ heap final, c heap = .ok (a, final) := by
  intro l frame heap hlive
  rw [map_eq_pure_bind]
  cases hrun : c heap with
  | error fault => exact Or.inl ⟨fault, C.bind_of_error hrun, C.bind_of_error hrun⟩
  | ok out =>
    exact Or.inr ⟨out.1, l, out.2, before, C.bind_of_ok hrun, C.bind_of_ok hrun, hlive, rfl, heap,
      out.2, hrun⟩

theorem Tracks.lift_bind {k : β → Booked γ}
    (hk : ∀ b heap final, c heap = .ok (b, final) → Tracks before (k b) g (d b) End) :
    Tracks before (Booked.lift c >>= k) g (c >>= d) End := by
  refine (Tracks.lift c).bind ?_
  rintro b _ ⟨rfl, heap, final, hrun⟩
  exact hk b heap final hrun

theorem Tracks.deref (f : α → β) (p : Option α) :
    Tracks before (Booked.lift (C.deref p)) f (C.deref (p.map f)) fun a after =>
      after = before ∧ p = some a := by
  cases p with
  | none => exact Tracks.fault .nullDereference
  | some a => exact Tracks.pure ⟨rfl, rfl⟩

theorem Tracks.ptr_deref (f : α → β) (p : Ptr α) :
    Tracks before (Booked.lift p.deref) f (p.map f).deref fun a after =>
      after = before ∧ p = .obj a := by
  cases p with
  | null => exact Tracks.fault .nullDereference
  | wild => exact Tracks.fault .wildDereference
  | obj a => exact Tracks.pure ⟨rfl, rfl⟩

theorem Tracks.malloc :
    Tracks 0 malloc Option.isSome C.allocate fun p after => after = blocks p := by
  intro l frame heap hlive
  rw [zero_add] at hlive
  refine Or.inr ?_
  have hplain := C.allocate_eq heap
  cases hgranted : heap.answer 0 with
  | true =>
    rw [hgranted] at hplain
    refine ⟨some l.next, l.add, _, {l.next}, ?_, hplain, ?_, rfl⟩
    · exact C.bind_of_ok hplain
    · show l.next ::ₘ l.live = {l.next} + frame
      rw [hlive, Multiset.singleton_add]
  | false =>
    rw [hgranted] at hplain
    exact ⟨none, l, _, 0, C.bind_of_ok hplain, hplain, hlive.trans (zero_add frame).symm, rfl⟩

theorem Tracks.mallocBytes (size : Nat) :
    Tracks 0 (mallocBytes size) (Option.map Prod.snd) (C.newBytes size)
      fun p after => after = blocks (p.map Prod.fst) := by
  intro l frame heap hlive
  rw [zero_add] at hlive
  refine Or.inr ?_
  obtain ⟨bytes, final, hplain, _⟩ := C.newBytes_total heap size
  cases bytes with
  | some bytes =>
    refine ⟨some (l.next, bytes), l.add, final, {l.next}, C.bind_of_ok hplain, hplain, ?_, rfl⟩
    show l.next ::ₘ l.live = {l.next} + frame
    rw [hlive, Multiset.singleton_add]
  | none =>
    exact ⟨none, l, final, 0, C.bind_of_ok hplain, hplain, hlive.trans (zero_add frame).symm, rfl⟩

theorem Tracks.obtain :
    Tracks 0 obtain (fun _ => ()) (Pure.pure ()) fun a after => after = {a} := by
  intro l frame heap hlive
  rw [zero_add] at hlive
  refine Or.inr ⟨l.next, l.add, heap, {l.next}, rfl, rfl, ?_, rfl⟩
  show l.next ::ₘ l.live = {l.next} + frame
  rw [hlive, Multiset.singleton_add]

theorem Tracks.release (a : Addr) :
    Tracks {a} (release a) (fun _ => ()) (Pure.pure ()) fun _ after => after = 0 := by
  intro l frame heap hlive
  have hmem : a ∈ l.live := by
    rw [hlive, Multiset.singleton_add]
    exact Multiset.mem_cons_self a frame
  refine Or.inr ⟨(), l.remove a, heap, 0, ?_, rfl, ?_, rfl⟩
  · unfold Booked.release
    rw [if_pos hmem]
    rfl
  · show l.live.erase a = 0 + frame
    rw [hlive, Multiset.singleton_add, Multiset.erase_cons_head, zero_add]

theorem Tracks.free (p : Option Addr) :
    Tracks (blocks p) (free p) (fun _ => ()) (Pure.pure ()) fun _ after => after = 0 := by
  cases p with
  | none => exact Tracks.pure rfl
  | some a => exact Tracks.release a

theorem Tracks.frees {rest : Multiset Addr} {m : Booked Unit} {k : Unit → Booked γ} {d : C δ}
    (hm : Tracks before m (fun _ => ()) (Pure.pure ()) fun _ after => after = 0)
    (hsplit : rest = before + extra) (hk : Tracks extra (k ()) g d End) :
    Tracks rest (m >>= k) g d End := by
  refine hm.silent hsplit ?_
  rintro _ _ rfl
  rwa [zero_add]

theorem Tracks.releases {rest : Multiset Addr} {a : Addr} {k : Unit → Booked γ} {d : C δ}
    (ha : a ∈ rest) (hk : Tracks (rest.erase a) (k ()) g d End) :
    Tracks rest (Booked.release a >>= k) g d End :=
  (Tracks.release a).frees (Multiset.cons_erase ha).symm hk

end Rules

/-! ### What a computation takes off the books

`Tracks` starts from blocks that are there. For a computation that only frees, the
converse holds as well: if it ends, then all that it frees was there.

What is freed first and what is freed then are different blocks, so the blocks of a
sequence are the sum of those of its parts; a fault is no end, whatever comes behind
it. -/

/-- The computation ends if and only if `Fine` holds and all of `held` are live, each
    of them once, and then these are off the books, and nothing else has happened. -/
def Frees (Fine : Prop) (held : Multiset Addr) (m : Booked α) (out : α) : Prop :=
  ∀ (l l' : Ledger) (heap final : Heap) (a : α), m l heap = .ok (some (a, l'), final) ↔
    Fine ∧ a = out ∧ final = heap ∧ l.live = held + l'.live ∧ l'.next = l.next

section FreeRules

variable {Fine Later : Prop} {held rest : Multiset Addr} {m : Booked α} {k : Booked β}
  {out : α} {last : β}

theorem Frees.of_iff {Fine' : Prop} {held' : Multiset Addr} (h : Frees Fine held m out)
    (hfine : Fine ↔ Fine') (hheld : Fine → held = held') : Frees Fine' held' m out := by
  intro l l' heap final a
  rw [h l l' heap final a, ← hfine]
  refine and_congr_right fun hholds => ?_
  rw [hheld hholds]

theorem Frees.pure (out : α) : Frees True 0 (pure out) out := by
  intro l l' heap final a
  rw [pure_apply]
  constructor
  · rintro ⟨⟩
    exact ⟨trivial, rfl, rfl, (zero_add _).symm, rfl⟩
  · rintro ⟨_, rfl, rfl, hlive, hnext⟩
    rw [Ledger.ext (hlive.trans (zero_add _)) hnext.symm]

theorem Frees.fault {d : α → Booked β} (fault : Fault) (hfine : ¬ Fine) :
    Frees Fine held (lift (C.fault fault) >>= d) last := by
  intro l l' heap final b
  constructor
  · rintro ⟨⟩
  · rintro ⟨hholds, _⟩
    exact absurd hholds hfine

theorem Frees.release (a : Addr) : Frees True {a} (release a) () := by
  intro l l' heap final u
  unfold Booked.release
  constructor
  · intro hrun
    by_cases hmem : a ∈ l.live
    · rw [if_pos hmem] at hrun
      cases hrun
      refine ⟨trivial, rfl, rfl, ?_, rfl⟩
      rw [Multiset.singleton_add]
      exact (Multiset.cons_erase hmem).symm
    · rw [if_neg hmem] at hrun
      cases hrun
  · rintro ⟨_, rfl, rfl, hlive, hnext⟩
    rw [Multiset.singleton_add] at hlive
    have hmem : a ∈ l.live := hlive ▸ Multiset.mem_cons_self a l'.live
    have hremoved : l.remove a = l' := by
      refine Ledger.ext ?_ hnext.symm
      show l.live.erase a = l'.live
      rw [hlive, Multiset.erase_cons_head]
    rw [if_pos hmem, hremoved]
    rfl

theorem Frees.free (p : Option Addr) : Frees True (blocks p) (free p) () := by
  cases p with
  | none => exact Frees.pure ()
  | some a => exact Frees.release a

theorem Frees.bind (hm : Frees Fine held m out) (hk : Frees Later rest k last) :
    Frees (Fine ∧ Later) (held + rest) (m >>= fun _ => k) last := by
  intro l l' heap final b
  constructor
  · intro hrun
    obtain ⟨a, between, heap₁, hfirst, hthen⟩ := bind_eq_some.mp hrun
    obtain ⟨hfine, rfl, rfl, hlive, hnext⟩ := (hm _ _ _ _ _).mp hfirst
    obtain ⟨hlater, rfl, rfl, hlive', hnext'⟩ := (hk _ _ _ _ _).mp hthen
    refine ⟨⟨hfine, hlater⟩, rfl, rfl, ?_, hnext'.trans hnext⟩
    rw [hlive, hlive', add_assoc]
  · rintro ⟨⟨hfine, hlater⟩, rfl, rfl, hlive, hnext⟩
    rw [add_assoc] at hlive
    have hpart : rest + l'.live ≤ l.live := hlive ▸ Multiset.le_add_left _ _
    refine bind_eq_some.mpr ⟨out, l.part hpart, final, ?_, ?_⟩
    · exact (hm _ _ _ _ _).mpr ⟨hfine, rfl, rfl, hlive, rfl⟩
    · exact (hk _ _ _ _ _).mpr ⟨hlater, rfl, rfl, rfl, hnext⟩

theorem Frees.ends (hm : Frees Fine held m out) {l : Ledger} (hfine : Fine)
    (hheld : held ≤ l.live) (heap : Heap) :
    ∃ l', m l heap = .ok (some (out, l'), heap) ∧ l.live = held + l'.live := by
  obtain ⟨live, hsplit⟩ := Multiset.le_iff_exists_add.mp hheld
  have hrest : live ≤ l.live := hsplit ▸ Multiset.le_add_left _ _
  exact ⟨l.part hrest, (hm _ _ _ _ _).mpr ⟨hfine, rfl, rfl, hsplit, rfl⟩, hsplit⟩

end FreeRules

end Booked

end CSem
