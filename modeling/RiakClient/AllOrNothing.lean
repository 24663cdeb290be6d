import RiakClient.Computation

/-!
# All or nothing

A computation that succeeds only if every one of its requests is granted: how
many requests that are, and what it then comes to. The rules follow the monad,
so that the requests of a function are added up along its text. `Settles` is the
same with the promise that there is no fault, and `Attempt` says on which heaps
there is one.

Nothing in this module depends on a particular program.

The number of requests belongs to the statement: `bind` adds up the requests of both
parts, if no failure of the first is turned into a success, and `ask` puts one more in
front. Behind something that may be NULL the rule is `bind_some`, for what follows may
not take NULL for a success.
-/

namespace CSem

variable {α β : Type} {heap final : Heap}

/-- `m` comes to `a` if its `n` requests are granted. Otherwise it faults, or what
    it comes to is no success. -/
structure AllOrNothing (Success : α → Prop) (m : C α) (n : Nat) (a : α) : Prop where
  granted : ∀ heap : Heap, heap.Grants n → m heap = .ok (a, heap.after n)
  refused : ∀ (heap : Heap) {b : α} {final : Heap}, ¬ heap.Grants n →
    m heap = .ok (b, final) → ¬ Success b

namespace AllOrNothing

variable {Success : α → Prop} {Success' : β → Prop} {m : C α} {f : α → C β} {n k : Nat} {a : α}
  {b : β}

theorem pure (a : α) : AllOrNothing Success (Pure.pure a) 0 a where
  granted heap _ := by rw [C.pure_apply, Heap.after_zero]
  refused heap _ _ h := absurd heap.grants_zero h

theorem allocate : AllOrNothing (· = true) C.allocate 1 true where
  granted heap h := by rw [C.allocate_eq, h 0 Nat.one_pos]
  refused heap b final h hrun := by
    rw [C.allocate_eq] at hrun
    cases hrun
    intro hgranted
    exact h ((heap.grants_succ 0).mpr ⟨hgranted, Heap.grants_zero _⟩)

theorem new (a : α) : AllOrNothing (fun slot => slot.isSome = true) (C.new a) 1 (some a) where
  granted heap h := by rw [C.new_eq, if_pos (h 0 Nat.one_pos)]
  refused heap slot final h hrun := by
    rw [C.new_eq] at hrun
    cases hanswer : heap.answer 0 with
    | false =>
      rw [hanswer] at hrun
      cases hrun
      exact nofun
    | true => exact absurd ((heap.grants_succ 0).mpr ⟨hanswer, Heap.grants_zero _⟩) h

theorem bind (hm : AllOrNothing Success m n a) (hf : AllOrNothing Success' (f a) k b)
    (hfails : ∀ x heap y final, ¬ Success x → f x heap = .ok (y, final) → ¬ Success' y) :
    AllOrNothing Success' (m >>= f) (n + k) b where
  granted heap h := by
    obtain ⟨hfirst, hlater⟩ := (heap.grants_add n k).mp h
    rw [C.bind_of_ok (hm.granted heap hfirst), hf.granted _ hlater, Heap.after_after]
  refused heap y final h hrun := by
    obtain ⟨x, heap₁, hfirst, hlater⟩ := C.bind_eq_ok.mp hrun
    by_cases hgrants : heap.Grants n
    · rw [hm.granted heap hgrants] at hfirst
      cases hfirst
      exact hf.refused _ (fun hk => h ((heap.grants_add n k).mpr ⟨hgrants, hk⟩)) hlater
    · exact hfails x heap₁ y final (hm.refused heap hgrants hfirst) hlater

theorem ask {f : Bool → C β} (hf : AllOrNothing Success' (f true) k b)
    (hrefused : ∀ heap y final, f false heap = .ok (y, final) → ¬ Success' y) :
    AllOrNothing Success' (C.allocate >>= f) (1 + k) b := by
  apply allocate.bind hf
  intro granted heap y final hfalse hrun
  rw [Bool.eq_false_iff.mpr hfalse] at hrun
  exact hrefused heap y final hrun

theorem bind_some {m : C (Option α)} {f : Option α → C β}
    (hm : AllOrNothing (fun slot => slot.isSome = true) m n (some a))
    (hf : AllOrNothing Success' (f (some a)) k b)
    (hnull : ∀ heap y final, f none heap = .ok (y, final) → ¬ Success' y) :
    AllOrNothing Success' (m >>= f) (n + k) b := by
  apply hm.bind hf
  rintro (_ | x) heap y final hnone hrun
  · exact hnull heap y final hrun
  · exact absurd rfl hnone

/-- A success got every request. -/
theorem of_success (hm : AllOrNothing Success m n a) {x : α} (hrun : m heap = .ok (x, final))
    (hx : Success x) : heap.Grants n := by
  by_contra h
  exact hm.refused heap h hrun hx

end AllOrNothing

/-! ### Without a fault -/

/-- `m` comes to `a` if its `n` requests are granted. Otherwise it comes to something
    that is no success. -/
structure Settles (Success : α → Prop) (m : C α) (n : Nat) (a : α) : Prop where
  granted : ∀ heap : Heap, heap.Grants n → m heap = .ok (a, heap.after n)
  refused : ∀ heap : Heap, ¬ heap.Grants n → ∃ b final, m heap = .ok (b, final) ∧ ¬ Success b

namespace Settles

variable {Success : α → Prop} {Success' : β → Prop} {m : C α} {f : α → C β} {n k : Nat} {a : α}
  {b : β}

theorem pure (a : α) : Settles Success (Pure.pure a) 0 a where
  granted heap _ := by rw [C.pure_apply, Heap.after_zero]
  refused heap h := absurd heap.grants_zero h

theorem allocate : Settles (· = true) C.allocate 1 true where
  granted heap h := by rw [C.allocate_eq, h 0 Nat.one_pos]
  refused heap h := by
    refine ⟨_, _, C.allocate_eq heap, fun hgranted => ?_⟩
    exact h ((heap.grants_succ 0).mpr ⟨hgranted, Heap.grants_zero _⟩)

theorem new (a : α) : Settles (fun slot => slot.isSome = true) (C.new a) 1 (some a) where
  granted heap h := by rw [C.new_eq, if_pos (h 0 Nat.one_pos)]
  refused heap h := by
    refine ⟨_, _, C.new_eq heap a, ?_⟩
    cases hanswer : heap.answer 0 with
    | false => exact Bool.false_ne_true
    | true => exact absurd ((heap.grants_succ 0).mpr ⟨hanswer, Heap.grants_zero _⟩) h

theorem bind (hm : Settles Success m n a) (hf : Settles Success' (f a) k b)
    (hfails : ∀ x heap, ¬ Success x → ∃ y final, f x heap = .ok (y, final) ∧ ¬ Success' y) :
    Settles Success' (m >>= f) (n + k) b where
  granted heap h := by
    obtain ⟨hfirst, hlater⟩ := (heap.grants_add n k).mp h
    rw [C.bind_of_ok (hm.granted heap hfirst), hf.granted _ hlater, Heap.after_after]
  refused heap h := by
    by_cases hgrants : heap.Grants n
    · rw [C.bind_of_ok (hm.granted heap hgrants)]
      exact hf.refused _ fun hk => h ((heap.grants_add n k).mpr ⟨hgrants, hk⟩)
    · obtain ⟨x, heap₁, hfirst, hfailed⟩ := hm.refused heap hgrants
      rw [C.bind_of_ok hfirst]
      exact hfails x heap₁ hfailed

theorem ask {f : Bool → C β} (hf : Settles Success' (f true) k b)
    (hrefused : ∀ heap, ∃ y final, f false heap = .ok (y, final) ∧ ¬ Success' y) :
    Settles Success' (C.allocate >>= f) (1 + k) b := by
  apply allocate.bind hf
  intro granted heap hfalse
  rw [Bool.eq_false_iff.mpr hfalse]
  exact hrefused heap

theorem bind_some {m : C (Option α)} {f : Option α → C β}
    (hm : Settles (fun slot => slot.isSome = true) m n (some a))
    (hf : Settles Success' (f (some a)) k b)
    (hnull : ∀ heap, ∃ y final, f none heap = .ok (y, final) ∧ ¬ Success' y) :
    Settles Success' (m >>= f) (n + k) b := by
  apply hm.bind hf
  rintro (_ | x) heap hnone
  · exact hnull heap
  · exact absurd rfl hnone

end Settles

/-! ### With a fault somewhere

What is broken behind something that settles is broken once that is done, on the heap
that it leaves; something that always comes back may stand in front. -/

/-- The same, but for the heaps on which `m` is `Broken`: there it faults. -/
structure Attempt (Success : α → Prop) (m : C α) (n : Nat) (a : α) (Broken : Heap → Prop) :
    Prop where
  granted : ∀ heap : Heap, heap.Grants n → m heap = .ok (a, heap.after n)
  broken : ∀ heap : Heap, Broken heap → ∃ fault, m heap = .error fault
  refused : ∀ heap : Heap, ¬ heap.Grants n → ¬ Broken heap →
    ∃ b final, m heap = .ok (b, final) ∧ ¬ Success b

namespace Attempt

variable {Success : α → Prop} {Success' : β → Prop} {m : C α} {f : α → C β} {n k : Nat} {a : α}
  {b : β} {Broken Broken' : Heap → Prop}

theorem behind (hm : Settles Success m n a) (hf : Attempt Success' (f a) k b Broken)
    (hfails : ∀ x heap, ¬ Success x → ∃ y final, f x heap = .ok (y, final) ∧ ¬ Success' y) :
    Attempt Success' (m >>= f) (n + k) b
      fun heap => heap.Grants n ∧ Broken (heap.after n) where
  granted heap h := by
    obtain ⟨hfirst, hlater⟩ := (heap.grants_add n k).mp h
    rw [C.bind_of_ok (hm.granted heap hfirst), hf.granted _ hlater, Heap.after_after]
  broken heap h := by
    rw [C.bind_of_ok (hm.granted heap h.1)]
    exact hf.broken _ h.2
  refused heap h hwhole := by
    by_cases hgrants : heap.Grants n
    · rw [C.bind_of_ok (hm.granted heap hgrants)]
      exact hf.refused _ (fun hk => h ((heap.grants_add n k).mpr ⟨hgrants, hk⟩))
        fun hbroken => hwhole ⟨hgrants, hbroken⟩
    · obtain ⟨x, heap₁, hfirst, hfailed⟩ := hm.refused heap hgrants
      rw [C.bind_of_ok hfirst]
      exact hfails x heap₁ hfailed

theorem behind_some {m : C (Option α)} {f : Option α → C β}
    (hm : Settles (fun slot => slot.isSome = true) m n (some a))
    (hf : Attempt Success' (f (some a)) k b Broken)
    (hnull : ∀ heap, ∃ y final, f none heap = .ok (y, final) ∧ ¬ Success' y) :
    Attempt Success' (m >>= f) (n + k) b
      fun heap => heap.Grants n ∧ Broken (heap.after n) := by
  apply behind hm hf
  rintro (_ | x) heap hnone
  · exact hnull heap
  · exact absurd rfl hnone

theorem before (hm : Attempt Success m n a Broken)
    (hf : ∀ x heap, ∃ y, f x heap = .ok (y, heap) ∧ (Success' y → Success x))
    (hlast : f a = Pure.pure b) : Attempt Success' (m >>= f) n b Broken where
  granted heap h := by
    rw [C.bind_of_ok (hm.granted heap h), hlast, C.pure_apply]
  broken heap h := by
    obtain ⟨fault, hfault⟩ := hm.broken heap h
    exact ⟨fault, C.bind_of_error hfault⟩
  refused heap h hwhole := by
    obtain ⟨x, final, hfirst, hfailed⟩ := hm.refused heap h hwhole
    obtain ⟨y, hsecond, hsuccess⟩ := hf x final
    rw [C.bind_of_ok hfirst]
    exact ⟨y, final, hsecond, fun hy => hfailed (hsuccess hy)⟩

theorem congr (hm : Attempt Success m n a Broken) (h : ∀ heap, Broken heap ↔ Broken' heap) :
    Attempt Success m n a Broken' where
  granted := hm.granted
  broken heap hbroken := hm.broken heap ((h heap).mpr hbroken)
  refused heap hgrants hwhole := hm.refused heap hgrants fun hbroken => hwhole ((h heap).mp hbroken)

end Attempt

end CSem
