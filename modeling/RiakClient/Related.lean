import RiakClient.Computation

/-!
# Two runs

A relation between two computations: on every heap they fault alike, or return
related results and leave the same heap. It is built up along the sequence of
their parts, so that two runs of one program from different states are compared
without looking into what the runs have in common.

What comes first in both may be one computation (`bind_same`), and any computation is
related to itself.
-/

namespace CSem

namespace C

variable {α β γ δ : Type}

/-- Related ends of two runs. -/
inductive Ends (R : α → β → Prop) : Except Fault (α × Heap) → Except Fault (β × Heap) → Prop
  | fault (f : Fault) : Ends R (.error f) (.error f)
  | returned {a : α} {b : β} (heap : Heap) (h : R a b) : Ends R (.ok (a, heap)) (.ok (b, heap))

/-- Computations whose runs from any one heap end related. -/
def Related (R : α → β → Prop) (m : C α) (m' : C β) : Prop := ∀ heap, Ends R (m heap) (m' heap)

variable {R : α → β → Prop}

theorem Related.pure {a : α} {b : β} (h : R a b) :
    Related R (Pure.pure a : C α) (Pure.pure b : C β) :=
  fun heap => .returned heap h

theorem Related.fault (f : Fault) : Related R (C.fault f : C α) (C.fault f : C β) :=
  fun _ => .fault f

theorem Related.same (m : C α) : Related Eq m m := by
  intro heap
  cases m heap with
  | error f => exact .fault f
  | ok out => exact .returned out.2 rfl

theorem Related.bind {Q : γ → δ → Prop} {m : C α} {m' : C β} {f : α → C γ} {f' : β → C δ}
    (h : Related R m m') (hf : ∀ a b, R a b → Related Q (f a) (f' b)) :
    Related Q (m >>= f) (m' >>= f') := by
  intro heap
  have hends := h heap
  rw [bind_apply, bind_apply]
  generalize m heap = left at hends
  generalize m' heap = right at hends
  cases hends with
  | fault f => exact .fault f
  | returned rest hab => exact hf _ _ hab rest

theorem Related.bind_same {Q : γ → δ → Prop} (m : C α) {f : α → C γ} {f' : α → C δ}
    (hf : ∀ a, Related Q (f a) (f' a)) : Related Q (m >>= f) (m >>= f') := by
  apply (Related.same m).bind
  rintro a b rfl
  exact hf a

end C

end CSem
