import Mathlib.Tactic.Common

/-!
# Members with a presence flag

A struct with optional members keeps a flag and a pointer for each of them, and
readers that look at the flag alone rely on the pointer. There are two ways to
write such a member when the data may turn out to be missing: raise the flag
first and store whatever there is, or store it and raise the flag only for data.
Neither is safe in all cases, and the exact cases are properties of the layout
alone, whatever the members are.
-/

namespace FlaggedMembers

/-- The members of a struct, each with its flag; they do not overlap. -/
structure Layout (σ ι α : Type) where
  get : ι → σ → Bool × Option α
  put : ι → σ → Bool × Option α → σ
  get_put : ∀ i s x, get i (put i s x) = x
  get_put_ne : ∀ i j s x, j ≠ i → get j (put i s x) = get j s

/-- When the flag is raised: before the data is there, or after a check. -/
inductive Order where
  | flagFirst
  | flagLast
deriving DecidableEq, Repr

namespace Layout

variable {σ ι α : Type} (L : Layout σ ι α)

/-- Every flag that is raised goes with data. -/
def Present (s : σ) : Prop := ∀ i, (L.get i s).1 = true → (L.get i s).2.isSome = true

/-- Store data that may be missing. -/
def write (order : Order) (i : ι) (s : σ) (data : Option α) : σ :=
  match order, data with
  | .flagFirst, data => L.put i s (true, data)
  | .flagLast, none => L.put i s ((L.get i s).1, none)
  | .flagLast, some a => L.put i s (true, some a)

variable {L} {s s' : σ} {order : Order} {i : ι} {data : Option α}

theorem get_write_ne {j : ι} (hne : j ≠ i) : L.get j (L.write order i s data) = L.get j s := by
  unfold write
  cases order with
  | flagFirst => exact L.get_put_ne i j s _ hne
  | flagLast =>
    cases data with
    | none => exact L.get_put_ne i j s _ hne
    | some a => exact L.get_put_ne i j s _ hne

theorem Present.of_same (h : L.Present s) (hsame : ∀ i, L.get i s' = L.get i s) :
    L.Present s' := by
  intro i hflag
  rw [hsame] at hflag ⊢
  exact h i hflag

/-- **When a write is safe**: there is data, or the flag is raised last and was
    not up before. -/
theorem present_write_iff (h : L.Present s) :
    L.Present (L.write order i s data) ↔
      data.isSome = true ∨ order = .flagLast ∧ (L.get i s).1 = false := by
  have hothers : ∀ j, j ≠ i → (L.get j (L.write order i s data)).1 = true →
      (L.get j (L.write order i s data)).2.isSome = true := by
    intro j hne hflag
    rw [get_write_ne hne] at hflag ⊢
    exact h j hflag
  constructor
  · intro hpresent
    have hmember := hpresent i
    unfold write at hmember
    cases order with
    | flagFirst =>
      simp only [L.get_put, forall_const] at hmember
      exact Or.inl hmember
    | flagLast =>
      cases data with
      | some a => exact Or.inl rfl
      | none =>
        simp only [L.get_put, Option.isSome_none, Bool.false_eq_true, imp_false,
          Bool.not_eq_true] at hmember
        exact Or.inr ⟨rfl, hmember⟩
  · intro hsafe j hflag
    by_cases hj : j = i
    · subst hj
      unfold write at hflag ⊢
      rcases hsafe with hdata | ⟨rfl, hdown⟩
      · obtain ⟨a, rfl⟩ := Option.isSome_iff_exists.mp hdata
        cases order with
        | flagFirst => rw [L.get_put]; rfl
        | flagLast => simp only [L.get_put, Option.isSome_some]
      · cases data with
        | none =>
          simp only [L.get_put, hdown, Bool.false_eq_true] at hflag
        | some a => simp only [L.get_put, Option.isSome_some]
    · exact hothers j hj hflag

end Layout

end FlaggedMembers
