import Mathlib.Data.List.Basic

/-!
# Options set one call at a time

A record of options keeps a presence flag and a value for each of them, and
every setter raises the flag and replaces the value. After any sequence of calls
an option is what its setter was last given, or absent. This module names no
particular record: a call is any value, and an option is the way to read from a
call what it sets, if it sets this option at all.
-/

namespace OptionRecord

variable {σ α : Type}

/-- The value last given to an option by a sequence of calls. -/
def lastSet (select : σ → Option α) (calls : List σ) : Option α :=
  (calls.filterMap select).getLast?

theorem lastSet_concat (select : σ → Option α) (calls : List σ) (call : σ) :
    lastSet select (calls ++ [call]) = (select call).or (lastSet select calls) := by
  unfold lastSet
  rw [List.filterMap_append]
  cases h : select call with
  | none => simp [h]
  | some value => simp [h]

theorem lastSet_concat_of_some (select : σ → Option α) (calls : List σ) {call : σ} {value : α}
    (h : select call = some value) :
    lastSet select (calls ++ [call]) = some value := by
  rw [lastSet_concat, h, Option.some_or]

theorem lastSet_concat_of_none (select : σ → Option α) (calls : List σ) {call : σ}
    (h : select call = none) :
    lastSet select (calls ++ [call]) = lastSet select calls := by
  rw [lastSet_concat, h, Option.none_or]

/-- A flag and a value on their way out say what was last set: absent when it
    never was. -/
def Carries (has : Bool) (value : α) (last : Option α) : Prop :=
  has = last.isSome ∧ ∀ x, last = some x → value = x

instance [DecidableEq α] (has : Bool) (value : α) : (last : Option α) →
    Decidable (Carries has value last)
  | none => decidable_of_iff (has = false) (by simp [Carries])
  | some x => decidable_of_iff (has = true ∧ value = x) (by simp [Carries])

theorem carries_getD (last : Option α) (default : α) :
    Carries last.isSome (last.getD default) last := by
  refine ⟨rfl, ?_⟩
  intro x hx
  rw [hx, Option.getD_some]

/-- A value that is always sent as `default` is right only where that is what
    was set. -/
theorem carries_default_iff {last : Option α} {default : α} :
    Carries last.isSome default last ↔ last = none ∨ last = some default := by
  cases last with
  | none => simp [Carries]
  | some x =>
    simp only [Carries, Option.isSome_some, Option.some.injEq, true_and, reduceCtorEq, false_or,
      forall_eq']
    exact eq_comm

theorem carries_absent_iff {last : Option α} {value : α} :
    Carries false value last ↔ last = none := by
  cases last with
  | none => simp [Carries]
  | some x => simp [Carries]

end OptionRecord
