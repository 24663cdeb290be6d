import Mathlib.Data.List.Basic

/-!
# Runs of a labelled transition system

The runs of a step relation, with the labels of their steps in order. An
invariant may look at the labels so far, so that what a run has done and where
it stands are carried along together.

`Run.invariant` is the one induction: a relation between the labels and the state that
holds at the start and is kept by every step holds after every run. Runs are composed
with `Run.append`, and a step is a run by `Run.single`.
-/

namespace LabelledRun

variable {S L : Type}

/-- The runs from `start`. -/
inductive Run (step : S → L → S → Prop) (start : S) : List L → S → Prop
  | refl : Run step start [] start
  | snoc {labels : List L} {s s' : S} {l : L} (before : Run step start labels s)
      (last : step s l s') : Run step start (labels ++ [l]) s'

variable {step : S → L → S → Prop} {start s s' : S} {labels later : List L}

theorem Run.invariant (Inv : List L → S → Prop) (hstart : Inv [] start)
    (hstep : ∀ labels s l s', Inv labels s → step s l s' → Inv (labels ++ [l]) s')
    (h : Run step start labels s) : Inv labels s := by
  induction h with
  | refl => exact hstart
  | snoc before last ih => exact hstep _ _ _ _ ih last

theorem Run.append (h : Run step start labels s) (h' : Run step s later s') :
    Run step start (labels ++ later) s' := by
  induction h' with
  | refl =>
    rw [List.append_nil]
    exact h
  | snoc before last ih =>
    rw [← List.append_assoc]
    exact ih.snoc last

theorem Run.single {l : L} (h : step s l s') : Run step s [l] s' := by
  have hrun : Run step s ([] ++ [l]) s' := Run.refl.snoc h
  exact hrun

/-! ### The states on the way

What a step does may depend on something outside the system, a call that it makes for
example. A property of every state that a run comes through says what is asked of the
outside, for this run and no other one; an induction over the run may use it before
each step. -/

/-- What holds in every state that a run comes through, its last one included. -/
def Throughout (step : S → L → S → Prop) (start : S) (labels : List L) (P : S → Prop) : Prop :=
  ∀ before s, before <+: labels → Run step start before s → P s

theorem Throughout.last {P : S → Prop} (h : Throughout step start labels P)
    (hrun : Run step start labels s) : P s :=
  h labels s (List.prefix_refl labels) hrun

theorem Throughout.of_append {P : S → Prop} (h : Throughout step start (labels ++ later) P) :
    Throughout step start labels P :=
  fun before s hbefore hrun => h before s (hbefore.trans (List.prefix_append labels later)) hrun

theorem Run.invariant_throughout {P : S → Prop} (Inv : List L → S → Prop)
    (hP : Throughout step start labels P) (hstart : Inv [] start)
    (hstep : ∀ labels s l s', P s → Inv labels s → step s l s' → Inv (labels ++ [l]) s')
    (h : Run step start labels s) : Inv labels s := by
  induction h with
  | refl => exact hstart
  | snoc before last ih => exact hstep _ _ _ _ (hP.of_append.last before) (ih hP.of_append) last

/-! ### Properties of histories

A history is read from either end: from its first label on (`along_cons`) where an
induction follows a list of messages, up to its last one (`along_snoc`) where it
follows a run. -/

/-- Every label of a history is right, going by the labels before it. -/
def Along (P : List L → L → Prop) (labels : List L) : Prop :=
  ∀ before l after, labels = before ++ l :: after → P before l

variable {P Q : List L → L → Prop}

theorem along_nil : Along P [] := by
  intro before l after h
  cases before with
  | nil => cases h
  | cons _ _ => cases h

theorem along_cons {l : L} : Along P (l :: labels) ↔
    P [] l ∧ Along (fun before => P (l :: before)) labels := by
  constructor
  · intro h
    refine ⟨h [] l labels rfl, ?_⟩
    intro before l' after hsplit
    exact h (l :: before) l' after (by rw [hsplit]; rfl)
  · rintro ⟨hfirst, hlater⟩ before l' after hsplit
    cases before with
    | nil =>
      cases hsplit
      exact hfirst
    | cons first before =>
      obtain ⟨rfl, hrest⟩ := List.cons.inj hsplit
      exact hlater before l' after hrest

theorem Along.of_append (h : Along P (labels ++ later)) : Along P labels := by
  intro before l after hsplit
  exact h before l (after ++ later) (by rw [hsplit, List.append_assoc]; rfl)

theorem along_snoc {l : L} : Along P (labels ++ [l]) ↔ Along P labels ∧ P labels l := by
  constructor
  · intro h
    refine ⟨?_, h labels l [] rfl⟩
    intro before l' after hsplit
    exact h before l' (after ++ [l]) (by rw [hsplit, List.append_assoc]; rfl)
  · rintro ⟨hearlier, hlast⟩ before l' after hsplit
    rcases List.eq_nil_or_concat after with rfl | ⟨after, x, rfl⟩
    · obtain ⟨rfl, heq⟩ := List.append_inj' hsplit rfl
      cases heq
      exact hlast
    · rw [List.concat_eq_append] at hsplit
      have hsplit' : labels ++ [l] = (before ++ l' :: after) ++ [x] := by
        rw [hsplit, List.append_assoc]
        rfl
      exact hearlier before l' after (List.append_inj' hsplit' rfl).1

end LabelledRun
