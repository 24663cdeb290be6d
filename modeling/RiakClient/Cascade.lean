import Mathlib.Data.List.Forall2
import RiakClient.Computation

/-!
# Cascades of comparisons

Two values are compared part by part, and the first difference ends the
comparison: `if (result) return result;`. A part may be one that cannot be looked
at, which does no harm behind a difference. A verdict says of a comparison when
it is defined and when it finds no difference, and the verdicts of the parts make
that of the whole.

Nothing in this module depends on a particular program.
-/

namespace CSem

variable {σ α : Type}

/-- A comparison that may keep a log. Its result is 0 if it finds no difference. -/
def Comparison (σ : Type) : Type := σ → C (Int × σ)

namespace Comparison

/-- Nothing to compare. -/
def same : Comparison σ := fun s => pure (0, s)

/-- `if (result) return result;` between two comparisons. -/
def andThen (p q : Comparison σ) : Comparison σ := fun s => do
  let (result, s) ← p s
  if result ≠ 0 then pure (result, s) else q s

/-- One comparison after another. -/
def cascade : List (Comparison σ) → Comparison σ
  | [] => same
  | p :: ps => p.andThen (cascade ps)

/-- A comparison behind a condition. -/
def when (has : Bool) (p : Comparison σ) : Comparison σ := if has then p else same

/-- Follow a pointer first. -/
def reading (pointer : C α) (p : α → Comparison σ) : Comparison σ := fun s => do
  p (← pointer) s

/-- The body of a loop for each index. -/
def loop (n : Nat) (body : Nat → Comparison σ) : Comparison σ :=
  cascade ((List.range n).map body)

variable {p q : Comparison σ} {s s' : σ} {heap rest : Heap} {result : Int}

theorem andThen_of_same (h : p s heap = .ok ((0, s'), rest)) : p.andThen q s heap = q s' rest := by
  unfold andThen
  rw [C.bind_of_ok h]
  rfl

theorem andThen_of_differs (h : p s heap = .ok ((result, s'), rest)) (hdiffers : result ≠ 0) :
    p.andThen q s heap = .ok ((result, s'), rest) := by
  unfold andThen
  rw [C.bind_of_ok h]
  show (if result ≠ 0 then pure (result, s') else q s') rest = _
  rw [if_pos hdiffers, C.pure_apply]

end Comparison

/-! ### Verdicts

A verdict is a condition on when the comparison is defined and one on when its result
is 0. What comes second matters only behind parts that are the same; the rules below
give the verdict of each way to put comparisons together, a loop included, whose
bodies may each have their own. -/

/-- When a comparison is defined, and when it finds no difference. -/
structure Verdict where
  defined : Prop
  same : Prop

namespace Verdict

/-- What comes second matters only behind parts that are the same. -/
def andThen (v w : Verdict) : Verdict where
  defined := v.defined ∧ (v.same → w.defined)
  same := v.same ∧ w.same

def all : List Verdict → Verdict
  | [] => ⟨True, True⟩
  | v :: vs => v.andThen (all vs)

def when (has : Bool) (v : Verdict) : Verdict where
  defined := has = true → v.defined
  same := has = true → v.same

theorem all_same {vs : List Verdict} : (all vs).same ↔ ∀ v ∈ vs, v.same := by
  induction vs with
  | nil => simp [all]
  | cons v vs ih =>
    rw [List.forall_mem_cons, ← ih]
    rfl

theorem all_defined {vs : List Verdict} (h : ∀ v ∈ vs, v.defined) : (all vs).defined := by
  induction vs with
  | nil => trivial
  | cons v vs ih =>
    obtain ⟨hfirst, hlater⟩ := List.forall_mem_cons.mp h
    exact ⟨hfirst, fun _ => ih hlater⟩

end Verdict

/-- A verdict that is right where the log stays as it is. -/
structure Decides (s : σ) (p : Comparison σ) (v : Verdict) : Prop where
  returns : v.defined → ∀ heap, ∃ result, p s heap = .ok ((result, s), heap) ∧
    (result = 0 ↔ v.same)
  faults : ¬ v.defined → ∀ heap, ∃ fault, p s heap = .error fault

namespace Decides

variable {s : σ} {p q : Comparison σ} {v w : Verdict}

theorem congr (h : Decides s p v) (hdefined : v.defined ↔ w.defined)
    (hsame : v.defined → (v.same ↔ w.same)) : Decides s p w where
  returns hw heap := by
    obtain ⟨result, hrun, hzero⟩ := h.returns (hdefined.mpr hw) heap
    exact ⟨result, hrun, hzero.trans (hsame (hdefined.mpr hw))⟩
  faults hw heap := h.faults (mt hdefined.mp hw) heap

theorem same : Decides s Comparison.same ⟨True, True⟩ where
  returns _ _ := ⟨0, rfl, iff_of_true rfl trivial⟩
  faults h := absurd trivial h

theorem andThen (hp : Decides s p v) (hq : v.same → Decides s q w) :
    Decides s (p.andThen q) (v.andThen w) where
  returns := by
    rintro ⟨hfirst, hlater⟩ heap
    obtain ⟨result, hrun, hzero⟩ := hp.returns hfirst heap
    by_cases hsame : v.same
    · obtain ⟨result', hrun', hzero'⟩ := (hq hsame).returns (hlater hsame) heap
      rw [hzero.mpr hsame] at hrun
      refine ⟨result', ?_, ?_⟩
      · rw [Comparison.andThen_of_same hrun]
        exact hrun'
      · rw [hzero']
        exact (and_iff_right hsame).symm
    · have hdiffers : result ≠ 0 := mt hzero.mp hsame
      exact ⟨result, Comparison.andThen_of_differs hrun hdiffers,
        iff_of_false hdiffers fun hboth => hsame hboth.1⟩
  faults := by
    intro hundefined heap
    by_cases hfirst : v.defined
    · obtain ⟨result, hrun, hzero⟩ := hp.returns hfirst heap
      have hsame : v.same := by
        by_contra hdiffers
        exact hundefined ⟨hfirst, fun hsame => absurd hsame hdiffers⟩
      obtain ⟨fault, hfault⟩ := (hq hsame).faults (fun hlater => hundefined ⟨hfirst, fun _ => hlater⟩)
        heap
      rw [hzero.mpr hsame] at hrun
      refine ⟨fault, ?_⟩
      rw [Comparison.andThen_of_same hrun]
      exact hfault
    · obtain ⟨fault, hfault⟩ := hp.faults hfirst heap
      exact ⟨fault, C.bind_of_error hfault⟩

theorem cascade {ps : List (Comparison σ)} {vs : List Verdict}
    (h : List.Forall₂ (Decides s) ps vs) :
    Decides s (Comparison.cascade ps) (Verdict.all vs) := by
  induction h with
  | nil => exact same
  | cons hfirst _ ih => exact hfirst.andThen fun _ => ih

theorem when (has : Bool) (hp : has = true → Decides s p v) :
    Decides s (Comparison.when has p) (Verdict.when has v) := by
  cases has with
  | false =>
    refine ⟨fun _ _ => ⟨0, rfl, iff_of_true rfl nofun⟩, fun h => absurd nofun h⟩
  | true =>
    obtain ⟨hreturns, hfaults⟩ := hp rfl
    refine ⟨fun hdefined heap => ?_, fun h heap => hfaults (fun hv => h fun _ => hv) heap⟩
    obtain ⟨result, hrun, hzero⟩ := hreturns (hdefined rfl) heap
    exact ⟨result, hrun, hzero.trans ⟨fun hsame _ => hsame, fun hsame => hsame rfl⟩⟩

theorem reading {pointer : C α} {p : α → Comparison σ} {a : α} (hpointer : pointer = pure a)
    (hp : Decides s (p a) v) : Decides s (Comparison.reading pointer p) v := by
  have hread : Comparison.reading pointer p = p a := by
    funext s
    unfold Comparison.reading
    rw [hpointer, pure_bind]
  rw [hread]
  exact hp

theorem loop {n : Nat} {body : Nat → Comparison σ} {v : Nat → Verdict}
    (h : ∀ i < n, Decides s (body i) (v i)) :
    Decides s (Comparison.loop n body) (Verdict.all ((List.range n).map v)) := by
  apply cascade
  rw [List.forall₂_map_left_iff, List.forall₂_map_right_iff, List.forall₂_same]
  intro i hi
  exact h i (List.mem_range.mp hi)

end Decides

end CSem
