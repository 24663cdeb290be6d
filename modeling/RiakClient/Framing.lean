import Mathlib.Algebra.Group.Int.Defs
import Mathlib.Algebra.Group.Nat.Defs
import Mathlib.Tactic.Common

/-!
# Frames

A stream of bodies, each behind its length in four bytes, the highest first. The
first part is the byte order; the second is a reader of such a stream that can be
suspended anywhere, as a transition system: it stands between two frames, or it
has got some bytes of a body and misses the rest. Whatever pieces the stream
comes in, the reader delivers the bodies once each and in order, which is a
property of its steps and needs no code.
-/

namespace Framing

/-! ### Byte order -/

/-- The lowest `width` bytes of a number, lowest first. -/
def littleEndian : Nat → Nat → List UInt8
  | 0, _ => []
  | width + 1, n => UInt8.ofNat n :: littleEndian width (n / 256)

def leValue : List UInt8 → Nat
  | [] => 0
  | b :: bytes => b.toNat + 256 * leValue bytes

/-- The same bytes, highest first. -/
def bigEndian (width n : Nat) : List UInt8 := (littleEndian width n).reverse

def beValue (bytes : List UInt8) : Nat := leValue bytes.reverse

@[simp] theorem littleEndian_length (width n : Nat) : (littleEndian width n).length = width := by
  induction width generalizing n with
  | zero => rfl
  | succ width ih => rw [littleEndian, List.length_cons, ih]

@[simp] theorem bigEndian_length (width n : Nat) : (bigEndian width n).length = width := by
  unfold bigEndian
  rw [List.length_reverse, littleEndian_length]

theorem leValue_littleEndian {width n : Nat} (h : n < 256 ^ width) :
    leValue (littleEndian width n) = n := by
  induction width generalizing n with
  | zero =>
    have hzero : n = 0 := by simpa using h
    rw [hzero]
    rfl
  | succ width ih =>
    have hrest : n / 256 < 256 ^ width := by
      rw [Nat.div_lt_iff_lt_mul (by decide)]
      rwa [Nat.pow_succ] at h
    have hlow : (UInt8.ofNat n).toNat = n % 256 := UInt8.toNat_ofNat'
    rw [littleEndian, leValue, ih hrest, hlow]
    omega

theorem beValue_bigEndian {width n : Nat} (h : n < 256 ^ width) :
    beValue (bigEndian width n) = n := by
  unfold beValue bigEndian
  rw [List.reverse_reverse, leValue_littleEndian h]

theorem leValue_lt (bytes : List UInt8) : leValue bytes < 256 ^ bytes.length := by
  induction bytes with
  | nil => exact Nat.one_pos
  | cons b bytes ih =>
    have hb : b.toNat < 256 := b.toNat_lt
    rw [leValue, List.length_cons, Nat.pow_succ]
    omega

theorem beValue_lt (bytes : List UInt8) : beValue bytes < 256 ^ bytes.length := by
  have h := leValue_lt bytes.reverse
  rwa [List.length_reverse] at h

theorem littleEndian_leValue (bytes : List UInt8) :
    littleEndian bytes.length (leValue bytes) = bytes := by
  induction bytes with
  | nil => rfl
  | cons b bytes ih =>
    have hb : b.toNat < 256 := b.toNat_lt
    have hlow : UInt8.ofNat (b.toNat + 256 * leValue bytes) = b := by
      apply UInt8.toNat.inj
      rw [UInt8.toNat_ofNat']
      omega
    have hrest : (b.toNat + 256 * leValue bytes) / 256 = leValue bytes := by omega
    rw [List.length_cons, leValue, littleEndian, hlow, hrest, ih]

theorem bigEndian_beValue (bytes : List UInt8) :
    bigEndian bytes.length (beValue bytes) = bytes := by
  unfold bigEndian beValue
  rw [← List.length_reverse, littleEndian_leValue, List.reverse_reverse]

/-! ### Frames and streams of frames -/

/-- A body behind its length. -/
def frame (body : List UInt8) : List UInt8 := bigEndian 4 body.length ++ body

def frames (bodies : List (List UInt8)) : List UInt8 := (bodies.map frame).flatten

@[simp] theorem frames_nil : frames [] = [] := rfl

theorem frames_cons (body : List UInt8) (bodies : List (List UInt8)) :
    frames (body :: bodies) = bigEndian 4 body.length ++ (body ++ frames bodies) := by
  unfold frames frame
  rw [List.map_cons, List.flatten_cons, List.append_assoc]

/-! ### The reader

A step takes its chunk off the stream and delivers a body or none, so that what is
unread and what has been delivered are known after any steps; at the end of the stream
everything has been delivered. Conversely every piece of the stream that is no longer
than what the reader misses is a step. -/

/-- Where a reader stands. -/
inductive Place where
  | between
  | within (got left : List UInt8)

/-- A reader and the bodies whose frames it has not begun. -/
structure Reader where
  place : Place
  pending : List (List UInt8)

namespace Reader

/-- What is still to come of the stream. -/
def unread (r : Reader) : List UInt8 :=
  match r.place with
  | .between => frames r.pending
  | .within _ left => left ++ frames r.pending

/-- The bodies that are still to be delivered. -/
def bodies (r : Reader) : List (List UInt8) :=
  match r.place with
  | .between => r.pending
  | .within got left => (got ++ left) :: r.pending

/-- A reader inside a body misses some of it. -/
def Proper (r : Reader) : Prop :=
  (∀ body ∈ r.pending, body ≠ []) ∧ ∀ got left, r.place = .within got left → left ≠ []

/-- Reading one chunk: nothing between frames, a length, part of a body, or the
    rest of it, which delivers the body. -/
inductive Step : Reader → List UInt8 → Option (List UInt8) → Reader → Prop
  | wait (pending : List (List UInt8)) :
      Step ⟨.between, pending⟩ [] none ⟨.between, pending⟩
  | announce (body : List UInt8) (pending : List (List UInt8)) :
      Step ⟨.between, body :: pending⟩ (bigEndian 4 body.length) none ⟨.within [] body, pending⟩
  | more (got chunk left : List UInt8) (pending : List (List UInt8)) (hleft : left ≠ []) :
      Step ⟨.within got (chunk ++ left), pending⟩ chunk none ⟨.within (got ++ chunk) left, pending⟩
  | deliver (got chunk : List UInt8) (pending : List (List UInt8)) :
      Step ⟨.within got chunk, pending⟩ chunk (some (got ++ chunk)) ⟨.between, pending⟩

theorem Step.unread_eq {r r' : Reader} {chunk : List UInt8} {delivered : Option (List UInt8)}
    (h : Step r chunk delivered r') : r.unread = chunk ++ r'.unread := by
  cases h with
  | wait pending => rfl
  | announce body pending => exact frames_cons body pending
  | more got chunk left pending hleft => exact List.append_assoc chunk left (frames pending)
  | deliver got chunk pending => rfl

/-- **A step delivers the next body or none**, and loses none. -/
theorem Step.bodies_eq {r r' : Reader} {chunk : List UInt8} {delivered : Option (List UInt8)}
    (h : Step r chunk delivered r') : r.bodies = delivered.toList ++ r'.bodies := by
  cases h with
  | wait pending => rfl
  | announce body pending => rfl
  | more got chunk left pending hleft =>
    show (got ++ (chunk ++ left)) :: pending = (got ++ chunk ++ left) :: pending
    rw [List.append_assoc]
  | deliver got chunk pending => rfl

theorem Step.proper {r r' : Reader} {chunk : List UInt8} {delivered : Option (List UInt8)}
    (h : Step r chunk delivered r') (hr : r.Proper) : r'.Proper := by
  obtain ⟨hpending, hplace⟩ := hr
  cases h with
  | wait pending => exact ⟨hpending, hplace⟩
  | announce body pending =>
    refine ⟨fun b hb => hpending b (List.mem_cons_of_mem _ hb), ?_⟩
    rintro got left h
    cases h
    exact hpending body List.mem_cons_self
  | more got chunk left pending hleft =>
    refine ⟨hpending, ?_⟩
    rintro got' left' h
    cases h
    exact hleft
  | deliver got chunk pending =>
    refine ⟨hpending, ?_⟩
    rintro got' left' h
    cases h

/-- **Every piece of the stream is a step.** Between frames a reader takes
    nothing or a whole length, within one at most what it misses. -/
theorem exists_step {r : Reader} {chunk rest : List UInt8} (h : r.unread = chunk ++ rest)
    (hbetween : r.place = .between → chunk.length = 0 ∨ chunk.length = 4)
    (hwithin : ∀ got left, r.place = .within got left → chunk.length ≤ left.length) :
    ∃ delivered r', Step r chunk delivered r' := by
  obtain ⟨place, pending⟩ := r
  cases place with
  | between =>
    rcases hbetween rfl with hempty | hfull
    · have hnil : chunk = [] := List.length_eq_zero_iff.mp hempty
      subst hnil
      exact ⟨none, _, .wait pending⟩
    · have hunread : frames pending = chunk ++ rest := h
      cases pending with
      | nil =>
        rw [frames_nil] at hunread
        have hnil : chunk = [] := (List.append_eq_nil_iff.mp hunread.symm).1
        rw [hnil] at hfull
        cases hfull
      | cons body pending =>
        rw [frames_cons] at hunread
        obtain ⟨rfl, _⟩ := List.append_inj hunread (by rw [bigEndian_length, hfull])
        exact ⟨none, _, .announce body pending⟩
  | within got left =>
    have hle := hwithin got left rfl
    have hunread : left ++ frames pending = chunk ++ rest := h
    have hleft : chunk = left.take chunk.length := by
      have htake := congrArg (List.take chunk.length) hunread
      rw [List.take_append_of_le_length hle, List.take_left] at htake
      exact htake.symm
    have hsplit : left = chunk ++ left.drop chunk.length := by
      conv_lhs => rw [← List.take_append_drop chunk.length left, ← hleft]
    by_cases hlast : left.drop chunk.length = []
    · rw [hlast, List.append_nil] at hsplit
      subst hsplit
      exact ⟨some (got ++ left), _, .deliver got left pending⟩
    · rw [hsplit]
      exact ⟨none, _, .more got chunk _ pending hlast⟩

theorem bodies_eq_nil_of_unread {r : Reader} (hr : r.Proper) (h : r.unread = []) :
    r.place = .between ∧ r.bodies = [] := by
  obtain ⟨place, pending⟩ := r
  cases place with
  | between =>
    refine ⟨rfl, ?_⟩
    cases pending with
    | nil => rfl
    | cons body pending =>
      have hunread : frames (body :: pending) = [] := h
      rw [frames_cons, List.append_eq_nil_iff] at hunread
      have hlength := congrArg List.length hunread.1
      rw [bigEndian_length] at hlength
      cases hlength
  | within got left =>
    have hunread : left ++ frames pending = [] := h
    exact absurd (List.append_eq_nil_iff.mp hunread).1 (hr.2 got left rfl)

end Reader

end Framing
