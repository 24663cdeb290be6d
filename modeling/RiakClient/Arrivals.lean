import RiakClient.Framing

/-!
# Streams that are still arriving

A stream of frames of which the first bytes have arrived. A reader that takes
what is there gets to the last whole frame among them, or to the first frame that
makes it stop. It is only cut off in the middle of a length if the bytes so far
end there, which is a property of their number and of the stream, and not of how
they arrived.

How many items have arrived is computed from the bytes by recursion over the items
(`arrived`), and so is whether the bytes end in a length (`cutsLength`). Both go by
what follows items that do not close; the facts about a reader say where it can stand
when it has taken all that is there.
-/

/-- A source of bytes: `read` takes what is asked for off the front, as far as it
    is there, and `append` is what the other end does. -/
structure ByteSource (σ : Type) where
  pending : σ → List UInt8
  read : σ → Nat → List UInt8 × σ
  append : σ → List UInt8 → σ
  read_fst : ∀ s n, (read s n).1 = (pending s).take n
  pending_read : ∀ s n, pending (read s n).2 = (pending s).drop n
  pending_append : ∀ s bytes, pending (append s bytes) = pending s ++ bytes

/-- A queue. -/
def ByteSource.queue : ByteSource (List UInt8) where
  pending bytes := bytes
  read bytes n := (bytes.take n, bytes.drop n)
  append bytes more := bytes ++ more
  read_fst _ _ := rfl
  pending_read _ _ := rfl
  pending_append _ _ := rfl

theorem ByteSource.read_append {σ : Type} (source : ByteSource σ) (s : σ) (n : Nat)
    (future : List UInt8) :
    source.pending s ++ future =
      (source.read s n).1 ++ (source.pending (source.read s n).2 ++ future) := by
  rw [source.read_fst, source.pending_read, ← List.append_assoc, List.take_append_drop]

theorem ByteSource.pending_of_short {σ : Type} (source : ByteSource σ) {s : σ} {n : Nat}
    (h : (source.read s n).1.length < n) : source.pending (source.read s n).2 = [] := by
  rw [source.read_fst, List.length_take] at h
  rw [source.pending_read, List.drop_eq_nil_iff]
  omega

namespace Framing

variable {α : Type} (body : α → List UInt8) (closes : α → Bool)

theorem frame_length (bytes : List UInt8) : (frame bytes).length = 4 + bytes.length := by
  unfold frame
  rw [List.length_append, bigEndian_length]

theorem frames_append (before later : List (List UInt8)) :
    frames (before ++ later) = frames before ++ frames later := by
  unfold frames
  rw [List.map_append, List.flatten_append]

/-- The items whose frames are whole within the first `n` bytes, up to the first
    one that closes the exchange. -/
def arrived : List α → Nat → List α
  | [], _ => []
  | item :: later, n =>
      if n < 4 + (body item).length then []
      else if closes item then [item]
      else item :: arrived later (n - (4 + (body item).length))

/-- The first `n` bytes end in the middle of a length that a reader gets to. -/
def cutsLength : List α → Nat → Bool
  | [], _ => false
  | item :: later, n =>
      if n < 4 + (body item).length then 0 < n && n < 4
      else !closes item && cutsLength later (n - (4 + (body item).length))

variable {body closes} {before later : List α} {item : α}

theorem arrived_append (hopen : ∀ x ∈ before, closes x = false) (n : Nat) :
    arrived body closes (before ++ later) ((frames (before.map body)).length + n) =
      before ++ arrived body closes later n := by
  induction before with
  | nil => rw [List.map_nil, frames_nil, List.length_nil, Nat.zero_add]; rfl
  | cons first before ih =>
    have hrest := ih fun x hx => hopen x (List.mem_cons_of_mem _ hx)
    rw [List.map_cons, frames_cons, List.length_append, List.length_append, bigEndian_length,
      List.cons_append, arrived, if_neg (by omega), hopen first List.mem_cons_self]
    simp only [Bool.false_eq_true, if_false]
    rw [show 4 + ((body first).length + (frames (before.map body)).length) + n -
      (4 + (body first).length) = (frames (before.map body)).length + n by omega, hrest]
    rfl

theorem cutsLength_append (hopen : ∀ x ∈ before, closes x = false) (n : Nat) :
    cutsLength body closes (before ++ later) ((frames (before.map body)).length + n) =
      cutsLength body closes later n := by
  induction before with
  | nil => rw [List.map_nil, frames_nil, List.length_nil, Nat.zero_add]; rfl
  | cons first before ih =>
    have hrest := ih fun x hx => hopen x (List.mem_cons_of_mem _ hx)
    rw [List.map_cons, frames_cons, List.length_append, List.length_append, bigEndian_length,
      List.cons_append, cutsLength, if_neg (by omega), hopen first List.mem_cons_self]
    simp only [Bool.not_false, Bool.true_and]
    rw [show 4 + ((body first).length + (frames (before.map body)).length) + n -
      (4 + (body first).length) = (frames (before.map body)).length + n by omega, hrest]

theorem arrived_of_lt {n : Nat} (h : n < 4 + (body item).length) :
    arrived body closes (item :: later) n = [] := if_pos h

theorem arrived_closed (hopen : ∀ x ∈ before, closes x = false) (hitem : closes item = true)
    {n : Nat} (h : (frames ((before ++ [item]).map body)).length ≤ n) :
    arrived body closes (before ++ item :: later) n = before ++ [item] := by
  rw [List.map_append, frames_append, List.length_append, List.map_singleton, frames_cons,
    List.length_append, List.length_append, bigEndian_length] at h
  obtain ⟨k, rfl⟩ : ∃ k, n = (frames (before.map body)).length + k :=
    ⟨n - (frames (before.map body)).length, by omega⟩
  rw [arrived_append hopen, arrived, if_neg (by omega), if_pos hitem]

theorem whole_length_of_cutsLength {n : Nat}
    (h : cutsLength body closes (item :: later) n = false) :
    n = 0 ∨ 4 ≤ n := by
  rw [cutsLength] at h
  by_cases hshort : n < 4 + (body item).length
  · rw [if_pos hshort, Bool.and_eq_false_iff, decide_eq_false_iff_not, decide_eq_false_iff_not] at h
    omega
  · omega

theorem Reader.unread_length_le (r : Reader) : r.unread.length ≤ (frames r.bodies).length := by
  obtain ⟨place, pending⟩ := r
  cases place with
  | between => exact Nat.le_refl _
  | within got left =>
    show (left ++ frames pending).length ≤ (frames ((got ++ left) :: pending)).length
    rw [frames_cons]
    simp only [List.length_append, bigEndian_length]
    omega

theorem arrived_reader {r : Reader} (hr : r.Proper) {items : List α}
    (hitems : r.bodies = items.map body) :
    arrived body closes items ((frames (items.map body)).length - r.unread.length) = [] := by
  obtain ⟨place, pending⟩ := r
  rw [← hitems]
  cases items with
  | nil => rfl
  | cons item later =>
    cases place with
    | between =>
      have hall : (frames pending).length - (frames pending).length = 0 := Nat.sub_self _
      show arrived body closes (item :: later)
        ((frames pending).length - (frames pending).length) = []
      rw [hall]
      exact arrived_of_lt (by omega)
    | within got left =>
      obtain ⟨hbody, _⟩ := List.cons.inj hitems
      have hleft : 0 < left.length := List.length_pos_iff.mpr (hr.2 got left rfl)
      apply arrived_of_lt
      show (frames ((got ++ left) :: pending)).length - (left ++ frames pending).length < _
      rw [frames_cons, ← hbody]
      simp only [List.length_append, bigEndian_length]
      omega

end Framing
