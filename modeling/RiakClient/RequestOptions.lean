import RiakClient.Binary
import RiakClient.OptionRecord

/-!
# Options on their way into a request

How the options of an application get into the protocol buffer: a number is
assigned together with its flag, a binary is copied by its setter and its bytes
are handed on by the encoder.

Both ways send what was last set: `if (has_x) msg.x = x` does, and `if (has_x)
riak_binary_copy_to_pb(&msg.x, x)`, if it returns. Neither touches the heap.
-/

namespace RiakClient

open CSem OptionRecord

variable {heap final : Heap}

/-- A copied binary, when there is one, has the bytes last given to its setter. -/
def CopyOf (copy : Option RiakBinary) (last : Option Bytes) : Prop :=
  ∀ b, copy = some b → last = some b.data

theorem copyOf_riakBinaryNew {data : Bytes} {copy : Option RiakBinary}
    (hcopy : riakBinaryNew data heap = .ok (copy, final)) : CopyOf copy (some data) := by
  intro b hb
  subst hb
  unfold riakBinaryNew at hcopy
  obtain ⟨granted, heap₁, _, hcopy₁⟩ := C.bind_eq_ok.mp hcopy
  cases granted with
  | false => cases hcopy₁
  | true =>
    obtain ⟨granted', heap₂, _, hcopy₂⟩ := C.bind_eq_ok.mp hcopy₁
    cases granted' with
    | false => cases hcopy₂
    | true =>
      simp only [if_true, C.pure_apply, Except.ok.injEq, Prod.mk.injEq, Option.some.injEq]
        at hcopy₂
      rw [← hcopy₂.1]

theorem carries_assignIf {α : Type} [OfNat α 0] (last : Option α) :
    Carries last.isSome (assignIf last.isSome (last.getD 0)) last := by
  refine ⟨rfl, ?_⟩
  intro x hx
  rw [hx]
  rfl

theorem carries_copyToPbIf {last : Option Bytes} {copy : Option RiakBinary} {data : Bytes}
    (hcopy : CopyOf copy last) (hdata : copyToPbIf last.isSome copy heap = .ok (data, final)) :
    Carries last.isSome data last := by
  refine ⟨rfl, ?_⟩
  intro x hx
  obtain ⟨_, hsome, _⟩ := copyToPbIf_eq_ok.mp hdata
  obtain ⟨b, hb, rfl⟩ := hsome (by rw [hx]; rfl)
  have hlast := hcopy b hb
  rw [hx, Option.some.injEq] at hlast
  exact hlast.symm

theorem copyToPbIf_eq_pure {has : Bool} {bin : Option RiakBinary} {data : Bytes}
    (hcopy : copyToPbIf has bin heap = .ok (data, final)) : copyToPbIf has bin = pure data := by
  obtain ⟨_, hsome, hnone⟩ := copyToPbIf_eq_ok.mp hcopy
  cases has with
  | false =>
    rw [hnone rfl]
    rfl
  | true =>
    obtain ⟨b, rfl, rfl⟩ := hsome rfl
    rfl

end RiakClient
