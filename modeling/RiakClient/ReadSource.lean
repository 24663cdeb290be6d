import RiakClient.Arrivals
import RiakClient.ReadTurns

/-!
# Reading from a source

`riak_read` with a `read_cb` that has a state of its own, such as a socket or the
buffer of an event loop. The loop is the one of `riakRead`, which gets the results
of its reads beforehand, and what it does here it does there. On a source that
gives what it has, the loop comes to an end whatever the peer has sent.

The measure is the number of bytes that are pending, and the turns that the operation
can take without a byte: each whole length costs four bytes, except for one that was
there already.
-/

namespace RiakClient

open CSem Framing

variable {ρ σ τ : Type} {heap final : Heap}

/-! ### The call -/

/-- A call of `riak_read` that has returned. -/
structure ReadReturn (ρ σ : Type) where
  err : RiakError
  rop : RiakOperation ρ
  done : RiakBoolean
  events : List (ReadEvent ρ)
  source : σ

/-- A callback, which may fault, but does not allocate. -/
abbrev ReadCb (σ : Type) := σ → Nat → C (ReadResult × σ)

/-- The loop of `riak_read`. `fuel` bounds the calls of `read_cb`. -/
def riakReadOnLoop (env : ReadEnv ρ) (readCb : ReadCb σ) :
    Nat → RiakOperation ρ → RiakBoolean → σ → C (Option (ReadReturn ρ σ))
  | 0, _, _, _ => pure none
  | fuel + 1, rop, done, s => do
      let (r, s) ← readCb s rop.readRequest.count
      let turn ← riakReadTurn env rop done r
      match turn.exit with
      | some err => pure (some ⟨err, turn.rop, turn.done, turn.events, s⟩)
      | none =>
          match ← riakReadOnLoop env readCb fuel turn.rop turn.done s with
          | none => pure none
          | some ret => pure (some { ret with events := turn.events ++ ret.events })

def riakReadOn (env : ReadEnv ρ) (readCb : ReadCb σ) (fuel : Nat) (rop : RiakOperation ρ) (s : σ) :
    C (Option (ReadReturn ρ σ)) :=
  riakReadOnLoop env readCb fuel rop 0 s

/-- The callback of a source that gives what it has. -/
def sourceReadCb (source : ByteSource σ) : ReadCb σ := fun s n =>
  pure (.received (source.read s n).1, (source.read s n).2)

/-! ### One round -/

section Rounds

variable {env : ReadEnv ρ} {readCb : ReadCb σ} {rop : RiakOperation ρ} {done : RiakBoolean}
  {s s' : σ} {r : ReadResult} {turn : Turn ρ} {heap₁ heap₂ : Heap}

theorem riakReadOnLoop_exit (hread : readCb s rop.readRequest.count heap = .ok ((r, s'), heap₁))
    (hturn : riakReadTurn env rop done r heap₁ = .ok (turn, heap₂)) {err : RiakError}
    (hexit : turn.exit = some err) (fuel : Nat) :
    riakReadOnLoop env readCb (fuel + 1) rop done s heap =
      .ok (some ⟨err, turn.rop, turn.done, turn.events, s'⟩, heap₂) := by
  rw [riakReadOnLoop, C.bind_of_ok hread]
  simp only
  rw [C.bind_of_ok hturn, hexit]
  rfl

theorem riakReadOnLoop_goes_on
    (hread : readCb s rop.readRequest.count heap = .ok ((r, s'), heap₁))
    (hturn : riakReadTurn env rop done r heap₁ = .ok (turn, heap₂)) (hexit : turn.exit = none)
    {fuel : Nat} {ret : ReadReturn ρ σ}
    (hrest : riakReadOnLoop env readCb fuel turn.rop turn.done s' heap₂ = .ok (some ret, final)) :
    riakReadOnLoop env readCb (fuel + 1) rop done s heap =
      .ok (some { ret with events := turn.events ++ ret.events }, final) := by
  rw [riakReadOnLoop, C.bind_of_ok hread]
  simp only
  rw [C.bind_of_ok hturn, hexit]
  simp only
  rw [C.bind_of_ok hrest]
  rfl

theorem riakReadOnLoop_succ_eq_ok {fuel : Nat} {out : Option (ReadReturn ρ σ)}
    (h : riakReadOnLoop env readCb (fuel + 1) rop done s heap = .ok (out, final)) :
    ∃ r s' heap₁ turn heap₂, readCb s rop.readRequest.count heap = .ok ((r, s'), heap₁) ∧
      riakReadTurn env rop done r heap₁ = .ok (turn, heap₂) ∧
      ((∃ err, turn.exit = some err ∧
          out = some ⟨err, turn.rop, turn.done, turn.events, s'⟩ ∧ final = heap₂) ∨
        turn.exit = none ∧ ∃ later,
          riakReadOnLoop env readCb fuel turn.rop turn.done s' heap₂ = .ok (later, final) ∧
          out = later.map fun ret => { ret with events := turn.events ++ ret.events }) := by
  rw [riakReadOnLoop] at h
  obtain ⟨⟨r, s'⟩, heap₁, hread, h⟩ := C.bind_eq_ok.mp h
  obtain ⟨turn, heap₂, hturn, h⟩ := C.bind_eq_ok.mp h
  refine ⟨r, s', heap₁, turn, heap₂, hread, hturn, ?_⟩
  cases hexit : turn.exit with
  | some err =>
    rw [hexit] at h
    cases h
    exact Or.inl ⟨err, rfl, rfl, rfl⟩
  | none =>
    rw [hexit] at h
    obtain ⟨later, heap₃, hloop, h⟩ := C.bind_eq_ok.mp h
    refine Or.inr ⟨rfl, later, ?_⟩
    cases later with
    | none =>
      cases h
      exact ⟨hloop, rfl⟩
    | some ret =>
      cases h
      exact ⟨hloop, rfl⟩

end Rounds

/-! ### The same call

Inversion of a round gives all of it by induction on the fuel: the results that the
callback gives are a list that `riakRead` may get, another representation of the
source makes no difference, and what every read keeps of the source is kept. -/

/-- A call on a source is a call of `riak_read` on the results that its callback
    gives. -/
theorem riakReadOnLoop_riakReadLoop {env : ReadEnv ρ} {readCb : ReadCb σ}
    (hpure : ∀ s n heap out final, readCb s n heap = .ok (out, final) → final = heap) :
    ∀ (fuel : Nat) (rop : RiakOperation ρ) (done : RiakBoolean) (s : σ) (heap : Heap)
      (ret : ReadReturn ρ σ),
      riakReadOnLoop env readCb fuel rop done s heap = .ok (some ret, final) →
      ∃ results, riakReadLoop env rop done results heap =
        .ok (⟨some ret.err, ret.rop, ret.done, ret.events, []⟩, final) := by
  intro fuel
  induction fuel with
  | zero =>
    intro rop done s heap ret h
    cases h
  | succ fuel ih =>
    intro rop done s heap ret h
    obtain ⟨r, s', heap₁, turn, heap₂, hread, hturn, hcases⟩ := riakReadOnLoop_succ_eq_ok h
    obtain rfl := hpure _ _ _ _ _ hread
    rcases hcases with ⟨err, hexit, hout, rfl⟩ | ⟨hexit, later, hloop, hout⟩
    · cases hout
      refine ⟨[r], ?_⟩
      rw [riakReadLoop, C.bind_of_ok hturn, hexit]
      rfl
    · cases later with
      | none => cases hout
      | some ret' =>
        cases hout
        obtain ⟨results, hresults⟩ := ih _ _ _ _ _ hloop
        refine ⟨r :: results, ?_⟩
        rw [riakReadLoop, C.bind_of_ok hturn, hexit]
        simp only
        rw [C.bind_of_ok hresults]
        rfl

theorem riakReadOnLoop_map {env : ReadEnv ρ} {readCb : ReadCb σ} {readCb' : ReadCb τ} {f : σ → τ}
    (hf : ∀ s n, readCb' (f s) n = readCb s n >>= fun out => pure (out.1, f out.2)) :
    ∀ (fuel : Nat) (rop : RiakOperation ρ) (done : RiakBoolean) (s : σ) (heap : Heap)
      (ret : ReadReturn ρ σ),
      riakReadOnLoop env readCb fuel rop done s heap = .ok (some ret, final) →
      riakReadOnLoop env readCb' fuel rop done (f s) heap =
        .ok (some ⟨ret.err, ret.rop, ret.done, ret.events, f ret.source⟩, final) := by
  intro fuel
  induction fuel with
  | zero =>
    intro rop done s heap ret h
    cases h
  | succ fuel ih =>
    intro rop done s heap ret h
    obtain ⟨r, s', heap₁, turn, heap₂, hread, hturn, hcases⟩ := riakReadOnLoop_succ_eq_ok h
    have hread' : readCb' (f s) rop.readRequest.count heap = .ok ((r, f s'), heap₁) := by
      rw [hf, C.bind_of_ok hread]
      rfl
    rcases hcases with ⟨err, hexit, hout, rfl⟩ | ⟨hexit, later, hloop, hout⟩
    · cases hout
      exact riakReadOnLoop_exit hread' hturn hexit fuel
    · cases later with
      | none => cases hout
      | some ret' =>
        cases hout
        exact riakReadOnLoop_goes_on hread' hturn hexit (ih _ _ _ _ _ hloop)

theorem riakReadOnLoop_invariant {env : ReadEnv ρ} {readCb : ReadCb σ} {P : σ → Prop}
    (hkeeps : ∀ s n heap r s' final, P s → readCb s n heap = .ok ((r, s'), final) → P s') :
    ∀ (fuel : Nat) (rop : RiakOperation ρ) (done : RiakBoolean) (s : σ) (heap : Heap)
      (ret : ReadReturn ρ σ), P s →
      riakReadOnLoop env readCb fuel rop done s heap = .ok (some ret, final) → P ret.source := by
  intro fuel
  induction fuel with
  | zero =>
    intro rop done s heap ret _ h
    cases h
  | succ fuel ih =>
    intro rop done s heap ret hs h
    obtain ⟨r, s', heap₁, turn, heap₂, hread, _, hcases⟩ := riakReadOnLoop_succ_eq_ok h
    have hs' := hkeeps _ _ _ _ _ _ hs hread
    rcases hcases with ⟨err, _, hout, _⟩ | ⟨_, later, hloop, hout⟩
    · cases hout
      exact hs'
    · cases later with
      | none => cases hout
      | some ret' =>
        cases hout
        exact ih _ _ _ _ ret' hs' hloop

/-! ### The loop comes to an end -/

/-- A turn that does not end the call has got a whole length, or a whole message
    behind which the operation is idle. -/
theorem riakReadTurn_goes_on {env : ReadEnv ρ} {rop : RiakOperation ρ} {done : RiakBoolean}
    {r : ReadResult} {turn : Turn ρ} (h : riakReadTurn env rop done r heap = .ok (turn, final))
    (hexit : turn.exit = none) :
    (rop.msglenComplete = false ∧ r.buflen = rop.readRequest.count ∧
        turn.rop.msglenComplete = true) ∨
      rop.msglenComplete = true ∧ turn.rop.Idle := by
  unfold riakReadTurn at h
  cases hphase : rop.msglenComplete with
  | false =>
    rw [hphase, if_neg (by decide)] at h
    unfold riakReadPrefix at h
    obtain ⟨inmsglen, heap₁, _, h⟩ := C.bind_eq_ok.mp h
    by_cases hcount : r.buflen = rop.readRequest.count
    · rw [if_neg (fun hne => hne hcount)] at h
      obtain ⟨msgbuf, heap₂, _, h⟩ := C.bind_eq_ok.mp h
      cases msgbuf with
      | none =>
        cases h
        cases hexit
      | some msgbuf =>
        cases h
        exact Or.inl ⟨rfl, hcount, rfl⟩
    · -- a read that is short ends the call, whatever becomes of its bytes
      rw [if_pos hcount] at h
      split at h
      · cases h
        cases hexit
      · split at h
        · cases h
          cases hexit
        · cases h
          cases hexit
  | true =>
    rw [hphase, if_pos rfl] at h
    unfold riakReadBody riakReadReceive at h
    rw [bind_assoc] at h
    obtain ⟨stored, heap₁, _, h⟩ := C.bind_eq_ok.mp h
    by_cases hmissing : stored.position < stored.msglen
    · simp only [if_pos hmissing, pure_bind] at h
      cases h
      cases hexit
    · simp only [if_neg hmissing] at h
      by_cases hassert : stored.position ≠ stored.msglen
      · simp only [if_pos hassert] at h
        cases h
      · simp only [if_neg hassert, bind_assoc, pure_bind] at h
        obtain ⟨whole, heap₂, _, h⟩ := C.bind_eq_ok.mp h
        obtain ⟨msgid, heap₃, _, h⟩ := C.bind_eq_ok.mp h
        obtain ⟨pbresp, heap₄, _, h⟩ := C.bind_eq_ok.mp h
        exact Or.inr ⟨rfl, (riakReadDispatch_cases h).1 ⟨rfl, rfl, rfl⟩⟩

/-- The turns that an operation can take without a byte. -/
def RiakOperation.patience (rop : RiakOperation ρ) : Nat :=
  if rop.msglenComplete then 1 else if rop.position = 0 then 0 else 2

theorem riakReadTurn_patience (source : ByteSource σ) {env : ReadEnv ρ} {rop : RiakOperation ρ}
    {done : RiakBoolean} {s : σ} {turn : Turn ρ}
    (hturn : riakReadTurn env rop done (.received (source.read s rop.readRequest.count).1) heap =
      .ok (turn, final)) (hexit : turn.exit = none) :
    (source.pending (source.read s rop.readRequest.count).2).length + turn.rop.patience <
      (source.pending s).length + rop.patience := by
  rw [source.pending_read, List.length_drop]
  unfold RiakOperation.patience
  rcases riakReadTurn_goes_on hturn hexit with ⟨hphase, hcount, hphase'⟩ | ⟨hphase, hidle⟩
  · rw [ReadResult.buflen_received, source.read_fst, List.length_take] at hcount
    rw [hphase', if_pos rfl, hphase, if_neg (by decide)]
    by_cases hposition : rop.position = 0
    · rw [if_pos hposition]
      have hrequest : rop.readRequest.count = 4 := by
        unfold RiakOperation.readRequest
        rw [hphase, if_neg (by decide), hposition]
        rfl
      omega
    · rw [if_neg hposition]
      omega
  · obtain ⟨hposition, _, hphase'⟩ := hidle
    rw [hphase', if_neg (by decide), if_pos hposition, hphase, if_pos rfl]
    omega

/-- Once a call has returned, more fuel changes nothing. -/
theorem riakReadOnLoop_mono {env : ReadEnv ρ} {readCb : ReadCb σ} :
    ∀ (fuel more : Nat) (rop : RiakOperation ρ) (done : RiakBoolean) (s : σ) (heap : Heap)
      (ret : ReadReturn ρ σ),
      riakReadOnLoop env readCb fuel rop done s heap = .ok (some ret, final) →
      riakReadOnLoop env readCb (fuel + more) rop done s heap = .ok (some ret, final) := by
  intro fuel
  induction fuel with
  | zero =>
    intro more rop done s heap ret h
    cases h
  | succ fuel ih =>
    intro more rop done s heap ret h
    obtain ⟨r, s', heap₁, turn, heap₂, hread, hturn, hcases⟩ := riakReadOnLoop_succ_eq_ok h
    rw [Nat.succ_add]
    rcases hcases with ⟨err, hexit, hout, rfl⟩ | ⟨hexit, later, hloop, hout⟩
    · cases hout
      exact riakReadOnLoop_exit hread hturn hexit _
    · cases later with
      | none => cases hout
      | some ret' =>
        cases hout
        exact riakReadOnLoop_goes_on hread hturn hexit (ih more _ _ _ _ _ hloop)

end RiakClient
