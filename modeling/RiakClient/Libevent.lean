import RiakClient.ReadSource
import RiakClient.ResponseFree
import RiakClient.Sync

/-!
# The libevent adapter

`adapters/riak_libevent.h`: an operation whose connection is a bufferevent. What
libevent does is a parameter: a bufferevent has an input buffer that fills behind
the back of the client, and calls one callback when there is something to read and
another one when something has happened to the connection. The loop is a
transition system: the peer, libevent and the application take their steps in any
order.
-/

namespace RiakClient

open CSem Framing LabelledRun

variable {ρ β : Type} {heap final : Heap}

/-! ### The adapter

The functions of the header in their order. The bufferevent is a pointer, since
`riak_libevent_connection_cb` frees it without telling the adapter, whose pointer is
wild from then on. -/

/-- What the adapter uses of a bufferevent: its input buffer, and
    `bufferevent_write`, which queues the bytes and returns 0, or fails. -/
structure BuffereventApi (β : Type) extends ByteSource β where
  write : β → Bytes → Int × β
  pending_write : ∀ bev bytes, pending (write bev bytes).2 = pending bev

/-- `_riak_libevent`; its `base` only goes to libevent. The bufferevent is wild
    once it is freed behind its back. -/
structure RiakLibevent (ρ β : Type) where
  bevent : Ptr β
  rop : RiakOperation ρ

structure BevEvents where
  connected : Bool := false
  error : Bool := false
  eof : Bool := false
  timeout : Bool := false
deriving DecidableEq, Repr

def BevEvents.hangsUp (events : BevEvents) : Bool :=
  !events.connected && (events.error || events.eof || events.timeout)

variable (api : BuffereventApi β)

def riakLibeventReadCb : ReadCb (Ptr β) := fun bevent size => do
  let bev ← bevent.deref
  let (result, bev) ← sourceReadCb api.toByteSource bev size
  pure (result, .obj bev)

def riakLibeventWriteCb (bev : β) (data : Bytes) : Int × β :=
  let (result, bev) := api.write bev data
  (if result = 0 then data.length else 0, bev)

/-- `riak_libevent_result_cb`. The error of the read is dropped, and the bufferevent
    is freed as soon as the response is complete. -/
def riakLibeventResultCb (env : ReadEnv ρ) (fuel : Nat) (event : RiakLibevent ρ β) :
    C (Option (RiakLibevent ρ β × List (ReadEvent ρ))) := do
  match ← riakReadOn env (riakLibeventReadCb api) fuel event.rop event.bevent with
  | none => pure none
  | some ret =>
      if ret.done ≠ 0 then pure (some (⟨.null, ret.rop⟩, ret.events))
      else pure (some (⟨ret.source, ret.rop⟩, ret.events))

/-- `riak_libevent_connection_cb`. It is handed the `riak_libevent`, takes it for a
    `riak_connection`, and reads the descriptor of that when it logs an error of the
    resolver. When it frees the bufferevent it does not tell the `riak_libevent`. -/
def riakLibeventConnectionCb (events : BevEvents) (dnsError : Bool) (event : RiakLibevent ρ β) :
    C (RiakLibevent ρ β) :=
  if events.connected then pure event
  else if events.error || events.eof then
    if events.error && dnsError then C.fault .outOfBounds
    else pure { event with bevent := .wild }
  else if events.timeout then pure { event with bevent := .wild }
  else pure event

/-- `riak_libevent_new`, with what `bufferevent_socket_new`, `bufferevent_base_set`
    and `bufferevent_enable` return. -/
def riakLibeventNew (rop : RiakOperation ρ) (socketNew : Option β) (baseSet enabled : Int) :
    C (RiakError × Option (RiakLibevent ρ β)) := do
  if ← C.allocate then
    match socketNew with
    | none => pure (.outOfMemory, some ⟨.null, rop⟩)
    | some bev =>
        if baseSet < 0 then pure (.event, some ⟨.obj bev, rop⟩)
        else if enabled ≠ 0 then pure (.event, some ⟨.obj bev, rop⟩)
        else pure (.ok, some ⟨.obj bev, rop⟩)
  else pure (.outOfMemory, none)

def riakLibeventFree (rev : Option (RiakLibevent ρ β)) : C (Option (RiakLibevent ρ β)) :=
  match rev with
  | none => pure none
  | some rev => do
      riakFree rev.bevent
      pure none

/-- `riak_libevent_send`. The first thing a write does with its callback is to
    follow the bufferevent. -/
def riakLibeventSend (rop : RiakOperation ρ) (rev : RiakLibevent ρ β) :
    C (RiakError × RiakLibevent ρ β) := do
  let bev ← rev.bevent.deref
  let (err, bev) ← riakWrite rop (riakLibeventWriteCb api) bev
  pure (err, { rev with bevent := .obj bev })

/-! ### The loop

A step is a call of a callback that returns, bytes that arrive, or a call of the
application. A callback that would follow a wild pointer returns nothing and is no
step; libevent does not call with a bufferevent that it has freed. -/

structure Loop (ρ β : Type) where
  rev : Option (RiakLibevent ρ β)
  heap : Heap

/-- What can happen: bytes arrive, one of the callbacks is called, or the
    application sends its request or frees the adapter. -/
inductive LoopLabel (ρ : Type) where
  | arrives (bytes : Bytes)
  | readable (events : List (ReadEvent ρ))
  | signalled (events : BevEvents) (dnsError : Bool)
  | sends (err : RiakError)
  | frees

def LoopLabel.hangsUp : LoopLabel ρ → Bool
  | .signalled events _ => events.hangsUp
  | _ => false

/-- A step of the loop. libevent does nothing with a bufferevent that was freed. -/
inductive Loop.Step (env : ReadEnv ρ) : Loop ρ β → LoopLabel ρ → Loop ρ β → Prop
  | arrives (bev : β) (rop : RiakOperation ρ) (heap : Heap) (bytes : Bytes) :
      Loop.Step env ⟨some ⟨.obj bev, rop⟩, heap⟩ (.arrives bytes)
        ⟨some ⟨.obj (api.append bev bytes), rop⟩, heap⟩
  | readable (bev : β) (rop : RiakOperation ρ) (heap heap' : Heap) (fuel : Nat)
      (event : RiakLibevent ρ β) (events : List (ReadEvent ρ))
      (hcb : riakLibeventResultCb api env fuel ⟨.obj bev, rop⟩ heap =
        .ok (some (event, events), heap')) :
      Loop.Step env ⟨some ⟨.obj bev, rop⟩, heap⟩ (.readable events) ⟨some event, heap'⟩
  | signalled (bev : β) (rop : RiakOperation ρ) (heap heap' : Heap) (events : BevEvents)
      (dnsError : Bool) (event : RiakLibevent ρ β)
      (hcb : riakLibeventConnectionCb events dnsError ⟨.obj bev, rop⟩ heap = .ok (event, heap')) :
      Loop.Step env ⟨some ⟨.obj bev, rop⟩, heap⟩ (.signalled events dnsError) ⟨some event, heap'⟩
  | sends (rev event : RiakLibevent ρ β) (heap heap' : Heap) (err : RiakError)
      (hsend : riakLibeventSend api rev.rop rev heap = .ok ((err, event), heap')) :
      Loop.Step env ⟨some rev, heap⟩ (.sends err) ⟨some event, heap'⟩
  | frees (rev rev' : Option (RiakLibevent ρ β)) (heap heap' : Heap)
      (hfree : riakLibeventFree rev heap = .ok (rev', heap')) :
      Loop.Step env ⟨rev, heap⟩ .frees ⟨rev', heap'⟩

variable {api}

/-! ### What the callbacks can do

The read callback of the adapter is the one of its input buffer, so a result callback
is a call on that buffer; it leaves the bufferevent, or NULL. A request leaves the
input buffer and the heap alone. -/

theorem riakLibeventReadCb_obj (bev : β) (size : Nat) :
    riakLibeventReadCb api (.obj bev) size =
      sourceReadCb api.toByteSource bev size >>= fun out => pure (out.1, .obj out.2) := rfl

/-- A result callback is a call on the input buffer, and what it leaves goes by
    whether the response is complete. -/
theorem riakLibeventResultCb_of_read {env : ReadEnv ρ} {fuel : Nat} {rop : RiakOperation ρ}
    {bev : β} {ret : ReadReturn ρ β}
    (h : riakReadOnLoop env (sourceReadCb api.toByteSource) fuel rop 0 bev heap =
      .ok (some ret, final)) :
    riakLibeventResultCb api env fuel ⟨.obj bev, rop⟩ heap =
      .ok (some (⟨if ret.done ≠ 0 then .null else .obj ret.source, ret.rop⟩, ret.events),
        final) := by
  have hmap := riakReadOnLoop_map riakLibeventReadCb_obj fuel rop 0 bev heap ret h
  unfold riakLibeventResultCb riakReadOn
  rw [C.bind_of_ok hmap]
  simp only
  by_cases hdone : ret.done = 0
  · rw [if_neg (fun hne => hne hdone), if_neg (fun hne => hne hdone)]
    rfl
  · rw [if_pos hdone, if_pos hdone]
    rfl

theorem riakLibeventConnectionCb_eq_ok {events : BevEvents} {dnsError : Bool}
    {event event' : RiakLibevent ρ β}
    (h : riakLibeventConnectionCb events dnsError event heap = .ok (event', final)) :
    final = heap ∧ event' = if events.hangsUp then { event with bevent := .wild } else event := by
  obtain ⟨connected, error, eof, timeout⟩ := events
  unfold riakLibeventConnectionCb at h
  unfold BevEvents.hangsUp
  cases connected <;> cases error <;> cases eof <;> cases timeout <;> cases dnsError <;> cases h <;>
    exact ⟨rfl, rfl⟩

theorem riakWrite_invariant {σ : Type} {rop : RiakOperation ρ} {writeCb : σ → Bytes → Int × σ}
    {P : σ → Prop} (hkeeps : ∀ s bytes, P s → P (writeCb s bytes).2) {s s' : σ} (hs : P s)
    {err : RiakError} (h : riakWrite rop writeCb s heap = .ok ((err, s'), final)) : P s' := by
  unfold riakWrite at h
  obtain ⟨msg, heap₁, _, hrest⟩ := C.bind_eq_ok.mp h
  have hprefix := hkeeps s (hostBytes (htonl (msg.len + 1))) hs
  have hid := hkeeps _ [msg.msgid] hprefix
  split at hrest
  · cases hrest
  · simp only at hrest
    split at hrest
    · cases hrest
      exact hprefix
    · split at hrest
      · cases hrest
        exact hid
      · split at hrest
        · split at hrest
          · cases hrest
            exact hkeeps _ _ hid
          · cases hrest
            exact hkeeps _ _ hid
        · cases hrest
          exact hid

theorem riakLibeventSend_eq_ok {rop : RiakOperation ρ} {rev event : RiakLibevent ρ β}
    {err : RiakError} (h : riakLibeventSend api rop rev heap = .ok ((err, event), final)) :
    ∃ bev bev', rev.bevent = .obj bev ∧ event = { rev with bevent := .obj bev' } ∧
      api.pending bev' = api.pending bev ∧ final = heap := by
  unfold riakLibeventSend at h
  obtain ⟨bev, heap₁, hderef, hrest⟩ := C.bind_eq_ok.mp h
  obtain ⟨hbevent, rfl⟩ := Ptr.deref_eq_ok.mp hderef
  obtain ⟨⟨err', bev'⟩, heap₂, hwrite, hrest⟩ := C.bind_eq_ok.mp hrest
  cases hrest
  refine ⟨bev, bev', hbevent, rfl, ?_, riakWrite_heap hwrite⟩
  refine riakWrite_invariant (P := fun s => api.pending s = api.pending bev) ?_ rfl hwrite
  intro s bytes hs
  exact (api.pending_write s bytes).trans hs

theorem riakLibeventFree_eq_ok {rev rev' : Option (RiakLibevent ρ β)}
    (h : riakLibeventFree rev heap = .ok (rev', final)) : rev' = none ∧ final = heap := by
  unfold riakLibeventFree at h
  cases rev with
  | none =>
    cases h
    exact ⟨rfl, rfl⟩
  | some rev =>
    obtain ⟨⟨⟩, heap₁, hfree, h⟩ := C.bind_eq_ok.mp h
    cases h
    obtain ⟨bevent, rop⟩ := rev
    cases bevent with
    | wild => cases hfree
    | null =>
      cases hfree
      exact ⟨rfl, rfl⟩
    | obj bev =>
      cases hfree
      exact ⟨rfl, rfl⟩

theorem riakLibeventResultCb_not_wild {env : ReadEnv ρ} {fuel : Nat}
    {event event' : RiakLibevent ρ β} {events : List (ReadEvent ρ)} (hevent : event.bevent ≠ .wild)
    (h : riakLibeventResultCb api env fuel event heap = .ok (some (event', events), final)) :
    event'.bevent ≠ .wild := by
  unfold riakLibeventResultCb at h
  obtain ⟨ret, heap₁, hread, h⟩ := C.bind_eq_ok.mp h
  cases ret with
  | none => cases h
  | some ret =>
    have hsource : ret.source ≠ .wild := by
      refine riakReadOnLoop_invariant (P := fun bevent => bevent ≠ .wild) ?_ _ _ _ _ _ _ hevent
        hread
      intro bevent n heap r bevent' final _ hcb
      unfold riakLibeventReadCb at hcb
      obtain ⟨bev, heap₁, _, hcb⟩ := C.bind_eq_ok.mp hcb
      cases hcb
      nofun
    simp only at h
    by_cases hdone : ret.done = 0
    · rw [if_neg (fun hne => hne hdone)] at h
      cases h
      exact hsource
    · rw [if_pos hdone] at h
      cases h
      nofun

/-! ### The life of an adapter

Only a signal makes a dangling adapter, and nothing happens with one. -/

/-- The adapter has a bufferevent that is not there any more. -/
def Loop.Dangling (loop : Loop ρ β) : Prop :=
  ∃ rop, loop.rev = some ⟨.wild, rop⟩

theorem Loop.Dangling.stuck {loop loop' : Loop ρ β} (h : loop.Dangling) {env : ReadEnv ρ}
    {l : LoopLabel ρ} : ¬ Loop.Step api env loop l loop' := by
  intro hstep
  obtain ⟨rop, hrev⟩ := h
  cases hstep with
  | arrives => cases hrev
  | readable => cases hrev
  | signalled => cases hrev
  | sends rev event heap heap' err hsend =>
    obtain ⟨bev, _, hbevent, _⟩ := riakLibeventSend_eq_ok hsend
    cases hrev
    cases hbevent
  | frees rev rev' heap heap' hfree =>
    cases hrev
    cases hfree

theorem Loop.Step.dangling_iff {env : ReadEnv ρ} {loop loop' : Loop ρ β} {l : LoopLabel ρ}
    (h : Loop.Step api env loop l loop') : loop'.Dangling ↔ l.hangsUp = true := by
  have hnot : ∀ {event : RiakLibevent ρ β} {heap : Heap}, event.bevent ≠ .wild →
      ¬ Loop.Dangling ⟨some event, heap⟩ := by
    rintro event heap hevent ⟨rop, hrev⟩
    cases hrev
    exact hevent rfl
  cases h with
  | arrives => exact ⟨fun h => absurd h (hnot nofun), fun h => absurd h Bool.false_ne_true⟩
  | readable bev rop heap heap' fuel event events hcb =>
    have hobj : Ptr.obj bev ≠ .wild := nofun
    have hevent := riakLibeventResultCb_not_wild hobj hcb
    exact ⟨fun h => absurd h (hnot hevent), fun h => absurd h Bool.false_ne_true⟩
  | signalled bev rop heap heap' events dnsError event hcb =>
    obtain ⟨_, rfl⟩ := riakLibeventConnectionCb_eq_ok hcb
    show _ ↔ events.hangsUp = true
    by_cases hhangs : events.hangsUp = true
    · rw [if_pos hhangs]
      exact ⟨fun _ => hhangs, fun _ => ⟨rop, rfl⟩⟩
    · rw [if_neg hhangs]
      exact ⟨fun h => absurd h (hnot nofun), fun h => absurd h hhangs⟩
  | sends rev event heap heap' err hsend =>
    obtain ⟨_, bev', _, rfl, _⟩ := riakLibeventSend_eq_ok hsend
    exact ⟨fun h => absurd h (hnot nofun), fun h => absurd h Bool.false_ne_true⟩
  | frees rev rev' heap heap' hfree =>
    obtain ⟨rfl, _⟩ := riakLibeventFree_eq_ok hfree
    exact ⟨fun ⟨_, hrev⟩ => (by cases hrev), fun h => absurd h Bool.false_ne_true⟩

/-- **An adapter can be freed until its connection hangs up, and never again**: what
    libevent reports last frees the bufferevent under it, whatever has happened before,
    and from then on neither a request nor a free gets past the bufferevent. -/
theorem riak_libevent_free_iff {env : ReadEnv ρ} {bev : β} {rop : RiakOperation ρ}
    {labels : List (LoopLabel ρ)} {loop : Loop ρ β}
    (hrun : Run (Loop.Step api env) ⟨some ⟨.obj bev, rop⟩, heap⟩ labels loop) :
    ((∃ out, riakLibeventFree loop.rev loop.heap = .ok out) ↔
        ∀ l ∈ labels, l.hangsUp = false) ∧
      ((∃ l ∈ labels, l.hangsUp = true) →
        riakLibeventFree loop.rev loop.heap = .error .wildDereference ∧
        (∀ rev rop', loop.rev = some rev →
          riakLibeventSend api rop' rev loop.heap = .error .wildDereference) ∧
        ∀ l loop', ¬ Loop.Step api env loop l loop') := by
  have hdangling : loop.Dangling ↔ ∃ l ∈ labels, l.hangsUp = true := by
    refine hrun.invariant (fun labels loop => loop.Dangling ↔ ∃ l ∈ labels, l.hangsUp = true)
      ⟨fun ⟨_, hrev⟩ => (by cases hrev), fun ⟨_, hl, _⟩ => absurd hl List.not_mem_nil⟩ ?_
    intro labels loop l loop' ih hstep
    have hquiet : ¬ ∃ l ∈ labels, l.hangsUp = true := fun h => (ih.mpr h).stuck hstep
    rw [hstep.dangling_iff]
    constructor
    · intro hl
      exact ⟨l, List.mem_append_right _ List.mem_cons_self, hl⟩
    · rintro ⟨l', hmem, hl'⟩
      rcases List.mem_append.mp hmem with hmem | hmem
      · exact absurd ⟨l', hmem, hl'⟩ hquiet
      · rwa [List.mem_singleton.mp hmem] at hl'
  obtain ⟨rev, heap'⟩ := loop
  refine ⟨?_, ?_⟩
  · constructor
    · rintro ⟨out, hfree⟩ l hl
      rw [← Bool.not_eq_true]
      intro hhangs
      obtain ⟨rop', rfl⟩ := hdangling.mpr ⟨l, hl, hhangs⟩
      cases hfree
    · intro hquiet
      cases rev with
      | none => exact ⟨_, rfl⟩
      | some rev =>
        obtain ⟨bevent, rop'⟩ := rev
        cases bevent with
        | null => exact ⟨_, rfl⟩
        | obj bev' => exact ⟨_, rfl⟩
        | wild =>
          obtain ⟨l, hl, hhangs⟩ := hdangling.mp ⟨rop', rfl⟩
          rw [hquiet l hl] at hhangs
          cases hhangs
  · intro hhung
    have hd := hdangling.mpr hhung
    refine ⟨?_, ?_, fun l loop' => hd.stuck⟩
    · obtain ⟨rop', rfl⟩ := hd
      rfl
    · rintro rev rop' rfl
      obtain ⟨rop'', hrev⟩ := hd
      cases hrev
      rfl

def BuffereventApi.queue : BuffereventApi Bytes where
  toByteSource := ByteSource.queue
  write bev _ := (0, bev)
  pending_write _ _ := rfl

/-- The server closes the connection of a ping. -/
theorem riak_libevent_free_hung_up :
    ¬ ∃ out, riakLibeventFree (some (⟨.wild, pingSent⟩ : RiakLibevent RiakPingResponse Bytes))
      Heap.fresh = .ok out := by
  have hrun : Run (Loop.Step BuffereventApi.queue (pingReadEnv fun _ => none))
      ⟨some ⟨.obj [], pingSent⟩, Heap.fresh⟩ [.signalled { eof := true } false]
      ⟨some (⟨.wild, pingSent⟩ : RiakLibevent RiakPingResponse Bytes), Heap.fresh⟩ :=
    Run.single (.signalled [] pingSent Heap.fresh Heap.fresh { eof := true } false _ rfl)
  intro hfree
  have hquiet := (riak_libevent_free_iff hrun).1.mp hfree _ (List.mem_singleton_self _)
  cases hquiet

end RiakClient
