import RiakClient.Exchange
import RiakClient.Libevent

/-!
# An exchange on the event loop

The runs of the libevent adapter. However the bytes of the peer are cut, whenever
libevent calls back, and whatever the application does in between, what the
application sees is decided by how much had arrived at the last call: the frames
that were whole by then, each of them once and in order, up to the one that closes
the exchange. The only events that have to be kept away are those in the middle of
a length.

The invariant is `Keeps`: what has arrived is a front of the frames, what was shown is
what the frames due by the last call show, and the operation stands where these frames
have left it (`Listens`), or has finished. Only the result callback does anything to
it, and its step is the call of `Exchange`.
-/

namespace RiakClient

open CSem Framing LabelledRun

variable {ρ β : Type} {heap final : Heap} {api : BuffereventApi β} {env : ReadEnv ρ}

/-! ### Histories -/

/-- What a history comes to: what has arrived, how much of it had when the client
    looked last, and what the application saw. -/
structure Tally (ρ : Type) where
  arrived : Bytes := []
  noticed : Nat := 0
  shown : List (ReadEvent ρ) := []

def Tally.add (t : Tally ρ) : LoopLabel ρ → Tally ρ
  | .arrives bytes => { t with arrived := t.arrived ++ bytes }
  | .readable events => { t with noticed := t.arrived.length, shown := t.shown ++ events }
  | .signalled _ _ | .sends _ | .frees => t

def tally (labels : List (LoopLabel ρ)) : Tally ρ := labels.foldl Tally.add {}

theorem tally_snoc (labels : List (LoopLabel ρ)) (l : LoopLabel ρ) :
    tally (labels ++ [l]) = (tally labels).add l :=
  List.foldl_concat Tally.add {} l labels

/-- The client is never called while the bytes so far end in the middle of a
    length. -/
def NoCut (isFinal : WireMessage → Bool) (msgs : List WireMessage)
    (labels : List (LoopLabel ρ)) : Prop :=
  Along (fun before l => (∃ events, l = .readable events) →
    cutsLength WireMessage.body (WireMessage.closes isFinal) msgs (tally before).arrived.length =
      false) labels

def Tally.gotten (isFinal : WireMessage → Bool) (msgs : List WireMessage) (t : Tally ρ) :
    List WireMessage :=
  Framing.arrived WireMessage.body (WireMessage.closes isFinal) msgs t.noticed

/-! ### Where a run stands -/

section Places

variable (decoder : RiakResponseDecoder) (request : RiakRequestCache)
  (isFinal : WireMessage → Bool) (Seen : List WireMessage → Option ρ → Prop)

/-- The exchange is open, and the operation stands where the frames so far have
    left it. -/
structure Listens (msgs got : List WireMessage) (unread : Bytes) (rop : RiakOperation ρ)
    (heap : Heap) : Prop where
  isOpen : ∀ m ∈ got, m.closes isFinal = false
  asks : rop.Asks request
  seen : Seen got rop.response
  rest : ∃ rest r, msgs = got ++ rest ∧ Follows decoder ⟨rop, 0, heap, unread⟩ rest r

/-- The exchange is closed: the last frame that was got did it, and whoever was
    given a response was given the one that the operation has. -/
structure Finished (got : List WireMessage) (rop : RiakOperation ρ)
    (shown : List (ReadEvent ρ)) : Prop where
  idle : rop.Idle
  last : ∃ first m err, got = first ++ [m] ∧ (∀ x ∈ first, x.closes isFinal = false) ∧
    m.closes isFinal = true ∧ Closed Seen got m err rop.response shown

/-- What the adapter has come to. -/
def Loop.Place (api : BuffereventApi β) (rop₀ : RiakOperation ρ) (msgs : List WireMessage)
    (t : Tally ρ) (loop : Loop ρ β) : Prop :=
  match loop.rev with
  | some ⟨.obj bev, rop⟩ =>
      rop.Agrees rop₀ ∧ api.pending bev = t.arrived.drop t.noticed ∧
        Listens decoder request isFinal Seen msgs (t.gotten isFinal msgs)
          ((frames (msgs.map WireMessage.body)).drop t.noticed) rop loop.heap
  | some ⟨.null, rop⟩ => Finished isFinal Seen (t.gotten isFinal msgs) rop t.shown
  | some ⟨.wild, _⟩ => True
  | none => True

end Places

/-! ### Calls of the adapter -/

theorem riakLibeventResultCb_mono {fuel : Nat} {event event' : RiakLibevent ρ β}
    {events : List (ReadEvent ρ)}
    (h : riakLibeventResultCb api env fuel event heap = .ok (some (event', events), final))
    (more : Nat) :
    riakLibeventResultCb api env (fuel + more) event heap = .ok (some (event', events), final) := by
  unfold riakLibeventResultCb at h ⊢
  obtain ⟨ret, heap₁, hread, h⟩ := C.bind_eq_ok.mp h
  cases ret with
  | none => cases h
  | some ret =>
    have hread' := riakReadOnLoop_mono _ more _ _ _ _ _ hread
    unfold riakReadOn
    rw [C.bind_of_ok hread']
    exact h

/-! ### What a call adds

Frames that leave the exchange open let nobody be called with a response, so what was
shown earlier makes no difference. What the input buffer holds is the front of what is
still unread; a callback that is not called in the middle of a length returns, and has
got the frames that had arrived when it was called. -/

theorem Shows.silent {isFinal : WireMessage → Bool} {rop : RiakOperation ρ}
    {msgs : List WireMessage} {events : List (ReadEvent ρ)} (h : Shows isFinal rop msgs events)
    (hopen : ∀ m ∈ msgs, m.closes isFinal = false) (cb : RiakResponseCallback)
    (answer : Option ρ) : .responseCb cb answer ∉ events := by
  intro hmem
  have hnone : events.filterMap ReadEvent.responseCall? = [] := by
    rw [h.responses]
    refine List.flatMap_eq_nil_iff.mpr ?_
    intro m hm
    have hfinal : isFinal m = false := (Bool.or_eq_false_iff.mp (hopen m hm)).2
    rw [hfinal, Bool.and_false]
    rfl
  cases List.filterMap_eq_nil_iff.mp hnone _ hmem

theorem Closed.after {Seen : List WireMessage → Option ρ → Prop} {seen : List WireMessage}
    {m : WireMessage} {err : RiakError} {response : Option ρ} {earlier events : List (ReadEvent ρ)}
    (h : Closed Seen seen m err response events)
    (hearlier : ∀ cb answer, .responseCb cb answer ∉ earlier) :
    Closed Seen seen m err response (earlier ++ events) := by
  refine ⟨fun hresponse => ?_, h.error⟩
  obtain ⟨herr, hseen, hanswer⟩ := h.final hresponse
  refine ⟨herr, hseen, ?_⟩
  intro cb answer hmem
  rcases List.mem_append.mp hmem with hmem | hmem
  · exact absurd hmem (hearlier cb answer)
  · exact hanswer cb answer hmem

theorem unread_split {bytes stream : Bytes} (hpeer : bytes <+: stream) {n : Nat}
    (hn : n ≤ bytes.length) :
    stream.drop n = bytes.drop n ++ stream.drop bytes.length := by
  obtain ⟨future, rfl⟩ := hpeer
  rw [List.drop_append_of_le_length hn, List.drop_left]

section Calls

variable {decoder : RiakResponseDecoder} {request : RiakRequestCache}
  {isFinal : WireMessage → Bool}
  {Seen : List WireMessage → Option ρ → Prop} {msgs got : List WireMessage} {future : Bytes}
  {rop : RiakOperation ρ} {bev : β}

theorem Listens.returns (hgathers : Gathers env decoder request isFinal Seen msgs)
    (hwell : ∀ m ∈ msgs, m.WellFormed env)
    (h : Listens decoder request isFinal Seen msgs got (api.pending bev ++ future) rop heap)
    (hcut : cutsLength WireMessage.body (WireMessage.closes isFinal) msgs
      ((frames (msgs.map WireMessage.body)).length - future.length) = false) :
    ∃ fuel rest ret final more, msgs = got ++ rest ∧
      riakLibeventResultCb api env fuel ⟨.obj bev, rop⟩ heap =
        .ok (some (⟨if ret.done ≠ 0 then .null else .obj ret.source, ret.rop⟩, ret.events),
          final) ∧
      Serves api.toByteSource decoder isFinal Seen got rest future rop more ret final := by
  obtain ⟨rest, r, rfl, hfollows⟩ := h.rest
  have hroom : future.length ≤ (frames (rest.map WireMessage.body)).length := by
    have hunread := r.unread_length_le
    rw [hfollows.unread, hfollows.bodies, List.length_append] at hunread
    omega
  rw [List.map_append, frames_append, List.length_append, Nat.add_sub_assoc hroom,
    cutsLength_append h.isOpen] at hcut
  obtain ⟨ret, final, more, hloop, hserves⟩ :=
    riakReadOnLoop_serves hgathers hwell _ got rest rop bev heap r rfl h.isOpen hfollows
      h.asks h.seen hcut (Nat.lt_succ_self _)
  exact ⟨_, rest, ret, final, more, rfl, riakLibeventResultCb_of_read hloop, hserves⟩

theorem Serves.gotten {rest more : List WireMessage} {ret : ReadReturn ρ β}
    (h : Serves api.toByteSource decoder isFinal Seen got rest future rop more ret final)
    (hopen : ∀ m ∈ got, m.closes isFinal = false) (hmsgs : msgs = got ++ rest) :
    arrived WireMessage.body (WireMessage.closes isFinal) msgs
      ((frames (msgs.map WireMessage.body)).length - future.length) = got ++ more := by
  subst hmsgs
  have hopen' : ∀ {first : List WireMessage}, (∀ m ∈ first, m.closes isFinal = false) →
      ∀ m ∈ got ++ first, m.closes isFinal = false := by
    intro first hfirst m hm
    rcases List.mem_append.mp hm with hm | hm
    · exact hopen m hm
    · exact hfirst m hm
  rcases h.outcome with ⟨later, rfl, hwaits⟩ | ⟨first, m, later, rfl, rfl, hends⟩
  · obtain ⟨r, hfollows⟩ := hwaits.follows
    have hunread : r.unread = future := hfollows.unread
    have hroom : future.length ≤ (frames (later.map WireMessage.body)).length := by
      have hless := r.unread_length_le
      rwa [hunread, hfollows.bodies] at hless
    rw [← List.append_assoc, List.map_append, frames_append, List.length_append,
      Nat.add_sub_assoc hroom, arrived_append (hopen' hwaits.isOpen), ← hunread,
      arrived_reader hfollows.proper hfollows.bodies, List.append_nil]
  · rw [← List.append_assoc, ← List.append_assoc]
    refine arrived_closed (hopen' hends.isOpen) hends.closes ?_
    have hleft := congrArg List.length hends.left
    rw [List.length_append] at hleft
    have htotal : (frames ((got ++ first ++ m :: later).map WireMessage.body)).length =
        (frames ((got ++ first ++ [m]).map WireMessage.body)).length +
          (frames (later.map WireMessage.body)).length := by
      rw [← List.length_append, ← frames_append, ← List.map_append, List.append_assoc _ [m]]
      rfl
    rw [htotal]
    omega

end Calls

/-! ### Whole runs -/

section Runs

variable {decoder : RiakResponseDecoder} {request : RiakRequestCache}
  {isFinal : WireMessage → Bool}
  {Seen : List WireMessage → Option ρ → Prop} {msgs : List WireMessage} {rop₀ : RiakOperation ρ}
  {t : Tally ρ}

/-- What every run keeps. -/
structure Keeps (api : BuffereventApi β) (decoder : RiakResponseDecoder)
    (request : RiakRequestCache) (isFinal : WireMessage → Bool)
    (Seen : List WireMessage → Option ρ → Prop) (msgs : List WireMessage)
    (rop₀ : RiakOperation ρ) (t : Tally ρ) (loop : Loop ρ β) : Prop where
  noticed : t.noticed ≤ t.arrived.length
  shows : Shows isFinal rop₀ (t.gotten isFinal msgs) t.shown
  place : loop.Place decoder request isFinal Seen api rop₀ msgs t

/-- A result callback that is not called in the middle of a length returns, and has
    got the frames that had arrived. -/
theorem Keeps.returns (hgathers : Gathers env decoder request isFinal Seen msgs)
    (hwell : ∀ m ∈ msgs, m.WellFormed env) {bev : β} {rop : RiakOperation ρ}
    (h : Keeps api decoder request isFinal Seen msgs rop₀ t ⟨some ⟨.obj bev, rop⟩, heap⟩)
    (hpeer : t.arrived <+: frames (msgs.map WireMessage.body))
    (hcut : cutsLength WireMessage.body (WireMessage.closes isFinal) msgs t.arrived.length =
      false) :
    ∃ fuel rest ret final more, msgs = t.gotten isFinal msgs ++ rest ∧
      riakLibeventResultCb api env fuel ⟨.obj bev, rop⟩ heap =
        .ok (some (⟨if ret.done ≠ 0 then .null else .obj ret.source, ret.rop⟩, ret.events),
          final) ∧
      Serves api.toByteSource decoder isFinal Seen (t.gotten isFinal msgs) rest
        ((frames (msgs.map WireMessage.body)).drop t.arrived.length) rop more ret final ∧
      (t.add (.readable ret.events)).gotten isFinal msgs = t.gotten isFinal msgs ++ more := by
  obtain ⟨_, hpending, hlistens⟩ := h.place
  rw [unread_split hpeer h.noticed, ← hpending] at hlistens
  have hcount : (frames (msgs.map WireMessage.body)).length -
      ((frames (msgs.map WireMessage.body)).drop t.arrived.length).length = t.arrived.length := by
    have hle := hpeer.length_le
    rw [List.length_drop]
    omega
  obtain ⟨fuel, rest, ret, final, more, hmsgs, hcb, hserves⟩ :=
    hlistens.returns hgathers hwell (by rw [hcount]; exact hcut)
  have harrived := hserves.gotten hlistens.isOpen hmsgs
  rw [hcount] at harrived
  exact ⟨fuel, rest, ret, final, more, hmsgs, hcb, hserves, harrived⟩

/-- **The step of a result callback.** -/
theorem Keeps.readable (hgathers : Gathers env decoder request isFinal Seen msgs)
    (hwell : ∀ m ∈ msgs, m.WellFormed env) {bev : β} {rop : RiakOperation ρ} {fuel : Nat}
    {event : RiakLibevent ρ β} {events : List (ReadEvent ρ)}
    (h : Keeps api decoder request isFinal Seen msgs rop₀ t ⟨some ⟨.obj bev, rop⟩, heap⟩)
    (hpeer : t.arrived <+: frames (msgs.map WireMessage.body))
    (hcut : cutsLength WireMessage.body (WireMessage.closes isFinal) msgs t.arrived.length = false)
    (hcb : riakLibeventResultCb api env fuel ⟨.obj bev, rop⟩ heap =
      .ok (some (event, events), final)) :
    Keeps api decoder request isFinal Seen msgs rop₀ (t.add (.readable events))
      ⟨some event, final⟩ := by
  obtain ⟨hagrees, _, hlistens⟩ := h.place
  obtain ⟨bound, rest, ret, heap', more, hmsgs, hcb', hserves, hgotten⟩ :=
    h.returns hgathers hwell hpeer hcut
  -- the two calls differ in their fuel only
  have hsame := riakLibeventResultCb_mono hcb bound
  rw [Nat.add_comm, riakLibeventResultCb_mono hcb' fuel] at hsame
  cases hsame
  refine ⟨Nat.le_refl _, ?_, ?_⟩
  · rw [hgotten]
    exact h.shows.append (hserves.shows.congr hagrees.responseCb hagrees.errorCb)
  · unfold Loop.Place
    rcases hserves.outcome with ⟨later, hlater, hwaits⟩ | ⟨first, m, later, hmore, hlater, hends⟩
    · rw [if_neg (fun hne => hne hwaits.done), hgotten]
      refine ⟨hserves.agrees.trans hagrees, ?_, ?_, ?_, hwaits.seen, later, ?_⟩
      · show api.pending ret.source = t.arrived.drop t.arrived.length
        rw [List.drop_length]
        exact hwaits.drained
      · intro x hx
        rcases List.mem_append.mp hx with hx | hx
        · exact hlistens.isOpen x hx
        · exact hwaits.isOpen x hx
      · exact hserves.agrees.asks hlistens.asks
      · obtain ⟨r, hfollows⟩ := hwaits.follows
        refine ⟨r, ?_, hfollows⟩
        rw [List.append_assoc, ← hlater]
        exact hmsgs
    · rw [if_pos hends.done, hgotten, hmore]
      refine ⟨hends.idle, _, m, ret.err, (List.append_assoc _ first [m]).symm, ?_, hends.closes,
        ?_⟩
      · intro x hx
        rcases List.mem_append.mp hx with hx | hx
        · exact hlistens.isOpen x hx
        · exact hends.isOpen x hx
      · rw [← List.append_assoc]
        refine hends.closed.after ?_
        intro cb answer
        exact h.shows.silent hlistens.isOpen cb answer

/-- **Every step keeps it.** -/
theorem Keeps.step (hgathers : Gathers env decoder request isFinal Seen msgs)
    (hwell : ∀ m ∈ msgs, m.WellFormed env) {loop loop' : Loop ρ β} {l : LoopLabel ρ}
    (h : Keeps api decoder request isFinal Seen msgs rop₀ t loop)
    (hstep : Loop.Step api env loop l loop')
    (hpeer : t.arrived <+: frames (msgs.map WireMessage.body))
    (hcut : (∃ events, l = .readable events) →
      cutsLength WireMessage.body (WireMessage.closes isFinal) msgs t.arrived.length = false) :
    Keeps api decoder request isFinal Seen msgs rop₀ (t.add l) loop' := by
  have hplace := h.place
  cases hstep with
  | readable bev rop heap heap' fuel event events hcb =>
    exact h.readable hgathers hwell hpeer (hcut ⟨events, rfl⟩) hcb
  | arrives bev rop heap bytes =>
    obtain ⟨hagrees, hpending, hlistens⟩ := hplace
    refine ⟨?_, h.shows, hagrees, ?_, hlistens⟩
    · show t.noticed ≤ (t.arrived ++ bytes).length
      rw [List.length_append]
      exact Nat.le_add_right_of_le h.noticed
    · show api.pending (api.append bev bytes) = (t.arrived ++ bytes).drop t.noticed
      rw [api.pending_append, hpending, List.drop_append_of_le_length h.noticed]
  | signalled bev rop heap heap' events dnsError event hcb =>
    obtain ⟨rfl, rfl⟩ := riakLibeventConnectionCb_eq_ok hcb
    refine ⟨h.noticed, h.shows, ?_⟩
    by_cases hhangs : events.hangsUp = true
    · rw [if_pos hhangs]
      trivial
    · rw [if_neg hhangs]
      exact hplace
  | sends rev event heap heap' err hsend =>
    obtain ⟨bev, bev', hbevent, rfl, hpending, rfl⟩ := riakLibeventSend_eq_ok hsend
    obtain ⟨bevent, rop⟩ := rev
    cases hbevent
    obtain ⟨hagrees, hinput, hlistens⟩ := hplace
    exact ⟨h.noticed, h.shows, hagrees, hpending.trans hinput, hlistens⟩
  | frees rev rev' heap heap' hfree =>
    obtain ⟨rfl, rfl⟩ := riakLibeventFree_eq_ok hfree
    exact ⟨h.noticed, h.shows, trivial⟩

theorem Tally.arrived_add (t : Tally ρ) (l : LoopLabel ρ) : t.arrived <+: (t.add l).arrived := by
  cases l with
  | arrives bytes => exact List.prefix_append _ _
  | readable events => exact List.prefix_refl _
  | signalled events dnsError => exact List.prefix_refl _
  | sends err => exact List.prefix_refl _
  | frees => exact List.prefix_refl _

/-- **An exchange on the event loop**, over every order of the steps of the peer, of
    libevent and of the application: if the peer sends these frames, and the client
    is not called in the middle of a length, then the application sees the frames
    that had arrived at the last call, the adapter is done with its bufferevent
    exactly if one of them closes the exchange, and a result callback returns
    wherever libevent may call it. -/
theorem riak_libevent_exchange (hgathers : Gathers env decoder request isFinal Seen msgs)
    (hwell : ∀ m ∈ msgs, m.WellFormed env) {rop : RiakOperation ρ} {bev : β}
    (hdecoder : rop.decoder = some decoder) (hidle : rop.Idle) (hasks : rop.Asks request)
    (hseen : Seen [] rop.response) (hheap : heap.Ample) (hinput : api.pending bev = [])
    {labels : List (LoopLabel ρ)} {loop : Loop ρ β}
    (hrun : Run (Loop.Step api env) ⟨some ⟨.obj bev, rop⟩, heap⟩ labels loop)
    (hpeer : (tally labels).arrived <+: frames (msgs.map WireMessage.body))
    (hcut : NoCut isFinal msgs labels) :
    Shows isFinal rop ((tally labels).gotten isFinal msgs) (tally labels).shown ∧
      loop.Place decoder request isFinal Seen api rop msgs (tally labels) ∧
      ∀ bev' rop', loop.rev = some ⟨.obj bev', rop'⟩ →
        cutsLength WireMessage.body (WireMessage.closes isFinal) msgs
          (tally labels).arrived.length = false →
        ∃ events loop', Loop.Step api env loop (.readable events) loop' := by
  have hkeeps : Keeps api decoder request isFinal Seen msgs rop (tally labels) loop := by
    refine hrun.invariant (fun labels loop =>
      (tally labels).arrived <+: frames (msgs.map WireMessage.body) → NoCut isFinal msgs labels →
        Keeps api decoder request isFinal Seen msgs rop (tally labels) loop) ?_ ?_ hpeer hcut
    · intro _ _
      have hnothing : (tally ([] : List (LoopLabel ρ))).gotten isFinal msgs = [] := by
        cases msgs with
        | nil => rfl
        | cons m msgs => exact arrived_of_lt (by show 0 < _; omega)
      refine ⟨Nat.le_refl _, ?_, ⟨rfl, rfl, rfl, rfl, rfl⟩, hinput, ?_⟩
      · rw [hnothing]
        exact Shows.nil
      · rw [hnothing]
        exact ⟨nofun, hasks, hseen, msgs, _, rfl,
          follows_between hdecoder hheap hidle rfl⟩
    · intro labels loop l loop' ih hstep hpeer hcut
      rw [tally_snoc] at hpeer ⊢
      obtain ⟨hbefore, hlast⟩ := along_snoc.mp hcut
      have hpeer' := (Tally.arrived_add _ l).trans hpeer
      exact (ih hpeer' hbefore).step hgathers hwell hstep hpeer' hlast
  refine ⟨hkeeps.shows, hkeeps.place, ?_⟩
  intro bev' rop' hrev hwhole
  obtain ⟨rev, heap'⟩ := loop
  cases hrev
  obtain ⟨fuel, _, ret, final, _, _, hcb, _⟩ := hkeeps.returns hgathers hwell hpeer hwhole
  exact ⟨_, _, .readable bev' rop' heap' final fuel _ _ hcb⟩

end Runs

end RiakClient
