import Mathlib.Algebra.GroupWithZero.Nat
import RiakClient.AllOrNothing
import RiakClient.BucketpropsDecode
import RiakClient.Read

/-!
# The answer to a request for bucket properties

`riak_get_bucketprops_response_decode` around `riak_bucketprops_new_from_pb`, for
every answer of the allocator. The properties are built if every request that
their message needs is granted; the decoder forgets the error of a message that
cannot be built, frees its response and reports success.

The copy is all or nothing, part by part, with the error of each part ending it; the
number of its requests is a function of the message. What is left is the path of that
error, through the decoder and through `riak_read` to the callback.
-/

namespace RiakClient

open CSem

variable {heap final : Heap}

/-! ### The response -/

structure RiakGetBucketpropsResponse where
  props : Option RiakBucketprops := none
deriving DecidableEq, Repr

/-- `riak_get_bucketprops_response_decode`. When the properties cannot be built,
    `riak_free` makes `response` NULL and the NULL is stored. -/
def riakGetBucketpropsResponseDecode (unpack : Bytes → Option RpbGetBucketResp)
    (pbresp : Option RiakPbMessage) (resp : Option RiakGetBucketpropsResponse)
    (done : RiakBoolean) : C (Decoded RiakGetBucketpropsResponse) := do
  let message ← C.deref pbresp
  match unpack (← message.payload) with
  | none => pure ⟨.messageFormat, resp, done⟩
  | some rpbresp =>
      if ← C.allocate then
        let (err, props) ← riakBucketpropsNewFromPb rpbresp.props
        pure ⟨.ok, if err ≠ .ok then none else some ⟨props⟩, 1⟩
      else pure ⟨.outOfMemory, resp, 1⟩

/-- `riak_read` with the decoder that a request for bucket properties installs. -/
def bucketpropsReadEnv (unpack : Bytes → Option RpbGetBucketResp)
    (rpbErrorRespUnpack : Bytes → Option RpbErrorResp) : ReadEnv RiakGetBucketpropsResponse where
  decode _ _ pbresp resp done := riakGetBucketpropsResponseDecode unpack pbresp resp done
  rpbErrorRespUnpack := rpbErrorRespUnpack

/-! ### What a message makes -/

/-- The array of hooks that a member with its flag makes. -/
def decodedHooks (hasHas : Bool) (has : RiakBoolean) (hooks : Repeated RpbCommitHook) :
    Option (List (Option RiakCommitHook)) :=
  if hasHas then
    if has ≠ 0 then some ((hooks.entries.map RpbCommitHook.decoded).map some) else none
  else none

/-- The count that goes with it. -/
def decodedCount (hasHas : Bool) (has : RiakBoolean) (hooks : Repeated RpbCommitHook) : Nat :=
  if hasHas then if has ≠ 0 then hooks.count else 0 else 0

/-- The properties with everything that their message has. -/
def RpbBucketProps.decoded (props : RpbBucketProps) : RiakBucketprops where
  hasNVal := props.hasNVal
  nVal := assignIf props.hasNVal props.nVal
  hasAllowMult := props.hasAllowMult
  allowMult := assignIf props.hasAllowMult props.allowMult
  hasLastWriteWins := props.hasLastWriteWins
  lastWriteWins := assignIf props.hasLastWriteWins props.lastWriteWins
  hasHasPrecommit := props.hasHasPrecommit
  hasPrecommit := assignIf props.hasHasPrecommit props.hasPrecommit
  nPrecommit := decodedCount props.hasHasPrecommit props.hasPrecommit props.precommit
  precommit := decodedHooks props.hasHasPrecommit props.hasPrecommit props.precommit
  hasHasPostcommit := props.hasHasPostcommit
  hasPostcommit := assignIf props.hasHasPostcommit props.hasPostcommit
  nPostcommit := decodedCount props.hasHasPostcommit props.hasPostcommit props.postcommit
  postcommit := decodedHooks props.hasHasPostcommit props.hasPostcommit props.postcommit
  chashKeyfun := props.chashKeyfun.map RpbModFun.decoded
  linkfun := props.linkfun.map RpbModFun.decoded
  hasOldVclock := props.hasOldVclock
  oldVclock := assignIf props.hasOldVclock props.oldVclock
  hasYoungVclock := props.hasYoungVclock
  youngVclock := assignIf props.hasYoungVclock props.youngVclock
  hasBigVclock := props.hasBigVclock
  bigVclock := assignIf props.hasBigVclock props.bigVclock
  hasSmallVclock := props.hasSmallVclock
  smallVclock := assignIf props.hasSmallVclock props.smallVclock
  hasPr := props.hasPr
  pr := assignIf props.hasPr props.pr
  hasR := props.hasR
  r := assignIf props.hasR props.r
  hasW := props.hasW
  w := assignIf props.hasW props.w
  hasPw := props.hasPw
  pw := assignIf props.hasPw props.pw
  hasDw := props.hasDw
  dw := assignIf props.hasDw props.dw
  hasRw := props.hasRw
  rw := assignIf props.hasRw props.rw
  hasBasicQuorum := props.hasBasicQuorum
  basicQuorum := assignIf props.hasBasicQuorum props.basicQuorum
  hasNotfoundOk := props.hasNotfoundOk
  notfoundOk := assignIf props.hasNotfoundOk props.notfoundOk
  hasBackend := props.hasBackend
  backend := decodedBinary props.hasBackend props.backend
  hasSearch := props.hasSearch
  search := assignIf props.hasSearch props.search
  hasRepl := props.hasRepl
  repl := assignIf props.hasRepl props.repl
  hasSearchIndex := props.hasSearchIndex
  searchIndex := decodedBinary props.hasSearchIndex props.searchIndex

/-- Hooks that can be copied: an `int` can count them and each has a function. -/
def HooksBuildable (hasHas : Bool) (has : RiakBoolean) (hooks : Repeated RpbCommitHook) : Prop :=
  hasHas = true → has ≠ 0 →
    hooks.count < 2 ^ 31 ∧ ∀ pbhook ∈ hooks.entries, pbhook.modfun.isSome = true

/-- A message that can be copied. -/
structure RpbBucketProps.Buildable (props : RpbBucketProps) : Prop where
  precommit : HooksBuildable props.hasHasPrecommit props.hasPrecommit props.precommit
  postcommit : HooksBuildable props.hasHasPostcommit props.hasPostcommit props.postcommit
  chashKeyfun : props.chashKeyfun.isSome = true
  linkfun : props.linkfun.isSome = true

/-! ### The requests of a copy -/

/-- A binary member makes a request if it is there. -/
def memberRequests (has : Bool) : Nat := if has then 1 else 0

/-- The struct of a hook, its name, and the three requests of its function. -/
def hookRequests (pbhook : RpbCommitHook) : Nat := 1 + (memberRequests pbhook.hasName + 3)

/-- The array of pointers, and the hooks. -/
def hooksRequests (hasHas : Bool) (has : RiakBoolean) (hooks : Repeated RpbCommitHook) : Nat :=
  if hasHas then if has ≠ 0 then 1 + (hooks.entries.map hookRequests).sum else 0 else 0

def RpbBucketProps.requests (props : RpbBucketProps) : Nat :=
  1 + (hooksRequests props.hasHasPrecommit props.hasPrecommit props.precommit +
    (hooksRequests props.hasHasPostcommit props.hasPostcommit props.postcommit +
      (memberRequests props.hasBackend + (memberRequests props.hasSearchIndex + (3 + 3)))))

theorem copyFromPbIf_allOrNothing (has : Bool) (data : Bytes) :
    AllOrNothing (fun copy => copy.isSome = true) (copyFromPbIf has data) (memberRequests has)
      (some (decodedBinary has data)) := by
  unfold copyFromPbIf memberRequests
  cases has with
  | false => exact .pure _
  | true =>
    refine (AllOrNothing.new (⟨data, false⟩ : RiakBinary)).bind_some (k := 0) (.pure _) ?_
    intro heap y final hrun
    cases hrun
    exact nofun

/-- The function's struct is asked for first, and read before it is known to be
    there. -/
theorem riakModfunCopyFromPb_allOrNothing (pbmodFun : RpbModFun) :
    AllOrNothing (fun result => result.1 = .ok) (riakModfunCopyFromPb (some pbmodFun)) 3
      (.ok, some pbmodFun.decoded) := by
  unfold riakModfunCopyFromPb
  refine AllOrNothing.ask (k := 2) ?_ ?_
  · refine (AllOrNothing.new (⟨pbmodFun.module, false⟩ : RiakBinary)).bind_some (k := 1) ?_ ?_
    · refine (AllOrNothing.new (⟨pbmodFun.function, false⟩ : RiakBinary)).bind_some (k := 0)
        (.pure _) ?_
      intro heap y final hrun
      cases hrun
      exact nofun
    · intro heap y final hrun
      cases hrun
      exact nofun
  · intro heap y final hrun
    obtain ⟨module, heap₁, _, hrest⟩ := C.bind_eq_ok.mp hrun
    cases hrest

theorem riakCommitHookCopyFromPb_allOrNothing {pbhooks : List RpbCommitHook} {i : Nat}
    {pbhook : RpbCommitHook} (hget : pbhooks[i]? = some pbhook)
    (hmodfun : pbhook.modfun.isSome = true) :
    AllOrNothing (fun hook => hook.isSome = true) (riakCommitHookCopyFromPb (some pbhooks) i)
      (hookRequests pbhook) (some pbhook.decoded) := by
  obtain ⟨modfun, hmodfun⟩ := Option.isSome_iff_exists.mp hmodfun
  unfold riakCommitHookCopyFromPb hookRequests
  refine AllOrNothing.ask ?_ ?_
  · simp only [if_true, C.deref_some, pure_bind, C.readAt_of_get hget]
    refine (copyFromPbIf_allOrNothing pbhook.hasName pbhook.name).bind_some ?_ ?_
    · rw [hmodfun]
      refine (riakModfunCopyFromPb_allOrNothing modfun).bind (k := 0) ?_ ?_
      · unfold RpbCommitHook.decoded
        rw [hmodfun]
        exact .pure _
      · rintro ⟨err, copy⟩ heap y final herr hrun
        rw [if_neg herr] at hrun
        cases hrun
        exact nofun
    · intro heap y final hrun
      cases hrun
      exact nofun
  · intro heap y final hrun
    cases hrun
    exact nofun

theorem copyLoop_allOrNothing {α β : Type} {copy : Nat → C (Option β)} {requests : α → Nat}
    {make : α → β} :
    ∀ (entries : List α) (i : Nat), i + entries.length < 2 ^ 31 →
    (∀ j entry, entries[j]? = some entry →
      AllOrNothing (fun item => item.isSome = true) (copy (i + j)) (requests entry)
        (some (make entry))) →
    AllOrNothing (fun items => items.isSome = true) (copyLoop copy entries.length i)
      (entries.map requests).sum (some (entries.map make)) := by
  intro entries
  induction entries with
  | nil => exact fun i _ _ => .pure _
  | cons entry entries ih =>
    intro i hbound hcopy
    rw [List.length_cons] at hbound
    have hlater := ih (i + 1) (by omega) (by
      intro j later hget
      have hround := hcopy (j + 1) later hget
      rwa [show i + (j + 1) = i + 1 + j by omega] at hround)
    rw [List.length_cons, copyLoop, List.map_cons, List.sum_cons]
    refine (hcopy 0 entry rfl).bind_some ?_ ?_
    · simp only
      rw [C.intSucc_of_lt (by omega), pure_bind]
      refine hlater.bind_some (k := 0) (.pure _) ?_
      intro heap y final hrun
      cases hrun
      exact Bool.false_ne_true
    · intro heap y final hrun
      cases hrun
      exact Bool.false_ne_true

/-! ### When a message is built

A hook that was copied has a function, and a message whose properties are all there
could be built: so the two conditions, that it can be and that the requests are
granted, are necessary. -/

theorem riakCommitHooksCopyFromPb_allOrNothing {hooks : Repeated RpbCommitHook}
    (hlength : hooks.entries.length = hooks.count) (hbound : hooks.count < 2 ^ 31)
    (hmodfun : ∀ pbhook ∈ hooks.entries, pbhook.modfun.isSome = true) :
    AllOrNothing (fun entries => entries.isSome = true)
      (riakCommitHooksCopyFromPb hooks.items (UInt32.ofNat hooks.count))
      (1 + (hooks.entries.map hookRequests).sum)
      (some (hooks.entries.map RpbCommitHook.decoded)) := by
  unfold riakCommitHooksCopyFromPb copyArray
  rw [UInt32.toNat_ofNat_of_lt' (Nat.lt_trans hbound (by decide)), ← hlength]
  refine AllOrNothing.ask ?_ ?_
  · rw [if_pos rfl]
    apply copyLoop_allOrNothing _ _ (by omega)
    intro j pbhook hget
    obtain ⟨pbhooks, hitems, hentry⟩ := Repeated.get hget
    rw [hitems, Nat.zero_add]
    exact riakCommitHookCopyFromPb_allOrNothing hentry
      (hmodfun pbhook (List.mem_of_getElem? hget))
  · intro heap y final hrun
    cases hrun
    exact nofun

theorem decodeHooksIf_allOrNothing {hasHas : Bool} {has : RiakBoolean}
    {hooks : Repeated RpbCommitHook} (hlength : hooks.entries.length = hooks.count)
    (hok : HooksBuildable hasHas has hooks) :
    AllOrNothing (fun result => result.1 = .ok) (decodeHooksIf hasHas has hooks)
      (hooksRequests hasHas has hooks)
      (.ok, assignIf hasHas has, decodedCount hasHas has hooks,
        decodedHooks hasHas has hooks) := by
  unfold decodeHooksIf hooksRequests decodedCount decodedHooks assignIf
  cases hasHas with
  | false => exact .pure _
  | true =>
    simp only [if_true]
    by_cases hhas : has = 0
    · simp only [hhas, ne_eq, not_true_eq_false, if_false]
      exact .pure _
    · simp only [ne_eq, hhas, not_false_eq_true, if_true]
      obtain ⟨hbound, hmodfun⟩ := hok rfl hhas
      refine (riakCommitHooksCopyFromPb_allOrNothing hlength hbound hmodfun).bind_some (k := 0)
        (.pure _) ?_
      intro heap y final hrun
      cases hrun
      exact nofun

theorem riakBucketpropsNewFromPb_allOrNothing {props : RpbBucketProps} (hok : props.Buildable)
    (hpre : props.precommit.entries.length = props.precommit.count)
    (hpost : props.postcommit.entries.length = props.postcommit.count) :
    AllOrNothing (fun result => result.1 = .ok) (riakBucketpropsNewFromPb props) props.requests
      (.ok, some props.decoded) := by
  obtain ⟨chashKeyfun, hchash⟩ := Option.isSome_iff_exists.mp hok.chashKeyfun
  obtain ⟨linkfun, hlink⟩ := Option.isSome_iff_exists.mp hok.linkfun
  unfold riakBucketpropsNewFromPb RpbBucketProps.requests
  refine AllOrNothing.ask ?_ ?_
  · rw [if_pos rfl]
    refine (decodeHooksIf_allOrNothing hpre hok.precommit).bind ?_ ?_
    · simp only [ne_eq, not_true_eq_false, if_false]
      refine (decodeHooksIf_allOrNothing hpost hok.postcommit).bind ?_ ?_
      · simp only [not_true_eq_false, if_false]
        unfold decodeScalars
        refine (copyFromPbIf_allOrNothing props.hasBackend props.backend).bind_some ?_ ?_
        · refine (copyFromPbIf_allOrNothing props.hasSearchIndex props.searchIndex).bind_some
            ?_ ?_
          · unfold decodeFunctions RpbBucketProps.decoded
            rw [hchash, hlink]
            refine (riakModfunCopyFromPb_allOrNothing chashKeyfun).bind ?_ ?_
            · simp only [ne_eq, not_true_eq_false, if_false]
              refine (riakModfunCopyFromPb_allOrNothing linkfun).bind (k := 0) (.pure _) ?_
              rintro ⟨err, copy⟩ heap y final herr hrun
              cases hrun
              exact herr
            · rintro ⟨err, copy⟩ heap y final herr hrun
              simp only [ne_eq, show ¬ err = .ok from herr, not_false_eq_true, if_true] at hrun
              cases hrun
              exact herr
          · intro heap y final hrun
            cases hrun
            exact nofun
        · intro heap y final hrun
          cases hrun
          exact nofun
      · rintro ⟨err, has, n, array⟩ heap y final herr hrun
        simp only [show ¬ err = .ok from herr, not_false_eq_true, if_true] at hrun
        cases hrun
        exact herr
    · rintro ⟨err, has, n, array⟩ heap y final herr hrun
      simp only [ne_eq, show ¬ err = .ok from herr, not_false_eq_true, if_true] at hrun
      cases hrun
      exact herr
  · intro heap y final hrun
    cases hrun
    exact nofun

theorem riakCommitHookCopyFromPb_eq_some {pbhooks : List RpbCommitHook} {i : Nat}
    {pbhook : RpbCommitHook} (hget : pbhooks[i]? = some pbhook) {hook : RiakCommitHook}
    (hrun : riakCommitHookCopyFromPb (some pbhooks) i heap = .ok (some hook, final)) :
    pbhook.modfun.isSome = true := by
  obtain ⟨granted, heap₁, _, hentry⟩ := C.bind_eq_ok.mp hrun
  cases granted with
  | false => cases hentry
  | true =>
    simp only [if_true, C.deref_some, pure_bind, C.readAt_of_get hget] at hentry
    obtain ⟨name, heap₂, _, hmodfun⟩ := C.bind_eq_ok.mp hentry
    cases name with
    | none => cases hmodfun
    | some name =>
      obtain ⟨⟨err, modfun⟩, heap₃, hcopied, hlast⟩ := C.bind_eq_ok.mp hmodfun
      by_cases herr : err = .ok
      · subst herr
        exact riakModfunCopyFromPb_eq_ok hcopied
      · simp only [herr, if_false] at hlast
        cases hlast

theorem hooksBuildable_of_decoded {hasHas : Bool} {has has' : RiakBoolean}
    {hooks : Repeated RpbCommitHook} (hlength : hooks.entries.length = hooks.count) {n : Nat}
    (hrun : decodeHooksIf hasHas has hooks heap =
      .ok ((.ok, has', n, decodedHooks hasHas has hooks), final)) :
    HooksBuildable hasHas has hooks := by
  rintro rfl hhas
  unfold decodeHooksIf decodedHooks at hrun
  simp only [if_true, ne_eq, hhas, not_false_eq_true] at hrun
  obtain ⟨copied, heap₁, hcopied, hlast⟩ := C.bind_eq_ok.mp hrun
  cases copied with
  | none => cases hlast
  | some entries =>
    have hsame : entries.map some = (hooks.entries.map RpbCommitHook.decoded).map some := by
      simp only [C.pure_apply, Except.ok.injEq, Prod.mk.injEq, Option.some.injEq] at hlast
      exact hlast.1.2.2.2
    have hcount : entries.length = hooks.count := by
      have hlengths := congrArg List.length hsame
      rwa [List.length_map, List.length_map, List.length_map, hlength] at hlengths
    unfold riakCommitHooksCopyFromPb copyArray at hcopied
    obtain ⟨granted, heap₂, _, hloop⟩ := C.bind_eq_ok.mp hcopied
    cases granted with
    | false => cases hloop
    | true =>
      obtain ⟨hmade, hbound, hrounds⟩ := copyLoop_rounds _ 0 hloop
      rw [hcount] at hmade
      rw [← hmade] at hbound hrounds
      refine ⟨by omega, ?_⟩
      intro pbhook hmem
      obtain ⟨j, hj, hget⟩ := List.mem_iff_getElem.mp hmem
      have hentry : hooks.entries[j]? = some pbhook := by
        rw [List.getElem?_eq_getElem hj, hget]
      obtain ⟨heap₃, heap₄, hook, _, hround⟩ := hrounds j (by rw [← hlength]; exact hj)
      obtain ⟨pbhooks, hitems, hslot⟩ := Repeated.get hentry
      rw [hitems, Nat.zero_add] at hround
      exact riakCommitHookCopyFromPb_eq_some hslot hround

theorem buildable_of_decoded {props : RpbBucketProps}
    (hpre : props.precommit.entries.length = props.precommit.count)
    (hpost : props.postcommit.entries.length = props.postcommit.count)
    (hrun : riakBucketpropsNewFromPb props heap = .ok ((.ok, some props.decoded), final)) :
    props.Buildable := by
  unfold riakBucketpropsNewFromPb at hrun
  obtain ⟨granted, heap₁, _, hbuild⟩ := C.bind_eq_ok.mp hrun
  cases granted with
  | false => cases hbuild
  | true =>
    rw [if_pos rfl] at hbuild
    obtain ⟨⟨err, has, nPre, precommit⟩, heap₂, hrunPre, hnext⟩ := C.bind_eq_ok.mp hbuild
    by_cases herr : err = .ok
    · subst herr
      simp only [ne_eq, not_true_eq_false, if_false] at hnext
      obtain ⟨⟨err, has', nPost, postcommit⟩, heap₃, hrunPost, hlast⟩ := C.bind_eq_ok.mp hnext
      by_cases herr' : err = .ok
      · subst herr'
        simp only [not_true_eq_false, if_false] at hlast
        obtain ⟨hchash, hlink, _, hPre, _, hPost⟩ := decodeScalars_eq_ok hlast
        have hPre' : precommit = decodedHooks props.hasHasPrecommit props.hasPrecommit
            props.precommit := hPre.symm
        have hPost' : postcommit = decodedHooks props.hasHasPostcommit props.hasPostcommit
            props.postcommit := hPost.symm
        rw [hPre'] at hrunPre
        rw [hPost'] at hrunPost
        exact ⟨hooksBuildable_of_decoded hpre hrunPre, hooksBuildable_of_decoded hpost hrunPost,
          hchash, hlink⟩
      · simp only [herr', not_false_eq_true, if_true] at hlast
        exact absurd (congrArg Prod.fst (C.pure_eq_ok.mp hlast).1) herr'
    · simp only [ne_eq, herr, not_false_eq_true, if_true] at hnext
      exact absurd (congrArg Prod.fst (C.pure_eq_ok.mp hnext).1) herr

/-- The properties of a message are built if and only if they can be, and every
    request is granted. -/
theorem riakBucketpropsNewFromPb_built_iff {props : RpbBucketProps}
    (hpre : props.precommit.entries.length = props.precommit.count)
    (hpost : props.postcommit.entries.length = props.postcommit.count) (heap : Heap) :
    (∃ final, riakBucketpropsNewFromPb props heap = .ok ((.ok, some props.decoded), final)) ↔
      props.Buildable ∧ heap.Grants props.requests := by
  constructor
  · rintro ⟨final, hrun⟩
    have hok := buildable_of_decoded hpre hpost hrun
    exact ⟨hok, (riakBucketpropsNewFromPb_allOrNothing hok hpre hpost).of_success hrun rfl⟩
  · rintro ⟨hok, hgrants⟩
    exact ⟨_, (riakBucketpropsNewFromPb_allOrNothing hok hpre hpost).granted heap hgrants⟩

/-! ### The error on its way to the application

One equation for the decoder, with a case for each way that a message can fare. -/

/-- The decoder succeeds with a response that it has put there with all properties
    of the message, or fails and leaves the target alone. -/
def OkIffBuilt (unpacked : Option RpbGetBucketResp) (resp : Option RiakGetBucketpropsResponse)
    (result : Decoded RiakGetBucketpropsResponse) : Prop :=
  (result.err = .ok ∧ ∃ rpbresp, unpacked = some rpbresp ∧
      result.resp = some ⟨some rpbresp.props.decoded⟩) ∨
    (result.err ≠ .ok ∧ result.resp = resp)

/-- The decoder comes back like this, and `riak_read` then calls no response
    callback with NULL. -/
structure ErrorsPropagated (unpack : Bytes → Option RpbGetBucketResp) (message : RiakPbMessage)
    (payload : Bytes) (heap : Heap) : Prop where
  decoder : ∀ resp done, ∃ result final,
    riakGetBucketpropsResponseDecode unpack (some message) resp done heap =
        .ok (result, final) ∧
      OkIffBuilt (unpack payload) resp result
  callback : ∀ rpbErrorRespUnpack (rop : RiakOperation RiakGetBucketpropsResponse) msgid,
    rop.decoder.isSome → msgid ≠ MSG_RPBERRORRESP → ∃ turn final,
      riakReadDispatch (bucketpropsReadEnv unpack rpbErrorRespUnpack) rop msgid (some message)
          heap = .ok (turn, final) ∧
        ∀ cb, .responseCb cb none ∉ turn.events

theorem riakReadDispatch_of_okIffBuilt {unpack : Bytes → Option RpbGetBucketResp}
    {rpbErrorRespUnpack : Bytes → Option RpbErrorResp}
    {rop : RiakOperation RiakGetBucketpropsResponse} {msgid : UInt8} {message : RiakPbMessage}
    {unpacked : Option RpbGetBucketResp} {result : Decoded RiakGetBucketpropsResponse}
    (hdecoder : rop.decoder.isSome) (hmsgid : msgid ≠ MSG_RPBERRORRESP)
    (hdecode : riakGetBucketpropsResponseDecode unpack (some message) rop.response 1 heap =
      .ok (result, final)) (hright : OkIffBuilt unpacked rop.response result) :
    ∃ turn, riakReadDispatch (bucketpropsReadEnv unpack rpbErrorRespUnpack) rop msgid
        (some message) heap = .ok (turn, final) ∧ ∀ cb, .responseCb cb none ∉ turn.events := by
  obtain ⟨decoder, hdecoder⟩ := Option.isSome_iff_exists.mp hdecoder
  have henv : (bucketpropsReadEnv unpack rpbErrorRespUnpack).decode decoder rop (some message)
      rop.response 1 heap = .ok (result, final) := hdecode
  unfold riakReadDispatch
  rw [hdecoder]
  simp only
  rw [if_neg hmsgid, C.bind_of_ok henv]
  rcases hright with ⟨hok, rpbresp, _, hresp⟩ | ⟨herr, _⟩
  · simp only [hok, ne_eq, not_true_eq_false, if_false]
    by_cases hdone : result.done = 0
    · simp only [hdone, not_true_eq_false, if_false]
      refine ⟨_, rfl, ?_⟩
      intro cb hmem
      cases List.mem_singleton.mp hmem
    · simp only [hdone, not_false_eq_true, if_true]
      refine ⟨_, rfl, ?_⟩
      intro cb hmem
      rcases List.mem_cons.mp hmem with hdecoded | hcalled
      · cases hdecoded
      · unfold responseCbEvents at hcalled
        simp only [hresp] at hcalled
        cases hcb : rop.responseCb with
        | none =>
          rw [hcb] at hcalled
          exact absurd hcalled List.not_mem_nil
        | some cb' =>
          rw [hcb] at hcalled
          cases List.mem_singleton.mp hcalled
  · simp only [ne_eq, herr, not_false_eq_true, if_true]
    refine ⟨_, rfl, ?_⟩
    intro cb hmem
    cases List.mem_singleton.mp hmem

theorem riakGetBucketpropsResponseDecode_eq {unpack : Bytes → Option RpbGetBucketResp}
    {message : RiakPbMessage} {payload : Bytes} (hpayload : message.payload = pure payload)
    (resp : Option RiakGetBucketpropsResponse) (done : RiakBoolean) (heap : Heap) :
    riakGetBucketpropsResponseDecode unpack (some message) resp done heap =
      match unpack payload with
      | none => .ok (⟨.messageFormat, resp, done⟩, heap)
      | some rpbresp =>
          if heap.answer 0 then
            (do
              let (err, props) ← riakBucketpropsNewFromPb rpbresp.props
              pure ⟨.ok, if err ≠ .ok then none else some ⟨props⟩, 1⟩ :
                C (Decoded RiakGetBucketpropsResponse)) (heap.after 1)
          else .ok (⟨.outOfMemory, resp, 1⟩, heap.after 1) := by
  unfold riakGetBucketpropsResponseDecode
  rw [C.deref_some, pure_bind, hpayload, pure_bind]
  cases unpack payload with
  | none => rfl
  | some rpbresp =>
    simp only
    rw [C.bind_of_ok (C.allocate_eq heap)]
    cases heap.answer 0 <;> rfl

/-- **Errors of bucket properties are propagated** if and only if the payload does
    not unpack, or the response is refused, or the properties can be built and
    every request they make is granted. -/
theorem riak_get_bucketprops_errors_propagated_iff {unpack : Bytes → Option RpbGetBucketResp}
    {message : RiakPbMessage} {payload : Bytes} (hpayload : message.payload = pure payload)
    (hsound : ∀ rpbresp, unpack payload = some rpbresp →
      rpbresp.props.precommit.entries.length = rpbresp.props.precommit.count ∧
        rpbresp.props.postcommit.entries.length = rpbresp.props.postcommit.count)
    (heap : Heap) :
    ErrorsPropagated unpack message payload heap ↔
      ∀ rpbresp, unpack payload = some rpbresp → heap.answer 0 = true →
        rpbresp.props.Buildable ∧ (heap.after 1).Grants rpbresp.props.requests := by
  constructor
  · rintro ⟨hdecoder, _⟩ rpbresp hunpack hgranted
    obtain ⟨hpre, hpost⟩ := hsound rpbresp hunpack
    apply (riakBucketpropsNewFromPb_built_iff hpre hpost (heap.after 1)).mp
    -- an empty target shows what the decoder has put there
    obtain ⟨result, final, hrun, hright⟩ := hdecoder none 1
    rw [riakGetBucketpropsResponseDecode_eq hpayload, hunpack] at hrun
    simp only [hgranted, if_true] at hrun
    obtain ⟨⟨err, props⟩, heap₁, hbuild, hlast⟩ := C.bind_eq_ok.mp hrun
    cases hlast
    rcases hright with ⟨_, rpbresp', hunpack', hresp⟩ | ⟨herr, _⟩
    · rw [hunpack] at hunpack'
      cases hunpack'
      by_cases hok : err = .ok
      · subst hok
        simp only [ne_eq, not_true_eq_false, if_false, Option.some.injEq,
          RiakGetBucketpropsResponse.mk.injEq] at hresp
        rw [hresp] at hbuild
        exact ⟨_, hbuild⟩
      · simp only [ne_eq, hok, not_false_eq_true, if_true, reduceCtorEq] at hresp
    · exact absurd rfl herr
  · intro h
    have hright : ∀ resp done, ∃ result final,
        riakGetBucketpropsResponseDecode unpack (some message) resp done heap =
            .ok (result, final) ∧ OkIffBuilt (unpack payload) resp result := by
      intro resp done
      rw [riakGetBucketpropsResponseDecode_eq hpayload]
      cases hunpack : unpack payload with
      | none => exact ⟨_, _, rfl, Or.inr ⟨nofun, rfl⟩⟩
      | some rpbresp =>
        cases hgranted : heap.answer 0 with
        | false => exact ⟨_, _, rfl, Or.inr ⟨nofun, rfl⟩⟩
        | true =>
          obtain ⟨hpre, hpost⟩ := hsound rpbresp hunpack
          obtain ⟨final, hbuild⟩ := (riakBucketpropsNewFromPb_built_iff hpre hpost _).mpr
            (h rpbresp hunpack hgranted)
          simp only [if_true]
          rw [C.bind_of_ok hbuild]
          exact ⟨_, _, rfl, Or.inl ⟨rfl, rpbresp, rfl, rfl⟩⟩
    refine ⟨hright, ?_⟩
    intro rpbErrorRespUnpack rop msgid hdecoder hmsgid
    obtain ⟨result, final, hdecode, hbuilt⟩ := hright rop.response 1
    obtain ⟨turn, hturn, hcalls⟩ := riakReadDispatch_of_okIffBuilt hdecoder hmsgid hdecode hbuilt
    exact ⟨turn, final, hturn, hcalls⟩

/-- An answer with a payload of one byte. -/
def bucketpropsMessage : RiakPbMessage := ⟨20, 2, [20, 0x0a]⟩

/-- Two functions and nothing else. -/
theorem riak_get_bucketprops_errors_propagated_functions :
    ErrorsPropagated (fun _ => some ⟨functionsOnly⟩) bucketpropsMessage [0x0a] Heap.fresh := by
  refine (riak_get_bucketprops_errors_propagated_iff (by rfl) ?_ Heap.fresh).mpr ?_
  · rintro rpbresp ⟨⟩
    exact ⟨rfl, rfl⟩
  · rintro rpbresp ⟨⟩ _
    exact ⟨⟨nofun, nofun, rfl, rfl⟩, (show (Heap.fresh.after 1).Ample from rfl).grants _⟩

/-- Only `n_val`, and memory for everything: the error of the missing function is
    forgotten, and the response callback gets NULL. -/
theorem riak_get_bucketprops_null_response :
    (∃ final, riakBucketpropsNewFromPb { initialised := true, hasNVal := true, nVal := 3 }
      Heap.fresh = .ok ((.outOfMemory, some { hasNVal := true, nVal := 3 }), final)) ∧
    (∃ final, riakGetBucketpropsResponseDecode
        (fun _ => some ⟨{ initialised := true, hasNVal := true, nVal := 3 }⟩)
        (some bucketpropsMessage) none 1 Heap.fresh = .ok (⟨.ok, none, 1⟩, final)) ∧
    (∃ turn final, riakReadDispatch
        (bucketpropsReadEnv (fun _ => some ⟨{ initialised := true, hasNVal := true, nVal := 3 }⟩)
          fun _ => none)
        { decoder := some .getBucketprops, responseCb := some 0 } 20 (some bucketpropsMessage)
        Heap.fresh = .ok (turn, final) ∧
      turn.exit = some .ok ∧ .responseCb 0 none ∈ turn.events) :=
  ⟨⟨_, rfl⟩, ⟨_, rfl⟩, ⟨_, _, rfl, rfl, by simp [responseCbEvents]⟩⟩

end RiakClient
