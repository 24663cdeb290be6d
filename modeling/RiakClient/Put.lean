import RiakClient.ObjectContent
import RiakClient.RequestOptions

/-!
# Put requests

The options of a put, their setters, and `riak_put_request_encode`. Ten of the
twelve options are copied flag and value; for the two conditional ones the
encoder assigns the flag twice and the value never, so that `if_none_match` and
`if_not_modified` always go out as false.

The options are described by the calls that made them: for each option, what it was
last given (`putOptionsOf`). A run of setters is a fold with one lemma for a call, and
the request is compared with the calls option by option.
-/

namespace RiakClient

open CSem OptionRecord

variable {ρ : Type} {heap final : Heap}

/-! ### Setting options -/

def riakPutOptionsNew : C (Option RiakPutOptions) := C.new {}

def riakPutOptionsSetVclock (opt : RiakPutOptions) (value : Option RiakBinary) :
    C RiakPutOptions := do
  let copy ← riakBinaryCopy value
  pure { opt with hasVclock := true, vclock := copy }

def riakPutOptionsSetW (opt : RiakPutOptions) (value : UInt32) : RiakPutOptions :=
  { opt with hasW := true, w := value }

def riakPutOptionsSetDw (opt : RiakPutOptions) (value : UInt32) : RiakPutOptions :=
  { opt with hasDw := true, dw := value }

def riakPutOptionsSetReturnBody (opt : RiakPutOptions) (value : RiakBoolean) : RiakPutOptions :=
  { opt with hasReturnBody := true, returnBody := value }

def riakPutOptionsSetPw (opt : RiakPutOptions) (value : UInt32) : RiakPutOptions :=
  { opt with hasPw := true, pw := value }

def riakPutOptionsSetIfNotModified (opt : RiakPutOptions) (value : RiakBoolean) :
    RiakPutOptions :=
  { opt with hasIfNotModified := true, ifNotModified := value }

def riakPutOptionsSetIfNoneMatch (opt : RiakPutOptions) (value : RiakBoolean) : RiakPutOptions :=
  { opt with hasIfNoneMatch := true, ifNoneMatch := value }

def riakPutOptionsSetReturnHead (opt : RiakPutOptions) (value : RiakBoolean) : RiakPutOptions :=
  { opt with hasReturnHead := true, returnHead := value }

def riakPutOptionsSetTimeout (opt : RiakPutOptions) (value : UInt32) : RiakPutOptions :=
  { opt with hasTimeout := true, timeout := value }

def riakPutOptionsSetAsis (opt : RiakPutOptions) (value : RiakBoolean) : RiakPutOptions :=
  { opt with hasAsis := true, asis := value }

def riakPutOptionsSetSloppyQuorum (opt : RiakPutOptions) (value : RiakBoolean) :
    RiakPutOptions :=
  { opt with hasSloppyQuorum := true, sloppyQuorum := value }

def riakPutOptionsSetNVal (opt : RiakPutOptions) (value : UInt32) : RiakPutOptions :=
  { opt with hasNVal := true, nVal := value }

/-- A call of one of the setters. -/
inductive PutSetter where
  | vclock (value : RiakBinary)
  | w (value : UInt32)
  | dw (value : UInt32)
  | returnBody (value : RiakBoolean)
  | pw (value : UInt32)
  | ifNotModified (value : RiakBoolean)
  | ifNoneMatch (value : RiakBoolean)
  | returnHead (value : RiakBoolean)
  | timeout (value : UInt32)
  | asis (value : RiakBoolean)
  | sloppyQuorum (value : RiakBoolean)
  | nVal (value : UInt32)
deriving DecidableEq, Repr

namespace PutSetter

def call (opt : RiakPutOptions) : PutSetter → C RiakPutOptions
  | vclock value => riakPutOptionsSetVclock opt (some value)
  | w value => pure (riakPutOptionsSetW opt value)
  | dw value => pure (riakPutOptionsSetDw opt value)
  | returnBody value => pure (riakPutOptionsSetReturnBody opt value)
  | pw value => pure (riakPutOptionsSetPw opt value)
  | ifNotModified value => pure (riakPutOptionsSetIfNotModified opt value)
  | ifNoneMatch value => pure (riakPutOptionsSetIfNoneMatch opt value)
  | returnHead value => pure (riakPutOptionsSetReturnHead opt value)
  | timeout value => pure (riakPutOptionsSetTimeout opt value)
  | asis value => pure (riakPutOptionsSetAsis opt value)
  | sloppyQuorum value => pure (riakPutOptionsSetSloppyQuorum opt value)
  | nVal value => pure (riakPutOptionsSetNVal opt value)

/-! What a call sets, read option by option. -/

@[simp] def vclock? : PutSetter → Option Bytes
  | vclock value => some value.data
  | _ => none

@[simp] def w? : PutSetter → Option UInt32
  | w value => some value
  | _ => none

@[simp] def dw? : PutSetter → Option UInt32
  | dw value => some value
  | _ => none

@[simp] def returnBody? : PutSetter → Option RiakBoolean
  | returnBody value => some value
  | _ => none

@[simp] def pw? : PutSetter → Option UInt32
  | pw value => some value
  | _ => none

@[simp] def ifNotModified? : PutSetter → Option RiakBoolean
  | ifNotModified value => some value
  | _ => none

@[simp] def ifNoneMatch? : PutSetter → Option RiakBoolean
  | ifNoneMatch value => some value
  | _ => none

@[simp] def returnHead? : PutSetter → Option RiakBoolean
  | returnHead value => some value
  | _ => none

@[simp] def timeout? : PutSetter → Option UInt32
  | timeout value => some value
  | _ => none

@[simp] def asis? : PutSetter → Option RiakBoolean
  | asis value => some value
  | _ => none

@[simp] def sloppyQuorum? : PutSetter → Option RiakBoolean
  | sloppyQuorum value => some value
  | _ => none

@[simp] def nVal? : PutSetter → Option UInt32
  | nVal value => some value
  | _ => none

end PutSetter

/-- The options of an application that allocates them and then calls setters. -/
def putOptionsAfter (calls : List PutSetter) : C RiakPutOptions := do
  let opt ← C.deref (← riakPutOptionsNew)
  calls.foldlM (fun opt call => call.call opt) opt

/-! ### The request -/

/-- The `RpbPutReq` of a put. The result of copying the content is ignored. -/
def riakPutRequestMsg (riakObj : RiakObject) (options : Option RiakPutOptions) :
    C RpbPutReq := do
  let bucket ← riakBinaryCopyToPb riakObj.bucket
  let type ← copyToPbIf riakObj.hasBucketType riakObj.bucketType
  let key ← copyToPbIf riakObj.hasKey riakObj.key
  let (_, content) ← riakObjectToPbCopy riakObj
  let o := options.getD {}
  let vclock ← copyToPbIf o.hasVclock o.vclock
  pure {
    bucket := bucket
    hasKey := riakObj.hasKey, key := key
    hasVclock := o.hasVclock, vclock := vclock
    content := content
    hasW := o.hasW, w := assignIf o.hasW o.w
    hasDw := o.hasDw, dw := assignIf o.hasDw o.dw
    hasReturnBody := o.hasReturnBody, returnBody := assignIf o.hasReturnBody o.returnBody
    hasPw := o.hasPw, pw := assignIf o.hasPw o.pw
    -- `putmsg.has_if_x = options->has_if_x` in place of the value, twice
    hasIfNotModified := o.hasIfNotModified
    hasIfNoneMatch := o.hasIfNoneMatch
    hasReturnHead := o.hasReturnHead, returnHead := assignIf o.hasReturnHead o.returnHead
    hasTimeout := o.hasTimeout, timeout := assignIf o.hasTimeout o.timeout
    hasAsis := o.hasAsis, asis := assignIf o.hasAsis o.asis
    hasSloppyQuorum := o.hasSloppyQuorum
    sloppyQuorum := assignIf o.hasSloppyQuorum o.sloppyQuorum
    hasNVal := o.hasNVal, nVal := assignIf o.hasNVal o.nVal
    hasType := riakObj.hasBucketType, type := type }

def riakPutRequestEncode (pack : RpbPutReq → Bytes) (rop : RiakOperation ρ)
    (riakObj : RiakObject) (options : Option RiakPutOptions) :
    C (RiakError × RiakOperation ρ) := do
  let putmsg ← riakPutRequestMsg riakObj options
  putmsg.content.walk
  riakPackRequest rop MSG_RPBPUTREQ (packedSize32 (pack putmsg)) (pack putmsg) .put .outOfMemory

/-! ### The options after any sequence of setters

Only the setter of the vector clock allocates. It raises the flag whether it gets its
copy or not. -/

/-- The options that `calls` amount to, up to the copy of the vector clock, which
    may have been refused. -/
def putOptionsOf (calls : List PutSetter) (vclock : Option RiakBinary) : RiakPutOptions where
  hasVclock := (lastSet PutSetter.vclock? calls).isSome
  vclock := vclock
  hasW := (lastSet PutSetter.w? calls).isSome
  w := (lastSet PutSetter.w? calls).getD 0
  hasDw := (lastSet PutSetter.dw? calls).isSome
  dw := (lastSet PutSetter.dw? calls).getD 0
  hasReturnBody := (lastSet PutSetter.returnBody? calls).isSome
  returnBody := (lastSet PutSetter.returnBody? calls).getD 0
  hasPw := (lastSet PutSetter.pw? calls).isSome
  pw := (lastSet PutSetter.pw? calls).getD 0
  hasIfNotModified := (lastSet PutSetter.ifNotModified? calls).isSome
  ifNotModified := (lastSet PutSetter.ifNotModified? calls).getD 0
  hasIfNoneMatch := (lastSet PutSetter.ifNoneMatch? calls).isSome
  ifNoneMatch := (lastSet PutSetter.ifNoneMatch? calls).getD 0
  hasReturnHead := (lastSet PutSetter.returnHead? calls).isSome
  returnHead := (lastSet PutSetter.returnHead? calls).getD 0
  hasTimeout := (lastSet PutSetter.timeout? calls).isSome
  timeout := (lastSet PutSetter.timeout? calls).getD 0
  hasAsis := (lastSet PutSetter.asis? calls).isSome
  asis := (lastSet PutSetter.asis? calls).getD 0
  hasSloppyQuorum := (lastSet PutSetter.sloppyQuorum? calls).isSome
  sloppyQuorum := (lastSet PutSetter.sloppyQuorum? calls).getD 0
  hasNVal := (lastSet PutSetter.nVal? calls).isSome
  nVal := (lastSet PutSetter.nVal? calls).getD 0

theorem putSetter_call (calls : List PutSetter) (vclock : Option RiakBinary) {call : PutSetter}
    (hcall : call.vclock? = none) :
    call.call (putOptionsOf calls vclock) = pure (putOptionsOf (calls ++ [call]) vclock) := by
  cases call with
  | vclock value => cases hcall
  | _ =>
    simp [PutSetter.call, putOptionsOf, lastSet_concat, riakPutOptionsSetW,
      riakPutOptionsSetDw, riakPutOptionsSetReturnBody, riakPutOptionsSetPw,
      riakPutOptionsSetIfNotModified, riakPutOptionsSetIfNoneMatch, riakPutOptionsSetReturnHead,
      riakPutOptionsSetTimeout, riakPutOptionsSetAsis, riakPutOptionsSetSloppyQuorum,
      riakPutOptionsSetNVal]

theorem putSetter_call_vclock (calls : List PutSetter) (vclock : Option RiakBinary)
    (value : RiakBinary) :
    (PutSetter.vclock value).call (putOptionsOf calls vclock) =
      (riakBinaryNew value.data >>= fun copy =>
        pure (putOptionsOf (calls ++ [.vclock value]) copy)) := by
  simp [PutSetter.call, putOptionsOf, lastSet_concat, riakPutOptionsSetVclock, riakBinaryCopy]

theorem putSetter_call_eq_ok {calls : List PutSetter} {vclock : Option RiakBinary}
    {call : PutSetter} {opt : RiakPutOptions}
    (hcopy : CopyOf vclock (lastSet PutSetter.vclock? calls))
    (hcall : call.call (putOptionsOf calls vclock) heap = .ok (opt, final)) :
    ∃ copy, opt = putOptionsOf (calls ++ [call]) copy ∧
      CopyOf copy (lastSet PutSetter.vclock? (calls ++ [call])) := by
  by_cases hvclock : call.vclock? = none
  · rw [putSetter_call calls vclock hvclock, C.pure_apply, Except.ok.injEq, Prod.mk.injEq] at hcall
    refine ⟨vclock, hcall.1.symm, ?_⟩
    rw [lastSet_concat_of_none PutSetter.vclock? calls hvclock]
    exact hcopy
  · cases call with
    | vclock value =>
      rw [putSetter_call_vclock] at hcall
      obtain ⟨copy, heap₁, hnew, hopt⟩ := C.bind_eq_ok.mp hcall
      simp only [C.pure_apply, Except.ok.injEq, Prod.mk.injEq] at hopt
      have hlast : lastSet PutSetter.vclock? (calls ++ [.vclock value]) = some value.data :=
        lastSet_concat_of_some PutSetter.vclock? calls rfl
      refine ⟨copy, hopt.1.symm, ?_⟩
      rw [hlast]
      exact copyOf_riakBinaryNew hnew
    | _ => exact absurd rfl hvclock

/-- **Any sequence of setters** leaves every option as it was last set. -/
theorem putOptionsAfter_eq_ok {calls : List PutSetter} {opt : RiakPutOptions}
    (hrun : putOptionsAfter calls heap = .ok (opt, final)) :
    ∃ vclock, opt = putOptionsOf calls vclock ∧
      CopyOf vclock (lastSet PutSetter.vclock? calls) := by
  obtain ⟨slot, heap₁, hnew, hrun₁⟩ := C.bind_eq_ok.mp hrun
  obtain ⟨empty, heap₂, hderef, hcalls⟩ := C.bind_eq_ok.mp hrun₁
  obtain ⟨rfl, _⟩ := C.deref_eq_ok.mp hderef
  have hempty : empty = putOptionsOf [] none := by
    rcases C.new_eq_ok hnew with hslot | hslot
    · exact Option.some.inj hslot
    · cases hslot
  let Inv : List PutSetter → RiakPutOptions → Prop := fun before opt =>
    ∃ vclock, opt = putOptionsOf before vclock ∧ CopyOf vclock (lastSet PutSetter.vclock? before)
  have hstart : Inv [] empty := ⟨none, hempty, fun b hb => by cases hb⟩
  have step : ∀ before (call : PutSetter) opt opt' heap final, Inv before opt →
      call.call opt heap = .ok (opt', final) → Inv (before ++ [call]) opt' := by
    rintro before call opt opt' heap final ⟨vclock, rfl, hcopy⟩ hcall
    exact putSetter_call_eq_ok hcopy hcall
  exact C.foldlM_invariant step calls [] empty opt heap₂ final hstart hcalls

theorem putOptionsAfter_of_ample (h : heap.Ample) (calls : List PutSetter) :
    putOptionsAfter calls heap =
      .ok (putOptionsOf calls ((lastSet PutSetter.vclock? calls).map (⟨·, true⟩)), heap) := by
  let Inv : List PutSetter → RiakPutOptions → Prop := fun before opt =>
    opt = putOptionsOf before ((lastSet PutSetter.vclock? before).map (⟨·, true⟩))
  have step : ∀ before (call : PutSetter) opt, Inv before opt →
      ∃ opt', call.call opt heap = .ok (opt', heap) ∧ Inv (before ++ [call]) opt' := by
    rintro before call opt rfl
    refine ⟨_, ?_, rfl⟩
    by_cases hvclock : call.vclock? = none
    · rw [putSetter_call _ _ hvclock, lastSet_concat_of_none PutSetter.vclock? before hvclock]
      rfl
    · cases call with
      | vclock value =>
        have hlast : lastSet PutSetter.vclock? (before ++ [.vclock value]) = some value.data :=
          lastSet_concat_of_some PutSetter.vclock? before rfl
        rw [putSetter_call_vclock, C.bind_of_ok (riakBinaryNew_of_ample h _), hlast]
        rfl
      | _ => exact absurd rfl hvclock
  obtain ⟨opt, hcalls, hopt⟩ := C.foldlM_total step calls [] {} rfl
  unfold putOptionsAfter riakPutOptionsNew
  rw [C.bind_of_ok (C.new_of_ample h _), C.deref_some, pure_bind, hcalls, hopt]
  rfl

/-! ### What the request carries -/

/-- The request has, for every option, the flag and the value last set. -/
structure PutCarries (calls : List PutSetter) (m : RpbPutReq) : Prop where
  vclock : Carries m.hasVclock m.vclock (lastSet PutSetter.vclock? calls)
  w : Carries m.hasW m.w (lastSet PutSetter.w? calls)
  dw : Carries m.hasDw m.dw (lastSet PutSetter.dw? calls)
  returnBody : Carries m.hasReturnBody m.returnBody (lastSet PutSetter.returnBody? calls)
  pw : Carries m.hasPw m.pw (lastSet PutSetter.pw? calls)
  ifNotModified : Carries m.hasIfNotModified m.ifNotModified
    (lastSet PutSetter.ifNotModified? calls)
  ifNoneMatch : Carries m.hasIfNoneMatch m.ifNoneMatch (lastSet PutSetter.ifNoneMatch? calls)
  returnHead : Carries m.hasReturnHead m.returnHead (lastSet PutSetter.returnHead? calls)
  timeout : Carries m.hasTimeout m.timeout (lastSet PutSetter.timeout? calls)
  asis : Carries m.hasAsis m.asis (lastSet PutSetter.asis? calls)
  sloppyQuorum : Carries m.hasSloppyQuorum m.sloppyQuorum
    (lastSet PutSetter.sloppyQuorum? calls)
  nVal : Carries m.hasNVal m.nVal (lastSet PutSetter.nVal? calls)

/-- A request that was built carries the options last set, the two conditional
    ones only when they were set to false. -/
theorem putCarries_iff {calls : List PutSetter} {vclock : Option RiakBinary}
    {riakObj : RiakObject} {m : RpbPutReq}
    (hcopy : CopyOf vclock (lastSet PutSetter.vclock? calls))
    (hmsg : riakPutRequestMsg riakObj (some (putOptionsOf calls vclock)) heap = .ok (m, final)) :
    PutCarries calls m ↔
      (lastSet PutSetter.ifNotModified? calls = none ∨
        lastSet PutSetter.ifNotModified? calls = some 0) ∧
      (lastSet PutSetter.ifNoneMatch? calls = none ∨
        lastSet PutSetter.ifNoneMatch? calls = some 0) := by
  obtain ⟨bucket, heap₁, _, hmsg₁⟩ := C.bind_eq_ok.mp hmsg
  obtain ⟨type, heap₂, _, hmsg₂⟩ := C.bind_eq_ok.mp hmsg₁
  obtain ⟨key, heap₃, _, hmsg₃⟩ := C.bind_eq_ok.mp hmsg₂
  obtain ⟨⟨err, content⟩, heap₄, _, hmsg₄⟩ := C.bind_eq_ok.mp hmsg₃
  obtain ⟨data, heap₅, hdata, hmsg₅⟩ := C.bind_eq_ok.mp hmsg₄
  obtain ⟨rfl, _⟩ := C.pure_eq_ok.mp hmsg₅
  have hvclock := carries_copyToPbIf hcopy hdata
  constructor
  · intro hcarries
    exact ⟨carries_default_iff.mp hcarries.ifNotModified,
      carries_default_iff.mp hcarries.ifNoneMatch⟩
  · rintro ⟨hmodified, hmatch⟩
    exact {
      vclock := hvclock
      w := carries_assignIf _
      dw := carries_assignIf _
      returnBody := carries_assignIf _
      pw := carries_assignIf _
      ifNotModified := carries_default_iff.mpr hmodified
      ifNoneMatch := carries_default_iff.mpr hmatch
      returnHead := carries_assignIf _
      timeout := carries_assignIf _
      asis := carries_assignIf _
      sloppyQuorum := carries_assignIf _
      nVal := carries_assignIf _ }

theorem riakPutRequestEncode_of_ample (h : heap.Ample) {riakObj : RiakObject}
    (hobj : riakObj.Complete) (calls : List PutSetter) :
    ∃ m, riakPutRequestMsg riakObj (some (putOptionsOf calls
        ((lastSet PutSetter.vclock? calls).map (⟨·, true⟩)))) heap = .ok (m, heap) ∧
      m.content.walk = pure () := by
  obtain ⟨bucket, hbucket⟩ := riakBinaryCopyToPb_of_isSome hobj.bucket
  obtain ⟨type, htype⟩ := copyToPbIf_of_isSome hobj.bucketType
  obtain ⟨key, hkey⟩ := copyToPbIf_of_isSome hobj.key
  obtain ⟨content, hcontent, hwalk⟩ := riakObjectToPbCopy_of_complete h hobj
  obtain ⟨vclock, hvclock⟩ : ∃ data, copyToPbIf (lastSet PutSetter.vclock? calls).isSome
      ((lastSet PutSetter.vclock? calls).map (⟨·, true⟩)) = pure data := by
    apply copyToPbIf_of_isSome
    rw [Option.isSome_map]
    exact id
  unfold riakPutRequestMsg
  simp only [hbucket, htype, hkey, pure_bind]
  rw [C.bind_of_ok hcontent]
  simp only [Option.getD_some, putOptionsOf, hvclock, pure_bind]
  exact ⟨_, rfl, hwalk⟩

/-- **Put options.** Whatever setters are called, and whatever the allocator
    does, the `RpbPutReq` that the encoder packs carries every option as it was
    last set if and only if the two conditional options were never set or last
    set to false. On an ample heap there is such a request for every object with
    bucket and value. -/
theorem riak_put_options_carried_iff (calls : List PutSetter) (riakObj : RiakObject) :
    (∀ (heap heap₁ heap₂ final : Heap) (options : RiakPutOptions) (m : RpbPutReq),
      putOptionsAfter calls heap = .ok (options, heap₁) →
      riakPutRequestMsg riakObj (some options) heap₂ = .ok (m, final) →
      (∀ (pack : RpbPutReq → Bytes) (rop : RiakOperation ρ),
        riakPutRequestEncode pack rop riakObj (some options) heap₂ =
          (m.content.walk >>= fun _ => riakPackRequest rop MSG_RPBPUTREQ
            (packedSize32 (pack m)) (pack m) .put .outOfMemory) final) ∧
      (PutCarries calls m ↔
        (lastSet PutSetter.ifNotModified? calls = none ∨
          lastSet PutSetter.ifNotModified? calls = some 0) ∧
        (lastSet PutSetter.ifNoneMatch? calls = none ∨
          lastSet PutSetter.ifNoneMatch? calls = some 0))) ∧
    (∀ heap : Heap, heap.Ample → riakObj.Complete →
      ∃ options m, putOptionsAfter calls heap = .ok (options, heap) ∧
        riakPutRequestMsg riakObj (some options) heap = .ok (m, heap) ∧
        ∀ (pack : RpbPutReq → Bytes) (rop : RiakOperation ρ), (pack m).length < 2 ^ 32 →
          riakPutRequestEncode pack rop riakObj (some options) heap =
            .ok ((.ok, { rop with
              pbRequest := some ⟨MSG_RPBPUTREQ, UInt32.ofNat (pack m).length, pack m⟩
              decoder := some .put }), heap)) := by
  constructor
  · intro heap heap₁ heap₂ final options m hoptions hmsg
    obtain ⟨vclock, rfl, hcopy⟩ := putOptionsAfter_eq_ok hoptions
    refine ⟨?_, putCarries_iff hcopy hmsg⟩
    intro pack rop
    unfold riakPutRequestEncode
    rw [C.bind_of_ok hmsg]
  · intro heap h hobj
    obtain ⟨m, hmsg, hwalk⟩ := riakPutRequestEncode_of_ample h hobj calls
    refine ⟨_, m, putOptionsAfter_of_ample h calls, hmsg, ?_⟩
    intro pack rop hlength
    unfold riakPutRequestEncode packedSize32
    rw [C.bind_of_ok hmsg, hwalk, pure_bind, Nat.mod_eq_of_lt hlength]
    exact riakPackRequest_of_ample h rop MSG_RPBPUTREQ .put .outOfMemory (Nat.le_refl _)

/-- An object with a bucket and a value and nothing else. -/
def sampleObject : RiakObject where
  bucket := some ⟨[0x62], true⟩
  value := some ⟨[0x76], true⟩

/-- `w` and a lowered `if_none_match` arrive. -/
theorem riak_put_options_carried_sample :
    ∃ m, riakPutRequestMsg sampleObject
        (some (putOptionsOf [.w 2, .ifNoneMatch 0] none)) Heap.fresh = .ok (m, Heap.fresh) ∧
      PutCarries [.w 2, .ifNoneMatch 0] m := by
  refine ⟨_, rfl, ?_⟩
  refine (((riak_put_options_carried_iff (ρ := Unit) [.w 2, .ifNoneMatch 0]
    sampleObject).1 Heap.fresh Heap.fresh Heap.fresh Heap.fresh _ _ rfl rfl).2).mpr ?_
  exact ⟨Or.inl rfl, Or.inr rfl⟩

/-- `riak_put_options_set_if_none_match(opt, RIAK_TRUE)` sends a request that
    matches anything: a conditional put becomes an overwrite. -/
theorem riak_put_if_none_match_dropped :
    putOptionsAfter [.ifNoneMatch 1] Heap.fresh =
        .ok ({ hasIfNoneMatch := true, ifNoneMatch := 1 }, Heap.fresh) ∧
      ∃ m, riakPutRequestMsg sampleObject
          (some { hasIfNoneMatch := true, ifNoneMatch := 1 }) Heap.fresh = .ok (m, Heap.fresh) ∧
        m.hasIfNoneMatch = true ∧ m.ifNoneMatch = 0 ∧ ¬ PutCarries [.ifNoneMatch 1] m := by
  refine ⟨rfl, _, rfl, rfl, rfl, ?_⟩
  intro hcarries
  have hvalue := hcarries.ifNoneMatch.2 1 rfl
  exact absurd hvalue (by decide)

end RiakClient
