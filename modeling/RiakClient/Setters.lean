import RiakClient.BucketpropsRoundTrip
import RiakClient.FlaggedMembers
import RiakClient.IndexRequest
import RiakClient.Put
import RiakClient.Run

/-!
# Setters

The setters of objects, links, pairs, commit hooks and the options of five
requests. Those of numbers write both the flag and the number. Those of binaries
copy their argument, which may be NULL or may not fit in memory: some of them
raise the flag before they have the copy, others check the copy first.
-/

namespace RiakClient

open CSem FlaggedMembers LabelledRun

variable {heap final : Heap}

/-! ### One setter

What a call has done to the members is one of two things, whatever the struct
(`Moves`): it wrote a copy of its argument to a member, in one of the two orders of
`FlaggedMembers`, or it changed none. -/

section Member

variable {σ ι : Type}

/-- A setter of a binary that has a presence flag. -/
def setMember (L : Layout σ ι RiakBinary) (order : Order) (i : ι) (s : σ)
    (value : Option RiakBinary) : C (RiakError × σ) := do
  let copy ← riakBinaryCopy value
  pure (copiedOr copy, L.write order i s copy)

/-- What a call that has returned did to the members: it wrote a copy of its
    argument to one of them, or it changed none. -/
def Moves (L : Layout σ ι RiakBinary) (target : Option (Order × ι × Option RiakBinary))
    (heap final : Heap) (s s' : σ) : Prop :=
  match target with
  | none => ∀ i, L.get i s' = L.get i s
  | some (order, i, value) =>
      ∃ copy, riakBinaryCopy value heap = .ok (copy, final) ∧ s' = L.write order i s copy

variable {L : Layout σ ι RiakBinary} {s s' : σ} {err : RiakError}

theorem setMember_moves {order : Order} {i : ι} {value : Option RiakBinary}
    (h : setMember L order i s value heap = .ok ((err, s'), final)) :
    Moves L (some (order, i, value)) heap final s s' := by
  obtain ⟨copy, heap₁, hcopy, hpure⟩ := C.bind_eq_ok.mp h
  cases hpure
  exact ⟨copy, hcopy, rfl⟩

theorem moves_of_void {order : Order} {i : ι} {value : Option RiakBinary}
    (h : ((Prod.snd <$> setMember L order i s value) >>= fun s => pure (.ok, s)) heap =
      .ok ((err, s'), final)) : Moves L (some (order, i, value)) heap final s s' := by
  obtain ⟨written, heap₁, hmap, hpure⟩ := C.bind_eq_ok.mp h
  cases hpure
  rw [C.map_apply] at hmap
  cases hset : setMember L order i s value heap with
  | error fault => rw [hset] at hmap; cases hmap
  | ok out =>
    rw [hset] at hmap
    cases hmap
    exact setMember_moves hset

theorem moves_of_pure {err' : RiakError} {s₁ : σ}
    (h : (pure (err', s₁) : C (RiakError × σ)) heap = .ok ((err, s'), final))
    (hkeeps : ∀ i, L.get i s₁ = L.get i s) : Moves L none heap final s s' := by
  cases h
  exact hkeeps

theorem moves_of_copy {α : Type} {m : C α} {f : α → RiakError × σ}
    (h : (m >>= fun a => pure (f a)) heap = .ok ((err, s'), final))
    (hkeeps : ∀ a i, L.get i (f a).2 = L.get i s) : Moves L none heap final s s' := by
  obtain ⟨a, heap₁, _, hpure⟩ := C.bind_eq_ok.mp h
  rw [C.pure_apply, Except.ok.injEq, Prod.mk.injEq] at hpure
  intro i
  have hkept := hkeeps a i
  rwa [hpure.1] at hkept

end Member

/-! ### Objects, links and pairs -/

inductive ObjectMember where
  | bucketType
  | key
  | charset
  | contentType
  | contentEncoding
  | vtag
deriving DecidableEq, Repr

def objectMembers : Layout RiakObject ObjectMember RiakBinary where
  get
    | .bucketType, obj => (obj.hasBucketType, obj.bucketType)
    | .key, obj => (obj.hasKey, obj.key)
    | .charset, obj => (obj.hasCharset, obj.charset)
    | .contentType, obj => (obj.hasContentType, obj.contentType)
    | .contentEncoding, obj => (obj.hasContentEncoding, obj.encoding)
    | .vtag, obj => (obj.hasVtag, obj.vtag)
  put
    | .bucketType, obj, x => { obj with hasBucketType := x.1, bucketType := x.2 }
    | .key, obj, x => { obj with hasKey := x.1, key := x.2 }
    | .charset, obj, x => { obj with hasCharset := x.1, charset := x.2 }
    | .contentType, obj, x => { obj with hasContentType := x.1, contentType := x.2 }
    | .contentEncoding, obj, x => { obj with hasContentEncoding := x.1, encoding := x.2 }
    | .vtag, obj, x => { obj with hasVtag := x.1, vtag := x.2 }
  get_put := by
    intro i obj x
    cases i <;> rfl
  get_put_ne := by
    intro i j obj x hne
    cases i <;> cases j <;> first | rfl | exact absurd rfl hne

/-- `riak_binary_copy_shallow` reads the binary without a check. -/
def riakBinaryCopyShallow (bin : Option RiakBinary) : C (Option RiakBinary) := do
  let b ← C.deref bin
  C.new ⟨b.data, false⟩

def riakObjectSetBucket (obj : RiakObject) (value : Option RiakBinary) :
    C (RiakError × RiakObject) := do
  let copy ← riakBinaryCopy value
  pure (copiedOr copy, { obj with bucket := copy })

def riakObjectSetBucketType (obj : RiakObject) (value : Option RiakBinary) :
    C (RiakError × RiakObject) :=
  setMember objectMembers .flagLast .bucketType obj value

def riakObjectSetKey (obj : RiakObject) (value : Option RiakBinary) :
    C (RiakError × RiakObject) :=
  setMember objectMembers .flagLast .key obj value

def riakObjectSetValue (obj : RiakObject) (value : Option RiakBinary) :
    C (RiakError × RiakObject) := do
  let copy ← riakBinaryCopy value
  pure (copiedOr copy, { obj with value := copy })

def riakObjectSetValueShallowCopy (obj : RiakObject) (value : Option RiakBinary) :
    C (RiakError × RiakObject) := do
  let copy ← riakBinaryCopyShallow value
  pure (copiedOr copy, { obj with value := copy })

def riakObjectSetCharset (obj : RiakObject) (value : Option RiakBinary) :
    C (RiakError × RiakObject) :=
  setMember objectMembers .flagLast .charset obj value

def riakObjectSetLastMod (obj : RiakObject) (value : UInt32) : RiakObject :=
  { obj with lastMod := value, hasLastMod := true }

def riakObjectSetLastModUsecs (obj : RiakObject) (value : UInt32) : RiakObject :=
  { obj with lastModUsecs := value, hasLastModUsecs := true }

def riakObjectSetContentType (obj : RiakObject) (value : Option RiakBinary) :
    C (RiakError × RiakObject) :=
  setMember objectMembers .flagLast .contentType obj value

def riakObjectSetContentEncoding (obj : RiakObject) (value : Option RiakBinary) :
    C (RiakError × RiakObject) :=
  setMember objectMembers .flagLast .contentEncoding obj value

def riakObjectSetDeleted (obj : RiakObject) (value : RiakBoolean) : RiakObject :=
  { obj with deleted := value, hasDeleted := true }

def riakObjectSetVtag (obj : RiakObject) (value : Option RiakBinary) :
    C (RiakError × RiakObject) :=
  setMember objectMembers .flagLast .vtag obj value

inductive LinkMember where
  | bucket
  | key
  | tag
deriving DecidableEq, Repr

def linkMembers : Layout RiakLink LinkMember RiakBinary where
  get
    | .bucket, link => (link.hasBucket, link.bucket)
    | .key, link => (link.hasKey, link.key)
    | .tag, link => (link.hasTag, link.tag)
  put
    | .bucket, link, x => { link with hasBucket := x.1, bucket := x.2 }
    | .key, link, x => { link with hasKey := x.1, key := x.2 }
    | .tag, link, x => { link with hasTag := x.1, tag := x.2 }
  get_put := by
    intro i link x
    cases i <;> rfl
  get_put_ne := by
    intro i j link x hne
    cases i <;> cases j <;> first | rfl | exact absurd rfl hne

def riakLinkSetBucket (link : RiakLink) (value : Option RiakBinary) : C (RiakError × RiakLink) :=
  setMember linkMembers .flagLast .bucket link value

def riakLinkSetKey (link : RiakLink) (value : Option RiakBinary) : C (RiakError × RiakLink) :=
  setMember linkMembers .flagLast .key link value

def riakLinkSetTag (link : RiakLink) (value : Option RiakBinary) : C (RiakError × RiakLink) :=
  setMember linkMembers .flagLast .tag link value

def pairMembers : Layout RiakPair Unit RiakBinary where
  get _ pair := (pair.hasValue, pair.value)
  put _ pair x := { pair with hasValue := x.1, value := x.2 }
  get_put _ _ _ := rfl
  get_put_ne _ _ _ _ hne := absurd rfl hne

def riakPairSetKey (pair : RiakPair) (value : Option RiakBinary) : C (RiakError × RiakPair) := do
  let copy ← riakBinaryCopy value
  pure (copiedOr copy, { pair with key := copy })

def riakPairSetValue (pair : RiakPair) (value : Option RiakBinary) : C (RiakError × RiakPair) :=
  setMember pairMembers .flagLast () pair value

/-! ### Commit hooks -/

def commitHookMembers : Layout RiakCommitHook Unit RiakBinary where
  get _ hook := (hook.hasName, hook.name)
  put _ hook x := { hook with hasName := x.1, name := x.2 }
  get_put _ _ _ := rfl
  get_put_ne _ _ _ _ hne := absurd rfl hne

/-- `riak_modfun_deep_new` on a pointer, which it follows once it has memory. -/
def riakModfunDeepNewFrom : Option RiakModfun → C (Option RiakModfun)
  | some from_ => riakModfunDeepNew from_
  | none => do
      if ← C.allocate then C.fault .nullDereference else pure none

def riakCommitHookSetModfun (hook : RiakCommitHook) (value : Option RiakModfun) :
    C (RiakError × RiakCommitHook) := do
  let modfun ← riakModfunDeepNewFrom value
  pure (if modfun.isSome then .ok else .outOfMemory, { hook with modfun := modfun })

def riakCommitHookSetName (hook : RiakCommitHook) (value : Option RiakBinary) :
    C (RiakError × RiakCommitHook) :=
  setMember commitHookMembers .flagFirst () hook value

/-! ### Options of requests -/

def getOptionsMembers : Layout RiakGetOptions Unit RiakBinary where
  get _ opt := (opt.hasIfModified, opt.ifModified)
  put _ opt x := { opt with hasIfModified := x.1, ifModified := x.2 }
  get_put _ _ _ := rfl
  get_put_ne _ _ _ _ hne := absurd rfl hne

def riakGetOptionsSetR (opt : RiakGetOptions) (value : UInt32) : RiakGetOptions :=
  { opt with hasR := true, r := value }

def riakGetOptionsSetPr (opt : RiakGetOptions) (value : UInt32) : RiakGetOptions :=
  { opt with hasPr := true, pr := value }

def riakGetOptionsSetBasicQuorum (opt : RiakGetOptions) (value : RiakBoolean) : RiakGetOptions :=
  { opt with hasBasicQuorum := true, basicQuorum := value }

def riakGetOptionsSetNotfoundOk (opt : RiakGetOptions) (value : RiakBoolean) : RiakGetOptions :=
  { opt with hasNotfoundOk := true, notfoundOk := value }

/-- The old binary is freed first; there is no error code. -/
def riakGetOptionsSetIfModified (opt : RiakGetOptions) (value : Option RiakBinary) :
    C RiakGetOptions :=
  Prod.snd <$> setMember getOptionsMembers .flagFirst () opt value

def riakGetOptionsSetHead (opt : RiakGetOptions) (value : RiakBoolean) : RiakGetOptions :=
  { opt with hasHead := true, head := value }

def riakGetOptionsSetDeletedvclock (opt : RiakGetOptions) (value : RiakBoolean) :
    RiakGetOptions :=
  { opt with hasDeletedvclock := true, deletedvclock := value }

def riakGetOptionsSetTimeout (opt : RiakGetOptions) (value : UInt32) : RiakGetOptions :=
  { opt with hasTimeout := true, timeout := value }

def riakGetOptionsSetSloppyQuorum (opt : RiakGetOptions) (value : RiakBoolean) : RiakGetOptions :=
  { opt with hasSloppyQuorum := true, sloppyQuorum := value }

def riakGetOptionsSetNVal (opt : RiakGetOptions) (value : UInt32) : RiakGetOptions :=
  { opt with hasNVal := true, nVal := value }

def putOptionsMembers : Layout RiakPutOptions Unit RiakBinary where
  get _ opt := (opt.hasVclock, opt.vclock)
  put _ opt x := { opt with hasVclock := x.1, vclock := x.2 }
  get_put _ _ _ := rfl
  get_put_ne _ _ _ _ hne := absurd rfl hne

def deleteOptionsMembers : Layout RiakDeleteOptions Unit RiakBinary where
  get _ opt := (opt.hasVclock, opt.vclock)
  put _ opt x := { opt with hasVclock := x.1, vclock := x.2 }
  get_put _ _ _ := rfl
  get_put_ne _ _ _ _ hne := absurd rfl hne

/-- The old binary is freed first; there is no error code. -/
def riakDeleteOptionsSetVclock (opt : RiakDeleteOptions) (value : Option RiakBinary) :
    C RiakDeleteOptions :=
  Prod.snd <$> setMember deleteOptionsMembers .flagFirst () opt value

def riakDeleteOptionsSetW (opt : RiakDeleteOptions) (value : UInt32) : RiakDeleteOptions :=
  { opt with hasW := true, w := value }

def riakDeleteOptionsSetDw (opt : RiakDeleteOptions) (value : UInt32) : RiakDeleteOptions :=
  { opt with hasDw := true, dw := value }

def riakDeleteOptionsSetPw (opt : RiakDeleteOptions) (value : UInt32) : RiakDeleteOptions :=
  { opt with hasPw := true, pw := value }

def riakDeleteOptionsSetTimeout (opt : RiakDeleteOptions) (value : UInt32) : RiakDeleteOptions :=
  { opt with hasTimeout := true, timeout := value }

def riakDeleteOptionsSetSloppyQuorum (opt : RiakDeleteOptions) (value : RiakBoolean) :
    RiakDeleteOptions :=
  { opt with hasSloppyQuorum := true, sloppyQuorum := value }

def riakDeleteOptionsSetNVal (opt : RiakDeleteOptions) (value : UInt32) : RiakDeleteOptions :=
  { opt with hasNVal := true, nVal := value }

inductive IndexOptionsMember where
  | key
  | rangeMin
  | rangeMax
  | continuation
  | type
  | termRegex
deriving DecidableEq, Repr

def indexOptionsMembers : Layout Riak2iOptions IndexOptionsMember RiakBinary where
  get
    | .key, opt => (opt.hasKey, opt.key)
    | .rangeMin, opt => (opt.hasRangeMin, opt.rangeMin)
    | .rangeMax, opt => (opt.hasRangeMax, opt.rangeMax)
    | .continuation, opt => (opt.hasContinuation, opt.continuation)
    | .type, opt => (opt.hasType, opt.type)
    | .termRegex, opt => (opt.hasTermRegex, opt.termRegex)
  put
    | .key, opt, x => { opt with hasKey := x.1, key := x.2 }
    | .rangeMin, opt, x => { opt with hasRangeMin := x.1, rangeMin := x.2 }
    | .rangeMax, opt, x => { opt with hasRangeMax := x.1, rangeMax := x.2 }
    | .continuation, opt, x => { opt with hasContinuation := x.1, continuation := x.2 }
    | .type, opt, x => { opt with hasType := x.1, type := x.2 }
    | .termRegex, opt, x => { opt with hasTermRegex := x.1, termRegex := x.2 }
  get_put := by
    intro i opt x
    cases i <;> rfl
  get_put_ne := by
    intro i j opt x hne
    cases i <;> cases j <;> first | rfl | exact absurd rfl hne

inductive SearchOptionsMember where
  | sort
  | filter
  | df
  | op
  | presort
deriving DecidableEq, Repr

def searchOptionsMembers : Layout RiakSearchOptions SearchOptionsMember RiakBinary where
  get
    | .sort, opt => (opt.hasSort, opt.sort)
    | .filter, opt => (opt.hasFilter, opt.filter)
    | .df, opt => (opt.hasDf, opt.df)
    | .op, opt => (opt.hasOp, opt.op)
    | .presort, opt => (opt.hasPresort, opt.presort)
  put
    | .sort, opt, x => { opt with hasSort := x.1, sort := x.2 }
    | .filter, opt, x => { opt with hasFilter := x.1, filter := x.2 }
    | .df, opt, x => { opt with hasDf := x.1, df := x.2 }
    | .op, opt, x => { opt with hasOp := x.1, op := x.2 }
    | .presort, opt, x => { opt with hasPresort := x.1, presort := x.2 }
  get_put := by
    intro i opt x
    cases i <;> rfl
  get_put_ne := by
    intro i j opt x hne
    cases i <;> cases j <;> first | rfl | exact absurd rfl hne

def riakSearchOptionsSetRows (opt : RiakSearchOptions) (value : UInt32) : RiakSearchOptions :=
  { opt with hasRows := true, rows := value }

def riakSearchOptionsSetStart (opt : RiakSearchOptions) (value : UInt32) : RiakSearchOptions :=
  { opt with hasStart := true, start := value }

def riakSearchOptionsSetSort (opt : RiakSearchOptions) (value : Option RiakBinary) :
    C (RiakError × RiakSearchOptions) :=
  setMember searchOptionsMembers .flagFirst .sort opt value

def riakSearchOptionsSetFilter (opt : RiakSearchOptions) (value : Option RiakBinary) :
    C (RiakError × RiakSearchOptions) :=
  setMember searchOptionsMembers .flagFirst .filter opt value

def riakSearchOptionsSetDf (opt : RiakSearchOptions) (value : Option RiakBinary) :
    C (RiakError × RiakSearchOptions) :=
  setMember searchOptionsMembers .flagFirst .df opt value

def riakSearchOptionsSetOp (opt : RiakSearchOptions) (value : Option RiakBinary) :
    C (RiakError × RiakSearchOptions) :=
  setMember searchOptionsMembers .flagFirst .op opt value

/-- The array of `riak_search_options_add_fl` with one more slot. A refused
    `riak_array_realloc` goes unnoticed and leaves the array as it is. -/
def growFl (opt : RiakSearchOptions) : C (Option (List (Option RiakBinary))) :=
  match opt.fl with
  | none => C.new [none]
  | some fl => do
      if ← C.allocate then
        if fl.length < opt.nFl % 2 ^ 32 then C.fault .outOfBounds
        else
          let slots := List.replicate ((opt.nFl + 1) % 2 ^ 32) none
          some <$> C.copyAt slots 0 (fl.take (opt.nFl % 2 ^ 32))
      else pure (some fl)

def riakSearchOptionsAddFl (opt : RiakSearchOptions) (value : Option RiakBinary) :
    C (RiakError × RiakSearchOptions) := do
  match ← growFl opt with
  | none => pure (.outOfMemory, { opt with fl := none })
  | some fl => do
      let copy ← riakBinaryCopy value
      let fl ← C.writeAt fl opt.nFl copy
      match copy with
      | none => pure (.outOfMemory, { opt with fl := some fl })
      | some _ => pure (.ok, { opt with fl := some fl, nFl := opt.nFl + 1 })

def riakSearchOptionsSetPresort (opt : RiakSearchOptions) (value : Option RiakBinary) :
    C (RiakError × RiakSearchOptions) :=
  setMember searchOptionsMembers .flagFirst .presort opt value

/-! ### The interfaces -/

/-- The setters of one kind of struct: the members with flags, the calls, and the
    member that a call is about, if it has a flag. -/
structure SetterApi where
  Struct : Type
  Member : Type
  Call : Type
  members : Layout Struct Member RiakBinary
  run : Struct → Call → C (RiakError × Struct)
  target : Call → Option (Order × Member × Option RiakBinary)
  moves : ∀ s call heap err s' final, run s call heap = .ok ((err, s'), final) →
    Moves members (target call) heap final s s'

inductive ObjectCall where
  | bucket (value : Option RiakBinary)
  | bucketType (value : Option RiakBinary)
  | key (value : Option RiakBinary)
  | value (value : Option RiakBinary)
  | valueShallowCopy (value : Option RiakBinary)
  | charset (value : Option RiakBinary)
  | lastMod (value : UInt32)
  | lastModUsecs (value : UInt32)
  | contentType (value : Option RiakBinary)
  | contentEncoding (value : Option RiakBinary)
  | deleted (value : RiakBoolean)
  | vtag (value : Option RiakBinary)
deriving DecidableEq, Repr

def objectSetters : SetterApi where
  Struct := RiakObject
  Member := ObjectMember
  Call := ObjectCall
  members := objectMembers
  run obj
    | .bucket value => riakObjectSetBucket obj value
    | .bucketType value => riakObjectSetBucketType obj value
    | .key value => riakObjectSetKey obj value
    | .value value => riakObjectSetValue obj value
    | .valueShallowCopy value => riakObjectSetValueShallowCopy obj value
    | .charset value => riakObjectSetCharset obj value
    | .lastMod value => pure (.ok, riakObjectSetLastMod obj value)
    | .lastModUsecs value => pure (.ok, riakObjectSetLastModUsecs obj value)
    | .contentType value => riakObjectSetContentType obj value
    | .contentEncoding value => riakObjectSetContentEncoding obj value
    | .deleted value => pure (.ok, riakObjectSetDeleted obj value)
    | .vtag value => riakObjectSetVtag obj value
  target
    | .bucketType value => some (.flagLast, .bucketType, value)
    | .key value => some (.flagLast, .key, value)
    | .charset value => some (.flagLast, .charset, value)
    | .contentType value => some (.flagLast, .contentType, value)
    | .contentEncoding value => some (.flagLast, .contentEncoding, value)
    | .vtag value => some (.flagLast, .vtag, value)
    | .bucket _ | .value _ | .valueShallowCopy _ | .lastMod _ | .lastModUsecs _ | .deleted _ =>
        none
  moves := by
    intro s call heap err s' final h
    cases call with
    | bucketType value => exact setMember_moves h
    | key value => exact setMember_moves h
    | charset value => exact setMember_moves h
    | contentType value => exact setMember_moves h
    | contentEncoding value => exact setMember_moves h
    | vtag value => exact setMember_moves h
    | bucket value => exact moves_of_copy h (fun _ i => by cases i <;> rfl)
    | value value => exact moves_of_copy h (fun _ i => by cases i <;> rfl)
    | valueShallowCopy value => exact moves_of_copy h (fun _ i => by cases i <;> rfl)
    | lastMod value => exact moves_of_pure h (fun i => by cases i <;> rfl)
    | lastModUsecs value => exact moves_of_pure h (fun i => by cases i <;> rfl)
    | deleted value => exact moves_of_pure h (fun i => by cases i <;> rfl)

inductive LinkCall where
  | bucket (value : Option RiakBinary)
  | key (value : Option RiakBinary)
  | tag (value : Option RiakBinary)
deriving DecidableEq, Repr

def linkSetters : SetterApi where
  Struct := RiakLink
  Member := LinkMember
  Call := LinkCall
  members := linkMembers
  run link
    | .bucket value => riakLinkSetBucket link value
    | .key value => riakLinkSetKey link value
    | .tag value => riakLinkSetTag link value
  target
    | .bucket value => some (.flagLast, .bucket, value)
    | .key value => some (.flagLast, .key, value)
    | .tag value => some (.flagLast, .tag, value)
  moves := by
    intro s call heap err s' final h
    cases call with
    | bucket value => exact setMember_moves h
    | key value => exact setMember_moves h
    | tag value => exact setMember_moves h

inductive PairCall where
  | key (value : Option RiakBinary)
  | value (value : Option RiakBinary)
deriving DecidableEq, Repr

def pairSetters : SetterApi where
  Struct := RiakPair
  Member := Unit
  Call := PairCall
  members := pairMembers
  run pair
    | .key value => riakPairSetKey pair value
    | .value value => riakPairSetValue pair value
  target
    | .key _ => none
    | .value value => some (.flagLast, (), value)
  moves := by
    intro s call heap err s' final h
    cases call with
    | key value => exact moves_of_copy h (fun _ _ => rfl)
    | value value => exact setMember_moves h

inductive CommitHookCall where
  | modfun (value : Option RiakModfun)
  | name (value : Option RiakBinary)
deriving DecidableEq, Repr

def commitHookSetters : SetterApi where
  Struct := RiakCommitHook
  Member := Unit
  Call := CommitHookCall
  members := commitHookMembers
  run hook
    | .modfun value => riakCommitHookSetModfun hook value
    | .name value => riakCommitHookSetName hook value
  target
    | .modfun _ => none
    | .name value => some (.flagFirst, (), value)
  moves := by
    intro s call heap err s' final h
    cases call with
    | modfun value => exact moves_of_copy h (fun _ _ => rfl)
    | name value => exact setMember_moves h

inductive GetOptionsCall where
  | r (value : UInt32)
  | pr (value : UInt32)
  | basicQuorum (value : RiakBoolean)
  | notfoundOk (value : RiakBoolean)
  | ifModified (value : Option RiakBinary)
  | head (value : RiakBoolean)
  | deletedvclock (value : RiakBoolean)
  | timeout (value : UInt32)
  | sloppyQuorum (value : RiakBoolean)
  | nVal (value : UInt32)
deriving DecidableEq, Repr

def getOptionsSetters : SetterApi where
  Struct := RiakGetOptions
  Member := Unit
  Call := GetOptionsCall
  members := getOptionsMembers
  run opt
    | .r value => pure (.ok, riakGetOptionsSetR opt value)
    | .pr value => pure (.ok, riakGetOptionsSetPr opt value)
    | .basicQuorum value => pure (.ok, riakGetOptionsSetBasicQuorum opt value)
    | .notfoundOk value => pure (.ok, riakGetOptionsSetNotfoundOk opt value)
    | .ifModified value => do pure (.ok, ← riakGetOptionsSetIfModified opt value)
    | .head value => pure (.ok, riakGetOptionsSetHead opt value)
    | .deletedvclock value => pure (.ok, riakGetOptionsSetDeletedvclock opt value)
    | .timeout value => pure (.ok, riakGetOptionsSetTimeout opt value)
    | .sloppyQuorum value => pure (.ok, riakGetOptionsSetSloppyQuorum opt value)
    | .nVal value => pure (.ok, riakGetOptionsSetNVal opt value)
  target
    | .ifModified value => some (.flagFirst, (), value)
    | .r _ | .pr _ | .basicQuorum _ | .notfoundOk _ | .head _ | .deletedvclock _ | .timeout _
    | .sloppyQuorum _ | .nVal _ => none
  moves := by
    intro s call heap err s' final h
    cases call with
    | ifModified value => exact moves_of_void h
    | r value => exact moves_of_pure h (fun _ => rfl)
    | pr value => exact moves_of_pure h (fun _ => rfl)
    | basicQuorum value => exact moves_of_pure h (fun _ => rfl)
    | notfoundOk value => exact moves_of_pure h (fun _ => rfl)
    | head value => exact moves_of_pure h (fun _ => rfl)
    | deletedvclock value => exact moves_of_pure h (fun _ => rfl)
    | timeout value => exact moves_of_pure h (fun _ => rfl)
    | sloppyQuorum value => exact moves_of_pure h (fun _ => rfl)
    | nVal value => exact moves_of_pure h (fun _ => rfl)

inductive PutOptionsCall where
  | vclock (value : Option RiakBinary)
  | w (value : UInt32)
  | dw (value : UInt32)
  | returnBody (value : RiakBoolean)
  | pw (value : UInt32)
  | ifNotModified (value : RiakBoolean)
  | ifNoneMatch (value : RiakBoolean)
  | returnHead (value : RiakBoolean)
  | timeout (value : UInt32)
  | asis (value : RiakBoolean)
  | sloppyQuorum (value : RiakBoolean)
  | nVal (value : UInt32)
deriving DecidableEq, Repr

theorem riakPutOptionsSetVclock_eq (opt : RiakPutOptions) (value : Option RiakBinary) :
    riakPutOptionsSetVclock opt value =
      Prod.snd <$> setMember putOptionsMembers .flagFirst () opt value := by
  unfold riakPutOptionsSetVclock setMember
  rw [map_bind]
  rfl

def putOptionsSetters : SetterApi where
  Struct := RiakPutOptions
  Member := Unit
  Call := PutOptionsCall
  members := putOptionsMembers
  run opt
    | .vclock value => do pure (.ok, ← riakPutOptionsSetVclock opt value)
    | .w value => pure (.ok, riakPutOptionsSetW opt value)
    | .dw value => pure (.ok, riakPutOptionsSetDw opt value)
    | .returnBody value => pure (.ok, riakPutOptionsSetReturnBody opt value)
    | .pw value => pure (.ok, riakPutOptionsSetPw opt value)
    | .ifNotModified value => pure (.ok, riakPutOptionsSetIfNotModified opt value)
    | .ifNoneMatch value => pure (.ok, riakPutOptionsSetIfNoneMatch opt value)
    | .returnHead value => pure (.ok, riakPutOptionsSetReturnHead opt value)
    | .timeout value => pure (.ok, riakPutOptionsSetTimeout opt value)
    | .asis value => pure (.ok, riakPutOptionsSetAsis opt value)
    | .sloppyQuorum value => pure (.ok, riakPutOptionsSetSloppyQuorum opt value)
    | .nVal value => pure (.ok, riakPutOptionsSetNVal opt value)
  target
    | .vclock value => some (.flagFirst, (), value)
    | .w _ | .dw _ | .returnBody _ | .pw _ | .ifNotModified _ | .ifNoneMatch _ | .returnHead _
    | .timeout _ | .asis _ | .sloppyQuorum _ | .nVal _ => none
  moves := by
    intro s call heap err s' final h
    cases call with
    | vclock value =>
      change (riakPutOptionsSetVclock s value >>= _) heap = _ at h
      rw [riakPutOptionsSetVclock_eq] at h
      exact moves_of_void h
    | w value => exact moves_of_pure h (fun _ => rfl)
    | dw value => exact moves_of_pure h (fun _ => rfl)
    | returnBody value => exact moves_of_pure h (fun _ => rfl)
    | pw value => exact moves_of_pure h (fun _ => rfl)
    | ifNotModified value => exact moves_of_pure h (fun _ => rfl)
    | ifNoneMatch value => exact moves_of_pure h (fun _ => rfl)
    | returnHead value => exact moves_of_pure h (fun _ => rfl)
    | timeout value => exact moves_of_pure h (fun _ => rfl)
    | asis value => exact moves_of_pure h (fun _ => rfl)
    | sloppyQuorum value => exact moves_of_pure h (fun _ => rfl)
    | nVal value => exact moves_of_pure h (fun _ => rfl)

inductive DeleteOptionsCall where
  | vclock (value : Option RiakBinary)
  | w (value : UInt32)
  | dw (value : UInt32)
  | pw (value : UInt32)
  | timeout (value : UInt32)
  | sloppyQuorum (value : RiakBoolean)
  | nVal (value : UInt32)
deriving DecidableEq, Repr

def deleteOptionsSetters : SetterApi where
  Struct := RiakDeleteOptions
  Member := Unit
  Call := DeleteOptionsCall
  members := deleteOptionsMembers
  run opt
    | .vclock value => do pure (.ok, ← riakDeleteOptionsSetVclock opt value)
    | .w value => pure (.ok, riakDeleteOptionsSetW opt value)
    | .dw value => pure (.ok, riakDeleteOptionsSetDw opt value)
    | .pw value => pure (.ok, riakDeleteOptionsSetPw opt value)
    | .timeout value => pure (.ok, riakDeleteOptionsSetTimeout opt value)
    | .sloppyQuorum value => pure (.ok, riakDeleteOptionsSetSloppyQuorum opt value)
    | .nVal value => pure (.ok, riakDeleteOptionsSetNVal opt value)
  target
    | .vclock value => some (.flagFirst, (), value)
    | .w _ | .dw _ | .pw _ | .timeout _ | .sloppyQuorum _ | .nVal _ => none
  moves := by
    intro s call heap err s' final h
    cases call with
    | vclock value => exact moves_of_void h
    | w value => exact moves_of_pure h (fun _ => rfl)
    | dw value => exact moves_of_pure h (fun _ => rfl)
    | pw value => exact moves_of_pure h (fun _ => rfl)
    | timeout value => exact moves_of_pure h (fun _ => rfl)
    | sloppyQuorum value => exact moves_of_pure h (fun _ => rfl)
    | nVal value => exact moves_of_pure h (fun _ => rfl)

inductive IndexOptionsCall where
  | rangeQuery
  | key (value : Option RiakBinary)
  | rangeMin (value : Option RiakBinary)
  | rangeMax (value : Option RiakBinary)
  | returnTerms (value : RiakBoolean)
  | stream (value : RiakBoolean)
  | maxResults (value : UInt32)
  | continuation (value : Option RiakBinary)
  | timeout (value : UInt32)
  | type (value : Option RiakBinary)
  | termRegex (value : Option RiakBinary)
  | paginationSort (value : RiakBoolean)
deriving DecidableEq, Repr

def indexOptionsSetters : SetterApi where
  Struct := Riak2iOptions
  Member := IndexOptionsMember
  Call := IndexOptionsCall
  members := indexOptionsMembers
  run opt
    | .rangeQuery => pure (.ok, riak2iOptionsSetRangeQuery opt)
    | .key value => riak2iOptionsSetKey opt value
    | .rangeMin value => riak2iOptionsSetRangeMin opt value
    | .rangeMax value => riak2iOptionsSetRangeMax opt value
    | .returnTerms value => pure (.ok, riak2iOptionsSetReturnTerms opt value)
    | .stream value => pure (.ok, riak2iOptionsSetStream opt value)
    | .maxResults value => pure (.ok, riak2iOptionsSetMaxResults opt value)
    | .continuation value => riak2iOptionsSetContinuation opt value
    | .timeout value => pure (.ok, riak2iOptionsSetTimeout opt value)
    | .type value => riak2iOptionsSetType opt value
    | .termRegex value => riak2iOptionsSetTermRegex opt value
    | .paginationSort value => pure (.ok, riak2iOptionsSetPaginationSort opt value)
  target
    | .key value => some (.flagFirst, .key, value)
    | .rangeMin value => some (.flagFirst, .rangeMin, value)
    | .rangeMax value => some (.flagFirst, .rangeMax, value)
    | .continuation value => some (.flagFirst, .continuation, value)
    | .type value => some (.flagFirst, .type, value)
    | .termRegex value => some (.flagFirst, .termRegex, value)
    | .rangeQuery | .returnTerms _ | .stream _ | .maxResults _ | .timeout _ | .paginationSort _ =>
        none
  moves := by
    intro s call heap err s' final h
    cases call with
    | key value => exact setMember_moves h
    | rangeMin value => exact setMember_moves h
    | rangeMax value => exact setMember_moves h
    | continuation value => exact setMember_moves h
    | type value => exact setMember_moves h
    | termRegex value => exact setMember_moves h
    | rangeQuery => exact moves_of_pure h (fun i => by cases i <;> rfl)
    | returnTerms value => exact moves_of_pure h (fun i => by cases i <;> rfl)
    | stream value => exact moves_of_pure h (fun i => by cases i <;> rfl)
    | maxResults value => exact moves_of_pure h (fun i => by cases i <;> rfl)
    | timeout value => exact moves_of_pure h (fun i => by cases i <;> rfl)
    | paginationSort value => exact moves_of_pure h (fun i => by cases i <;> rfl)

inductive SearchOptionsCall where
  | rows (value : UInt32)
  | start (value : UInt32)
  | sort (value : Option RiakBinary)
  | filter (value : Option RiakBinary)
  | df (value : Option RiakBinary)
  | op (value : Option RiakBinary)
  | addFl (value : Option RiakBinary)
  | presort (value : Option RiakBinary)
deriving DecidableEq, Repr

theorem riakSearchOptionsAddFl_moves {opt opt' : RiakSearchOptions} {value : Option RiakBinary}
    {err : RiakError} (h : riakSearchOptionsAddFl opt value heap = .ok ((err, opt'), final)) :
    Moves searchOptionsMembers none heap final opt opt' := by
  obtain ⟨fl, heap₁, _, h⟩ := C.bind_eq_ok.mp h
  cases fl with
  | none =>
    cases h
    intro i
    cases i <;> rfl
  | some fl =>
    obtain ⟨copy, heap₂, _, h⟩ := C.bind_eq_ok.mp h
    obtain ⟨slots, heap₃, _, h⟩ := C.bind_eq_ok.mp h
    cases copy with
    | none =>
      cases h
      intro i
      cases i <;> rfl
    | some copy =>
      cases h
      intro i
      cases i <;> rfl

def searchOptionsSetters : SetterApi where
  Struct := RiakSearchOptions
  Member := SearchOptionsMember
  Call := SearchOptionsCall
  members := searchOptionsMembers
  run opt
    | .rows value => pure (.ok, riakSearchOptionsSetRows opt value)
    | .start value => pure (.ok, riakSearchOptionsSetStart opt value)
    | .sort value => riakSearchOptionsSetSort opt value
    | .filter value => riakSearchOptionsSetFilter opt value
    | .df value => riakSearchOptionsSetDf opt value
    | .op value => riakSearchOptionsSetOp opt value
    | .addFl value => riakSearchOptionsAddFl opt value
    | .presort value => riakSearchOptionsSetPresort opt value
  target
    | .sort value => some (.flagFirst, .sort, value)
    | .filter value => some (.flagFirst, .filter, value)
    | .df value => some (.flagFirst, .df, value)
    | .op value => some (.flagFirst, .op, value)
    | .presort value => some (.flagFirst, .presort, value)
    | .rows _ | .start _ | .addFl _ => none
  moves := by
    intro s call heap err s' final h
    cases call with
    | sort value => exact setMember_moves h
    | filter value => exact setMember_moves h
    | df value => exact setMember_moves h
    | op value => exact setMember_moves h
    | presort value => exact setMember_moves h
    | addFl value => exact riakSearchOptionsAddFl_moves h
    | rows value => exact moves_of_pure h (fun i => by cases i <;> rfl)
    | start value => exact moves_of_pure h (fun i => by cases i <;> rfl)

/-- The structs with setters. -/
inductive SetterTarget where
  | object
  | link
  | pair
  | commitHook
  | getOptions
  | putOptions
  | deleteOptions
  | indexOptions
  | searchOptions
deriving DecidableEq, Repr

@[reducible] def SetterTarget.api : SetterTarget → SetterApi
  | object => objectSetters
  | link => linkSetters
  | pair => pairSetters
  | commitHook => commitHookSetters
  | getOptions => getOptionsSetters
  | putOptions => putOptionsSetters
  | deleteOptions => deleteOptionsSetters
  | indexOptions => indexOptionsSetters
  | searchOptions => searchOptionsSetters

/-! ### Runs

There is a copy exactly if there is an original and memory for it. So one call keeps
the flags right exactly if it is backed, and the encoders, which test only the flags,
get at every binary that is flagged. -/

/-- The coming two requests for memory, which a copy of a binary makes, are
    granted. -/
def GrantsCopy (heap : Heap) : Prop := ∀ granted ∈ heap.outcomes.take 2, granted = true

instance (heap : Heap) : Decidable (GrantsCopy heap) :=
  inferInstanceAs (Decidable (∀ granted ∈ _, _))

theorem riakBinaryCopy_isSome {value copy : Option RiakBinary}
    (h : riakBinaryCopy value heap = .ok (copy, final)) :
    copy.isSome = true ↔ value.isSome = true ∧ GrantsCopy heap := by
  cases value with
  | none =>
    cases h
    simp
  | some b =>
    obtain ⟨outcomes, junk⟩ := heap
    change riakBinaryNew b.data ⟨outcomes, junk⟩ = _ at h
    unfold GrantsCopy
    unfold riakBinaryNew C.allocate at h
    rcases outcomes with _ | ⟨struct, _ | ⟨bytes, later⟩⟩
    · cases h
      simp
    · cases struct <;> cases h <;> simp
    · cases struct <;> cases bytes <;> cases h <;> simp

/-- What the encoders do with a member goes well exactly if its flag goes with
    data. -/
theorem copyToPbIf_total_iff {has : Bool} {bin : Option RiakBinary} (heap : Heap) :
    (∃ data, copyToPbIf has bin heap = .ok (data, heap)) ↔
      (has = true → bin.isSome = true) := by
  constructor
  · rintro ⟨data, hcopy⟩ hhas
    obtain ⟨_, hsome, _⟩ := copyToPbIf_eq_ok.mp hcopy
    obtain ⟨b, rfl, _⟩ := hsome hhas
    rfl
  · intro hdata
    cases has with
    | false => exact ⟨[], rfl⟩
    | true =>
      obtain ⟨b, rfl⟩ := Option.isSome_iff_exists.mp (hdata rfl)
      exact ⟨b.data, rfl⟩

section Runs

variable {api : SetterApi}

/-- A call in a run: what it got and what it left. -/
structure SetterEntry (api : SetterApi) where
  before : api.Struct
  heap : Heap
  call : api.Call
  after : api.Struct

/-- Calls that return, by an application that does not look at what they return,
    with any outcome of their requests for memory. -/
inductive SetterStep (api : SetterApi) : api.Struct × Heap → SetterEntry api →
    api.Struct × Heap → Prop
  | call (s : api.Struct) (heap : Heap) (call : api.Call) (err : RiakError) (s' : api.Struct)
      (final : Heap) (hrun : api.run s call heap = .ok ((err, s'), final)) :
      SetterStep api (s, heap) ⟨s, heap, call, s'⟩ (s', final)

/-- A setter of a flagged binary gets a copy of it, or it checks the copy before
    it raises the flag, which was not up. -/
def SetterEntry.Backed (entry : SetterEntry api) : Prop :=
  ∀ order i value, api.target entry.call = some (order, i, value) →
    (value.isSome = true ∧ GrantsCopy entry.heap) ∨
      order = .flagLast ∧ (api.members.get i entry.before).1 = false

/-- The encoders, which test only the flags, get at every binary that is flagged. -/
def SetterApi.Encodes (api : SetterApi) (s : api.Struct) : Prop :=
  ∀ i heap, ∃ data, copyToPbIf (api.members.get i s).1 (api.members.get i s).2 heap =
    .ok (data, heap)

theorem present_iff_encodes {s : api.Struct} : api.members.Present s ↔ api.Encodes s := by
  constructor
  · intro hpresent i heap
    exact (copyToPbIf_total_iff heap).mpr (hpresent i)
  · intro hencodes i
    exact (copyToPbIf_total_iff Heap.fresh).mp (hencodes i Heap.fresh)

theorem SetterStep.present_iff {entry : SetterEntry api} {s s' : api.Struct}
    (h : SetterStep api (s, heap) entry (s', final)) (hpresent : api.members.Present s) :
    api.members.Present s' ↔ entry.Backed := by
  cases h with
  | call _ _ call err _ _ hrun =>
    have hmoves := api.moves s call heap err s' final hrun
    unfold SetterEntry.Backed
    cases htarget : api.target call with
    | none =>
      rw [htarget] at hmoves
      refine ⟨?_, fun _ => hpresent.of_same hmoves⟩
      intro _ order i value hsome
      cases hsome
    | some target =>
      obtain ⟨order, i, value⟩ := target
      rw [htarget] at hmoves
      obtain ⟨copy, hcopy, rfl⟩ := hmoves
      rw [Layout.present_write_iff hpresent, riakBinaryCopy_isSome hcopy]
      constructor
      · intro hsafe order' i' value' hsome
        cases hsome
        exact hsafe
      · intro hbacked
        exact hbacked order i value rfl

end Runs

/-- **When flags go with their data.** From a struct whose raised flags go with
    data, every call of every run leaves it so, and the encoders can follow every
    flag, if and only if every call is backed. -/
theorem riak_setters_present_iff (target : SetterTarget) {start last : target.api.Struct}
    {entries : List (SetterEntry target.api)} (hstart : target.api.members.Present start)
    (hrun : Run (SetterStep target.api) (start, heap) entries (last, final)) :
    (∀ entry ∈ entries, target.api.members.Present entry.after ∧
      target.api.Encodes entry.after) ↔ ∀ entry ∈ entries, entry.Backed := by
  have hinvariant : ((∀ entry ∈ entries, target.api.members.Present entry.after) ↔
      ∀ entry ∈ entries, entry.Backed) ∧
      ((∀ entry ∈ entries, target.api.members.Present entry.after) →
        target.api.members.Present last) := by
    refine hrun.invariant (fun entries (s : target.api.Struct × Heap) =>
      ((∀ entry ∈ entries, target.api.members.Present entry.after) ↔
        ∀ entry ∈ entries, entry.Backed) ∧
      ((∀ entry ∈ entries, target.api.members.Present entry.after) →
        target.api.members.Present s.1)) ?_ ?_
    · exact ⟨⟨fun _ _ hentry => (List.not_mem_nil hentry).elim,
        fun _ _ hentry => (List.not_mem_nil hentry).elim⟩, fun _ => hstart⟩
    · rintro entries ⟨s, heap⟩ entry ⟨s', final⟩ ⟨hiff, hlast⟩ hstep
      have hafter : entry.after = s' := by
        cases hstep
        rfl
      simp only [List.forall_mem_append, List.forall_mem_singleton, hafter]
      refine ⟨?_, And.right⟩
      rw [← hiff]
      exact and_congr_right fun hall => hstep.present_iff (hlast hall)
  rw [← hinvariant.1]
  exact forall₂_congr fun entry _ => by rw [← present_iff_encodes, and_self_iff]

/-- An object whose key is set to two bytes. -/
theorem riak_setters_present_key :
    ∃ (entries : List (SetterEntry SetterTarget.object.api)) (obj : RiakObject),
      Run (SetterStep SetterTarget.object.api) (({} : RiakObject), Heap.fresh) entries
        (obj, Heap.fresh) ∧
      obj.hasKey = true ∧ obj.key = some ⟨[1, 2], true⟩ ∧
      ∀ entry ∈ entries, SetterTarget.object.api.members.Present entry.after ∧
        SetterTarget.object.api.Encodes entry.after := by
  have hstep : SetterStep SetterTarget.object.api (({} : RiakObject), Heap.fresh)
      ⟨({} : RiakObject), Heap.fresh, ObjectCall.key (some ⟨[1, 2], false⟩),
        ({ hasKey := true, key := some ⟨[1, 2], true⟩ } : RiakObject)⟩
      (({ hasKey := true, key := some ⟨[1, 2], true⟩ } : RiakObject), Heap.fresh) :=
    .call _ _ _ .ok _ _ rfl
  have hstart : SetterTarget.object.api.members.Present ({} : RiakObject) := by
    intro i hflag
    cases i <;> cases hflag
  refine ⟨_, _, Run.single hstep, rfl, rfl,
    (riak_setters_present_iff .object hstart (Run.single hstep)).mpr ?_⟩
  intro entry hentry order i value htarget
  rw [List.mem_singleton.mp hentry] at htarget ⊢
  cases htarget
  exact Or.inl ⟨rfl, by decide⟩

/-- Two flags without data: a NULL timestamp in the options of a get, and a key
    that is replaced by NULL. -/
theorem riak_setters_flag_without_data :
    (∃ opt : RiakGetOptions,
      riakGetOptionsSetIfModified {} none Heap.fresh = .ok (opt, Heap.fresh) ∧
      opt.hasIfModified = true ∧ opt.ifModified = none ∧
      copyToPbIf opt.hasIfModified opt.ifModified Heap.fresh = .error .nullDereference) ∧
    ∃ (entries : List (SetterEntry SetterTarget.object.api)) (obj : RiakObject),
      Run (SetterStep SetterTarget.object.api) (({} : RiakObject), Heap.fresh) entries
        (obj, Heap.fresh) ∧
      obj.hasKey = true ∧ obj.key = none := by
  refine ⟨⟨{ hasIfModified := true, ifModified := none }, rfl, rfl, rfl, rfl⟩, ?_⟩
  have hset : SetterStep SetterTarget.object.api (({} : RiakObject), Heap.fresh)
      ⟨({} : RiakObject), Heap.fresh, ObjectCall.key (some ⟨[1, 2], false⟩),
        ({ hasKey := true, key := some ⟨[1, 2], true⟩ } : RiakObject)⟩
      (({ hasKey := true, key := some ⟨[1, 2], true⟩ } : RiakObject), Heap.fresh) :=
    .call _ _ _ .ok _ _ rfl
  have hclear : SetterStep SetterTarget.object.api
      (({ hasKey := true, key := some ⟨[1, 2], true⟩ } : RiakObject), Heap.fresh)
      ⟨({ hasKey := true, key := some ⟨[1, 2], true⟩ } : RiakObject), Heap.fresh,
        ObjectCall.key none, ({ hasKey := true, key := none } : RiakObject)⟩
      (({ hasKey := true, key := none } : RiakObject), Heap.fresh) :=
    .call _ _ _ .outOfMemory _ _ rfl
  exact ⟨_, _, (Run.single hset).snoc hclear, rfl, rfl⟩

end RiakClient
