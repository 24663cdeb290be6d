import RiakClient.Bucketprops
import RiakClient.ObjectContent

/-!
# Decoding bucket properties

`riak_bucketprops_new_from_pb` and the copies of hooks and functions out of a
protocol buffer (`riak_bucketprops.c`). A function that a message does not have
is reported as a refused allocation, and hooks are only looked at where the flag
`has_x` of the message is there and true.

What the decoder is compared with are the properties of a message, member by member,
as the application sees them. A message is acceptable if both functions are there, its
hooks are where its flags say and have functions, and an `int` can count them; such a
message is accepted on every ample heap, and what is accepted was acceptable.
-/

namespace RiakClient

open CSem

variable {heap final : Heap}

/-! ### The decoder -/

/-- `riak_modfun_copy_from_pb`, which tests `pbmod_fun` where it means `mod_fun`. -/
def riakModfunCopyFromPb (pbmodFun : Option RpbModFun) : C (RiakError × Option RiakModfun) := do
  let modFun ← C.allocate
  match pbmodFun with
  | none => pure (.outOfMemory, none)
  | some pbmodFun => do
      let module ← riakBinaryCopyFromPb pbmodFun.module
      if modFun = false then C.fault .nullDereference
      else if module.isNone then pure (.outOfMemory, none)
      else
        let function ← riakBinaryCopyFromPb pbmodFun.function
        if function.isNone then pure (.outOfMemory, none)
        else pure (.ok, some { module := module, function := function })

/-- One round of the loop over the hooks of a message. -/
def riakCommitHookCopyFromPb (pbhook : Option (List RpbCommitHook)) (i : Nat) :
    C (Option RiakCommitHook) := do
  if ← C.allocate then
    let entry ← C.readAt (← C.deref pbhook) i
    let some name ← copyFromPbIf entry.hasName entry.name | pure none
    let (err, modfun) ← riakModfunCopyFromPb entry.modfun
    if err = .ok then pure (some { modfun := modfun, hasName := entry.hasName, name := name })
    else pure none
  else pure none

def riakCommitHooksCopyFromPb (pbhook : Option (List RpbCommitHook)) (numHooks : UInt32) :
    C (Option (List RiakCommitHook)) :=
  copyArray numHooks.toNat (riakCommitHookCopyFromPb pbhook)

/-- `if (from->has_has_x)` around one of the two arrays of hooks: what `has_x`,
    the count and the array are set to. -/
def decodeHooksIf (hasHas : Bool) (has : RiakBoolean) (hooks : Repeated RpbCommitHook) :
    C (RiakError × RiakBoolean × Nat × Option (List (Option RiakCommitHook))) :=
  if hasHas then
    if has ≠ 0 then do
      match ← riakCommitHooksCopyFromPb hooks.items (UInt32.ofNat hooks.count) with
      | none => pure (.outOfMemory, has, hooks.count, none)
      | some entries => pure (.ok, has, hooks.count, some (entries.map some))
    else pure (.ok, has, 0, none)
  else pure (.ok, 0, 0, none)

/-- The two functions at the end of a message. -/
def decodeFunctions (to_ : RiakBucketprops) (from_ : RpbBucketProps) :
    C (RiakError × Option RiakBucketprops) := do
  let (err, chashKeyfun) ← riakModfunCopyFromPb from_.chashKeyfun
  let to_ := { to_ with chashKeyfun := chashKeyfun }
  if err ≠ .ok then pure (err, some to_)
  else
    let (err, linkfun) ← riakModfunCopyFromPb from_.linkfun
    pure (err, some { to_ with linkfun := linkfun })

/-- The members behind the hooks. -/
def decodeScalars (to_ : RiakBucketprops) (from_ : RpbBucketProps) :
    C (RiakError × Option RiakBucketprops) := do
  let some backend ← copyFromPbIf from_.hasBackend from_.backend | pure (.outOfMemory, none)
  let some searchIndex ← copyFromPbIf from_.hasSearchIndex from_.searchIndex
    | pure (.outOfMemory, none)
  decodeFunctions { to_ with
    hasOldVclock := from_.hasOldVclock, oldVclock := assignIf from_.hasOldVclock from_.oldVclock
    hasYoungVclock := from_.hasYoungVclock
    youngVclock := assignIf from_.hasYoungVclock from_.youngVclock
    hasBigVclock := from_.hasBigVclock, bigVclock := assignIf from_.hasBigVclock from_.bigVclock
    hasSmallVclock := from_.hasSmallVclock
    smallVclock := assignIf from_.hasSmallVclock from_.smallVclock
    hasPr := from_.hasPr, pr := assignIf from_.hasPr from_.pr
    hasR := from_.hasR, r := assignIf from_.hasR from_.r
    hasW := from_.hasW, w := assignIf from_.hasW from_.w
    hasPw := from_.hasPw, pw := assignIf from_.hasPw from_.pw
    hasDw := from_.hasDw, dw := assignIf from_.hasDw from_.dw
    hasRw := from_.hasRw, rw := assignIf from_.hasRw from_.rw
    hasBasicQuorum := from_.hasBasicQuorum
    basicQuorum := assignIf from_.hasBasicQuorum from_.basicQuorum
    hasNotfoundOk := from_.hasNotfoundOk
    notfoundOk := assignIf from_.hasNotfoundOk from_.notfoundOk
    hasBackend := from_.hasBackend, backend := backend
    hasSearch := from_.hasSearch, search := assignIf from_.hasSearch from_.search
    hasRepl := from_.hasRepl, repl := assignIf from_.hasRepl from_.repl
    hasSearchIndex := from_.hasSearchIndex, searchIndex := searchIndex } from_

/-- `riak_bucketprops_new_from_pb`. A binary that cannot be copied frees the
    properties; with any other error the caller has what is there so far. -/
def riakBucketpropsNewFromPb (from_ : RpbBucketProps) :
    C (RiakError × Option RiakBucketprops) := do
  if ← C.allocate then
    let to_ : RiakBucketprops := {
      hasNVal := from_.hasNVal, nVal := assignIf from_.hasNVal from_.nVal
      hasAllowMult := from_.hasAllowMult
      allowMult := assignIf from_.hasAllowMult from_.allowMult
      hasLastWriteWins := from_.hasLastWriteWins
      lastWriteWins := assignIf from_.hasLastWriteWins from_.lastWriteWins }
    let (err, has, n, precommit) ←
      decodeHooksIf from_.hasHasPrecommit from_.hasPrecommit from_.precommit
    let to_ := { to_ with
      hasHasPrecommit := from_.hasHasPrecommit, hasPrecommit := has
      nPrecommit := n, precommit := precommit }
    if err ≠ .ok then pure (err, some to_)
    else
      let (err, has, n, postcommit) ←
        decodeHooksIf from_.hasHasPostcommit from_.hasPostcommit from_.postcommit
      let to_ := { to_ with
        hasHasPostcommit := from_.hasHasPostcommit, hasPostcommit := has
        nPostcommit := n, postcommit := postcommit }
      if err ≠ .ok then pure (err, some to_) else decodeScalars to_ from_
  else pure (.outOfMemory, none)

/-! ### Properties -/

structure ModfunContent where
  module : Option Bytes
  function : Option Bytes
deriving DecidableEq, Repr

structure HookContent where
  modfun : Option ModfunContent
  name : Option Bytes
deriving DecidableEq, Repr

/-- The properties of a bucket: the members that are there. -/
structure Properties where
  nVal : Option UInt32
  allowMult : Option RiakBoolean
  lastWriteWins : Option RiakBoolean
  hasPrecommit : Option RiakBoolean
  precommit : List HookContent
  hasPostcommit : Option RiakBoolean
  postcommit : List HookContent
  chashKeyfun : Option ModfunContent
  linkfun : Option ModfunContent
  oldVclock : Option UInt32
  youngVclock : Option UInt32
  bigVclock : Option UInt32
  smallVclock : Option UInt32
  pr : Option UInt32
  r : Option UInt32
  w : Option UInt32
  pw : Option UInt32
  dw : Option UInt32
  rw : Option UInt32
  basicQuorum : Option RiakBoolean
  notfoundOk : Option RiakBoolean
  backend : Option Bytes
  search : Option RiakBoolean
  repl : Option UInt32
  searchIndex : Option Bytes
deriving DecidableEq, Repr

def RiakModfun.content (modfun : RiakModfun) : ModfunContent where
  module := modfun.module.map RiakBinary.data
  function := modfun.function.map RiakBinary.data

def RiakCommitHook.content (hook : RiakCommitHook) : HookContent where
  modfun := hook.modfun.map RiakModfun.content
  name := flaggedBytes hook.hasName hook.name

def RiakBucketprops.properties (props : RiakBucketprops) : Properties where
  nVal := flagged props.hasNVal props.nVal
  allowMult := flagged props.hasAllowMult props.allowMult
  lastWriteWins := flagged props.hasLastWriteWins props.lastWriteWins
  hasPrecommit := flagged props.hasHasPrecommit props.hasPrecommit
  precommit := (firstEntries props.nPrecommit props.precommit).map RiakCommitHook.content
  hasPostcommit := flagged props.hasHasPostcommit props.hasPostcommit
  postcommit := (firstEntries props.nPostcommit props.postcommit).map RiakCommitHook.content
  chashKeyfun := props.chashKeyfun.map RiakModfun.content
  linkfun := props.linkfun.map RiakModfun.content
  oldVclock := flagged props.hasOldVclock props.oldVclock
  youngVclock := flagged props.hasYoungVclock props.youngVclock
  bigVclock := flagged props.hasBigVclock props.bigVclock
  smallVclock := flagged props.hasSmallVclock props.smallVclock
  pr := flagged props.hasPr props.pr
  r := flagged props.hasR props.r
  w := flagged props.hasW props.w
  pw := flagged props.hasPw props.pw
  dw := flagged props.hasDw props.dw
  rw := flagged props.hasRw props.rw
  basicQuorum := flagged props.hasBasicQuorum props.basicQuorum
  notfoundOk := flagged props.hasNotfoundOk props.notfoundOk
  backend := flaggedBytes props.hasBackend props.backend
  search := flagged props.hasSearch props.search
  repl := flagged props.hasRepl props.repl
  searchIndex := flaggedBytes props.hasSearchIndex props.searchIndex

def RpbModFun.content (modfun : RpbModFun) : ModfunContent where
  module := some modfun.module
  function := some modfun.function

def RpbCommitHook.content (hook : RpbCommitHook) : HookContent where
  modfun := hook.modfun.map RpbModFun.content
  name := flagged hook.hasName hook.name

def RpbBucketProps.properties (props : RpbBucketProps) : Properties where
  nVal := flagged props.hasNVal props.nVal
  allowMult := flagged props.hasAllowMult props.allowMult
  lastWriteWins := flagged props.hasLastWriteWins props.lastWriteWins
  hasPrecommit := flagged props.hasHasPrecommit props.hasPrecommit
  precommit := props.precommit.entries.map RpbCommitHook.content
  hasPostcommit := flagged props.hasHasPostcommit props.hasPostcommit
  postcommit := props.postcommit.entries.map RpbCommitHook.content
  chashKeyfun := props.chashKeyfun.map RpbModFun.content
  linkfun := props.linkfun.map RpbModFun.content
  oldVclock := flagged props.hasOldVclock props.oldVclock
  youngVclock := flagged props.hasYoungVclock props.youngVclock
  bigVclock := flagged props.hasBigVclock props.bigVclock
  smallVclock := flagged props.hasSmallVclock props.smallVclock
  pr := flagged props.hasPr props.pr
  r := flagged props.hasR props.r
  w := flagged props.hasW props.w
  pw := flagged props.hasPw props.pw
  dw := flagged props.hasDw props.dw
  rw := flagged props.hasRw props.rw
  basicQuorum := flagged props.hasBasicQuorum props.basicQuorum
  notfoundOk := flagged props.hasNotfoundOk props.notfoundOk
  backend := flagged props.hasBackend props.backend
  search := flagged props.hasSearch props.search
  repl := flagged props.hasRepl props.repl
  searchIndex := flagged props.hasSearchIndex props.searchIndex

/-! ### What the decoder does on an ample heap -/

def RpbModFun.decoded (pbmodFun : RpbModFun) : RiakModfun where
  module := some ⟨pbmodFun.module, false⟩
  function := some ⟨pbmodFun.function, false⟩

def RpbCommitHook.decoded (pbhook : RpbCommitHook) : RiakCommitHook where
  modfun := pbhook.modfun.map RpbModFun.decoded
  hasName := pbhook.hasName
  name := decodedBinary pbhook.hasName pbhook.name

theorem RpbCommitHook.decoded_content (pbhook : RpbCommitHook) :
    pbhook.decoded.content = pbhook.content := by
  unfold RiakCommitHook.content RpbCommitHook.content RpbCommitHook.decoded
  simp only [flaggedBytes_decodedBinary, Option.map_map]
  rfl

theorem riakModfunCopyFromPb_of_ample (h : heap.Ample) (pbmodFun : Option RpbModFun) :
    riakModfunCopyFromPb pbmodFun heap =
      .ok ((if pbmodFun.isSome then .ok else .outOfMemory, pbmodFun.map RpbModFun.decoded),
        heap) := by
  unfold riakModfunCopyFromPb
  rw [C.bind_of_ok (C.allocate_of_ample h)]
  cases pbmodFun with
  | none => rfl
  | some pbmodFun =>
    simp only
    rw [C.bind_of_ok (riakBinaryCopyFromPb_of_ample h _)]
    simp only [Bool.true_eq_false, if_false, Option.isNone_some, Bool.false_eq_true]
    rw [C.bind_of_ok (riakBinaryCopyFromPb_of_ample h _)]
    rfl

/-- A hook without a function is not made. -/
def RpbCommitHook.made (pbhook : RpbCommitHook) : Option RiakCommitHook :=
  if pbhook.modfun.isSome then some pbhook.decoded else none

theorem riakCommitHookCopyFromPb_of_ample (h : heap.Ample) {pbhooks : List RpbCommitHook}
    {i : Nat} {pbhook : RpbCommitHook} (hget : pbhooks[i]? = some pbhook) :
    riakCommitHookCopyFromPb (some pbhooks) i heap = .ok (pbhook.made, heap) := by
  unfold riakCommitHookCopyFromPb RpbCommitHook.made
  rw [C.bind_of_ok (C.allocate_of_ample h)]
  simp only [if_true, C.deref_some, pure_bind, C.readAt_of_get hget]
  rw [C.bind_of_ok (copyFromPbIf_of_ample h _ _)]
  simp only
  rw [C.bind_of_ok (riakModfunCopyFromPb_of_ample h _)]
  cases hmodfun : pbhook.modfun with
  | none => rfl
  | some modfun =>
    unfold RpbCommitHook.decoded
    rw [hmodfun]
    rfl

/-- Which hooks a message may carry. -/
structure HooksAccepted (hasHas : Bool) (has : RiakBoolean) (hooks : Repeated RpbCommitHook) :
    Prop where
  flagged : hooks.count ≠ 0 → hasHas = true ∧ has ≠ 0
  bound : hooks.count < 2 ^ 31
  modfun : ∀ pbhook ∈ hooks.entries, pbhook.modfun.isSome

theorem riakCommitHooksCopyFromPb_of_accepted (h : heap.Ample) {hooks : Repeated RpbCommitHook}
    (hlength : hooks.entries.length = hooks.count) (hbound : hooks.count < 2 ^ 31)
    (hmodfun : ∀ pbhook ∈ hooks.entries, pbhook.modfun.isSome) :
    riakCommitHooksCopyFromPb hooks.items (UInt32.ofNat hooks.count) heap =
      .ok (some (hooks.entries.map RpbCommitHook.decoded), heap) := by
  have hcount : (hooks.entries.map RpbCommitHook.decoded).length = hooks.count := by
    rw [List.length_map, hlength]
  unfold riakCommitHooksCopyFromPb
  rw [UInt32.toNat_ofNat_of_lt' (Nat.lt_trans hbound (by decide)), ← hcount]
  apply copyArray_of_ample h (by rw [hcount]; exact hbound)
  intro j hook hhook
  rw [List.getElem?_map, Option.map_eq_some_iff] at hhook
  obtain ⟨pbhook, hpbhook, rfl⟩ := hhook
  obtain ⟨pbhooks, hitems, hget⟩ := Repeated.get hpbhook
  rw [hitems, riakCommitHookCopyFromPb_of_ample h hget]
  unfold RpbCommitHook.made
  rw [if_pos (hmodfun pbhook (List.mem_of_getElem? hpbhook))]

theorem decodeHooksIf_of_accepted (h : heap.Ample) {hasHas : Bool} {has : RiakBoolean}
    {hooks : Repeated RpbCommitHook} (hlength : hooks.entries.length = hooks.count)
    (hok : HooksAccepted hasHas has hooks) :
    ∃ (n : Nat) (array : Option (List (Option RiakCommitHook))),
      decodeHooksIf hasHas has hooks heap = .ok ((.ok, assignIf hasHas has, n, array), heap) ∧
      firstEntries n array = hooks.entries.map RpbCommitHook.decoded := by
  unfold decodeHooksIf
  by_cases hflags : hasHas = true ∧ has ≠ 0
  · refine ⟨hooks.count, some ((hooks.entries.map RpbCommitHook.decoded).map some), ?_, ?_⟩
    · rw [if_pos hflags.1, if_pos hflags.2, C.bind_of_ok
        (riakCommitHooksCopyFromPb_of_accepted h hlength hok.bound hok.modfun), assignIf,
        if_pos hflags.1]
      rfl
    · apply firstEntries_of_take
      rw [Option.getD_some, Int.toNat_natCast]
      exact List.take_of_length_le (by simp only [List.length_map, hlength, Nat.le_refl])
  · have hzero : hooks.count = 0 := by
      by_contra hne
      exact hflags (hok.flagged hne)
    have hnil : hooks.entries = [] := List.length_eq_zero_iff.mp (hlength.trans hzero)
    refine ⟨0, none, ?_, by rw [hnil]; rfl⟩
    cases hasHas with
    | false => rfl
    | true =>
      have hhas : has = 0 := by
        by_contra hne
        exact hflags ⟨rfl, hne⟩
      rw [hhas]
      rfl

/-! ### What the decoder accepts

The way back: a successful copy has made every hook that a `riak_uint32_t` counts, so
hooks that came back as they were sent were accepted; and a function that was copied
was there. -/

theorem firstEntries_map_some {α : Type} (n : Nat) (entries : List α) :
    firstEntries n (some (entries.map some)) = entries.take n := by
  apply firstEntries_of_take
  rw [Option.getD_some, Int.toNat_natCast, List.map_take]

theorem riakCommitHooksCopyFromPb_eq_some (h : heap.Ample) {hooks : Repeated RpbCommitHook}
    (hlength : hooks.entries.length = hooks.count) {entries : List RiakCommitHook}
    (hrun : riakCommitHooksCopyFromPb hooks.items (UInt32.ofNat hooks.count) heap =
      .ok (some entries, final)) :
    final = heap ∧
      (hooks.entries.take (hooks.count % 2 ^ 32)).map RpbCommitHook.made = entries.map some ∧
      hooks.count % 2 ^ 32 < 2 ^ 31 := by
  have hmod : (UInt32.ofNat hooks.count).toNat = hooks.count % 2 ^ 32 := UInt32.toNat_ofNat'
  have htake : (hooks.entries.take (hooks.count % 2 ^ 32)).length = hooks.count % 2 ^ 32 := by
    rw [List.length_take, hlength]
    exact Nat.min_eq_left (Nat.mod_le _ _)
  unfold riakCommitHooksCopyFromPb copyArray at hrun
  rw [C.bind_of_ok (C.allocate_of_ample h), if_pos rfl, hmod, ← htake] at hrun
  obtain ⟨hfinal, hmade, hbound⟩ := copyLoop_eq_some RpbCommitHook.made _ 0 (by
    intro j pbhook hpbhook
    have hentry : hooks.entries[j]? = some pbhook := by
      rw [List.getElem?_take] at hpbhook
      by_cases hj : j < hooks.count % 2 ^ 32
      · rwa [if_pos hj] at hpbhook
      · rw [if_neg hj] at hpbhook
        cases hpbhook
    obtain ⟨pbhooks, hitems, hget⟩ := Repeated.get hentry
    rw [hitems, Nat.zero_add]
    exact riakCommitHookCopyFromPb_of_ample h hget) hrun
  refine ⟨hfinal, hmade, ?_⟩
  by_cases hzero : hooks.count % 2 ^ 32 = 0
  · omega
  · have hne : hooks.entries.take (hooks.count % 2 ^ 32) ≠ [] := by
      intro hnil
      rw [hnil, List.length_nil] at htake
      exact hzero htake.symm
    have hlast := hbound hne
    rw [htake] at hlast
    omega

theorem decodeHooksIf_eq_ok (h : heap.Ample) {hasHas : Bool} {has has' : RiakBoolean}
    {hooks : Repeated RpbCommitHook} (hlength : hooks.entries.length = hooks.count) {n : Nat}
    {array : Option (List (Option RiakCommitHook))}
    (hrun : decodeHooksIf hasHas has hooks heap = .ok ((.ok, has', n, array), final)) :
    final = heap ∧
      ((firstEntries n array).length = hooks.count → HooksAccepted hasHas has hooks) := by
  have hnone : 0 = hooks.count → HooksAccepted hasHas has hooks := by
    intro hzero
    have hnil : hooks.entries = [] := List.length_eq_zero_iff.mp (hlength.trans hzero.symm)
    exact ⟨fun hne => absurd hzero.symm hne, by rw [← hzero]; decide, by
      rw [hnil]
      intro pbhook hmem
      exact absurd hmem List.not_mem_nil⟩
  unfold decodeHooksIf at hrun
  cases hasHas with
  | false =>
    cases hrun
    exact ⟨rfl, hnone⟩
  | true =>
    by_cases hhas : has = 0
    · rw [if_pos rfl, if_neg (not_not_intro hhas)] at hrun
      cases hrun
      exact ⟨rfl, hnone⟩
    · rw [if_pos rfl, if_pos hhas] at hrun
      obtain ⟨copied, heap₁, hcopied, hrest⟩ := C.bind_eq_ok.mp hrun
      cases copied with
      | none => cases hrest
      | some entries =>
        obtain ⟨hheap₁, hmade, hbound⟩ := riakCommitHooksCopyFromPb_eq_some h hlength hcopied
        cases hrest
        refine ⟨hheap₁, ?_⟩
        intro hall
        have hentries : entries.length = hooks.count % 2 ^ 32 := by
          have hsame := congrArg List.length hmade
          rw [List.length_map, List.length_map, List.length_take, hlength,
            Nat.min_eq_left (Nat.mod_le _ _)] at hsame
          exact hsame.symm
        rw [firstEntries_map_some, List.length_take] at hall
        have hcount : hooks.count % 2 ^ 32 = hooks.count := by
          have hle := Nat.mod_le hooks.count (2 ^ 32)
          omega
        rw [hcount, List.take_of_length_le (Nat.le_of_eq hlength)] at hmade
        refine ⟨fun _ => ⟨rfl, hhas⟩, by omega, ?_⟩
        intro pbhook hmem
        have hin : pbhook.made ∈ entries.map some := by
          rw [← hmade]
          exact List.mem_map_of_mem hmem
        obtain ⟨hook, _, hhook⟩ := List.mem_map.mp hin
        unfold RpbCommitHook.made at hhook
        by_cases hset : pbhook.modfun.isSome
        · exact hset
        · rw [if_neg hset] at hhook
          cases hhook

/-! ### Whole messages -/

/-- A flag that is raised comes with its binary. -/
structure RiakBucketprops.Backed (props : RiakBucketprops) : Prop where
  backend : props.hasBackend = true → props.backend.isSome
  searchIndex : props.hasSearchIndex = true → props.searchIndex.isSome
  precommit : ∀ hook ∈ firstEntries props.nPrecommit props.precommit,
    hook.hasName = true → hook.name.isSome
  postcommit : ∀ hook ∈ firstEntries props.nPostcommit props.postcommit,
    hook.hasName = true → hook.name.isSome

/-- The message is decoded with success into properties that have exactly its
    members. -/
def BucketpropsAccepted (props : RpbBucketProps) (heap : Heap) : Prop :=
  ∃ (target : RiakBucketprops) (final : Heap),
    riakBucketpropsNewFromPb props heap = .ok ((.ok, some target), final) ∧
    target.Backed ∧ target.properties = props.properties

/-- What a message must have for that. -/
structure RpbBucketProps.Acceptable (props : RpbBucketProps) : Prop where
  chashKeyfun : props.chashKeyfun.isSome
  linkfun : props.linkfun.isSome
  precommit : HooksAccepted props.hasHasPrecommit props.hasPrecommit props.precommit
  postcommit : HooksAccepted props.hasHasPostcommit props.hasPostcommit props.postcommit

theorem decodedHooks_backed {pbhooks : List RpbCommitHook} :
    ∀ hook ∈ pbhooks.map RpbCommitHook.decoded, hook.hasName = true → hook.name.isSome := by
  intro hook hmem
  obtain ⟨pbhook, _, rfl⟩ := List.mem_map.mp hmem
  exact decodedBinary_isSome _

theorem decodedHooks_content (pbhooks : List RpbCommitHook) :
    (pbhooks.map RpbCommitHook.decoded).map RiakCommitHook.content =
      pbhooks.map RpbCommitHook.content := by
  rw [List.map_map]
  exact List.map_congr_left fun pbhook _ => pbhook.decoded_content

theorem bucketpropsAccepted_of_acceptable (h : heap.Ample) {props : RpbBucketProps}
    (hpre : props.precommit.entries.length = props.precommit.count)
    (hpost : props.postcommit.entries.length = props.postcommit.count)
    (hok : props.Acceptable) : BucketpropsAccepted props heap := by
  obtain ⟨chashKeyfun, hchash⟩ := Option.isSome_iff_exists.mp hok.chashKeyfun
  obtain ⟨linkfun, hlink⟩ := Option.isSome_iff_exists.mp hok.linkfun
  obtain ⟨nPre, precommit, hrunPre, hentriesPre⟩ := decodeHooksIf_of_accepted h hpre hok.precommit
  obtain ⟨nPost, postcommit, hrunPost, hentriesPost⟩ :=
    decodeHooksIf_of_accepted h hpost hok.postcommit
  unfold BucketpropsAccepted riakBucketpropsNewFromPb decodeScalars decodeFunctions
  rw [C.bind_of_ok (C.allocate_of_ample h)]
  simp only [if_true]
  rw [C.bind_of_ok hrunPre]
  simp only [ne_eq, not_true_eq_false, if_false]
  rw [C.bind_of_ok hrunPost]
  simp only [not_true_eq_false, if_false]
  rw [C.bind_of_ok (copyFromPbIf_of_ample h _ _)]
  simp only
  rw [C.bind_of_ok (copyFromPbIf_of_ample h _ _)]
  simp only
  rw [C.bind_of_ok (riakModfunCopyFromPb_of_ample h _), hchash]
  simp only [Option.isSome_some, if_true, not_true_eq_false, if_false]
  rw [C.bind_of_ok (riakModfunCopyFromPb_of_ample h _), hlink]
  refine ⟨_, heap, rfl, ?_, ?_⟩
  · constructor
    case backend => exact decodedBinary_isSome _
    case searchIndex => exact decodedBinary_isSome _
    case precommit =>
      rw [hentriesPre]
      exact decodedHooks_backed
    case postcommit =>
      rw [hentriesPost]
      exact decodedHooks_backed
  · unfold RiakBucketprops.properties RpbBucketProps.properties
    simp only [flagged_assignIf, flaggedBytes_decodedBinary, hentriesPre, hentriesPost,
      decodedHooks_content, hchash, hlink]
    rfl

theorem riakModfunCopyFromPb_eq_ok {pbmodFun : Option RpbModFun} {modfun : Option RiakModfun}
    (hrun : riakModfunCopyFromPb pbmodFun heap = .ok ((.ok, modfun), final)) :
    pbmodFun.isSome := by
  cases pbmodFun with
  | none =>
    obtain ⟨granted, heap₁, _, hrest⟩ := C.bind_eq_ok.mp hrun
    cases hrest
  | some pbmodFun => rfl

theorem decodeScalars_eq_ok {to_ target : RiakBucketprops} {from_ : RpbBucketProps}
    (hrun : decodeScalars to_ from_ heap = .ok ((.ok, some target), final)) :
    from_.chashKeyfun.isSome ∧ from_.linkfun.isSome ∧
      target.nPrecommit = to_.nPrecommit ∧ target.precommit = to_.precommit ∧
      target.nPostcommit = to_.nPostcommit ∧ target.postcommit = to_.postcommit := by
  unfold decodeScalars decodeFunctions at hrun
  obtain ⟨backend, heap₁, _, hbackend⟩ := C.bind_eq_ok.mp hrun
  cases backend with
  | none => cases hbackend
  | some backend =>
    obtain ⟨searchIndex, heap₂, _, hsearchIndex⟩ := C.bind_eq_ok.mp hbackend
    cases searchIndex with
    | none => cases hsearchIndex
    | some searchIndex =>
      obtain ⟨⟨err, chashKeyfun⟩, heap₃, hchash, hfunctions⟩ := C.bind_eq_ok.mp hsearchIndex
      by_cases herr : err = .ok
      · subst herr
        simp only [ne_eq, not_true_eq_false, if_false] at hfunctions
        obtain ⟨⟨err, linkfun⟩, heap₄, hlink, hlast⟩ := C.bind_eq_ok.mp hfunctions
        cases hlast
        exact ⟨riakModfunCopyFromPb_eq_ok hchash, riakModfunCopyFromPb_eq_ok hlink, rfl, rfl, rfl,
          rfl⟩
      · simp only [ne_eq, herr, not_false_eq_true, if_true] at hfunctions
        cases hfunctions
        exact absurd rfl herr

theorem BucketpropsAccepted.acceptable (h : heap.Ample) {props : RpbBucketProps}
    (hpre : props.precommit.entries.length = props.precommit.count)
    (hpost : props.postcommit.entries.length = props.postcommit.count)
    (hok : BucketpropsAccepted props heap) : props.Acceptable := by
  obtain ⟨target, final, hrun, _, hview⟩ := hok
  unfold riakBucketpropsNewFromPb at hrun
  rw [C.bind_of_ok (C.allocate_of_ample h), if_pos rfl] at hrun
  obtain ⟨⟨err, has, nPre, precommit⟩, heap₁, hrunPre, hrun₁⟩ := C.bind_eq_ok.mp hrun
  simp only at hrun₁
  by_cases herr : err = .ok
  · subst herr
    obtain ⟨hheap₁, haccepted⟩ := decodeHooksIf_eq_ok h hpre hrunPre
    rw [hheap₁] at hrun₁
    rw [if_neg (not_not_intro rfl)] at hrun₁
    obtain ⟨⟨err, has', nPost, postcommit⟩, heap₂, hrunPost, hrun₂⟩ := C.bind_eq_ok.mp hrun₁
    simp only at hrun₂
    by_cases herr' : err = .ok
    · subst herr'
      obtain ⟨hheap₂, haccepted'⟩ := decodeHooksIf_eq_ok h hpost hrunPost
      rw [hheap₂, if_neg (not_not_intro rfl)] at hrun₂
      obtain ⟨hchash, hlink, hnPre, hPre, hnPost, hPost⟩ := decodeScalars_eq_ok hrun₂
      have hviewPre := congrArg (List.length ∘ Properties.precommit) hview
      have hviewPost := congrArg (List.length ∘ Properties.postcommit) hview
      simp only [Function.comp, RiakBucketprops.properties, RpbBucketProps.properties,
        List.length_map, hnPre, hPre, hpre] at hviewPre
      simp only [Function.comp, RiakBucketprops.properties, RpbBucketProps.properties,
        List.length_map, hnPost, hPost, hpost] at hviewPost
      exact ⟨hchash, hlink, haccepted hviewPre, haccepted' hviewPost⟩
    · rw [if_pos herr'] at hrun₂
      cases hrun₂
      exact absurd rfl herr'
  · rw [if_pos herr] at hrun₁
    cases hrun₁
    exact absurd rfl herr

/-- **Bucket properties of a server.** A message whose arrays hold what their
    counts say is decoded with success, into properties with exactly its members
    and its hooks in order, if and only if it has both functions, every hook has
    one, hooks come with a flag that is true, and an `int` can count them. -/
theorem riak_bucketprops_new_from_pb_accepts_iff (props : RpbBucketProps) (heap : Heap)
    (h : heap.Ample) (hpre : props.precommit.entries.length = props.precommit.count)
    (hpost : props.postcommit.entries.length = props.postcommit.count) :
    BucketpropsAccepted props heap ↔ props.Acceptable :=
  ⟨fun hok => hok.acceptable h hpre hpost, bucketpropsAccepted_of_acceptable h hpre hpost⟩

/-- A message with both functions and nothing else. -/
def functionsOnly : RpbBucketProps where
  initialised := true
  chashKeyfun := some { initialised := true }
  linkfun := some { initialised := true }

theorem riak_bucketprops_new_from_pb_accepts_functions :
    BucketpropsAccepted functionsOnly Heap.fresh := by
  refine (riak_bucketprops_new_from_pb_accepts_iff functionsOnly Heap.fresh Heap.fresh_ample rfl
    rfl).mpr ⟨rfl, rfl, ⟨?_, by decide, ?_⟩, ⟨?_, by decide, ?_⟩⟩
  · exact fun hne => absurd rfl hne
  · exact fun pbhook hmem => absurd hmem List.not_mem_nil
  · exact fun hne => absurd rfl hne
  · exact fun pbhook hmem => absurd hmem List.not_mem_nil

/-- A bucket with only `n_val` set: the absent function is taken for a refused
    allocation. -/
theorem riak_bucketprops_new_from_pb_n_val :
    riakBucketpropsNewFromPb { initialised := true, hasNVal := true, nVal := 3 } Heap.fresh =
        .ok ((.outOfMemory, some { hasNVal := true, nVal := 3 }), Heap.fresh) ∧
      ¬ BucketpropsAccepted { initialised := true, hasNVal := true, nVal := 3 } Heap.fresh := by
  refine ⟨rfl, ?_⟩
  rintro ⟨target, final, hrun, _⟩
  cases hrun

end RiakClient
