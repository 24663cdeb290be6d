import RiakClient.Object

/-!
# Bucket properties

`riak_bucketprops_to_pb_copy` and the copies of hooks and functions it is made of
(`riak_bucketprops.c`). The structs of hooks and functions are allocated without
the `__init` that protobuf-c asks for.

The copy gives up at the first refusal. As its caller does not look at what it
returns, the order of the members in the source matters: what comes behind the refusal
stays as the initialised message has it.
-/

namespace RiakClient

open CSem

/-- `riak_modfun_copy_to_pb`; its target keeps its NULL unless a copy is made. -/
def riakModfunCopyToPb : Option RiakModfun → C (RiakError × Option RpbModFun)
  | none => pure (.ok, none)
  | some modFun => do
      if ← C.allocate then
        let module ← riakBinaryCopyToPb modFun.module
        let function ← riakBinaryCopyToPb modFun.function
        pure (.ok, some { initialised := false, module := module, function := function })
      else pure (.outOfMemory, none)

/-- One round of the loop over the hooks, whose struct is only zeroed. -/
def riakCommitHookCopyToPb (hook : Option (List (Option RiakCommitHook))) (i : Nat) :
    C (Option RpbCommitHook) := do
  if ← C.allocate then
    let entry ← entryAt hook i
    let name ← copyToPbIf entry.hasName entry.name
    let (err, modfun) ← riakModfunCopyToPb entry.modfun
    if err = .ok then
      pure (some { initialised := false, modfun := modfun, hasName := entry.hasName, name := name })
    else pure none
  else pure none

def riakCommitHooksCopyToPb (hook : Option (List (Option RiakCommitHook))) (numHooks : UInt32) :
    C (RiakError × Option (List RpbCommitHook)) :=
  if hook.isNone then pure (.ok, none)
  else do
    match ← copyArray numHooks.toNat (riakCommitHookCopyToPb hook) with
    | none => pure (.outOfMemory, none)
    | some pbhook => pure (.ok, some pbhook)

/-- `if (from->has_has_x)` around one of the two arrays of hooks. The count is a
    `riak_size_t` in the properties and a `riak_uint32_t` in the copy. -/
def copyHooksIf (hasHas : Bool) (has : RiakBoolean) (n : Nat)
    (hook : Option (List (Option RiakCommitHook))) :
    C (RiakError × RiakBoolean × Repeated RpbCommitHook) :=
  if hasHas ∧ has ≠ 0 then do
    let (err, pbhook) ← riakCommitHooksCopyToPb hook (UInt32.ofNat n)
    pure (err, 1, ⟨n, pbhook⟩)
  else pure (.ok, 0, {})

/-- The members behind the hooks, up to the two functions. -/
def bucketpropsScalars (to_ : RpbBucketProps) (from_ : RiakBucketprops) : C RpbBucketProps := do
  let backend ← copyToPbIf from_.hasBackend from_.backend
  let searchIndex ← copyToPbIf from_.hasSearchIndex from_.searchIndex
  pure { to_ with
    hasOldVclock := from_.hasOldVclock, oldVclock := assignIf from_.hasOldVclock from_.oldVclock
    hasYoungVclock := from_.hasYoungVclock
    youngVclock := assignIf from_.hasYoungVclock from_.youngVclock
    hasBigVclock := from_.hasBigVclock, bigVclock := assignIf from_.hasBigVclock from_.bigVclock
    hasSmallVclock := from_.hasSmallVclock
    smallVclock := assignIf from_.hasSmallVclock from_.smallVclock
    hasPr := from_.hasPr, pr := assignIf from_.hasPr from_.pr
    hasR := from_.hasR, r := assignIf from_.hasR from_.r
    hasW := from_.hasW, w := assignIf from_.hasW from_.w
    hasPw := from_.hasPw, pw := assignIf from_.hasPw from_.pw
    hasDw := from_.hasDw, dw := assignIf from_.hasDw from_.dw
    hasRw := from_.hasRw, rw := assignIf from_.hasRw from_.rw
    hasBasicQuorum := from_.hasBasicQuorum
    basicQuorum := assignIf from_.hasBasicQuorum from_.basicQuorum
    hasNotfoundOk := from_.hasNotfoundOk
    notfoundOk := assignIf from_.hasNotfoundOk from_.notfoundOk
    hasBackend := from_.hasBackend, backend := backend
    hasSearch := from_.hasSearch, search := assignIf from_.hasSearch from_.search
    hasRepl := from_.hasRepl, repl := assignIf from_.hasRepl from_.repl
    hasSearchIndex := from_.hasSearchIndex, searchIndex := searchIndex }

/-- The two functions at the end. -/
def bucketpropsFunctions (to_ : RpbBucketProps) (from_ : RiakBucketprops) :
    C (RiakError × RpbBucketProps) := do
  let (err, chashKeyfun) ← riakModfunCopyToPb from_.chashKeyfun
  let to_ := { to_ with chashKeyfun := chashKeyfun }
  if err ≠ .ok then pure (err, to_)
  else
    let (err, linkfun) ← riakModfunCopyToPb from_.linkfun
    pure (err, { to_ with linkfun := linkfun })

/-- `riak_bucketprops_to_pb_copy`. With an error it returns at once, and leaves
    the members it has not come to unset. -/
def riakBucketpropsToPbCopy (from_ : RiakBucketprops) : C (RiakError × RpbBucketProps) := do
  let to_ : RpbBucketProps := {
    initialised := true
    hasNVal := from_.hasNVal, nVal := assignIf from_.hasNVal from_.nVal
    hasAllowMult := from_.hasAllowMult, allowMult := assignIf from_.hasAllowMult from_.allowMult
    hasLastWriteWins := from_.hasLastWriteWins
    lastWriteWins := assignIf from_.hasLastWriteWins from_.lastWriteWins }
  let (err, has, precommit) ←
    copyHooksIf from_.hasHasPrecommit from_.hasPrecommit from_.nPrecommit from_.precommit
  let to_ := { to_ with
    hasHasPrecommit := from_.hasHasPrecommit, hasPrecommit := has, precommit := precommit }
  if err ≠ .ok then pure (err, to_)
  else
    let (err, has, postcommit) ←
      copyHooksIf from_.hasHasPostcommit from_.hasPostcommit from_.nPostcommit from_.postcommit
    let to_ := { to_ with
      hasHasPostcommit := from_.hasHasPostcommit, hasPostcommit := has, postcommit := postcommit }
    if err ≠ .ok then pure (err, to_)
    else bucketpropsScalars to_ from_ >>= fun to_ => bucketpropsFunctions to_ from_

/-! ### What protobuf-c reads of the copy

Packing a message goes through its descriptor: garbage in a struct that came from
`malloc` alone, NULL in one that was zeroed. -/

def RpbModFun.walk (modfun : RpbModFun) : C Unit :=
  if modfun.initialised then pure () else C.fault .wildDereference

def RpbCommitHook.walk (hook : RpbCommitHook) : C Unit :=
  if hook.initialised then
    match hook.modfun with
    | none => C.fault .nullDereference
    | some modfun => modfun.walk
  else C.fault .nullDereference

/-- The array itself, and then each hook in it. -/
def walkHooks (hooks : Repeated RpbCommitHook) : C Unit := do
  hooks.walk
  ((hooks.items.getD []).take hooks.count).forM RpbCommitHook.walk

/-- An optional function that is not set is skipped. -/
def walkModFun : Option RpbModFun → C Unit
  | none => pure ()
  | some modfun => modfun.walk

def RpbBucketProps.walk (props : RpbBucketProps) : C Unit := do
  walkHooks props.precommit
  walkHooks props.postcommit
  walkModFun props.chashKeyfun
  walkModFun props.linkfun

end RiakClient
