import RiakClient.BucketpropsDecode

/-!
# Bucket properties there and back

The setters of bucket properties (`riak_bucketprops.c`), and what is left of the
properties that they build when these are encoded and decoded again.

Properties are known by the calls that made them. What empty properties have and every
call keeps holds after the calls; that is how properties come to be `Built`, which is
what the encoder needs. Encoding and decoding are then compared through the properties
that the application sees.
-/

namespace RiakClient

open CSem

variable {heap final : Heap}

/-! ### Setters -/

def riakBucketpropsNew : C (Option RiakBucketprops) := C.new {}

def riakModfunDeepNew (from_ : RiakModfun) : C (Option RiakModfun) := do
  let some fun_ ← C.new ({} : RiakModfun) | pure none
  let some module ← riakBinaryCopy from_.module | pure none
  let some function ← riakBinaryCopy from_.function | pure none
  pure (some { fun_ with module := some module, function := some function })

def riakBucketpropsSetNVal (prop : RiakBucketprops) (value : UInt32) : RiakBucketprops :=
  { prop with hasNVal := true, nVal := value }

def riakBucketpropsSetAllowMult (prop : RiakBucketprops) (value : RiakBoolean) :
    RiakBucketprops :=
  { prop with hasAllowMult := true, allowMult := value }

def riakBucketpropsSetLastWriteWins (prop : RiakBucketprops) (value : RiakBoolean) :
    RiakBucketprops :=
  { prop with hasLastWriteWins := true, lastWriteWins := value }

def riakBucketpropsSetPrecommits (prop : RiakBucketprops)
    (precommit : Option (List (Option RiakCommitHook))) (num : Nat) : RiakBucketprops :=
  { prop with
    hasHasPrecommit := true, hasPrecommit := 1, nPrecommit := num, precommit := precommit }

def riakBucketpropsSetPostcommits (prop : RiakBucketprops)
    (postcommit : Option (List (Option RiakCommitHook))) (num : Nat) : RiakBucketprops :=
  { prop with
    hasHasPostcommit := true, hasPostcommit := 1, nPostcommit := num, postcommit := postcommit }

/-- The two setters of functions report an error when they succeed. -/
def riakBucketpropsSetChashKeyfun (prop : RiakBucketprops) (value : RiakModfun) :
    C (RiakError × RiakBucketprops) := do
  let chashKeyfun ← riakModfunDeepNew value
  pure (if chashKeyfun.isSome then .outOfMemory else .ok, { prop with chashKeyfun := chashKeyfun })

def riakBucketpropsSetLinkfun (prop : RiakBucketprops) (value : RiakModfun) :
    C (RiakError × RiakBucketprops) := do
  let linkfun ← riakModfunDeepNew value
  pure (if linkfun.isSome then .outOfMemory else .ok, { prop with linkfun := linkfun })

def riakBucketpropsSetOldVclock (prop : RiakBucketprops) (value : UInt32) : RiakBucketprops :=
  { prop with hasOldVclock := true, oldVclock := value }

def riakBucketpropsSetYoungVclock (prop : RiakBucketprops) (value : UInt32) : RiakBucketprops :=
  { prop with hasYoungVclock := true, youngVclock := value }

def riakBucketpropsSetBigVclock (prop : RiakBucketprops) (value : UInt32) : RiakBucketprops :=
  { prop with hasBigVclock := true, bigVclock := value }

def riakBucketpropsSetSmallVclock (prop : RiakBucketprops) (value : UInt32) : RiakBucketprops :=
  { prop with hasSmallVclock := true, smallVclock := value }

def riakBucketpropsSetPr (prop : RiakBucketprops) (value : UInt32) : RiakBucketprops :=
  { prop with hasPr := true, pr := value }

def riakBucketpropsSetR (prop : RiakBucketprops) (value : UInt32) : RiakBucketprops :=
  { prop with hasR := true, r := value }

def riakBucketpropsSetW (prop : RiakBucketprops) (value : UInt32) : RiakBucketprops :=
  { prop with hasW := true, w := value }

def riakBucketpropsSetPw (prop : RiakBucketprops) (value : UInt32) : RiakBucketprops :=
  { prop with hasPw := true, pw := value }

def riakBucketpropsSetDw (prop : RiakBucketprops) (value : UInt32) : RiakBucketprops :=
  { prop with hasDw := true, dw := value }

def riakBucketpropsSetRw (prop : RiakBucketprops) (value : UInt32) : RiakBucketprops :=
  { prop with hasRw := true, rw := value }

def riakBucketpropsSetBasicQuorum (prop : RiakBucketprops) (value : RiakBoolean) :
    RiakBucketprops :=
  { prop with hasBasicQuorum := true, basicQuorum := value }

def riakBucketpropsSetNotfoundOk (prop : RiakBucketprops) (value : RiakBoolean) :
    RiakBucketprops :=
  { prop with hasNotfoundOk := true, notfoundOk := value }

/-- The setters of binaries keep the pointer they are given. -/
def riakBucketpropsSetBackend (prop : RiakBucketprops) (value : RiakBinary) : RiakBucketprops :=
  { prop with hasBackend := true, backend := some value }

def riakBucketpropsSetSearch (prop : RiakBucketprops) (value : RiakBoolean) : RiakBucketprops :=
  { prop with hasSearch := true, search := value }

def riakBucketpropsSetRepl (prop : RiakBucketprops) (value : UInt32) : RiakBucketprops :=
  { prop with hasRepl := true, repl := value }

def riakBucketpropsSetSearchIndex (prop : RiakBucketprops) (value : RiakBinary) :
    RiakBucketprops :=
  { prop with hasSearchIndex := true, searchIndex := some value }

/-- A call of one of the setters. -/
inductive BucketpropsSetter where
  | nVal (value : UInt32)
  | allowMult (value : RiakBoolean)
  | lastWriteWins (value : RiakBoolean)
  | precommits (precommit : Option (List (Option RiakCommitHook))) (num : Nat)
  | postcommits (postcommit : Option (List (Option RiakCommitHook))) (num : Nat)
  | chashKeyfun (value : RiakModfun)
  | linkfun (value : RiakModfun)
  | oldVclock (value : UInt32)
  | youngVclock (value : UInt32)
  | bigVclock (value : UInt32)
  | smallVclock (value : UInt32)
  | pr (value : UInt32)
  | r (value : UInt32)
  | w (value : UInt32)
  | pw (value : UInt32)
  | dw (value : UInt32)
  | rw (value : UInt32)
  | basicQuorum (value : RiakBoolean)
  | notfoundOk (value : RiakBoolean)
  | backend (value : RiakBinary)
  | search (value : RiakBoolean)
  | repl (value : UInt32)
  | searchIndex (value : RiakBinary)
deriving DecidableEq, Repr

/-- The properties after one call, whatever it returned. -/
def BucketpropsSetter.call (prop : RiakBucketprops) : BucketpropsSetter → C RiakBucketprops
  | nVal value => pure (riakBucketpropsSetNVal prop value)
  | allowMult value => pure (riakBucketpropsSetAllowMult prop value)
  | lastWriteWins value => pure (riakBucketpropsSetLastWriteWins prop value)
  | precommits precommit num => pure (riakBucketpropsSetPrecommits prop precommit num)
  | postcommits postcommit num => pure (riakBucketpropsSetPostcommits prop postcommit num)
  | chashKeyfun value => do
      let (_, prop) ← riakBucketpropsSetChashKeyfun prop value
      pure prop
  | linkfun value => do
      let (_, prop) ← riakBucketpropsSetLinkfun prop value
      pure prop
  | oldVclock value => pure (riakBucketpropsSetOldVclock prop value)
  | youngVclock value => pure (riakBucketpropsSetYoungVclock prop value)
  | bigVclock value => pure (riakBucketpropsSetBigVclock prop value)
  | smallVclock value => pure (riakBucketpropsSetSmallVclock prop value)
  | pr value => pure (riakBucketpropsSetPr prop value)
  | r value => pure (riakBucketpropsSetR prop value)
  | w value => pure (riakBucketpropsSetW prop value)
  | pw value => pure (riakBucketpropsSetPw prop value)
  | dw value => pure (riakBucketpropsSetDw prop value)
  | rw value => pure (riakBucketpropsSetRw prop value)
  | basicQuorum value => pure (riakBucketpropsSetBasicQuorum prop value)
  | notfoundOk value => pure (riakBucketpropsSetNotfoundOk prop value)
  | backend value => pure (riakBucketpropsSetBackend prop value)
  | search value => pure (riakBucketpropsSetSearch prop value)
  | repl value => pure (riakBucketpropsSetRepl prop value)
  | searchIndex value => pure (riakBucketpropsSetSearchIndex prop value)

/-- The properties of an application that allocates them and then calls setters. -/
def bucketpropsAfter (calls : List BucketpropsSetter) : C RiakBucketprops := do
  let prop ← C.deref (← riakBucketpropsNew)
  calls.foldlM (fun prop call => call.call prop) prop

/-! ### What setters build -/

def RiakModfun.Complete (modfun : RiakModfun) : Prop :=
  modfun.module.isSome ∧ modfun.function.isSome

/-- A hook with a function, and with a name if it says so. -/
def RiakCommitHook.Complete (hook : RiakCommitHook) : Prop :=
  (∃ modfun, hook.modfun = some modfun ∧ modfun.Complete) ∧
    (hook.hasName = true → hook.name.isSome)

/-- Properties that were made by setters. -/
structure RiakBucketprops.Built (props : RiakBucketprops) : Prop where
  precommit : props.hasHasPrecommit = true → props.hasPrecommit = 1
  noPrecommit : props.hasHasPrecommit = false → props.nPrecommit = 0
  postcommit : props.hasHasPostcommit = true → props.hasPostcommit = 1
  noPostcommit : props.hasHasPostcommit = false → props.nPostcommit = 0
  backend : props.hasBackend = true → props.backend.isSome
  searchIndex : props.hasSearchIndex = true → props.searchIndex.isSome
  chashKeyfun : ∀ modfun, props.chashKeyfun = some modfun → modfun.Complete
  linkfun : ∀ modfun, props.linkfun = some modfun → modfun.Complete

theorem riakModfunDeepNew_eq_some {from_ modfun : RiakModfun}
    (hrun : riakModfunDeepNew from_ heap = .ok (some modfun, final)) : modfun.Complete := by
  obtain ⟨slot, heap₁, hslot, hrun₁⟩ := C.bind_eq_ok.mp hrun
  cases slot with
  | none => cases hrun₁
  | some fun_ =>
    obtain ⟨module, heap₂, hmodule, hrun₂⟩ := C.bind_eq_ok.mp hrun₁
    cases module with
    | none => cases hrun₂
    | some module =>
      obtain ⟨function, heap₃, hfunction, hrun₃⟩ := C.bind_eq_ok.mp hrun₂
      cases function with
      | none => cases hrun₃
      | some function =>
        cases hrun₃
        exact ⟨rfl, rfl⟩

theorem BucketpropsSetter.call_built {props props' : RiakBucketprops} {call : BucketpropsSetter}
    (h : props.Built) (hcall : call.call props heap = .ok (props', final)) : props'.Built := by
  cases call with
  | precommits precommit num =>
    cases hcall
    exact ⟨fun _ => rfl, fun hno => absurd hno Bool.false_ne_true.symm, h.postcommit,
      h.noPostcommit, h.backend, h.searchIndex, h.chashKeyfun, h.linkfun⟩
  | postcommits postcommit num =>
    cases hcall
    exact ⟨h.precommit, h.noPrecommit, fun _ => rfl,
      fun hno => absurd hno Bool.false_ne_true.symm, h.backend, h.searchIndex, h.chashKeyfun,
      h.linkfun⟩
  | chashKeyfun value =>
    obtain ⟨⟨err, prop⟩, heap₁, hset, hrest⟩ := C.bind_eq_ok.mp hcall
    obtain ⟨copy, heap₂, hcopy, hpure⟩ := C.bind_eq_ok.mp hset
    cases hpure
    cases hrest
    refine ⟨h.precommit, h.noPrecommit, h.postcommit, h.noPostcommit, h.backend, h.searchIndex,
      ?_, h.linkfun⟩
    rintro modfun rfl
    exact riakModfunDeepNew_eq_some hcopy
  | linkfun value =>
    obtain ⟨⟨err, prop⟩, heap₁, hset, hrest⟩ := C.bind_eq_ok.mp hcall
    obtain ⟨copy, heap₂, hcopy, hpure⟩ := C.bind_eq_ok.mp hset
    cases hpure
    cases hrest
    refine ⟨h.precommit, h.noPrecommit, h.postcommit, h.noPostcommit, h.backend, h.searchIndex,
      h.chashKeyfun, ?_⟩
    rintro modfun rfl
    exact riakModfunDeepNew_eq_some hcopy
  | backend value =>
    cases hcall
    exact ⟨h.precommit, h.noPrecommit, h.postcommit, h.noPostcommit, fun _ => rfl, h.searchIndex,
      h.chashKeyfun, h.linkfun⟩
  | searchIndex value =>
    cases hcall
    exact ⟨h.precommit, h.noPrecommit, h.postcommit, h.noPostcommit, h.backend, fun _ => rfl,
      h.chashKeyfun, h.linkfun⟩
  | _ =>
    cases hcall
    exact ⟨h.precommit, h.noPrecommit, h.postcommit, h.noPostcommit, h.backend, h.searchIndex,
      h.chashKeyfun, h.linkfun⟩

theorem bucketpropsAfter_invariant {Inv : List BucketpropsSetter → RiakBucketprops → Prop}
    (hstart : Inv [] {})
    (step : ∀ before (call : BucketpropsSetter) props props' heap final, Inv before props →
      call.call props heap = .ok (props', final) → Inv (before ++ [call]) props')
    {calls : List BucketpropsSetter} {props : RiakBucketprops}
    (hrun : bucketpropsAfter calls heap = .ok (props, final)) : Inv calls props := by
  obtain ⟨slot, heap₁, hnew, hrun₁⟩ := C.bind_eq_ok.mp hrun
  obtain ⟨empty, heap₂, hderef, hcalls⟩ := C.bind_eq_ok.mp hrun₁
  obtain ⟨rfl, _⟩ := C.deref_eq_ok.mp hderef
  have hempty : empty = {} := by
    rcases C.new_eq_ok hnew with hslot | hslot
    · exact Option.some.inj hslot
    · cases hslot
  rw [hempty] at hcalls
  exact C.foldlM_invariant step calls [] {} props heap₂ final hstart hcalls

theorem riakBucketprops_empty_built : ({} : RiakBucketprops).Built := by
  constructor
  case chashKeyfun => exact fun modfun hsome => nomatch hsome
  case linkfun => exact fun modfun hsome => nomatch hsome
  all_goals first | exact fun _ => rfl | exact fun hset => absurd hset Bool.false_ne_true

theorem bucketpropsAfter_built {calls : List BucketpropsSetter} {props : RiakBucketprops}
    (hrun : bucketpropsAfter calls heap = .ok (props, final)) : props.Built := by
  let Inv : List BucketpropsSetter → RiakBucketprops → Prop := fun _ props => props.Built
  have step : ∀ before (call : BucketpropsSetter) props props' heap final, Inv before props →
      call.call props heap = .ok (props', final) → Inv (before ++ [call]) props' :=
    fun _ _ _ _ _ _ hinv hcall => BucketpropsSetter.call_built hinv hcall
  exact bucketpropsAfter_invariant riakBucketprops_empty_built step hrun

/-! ### Encoding

The loop over complete hooks copies all of them, and what a complete hook is encoded
to has a function, which the decoder asks for. With a multiple of `2 ^ 32` hooks the
copies are told that there are none. -/

def RiakModfun.encoded (modfun : RiakModfun) : RpbModFun where
  initialised := false
  module := (modfun.module.map RiakBinary.data).getD []
  function := (modfun.function.map RiakBinary.data).getD []

def RiakCommitHook.encoded (hook : RiakCommitHook) : RpbCommitHook where
  initialised := false
  modfun := hook.modfun.map RiakModfun.encoded
  hasName := hook.hasName
  name := (flaggedBytes hook.hasName hook.name).getD []

theorem RiakModfun.Complete.encoded_content {modfun : RiakModfun} (h : modfun.Complete) :
    modfun.encoded.content = modfun.content := by
  obtain ⟨module, function⟩ := modfun
  obtain ⟨hmodule, hfunction⟩ := h
  obtain ⟨m, rfl⟩ := Option.isSome_iff_exists.mp hmodule
  obtain ⟨f, rfl⟩ := Option.isSome_iff_exists.mp hfunction
  rfl

theorem RiakCommitHook.Complete.encoded_content {hook : RiakCommitHook} (h : hook.Complete) :
    hook.encoded.content = hook.content := by
  obtain ⟨⟨modfun, hmodfun, hcomplete⟩, hname⟩ := h
  unfold RpbCommitHook.content RiakCommitHook.content RiakCommitHook.encoded
  rw [hmodfun, flagged_flaggedBytes hname, Option.map_some, Option.map_some, Option.map_some,
    hcomplete.encoded_content]

theorem riakModfunCopyToPb_of_complete (h : heap.Ample) {modfun : RiakModfun}
    (hmodfun : modfun.Complete) :
    riakModfunCopyToPb (some modfun) heap = .ok ((.ok, some modfun.encoded), heap) := by
  unfold riakModfunCopyToPb
  simp only
  rw [C.bind_of_ok (C.allocate_of_ample h), if_pos rfl, riakBinaryCopyToPb_of_data hmodfun.1,
    pure_bind, riakBinaryCopyToPb_of_data hmodfun.2, pure_bind]
  rfl

theorem riakCommitHookCopyToPb_of_complete (h : heap.Ample)
    {slots : List (Option RiakCommitHook)} {i : Nat} {hook : RiakCommitHook}
    (hslot : slots[i]? = some (some hook)) (hhook : hook.Complete) :
    riakCommitHookCopyToPb (some slots) i heap = .ok (some hook.encoded, heap) := by
  obtain ⟨⟨modfun, hmodfun, hcomplete⟩, hname⟩ := hhook
  unfold riakCommitHookCopyToPb
  rw [C.bind_of_ok (C.allocate_of_ample h), if_pos rfl, entryAt_of_set hslot, pure_bind,
    copyToPbIf_of_flagged hname, pure_bind, hmodfun,
    C.bind_of_ok (riakModfunCopyToPb_of_complete h hcomplete)]
  unfold RiakCommitHook.encoded
  rw [hmodfun]
  rfl

theorem copyHooks_of_set (h : heap.Ample) {n : Nat} {slots : List (Option RiakCommitHook)}
    (hset : EntriesSet n (some slots) RiakCommitHook.Complete) :
    copyArray n (riakCommitHookCopyToPb (some slots)) heap =
      .ok (some ((firstEntries n (some slots)).map RiakCommitHook.encoded), heap) := by
  obtain ⟨hlength, hentries⟩ := hset.entries
  rw [Int.toNat_natCast] at hlength
  have hcount : ((firstEntries n (some slots)).map RiakCommitHook.encoded).length = n := by
    rw [List.length_map, hlength]
  have hbound := hset.bound
  conv => lhs; rw [← hcount]
  apply copyArray_of_ample h (by rw [hcount]; omega)
  intro j pbhook hpbhook
  rw [List.getElem?_map, Option.map_eq_some_iff] at hpbhook
  obtain ⟨hook, hhook, rfl⟩ := hpbhook
  obtain ⟨slots', hslots, hslot, hcomplete⟩ := hentries j hook hhook
  cases hslots
  exact riakCommitHookCopyToPb_of_complete h hslot hcomplete

theorem encodedHooks_modfun {n : Nat} {array : Option (List (Option RiakCommitHook))}
    (hset : EntriesSet n array RiakCommitHook.Complete) :
    ∀ pbhook ∈ (firstEntries n array).map RiakCommitHook.encoded, pbhook.modfun.isSome := by
  intro pbhook hmem
  obtain ⟨hook, hhook, rfl⟩ := List.mem_map.mp hmem
  obtain ⟨j, hj⟩ := List.mem_iff_getElem?.mp hhook
  obtain ⟨_, _, _, ⟨modfun, hmodfun, _⟩, _⟩ := hset.entries.2 j hook hj
  unfold RiakCommitHook.encoded
  rw [hmodfun]
  rfl

/-- Hooks that setters build are encoded in order, and into something that the
    decoder accepts. -/
theorem copyHooksIf_of_set (h : heap.Ample) {hasHas : Bool} {has : RiakBoolean} {n : Nat}
    {array : Option (List (Option RiakCommitHook))} (htrue : hasHas = true → has = 1)
    (hfalse : hasHas = false → n = 0) (hset : EntriesSet n array RiakCommitHook.Complete) :
    ∃ hooks : Repeated RpbCommitHook,
      copyHooksIf hasHas has n array heap = .ok ((.ok, assignIf hasHas has, hooks), heap) ∧
      hooks.entries = (firstEntries n array).map RiakCommitHook.encoded ∧
      hooks.entries.length = hooks.count ∧
      HooksAccepted hasHas (assignIf hasHas has) hooks := by
  have hlength := hset.entries.1
  rw [Int.toNat_natCast] at hlength
  have hbound : n < 2 ^ 31 := by
    have := hset.bound
    omega
  unfold copyHooksIf
  cases hasHas with
  | false =>
    have hzero : n = 0 := hfalse rfl
    subst hzero
    have hnil : firstEntries (0 : Nat) array = [] := List.length_eq_zero_iff.mp hlength
    refine ⟨{}, rfl, by rw [hnil]; rfl, rfl, ⟨fun hne => absurd rfl hne, by decide, ?_⟩⟩
    intro pbhook hmem
    exact absurd hmem List.not_mem_nil
  | true =>
    have hone : has = 1 := htrue rfl
    subst hone
    rw [if_pos ⟨rfl, by decide⟩]
    cases array with
    | none =>
      have hzero : n = 0 := by
        rw [← hlength, firstEntries, Option.getD_none, List.take_nil]
        rfl
      subst hzero
      refine ⟨⟨0, none⟩, rfl, rfl, rfl, ⟨fun hne => absurd rfl hne, by decide, ?_⟩⟩
      intro pbhook hmem
      exact absurd hmem List.not_mem_nil
    | some slots =>
      have hcount : ((firstEntries n (some slots)).map RiakCommitHook.encoded).length = n := by
        rw [List.length_map, hlength]
      have hall : (Repeated.mk n (some
          ((firstEntries n (some slots)).map RiakCommitHook.encoded))).entries =
          (firstEntries n (some slots)).map RiakCommitHook.encoded :=
        List.take_of_length_le (Nat.le_of_eq hcount)
      refine ⟨⟨n, some ((firstEntries n (some slots)).map RiakCommitHook.encoded)⟩, ?_, hall,
        by rw [hall, hcount],
        ⟨fun _ => ⟨rfl, by decide⟩, hbound, by rw [hall]; exact encodedHooks_modfun hset⟩⟩
      unfold riakCommitHooksCopyToPb
      rw [Option.isNone_some, if_neg Bool.false_ne_true,
        UInt32.toNat_ofNat_of_lt' (Nat.lt_trans hbound (by decide)), bind_assoc,
        C.bind_of_ok (copyHooks_of_set h hset)]
      rfl

theorem encodedHooks_content {n : Nat} {array : Option (List (Option RiakCommitHook))}
    (hset : EntriesSet n array RiakCommitHook.Complete) :
    ((firstEntries n array).map RiakCommitHook.encoded).map RpbCommitHook.content =
      (firstEntries n array).map RiakCommitHook.content := by
  rw [List.map_map]
  apply List.map_congr_left
  intro hook hmem
  obtain ⟨j, hj⟩ := List.mem_iff_getElem?.mp hmem
  obtain ⟨_, _, _, hcomplete⟩ := hset.entries.2 j hook hj
  exact hcomplete.encoded_content

/-- Properties that setters built are encoded into a message that has their
    members and that the decoder accepts. -/
theorem riakBucketpropsToPbCopy_of_built (h : heap.Ample) {props : RiakBucketprops}
    (hbuilt : props.Built) (hchash : props.chashKeyfun.isSome) (hlink : props.linkfun.isSome)
    (hpre : EntriesSet props.nPrecommit props.precommit RiakCommitHook.Complete)
    (hpost : EntriesSet props.nPostcommit props.postcommit RiakCommitHook.Complete) :
    ∃ pbprops, riakBucketpropsToPbCopy props heap = .ok ((.ok, pbprops), heap) ∧
      pbprops.properties = props.properties ∧ pbprops.Acceptable ∧
      pbprops.precommit.entries.length = pbprops.precommit.count ∧
      pbprops.postcommit.entries.length = pbprops.postcommit.count := by
  obtain ⟨chashKeyfun, hchash⟩ := Option.isSome_iff_exists.mp hchash
  obtain ⟨linkfun, hlink⟩ := Option.isSome_iff_exists.mp hlink
  have hchashComplete := hbuilt.chashKeyfun chashKeyfun hchash
  have hlinkComplete := hbuilt.linkfun linkfun hlink
  obtain ⟨precommit, hcopyPre, hentriesPre, hlengthPre, hokPre⟩ :=
    copyHooksIf_of_set h hbuilt.precommit hbuilt.noPrecommit hpre
  obtain ⟨postcommit, hcopyPost, hentriesPost, hlengthPost, hokPost⟩ :=
    copyHooksIf_of_set h hbuilt.postcommit hbuilt.noPostcommit hpost
  unfold riakBucketpropsToPbCopy bucketpropsScalars bucketpropsFunctions
  simp only
  rw [C.bind_of_ok hcopyPre]
  simp only [ne_eq, not_true_eq_false, if_false]
  rw [C.bind_of_ok hcopyPost]
  simp only [not_true_eq_false, if_false, copyToPbIf_of_flagged hbuilt.backend,
    copyToPbIf_of_flagged hbuilt.searchIndex, pure_bind, hchash]
  rw [C.bind_of_ok (riakModfunCopyToPb_of_complete h hchashComplete)]
  simp only [not_true_eq_false, if_false, hlink]
  rw [C.bind_of_ok (riakModfunCopyToPb_of_complete h hlinkComplete)]
  refine ⟨_, rfl, ?_, ⟨rfl, rfl, hokPre, hokPost⟩, hlengthPre, hlengthPost⟩
  unfold RpbBucketProps.properties RiakBucketprops.properties
  simp only [flagged_assignIf, flagged_flaggedBytes hbuilt.backend,
    flagged_flaggedBytes hbuilt.searchIndex, hentriesPre, hentriesPost, encodedHooks_content hpre,
    encodedHooks_content hpost, hchash, hlink, Option.map_some, hchashComplete.encoded_content,
    hlinkComplete.encoded_content]

/-- **Bucket properties there and back.** Properties that setters have built, with
    both functions and with hooks that all have one, are encoded and decoded with
    success, and every member, every flag and every hook is as it was. -/
theorem riak_bucketprops_round_trip (calls : List BucketpropsSetter) (props : RiakBucketprops)
    (heap₀ final heap heap' : Heap) (h : heap.Ample) (h' : heap'.Ample)
    (hbuilt : bucketpropsAfter calls heap₀ = .ok (props, final))
    (hchash : props.chashKeyfun.isSome) (hlink : props.linkfun.isSome)
    (hpre : EntriesSet props.nPrecommit props.precommit RiakCommitHook.Complete)
    (hpost : EntriesSet props.nPostcommit props.postcommit RiakCommitHook.Complete) :
    ∃ (pbprops : RpbBucketProps) (target : RiakBucketprops) (final' : Heap),
      riakBucketpropsToPbCopy props heap = .ok ((.ok, pbprops), heap) ∧
      riakBucketpropsNewFromPb pbprops heap' = .ok ((.ok, some target), final') ∧
      target.Backed ∧ target.properties = props.properties := by
  obtain ⟨pbprops, hencode, hview, hacceptable, hpreLength, hpostLength⟩ :=
    riakBucketpropsToPbCopy_of_built h (bucketpropsAfter_built hbuilt) hchash hlink hpre hpost
  obtain ⟨target, final', hdecode, hbacked, htarget⟩ :=
    bucketpropsAccepted_of_acceptable h' hpreLength hpostLength hacceptable
  exact ⟨pbprops, target, final', hencode, hdecode, hbacked, htarget.trans hview⟩

/-- The functions and hooks of the sample properties. -/
def sampleModfun : RiakModfun where
  module := some ⟨[0x6d], true⟩
  function := some ⟨[0x66], true⟩

/-- What setters make of `num` hooks that are all the same one. -/
def hookedProps (num : Nat) : RiakBucketprops where
  hasHasPrecommit := true
  hasPrecommit := 1
  nPrecommit := num
  precommit := some (List.replicate num (some { modfun := some sampleModfun }))
  chashKeyfun := some sampleModfun
  linkfun := some sampleModfun

theorem hookedProps_built (num : Nat) :
    bucketpropsAfter [.chashKeyfun sampleModfun, .linkfun sampleModfun,
      .precommits (some (List.replicate num (some { modfun := some sampleModfun }))) num]
      Heap.fresh = .ok (hookedProps num, Heap.fresh) := rfl

theorem hookedProps_complete (num i : Nat) (hi : i < num) :
    ∃ slots entry, (hookedProps num).precommit = some slots ∧ slots[i]? = some (some entry) ∧
      entry.Complete := by
  refine ⟨_, { modfun := some sampleModfun }, rfl, ?_, ⟨sampleModfun, rfl, rfl, rfl⟩,
    fun hname => absurd hname Bool.false_ne_true⟩
  rw [List.getElem?_replicate, if_pos hi]

theorem riak_bucketprops_round_trip_hook :
    ∃ (pbprops : RpbBucketProps) (target : RiakBucketprops) (final' : Heap),
      riakBucketpropsToPbCopy (hookedProps 1) Heap.fresh = .ok ((.ok, pbprops), Heap.fresh) ∧
      riakBucketpropsNewFromPb pbprops Heap.fresh = .ok ((.ok, some target), final') ∧
      target.Backed ∧ target.properties = (hookedProps 1).properties :=
  riak_bucketprops_round_trip _ (hookedProps 1) Heap.fresh Heap.fresh Heap.fresh Heap.fresh
    Heap.fresh_ample Heap.fresh_ample (hookedProps_built 1) rfl rfl
    ⟨by decide, fun i hi => hookedProps_complete 1 i hi⟩
    ⟨by decide, fun i hi => absurd hi (Nat.not_lt_zero i)⟩

/-- What is encoded where the number of hooks is taken for zero. -/
def wrappedMessage (num : Nat) : RpbBucketProps where
  initialised := true
  hasHasPrecommit := true
  hasPrecommit := 1
  precommit := ⟨num, some []⟩
  chashKeyfun := some sampleModfun.encoded
  linkfun := some sampleModfun.encoded

/-- What that is decoded into. -/
def wrappedProps (num : Nat) : RiakBucketprops where
  hasHasPrecommit := true
  hasPrecommit := 1
  nPrecommit := num
  precommit := some []
  chashKeyfun := some sampleModfun.encoded.decoded
  linkfun := some sampleModfun.encoded.decoded

theorem hookedProps_wrapped {num : Nat} (hpos : 0 < num) (hwrap : num % 2 ^ 32 = 0) :
    ∃ (pbprops : RpbBucketProps) (target : RiakBucketprops),
      riakBucketpropsToPbCopy (hookedProps num) Heap.fresh = .ok ((.ok, pbprops), Heap.fresh) ∧
      riakBucketpropsNewFromPb pbprops Heap.fresh = .ok ((.ok, some target), Heap.fresh) ∧
      target.properties ≠ (hookedProps num).properties := by
  have hzero : UInt32.ofNat num = 0 := by
    apply UInt32.toNat_inj.mp
    rw [UInt32.toNat_ofNat', hwrap]
    rfl
  have hcopy : copyHooksIf (hookedProps num).hasHasPrecommit (hookedProps num).hasPrecommit
      (hookedProps num).nPrecommit (hookedProps num).precommit Heap.fresh =
      .ok ((.ok, 1, ⟨num, some []⟩), Heap.fresh) := by
    change copyHooksIf true 1 num (hookedProps num).precommit Heap.fresh = _
    unfold copyHooksIf
    rw [if_pos ⟨rfl, by decide⟩, hzero]
    rfl
  have hdecode : decodeHooksIf (wrappedMessage num).hasHasPrecommit
      (wrappedMessage num).hasPrecommit (wrappedMessage num).precommit Heap.fresh =
      .ok ((.ok, 1, num, some []), Heap.fresh) := by
    change decodeHooksIf true 1 ⟨num, some []⟩ Heap.fresh = _
    unfold decodeHooksIf
    rw [if_pos rfl, if_pos (by decide), hzero]
    rfl
  refine ⟨wrappedMessage num, wrappedProps num, ?_, ?_, ?_⟩
  · unfold riakBucketpropsToPbCopy
    rw [C.bind_of_ok hcopy]
    rfl
  · unfold riakBucketpropsNewFromPb
    rw [C.bind_of_ok (C.allocate_of_ample Heap.fresh_ample), if_pos rfl, C.bind_of_ok hdecode]
    rfl
  · intro hsame
    have hlength := congrArg (List.length ∘ Properties.precommit) hsame
    have hall : firstEntries (num : Nat) (hookedProps num).precommit =
        List.replicate num { modfun := some sampleModfun } := by
      apply firstEntries_of_take
      rw [hookedProps, Option.getD_some, Int.toNat_natCast, List.map_replicate]
      exact List.take_of_length_le (Nat.le_of_eq List.length_replicate)
    have hnone : firstEntries (num : Nat) (wrappedProps num).precommit = [] := by
      rw [wrappedProps, firstEntries, Option.getD_some, List.take_nil]
      rfl
    simp only [Function.comp, RiakBucketprops.properties, List.length_map] at hlength
    rw [show (hookedProps num).nPrecommit = num from rfl, hall, List.length_replicate,
      show (wrappedProps num).nPrecommit = num from rfl, hnone, List.length_nil] at hlength
    omega

/-- `2 ^ 32` hooks, as many as their count says, are all lost on the way. -/
theorem riak_bucketprops_hooks_wrap :
    ∃ (calls : List BucketpropsSetter) (props target : RiakBucketprops)
      (pbprops : RpbBucketProps),
      bucketpropsAfter calls Heap.fresh = .ok (props, Heap.fresh) ∧
      props.chashKeyfun.isSome ∧ props.linkfun.isSome ∧ props.nPostcommit = 0 ∧
      (∀ i < props.nPrecommit, ∃ slots entry, props.precommit = some slots ∧
        slots[i]? = some (some entry) ∧ entry.Complete) ∧
      riakBucketpropsToPbCopy props Heap.fresh = .ok ((.ok, pbprops), Heap.fresh) ∧
      riakBucketpropsNewFromPb pbprops Heap.fresh = .ok ((.ok, some target), Heap.fresh) ∧
      target.properties ≠ props.properties := by
  obtain ⟨pbprops, target, hencode, hdecode, hlost⟩ :=
    hookedProps_wrapped (Nat.two_pow_pos 32) (Nat.mod_self _)
  exact ⟨_, hookedProps (2 ^ 32), target, pbprops, hookedProps_built (2 ^ 32), rfl, rfl, rfl,
    hookedProps_complete (2 ^ 32), hencode, hdecode, hlost⟩

end RiakClient
