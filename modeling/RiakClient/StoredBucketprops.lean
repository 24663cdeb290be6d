import RiakClient.BucketpropsPrint
import RiakClient.StoredObjects

/-!
# Where bucket properties are stored

`riak_bucketprops_free` (`riak_bucketprops.c`), and the setters as far as addresses
matter to it. The setters of the two functions make copies, while those of the hooks,
of the backend and of the search index keep the pointers that they are given. At the
end all of these are freed alike, so an application must have got each of them from
the allocator, must not give one twice, and must not free it itself: bytes on the stack,
or one binary as backend and as search index, end in a free of what is not a live
block. Nor does freeing test the functions for NULL, those of the properties or those
of the hooks, any more than printing does.

Freeing is specified by `Frees`: it ends if and only if the functions are there and
all its blocks are live, each of them once. What holds of properties that setters have
built follows from this and from what was given last.
-/

namespace RiakClient

open CSem

/-- The setters of members that are no pointers. -/
def BucketpropsSetter.flat : BucketpropsSetter → Bool
  | precommits _ _ | postcommits _ _ | chashKeyfun _ | linkfun _ | backend _ | searchIndex _ =>
      false
  | _ => true

theorem entriesSet_map {α β : Type} (g : α → β) {n : Int} {array : Option (List (Option α))}
    {ok : β → Prop} : EntriesSet n (array.map (List.map (Option.map g))) ok ↔
      EntriesSet n array fun entry => ok (g entry) := by
  constructor
  · rintro ⟨hbound, hentry⟩
    refine ⟨hbound, fun i hi => ?_⟩
    obtain ⟨slots, entry, harray, hslot, hok⟩ := hentry i hi
    obtain ⟨stored, rfl, rfl⟩ := Option.map_eq_some_iff.mp harray
    rw [List.getElem?_map, Option.map_eq_some_iff] at hslot
    obtain ⟨slot, hget, hsome⟩ := hslot
    obtain ⟨item, rfl, rfl⟩ := Option.map_eq_some_iff.mp hsome
    exact ⟨stored, item, rfl, hget, hok⟩
  · rintro ⟨hbound, hentry⟩
    refine ⟨hbound, fun i hi => ?_⟩
    obtain ⟨slots, entry, rfl, hslot, hok⟩ := hentry i hi
    refine ⟨_, g entry, rfl, ?_, hok⟩
    rw [List.getElem?_map, hslot]
    rfl

namespace Stored

open Booked

variable {l l' : Ledger} {heap final : Heap}

/-! ### The structs

Beside the members that are no pointers, properties are the addresses of what they
lead to; the two copies of functions are theirs, and everything else was given by the
application. -/

structure RiakModfun where
  addr : Addr
  module : Option RiakBinary := none
  function : Option RiakBinary := none

structure RiakCommitHook where
  addr : Addr
  modfun : Option RiakModfun := none
  hasName : Bool := false
  name : Option RiakBinary := none

/-- An array of pointers to hooks. -/
structure HookArray where
  addr : Addr
  hooks : List (Option RiakCommitHook)

/-- Bucket properties: `members` has those that are no pointers. -/
structure RiakBucketprops where
  addr : Addr
  members : RiakClient.RiakBucketprops := {}
  precommit : Option HookArray := none
  postcommit : Option HookArray := none
  chashKeyfun : Option RiakModfun := none
  linkfun : Option RiakModfun := none
  backend : Option RiakBinary := none
  searchIndex : Option RiakBinary := none

def RiakModfun.plain (modFun : RiakModfun) : RiakClient.RiakModfun :=
  ⟨modFun.module.map RiakBinary.plain, modFun.function.map RiakBinary.plain⟩

def RiakCommitHook.plain (hook : RiakCommitHook) : RiakClient.RiakCommitHook :=
  ⟨hook.modfun.map RiakModfun.plain, hook.hasName, hook.name.map RiakBinary.plain⟩

def HookArray.plain (array : HookArray) : List (Option RiakClient.RiakCommitHook) :=
  array.hooks.map (Option.map RiakCommitHook.plain)

/-- The pointers of properties beside other members. -/
def RiakBucketprops.over (prop : RiakBucketprops) (members : RiakClient.RiakBucketprops) :
    RiakClient.RiakBucketprops :=
  { members with
    precommit := prop.precommit.map HookArray.plain
    postcommit := prop.postcommit.map HookArray.plain
    chashKeyfun := prop.chashKeyfun.map RiakModfun.plain
    linkfun := prop.linkfun.map RiakModfun.plain
    backend := prop.backend.map RiakBinary.plain
    searchIndex := prop.searchIndex.map RiakBinary.plain }

def RiakBucketprops.plain (prop : RiakBucketprops) : RiakClient.RiakBucketprops :=
  prop.over prop.members

instance : Owns RiakModfun :=
  ⟨fun modFun => blocks modFun.module + (blocks modFun.function + {modFun.addr})⟩

instance : Owns RiakCommitHook :=
  ⟨fun hook => blocks hook.name + (blocks hook.modfun + {hook.addr})⟩

/-- An array of hooks, and as many of these as its number says once it is cut to 32
    bits. -/
def hookBlocks (hooks : Option HookArray) (n : Nat) : Multiset Addr :=
  blocks (((hooks.map HookArray.hooks).getD []).take (n % 2 ^ 32)) +
    blocks (hooks.map HookArray.addr)

/-- Everything that properties lead to, and they themselves. -/
instance : Owns RiakBucketprops := ⟨fun prop =>
  blocks prop.backend + (blocks prop.chashKeyfun + (blocks prop.linkfun +
    (hookBlocks prop.precommit prop.members.nPrecommit +
      (hookBlocks prop.postcommit prop.members.nPostcommit +
        (blocks prop.searchIndex + {prop.addr})))))⟩

/-! ### Setters -/

def riakBucketpropsNew : Booked (Option RiakBucketprops) := structNew fun addr => { addr := addr }

/-- `riak_modfun_deep_new`, which takes back what it has made if it cannot go on. -/
def riakModfunDeepNew (from_ : RiakClient.RiakModfun) : Booked (Option RiakModfun) := do
  match ← malloc with
  | none => pure none
  | some addr =>
      match ← riakBinaryCopy from_.module with
      | none => do
          release addr
          pure none
      | some module =>
          match ← riakBinaryCopy from_.function with
          | none => do
              riakBinaryFree (some module)
              release addr
              pure none
          | some function => pure (some ⟨addr, some module, some function⟩)

def riakBucketpropsSetPrecommits (prop : RiakBucketprops) (precommit : Option HookArray)
    (num : Nat) : RiakBucketprops :=
  { prop with
    precommit := precommit
    members := { prop.members with hasHasPrecommit := true, hasPrecommit := 1, nPrecommit := num } }

def riakBucketpropsSetPostcommits (prop : RiakBucketprops) (postcommit : Option HookArray)
    (num : Nat) : RiakBucketprops :=
  { prop with
    postcommit := postcommit
    members :=
      { prop.members with hasHasPostcommit := true, hasPostcommit := 1, nPostcommit := num } }

/-- The two setters that make a copy report success as an error, and lose the copy that
    was there before. -/
def riakBucketpropsSetChashKeyfun (prop : RiakBucketprops) (value : RiakClient.RiakModfun) :
    Booked (RiakError × RiakBucketprops) := do
  let chashKeyfun ← riakModfunDeepNew value
  pure (if chashKeyfun.isSome then .outOfMemory else .ok, { prop with chashKeyfun := chashKeyfun })

def riakBucketpropsSetLinkfun (prop : RiakBucketprops) (value : RiakClient.RiakModfun) :
    Booked (RiakError × RiakBucketprops) := do
  let linkfun ← riakModfunDeepNew value
  pure (if linkfun.isSome then .outOfMemory else .ok, { prop with linkfun := linkfun })

def riakBucketpropsSetBackend (prop : RiakBucketprops) (value : Option RiakBinary) :
    RiakBucketprops :=
  { prop with backend := value, members := { prop.members with hasBackend := true } }

def riakBucketpropsSetSearchIndex (prop : RiakBucketprops) (value : Option RiakBinary) :
    RiakBucketprops :=
  { prop with searchIndex := value, members := { prop.members with hasSearchIndex := true } }

/-- A call of a setter with the pointers that it is given, which may be NULL. -/
inductive BucketpropsSetter where
  | precommits (precommit : Option HookArray) (num : Nat)
  | postcommits (postcommit : Option HookArray) (num : Nat)
  | chashKeyfun (value : RiakClient.RiakModfun)
  | linkfun (value : RiakClient.RiakModfun)
  | backend (value : Option RiakBinary)
  | searchIndex (value : Option RiakBinary)
  | member (call : RiakClient.BucketpropsSetter) (flat : call.flat = true)

def BucketpropsSetter.call (prop : RiakBucketprops) : BucketpropsSetter → Booked RiakBucketprops
  | precommits precommit num => pure (riakBucketpropsSetPrecommits prop precommit num)
  | postcommits postcommit num => pure (riakBucketpropsSetPostcommits prop postcommit num)
  | chashKeyfun value => do
      let (_, prop) ← riakBucketpropsSetChashKeyfun prop value
      pure prop
  | linkfun value => do
      let (_, prop) ← riakBucketpropsSetLinkfun prop value
      pure prop
  | backend value => pure (riakBucketpropsSetBackend prop value)
  | searchIndex value => pure (riakBucketpropsSetSearchIndex prop value)
  | member call _ => do
      let members ← lift (call.call prop.members)
      pure { prop with members := members }

/-- The properties of an application that allocates them and then calls setters. -/
def bucketpropsAfter (calls : List BucketpropsSetter) : Booked RiakBucketprops := do
  let prop ← lift (C.deref (← riakBucketpropsNew))
  calls.foldlM (fun prop call => call.call prop) prop

/-! ### Freeing

The functions in their order, and for each of them when it ends. A freed block that
leads to others is read before it is given back. -/

def riakModfunFree (modFunTarget : Option RiakModfun) : Booked (Option RiakModfun) := do
  let modFun ← lift (C.deref modFunTarget)
  riakBinaryFree modFun.module
  riakBinaryFree modFun.function
  release modFun.addr
  pure none

/-- One round of the loop over the hooks. -/
def commitHookFree (hook : Option HookArray) (i : Nat) : Booked Unit := do
  let hook ← lift (entryAt (hook.map HookArray.hooks) i)
  riakBinaryFree hook.name
  let _ ← riakModfunFree hook.modfun
  release hook.addr

def riakCommitHooksFree (hookTarget : Option HookArray) (numHooks : UInt32) :
    Booked (Option HookArray) := do
  freeLoop (commitHookFree hookTarget) numHooks.toNat 0
  free (hookTarget.map HookArray.addr)
  pure none

def riakBucketpropsFree (props : Option RiakBucketprops) : Booked (Option RiakBucketprops) := do
  let prop ← lift (C.deref props)
  riakBinaryFree prop.backend
  let _ ← riakModfunFree prop.chashKeyfun
  let _ ← riakModfunFree prop.linkfun
  let _ ← riakCommitHooksFree prop.precommit (UInt32.ofNat prop.members.nPrecommit)
  let _ ← riakCommitHooksFree prop.postcommit (UInt32.ofNat prop.members.nPostcommit)
  riakBinaryFree prop.searchIndex
  release prop.addr
  pure none

theorem riakModfunFree_frees (modFun : Option RiakModfun) :
    Frees (modFun.isSome = true) (blocks modFun) (riakModfunFree modFun) none := by
  cases modFun with
  | none => exact Frees.fault .nullDereference nofun
  | some modFun =>
    have hparts := (riakBinaryFree_frees modFun.module).bind
      ((riakBinaryFree_frees modFun.function).bind
        ((Frees.release modFun.addr).bind (Frees.pure (none : Option RiakModfun))))
    refine hparts.of_iff ⟨fun _ => rfl, fun _ => ⟨trivial, trivial, trivial, trivial⟩⟩ fun _ => ?_
    rw [add_zero]
    rfl

theorem commitHookFree_frees (hooks : Option HookArray) (i : Nat) :
    Frees (∃ hook, ((hooks.map HookArray.hooks).getD [])[i]? = some (some hook) ∧
        hook.modfun.isSome = true)
      (blocks ((hooks.map HookArray.hooks).getD [])[i]?.join) (commitHookFree hooks i) () := by
  unfold commitHookFree entryAt
  cases hooks with
  | none => exact Frees.fault .nullDereference nofun
  | some array =>
    rw [Option.map_some, Option.getD_some, C.deref_some, pure_bind]
    cases hget : array.hooks[i]? with
    | none =>
      unfold C.readAt
      rw [hget]
      exact Frees.fault .outOfBounds nofun
    | some slot =>
      rw [C.readAt_of_get hget, pure_bind]
      cases slot with
      | none => exact Frees.fault .nullDereference nofun
      | some hook =>
        have hparts := (riakBinaryFree_frees hook.name).bind
          ((riakModfunFree_frees hook.modfun).bind (Frees.release hook.addr))
        refine hparts.of_iff ⟨?_, ?_⟩ fun _ => rfl
        · rintro ⟨_, hfunction, _⟩
          exact ⟨hook, rfl, hfunction⟩
        · rintro ⟨_, hsame, hfunction⟩
          cases hsame
          exact ⟨trivial, hfunction, trivial⟩

theorem hookFunctionsSet_plain (n : Nat) (hooks : Option HookArray) :
    HookFunctionsSet n (hooks.map HookArray.plain) ↔
      (n % 2 ^ 32 = 0 ∨ 0 + n % 2 ^ 32 < 2 ^ 31) ∧
        ∀ j < n % 2 ^ 32, ∃ hook, ((hooks.map HookArray.hooks).getD [])[j]? = some (some hook) ∧
          hook.modfun.isSome = true := by
  have hentries : HookFunctionsSet n (hooks.map HookArray.plain) ↔
      EntriesSet ((n % 2 ^ 32 : Nat) : Int) (hooks.map HookArray.hooks)
        fun hook => hook.plain.modfun.isSome = true := by
    have hmap : hooks.map HookArray.plain =
        (hooks.map HookArray.hooks).map (List.map (Option.map RiakCommitHook.plain)) :=
      (Option.map_map _ _ _).symm
    unfold HookFunctionsSet
    rw [hmap]
    exact entriesSet_map RiakCommitHook.plain
  rw [hentries]
  constructor
  · rintro ⟨hbound, hentry⟩
    refine ⟨by omega, fun j hj => ?_⟩
    obtain ⟨slots, hook, harray, hslot, hfunction⟩ := hentry j hj
    rw [harray]
    exact ⟨hook, hslot, Option.isSome_map.symm.trans hfunction⟩
  · rintro ⟨hbound, hentry⟩
    refine ⟨by omega, fun j hj => ?_⟩
    obtain ⟨hook, hslot, hfunction⟩ := hentry j hj
    cases hooks with
    | none => cases hslot
    | some array => exact ⟨_, hook, rfl, hslot, Option.isSome_map.trans hfunction⟩

/-- **An array of hooks is freed** if and only if each hook has its function, and the
    blocks are live. -/
theorem riakCommitHooksFree_frees (hooks : Option HookArray) (n : Nat) :
    Frees (HookFunctionsSet n (hooks.map HookArray.plain)) (hookBlocks hooks n)
      (riakCommitHooksFree hooks (UInt32.ofNat n)) none := by
  have hround : ∀ j, Frees (∃ hook, ((hooks.map HookArray.hooks).getD [])[j]? = some (some hook) ∧
      hook.modfun.isSome = true) (blocks ((hooks.map HookArray.hooks).getD [])[j]?.join)
      (commitHookFree hooks (0 + j)) () := by
    intro j
    rw [Nat.zero_add]
    exact commitHookFree_frees hooks j
  have hloop := freeLoop_frees (n % 2 ^ 32) 0 ((hooks.map HookArray.hooks).getD []) hround
  unfold riakCommitHooksFree
  rw [UInt32.toNat_ofNat']
  refine (hloop.bind ((Frees.free (hooks.map HookArray.addr)).bind
    (Frees.pure (none : Option HookArray)))).of_iff ?_ fun _ => ?_
  · rw [hookFunctionsSet_plain]
    exact and_iff_left ⟨trivial, trivial⟩
  · rw [add_zero]
    rfl

/-- **Properties are freed** if and only if all functions are there, and all blocks are
    live, each of them once. -/
theorem riakBucketpropsFree_frees (prop : RiakBucketprops) :
    Frees prop.plain.FunctionsSet (blocks prop) (riakBucketpropsFree (some prop)) none := by
  have hparts := (riakBinaryFree_frees prop.backend).bind
    ((riakModfunFree_frees prop.chashKeyfun).bind ((riakModfunFree_frees prop.linkfun).bind
      ((riakCommitHooksFree_frees prop.precommit prop.members.nPrecommit).bind
        ((riakCommitHooksFree_frees prop.postcommit prop.members.nPostcommit).bind
          ((riakBinaryFree_frees prop.searchIndex).bind ((Frees.release prop.addr).bind
            (Frees.pure (none : Option RiakBucketprops))))))))
  refine hparts.of_iff ⟨?_, ?_⟩ fun _ => ?_
  · rintro ⟨_, hchash, hlink, hpre, hpost, _⟩
    exact ⟨Option.isSome_map.trans hchash, Option.isSome_map.trans hlink, hpre, hpost⟩
  · rintro ⟨hchash, hlink, hpre, hpost⟩
    exact ⟨trivial, Option.isSome_map.symm.trans hchash, Option.isSome_map.symm.trans hlink,
      hpre, hpost, trivial, trivial, trivial⟩
  · rw [add_zero]
    rfl

/-! ### Properties that setters build

The hooks that are freed are those of the last call that gave some. A setter of another
member leaves them and their number as they are. -/

/-- The hooks that some calls leave, with their number. -/
def precommitsAfter (calls : List BucketpropsSetter) : Option HookArray × Nat :=
  calls.foldl (fun last call =>
    match call with
    | .precommits precommit num => (precommit, num)
    | _ => last) (none, 0)

def postcommitsAfter (calls : List BucketpropsSetter) : Option HookArray × Nat :=
  calls.foldl (fun last call =>
    match call with
    | .postcommits postcommit num => (postcommit, num)
    | _ => last) (none, 0)

/-- The hooks of properties are those that were given to a setter last. -/
structure RiakBucketprops.HooksFrom (props : RiakBucketprops) (calls : List BucketpropsSetter) :
    Prop where
  precommit : (props.precommit, props.members.nPrecommit) = precommitsAfter calls
  postcommit : (props.postcommit, props.members.nPostcommit) = postcommitsAfter calls

theorem flat_call_counts {call : RiakClient.BucketpropsSetter} (hflat : call.flat = true)
    {members members' : RiakClient.RiakBucketprops}
    (hcall : call.call members heap = .ok (members', final)) :
    members'.nPrecommit = members.nPrecommit ∧ members'.nPostcommit = members.nPostcommit := by
  cases call with
  | precommits | postcommits | chashKeyfun | linkfun | backend | searchIndex => cases hflat
  | _ =>
    cases hcall
    exact ⟨rfl, rfl⟩

theorem BucketpropsSetter.call_hooksFrom {before : List BucketpropsSetter}
    {call : BucketpropsSetter} {props props' : RiakBucketprops} (h : props.HooksFrom before)
    (hcall : call.call props l heap = .ok (some (props', l'), final)) :
    props'.HooksFrom (before ++ [call]) := by
  have hpre : precommitsAfter (before ++ [call]) = _ := List.foldl_append
  have hpost : postcommitsAfter (before ++ [call]) = _ := List.foldl_append
  cases call with
  | precommits precommit num =>
    cases hcall
    exact ⟨hpre.symm, h.postcommit.trans hpost.symm⟩
  | postcommits postcommit num =>
    cases hcall
    exact ⟨h.precommit.trans hpre.symm, hpost.symm⟩
  | chashKeyfun value =>
    obtain ⟨⟨err, prop⟩, l₁, heap₁, hset, hrest⟩ := bind_eq_some.mp hcall
    obtain ⟨copy, l₂, heap₂, hcopy, hpure⟩ := bind_eq_some.mp hset
    cases hpure
    cases hrest
    exact ⟨h.precommit.trans hpre.symm, h.postcommit.trans hpost.symm⟩
  | linkfun value =>
    obtain ⟨⟨err, prop⟩, l₁, heap₁, hset, hrest⟩ := bind_eq_some.mp hcall
    obtain ⟨copy, l₂, heap₂, hcopy, hpure⟩ := bind_eq_some.mp hset
    cases hpure
    cases hrest
    exact ⟨h.precommit.trans hpre.symm, h.postcommit.trans hpost.symm⟩
  | member call hflat =>
    obtain ⟨members, l₁, heap₁, hset, hrest⟩ := bind_eq_some.mp hcall
    cases hrest
    obtain ⟨members', heap₂, hrun, hpure⟩ := C.bind_eq_ok.mp hset
    cases hpure
    obtain ⟨hnPre, hnPost⟩ := flat_call_counts hflat hrun
    refine ⟨Eq.trans ?_ (h.precommit.trans hpre.symm), Eq.trans ?_ (h.postcommit.trans hpost.symm)⟩
    · rw [← hnPre]
    · rw [← hnPost]
  | _ =>
    cases hcall
    exact ⟨h.precommit.trans hpre.symm, h.postcommit.trans hpost.symm⟩

theorem bucketpropsAfter_hooksFrom {calls : List BucketpropsSetter} {props : RiakBucketprops}
    (hrun : bucketpropsAfter calls l heap = .ok (some (props, l'), final)) :
    props.HooksFrom calls := by
  obtain ⟨fresh, l₁, heap₁, hnew, hrest⟩ := bind_eq_some.mp hrun
  obtain ⟨empty, l₂, heap₂, hderef, hcalls⟩ := bind_eq_some.mp hrest
  have hempty : empty.HooksFrom [] := by
    obtain ⟨addr, l₃, heap₃, hmalloc, hmade⟩ := bind_eq_some.mp hnew
    cases addr with
    | none =>
      cases hmade
      cases hderef
    | some addr =>
      cases hmade
      cases hderef
      exact ⟨rfl, rfl⟩
  let Inv : List BucketpropsSetter → RiakBucketprops → Prop := fun before props =>
    props.HooksFrom before
  have step : ∀ before (call : BucketpropsSetter) props props' l l' heap final,
      Inv before props → call.call props l heap = .ok (some (props', l'), final) →
        Inv (before ++ [call]) props' :=
    fun _ _ _ _ _ _ _ _ hinv hcall => BucketpropsSetter.call_hooksFrom hinv hcall
  have hstart : Inv [] empty := hempty
  exact foldlM_invariant step calls [] empty props l₂ l' heap₂ final hstart hcalls

/-! ### A program that owns what it gives

Without the addresses the setters are those of the plain properties. With them, the
struct and the two copies come from the allocator, so all blocks are live at the end if
those that the program gave were its own at the start. -/

/-- A call without the addresses. NULL is no value for the plain setters of binaries. -/
def BucketpropsSetter.plain : BucketpropsSetter → Option RiakClient.BucketpropsSetter
  | precommits precommit num => some (.precommits (precommit.map HookArray.plain) num)
  | postcommits postcommit num => some (.postcommits (postcommit.map HookArray.plain) num)
  | chashKeyfun value => some (.chashKeyfun value)
  | linkfun value => some (.linkfun value)
  | backend value => value.map fun value => .backend value.plain
  | searchIndex value => value.map fun value => .searchIndex value.plain
  | member call _ => some call

/-- The struct and the copies. -/
def RiakBucketprops.made (props : RiakBucketprops) : Multiset Addr :=
  blocks props.chashKeyfun + (blocks props.linkfun + {props.addr})

/-- The blocks behind the pointers that setters keep. -/
def RiakBucketprops.given (props : RiakBucketprops) : Multiset Addr :=
  blocks props.backend + (hookBlocks props.precommit props.members.nPrecommit +
    (hookBlocks props.postcommit props.members.nPostcommit + blocks props.searchIndex))

theorem RiakBucketprops.blocks_eq (props : RiakBucketprops) :
    blocks props = props.made + props.given := by
  show blocks props.backend + _ = blocks props.chashKeyfun + _ + (blocks props.backend + _)
  abel

theorem riakModfunDeepNew_tracks (from_ : RiakClient.RiakModfun) :
    Tracks 0 (riakModfunDeepNew from_) (Option.map RiakModfun.plain)
      (RiakClient.riakModfunDeepNew from_) fun modFun after => after = blocks modFun := by
  unfold riakModfunDeepNew RiakClient.riakModfunDeepNew C.new
  rw [bind_assoc]
  refine Tracks.malloc.bind ?_
  rintro (_ | addr) _ rfl
  · exact Tracks.pure rfl
  refine (riakBinaryCopy_tracks from_.module).after ?_
  rintro (_ | module) _ rfl
  · exact (Tracks.release addr).frees (zero_add _) (Tracks.pure rfl)
  refine (riakBinaryCopy_tracks from_.function).after ?_
  rintro (_ | function) _ rfl
  · exact (riakBinaryFree_tracks (some module)).frees (zero_add _)
      ((Tracks.release addr).frees (add_zero _).symm (Tracks.pure rfl))
  · refine Tracks.pure ?_
    show _ = blocks (some module) + (blocks (some function) + {addr})
    rw [blocks_some addr]
    show _ = _
    abel

theorem flat_call_over {call : RiakClient.BucketpropsSetter} (hflat : call.flat = true)
    (prop : RiakBucketprops) :
    call.call (prop.over prop.members) = prop.over <$> call.call prop.members := by
  cases call with
  | precommits | postcommits | chashKeyfun | linkfun | backend | searchIndex => cases hflat
  | _ => rfl

theorem BucketpropsSetter.call_tracks {call : BucketpropsSetter}
    {plainCall : RiakClient.BucketpropsSetter} (hplain : call.plain = some plainCall)
    (prop : RiakBucketprops) (lost : Multiset Addr) :
    Tracks (prop.made + lost) (call.call prop) RiakBucketprops.plain (plainCall.call prop.plain)
      fun prop after => ∃ lost, after = prop.made + lost := by
  cases call with
  | precommits precommit num =>
    cases hplain
    exact Tracks.pure ⟨lost, rfl⟩
  | postcommits postcommit num =>
    cases hplain
    exact Tracks.pure ⟨lost, rfl⟩
  | backend value =>
    obtain ⟨value, rfl, rfl⟩ := Option.map_eq_some_iff.mp hplain
    exact Tracks.pure ⟨lost, rfl⟩
  | searchIndex value =>
    obtain ⟨value, rfl, rfl⟩ := Option.map_eq_some_iff.mp hplain
    exact Tracks.pure ⟨lost, rfl⟩
  | chashKeyfun value =>
    cases hplain
    simp only [BucketpropsSetter.call, RiakClient.BucketpropsSetter.call,
      riakBucketpropsSetChashKeyfun, RiakClient.riakBucketpropsSetChashKeyfun, bind_assoc, pure_bind]
    refine (riakModfunDeepNew_tracks value).after ?_
    rintro copy _ rfl
    refine Tracks.pure ⟨blocks prop.chashKeyfun + lost, ?_⟩
    simp only [RiakBucketprops.made]
    abel
  | linkfun value =>
    cases hplain
    simp only [BucketpropsSetter.call, RiakClient.BucketpropsSetter.call,
      riakBucketpropsSetLinkfun, RiakClient.riakBucketpropsSetLinkfun, bind_assoc, pure_bind]
    refine (riakModfunDeepNew_tracks value).after ?_
    rintro copy _ rfl
    refine Tracks.pure ⟨blocks prop.linkfun + lost, ?_⟩
    simp only [RiakBucketprops.made]
    abel
  | member call hflat =>
    cases hplain
    have hover : plainCall.call prop.plain = plainCall.call prop.members >>= fun members =>
        pure (prop.over members) := by
      rw [← map_eq_pure_bind]
      exact flat_call_over hflat prop
    rw [hover]
    refine Tracks.lift_bind fun members _ _ _ => ?_
    exact Tracks.pure ⟨lost, rfl⟩

theorem bucketpropsAfter_tracks {calls : List BucketpropsSetter}
    {plainCalls : List RiakClient.BucketpropsSetter}
    (hplain : calls.map BucketpropsSetter.plain = plainCalls.map some) :
    Tracks 0 (bucketpropsAfter calls) RiakBucketprops.plain (RiakClient.bucketpropsAfter plainCalls)
      fun props after => ∃ lost, after = props.made + lost := by
  have hcalls : ∀ (calls : List BucketpropsSetter) (plainCalls : List RiakClient.BucketpropsSetter),
      calls.map BucketpropsSetter.plain = plainCalls.map some →
      ∀ (prop : RiakBucketprops) (lost : Multiset Addr), Tracks (prop.made + lost)
        (calls.foldlM (fun prop call => call.call prop) prop) RiakBucketprops.plain
        (plainCalls.foldlM (fun prop call => call.call prop) prop.plain)
        fun props after => ∃ lost, after = props.made + lost := by
    intro calls
    induction calls with
    | nil =>
      intro plainCalls hplain prop lost
      obtain rfl := List.map_eq_nil_iff.mp hplain.symm
      exact Tracks.pure ⟨lost, rfl⟩
    | cons call calls ih =>
      intro plainCalls hplain prop lost
      obtain ⟨plainCall, plainRest, rfl, hcall, hrest⟩ := List.map_eq_cons_iff.mp hplain.symm
      rw [List.foldlM_cons, List.foldlM_cons]
      refine (BucketpropsSetter.call_tracks hcall.symm prop lost).bind ?_
      rintro next _ ⟨lost', rfl⟩
      exact ih plainRest hrest.symm next lost'
  have hnew : Tracks 0 riakBucketpropsNew (Option.map RiakBucketprops.plain)
      RiakClient.riakBucketpropsNew fun p after => ∀ prop, p = some prop → after = prop.made := by
    refine structNew_tracks RiakBucketprops.plain (fun _ => rfl) ?_ ?_
    · intro prop hsome
      cases hsome
    · intro addr prop hsome
      obtain rfl := Option.some.inj hsome
      exact ((zero_add _).trans (zero_add _)).symm
  refine hnew.bind fun fresh after hfresh => ?_
  refine (Tracks.deref RiakBucketprops.plain fresh).bind ?_
  rintro prop _ ⟨rfl, rfl⟩
  have hmade := hcalls calls plainCalls hplain prop 0
  rwa [add_zero, ← hfresh prop rfl] at hmade

/-- **A program that owns what it gives** finds all of it, and what the setters made, live
    at the end. -/
theorem bucketpropsAfter_live {calls : List BucketpropsSetter}
    {plainCalls : List RiakClient.BucketpropsSetter}
    (hplain : calls.map BucketpropsSetter.plain = plainCalls.map some) {props : RiakBucketprops}
    (hrun : bucketpropsAfter calls l heap = .ok (some (props, l'), final))
    (hgiven : props.given ≤ l.live) : blocks props ≤ l'.live := by
  rcases bucketpropsAfter_tracks hplain l l.live heap (zero_add _).symm with
    ⟨fault, hfault, _⟩ | ⟨props', books, rest, _, hsame, _, hlive, lost, rfl⟩
  · rw [hrun] at hfault
    cases hfault
  · rw [hrun] at hsame
    cases hsame
    rw [RiakBucketprops.blocks_eq, hlive]
    exact add_le_add (Multiset.le_add_right _ _) hgiven

/-! ### Printing and freeing -/

/-- Properties can be printed, and freed from these books: freeing returns, leaves NULL,
    and takes off the books what the properties lead to, and nothing else. -/
structure RiakBucketprops.PrintsAndFrees (props : RiakBucketprops) (books : Ledger) : Prop where
  printed : props.plain.Prints
  freed : ∀ heap, ∃ rest, riakBucketpropsFree (some props) books heap =
      .ok (some (none, rest), heap) ∧ books.live = blocks props + rest.live

theorem RiakBucketprops.printsAndFrees_iff (props : RiakBucketprops) (books : Ledger) :
    props.PrintsAndFrees books ↔ props.plain.FunctionsSet ∧ blocks props ≤ books.live := by
  constructor
  · rintro ⟨_, hfreed⟩
    obtain ⟨rest, hfree, hlive⟩ := hfreed Heap.fresh
    obtain ⟨hset, _⟩ := (riakBucketpropsFree_frees props _ _ _ _ _).mp hfree
    exact ⟨hset, hlive ▸ Multiset.le_add_right _ _⟩
  · rintro ⟨hset, hlive⟩
    exact ⟨hset.prints, (riakBucketpropsFree_frees props).ends hset hlive⟩

theorem RiakBucketprops.HooksFrom.functionsSet_iff {props : RiakBucketprops}
    {calls : List BucketpropsSetter} (h : props.HooksFrom calls) : props.plain.FunctionsSet ↔
      props.chashKeyfun.isSome ∧ props.linkfun.isSome ∧
      HookFunctionsSet (precommitsAfter calls).2
        ((precommitsAfter calls).1.map HookArray.plain) ∧
      HookFunctionsSet (postcommitsAfter calls).2
        ((postcommitsAfter calls).1.map HookArray.plain) := by
  rw [← h.precommit, ← h.postcommit]
  constructor
  · rintro ⟨hchash, hlink, hpre, hpost⟩
    exact ⟨Option.isSome_map.symm.trans hchash, Option.isSome_map.symm.trans hlink, hpre, hpost⟩
  · rintro ⟨hchash, hlink, hpre, hpost⟩
    exact ⟨Option.isSome_map.trans hchash, Option.isSome_map.trans hlink, hpre, hpost⟩

/-- **Properties can be printed and freed** if and only if both of their functions are
    there, every hook that was set last has one, too, and all blocks are live when they
    are freed, each of them once. -/
theorem riak_bucketprops_printed_and_freed_iff {calls : List BucketpropsSetter}
    {props : RiakBucketprops}
    (hrun : bucketpropsAfter calls l heap = .ok (some (props, l'), final)) (books : Ledger) :
    props.PrintsAndFrees books ↔
      (props.chashKeyfun.isSome ∧ props.linkfun.isSome ∧
        HookFunctionsSet (precommitsAfter calls).2
          ((precommitsAfter calls).1.map HookArray.plain) ∧
        HookFunctionsSet (postcommitsAfter calls).2
          ((postcommitsAfter calls).1.map HookArray.plain)) ∧
      blocks props ≤ books.live := by
  rw [props.printsAndFrees_iff, (bucketpropsAfter_hooksFrom hrun).functionsSet_iff]

/-- Calls that set both functions. -/
def bothFunctions : List BucketpropsSetter :=
  [.chashKeyfun ⟨some ⟨[0x6d], true⟩, some ⟨[0x66], true⟩⟩,
    .linkfun ⟨some ⟨[0x6d], true⟩, some ⟨[0x67], true⟩⟩]

def binaryAt (addr : Addr) (data : Bytes) : RiakBinary := ⟨addr, none, data, false⟩

def hookAt (addr : Addr) : RiakCommitHook :=
  { addr := addr, modfun := some ⟨addr + 1, some (binaryAt (addr + 2) [0x6d]), none⟩ }

def hookWithoutFunction : RiakCommitHook :=
  { addr := 1, hasName := true, name := some (binaryAt 2 [0x6e]) }

/-- Six blocks that a program has when it starts. -/
def sixBlocks : Ledger := Ledger.blank.add.add.add.add.add.add

/-- Each of the six is given once: an array, a hook with its function, a backend and a
    search index. -/
def ownedCalls : List BucketpropsSetter :=
  bothFunctions ++ [.precommits (some ⟨0, [some (hookAt 1)]⟩) 1,
    .backend (some (binaryAt 4 [0x62])), .searchIndex (some (binaryAt 5 [0x69]))]

/-- The program that owns what it gives. -/
theorem riak_bucketprops_printed_and_freed_owned :
    ∃ props books, bucketpropsAfter ownedCalls sixBlocks Heap.fresh =
        .ok (some (props, books), Heap.fresh) ∧ props.PrintsAndFrees books := by
  refine ⟨_, _, rfl, (@riak_bucketprops_printed_and_freed_iff sixBlocks _ Heap.fresh Heap.fresh
    ownedCalls _ rfl _).mpr ⟨⟨rfl, rfl, ⟨by decide, ?_⟩, ⟨by decide, ?_⟩⟩, by decide⟩⟩
  · rintro (_ | i) hi
    · exact ⟨_, _, rfl, rfl, rfl⟩
    · exact absurd (show i + 1 < 1 from hi) (by omega)
  · intro i hi
    exact absurd hi (Nat.not_lt_zero i)

/-- Properties with only `n_val`, and ones whose hook has only a name: printing follows a
    NULL, and so does freeing. And one binary as backend and as search index is freed
    twice. -/
theorem riak_bucketprops_printed_without_function :
    (∃ props books, bucketpropsAfter [.member (.nVal 3) rfl] Ledger.blank Heap.fresh =
        .ok (some (props, books), Heap.fresh) ∧
      riakBucketpropsPrint props.plain (riakPrintInit (List.replicate 64 0) 64) Heap.fresh =
        .error .nullDereference ∧
      riakBucketpropsFree (some props) books Heap.fresh = .error .nullDereference) ∧
    (∃ props books, bucketpropsAfter
        (bothFunctions ++ [.precommits (some ⟨0, [some hookWithoutFunction]⟩) 1])
        sixBlocks Heap.fresh =
        .ok (some (props, books), Heap.fresh) ∧
      riakBucketpropsPrint props.plain (riakPrintInit (List.replicate 64 0) 64) Heap.fresh =
        .error .nullDereference ∧
      riakBucketpropsFree (some props) books Heap.fresh = .error .nullDereference) ∧
    (∃ props books, bucketpropsAfter
        (bothFunctions ++ [.backend (some (binaryAt 0 [0x62])),
          .searchIndex (some (binaryAt 0 [0x62]))]) sixBlocks Heap.fresh =
        .ok (some (props, books), Heap.fresh) ∧
      riakBucketpropsFree (some props) books Heap.fresh = .ok (none, Heap.fresh)) :=
  ⟨⟨_, _, rfl, rfl, rfl⟩, ⟨_, _, rfl, rfl, rfl⟩, ⟨_, _, rfl, rfl⟩⟩

/-- A program that owns what it gives, and gives every hook a function, can print the
    properties and free them if the two copies were made. -/
theorem riak_bucketprops_of_owner {calls : List BucketpropsSetter}
    {plainCalls : List RiakClient.BucketpropsSetter}
    (hplain : calls.map BucketpropsSetter.plain = plainCalls.map some) {props : RiakBucketprops}
    (hrun : bucketpropsAfter calls l heap = .ok (some (props, l'), final))
    (hgiven : props.given ≤ l.live) (hset : props.plain.FunctionsSet) :
    props.PrintsAndFrees l' :=
  (props.printsAndFrees_iff l').mpr ⟨hset, bucketpropsAfter_live hplain hrun hgiven⟩

end Stored

end RiakClient
