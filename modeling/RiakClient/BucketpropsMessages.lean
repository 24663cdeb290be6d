import RiakClient.Requests

/-!
# Bucket properties on their way to protobuf-c

Which of the structs that `riak_set_bucketprops_request_encode` hands to the
generated functions have been initialised. Only the `RpbBucketProps` itself goes
through its `__init`: a function comes from `malloc` as it is, and a hook is
filled with zeros.

The condition is stated on the properties and on the answers of the allocator, and
follows the copy: where hooks are copied, the array for them is asked for first, and
the copy that is refused it never comes to what is behind. No struct that the copy
does make is initialised, so the message is ready if and only if it makes none.
-/

namespace RiakClient

open CSem

variable {heap final : Heap}

/-! ### Initialised messages -/

def RpbCommitHook.Ready (hook : RpbCommitHook) : Prop :=
  hook.initialised = true ∧ ∀ modfun, hook.modfun = some modfun → modfun.initialised = true

/-- As many hooks as the count says, all of them initialised. -/
def HooksReady (hooks : Repeated RpbCommitHook) : Prop :=
  (hooks.items.getD []).length = hooks.count ∧ ∀ hook ∈ hooks.items.getD [], hook.Ready

/-- Every struct of the message is initialised. -/
structure RpbBucketProps.Ready (props : RpbBucketProps) : Prop where
  self : props.initialised = true
  precommit : HooksReady props.precommit
  postcommit : HooksReady props.postcommit
  chashKeyfun : ∀ modfun, props.chashKeyfun = some modfun → modfun.initialised = true
  linkfun : ∀ modfun, props.linkfun = some modfun → modfun.initialised = true

theorem hooksReady_empty : HooksReady {} := ⟨rfl, fun _ hmem => absurd hmem List.not_mem_nil⟩

/-! ### Which parts are copied -/

/-- Hooks are copied where both flags are up. -/
def HooksSent (hasHas : Bool) (has : RiakBoolean) : Prop := hasHas = true ∧ has ≠ 0

instance (hasHas : Bool) (has : RiakBoolean) : Decidable (HooksSent hasHas has) :=
  inferInstanceAs (Decidable (_ ∧ _))

/-- The array of pointers for the copies is asked for if there are hooks at all,
    even if there are none of them. -/
def arrayAsked (hasHas : Bool) (has : RiakBoolean) (hook : Option (List (Option RiakCommitHook))) :
    Bool :=
  decide (HooksSent hasHas has) && hook.isSome

/-- The heap behind this request. -/
def heapBehindArray (heap : Heap) (hasHas : Bool) (has : RiakBoolean)
    (hook : Option (List (Option RiakCommitHook))) : Heap :=
  if arrayAsked hasHas has hook then heap.after 1 else heap

/-- The array is refused, and the copy is given up. -/
def ArrayRefused (heap : Heap) (hasHas : Bool) (has : RiakBoolean)
    (hook : Option (List (Option RiakCommitHook))) : Prop :=
  arrayAsked hasHas has hook = true ∧ heap.answer 0 = false

def RiakBucketprops.heapBehindPrecommit (props : RiakBucketprops) (heap : Heap) : Heap :=
  heapBehindArray heap props.hasHasPrecommit props.hasPrecommit props.precommit

def RiakBucketprops.heapBehindPostcommit (props : RiakBucketprops) (heap : Heap) : Heap :=
  heapBehindArray (props.heapBehindPrecommit heap) props.hasHasPostcommit props.hasPostcommit
    props.postcommit

/-- No uninitialised struct is sent: the hooks that are copied are none, and no
    function is, unless the copy is given up before it comes to them. -/
def RiakBucketprops.SendsReady (props : RiakBucketprops) (heap : Heap) : Prop :=
  (HooksSent props.hasHasPrecommit props.hasPrecommit → props.nPrecommit = 0) ∧
  (ArrayRefused heap props.hasHasPrecommit props.hasPrecommit props.precommit ∨
    (HooksSent props.hasHasPostcommit props.hasPostcommit → props.nPostcommit = 0) ∧
    (ArrayRefused (props.heapBehindPrecommit heap) props.hasHasPostcommit props.hasPostcommit
        props.postcommit ∨
      (props.chashKeyfun = none ∧ props.linkfun = none) ∨
        (props.heapBehindPostcommit heap).answer 0 = false))

/-! ### Hooks

The struct of a hook is only zeroed. A loop that makes a hook makes no initialised
array; without an array the count has to be zero; and where no array is asked for
there is nothing to refuse. -/

theorem riakCommitHookCopyToPb_raw {hook : Option (List (Option RiakCommitHook))} {i : Nat}
    {pbhook : RpbCommitHook}
    (hrun : riakCommitHookCopyToPb hook i heap = .ok (some pbhook, final)) :
    pbhook.initialised = false := by
  obtain ⟨granted, heap₁, _, hgranted⟩ := C.bind_eq_ok.mp hrun
  cases granted with
  | false => cases hgranted
  | true =>
    obtain ⟨entry, heap₂, _, hentry⟩ := C.bind_eq_ok.mp hgranted
    obtain ⟨name, heap₃, _, hname⟩ := C.bind_eq_ok.mp hentry
    obtain ⟨⟨err, modfun⟩, heap₄, _, hlast⟩ := C.bind_eq_ok.mp hname
    by_cases herr : err = .ok
    · simp only [herr, if_true] at hlast
      cases hlast
      rfl
    · simp only [herr, if_false] at hlast
      cases hlast

/-- What copying one of the two arrays of hooks amounts to. -/
structure HooksCopied (hasHas : Bool) (has : RiakBoolean) (n : Nat)
    (hook : Option (List (Option RiakCommitHook))) (heap : Heap) (err : RiakError)
    (pbhooks : Repeated RpbCommitHook) (final : Heap) : Prop where
  ready_iff : HooksReady pbhooks ↔ (HooksSent hasHas has → n = 0)
  error_iff : HooksReady pbhooks → (err ≠ .ok ↔ ArrayRefused heap hasHas has hook)
  heap_eq : HooksReady pbhooks → final = heapBehindArray heap hasHas has hook

theorem not_hooksReady_of_rounds {hook : Option (List (Option RiakCommitHook))} {n : Nat}
    (hn : n ≠ 0) {items : List RpbCommitHook}
    (hrun : copyLoop (riakCommitHookCopyToPb hook) (n % 2 ^ 32) 0 heap =
      .ok (some items, final)) : ¬ HooksReady ⟨n, some items⟩ := by
  rintro ⟨hlength, hready⟩
  obtain ⟨hmade, _, hrounds⟩ := copyLoop_rounds _ 0 hrun
  have hcount : n % 2 ^ 32 = n := hmade.symm.trans hlength
  obtain ⟨heap₁, heap₂, item, hget, hround⟩ := hrounds 0 (by omega)
  have hfirst := (hready item (List.mem_of_getElem? hget)).1
  rw [riakCommitHookCopyToPb_raw hround] at hfirst
  cases hfirst

theorem copyHooksIf_sent {hasHas : Bool} {has : RiakBoolean} (h : HooksSent hasHas has) (n : Nat)
    (hook : Option (List (Option RiakCommitHook))) :
    copyHooksIf hasHas has n hook = (do
      let (err, pbhook) ← riakCommitHooksCopyToPb hook (UInt32.ofNat n)
      pure (err, 1, ⟨n, pbhook⟩)) :=
  if_pos h

theorem copyHooksIf_unsent {hasHas : Bool} {has : RiakBoolean} (h : ¬ HooksSent hasHas has)
    (n : Nat) (hook : Option (List (Option RiakCommitHook))) :
    copyHooksIf hasHas has n hook = pure (.ok, 0, {}) :=
  if_neg h

theorem HooksCopied.of_not_asked {hasHas : Bool} {has : RiakBoolean} {n : Nat}
    {hook : Option (List (Option RiakCommitHook))} {pbhooks : Repeated RpbCommitHook}
    (hasked : arrayAsked hasHas has hook = false)
    (hready : HooksReady pbhooks ↔ (HooksSent hasHas has → n = 0)) :
    HooksCopied hasHas has n hook heap .ok pbhooks heap where
  ready_iff := hready
  error_iff _ := by
    unfold ArrayRefused
    rw [hasked]
    exact ⟨fun h => absurd rfl h, fun h => absurd h.1 (by decide)⟩
  heap_eq _ := by
    unfold heapBehindArray
    rw [hasked]
    rfl

theorem hooksReady_null_iff (n : Nat) : HooksReady ⟨n, none⟩ ↔ n = 0 :=
  ⟨fun h => h.1.symm, fun h => ⟨h.symm, fun _ hmem => absurd hmem List.not_mem_nil⟩⟩

theorem HooksCopied.of_array {hasHas : Bool} {has : RiakBoolean} (hsent : HooksSent hasHas has)
    {n : Nat} {hook : List (Option RiakCommitHook)} {copied : Option (List RpbCommitHook)}
    (hrun : copyArray (n % 2 ^ 32) (riakCommitHookCopyToPb (some hook)) heap =
      .ok (copied, final)) :
    HooksCopied hasHas has n (some hook) heap (if copied.isSome then .ok else .outOfMemory)
      ⟨n, copied⟩ final := by
  have hasked : arrayAsked hasHas has (some hook) = true := by
    unfold arrayAsked
    rw [decide_eq_true hsent]
    rfl
  have hbehind : heapBehindArray heap hasHas has (some hook) = heap.after 1 := by
    unfold heapBehindArray
    rw [hasked, if_pos rfl]
  unfold copyArray at hrun
  rw [C.bind_of_ok (C.allocate_eq heap)] at hrun
  cases hanswer : heap.answer 0 with
  | false =>
    rw [hanswer] at hrun
    cases hrun
    refine ⟨(hooksReady_null_iff n).trans ⟨fun h _ => h, fun h => h hsent⟩, fun _ => ?_,
      fun _ => hbehind.symm⟩
    exact ⟨fun _ => ⟨hasked, hanswer⟩, fun _ => nofun⟩
  | true =>
    rw [hanswer, if_pos rfl] at hrun
    by_cases hn : n = 0
    · subst hn
      cases hrun
      refine ⟨⟨fun _ _ => rfl, fun _ => ⟨rfl, fun _ hmem => absurd hmem List.not_mem_nil⟩⟩,
        fun _ => ⟨fun h => absurd rfl h, fun h => ?_⟩, fun _ => hbehind.symm⟩
      exact absurd (hanswer.symm.trans h.2) (by decide)
    · have hraw : ¬ HooksReady ⟨n, copied⟩ := by
        cases copied with
        | none => exact fun h => hn ((hooksReady_null_iff n).mp h)
        | some items => exact not_hooksReady_of_rounds hn hrun
      exact ⟨⟨fun h => absurd h hraw, fun h => absurd (h hsent) hn⟩, fun h => absurd h hraw,
        fun h => absurd h hraw⟩

theorem copyHooksIf_copied {hasHas : Bool} {has has' : RiakBoolean} {n : Nat}
    {hook : Option (List (Option RiakCommitHook))} {err : RiakError}
    {pbhooks : Repeated RpbCommitHook}
    (hrun : copyHooksIf hasHas has n hook heap = .ok ((err, has', pbhooks), final)) :
    HooksCopied hasHas has n hook heap err pbhooks final := by
  by_cases hsent : HooksSent hasHas has
  · rw [copyHooksIf_sent hsent] at hrun
    obtain ⟨⟨err', copied⟩, heap₁, hcopy, hlast⟩ := C.bind_eq_ok.mp hrun
    cases hlast
    cases hook with
    | none =>
      cases hcopy
      refine .of_not_asked (Bool.and_false _) ?_
      exact (hooksReady_null_iff n).trans ⟨fun h _ => h, fun h => h hsent⟩
    | some hook =>
      unfold riakCommitHooksCopyToPb at hcopy
      rw [if_neg (show ¬ (some hook).isNone = true by simp)] at hcopy
      obtain ⟨array, heap₂, harray, hresult⟩ := C.bind_eq_ok.mp hcopy
      rw [UInt32.toNat_ofNat'] at harray
      cases array with
      | none =>
        cases hresult
        exact .of_array hsent harray
      | some items =>
        cases hresult
        exact .of_array hsent harray
  · rw [copyHooksIf_unsent hsent] at hrun
    cases hrun
    refine .of_not_asked ?_ ⟨fun _ h => absurd h hsent, fun _ => hooksReady_empty⟩
    unfold arrayAsked
    rw [decide_eq_false hsent]
    rfl

/-! ### Functions -/

/-- A function that is copied is not initialised, and one that is refused is not
    there. -/
theorem riakModfunCopyToPb_cases {modfun : Option RiakModfun} {err : RiakError}
    {pbmodFun : Option RpbModFun}
    (hrun : riakModfunCopyToPb modfun heap = .ok ((err, pbmodFun), final)) :
    (modfun = none ∧ err = .ok ∧ pbmodFun = none ∧ final = heap) ∨
      (modfun.isSome ∧ heap.answer 0 = true ∧ err = .ok ∧
        ∃ copy, pbmodFun = some copy ∧ copy.initialised = false) ∨
      (modfun.isSome ∧ heap.answer 0 = false ∧ err ≠ .ok ∧ pbmodFun = none) := by
  cases modfun with
  | none =>
    cases hrun
    exact Or.inl ⟨rfl, rfl, rfl, rfl⟩
  | some modfun =>
    rw [riakModfunCopyToPb, C.bind_of_ok (C.allocate_eq heap)] at hrun
    cases hanswer : heap.answer 0 with
    | false =>
      rw [hanswer] at hrun
      cases hrun
      exact Or.inr (Or.inr ⟨rfl, rfl, nofun, rfl⟩)
    | true =>
      rw [hanswer, if_pos rfl] at hrun
      obtain ⟨module, heap₁, _, hmodule⟩ := C.bind_eq_ok.mp hrun
      obtain ⟨function, heap₂, _, hfunction⟩ := C.bind_eq_ok.mp hmodule
      cases hfunction
      exact Or.inr (Or.inl ⟨rfl, rfl, rfl, _, rfl, rfl⟩)

/-- The message as far as its functions. -/
def RpbBucketProps.HooksDone (props : RpbBucketProps) : Prop :=
  props.initialised = true ∧ HooksReady props.precommit ∧ HooksReady props.postcommit

theorem RpbBucketProps.ready_iff_hooksDone {props : RpbBucketProps}
    (hchash : props.chashKeyfun = none) (hlink : props.linkfun = none) :
    props.Ready ↔ props.HooksDone := by
  refine ⟨fun h => ⟨h.self, h.precommit, h.postcommit⟩, fun h => ⟨h.1, h.2.1, h.2.2, ?_, ?_⟩⟩
  · rw [hchash]
    exact nofun
  · rw [hlink]
    exact nofun

/-- The two functions of a copy are fine if there are none, or if the first one
    that is there is refused. -/
theorem bucketpropsFunctions_ready_iff {to_ to' : RpbBucketProps} {from_ : RiakBucketprops}
    {err : RiakError} (hlinkfun : to_.linkfun = none)
    (hrun : bucketpropsFunctions to_ from_ heap = .ok ((err, to'), final)) :
    to'.Ready ↔ to_.HooksDone ∧
      ((from_.chashKeyfun = none ∧ from_.linkfun = none) ∨ heap.answer 0 = false) := by
  unfold bucketpropsFunctions at hrun
  obtain ⟨⟨err', chashKeyfun⟩, heap₁, hchash, hrest⟩ := C.bind_eq_ok.mp hrun
  rcases riakModfunCopyToPb_cases hchash with ⟨hnull, rfl, rfl, rfl⟩ |
    ⟨hset, hanswer, rfl, copy, rfl, hraw⟩ | ⟨hset, hanswer, herr, rfl⟩
  · simp only [ne_eq, not_true_eq_false, if_false] at hrest
    obtain ⟨⟨err', linkfun⟩, heap₂, hlink, hlast⟩ := C.bind_eq_ok.mp hrest
    cases hlast
    rcases riakModfunCopyToPb_cases hlink with ⟨hnull', rfl, rfl, rfl⟩ |
      ⟨hset, hanswer, rfl, copy, rfl, hraw⟩ | ⟨hset, hanswer, herr, rfl⟩
    · apply (RpbBucketProps.ready_iff_hooksDone rfl rfl).trans
      exact ⟨fun h => ⟨h, Or.inl ⟨hnull, hnull'⟩⟩, fun h => h.1⟩
    · constructor
      · intro h
        exact absurd (hraw.symm.trans (h.linkfun copy rfl)) (by decide)
      · rintro ⟨_, ⟨_, hnull'⟩ | hrefused⟩
        · rw [hnull'] at hset
          cases hset
        · exact absurd (hanswer.symm.trans hrefused) (by decide)
    · apply (RpbBucketProps.ready_iff_hooksDone rfl rfl).trans
      exact ⟨fun h => ⟨h, Or.inr hanswer⟩, fun h => h.1⟩
  · simp only [ne_eq, not_true_eq_false, if_false] at hrest
    obtain ⟨⟨err', linkfun⟩, heap₂, _, hlast⟩ := C.bind_eq_ok.mp hrest
    cases hlast
    constructor
    · intro h
      exact absurd (hraw.symm.trans (h.chashKeyfun copy rfl)) (by decide)
    · rintro ⟨_, ⟨hnull, _⟩ | hrefused⟩
      · rw [hnull] at hset
        cases hset
      · exact absurd (hanswer.symm.trans hrefused) (by decide)
  · simp only [ne_eq, herr, not_false_eq_true, if_true] at hrest
    cases hrest
    refine (RpbBucketProps.ready_iff_hooksDone ?_ ?_).trans ?_
    · rfl
    · exact hlinkfun
    · exact ⟨fun h => ⟨h, Or.inr hanswer⟩, fun h => h.1⟩

theorem bucketpropsScalars_eq_ok {to_ to' : RpbBucketProps} {from_ : RiakBucketprops}
    (hrun : bucketpropsScalars to_ from_ heap = .ok (to', final)) :
    final = heap ∧ (to'.HooksDone ↔ to_.HooksDone) ∧ to'.linkfun = to_.linkfun := by
  unfold bucketpropsScalars at hrun
  obtain ⟨backend, heap₁, hbackend, hrest⟩ := C.bind_eq_ok.mp hrun
  obtain ⟨searchIndex, heap₂, hsearchIndex, hlast⟩ := C.bind_eq_ok.mp hrest
  obtain ⟨rfl, _⟩ := copyToPbIf_eq_ok.mp hbackend
  obtain ⟨rfl, _⟩ := copyToPbIf_eq_ok.mp hsearchIndex
  cases hlast
  exact ⟨rfl, Iff.rfl, rfl⟩

/-! ### The whole message -/

theorem riakBucketpropsToPbCopy_ready_iff {props : RiakBucketprops} {err : RiakError}
    {pbprops : RpbBucketProps}
    (hrun : riakBucketpropsToPbCopy props heap = .ok ((err, pbprops), final)) :
    pbprops.Ready ↔ props.SendsReady heap := by
  unfold riakBucketpropsToPbCopy at hrun
  obtain ⟨⟨errPre, has, precommit⟩, heap₁, hpre, hrest⟩ := C.bind_eq_ok.mp hrun
  have copiedPre := copyHooksIf_copied hpre
  unfold RiakBucketprops.SendsReady RiakBucketprops.heapBehindPostcommit
    RiakBucketprops.heapBehindPrecommit
  by_cases herrPre : errPre = .ok
  · subst herrPre
    simp only [ne_eq, not_true_eq_false, if_false] at hrest
    obtain ⟨⟨errPost, has', postcommit⟩, heap₂, hpost, hlast⟩ := C.bind_eq_ok.mp hrest
    have copiedPost := copyHooksIf_copied hpost
    by_cases herrPost : errPost = .ok
    · subst herrPost
      simp only [not_true_eq_false, if_false] at hlast
      obtain ⟨to', heap₃, hscalars, hfunctions⟩ := C.bind_eq_ok.mp hlast
      obtain ⟨rfl, hdone, hlinkfun⟩ := bucketpropsScalars_eq_ok hscalars
      rw [bucketpropsFunctions_ready_iff hlinkfun hfunctions, hdone]
      constructor
      · rintro ⟨⟨_, hreadyPre, hreadyPost⟩, hfree⟩
        rw [← copiedPre.heap_eq hreadyPre, ← copiedPost.heap_eq hreadyPost]
        exact ⟨copiedPre.ready_iff.mp hreadyPre,
          Or.inr ⟨copiedPost.ready_iff.mp hreadyPost, Or.inr hfree⟩⟩
      · rintro ⟨hnonePre, hlater⟩
        have hreadyPre := copiedPre.ready_iff.mpr hnonePre
        rw [← copiedPre.heap_eq hreadyPre] at hlater
        obtain ⟨hnonePost, hfree⟩ := hlater.resolve_left fun hrefused =>
          (copiedPre.error_iff hreadyPre).mpr hrefused rfl
        have hreadyPost := copiedPost.ready_iff.mpr hnonePost
        rw [← copiedPost.heap_eq hreadyPost] at hfree
        exact ⟨⟨rfl, hreadyPre, hreadyPost⟩, hfree.resolve_left fun hrefused =>
          (copiedPost.error_iff hreadyPost).mpr hrefused rfl⟩
    · -- the copy of the postcommit hooks failed, and there are no functions yet
      simp only [herrPost, not_false_eq_true, if_true] at hlast
      cases hlast
      rw [RpbBucketProps.ready_iff_hooksDone rfl rfl]
      constructor
      · rintro ⟨_, hreadyPre, hreadyPost⟩
        rw [← copiedPre.heap_eq hreadyPre]
        exact ⟨copiedPre.ready_iff.mp hreadyPre, Or.inr ⟨copiedPost.ready_iff.mp hreadyPost,
          Or.inl ((copiedPost.error_iff hreadyPost).mp herrPost)⟩⟩
      · rintro ⟨hnonePre, hlater⟩
        have hreadyPre := copiedPre.ready_iff.mpr hnonePre
        obtain ⟨hnonePost, _⟩ := hlater.resolve_left fun hrefused =>
          (copiedPre.error_iff hreadyPre).mpr hrefused rfl
        exact ⟨rfl, hreadyPre, copiedPost.ready_iff.mpr hnonePost⟩
  · simp only [ne_eq, herrPre, not_false_eq_true, if_true] at hrest
    cases hrest
    rw [RpbBucketProps.ready_iff_hooksDone rfl rfl]
    constructor
    · rintro ⟨_, hreadyPre, _⟩
      exact ⟨copiedPre.ready_iff.mp hreadyPre,
        Or.inl ((copiedPre.error_iff hreadyPre).mp herrPre)⟩
    · rintro ⟨hnonePre, _⟩
      exact ⟨rfl, copiedPre.ready_iff.mpr hnonePre, hooksReady_empty⟩

/-- With memory for everything, nothing is given up. -/
theorem RiakBucketprops.sendsReady_iff_of_ample (h : heap.Ample) (props : RiakBucketprops) :
    props.SendsReady heap ↔
      (HooksSent props.hasHasPrecommit props.hasPrecommit → props.nPrecommit = 0) ∧
      (HooksSent props.hasHasPostcommit props.hasPostcommit → props.nPostcommit = 0) ∧
      props.chashKeyfun = none ∧ props.linkfun = none := by
  have hbehind : ∀ {heap : Heap}, heap.Ample → ∀ hasHas has hook,
      (heapBehindArray heap hasHas has hook).Ample ∧ ¬ ArrayRefused heap hasHas has hook := by
    intro heap h hasHas has hook
    refine ⟨?_, fun hrefused => ?_⟩
    · unfold heapBehindArray
      split
      · show List.drop 1 heap.outcomes = []
        rw [show heap.outcomes = [] from h, List.drop_nil]
      · exact h
    · exact absurd ((h.grants 1 0 Nat.one_pos).symm.trans hrefused.2) (by decide)
  obtain ⟨hpre, hkeptPre⟩ := hbehind h props.hasHasPrecommit props.hasPrecommit props.precommit
  obtain ⟨hpost, hkeptPost⟩ :=
    hbehind hpre props.hasHasPostcommit props.hasPostcommit props.postcommit
  have hgranted : (props.heapBehindPostcommit heap).answer 0 ≠ false := by
    have hanswer : (props.heapBehindPostcommit heap).answer 0 = true :=
      Heap.Ample.grants hpost 1 0 Nat.one_pos
    rw [hanswer]
    decide
  constructor
  · rintro ⟨hnonePre, hlater⟩
    obtain ⟨hnonePost, hfree⟩ := hlater.resolve_left hkeptPre
    exact ⟨hnonePre, hnonePost, (hfree.resolve_left hkeptPost).resolve_right hgranted⟩
  · rintro ⟨hnonePre, hnonePost, hfree⟩
    exact ⟨hnonePre, Or.inr ⟨hnonePost, Or.inr (Or.inl hfree)⟩⟩

/-- **Bucket properties are sent initialised** if and only if none of the hooks
    and functions that are copied is there. -/
theorem riak_set_bucketprops_initialised_iff {bucketType bucket : Option RiakBinary}
    {props : RiakBucketprops} {setmsg : RpbSetBucketReq}
    (hrun : riakSetBucketpropsRequestMsg bucketType bucket (some props) heap =
      .ok (setmsg, final)) :
    setmsg.props.Ready ↔ props.SendsReady heap := by
  unfold riakSetBucketpropsRequestMsg at hrun
  obtain ⟨type, heap₁, htype, hrest⟩ := C.bind_eq_ok.mp hrun
  obtain ⟨bucketBytes, heap₂, hbucket, hrest'⟩ := C.bind_eq_ok.mp hrest
  obtain ⟨rfl, _⟩ := copyToPbIf_eq_ok.mp htype
  rw [C.deref_some, pure_bind] at hrest'
  obtain ⟨⟨err, pbprops⟩, heap₃, hcopy, hlast⟩ := C.bind_eq_ok.mp hrest'
  cases hlast
  obtain ⟨b, _, _, rfl⟩ := riakBinaryCopyToPb_eq_ok.mp hbucket
  exact riakBucketpropsToPbCopy_ready_iff hcopy

/-- Only `n_val` is set. -/
theorem riak_set_bucketprops_initialised_n_val :
    ∃ setmsg : RpbSetBucketReq,
      riakSetBucketpropsRequestMsg none (some ⟨[0x62], true⟩)
          (some { hasNVal := true, nVal := 3 }) Heap.fresh = .ok (setmsg, Heap.fresh) ∧
        (setmsg.props.Ready ↔
          ({ hasNVal := true, nVal := 3 } : RiakBucketprops).SendsReady Heap.fresh) :=
  ⟨_, rfl, @riak_set_bucketprops_initialised_iff Heap.fresh Heap.fresh none
    (some ⟨[0x62], true⟩) { hasNVal := true, nVal := 3 } _ rfl⟩

/-- A function, and a hook with a name only: the first comes as garbage from
    `malloc`, the second filled with zeros. -/
theorem riak_set_bucketprops_uninitialised :
    (∃ setmsg final, riakSetBucketpropsRequestMsg none (some ⟨[0x62], true⟩)
        (some { linkfun := some ⟨some ⟨[0x6d], true⟩, some ⟨[0x66], true⟩⟩ }) Heap.fresh =
        .ok (setmsg, final) ∧
      setmsg.props.linkfun = some ⟨false, [0x6d], [0x66]⟩ ∧ ¬ setmsg.props.Ready) ∧
    (∃ setmsg final, riakSetBucketpropsRequestMsg none (some ⟨[0x62], true⟩)
        (some { hasHasPrecommit := true, hasPrecommit := 1, nPrecommit := 1
                precommit := some [some { hasName := true, name := some ⟨[0x6e], true⟩ }] })
        Heap.fresh = .ok (setmsg, final) ∧
      setmsg.props.precommit.items = some [⟨false, none, true, [0x6e]⟩] ∧
      ¬ setmsg.props.Ready) := by
  refine ⟨⟨_, _, rfl, rfl, ?_⟩, ⟨_, _, rfl, rfl, ?_⟩⟩
  · intro h
    exact absurd (h.linkfun _ rfl) (by decide)
  · intro h
    exact absurd (h.precommit.2 _ List.mem_cons_self).1 (by decide)

end RiakClient
