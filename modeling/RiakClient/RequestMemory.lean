import RiakClient.BucketpropsDecode
import RiakClient.BucketpropsMessages
import RiakClient.Put
import RiakClient.ResponseMemory

/-!
# Put and bucket property requests without memory

`riak_object_to_pb_copy` and `riak_bucketprops_to_pb_copy` say when they were refused
memory, and the two encoders above them do not listen. This module says which messages
protobuf-c is handed then, and when an encoder only reports success for a request with
everything in it.
-/

namespace RiakClient

open CSem

variable {α β μ ρ : Type} {heap final : Heap}

/-! ### What is asked of an encoder -/

/-- A repeated member that counts entries, and has no array of them. -/
def Repeated.CountsNull (r : Repeated α) : Prop := 0 < r.count ∧ r.items = none

def RpbContent.CountsNull (content : RpbContent) : Prop :=
  content.indexes.CountsNull ∨ content.usermeta.CountsNull ∨ content.links.CountsNull

def RpbBucketProps.CountsNull (props : RpbBucketProps) : Prop :=
  props.precommit.CountsNull ∨ props.postcommit.CountsNull

/-- The encoder comes back, from a message without such a member. If it reports success,
    its request is that message, and the message has everything. -/
def SentWhole (pack : μ → Bytes) (CountsNull Whole : μ → Prop) (message : C μ)
    (encode : C (RiakError × RiakOperation ρ)) (heap : Heap) : Prop :=
  ∃ m rest err rop final, message heap = .ok (m, rest) ∧ ¬ CountsNull m ∧
    encode heap = .ok ((err, rop), final) ∧
    (err = .ok → Whole m ∧ ∃ request, rop.pbRequest = some request ∧ request.data = pack m)

theorem repeatedOf_not_countsNull (items : List α) : ¬ (repeatedOf items).CountsNull := by
  unfold repeatedOf
  cases items with
  | nil => exact fun h => absurd h.1 (Nat.lt_irrefl 0)
  | cons item items => exact fun h => Option.some_ne_none _ h.2

theorem ObjectContent.encoded_not_countsNull (c : ObjectContent) : ¬ c.encoded.CountsNull := by
  rintro (hindexes | husermeta | hlinks)
  · exact repeatedOf_not_countsNull _ hindexes
  · exact repeatedOf_not_countsNull _ husermeta
  · exact repeatedOf_not_countsNull _ hlinks

/-! ### The end of an encoder -/

/-- No buffer, a message that is longer than its length says, no struct for the request,
    or a request. -/
theorem riakPackRequest_cases (rop : RiakOperation ρ) (msgid : UInt8) (packed : Bytes)
    (decoder : RiakResponseDecoder) (noBuffer : RiakError) (heap : Heap) :
    heap.answer 0 = false ∧ riakPackRequest rop msgid (packedSize32 packed) packed decoder
        noBuffer heap = .ok ((noBuffer, rop), heap.after 1) ∨
      heap.answer 0 = true ∧ 2 ^ 32 ≤ packed.length ∧
        riakPackRequest rop msgid (packedSize32 packed) packed decoder noBuffer heap =
          .error .outOfBounds ∨
      heap.answer 0 = true ∧ packed.length < 2 ^ 32 ∧
        (heap.answer 1 = false ∧ riakPackRequest rop msgid (packedSize32 packed) packed decoder
            noBuffer heap = .ok ((.outOfMemory, rop), heap.after 2) ∨
          heap.answer 1 = true ∧ riakPackRequest rop msgid (packedSize32 packed) packed decoder
            noBuffer heap = .ok ((.ok, { rop with
              pbRequest := some ⟨msgid, UInt32.ofNat packed.length, packed⟩
              decoder := some decoder }), heap.after 2)) := by
  unfold riakPackRequest riakPbMessageNew packedSize32
  rw [C.bind_of_ok (C.allocate_eq heap)]
  cases heap.answer 0 with
  | false => exact Or.inl ⟨rfl, rfl⟩
  | true =>
    rw [if_pos rfl]
    by_cases hlength : packed.length < 2 ^ 32
    · rw [Nat.mod_eq_of_lt hlength, if_neg (Nat.lt_irrefl _), C.bind_of_ok (C.new_eq _ _),
        Heap.answer_after, Heap.after_after]
      refine Or.inr (Or.inr ⟨rfl, hlength, ?_⟩)
      cases heap.answer (1 + 0) with
      | false => exact Or.inl ⟨rfl, rfl⟩
      | true => exact Or.inr ⟨rfl, rfl⟩
    · have hlarge : packed.length % 2 ^ 32 < packed.length := by
        have hmod := Nat.mod_lt packed.length (show 0 < 2 ^ 32 by decide)
        omega
      rw [if_pos hlarge]
      exact Or.inr (Or.inl ⟨rfl, Nat.not_lt.mp hlength, rfl⟩)

/-- A message that can be packed is sent, if it is shorter than 4 GiB and nothing is
    refused. -/
theorem sentWhole_iff {pack : μ → Bytes} {CountsNull Whole : μ → Prop} {message : C μ}
    {walk : μ → C Unit} {rop : RiakOperation ρ} {msgid : UInt8} {decoder : RiakResponseDecoder}
    {noBuffer : RiakError} {m : μ} {rest : Heap} (hmessage : message heap = .ok (m, rest))
    (hcounts : ¬ CountsNull m) (hwalk : walk m = pure ()) (hbuffer : noBuffer ≠ .ok) :
    SentWhole pack CountsNull Whole message
        (message >>= fun m => walk m >>= fun _ =>
          riakPackRequest rop msgid (packedSize32 (pack m)) (pack m) decoder noBuffer) heap ↔
      (rest.answer 0 = true → (pack m).length < 2 ^ 32) ∧ (rest.Grants 2 → Whole m) := by
  unfold SentWhole
  rw [C.bind_of_ok hmessage, hwalk, pure_bind, Heap.grants_succ, Heap.grants_succ,
    Heap.answer_after, and_iff_left (Heap.grants_zero _)]
  constructor
  · rintro ⟨m', rest', err, rop', final, hm, _, hencode, hsuccess⟩
    rw [hmessage] at hm
    cases hm
    rcases riakPackRequest_cases rop msgid (pack m) decoder noBuffer rest with
      ⟨hrefused, _⟩ | ⟨_, _, hrun⟩ | ⟨hgranted, hlength, ⟨hrefused, _⟩ | ⟨_, hrun⟩⟩
    · rw [hrefused]
      exact ⟨by rintro ⟨⟩, by rintro ⟨⟨⟩, _⟩⟩
    · rw [hrun] at hencode
      cases hencode
    · refine ⟨fun _ => hlength, fun hboth => ?_⟩
      rw [hrefused] at hboth
      cases hboth.2
    · rw [hrun] at hencode
      cases hencode
      exact ⟨fun _ => hlength, fun _ => (hsuccess rfl).1⟩
  · rintro ⟨hfits, hwhole⟩
    rcases riakPackRequest_cases rop msgid (pack m) decoder noBuffer rest with
      ⟨_, hrun⟩ | ⟨hgranted, hlarge, _⟩ | ⟨hgranted, _, ⟨_, hrun⟩ | ⟨hboth, hrun⟩⟩
    · exact ⟨m, rest, _, _, _, hmessage, hcounts, hrun, fun h => absurd h hbuffer⟩
    · exact absurd (hfits hgranted) (Nat.not_lt.mpr hlarge)
    · refine ⟨m, rest, _, _, _, hmessage, hcounts, hrun, ?_⟩
      rintro ⟨⟩
    · exact ⟨m, rest, _, _, _, hmessage, hcounts, hrun,
        fun _ => ⟨hwhole ⟨hgranted, hboth⟩, _, rfl, rfl⟩⟩

/-! ### The arrays of an object

A member whose array could not be copied has been counted before, so where one array
cannot be copied protobuf-c is handed its count and NULL. -/

/-- The array of pointers and one struct for each entry. -/
def arrayRequests (n : Int) : Nat := if 0 < n then 1 + n.toNat else 0

def RiakObject.requests (obj : RiakObject) : Nat :=
  arrayRequests obj.nIndexes + (arrayRequests obj.nUsermeta + arrayRequests obj.nLinks)

theorem riakPairCopyToPb_settles {slots : List (Option RiakPair)} {i : Nat} {pair : RiakPair}
    (hslot : slots[i]? = some (some pair)) (hpair : pair.Complete) :
    Settles (fun item => item.isSome = true) (riakPairCopyToPb (some slots) i) 1
      (some pair.content.encoded) := by
  unfold riakPairCopyToPb
  refine Settles.ask (k := 0) ?_ fun heap => ⟨_, _, rfl, Bool.false_ne_true⟩
  simp only [if_true, entryAt_of_set hslot, pure_bind, riakBinaryCopyToPb_of_data hpair.1,
    copyToPbIf_of_flagged hpair.2]
  simp only [RiakPair.content, PairContent.encoded, flaggedBytes_isSome hpair.2]
  exact .pure _

theorem riakLinkCopyToPb_settles {slots : List (Option RiakLink)} {i : Nat} {link : RiakLink}
    (hslot : slots[i]? = some (some link)) (hlink : link.Complete) :
    Settles (fun item => item.isSome = true) (riakLinkCopyToPb (some slots) i) 1
      (some link.content.encoded) := by
  obtain ⟨hbucket, hkey, htag⟩ := hlink
  unfold riakLinkCopyToPb
  refine Settles.ask (k := 0) ?_ fun heap => ⟨_, _, rfl, Bool.false_ne_true⟩
  simp only [if_true, entryAt_of_set hslot, pure_bind, copyToPbIf_of_flagged hbucket,
    copyToPbIf_of_flagged hkey, copyToPbIf_of_flagged htag]
  simp only [RiakLink.content, LinkContent.encoded, flaggedBytes_isSome hbucket,
    flaggedBytes_isSome hkey, flaggedBytes_isSome htag]
  exact .pure _

theorem copyRepeated_settles {n : Int} {array : Option (List (Option α))} {ok : α → Prop}
    (hset : EntriesSet n array ok) {copy : Option (List (Option α)) → Nat → C (Option β)}
    (encode : α → β)
    (hcopy : ∀ slots i entry, slots[i]? = some (some entry) → ok entry →
      Settles (fun item => item.isSome = true) (copy (some slots) i) 1 (some (encode entry))) :
    Settles (fun result => ¬ (result.1 ≠ .ok ∧ result.2.CountsNull))
      (copyRepeated n .ok fun count => copyArray count (copy array)) (arrayRequests n)
      (.ok, repeatedOf ((firstEntries n array).map encode)) := by
  obtain ⟨hlength, hentries⟩ := hset.entries
  have hbound := hset.bound
  unfold copyRepeated arrayRequests repeatedOf
  by_cases hn : 0 < n
  · have hne : ((firstEntries n array).map encode).isEmpty = false :=
      isEmpty_map_of_pos encode (by omega)
    have hloop : Settles (fun items => items.isSome = true)
        (copyLoop (copy array) (firstEntries n array).length 0)
        ((firstEntries n array).map fun _ => 1).sum (some ((firstEntries n array).map encode)) := by
      apply copyLoop_settles _ _ (by omega)
      intro j entry hentry
      obtain ⟨slots, harray, hslot, hok⟩ := hentries j entry hentry
      rw [harray, Nat.zero_add]
      exact hcopy slots j entry hslot hok
    rw [List.map_const', List.sum_replicate_nat, Nat.mul_one, hlength] at hloop
    rw [if_pos ⟨hn, rfl⟩, if_pos hn, hne, List.length_map, hlength]
    unfold copyArray
    refine Settles.bind_some (k := 0) (Settles.ask hloop ?_) (.pure _) ?_
    · exact fun heap => ⟨_, _, rfl, Bool.false_ne_true⟩
    · refine fun heap => ⟨_, _, rfl, fun h => h ⟨?_, ?_, rfl⟩⟩
      · rintro ⟨⟩
      · show 0 < n.toNat
        omega
  · have hnil : firstEntries n array = [] := List.length_eq_zero_iff.mp (by omega)
    rw [if_neg (by simp [hn]), if_neg hn, hnil]
    exact .pure _

theorem copyRepeated_of_error {n : Int} {err : RiakError} (herr : err ≠ .ok)
    (copy : Nat → C (Option (List β))) : copyRepeated n err copy = pure (err, {}) :=
  if_neg fun hboth => herr hboth.2

theorem riakObjectToPbCopy_settles {obj : RiakObject} (hobj : obj.HasContent) :
    Settles (fun result => ¬ result.2.CountsNull) (riakObjectToPbCopy obj) obj.requests
      (.ok, obj.content.encoded) := by
  have hindexes := copyRepeated_settles hobj.indexes
    (fun pair : RiakPair => pair.content.encoded)
    (fun _ _ _ hslot hpair => riakPairCopyToPb_settles hslot hpair)
  have husermeta := copyRepeated_settles hobj.usermeta
    (fun pair : RiakPair => pair.content.encoded)
    (fun _ _ _ hslot hpair => riakPairCopyToPb_settles hslot hpair)
  have hlinks := copyRepeated_settles hobj.links
    (fun link : RiakLink => link.content.encoded)
    (fun _ _ _ hslot hlink => riakLinkCopyToPb_settles hslot hlink)
  unfold riakObjectToPbCopy riakPairsCopyToPb riakLinksCopyToPb RiakObject.requests
  simp only [riakBinaryCopyToPb_of_data hobj.value, copyToPbIf_of_flagged hobj.charset,
    copyToPbIf_of_flagged hobj.encoding, copyToPbIf_of_flagged hobj.contentType,
    copyToPbIf_of_flagged hobj.vtag, pure_bind]
  refine hindexes.bind (husermeta.bind (hlinks.bind (k := 0) ?_ ?_) ?_) ?_
  · simp only [RiakObject.content, ObjectContent.encoded, flagged_isSome, flagged_getD_zero,
      flaggedBytes_isSome hobj.charset, flaggedBytes_isSome hobj.encoding,
      flaggedBytes_isSome hobj.contentType, flaggedBytes_isSome hobj.vtag, List.map_map,
      Function.comp_def]
    exact .pure _
  · rintro ⟨err, links⟩ heap hfailed
    refine ⟨_, _, rfl, fun h => h (Or.inr (Or.inr ?_))⟩
    exact (Classical.not_not.mp hfailed).2
  · rintro ⟨err, usermeta⟩ heap hfailed
    obtain ⟨herr, hnull⟩ := Classical.not_not.mp hfailed
    simp only
    rw [copyRepeated_of_error herr, pure_bind]
    exact ⟨_, _, rfl, fun h => h (Or.inr (Or.inl hnull))⟩
  · rintro ⟨err, indexes⟩ heap hfailed
    obtain ⟨herr, hnull⟩ := Classical.not_not.mp hfailed
    simp only
    rw [copyRepeated_of_error herr, pure_bind]
    simp only
    rw [copyRepeated_of_error herr, pure_bind]
    exact ⟨_, _, rfl, fun h => h (Or.inl hnull)⟩

/-! ### Puts -/

/-- The message of a put that got all its memory. -/
def RiakObject.putReq (obj : RiakObject) (options : Option RiakPutOptions) : RpbPutReq :=
  let o := options.getD {}
  { bucket := (obj.bucket.map RiakBinary.data).getD []
    hasKey := obj.hasKey, key := (flaggedBytes obj.hasKey obj.key).getD []
    hasVclock := o.hasVclock, vclock := (flaggedBytes o.hasVclock o.vclock).getD []
    content := obj.content.encoded
    hasW := o.hasW, w := assignIf o.hasW o.w
    hasDw := o.hasDw, dw := assignIf o.hasDw o.dw
    hasReturnBody := o.hasReturnBody, returnBody := assignIf o.hasReturnBody o.returnBody
    hasPw := o.hasPw, pw := assignIf o.hasPw o.pw
    hasIfNotModified := o.hasIfNotModified
    hasIfNoneMatch := o.hasIfNoneMatch
    hasReturnHead := o.hasReturnHead, returnHead := assignIf o.hasReturnHead o.returnHead
    hasTimeout := o.hasTimeout, timeout := assignIf o.hasTimeout o.timeout
    hasAsis := o.hasAsis, asis := assignIf o.hasAsis o.asis
    hasSloppyQuorum := o.hasSloppyQuorum
    sloppyQuorum := assignIf o.hasSloppyQuorum o.sloppyQuorum
    hasNVal := o.hasNVal, nVal := assignIf o.hasNVal o.nVal
    hasType := obj.hasBucketType
    type := (flaggedBytes obj.hasBucketType obj.bucketType).getD [] }

theorem riakPutRequestMsg_settles {obj : RiakObject} (hobj : obj.Complete)
    {options : Option RiakPutOptions}
    (hvclock : (options.getD {}).hasVclock = true → (options.getD {}).vclock.isSome) :
    Settles (fun m => ¬ m.content.CountsNull) (riakPutRequestMsg obj options) obj.requests
      (obj.putReq options) := by
  unfold riakPutRequestMsg
  rw [riakBinaryCopyToPb_of_data hobj.bucket, pure_bind, copyToPbIf_of_flagged hobj.bucketType,
    pure_bind, copyToPbIf_of_flagged hobj.key, pure_bind]
  refine (riakObjectToPbCopy_settles hobj.hasContent).bind (k := 0) ?_ ?_
  · simp only [copyToPbIf_of_flagged hvclock, pure_bind]
    exact .pure _
  · intro result heap hfailed
    simp only [copyToPbIf_of_flagged hvclock, pure_bind]
    exact ⟨_, _, rfl, hfailed⟩

theorem riakPutRequestEncode_sentWhole_iff {obj : RiakObject} (hobj : obj.Complete)
    {options : Option RiakPutOptions}
    (hvclock : (options.getD {}).hasVclock = true → (options.getD {}).vclock.isSome)
    (pack : RpbPutReq → Bytes) (rop : RiakOperation ρ) (heap : Heap) :
    SentWhole pack (fun m => m.content.CountsNull) (fun m => m.content.content = obj.content)
        (riakPutRequestMsg obj options) (riakPutRequestEncode pack rop obj options) heap ↔
      heap.Grants obj.requests ∧ ((heap.after obj.requests).answer 0 = true →
        (pack (obj.putReq options)).length < 2 ^ 32) := by
  have hmessage := riakPutRequestMsg_settles hobj hvclock
  by_cases hgrants : heap.Grants obj.requests
  · rw [and_iff_right hgrants]
    have hwhole : (heap.after obj.requests).Grants 2 →
        (obj.putReq options).content.content = obj.content :=
      fun _ => hobj.hasContent.encoded_content
    refine Iff.trans ?_ (and_iff_left hwhole)
    apply sentWhole_iff (hmessage.granted heap hgrants) obj.content.encoded_not_countsNull
      obj.content.encoded_walk
    rintro ⟨⟩
  · refine ⟨?_, fun h => absurd h.1 hgrants⟩
    rintro ⟨m, rest, err, rop', final, hm, hcounts, _⟩
    obtain ⟨m', rest', hm', hnull⟩ := hmessage.refused heap hgrants
    rw [hm] at hm'
    cases hm'
    exact absurd hcounts hnull

/-! ### What is left of bucket properties

The copy of bucket properties is given up at the first refusal. Hooks and functions that
are copied cannot be packed (`RiakBucketprops.SendsReady`); this leaves the refusal of an
array of hooks that has no entries, and of the first function. Which of them it is follows
from the properties and from what the allocator answers, and so does what is left out: the
members behind that place that are set. -/

instance (heap : Heap) (hasHas : Bool) (has : RiakBoolean)
    (hook : Option (List (Option RiakCommitHook))) :
    Decidable (ArrayRefused heap hasHas has hook) :=
  inferInstanceAs (Decidable (_ ∧ _))

def RiakBucketprops.throughPrecommit (props : RiakBucketprops) : RiakBucketprops where
  hasNVal := props.hasNVal
  nVal := props.nVal
  hasAllowMult := props.hasAllowMult
  allowMult := props.allowMult
  hasLastWriteWins := props.hasLastWriteWins
  lastWriteWins := props.lastWriteWins
  hasHasPrecommit := props.hasHasPrecommit
  hasPrecommit := props.hasPrecommit
  nPrecommit := props.nPrecommit
  precommit := props.precommit

def RiakBucketprops.throughPostcommit (props : RiakBucketprops) : RiakBucketprops :=
  { props.throughPrecommit with
    hasHasPostcommit := props.hasHasPostcommit
    hasPostcommit := props.hasPostcommit
    nPostcommit := props.nPostcommit
    postcommit := props.postcommit }

/-- Where the copy of bucket properties is given up, if nothing is copied that would
    have to be initialised. -/
inductive CopyEnd where
  | precommit
  | postcommit
  | function
  | nowhere
deriving DecidableEq, Repr

/-- The first array of hooks that is refused, or the first function, which is the one
    that is refused if there is any. -/
def RiakBucketprops.copyEnd (props : RiakBucketprops) (heap : Heap) : CopyEnd :=
  if ArrayRefused heap props.hasHasPrecommit props.hasPrecommit props.precommit then .precommit
  else if ArrayRefused (props.heapBehindPrecommit heap) props.hasHasPostcommit props.hasPostcommit
      props.postcommit then .postcommit
  else if props.chashKeyfun = none ∧ props.linkfun = none then .nowhere
  else .function

/-- The properties in front of that place. -/
def RiakBucketprops.upTo (props : RiakBucketprops) : CopyEnd → RiakBucketprops
  | .precommit => props.throughPrecommit
  | .postcommit => props.throughPostcommit
  | .function | .nowhere => { props with chashKeyfun := none, linkfun := none }

/-- One of the members is set that are copied behind the hooks. -/
def RiakBucketprops.setsLater (props : RiakBucketprops) : Bool :=
  props.hasOldVclock || props.hasYoungVclock || props.hasBigVclock || props.hasSmallVclock ||
  props.hasPr || props.hasR || props.hasW || props.hasPw || props.hasDw || props.hasRw ||
  props.hasBasicQuorum || props.hasNotfoundOk || props.hasBackend || props.hasSearch ||
  props.hasRepl || props.hasSearchIndex || props.chashKeyfun.isSome || props.linkfun.isSome

/-- One of the members is set that are copied behind this place. -/
def RiakBucketprops.setsBehind (props : RiakBucketprops) : CopyEnd → Bool
  | .precommit => props.hasHasPostcommit || props.setsLater
  | .postcommit => props.setsLater
  | .function => true
  | .nowhere => false

/-- The heap behind the copy. -/
def RiakBucketprops.heapBehind (props : RiakBucketprops) (heap : Heap) : Heap :=
  match props.copyEnd heap with
  | .precommit => props.heapBehindPrecommit heap
  | .postcommit | .nowhere => props.heapBehindPostcommit heap
  | .function => (props.heapBehindPostcommit heap).after 1

/-- The hooks of a message, if there are none of them. -/
def hooksArray (heap : Heap) (hasHas : Bool) (has : RiakBoolean)
    (hook : Option (List (Option RiakCommitHook))) : Repeated RpbCommitHook :=
  ⟨0, if arrayAsked hasHas has hook ∧ heap.answer 0 then some [] else none⟩

def RiakBucketprops.encoded (props : RiakBucketprops) (heap : Heap) : RpbBucketProps where
  initialised := true
  hasNVal := props.hasNVal
  nVal := assignIf props.hasNVal props.nVal
  hasAllowMult := props.hasAllowMult
  allowMult := assignIf props.hasAllowMult props.allowMult
  hasLastWriteWins := props.hasLastWriteWins
  lastWriteWins := assignIf props.hasLastWriteWins props.lastWriteWins
  hasHasPrecommit := props.hasHasPrecommit
  hasPrecommit := if HooksSent props.hasHasPrecommit props.hasPrecommit then 1 else 0
  precommit := hooksArray heap props.hasHasPrecommit props.hasPrecommit props.precommit
  hasHasPostcommit := props.hasHasPostcommit
  hasPostcommit := if HooksSent props.hasHasPostcommit props.hasPostcommit then 1 else 0
  postcommit := hooksArray (props.heapBehindPrecommit heap) props.hasHasPostcommit
    props.hasPostcommit props.postcommit
  hasOldVclock := props.hasOldVclock
  oldVclock := assignIf props.hasOldVclock props.oldVclock
  hasYoungVclock := props.hasYoungVclock
  youngVclock := assignIf props.hasYoungVclock props.youngVclock
  hasBigVclock := props.hasBigVclock
  bigVclock := assignIf props.hasBigVclock props.bigVclock
  hasSmallVclock := props.hasSmallVclock
  smallVclock := assignIf props.hasSmallVclock props.smallVclock
  hasPr := props.hasPr
  pr := assignIf props.hasPr props.pr
  hasR := props.hasR
  r := assignIf props.hasR props.r
  hasW := props.hasW
  w := assignIf props.hasW props.w
  hasPw := props.hasPw
  pw := assignIf props.hasPw props.pw
  hasDw := props.hasDw
  dw := assignIf props.hasDw props.dw
  hasRw := props.hasRw
  rw := assignIf props.hasRw props.rw
  hasBasicQuorum := props.hasBasicQuorum
  basicQuorum := assignIf props.hasBasicQuorum props.basicQuorum
  hasNotfoundOk := props.hasNotfoundOk
  notfoundOk := assignIf props.hasNotfoundOk props.notfoundOk
  hasBackend := props.hasBackend
  backend := (flaggedBytes props.hasBackend props.backend).getD []
  hasSearch := props.hasSearch
  search := assignIf props.hasSearch props.search
  hasRepl := props.hasRepl
  repl := assignIf props.hasRepl props.repl
  hasSearchIndex := props.hasSearchIndex
  searchIndex := (flaggedBytes props.hasSearchIndex props.searchIndex).getD []

/-- What a message of these properties has to say: hooks are part of it where both of
    their flags are up. -/
def RiakBucketprops.announced (props : RiakBucketprops) : Properties :=
  { props.properties with
    hasPrecommit := flagged props.hasHasPrecommit
      (if HooksSent props.hasHasPrecommit props.hasPrecommit then 1 else 0)
    precommit := if HooksSent props.hasHasPrecommit props.hasPrecommit then
      props.properties.precommit else []
    hasPostcommit := flagged props.hasHasPostcommit
      (if HooksSent props.hasHasPostcommit props.hasPostcommit then 1 else 0)
    postcommit := if HooksSent props.hasHasPostcommit props.hasPostcommit then
      props.properties.postcommit else [] }

/-! ### Copying bucket properties

Under `SendsReady` no struct is copied that would have to be initialised, and the copy
comes to the properties in front of the place where it is given up (`copyEnd`,
`upTo`). A message of properties without hooks and functions says everything that they
announce, and the members behind the place are left out without loss if and only if
none of them is set. -/

theorem copyHooksIf_of_none {hasHas : Bool} {has : RiakBoolean} {n : Nat}
    (hnone : HooksSent hasHas has → n = 0) (hook : Option (List (Option RiakCommitHook)))
    (heap : Heap) :
    copyHooksIf hasHas has n hook heap =
      .ok ((if ArrayRefused heap hasHas has hook then .outOfMemory else .ok,
        if HooksSent hasHas has then 1 else 0, hooksArray heap hasHas has hook),
        heapBehindArray heap hasHas has hook) := by
  unfold ArrayRefused hooksArray heapBehindArray arrayAsked
  by_cases hsent : HooksSent hasHas has
  · rw [copyHooksIf_sent hsent, hnone hsent]
    simp only [hsent, decide_true, Bool.true_and, if_true]
    cases hook with
    | none => rfl
    | some hook =>
      show (copyArray 0 (riakCommitHookCopyToPb (some hook)) >>= _ >>= _) heap = _
      unfold copyArray
      rw [bind_assoc, bind_assoc, C.bind_of_ok (C.allocate_eq heap)]
      cases heap.answer 0 with
      | false => rfl
      | true => rfl
  · rw [copyHooksIf_unsent hsent]
    simp only [hsent, decide_false, Bool.false_and, Bool.false_eq_true, false_and, if_false]
    rfl

theorem bucketpropsScalars_of_backed {props : RiakBucketprops} (h : props.Backed)
    (to_ : RpbBucketProps) (heap final : Heap) :
    bucketpropsScalars to_ props final = .ok ({ props.encoded heap with
      initialised := to_.initialised
      hasNVal := to_.hasNVal, nVal := to_.nVal
      hasAllowMult := to_.hasAllowMult, allowMult := to_.allowMult
      hasLastWriteWins := to_.hasLastWriteWins, lastWriteWins := to_.lastWriteWins
      hasHasPrecommit := to_.hasHasPrecommit, hasPrecommit := to_.hasPrecommit
      precommit := to_.precommit
      hasHasPostcommit := to_.hasHasPostcommit, hasPostcommit := to_.hasPostcommit
      postcommit := to_.postcommit
      chashKeyfun := to_.chashKeyfun, linkfun := to_.linkfun }, final) := by
  unfold bucketpropsScalars
  rw [copyToPbIf_of_flagged h.backend, pure_bind, copyToPbIf_of_flagged h.searchIndex, pure_bind]
  rfl

theorem bucketpropsFunctions_of_free {from_ : RiakBucketprops}
    (hfree : (from_.chashKeyfun = none ∧ from_.linkfun = none) ∨ heap.answer 0 = false)
    (to_ : RpbBucketProps) (hlinkfun : to_.linkfun = none) :
    ∃ err, bucketpropsFunctions to_ from_ heap = .ok ((err, { to_ with chashKeyfun := none }),
      if from_.chashKeyfun = none ∧ from_.linkfun = none then heap else heap.after 1) := by
  unfold bucketpropsFunctions
  cases hchash : from_.chashKeyfun with
  | none =>
    cases hlink : from_.linkfun with
    | none =>
      rw [if_pos ⟨rfl, rfl⟩]
      obtain ⟨⟩ := to_
      obtain rfl := hlinkfun
      exact ⟨_, rfl⟩
    | some linkfun =>
      have hrefused : heap.answer 0 = false := by
        rcases hfree with ⟨_, hnone⟩ | hrefused
        · rw [hlink] at hnone
          cases hnone
        · exact hrefused
      rw [if_neg (by rintro ⟨_, ⟨⟩⟩), riakModfunCopyToPb, pure_bind]
      simp only [ne_eq, not_true_eq_false, if_false]
      rw [riakModfunCopyToPb, bind_assoc, C.bind_of_ok (C.allocate_eq heap), hrefused]
      obtain ⟨⟩ := to_
      obtain rfl := hlinkfun
      exact ⟨_, rfl⟩
  | some chashKeyfun =>
    have hrefused : heap.answer 0 = false := by
      rcases hfree with ⟨hnone, _⟩ | hrefused
      · rw [hchash] at hnone
        cases hnone
      · exact hrefused
    rw [if_neg (by rintro ⟨⟨⟩, _⟩), riakModfunCopyToPb, bind_assoc,
      C.bind_of_ok (C.allocate_eq heap), hrefused]
    exact ⟨_, rfl⟩

theorem riakBucketpropsToPbCopy_of_ready {props : RiakBucketprops} (hready : props.SendsReady heap)
    (hbacked : props.Backed) :
    ∃ err, riakBucketpropsToPbCopy props heap =
      .ok ((err, (props.upTo (props.copyEnd heap)).encoded heap), props.heapBehind heap) := by
  obtain ⟨hpre, hlater⟩ := hready
  unfold riakBucketpropsToPbCopy RiakBucketprops.heapBehind
  rw [C.bind_of_ok (copyHooksIf_of_none hpre props.precommit heap)]
  by_cases hrefused : ArrayRefused heap props.hasHasPrecommit props.hasPrecommit props.precommit
  · have hend : props.copyEnd heap = .precommit := if_pos hrefused
    rw [if_pos hrefused, hend]
    exact ⟨_, rfl⟩
  · obtain ⟨hpost, hfunctions⟩ := hlater.resolve_left hrefused
    have hcopy := copyHooksIf_of_none hpost props.postcommit (props.heapBehindPrecommit heap)
    rw [if_neg hrefused]
    show ∃ err, (copyHooksIf _ _ _ _ >>= _) (props.heapBehindPrecommit heap) = _
    rw [C.bind_of_ok hcopy]
    by_cases hrefused' : ArrayRefused (props.heapBehindPrecommit heap) props.hasHasPostcommit
        props.hasPostcommit props.postcommit
    · have hend : props.copyEnd heap = .postcommit :=
        (if_neg hrefused).trans (if_pos hrefused')
      rw [if_pos hrefused', hend]
      exact ⟨_, rfl⟩
    · have hfree := hfunctions.resolve_left hrefused'
      rw [if_neg hrefused']
      show ∃ err, (bucketpropsScalars _ props >>= _) (props.heapBehindPostcommit heap) = _
      rw [C.bind_of_ok (bucketpropsScalars_of_backed hbacked _ heap _)]
      obtain ⟨err, hrun⟩ := bucketpropsFunctions_of_free hfree (props.encoded heap) rfl
      by_cases hnone : props.chashKeyfun = none ∧ props.linkfun = none
      · have hend : props.copyEnd heap = .nowhere :=
          (if_neg hrefused).trans ((if_neg hrefused').trans (if_pos hnone))
        rw [if_pos hnone] at hrun
        rw [hend]
        exact ⟨err, hrun⟩
      · have hend : props.copyEnd heap = .function :=
          (if_neg hrefused).trans ((if_neg hrefused').trans (if_neg hnone))
        rw [if_neg hnone] at hrun
        rw [hend]
        exact ⟨err, hrun⟩

theorem hooksArray_entries (heap : Heap) (hasHas : Bool) (has : RiakBoolean)
    (hook : Option (List (Option RiakCommitHook))) :
    (hooksArray heap hasHas has hook).entries = [] := by
  unfold hooksArray Repeated.entries
  rw [List.take_zero]

theorem RiakBucketprops.encoded_properties (props : RiakBucketprops)
    (hpre : HooksSent props.hasHasPrecommit props.hasPrecommit → props.nPrecommit = 0)
    (hpost : HooksSent props.hasHasPostcommit props.hasPostcommit → props.nPostcommit = 0)
    (hbackend : props.hasBackend = true → props.backend.isSome)
    (hsearchIndex : props.hasSearchIndex = true → props.searchIndex.isSome)
    (hchash : props.chashKeyfun = none) (hlink : props.linkfun = none) (heap : Heap) :
    (props.encoded heap).properties = props.announced := by
  have hooks : ∀ {hasHas : Bool} {has : RiakBoolean} {n : Nat}
      {hook : Option (List (Option RiakCommitHook))}, (HooksSent hasHas has → n = 0) →
      (if HooksSent hasHas has then (firstEntries n hook).map RiakCommitHook.content else []) =
        [] := by
    intro hasHas has n hook hnone
    split
    · next hsent =>
      rw [hnone hsent]
      rfl
    · rfl
  unfold RpbBucketProps.properties RiakBucketprops.announced RiakBucketprops.properties
    RiakBucketprops.encoded
  simp only [flagged_assignIf, flagged_flaggedBytes hbackend, flagged_flaggedBytes hsearchIndex,
    hooksArray_entries, List.map_nil, hooks hpre, hooks hpost, hchash, hlink, Option.map_none]

theorem RiakBucketprops.SendsReady.copied_properties {props : RiakBucketprops}
    (hready : props.SendsReady heap) (hbacked : props.Backed) :
    ((props.upTo (props.copyEnd heap)).encoded heap).properties =
      (props.upTo (props.copyEnd heap)).announced := by
  obtain ⟨hpre, hlater⟩ := hready
  unfold RiakBucketprops.copyEnd
  by_cases hrefused : ArrayRefused heap props.hasHasPrecommit props.hasPrecommit props.precommit
  · rw [if_pos hrefused]
    apply props.throughPrecommit.encoded_properties hpre _ _ _ rfl rfl heap
    · rintro ⟨⟨⟩, _⟩
    · rintro ⟨⟩
    · rintro ⟨⟩
  · obtain ⟨hpost, _⟩ := hlater.resolve_left hrefused
    rw [if_neg hrefused]
    by_cases hrefused' : ArrayRefused (props.heapBehindPrecommit heap) props.hasHasPostcommit
        props.hasPostcommit props.postcommit
    · rw [if_pos hrefused']
      apply props.throughPostcommit.encoded_properties hpre hpost _ _ rfl rfl heap
      · rintro ⟨⟩
      · rintro ⟨⟩
    · have hothers : ({ props with chashKeyfun := none, linkfun := none }.encoded heap).properties =
          { props with chashKeyfun := none, linkfun := none }.announced :=
        RiakBucketprops.encoded_properties { props with chashKeyfun := none, linkfun := none }
          hpre hpost hbacked.backend hbacked.searchIndex rfl rfl heap
      rw [if_neg hrefused']
      split <;> exact hothers

theorem flagged_false (value : α) : flagged false value = none := rfl

theorem none_eq_flagged {has : Bool} {value : α} : none = flagged has value ↔ has = false := by
  unfold flagged
  cases has with
  | false => exact ⟨fun _ => rfl, fun _ => rfl⟩
  | true => exact ⟨nofun, nofun⟩

theorem none_eq_flaggedBytes {has : Bool} {bin : Option RiakBinary}
    (hbacked : has = true → bin.isSome) : none = flaggedBytes has bin ↔ has = false := by
  cases has with
  | false => exact ⟨fun _ => rfl, fun _ => rfl⟩
  | true =>
    obtain ⟨b, rfl⟩ := Option.isSome_iff_exists.mp (hbacked rfl)
    exact ⟨nofun, nofun⟩

theorem none_eq_map {f : α → β} {value : Option α} :
    none = value.map f ↔ value.isSome = false := by
  cases value with
  | none => exact ⟨fun _ => rfl, fun _ => rfl⟩
  | some _ => exact ⟨nofun, nofun⟩

theorem RiakBucketprops.announced_throughPostcommit_iff {props : RiakBucketprops}
    (hbacked : props.Backed) :
    props.throughPostcommit.announced = props.announced ↔ props.setsLater = false := by
  have hnoBytes : flaggedBytes false none = none := rfl
  simp only [announced, properties, throughPostcommit, throughPrecommit, setsLater,
    Properties.mk.injEq, flagged_false, hnoBytes, none_eq_flagged,
    none_eq_flaggedBytes hbacked.backend, none_eq_flaggedBytes hbacked.searchIndex,
    Option.map_none, none_eq_map, Bool.or_eq_false_iff, true_and]
  tauto

theorem RiakBucketprops.announced_throughPrecommit_iff {props : RiakBucketprops}
    (hbacked : props.Backed) : props.throughPrecommit.announced = props.announced ↔
      (props.hasHasPostcommit || props.setsLater) = false := by
  cases hhas : props.hasHasPostcommit with
  | false =>
    have hunsent : ∀ has, ¬ HooksSent false has := fun has h => absurd h.1 Bool.false_ne_true
    have hsame : props.throughPrecommit.announced = props.throughPostcommit.announced := by
      simp only [announced, properties, throughPostcommit, throughPrecommit, hhas, hunsent,
        if_false, flagged_false]
      rfl
    rw [hsame, Bool.false_or]
    exact RiakBucketprops.announced_throughPostcommit_iff hbacked
  | true =>
    rw [Bool.true_or]
    refine ⟨fun hsame => ?_, fun hset => absurd hset.symm Bool.false_ne_true⟩
    have hflag : none = flagged props.hasHasPostcommit _ := congrArg Properties.hasPostcommit hsame
    rw [none_eq_flagged, hhas] at hflag
    exact hflag

theorem RiakBucketprops.copyEnd_function {props : RiakBucketprops}
    (h : props.copyEnd heap = .function) :
    ¬ (props.chashKeyfun = none ∧ props.linkfun = none) := by
  unfold copyEnd at h
  split at h
  · cases h
  · split at h
    · cases h
    · split at h
      · cases h
      · assumption

theorem RiakBucketprops.copyEnd_nowhere {props : RiakBucketprops}
    (h : props.copyEnd heap = .nowhere) : props.chashKeyfun = none ∧ props.linkfun = none := by
  unfold copyEnd at h
  split at h
  · cases h
  · split at h
    · cases h
    · split at h
      · assumption
      · cases h

/-- Nothing has been left out if and only if nothing is set behind the place where the
    copy is given up. -/
theorem RiakBucketprops.announced_upTo_iff {props : RiakBucketprops} (hbacked : props.Backed)
    (heap : Heap) : (props.upTo (props.copyEnd heap)).announced = props.announced ↔
      props.setsBehind (props.copyEnd heap) = false := by
  cases hend : props.copyEnd heap with
  | precommit => exact RiakBucketprops.announced_throughPrecommit_iff hbacked
  | postcommit => exact RiakBucketprops.announced_throughPostcommit_iff hbacked
  | function =>
    refine ⟨fun hsame => absurd ?_ (RiakBucketprops.copyEnd_function hend), nofun⟩
    have hchash : none = props.chashKeyfun.map _ := congrArg Properties.chashKeyfun hsame
    have hlink : none = props.linkfun.map _ := congrArg Properties.linkfun hsame
    rw [none_eq_map, Option.isSome_eq_false_iff, Option.isNone_iff_eq_none] at hchash hlink
    exact ⟨hchash, hlink⟩
  | nowhere =>
    refine ⟨fun _ => rfl, fun _ => ?_⟩
    obtain ⟨hchash, hlink⟩ := RiakBucketprops.copyEnd_nowhere hend
    obtain ⟨⟩ := props
    obtain rfl := hchash
    obtain rfl := hlink
    rfl

/-! ### Packing bucket properties

Conversely, hooks that protobuf-c gets through are initialised, as many as are
counted; they are not touched any more behind their copies, which are no more than the
hooks. So a copy that protobuf-c gets through is initialised. -/

theorem hooksArray_walk (heap : Heap) (hasHas : Bool) (has : RiakBoolean)
    (hook : Option (List (Option RiakCommitHook))) :
    walkHooks (hooksArray heap hasHas has hook) = pure () := by
  unfold hooksArray
  split
  · rfl
  · rfl

theorem RiakBucketprops.encoded_walk (props : RiakBucketprops) (heap : Heap) :
    (props.encoded heap).walk = pure () := by
  unfold RpbBucketProps.walk RiakBucketprops.encoded
  simp only [hooksArray_walk, pure_bind]
  rfl

theorem RiakBucketprops.encoded_not_countsNull (props : RiakBucketprops) (heap : Heap) :
    ¬ (props.encoded heap).CountsNull := by
  rintro (⟨hpos, _⟩ | ⟨hpos, _⟩)
  · exact Nat.lt_irrefl 0 hpos
  · exact Nat.lt_irrefl 0 hpos

theorem RpbModFun.walk_eq_ok {modfun : RpbModFun} (hrun : modfun.walk heap = .ok ((), final)) :
    modfun.initialised = true := by
  unfold RpbModFun.walk at hrun
  split at hrun
  · assumption
  · cases hrun

theorem walkModFun_eq_ok {modfun : Option RpbModFun}
    (hrun : walkModFun modfun heap = .ok ((), final)) :
    ∀ found, modfun = some found → found.initialised = true := by
  rintro found rfl
  exact RpbModFun.walk_eq_ok hrun

theorem RpbCommitHook.walk_eq_ok {hook : RpbCommitHook}
    (hrun : hook.walk heap = .ok ((), final)) : hook.Ready := by
  unfold RpbCommitHook.walk at hrun
  split at hrun
  · next hinitialised =>
    refine ⟨hinitialised, fun modfun hmodfun => ?_⟩
    rw [hmodfun] at hrun
    exact RpbModFun.walk_eq_ok hrun
  · cases hrun

theorem forM_walk_eq_ok : ∀ {hooks : List RpbCommitHook} {heap final : Heap},
    hooks.forM RpbCommitHook.walk heap = .ok ((), final) → ∀ hook ∈ hooks, hook.Ready := by
  intro hooks
  induction hooks with
  | nil => exact fun _ hook hmem => absurd hmem List.not_mem_nil
  | cons first hooks ih =>
    intro heap final hrun hook hmem
    change (first.walk >>= fun _ => hooks.forM RpbCommitHook.walk) heap = _ at hrun
    obtain ⟨_, heap₁, hfirst, hrest⟩ := C.bind_eq_ok.mp hrun
    rcases List.mem_cons.mp hmem with rfl | hlater
    · exact RpbCommitHook.walk_eq_ok hfirst
    · exact ih hrest hook hlater

theorem walkHooks_eq_ok {hooks : Repeated RpbCommitHook}
    (hroom : (hooks.items.getD []).length ≤ hooks.count)
    (hrun : walkHooks hooks heap = .ok ((), final)) : HooksReady hooks := by
  obtain ⟨count, items⟩ := hooks
  obtain ⟨_, heap₁, harray, hrest⟩ := C.bind_eq_ok.mp hrun
  unfold Repeated.walk at harray
  cases items with
  | none =>
    simp only at harray
    split at harray
    · next hzero => exact (hooksReady_null_iff count).mpr hzero
    · cases harray
  | some items =>
    simp only at harray
    split at harray
    · next hcount =>
      have hlength : items.length = count := Nat.le_antisymm hroom hcount
      refine ⟨hlength, ?_⟩
      simp only [← hlength, Option.getD_some, List.take_length] at hrest
      exact forM_walk_eq_ok hrest
    · cases harray

theorem copyHooksIf_room {hasHas : Bool} {has has' : RiakBoolean} {n : Nat}
    {hook : Option (List (Option RiakCommitHook))} {err : RiakError}
    {pbhooks : Repeated RpbCommitHook}
    (hrun : copyHooksIf hasHas has n hook heap = .ok ((err, has', pbhooks), final)) :
    (pbhooks.items.getD []).length ≤ pbhooks.count := by
  by_cases hsent : HooksSent hasHas has
  · rw [copyHooksIf_sent hsent] at hrun
    obtain ⟨⟨err', copied⟩, heap₁, hcopy, hlast⟩ := C.bind_eq_ok.mp hrun
    cases hlast
    cases copied with
    | none => exact Nat.zero_le _
    | some items =>
      unfold riakCommitHooksCopyToPb copyArray at hcopy
      split at hcopy
      · cases hcopy
      · obtain ⟨array, heap₂, harray, hresult⟩ := C.bind_eq_ok.mp hcopy
        obtain ⟨granted, heap₃, _, hloop⟩ := C.bind_eq_ok.mp harray
        cases granted with
        | false =>
          cases hloop
          cases hresult
        | true =>
          cases array with
          | none => cases hresult
          | some made =>
            cases hresult
            obtain ⟨hmade, _⟩ := copyLoop_rounds _ 0 hloop
            rw [UInt32.toNat_ofNat'] at hmade
            show items.length ≤ n
            rw [hmade]
            exact Nat.mod_le _ _
  · rw [copyHooksIf_unsent hsent] at hrun
    cases hrun
    exact Nat.zero_le _

theorem bucketprops_hooks_kept {to_ to' : RpbBucketProps} {from_ : RiakBucketprops}
    {err : RiakError} (hrun : (bucketpropsScalars to_ from_ >>= fun to_ =>
      bucketpropsFunctions to_ from_) heap = .ok ((err, to'), final)) :
    to'.initialised = to_.initialised ∧ to'.precommit = to_.precommit ∧
      to'.postcommit = to_.postcommit := by
  obtain ⟨scalars, heap₁, hscalars, hfunctions⟩ := C.bind_eq_ok.mp hrun
  obtain ⟨backend, heap₂, _, hrest⟩ := C.bind_eq_ok.mp hscalars
  obtain ⟨searchIndex, heap₃, _, hlast⟩ := C.bind_eq_ok.mp hrest
  cases hlast
  obtain ⟨⟨errChash, chashKeyfun⟩, heap₄, _, hlink⟩ := C.bind_eq_ok.mp hfunctions
  by_cases herr : errChash = .ok
  · simp only [herr, ne_eq, not_true_eq_false, if_false] at hlink
    obtain ⟨⟨errLink, linkfun⟩, heap₅, _, hdone⟩ := C.bind_eq_ok.mp hlink
    cases hdone
    exact ⟨rfl, rfl, rfl⟩
  · simp only [herr, ne_eq, not_false_eq_true, if_true] at hlink
    cases hlink
    exact ⟨rfl, rfl, rfl⟩

theorem riakBucketpropsToPbCopy_walked {props : RiakBucketprops} {err : RiakError}
    {pbprops : RpbBucketProps} {rest : Heap}
    (hrun : riakBucketpropsToPbCopy props heap = .ok ((err, pbprops), rest))
    (hwalk : pbprops.walk rest = .ok ((), final)) : pbprops.Ready := by
  have hcopied : pbprops.initialised = true ∧
      (pbprops.precommit.items.getD []).length ≤ pbprops.precommit.count ∧
      (pbprops.postcommit.items.getD []).length ≤ pbprops.postcommit.count := by
    unfold riakBucketpropsToPbCopy at hrun
    obtain ⟨⟨errPre, has, precommit⟩, heap₁, hpre, hlater⟩ := C.bind_eq_ok.mp hrun
    have hroomPre := copyHooksIf_room hpre
    by_cases herrPre : errPre = .ok
    · simp only [herrPre, ne_eq, not_true_eq_false, if_false] at hlater
      obtain ⟨⟨errPost, has', postcommit⟩, heap₂, hpost, hlast⟩ := C.bind_eq_ok.mp hlater
      have hroomPost := copyHooksIf_room hpost
      by_cases herrPost : errPost = .ok
      · simp only [herrPost, not_true_eq_false, if_false] at hlast
        obtain ⟨hinitialised, hkeptPre, hkeptPost⟩ := bucketprops_hooks_kept hlast
        rw [hinitialised, hkeptPre, hkeptPost]
        exact ⟨rfl, hroomPre, hroomPost⟩
      · simp only [herrPost, not_false_eq_true, if_true] at hlast
        cases hlast
        exact ⟨rfl, hroomPre, hroomPost⟩
    · simp only [herrPre, ne_eq, not_false_eq_true, if_true] at hlater
      cases hlater
      exact ⟨rfl, hroomPre, Nat.zero_le _⟩
  obtain ⟨hinitialised, hroomPre, hroomPost⟩ := hcopied
  obtain ⟨_, heap₁, hpre, hrest⟩ := C.bind_eq_ok.mp hwalk
  obtain ⟨_, heap₂, hpost, hfunctions⟩ := C.bind_eq_ok.mp hrest
  obtain ⟨_, heap₃, hchash, hlink⟩ := C.bind_eq_ok.mp hfunctions
  exact ⟨hinitialised, walkHooks_eq_ok hroomPre hpre, walkHooks_eq_ok hroomPost hpost,
    walkModFun_eq_ok hchash, walkModFun_eq_ok hlink⟩

/-! ### The two encoders -/

/-- The message of a call that sets these bucket properties, if it can be packed. -/
def RiakBucketprops.setReq (props : RiakBucketprops) (heap : Heap)
    (bucketType : Option RiakBinary) (bucket : RiakBinary) : RpbSetBucketReq where
  bucket := bucket.data
  props := props.encoded heap
  hasType := bucketType.isSome
  type := (bucketType.map RiakBinary.data).getD []

/-- No struct is sent that would have to be initialised. And if the request for the
    packed members in front of the place where the copy is given up is granted, they are
    not too long; if the one for the struct of the message is granted as well, nothing is
    set behind that place. -/
structure RiakBucketprops.SentFor (props : RiakBucketprops) (pack : RpbSetBucketReq → Bytes)
    (bucketType : Option RiakBinary) (bucket : RiakBinary) (heap : Heap) : Prop where
  ready : props.SendsReady heap
  short : (props.heapBehind heap).answer 0 = true →
    (pack ((props.upTo (props.copyEnd heap)).setReq heap bucketType bucket)).length < 2 ^ 32
  whole : (props.heapBehind heap).Grants 2 → props.setsBehind (props.copyEnd heap) = false

theorem riakSetBucketpropsRequestMsg_of_copy {bucketType : Option RiakBinary} {bucket : RiakBinary}
    {props : RiakBucketprops} {err : RiakError} {pbprops : RpbBucketProps}
    (hcopy : riakBucketpropsToPbCopy props heap = .ok ((err, pbprops), final)) :
    riakSetBucketpropsRequestMsg bucketType (some bucket) (some props) heap =
      .ok ({ bucket := bucket.data, props := pbprops, hasType := bucketType.isSome
             type := (bucketType.map RiakBinary.data).getD [] }, final) := by
  have htype : copyToPbIf bucketType.isSome bucketType =
      pure ((bucketType.map RiakBinary.data).getD []) := by
    cases bucketType with
    | none => rfl
    | some b => rfl
  unfold riakSetBucketpropsRequestMsg
  rw [htype, pure_bind, riakBinaryCopyToPb_of_data rfl, pure_bind, C.deref_some, pure_bind,
    C.bind_of_ok hcopy]
  rfl

theorem riakSetBucketpropsRequestEncode_sentWhole_iff {props : RiakBucketprops}
    (hbacked : props.Backed) (pack : RpbSetBucketReq → Bytes) (rop : RiakOperation ρ)
    (bucketType : Option RiakBinary) (bucket : RiakBinary) (heap : Heap) :
    SentWhole pack (fun m => m.props.CountsNull)
        (fun m => m.props.properties = props.announced)
        (riakSetBucketpropsRequestMsg bucketType (some bucket) (some props))
        (riakSetBucketpropsRequestEncode pack rop bucketType (some bucket) (some props)) heap ↔
      props.SentFor pack bucketType bucket heap := by
  by_cases hready : props.SendsReady heap
  · obtain ⟨err, hcopy⟩ := riakBucketpropsToPbCopy_of_ready hready hbacked
    have hmessage := @riakSetBucketpropsRequestMsg_of_copy _ _ bucketType bucket _ _ _ hcopy
    refine Iff.trans (sentWhole_iff hmessage (RiakBucketprops.encoded_not_countsNull _ heap)
      (RiakBucketprops.encoded_walk _ heap) ?_) ?_
    · rintro ⟨⟩
    · simp only [hready.copied_properties hbacked, RiakBucketprops.announced_upTo_iff hbacked heap]
      exact ⟨fun h => ⟨hready, h.1, h.2⟩, fun h => ⟨h.short, h.whole⟩⟩
  · refine ⟨?_, fun h => absurd h.ready hready⟩
    rintro ⟨m, rest, err, rop', final, hm, _, hencode, _⟩
    apply absurd _ hready
    obtain ⟨m', heap₁, hm', hpack⟩ := C.bind_eq_ok.mp hencode
    obtain ⟨_, heap₂, hwalk, _⟩ := C.bind_eq_ok.mp hpack
    obtain ⟨type, heap₃, htype, hm₁⟩ := C.bind_eq_ok.mp hm'
    obtain ⟨bytes, heap₄, hbytes, hm₂⟩ := C.bind_eq_ok.mp hm₁
    obtain ⟨rfl, _⟩ := copyToPbIf_eq_ok.mp htype
    obtain ⟨b, _, _, rfl⟩ := riakBinaryCopyToPb_eq_ok.mp hbytes
    rw [C.deref_some, pure_bind] at hm₂
    obtain ⟨⟨errCopy, pbprops⟩, heap₅, hcopy, hlast⟩ := C.bind_eq_ok.mp hm₂
    cases hlast
    exact (riakBucketpropsToPbCopy_ready_iff hcopy).mp (riakBucketpropsToPbCopy_walked hcopy hwalk)

/-- **When a request that could not be built is not sent.** For every object and for all
    bucket properties, on every heap: protobuf-c is handed no count without an array, the
    encoder comes back, and success means a request with every element, if and only if
    the arrays of the object are granted, and the properties are `SentFor`. -/
theorem riak_requests_sent_whole_iff (rop : RiakOperation ρ) (heap : Heap) :
    (∀ (pack : RpbPutReq → Bytes) (obj : RiakObject) (options : Option RiakPutOptions),
      obj.Complete → ((options.getD {}).hasVclock = true → (options.getD {}).vclock.isSome) →
      (SentWhole pack (fun m => m.content.CountsNull) (fun m => m.content.content = obj.content)
          (riakPutRequestMsg obj options) (riakPutRequestEncode pack rop obj options) heap ↔
        heap.Grants obj.requests ∧ ((heap.after obj.requests).answer 0 = true →
          (pack (obj.putReq options)).length < 2 ^ 32))) ∧
    (∀ (pack : RpbSetBucketReq → Bytes) (bucketType : Option RiakBinary) (bucket : RiakBinary)
        (props : RiakBucketprops), props.Backed →
      (SentWhole pack (fun m => m.props.CountsNull)
          (fun m => m.props.properties = props.announced)
          (riakSetBucketpropsRequestMsg bucketType (some bucket) (some props))
          (riakSetBucketpropsRequestEncode pack rop bucketType (some bucket) (some props)) heap ↔
        props.SentFor pack bucketType bucket heap)) :=
  ⟨fun pack _ _ hobj hvclock => riakPutRequestEncode_sentWhole_iff hobj hvclock pack rop heap,
    fun pack bucketType bucket _ hbacked =>
      riakSetBucketpropsRequestEncode_sentWhole_iff hbacked pack rop bucketType bucket heap⟩

/-- An object with one index. -/
def singleIndexObject : RiakObject where
  bucket := some ⟨[0x62], true⟩
  value := some ⟨[0x76], true⟩
  nIndexes := 1
  indexes := some [some { key := some ⟨[0x69], true⟩ }]

/-- The index is copied, and the buffer for the message is refused. -/
theorem riak_requests_sent_whole_indexed :
    SentWhole (fun _ => []) (fun m => m.content.CountsNull)
      (fun m => m.content.content = singleIndexObject.content)
      (riakPutRequestMsg singleIndexObject none)
      (riakPutRequestEncode (fun _ => []) ({} : RiakOperation Unit) singleIndexObject none)
      ⟨[true, true, false], fun _ => 0⟩ := by
  refine ((@riak_requests_sent_whole_iff Unit {} ⟨[true, true, false], fun _ => 0⟩).1
    (fun _ => []) singleIndexObject none ?_ (fun h => absurd h Bool.false_ne_true)).mpr ⟨?_, ?_⟩
  · constructor
    case indexes =>
      refine ⟨by decide, fun i hi => ?_⟩
      change i < 1 at hi
      obtain rfl : i = 0 := Nat.lt_one_iff.mp hi
      exact ⟨_, _, rfl, rfl, rfl, fun hvalue => absurd hvalue Bool.false_ne_true⟩
    case usermeta => exact ⟨by decide, fun i hi => absurd hi (Nat.not_lt_zero i)⟩
    case links => exact ⟨by decide, fun i hi => absurd hi (Nat.not_lt_zero i)⟩
    all_goals decide
  · exact (Heap.grants_succ _ 1).mpr ⟨rfl, (Heap.grants_succ _ 0).mpr ⟨rfl, Heap.grants_zero _⟩⟩
  · exact fun _ => by decide

/-- The array for the index is refused, or the one for a hook: protobuf-c is handed a
    count and NULL. And where a function is refused, the properties are sent without it. -/
theorem riak_requests_sent_in_part :
    ¬ SentWhole (fun _ => []) (fun m => m.content.CountsNull)
        (fun m => m.content.content = singleIndexObject.content)
        (riakPutRequestMsg singleIndexObject none)
        (riakPutRequestEncode (fun _ => []) ({} : RiakOperation Unit) singleIndexObject none)
        ⟨[false], fun _ => 0⟩ ∧
      (∃ props : RiakBucketprops, props.hasPrecommit = 1 ∧ props.nPrecommit = 1 ∧
        ¬ SentWhole (fun _ => []) (fun m => m.props.CountsNull)
          (fun m => m.props.properties = props.announced)
          (riakSetBucketpropsRequestMsg none (some ⟨[0x62], true⟩) (some props))
          (riakSetBucketpropsRequestEncode (fun _ => []) ({} : RiakOperation Unit) none
            (some ⟨[0x62], true⟩) (some props)) ⟨[false], fun _ => 0⟩) ∧
      ∃ props : RiakBucketprops, props.linkfun.isSome ∧
        ¬ SentWhole (fun _ => []) (fun m => m.props.CountsNull)
          (fun m => m.props.properties = props.announced)
          (riakSetBucketpropsRequestMsg none (some ⟨[0x62], true⟩) (some props))
          (riakSetBucketpropsRequestEncode (fun _ => []) ({} : RiakOperation Unit) none
            (some ⟨[0x62], true⟩) (some props)) ⟨[false], fun _ => 0⟩ := by
  refine ⟨?_, ⟨{ hasHasPrecommit := true, hasPrecommit := 1, nPrecommit := 1
                 precommit := some [some { hasName := true, name := some ⟨[0x6e], true⟩ }] },
      rfl, rfl, ?_⟩, ⟨{ linkfun := some ⟨some ⟨[0x6d], true⟩, some ⟨[0x66], true⟩⟩ }, rfl, ?_⟩⟩
  · rintro ⟨m, rest, err, rop, final, hm, hcounts, _⟩
    cases hm
    exact hcounts (Or.inl ⟨Nat.one_pos, rfl⟩)
  · rintro ⟨m, rest, err, rop, final, hm, hcounts, _⟩
    cases hm
    exact hcounts (Or.inl ⟨Nat.one_pos, rfl⟩)
  · rintro ⟨m, rest, err, rop, final, hm, _, hencode, hsuccess⟩
    cases hm
    cases hencode
    exact absurd (congrArg Properties.linkfun (hsuccess rfl).1) (by decide)

end RiakClient
