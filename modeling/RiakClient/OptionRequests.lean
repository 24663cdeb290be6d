import RiakClient.Addressing
import RiakClient.Setters

/-!
# Options of get, delete and search

The options of an application that allocates them and calls setters, on their
way into the three requests that copy flags and values. The encoders differ in
style: a get copies values with flag or without, a delete only those with a
flag, and a search has a list of field names that grows by one with each call.

Each of the three is done in the same steps: what a call sets, read option by option;
the options that a list of calls amounts to; that the setters build exactly these; and
that the request carries them.
-/

namespace RiakClient

open CSem FlaggedMembers OptionRecord

variable {ρ : Type} {heap : Heap}

/-! ### Calling setters

What every call adds to the calls before it, all of them add up to. A copy that is
granted is stored with its flag, and `if (has_x) riak_binary_copy_to_pb(&msg.x, x)`
sends it. -/

/-- The struct of an application that calls setters one after another and does
    not look at what they return. -/
def SetterApi.after (api : SetterApi) (s : api.Struct) (calls : List api.Call) : C api.Struct :=
  calls.foldlM (fun s call => Prod.snd <$> api.run s call) s

theorem SetterApi.after_eq {api : SetterApi} (of : List api.Call → api.Struct)
    {calls : List api.Call}
    (step : ∀ before call later, calls = before ++ call :: later →
      ∃ err, api.run (of before) call heap = .ok ((err, of (before ++ [call])), heap)) :
    api.after (of []) calls heap = .ok (of calls, heap) := by
  have hrest : ∀ later before, calls = before ++ later →
      later.foldlM (fun s call => Prod.snd <$> api.run s call) (of before) heap =
        .ok (of calls, heap) := by
    intro later
    induction later with
    | nil =>
      intro before hsplit
      rw [hsplit, List.append_nil]
      rfl
    | cons call later ih =>
      intro before hsplit
      obtain ⟨err, hcall⟩ := step before call later hsplit
      have hnext : (Prod.snd <$> api.run (of before) call) heap =
          .ok (of (before ++ [call]), heap) := by
        rw [C.map_apply, hcall]
      rw [List.foldlM_cons, C.bind_of_ok hnext]
      exact ih (before ++ [call]) (by rw [hsplit, List.append_assoc]; rfl)
  exact hrest calls [] rfl

theorem setMember_of_ample {σ ι : Type} (h : heap.Ample) (L : Layout σ ι RiakBinary)
    (order : Order) (i : ι) (s : σ) (b : RiakBinary) :
    setMember L order i s (some b) heap =
      .ok ((.ok, L.put i s (true, some ⟨b.data, true⟩)), heap) := by
  unfold setMember
  rw [C.bind_of_ok (riakBinaryCopy_of_ample h (some b))]
  cases order <;> rfl

/-- The copies of a binary option that an ample heap grants. -/
def lastCopy {σ : Type} (select : σ → Option Bytes) (calls : List σ) : Option RiakBinary :=
  (lastSet select calls).map (⟨·, true⟩)

theorem copyToPbIf_lastCopy {σ : Type} (select : σ → Option Bytes) (calls : List σ) :
    copyToPbIf (lastSet select calls).isSome (lastCopy select calls) =
      pure ((lastSet select calls).getD []) :=
  copyToPbIf_granted (lastSet select calls)

/-- The encoder gets to its end with the message that packs to `packed`, and the
    operation then has it as its request, if its size fits the `riak_uint32_t`. -/
structure Sends (encode : C (RiakError × RiakOperation ρ)) (msgid : UInt8) (packed : Bytes)
    (heap : Heap) : Prop where
  packs : ∃ (rop : RiakOperation ρ) (decoder : RiakResponseDecoder),
    encode heap = riakPackRequest rop msgid (packedSize32 packed) packed decoder .outOfMemory heap
  request : packed.length < 2 ^ 32 → ∃ rop, encode heap = .ok ((.ok, rop), heap) ∧
    rop.pbRequest = some ⟨msgid, UInt32.ofNat packed.length, packed⟩

theorem Sends.of_packs {encode : C (RiakError × RiakOperation ρ)} {msgid : UInt8} {packed : Bytes}
    (hheap : heap.Ample) {rop : RiakOperation ρ} {decoder : RiakResponseDecoder}
    (hencode : encode heap =
      riakPackRequest rop msgid (packedSize32 packed) packed decoder .outOfMemory heap) :
    Sends encode msgid packed heap := by
  refine ⟨⟨rop, decoder, hencode⟩, ?_⟩
  intro hshort
  have hsize : packedSize32 packed = packed.length := Nat.mod_eq_of_lt hshort
  rw [hencode, hsize,
    riakPackRequest_of_ample hheap rop msgid decoder .outOfMemory (Nat.le_refl _)]
  exact ⟨_, rfl, rfl⟩

/-! ### Get -/

def riakGetOptionsNew : C (Option RiakGetOptions) := C.new {}

namespace GetOptionsCall

/-- The argument is not a NULL binary. -/
def HasData : GetOptionsCall → Prop
  | ifModified value => value.isSome
  | _ => True

@[simp] def r? : GetOptionsCall → Option UInt32
  | r value => some value
  | _ => none

@[simp] def pr? : GetOptionsCall → Option UInt32
  | pr value => some value
  | _ => none

@[simp] def basicQuorum? : GetOptionsCall → Option RiakBoolean
  | basicQuorum value => some value
  | _ => none

@[simp] def notfoundOk? : GetOptionsCall → Option RiakBoolean
  | notfoundOk value => some value
  | _ => none

@[simp] def ifModified? : GetOptionsCall → Option Bytes
  | ifModified value => value.map RiakBinary.data
  | _ => none

@[simp] def head? : GetOptionsCall → Option RiakBoolean
  | head value => some value
  | _ => none

@[simp] def deletedvclock? : GetOptionsCall → Option RiakBoolean
  | deletedvclock value => some value
  | _ => none

@[simp] def timeout? : GetOptionsCall → Option UInt32
  | timeout value => some value
  | _ => none

@[simp] def sloppyQuorum? : GetOptionsCall → Option RiakBoolean
  | sloppyQuorum value => some value
  | _ => none

@[simp] def nVal? : GetOptionsCall → Option UInt32
  | nVal value => some value
  | _ => none

end GetOptionsCall

/-- The options of an application that allocates them and then calls setters. -/
def getOptionsAfter (calls : List GetOptionsCall) : C RiakGetOptions := do
  let opt ← C.deref (← riakGetOptionsNew)
  getOptionsSetters.after opt calls

/-- The options that `calls` amount to. -/
def getOptionsOf (calls : List GetOptionsCall) : RiakGetOptions where
  hasR := (lastSet GetOptionsCall.r? calls).isSome
  r := (lastSet GetOptionsCall.r? calls).getD 0
  hasPr := (lastSet GetOptionsCall.pr? calls).isSome
  pr := (lastSet GetOptionsCall.pr? calls).getD 0
  hasBasicQuorum := (lastSet GetOptionsCall.basicQuorum? calls).isSome
  basicQuorum := (lastSet GetOptionsCall.basicQuorum? calls).getD 0
  hasNotfoundOk := (lastSet GetOptionsCall.notfoundOk? calls).isSome
  notfoundOk := (lastSet GetOptionsCall.notfoundOk? calls).getD 0
  hasIfModified := (lastSet GetOptionsCall.ifModified? calls).isSome
  ifModified := lastCopy GetOptionsCall.ifModified? calls
  hasHead := (lastSet GetOptionsCall.head? calls).isSome
  head := (lastSet GetOptionsCall.head? calls).getD 0
  hasDeletedvclock := (lastSet GetOptionsCall.deletedvclock? calls).isSome
  deletedvclock := (lastSet GetOptionsCall.deletedvclock? calls).getD 0
  hasTimeout := (lastSet GetOptionsCall.timeout? calls).isSome
  timeout := (lastSet GetOptionsCall.timeout? calls).getD 0
  hasSloppyQuorum := (lastSet GetOptionsCall.sloppyQuorum? calls).isSome
  sloppyQuorum := (lastSet GetOptionsCall.sloppyQuorum? calls).getD 0
  hasNVal := (lastSet GetOptionsCall.nVal? calls).isSome
  nVal := (lastSet GetOptionsCall.nVal? calls).getD 0

theorem getOptionsSetters_run (h : heap.Ample) (before : List GetOptionsCall)
    {call : GetOptionsCall} (hdata : call.HasData) :
    getOptionsSetters.run (getOptionsOf before) call heap =
      .ok ((.ok, getOptionsOf (before ++ [call])), heap) := by
  cases call with
  | ifModified value =>
    obtain ⟨b, rfl⟩ := Option.isSome_iff_exists.mp hdata
    have hset : riakGetOptionsSetIfModified (getOptionsOf before) (some b) heap =
        .ok (getOptionsOf (before ++ [.ifModified (some b)]), heap) := by
      unfold riakGetOptionsSetIfModified
      rw [C.map_apply, setMember_of_ample h]
      simp [getOptionsMembers, getOptionsOf, lastCopy, lastSet_concat]
    show (riakGetOptionsSetIfModified (getOptionsOf before) (some b) >>= _) heap = _
    rw [C.bind_of_ok hset]
    rfl
  | _ =>
    simp [getOptionsSetters, getOptionsOf, lastCopy, lastSet_concat, riakGetOptionsSetR,
      riakGetOptionsSetPr, riakGetOptionsSetBasicQuorum, riakGetOptionsSetNotfoundOk,
      riakGetOptionsSetHead, riakGetOptionsSetDeletedvclock, riakGetOptionsSetTimeout,
      riakGetOptionsSetSloppyQuorum, riakGetOptionsSetNVal]

theorem getOptionsAfter_of_ample (h : heap.Ample) {calls : List GetOptionsCall}
    (hdata : ∀ call ∈ calls, call.HasData) :
    getOptionsAfter calls heap = .ok (getOptionsOf calls, heap) := by
  unfold getOptionsAfter riakGetOptionsNew
  rw [C.bind_of_ok (C.new_of_ample h _), C.deref_some, pure_bind]
  apply @SetterApi.after_eq heap getOptionsSetters getOptionsOf calls
  intro before call later hsplit
  have hmem : call ∈ calls := hsplit ▸ List.mem_append_right before List.mem_cons_self
  exact ⟨.ok, getOptionsSetters_run h before (hdata call hmem)⟩

/-- The request has, for every option, the flag and the value last set. -/
structure GetCarries (calls : List GetOptionsCall) (m : RpbGetReq) : Prop where
  r : Carries m.hasR m.r (lastSet GetOptionsCall.r? calls)
  pr : Carries m.hasPr m.pr (lastSet GetOptionsCall.pr? calls)
  basicQuorum : Carries m.hasBasicQuorum m.basicQuorum
    (lastSet GetOptionsCall.basicQuorum? calls)
  notfoundOk : Carries m.hasNotfoundOk m.notfoundOk (lastSet GetOptionsCall.notfoundOk? calls)
  ifModified : Carries m.hasIfModified m.ifModified (lastSet GetOptionsCall.ifModified? calls)
  head : Carries m.hasHead m.head (lastSet GetOptionsCall.head? calls)
  deletedvclock : Carries m.hasDeletedvclock m.deletedvclock
    (lastSet GetOptionsCall.deletedvclock? calls)
  timeout : Carries m.hasTimeout m.timeout (lastSet GetOptionsCall.timeout? calls)
  sloppyQuorum : Carries m.hasSloppyQuorum m.sloppyQuorum
    (lastSet GetOptionsCall.sloppyQuorum? calls)
  nVal : Carries m.hasNVal m.nVal (lastSet GetOptionsCall.nVal? calls)

theorem riakGetRequestMsg_carries (bucketType : Option RiakBinary) (bucket key : RiakBinary)
    (calls : List GetOptionsCall) :
    ∃ m, riakGetRequestMsg bucketType (some bucket) (some key) (some (getOptionsOf calls)) =
      pure m ∧ GetCarries calls m := by
  unfold riakGetRequestMsg
  simp only [riakBinaryCopyToPb, C.deref_some, pure_bind, copyToPbIf_isSome, Option.getD_some,
    getOptionsOf, copyToPbIf_lastCopy]
  exact ⟨_, rfl, {
    r := carries_getD _ _
    pr := carries_getD _ _
    basicQuorum := carries_getD _ _
    notfoundOk := carries_getD _ _
    ifModified := carries_getD _ _
    head := carries_getD _ _
    deletedvclock := carries_getD _ _
    timeout := carries_getD _ _
    sloppyQuorum := carries_getD _ _
    nVal := carries_getD _ _ }⟩

theorem riakGetRequestEncode_sends (h : heap.Ample) (pack : RpbGetReq → Bytes)
    (rop : RiakOperation ρ) (bucketType bucket key : Option RiakBinary)
    {opts : Option RiakGetOptions} {m : RpbGetReq}
    (hmsg : riakGetRequestMsg bucketType bucket key opts = pure m) :
    Sends (riakGetRequestEncode pack rop bucketType bucket key opts) MSG_RPBGETREQ (pack m)
      heap := by
  apply Sends.of_packs h
  unfold riakGetRequestEncode riakOperationSetBucketType riakOperationSetBucket
    riakOperationSetKey
  simp only [bind_assoc, pure_bind]
  rw [C.bind_of_ok (riakBinaryCopy_of_ample h _), C.bind_of_ok (riakBinaryCopy_of_ample h _),
    C.bind_of_ok (riakBinaryCopy_of_ample h _), hmsg, pure_bind]

/-! ### Delete -/

def riakDeleteOptionsNew : C (Option RiakDeleteOptions) := C.new {}

namespace DeleteOptionsCall

/-- The argument is not a NULL binary. -/
def HasData : DeleteOptionsCall → Prop
  | vclock value => value.isSome
  | _ => True

@[simp] def vclock? : DeleteOptionsCall → Option Bytes
  | vclock value => value.map RiakBinary.data
  | _ => none

@[simp] def w? : DeleteOptionsCall → Option UInt32
  | w value => some value
  | _ => none

@[simp] def dw? : DeleteOptionsCall → Option UInt32
  | dw value => some value
  | _ => none

@[simp] def pw? : DeleteOptionsCall → Option UInt32
  | pw value => some value
  | _ => none

@[simp] def timeout? : DeleteOptionsCall → Option UInt32
  | timeout value => some value
  | _ => none

@[simp] def sloppyQuorum? : DeleteOptionsCall → Option RiakBoolean
  | sloppyQuorum value => some value
  | _ => none

@[simp] def nVal? : DeleteOptionsCall → Option UInt32
  | nVal value => some value
  | _ => none

end DeleteOptionsCall

/-- The options of an application that allocates them and then calls setters. -/
def deleteOptionsAfter (calls : List DeleteOptionsCall) : C RiakDeleteOptions := do
  let opt ← C.deref (← riakDeleteOptionsNew)
  deleteOptionsSetters.after opt calls

/-- The options that `calls` amount to. -/
def deleteOptionsOf (calls : List DeleteOptionsCall) : RiakDeleteOptions where
  hasVclock := (lastSet DeleteOptionsCall.vclock? calls).isSome
  vclock := lastCopy DeleteOptionsCall.vclock? calls
  hasW := (lastSet DeleteOptionsCall.w? calls).isSome
  w := (lastSet DeleteOptionsCall.w? calls).getD 0
  hasDw := (lastSet DeleteOptionsCall.dw? calls).isSome
  dw := (lastSet DeleteOptionsCall.dw? calls).getD 0
  hasPw := (lastSet DeleteOptionsCall.pw? calls).isSome
  pw := (lastSet DeleteOptionsCall.pw? calls).getD 0
  hasTimeout := (lastSet DeleteOptionsCall.timeout? calls).isSome
  timeout := (lastSet DeleteOptionsCall.timeout? calls).getD 0
  hasSloppyQuorum := (lastSet DeleteOptionsCall.sloppyQuorum? calls).isSome
  sloppyQuorum := (lastSet DeleteOptionsCall.sloppyQuorum? calls).getD 0
  hasNVal := (lastSet DeleteOptionsCall.nVal? calls).isSome
  nVal := (lastSet DeleteOptionsCall.nVal? calls).getD 0

theorem deleteOptionsSetters_run (h : heap.Ample) (before : List DeleteOptionsCall)
    {call : DeleteOptionsCall} (hdata : call.HasData) :
    deleteOptionsSetters.run (deleteOptionsOf before) call heap =
      .ok ((.ok, deleteOptionsOf (before ++ [call])), heap) := by
  cases call with
  | vclock value =>
    obtain ⟨b, rfl⟩ := Option.isSome_iff_exists.mp hdata
    have hset : riakDeleteOptionsSetVclock (deleteOptionsOf before) (some b) heap =
        .ok (deleteOptionsOf (before ++ [.vclock (some b)]), heap) := by
      unfold riakDeleteOptionsSetVclock
      rw [C.map_apply, setMember_of_ample h]
      simp [deleteOptionsMembers, deleteOptionsOf, lastCopy, lastSet_concat]
    show (riakDeleteOptionsSetVclock (deleteOptionsOf before) (some b) >>= _) heap = _
    rw [C.bind_of_ok hset]
    rfl
  | _ =>
    simp [deleteOptionsSetters, deleteOptionsOf, lastCopy, lastSet_concat, riakDeleteOptionsSetW,
      riakDeleteOptionsSetDw, riakDeleteOptionsSetPw, riakDeleteOptionsSetTimeout,
      riakDeleteOptionsSetSloppyQuorum, riakDeleteOptionsSetNVal]

theorem deleteOptionsAfter_of_ample (h : heap.Ample) {calls : List DeleteOptionsCall}
    (hdata : ∀ call ∈ calls, call.HasData) :
    deleteOptionsAfter calls heap = .ok (deleteOptionsOf calls, heap) := by
  unfold deleteOptionsAfter riakDeleteOptionsNew
  rw [C.bind_of_ok (C.new_of_ample h _), C.deref_some, pure_bind]
  apply @SetterApi.after_eq heap deleteOptionsSetters deleteOptionsOf calls
  intro before call later hsplit
  have hmem : call ∈ calls := hsplit ▸ List.mem_append_right before List.mem_cons_self
  exact ⟨.ok, deleteOptionsSetters_run h before (hdata call hmem)⟩

/-- The request has, for every option, the flag and the value last set. -/
structure DeleteCarries (calls : List DeleteOptionsCall) (m : RpbDelReq) : Prop where
  vclock : Carries m.hasVclock m.vclock (lastSet DeleteOptionsCall.vclock? calls)
  w : Carries m.hasW m.w (lastSet DeleteOptionsCall.w? calls)
  dw : Carries m.hasDw m.dw (lastSet DeleteOptionsCall.dw? calls)
  pw : Carries m.hasPw m.pw (lastSet DeleteOptionsCall.pw? calls)
  timeout : Carries m.hasTimeout m.timeout (lastSet DeleteOptionsCall.timeout? calls)
  sloppyQuorum : Carries m.hasSloppyQuorum m.sloppyQuorum
    (lastSet DeleteOptionsCall.sloppyQuorum? calls)
  nVal : Carries m.hasNVal m.nVal (lastSet DeleteOptionsCall.nVal? calls)

theorem riakDeleteRequestMsg_carries (bucketType : Option RiakBinary) (bucket key : RiakBinary)
    (calls : List DeleteOptionsCall) :
    ∃ m, riakDeleteRequestMsg bucketType (some bucket) (some key)
      (some (deleteOptionsOf calls)) = pure m ∧ DeleteCarries calls m := by
  unfold riakDeleteRequestMsg
  simp only [riakBinaryCopyToPb, C.deref_some, pure_bind, copyToPbIf_isSome, Option.getD_some,
    deleteOptionsOf, copyToPbIf_lastCopy]
  exact ⟨_, rfl, {
    vclock := carries_getD _ _
    w := carries_assignIf _
    dw := carries_assignIf _
    pw := carries_assignIf _
    timeout := carries_assignIf _
    sloppyQuorum := carries_assignIf _
    nVal := carries_assignIf _ }⟩

theorem riakDeleteRequestEncode_sends (h : heap.Ample) (pack : RpbDelReq → Bytes)
    (rop : RiakOperation ρ) (bucketType bucket key : Option RiakBinary)
    {opts : Option RiakDeleteOptions} {m : RpbDelReq}
    (hmsg : riakDeleteRequestMsg bucketType bucket key opts = pure m) :
    Sends (riakDeleteRequestEncode pack rop bucketType bucket key opts) MSG_RPBDELREQ (pack m)
      heap := by
  apply Sends.of_packs h
  unfold riakDeleteRequestEncode
  rw [hmsg, pure_bind]

/-! ### Search

A name that is added comes last, behind one free slot that the array has grown by. The
loop that copies the names counts with an `int`, and from any index on it overflows if
it gets to `2 ^ 31`. -/

def riakSearchOptionsNew : C (Option RiakSearchOptions) := C.new {}

namespace SearchOptionsCall

/-- The argument is not a NULL binary. -/
def HasData : SearchOptionsCall → Prop
  | sort value | filter value | df value | op value | addFl value | presort value => value.isSome
  | _ => True

@[simp] def rows? : SearchOptionsCall → Option UInt32
  | rows value => some value
  | _ => none

@[simp] def start? : SearchOptionsCall → Option UInt32
  | start value => some value
  | _ => none

@[simp] def sort? : SearchOptionsCall → Option Bytes
  | sort value => value.map RiakBinary.data
  | _ => none

@[simp] def filter? : SearchOptionsCall → Option Bytes
  | filter value => value.map RiakBinary.data
  | _ => none

@[simp] def df? : SearchOptionsCall → Option Bytes
  | df value => value.map RiakBinary.data
  | _ => none

@[simp] def op? : SearchOptionsCall → Option Bytes
  | op value => value.map RiakBinary.data
  | _ => none

@[simp] def presort? : SearchOptionsCall → Option Bytes
  | presort value => value.map RiakBinary.data
  | _ => none

@[simp] def addFl? : SearchOptionsCall → Option Bytes
  | addFl value => value.map RiakBinary.data
  | _ => none

end SearchOptionsCall

/-- The field names in the order in which they were added. -/
def fieldNames (calls : List SearchOptionsCall) : List Bytes :=
  calls.filterMap SearchOptionsCall.addFl?

theorem fieldNames_append (before later : List SearchOptionsCall) :
    fieldNames (before ++ later) = fieldNames before ++ fieldNames later :=
  List.filterMap_append

theorem fieldNames_concat (calls : List SearchOptionsCall) (call : SearchOptionsCall) :
    fieldNames (calls ++ [call]) = fieldNames calls ++ call.addFl?.toList := by
  rw [fieldNames_append, fieldNames, fieldNames, List.filterMap_cons]
  cases call.addFl? <;> rfl

/-- The array `fl` with these names: NULL as long as nothing was added. -/
def fieldSlots (names : List Bytes) : Option (List (Option RiakBinary)) :=
  if names.isEmpty then none else some (names.map fun name => some ⟨name, true⟩)

/-- The options of an application that allocates them and then calls setters. -/
def searchOptionsAfter (calls : List SearchOptionsCall) : C RiakSearchOptions := do
  let opt ← C.deref (← riakSearchOptionsNew)
  searchOptionsSetters.after opt calls

/-- The options that `calls` amount to. -/
def searchOptionsOf (calls : List SearchOptionsCall) : RiakSearchOptions where
  hasRows := (lastSet SearchOptionsCall.rows? calls).isSome
  rows := (lastSet SearchOptionsCall.rows? calls).getD 0
  hasStart := (lastSet SearchOptionsCall.start? calls).isSome
  start := (lastSet SearchOptionsCall.start? calls).getD 0
  hasSort := (lastSet SearchOptionsCall.sort? calls).isSome
  sort := lastCopy SearchOptionsCall.sort? calls
  hasFilter := (lastSet SearchOptionsCall.filter? calls).isSome
  filter := lastCopy SearchOptionsCall.filter? calls
  hasDf := (lastSet SearchOptionsCall.df? calls).isSome
  df := lastCopy SearchOptionsCall.df? calls
  hasOp := (lastSet SearchOptionsCall.op? calls).isSome
  op := lastCopy SearchOptionsCall.op? calls
  nFl := (fieldNames calls).length
  fl := fieldSlots (fieldNames calls)
  hasPresort := (lastSet SearchOptionsCall.presort? calls).isSome
  presort := lastCopy SearchOptionsCall.presort? calls

theorem growFl_of_ample (h : heap.Ample) {opt : RiakSearchOptions} {names : List Bytes}
    (hcount : opt.nFl = names.length) (hslots : opt.fl = fieldSlots names)
    (hbound : names.length + 1 < 2 ^ 32) :
    growFl opt heap =
      .ok (some (names.map (fun name => some ⟨name, true⟩) ++ [none]), heap) := by
  unfold growFl
  rw [hslots, hcount]
  cases names with
  | nil => exact C.new_of_ample h _
  | cons name names =>
    generalize hold : (name :: names).map (fun name => some (⟨name, true⟩ : RiakBinary)) = old
    have hlength : (name :: names).length = old.length := by rw [← hold, List.length_map]
    have hkept : old.length % 2 ^ 32 = old.length := Nat.mod_eq_of_lt (by omega)
    have hgrown : (old.length + 1) % 2 ^ 32 = old.length + 1 := Nat.mod_eq_of_lt (by omega)
    simp only [fieldSlots, List.isEmpty_cons, Bool.false_eq_true, if_false, hold, hlength, hkept,
      hgrown, Nat.lt_irrefl, List.take_length]
    rw [C.bind_of_ok (C.allocate_of_ample h), if_pos rfl, C.copyAt_grown]
    rfl

theorem riakSearchOptionsAddFl_of_ample (h : heap.Ample) {opt : RiakSearchOptions}
    {names : List Bytes} (hcount : opt.nFl = names.length) (hslots : opt.fl = fieldSlots names)
    (hbound : names.length + 1 < 2 ^ 32) (b : RiakBinary) :
    riakSearchOptionsAddFl opt (some b) heap =
      .ok ((.ok, { opt with
        nFl := (names ++ [b.data]).length, fl := fieldSlots (names ++ [b.data]) }), heap) := by
  unfold riakSearchOptionsAddFl
  rw [C.bind_of_ok (growFl_of_ample h hcount hslots hbound)]
  simp only
  rw [C.bind_of_ok (riakBinaryCopy_of_ample h (some b)), hcount, C.writeAt_of_lt (by simp)]
  simp [copiedBinary, fieldSlots]

theorem searchOptionsSetters_run (h : heap.Ample) (before : List SearchOptionsCall)
    {call : SearchOptionsCall} (hdata : call.HasData)
    (hbound : (fieldNames (before ++ [call])).length < 2 ^ 32) :
    searchOptionsSetters.run (searchOptionsOf before) call heap =
      .ok ((.ok, searchOptionsOf (before ++ [call])), heap) := by
  cases call with
  | rows value | start value =>
    simp [searchOptionsSetters, searchOptionsOf, lastCopy, lastSet_concat, fieldNames_concat,
      riakSearchOptionsSetRows, riakSearchOptionsSetStart]
  | addFl value =>
    obtain ⟨b, rfl⟩ := Option.isSome_iff_exists.mp hdata
    have hnames : fieldNames (before ++ [.addFl (some b)]) = fieldNames before ++ [b.data] :=
      fieldNames_concat before _
    rw [hnames, List.length_append, List.length_singleton] at hbound
    show riakSearchOptionsAddFl _ (some b) heap = .ok ((.ok, (_ : RiakSearchOptions)), heap)
    rw [riakSearchOptionsAddFl_of_ample h rfl rfl hbound]
    simp [searchOptionsOf, lastCopy, lastSet_concat, hnames]
  | sort value | filter value | df value | op value | presort value =>
    obtain ⟨b, rfl⟩ := Option.isSome_iff_exists.mp hdata
    show setMember searchOptionsMembers .flagFirst _ _ (some b) heap =
      .ok ((.ok, (_ : RiakSearchOptions)), heap)
    rw [setMember_of_ample h]
    simp [searchOptionsMembers, searchOptionsOf, lastCopy, lastSet_concat, fieldNames_concat]

theorem searchOptionsAfter_of_ample (h : heap.Ample) {calls : List SearchOptionsCall}
    (hdata : ∀ call ∈ calls, call.HasData) (hbound : (fieldNames calls).length < 2 ^ 32) :
    searchOptionsAfter calls heap = .ok (searchOptionsOf calls, heap) := by
  unfold searchOptionsAfter riakSearchOptionsNew
  rw [C.bind_of_ok (C.new_of_ample h _), C.deref_some, pure_bind]
  apply @SetterApi.after_eq heap searchOptionsSetters searchOptionsOf calls
  intro (before : List SearchOptionsCall) (call : SearchOptionsCall)
    (later : List SearchOptionsCall) (hsplit : calls = before ++ call :: later)
  have hmem : call ∈ calls := hsplit ▸ List.mem_append_right before List.mem_cons_self
  have hnames : fieldNames calls = fieldNames (before ++ [call]) ++ fieldNames later := by
    rw [← fieldNames_append, List.append_assoc, List.singleton_append, hsplit]
  rw [hnames, List.length_append] at hbound
  exact ⟨.ok, searchOptionsSetters_run h before (hdata call hmem) (by omega)⟩

/-- The request has, for every option, the flag and the value last set, and the
    field names in their order. -/
structure SearchCarries (calls : List SearchOptionsCall) (m : RpbSearchQueryReq) : Prop where
  rows : Carries m.hasRows m.rows (lastSet SearchOptionsCall.rows? calls)
  start : Carries m.hasStart m.start (lastSet SearchOptionsCall.start? calls)
  sort : Carries m.hasSort m.sort (lastSet SearchOptionsCall.sort? calls)
  filter : Carries m.hasFilter m.filter (lastSet SearchOptionsCall.filter? calls)
  df : Carries m.hasDf m.df (lastSet SearchOptionsCall.df? calls)
  op : Carries m.hasOp m.op (lastSet SearchOptionsCall.op? calls)
  presort : Carries m.hasPresort m.presort (lastSet SearchOptionsCall.presort? calls)
  fl : m.fl = repeatedOf (fieldNames calls)

theorem searchField_round {names : List Bytes} {j : Nat} {name : Bytes}
    (hname : names[j]? = some name) :
    (do
      let field ← C.readAt (← C.deref (fieldSlots names)) j
      let bytes ← riakBinaryCopyToPb field
      pure (some bytes)) = (pure (some name) : C (Option Bytes)) := by
  have hne : names ≠ [] := by
    rintro rfl
    cases hname
  have hslot : (names.map fun name => some (⟨name, true⟩ : RiakBinary))[j]? =
      some (some ⟨name, true⟩) := by
    rw [List.getElem?_map, hname]
    rfl
  rw [fieldSlots, if_neg (by simpa using hne), C.deref_some, pure_bind, C.readAt_of_get hslot,
    pure_bind]
  rfl

theorem searchFieldList_of_ample (h : heap.Ample) {opts : RiakSearchOptions} {names : List Bytes}
    (hcount : opts.nFl = names.length) (hslots : opts.fl = fieldSlots names)
    (hbound : names.length < 2 ^ 31) :
    searchFieldList opts heap = .ok (some (repeatedOf names), heap) := by
  unfold searchFieldList repeatedOf
  rw [hcount, hslots]
  cases names with
  | nil => rfl
  | cons name names =>
    rw [if_pos (by simp), C.bind_of_ok (copyArray_of_ample h hbound (by
      intro j item hitem
      rw [searchField_round hitem]
      rfl))]
    rfl

theorem copyLoop_overflows {β : Type} {copy : Nat → C (Option β)} :
    ∀ (left i : Nat), 0 < left → 2 ^ 31 ≤ i + left →
    (∀ j, i ≤ j → j < i + left → ∃ item, copy j heap = .ok (some item, heap)) →
    copyLoop copy left i heap = .error .signedOverflow := by
  intro left
  induction left with
  | zero => intro i hpos; omega
  | succ left ih =>
    intro i _ hlong hcopy
    obtain ⟨item, hitem⟩ := hcopy i (Nat.le_refl _) (by omega)
    rw [copyLoop, C.bind_of_ok hitem]
    simp only
    by_cases hlast : i + 1 < 2 ^ 31
    · rw [C.intSucc_of_lt hlast, pure_bind, C.bind_of_error (ih (i + 1) (by omega) (by omega)
        fun j hlow hhigh => hcopy j (by omega) (by omega))]
    · rw [C.intSucc_of_le (Nat.not_lt.mp hlast)]
      rfl

theorem searchFieldList_overflows (h : heap.Ample) {opts : RiakSearchOptions}
    {names : List Bytes} (hcount : opts.nFl = names.length) (hslots : opts.fl = fieldSlots names)
    (hlong : 2 ^ 31 ≤ names.length) :
    searchFieldList opts heap = .error .signedOverflow := by
  unfold searchFieldList copyArray
  rw [hcount, hslots, if_pos (by omega)]
  apply C.bind_of_error
  rw [C.bind_of_ok (C.allocate_of_ample h), if_pos rfl]
  apply copyLoop_overflows _ _ (by omega) (by omega)
  intro j _ hj
  rw [Nat.zero_add] at hj
  exact ⟨names[j], by rw [searchField_round (List.getElem?_eq_getElem hj)]; rfl⟩

theorem riakSearchRequestMsg_eq (bucket query : RiakBinary) (calls : List SearchOptionsCall) :
    ∃ message : Repeated Bytes → RpbSearchQueryReq,
      riakSearchRequestMsg (some bucket) (some query) (some (searchOptionsOf calls)) =
        (do pure ((← searchFieldList (searchOptionsOf calls)).map message)) ∧
      SearchCarries calls (message (repeatedOf (fieldNames calls))) := by
  unfold riakSearchRequestMsg
  simp only [riakBinaryCopyToPb, C.deref_some, pure_bind, copyToPbIf_lastCopy, Option.getD_some,
    searchOptionsOf]
  exact ⟨_, rfl, {
    rows := carries_getD _ _
    start := carries_getD _ _
    sort := carries_getD _ _
    filter := carries_getD _ _
    df := carries_getD _ _
    op := carries_getD _ _
    presort := carries_getD _ _
    fl := rfl }⟩

theorem riakSearchRequestMsg_carries (h : heap.Ample) (bucket query : RiakBinary)
    {calls : List SearchOptionsCall} (hbound : (fieldNames calls).length < 2 ^ 31) :
    ∃ m, riakSearchRequestMsg (some bucket) (some query) (some (searchOptionsOf calls)) heap =
      .ok (some m, heap) ∧ SearchCarries calls m := by
  obtain ⟨message, hmsg, hcarries⟩ := riakSearchRequestMsg_eq bucket query calls
  refine ⟨message (repeatedOf (fieldNames calls)), ?_, hcarries⟩
  rw [hmsg, C.bind_of_ok (searchFieldList_of_ample h rfl rfl hbound)]
  rfl

theorem riakSearchRequestEncode_sends (h : heap.Ample) (pack : RpbSearchQueryReq → Bytes)
    (rop : RiakOperation ρ) (bucket query : Option RiakBinary) {opts : Option RiakSearchOptions}
    {m : RpbSearchQueryReq} (hmsg : riakSearchRequestMsg bucket query opts heap =
      .ok (some m, heap)) :
    Sends (riakSearchRequestEncode pack rop bucket query opts) MSG_RPBSEARCHQUERYREQ (pack m)
      heap := by
  apply Sends.of_packs h
  unfold riakSearchRequestEncode riakOperationSetBucket
  simp only [bind_assoc, pure_bind]
  rw [C.bind_of_ok (riakBinaryCopy_of_ample h _), C.bind_of_ok hmsg]

/-! ### The three requests -/

/-- **Options reach the server.** Whatever setters are called, with binaries that
    are there and fewer than `2 ^ 31` field names, the messages of a get, a delete
    and a search say of each option whether it was set and what it was last set
    to, and list the field names in their order. -/
theorem riak_options_carried {built heap : Heap} (hbuilt : built.Ample) (hheap : heap.Ample)
    (packGet : RpbGetReq → Bytes) (packDelete : RpbDelReq → Bytes)
    (packSearch : RpbSearchQueryReq → Bytes) (rop : RiakOperation ρ)
    (bucketType : Option RiakBinary) (bucket key query : RiakBinary)
    {getCalls : List GetOptionsCall} {deleteCalls : List DeleteOptionsCall}
    {searchCalls : List SearchOptionsCall} (hget : ∀ call ∈ getCalls, call.HasData)
    (hdelete : ∀ call ∈ deleteCalls, call.HasData)
    (hsearch : ∀ call ∈ searchCalls, call.HasData)
    (hnames : (fieldNames searchCalls).length < 2 ^ 31) :
    (∃ opts m, getOptionsAfter getCalls built = .ok (opts, built) ∧ GetCarries getCalls m ∧
      Sends (riakGetRequestEncode packGet rop bucketType (some bucket) (some key) (some opts))
        MSG_RPBGETREQ (packGet m) heap) ∧
    (∃ opts m, deleteOptionsAfter deleteCalls built = .ok (opts, built) ∧
      DeleteCarries deleteCalls m ∧
      Sends (riakDeleteRequestEncode packDelete rop bucketType (some bucket) (some key)
        (some opts)) MSG_RPBDELREQ (packDelete m) heap) ∧
    (∃ opts m, searchOptionsAfter searchCalls built = .ok (opts, built) ∧
      SearchCarries searchCalls m ∧
      Sends (riakSearchRequestEncode packSearch rop (some bucket) (some query) (some opts))
        MSG_RPBSEARCHQUERYREQ (packSearch m) heap) := by
  refine ⟨?_, ?_, ?_⟩
  · obtain ⟨m, hmsg, hcarries⟩ := riakGetRequestMsg_carries bucketType bucket key getCalls
    exact ⟨_, m, getOptionsAfter_of_ample hbuilt hget, hcarries,
      riakGetRequestEncode_sends hheap packGet rop _ _ _ hmsg⟩
  · obtain ⟨m, hmsg, hcarries⟩ := riakDeleteRequestMsg_carries bucketType bucket key deleteCalls
    exact ⟨_, m, deleteOptionsAfter_of_ample hbuilt hdelete, hcarries,
      riakDeleteRequestEncode_sends hheap packDelete rop _ _ _ hmsg⟩
  · obtain ⟨m, hmsg, hcarries⟩ := riakSearchRequestMsg_carries hheap bucket query hnames
    exact ⟨_, m, searchOptionsAfter_of_ample hbuilt hsearch (by omega), hcarries,
      riakSearchRequestEncode_sends hheap packSearch rop _ _ hmsg⟩

/-- One option of each kind, set twice where it can be, and two field names. -/
theorem riak_options_carried_sample :
    (∃ opts m, getOptionsAfter [.r 1, .r 2] Heap.fresh = .ok (opts, Heap.fresh) ∧
      GetCarries [.r 1, .r 2] m ∧
      Sends (riakGetRequestEncode (fun _ => [1]) ({} : RiakOperation Unit) none
        (some ⟨[0x62], true⟩) (some ⟨[0x6b], true⟩) (some opts)) MSG_RPBGETREQ [1] Heap.fresh) ∧
    (∃ opts m, deleteOptionsAfter [.vclock (some ⟨[7], true⟩)] Heap.fresh =
        .ok (opts, Heap.fresh) ∧
      DeleteCarries [.vclock (some ⟨[7], true⟩)] m ∧
      Sends (riakDeleteRequestEncode (fun _ => [1]) ({} : RiakOperation Unit) none
        (some ⟨[0x62], true⟩) (some ⟨[0x6b], true⟩) (some opts)) MSG_RPBDELREQ [1] Heap.fresh) ∧
    (∃ opts m, searchOptionsAfter [.addFl (some ⟨[1], true⟩), .addFl (some ⟨[2], true⟩)]
        Heap.fresh = .ok (opts, Heap.fresh) ∧
      SearchCarries [.addFl (some ⟨[1], true⟩), .addFl (some ⟨[2], true⟩)] m ∧
      Sends (riakSearchRequestEncode (fun _ => [1]) ({} : RiakOperation Unit)
        (some ⟨[0x62], true⟩) (some ⟨[0x71], true⟩) (some opts)) MSG_RPBSEARCHQUERYREQ [1]
        Heap.fresh) :=
  riak_options_carried Heap.fresh_ample Heap.fresh_ample (fun _ => [1]) (fun _ => [1])
    (fun _ => [1]) {} none ⟨[0x62], true⟩ ⟨[0x6b], true⟩ ⟨[0x71], true⟩
    (by simp [GetOptionsCall.HasData]) (by simp [DeleteOptionsCall.HasData])
    (by simp [SearchOptionsCall.HasData]) (by decide)

theorem riakSearchRequestMsg_overflows (h : heap.Ample) (bucket query : RiakBinary)
    {calls : List SearchOptionsCall} (hlong : 2 ^ 31 ≤ (fieldNames calls).length) :
    riakSearchRequestMsg (some bucket) (some query) (some (searchOptionsOf calls)) heap =
      .error .signedOverflow := by
  obtain ⟨message, hmsg, _⟩ := riakSearchRequestMsg_eq bucket query calls
  rw [hmsg, C.bind_of_error (searchFieldList_overflows h rfl rfl hlong)]

/-- With `2 ^ 31` field names the options are still built, and the encoder runs
    into undefined behaviour. -/
theorem riak_search_options_too_many_names :
    (∀ call ∈ List.replicate (2 ^ 31) (SearchOptionsCall.addFl (some ⟨[], true⟩)),
      call.HasData) ∧
    ∃ opts, searchOptionsAfter
        (List.replicate (2 ^ 31) (SearchOptionsCall.addFl (some ⟨[], true⟩))) Heap.fresh =
        .ok (opts, Heap.fresh) ∧
      riakSearchRequestEncode (fun _ => []) ({} : RiakOperation Unit) (some ⟨[0x62], true⟩)
        (some ⟨[0x71], true⟩) (some opts) Heap.fresh = .error .signedOverflow := by
  have hdata : ∀ n, ∀ call ∈ List.replicate n (SearchOptionsCall.addFl (some ⟨[], true⟩)),
      call.HasData := by
    intro n call hcall
    rw [List.eq_of_mem_replicate hcall]
    rfl
  have hnames : ∀ n, (fieldNames
      (List.replicate n (SearchOptionsCall.addFl (some ⟨[], true⟩)))).length = n := by
    intro n
    simp [fieldNames, List.filterMap_replicate_of_some]
  refine ⟨hdata _, _, searchOptionsAfter_of_ample Heap.fresh_ample (hdata _) ?_, ?_⟩
  · rw [hnames]
    decide
  · unfold riakSearchRequestEncode riakOperationSetBucket
    simp only [bind_assoc, pure_bind]
    rw [C.bind_of_ok (riakBinaryCopy_of_ample Heap.fresh_ample _), C.bind_of_error
      (riakSearchRequestMsg_overflows Heap.fresh_ample _ _ (Nat.le_of_eq (hnames _).symm))]

end RiakClient
