import RiakClient.Operation
import RiakClient.RequestOptions

/-!
# Secondary-index requests

The options of a 2i query, their setters, and `riak_2i_request_encode`. Two
arguments of the encoder end up in the same member: the bucket type it is given
and the `type` option. The bucket type is written first, and then every flag of
the options is copied over the one that is there, the flag of an option that was
never set included.

The six options that are binaries are copied by their setters, so the options after
some calls are known up to these copies (`IndexCopies`), each of which is there with
the bytes last given to its setter, or was refused. Everything else goes as for a put.
-/

namespace RiakClient

open CSem OptionRecord

variable {ρ : Type} {heap final : Heap}

/-! ### Setting options -/

def riak2iOptionsSetRangeQuery (opt : Riak2iOptions) : Riak2iOptions :=
  { opt with qtype := .range }

/-- What the setters of binaries return. -/
def copiedOr (copy : Option RiakBinary) : RiakError :=
  if copy.isSome then .ok else .outOfMemory

def riak2iOptionsSetKey (opt : Riak2iOptions) (value : Option RiakBinary) :
    C (RiakError × Riak2iOptions) := do
  let copy ← riakBinaryCopy value
  pure (copiedOr copy, { opt with hasKey := true, key := copy })

def riak2iOptionsSetRangeMin (opt : Riak2iOptions) (value : Option RiakBinary) :
    C (RiakError × Riak2iOptions) := do
  let copy ← riakBinaryCopy value
  pure (copiedOr copy, { opt with hasRangeMin := true, rangeMin := copy })

def riak2iOptionsSetRangeMax (opt : Riak2iOptions) (value : Option RiakBinary) :
    C (RiakError × Riak2iOptions) := do
  let copy ← riakBinaryCopy value
  pure (copiedOr copy, { opt with hasRangeMax := true, rangeMax := copy })

def riak2iOptionsSetReturnTerms (opt : Riak2iOptions) (value : RiakBoolean) : Riak2iOptions :=
  { opt with hasReturnTerms := true, returnTerms := value }

def riak2iOptionsSetStream (opt : Riak2iOptions) (value : RiakBoolean) : Riak2iOptions :=
  { opt with hasStream := true, stream := value }

def riak2iOptionsSetMaxResults (opt : Riak2iOptions) (value : UInt32) : Riak2iOptions :=
  { opt with hasMaxResults := true, maxResults := value }

def riak2iOptionsSetContinuation (opt : Riak2iOptions) (value : Option RiakBinary) :
    C (RiakError × Riak2iOptions) := do
  let copy ← riakBinaryCopy value
  pure (copiedOr copy, { opt with hasContinuation := true, continuation := copy })

def riak2iOptionsSetTimeout (opt : Riak2iOptions) (value : UInt32) : Riak2iOptions :=
  { opt with hasTimeout := true, timeout := value }

def riak2iOptionsSetType (opt : Riak2iOptions) (value : Option RiakBinary) :
    C (RiakError × Riak2iOptions) := do
  let copy ← riakBinaryCopy value
  pure (copiedOr copy, { opt with hasType := true, type := copy })

def riak2iOptionsSetTermRegex (opt : Riak2iOptions) (value : Option RiakBinary) :
    C (RiakError × Riak2iOptions) := do
  let copy ← riakBinaryCopy value
  pure (copiedOr copy, { opt with hasTermRegex := true, termRegex := copy })

def riak2iOptionsSetPaginationSort (opt : Riak2iOptions) (value : RiakBoolean) : Riak2iOptions :=
  { opt with hasPaginationSort := true, paginationSort := value }

/-- `riak_2i_options_new`: "turn streaming on by default". -/
def riak2iOptionsNew : C (Option Riak2iOptions) := do
  let opt ← C.new ({} : Riak2iOptions)
  pure (opt.map (riak2iOptionsSetStream · 1))

/-- A call of one of the setters. -/
inductive IndexSetter where
  | rangeQuery
  | key (value : RiakBinary)
  | rangeMin (value : RiakBinary)
  | rangeMax (value : RiakBinary)
  | returnTerms (value : RiakBoolean)
  | stream (value : RiakBoolean)
  | maxResults (value : UInt32)
  | continuation (value : RiakBinary)
  | timeout (value : UInt32)
  | type (value : RiakBinary)
  | termRegex (value : RiakBinary)
  | paginationSort (value : RiakBoolean)
deriving DecidableEq, Repr

namespace IndexSetter

/-- The call, by an application that does not look at what it returns. -/
def call (opt : Riak2iOptions) : IndexSetter → C Riak2iOptions
  | rangeQuery => pure (riak2iOptionsSetRangeQuery opt)
  | key value => Prod.snd <$> riak2iOptionsSetKey opt (some value)
  | rangeMin value => Prod.snd <$> riak2iOptionsSetRangeMin opt (some value)
  | rangeMax value => Prod.snd <$> riak2iOptionsSetRangeMax opt (some value)
  | returnTerms value => pure (riak2iOptionsSetReturnTerms opt value)
  | stream value => pure (riak2iOptionsSetStream opt value)
  | maxResults value => pure (riak2iOptionsSetMaxResults opt value)
  | continuation value => Prod.snd <$> riak2iOptionsSetContinuation opt (some value)
  | timeout value => pure (riak2iOptionsSetTimeout opt value)
  | type value => Prod.snd <$> riak2iOptionsSetType opt (some value)
  | termRegex value => Prod.snd <$> riak2iOptionsSetTermRegex opt (some value)
  | paginationSort value => pure (riak2iOptionsSetPaginationSort opt value)

/-! What a call sets, read option by option. -/

@[simp] def qtype? : IndexSetter → Option IndexQueryType
  | rangeQuery => some .range
  | _ => none

@[simp] def key? : IndexSetter → Option Bytes
  | key value => some value.data
  | _ => none

@[simp] def rangeMin? : IndexSetter → Option Bytes
  | rangeMin value => some value.data
  | _ => none

@[simp] def rangeMax? : IndexSetter → Option Bytes
  | rangeMax value => some value.data
  | _ => none

@[simp] def returnTerms? : IndexSetter → Option RiakBoolean
  | returnTerms value => some value
  | _ => none

@[simp] def stream? : IndexSetter → Option RiakBoolean
  | stream value => some value
  | _ => none

@[simp] def maxResults? : IndexSetter → Option UInt32
  | maxResults value => some value
  | _ => none

@[simp] def continuation? : IndexSetter → Option Bytes
  | continuation value => some value.data
  | _ => none

@[simp] def timeout? : IndexSetter → Option UInt32
  | timeout value => some value
  | _ => none

@[simp] def type? : IndexSetter → Option Bytes
  | type value => some value.data
  | _ => none

@[simp] def termRegex? : IndexSetter → Option Bytes
  | termRegex value => some value.data
  | _ => none

@[simp] def paginationSort? : IndexSetter → Option RiakBoolean
  | paginationSort value => some value
  | _ => none

end IndexSetter

/-- The options of an application that passes NULL, or that allocates them and
    then calls setters. -/
def indexOptionsAfter : Option (List IndexSetter) → C (Option Riak2iOptions)
  | none => pure none
  | some calls => do
      let opt ← C.deref (← riak2iOptionsNew)
      let opt ← calls.foldlM (fun opt call => call.call opt) opt
      pure (some opt)

/-! ### The request -/

/-- The `RpbIndexReq` of a query. -/
def riak2iRequestMsg (bucketType bucket index : Option RiakBinary)
    (indexOptions : Option Riak2iOptions) : C RpbIndexReq := do
  let bucketBytes ← riakBinaryCopyToPb bucket
  let indexBytes ← riakBinaryCopyToPb index
  let given ← copyToPbIf bucketType.isSome bucketType
  match indexOptions with
  | none =>
      pure { bucket := bucketBytes, index := indexBytes, hasType := bucketType.isSome, type := given }
  | some o =>
      let key ← copyToPbIf o.hasKey o.key
      let rangeMin ← copyToPbIf o.hasRangeMin o.rangeMin
      let rangeMax ← copyToPbIf o.hasRangeMax o.rangeMax
      let continuation ← copyToPbIf o.hasContinuation o.continuation
      let type ← copyToPbIf o.hasType o.type
      let termRegex ← copyToPbIf o.hasTermRegex o.termRegex
      pure {
        bucket := bucketBytes
        index := indexBytes
        qtype := o.qtype
        hasKey := o.hasKey, key := key
        hasRangeMin := o.hasRangeMin, rangeMin := rangeMin
        hasRangeMax := o.hasRangeMax, rangeMax := rangeMax
        hasReturnTerms := o.hasReturnTerms, returnTerms := o.returnTerms
        hasStream := o.hasStream, stream := o.stream
        hasMaxResults := o.hasMaxResults, maxResults := o.maxResults
        hasContinuation := o.hasContinuation, continuation := continuation
        hasTimeout := o.hasTimeout, timeout := o.timeout
        -- the flag raised for the bucket type is overwritten, its bytes are not
        hasType := o.hasType, type := if o.hasType then type else given
        hasTermRegex := o.hasTermRegex, termRegex := termRegex
        hasPaginationSort := o.hasPaginationSort, paginationSort := o.paginationSort }

/-- "Cache" the arguments in the operation. -/
def riak2iRequestCache (rop : RiakOperation ρ) (bucketType bucket index : Option RiakBinary) :
    C (RiakOperation ρ) := do
  let rop ← riakOperationSetBucketType rop bucketType
  let rop ← riakOperationSetBucket rop bucket
  riakOperationSetIndex rop index

def riak2iRequestEncode (pack : RpbIndexReq → Bytes) (rop : RiakOperation ρ)
    (bucketType bucket index : Option RiakBinary) (indexOptions : Option Riak2iOptions) :
    C (RiakError × RiakOperation ρ) := do
  let rop ← riak2iRequestCache rop bucketType bucket index
  let twoimsg ← riak2iRequestMsg bucketType bucket index indexOptions
  riakPackRequest rop MSG_RPBINDEXREQ (packedSize32 (pack twoimsg)) (pack twoimsg) .index2i
    .outOfMemory

/-! ### The options after any sequence of setters

A call without a binary keeps the copies and sets its option; a call with one replaces
the copy of its member where the allocator grants a new one. The history of the options
begins with the call that `riak_2i_options_new` makes itself. -/

/-- The copies of the six binaries, any of which may have been refused. -/
structure IndexCopies where
  key : Option RiakBinary := none
  rangeMin : Option RiakBinary := none
  rangeMax : Option RiakBinary := none
  continuation : Option RiakBinary := none
  type : Option RiakBinary := none
  termRegex : Option RiakBinary := none

/-- Each copy that is there has the bytes last given to its setter. -/
structure IndexCopies.Of (copies : IndexCopies) (calls : List IndexSetter) : Prop where
  key : CopyOf copies.key (lastSet IndexSetter.key? calls)
  rangeMin : CopyOf copies.rangeMin (lastSet IndexSetter.rangeMin? calls)
  rangeMax : CopyOf copies.rangeMax (lastSet IndexSetter.rangeMax? calls)
  continuation : CopyOf copies.continuation (lastSet IndexSetter.continuation? calls)
  type : CopyOf copies.type (lastSet IndexSetter.type? calls)
  termRegex : CopyOf copies.termRegex (lastSet IndexSetter.termRegex? calls)

/-- The options that `calls` amount to, up to the copies. -/
def indexOptionsOf (calls : List IndexSetter) (copies : IndexCopies) : Riak2iOptions where
  qtype := (lastSet IndexSetter.qtype? calls).getD .eq
  hasKey := (lastSet IndexSetter.key? calls).isSome
  key := copies.key
  hasRangeMin := (lastSet IndexSetter.rangeMin? calls).isSome
  rangeMin := copies.rangeMin
  hasRangeMax := (lastSet IndexSetter.rangeMax? calls).isSome
  rangeMax := copies.rangeMax
  hasReturnTerms := (lastSet IndexSetter.returnTerms? calls).isSome
  returnTerms := (lastSet IndexSetter.returnTerms? calls).getD 0
  hasStream := (lastSet IndexSetter.stream? calls).isSome
  stream := (lastSet IndexSetter.stream? calls).getD 0
  hasMaxResults := (lastSet IndexSetter.maxResults? calls).isSome
  maxResults := (lastSet IndexSetter.maxResults? calls).getD 0
  hasContinuation := (lastSet IndexSetter.continuation? calls).isSome
  continuation := copies.continuation
  hasTimeout := (lastSet IndexSetter.timeout? calls).isSome
  timeout := (lastSet IndexSetter.timeout? calls).getD 0
  hasType := (lastSet IndexSetter.type? calls).isSome
  type := copies.type
  hasTermRegex := (lastSet IndexSetter.termRegex? calls).isSome
  termRegex := copies.termRegex
  hasPaginationSort := (lastSet IndexSetter.paginationSort? calls).isSome
  paginationSort := (lastSet IndexSetter.paginationSort? calls).getD 0

namespace IndexSetter

/-- The bytes a call copies, if it takes a binary. -/
@[simp] def binary? : IndexSetter → Option Bytes
  | key value => some value.data
  | rangeMin value => some value.data
  | rangeMax value => some value.data
  | continuation value => some value.data
  | type value => some value.data
  | termRegex value => some value.data
  | _ => none

/-- Where a call puts its copy. -/
@[simp] def store (copies : IndexCopies) (copy : Option RiakBinary) : IndexSetter → IndexCopies
  | key _ => { copies with key := copy }
  | rangeMin _ => { copies with rangeMin := copy }
  | rangeMax _ => { copies with rangeMax := copy }
  | continuation _ => { copies with continuation := copy }
  | type _ => { copies with type := copy }
  | termRegex _ => { copies with termRegex := copy }
  | _ => copies

theorem call_of_none {calls : List IndexSetter} (copies : IndexCopies) {call : IndexSetter}
    (hbinary : call.binary? = none) :
    call.call (indexOptionsOf calls copies) = pure (indexOptionsOf (calls ++ [call]) copies) := by
  cases call with
  | rangeQuery =>
    simp [IndexSetter.call, indexOptionsOf, lastSet_concat, riak2iOptionsSetRangeQuery]
  | returnTerms value =>
    simp [IndexSetter.call, indexOptionsOf, lastSet_concat, riak2iOptionsSetReturnTerms]
  | stream value =>
    simp [IndexSetter.call, indexOptionsOf, lastSet_concat, riak2iOptionsSetStream]
  | maxResults value =>
    simp [IndexSetter.call, indexOptionsOf, lastSet_concat, riak2iOptionsSetMaxResults]
  | timeout value =>
    simp [IndexSetter.call, indexOptionsOf, lastSet_concat, riak2iOptionsSetTimeout]
  | paginationSort value =>
    simp [IndexSetter.call, indexOptionsOf, lastSet_concat, riak2iOptionsSetPaginationSort]
  | _ => cases hbinary

theorem call_of_some {calls : List IndexSetter} (copies : IndexCopies) {call : IndexSetter}
    {data : Bytes} (hbinary : call.binary? = some data) :
    call.call (indexOptionsOf calls copies) =
      (riakBinaryNew data >>= fun copy =>
        pure (indexOptionsOf (calls ++ [call]) (call.store copies copy))) := by
  cases call with
  | key value =>
    cases hbinary
    simp [IndexSetter.call, indexOptionsOf, lastSet_concat, riak2iOptionsSetKey, riakBinaryCopy]
  | rangeMin value =>
    cases hbinary
    simp [IndexSetter.call, indexOptionsOf, lastSet_concat, riak2iOptionsSetRangeMin,
      riakBinaryCopy]
  | rangeMax value =>
    cases hbinary
    simp [IndexSetter.call, indexOptionsOf, lastSet_concat, riak2iOptionsSetRangeMax,
      riakBinaryCopy]
  | continuation value =>
    cases hbinary
    simp [IndexSetter.call, indexOptionsOf, lastSet_concat, riak2iOptionsSetContinuation,
      riakBinaryCopy]
  | type value =>
    cases hbinary
    simp [IndexSetter.call, indexOptionsOf, lastSet_concat, riak2iOptionsSetType, riakBinaryCopy]
  | termRegex value =>
    cases hbinary
    simp [IndexSetter.call, indexOptionsOf, lastSet_concat, riak2iOptionsSetTermRegex,
      riakBinaryCopy]
  | _ => cases hbinary

end IndexSetter

theorem IndexCopies.Of.skip {copies : IndexCopies} {calls : List IndexSetter}
    (h : copies.Of calls) {call : IndexSetter} (hbinary : call.binary? = none) :
    copies.Of (calls ++ [call]) := by
  cases call <;> simp only [IndexSetter.binary?, reduceCtorEq] at hbinary <;>
    exact ⟨by simpa [lastSet_concat] using h.key, by simpa [lastSet_concat] using h.rangeMin,
      by simpa [lastSet_concat] using h.rangeMax, by simpa [lastSet_concat] using h.continuation,
      by simpa [lastSet_concat] using h.type, by simpa [lastSet_concat] using h.termRegex⟩

theorem IndexCopies.Of.store {copies : IndexCopies} {calls : List IndexSetter}
    (h : copies.Of calls) {call : IndexSetter} {data : Bytes} {copy : Option RiakBinary}
    (hbinary : call.binary? = some data) (hcopy : CopyOf copy (some data)) :
    (call.store copies copy).Of (calls ++ [call]) := by
  have hkey := h.key
  have hrangeMin := h.rangeMin
  have hrangeMax := h.rangeMax
  have hcontinuation := h.continuation
  have htype := h.type
  have htermRegex := h.termRegex
  cases call <;> simp only [IndexSetter.binary?, reduceCtorEq, Option.some.injEq] at hbinary <;>
    subst hbinary <;> constructor <;> simpa [lastSet_concat]

theorem indexSetter_call_eq_ok {calls : List IndexSetter} {copies : IndexCopies}
    {call : IndexSetter} {opt : Riak2iOptions} (hcopies : copies.Of calls)
    (hcall : call.call (indexOptionsOf calls copies) heap = .ok (opt, final)) :
    ∃ copies', opt = indexOptionsOf (calls ++ [call]) copies' ∧ copies'.Of (calls ++ [call]) := by
  cases hbinary : call.binary? with
  | none =>
    rw [IndexSetter.call_of_none copies hbinary, C.pure_apply, Except.ok.injEq, Prod.mk.injEq]
      at hcall
    exact ⟨copies, hcall.1.symm, hcopies.skip hbinary⟩
  | some data =>
    rw [IndexSetter.call_of_some copies hbinary] at hcall
    obtain ⟨copy, heap₁, hnew, hopt⟩ := C.bind_eq_ok.mp hcall
    simp only [C.pure_apply, Except.ok.injEq, Prod.mk.injEq] at hopt
    exact ⟨call.store copies copy, hopt.1.symm, hcopies.store hbinary (copyOf_riakBinaryNew hnew)⟩

/-- The calls behind the options: the one that `riak_2i_options_new` makes
    itself, and then those of the application. -/
def indexHistory : Option (List IndexSetter) → List IndexSetter
  | none => []
  | some calls => .stream 1 :: calls

theorem indexOptions_new : riak2iOptionsSetStream {} 1 = indexOptionsOf [.stream 1] {} := rfl

theorem IndexCopies.of_new : ({} : IndexCopies).Of [.stream 1] := by
  refine ⟨?_, ?_, ?_, ?_, ?_, ?_⟩
  all_goals
    intro b hb
    cases hb

/-- **Any sequence of setters** leaves every option as it was last set. -/
theorem indexOptionsAfter_eq_ok {calls : Option (List IndexSetter)}
    {options : Option Riak2iOptions}
    (hrun : indexOptionsAfter calls heap = .ok (options, final)) :
    calls = none ∧ options = none ∨ ∃ made copies, calls = some made ∧
      options = some (indexOptionsOf (indexHistory calls) copies) ∧
      copies.Of (indexHistory calls) := by
  cases calls with
  | none =>
    simp only [indexOptionsAfter, C.pure_apply, Except.ok.injEq, Prod.mk.injEq] at hrun
    exact Or.inl ⟨rfl, hrun.1.symm⟩
  | some calls =>
    right
    obtain ⟨slot, heap₁, hnew, hrun₁⟩ := C.bind_eq_ok.mp hrun
    obtain ⟨fresh, heap₂, hderef, hrun₂⟩ := C.bind_eq_ok.mp hrun₁
    obtain ⟨opt, heap₃, hcalls, hrun₃⟩ := C.bind_eq_ok.mp hrun₂
    simp only [C.pure_apply, Except.ok.injEq, Prod.mk.injEq] at hrun₃
    obtain ⟨rfl, _⟩ := C.deref_eq_ok.mp hderef
    let Inv : List IndexSetter → Riak2iOptions → Prop := fun before opt =>
      ∃ copies, opt = indexOptionsOf before copies ∧ copies.Of before
    have hstart : Inv [.stream 1] fresh := by
      obtain ⟨empty, heap₄, hempty, hstream⟩ := C.bind_eq_ok.mp hnew
      simp only [C.pure_apply, Except.ok.injEq, Prod.mk.injEq] at hstream
      rcases C.new_eq_ok hempty with rfl | rfl
      · exact ⟨{}, (Option.some.inj hstream.1).symm.trans indexOptions_new, IndexCopies.of_new⟩
      · cases hstream.1
    have step : ∀ before (call : IndexSetter) opt opt' heap final, Inv before opt →
        call.call opt heap = .ok (opt', final) → Inv (before ++ [call]) opt' := by
      rintro before call opt opt' heap final ⟨copies, rfl, hcopies⟩ hcall
      exact indexSetter_call_eq_ok hcopies hcall
    obtain ⟨copies, hopt, hcopies⟩ :=
      C.foldlM_invariant step calls [.stream 1] fresh opt heap₂ heap₃ hstart hcalls
    refine ⟨calls, copies, rfl, ?_, hcopies⟩
    rw [← hrun₃.1, hopt]
    rfl

/-- The copies that an ample heap grants. -/
def grantedCopies (calls : List IndexSetter) : IndexCopies where
  key := (lastSet IndexSetter.key? calls).map (⟨·, true⟩)
  rangeMin := (lastSet IndexSetter.rangeMin? calls).map (⟨·, true⟩)
  rangeMax := (lastSet IndexSetter.rangeMax? calls).map (⟨·, true⟩)
  continuation := (lastSet IndexSetter.continuation? calls).map (⟨·, true⟩)
  type := (lastSet IndexSetter.type? calls).map (⟨·, true⟩)
  termRegex := (lastSet IndexSetter.termRegex? calls).map (⟨·, true⟩)

theorem grantedCopies_concat (before : List IndexSetter) (call : IndexSetter) :
    grantedCopies (before ++ [call]) =
      match call.binary? with
      | none => grantedCopies before
      | some data => call.store (grantedCopies before) (some ⟨data, true⟩) := by
  cases call <;> simp [grantedCopies, lastSet_concat]

theorem indexOptionsAfter_of_ample (h : heap.Ample) (calls : List IndexSetter) :
    indexOptionsAfter (some calls) heap =
      .ok (some (indexOptionsOf (.stream 1 :: calls) (grantedCopies (.stream 1 :: calls))),
        heap) := by
  let Inv : List IndexSetter → Riak2iOptions → Prop := fun before opt =>
    opt = indexOptionsOf before (grantedCopies before)
  have step : ∀ before (call : IndexSetter) opt, Inv before opt →
      ∃ opt', call.call opt heap = .ok (opt', heap) ∧ Inv (before ++ [call]) opt' := by
    rintro before call opt rfl
    refine ⟨_, ?_, rfl⟩
    rw [grantedCopies_concat]
    cases hbinary : call.binary? with
    | none =>
      rw [IndexSetter.call_of_none _ hbinary]
      rfl
    | some data =>
      rw [IndexSetter.call_of_some _ hbinary, C.bind_of_ok (riakBinaryNew_of_ample h data)]
      rfl
  obtain ⟨opt, hcalls, hopt⟩ := C.foldlM_total step calls [.stream 1] _ rfl
  unfold indexOptionsAfter riak2iOptionsNew
  simp only
  rw [bind_assoc, C.bind_of_ok (C.new_of_ample h _), pure_bind, Option.map_some, C.deref_some,
    pure_bind, show riak2iOptionsSetStream {} 1 =
      indexOptionsOf [.stream 1] (grantedCopies [.stream 1]) from rfl, C.bind_of_ok hcalls, hopt]
  rfl

/-! ### What the request carries

Only the type has two sources, so the request carries the query if and only if its
type does. -/

/-- The request has the bucket and the index it was given, every option as it was
    last set, and the type option or else the bucket type as its type. -/
structure IndexCarries (bucketType : Option RiakBinary) (bucket index : RiakBinary)
    (calls : List IndexSetter) (m : RpbIndexReq) : Prop where
  bucket : m.bucket = bucket.data
  index : m.index = index.data
  type : Carries m.hasType m.type
    ((lastSet IndexSetter.type? calls).or (bucketType.map RiakBinary.data))
  qtype : m.qtype = (lastSet IndexSetter.qtype? calls).getD .eq
  key : Carries m.hasKey m.key (lastSet IndexSetter.key? calls)
  rangeMin : Carries m.hasRangeMin m.rangeMin (lastSet IndexSetter.rangeMin? calls)
  rangeMax : Carries m.hasRangeMax m.rangeMax (lastSet IndexSetter.rangeMax? calls)
  returnTerms : Carries m.hasReturnTerms m.returnTerms (lastSet IndexSetter.returnTerms? calls)
  stream : Carries m.hasStream m.stream (lastSet IndexSetter.stream? calls)
  maxResults : Carries m.hasMaxResults m.maxResults (lastSet IndexSetter.maxResults? calls)
  continuation : Carries m.hasContinuation m.continuation
    (lastSet IndexSetter.continuation? calls)
  timeout : Carries m.hasTimeout m.timeout (lastSet IndexSetter.timeout? calls)
  termRegex : Carries m.hasTermRegex m.termRegex (lastSet IndexSetter.termRegex? calls)
  paginationSort : Carries m.hasPaginationSort m.paginationSort
    (lastSet IndexSetter.paginationSort? calls)

theorem carries_bucketType {bucketType : Option RiakBinary} {given : Bytes}
    (hgiven : copyToPbIf bucketType.isSome bucketType heap = .ok (given, final)) :
    Carries bucketType.isSome given (bucketType.map RiakBinary.data) := by
  refine ⟨by rw [Option.isSome_map], ?_⟩
  intro data hdata
  obtain ⟨_, hsome, _⟩ := copyToPbIf_eq_ok.mp hgiven
  cases bucketType with
  | none => cases hdata
  | some b =>
    obtain ⟨b', hb, rfl⟩ := hsome rfl
    rw [Option.map_some, Option.some.injEq] at hdata
    rw [← Option.some.inj hb, hdata]

theorem indexCarries_of_null {bucketType : Option RiakBinary} {bucket index : RiakBinary}
    {m : RpbIndexReq}
    (hmsg : riak2iRequestMsg bucketType (some bucket) (some index) none heap = .ok (m, final)) :
    riak2iRequestMsg bucketType (some bucket) (some index) none = pure m ∧
      IndexCarries bucketType bucket index [] m := by
  unfold riak2iRequestMsg at hmsg ⊢
  simp only [riakBinaryCopyToPb, C.deref_some, pure_bind] at hmsg ⊢
  obtain ⟨given, heap₁, hgiven, hm⟩ := C.bind_eq_ok.mp hmsg
  simp only [C.pure_apply, Except.ok.injEq, Prod.mk.injEq] at hm
  rw [copyToPbIf_eq_pure hgiven, pure_bind, hm.1]
  refine ⟨rfl, ?_⟩
  rw [← hm.1]
  have habsent : ∀ {α : Type} (value : α), Carries false value none := fun value =>
    carries_absent_iff.mpr rfl
  exact {
    bucket := rfl
    index := rfl
    type := carries_bucketType hgiven
    qtype := rfl
    key := habsent _
    rangeMin := habsent _
    rangeMax := habsent _
    returnTerms := habsent _
    stream := habsent _
    maxResults := habsent _
    continuation := habsent _
    timeout := habsent _
    termRegex := habsent _
    paginationSort := habsent _ }

/-- The type member of a request with options: the bucket type gets lost where
    the type option was not set. -/
theorem carries_type_iff {last : Option Bytes} {type : Bytes} (bucketType : Option RiakBinary)
    (given : Bytes) (htype : Carries last.isSome type last) :
    Carries last.isSome (if last.isSome then type else given)
        (last.or (bucketType.map RiakBinary.data)) ↔
      bucketType = none ∨ last.isSome = true := by
  cases last with
  | none =>
    simp only [Option.isSome_none, Option.none_or, Bool.false_eq_true, or_false]
    rw [carries_absent_iff, Option.map_eq_none_iff]
  | some data =>
    simp only [Option.isSome_some, if_true, Option.some_or, or_true, iff_true]
    exact htype

theorem indexCarries_iff_of_options {bucketType : Option RiakBinary} {bucket index : RiakBinary}
    {calls : List IndexSetter} {copies : IndexCopies} {m : RpbIndexReq}
    (hcopies : copies.Of calls)
    (hmsg : riak2iRequestMsg bucketType (some bucket) (some index)
      (some (indexOptionsOf calls copies)) heap = .ok (m, final)) :
    riak2iRequestMsg bucketType (some bucket) (some index)
        (some (indexOptionsOf calls copies)) = pure m ∧
      (IndexCarries bucketType bucket index calls m ↔
        bucketType = none ∨ (lastSet IndexSetter.type? calls).isSome = true) := by
  unfold riak2iRequestMsg at hmsg ⊢
  simp only [riakBinaryCopyToPb, C.deref_some, pure_bind, indexOptionsOf] at hmsg ⊢
  obtain ⟨given, heap₁, hgiven, hmsg₁⟩ := C.bind_eq_ok.mp hmsg
  obtain ⟨key, heap₂, hkey, hmsg₂⟩ := C.bind_eq_ok.mp hmsg₁
  obtain ⟨rangeMin, heap₃, hrangeMin, hmsg₃⟩ := C.bind_eq_ok.mp hmsg₂
  obtain ⟨rangeMax, heap₄, hrangeMax, hmsg₄⟩ := C.bind_eq_ok.mp hmsg₃
  obtain ⟨continuation, heap₅, hcontinuation, hmsg₅⟩ := C.bind_eq_ok.mp hmsg₄
  obtain ⟨type, heap₆, htype, hmsg₆⟩ := C.bind_eq_ok.mp hmsg₅
  obtain ⟨termRegex, heap₇, htermRegex, hm⟩ := C.bind_eq_ok.mp hmsg₆
  simp only [C.pure_apply, Except.ok.injEq, Prod.mk.injEq] at hm
  rw [copyToPbIf_eq_pure hgiven, copyToPbIf_eq_pure hkey, copyToPbIf_eq_pure hrangeMin,
    copyToPbIf_eq_pure hrangeMax, copyToPbIf_eq_pure hcontinuation, copyToPbIf_eq_pure htype,
    copyToPbIf_eq_pure htermRegex]
  simp only [pure_bind]
  rw [hm.1]
  refine ⟨rfl, ?_⟩
  rw [← hm.1]
  have htype' := carries_type_iff bucketType given (carries_copyToPbIf hcopies.type htype)
  constructor
  · intro hcarries
    exact htype'.mp hcarries.type
  · intro hgoes
    exact {
      bucket := rfl
      index := rfl
      type := htype'.mpr hgoes
      qtype := rfl
      key := carries_copyToPbIf hcopies.key hkey
      rangeMin := carries_copyToPbIf hcopies.rangeMin hrangeMin
      rangeMax := carries_copyToPbIf hcopies.rangeMax hrangeMax
      returnTerms := carries_getD _ 0
      stream := carries_getD _ 0
      maxResults := carries_getD _ 0
      continuation := carries_copyToPbIf hcopies.continuation hcontinuation
      timeout := carries_getD _ 0
      termRegex := carries_copyToPbIf hcopies.termRegex htermRegex
      paginationSort := carries_getD _ 0 }

theorem copyToPbIf_granted (last : Option Bytes) :
    copyToPbIf last.isSome (last.map fun data => (⟨data, true⟩ : RiakBinary)) =
      pure (last.getD []) := by
  cases last with
  | none => rfl
  | some data => rfl

theorem riak2iRequestMsg_of_ample (h : heap.Ample) (bucketType : Option RiakBinary)
    (bucket index : RiakBinary) (history : Option (List IndexSetter)) :
    ∃ options m, indexOptionsAfter history heap = .ok (options, heap) ∧
      riak2iRequestMsg bucketType (some bucket) (some index) options = pure m := by
  obtain ⟨given, hgiven⟩ : ∃ given, copyToPbIf bucketType.isSome bucketType = pure given :=
    copyToPbIf_of_isSome id
  cases history with
  | none =>
    obtain ⟨m, hm⟩ :
        ∃ m, riak2iRequestMsg bucketType (some bucket) (some index) none = pure m := by
      unfold riak2iRequestMsg
      simp only [riakBinaryCopyToPb, C.deref_some, pure_bind, hgiven]
      exact ⟨_, rfl⟩
    exact ⟨none, m, rfl, hm⟩
  | some calls =>
    obtain ⟨m, hm⟩ : ∃ m, riak2iRequestMsg bucketType (some bucket) (some index)
        (some (indexOptionsOf (.stream 1 :: calls) (grantedCopies (.stream 1 :: calls)))) =
          pure m := by
      unfold riak2iRequestMsg
      simp only [riakBinaryCopyToPb, C.deref_some, pure_bind, hgiven, indexOptionsOf,
        grantedCopies, copyToPbIf_granted]
      exact ⟨_, rfl⟩
    exact ⟨_, m, indexOptionsAfter_of_ample h calls, hm⟩

theorem riak2iRequestCache_of_ample (h : heap.Ample) (rop : RiakOperation ρ)
    (bucketType bucket index : Option RiakBinary) :
    ∃ rop', riak2iRequestCache rop bucketType bucket index heap = .ok (rop', heap) := by
  have hcopy : ∀ bin : Option RiakBinary, ∃ copy, riakBinaryCopy bin heap = .ok (copy, heap) := by
    intro bin
    cases bin with
    | none => exact ⟨none, rfl⟩
    | some b => exact ⟨_, riakBinaryNew_of_ample h b.data⟩
  obtain ⟨copy, hcopy₁⟩ := hcopy bucketType
  obtain ⟨copy', hcopy₂⟩ := hcopy bucket
  obtain ⟨copy'', hcopy₃⟩ := hcopy index
  unfold riak2iRequestCache riakOperationSetBucketType riakOperationSetBucket
    riakOperationSetIndex
  rw [bind_assoc, C.bind_of_ok hcopy₁, pure_bind, bind_assoc, C.bind_of_ok hcopy₂, pure_bind,
    C.bind_of_ok hcopy₃]
  exact ⟨_, rfl⟩

/-- **2i requests.** Whatever setters are called, and whatever the allocator
    does, the `RpbIndexReq` that the encoder packs carries the query if and only
    if there is no bucket type to lose: none was given, or no options were, or
    the type option was set. On an ample heap there always is such a request. -/
theorem riak_2i_request_carries_iff (bucketType : Option RiakBinary) (bucket index : RiakBinary)
    (history : Option (List IndexSetter)) :
    (∀ (heap heap₁ heap₂ final : Heap) (options : Option Riak2iOptions) (m : RpbIndexReq),
      indexOptionsAfter history heap = .ok (options, heap₁) →
      riak2iRequestMsg bucketType (some bucket) (some index) options heap₂ = .ok (m, final) →
      (∀ (pack : RpbIndexReq → Bytes) (rop : RiakOperation ρ),
        riak2iRequestEncode pack rop bucketType (some bucket) (some index) options =
          (riak2iRequestCache rop bucketType (some bucket) (some index) >>= fun rop =>
            riakPackRequest rop MSG_RPBINDEXREQ (packedSize32 (pack m)) (pack m) .index2i
              .outOfMemory)) ∧
      (IndexCarries bucketType bucket index (indexHistory history) m ↔
        bucketType = none ∨ history = none ∨
          (lastSet IndexSetter.type? (indexHistory history)).isSome = true)) ∧
    (∀ heap : Heap, heap.Ample → ∃ options m,
      indexOptionsAfter history heap = .ok (options, heap) ∧
      riak2iRequestMsg bucketType (some bucket) (some index) options heap = .ok (m, heap) ∧
      ∀ (pack : RpbIndexReq → Bytes) (rop : RiakOperation ρ), (pack m).length < 2 ^ 32 →
        ∃ rop', riak2iRequestEncode pack rop bucketType (some bucket) (some index) options heap =
            .ok ((.ok, rop'), heap) ∧
          rop'.pbRequest = some ⟨MSG_RPBINDEXREQ, UInt32.ofNat (pack m).length, pack m⟩ ∧
          rop'.decoder = some .index2i) := by
  constructor
  · intro heap heap₁ heap₂ final options m hoptions hmsg
    rcases indexOptionsAfter_eq_ok hoptions with ⟨rfl, rfl⟩ | ⟨made, copies, rfl, rfl, hcopies⟩
    · obtain ⟨hpure, hcarries⟩ := indexCarries_of_null hmsg
      refine ⟨?_, ?_⟩
      · intro pack rop
        unfold riak2iRequestEncode
        simp only [hpure, pure_bind]
      · simp only [true_or, or_true, iff_true]
        exact hcarries
    · obtain ⟨hpure, hiff⟩ := indexCarries_iff_of_options hcopies hmsg
      refine ⟨?_, ?_⟩
      · intro pack rop
        unfold riak2iRequestEncode
        simp only [hpure, pure_bind]
      · simp only [reduceCtorEq, false_or]
        exact hiff
  · intro heap h
    obtain ⟨options, m, hoptions, hpure⟩ :=
      riak2iRequestMsg_of_ample h bucketType bucket index history
    refine ⟨options, m, hoptions, by rw [hpure]; rfl, ?_⟩
    intro pack rop hlength
    obtain ⟨rop', hcache⟩ := riak2iRequestCache_of_ample h rop bucketType (some bucket) (some index)
    unfold riak2iRequestEncode packedSize32
    rw [C.bind_of_ok hcache, hpure, pure_bind, Nat.mod_eq_of_lt hlength,
      riakPackRequest_of_ample h rop' MSG_RPBINDEXREQ .index2i .outOfMemory (Nat.le_refl _)]
    exact ⟨_, rfl, rfl, rfl⟩

/-- A range query with a type option carries it, whatever the bucket type is. -/
theorem riak_2i_request_carries_typed :
    ∃ m, riak2iRequestMsg (some ⟨[0x74], true⟩) (some ⟨[0x62], true⟩) (some ⟨[0x69], true⟩)
        (some (indexOptionsOf [.stream 1, .rangeQuery, .type ⟨[0x75], true⟩]
          { type := some ⟨[0x75], true⟩ })) Heap.fresh = .ok (m, Heap.fresh) ∧
      IndexCarries (some ⟨[0x74], true⟩) ⟨[0x62], true⟩ ⟨[0x69], true⟩
        [.stream 1, .rangeQuery, .type ⟨[0x75], true⟩] m := by
  refine ⟨_, rfl, ?_⟩
  refine (((riak_2i_request_carries_iff (ρ := Unit) (some ⟨[0x74], true⟩) ⟨[0x62], true⟩
    ⟨[0x69], true⟩ (some [.rangeQuery, .type ⟨[0x75], true⟩])).1 Heap.fresh Heap.fresh Heap.fresh
    Heap.fresh _ _ rfl rfl).2).mpr ?_
  exact Or.inr (Or.inr rfl)

/-- With a bucket type and fresh options the request has no type. -/
theorem riak_2i_request_loses_type :
    indexOptionsAfter (some []) Heap.fresh =
        .ok (some { hasStream := true, stream := 1 }, Heap.fresh) ∧
      ∃ m, riak2iRequestMsg (some ⟨[0x74], true⟩) (some ⟨[0x62], true⟩) (some ⟨[0x69], true⟩)
          (some { hasStream := true, stream := 1 }) Heap.fresh = .ok (m, Heap.fresh) ∧
        m.hasType = false ∧
        ¬ IndexCarries (some ⟨[0x74], true⟩) ⟨[0x62], true⟩ ⟨[0x69], true⟩ [.stream 1] m := by
  refine ⟨rfl, _, rfl, rfl, ?_⟩
  intro hcarries
  have hflag := hcarries.type.1
  exact absurd hflag (by decide)

end RiakClient
