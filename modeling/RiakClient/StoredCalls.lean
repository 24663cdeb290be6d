import RiakClient.StoredRequests
import RiakClient.StoredResponses
import RiakClient.SyncSession

/-!
# What the synchronous calls do to memory

The calls of `riak.c` whose responses can be freed with everything in them, one after
another in one program: every call makes an operation, sends it and waits for the
answer, and the program frees the response of every call that succeeds. Nothing is
freed that is not there, and what is left at the end is what failed on the way.
-/

namespace RiakClient.Stored

open CSem Booked

variable {σ ρ' : Type}

/-! ### The calls -/

/-- A call with its arguments, which belong to the program. -/
inductive RiakCall where
  | ping
  | serverinfo
  | get (bucketType bucket key : Option RiakClient.RiakBinary) (options : Option RiakGetOptions)
  | put (obj : Option RiakClient.RiakObject) (options : Option RiakPutOptions)
  | delete (bucketType bucket key : Option RiakClient.RiakBinary)
      (options : Option RiakDeleteOptions)
  | listbuckets (bucketType : Option RiakClient.RiakBinary) (timeout : UInt32)
  | listkeys (bucketType bucket : Option RiakClient.RiakBinary) (timeout : UInt32)
  | getClientid
  | setClientid (clientid : Option RiakClient.RiakBinary)
  | resetBucketprops (bucketType bucket : Option RiakClient.RiakBinary)

namespace RiakCall

def plain : RiakCall → RiakClient.RiakCall
  | ping => .ping
  | serverinfo => .serverinfo
  | get bucketType bucket key options => .get bucketType bucket key options
  | put obj options => .put obj options
  | delete bucketType bucket key options => .delete bucketType bucket key options
  | listbuckets bucketType timeout => .listbuckets bucketType timeout
  | listkeys bucketType bucket timeout => .listkeys bucketType bucket timeout
  | getClientid => .getClientid
  | setClientid clientid => .setClientid clientid
  | resetBucketprops bucketType bucket => .resetBucketprops bucketType bucket

/-- The response of a call. -/
def Response : RiakCall → Type
  | ping => RiakPingResponse
  | serverinfo => RiakServerinfoResponse
  | get .. => RiakGetResponse
  | put .. => RiakPutResponse
  | delete .. => RiakEmptyResponse
  | listbuckets .. => RiakListResponse RpbListBucketsResp
  | listkeys .. => RiakListResponse RpbListKeysResp
  | getClientid => RiakGetClientidResponse
  | setClientid .. => RiakEmptyResponse
  | resetBucketprops .. => RiakEmptyResponse

instance (call : RiakCall) : Owns call.Response :=
  match call with
  | ping => inferInstanceAs (Owns RiakPingResponse)
  | serverinfo => inferInstanceAs (Owns RiakServerinfoResponse)
  | get .. => inferInstanceAs (Owns RiakGetResponse)
  | put .. => inferInstanceAs (Owns RiakPutResponse)
  | delete .. => inferInstanceAs (Owns RiakEmptyResponse)
  | listbuckets .. => inferInstanceAs (Owns (RiakListResponse RpbListBucketsResp))
  | listkeys .. => inferInstanceAs (Owns (RiakListResponse RpbListKeysResp))
  | getClientid => inferInstanceAs (Owns RiakGetClientidResponse)
  | setClientid .. => inferInstanceAs (Owns RiakEmptyResponse)
  | resetBucketprops .. => inferInstanceAs (Owns RiakEmptyResponse)

def plainResponse : (call : RiakCall) → call.Response → call.plain.decoder.Response
  | ping => RiakPingResponse.plain
  | serverinfo => RiakServerinfoResponse.plain
  | get .. => RiakGetResponse.plain
  | put .. => RiakPutResponse.plain
  | delete .. => RiakEmptyResponse.plain
  | listbuckets .. => RiakListResponse.plain
  | listkeys .. => RiakListResponse.plain
  | getClientid => RiakGetClientidResponse.plain
  | setClientid .. => RiakEmptyResponse.plain
  | resetBucketprops .. => RiakEmptyResponse.plain

def encode (packs : Packers) {ρ : Type} (rop : RiakOperation ρ) :
    RiakCall → Booked (RiakError × RiakOperation ρ)
  | ping => riakPingRequestEncode rop
  | serverinfo => riakServerinfoRequestEncode rop
  | get bucketType bucket key opts => riakGetRequestEncode packs.get rop bucketType bucket key opts
  | put obj opts => do riakPutRequestEncode packs.put rop (← lift (C.deref obj)) opts
  | delete bucketType bucket key opts =>
      riakDeleteRequestEncode packs.del rop bucketType bucket key opts
  | listbuckets bucketType timeout =>
      riakListbucketsRequestEncode packs.listBuckets rop bucketType timeout
  | listkeys bucketType bucket timeout =>
      riakListkeysRequestEncode packs.listKeys rop bucketType bucket timeout
  | getClientid => riakGetClientidRequestEncode rop
  | setClientid clientid => riakSetClientidRequestEncode packs.setClientId rop clientid
  | resetBucketprops bucketType bucket =>
      riakResetBucketpropsRequestEncode packs.resetBucket rop bucketType bucket

/-- `rop->decoder`. -/
def decode (unpackers : Unpackers) {ρ : Type} (rop : RiakOperation ρ)
    (pbresp : Option RiakPbMessage) :
    (call : RiakCall) → Option call.Response → RiakBoolean → Booked (Decoded call.Response)
  | ping, resp, _ => riakPingResponseDecode resp
  | serverinfo, resp, done => do
      riakServerinfoResponseDecode unpackers.getServerInfo (← lift (C.deref pbresp)) resp done
  | get .., resp, done => do
      riakGetResponseDecode unpackers.get rop (← lift (C.deref pbresp)) resp done
  | put .., resp, done => do
      riakPutResponseDecode unpackers.put (← lift (C.deref pbresp)) resp done
  | delete .., resp, _ => emptyResponseDecode resp
  | listbuckets .., resp, done => do
      listResponseDecode listbucketsMessage unpackers.listBuckets (← lift (C.deref pbresp)) resp
        done
  | listkeys .., resp, done => do
      listResponseDecode listkeysMessage unpackers.listKeys (← lift (C.deref pbresp)) resp done
  | getClientid, resp, done => do
      riakGetClientidResponseDecode unpackers.getClientId (← lift (C.deref pbresp)) resp done
  | setClientid .., resp, _ => emptyResponseDecode resp
  | resetBucketprops .., resp, _ => emptyResponseDecode resp

/-- The function that frees the response. -/
def free : (call : RiakCall) → Option call.Response → Booked Unit
  | ping => riakPingResponseFree
  | serverinfo => riakServerinfoResponseFree
  | get .. => riakGetResponseFree
  | put .. => riakPutResponseFree
  | delete .. => emptyResponseFree
  | listbuckets .. => listResponseFree
  | listkeys .. => listResponseFree
  | getClientid => riakGetClientidResponseFree
  | setClientid .. => emptyResponseFree
  | resetBucketprops .. => emptyResponseFree

/-- What can go wrong when the response is freed: a listing counts with an `int`. -/
def freePlain : (call : RiakCall) → Option call.plain.decoder.Response → C Unit
  | listbuckets .., resp => (fun _ => ()) <$> riakListbucketsResponseFree resp
  | listkeys .., resp => (fun _ => ()) <$> riakListkeysResponseFree resp
  | _, _ => pure ()

/-- What a call does behind `riak_sync_request`. Three of them free their response
    themselves, `riak_ping` only if it has one. -/
def finish : (call : RiakCall) → RiakError → Option call.Response →
    Booked (RiakError × Option call.Response)
  | ping, err, response =>
      if err ≠ .ok then pure (err, none)
      else do
        let pong : RiakPingResponse ← lift (C.deref response)
        release pong.addr
        pure (if pong.success ≠ 0 then .ok else .noPing, none)
  | delete .., err, response => do
      emptyResponseFree response
      pure (err, none)
  | setClientid .., err, response => do
      emptyResponseFree response
      pure (err, none)
  | _, err, response => pure (err, response)

section Perform

variable (packs : Packers) (unpackers : Unpackers) (writeCb : σ → Bytes → Int × σ)

/-- What a call does before `riak_sync_request`. If its encoder fails, it returns, and
    the operation is left. -/
def build (call : RiakCall) : Booked (RiakError × RiakOperation call.Response) := do
  let new ← riakOperationNew none none
  if new.1 ≠ .ok then pure new else call.encode packs new.2

/-- `riak_read` with the decoder of the call, which is the one that its encoder
    installs. -/
def readEnv (call : RiakCall) : ReadEnv call.Response where
  decode _ rop pbresp resp done := call.decode unpackers rop pbresp resp done
  rpbErrorRespUnpack := unpackers.error

/-- The end of a call, and what a program does then: it frees a response that it got
    for an `ERIAK_OK`. -/
def settle (call : RiakCall) (err : RiakError) (response : Option call.Response) :
    Booked RiakError := do
  let (err, response) ← call.finish err response
  if err = .ok then do
    call.free response
    pure err
  else pure err

/-- A call of the program, on a socket that takes what `writeCb` takes and has the given
    results for its reads. `none` is a call that goes on reading. -/
def perform (call : RiakCall) (s : σ) (results : List ReadResult) : Booked (Option RiakError) := do
  let (err, rop) ← call.build packs
  if err ≠ .ok then pure (some err)
  else do
    let outcome ← riakSyncRequest (call.readEnv unpackers) rop writeCb s results none
    match outcome.returned with
    | none => pure none
    | some err => do
        let err ← call.settle err outcome.response
        pure (some err)

/-- One call after another, each with what the socket does for it. -/
def performAll : List (RiakCall × σ × List ReadResult) → Booked (Option (List RiakError))
  | [] => pure (some [])
  | (call, s, results) :: calls => do
      match ← call.perform packs unpackers writeCb s results with
      | none => pure none
      | some err =>
          match ← performAll calls with
          | none => pure none
          | some errs => pure (some (err :: errs))

def settlePlain (call : RiakCall) (err : RiakError) (response : Option RiakClient.RiakResponse) :
    C RiakError := do
  let (err, response) ← call.plain.finish err response
  if err = .ok then do
    call.freePlain (← RiakResponse.as call.plain.decoder response)
    pure err
  else pure err

def performPlain (call : RiakCall) (s : σ) (results : List ReadResult) :
    C (Option RiakError) := do
  let (err, rop) ← call.plain.build packs
  if err ≠ .ok then pure (some err)
  else do
    let outcome ← RiakClient.riakSyncRequest (riakReadEnv unpackers) rop writeCb s results none
    match outcome.returned with
    | none => pure none
    | some err => do
        let err ← call.settlePlain err outcome.response
        pure (some err)

def performAllPlain : List (RiakCall × σ × List ReadResult) → C (Option (List RiakError))
  | [] => pure (some [])
  | (call, s, results) :: calls => do
      match ← call.performPlain packs unpackers writeCb s results with
      | none => pure none
      | some err =>
          match ← performAllPlain calls with
          | none => pure none
          | some errs => pure (some (err :: errs))

end Perform

/-! ### What a call is about

A call has a kind of response and what it takes to free it; the decoder takes every
response that it has made, if it is not done. -/

/-- A response of which everything can be freed. -/
def Whole : (call : RiakCall) → call.Response → Prop
  | get .. => RiakGetResponse.Whole
  | put .. => RiakPutResponse.Whole
  | listbuckets .. => RiakListResponse.Whole
  | listkeys .. => RiakListResponse.Whole
  | _ => fun _ => True

/-- The response is made of more than one message. -/
def streams : RiakCall → Bool
  | listbuckets .. | listkeys .. => true
  | _ => false

/-- A response that the next message can be decoded into. -/
def Open (call : RiakCall) (resp : Option call.Response) : Prop :=
  resp = none ∨ call.streams = true ∧ WholeOrNull call.Whole resp

/-- An end of a call that leaves nothing: success, no connection, or an error of the
    server before any part of an answer could have come in. -/
def Settles (call : RiakCall) (err : RiakError) : Prop :=
  err = .ok ∨ err = .noPing ∨ err = .write ∨ err = .serverError ∧ call.streams = false

instance (call : RiakCall) (err : RiakError) : Decidable (call.Settles err) :=
  inferInstanceAs (Decidable (_ ∨ _ ∨ _ ∨ _ ∧ _))

def toPlain (call : RiakCall) (value : call.Response) : RiakClient.RiakResponse :=
  ⟨call.plain.decoder, call.plainResponse value⟩

theorem as_toPlain (call : RiakCall) (resp : Option call.Response) :
    RiakResponse.as call.plain.decoder (resp.map call.toPlain) =
      pure (resp.map call.plainResponse) := by
  cases resp with
  | none => rfl
  | some value => exact dif_pos rfl

/-! ### What the parts of a call leave

A call is its encoder, `riak_sync_request` and what it does behind that: some calls
free their response themselves, a ping looks into its response first, and the program
frees what it got for a success. -/

theorem encode_tracks {ρ : Type} (f : ρ → ρ') (packs : Packers) (call : RiakCall)
    {rop : RiakOperation ρ} (h : rop.Unbuilt) (hcache : rop.request = {}) :
    Tracks (blocks rop) (call.encode packs rop) (encodedMap f)
      (call.plain.encode packs (rop.plain f)) (Encoded call.plain.decoder) := by
  cases call with
  | ping => exact riakEmptyRequest_tracks f h _ _
  | serverinfo => exact riakEmptyRequest_tracks f h _ _
  | getClientid => exact riakEmptyRequest_tracks f h _ _
  | get bucketType bucket key options =>
    exact riakGetRequestEncode_tracks f packs.get h hcache bucketType bucket key options
  | put obj options =>
    exact Tracks.lift_bind fun obj _ _ _ => riakPutRequestEncode_tracks f packs.put h obj options
  | delete bucketType bucket key options =>
    exact Tracks.lift_bind fun delmsg _ _ _ => riakPackRequest_tracks f h _ _ _ _ (Or.inl rfl)
  | listbuckets bucketType timeout =>
    exact Tracks.lift_bind fun type _ _ _ => riakPackRequest_tracks f h _ _ _ _ (Or.inl rfl)
  | listkeys bucketType bucket timeout =>
    exact Tracks.lift_bind fun type _ _ _ => Tracks.lift_bind fun bucket _ _ _ =>
      riakPackRequest_tracks f h _ _ _ _ (Or.inr rfl)
  | setClientid clientid =>
    exact Tracks.lift_bind fun clientid _ _ _ => riakPackRequest_tracks f h _ _ _ _ (Or.inl rfl)
  | resetBucketprops bucketType bucket =>
    exact Tracks.lift_bind fun resetmsg _ _ _ => riakPackRequest_tracks f h _ _ _ _ (Or.inl rfl)

theorem build_tracks {call : RiakCall} (f : call.Response → ρ') (packs : Packers) :
    Tracks 0 (call.build packs) (encodedMap f) (call.plain.build packs)
      (Encoded call.plain.decoder) := by
  unfold build RiakClient.RiakCall.build riakBuildRequest
  refine (riakOperationNew_tracks f none none).bind ?_
  rintro ⟨err, rop⟩ _ ⟨herr, rfl, hnew⟩
  simp only at herr hnew
  rw [if_neg (fun hne => hne herr), if_neg (fun hne => hne herr)]
  refine encode_tracks f packs call ⟨?_, ?_, ⟨fun _ => ?_, ?_⟩⟩ ?_
  all_goals rw [hnew]

theorem decode_tracks {ρ : Type} (f : ρ → ρ') (unpackers : Unpackers) (call : RiakCall)
    (rop : RiakOperation ρ) (pbresp : Option RiakPbMessage) {resp : Option call.Response}
    (hopen : call.Open resp) :
    Tracks (blocks resp) (call.decode unpackers rop pbresp resp 1)
      (decodedMap call.plainResponse)
      (call.plain.decoder.decode unpackers (rop.plain f) (pbresp.map RiakPbMessage.plain)
        (resp.map call.plainResponse) 1)
      (DecodeLeaves call.Open (WholeOrNull call.Whole)) := by
  have hnone : call.streams = false → resp = none := by
    intro hstreams
    refine hopen.resolve_right fun h => ?_
    rw [hstreams] at h
    exact absurd h.1 Bool.false_ne_true
  have hclosed : ∀ (out : Decoded call.Response) (after : Multiset Addr),
      DecodeLeaves (· = none) (WholeOrNull call.Whole) out after →
        DecodeLeaves call.Open (WholeOrNull call.Whole) out after :=
    fun _ _ h => h.mono fun _ hresp => Or.inl hresp
  have hwhole : WholeOrNull call.Whole resp := by
    rcases hopen with rfl | hopen
    · nofun
    · exact hopen.2
  have hlisted : call.streams = true → ∀ (out : Decoded call.Response) (after : Multiset Addr),
      DecodeLeaves (WholeOrNull call.Whole) (WholeOrNull call.Whole) out after →
        DecodeLeaves call.Open (WholeOrNull call.Whole) out after :=
    fun hstreams _ _ h => h.mono fun _ hresp => Or.inr ⟨hstreams, hresp⟩
  cases call with
  | ping =>
    obtain rfl := hnone rfl
    exact riakPingResponseDecode_tracks.mono hclosed
  | serverinfo =>
    obtain rfl := hnone rfl
    refine (Tracks.deref RiakPbMessage.plain pbresp).bind ?_
    rintro message _ ⟨rfl, _⟩
    exact (riakServerinfoResponseDecode_tracks _ message 1).mono hclosed
  | get bucketType bucket key options =>
    obtain rfl := hnone rfl
    refine (Tracks.deref RiakPbMessage.plain pbresp).bind ?_
    rintro message _ ⟨rfl, _⟩
    exact (riakGetResponseDecode_tracks _ rop f message 1).mono hclosed
  | put obj options =>
    obtain rfl := hnone rfl
    refine (Tracks.deref RiakPbMessage.plain pbresp).bind ?_
    rintro message _ ⟨rfl, _⟩
    exact (riakPutResponseDecode_tracks _ message 1).mono hclosed
  | delete bucketType bucket key options =>
    obtain rfl := hnone rfl
    exact emptyResponseDecode_tracks.mono hclosed
  | listbuckets bucketType timeout =>
    refine (Tracks.deref RiakPbMessage.plain pbresp).bind ?_
    rintro message _ ⟨rfl, _⟩
    exact (listResponseDecode_tracks _ _ message hwhole 1).mono (hlisted rfl)
  | listkeys bucketType bucket timeout =>
    refine (Tracks.deref RiakPbMessage.plain pbresp).bind ?_
    rintro message _ ⟨rfl, _⟩
    exact (listResponseDecode_tracks _ _ message hwhole 1).mono (hlisted rfl)
  | getClientid =>
    obtain rfl := hnone rfl
    refine (Tracks.deref RiakPbMessage.plain pbresp).bind ?_
    rintro message _ ⟨rfl, _⟩
    exact (riakGetClientidResponseDecode_tracks _ message 1).mono hclosed
  | setClientid clientid =>
    obtain rfl := hnone rfl
    exact emptyResponseDecode_tracks.mono hclosed
  | resetBucketprops bucketType bucket =>
    obtain rfl := hnone rfl
    exact emptyResponseDecode_tracks.mono hclosed

theorem free_tracks (call : RiakCall) {resp : Option call.Response}
    (h : WholeOrNull call.Whole resp) :
    Tracks (blocks resp) (call.free resp) (fun _ => ())
      (call.freePlain (resp.map call.plainResponse)) fun _ after => after = 0 := by
  cases call with
  | ping => exact riakPingResponseFree_tracks resp
  | serverinfo => exact riakServerinfoResponseFree_tracks resp
  | get bucketType bucket key options => exact riakGetResponseFree_tracks h
  | put obj options => exact riakPutResponseFree_tracks h
  | delete bucketType bucket key options => exact emptyResponseFree_tracks resp
  | listbuckets bucketType timeout => exact (listResponseFree_tracks h).map fun _ => ()
  | listkeys bucketType bucket timeout => exact (listResponseFree_tracks h).map fun _ => ()
  | getClientid => exact riakGetClientidResponseFree_tracks resp
  | setClientid clientid => exact emptyResponseFree_tracks resp
  | resetBucketprops bucketType bucket => exact emptyResponseFree_tracks resp

theorem keeps (unpackers : Unpackers) (call : RiakCall) :
    (call.readEnv unpackers).Keeps (riakReadEnv unpackers) call.toPlain call.Open
      (WholeOrNull call.Whole) call.plain.decoder where
  unpack := rfl
  decode rop pbresp resp hopen := by
    have hdecode := (call.decode_tracks call.toPlain unpackers rop pbresp hopen).map
      fun result => (⟨result.err, result.resp.map fun value => ⟨call.plain.decoder, value⟩,
        result.done⟩ : Decoded RiakClient.RiakResponse)
    have hplain : (riakReadEnv unpackers).decode call.plain.decoder (rop.plain call.toPlain)
          (pbresp.map RiakPbMessage.plain) (resp.map call.toPlain) 1 =
        (fun result => (⟨result.err, result.resp.map fun value => ⟨call.plain.decoder, value⟩,
            result.done⟩ : Decoded RiakClient.RiakResponse)) <$>
          call.plain.decoder.decode unpackers (rop.plain call.toPlain)
            (pbresp.map RiakPbMessage.plain) (resp.map call.plainResponse) 1 := by
      show (RiakResponse.as call.plain.decoder (resp.map call.toPlain) >>= fun resp => _) = _
      rw [as_toPlain, pure_bind, map_eq_pure_bind]
    rw [hplain]
    have hmap : decodedMap call.toPlain = fun out => (⟨(decodedMap call.plainResponse out).err,
        (decodedMap call.plainResponse out).resp.map fun value => ⟨call.plain.decoder, value⟩,
        (decodedMap call.plainResponse out).done⟩ : Decoded RiakClient.RiakResponse) := by
      funext out
      unfold decodedMap
      rw [Option.map_map]
      rfl
    rw [hmap]
    exact hdecode

/-- What becomes of a response when a call has ended with `err` and returns `err'`. -/
def Settled {call : RiakCall} (err : RiakError) (resp : Option call.Response) (err' : RiakError)
    (after : Multiset Addr) : Prop :=
  (err = .ok → after = 0 ∧ (err' = .ok ∨ err' = .noPing)) ∧
    (err ≠ .ok → err' = err ∧ (resp = none → after = 0))

theorem freed_tracks (call : RiakCall) (err : RiakError) (resp : Option call.Response)
    (h : err = .ok → WholeOrNull call.Whole resp) :
    Tracks (blocks resp)
      (if err = .ok then do
          call.free resp
          pure err
        else pure err) id
      (if err = .ok then do
          call.freePlain (← RiakResponse.as call.plain.decoder (resp.map call.toPlain))
          pure err
        else pure err)
      (Settled err resp) := by
  by_cases herr : err = .ok
  · rw [if_pos herr, if_pos herr, as_toPlain, pure_bind]
    refine (call.free_tracks (h herr)).bind ?_
    rintro _ _ rfl
    exact Tracks.pure ⟨fun _ => ⟨rfl, Or.inl herr⟩, fun hne => absurd herr hne⟩
  · rw [if_neg herr, if_neg herr]
    refine Tracks.pure ⟨fun hok => absurd hok herr, fun _ => ⟨rfl, ?_⟩⟩
    rintro rfl
    rfl

theorem discarded_tracks {call : RiakCall} (err : RiakError) (resp : Option RiakEmptyResponse)
    (resp' : Option call.Response) :
    Tracks (blocks resp)
      (emptyResponseFree resp >>= fun _ =>
        if err = .ok then do
          call.free none
          pure err
        else pure err) id
      (if err = .ok then do
          call.freePlain (← RiakResponse.as call.plain.decoder none)
          pure err
        else pure err)
      (Settled err resp') := by
  refine (emptyResponseFree_tracks resp).frees (add_zero _).symm ?_
  refine (call.freed_tracks err none fun _ => nofun).mono ?_
  rintro err' after ⟨hok, hfailed⟩
  exact ⟨hok, fun hne => ⟨(hfailed hne).1, fun _ => (hfailed hne).2 rfl⟩⟩

theorem pinged_tracks (resp : Option RiakPingResponse) :
    Tracks (blocks resp) (ping.settle .ok resp) id
      (ping.settlePlain .ok (resp.map ping.toPlain)) (@Settled ping .ok resp) := by
  have hstored : ping.settle .ok resp = lift (C.deref resp) >>= fun pong : RiakPingResponse =>
      release pong.addr >>= fun _ => pure (if pong.success ≠ 0 then .ok else .noPing) := by
    have hend : ∀ err : RiakError, (if err = .ok then ping.free none >>= fun _ => pure err
        else pure err) = (pure err : Booked RiakError) := fun err => ite_self _
    show (lift (C.deref resp) >>= fun pong : RiakPingResponse => release pong.addr >>= fun _ =>
      pure (if pong.success ≠ 0 then RiakError.ok else .noPing, none)) >>= _ = _
    rw [bind_assoc]
    refine congrArg _ (funext fun pong => ?_)
    rw [bind_assoc]
    exact congrArg _ (funext fun _ => hend _)
  have hplain : ping.settlePlain .ok (resp.map ping.toPlain) =
      C.deref (resp.map RiakPingResponse.plain) >>= fun pong : RiakClient.RiakPingResponse =>
        pure (if pong.success ≠ 0 then .ok else .noPing) := by
    have hend : ∀ err : RiakError, (if err = .ok then
        RiakResponse.as ping.plain.decoder none >>= fun resp =>
          ping.freePlain resp >>= fun _ => pure err
        else pure err) = (pure err : C RiakError) := fun err => ite_self _
    cases resp with
    | none => rfl
    | some pong => exact hend _
  rw [hstored, hplain]
  refine (Tracks.deref RiakPingResponse.plain resp).bind ?_
  rintro pong _ ⟨rfl, rfl⟩
  refine (Tracks.release pong.addr).frees (add_zero _).symm (Tracks.pure ⟨fun _ => ⟨rfl, ?_⟩, ?_⟩)
  · by_cases hpong : pong.success ≠ 0
    · exact Or.inl (if_pos hpong)
    · exact Or.inr (if_neg hpong)
  · exact fun hne => absurd rfl hne

/-- The end of a call frees a response that came with a success, and none that is not
    there. -/
theorem settle_tracks (call : RiakCall) (err : RiakError) {resp : Option call.Response}
    (h : err = .ok → WholeOrNull call.Whole resp) :
    Tracks (blocks resp) (call.settle err resp) id
      (call.settlePlain err (resp.map call.toPlain)) (Settled err resp) := by
  cases call with
  | ping =>
    by_cases herr : err = .ok
    · subst herr
      exact pinged_tracks resp
    · have hstored : ping.settle err resp = pure err := by
        unfold settle
        rw [show ping.finish err resp = pure (err, none) from if_pos herr, pure_bind]
        exact if_neg herr
      have hplain : ping.settlePlain err (resp.map ping.toPlain) = pure err := by
        unfold settlePlain
        rw [show ping.plain.finish err _ = pure (err, none) from if_pos herr, pure_bind]
        exact if_neg herr
      rw [hstored, hplain]
      refine Tracks.pure ⟨fun hok => absurd hok herr, fun _ => ⟨rfl, ?_⟩⟩
      rintro rfl
      rfl
  | delete bucketType bucket key options =>
    unfold settle
    rw [show (delete bucketType bucket key options).finish err resp =
      emptyResponseFree resp >>= fun _ => pure (err, none) from rfl, bind_assoc]
    exact discarded_tracks err resp resp
  | setClientid clientid =>
    unfold settle
    rw [show (setClientid clientid).finish err resp =
      emptyResponseFree resp >>= fun _ => pure (err, none) from rfl, bind_assoc]
    exact discarded_tracks err resp resp
  | _ => exact freed_tracks _ err resp h

/-- What a call leaves: nothing if it ends well, and at least its operation if it ends
    before it has sent anything. -/
def Left (call : RiakCall) (err : RiakError) (after : Multiset Addr) : Prop :=
  (call.Settles err → after = 0) ∧ (Unsent err → ∃ a, a ∈ after)

theorem Settles.not_unsent {call : RiakCall} {err : RiakError} (h : call.Settles err) :
    ¬ Unsent err := by
  rintro (rfl | rfl) <;> rcases h with h | h | h | ⟨h, _⟩ <;> cases h

theorem ended_tracks {call : RiakCall} {outcome : SyncOutcome call.Response} {err : RiakError}
    {own : Multiset Addr} (hreturned : outcome.returned = some err)
    (hleft : SyncLeaves call.Open (WholeOrNull call.Whole) outcome own) :
    Tracks own (call.settle err outcome.response >>= fun err => pure (some err)) id
      (call.settlePlain err (outcome.response.map call.toPlain) >>= fun err => pure (some err))
      fun ret after => ∀ err, ret = some err → call.Left err after := by
  unfold SyncLeaves at hleft
  rw [hreturned] at hleft
  generalize outcome.response = resp at hleft ⊢
  cases err with
  | ok =>
    obtain ⟨rfl, hwhole⟩ := hleft
    refine (call.settle_tracks .ok fun _ => hwhole).bind ?_
    rintro err' _ ⟨hok, _⟩
    obtain ⟨rfl, hend⟩ := hok rfl
    refine Tracks.pure ?_
    rintro _ ⟨⟩
    have hsettles : call.Settles err' := hend.imp_right Or.inl
    exact ⟨fun _ => rfl, fun hunsent => absurd hunsent hsettles.not_unsent⟩
  | write =>
    obtain ⟨rfl, rfl⟩ := hleft
    have hsettle : Tracks (blocks (none : Option call.Response)) (call.settle .write none) id _ _ :=
      call.settle_tracks .write nofun
    refine hsettle.bind ?_
    rintro err' after ⟨_, hfailed⟩
    obtain ⟨rfl, hafter⟩ := hfailed (by decide)
    refine Tracks.pure ?_
    rintro _ ⟨⟩
    exact ⟨fun _ => hafter rfl, fun hunsent => by rcases hunsent with h | h <;> cases h⟩
  | serverError =>
    obtain ⟨rfl, lost, hopen, rfl⟩ := hleft
    refine (call.settle_tracks .serverError nofun).step (zero_add _).symm ?_
    rintro err' own ⟨_, hfailed⟩
    obtain ⟨rfl, hown⟩ := hfailed (by decide)
    obtain rfl := hown rfl
    rw [zero_add]
    refine Tracks.pure ?_
    rintro _ ⟨⟩
    refine ⟨fun hsettles => ?_, fun hunsent => by rcases hunsent with h | h <;> cases h⟩
    obtain h | h | h | ⟨_, hstreams⟩ := hsettles
    · cases h
    · cases h
    · cases h
    · rcases hopen with rfl | ⟨hstreams', _⟩
      · rfl
      · rw [hstreams] at hstreams'
        cases hstreams'
  | read =>
    obtain ⟨lost, rfl⟩ := hleft
    refine (call.settle_tracks .read nofun).step rfl ?_
    rintro err' own ⟨_, hfailed⟩
    obtain ⟨rfl, _⟩ := hfailed (by decide)
    refine Tracks.pure ?_
    rintro _ ⟨⟩
    refine ⟨fun hsettles => ?_, fun hunsent => by rcases hunsent with h | h <;> cases h⟩
    rcases hsettles with h | h | h | ⟨h, _⟩ <;> cases h
  | _ => exact absurd hleft id

section Perform

variable (packs : Packers) (unpackers : Unpackers) (writeCb : σ → Bytes → Int × σ)

/-- **One call.** -/
theorem perform_tracks (call : RiakCall) (s : σ) (results : List ReadResult) :
    Tracks 0 (call.perform packs unpackers writeCb s results) id
      (call.performPlain packs unpackers writeCb s results)
      fun ret after => ∀ err, ret = some err → call.Left err after := by
  unfold perform performPlain
  refine (build_tracks call.toPlain packs).bind ?_
  rintro ⟨err, rop⟩ own hbuilt
  unfold Encoded at hbuilt
  rw [show encodedMap call.toPlain (err, rop) = (err, rop.plain call.toPlain) from rfl]
  simp only at hbuilt ⊢
  by_cases herr : err = .ok
  · rw [if_pos herr] at hbuilt
    obtain ⟨rfl, hdecoder, hbetween, hresponse⟩ := hbuilt
    rw [if_neg (fun hne => hne herr), if_neg (fun hne => hne herr)]
    have himp : ∀ resp, call.Open resp → WholeOrNull call.Whole resp := by
      rintro resp (rfl | hopen)
      · nofun
      · exact hopen.2
    have henv : ∀ d, rop.decoder = some d → (call.readEnv unpackers).Keeps (riakReadEnv unpackers)
        call.toPlain call.Open (WholeOrNull call.Whole) d := by
      intro d hd
      obtain rfl : call.plain.decoder = d := Option.some.inj (hdecoder.symm.trans hd)
      exact call.keeps unpackers
    refine (riakSyncRequest_tracks himp henv hbetween hresponse (Or.inl rfl) writeCb s
      results).bind ?_
    rintro outcome own hleft
    have hreturned : (outcome.plain call.toPlain).returned = outcome.returned := rfl
    have hplain : (outcome.plain call.toPlain).response = outcome.response.map call.toPlain := rfl
    rw [hreturned]
    cases hcase : outcome.returned with
    | none => exact Tracks.pure nofun
    | some err =>
      simp only [hplain]
      exact ended_tracks hcase hleft
  · rw [if_neg herr] at hbuilt
    obtain ⟨hunsent, hmem⟩ := hbuilt
    rw [if_pos herr, if_pos herr]
    refine Tracks.pure ?_
    rintro _ ⟨⟩
    exact ⟨fun hsettles => absurd hunsent hsettles.not_unsent, fun _ => ⟨rop.addr, hmem⟩⟩

/-- What a program leaves: nothing if every call settles, and something if there is one
    that has not sent its request. -/
def AllLeft (calls : List (RiakCall × σ × List ReadResult)) (errs : List RiakError)
    (after : Multiset Addr) : Prop :=
  (List.Forall₂ (fun call err => call.1.Settles err) calls errs → after = 0) ∧
    ((∃ err ∈ errs, Unsent err) → ∃ a, a ∈ after)

/-- **One call after another.** -/
theorem performAll_tracks (calls : List (RiakCall × σ × List ReadResult)) :
    Tracks 0 (performAll packs unpackers writeCb calls) id
      (performAllPlain packs unpackers writeCb calls)
      fun ret after => ∀ errs, ret = some errs → AllLeft calls errs after := by
  induction calls with
  | nil =>
    refine Tracks.pure ?_
    rintro _ ⟨⟩
    exact ⟨fun _ => rfl, by rintro ⟨err, herr, _⟩; cases herr⟩
  | cons first calls ih =>
    obtain ⟨call, s, results⟩ := first
    unfold performAll performAllPlain
    refine (perform_tracks packs unpackers writeCb call s results).bind ?_
    rintro (_ | err) own hleft
    · exact Tracks.pure nofun
    refine ih.after ?_
    rintro (_ | errs) own' hlater
    · exact Tracks.pure nofun
    refine Tracks.pure ?_
    rintro _ ⟨⟩
    obtain ⟨hsettled, hunsent⟩ := hleft err rfl
    obtain ⟨hsettled', hunsent'⟩ := hlater errs rfl
    refine ⟨fun hall => ?_, ?_⟩
    · obtain ⟨hfirst, hall⟩ := List.forall₂_cons.mp hall
      rw [hsettled hfirst, hsettled' hall, add_zero]
    · rintro ⟨err', hmem, herr⟩
      rcases List.mem_cons.mp hmem with rfl | hmem
      · obtain ⟨a, ha⟩ := hunsent herr
        exact ⟨a, Multiset.mem_add.mpr (Or.inr ha)⟩
      · obtain ⟨a, ha⟩ := hunsent' ⟨err', hmem, herr⟩
        exact ⟨a, Multiset.mem_add.mpr (Or.inl ha)⟩

end Perform

end RiakCall

/-- A listing of a bucket without keys, and a ping. -/
def keysProgram : List (RiakCall × Bytes × List ReadResult) :=
  [(.listkeys none (some ⟨[0x62], true⟩) 0, [],
      [.received [0, 0, 0, 3], .received [18, 0x10, 1]]),
    (.ping, [], [.received [0, 0, 0, 1], .received [2]])]

end RiakClient.Stored
