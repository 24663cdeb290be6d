import RiakClient.Decoders
import RiakClient.ResponseMemory
import RiakClient.StoredOperations

/-!
# Where a response is stored

The decoders that make their response of one message, and the functions that free it.
A response keeps the message that it was made of, because its binaries point into it;
those of a get and of a put have an object for every content besides.
-/

namespace RiakClient.Stored

open CSem Booked

variable {ρ : Type}

/-! ### Get responses

An object with an address is the object and the copies of the address, which may be
missing without anyone's notice. The loop of the decoder leaves the array of a
response, or the part of it that is then freed. -/

structure RiakGetResponse where
  addr : Addr
  internal : Addr
  hasVclock : Bool := false
  vclock : Option RiakBinary := none
  hasUnchanged : Bool := false
  unchanged : RiakBoolean := 0
  nContent : Int := 0
  content : Option (Slots RiakObject) := none

def RiakGetResponse.plain (response : RiakGetResponse) : RiakClient.RiakGetResponse where
  hasVclock := response.hasVclock
  vclock := response.vclock.map RiakBinary.plain
  hasUnchanged := response.hasUnchanged
  unchanged := response.unchanged
  nContent := response.nContent
  content := response.content.map (Slots.plain RiakObject.plain)

instance : Owns RiakGetResponse :=
  ⟨fun response => blocks response.content + (blocks response.vclock +
    ({response.internal} + {response.addr}))⟩

/-- One round of the loop over the siblings. The copies that are not checked may be
    NULL. -/
def riakGetObject (request : RiakClient.RiakRequestCache) (content : List RpbContent) (i : Nat) :
    Booked (Option RiakObject) := do
  let from_ ← lift (C.readAt content i)
  let (err, object) ← riakObjectNewFromPb from_
  if err ≠ .ok then pure none
  else do
    let object ← lift (C.deref object)
    let bucket ← riakBinaryCopy request.bucket
    let bucketType ← riakBinaryCopy request.bucketType
    let key ← riakBinaryCopy request.key
    pure (some { object with
      bucket := bucket
      hasBucketType := request.bucketType.isSome, bucketType := bucketType
      hasKey := true, key := key })

/-- `riak_get_response_decode`. When an object cannot be made, the array, the objects
    before it and the struct are freed. -/
def riakGetResponseDecode (unpack : Bytes → Option RpbGetResp) (rop : RiakOperation ρ)
    (pbresp : RiakPbMessage) (resp : Option RiakGetResponse) (done : RiakBoolean) :
    Booked (Decoded RiakGetResponse) := do
  let payload ← lift pbresp.plain.payload
  match unpack payload with
  | none => pure ⟨.messageFormat, resp, done⟩
  | some rpbresp => do
      let internal ← obtain
      match ← malloc with
      | none => pure ⟨.outOfMemory, resp, 1⟩
      | some addr => do
          let some vclock ← copyFromPbIf rpbresp.hasVclock rpbresp.vclock
            | do
              release addr
              pure ⟨.outOfMemory, resp, 1⟩
          let response : RiakGetResponse := {
            addr := addr
            internal := internal
            hasVclock := rpbresp.hasVclock, vclock := vclock
            hasUnchanged := rpbresp.hasUnchanged
            unchanged := assignIf rpbresp.hasUnchanged rpbresp.unchanged }
          if 0 < rpbresp.content.length then
            match ← malloc with
            | none => do
                release addr
                pure ⟨.testFailure, resp, 1⟩
            | some array => do
                let (all, objects) ← copyLoop (riakGetObject rop.request.plain rpbresp.content)
                  rpbresp.content.length 0
                if all then
                  pure ⟨.ok, some { response with
                    nContent := Int.bmod rpbresp.content.length (2 ^ 32)
                    content := some ⟨some array, objects.map some⟩ }, 1⟩
                else do
                  riakObjectFreeArray (some ⟨some array, objects.map some⟩) objects.length
                  release addr
                  pure ⟨.outOfMemory, resp, 1⟩
          else pure ⟨.ok, some response, 1⟩

def riakGetResponseFree : Option RiakGetResponse → Booked Unit
  | none => pure ()
  | some response => do
      (if 0 < response.nContent then riakObjectFreeArray response.content response.nContent
        else pure ())
      riakBinaryFree response.vclock
      release response.internal
      release response.addr

theorem riakGetObject_tracks (request : RiakClient.RiakRequestCache) (content : List RpbContent)
    (i : Nat) :
    Tracks 0 (riakGetObject request content i) (Option.map RiakObject.plain)
      (RiakClient.riakGetObject request content i)
      fun out after => ∀ obj, out = some obj → after = blocks obj ∧ obj.Whole := by
  unfold riakGetObject RiakClient.riakGetObject
  refine Tracks.lift_bind ?_
  intro from_ _ _ _
  refine (riakObjectNewFromPb_tracks from_).bind ?_
  rintro ⟨err, object⟩ own hobject
  simp only
  by_cases herr : err = .ok
  · obtain ⟨obj, rfl, rfl, hwhole, hbucket, hbucketType, hkey⟩ := hobject herr
    rw [if_neg (fun hne => hne herr), if_neg (fun hne => hne herr)]
    refine (Tracks.deref RiakObject.plain (some obj)).bind ?_
    rintro obj' _ ⟨rfl, hsame⟩
    obtain rfl : obj = obj' := Option.some.inj hsame
    refine (riakBinaryCopy_tracks _).after ?_
    rintro bucket _ rfl
    refine (riakBinaryCopy_tracks _).after ?_
    rintro bucketType _ rfl
    refine (riakBinaryCopy_tracks _).after ?_
    rintro key _ rfl
    refine Tracks.pure ?_
    rintro _ ⟨⟩
    refine ⟨?_, ⟨hwhole.indexes, hwhole.usermeta, hwhole.links⟩⟩
    show blocks key + (blocks bucketType + (blocks bucket + (blocks obj.bucketType +
        (blocks obj.bucket + (blocks obj.charset + (blocks obj.contentType + (blocks obj.encoding +
        (blocks obj.key + (blocks obj.value + (blocks obj.vtag + (blocks obj.indexes +
        (blocks obj.usermeta + (blocks obj.links + {obj.addr}))))))))))))) =
      blocks bucketType + (blocks bucket + (blocks obj.charset + (blocks obj.contentType +
        (blocks obj.encoding + (blocks key + (blocks obj.value + (blocks obj.vtag +
        (blocks obj.indexes + (blocks obj.usermeta + (blocks obj.links + {obj.addr}))))))))))
    rw [hbucket, hbucketType, hkey]
    simp only [blocks_none, zero_add]
    abel
  · rw [if_pos herr, if_pos herr]
    refine Tracks.pure ?_
    rintro _ ⟨⟩

/-- The array of a response, which is there if there is something to put in it. -/
def ContentWhole (nContent : Int) (content : Option (Slots RiakObject)) : Prop :=
  Filled RiakObject.Whole nContent content ∧ (¬ 0 < nContent → content = none)

theorem contentFree_tracks {nContent : Int} {content : Option (Slots RiakObject)}
    (h : ContentWhole nContent content) :
    Tracks (blocks content)
      (if 0 < nContent then riakObjectFreeArray content nContent else pure ()) (fun _ => ())
      (pure ()) fun _ after => after = 0 := by
  by_cases hsome : 0 < nContent
  · rw [if_pos hsome]
    exact riakObjectFreeArray_tracks h.1
  · rw [if_neg hsome, h.2 hsome]
    exact Tracks.nothing

/-- The objects that the loop of a decoder has made are in the array, and all of them
    are the array of a response. -/
theorem contentLoop_tracks {object : Nat → Booked (Option RiakObject)}
    {plainObject : Nat → C (Option RiakClient.RiakObject)}
    (hobject : ∀ i, Tracks 0 (object i) (Option.map RiakObject.plain) (plainObject i)
      fun out after => ∀ obj, out = some obj → after = blocks obj ∧ obj.Whole)
    {n : Nat} (hsome : 0 < n) (array : Addr) (rest : Multiset Addr) :
    Tracks ({array} + rest) (copyLoop object n 0)
      (fun out => if out.1 then some (out.2.map RiakObject.plain) else none)
      (RiakClient.copyLoop plainObject n 0)
      fun out after => ∃ lost,
        after = blocks (⟨some array, out.2.map some⟩ : Slots RiakObject) + (lost + rest) ∧
        Filled RiakObject.Whole (out.2.length : Int) (some ⟨some array, out.2.map some⟩) ∧
        (out.1 = true → lost = 0 ∧ Int.bmod n (2 ^ 32) = out.2.length ∧
          ContentWhole out.2.length (some ⟨some array, out.2.map some⟩)) := by
  have hloop := (copyLoop_tracks hobject n 0).frame ({array} + rest)
  rw [zero_add] at hloop
  refine hloop.mono ?_
  rintro ⟨all, objects⟩ _ ⟨_, rfl, ⟨lost, rfl, hall⟩, hwhole, hroom⟩
  obtain ⟨hfilled, hcount⟩ := filled_of_room hroom hwhole (some array)
  refine ⟨lost, ?_, hfilled, fun hdone => ?_⟩
  · rw [blocks_slots]
    show blocks objects + lost + ({array} + rest) = blocks objects + {array} + (lost + rest)
    abel
  · obtain ⟨rfl, hlength⟩ := hall hdone
    simp only at hlength hfilled hcount
    refine ⟨rfl, ?_, hfilled, fun hnone => absurd (show 0 < (objects.length : Int) by omega) hnone⟩
    rw [← hlength]
    exact asInt_of_lt hcount

/-- The objects can be freed. -/
def RiakGetResponse.Whole (response : RiakGetResponse) : Prop :=
  ContentWhole response.nContent response.content

/-- **A get response that is decoded owns everything that was made for it**, and one
    that cannot be decoded is freed as far as the source frees it. -/
theorem riakGetResponseDecode_tracks (unpack : Bytes → Option RpbGetResp) (rop : RiakOperation ρ)
    {ρ' : Type} (f : ρ → ρ') (pbresp : RiakPbMessage) (done : RiakBoolean) :
    Tracks 0 (riakGetResponseDecode unpack rop pbresp none done) (decodedMap RiakGetResponse.plain)
      (RiakClient.riakGetResponseDecode unpack (rop.plain f) pbresp.plain none done)
      (DecodeLeaves (· = none) (WholeOrNull RiakGetResponse.Whole)) := by
  have hrefused : ∀ {err : RiakError}, err ≠ .ok → ∀ {addr : Addr} {rest : Multiset Addr},
      addr ∈ rest → Tracks rest (do
          release addr
          pure ⟨err, none, 1⟩ : Booked (Decoded RiakGetResponse))
        (decodedMap RiakGetResponse.plain) (pure ⟨err, none, 1⟩)
        (DecodeLeaves (· = none) (WholeOrNull RiakGetResponse.Whole)) := by
    intro err herr addr rest haddr
    exact Tracks.releases haddr (Tracks.pure (DecodeLeaves.failed herr _))
  unfold riakGetResponseDecode RiakClient.riakGetResponseDecode
  refine Tracks.lift_bind ?_
  intro payload _ _ _
  cases unpack payload with
  | none => exact Tracks.pure (DecodeLeaves.failed (by decide) _)
  | some rpbresp =>
    refine Tracks.obtain.silent (zero_add _).symm ?_
    rintro internal _ rfl
    refine Tracks.malloc.after ?_
    rintro (_ | addr) _ rfl
    · exact Tracks.pure (DecodeLeaves.failed (by decide) _)
    simp only [Option.isSome_some, if_true]
    refine (copyFromPbIf_tracks _ _).after ?_
    rintro (_ | vclock) _ rfl
    · exact hrefused (by decide) (by simp [blocks_addr])
    simp only [Option.map_some]
    by_cases hsome : 0 < rpbresp.content.length
    · rw [if_pos hsome, if_pos hsome]
      refine Tracks.malloc.after ?_
      rintro (_ | array) _ rfl
      · exact hrefused (by decide) (by simp [blocks_addr])
      simp only [Option.isSome_some, if_true]
      refine (contentLoop_tracks (riakGetObject_tracks rop.request.plain rpbresp.content) hsome
        array _).bind ?_
      rintro ⟨all, objects⟩ _ ⟨lost, rfl, hfilled, hall⟩
      cases all with
      | true =>
        obtain ⟨rfl, hcount, hcontent⟩ := hall rfl
        simp only [if_true]
        rw [hcount, ← Slots.plain_map_some RiakObject.plain (some array)]
        refine Tracks.pure (DecodeLeaves.closed ?_ ?_ rfl)
        · show blocks (⟨some array, objects.map some⟩ : Slots RiakObject) +
              (0 + (blocks vclock + ({addr} + {internal}))) =
            blocks (⟨some array, objects.map some⟩ : Slots RiakObject) +
              (blocks vclock + ({internal} + {addr}))
          abel
        · rintro _ ⟨⟩
          exact hcontent
      | false =>
        simp only [Bool.false_eq_true, if_false]
        refine (riakObjectFreeArray_tracks hfilled).frees rfl ?_
        exact hrefused (by decide) (by simp [blocks_addr])
    · rw [if_neg hsome, if_neg hsome]
      refine Tracks.pure (DecodeLeaves.closed ?_ ?_ rfl)
      · show blocks vclock + ({addr} + {internal}) = 0 + (blocks vclock + ({internal} + {addr}))
        abel
      · rintro _ ⟨⟩
        exact ⟨le_refl (0 : Int), fun _ => rfl⟩

theorem riakGetResponseFree_tracks {resp : Option RiakGetResponse}
    (h : WholeOrNull RiakGetResponse.Whole resp) :
    Tracks (blocks resp) (riakGetResponseFree resp) (fun _ => ()) (pure ())
      fun _ after => after = 0 := by
  cases resp with
  | none => exact Tracks.nothing
  | some response =>
    refine (contentFree_tracks (h response rfl)).frees rfl ?_
    refine (riakBinaryFree_tracks _).frees rfl ?_
    exact (Tracks.release _).frees rfl (Tracks.release _)

/-! ### Put responses -/

structure RiakPutResponse where
  addr : Addr
  internal : Addr
  hasVclock : Bool := false
  vclock : Option RiakBinary := none
  hasKey : Bool := false
  key : Option RiakBinary := none
  nContent : Int := 0
  content : Option (Slots RiakObject) := none

def RiakPutResponse.plain (response : RiakPutResponse) : RiakClient.RiakPutResponse where
  hasVclock := response.hasVclock
  vclock := response.vclock.map RiakBinary.plain
  hasKey := response.hasKey
  key := response.key.map RiakBinary.plain
  nContent := response.nContent
  content := response.content.map (Slots.plain RiakObject.plain)

/-- Its own two binaries are freed without a look at their bytes, which are in the
    message. -/
instance : Owns RiakPutResponse :=
  ⟨fun response => blocks response.content + (blocks (response.key.map RiakBinary.addr) +
    (blocks (response.vclock.map RiakBinary.addr) + ({response.internal} + {response.addr})))⟩

def RiakPutResponse.Whole (response : RiakPutResponse) : Prop :=
  ContentWhole response.nContent response.content

def riakPutObject (content : List RpbContent) (i : Nat) : Booked (Option RiakObject) := do
  let from_ ← lift (C.readAt content i)
  let (err, object) ← riakObjectNewFromPb from_
  if err ≠ .ok then pure none else pure object

/-- `riak_put_response_decode`. A binary that cannot be copied loses the struct, and an
    array that cannot be made gives back nothing but the struct. -/
def riakPutResponseDecode (unpack : Bytes → Option RpbPutResp) (pbresp : RiakPbMessage)
    (resp : Option RiakPutResponse) (done : RiakBoolean) : Booked (Decoded RiakPutResponse) := do
  let payload ← lift pbresp.plain.payload
  match unpack payload with
  | none => pure ⟨.messageFormat, resp, done⟩
  | some rpbresp => do
      let internal ← obtain
      match ← malloc with
      | none => pure ⟨.outOfMemory, resp, 1⟩
      | some addr => do
          let some vclock ← copyFromPbIf rpbresp.hasVclock rpbresp.vclock
            | pure ⟨.outOfMemory, resp, 1⟩
          let some key ← copyFromPbIf rpbresp.hasKey rpbresp.key
            | pure ⟨.outOfMemory, resp, 1⟩
          let response : RiakPutResponse := {
            addr := addr
            internal := internal
            hasVclock := rpbresp.hasVclock, vclock := vclock
            hasKey := rpbresp.hasKey, key := key }
          if 0 < rpbresp.content.length then
            match ← malloc with
            | none => do
                release addr
                pure ⟨.outOfMemory, resp, 1⟩
            | some array => do
                let (all, objects) ← copyLoop (riakPutObject rpbresp.content)
                  rpbresp.content.length 0
                if all then
                  pure ⟨.ok, some { response with
                    nContent := Int.bmod rpbresp.content.length (2 ^ 32)
                    content := some ⟨some array, objects.map some⟩ }, 1⟩
                else do
                  riakObjectFreeArray (some ⟨some array, objects.map some⟩) objects.length
                  release addr
                  pure ⟨.outOfMemory, resp, 1⟩
          else pure ⟨.ok, some response, 1⟩

def riakPutResponseFree : Option RiakPutResponse → Booked Unit
  | none => pure ()
  | some response => do
      (if 0 < response.nContent then riakObjectFreeArray response.content response.nContent
        else pure ())
      free (response.key.map RiakBinary.addr)
      free (response.vclock.map RiakBinary.addr)
      release response.internal
      release response.addr

theorem riakPutObject_tracks (content : List RpbContent) (i : Nat) :
    Tracks 0 (riakPutObject content i) (Option.map RiakObject.plain)
      (RiakClient.riakPutObject content i)
      fun out after => ∀ obj, out = some obj → after = blocks obj ∧ obj.Whole := by
  unfold riakPutObject RiakClient.riakPutObject
  refine Tracks.lift_bind ?_
  intro from_ _ _ _
  refine (riakObjectNewFromPb_tracks from_).bind ?_
  rintro ⟨err, object⟩ own hobject
  simp only
  by_cases herr : err = .ok
  · obtain ⟨obj, rfl, rfl, hwhole, _⟩ := hobject herr
    rw [if_neg (fun hne => hne herr), if_neg (fun hne => hne herr)]
    refine Tracks.pure ?_
    rintro _ ⟨⟩
    exact ⟨rfl, hwhole⟩
  · rw [if_pos herr, if_pos herr]
    refine Tracks.pure ?_
    rintro _ ⟨⟩

/-- **The same for a put response.** -/
theorem riakPutResponseDecode_tracks (unpack : Bytes → Option RpbPutResp)
    (pbresp : RiakPbMessage) (done : RiakBoolean) :
    Tracks 0 (riakPutResponseDecode unpack pbresp none done) (decodedMap RiakPutResponse.plain)
      (RiakClient.riakPutResponseDecode unpack pbresp.plain none done)
      (DecodeLeaves (· = none) (WholeOrNull RiakPutResponse.Whole)) := by
  have hlost : ∀ {rest : Multiset Addr}, Tracks rest
      (pure ⟨.outOfMemory, none, 1⟩ : Booked (Decoded RiakPutResponse))
      (decodedMap RiakPutResponse.plain) (pure ⟨.outOfMemory, none, 1⟩)
      (DecodeLeaves (· = none) (WholeOrNull RiakPutResponse.Whole)) :=
    Tracks.pure (DecodeLeaves.failed (by decide) _)
  unfold riakPutResponseDecode RiakClient.riakPutResponseDecode
  refine Tracks.lift_bind ?_
  intro payload _ _ _
  cases unpack payload with
  | none => exact Tracks.pure (DecodeLeaves.failed (by decide) _)
  | some rpbresp =>
    refine Tracks.obtain.silent (zero_add _).symm ?_
    rintro internal _ rfl
    refine Tracks.malloc.after ?_
    rintro (_ | addr) _ rfl
    · exact hlost
    simp only [Option.isSome_some, if_true]
    refine (copyFromPbIf_struct_tracks _ _).after ?_
    rintro (_ | vclock) _ rfl
    · exact hlost
    refine (copyFromPbIf_struct_tracks _ _).after ?_
    rintro (_ | key) _ rfl
    · exact hlost
    simp only [Option.map_some]
    by_cases hsome : 0 < rpbresp.content.length
    · rw [if_pos hsome, if_pos hsome]
      refine Tracks.malloc.after ?_
      rintro (_ | array) _ rfl
      · exact Tracks.releases (by simp [blocks_addr]) hlost
      simp only [Option.isSome_some, if_true]
      refine (contentLoop_tracks (riakPutObject_tracks rpbresp.content) hsome array _).bind ?_
      rintro ⟨all, objects⟩ _ ⟨lost, rfl, hfilled, hall⟩
      cases all with
      | true =>
        obtain ⟨rfl, hcount, hcontent⟩ := hall rfl
        simp only [if_true]
        rw [hcount, ← Slots.plain_map_some RiakObject.plain (some array)]
        refine Tracks.pure (DecodeLeaves.closed ?_ ?_ rfl)
        · show blocks (⟨some array, objects.map some⟩ : Slots RiakObject) +
              (0 + (blocks (key.map RiakBinary.addr) + (blocks (vclock.map RiakBinary.addr) +
                ({addr} + {internal})))) =
            blocks (⟨some array, objects.map some⟩ : Slots RiakObject) +
              (blocks (key.map RiakBinary.addr) + (blocks (vclock.map RiakBinary.addr) +
                ({internal} + {addr})))
          abel
        · rintro _ ⟨⟩
          exact hcontent
      | false =>
        simp only [Bool.false_eq_true, if_false]
        refine (riakObjectFreeArray_tracks hfilled).frees rfl ?_
        exact Tracks.releases (by simp [blocks_addr]) hlost
    · rw [if_neg hsome, if_neg hsome]
      refine Tracks.pure (DecodeLeaves.closed ?_ ?_ rfl)
      · show blocks (key.map RiakBinary.addr) + (blocks (vclock.map RiakBinary.addr) +
            ({addr} + {internal})) =
          0 + (blocks (key.map RiakBinary.addr) + (blocks (vclock.map RiakBinary.addr) +
            ({internal} + {addr})))
        abel
      · rintro _ ⟨⟩
        exact ⟨le_refl (0 : Int), fun _ => rfl⟩

theorem riakPutResponseFree_tracks {resp : Option RiakPutResponse}
    (h : WholeOrNull RiakPutResponse.Whole resp) :
    Tracks (blocks resp) (riakPutResponseFree resp) (fun _ => ()) (pure ())
      fun _ after => after = 0 := by
  cases resp with
  | none => exact Tracks.nothing
  | some response =>
    refine (contentFree_tracks (h response rfl)).frees rfl ?_
    refine (Tracks.free _).frees rfl ?_
    refine (Tracks.free _).frees rfl ?_
    exact (Tracks.release _).frees rfl (Tracks.release _)

/-! ### Small responses

One struct, with the message that it was made of or without; the decoders that make a
struct and look at nothing of the message are one. -/

/-- `_riak_ping_response`. -/
structure RiakPingResponse where
  addr : Addr
  success : RiakBoolean

def RiakPingResponse.plain (response : RiakPingResponse) : RiakClient.RiakPingResponse :=
  ⟨response.success⟩

instance : Owns RiakPingResponse := ⟨fun response => {response.addr}⟩

/-- The responses with nothing in them that anything reads. -/
structure RiakEmptyResponse where
  addr : Addr

def RiakEmptyResponse.plain (_ : RiakEmptyResponse) : RiakClient.RiakEmptyResponse := ⟨⟩

instance : Owns RiakEmptyResponse := ⟨fun response => {response.addr}⟩

structure RiakGetClientidResponse where
  addr : Addr
  internal : Addr
  clientId : Option RiakBinary := none

def RiakGetClientidResponse.plain (response : RiakGetClientidResponse) :
    RiakClient.RiakGetClientidResponse :=
  ⟨response.clientId.map RiakBinary.plain⟩

instance : Owns RiakGetClientidResponse :=
  ⟨fun response => blocks response.clientId + ({response.internal} + {response.addr})⟩

structure RiakServerinfoResponse where
  addr : Addr
  internal : Addr
  hasNode : Bool := false
  node : Option RiakBinary := none
  hasServerVersion : Bool := false
  serverVersion : Option RiakBinary := none

def RiakServerinfoResponse.plain (response : RiakServerinfoResponse) :
    RiakClient.RiakServerinfoResponse where
  hasNode := response.hasNode
  node := response.node.map RiakBinary.plain
  hasServerVersion := response.hasServerVersion
  serverVersion := response.serverVersion.map RiakBinary.plain

instance : Owns RiakServerinfoResponse :=
  ⟨fun response => {response.internal} + (blocks response.node +
    (blocks response.serverVersion + {response.addr}))⟩

/-- The decoders that make a struct and look at nothing of the message. -/
def structResponseDecode {α : Type} (make : Addr → α) (resp : Option α) : Booked (Decoded α) := do
  match ← malloc with
  | none => pure ⟨.outOfMemory, resp, 1⟩
  | some addr => pure ⟨.ok, some (make addr), 1⟩

def riakPingResponseDecode (resp : Option RiakPingResponse) : Booked (Decoded RiakPingResponse) :=
  structResponseDecode (fun addr => ⟨addr, 1⟩) resp

def emptyResponseDecode (resp : Option RiakEmptyResponse) : Booked (Decoded RiakEmptyResponse) :=
  structResponseDecode (fun addr => ⟨addr⟩) resp

def riakPingResponseFree (resp : Option RiakPingResponse) : Booked Unit :=
  free (resp.map RiakPingResponse.addr)

/-- `riak_delete_response_free` and the three others. -/
def emptyResponseFree (resp : Option RiakEmptyResponse) : Booked Unit :=
  free (resp.map RiakEmptyResponse.addr)

def riakGetClientidResponseDecode (unpack : Bytes → Option RpbGetClientIdResp)
    (pbresp : RiakPbMessage) (resp : Option RiakGetClientidResponse) (done : RiakBoolean) :
    Booked (Decoded RiakGetClientidResponse) := do
  let payload ← lift pbresp.plain.payload
  match unpack payload with
  | none => pure ⟨.messageFormat, resp, done⟩
  | some rpbresp => do
      let internal ← obtain
      match ← malloc with
      | none => pure ⟨.outOfMemory, resp, 1⟩
      | some addr =>
          match ← riakBinaryCopyFromPb rpbresp.clientId with
          | none => pure ⟨.outOfMemory, resp, 1⟩
          | some clientId => pure ⟨.ok, some ⟨addr, internal, some clientId⟩, 1⟩

def riakGetClientidResponseFree : Option RiakGetClientidResponse → Booked Unit
  | none => pure ()
  | some response => do
      riakBinaryFree response.clientId
      release response.internal
      release response.addr

def riakServerinfoResponseDecode (unpack : Bytes → Option RpbGetServerInfoResp)
    (pbresp : RiakPbMessage) (resp : Option RiakServerinfoResponse) (done : RiakBoolean) :
    Booked (Decoded RiakServerinfoResponse) := do
  let payload ← lift pbresp.plain.payload
  match unpack payload with
  | none => pure ⟨.messageFormat, resp, done⟩
  | some rpbresp => do
      let internal ← obtain
      match ← malloc with
      | none => pure ⟨.outOfMemory, resp, 1⟩
      | some addr => do
          let some node ← copyFromPbIf rpbresp.hasNode rpbresp.node
            | pure ⟨.outOfMemory, resp, 1⟩
          let some version ← copyFromPbIf rpbresp.hasServerVersion rpbresp.serverVersion
            | pure ⟨.outOfMemory, resp, 1⟩
          pure ⟨.ok, some { addr := addr
                            internal := internal
                            hasNode := rpbresp.hasNode, node := node
                            hasServerVersion := rpbresp.hasServerVersion
                            serverVersion := version }, 1⟩

/-- `riak_serverinfo_response_free`, which frees the message first. -/
def riakServerinfoResponseFree : Option RiakServerinfoResponse → Booked Unit
  | none => pure ()
  | some response => do
      release response.internal
      riakBinaryFree response.node
      riakBinaryFree response.serverVersion
      release response.addr

theorem structResponseDecode_tracks {α β : Type} [Owns α] {make : Addr → α} {g : α → β} {b : β}
    (hplain : ∀ addr, g (make addr) = b) (hblocks : ∀ addr, blocks (make addr) = {addr})
    {next : Option β → C (Decoded β)} (hrefused : next none = pure ⟨.outOfMemory, none, 1⟩)
    (hmade : next (some b) = pure ⟨.ok, some b, 1⟩) :
    Tracks 0 (structResponseDecode make none) (decodedMap g) (C.new b >>= next)
      (DecodeLeaves (· = none) (WholeOrNull fun _ => True)) := by
  unfold structResponseDecode C.new
  rw [bind_assoc]
  refine Tracks.malloc.bind ?_
  rintro (_ | addr) _ rfl
  · simp only [Option.isSome_none, Bool.false_eq_true, if_false, pure_bind, hrefused]
    exact Tracks.pure (DecodeLeaves.failed (by decide) _)
  · simp only [Option.isSome_some, if_true, pure_bind, hmade]
    refine Tracks.pure_of (congrArg (fun b => Decoded.mk .ok (some b) 1) (hplain addr)) ?_
    exact DecodeLeaves.closed (hblocks addr).symm (fun _ _ => trivial) rfl

theorem riakPingResponseDecode_tracks :
    Tracks 0 (riakPingResponseDecode none) (decodedMap RiakPingResponse.plain)
      (RiakClient.riakPingResponseDecode none)
      (DecodeLeaves (· = none) (WholeOrNull fun _ => True)) := by
  refine structResponseDecode_tracks (fun addr => ?_) (fun addr => ?_) ?_ ?_
  all_goals rfl

theorem emptyResponseDecode_tracks :
    Tracks 0 (emptyResponseDecode none) (decodedMap RiakEmptyResponse.plain)
      (RiakClient.emptyResponseDecode none)
      (DecodeLeaves (· = none) (WholeOrNull fun _ => True)) := by
  refine structResponseDecode_tracks (fun addr => ?_) (fun addr => ?_) ?_ ?_
  all_goals rfl

theorem riakPingResponseFree_tracks (resp : Option RiakPingResponse) :
    Tracks (blocks resp) (riakPingResponseFree resp) (fun _ => ()) (pure ())
      fun _ after => after = 0 := by
  cases resp with
  | none => exact Tracks.nothing
  | some response => exact Tracks.release response.addr

theorem emptyResponseFree_tracks (resp : Option RiakEmptyResponse) :
    Tracks (blocks resp) (emptyResponseFree resp) (fun _ => ()) (pure ())
      fun _ after => after = 0 := by
  cases resp with
  | none => exact Tracks.nothing
  | some response => exact Tracks.release response.addr

theorem riakGetClientidResponseDecode_tracks (unpack : Bytes → Option RpbGetClientIdResp)
    (pbresp : RiakPbMessage) (done : RiakBoolean) :
    Tracks 0 (riakGetClientidResponseDecode unpack pbresp none done)
      (decodedMap RiakGetClientidResponse.plain)
      (RiakClient.riakGetClientidResponseDecode unpack pbresp.plain none done)
      (DecodeLeaves (· = none) (WholeOrNull fun _ => True)) := by
  unfold riakGetClientidResponseDecode RiakClient.riakGetClientidResponseDecode
  refine Tracks.lift_bind ?_
  intro payload _ _ _
  cases unpack payload with
  | none => exact Tracks.pure (DecodeLeaves.failed (by decide) _)
  | some rpbresp =>
    refine Tracks.obtain.silent (zero_add _).symm ?_
    rintro internal _ rfl
    refine Tracks.malloc.after ?_
    rintro (_ | addr) _ rfl
    · exact Tracks.pure (DecodeLeaves.failed (by decide) _)
    refine (riakBinaryCopyFromPb_tracks _).after ?_
    rintro (_ | clientId) _ rfl
    · exact Tracks.pure (DecodeLeaves.failed (by decide) _)
    refine Tracks.pure (DecodeLeaves.closed ?_ (fun _ _ => trivial) rfl)
    show blocks clientId + ({addr} + {internal}) = blocks clientId + ({internal} + {addr})
    abel

theorem riakGetClientidResponseFree_tracks (resp : Option RiakGetClientidResponse) :
    Tracks (blocks resp) (riakGetClientidResponseFree resp) (fun _ => ()) (pure ())
      fun _ after => after = 0 := by
  cases resp with
  | none => exact Tracks.nothing
  | some response =>
    refine (riakBinaryFree_tracks _).frees rfl ?_
    exact (Tracks.release _).frees rfl (Tracks.release _)

theorem riakServerinfoResponseDecode_tracks (unpack : Bytes → Option RpbGetServerInfoResp)
    (pbresp : RiakPbMessage) (done : RiakBoolean) :
    Tracks 0 (riakServerinfoResponseDecode unpack pbresp none done)
      (decodedMap RiakServerinfoResponse.plain)
      (RiakClient.riakServerinfoResponseDecode unpack pbresp.plain none done)
      (DecodeLeaves (· = none) (WholeOrNull fun _ => True)) := by
  unfold riakServerinfoResponseDecode RiakClient.riakServerinfoResponseDecode
  refine Tracks.lift_bind ?_
  intro payload _ _ _
  cases unpack payload with
  | none => exact Tracks.pure (DecodeLeaves.failed (by decide) _)
  | some rpbresp =>
    refine Tracks.obtain.silent (zero_add _).symm ?_
    rintro internal _ rfl
    refine Tracks.malloc.after ?_
    rintro (_ | addr) _ rfl
    · exact Tracks.pure (DecodeLeaves.failed (by decide) _)
    simp only [Option.isSome_some, if_true]
    refine (copyFromPbIf_tracks _ _).after ?_
    rintro (_ | node) _ rfl
    · exact Tracks.pure (DecodeLeaves.failed (by decide) _)
    refine (copyFromPbIf_tracks _ _).after ?_
    rintro (_ | version) _ rfl
    · exact Tracks.pure (DecodeLeaves.failed (by decide) _)
    refine Tracks.pure (DecodeLeaves.closed ?_ (fun _ _ => trivial) rfl)
    show blocks version + (blocks node + ({addr} + {internal})) =
      {internal} + (blocks node + (blocks version + {addr}))
    abel

theorem riakServerinfoResponseFree_tracks (resp : Option RiakServerinfoResponse) :
    Tracks (blocks resp) (riakServerinfoResponseFree resp) (fun _ => ()) (pure ())
      fun _ after => after = 0 := by
  cases resp with
  | none => exact Tracks.nothing
  | some response =>
    refine (Tracks.release _).frees rfl ?_
    refine (riakBinaryFree_tracks _).frees rfl ?_
    exact (riakBinaryFree_tracks _).frees rfl (Tracks.release _)

end RiakClient.Stored
