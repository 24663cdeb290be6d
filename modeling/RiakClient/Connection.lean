import RiakClient.BinaryOrder
import RiakClient.TextBuffer

/-!
# Names that a connection keeps

`riak_strlcpy` and `riak_strlcat` (`riak_utils.c`) copy a string into a buffer whose
size counts the NUL as well. `riak_connection_new` (`riak_connection.c`) copies the host
and the port into two arrays of its connection before it resolves the address and opens
a socket (`riak_network.c`).
-/

namespace RiakClient

open CSem

variable {heap final : Heap}

/-! ### Bounded copies

Each loop has a lemma that says where it ends: the copy at the size or at the NUL, the
walk where the string does that is there. With them the two functions store one text,
as much of it as the size has characters, and a NUL behind it. -/

/-- `for(; (len < size) && (*src != '\0'); len++) *dst++ = *src++;`, where `dst` has gone
    as far as `len`. -/
def copyStringLoop (size dst : Nat) : Nat → Bytes → Bytes → C (Nat × Bytes)
  | len, [], memory => if len < size then C.fault .outOfBounds else pure (len, memory)
  | len, c :: src, memory =>
      if len < size ∧ c ≠ 0 then do
        let memory ← C.writeAt memory (dst + len) c
        copyStringLoop size dst (len + 1) src memory
      else pure (len, memory)

/-- `riak_strlcpy` to an offset of a memory. -/
def riakStrlcpy (memory : Bytes) (dst : Nat) (src : Bytes) (size : Nat) : C (Nat × Bytes) :=
  if size = 0 then pure (0, memory)
  else do
    let (len, memory) ← copyStringLoop size dst 0 src memory
    pure (len, ← C.writeAt memory (dst + len) 0)

/-- "Walk to the end of the first string", with `left` characters to go to the size. -/
def stringEndLoop (memory : Bytes) (dst : Nat) : Nat → Nat → C Nat
  | 0, len => pure len
  | left + 1, len => do
      let c ← C.readAt memory (dst + len)
      if c ≠ 0 then stringEndLoop memory dst left (len + 1) else pure len

def riakStrlcat (memory : Bytes) (dst : Nat) (src : Bytes) (size : Nat) : C (Nat × Bytes) :=
  if size = 0 then pure (0, memory)
  else do
    let len ← stringEndLoop memory dst size 0
    let (len, memory) ← copyStringLoop size dst len src memory
    pure (len, ← C.writeAt memory (dst + len) 0)

theorem cString_cons_nul (str : Bytes) : cString (0 :: str) = [] := rfl

theorem cString_cons_of_ne {c : UInt8} (hchar : c ≠ 0) (str : Bytes) :
    cString (c :: str) = c :: cString str := List.takeWhile_cons_of_pos (decide_eq_true hchar)

theorem copyStringLoop_eq (size dst len : Nat) {src : Bytes} (hterminated : 0 ∈ src)
    (memory : Bytes) :
    copyStringLoop size dst len src memory =
      C.copyAt memory (dst + len) ((cString src).take (size - len)) >>= fun written =>
        pure (len + ((cString src).take (size - len)).length, written) := by
  induction src generalizing len memory with
  | nil => cases hterminated
  | cons c src ih =>
    rw [copyStringLoop]
    by_cases hgoes : len < size ∧ c ≠ 0
    · obtain ⟨hroom, hchar⟩ := hgoes
      have hlater : 0 ∈ src := (List.mem_cons.mp hterminated).resolve_left (Ne.symm hchar)
      have hmore : size - len = size - (len + 1) + 1 := by omega
      rw [if_pos ⟨hroom, hchar⟩, cString_cons_of_ne hchar, hmore, List.take_succ_cons,
        C.copyAt_cons, bind_assoc]
      refine bind_congr fun written => ?_
      rw [ih (len + 1) hlater, List.length_cons, Nat.add_assoc dst, Nat.add_assoc len,
        Nat.add_comm 1]
    · have hnone : (cString (c :: src)).take (size - len) = [] := by
        by_cases hchar : c = 0
        · rw [hchar, cString_cons_nul, List.take_nil]
        · rw [Nat.sub_eq_zero_of_le (Nat.not_lt.mp fun hroom => hgoes ⟨hroom, hchar⟩),
            List.take_zero]
      rw [if_neg hgoes, hnone]
      rfl

theorem stringEndLoop_eq {memory after : Bytes} (dst len : Nat) {room : Bytes}
    (hterminated : 0 ∈ room) (hroom : memory.drop (dst + len) = room ++ after) :
    stringEndLoop memory dst room.length len = pure (len + (cString room).length) := by
  induction room generalizing len with
  | nil => cases hterminated
  | cons c room ih =>
    have hread : memory[dst + len]? = some c := by
      rw [← Nat.add_zero (dst + len), ← List.getElem?_drop, hroom]
      rfl
    rw [List.length_cons, stringEndLoop, C.readAt_of_get hread, pure_bind]
    by_cases hchar : c = 0
    · rw [if_neg (not_not.mpr hchar), hchar, cString_cons_nul]
      rfl
    · have hlater : 0 ∈ room := (List.mem_cons.mp hterminated).resolve_left (Ne.symm hchar)
      have hnext : memory.drop (dst + (len + 1)) = room ++ after := by
        rw [← Nat.add_assoc, ← List.drop_drop, hroom]
        rfl
      rw [if_pos hchar, ih (len + 1) hlater hnext, cString_cons_of_ne hchar, List.length_cons,
        Nat.add_assoc, Nat.add_comm 1]

theorem riakStrlcpy_eq {src : Bytes} (hterminated : 0 ∈ src) {size : Nat} (hsize : 0 < size)
    (memory : Bytes) (dst : Nat) :
    riakStrlcpy memory dst src size =
      C.copyAt memory dst ((cString src).take size ++ [0]) >>= fun written =>
        pure (((cString src).take size).length, written) := by
  unfold riakStrlcpy
  rw [if_neg (Nat.ne_of_gt hsize), copyStringLoop_eq size dst 0 hterminated, bind_assoc,
    C.copyAt_append_text, bind_assoc]
  refine bind_congr fun written => ?_
  rw [pure_bind, C.copyAt_singleton, Nat.zero_add]
  rfl

theorem riakStrlcat_eq {before room after src : Bytes} (hterminated : 0 ∈ src)
    (hroom : 0 ∈ room) :
    riakStrlcat (before ++ room ++ after) before.length src room.length =
      C.copyAt (before ++ room ++ after) before.length
          ((cString room ++ cString src).take room.length ++ [0]) >>= fun written =>
        pure (((cString room ++ cString src).take room.length).length, written) := by
  obtain ⟨rest, hrest, _⟩ := cString_append room
  have hlength : (cString room).length ≤ room.length :=
    (List.takeWhile_prefix (· ≠ (0 : UInt8))).length_le
  have hsize : room.length ≠ 0 := Nat.ne_of_gt (List.length_pos_of_mem hroom)
  have hstart : (before ++ room ++ after).drop (before.length + 0) = room ++ after := by
    rw [List.append_assoc, Nat.add_zero, List.drop_left]
  have hthere : C.copyAt (before ++ room ++ after) before.length (cString room) =
      pure (before ++ room ++ after) := by
    have hmemory : before ++ room ++ after = before ++ (cString room ++ (rest ++ after)) := by
      rw [← List.append_assoc (cString room), ← hrest, List.append_assoc]
    rw [hmemory, C.copyAt_same]
  have hshown : (cString room ++ cString src).take room.length =
      cString room ++ (cString src).take (room.length - (cString room).length) := by
    rw [List.take_append, List.take_of_length_le hlength]
  generalize before ++ room ++ after = memory at hstart hthere
  unfold riakStrlcat
  rw [if_neg hsize, stringEndLoop_eq before.length 0 hroom hstart, pure_bind, Nat.zero_add,
    copyStringLoop_eq _ _ _ hterminated, bind_assoc, hshown, List.append_assoc,
    C.copyAt_append_text, hthere, pure_bind, C.copyAt_append_text, bind_assoc]
  refine bind_congr fun written => ?_
  rw [pure_bind, C.copyAt_singleton, List.length_append, Nat.add_assoc]

/-! ### Inside the destination -/

/-- A copy leaves a string and its NUL in the destination `room`, and writes nothing
    outside. -/
def StoresString (copy : Bytes → Nat → C (Nat × Bytes)) (before room : Bytes) (heap : Heap)
    (text : Bytes) : Prop :=
  C.Inside (fun memory => copy memory before.length) before room heap
    fun _ room' => text ++ [0] <+: room'

/-- What stores one character too many of a long string does so exactly where the string is
    as long as the destination. -/
theorem storesString_iff {copy : Bytes → Nat → C (Nat × Bytes)} {before room whole : Bytes}
    (hcopy : ∀ after, copy (before ++ room ++ after) before.length =
      C.copyAt (before ++ room ++ after) before.length (whole.take room.length ++ [0]) >>=
        fun written => pure ((whole.take room.length).length, written)) :
    StoresString copy before room heap (whole.take (room.length - 1)) ↔
      whole.length < room.length := by
  unfold StoresString
  rw [C.inside_iff_of_copyAt hcopy, List.length_append, List.length_singleton, List.length_take]
  constructor
  · rintro ⟨hfits, _⟩
    omega
  · intro hshort
    rw [List.take_of_length_le (Nat.le_of_lt hshort),
      List.take_of_length_le (Nat.le_sub_one_of_lt hshort)]
    exact ⟨by omega, List.prefix_append _ _⟩

theorem riakStrlcpy_stores_iff {src : Bytes} (hterminated : 0 ∈ src) (before : Bytes)
    {room : Bytes} (hroom : room ≠ []) (heap : Heap) :
    StoresString (fun memory dst => riakStrlcpy memory dst src room.length) before room heap
        ((cString src).take (room.length - 1)) ↔
      (cString src).length < room.length :=
  storesString_iff fun _ =>
    riakStrlcpy_eq hterminated (List.length_pos_iff.mpr hroom) _ before.length

theorem riakStrlcat_stores_iff {src : Bytes} (hterminated : 0 ∈ src) (before : Bytes)
    {room : Bytes} (hroom : 0 ∈ room) (heap : Heap) :
    StoresString (fun memory dst => riakStrlcat memory dst src room.length) before room heap
        ((cString room ++ cString src).take (room.length - 1)) ↔
      (cString room).length + (cString src).length < room.length := by
  rw [← List.length_append]
  exact storesString_iff fun _ => riakStrlcat_eq hterminated hroom

/-! ### The network -/

/-- `struct sockaddr`. -/
structure Sockaddr where
  saFamily : Int
  saData : Bytes
deriving DecidableEq, Repr

/-- `struct addrinfo`, of which only the first address is used. -/
structure RiakAddrinfo where
  aiFlags : Int := 0
  aiFamily : Int := 0
  aiSocktype : Int := 0
  aiProtocol : Int := 0
  aiAddrlen : UInt32 := 0
  aiAddr : Option Sockaddr := none
deriving DecidableEq, Repr

/-- `riak_addr_resolver`: the error, and what `*res` has been set to if it has been set. -/
abbrev RiakAddrResolver : Type := Bytes → Bytes → RiakAddrinfo → Int × Option RiakAddrinfo

/-- The constants of the platform, and what the network answers. -/
structure Network where
  afInet : Int := 2
  afInet6 : Int := 10
  sockStream : Int := 1
  ipprotoTcp : Int := 6
  aiAddrconfig : Int := 0x20
  einprogress : Int := 115
  eagain : Int := 11
  getaddrinfo : RiakAddrResolver
  socket : Int → Int → Int → Int
  connect : Int → Option Sockaddr → UInt32 → Int
  errno : Int
  /-- The text of an address, which is stored if it fits. -/
  inetNtop : Sockaddr → Bytes
  ntohs : Sockaddr → UInt16

/-- `_riak_connection`. -/
structure RiakConnection where
  hostname : Bytes
  portnum : Bytes
  addrinfo : Option RiakAddrinfo := none
  fd : Int := 0
deriving DecidableEq, Repr

/-- `RIAK_HOST_MAX_LEN`. -/
def riakHostMaxLen : Nat := 256

/-- The array for a name in a connection that has just been allocated. -/
def clearedField : Bytes := List.replicate riakHostMaxLen 0

/-- `INET6_ADDRSTRLEN`. -/
def inet6Addrstrlen : Nat := 46

variable (net : Network)

/-- `riak_resolve_address`, with the result that the resolver leaves. -/
def riakResolveAddress (resolver : RiakAddrResolver) (host portnum : Bytes) :
    RiakError × Option RiakAddrinfo :=
  let addrhints : RiakAddrinfo :=
    { aiFamily := net.afInet
      aiSocktype := net.sockStream
      aiProtocol := net.ipprotoTcp
      aiFlags := net.aiAddrconfig }
  let (err, addrinfo) := resolver host portnum addrhints
  (if err ≠ 0 then .dnsResolution else .ok, addrinfo)

/-- `inet_ntop`: nothing is stored without room for the text and its NUL. -/
def inetNtop (addr : Sockaddr) (target : Bytes) (len : Nat) : C Bytes :=
  if (net.inetNtop addr).length < len then C.copyAt target 0 (net.inetNtop addr ++ [0])
  else pure target

/-- `"<Unknown>"`. -/
def unknownHost : Bytes := [60, 85, 110, 107, 110, 111, 119, 110, 62, 0]

/-- `riak_print_host`. The port of an unknown family is not set: it is the pointer that
    gets 0. -/
def riakPrintHost (addrinfo : RiakAddrinfo) (target : Bytes) (len : Nat) :
    C (Bytes × Option UInt16) := do
  let addr ← C.deref addrinfo.aiAddr
  if addr.saFamily = net.afInet ∨ addr.saFamily = net.afInet6 then
    pure (← inetNtop net addr target len, some (net.ntohs addr))
  else
    let (_, target) ← riakStrlcpy target 0 unknownHost len
    pure (target, none)

/-- `riak_just_open_a_socket`, which blocks. -/
def riakJustOpenASocket (addrinfo : Option RiakAddrinfo) : C Int := do
  let info ← C.deref addrinfo
  let sock := net.socket info.aiFamily info.aiSocktype info.aiProtocol
  if sock < 0 then pure (-1)
  else
    let err := net.connect sock info.aiAddr info.aiAddrlen
    if err ≠ 0 ∧ net.errno ≠ net.einprogress ∧ net.errno ≠ net.eagain then
      -- for the log only
      let _ ← riakPrintHost net info (List.replicate inet6Addrstrlen 0) inet6Addrstrlen
      pure (-1)
    else pure sock

/-- `riak_connection_new`, with what `*cxn_target` has been set to. The two names are
    arrays of the connection, and each has to stay in its own. -/
def riakConnectionNew (hostname portnum : Bytes) (resolver : Option RiakAddrResolver) :
    C (RiakError × Option RiakConnection) := do
  if ← C.allocate then
    let (_, hostField) ← riakStrlcpy clearedField 0 hostname riakHostMaxLen
    let (_, portField) ← riakStrlcpy clearedField 0 portnum riakHostMaxLen
    let (err, addrinfo) :=
      riakResolveAddress net (resolver.getD net.getaddrinfo) hostname portnum
    let cxn : RiakConnection :=
      { hostname := hostField, portnum := portField, addrinfo := addrinfo }
    if err ≠ .ok then pure (.dnsResolution, some cxn)
    else
      let fd ← riakJustOpenASocket net addrinfo
      if fd < 0 then pure (.connect, some { cxn with fd := fd })
      else pure (.ok, some { cxn with fd := fd })
  else pure (.outOfMemory, none)

/-! ### Names

A name that is too long has no room for its NUL. The text for a host of an unknown
family always fits, and a request for the connection that is refused leaves no
connection, so only the two names decide. -/

/-- A field of a connection has the longest part of a string that it has room for, and a
    NUL behind it. -/
def FieldHolds (field str : Bytes) : Prop :=
  field.length = riakHostMaxLen ∧ (cString str).take (riakHostMaxLen - 1) ++ [0] <+: field

/-- Whatever becomes of the connection, its names are written inside their fields and are
    there if it is. -/
structure NamesKept (hostname portnum : Bytes)
    (outcome : Except Fault ((RiakError × Option RiakConnection) × Heap)) : Prop where
  inside : outcome ≠ .error .outOfBounds
  stored : ∀ err cxn final, outcome = .ok ((err, some cxn), final) →
    FieldHolds cxn.hostname hostname ∧ FieldHolds cxn.portnum portnum

theorem riakStrlcpy_short {str : Bytes} (hterminated : 0 ∈ str)
    (hshort : (cString str).length < riakHostMaxLen) (heap : Heap) :
    ∃ len field, riakStrlcpy clearedField 0 str riakHostMaxLen heap = .ok ((len, field), heap) ∧
      FieldHolds field str := by
  have hsize : clearedField.length = riakHostMaxLen := List.length_replicate
  have hroom : clearedField ≠ [] := List.cons_ne_nil _ _
  rw [← hsize] at hshort
  obtain ⟨len, field, hlength, hcopy, hholds⟩ :=
    (riakStrlcpy_stores_iff hterminated [] hroom heap).mpr hshort []
  rw [hsize] at hlength hcopy hholds
  rw [List.append_nil, List.append_nil] at hcopy
  exact ⟨len, field, hcopy, hlength, hholds⟩

theorem riakStrlcpy_long {str : Bytes} (hterminated : 0 ∈ str)
    (hlong : riakHostMaxLen ≤ (cString str).length) :
    riakStrlcpy clearedField 0 str riakHostMaxLen = C.fault .outOfBounds := by
  have hshown : ((cString str).take riakHostMaxLen ++ [0]).length = riakHostMaxLen + 1 := by
    rw [List.length_append, List.length_take_of_le hlong]
    rfl
  have hsize : 0 < riakHostMaxLen := Nat.zero_lt_succ 255
  have htext : (cString str).take riakHostMaxLen ++ [0] ≠ [] :=
    List.append_ne_nil_of_right_ne_nil _ (List.cons_ne_nil _ _)
  have hout : clearedField.length <
      0 + ((cString str).take riakHostMaxLen ++ [0]).length := by
    rw [hshown, Nat.zero_add, clearedField, List.length_replicate]
    exact Nat.lt_succ_self _
  rw [riakStrlcpy_eq hterminated hsize, C.copyAt_of_lt htext hout, C.fault_bind]

theorem inetNtop_inside (addr : Sockaddr) (target : Bytes) :
    inetNtop net addr target target.length heap ≠ .error .outOfBounds := by
  unfold inetNtop
  split
  · rw [C.copyAt_of_le (by rw [List.length_append, List.length_singleton]; omega)]
    rintro ⟨⟩
  · rintro ⟨⟩

theorem riakPrintHost_inside (addrinfo : RiakAddrinfo) {target : Bytes}
    (htarget : unknownHost.length ≤ target.length) :
    riakPrintHost net addrinfo target target.length heap ≠ .error .outOfBounds := by
  unfold riakPrintHost
  apply C.bind_ne_error
  · cases addrinfo.aiAddr with
    | none => rintro ⟨⟩
    | some addr => rintro ⟨⟩
  · intro addr rest _
    split
    · apply C.bind_ne_error (inetNtop_inside net addr target)
      rintro _ _ _ ⟨⟩
    · have hsize : 0 < target.length := Nat.lt_of_lt_of_le (by decide) htarget
      have hfits : 0 + ((cString unknownHost).take target.length ++ [0]).length ≤
          target.length := by
        rw [List.length_append, List.length_take, List.length_singleton]
        have htext : (cString unknownHost).length + 1 = unknownHost.length := rfl
        omega
      rw [riakStrlcpy_eq (by decide) hsize, C.copyAt_of_le hfits]
      rintro ⟨⟩

theorem riakJustOpenASocket_inside (addrinfo : Option RiakAddrinfo) :
    riakJustOpenASocket net addrinfo heap ≠ .error .outOfBounds := by
  unfold riakJustOpenASocket
  apply C.bind_ne_error
  · cases addrinfo with
    | none => rintro ⟨⟩
    | some info => rintro ⟨⟩
  · intro info rest _
    have hhost : riakPrintHost net info (List.replicate inet6Addrstrlen 0) inet6Addrstrlen rest ≠
        .error .outOfBounds := riakPrintHost_inside net info (by decide)
    simp only
    split
    · rintro ⟨⟩
    · split
      · apply C.bind_ne_error hhost
        rintro _ _ _ ⟨⟩
      · rintro ⟨⟩

theorem riakConnectionNew_refused (hrefused : heap.answer 0 = false) (hostname portnum : Bytes)
    (resolver : Option RiakAddrResolver) :
    riakConnectionNew net hostname portnum resolver heap =
      .ok ((.outOfMemory, none), heap.after 1) := by
  unfold riakConnectionNew
  rw [C.bind_of_ok (C.allocate_eq heap), hrefused]
  rfl

theorem riakConnectionNew_long (hgranted : heap.answer 0 = true) {hostname portnum : Bytes}
    (hhost : 0 ∈ hostname) (hport : 0 ∈ portnum)
    (hlong : ¬ ((cString hostname).length < riakHostMaxLen ∧
      (cString portnum).length < riakHostMaxLen)) (resolver : Option RiakAddrResolver) :
    riakConnectionNew net hostname portnum resolver heap = .error .outOfBounds := by
  unfold riakConnectionNew
  rw [C.bind_of_ok (C.allocate_eq heap), hgranted, if_pos rfl]
  by_cases hshort : (cString hostname).length < riakHostMaxLen
  · have hsecond : riakHostMaxLen ≤ (cString portnum).length :=
      Nat.not_lt.mp fun hshort' => hlong ⟨hshort, hshort'⟩
    obtain ⟨_, field, hcopy, _⟩ := riakStrlcpy_short hhost hshort (heap.after 1)
    rw [C.bind_of_ok hcopy]
    simp only
    rw [riakStrlcpy_long hport hsecond]
    rfl
  · rw [riakStrlcpy_long hhost (Nat.not_lt.mp hshort)]
    rfl

theorem riakConnectionNew_short (hgranted : heap.answer 0 = true) {hostname portnum : Bytes}
    (hhost : 0 ∈ hostname) (hport : 0 ∈ portnum)
    (hshort : (cString hostname).length < riakHostMaxLen)
    (hshort' : (cString portnum).length < riakHostMaxLen)
    (resolver : Option RiakAddrResolver) :
    NamesKept hostname portnum (riakConnectionNew net hostname portnum resolver heap) := by
  obtain ⟨_, hostField, hcopy, hholds⟩ := riakStrlcpy_short hhost hshort (heap.after 1)
  obtain ⟨_, portField, hcopy', hholds'⟩ := riakStrlcpy_short hport hshort' (heap.after 1)
  unfold riakConnectionNew
  rw [C.bind_of_ok (C.allocate_eq heap), hgranted, if_pos rfl, C.bind_of_ok hcopy]
  simp only
  rw [C.bind_of_ok hcopy']
  simp only
  split
  · -- the name is not resolved
    refine ⟨by rintro ⟨⟩, ?_⟩
    rintro _ _ _ ⟨⟩
    exact ⟨hholds, hholds'⟩
  · constructor
    · apply C.bind_ne_error (riakJustOpenASocket_inside net _)
      intro fd rest _
      split <;> rintro ⟨⟩
    · intro err cxn final h
      obtain ⟨fd, rest, _, hlast⟩ := C.bind_eq_ok.mp h
      split at hlast
      · cases hlast
        exact ⟨hholds, hholds'⟩
      · cases hlast
        exact ⟨hholds, hholds'⟩

/-- Names that fit in their fields are kept, and so are names for which there is no
    connection. -/
theorem riakConnectionNew_kept_iff {hostname portnum : Bytes} (hhost : 0 ∈ hostname)
    (hport : 0 ∈ portnum) (resolver : Option RiakAddrResolver) (heap : Heap) :
    NamesKept hostname portnum (riakConnectionNew net hostname portnum resolver heap) ↔
      heap.answer 0 = false ∨ (cString hostname).length < riakHostMaxLen ∧
        (cString portnum).length < riakHostMaxLen := by
  cases hanswer : heap.answer 0 with
  | false =>
    rw [riakConnectionNew_refused net hanswer]
    refine iff_of_true ⟨by rintro ⟨⟩, ?_⟩ (Or.inl rfl)
    rintro _ _ _ ⟨⟩
  | true =>
    constructor
    · intro hkept
      by_contra hlong
      exact hkept.inside (riakConnectionNew_long net hanswer hhost hport
        (fun hshort => hlong (Or.inr hshort)) resolver)
    · rintro (⟨⟨⟩⟩ | ⟨hshort, hshort'⟩)
      exact riakConnectionNew_short net hanswer hhost hport hshort hshort' resolver

/-- **Bounded copies of strings** stay inside their destination exactly if the strings are
    shorter than it, because a string that is not leaves no room for the NUL. So do the names
    of a connection. -/
theorem riak_strings_bounded_iff {src : Bytes} (hsrc : 0 ∈ src) (before : Bytes)
    {room dst : Bytes} (hroom : room ≠ []) (hdst : 0 ∈ dst) {hostname portnum : Bytes}
    (hhost : 0 ∈ hostname) (hport : 0 ∈ portnum) (resolver : Option RiakAddrResolver)
    (heap : Heap) :
    (StoresString (fun memory dst => riakStrlcpy memory dst src room.length) before room heap
        ((cString src).take (room.length - 1)) ↔
      (cString src).length < room.length) ∧
    (StoresString (fun memory at_ => riakStrlcat memory at_ src dst.length) before dst heap
        ((cString dst ++ cString src).take (dst.length - 1)) ↔
      (cString dst).length + (cString src).length < dst.length) ∧
    (NamesKept hostname portnum (riakConnectionNew net hostname portnum resolver heap) ↔
      heap.answer 0 = false ∨ (cString hostname).length < riakHostMaxLen ∧
        (cString portnum).length < riakHostMaxLen) :=
  ⟨riakStrlcpy_stores_iff hsrc before hroom heap, riakStrlcat_stores_iff hsrc before hdst heap,
    riakConnectionNew_kept_iff net hhost hport resolver heap⟩

/-- A network that resolves every name to a local address where nothing listens. -/
def localNetwork : Network where
  getaddrinfo := fun _ _ hints =>
    (0, some { hints with aiAddrlen := 16, aiAddr := some ⟨2, [0, 1, 127, 0, 0, 1]⟩ })
  socket := fun _ _ _ => 3
  connect := fun _ _ _ => -1
  errno := 111
  inetNtop := fun _ => [49, 50, 55, 46, 48, 46, 48, 46, 49]
  ntohs := fun _ => 1

/-- `"b"` in two bytes, behind `"a"` in three, and a connection to `"h"`, port `"1"`. -/
theorem riak_strings_bounded_local :
    StoresString (fun memory dst => riakStrlcpy memory dst [98, 0] 2) [] [1, 1] Heap.fresh [98] ∧
      StoresString (fun memory dst => riakStrlcat memory dst [98, 0] 3) [] [97, 0, 1] Heap.fresh
        [97, 98] ∧
      NamesKept [104, 0] [49, 0]
        (riakConnectionNew localNetwork [104, 0] [49, 0] none Heap.fresh) := by
  have hsrc : 0 ∈ ([98, 0] : Bytes) := by decide
  have hroom : ([1, 1] : Bytes) ≠ [] := by decide
  have hdst : 0 ∈ ([97, 0, 1] : Bytes) := by decide
  have hhost : 0 ∈ ([104, 0] : Bytes) := by decide
  have hport : 0 ∈ ([49, 0] : Bytes) := by decide
  obtain ⟨hcpy, hcat, hcxn⟩ :=
    riak_strings_bounded_iff localNetwork hsrc [] hroom hdst hhost hport none Heap.fresh
  exact ⟨hcpy.mpr (by decide), hcat.mpr (by decide), hcxn.mpr (Or.inr ⟨by decide, by decide⟩)⟩

/-- A name of as many characters as there are bytes in the field for it. -/
def longName : Bytes := List.replicate riakHostMaxLen 97 ++ [0]

theorem longName_length : (cString longName).length = riakHostMaxLen := by
  have hchars : ∀ c ∈ List.replicate riakHostMaxLen (97 : UInt8), decide (c ≠ 0) = true := by
    intro c hc
    rw [List.eq_of_mem_replicate hc]
    decide
  unfold cString longName
  rw [List.takeWhile_append_of_pos hchars, List.length_append, List.length_replicate]
  rfl

/-- `"a"` in one byte, behind `"a"` in two, and as the name of a host. -/
theorem riak_strings_overrun :
    ¬ StoresString (fun memory dst => riakStrlcpy memory dst [97, 0] 1) [] [0] Heap.fresh [] ∧
      ¬ StoresString (fun memory dst => riakStrlcat memory dst [97, 0] 2) [] [97, 0] Heap.fresh
        [97] ∧
      ¬ NamesKept longName [49, 0]
        (riakConnectionNew localNetwork longName [49, 0] none Heap.fresh) := by
  refine ⟨?cpy, ?cat, ?cxn⟩
  case cpy =>
    intro h
    obtain ⟨_, _, _, hrun, _⟩ := h []
    cases hrun
  case cat =>
    intro h
    obtain ⟨_, _, _, hrun, _⟩ := h []
    cases hrun
  case cxn =>
    have hterminated : 0 ∈ longName := List.mem_append_right _ List.mem_cons_self
    intro h
    rcases (riakConnectionNew_kept_iff localNetwork hterminated (by decide) none
      Heap.fresh).mp h with ⟨⟨⟩⟩ | ⟨hshort, _⟩
    rw [longName_length] at hshort
    exact Nat.lt_irrefl _ hshort

end RiakClient
