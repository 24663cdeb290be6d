import RiakClient.ReadTurns

/-!
# Writes that are cut short

`riak_write` makes two or three writes of the parts of a frame and looks at what
each of them returns. Here the write callback returns whatever it likes and
accepts that many bytes from the front of what it is given.

The writes are seen as one loop over the parts of the frame (`writeParts`), which goes
on unless a write returns zero and never takes more than it is given. What has been
accepted in the end is everything if and only if each write took its whole part, which
is the condition of the theorem but for the length: that has to fit its four bytes.
-/

namespace RiakClient

open CSem Framing

variable {ρ : Type} {results : Nat → Int}

/-! ### A socket -/

/-- The writes made so far, and the bytes that were accepted. -/
structure Socket where
  made : Nat := 0
  accepted : Bytes := []
deriving DecidableEq, Repr

/-- A write callback that returns the given results one after another: a short or
    full count of the bytes it accepts, zero, or a negative number. -/
def acceptWrite (results : Nat → Int) (s : Socket) (data : Bytes) : Int × Socket :=
  (results s.made, ⟨s.made + 1, s.accepted ++ data.take (results s.made).toNat⟩)

/-! ### Parts written one after another -/

/-- The parts of a message are written until a write returns zero. -/
def writeParts (results : Nat → Int) : List Bytes → Socket → RiakError × Socket
  | [], s => (.ok, s)
  | part :: parts, s =>
      if wroteNothing (results s.made) then (.write, (acceptWrite results s part).2)
      else writeParts results parts (acceptWrite results s part).2

theorem writeParts_ok_or_write (parts : List Bytes) (s : Socket) :
    (writeParts results parts s).1 = .ok ∨ (writeParts results parts s).1 = .write := by
  induction parts generalizing s with
  | nil => exact Or.inl rfl
  | cons part parts ih =>
    rw [writeParts]
    split
    · exact Or.inr rfl
    · exact ih _

/-- Some write of a part returned zero. -/
def SomeRefused (results : Nat → Int) (made : Nat) (parts : List Bytes) : Prop :=
  ∃ i, i < parts.length ∧ wroteNothing (results (made + i)) = true

/-- Every write of a part took the whole part. -/
def AllTaken (results : Nat → Int) (made : Nat) (parts : List Bytes) : Prop :=
  ∀ i part, parts[i]? = some part → part.length ≤ (results (made + i)).toNat

theorem someRefused_cons {made : Nat} {part : Bytes} {parts : List Bytes} :
    SomeRefused results made (part :: parts) ↔
      wroteNothing (results made) = true ∨ SomeRefused results (made + 1) parts := by
  constructor
  · rintro ⟨i, hi, hzero⟩
    cases i with
    | zero => exact Or.inl hzero
    | succ i =>
      refine Or.inr ⟨i, Nat.lt_of_succ_lt_succ hi, ?_⟩
      rwa [show made + 1 + i = made + (i + 1) by omega]
  · rintro (hzero | ⟨i, hi, hzero⟩)
    · exact ⟨0, Nat.succ_pos _, hzero⟩
    · refine ⟨i + 1, Nat.succ_lt_succ hi, ?_⟩
      rwa [show made + (i + 1) = made + 1 + i by omega]

theorem allTaken_cons {made : Nat} {part : Bytes} {parts : List Bytes} :
    AllTaken results made (part :: parts) ↔
      part.length ≤ (results made).toNat ∧ AllTaken results (made + 1) parts := by
  constructor
  · intro h
    refine ⟨h 0 part rfl, ?_⟩
    intro i later hlater
    have htaken := h (i + 1) later hlater
    rwa [show made + (i + 1) = made + 1 + i by omega] at htaken
  · rintro ⟨hfirst, hrest⟩ i later hlater
    cases i with
    | zero =>
      cases hlater
      exact hfirst
    | succ i =>
      rw [show made + (i + 1) = made + 1 + i by omega]
      exact hrest i later hlater

theorem writeParts_ok_iff (parts : List Bytes) (s : Socket) :
    (writeParts results parts s).1 = .ok ↔ ¬ SomeRefused results s.made parts := by
  induction parts generalizing s with
  | nil =>
    refine ⟨fun _ => ?_, fun _ => rfl⟩
    rintro ⟨i, hi, _⟩
    exact absurd hi (Nat.not_lt_zero i)
  | cons part parts ih =>
    rw [writeParts, someRefused_cons]
    by_cases hzero : wroteNothing (results s.made) = true
    · rw [if_pos hzero]
      exact ⟨nofun, fun h => absurd (Or.inl hzero) h⟩
    · rw [if_neg hzero, ih, not_or]
      exact ⟨fun h => ⟨hzero, h⟩, fun h => h.2⟩

theorem writeParts_accepted_length (parts : List Bytes) (s : Socket) :
    (writeParts results parts s).2.accepted.length ≤
      s.accepted.length + parts.flatten.length := by
  induction parts generalizing s with
  | nil => exact Nat.le_add_right _ _
  | cons part parts ih =>
    have htaken : (acceptWrite results s part).2.accepted.length ≤
        s.accepted.length + part.length := by
      show (s.accepted ++ part.take _).length ≤ _
      rw [List.length_append]
      exact Nat.add_le_add_left (List.length_take_le' _ _) _
    rw [writeParts, List.flatten_cons, List.length_append]
    split
    · exact Nat.le_trans htaken (by omega)
    · have hrest := ih (acceptWrite results s part).2
      omega

/-- When the writes go through, everything has been accepted if and only if each
    of them took its whole part. -/
theorem writeParts_accepted_iff {parts : List Bytes} {s : Socket}
    (hok : (writeParts results parts s).1 = .ok) :
    (writeParts results parts s).2.accepted = s.accepted ++ parts.flatten ↔
      AllTaken results s.made parts := by
  induction parts generalizing s with
  | nil =>
    refine ⟨fun _ => ?_, fun _ => (List.append_nil _).symm⟩
    intro i part hpart
    cases hpart
  | cons part parts ih =>
    by_cases hzero : wroteNothing (results s.made) = true
    · rw [writeParts, if_pos hzero] at hok
      cases hok
    rw [writeParts, if_neg hzero] at hok ⊢
    rw [allTaken_cons, List.flatten_cons, ← List.append_assoc]
    by_cases hfull : part.length ≤ (results s.made).toNat
    · have hsocket : (acceptWrite results s part).2 = ⟨s.made + 1, s.accepted ++ part⟩ := by
        unfold acceptWrite
        rw [List.take_of_length_le hfull]
      rw [hsocket] at hok ⊢
      rw [ih hok]
      exact ⟨fun h => ⟨hfull, h⟩, fun h => h.2⟩
    · -- one part is short, and what follows cannot make up for it
      refine ⟨fun h => ?_, fun h => absurd h.1 hfull⟩
      have hlength := @writeParts_accepted_length results parts
        (acceptWrite results s part).2
      have hshort : (acceptWrite results s part).2.accepted.length =
          s.accepted.length + (results s.made).toNat := by
        show (s.accepted ++ part.take _).length = _
        rw [List.length_append, List.length_take, Nat.min_eq_left (by omega)]
      rw [h, List.length_append, List.length_append, hshort] at hlength
      omega

/-! ### The frame of a request -/

/-- What `riak_write` writes: the announced length, the id of the message, and the
    payload if there is one. -/
def requestParts (msg : RiakPbMessage) : List Bytes :=
  [hostBytes (htonl (msg.len + 1)), [msg.msgid]] ++ if 0 < msg.len then [msg.data] else []

theorem riakWrite_eq {rop : RiakOperation ρ} {msg : RiakPbMessage}
    (hmsg : rop.pbRequest = some msg) (hdata : msg.data.length = msg.len.toNat) (s : Socket) :
    riakWrite rop (acceptWrite results) s = pure (writeParts results (requestParts msg) s) := by
  have htake : msg.data.take msg.len.toNat = msg.data := by rw [← hdata, List.take_length]
  unfold riakWrite
  rw [hmsg, C.deref_some, pure_bind, if_neg (by omega), htake]
  -- one case for each write that may end the call
  cases hheader : wroteNothing (results s.made) with
  | true => simp [acceptWrite, requestParts, writeParts, hheader]
  | false =>
    cases hid : wroteNothing (results (s.made + 1)) with
    | true => simp [acceptWrite, requestParts, writeParts, hheader, hid]
    | false =>
      by_cases hlen : 0 < msg.len
      · cases hpayload : wroteNothing (results (s.made + 1 + 1)) <;>
          simp [acceptWrite, requestParts, writeParts, hheader, hid, hpayload, hlen]
      · simp [acceptWrite, requestParts, writeParts, hheader, hid, hlen]

/-- Four bytes whose value, highest first, is the length of the payload and one,
    then the id of the message and its payload. -/
def CompleteFrame (msg : RiakPbMessage) (sent : Bytes) : Prop :=
  ∃ header, header.length = 4 ∧ beValue header = msg.len.toNat + 1 ∧
    sent = header ++ msg.msgid :: msg.data

theorem requestParts_flatten {msg : RiakPbMessage} (hdata : msg.data.length = msg.len.toNat) :
    (requestParts msg).flatten =
      bigEndian 4 (msg.len + 1).toNat ++ msg.msgid :: msg.data := by
  unfold requestParts
  rw [hostBytes_htonl]
  by_cases hlen : 0 < msg.len
  · simp [if_pos hlen]
  · have hzero : msg.len.toNat = 0 := by
      rw [UInt32.lt_iff_toNat_lt] at hlen
      exact Nat.eq_zero_of_not_pos hlen
    have hnil : msg.data = [] := List.length_eq_zero_iff.mp (hdata.trans hzero)
    simp [if_neg hlen, hnil]

/-- The four bytes are what `htonl` makes of the length, unless that is too large
    for them. -/
theorem completeFrame_iff {msg : RiakPbMessage} (hdata : msg.data.length = msg.len.toNat)
    (sent : Bytes) :
    CompleteFrame msg sent ↔
      msg.len.toNat + 1 < 2 ^ 32 ∧ sent = (requestParts msg).flatten := by
  rw [requestParts_flatten hdata]
  have hannounced : msg.len.toNat + 1 < 2 ^ 32 → (msg.len + 1).toNat = msg.len.toNat + 1 := by
    intro hlt
    rw [UInt32.toNat_add, UInt32.toNat_one, Nat.mod_eq_of_lt hlt]
  constructor
  · rintro ⟨header, hlength, hvalue, rfl⟩
    have hlt : msg.len.toNat + 1 < 2 ^ 32 := by
      have hbound := beValue_lt header
      rwa [hlength, hvalue] at hbound
    refine ⟨hlt, ?_⟩
    rw [hannounced hlt, ← hvalue, ← hlength, bigEndian_beValue]
  · rintro ⟨hlt, rfl⟩
    refine ⟨_, bigEndian_length _ _, ?_, rfl⟩
    rw [hannounced hlt, beValue_bigEndian hlt]

/-- **Success means a complete frame** if and only if one of the writes returns
    zero, or all of them take everything they are given and the length fits its
    four bytes. -/
theorem riak_write_complete_iff {rop : RiakOperation ρ} {msg : RiakPbMessage}
    (hmsg : rop.pbRequest = some msg) (hdata : msg.data.length = msg.len.toNat)
    (results : Nat → Int) :
    ∃ err s, riakWrite rop (acceptWrite results) {} = pure (err, s) ∧
      (((err = .ok → CompleteFrame msg s.accepted) ∧
          (¬ CompleteFrame msg s.accepted → err = .write)) ↔
        SomeRefused results 0 (requestParts msg) ∨
          (AllTaken results 0 (requestParts msg) ∧ msg.len.toNat + 1 < 2 ^ 32)) := by
  refine ⟨(writeParts results (requestParts msg) {}).1,
    (writeParts results (requestParts msg) {}).2, riakWrite_eq hmsg hdata {}, ?_⟩
  by_cases hrefused : SomeRefused results 0 (requestParts msg)
  · have hwrite : (writeParts results (requestParts msg) {}).1 = .write := by
      rcases @writeParts_ok_or_write results (requestParts msg) {} with hok | hwrite
      · exact absurd hrefused ((writeParts_ok_iff _ _).mp hok)
      · exact hwrite
    rw [hwrite]
    exact ⟨fun _ => Or.inl hrefused, fun _ => ⟨nofun, fun _ => rfl⟩⟩
  · have hok : (writeParts results (requestParts msg) {}).1 = .ok :=
      (writeParts_ok_iff _ _).mpr hrefused
    have htaken := writeParts_accepted_iff hok
    rw [List.nil_append] at htaken
    rw [hok, completeFrame_iff hdata, htaken]
    constructor
    · rintro ⟨h, _⟩
      exact Or.inr ⟨(h rfl).2, (h rfl).1⟩
    · rintro (h | ⟨hall, hlt⟩)
      · exact absurd h hrefused
      · exact ⟨fun _ => ⟨hlt, hall⟩, fun h => absurd ⟨hlt, hall⟩ h⟩

/-- The request of `riak_ping`, with the payload of another message. -/
def sampleRequest : RiakPbMessage := ⟨1, 3, [7, 8, 9]⟩

/-- Full counts make a complete frame. -/
theorem riak_write_complete_sample :
    ∃ err s, riakWrite ({ pbRequest := some sampleRequest } : RiakOperation Unit)
        (acceptWrite fun i => [4, 1, 3].getD i 0) {} = pure (err, s) ∧
      (((err = .ok → CompleteFrame sampleRequest s.accepted) ∧
          (¬ CompleteFrame sampleRequest s.accepted → err = .write)) ↔
        SomeRefused (fun i => [4, 1, 3].getD i 0) 0 (requestParts sampleRequest) ∨
          (AllTaken (fun i => [4, 1, 3].getD i 0) 0 (requestParts sampleRequest) ∧
            sampleRequest.len.toNat + 1 < 2 ^ 32)) :=
  riak_write_complete_iff rfl rfl fun i => [4, 1, 3].getD i 0

/-- A header of which two bytes are accepted, and a payload that fails: success
    both times. -/
theorem riak_write_short_taken_for_success :
    (∃ s, riakWrite ({ pbRequest := some sampleRequest } : RiakOperation Unit)
        (acceptWrite fun i => [2, 1, 3].getD i 0) {} = pure (.ok, s) ∧
      s.accepted = [0, 0, 1, 7, 8, 9] ∧ ¬ CompleteFrame sampleRequest s.accepted) ∧
    (∃ s, riakWrite ({ pbRequest := some sampleRequest } : RiakOperation Unit)
        (acceptWrite fun i => [4, 1, -1].getD i 0) {} = pure (.ok, s) ∧
      s.accepted = [0, 0, 0, 4, 1] ∧ ¬ CompleteFrame sampleRequest s.accepted) := by
  refine ⟨⟨⟨3, [0, 0, 1, 7, 8, 9]⟩, ?_, rfl, ?_⟩, ⟨⟨3, [0, 0, 0, 4, 1]⟩, ?_, rfl, ?_⟩⟩
  · exact (riakWrite_eq rfl rfl {}).trans (congrArg pure (by decide))
  · rw [completeFrame_iff rfl]
    decide
  · exact (riakWrite_eq rfl rfl {}).trans (congrArg pure (by decide))
  · rw [completeFrame_iff rfl]
    decide

end RiakClient
