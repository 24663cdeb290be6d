import RiakClient.BucketpropsResponse
import RiakClient.FetchStore
import RiakClient.ListingMemory

/-!
# Get and put responses without memory

The decoders of a get and of a put make an object of every content, and every
object takes as many requests as it has members. Their helpers check most of them.
This module counts the requests, and says on which refusals a decoder still returns
everything or nothing.

Most parts of an object settle: they take a fixed number of requests, and are not made
if one is refused. The array of links is the exception, since its test looks at the
wrong pointer. The loops over the objects are described by what a round of them comes
to, and both decoders by one lemma about an array and a loop that fills it.
-/

namespace RiakClient

open CSem

variable {α β ρ : Type} {heap final : Heap}

/-! ### Put responses -/

structure RiakPutResponse where
  hasVclock : Bool := false
  vclock : Option RiakBinary := none
  hasKey : Bool := false
  key : Option RiakBinary := none
  nContent : Int := 0
  content : Option (List (Option RiakObject)) := none
deriving DecidableEq, Repr

/-- One round of the loop over the contents. -/
def riakPutObject (content : List RpbContent) (i : Nat) : C (Option RiakObject) := do
  let (err, object) ← riakObjectNewFromPb (← C.readAt content i)
  if err ≠ .ok then pure none else pure object

/-- `riak_put_response_decode`. Objects made before one that cannot be made are freed. -/
def riakPutResponseDecode (unpack : Bytes → Option RpbPutResp) (pbresp : RiakPbMessage)
    (resp : Option RiakPutResponse) (done : RiakBoolean) : C (Decoded RiakPutResponse) := do
  match unpack (← pbresp.payload) with
  | none => pure ⟨.messageFormat, resp, done⟩
  | some rpbresp =>
      if ← C.allocate then
        let some vclock ← copyFromPbIf rpbresp.hasVclock rpbresp.vclock
          | pure ⟨.outOfMemory, resp, 1⟩
        let some key ← copyFromPbIf rpbresp.hasKey rpbresp.key
          | pure ⟨.outOfMemory, resp, 1⟩
        let response : RiakPutResponse := {
          hasVclock := rpbresp.hasVclock, vclock := vclock
          hasKey := rpbresp.hasKey, key := key }
        if 0 < rpbresp.content.length then
          if ← C.allocate then
            match ← copyLoop (riakPutObject rpbresp.content) rpbresp.content.length 0 with
            | none => pure ⟨.outOfMemory, resp, 1⟩
            | some objects =>
                pure ⟨.ok, some { response with
                  nContent := Int.bmod rpbresp.content.length (2 ^ 32)
                  content := some (objects.map some) }, 1⟩
          else pure ⟨.outOfMemory, resp, 1⟩
        else pure ⟨.ok, some response, 1⟩
      else pure ⟨.outOfMemory, resp, 1⟩

/-! ### The requests of an object -/

def RpbPair.requests (pbpair : RpbPair) : Nat := 1 + (1 + memberRequests pbpair.hasValue)

def RpbLink.requests (pblink : RpbLink) : Nat :=
  1 + (memberRequests pblink.hasBucket +
    (memberRequests pblink.hasKey + memberRequests pblink.hasTag))

/-- The array of pointers, and the entries. -/
def Repeated.requests (requests : α → Nat) (r : Repeated α) : Nat :=
  if 0 < r.count then 1 + (r.entries.map requests).sum else 0

/-- What is asked for before the array of links. -/
def RpbContent.requestsBeforeLinks (c : RpbContent) : Nat :=
  1 + (1 + (memberRequests c.hasCharset + (memberRequests c.hasContentEncoding +
    (memberRequests c.hasContentType + (memberRequests c.hasVtag +
      (c.indexes.requests RpbPair.requests + c.usermeta.requests RpbPair.requests))))))

def RpbContent.requests (c : RpbContent) : Nat :=
  c.requestsBeforeLinks + c.links.requests RpbLink.requests

/-- The array of links is refused, and the first link is written through NULL. -/
def RpbContent.WritesNull (c : RpbContent) (heap : Heap) : Prop :=
  0 < c.links.count ∧ heap.Grants c.requestsBeforeLinks ∧
    heap.answer c.requestsBeforeLinks = false

/-! ### Parts that settle

A loop over rounds that settle does, and so does a member that counts its entries and
copies them if there are any. -/

theorem copyFromPbIf_settles (has : Bool) (data : Bytes) :
    Settles (fun copy => copy.isSome = true) (copyFromPbIf has data) (memberRequests has)
      (some (decodedBinary has data)) := by
  unfold copyFromPbIf memberRequests
  cases has with
  | false => exact .pure _
  | true =>
    refine (Settles.new (⟨data, false⟩ : RiakBinary)).bind_some (k := 0) (.pure _) ?_
    exact fun heap => ⟨_, _, rfl, Bool.false_ne_true⟩

theorem riakPairsCopyFromPb_settles (pbpair : RpbPair) :
    Settles (fun result => result.2.isSome = true) (riakPairsCopyFromPb pbpair) pbpair.requests
      (.ok, some pbpair.decoded) := by
  unfold riakPairsCopyFromPb RpbPair.requests RpbPair.decoded
  refine Settles.ask ?_ fun heap => ⟨_, _, rfl, Bool.false_ne_true⟩
  refine (Settles.new (⟨pbpair.key, false⟩ : RiakBinary)).bind_some ?_
    fun heap => ⟨_, _, rfl, Bool.false_ne_true⟩
  cases pbpair.hasValue with
  | false => exact .pure _
  | true =>
    refine (Settles.new (⟨pbpair.value, false⟩ : RiakBinary)).bind_some (k := 0) (.pure _) ?_
    exact fun heap => ⟨_, _, rfl, Bool.false_ne_true⟩

theorem copyLoop_settles {copy : Nat → C (Option β)} {requests : α → Nat} {make : α → β} :
    ∀ (entries : List α) (i : Nat), i + entries.length < 2 ^ 31 →
    (∀ j entry, entries[j]? = some entry →
      Settles (fun item => item.isSome = true) (copy (i + j)) (requests entry)
        (some (make entry))) →
    Settles (fun items => items.isSome = true) (copyLoop copy entries.length i)
      (entries.map requests).sum (some (entries.map make)) := by
  intro entries
  induction entries with
  | nil => exact fun i _ _ => .pure _
  | cons entry entries ih =>
    intro i hbound hcopy
    rw [List.length_cons] at hbound
    have hlater := ih (i + 1) (by omega) (by
      intro j later hget
      have hround := hcopy (j + 1) later hget
      rwa [show i + (j + 1) = i + 1 + j by omega] at hround)
    rw [List.length_cons, copyLoop, List.map_cons, List.sum_cons]
    refine (hcopy 0 entry rfl).bind_some ?_ fun heap => ⟨_, _, rfl, Bool.false_ne_true⟩
    simp only
    rw [C.intSucc_of_lt (by omega), pure_bind]
    refine hlater.bind_some (k := 0) (.pure _) ?_
    exact fun heap => ⟨_, _, rfl, Bool.false_ne_true⟩

theorem riakPairsCopyArrayFromPb_settles {r : Repeated RpbPair} (hr : r.Sound) :
    Settles (fun pairs => pairs.isSome = true) (riakPairsCopyArrayFromPb r.items r.count)
      (1 + (r.entries.map RpbPair.requests).sum) (some (r.entries.map RpbPair.decoded)) := by
  unfold riakPairsCopyArrayFromPb copyArray
  rw [Int.toNat_natCast, ← hr.items]
  refine Settles.ask ?_ fun heap => ⟨_, _, rfl, Bool.false_ne_true⟩
  apply copyLoop_settles _ _ (by rw [hr.items, Nat.zero_add]; exact hr.bound)
  intro j pbpair hget
  obtain ⟨items, hitems, hentry⟩ := Repeated.get hget
  rw [hitems, Nat.zero_add, C.deref_some, pure_bind, C.readAt_of_get hentry, pure_bind]
  refine (riakPairsCopyFromPb_settles pbpair).bind (k := 0) (.pure _) ?_
  exact fun result heap hnone => ⟨_, _, rfl, hnone⟩

theorem riakLinkCopyFromPb_settles {items : List RpbLink} {i : Nat} {pblink : RpbLink}
    (hget : items[i]? = some pblink) :
    Settles (fun link => link.isSome = true) (riakLinkCopyFromPb true (some items) i)
      pblink.requests (some pblink.decoded) := by
  unfold riakLinkCopyFromPb RpbLink.requests
  refine Settles.ask ?_ fun heap => ⟨_, _, rfl, Bool.false_ne_true⟩
  simp only [Bool.true_eq_false, if_false, if_true, C.deref_some, pure_bind,
    C.readAt_of_get hget]
  refine (copyFromPbIf_settles _ _).bind_some ?_ fun heap => ⟨_, _, rfl, Bool.false_ne_true⟩
  refine (copyFromPbIf_settles _ _).bind_some ?_ fun heap => ⟨_, _, rfl, Bool.false_ne_true⟩
  exact (copyFromPbIf_settles _ _).bind_some (k := 0) (.pure _)
    fun heap => ⟨_, _, rfl, Bool.false_ne_true⟩

theorem decodeRepeated_settles {r : Repeated α} (hr : r.Sound) {decode : α → β}
    {requests : α → Nat} {copy : Int → C (Option (List β))}
    (hcopy : Settles (fun entries => entries.isSome = true) (copy r.count)
      (1 + (r.entries.map requests).sum) (some (r.entries.map decode))) :
    Settles (fun result => result.1 = .ok) (decodeRepeated r.count .ok copy)
      (r.requests requests) (.ok, r.entries.length, decodedArray (r.entries.map decode)) := by
  unfold decodeRepeated Repeated.requests decodedArray
  by_cases hpos : 0 < r.count
  · have hbound := hr.bound
    have hcount : Int.bmod r.count (2 ^ 32) = r.count := asInt_of_lt hbound
    have hne : (r.entries.map decode).isEmpty = false :=
      isEmpty_map_of_pos decode (by rw [hr.items]; exact hpos)
    rw [if_pos ⟨hpos, rfl⟩, if_pos hpos, hcount, hne, hr.items]
    refine hcopy.bind_some (k := 0) (.pure _) fun heap => ⟨_, _, rfl, ?_⟩
    rintro ⟨⟩
  · have hzero : r.count = 0 := by omega
    have hnil : r.entries = [] := List.length_eq_zero_iff.mp (by rw [hr.items, hzero])
    rw [if_neg (by simp [hzero]), if_neg hpos, hnil]
    exact .pure _

/-! ### The array of links -/

theorem riakLinksCopyFromPb_attempt {r : Repeated RpbLink} (hr : r.Sound) (hpos : 0 < r.count) :
    Attempt (fun links => links.isSome = true) (riakLinksCopyFromPb r.items r.count)
      (1 + (r.entries.map RpbLink.requests).sum) (some (r.entries.map RpbLink.decoded))
      fun heap => heap.answer 0 = false := by
  obtain ⟨items, hitems, _⟩ :=
    Repeated.get (List.getElem?_eq_getElem (show 0 < r.entries.length by rw [hr.items]; exact hpos))
  have hloop : Settles (fun links => links.isSome = true)
      (copyLoop (riakLinkCopyFromPb true (some items)) r.entries.length 0)
      (r.entries.map RpbLink.requests).sum (some (r.entries.map RpbLink.decoded)) := by
    apply copyLoop_settles _ _ (by rw [hr.items, Nat.zero_add]; exact hr.bound)
    intro j pblink hget
    obtain ⟨items', hitems', hentry⟩ := Repeated.get hget
    rw [hitems] at hitems'
    cases hitems'
    rw [Nat.zero_add]
    exact riakLinkCopyFromPb_settles hentry
  have hrun : ∀ heap : Heap, riakLinksCopyFromPb r.items r.count heap =
      copyLoop (riakLinkCopyFromPb (heap.answer 0) (some items)) r.entries.length 0
        (heap.after 1) := by
    intro heap
    unfold riakLinksCopyFromPb
    rw [C.bind_of_ok (C.allocate_eq heap), hitems, Int.toNat_natCast, hr.items]
    rfl
  refine ⟨fun heap hgrants => ?_, fun heap hrefused => ?_, fun heap hgrants hgranted => ?_⟩
  · obtain ⟨hfirst, hlater⟩ := (heap.grants_add 1 _).mp hgrants
    rw [hrun, hfirst 0 Nat.one_pos, hloop.granted _ hlater, Heap.after_after]
  · -- the first round writes to the array before it asks for the link
    obtain ⟨left, hleft⟩ : ∃ left, r.entries.length = left + 1 :=
      ⟨r.entries.length - 1, by rw [hr.items]; omega⟩
    rw [hrun, hrefused, hleft, copyLoop]
    refine ⟨.nullDereference, C.bind_of_error ?_⟩
    unfold riakLinkCopyFromPb
    rw [C.bind_of_ok (C.allocate_eq _)]
    rfl
  · rw [Bool.not_eq_false] at hgranted
    rw [hrun, hgranted]
    apply hloop.refused
    intro hlater
    apply hgrants
    rw [Heap.grants_add]
    exact ⟨(heap.grants_succ 0).mpr ⟨hgranted, Heap.grants_zero _⟩, hlater⟩

theorem decodeLinks_attempt {r : Repeated RpbLink} (hr : r.Sound) :
    Attempt (fun result => result.1 = .ok)
      (decodeRepeated r.count .ok (riakLinksCopyFromPb r.items))
      (r.requests RpbLink.requests)
      (.ok, r.entries.length, decodedArray (r.entries.map RpbLink.decoded))
      fun heap => 0 < r.count ∧ heap.answer 0 = false := by
  unfold decodeRepeated Repeated.requests decodedArray
  by_cases hpos : 0 < r.count
  · have hbound := hr.bound
    have hcount : Int.bmod r.count (2 ^ 32) = r.count := asInt_of_lt hbound
    have hne : (r.entries.map RpbLink.decoded).isEmpty = false :=
      isEmpty_map_of_pos RpbLink.decoded (by rw [hr.items]; exact hpos)
    rw [if_pos ⟨hpos, rfl⟩, if_pos hpos, hcount, hne, hr.items]
    refine Attempt.congr (Attempt.before (riakLinksCopyFromPb_attempt hr hpos) ?_ ?_) fun heap =>
      (and_iff_right hpos).symm
    · rintro (_ | entries) heap
      · refine ⟨_, rfl, ?_⟩
        rintro ⟨⟩
      · exact ⟨_, rfl, fun _ => rfl⟩
    · rfl
  · have hzero : r.count = 0 := by omega
    have hnil : r.entries = [] := List.length_eq_zero_iff.mp (by rw [hr.items, hzero])
    rw [if_neg (by simp [hzero]), if_neg hpos, hnil]
    refine ⟨fun heap _ => rfl, fun heap hbroken => absurd hbroken.1 hpos, fun heap hgrants => ?_⟩
    exact absurd heap.grants_zero hgrants

/-! ### One object -/

theorem decodeRepeated_of_error {count : Nat} {err : RiakError} (herr : err ≠ .ok)
    (copy : Int → C (Option (List α))) : decodeRepeated count err copy = pure (err, 0, none) :=
  if_neg fun hboth => herr hboth.2

/-- **An object** takes the requests of its members, and is not made when one of them is
    refused. When it is the one for the array of links, NULL is written to. -/
theorem riakObjectNewFromPb_attempt {c : RpbContent} (hc : c.Sound) :
    Attempt (fun result => result.1 = .ok) (riakObjectNewFromPb c) c.requests
      (.ok, some c.decoded) c.WritesNull := by
  have hindexes := decodeRepeated_settles hc.indexes (riakPairsCopyArrayFromPb_settles hc.indexes)
  have husermeta :=
    decodeRepeated_settles hc.usermeta (riakPairsCopyArrayFromPb_settles hc.usermeta)
  have hlinks := decodeLinks_attempt hc.links
  have hrefused : ∀ heap : Heap, ∃ y final,
      (pure (.outOfMemory, none) : C (RiakError × Option RiakObject)) heap = .ok (y, final) ∧
        ¬ y.1 = .ok := fun heap => ⟨_, _, rfl, by rintro ⟨⟩⟩
  have hcount : c.requests = 1 + (1 + (memberRequests c.hasCharset +
      (memberRequests c.hasContentEncoding + (memberRequests c.hasContentType +
        (memberRequests c.hasVtag + (c.indexes.requests RpbPair.requests +
          (c.usermeta.requests RpbPair.requests +
            c.links.requests RpbLink.requests))))))) := by
    unfold RpbContent.requests RpbContent.requestsBeforeLinks
    omega
  rw [hcount]
  unfold riakObjectNewFromPb
  refine Attempt.congr (Attempt.behind Settles.allocate (Attempt.behind_some (Settles.new _)
    (Attempt.behind_some (copyFromPbIf_settles _ _) (Attempt.behind_some (copyFromPbIf_settles _ _)
      (Attempt.behind_some (copyFromPbIf_settles _ _)
        (Attempt.behind_some (copyFromPbIf_settles _ _) (Attempt.behind hindexes
          (Attempt.behind husermeta (hlinks.before ?_ rfl) ?_) ?_) hrefused)
        hrefused) hrefused) hrefused) hrefused) ?_) ?_
  · rintro ⟨err, nLinks, links⟩ heap
    exact ⟨_, rfl, fun hok => hok⟩
  · rintro ⟨err, nUsermeta, usermeta⟩ heap herr
    simp only
    rw [decodeRepeated_of_error herr, pure_bind]
    exact ⟨_, _, rfl, herr⟩
  · rintro ⟨err, nIndexes, indexes⟩ heap herr
    simp only
    rw [decodeRepeated_of_error herr, pure_bind]
    simp only
    rw [decodeRepeated_of_error herr, pure_bind]
    exact ⟨_, _, rfl, herr⟩
  · rintro granted heap hfalse
    rw [Bool.eq_false_iff.mpr hfalse]
    exact hrefused heap
  · intro heap
    unfold RpbContent.WritesNull RpbContent.requestsBeforeLinks
    simp only [Heap.grants_add, Heap.after_after, Heap.answer_after, Nat.add_zero, Nat.add_assoc]
    constructor
    · rintro ⟨h1, h2, h3, h4, h5, h6, h7, h8, hpos, hanswer⟩
      exact ⟨hpos, ⟨h1, h2, h3, h4, h5, h6, h7, h8⟩, hanswer⟩
    · rintro ⟨hpos, ⟨h1, h2, h3, h4, h5, h6, h7, h8⟩, hanswer⟩
      exact ⟨h1, h2, h3, h4, h5, h6, h7, h8, hpos, hanswer⟩

/-! ### The rounds of a loop

A round faults, or it makes nothing and ends the loop, or it makes an object, which may
not be the whole object. What it does goes by what the allocator has left to say. -/

/-- What the rounds of a loop over entries do, on a heap. -/
structure Rounds (α : Type) where
  Broken : α → Heap → Prop
  Made : α → Heap → Prop
  Whole : α → Heap → Prop
  rest : α → Heap → Heap

namespace Rounds

/-- Some round that is reached faults. -/
def Breaks (rounds : Rounds α) : List α → Heap → Prop
  | [], _ => False
  | entry :: entries, heap => rounds.Broken entry heap ∨
      rounds.Made entry heap ∧ rounds.Breaks entries (rounds.rest entry heap)

/-- Every round makes its object. -/
def Makes (rounds : Rounds α) : List α → Heap → Prop
  | [], _ => True
  | entry :: entries, heap =>
      rounds.Made entry heap ∧ rounds.Makes entries (rounds.rest entry heap)

/-- Every object is whole, if all of them are made. -/
def MakesWhole (rounds : Rounds α) : List α → Heap → Prop
  | [], _ => True
  | entry :: entries, heap =>
      rounds.Whole entry heap ∧ rounds.MakesWhole entries (rounds.rest entry heap)

/-- A loop that ends in one way or the other, with all of its objects whole or with none. -/
def EndWell (rounds : Rounds α) (entries : List α) (heap : Heap) : Prop :=
  ¬ rounds.Breaks entries heap ∧ (rounds.Makes entries heap → rounds.MakesWhole entries heap)

/-- What one round of a loop comes to. -/
structure Describes (rounds : Rounds α) (Whole : α → β → Prop) (entry : α) (round : C (Option β)) :
    Prop where
  broken : ∀ heap, rounds.Broken entry heap → ∃ fault, round heap = .error fault
  refused : ∀ heap, ¬ rounds.Broken entry heap → ¬ rounds.Made entry heap →
    ∃ final, round heap = .ok (none, final)
  made : ∀ heap, rounds.Made entry heap →
    ∃ object, round heap = .ok (some object, rounds.rest entry heap) ∧
      (Whole entry object ↔ rounds.Whole entry heap)

theorem copyLoop_cases {rounds : Rounds α} {Whole : α → β → Prop} {copy : Nat → C (Option β)} :
    ∀ (entries : List α) (i : Nat) (heap : Heap), i + entries.length < 2 ^ 31 →
    (∀ j entry, entries[j]? = some entry → rounds.Describes Whole entry (copy (i + j))) →
    rounds.Breaks entries heap ∧
        (∃ fault, copyLoop copy entries.length i heap = .error fault) ∨
      ¬ rounds.Breaks entries heap ∧ ¬ rounds.Makes entries heap ∧
        (∃ final, copyLoop copy entries.length i heap = .ok (none, final)) ∨
      ¬ rounds.Breaks entries heap ∧ rounds.Makes entries heap ∧
        ∃ objects final, copyLoop copy entries.length i heap = .ok (some objects, final) ∧
          objects.length = entries.length ∧
          (List.Forall₂ Whole entries objects ↔ rounds.MakesWhole entries heap) := by
  intro entries
  induction entries with
  | nil =>
    intro i heap _ _
    refine Or.inr (Or.inr ⟨fun hbreaks => hbreaks, trivial, [], heap, rfl, rfl, ?_⟩)
    exact ⟨fun _ => trivial, fun _ => .nil⟩
  | cons entry entries ih =>
    intro i heap hbound hrounds
    rw [List.length_cons] at hbound
    have hround := hrounds 0 entry rfl
    rw [Nat.add_zero] at hround
    rw [List.length_cons, copyLoop]
    by_cases hbroken : rounds.Broken entry heap
    · obtain ⟨fault, hfault⟩ := hround.broken heap hbroken
      exact Or.inl ⟨Or.inl hbroken, fault, C.bind_of_error hfault⟩
    · by_cases hmade : rounds.Made entry heap
      · obtain ⟨object, hobject, hwhole⟩ := hround.made heap hmade
        have hbreaks : rounds.Breaks (entry :: entries) heap ↔
            rounds.Breaks entries (rounds.rest entry heap) :=
          (or_iff_right hbroken).trans (and_iff_right hmade)
        have hmakes : rounds.Makes (entry :: entries) heap ↔
            rounds.Makes entries (rounds.rest entry heap) := and_iff_right hmade
        have hlater := ih (i + 1) (rounds.rest entry heap) (by omega) (by
          intro j later hget
          have hlaterRound := hrounds (j + 1) later hget
          rwa [show i + (j + 1) = i + 1 + j by omega] at hlaterRound)
        rw [hbreaks, hmakes, C.bind_of_ok hobject]
        simp only
        rw [C.intSucc_of_lt (by omega), pure_bind]
        rcases hlater with ⟨hfaults, fault, hrun⟩ | ⟨hfine, hends, final, hrun⟩ |
          ⟨hfine, hall, objects, final, hrun, hlength, hiff⟩
        · rw [C.bind_of_error hrun]
          exact Or.inl ⟨hfaults, fault, rfl⟩
        · rw [C.bind_of_ok hrun]
          exact Or.inr (Or.inl ⟨hfine, hends, final, rfl⟩)
        · rw [C.bind_of_ok hrun]
          refine Or.inr (Or.inr ⟨hfine, hall, object :: objects, final, rfl, ?_, ?_⟩)
          · rw [List.length_cons, hlength]
          · rw [List.forall₂_cons]
            exact and_congr hwhole hiff
      · obtain ⟨final, hnone⟩ := hround.refused heap hbroken hmade
        rw [C.bind_of_ok hnone]
        refine Or.inr (Or.inl ⟨?_, fun hall => hmade hall.1, final, rfl⟩)
        rintro (hfirst | hlater)
        · exact hbroken hfirst
        · exact hmade hlater.1

end Rounds

/-! ### The copies of an address

A get gives every object the bucket, the bucket type and the key of its operation, and
does not look at what the copies came to. -/

/-- There is a binary to copy, and the copy is made. -/
def CopyMade (bin : Option RiakBinary) (heap : Heap) : Prop := bin.isSome = true ∧ heap.Grants 2

/-- What the allocator has left to say behind a copy: NULL asks for nothing, and a struct
    that is refused is not asked any bytes for. -/
def afterCopy (bin : Option RiakBinary) (heap : Heap) : Heap :=
  match bin with
  | none => heap
  | some _ => if heap.answer 0 then heap.after 2 else heap.after 1

/-- The copies of bucket, of bucket type where there is one, and of key. -/
def AddressCopied (request : RiakRequestCache) (heap : Heap) : Prop :=
  CopyMade request.bucket heap ∧
    (request.bucketType.isSome = true →
      CopyMade request.bucketType (afterCopy request.bucket heap)) ∧
    CopyMade request.key (afterCopy request.bucketType (afterCopy request.bucket heap))

def afterAddress (request : RiakRequestCache) (heap : Heap) : Heap :=
  afterCopy request.key (afterCopy request.bucketType (afterCopy request.bucket heap))

theorem riakBinaryCopy_eq (bin : Option RiakBinary) (heap : Heap) :
    ∃ copy, riakBinaryCopy bin heap = .ok (copy, afterCopy bin heap) ∧
      (copy.isSome = true ↔ CopyMade bin heap) := by
  unfold CopyMade
  cases bin with
  | none => exact ⟨none, rfl, fun hnone => absurd hnone Bool.false_ne_true, fun hmade => hmade.1⟩
  | some b =>
    unfold riakBinaryCopy afterCopy riakBinaryNew
    simp only
    rw [C.bind_of_ok (C.allocate_eq heap), Heap.grants_succ, Heap.grants_succ]
    cases heap.answer 0 with
    | false => exact ⟨none, rfl, fun hnone => absurd hnone Bool.false_ne_true, fun hmade => hmade.2.1⟩
    | true =>
      simp only [if_true]
      rw [C.bind_of_ok (C.allocate_eq _), Heap.after_after]
      cases (heap.after 1).answer 0 with
      | false =>
        exact ⟨none, rfl, fun hnone => absurd hnone Bool.false_ne_true, fun hmade => hmade.2.2.1⟩
      | true =>
        exact ⟨_, rfl, fun _ => ⟨rfl, trivial, rfl, Heap.grants_zero _⟩, fun _ => rfl⟩

/-! ### The objects of the two responses -/

/-- The object has everything that the content has, and what its flags and counts say. -/
def RiakObject.WholeFor (c : RpbContent) (object : RiakObject) : Prop :=
  object.content = c.content ∧ object.HasContent

/-- It has bucket and key, and a bucket type where the operation has one. -/
structure RiakObject.Addressed (request : RiakRequestCache) (object : RiakObject) : Prop where
  bucket : object.bucket.isSome = true
  key : object.key.isSome = true
  bucketType : request.bucketType.isSome = true → object.bucketType.isSome = true

def putRounds : Rounds RpbContent where
  Broken := RpbContent.WritesNull
  Made c heap := heap.Grants c.requests
  Whole _ _ := True
  rest c heap := heap.after c.requests

def getRounds (request : RiakRequestCache) : Rounds RpbContent where
  Broken := RpbContent.WritesNull
  Made c heap := heap.Grants c.requests
  Whole c heap := AddressCopied request (heap.after c.requests)
  rest c heap := afterAddress request (heap.after c.requests)

theorem RpbContent.Sound.decoded_whole {c : RpbContent} (hc : c.Sound) :
    c.decoded.WholeFor c := ⟨c.decoded_content, hc.decoded_hasContent⟩

theorem describes_of_object {rounds : Rounds RpbContent}
    {Whole : RpbContent → RiakObject → Prop} {c : RpbContent} (hc : c.Sound)
    {next : RiakError × Option RiakObject → C (Option RiakObject)}
    (hbroken : rounds.Broken c = c.WritesNull)
    (hmade : rounds.Made c = fun heap => heap.Grants c.requests)
    (hnone : ∀ result, result.1 ≠ .ok → next result = pure none)
    (hsome : ∀ heap, ∃ object, next (.ok, some c.decoded) (heap.after c.requests) =
      .ok (some object, rounds.rest c heap) ∧ (Whole c object ↔ rounds.Whole c heap)) :
    rounds.Describes Whole c (riakObjectNewFromPb c >>= next) := by
  have hattempt := riakObjectNewFromPb_attempt hc
  refine ⟨fun heap hbreaks => ?_, fun heap hfine hrefused => ?_, fun heap hgrants => ?_⟩
  · rw [hbroken] at hbreaks
    obtain ⟨fault, hfault⟩ := hattempt.broken heap hbreaks
    exact ⟨fault, C.bind_of_error hfault⟩
  · rw [hbroken] at hfine
    rw [hmade] at hrefused
    obtain ⟨result, final, hrun, herr⟩ := hattempt.refused heap hrefused hfine
    rw [C.bind_of_ok hrun, hnone result herr]
    exact ⟨final, rfl⟩
  · rw [hmade] at hgrants
    rw [C.bind_of_ok (hattempt.granted heap hgrants)]
    exact hsome heap

theorem riakPutObject_describes {content : List RpbContent} {i : Nat} {c : RpbContent}
    (hget : content[i]? = some c) (hc : c.Sound) :
    putRounds.Describes RiakObject.WholeFor c (riakPutObject content i) := by
  unfold riakPutObject
  rw [C.readAt_of_get hget, pure_bind]
  refine describes_of_object hc rfl rfl (fun result herr => if_pos herr) fun heap => ?_
  exact ⟨c.decoded, rfl, fun _ => trivial, fun _ => hc.decoded_whole⟩

theorem riakGetObject_describes {request : RiakRequestCache} {content : List RpbContent}
    {i : Nat} {c : RpbContent} (hget : content[i]? = some c) (hc : c.Sound) :
    (getRounds request).Describes
      (fun c object => RiakObject.WholeFor c object ∧ RiakObject.Addressed request object) c
      (riakGetObject request content i) := by
  unfold riakGetObject
  rw [C.readAt_of_get hget, pure_bind]
  refine describes_of_object hc rfl rfl (fun result herr => if_pos herr) fun heap => ?_
  obtain ⟨bucket, hbucket, hbucketMade⟩ :=
    riakBinaryCopy_eq request.bucket (heap.after c.requests)
  obtain ⟨bucketType, hbucketType, hbucketTypeMade⟩ := riakBinaryCopy_eq request.bucketType
    (afterCopy request.bucket (heap.after c.requests))
  obtain ⟨key, hkey, hkeyMade⟩ := riakBinaryCopy_eq request.key
    (afterCopy request.bucketType (afterCopy request.bucket (heap.after c.requests)))
  simp only [ne_eq, not_true_eq_false, if_false, C.deref_some, pure_bind]
  rw [C.bind_of_ok hbucket, C.bind_of_ok hbucketType, C.bind_of_ok hkey]
  refine ⟨_, rfl, ?_, ?_⟩
  · rintro ⟨_, hasBucket, hasKey, hasType⟩
    exact ⟨hbucketMade.mp hasBucket, fun htype => hbucketTypeMade.mp (hasType htype),
      hkeyMade.mp hasKey⟩
  · rintro ⟨hasBucket, hasType, hasKey⟩
    obtain ⟨hcontent, hall⟩ := hc.decoded_whole
    refine ⟨⟨hcontent, ?_⟩, hbucketMade.mpr hasBucket, hkeyMade.mpr hasKey,
      fun htype => hbucketTypeMade.mpr (hasType htype)⟩
    exact ⟨hall.value, hall.charset, hall.encoding, hall.contentType, hall.vtag, hall.indexes,
      hall.usermeta, hall.links⟩

/-! ### Everything or nothing

The two parts that stand in front of the objects are treated alike in both decoders: a
request whose refusal is an error, and a part that is left out when it cannot be made. -/

/-- A call returns, with a response that is complete, or with an error and `*resp` as it
    was. -/
def EverythingOrNothing (Complete : ρ → Prop) (resp : Option ρ)
    (outcome : Except Fault (Decoded ρ × Heap)) : Prop :=
  ∃ decoded final, outcome = .ok (decoded, final) ∧
    (decoded.err = .ok ∧ (∃ response, decoded.resp = some response ∧ Complete response) ∨
      decoded.err ≠ .ok ∧ decoded.resp = resp)

section Outcomes

variable {Complete : ρ → Prop} {resp : Option ρ} {response : ρ} {err other : RiakError}
  {done : RiakBoolean}

theorem everythingOrNothing_failed (herr : err ≠ .ok) :
    EverythingOrNothing Complete resp (.ok (⟨err, resp, done⟩, final)) :=
  ⟨_, _, rfl, Or.inr ⟨herr, rfl⟩⟩

theorem everythingOrNothing_ok_iff :
    EverythingOrNothing Complete resp (.ok (⟨.ok, some response, done⟩, final)) ↔
      Complete response := by
  constructor
  · rintro ⟨_, _, ⟨⟩, ⟨_, _, ⟨⟩, hcomplete⟩ | ⟨herr, _⟩⟩
    · exact hcomplete
    · exact absurd rfl herr
  · intro hcomplete
    exact ⟨_, _, rfl, Or.inl ⟨rfl, response, rfl, hcomplete⟩⟩

theorem not_everythingOrNothing_error {fault : Fault} :
    ¬ EverythingOrNothing Complete resp (.error fault) := by
  rintro ⟨_, _, ⟨⟩, _⟩

theorem everythingOrNothing_allocate_iff {next : Bool → C (Decoded ρ)}
    (hrefused : next false = pure ⟨err, resp, done⟩) (herr : err ≠ .ok) (heap : Heap) :
    EverythingOrNothing Complete resp ((C.allocate >>= next) heap) ↔
      (heap.Grants 1 → EverythingOrNothing Complete resp (next true (heap.after 1))) := by
  rw [C.bind_of_ok (C.allocate_eq heap), Heap.grants_succ, and_iff_left (Heap.grants_zero _)]
  cases heap.answer 0 with
  | false =>
    rw [hrefused]
    refine ⟨fun _ => by rintro ⟨⟩, fun _ => ?_⟩
    exact everythingOrNothing_failed herr
  | true => exact (imp_iff_right rfl).symm

theorem everythingOrNothing_behind_iff {part : C (Option β)} {requests : Nat} {value : β}
    {next : Option β → C (Decoded ρ)}
    (hpart : Settles (fun item => item.isSome = true) part requests (some value))
    (hnone : next none = pure ⟨err, resp, done⟩) (herr : err ≠ .ok) (heap : Heap) :
    EverythingOrNothing Complete resp ((part >>= next) heap) ↔
      (heap.Grants requests →
        EverythingOrNothing Complete resp (next (some value) (heap.after requests))) := by
  by_cases hgrants : heap.Grants requests
  · rw [C.bind_of_ok (hpart.granted heap hgrants)]
    exact (imp_iff_right hgrants).symm
  · obtain ⟨item, final, hrun, hmissing⟩ := hpart.refused heap hgrants
    obtain rfl : item = none := Option.not_isSome_iff_eq_none.mp hmissing
    rw [C.bind_of_ok hrun, hnone]
    refine ⟨fun _ hall => absurd hall hgrants, fun _ => ?_⟩
    exact everythingOrNothing_failed herr

/-- The part of both decoders that makes the objects: an array is asked for, and a loop
    over the contents fills it. -/
theorem everythingOrNothing_loop_iff {rounds : Rounds α} {Whole : α → β → Prop}
    {copy : Nat → C (Option β)} {contents : List α} {next : Bool → C (Decoded ρ)}
    {finish : Option (List β) → C (Decoded ρ)} {make : List β → ρ}
    (hbound : contents.length < 2 ^ 31)
    (hrounds : ∀ i entry, contents[i]? = some entry → rounds.Describes Whole entry (copy i))
    (hrefused : next false = pure ⟨err, resp, 1⟩) (herr : err ≠ .ok)
    (hloop : next true = copyLoop copy contents.length 0 >>= finish)
    (hnone : finish none = pure ⟨other, resp, 1⟩) (hother : other ≠ .ok)
    (hsome : ∀ objects, finish (some objects) = pure ⟨.ok, some (make objects), 1⟩)
    (hmake : ∀ objects, objects.length = contents.length →
      (Complete (make objects) ↔ List.Forall₂ Whole contents objects)) (heap : Heap) :
    EverythingOrNothing Complete resp ((C.allocate >>= next) heap) ↔
      (heap.Grants 1 → rounds.EndWell contents (heap.after 1)) := by
  refine (everythingOrNothing_allocate_iff hrefused herr heap).trans (imp_congr_right fun _ => ?_)
  unfold Rounds.EndWell
  rw [hloop]
  rcases Rounds.copyLoop_cases contents 0 (heap.after 1) (by omega) (by
      intro j entry hget
      rw [Nat.zero_add]
      exact hrounds j entry hget) with
    ⟨hbreaks, fault, hrun⟩ | ⟨hfine, hends, final, hrun⟩ |
      ⟨hfine, hall, objects, final, hrun, hlength, hwhole⟩
  · rw [C.bind_of_error hrun]
    exact ⟨fun h => absurd h not_everythingOrNothing_error, fun h => absurd hbreaks h.1⟩
  · rw [C.bind_of_ok hrun, hnone]
    refine ⟨fun _ => ⟨hfine, fun hall => absurd hall hends⟩, fun _ => ?_⟩
    exact everythingOrNothing_failed hother
  · rw [C.bind_of_ok hrun, hsome]
    refine everythingOrNothing_ok_iff.trans ((hmake objects hlength).trans (hwhole.trans ?_))
    exact ⟨fun hall => ⟨hfine, fun _ => hall⟩, fun hwell => hwell.2 hall⟩

end Outcomes

/-- The response has the vector clock of the message, and its objects, each of them whole
    and with the address of the operation. -/
structure RiakGetResponse.WholeFor (request : RiakRequestCache) (m : RpbGetResp)
    (response : RiakGetResponse) : Prop where
  vclock : flaggedBytes response.hasVclock response.vclock = flagged m.hasVclock m.vclock
  count : response.nContent = m.content.length
  objects : List.Forall₂ (fun c object => RiakObject.WholeFor c object ∧
    RiakObject.Addressed request object) m.content
    (firstEntries response.nContent response.content)

/-- The same for a put, whose objects have no address. -/
structure RiakPutResponse.WholeFor (m : RpbPutResp) (response : RiakPutResponse) : Prop where
  vclock : flaggedBytes response.hasVclock response.vclock = flagged m.hasVclock m.vclock
  key : flaggedBytes response.hasKey response.key = flagged m.hasKey m.key
  count : response.nContent = m.content.length
  objects : List.Forall₂ RiakObject.WholeFor m.content
    (firstEntries response.nContent response.content)

/-- Where the requests in front of the objects are granted, the rounds end well. -/
def RpbGetResp.Supplied (request : RiakRequestCache) (m : RpbGetResp) (heap : Heap) : Prop :=
  let first := 1 + (memberRequests m.hasVclock + 1)
  0 < m.content.length → heap.Grants first →
    (getRounds request).EndWell m.content (heap.after first)

def RpbPutResp.Supplied (m : RpbPutResp) (heap : Heap) : Prop :=
  let first := 1 + (memberRequests m.hasVclock + (memberRequests m.hasKey + 1))
  0 < m.content.length → heap.Grants first → putRounds.EndWell m.content (heap.after first)

theorem firstEntries_made {objects : List β} {count : Nat} (hlength : objects.length = count)
    (hbound : count < 2 ^ 31) :
    firstEntries (Int.bmod count (2 ^ 32)) (some (objects.map some)) = objects := by
  have hcount : Int.bmod count (2 ^ 32) = objects.length := by
    rw [hlength]
    exact asInt_of_lt hbound
  rw [hcount, firstEntries_map_some, List.take_length]

theorem RiakGetResponse.wholeFor_made {request : RiakRequestCache} {m : RpbGetResp}
    (hbound : m.content.length < 2 ^ 31) (unchanged : RiakBoolean) (objects : List RiakObject)
    (hlength : objects.length = m.content.length) :
    RiakGetResponse.WholeFor request m {
        hasVclock := m.hasVclock, vclock := decodedBinary m.hasVclock m.vclock
        hasUnchanged := m.hasUnchanged, unchanged := unchanged
        nContent := Int.bmod m.content.length (2 ^ 32)
        content := some (objects.map some) } ↔
      List.Forall₂ (fun c object => RiakObject.WholeFor c object ∧
        RiakObject.Addressed request object) m.content objects := by
  have hcount : Int.bmod m.content.length (2 ^ 32) = m.content.length := asInt_of_lt hbound
  have hmade := firstEntries_made hlength hbound
  constructor
  · intro hwhole
    have hobjects := hwhole.objects
    simp only at hobjects
    rwa [hmade] at hobjects
  · intro hwhole
    refine ⟨flaggedBytes_decodedBinary _ _, ?_, ?_⟩
    · simp only
      exact hcount
    · simp only
      rwa [hmade]

theorem riakGetResponseDecode_iff {unpack : Bytes → Option RpbGetResp} {pbresp : RiakPbMessage}
    {m : RpbGetResp} (hm : Unpacks unpack pbresp m) (hbound : m.content.length < 2 ^ 31)
    (hsound : ∀ c ∈ m.content, c.Sound) (rop : RiakOperation ρ) (resp : Option RiakGetResponse)
    (done : RiakBoolean) (heap : Heap) :
    EverythingOrNothing (RiakGetResponse.WholeFor rop.request m) resp
        (riakGetResponseDecode unpack rop pbresp resp done heap) ↔ m.Supplied rop.request heap := by
  have hfailed : RiakError.outOfMemory ≠ .ok := by rintro ⟨⟩
  have hvclock := copyFromPbIf_settles m.hasVclock m.vclock
  have hsupplied : m.Supplied rop.request heap ↔
      (heap.Grants 1 → (heap.after 1).Grants (memberRequests m.hasVclock) →
        0 < m.content.length → ((heap.after 1).after (memberRequests m.hasVclock)).Grants 1 →
        (getRounds rop.request).EndWell m.content
          (((heap.after 1).after (memberRequests m.hasVclock)).after 1)) := by
    unfold RpbGetResp.Supplied
    simp only [Heap.grants_add, Heap.after_after]
    exact ⟨fun h h₁ h₂ hcontent h₃ => h hcontent ⟨h₁, h₂, h₃⟩,
      fun h hcontent hall => h hall.1 hall.2.1 hcontent hall.2.2⟩
  rw [hsupplied]
  unfold riakGetResponseDecode
  rw [hm.payload, pure_bind, hm.unpacked]
  simp only
  refine (everythingOrNothing_allocate_iff rfl hfailed heap).trans (imp_congr_right fun _ => ?_)
  rw [if_pos rfl]
  refine (everythingOrNothing_behind_iff hvclock rfl hfailed _).trans
    (imp_congr_right fun _ => ?_)
  simp only
  by_cases hcontent : 0 < m.content.length
  · rw [if_pos hcontent, forall_prop_of_true hcontent]
    refine everythingOrNothing_loop_iff hbound (fun i c hget =>
      riakGetObject_describes hget (hsound c (List.mem_of_getElem? hget))) rfl ?_ rfl rfl hfailed
        (fun _ => rfl) (RiakGetResponse.wholeFor_made hbound _) _
    rintro ⟨⟩
  · have hnil : m.content = [] := List.length_eq_zero_iff.mp (by omega)
    rw [if_neg hcontent]
    refine ⟨fun _ hpositive => absurd hpositive hcontent, fun _ => ?_⟩
    apply everythingOrNothing_ok_iff.mpr
    refine ⟨flaggedBytes_decodedBinary _ _, by rw [hnil]; rfl, ?_⟩
    rw [hnil]
    exact .nil

theorem RiakPutResponse.wholeFor_made {m : RpbPutResp} (hbound : m.content.length < 2 ^ 31)
    (objects : List RiakObject) (hlength : objects.length = m.content.length) :
    RiakPutResponse.WholeFor m {
        hasVclock := m.hasVclock, vclock := decodedBinary m.hasVclock m.vclock
        hasKey := m.hasKey, key := decodedBinary m.hasKey m.key
        nContent := Int.bmod m.content.length (2 ^ 32)
        content := some (objects.map some) } ↔
      List.Forall₂ RiakObject.WholeFor m.content objects := by
  have hcount : Int.bmod m.content.length (2 ^ 32) = m.content.length := asInt_of_lt hbound
  have hmade := firstEntries_made hlength hbound
  constructor
  · intro hwhole
    have hobjects := hwhole.objects
    simp only at hobjects
    rwa [hmade] at hobjects
  · intro hwhole
    refine ⟨flaggedBytes_decodedBinary _ _, flaggedBytes_decodedBinary _ _, ?_, ?_⟩
    · simp only
      exact hcount
    · simp only
      rwa [hmade]

theorem riakPutResponseDecode_iff {unpack : Bytes → Option RpbPutResp} {pbresp : RiakPbMessage}
    {m : RpbPutResp} (hm : Unpacks unpack pbresp m) (hbound : m.content.length < 2 ^ 31)
    (hsound : ∀ c ∈ m.content, c.Sound) (resp : Option RiakPutResponse) (done : RiakBoolean)
    (heap : Heap) :
    EverythingOrNothing (RiakPutResponse.WholeFor m) resp
        (riakPutResponseDecode unpack pbresp resp done heap) ↔ m.Supplied heap := by
  have hfailed : RiakError.outOfMemory ≠ .ok := by rintro ⟨⟩
  have hvclock := copyFromPbIf_settles m.hasVclock m.vclock
  have hkey := copyFromPbIf_settles m.hasKey m.key
  have hsupplied : m.Supplied heap ↔
      (heap.Grants 1 → (heap.after 1).Grants (memberRequests m.hasVclock) →
        ((heap.after 1).after (memberRequests m.hasVclock)).Grants (memberRequests m.hasKey) →
        0 < m.content.length →
        (((heap.after 1).after (memberRequests m.hasVclock)).after
          (memberRequests m.hasKey)).Grants 1 →
        putRounds.EndWell m.content ((((heap.after 1).after (memberRequests m.hasVclock)).after
          (memberRequests m.hasKey)).after 1)) := by
    unfold RpbPutResp.Supplied
    simp only [Heap.grants_add, Heap.after_after, Nat.add_assoc]
    exact ⟨fun h h₁ h₂ h₃ hcontent h₄ => h hcontent ⟨h₁, h₂, h₃, h₄⟩,
      fun h hcontent hall => h hall.1 hall.2.1 hall.2.2.1 hcontent hall.2.2.2⟩
  rw [hsupplied]
  unfold riakPutResponseDecode
  rw [hm.payload, pure_bind, hm.unpacked]
  simp only
  refine (everythingOrNothing_allocate_iff rfl hfailed heap).trans (imp_congr_right fun _ => ?_)
  rw [if_pos rfl]
  refine (everythingOrNothing_behind_iff hvclock rfl hfailed _).trans
    (imp_congr_right fun _ => ?_)
  simp only
  refine (everythingOrNothing_behind_iff hkey rfl hfailed _).trans (imp_congr_right fun _ => ?_)
  simp only
  by_cases hcontent : 0 < m.content.length
  · rw [if_pos hcontent, forall_prop_of_true hcontent]
    exact everythingOrNothing_loop_iff hbound (fun i c hget =>
      riakPutObject_describes hget (hsound c (List.mem_of_getElem? hget))) rfl hfailed rfl rfl
        hfailed (fun _ => rfl) (RiakPutResponse.wholeFor_made hbound) _
  · have hnil : m.content = [] := List.length_eq_zero_iff.mp (by omega)
    rw [if_neg hcontent]
    refine ⟨fun _ hpositive => absurd hpositive hcontent, fun _ => ?_⟩
    apply everythingOrNothing_ok_iff.mpr
    refine ⟨flaggedBytes_decodedBinary _ _, flaggedBytes_decodedBinary _ _,
      by rw [hnil]; rfl, ?_⟩
    rw [hnil]
    exact .nil

/-! ### Messages off the wire

The length of a frame bounds the number of its entries, so no count of a message that
protobuf-c has read is too large for an `int`. -/

/-- protobuf-c counts the entries that it has read, and on the wire an entry is at least a
    tag and a length. -/
structure Repeated.ReadFrom (r : Repeated α) (size : Nat) : Prop where
  items : r.entries.length = r.count
  room : 2 * r.count ≤ size

structure RpbContent.ReadFrom (c : RpbContent) (size : Nat) : Prop where
  indexes : c.indexes.ReadFrom size
  usermeta : c.usermeta.ReadFrom size
  links : c.links.ReadFrom size

/-- What `unpack` makes of contents. -/
structure ReadsContents {μ : Type} (content : μ → List RpbContent)
    (unpack : Bytes → Option μ) : Prop where
  room : ∀ bytes m, unpack bytes = some m → 2 * (content m).length ≤ bytes.length
  contents : ∀ bytes m, unpack bytes = some m →
    ∀ c ∈ content m, c.ReadFrom bytes.length

theorem RiakPbMessage.payload_length (pbresp : RiakPbMessage) :
    ((pbresp.data.take pbresp.len.toNat).drop 1).length < 2 ^ 32 := by
  have hlen := pbresp.len.toNat_lt
  rw [List.length_drop, List.length_take]
  omega

theorem Repeated.ReadFrom.sound {r : Repeated α} {size : Nat} (h : r.ReadFrom size)
    (hsize : size < 2 ^ 32) : r.Sound := by
  have hroom := h.room
  exact ⟨by omega, h.items⟩

theorem RpbContent.ReadFrom.sound {c : RpbContent} {size : Nat} (h : c.ReadFrom size)
    (hsize : size < 2 ^ 32) : c.Sound :=
  ⟨h.indexes.sound hsize, h.usermeta.sound hsize, h.links.sound hsize⟩

theorem ReadsContents.small {μ : Type} {content : μ → List RpbContent}
    {unpack : Bytes → Option μ} (h : ReadsContents content unpack) {pbresp : RiakPbMessage}
    {m : μ} (hm : Unpacks unpack pbresp m) :
    (content m).length < 2 ^ 31 ∧ ∀ c ∈ content m, c.Sound := by
  have hsize := pbresp.payload_length
  have hroom := h.room _ m hm.unpacked
  exact ⟨by omega, fun c hc => (h.contents _ m hm.unpacked c hc).sound hsize⟩

/-- **When the decoders of a get and of a put are all or nothing.** For every operation,
    every response there is before and every frame, whatever the allocator says: the
    decoder does not write through NULL, and returns either every object complete or an
    error with `*resp` as it was, if and only if the objects of the message are supplied. -/
theorem riak_object_responses_whole_iff {call : DecodeCall} (hframe : call.pbresp.Whole) :
    (∀ (unpack : Bytes → Option RpbGetResp), ReadsContents RpbGetResp.content unpack →
      ∀ (rop : RiakOperation ρ) (resp : Option RiakGetResponse),
      (EverythingOrNothing
          (fun response => ∃ m, call.message unpack = some m ∧ response.WholeFor rop.request m) resp
          (riakGetResponseDecode unpack rop call.pbresp resp call.done call.heap) ↔
        ∀ m, call.message unpack = some m → m.Supplied rop.request call.heap)) ∧
    (∀ (unpack : Bytes → Option RpbPutResp), ReadsContents RpbPutResp.content unpack →
      ∀ (resp : Option RiakPutResponse),
      (EverythingOrNothing
          (fun response => ∃ m, call.message unpack = some m ∧ response.WholeFor m) resp
          (riakPutResponseDecode unpack call.pbresp resp call.done call.heap) ↔
        ∀ m, call.message unpack = some m → m.Supplied call.heap)) := by
  constructor
  · intro unpack hreads rop resp
    cases hm : call.message unpack with
    | none =>
      refine ⟨fun _ => by rintro _ ⟨⟩, fun _ => ?_⟩
      unfold riakGetResponseDecode
      unfold DecodeCall.message at hm
      rw [hframe.payload, pure_bind, hm]
      apply everythingOrNothing_failed
      rintro ⟨⟩
    | some m =>
      have hunpacks : Unpacks unpack call.pbresp m := ⟨hframe.nonempty, hframe.complete, hm⟩
      obtain ⟨hbound, hsound⟩ := hreads.small hunpacks
      simp only [Option.some.injEq, exists_eq_left', forall_eq']
      exact riakGetResponseDecode_iff hunpacks hbound hsound rop resp call.done call.heap
  · intro unpack hreads resp
    cases hm : call.message unpack with
    | none =>
      refine ⟨fun _ => by rintro _ ⟨⟩, fun _ => ?_⟩
      unfold riakPutResponseDecode
      unfold DecodeCall.message at hm
      rw [hframe.payload, pure_bind, hm]
      apply everythingOrNothing_failed
      rintro ⟨⟩
    | some m =>
      have hunpacks : Unpacks unpack call.pbresp m := ⟨hframe.nonempty, hframe.complete, hm⟩
      obtain ⟨hbound, hsound⟩ := hreads.small hunpacks
      simp only [Option.some.injEq, exists_eq_left', forall_eq']
      exact riakPutResponseDecode_iff hunpacks hbound hsound resp call.done call.heap

/-- The message with one content, whose value is `v` and whose link has the tag `t`. -/
def linkedUnpack {μ : Type} (make : List RpbContent → μ) (bytes : Bytes) : Option μ :=
  if bytes = [0x0a, 8, 0x0a, 1, 0x76, 0x32, 3, 0x1a, 1, 0x74] then some (make [linkedContent])
  else none

theorem linkedUnpack_reads {μ : Type} {make : List RpbContent → μ}
    {content : μ → List RpbContent} (hmake : content (make [linkedContent]) = [linkedContent]) :
    ReadsContents content (linkedUnpack make) := by
  have hread : ∀ bytes m, linkedUnpack make bytes = some m →
      bytes.length = 10 ∧ content m = [linkedContent] := by
    intro bytes m hm
    unfold linkedUnpack at hm
    split at hm
    · next hbytes =>
      cases hm
      exact ⟨by rw [hbytes]; rfl, hmake⟩
    · cases hm
  refine ⟨fun bytes m hm => ?_, fun bytes m hm c hc => ?_⟩
  · obtain ⟨hlength, hcontent⟩ := hread bytes m hm
    rw [hlength, hcontent]
    decide
  · obtain ⟨hlength, hcontent⟩ := hread bytes m hm
    rw [hcontent, List.mem_singleton] at hc
    rw [hlength, hc]
    exact ⟨⟨rfl, by decide⟩, ⟨rfl, by decide⟩, ⟨rfl, by decide⟩⟩

def linkedFrame (msgid : UInt8) : RiakPbMessage :=
  ⟨msgid, 11, [msgid, 0x0a, 8, 0x0a, 1, 0x76, 0x32, 3, 0x1a, 1, 0x74]⟩

/-- An operation on the key `k` of the bucket `b`. -/
def linkedOperation : RiakOperation Unit :=
  { request := { bucket := some ⟨[0x62], true⟩, key := some ⟨[0x6b], true⟩ } }

/-- The last request for the link, which is the one for its tag, is refused. -/
theorem riak_object_responses_whole_refused :
    EverythingOrNothing
      (fun response => ∃ m, linkedUnpack (fun content => ({ content } : RpbGetResp))
        [0x0a, 8, 0x0a, 1, 0x76, 0x32, 3, 0x1a, 1, 0x74] = some m ∧
          response.WholeFor linkedOperation.request m) none
      (riakGetResponseDecode (linkedUnpack fun content => { content }) linkedOperation
        (linkedFrame 10) none 0
        ⟨[true, true, true, true, true, true, false], fun _ => 0⟩) := by
  apply ((@riak_object_responses_whole_iff Unit
    ⟨linkedFrame 10, 0, ⟨[true, true, true, true, true, true, false], fun _ => 0⟩⟩
    ⟨by decide, by decide⟩).1 (linkedUnpack fun content => { content })
      (linkedUnpack_reads rfl) linkedOperation none).mpr
  rintro m hm - -
  cases hm
  refine ⟨?_, fun hmakes => ?_⟩
  · rintro (⟨_, _, hanswer⟩ | ⟨_, hlater⟩)
    · exact absurd hanswer (by decide)
    · exact hlater
  · exact absurd (hmakes.1 4 (by decide)) (by decide)

/-- The array of links is refused, and the decoders of a get and of a put write to it.
    The copy of the bucket is refused, and a get returns an object without a bucket. -/
theorem riak_object_responses_broken :
    ¬ EverythingOrNothing (fun _ => True) none
        (riakGetResponseDecode (linkedUnpack fun content => { content }) linkedOperation
          (linkedFrame 10) none 0 ⟨[true, true, true, true, false], fun _ => 0⟩) ∧
      ¬ EverythingOrNothing (fun _ => True) none
        (riakPutResponseDecode (linkedUnpack fun content => { content })
          (linkedFrame 12) none 0 ⟨[true, true, true, true, false], fun _ => 0⟩) ∧
      ¬ EverythingOrNothing
        (fun response => ∀ object ∈ firstEntries response.nContent response.content,
          object.bucket.isSome) none
        (riakGetResponseDecode (linkedUnpack fun content => { content }) linkedOperation
          (linkedFrame 10) none 0
          ⟨[true, true, true, true, true, true, true, false], fun _ => 0⟩) := by
  refine ⟨?_, ?_, ?_⟩
  · show ¬ EverythingOrNothing _ _ (.error .nullDereference)
    exact not_everythingOrNothing_error
  · show ¬ EverythingOrNothing _ _ (.error .nullDereference)
    exact not_everythingOrNothing_error
  · obtain ⟨response, final, hrun, object, hmem, hbucket⟩ : ∃ response final,
        riakGetResponseDecode (linkedUnpack fun content => { content }) linkedOperation
          (linkedFrame 10) none 0
          ⟨[true, true, true, true, true, true, true, false], fun _ => 0⟩ =
          .ok (⟨.ok, some response, 1⟩, final) ∧
        ∃ object ∈ firstEntries response.nContent response.content, object.bucket = none :=
      ⟨_, _, rfl, _, .head _, rfl⟩
    rw [hrun, everythingOrNothing_ok_iff]
    intro hall
    exact absurd (hall object hmem) (by rw [hbucket]; exact Bool.false_ne_true)

end RiakClient
