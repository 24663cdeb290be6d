import RiakClient.BucketpropsRoundTrip
import RiakClient.PrintCalls

/-!
# Printing bucket properties

`riak_bucketprops_print` (`riak_bucketprops.c`). Most members are printed behind their
flag. The two functions have none, nor has the function of a hook, and the walk follows
these pointers as they are. How the same properties are freed depends on where they
are stored, and comes later.
-/

namespace RiakClient

open CSem LabelledRun Printer

variable {heap final : Heap}

/-! ### Printing -/

/-- Follow a pointer and print what it points to. -/
def Printer.reading {α : Type} (pointer : C α) (p : α → Printer) : Printer := fun s => do
  p (← pointer) s

def riakModfunPrint (name : Bytes) (modFun : Option RiakModfun) : Printer :=
  riakPrint (name ++ ascii ": ") ++ reading (C.deref modFun) fun modFun =>
    riakPrintLabelBinary (ascii "Module") modFun.module ++
      riakPrintLabelBinary (ascii "Function") modFun.function

/-- `riak_commit_hooks_print`; it does nothing with its name. -/
def riakCommitHooksPrint (hooks : Option (List (Option RiakCommitHook))) (numHooks : Int) :
    Printer :=
  all ((List.range numHooks.toNat).map fun i =>
    riakPrint (ascii "Hook " ++ decimal (i : Nat) ++ ascii "\n") ++
      reading (entryAt hooks i) fun hook =>
        when hook.hasName (riakPrintLabelBinary (ascii "Name") hook.name) ++
          riakModfunPrint (ascii "Mod Fun") hook.modfun)

def riakMaxQuorum : Int := 4

def riakBucketpropsQuorumDecoder : List String := ["unknown", "one", "quorum", "all", "default"]

def riakBucketpropsQuorum (q : UInt32) : Bytes :=
  let offset := asInt (2 ^ 32 - 1 - (q.toNat : Int))
  ascii (riakBucketpropsQuorumDecoder.getD
    (if offset < 0 ∨ riakMaxQuorum ≤ offset then 0 else offset.toNat) "")

def riakBucketpropsRepl : List String := ["False", "Real time", "Full-Sync", "True"]

/-- One of the two arrays of hooks, with its number in front. -/
def riakBucketpropsPrintHooks (label : Bytes) (hasHas : Bool) (has : RiakBoolean)
    (hooks : Option (List (Option RiakCommitHook))) (n : Nat) : Printer :=
  when (hasHas && has ≠ 0)
    (riakPrintLabelInt label (asInt n) ++ riakCommitHooksPrint hooks (asInt n))

/-- The members behind the hooks that are numbers. -/
def riakBucketpropsPrintNumbers (prop : RiakBucketprops) : Printer :=
  when prop.hasOldVclock (riakPrintLabelInt (ascii "Old Vclock") (asInt prop.oldVclock.toNat)) ++
    when prop.hasYoungVclock
      (riakPrintLabelInt (ascii "Young Vclock") (asInt prop.youngVclock.toNat)) ++
    when prop.hasBigVclock (riakPrintLabelInt (ascii "Big Vclock") (asInt prop.bigVclock.toNat)) ++
    when prop.hasSmallVclock
      (riakPrintLabelInt (ascii "Small Vclock") (asInt prop.smallVclock.toNat)) ++
    when prop.hasPr (riakPrintLabelString (ascii "PR") (riakBucketpropsQuorum prop.pr)) ++
    when prop.hasR (riakPrintLabelString (ascii "R") (riakBucketpropsQuorum prop.r)) ++
    when prop.hasW (riakPrintLabelString (ascii "W") (riakBucketpropsQuorum prop.w)) ++
    when prop.hasPw (riakPrintLabelString (ascii "PW") (riakBucketpropsQuorum prop.pw)) ++
    when prop.hasDw (riakPrintLabelString (ascii "DW") (riakBucketpropsQuorum prop.dw)) ++
    when prop.hasRw (riakPrintLabelString (ascii "RW") (riakBucketpropsQuorum prop.rw))

/-- The members between these and the two functions. The mode of replication is
    looked at without its flag. -/
def riakBucketpropsPrintRest (prop : RiakBucketprops) : Printer :=
  when prop.hasBasicQuorum (riakPrintLabelBool (ascii "Basic Quorum") prop.basicQuorum) ++
    when prop.hasNotfoundOk (riakPrintLabelBool (ascii "Not Found OK") prop.notfoundOk) ++
    when prop.hasBackend (riakPrintLabelBinary (ascii "Backend") prop.backend) ++
    when prop.hasSearch (riakPrintLabelBool (ascii "Search") prop.search) ++
    when (prop.repl.toNat < riakBucketpropsRepl.length)
      (riakPrintLabelString (ascii "Repl")
        (ascii (riakBucketpropsRepl.getD prop.repl.toNat ""))) ++
    when prop.hasSearchIndex (riakPrintLabelBinary (ascii "YZ Index") prop.searchIndex)

def riakBucketpropsPrint (prop : RiakBucketprops) : Printer :=
  when prop.hasNVal (riakPrintLabelInt (ascii "N") (asInt prop.nVal.toNat)) ++
    when prop.hasAllowMult (riakPrintLabelBool (ascii "Allow Multiple") prop.allowMult) ++
    when prop.hasLastWriteWins (riakPrintLabelBool (ascii "LWW") prop.lastWriteWins) ++
    riakBucketpropsPrintHooks (ascii "# Precommit Hooks") prop.hasHasPrecommit prop.hasPrecommit
      prop.precommit prop.nPrecommit ++
    riakBucketpropsPrintHooks (ascii "# Postcommit Hooks") prop.hasHasPostcommit
      prop.hasPostcommit prop.postcommit prop.nPostcommit ++
    riakBucketpropsPrintNumbers prop ++
    riakBucketpropsPrintRest prop ++
    riakModfunPrint (ascii "C Hash Key Fun") prop.chashKeyfun ++
    riakModfunPrint (ascii "Link Fun") prop.linkfun

/-! ### What is printed

The parts of properties, in the order of the source, and that `riak_bucketprops_print`
prints them where the functions that it follows are there. -/

def modfunParts (name : Bytes) (modFun : Option RiakModfun) : List Part :=
  .always [.text (name ++ ascii ": ")] ::
    match modFun with
    | none => []
    | some modFun =>
        labelBinaryParts .plain (ascii "Module") modFun.module ++
          labelBinaryParts .plain (ascii "Function") modFun.function

def commitHookParts (hook : RiakCommitHook) (i : Nat) : List Part :=
  .always [.text (ascii "Hook " ++ decimal (i : Nat) ++ ascii "\n")] ::
    (partsWhen hook.hasName (labelBinaryParts .plain (ascii "Name") hook.name) ++
      modfunParts (ascii "Mod Fun") hook.modfun)

def bucketpropsHookParts (label : Bytes) (hasHas : Bool) (has : RiakBoolean)
    (hooks : Option (List (Option RiakCommitHook))) (n : Nat) : List Part :=
  partsWhen (hasHas && has ≠ 0)
    (labelParts label (decimal (asInt n)) ++
      loopParts commitHookParts (firstEntries (asInt n) hooks))

def bucketpropsNumberParts (prop : RiakBucketprops) : List Part :=
  partsWhen prop.hasOldVclock
      (labelParts (ascii "Old Vclock") (decimal (asInt prop.oldVclock.toNat))) ++
    partsWhen prop.hasYoungVclock
      (labelParts (ascii "Young Vclock") (decimal (asInt prop.youngVclock.toNat))) ++
    partsWhen prop.hasBigVclock
      (labelParts (ascii "Big Vclock") (decimal (asInt prop.bigVclock.toNat))) ++
    partsWhen prop.hasSmallVclock
      (labelParts (ascii "Small Vclock") (decimal (asInt prop.smallVclock.toNat))) ++
    partsWhen prop.hasPr (labelParts (ascii "PR") (riakBucketpropsQuorum prop.pr)) ++
    partsWhen prop.hasR (labelParts (ascii "R") (riakBucketpropsQuorum prop.r)) ++
    partsWhen prop.hasW (labelParts (ascii "W") (riakBucketpropsQuorum prop.w)) ++
    partsWhen prop.hasPw (labelParts (ascii "PW") (riakBucketpropsQuorum prop.pw)) ++
    partsWhen prop.hasDw (labelParts (ascii "DW") (riakBucketpropsQuorum prop.dw)) ++
    partsWhen prop.hasRw (labelParts (ascii "RW") (riakBucketpropsQuorum prop.rw))

def bucketpropsRestParts (prop : RiakBucketprops) : List Part :=
  partsWhen prop.hasBasicQuorum (boolParts (ascii "Basic Quorum") prop.basicQuorum) ++
    partsWhen prop.hasNotfoundOk (boolParts (ascii "Not Found OK") prop.notfoundOk) ++
    partsWhen prop.hasBackend (labelBinaryParts .plain (ascii "Backend") prop.backend) ++
    partsWhen prop.hasSearch (boolParts (ascii "Search") prop.search) ++
    partsWhen (prop.repl.toNat < riakBucketpropsRepl.length)
      (labelParts (ascii "Repl") (ascii (riakBucketpropsRepl.getD prop.repl.toNat ""))) ++
    partsWhen prop.hasSearchIndex (labelBinaryParts .plain (ascii "YZ Index") prop.searchIndex)

/-- What `riak_bucketprops_print` prints of properties that it can walk through. -/
def bucketpropsParts (prop : RiakBucketprops) : List Part :=
  partsWhen prop.hasNVal (labelParts (ascii "N") (decimal (asInt prop.nVal.toNat))) ++
    partsWhen prop.hasAllowMult (boolParts (ascii "Allow Multiple") prop.allowMult) ++
    partsWhen prop.hasLastWriteWins (boolParts (ascii "LWW") prop.lastWriteWins) ++
    bucketpropsHookParts (ascii "# Precommit Hooks") prop.hasHasPrecommit prop.hasPrecommit
      prop.precommit prop.nPrecommit ++
    bucketpropsHookParts (ascii "# Postcommit Hooks") prop.hasHasPostcommit prop.hasPostcommit
      prop.postcommit prop.nPostcommit ++
    bucketpropsNumberParts prop ++
    bucketpropsRestParts prop ++
    modfunParts (ascii "C Hash Key Fun") prop.chashKeyfun ++
    modfunParts (ascii "Link Fun") prop.linkfun

/-- As many hooks as a count says once it is cut to 32 bits, fewer than an `int`
    can count, and each of them with a function. -/
def HookFunctionsSet (n : Nat) (hooks : Option (List (Option RiakCommitHook))) : Prop :=
  EntriesSet ((n % 2 ^ 32 : Nat) : Int) hooks fun hook => hook.modfun.isSome = true

/-- All functions are there, those of the properties and those of the hooks. -/
structure RiakBucketprops.FunctionsSet (props : RiakBucketprops) : Prop where
  chashKeyfun : props.chashKeyfun.isSome
  linkfun : props.linkfun.isSome
  precommit : HookFunctionsSet props.nPrecommit props.precommit
  postcommit : HookFunctionsSet props.nPostcommit props.postcommit

theorem asInt_of_mod_lt {n : Nat} (h : n % 2 ^ 32 < 2 ^ 31) : asInt n = (n % 2 ^ 32 : Nat) := by
  unfold asInt
  rw [Int.bmod_def]
  omega

namespace Printer.MadeOf

theorem reading {α : Type} {pointer : C α} {p : α → Printer} {a : α} {parts : List Part}
    (hpointer : pointer = pure a) (hp : (p a).MadeOf parts) :
    (Printer.reading pointer p).MadeOf parts := by
  have hread : Printer.reading pointer p = p a := by
    funext s
    unfold Printer.reading
    rw [hpointer, pure_bind]
  rw [hread]
  exact hp

theorem modfun (name : Bytes) {modFun : Option RiakModfun} (h : modFun.isSome) :
    (riakModfunPrint name modFun).MadeOf (modfunParts name modFun) := by
  obtain ⟨modFun, rfl⟩ := Option.isSome_iff_exists.mp h
  exact (text _).append (reading (C.deref_some modFun) ((plainLabel _ _).append (plainLabel _ _)))

theorem commitHooks {n : Int} {hooks : Option (List (Option RiakCommitHook))}
    (h : EntriesSet n hooks fun hook => hook.modfun.isSome = true) :
    (riakCommitHooksPrint hooks n).MadeOf
      (loopParts commitHookParts (firstEntries n hooks)) := by
  have hslots : SlotsSet n.toNat hooks := by
    intro i hi
    obtain ⟨slots, hook, harray, hslot, _⟩ := h.entry i hi
    exact ⟨slots, hook, harray, hslot⟩
  obtain ⟨hlength, hentry⟩ := hslots.entries
  rw [firstEntries_toNat] at hlength hentry
  apply loop hlength
  intro i hook hget
  have hfunction : hook.modfun.isSome = true := by
    have hi := (List.getElem?_eq_some_iff.mp hget).1
    rw [hlength] at hi
    obtain ⟨slots, found, harray, hslot, hfound⟩ := h.entry i hi
    have hsame := hentry i hook hget
    rw [harray, entryAt_of_set hslot] at hsame
    have hvalue := (C.pure_eq_ok.mp (congrFun hsame Heap.fresh)).1
    rw [← hvalue]
    exact hfound
  exact (text _).append
    (reading (hentry i hook hget) (((plainLabel _ _).when _).append (modfun _ hfunction)))

theorem bucketpropsHooks (label : Bytes) (hasHas : Bool) (has : RiakBoolean) {n : Nat}
    {hooks : Option (List (Option RiakCommitHook))} (h : HookFunctionsSet n hooks) :
    (riakBucketpropsPrintHooks label hasHas has hooks n).MadeOf
      (bucketpropsHookParts label hasHas has hooks n) := by
  have hbound := h.bound
  have hcount : asInt n = (n % 2 ^ 32 : Nat) := asInt_of_mod_lt (by omega)
  unfold riakBucketpropsPrintHooks bucketpropsHookParts
  rw [hcount]
  exact ((MadeOf.label _ _).append (commitHooks h)).when _

theorem bucketpropsNumbers (prop : RiakBucketprops) :
    (riakBucketpropsPrintNumbers prop).MadeOf (bucketpropsNumberParts prop) := by
  unfold riakBucketpropsPrintNumbers bucketpropsNumberParts
  refine append (append (append (append (append (append (append (append (append
    ?oldVclock ?youngVclock) ?bigVclock) ?smallVclock) ?pr) ?r) ?w) ?pw) ?dw) ?rw
  all_goals exact (label _ _).when _

theorem bucketpropsRest (prop : RiakBucketprops) :
    (riakBucketpropsPrintRest prop).MadeOf (bucketpropsRestParts prop) := by
  unfold riakBucketpropsPrintRest bucketpropsRestParts
  refine append (append (append (append (append ?basicQuorum ?notfoundOk) ?backend) ?search)
    ?repl) ?searchIndex
  case backend => exact (plainLabel _ _).when _
  case searchIndex => exact (plainLabel _ _).when _
  all_goals exact (label _ _).when _

theorem bucketprops {prop : RiakBucketprops} (h : prop.FunctionsSet) :
    (riakBucketpropsPrint prop).MadeOf (bucketpropsParts prop) := by
  unfold riakBucketpropsPrint bucketpropsParts
  refine append (append (append (append (append (append (append (append
    ?nVal ?allowMult) ?lastWriteWins) ?precommit) ?postcommit) ?numbers) ?rest) ?chashKeyfun)
    ?linkfun
  case nVal => exact (label _ _).when _
  case allowMult => exact (label _ _).when _
  case lastWriteWins => exact (label _ _).when _
  case precommit => exact bucketpropsHooks _ _ _ h.precommit
  case postcommit => exact bucketpropsHooks _ _ _ h.postcommit
  case numbers => exact bucketpropsNumbers prop
  case rest => exact bucketpropsRest prop
  case chashKeyfun => exact modfun _ h.chashKeyfun
  case linkfun => exact modfun _ h.linkfun

end Printer.MadeOf

/-! ### Printing does not follow NULL

Prints that are made of parts can leave the buffer, but they follow no pointers. -/

theorem copyAt_ne_null (buffer bytes : Bytes) (offset : Nat) (heap : Heap) :
    C.copyAt buffer offset bytes heap ≠ .error .nullDereference := by
  unfold C.copyAt
  split
  · exact nofun
  · split <;> exact nofun

theorem storeShown_ne_null (shown buffer : Bytes) (target : Nat) (len : UInt32) (heap : Heap) :
    storeShown shown buffer target len heap ≠ .error .nullDereference := by
  unfold storeShown
  apply C.bind_ne_error (copyAt_ne_null _ _ _ heap)
  intro first rest _
  by_cases hpositive : 0 < len
  · rw [if_pos hpositive]
    exact C.bind_ne_error (copyAt_ne_null _ _ _ rest) fun _ _ _ => nofun
  · rw [if_neg hpositive]
    exact nofun

theorem Print.printer_ne_null (p : Print) (s : PrintState) (heap : Heap) :
    p.printer s heap ≠ .error .nullDereference := by
  cases p with
  | text chars =>
    show riakPrint chars s heap ≠ _
    by_cases hpositive : 0 < s.len
    · rw [riakPrint_room hpositive]
      exact C.bind_ne_error (copyAt_ne_null _ _ _ heap) fun _ _ _ => nofun
    · rw [riakPrint_full hpositive]
      exact nofun
  | binary form bin =>
    show form.printer bin s heap ≠ _
    rw [form.printer_eq]
    exact C.bind_ne_error (storeShown_ne_null _ _ _ _ heap) fun _ _ _ => nofun
  | next i =>
    refine C.bind_ne_error ?_ fun _ _ _ => nofun
    by_cases hint : i + 1 < 2 ^ 31
    · rw [C.intSucc_of_lt hint]
      exact nofun
    · rw [C.intSucc_of_le (Nat.not_lt.mp hint)]
      exact nofun

theorem printAll_ne_null {prints : List Print} : ∀ (s : PrintState) (heap : Heap),
    printAll prints s heap ≠ .error .nullDereference := by
  induction prints with
  | nil => exact fun s heap => nofun
  | cons p prints ih =>
    intro s heap
    refine C.bind_ne_error (p.printer_ne_null s heap) fun out rest _ => ?_
    exact C.bind_ne_error (ih out.2 rest) fun _ _ _ => nofun

/-! ### Properties that can be printed -/

/-- Printing follows no NULL, and returns inside the buffer if its prints fit there. -/
structure RiakBucketprops.Prints (props : RiakBucketprops) : Prop where
  noNull : ∀ s heap, s.len < 2 ^ 31 →
    riakBucketpropsPrint props s heap ≠ .error .nullDereference
  printed : ∀ (s : PrintState) (size room : Nat) (heap : Heap), s.Balanced size →
    s.len = room → AllFit room (printsMade room (bucketpropsParts props)) →
      ∃ wrote s', riakBucketpropsPrint props s heap = .ok ((wrote, s'), heap) ∧ s'.Balanced size

/-- **With all functions there, properties can be printed.** -/
theorem RiakBucketprops.FunctionsSet.prints {props : RiakBucketprops} (h : props.FunctionsSet) :
    props.Prints := by
  have happly : ∀ (s : PrintState) (heap : Heap), s.len < 2 ^ 31 →
      riakBucketpropsPrint props s heap =
        printAll (printsMade s.len.toNat (bucketpropsParts props)) s heap := by
    intro s heap hint
    rw [MadeOf.bucketprops h]
    exact all_parts_apply _ s heap hint
  constructor
  case noNull =>
    intro s heap hint
    rw [happly s heap hint]
    exact printAll_ne_null s heap
  case printed =>
    intro s size room heap hbalanced hroom hfit
    have hinside := hbalanced.room hroom
    have hbound := hbalanced.bound
    obtain ⟨wrote, s', hprinted, hbalanced', _⟩ := printAll_fits heap hbalanced hroom hfit
    refine ⟨wrote, s', ?_, hbalanced'⟩
    rw [happly s heap (by omega), hroom, Int.toNat_natCast]
    exact hprinted

end RiakClient
