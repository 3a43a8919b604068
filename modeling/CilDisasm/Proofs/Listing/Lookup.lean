import CilDisasm.Proofs.Listing.Resolution

/-!
# Looking instructions up

Where offsets ascend, an offset is that of one instruction or of none, so there is only one
answer that a search can give. The label of a place is the label of the instruction that
starts there, and later places have later labels. Offsets are numbers of 32 bits, so a place
outside of their range has no label, however its number is cut to 32 bits.
-/

namespace CilDisasm
namespace Listing

/-- All offsets are numbers of 32 bits. -/
def Addressable (listing : Listing) : Prop :=
  forall {index : Nat} {instruction : Instruction},
    listing.get? index = some instruction -> instruction.offset < UInt32.size

/-- A search for an offset by position. Where offsets ascend it gives a position at which an
instruction with this offset stands, and gives up only where there is none. -/
structure Seeks (search : Listing -> Nat -> Option Nat) : Prop where
  sound : forall {listing : Listing} {offset index : Nat},
    listing.Ascending ->
    search listing offset = some index ->
    exists instruction : Instruction,
      listing.get? index = some instruction ∧ instruction.offset = offset
  complete : forall {listing : Listing} {offset : Nat},
    listing.Ascending ->
    search listing offset = none ->
    forall (index : Nat) (instruction : Instruction),
      listing.get? index = some instruction -> instruction.offset ≠ offset

/-- What looking up offsets and places comes to. -/
structure Locates (listing : Listing) : Prop where
  atOffset_some : forall (offset : Nat) (found : Instruction),
    listing.atOffset? offset = some found <->
      found ∈ listing.toList ∧ found.offset = offset
  atOffset_none : forall offset : Nat,
    listing.atOffset? offset = none <->
      forall instruction, instruction ∈ listing.toList -> instruction.offset ≠ offset
  atOffset_eq : forall search : Listing -> Nat -> Option Nat, Seeks search ->
    forall offset : Nat,
      listing.atOffset? offset = (search listing offset).bind listing.get?
  labelAt_outside : forall place : Int, place < 0 ∨ UInt32.size ≤ place ->
    listing.labelAt? place = none
  labelAt_some : forall (place : Int) (label : Label),
    listing.labelAt? place = some label <->
      exists instruction : Instruction,
        listing.get? label.index = some instruction ∧
          instruction.offset = label.offset ∧ (label.offset : Int) = place
  labelAt_none : forall place : Int,
    listing.labelAt? place = none <->
      forall instruction, instruction ∈ listing.toList -> (instruction.offset : Int) ≠ place
  labelAt_offset : forall instruction, instruction ∈ listing.toList ->
    listing.labelAt? instruction.offset = some instruction.label
  labelAt_strictMono : forall (place later : Int) (label next : Label),
    listing.labelAt? place = some label ->
    listing.labelAt? later = some next ->
    place < later -> label.index < next.index ∧ label.offset < next.offset

variable {listing : Listing}

theorem mem_toList_iff {instruction : Instruction} :
    instruction ∈ listing.toList <->
      exists index : Nat, listing.get? index = some instruction := by
  constructor
  · exact exists_get?_of_mem_toList
  · intro h
    rcases h with ⟨index, hget⟩
    exact mem_toList_of_get? hget

/-!
# Offsets
-/

theorem atOffset?_eq_some_iff_mem (hascending : listing.Ascending) {offset : Nat}
    {found : Instruction} :
    listing.atOffset? offset = some found <->
      found ∈ listing.toList ∧ found.offset = offset := by
  rw [atOffset?_eq_some_iff hascending, mem_toList_iff, exists_and_right]

theorem atOffset?_eq_none_iff (hascending : listing.Ascending) {offset : Nat} :
    listing.atOffset? offset = none <->
      forall instruction, instruction ∈ listing.toList -> instruction.offset ≠ offset := by
  rw [Option.eq_none_iff_forall_ne_some]
  refine forall_congr' fun instruction => ?_
  rw [ne_eq, atOffset?_eq_some_iff_mem hascending, not_and]

/-- Halving finds what any other search finds that keeps its promises. -/
theorem atOffset?_eq_of_seeks (hascending : listing.Ascending)
    {search : Listing -> Nat -> Option Nat} (hsearch : Seeks search) (offset : Nat) :
    listing.atOffset? offset = (search listing offset).bind listing.get? := by
  cases hanswer : search listing offset with
  | none =>
      rw [Option.bind_none, atOffset?_eq_none_iff hascending]
      intro instruction hmem
      rcases mem_toList_iff.mp hmem with ⟨index, hget⟩
      exact hsearch.complete hascending hanswer index instruction hget
  | some index =>
      rcases hsearch.sound hascending hanswer with ⟨instruction, hget, hoffset⟩
      rw [Option.bind_some, hget]
      exact (atOffset?_eq_some_iff hascending).mpr ⟨index, hget, hoffset⟩

/-!
# Places
-/

theorem labelAt?_eq_none_of_outside {place : Int} (h : place < 0 ∨ UInt32.size ≤ place) :
    listing.labelAt? place = none := by
  rw [labelAt?, if_neg]
  omega

theorem labelAt?_eq_some_iff_get? (hascending : listing.Ascending)
    (hindexed : listing.Indexed) (haddressable : listing.Addressable) {place : Int}
    {label : Label} :
    listing.labelAt? place = some label <->
      exists instruction : Instruction,
        listing.get? label.index = some instruction ∧
          instruction.offset = label.offset ∧ (label.offset : Int) = place := by
  rw [labelAt?_eq_some_iff hascending]
  constructor
  · intro h
    rcases h with ⟨index, instruction, hget, -, hplace, rfl⟩
    refine ⟨instruction, ?_, rfl, hplace⟩
    rw [Instruction.label, hindexed hget]
    exact hget
  · intro h
    rcases h with ⟨instruction, hget, hoffset, hplace⟩
    refine ⟨label.index, instruction, hget, haddressable hget, ?_, ?_⟩
    · rw [hoffset]
      exact hplace
    · rw [Instruction.label, hindexed hget, hoffset]

theorem labelAt?_offset_of_mem (hascending : listing.Ascending)
    (haddressable : listing.Addressable) {instruction : Instruction}
    (h : instruction ∈ listing.toList) :
    listing.labelAt? instruction.offset = some instruction.label := by
  rcases mem_toList_iff.mp h with ⟨index, hget⟩
  exact (labelAt?_eq_some_iff hascending).mpr
    ⟨index, instruction, hget, haddressable hget, rfl, rfl⟩

theorem labelAt?_eq_none_iff (hascending : listing.Ascending)
    (haddressable : listing.Addressable) {place : Int} :
    listing.labelAt? place = none <->
      forall instruction, instruction ∈ listing.toList ->
        (instruction.offset : Int) ≠ place := by
  constructor
  · intro h instruction hmem hplace
    rw [← hplace, labelAt?_offset_of_mem hascending haddressable hmem] at h
    cases h
  · intro h
    apply Option.eq_none_iff_forall_ne_some.mpr
    intro label hlabel
    rcases (labelAt?_eq_some_iff hascending).mp hlabel with
      ⟨index, instruction, hget, -, hplace, -⟩
    exact h instruction (mem_toList_of_get? hget) hplace

theorem Ascending.index_lt (hascending : listing.Ascending) {first second : Nat}
    {left right : Instruction} (hfirst : listing.get? first = some left)
    (hsecond : listing.get? second = some right) (hoffset : left.offset < right.offset) :
    first < second := by
  apply Nat.lt_of_not_le
  intro hle
  rcases Nat.lt_or_eq_of_le hle with hlt | heq
  · exact Nat.lt_asymm hoffset (hascending hlt hsecond hfirst)
  · rw [heq, hfirst] at hsecond
    rw [Option.some.inj hsecond] at hoffset
    exact Nat.lt_irrefl _ hoffset

theorem label_lt_of_place_lt (hascending : listing.Ascending) (hindexed : listing.Indexed)
    {place later : Int} {label next : Label} (hlabel : listing.labelAt? place = some label)
    (hnext : listing.labelAt? later = some next) (hlt : place < later) :
    label.index < next.index ∧ label.offset < next.offset := by
  rcases (labelAt?_eq_some_iff hascending).mp hlabel with
    ⟨first, left, hfirst, -, hplace, rfl⟩
  rcases (labelAt?_eq_some_iff hascending).mp hnext with
    ⟨second, right, hsecond, -, hlater, rfl⟩
  have hoffset : left.offset < right.offset := by
    omega
  refine ⟨?_, hoffset⟩
  rw [Instruction.label, Instruction.label, hindexed hfirst, hindexed hsecond]
  exact hascending.index_lt hfirst hsecond hoffset

/-!
# Both
-/

/-- Where offsets ascend and instructions know their positions, looking up is exact. -/
theorem locates_of_ascending (hascending : listing.Ascending) (hindexed : listing.Indexed)
    (haddressable : listing.Addressable) : listing.Locates where
  atOffset_some _ _ := atOffset?_eq_some_iff_mem hascending
  atOffset_none _ := atOffset?_eq_none_iff hascending
  atOffset_eq _ hsearch := atOffset?_eq_of_seeks hascending hsearch
  labelAt_outside _ := labelAt?_eq_none_of_outside
  labelAt_some _ _ := labelAt?_eq_some_iff_get? hascending hindexed haddressable
  labelAt_none _ := labelAt?_eq_none_iff hascending haddressable
  labelAt_offset _ := labelAt?_offset_of_mem hascending haddressable
  labelAt_strictMono _ _ _ _ := label_lt_of_place_lt hascending hindexed

def spread : Listing :=
  ofDrafts
    [ { offset := 0, opcode := .nop, operand := .none },
      { offset := 2, opcode := .nop, operand := .none },
      { offset := 7, opcode := .nop, operand := .none },
      { offset := 0xFFFFFFFF, opcode := .ret, operand := .none } ]

theorem seeks_findIdx? :
    Seeks (fun listing offset =>
      listing.toList.findIdx? fun instruction => instruction.offset = offset) where
  sound := by
    intro listing offset index _ hanswer
    rcases List.findIdx?_eq_some_iff_getElem.mp hanswer with ⟨hindex, hoffset, -⟩
    refine ⟨listing.toList[index], ?_, of_decide_eq_true hoffset⟩
    rw [← getElem?_toList, List.getElem?_eq_getElem hindex]
  complete := by
    intro listing offset _ hanswer index instruction hget
    have hnone := List.findIdx?_eq_none_iff.mp hanswer instruction (mem_toList_of_get? hget)
    exact of_decide_eq_false hnone

theorem locates_of_ascending_spread :
    spread.labelAt? 0xFFFFFFFF = some { index := 3, offset := 0xFFFFFFFF } ∧
      spread.labelAt? 0x100000000 = none ∧ spread.labelAt? (-1) = none ∧
      spread.atOffset? 3 = none ∧
      spread.atOffset? 7 =
        (spread.toList.findIdx? fun instruction => instruction.offset = 7).bind
          spread.get? := by
  have hall : forall instruction, instruction ∈ spread.toList ->
      instruction.offset < UInt32.size ∧ instruction.offset ≠ 3 := by
    decide
  have hindexed : spread.Indexed := by
    intro index instruction hget
    rw [spread, get?_ofDrafts] at hget
    rcases Option.map_eq_some_iff.mp hget with ⟨draft, -, rfl⟩
    rfl
  have hlocates : spread.Locates :=
    locates_of_ascending (ascending_of_pairwise (by decide)) hindexed
      (fun hget => (hall _ (mem_toList_of_get? hget)).1)
  refine ⟨?_, hlocates.labelAt_outside _ (by decide), hlocates.labelAt_outside _ (by decide),
    ?_, hlocates.atOffset_eq _ seeks_findIdx? 7⟩
  · exact (hlocates.labelAt_some _ _).mpr ⟨_, rfl, rfl, rfl⟩
  · exact (hlocates.atOffset_none 3).mpr (fun instruction hmem => (hall instruction hmem).2)

end Listing

end CilDisasm
