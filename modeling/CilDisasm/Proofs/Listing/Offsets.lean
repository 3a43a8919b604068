import Mathlib.Data.List.Forall2
import CilDisasm.Proofs.Listing.Construction

/-!
# Finding instructions by offset

In a listing whose offsets ascend no two instructions start at one offset, and halving the
range of positions finds the one that does. What a target resolves to is therefore decided
by the offsets alone: the label of the instruction that starts there, or nothing.
-/

namespace CilDisasm
namespace Listing

def Ascending (listing : Listing) : Prop :=
  forall {first second : Nat} {left right : Instruction},
    first < second ->
    listing.get? first = some left ->
    listing.get? second = some right ->
    left.offset < right.offset

/-- Instructions know their positions. -/
def Indexed (listing : Listing) : Prop :=
  forall {index : Nat} {instruction : Instruction},
    listing.get? index = some instruction -> instruction.index = index

variable {listing : Listing}

theorem Ascending.index_unique (hascending : listing.Ascending) {first second : Nat}
    {left right : Instruction} (hfirst : listing.get? first = some left)
    (hsecond : listing.get? second = some right) (hoffset : left.offset = right.offset) :
    first = second := by
  rcases Nat.lt_trichotomy first second with hlt | heq | hgt
  · have hless := hascending hlt hfirst hsecond
    rw [hoffset] at hless
    exact absurd hless (Nat.lt_irrefl _)
  · exact heq
  · have hless := hascending hgt hsecond hfirst
    rw [hoffset] at hless
    exact absurd hless (Nat.lt_irrefl _)

/-!
# Search

The instruction that is looked for lies in the range that is still searched, if it exists.
-/

theorem searchOffset_eq_some_iff (hascending : listing.Ascending) {offset low high : Nat}
    (hhigh : high ≤ listing.length) {found : Instruction} :
    listing.searchOffset offset low high = some found <->
      exists index : Nat, (low ≤ index ∧ index < high) ∧
        listing.get? index = some found ∧ found.offset = offset := by
  induction low, high using searchOffset.induct listing offset with
  | case1 low high hlt middle hget hoffset =>
      rw [searchOffset, if_pos hlt, hget]
      simp only [if_pos hoffset, Option.some.injEq]
      constructor
      · intro h
        subst h
        exact ⟨(low + high) / 2, by omega, hget, hoffset⟩
      · intro h
        rcases h with ⟨index, -, hindex, hfound⟩
        have hsame := hascending.index_unique hget hindex (hoffset.trans hfound.symm)
        rw [← hsame, hget] at hindex
        exact Option.some.inj hindex
  | case2 low high hlt middle hget hne hless ih =>
      rw [searchOffset, if_pos hlt, hget]
      simp only [if_neg hne, if_pos hless]
      rw [ih hhigh]
      refine exists_congr fun index => ?_
      constructor
      · intro h
        exact ⟨by omega, h.2⟩
      · intro h
        rcases h with ⟨hrange, hindex, hfound⟩
        refine ⟨⟨?_, hrange.2⟩, hindex, hfound⟩
        -- Nothing at or below the middle has an offset as great as the one looked for.
        apply Nat.lt_of_not_le
        intro hle
        rcases Nat.lt_or_eq_of_le hle with hbelow | hmiddle
        · have hascends := hascending hbelow hindex hget
          omega
        · rw [hmiddle, hget] at hindex
          have hsame := Option.some.inj hindex
          rw [hsame] at hne
          exact hne hfound
  | case3 low high hlt middle hget hne hless ih =>
      rw [searchOffset, if_pos hlt, hget]
      simp only [if_neg hne, if_neg hless]
      rw [ih (by omega)]
      refine exists_congr fun index => ?_
      constructor
      · intro h
        exact ⟨by omega, h.2⟩
      · intro h
        rcases h with ⟨hrange, hindex, hfound⟩
        refine ⟨⟨hrange.1, ?_⟩, hindex, hfound⟩
        apply Nat.lt_of_not_le
        intro hle
        rcases Nat.lt_or_eq_of_le hle with habove | hmiddle
        · have hascends := hascending habove hget hindex
          omega
        · rw [← hmiddle, hget] at hindex
          have hsame := Option.some.inj hindex
          rw [hsame] at hne
          exact hne hfound
  | case4 low high hlt hget =>
      have hle := get?_eq_none_iff.mp hget
      omega
  | case5 low high hge =>
      rw [searchOffset, if_neg hge]
      constructor
      · intro h
        cases h
      · intro h
        rcases h with ⟨index, hrange, -⟩
        omega

theorem atOffset?_eq_some_iff (hascending : listing.Ascending) {offset : Nat}
    {found : Instruction} :
    listing.atOffset? offset = some found <->
      exists index : Nat, listing.get? index = some found ∧ found.offset = offset := by
  rw [atOffset?, searchOffset_eq_some_iff hascending (Nat.le_refl _)]
  refine exists_congr fun index => ?_
  constructor
  · intro h
    exact h.2
  · intro h
    exact ⟨⟨Nat.zero_le _, lt_length_of_get? h.1⟩, h⟩

theorem labelAt?_eq_some_iff (hascending : listing.Ascending) {place : Int}
    {label : Label} :
    listing.labelAt? place = some label <->
      exists index : Nat, exists instruction : Instruction,
        listing.get? index = some instruction ∧ instruction.offset < UInt32.size ∧
          (instruction.offset : Int) = place ∧ instruction.label = label := by
  unfold labelAt?
  constructor
  · intro h
    split at h
    · next hrange =>
        rcases Option.map_eq_some_iff.mp h with ⟨instruction, hfound, hlabel⟩
        rcases (atOffset?_eq_some_iff hascending).mp hfound with ⟨index, hindex, hoffset⟩
        exact ⟨index, instruction, hindex, by omega, by omega, hlabel⟩
    · cases h
  · intro h
    rcases h with ⟨index, instruction, hindex, hbound, hplace, hlabel⟩
    have hrange : 0 ≤ place ∧ place < UInt32.size := by omega
    have hoffset : instruction.offset = place.toNat := by omega
    rw [if_pos hrange, (atOffset?_eq_some_iff hascending).mpr ⟨index, hindex, hoffset⟩]
    exact congrArg some hlabel

/-!
# Resolution

Resolving a target does not move it.
-/

theorem offset_resolveTarget (hascending : listing.Ascending) (target : Target) :
    (listing.resolveTarget target).offset = target.offset := by
  cases target with
  | resolved label => rfl
  | unresolved place =>
      rw [resolveTarget]
      cases hlabel : listing.labelAt? place with
      | none => rfl
      | some label =>
          rcases (labelAt?_eq_some_iff hascending).mp hlabel with
            ⟨index, instruction, -, -, hplace, rfl⟩
          exact hplace

/-- What a branch to an absolute offset has to become in a listing. Either one instruction
starts there, and the target names it, or none does, and the target keeps the offset. -/
inductive Lands (listing : Listing) (place : Int) : Target -> Prop where
  | resolved {index : Nat} {instruction : Instruction} :
      listing.get? index = some instruction ->
      (instruction.offset : Int) = place ->
      (forall other found, listing.get? other = some found ->
        (found.offset : Int) = place -> other = index) ->
      listing.target? (.resolved { index := index, offset := instruction.offset }) =
        some instruction ->
      Lands listing place (.resolved { index := index, offset := instruction.offset })
  | unresolved :
      (forall other found, listing.get? other = some found ->
        (found.offset : Int) ≠ place) ->
      listing.target? (.unresolved place) = none ->
      Lands listing place (.unresolved place)

theorem Lands.offset_eq {place : Int} {target : Target} (h : listing.Lands place target) :
    target.offset = place := by
  cases h with
  | resolved _ hplace _ _ => exact hplace
  | unresolved _ _ => rfl

theorem lands_resolveTarget (hascending : listing.Ascending) (hindexed : listing.Indexed)
    (hbound : forall {index instruction}, listing.get? index = some instruction ->
      instruction.offset < UInt32.size) (place : Int) :
    listing.resolveTargets.Lands place (listing.resolveTarget (.unresolved place)) := by
  have hstarts : forall {index instruction},
      listing.resolveTargets.get? index = some instruction ->
      exists former : Instruction,
        listing.get? index = some former ∧ former.offset = instruction.offset := by
    intro index instruction hget
    rw [get?_resolveTargets] at hget
    rcases Option.map_eq_some_iff.mp hget with ⟨former, hformer, rfl⟩
    exact ⟨former, hformer, (Instruction.offset_mapTargets _ former).symm⟩
  rw [resolveTarget]
  cases hlabel : listing.labelAt? place with
  | none =>
      refine Lands.unresolved ?_ rfl
      intro other found hfound hplace
      rcases hstarts hfound with ⟨former, hformer, hoffset⟩
      rw [← hoffset] at hplace
      have hsome : listing.labelAt? place = some former.label :=
        (labelAt?_eq_some_iff hascending).mpr
          ⟨other, former, hformer, hbound hformer, hplace, rfl⟩
      rw [hlabel] at hsome
      cases hsome
  | some label =>
      rcases (labelAt?_eq_some_iff hascending).mp hlabel with
        ⟨index, instruction, hindex, -, hplace, rfl⟩
      have hget : listing.resolveTargets.get? index =
          some (instruction.mapTargets listing.resolveTarget) := by
        rw [get?_resolveTargets, hindex]
        rfl
      have hlabelEq : instruction.label =
          { index := index
            offset := (instruction.mapTargets listing.resolveTarget).offset } := by
        rw [Instruction.label, hindexed hindex, Instruction.offset_mapTargets]
      change Lands _ place (.resolved instruction.label)
      rw [hlabelEq]
      refine Lands.resolved hget ?_ ?_ hget
      · rw [Instruction.offset_mapTargets]
        exact hplace
      · intro other found hfound hother
        rcases hstarts hfound with ⟨former, hformer, hoffset⟩
        apply hascending.index_unique hformer hindex
        omega

/-- An operand after linking: its targets have landed, everything else is as it was. -/
def Links (listing : Listing) (operand linked : Operand) : Prop :=
  match operand with
  | .branch target =>
      exists landed : Target, listing.Lands target.offset landed ∧ linked = .branch landed
  | .switch targets =>
      exists landed : List Target,
        List.Forall₂ (fun target other => listing.Lands target.offset other)
          targets landed ∧ linked = .switch landed
  | _ => linked = operand

theorem links_mapTargets {operand : Operand} {change : Target -> Target}
    (hlands : forall target, target ∈ operand.targets ->
      listing.Lands target.offset (change target)) :
    listing.Links operand (operand.mapTargets change) := by
  cases operand with
  | branch target => exact ⟨_, hlands target (List.mem_singleton_self target), rfl⟩
  | switch targets =>
      refine ⟨_, ?_, rfl⟩
      rw [List.forall₂_map_right_iff, List.forall₂_same]
      exact hlands
  | _ => rfl

theorem Links.eq_of_targets_eq_nil {operand linked : Operand}
    (hlinks : listing.Links operand linked) (htargets : operand.targets = []) :
    linked = operand := by
  cases operand with
  | branch target => cases htargets
  | switch targets =>
      have hnil : targets = [] := htargets
      subst hnil
      rcases hlinks with ⟨landed, hlanded, rfl⟩
      cases hlanded
      rfl
  | _ => exact hlinks

end Listing

theorem Operand.mapTargets_of_targets_eq_nil {operand : Operand}
    (htargets : operand.targets = []) (change : Target -> Target) :
    operand.mapTargets change = operand := by
  cases operand with
  | branch target => cases htargets
  | switch targets =>
      have hnil : targets = [] := htargets
      rw [hnil]
      rfl
  | _ => rfl

end CilDisasm
