import CilDisasm.OpcodeTable.Expansion
import Mathlib.Data.List.Forall2

/-!
# Acceptance of opcode tables

Expansion goes through a table from front to back, with the identifiers that it has seen. What
it accepts does not depend on this order: the identifiers have to be distinct, and each entry
needs a name and a value without a sign that takes one byte, or two with the announcing byte in
front. What it refuses does: the error is about the first entry that is not as it should be
behind the entries in front of it, and about the first thing that is wrong with this entry.
-/

namespace CilDisasm

namespace TableEntry

structure Encodable (entry : TableEntry) : Prop where
  unsigned : entry.negative = false
  magnitude_le : entry.magnitude ≤ 0xFFFF
  takes : entry.magnitude ≤ 0xFF ∨ entry.magnitude / 256 = 0xFE

def integer (entry : TableEntry) : Int :=
  if entry.negative then -entry.magnitude else entry.magnitude

/-- The constant that an entry asks for. -/
structure Declares (entry : TableEntry) (constant : OpcodeConstant) : Prop where
  identifier_eq : constant.identifier = entry.identifier
  name_eq : constant.name = entry.name
  value_eq : constant.value.toNat = entry.magnitude
  size_eq : constant.size = if entry.magnitude ≤ 0xFF then 1 else 2
  format_eq : constant.format = entry.format
  group_eq : constant.group = entry.group

end TableEntry

/-- What is wrong with an entry behind others with the identifiers `taken`. -/
inductive ExpansionError.Blames (taken : List String) (entry : TableEntry) :
    ExpansionError -> Prop where
  | duplicateIdentifier :
      entry.identifier ∈ taken ->
      Blames taken entry .duplicateIdentifier
  | emptyName :
      entry.identifier ∉ taken ->
      entry.name = "" ->
      Blames taken entry .emptyName
  | negativeValue :
      entry.identifier ∉ taken ->
      entry.name ≠ "" ->
      entry.negative = true ->
      Blames taken entry .negativeValue
  | valueTooLarge :
      entry.identifier ∉ taken ->
      entry.name ≠ "" ->
      entry.negative = false ->
      0xFFFF < entry.magnitude ->
      Blames taken entry .valueTooLarge
  | unencodable :
      entry.identifier ∉ taken ->
      entry.name ≠ "" ->
      entry.negative = false ->
      entry.magnitude ≤ 0xFFFF ->
      ¬ (entry.magnitude ≤ 0xFF ∨ entry.magnitude / 256 = 0xFE) ->
      Blames taken entry (.unencodable entry.magnitude)

theorem ExpansionError.Blames.of_mem_iff {taken others : List String} {entry : TableEntry}
    {error : ExpansionError} (hmem : forall name, name ∈ taken <-> name ∈ others)
    (h : error.Blames taken entry) : error.Blames others entry := by
  have hidentifier := hmem entry.identifier
  cases h with
  | duplicateIdentifier htaken => exact .duplicateIdentifier (hidentifier.mp htaken)
  | emptyName hfresh hname => exact .emptyName (mt hidentifier.mpr hfresh) hname
  | negativeValue hfresh hname hnegative =>
      exact .negativeValue (mt hidentifier.mpr hfresh) hname hnegative
  | valueTooLarge hfresh hname hunsigned hlarge =>
      exact .valueTooLarge (mt hidentifier.mpr hfresh) hname hunsigned hlarge
  | unencodable hfresh hname hunsigned hle htakes =>
      exact .unencodable (mt hidentifier.mpr hfresh) hname hunsigned hle htakes

/-!
# One entry
-/

namespace TableEntry

variable {entry : TableEntry} {taken : List String} {constant : OpcodeConstant}
  {error : ExpansionError}

theorem encoding_eq_ok (h : entry.Encodable) :
    entry.encoding =
      .ok (UInt16.ofNat entry.magnitude, if entry.magnitude ≤ 0xFF then 1 else 2) := by
  unfold encoding
  rw [h.unsigned, if_neg Bool.false_ne_true, if_neg (Nat.not_lt.mpr h.magnitude_le)]
  by_cases hone : entry.magnitude ≤ 0xFF
  · rw [if_pos hone, if_pos hone]
  · rw [if_neg hone, if_neg hone, if_pos (h.takes.resolve_left hone)]

theorem exists_constant_eq_ok (hfresh : entry.identifier ∉ taken) (hname : entry.name ≠ "")
    (hencodable : entry.Encodable) :
    exists constant : OpcodeConstant,
      entry.constant taken = .ok constant ∧ entry.Declares constant := by
  have hvalue : (UInt16.ofNat entry.magnitude).toNat = entry.magnitude :=
    UInt16.toNat_ofNat_of_lt' (Nat.lt_succ_of_le hencodable.magnitude_le)
  unfold TableEntry.constant
  rw [if_neg (mt List.contains_iff_mem.mp hfresh), if_neg (mt String.isEmpty_iff.mp hname),
    encoding_eq_ok hencodable]
  exact ⟨_, rfl, rfl, rfl, hvalue, rfl, rfl, rfl⟩

theorem constant_eq_error (h : error.Blames taken entry) :
    entry.constant taken = .error error := by
  unfold TableEntry.constant encoding
  cases h with
  | duplicateIdentifier htaken => rw [if_pos (List.contains_iff_mem.mpr htaken)]
  | emptyName hfresh hname =>
      rw [if_neg (mt List.contains_iff_mem.mp hfresh), if_pos (String.isEmpty_iff.mpr hname)]
  | negativeValue hfresh hname hnegative =>
      rw [if_neg (mt List.contains_iff_mem.mp hfresh), if_neg (mt String.isEmpty_iff.mp hname),
        if_pos hnegative]
  | valueTooLarge hfresh hname hunsigned hlarge =>
      rw [if_neg (mt List.contains_iff_mem.mp hfresh), if_neg (mt String.isEmpty_iff.mp hname),
        hunsigned, if_neg Bool.false_ne_true, if_pos hlarge]
  | unencodable hfresh hname hunsigned hle htakes =>
      rcases not_or.mp htakes with ⟨hone, htwo⟩
      rw [if_neg (mt List.contains_iff_mem.mp hfresh), if_neg (mt String.isEmpty_iff.mp hname),
        hunsigned, if_neg Bool.false_ne_true, if_neg (Nat.not_lt.mpr hle), if_neg hone,
        if_neg htwo]

/-- An entry that is not to blame is as it should be. -/
theorem accepted_or_blames (taken : List String) (entry : TableEntry) :
    (entry.identifier ∉ taken ∧ entry.name ≠ "" ∧ entry.Encodable) ∨
      exists error : ExpansionError, error.Blames taken entry := by
  by_cases htaken : entry.identifier ∈ taken
  · exact Or.inr ⟨_, .duplicateIdentifier htaken⟩
  by_cases hname : entry.name = ""
  · exact Or.inr ⟨_, .emptyName htaken hname⟩
  cases hnegative : entry.negative with
  | true => exact Or.inr ⟨_, .negativeValue htaken hname hnegative⟩
  | false =>
      by_cases hle : entry.magnitude ≤ 0xFFFF
      · by_cases htakes : entry.magnitude ≤ 0xFF ∨ entry.magnitude / 256 = 0xFE
        · exact Or.inl ⟨htaken, hname, hnegative, hle, htakes⟩
        · exact Or.inr ⟨_, .unencodable htaken hname hnegative hle htakes⟩
      · exact Or.inr ⟨_, .valueTooLarge htaken hname hnegative (Nat.lt_of_not_le hle)⟩

theorem of_constant_eq_ok (h : entry.constant taken = .ok constant) :
    entry.identifier ∉ taken ∧ entry.name ≠ "" ∧ entry.Encodable ∧
      entry.Declares constant := by
  rcases accepted_or_blames taken entry with ⟨hfresh, hname, hencodable⟩ | ⟨error, hblames⟩
  · rcases exists_constant_eq_ok hfresh hname hencodable with ⟨found, hfound, hdeclares⟩
    cases h.symm.trans hfound
    exact ⟨hfresh, hname, hencodable, hdeclares⟩
  · cases h.symm.trans (constant_eq_error hblames)

theorem blames_of_constant_eq_error (h : entry.constant taken = .error error) :
    error.Blames taken entry := by
  rcases accepted_or_blames taken entry with ⟨hfresh, hname, hencodable⟩ | ⟨found, hblames⟩
  · rcases exists_constant_eq_ok hfresh hname hencodable with ⟨constant, hconstant, -⟩
    cases h.symm.trans hconstant
  · cases h.symm.trans (constant_eq_error hblames)
    exact hblames

end TableEntry

/-!
# Tables
-/

namespace OpcodeTable

open TableEntry (identifier)

/-- What expansion asks of the entries of a table, in whatever order they are. -/
structure Valid (entries : List TableEntry) : Prop where
  distinct : (entries.map identifier).Nodup
  named : forall entry, entry ∈ entries -> entry.name ≠ ""
  encodable : forall entry, entry ∈ entries -> entry.Encodable

/-- The entries are valid, also behind others with the identifiers `taken`. -/
structure ValidBehind (taken : List String) (entries : List TableEntry) : Prop
    extends Valid entries where
  fresh : forall entry, entry ∈ entries -> entry.identifier ∉ taken

variable {entry : TableEntry} {entries front rest : List TableEntry} {taken : List String}
  {done result : Array OpcodeConstant} {error : ExpansionError}

theorem validBehind_nil (taken : List String) : ValidBehind taken [] where
  distinct := List.nodup_nil
  named _ hentry := absurd hentry List.not_mem_nil
  encodable _ hentry := absurd hentry List.not_mem_nil
  fresh _ hentry := absurd hentry List.not_mem_nil

theorem validBehind_cons_iff :
    ValidBehind taken (entry :: rest) <->
      (entry.identifier ∉ taken ∧ entry.name ≠ "" ∧ entry.Encodable) ∧
        ValidBehind (entry.identifier :: taken) rest := by
  constructor
  · intro h
    rcases List.nodup_cons.mp h.distinct with ⟨hfirst, hdistinct⟩
    rcases List.forall_mem_cons.mp h.named with ⟨hname, hnamed⟩
    rcases List.forall_mem_cons.mp h.encodable with ⟨hencodable, hrest⟩
    rcases List.forall_mem_cons.mp h.fresh with ⟨hfresh, hothers⟩
    refine ⟨⟨hfresh, hname, hencodable⟩, ⟨hdistinct, hnamed, hrest⟩, ?_⟩
    intro other hother htaken
    rcases List.mem_cons.mp htaken with hsame | htaken
    · exact hfirst (hsame ▸ List.mem_map_of_mem hother)
    · exact hothers other hother htaken
  · intro h
    rcases h with ⟨⟨hfresh, hname, hencodable⟩, hrest⟩
    refine ⟨⟨List.nodup_cons.mpr ⟨?_, hrest.distinct⟩, ?_, ?_⟩, ?_⟩
    · intro hfirst
      rcases List.mem_map.mp hfirst with ⟨other, hother, hsame⟩
      exact hrest.fresh other hother (hsame ▸ List.mem_cons_self)
    · exact List.forall_mem_cons.mpr ⟨hname, hrest.named⟩
    · exact List.forall_mem_cons.mpr ⟨hencodable, hrest.encodable⟩
    · refine List.forall_mem_cons.mpr ⟨hfresh, fun other hother htaken => ?_⟩
      exact hrest.fresh other hother (List.mem_cons_of_mem _ htaken)

theorem validBehind_nil_iff : ValidBehind [] entries <-> Valid entries :=
  ⟨fun h => h.toValid, fun h => ⟨h, fun _ _ => List.not_mem_nil⟩⟩

theorem exists_expandFrom_eq_ok (h : ValidBehind taken entries) (done : Array OpcodeConstant) :
    exists result : Array OpcodeConstant, expandFrom entries taken done = .ok result := by
  induction entries generalizing taken done with
  | nil => exact ⟨done, rfl⟩
  | cons entry rest ih =>
      rcases validBehind_cons_iff.mp h with ⟨⟨hfresh, hname, hencodable⟩, hrest⟩
      rcases TableEntry.exists_constant_eq_ok hfresh hname hencodable with
        ⟨constant, hconstant, -⟩
      rw [expandFrom, hconstant]
      exact ih hrest (done.push constant)

theorem of_expandFrom_eq_ok (h : expandFrom entries taken done = .ok result) :
    ValidBehind taken entries ∧
      exists constants : List OpcodeConstant,
        result.toList = done.toList ++ constants ∧
          List.Forall₂ TableEntry.Declares entries constants := by
  induction entries generalizing taken done with
  | nil =>
      cases h
      exact ⟨validBehind_nil taken, [], (List.append_nil _).symm, .nil⟩
  | cons entry rest ih =>
      unfold expandFrom at h
      split at h
      · cases h
      · next constant hconstant =>
          rcases TableEntry.of_constant_eq_ok hconstant with
            ⟨hfresh, hname, hencodable, hdeclares⟩
          rcases ih h with ⟨hrest, constants, hresult, hconstants⟩
          refine ⟨validBehind_cons_iff.mpr ⟨⟨hfresh, hname, hencodable⟩, hrest⟩,
            constant :: constants, ?_, .cons hdeclares hconstants⟩
          rw [hresult, Array.toList_push, List.append_assoc]
          rfl

theorem expandFrom_eq_error (hfront : ValidBehind taken front)
    (h : error.Blames ((front.map identifier).reverse ++ taken) entry)
    (back : List TableEntry) (done : Array OpcodeConstant) :
    expandFrom (front ++ entry :: back) taken done = .error error := by
  induction front generalizing taken done with
  | nil =>
      have hconstant : entry.constant taken = .error error := TableEntry.constant_eq_error h
      rw [List.nil_append, expandFrom, hconstant]
  | cons first rest ih =>
      rcases validBehind_cons_iff.mp hfront with ⟨⟨hfresh, hname, hencodable⟩, hrest⟩
      rcases TableEntry.exists_constant_eq_ok hfresh hname hencodable with
        ⟨constant, hconstant, -⟩
      rw [List.cons_append, expandFrom, hconstant]
      apply ih hrest
      rw [List.map_cons, List.reverse_cons, List.append_assoc] at h
      exact h

theorem exists_blames_of_expandFrom (h : expandFrom entries taken done = .error error) :
    exists front : List TableEntry, exists entry : TableEntry,
      exists back : List TableEntry,
        entries = front ++ entry :: back ∧ ValidBehind taken front ∧
          error.Blames ((front.map identifier).reverse ++ taken) entry := by
  induction entries generalizing taken done with
  | nil => cases h
  | cons first rest ih =>
      unfold expandFrom at h
      split at h
      · next found hconstant =>
          cases h
          exact ⟨[], first, rest, rfl, validBehind_nil taken,
            TableEntry.blames_of_constant_eq_error hconstant⟩
      · next constant hconstant =>
          rcases TableEntry.of_constant_eq_ok hconstant with ⟨hfresh, hname, hencodable, -⟩
          rcases ih h with ⟨front, entry, back, rfl, hfront, hblames⟩
          refine ⟨first :: front, entry, back, rfl,
            validBehind_cons_iff.mpr ⟨⟨hfresh, hname, hencodable⟩, hfront⟩, ?_⟩
          rw [List.map_cons, List.reverse_cons, List.append_assoc]
          exact hblames

/-!
# Expansion
-/

theorem expand_eq_ok_iff {constants : List OpcodeConstant} :
    expand entries = .ok constants <->
      exists result : Array OpcodeConstant,
        expandFrom entries [] #[] = .ok result ∧ constants = result.toList := by
  unfold expand
  cases expandFrom entries [] #[] with
  | error error => simp
  | ok result => simp [eq_comm]

theorem expand_eq_error_iff :
    expand entries = .error error <-> expandFrom entries [] #[] = .error error := by
  unfold expand
  cases expandFrom entries [] #[] with
  | error found => simp
  | ok result => simp

theorem blames_reverse_iff :
    error.Blames ((front.map identifier).reverse ++ []) entry <->
      error.Blames (front.map identifier) entry := by
  have hmem : forall name, name ∈ (front.map identifier).reverse ++ [] <->
      name ∈ front.map identifier := by
    intro name
    rw [List.append_nil, List.mem_reverse]
  exact ⟨.of_mem_iff hmem, .of_mem_iff fun name => (hmem name).symm⟩

/-- Expansion accepts the valid tables, with one constant for each entry, in order. It refuses
another table for the first thing that is wrong with the first entry that is not as it should
be, and would do so whatever came behind this entry. -/
theorem expand_accepts_or_blames (entries : List TableEntry) :
    ((exists constants : List OpcodeConstant, expand entries = .ok constants) <->
      Valid entries) ∧
      (forall constants : List OpcodeConstant,
        expand entries = .ok constants ->
        List.Forall₂ TableEntry.Declares entries constants ∧
          definitions constants = entries.map identifier ∧ (definitions constants).Nodup) ∧
      forall error : ExpansionError,
        expand entries = .error error <->
          exists front : List TableEntry, exists entry : TableEntry,
            exists back : List TableEntry,
              entries = front ++ entry :: back ∧ Valid front ∧
                error.Blames (front.map identifier) entry ∧
                forall others : List TableEntry,
                  expand (front ++ entry :: others) = .error error := by
  refine ⟨⟨?_, ?_⟩, ?_, ?_⟩
  · intro h
    rcases h with ⟨constants, hconstants⟩
    rcases expand_eq_ok_iff.mp hconstants with ⟨result, hresult, -⟩
    exact (of_expandFrom_eq_ok hresult).1.toValid
  · intro h
    rcases exists_expandFrom_eq_ok (validBehind_nil_iff.mpr h) #[] with ⟨result, hresult⟩
    exact ⟨result.toList, expand_eq_ok_iff.mpr ⟨result, hresult, rfl⟩⟩
  · intro constants h
    rcases expand_eq_ok_iff.mp h with ⟨result, hresult, rfl⟩
    rcases of_expandFrom_eq_ok hresult with ⟨hvalid, constants, hlist, hdeclares⟩
    rw [List.nil_append] at hlist
    rw [hlist]
    have hdefinitions : definitions constants = entries.map identifier := by
      have hsame := hdeclares.imp fun _ _ hdeclared => hdeclared.identifier_eq.symm
      exact (List.forall₂_eq_eq_eq ▸ List.forall₂_map_left_iff.mpr
        (List.forall₂_map_right_iff.mpr hsame) : entries.map identifier = _).symm
    exact ⟨hdeclares, hdefinitions, hdefinitions ▸ hvalid.distinct⟩
  · intro error
    constructor
    · intro h
      rcases exists_blames_of_expandFrom (expand_eq_error_iff.mp h) with
        ⟨front, entry, back, hentries, hfront, hblames⟩
      refine ⟨front, entry, back, hentries, hfront.toValid, blames_reverse_iff.mp hblames, ?_⟩
      intro others
      exact expand_eq_error_iff.mpr (expandFrom_eq_error hfront hblames others #[])
    · intro h
      rcases h with ⟨front, entry, back, rfl, -, -, hothers⟩
      exact hothers back

def minusZeroTable : List TableEntry :=
  [ { identifier := "A", name := "a", negative := true, magnitude := 0, format := "K",
      group := "T" } ]

/-- A value is no better for being zero when there is a minus sign in front of it. -/
theorem expand_refuses_minusZeroTable :
    @entries? (.unicode true) "A: \"a\" = -0, K, T;" = some minusZeroTable ∧
      @entries? (.unicode false) "A: \"a\" = -0, K, T;" = some minusZeroTable ∧
      ¬ ((exists constants : List OpcodeConstant, expand minusZeroTable = .ok constants) <->
        (minusZeroTable.map identifier).Nodup ∧
          forall entry, entry ∈ minusZeroTable ->
            entry.name ≠ "" ∧ 0 ≤ entry.integer ∧ entry.integer ≤ 0xFFFF ∧
              (entry.integer ≤ 0xFF ∨ entry.integer / 256 = 0xFE)) := by
  have hexpand : expand minusZeroTable = .error .negativeValue := by
    rfl
  refine ⟨by decide +kernel, by decide +kernel, fun h => ?_⟩
  rcases h.mpr (by decide) with ⟨constants, hconstants⟩
  cases hexpand.symm.trans hconstants

end OpcodeTable

end CilDisasm
