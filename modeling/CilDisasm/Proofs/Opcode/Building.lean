import CilDisasm.Proofs.Opcode.Lookup
import Mathlib.Data.List.Nodup

/-!
# When a catalog can be built

A code stands for a value and a value has one code at most, so definitions make a catalog
when each public one has a code and no value occurs twice among them. Building stops at the
first definition that is refused, and the error says what is wrong with this one.
-/

namespace CilDisasm

/-!
# Codes and values
-/

theorem OpcodeCode.toNat_value (code : OpcodeCode) :
    code.value.toNat =
      match code with
      | .oneByte byte => byte.toNat
      | .twoByte byte => 0xFE00 + byte.toNat := by
  cases code with
  | oneByte byte => exact UInt8.toNat_toUInt16 byte
  | twoByte byte =>
      have hlt := byte.toNat_lt
      have hfits : 0xFE00 + byte.toNat < 2 ^ 16 := by
        omega
      rw [value, UInt16.toNat_add, UInt8.toNat_toUInt16]
      exact Nat.mod_eq_of_lt hfits

theorem OpcodeCode.eq_of_value_eq {left right : OpcodeCode} (h : left.value = right.value) :
    left = right := by
  have hnumber := congrArg UInt16.toNat h
  rw [toNat_value, toNat_value] at hnumber
  cases left with
  | oneByte first =>
      have hfirst := first.toNat_lt
      cases right with
      | oneByte second => exact congrArg oneByte (UInt8.toNat_inj.mp hnumber)
      | twoByte second =>
          simp only at hnumber
          omega
  | twoByte first =>
      cases right with
      | oneByte second =>
          have hsecond := second.toNat_lt
          simp only at hnumber
          omega
      | twoByte second =>
          exact congrArg twoByte (UInt8.toNat_inj.mp (Nat.add_left_cancel hnumber))

namespace Opcode

theorem toNat_shiftRight_eight (value : UInt16) :
    (value >>> 8).toNat = value.toNat / 256 := by
  rw [UInt16.toNat_shiftRight]
  exact Nat.shiftRight_eq_div_pow _ 8

theorem toNat_toUInt8_shiftRight (value : UInt16) :
    (value >>> 8).toUInt8.toNat = value.toNat / 256 := by
  have hlt := value.toNat_lt
  rw [UInt16.toNat_toUInt8, toNat_shiftRight_eight]
  omega

theorem toNat_lowByte (opcode : Opcode) : opcode.lowByte.toNat = opcode.value.toNat % 256 :=
  UInt16.toNat_toUInt8 opcode.value

theorem toNat_highByte (opcode : Opcode) :
    opcode.highByte.toNat = opcode.value.toNat / 256 :=
  toNat_toUInt8_shiftRight opcode.value

theorem value_of_code? {opcode : Opcode} {code : OpcodeCode}
    (h : opcode.code? = some code) : code.value = opcode.value := by
  apply UInt16.toNat_inj.mp
  rw [OpcodeCode.toNat_value]
  rcases code?_eq_some_cases h with ⟨-, hle, -, rfl⟩ | ⟨-, hhigh, rfl⟩
  · have hbound : opcode.value.toNat ≤ 0xFF := hle
    simp only [toNat_lowByte]
    omega
  · have hnumber : opcode.value.toNat / 256 = 0xFE := by
      rw [← toNat_highByte, hhigh]
      rfl
    simp only [toNat_lowByte]
    omega

/-- Opcodes that have codes are told apart by these as by their values. -/
theorem value_eq_iff_of_code? {left right : Opcode} {code other : OpcodeCode}
    (h : left.code? = some code) (h' : right.code? = some other) :
    left.value = right.value <-> code = other := by
  rw [← value_of_code? h, ← value_of_code? h']
  constructor
  · intro hvalue
    exact OpcodeCode.eq_of_value_eq hvalue
  · intro hcode
    rw [hcode]

theorem size_eq_one_or_two_iff {opcode : Opcode} :
    ¬ (opcode.size ≠ 1 ∧ opcode.size ≠ 2) <-> opcode.size = 1 ∨ opcode.size = 2 := by
  rw [not_and_or, not_not, not_not]

/-- The entries of a list of definitions that a catalog takes over. -/
def publicOf (definitions : List Opcode) : List Opcode :=
  definitions.filter fun opcode => !opcode.isInternal

theorem mem_publicOf {definitions : List Opcode} {opcode : Opcode} :
    opcode ∈ publicOf definitions <-> opcode ∈ definitions ∧ opcode.isInternal = false := by
  simp [publicOf]

end Opcode

/-!
# Refused definitions
-/

namespace Catalog

/-- Why a catalog does not take over a definition. -/
inductive Refuses (catalog : Catalog) (opcode : Opcode) : CatalogError -> Prop where
  | invalidSize :
      opcode.size ≠ 1 ->
      opcode.size ≠ 2 ->
      Refuses catalog opcode (.invalidSize opcode.name opcode.size)
  | invalidEncoding :
      opcode.size = 1 ∨ opcode.size = 2 ->
      opcode.code? = none ->
      Refuses catalog opcode (.invalidEncoding opcode.name opcode.value opcode.size)
  | collision {code : OpcodeCode} {existing : Opcode} :
      opcode.code? = some code ->
      catalog.lookup code = some existing ->
      Refuses catalog opcode (.collision existing.name opcode.name opcode.value)

theorem refuses_of_insert {catalog : Catalog} {opcode : Opcode} {error : CatalogError}
    (h : catalog.insert opcode = .error error) : catalog.Refuses opcode error := by
  unfold insert at h
  split at h
  · next hsize =>
      cases h
      exact Refuses.invalidSize hsize.1 hsize.2
  · next hsize =>
      split at h
      · next hcode =>
          cases h
          exact Refuses.invalidEncoding (Opcode.size_eq_one_or_two_iff.mp hsize) hcode
      · next code hcode =>
          split at h
          · next existing hlookup =>
              cases h
              exact Refuses.collision hcode hlookup
          · cases h

theorem exists_of_foldlM_insert_eq_error {definitions : List Opcode} {catalog : Catalog}
    {error : CatalogError} (h : definitions.foldlM insert catalog = .error error) :
    exists front : List Opcode, exists opcode : Opcode, exists back : List Opcode,
      exists built : Catalog,
        definitions = front ++ opcode :: back ∧ front.foldlM insert catalog = .ok built ∧
          built.Refuses opcode error := by
  induction definitions generalizing catalog with
  | nil => cases h
  | cons first rest ih =>
      rw [List.foldlM_cons] at h
      cases hinsert : catalog.insert first with
      | error cause =>
          rw [hinsert] at h
          cases h
          exact ⟨[], first, rest, catalog, rfl, rfl, refuses_of_insert hinsert⟩
      | ok next =>
          rw [hinsert] at h
          rcases ih h with ⟨front, opcode, back, built, rfl, hbuilt, hrefuses⟩
          refine ⟨first :: front, opcode, back, built, rfl, ?_, hrefuses⟩
          rw [List.foldlM_cons, hinsert]
          exact hbuilt

theorem exists_refuses_of_ofDefinitions {definitions : List Opcode} {error : CatalogError}
    (h : ofDefinitions definitions = .error error) :
    exists opcode : Opcode, exists built : Catalog,
      opcode ∈ Opcode.publicOf definitions ∧ built.Refuses opcode error := by
  rcases exists_of_foldlM_insert_eq_error h with
    ⟨front, opcode, back, built, hsplit, -, hrefuses⟩
  refine ⟨opcode, built, ?_, hrefuses⟩
  rw [Opcode.publicOf, hsplit]
  exact List.mem_append_right _ List.mem_cons_self

/-!
# Definitions that make a catalog
-/

def Accepts (catalog : Catalog) (opcode : Opcode) : Prop :=
  exists code : OpcodeCode, opcode.code? = some code ∧ catalog.lookup code = none

theorem accepts_empty_iff {opcode : Opcode} :
    empty.Accepts opcode <-> exists code : OpcodeCode, opcode.code? = some code := by
  unfold Accepts
  simp only [lookup_empty, and_true]

theorem exists_insert_iff {catalog : Catalog} {opcode : Opcode} :
    (exists next : Catalog, catalog.insert opcode = .ok next) <-> catalog.Accepts opcode := by
  constructor
  · intro h
    rcases h with ⟨next, hinsert⟩
    rcases insert_eq_ok_iff.mp hinsert with ⟨code, hcode, hfree, -⟩
    exact ⟨code, hcode, hfree⟩
  · intro h
    rcases h with ⟨code, hcode, hfree⟩
    exact ⟨_, insert_eq_ok_iff.mpr ⟨code, hcode, hfree, rfl⟩⟩

theorem accepts_of_insert_iff {catalog next : Catalog} {first opcode : Opcode}
    (h : catalog.insert first = .ok next) :
    next.Accepts opcode <-> catalog.Accepts opcode ∧ first.value ≠ opcode.value := by
  rcases insert_eq_ok_iff.mp h with ⟨taken, htaken, hfree, rfl⟩
  unfold Accepts
  constructor
  · intro hnext
    rcases hnext with ⟨code, hcode, hlookup⟩
    rw [lookup_assign] at hlookup
    split at hlookup
    · cases hlookup
    · next hne =>
        refine ⟨⟨code, hcode, hlookup⟩, ?_⟩
        intro hvalue
        exact hne ((Opcode.value_eq_iff_of_code? htaken hcode).mp hvalue).symm
  · intro hboth
    rcases hboth with ⟨⟨code, hcode, hlookup⟩, hvalue⟩
    have hne : code ≠ taken := by
      intro hsame
      exact hvalue ((Opcode.value_eq_iff_of_code? htaken hcode).mpr hsame.symm)
    refine ⟨code, hcode, ?_⟩
    rw [lookup_assign, if_neg hne, hlookup]

theorem exists_foldlM_insert_iff {definitions : List Opcode} {catalog : Catalog} :
    (exists result : Catalog, definitions.foldlM insert catalog = .ok result) <->
      (forall opcode, opcode ∈ definitions -> catalog.Accepts opcode) ∧
        (definitions.map Opcode.value).Nodup := by
  induction definitions generalizing catalog with
  | nil =>
      constructor
      · intro _
        exact ⟨by simp, List.nodup_nil⟩
      · intro _
        exact ⟨catalog, rfl⟩
  | cons first rest ih =>
      rw [List.foldlM_cons, List.forall_mem_cons, List.map_cons, List.nodup_cons,
        List.mem_map]
      constructor
      · intro h
        rcases h with ⟨result, hresult⟩
        cases hinsert : catalog.insert first with
        | error error =>
            rw [hinsert] at hresult
            cases hresult
        | ok next =>
            rw [hinsert] at hresult
            rcases ih.mp ⟨result, hresult⟩ with ⟨haccepts, hvalues⟩
            have hboth := fun opcode hopcode =>
              (accepts_of_insert_iff hinsert).mp (haccepts opcode hopcode)
            refine ⟨⟨exists_insert_iff.mp ⟨next, hinsert⟩, ?_⟩, ?_, hvalues⟩
            · intro opcode hopcode
              exact (hboth opcode hopcode).1
            · intro hvalue
              rcases hvalue with ⟨opcode, hopcode, hsame⟩
              exact (hboth opcode hopcode).2 hsame.symm
      · intro h
        rcases h with ⟨⟨hfirst, hrest⟩, hnew, hvalues⟩
        rcases exists_insert_iff.mpr hfirst with ⟨next, hinsert⟩
        rw [hinsert]
        refine ih.mpr ⟨?_, hvalues⟩
        intro opcode hopcode
        apply (accepts_of_insert_iff hinsert).mpr
        refine ⟨hrest opcode hopcode, ?_⟩
        intro hsame
        exact hnew ⟨opcode, hopcode, hsame.symm⟩

theorem exists_ofDefinitions_iff {definitions : List Opcode} :
    (exists catalog : Catalog, ofDefinitions definitions = .ok catalog) <->
      (forall opcode, opcode ∈ Opcode.publicOf definitions ->
        exists code : OpcodeCode, opcode.code? = some code) ∧
      ((Opcode.publicOf definitions).map Opcode.value).Nodup := by
  refine exists_foldlM_insert_iff.trans ?_
  simp only [accepts_empty_iff]
  exact Iff.rfl

/-!
# What a catalog can return
-/

theorem mem_toList_iff_lists {catalog : Catalog} {opcode : Opcode} :
    opcode ∈ catalog.toList <-> catalog.Lists opcode := by
  unfold toList Lists
  rw [List.mem_filterMap]
  constructor
  · intro h
    rcases h with ⟨entry, hentry, hopcode⟩
    have hsome : entry = some opcode := hopcode
    rcases List.mem_append.mp hentry with hone | htwo
    · rcases Vector.mem_iff_getElem.mp (Vector.mem_toList_iff.mp hone) with
        ⟨index, hindex, hget⟩
      exact ⟨.oneByte (UInt8.ofFin ⟨index, hindex⟩), hget.trans hsome⟩
    · rcases Vector.mem_iff_getElem.mp (Vector.mem_toList_iff.mp htwo) with
        ⟨index, hindex, hget⟩
      exact ⟨.twoByte (UInt8.ofFin ⟨index, hindex⟩), hget.trans hsome⟩
  · intro h
    rcases h with ⟨code, hlookup⟩
    refine ⟨some opcode, ?_, rfl⟩
    cases code with
    | oneByte byte =>
        apply List.mem_append_left
        rw [Vector.mem_toList_iff, ← hlookup]
        exact Vector.getElem_mem _
    | twoByte byte =>
        apply List.mem_append_right
        rw [Vector.mem_toList_iff, ← hlookup]
        exact Vector.getElem_mem _

end Catalog

end CilDisasm
