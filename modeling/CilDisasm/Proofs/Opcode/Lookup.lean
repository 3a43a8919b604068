import CilDisasm.Opcode.Catalog

/-!
# What a built catalog holds

A catalog is only ever built from definitions. Building goes through the definitions from
front to back, and an entry is taken over when its code is free; so in the end the entry at
a code is the public definition that has this code.
-/

namespace CilDisasm
namespace Opcode

theorem code?_eq_some_cases {opcode : Opcode} {code : OpcodeCode}
    (h : opcode.code? = some code) :
    (opcode.size = 1 ∧ opcode.value ≤ 0xFF ∧ opcode.value ≠ 0xFE ∧
        code = .oneByte opcode.lowByte) ∨
      (opcode.size = 2 ∧ opcode.highByte = extensionByte ∧
        code = .twoByte opcode.lowByte) := by
  unfold code? at h
  split at h
  · next hone =>
      cases h
      exact Or.inl ⟨hone.1, hone.2.1, hone.2.2, rfl⟩
  · split at h
    · next htwo =>
        cases h
        exact Or.inr ⟨htwo.1, htwo.2, rfl⟩
    · cases h

theorem code?_ne_extensionByte {opcode : Opcode} :
    opcode.code? ≠ some (.oneByte extensionByte) := by
  intro h
  rcases code?_eq_some_cases h with ⟨-, hle, hne, hcode⟩ | ⟨-, -, hcode⟩
  · have hlow : extensionByte = opcode.lowByte := by
      injection hcode
    have hvalue : opcode.value.toNat % 256 = 0xFE := by
      have hbyte := congrArg UInt8.toNat hlow
      rw [lowByte, UInt16.toNat_toUInt8] at hbyte
      exact hbyte.symm
    have hbound : opcode.value.toNat ≤ 0xFF := hle
    apply hne
    apply UInt16.toNat_inj.mp
    rw [Nat.mod_eq_of_lt (Nat.lt_succ_of_le hbound)] at hvalue
    exact hvalue
  · cases hcode

theorem length_bytes_of_code? {opcode : Opcode} {code : OpcodeCode}
    (h : opcode.code? = some code) : opcode.bytes.length = opcode.size.toNat := by
  rcases code?_eq_some_cases h with ⟨hsize, -⟩ | ⟨hsize, -⟩
  · simp [bytes, hsize]
  · simp [bytes, hsize]

end Opcode

namespace Catalog

theorem insert_eq_ok_iff {catalog next : Catalog} {opcode : Opcode} :
    catalog.insert opcode = .ok next <->
      exists code : OpcodeCode,
        opcode.code? = some code ∧ catalog.lookup code = none ∧
          next = catalog.assign opcode code := by
  have hsize : forall code, opcode.code? = some code ->
      ¬ (opcode.size ≠ 1 ∧ opcode.size ≠ 2) := by
    intro code hcode hboth
    rcases Opcode.code?_eq_some_cases hcode with ⟨hone, -⟩ | ⟨htwo, -⟩
    · exact hboth.1 hone
    · exact hboth.2 htwo
  unfold insert
  constructor
  · intro h
    split at h
    · cases h
    · cases hcode : opcode.code? with
      | none =>
          rw [hcode] at h
          cases h
      | some code =>
          rw [hcode] at h
          cases hlookup : catalog.lookup code with
          | none =>
              simp only [hlookup, Except.ok.injEq] at h
              exact ⟨code, rfl, hlookup, h.symm⟩
          | some existing =>
              simp only [hlookup] at h
              cases h
  · intro h
    rcases h with ⟨code, hcode, hlookup, rfl⟩
    rw [if_neg (hsize code hcode)]
    simp only [hcode, hlookup]

theorem lookup_foldlM_insert {definitions : List Opcode} {catalog result : Catalog}
    (h : definitions.foldlM insert catalog = .ok result) (code : OpcodeCode)
    (opcode : Opcode) :
    result.lookup code = some opcode <->
      catalog.lookup code = some opcode ∨
        (opcode ∈ definitions ∧ opcode.code? = some code) := by
  induction definitions generalizing catalog with
  | nil =>
      have hresult : catalog = result := by
        simpa using Except.ok.inj h
      simp [hresult]
  | cons first rest ih =>
      rw [List.foldlM_cons] at h
      cases hinsert : catalog.insert first with
      | error error =>
          rw [hinsert] at h
          cases h
      | ok next =>
          rw [hinsert] at h
          rcases insert_eq_ok_iff.mp hinsert with ⟨taken, htaken, hfree, rfl⟩
          rw [ih h, lookup_assign]
          by_cases hcode : code = taken
          · subst hcode
            simp only [if_true, Option.some.injEq, hfree, List.mem_cons]
            constructor
            · intro hcases
              rcases hcases with hfirst | ⟨hmem, hlast⟩
              · exact Or.inr ⟨Or.inl hfirst.symm, hfirst ▸ htaken⟩
              · exact Or.inr ⟨Or.inr hmem, hlast⟩
            · intro hcases
              rcases hcases with hnone | ⟨hfirst | hmem, hlast⟩
              · cases hnone
              · exact Or.inl hfirst.symm
              · exact Or.inr ⟨hmem, hlast⟩
          · have hne : first.code? ≠ some code := by
              rw [htaken]
              intro hsome
              exact hcode (Option.some.inj hsome).symm
            simp only [if_neg hcode, List.mem_cons]
            constructor
            · intro hcases
              rcases hcases with hold | ⟨hmem, hlast⟩
              · exact Or.inl hold
              · exact Or.inr ⟨Or.inr hmem, hlast⟩
            · intro hcases
              rcases hcases with hold | ⟨hfirst | hmem, hlast⟩
              · exact Or.inl hold
              · exact absurd (hfirst ▸ hlast) hne
              · exact Or.inr ⟨hmem, hlast⟩

theorem lookup_ofDefinitions_iff {definitions : List Opcode} {catalog : Catalog}
    (h : ofDefinitions definitions = .ok catalog) {code : OpcodeCode} {opcode : Opcode} :
    catalog.lookup code = some opcode <->
      (opcode ∈ definitions ∧ opcode.isInternal = false) ∧ opcode.code? = some code := by
  rw [lookup_foldlM_insert h, lookup_empty]
  simp

/-- The standard set is consistent, so the standard catalog is built from it. -/
theorem ofDefinitions_standardSet : ofDefinitions Opcode.standardSet = .ok standard := by
  have hbuilt : (ofDefinitions Opcode.standardSet).isOk = true := by
    decide +kernel
  unfold standard
  generalize ofDefinitions Opcode.standardSet = built at hbuilt
  cases built with
  | ok catalog => rfl
  | error error => cases hbuilt

/-!
# Coherent catalogs

All that decoding needs to know about a catalog: an entry stands at its own code.
-/

def Coherent (catalog : Catalog) : Prop :=
  forall code opcode, catalog.lookup code = some opcode -> opcode.code? = some code

theorem coherent_ofDefinitions {definitions : List Opcode} {catalog : Catalog}
    (h : ofDefinitions definitions = .ok catalog) : catalog.Coherent := by
  intro code opcode hlookup
  exact ((lookup_ofDefinitions_iff h).mp hlookup).2

theorem Coherent.ne_extensionByte {catalog : Catalog} (h : catalog.Coherent)
    {code : OpcodeCode} {opcode : Opcode} (hlookup : catalog.lookup code = some opcode) :
    code ≠ .oneByte extensionByte := by
  intro hextension
  exact Opcode.code?_ne_extensionByte (hextension ▸ h code opcode hlookup)

def Lists (catalog : Catalog) (opcode : Opcode) : Prop :=
  exists code : OpcodeCode, catalog.lookup code = some opcode

theorem lists_ofDefinitions_iff {definitions : List Opcode} {catalog : Catalog}
    (h : ofDefinitions definitions = .ok catalog) {opcode : Opcode} :
    catalog.Lists opcode <->
      (opcode ∈ definitions ∧ opcode.isInternal = false) ∧ opcode.code?.isSome = true := by
  rw [Option.isSome_iff_exists]
  unfold Lists
  simp only [lookup_ofDefinitions_iff h, exists_and_left]

end Catalog

end CilDisasm
