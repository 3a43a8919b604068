import CilDisasm.Assembler
import CilDisasm.OpcodeTable.Expansion
import CilDisasm.Proofs.Decoding.Statement
import CilDisasm.Proofs.Opcode.Building
import Mathlib.Data.List.Forall2

/-!
# Opcodes of a table

Expanding a table gives each value the number of bytes that it takes. A catalog of such
opcodes can then fail to be built for two reasons only: an entry has the value of the byte
that announces a second one, or two entries have the same value. In a catalog that was built
the code of every opcode is found again where an assembler wrote it.
-/

namespace CilDisasm

/-- A value up to `0xFF` takes one byte, and one with the announcing byte in front takes two. -/
def Opcode.TakesBytes (value : UInt16) (size : UInt8) : Prop :=
  (size = 1 ∧ value ≤ 0xFF) ∨ (size = 2 ∧ (value >>> 8).toUInt8 = extensionByte)

theorem exists_mem_of_forall₂ {α β : Type} {relation : α -> β -> Prop} {sources : List α}
    {images : List β} (h : List.Forall₂ relation sources images) {image : β}
    (himage : image ∈ images) :
    exists source : α, source ∈ sources ∧ relation source image := by
  induction h with
  | nil => cases himage
  | cons hfirst _ ih =>
      rcases List.mem_cons.mp himage with rfl | hrest
      · exact ⟨_, List.mem_cons_self, hfirst⟩
      · rcases ih hrest with ⟨source, hsource, hrelated⟩
        exact ⟨source, List.mem_cons_of_mem _ hsource, hrelated⟩

/-!
# Expansion
-/

namespace OpcodeTable

theorem exists_of_expandFrom {entries : List TableEntry} {taken : List String}
    {done result : Array OpcodeConstant} (h : expandFrom entries taken done = .ok result) :
    exists constants : List OpcodeConstant,
      result.toList = done.toList ++ constants ∧
        List.Forall₂ (fun entry constant =>
            exists before : List String, TableEntry.constant before entry = .ok constant)
          entries constants := by
  induction entries generalizing taken done with
  | nil =>
      cases h
      exact ⟨[], (List.append_nil _).symm, List.Forall₂.nil⟩
  | cons entry rest ih =>
      unfold expandFrom at h
      split at h
      · cases h
      · next constant hconstant =>
          rcases ih h with ⟨constants, hresult, hconstants⟩
          refine ⟨constant :: constants, ?_, ?_⟩
          · rw [hresult, Array.toList_push, List.append_assoc]
            rfl
          · exact List.Forall₂.cons ⟨taken, hconstant⟩ hconstants

theorem forall₂_of_expand {entries : List TableEntry} {constants : List OpcodeConstant}
    (h : expand entries = .ok constants) :
    List.Forall₂ (fun entry constant =>
        exists before : List String, TableEntry.constant before entry = .ok constant)
      entries constants := by
  unfold expand at h
  split at h
  · cases h
  · next result hresult =>
      cases h
      rcases exists_of_expandFrom hresult with ⟨constants, hlist, hconstants⟩
      rw [hlist]
      exact hconstants

end OpcodeTable

theorem TableEntry.takesBytes_of_encoding {entry : TableEntry} {value : UInt16}
    {size : UInt8} (h : entry.encoding = .ok (value, size)) :
    Opcode.TakesBytes value size := by
  unfold encoding at h
  split at h
  · cases h
  · split at h
    · cases h
    · next hbound =>
        have hnumber : (UInt16.ofNat entry.magnitude).toNat = entry.magnitude := by
          apply UInt16.toNat_ofNat_of_lt'
          show entry.magnitude < 65536
          omega
        split at h
        · next hone =>
            cases h
            refine Or.inl ⟨rfl, ?_⟩
            show (UInt16.ofNat entry.magnitude).toNat ≤ 0xFF
            rw [hnumber]
            exact hone
        · split at h
          · next htwo =>
              cases h
              refine Or.inr ⟨rfl, ?_⟩
              apply UInt8.toNat_inj.mp
              rw [Opcode.toNat_toUInt8_shiftRight, hnumber, htwo]
              rfl
          · cases h

theorem TableEntry.takesBytes_of_constant {entry : TableEntry} {taken : List String}
    {constant : OpcodeConstant} (h : entry.constant taken = .ok constant) :
    Opcode.TakesBytes constant.value constant.size := by
  unfold TableEntry.constant at h
  split at h
  · cases h
  · split at h
    · cases h
    · split at h
      · cases h
      · next hencoding =>
          cases h
          exact takesBytes_of_encoding hencoding

theorem OpcodeTable.takesBytes_of_expand {entries : List TableEntry}
    {constants : List OpcodeConstant} (h : expand entries = .ok constants)
    {constant : OpcodeConstant} (hconstant : constant ∈ constants) :
    Opcode.TakesBytes constant.value constant.size := by
  rcases exists_mem_of_forall₂ (forall₂_of_expand h) hconstant with
    ⟨entry, -, before, hentry⟩
  exact entry.takesBytes_of_constant hentry

/-!
# Definitions
-/

/-- The opcode that a constant defines. The identifiers of its format and its class are
names of the standard, with or without the mark of a raw identifier. -/
structure OpcodeConstant.Defines (constant : OpcodeConstant) (opcode : Opcode) : Prop where
  name_eq : opcode.name = constant.name
  value_eq : opcode.value = constant.value
  size_eq : opcode.size = constant.size
  format : constant.format = opcode.format.name ∨ constant.format = "r#" ++ opcode.format.name
  group : constant.group = opcode.group.name ∨ constant.group = "r#" ++ opcode.group.name

theorem OpcodeConstant.defines_of_opcode? {constant : OpcodeConstant} {opcode : Opcode}
    (h : constant.opcode? = some opcode) : constant.Defines opcode := by
  unfold opcode? at h
  split at h
  · next format group hformat hgroup =>
      cases h
      have hname := List.find?_some hformat
      have hgroupName := List.find?_some hgroup
      exact ⟨rfl, rfl, rfl, Or.inl (of_decide_eq_true hname).symm,
        Or.inl (of_decide_eq_true hgroupName).symm⟩
  · cases h

theorem OpcodeTable.takesBytes_of_defines {entries : List TableEntry}
    {constants : List OpcodeConstant} {definitions : List Opcode}
    (hexpand : expand entries = .ok constants)
    (hdefines : List.Forall₂ OpcodeConstant.Defines constants definitions)
    {opcode : Opcode} (hopcode : opcode ∈ definitions) :
    Opcode.TakesBytes opcode.value opcode.size := by
  rcases exists_mem_of_forall₂ hdefines hopcode with ⟨constant, hconstant, hdefined⟩
  rw [hdefined.value_eq, hdefined.size_eq]
  exact takesBytes_of_expand hexpand hconstant

namespace Opcode

variable {opcode : Opcode}

theorem code?_eq_none_iff (h : TakesBytes opcode.value opcode.size) :
    opcode.code? = none <-> opcode.value = 0xFE := by
  unfold code?
  rcases h with ⟨hsize, hle⟩ | ⟨hsize, hhigh⟩
  · by_cases hvalue : opcode.value = 0xFE
    · simp [hsize, hvalue]
    · simp [hsize, hle, hvalue]
  · have hannounced : opcode.highByte = extensionByte := hhigh
    have hvalue : opcode.value ≠ 0xFE := by
      intro hvalue
      rw [highByte, hvalue] at hannounced
      exact absurd hannounced (by decide)
    simp [hsize, hannounced, hvalue]

theorem exists_code?_iff (h : TakesBytes opcode.value opcode.size) :
    (exists code : OpcodeCode, opcode.code? = some code) <-> opcode.value ≠ 0xFE := by
  rw [← Option.isSome_iff_exists, Option.isSome_iff_ne_none]
  exact not_congr (code?_eq_none_iff h)

theorem bytes_of_takesBytes (h : TakesBytes opcode.value opcode.size) :
    opcode.bytes =
      if opcode.value ≤ 0xFF then [opcode.lowByte] else [extensionByte, opcode.lowByte] := by
  unfold bytes
  rcases h with ⟨hsize, hle⟩ | ⟨hsize, hhigh⟩
  · simp [hsize, hle]
  · have hlt : ¬ opcode.value ≤ 0xFF := by
      intro hle
      have hnumber := toNat_highByte opcode
      have hannounced : opcode.highByte = extensionByte := hhigh
      have hbound : opcode.value.toNat ≤ 0xFF := hle
      rw [hannounced, Nat.div_eq_of_lt (Nat.lt_succ_of_le hbound)] at hnumber
      exact absurd hnumber (by decide)
    rw [if_pos hsize, if_neg hlt]

end Opcode

/-!
# Catalogs of a table
-/

namespace Catalog

theorem Refuses.of_takesBytes {catalog : Catalog} {opcode : Opcode} {error : CatalogError}
    (hrefuses : catalog.Refuses opcode error)
    (h : Opcode.TakesBytes opcode.value opcode.size) :
    (forall (name : String) (size : UInt8), error ≠ .invalidSize name size) ∧
      forall (name : String) (value : UInt16) (size : UInt8),
        error = .invalidEncoding name value size ->
        opcode.value = 0xFE ∧ opcode.name = name ∧ opcode.value = value ∧
          opcode.size = size := by
  cases hrefuses with
  | invalidSize hone htwo =>
      rcases h with ⟨hsize, -⟩ | ⟨hsize, -⟩
      · exact absurd hsize hone
      · exact absurd hsize htwo
  | invalidEncoding _ hcode =>
      constructor
      · intro name size hinvalid
        cases hinvalid
      · intro name value size hinvalid
        cases hinvalid
        exact ⟨(Opcode.code?_eq_none_iff h).mp hcode, rfl, rfl, rfl⟩
  | collision _ _ =>
      constructor
      · intro name size hinvalid
        cases hinvalid
      · intro name value size hinvalid
        cases hinvalid

/-- Wherever an opcode is written, its code is read there and stands for it again. -/
def ReadsBack (catalog : Catalog) (opcode : Opcode) : Prop :=
  forall (assembler : Assembler) (rest : List UInt8),
    exists code : OpcodeCode,
      OpcodeCode.read
          { buffer := ((assembler.opcode opcode).written ++ rest).toArray
            position := assembler.position } =
        .ok (code,
          { buffer := ((assembler.opcode opcode).written ++ rest).toArray
            position := (assembler.opcode opcode).position }) ∧
        catalog.lookup code = some opcode

theorem readsBack_of_lookup {catalog : Catalog} (hcatalog : catalog.Coherent)
    {code : OpcodeCode} {opcode : Opcode} (h : catalog.lookup code = some opcode) :
    catalog.ReadsBack opcode := by
  intro assembler rest
  have hcode := hcatalog code opcode h
  have hne := hcatalog.ne_extensionByte h
  have hwritten : (assembler.opcode opcode).written = assembler.written ++ code.bytes := by
    rw [Assembler.written_opcode, Opcode.bytes_of_code? hcode]
  refine ⟨code, OpcodeCode.read_eq_ok_iff.mpr ⟨hne, ?_⟩, h⟩
  rw [Assembler.position_eq, Assembler.position_eq, hwritten, List.append_assoc]
  constructor
  · rfl
  · exact List.length_append
  · simp [Cursor.unread]
  · simp [List.length_append]

/-- The opcodes that some question to a catalog can be answered with. -/
def Offers (catalog : Catalog) (opcode : Opcode) : Prop :=
  catalog.Lists opcode ∨ opcode ∈ catalog.toList ∨
    exists name : String, catalog.find? name = some opcode

theorem lists_of_offers {catalog : Catalog} {opcode : Opcode} (h : catalog.Offers opcode) :
    catalog.Lists opcode := by
  rcases h with hlists | hmem | ⟨name, hfind⟩
  · exact hlists
  · exact mem_toList_iff_lists.mp hmem
  · exact mem_toList_iff_lists.mp (List.mem_of_find?_eq_some hfind)

end Catalog

namespace OpcodeTable

open Opcode (publicOf mem_publicOf)

/-- Expansion, catalog and assembler agree on how opcodes are encoded. -/
theorem ofDefinitions_of_expand {entries : List TableEntry} {constants : List OpcodeConstant}
    {definitions : List Opcode} (hexpand : expand entries = .ok constants)
    (hdefines : List.Forall₂ OpcodeConstant.Defines constants definitions) :
    (forall error : CatalogError,
        Catalog.ofDefinitions definitions = .error error ->
        (forall (name : String) (size : UInt8), error ≠ .invalidSize name size) ∧
          forall (name : String) (value : UInt16) (size : UInt8),
            error = .invalidEncoding name value size ->
            exists opcode : Opcode,
              opcode ∈ publicOf definitions ∧ opcode.value = 0xFE ∧
                opcode.name = name ∧ opcode.value = value ∧ opcode.size = size) ∧
      ((exists error : CatalogError, Catalog.ofDefinitions definitions = .error error) <->
        (exists opcode : Opcode, opcode ∈ publicOf definitions ∧ opcode.value = 0xFE) ∨
          ¬ ((publicOf definitions).map Opcode.value).Nodup) ∧
      forall catalog : Catalog,
        Catalog.ofDefinitions definitions = .ok catalog ->
        (forall opcode : Opcode,
          opcode ∈ publicOf definitions ->
          (opcode.bytes =
              if opcode.value ≤ 0xFF then [opcode.lowByte]
              else [extensionByte, opcode.lowByte]) ∧
            catalog.ReadsBack opcode) ∧
        forall opcode : Opcode,
          catalog.Offers opcode -> opcode ∈ publicOf definitions := by
  have htakes : forall opcode, opcode ∈ publicOf definitions ->
      Opcode.TakesBytes opcode.value opcode.size := by
    intro opcode hopcode
    exact takesBytes_of_defines hexpand hdefines (mem_publicOf.mp hopcode).1
  refine ⟨?_, ?_, ?_⟩
  · intro error herror
    rcases Catalog.exists_refuses_of_ofDefinitions herror with
      ⟨opcode, built, hopcode, hrefuses⟩
    rcases hrefuses.of_takesBytes (htakes opcode hopcode) with ⟨hsize, hencoding⟩
    refine ⟨hsize, ?_⟩
    intro name value size hinvalid
    exact ⟨opcode, hopcode, hencoding name value size hinvalid⟩
  · have hbuilds :
        (exists catalog : Catalog, Catalog.ofDefinitions definitions = .ok catalog) <->
        (forall opcode, opcode ∈ publicOf definitions -> opcode.value ≠ 0xFE) ∧
          ((publicOf definitions).map Opcode.value).Nodup := by
      rw [Catalog.exists_ofDefinitions_iff]
      refine and_congr_left fun _ => forall₂_congr fun opcode hopcode => ?_
      exact Opcode.exists_code?_iff (htakes opcode hopcode)
    have hfails : (exists error : CatalogError,
        Catalog.ofDefinitions definitions = .error error) <->
          ¬ exists catalog : Catalog, Catalog.ofDefinitions definitions = .ok catalog := by
      cases Catalog.ofDefinitions definitions <;> simp
    rw [hfails, hbuilds, not_and_or]
    simp only [not_forall, not_not, exists_prop]
  · intro catalog hcatalog
    have hlists : forall opcode : Opcode,
        catalog.Lists opcode -> opcode ∈ publicOf definitions := by
      intro opcode hopcode
      exact mem_publicOf.mpr ((Catalog.lists_ofDefinitions_iff hcatalog).mp hopcode).1
    refine ⟨?_, fun opcode hoffers => hlists opcode (Catalog.lists_of_offers hoffers)⟩
    intro opcode hopcode
    refine ⟨Opcode.bytes_of_takesBytes (htakes opcode hopcode), ?_⟩
    rcases (Catalog.exists_ofDefinitions_iff.mp ⟨catalog, hcatalog⟩).1 opcode hopcode with
      ⟨code, hcode⟩
    have hlookup : catalog.lookup code = some opcode :=
      (Catalog.lookup_ofDefinitions_iff hcatalog).mpr ⟨mem_publicOf.mp hopcode, hcode⟩
    exact Catalog.readsBack_of_lookup (Catalog.coherent_ofDefinitions hcatalog) hlookup

def smallTable : List TableEntry :=
  [ { identifier := "NOP"
      name := "nop"
      negative := false
      magnitude := 0x00
      format := "InlineNone"
      group := "Primitive" },
    { identifier := "CEQ"
      name := "ceq"
      negative := false
      magnitude := 0xFE01
      format := "InlineNone"
      group := "Primitive" },
    { identifier := "PREFIX1"
      name := "prefix1"
      negative := false
      magnitude := 0xFE
      format := "InlineNone"
      group := "Internal" } ]

def smallDefinitions : List Opcode :=
  [ .nop, .ofValue "ceq" 0xFE01 .none .primitive, .ofValue "prefix1" 0xFE .none .internal ]

theorem ofDefinitions_of_expand_small :
    exists constants : List OpcodeConstant, exists catalog : Catalog,
      expand smallTable = .ok constants ∧
        List.Forall₂ OpcodeConstant.Defines constants smallDefinitions ∧
        Catalog.ofDefinitions smallDefinitions = .ok catalog ∧
        catalog.ReadsBack (.ofValue "ceq" 0xFE01 .none .primitive) ∧
        ¬ catalog.Offers (.ofValue "prefix1" 0xFE .none .internal) := by
  have hdefined : ((expand smallTable).toOption.any fun constants =>
      decide (List.Forall₂ (fun constant opcode =>
        OpcodeConstant.opcode? constant = some opcode) constants smallDefinitions)) = true := by
    decide +kernel
  have hsound : ¬ ((exists opcode : Opcode,
        opcode ∈ publicOf smallDefinitions ∧ opcode.value = 0xFE) ∨
      ¬ ((publicOf smallDefinitions).map Opcode.value).Nodup) := by
    decide +kernel
  cases hexpand : expand smallTable with
  | error error =>
      rw [hexpand] at hdefined
      cases hdefined
  | ok constants =>
      rw [hexpand] at hdefined
      have hdefines : List.Forall₂ OpcodeConstant.Defines constants smallDefinitions :=
        (of_decide_eq_true hdefined).imp fun _ _ h => OpcodeConstant.defines_of_opcode? h
      rcases ofDefinitions_of_expand hexpand hdefines with ⟨-, hfails, hbuilt⟩
      cases hcatalog : Catalog.ofDefinitions smallDefinitions with
      | error error => exact absurd (hfails.mp ⟨error, hcatalog⟩) hsound
      | ok catalog =>
          rcases hbuilt catalog hcatalog with ⟨hreads, hoffers⟩
          refine ⟨constants, catalog, rfl, hdefines, rfl, (hreads _ ?_).2, ?_⟩
          · decide +kernel
          · intro hprefix
            exact absurd (hoffers _ hprefix) (by decide +kernel)

end OpcodeTable

end CilDisasm
