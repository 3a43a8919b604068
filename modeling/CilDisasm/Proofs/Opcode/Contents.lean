import CilDisasm.Proofs.Opcode.Building
import Mathlib.Data.List.FinRange

/-!
# What is in a catalog

A catalog is an arrangement of the public definitions that it was built from. There is one
when the values of these can be written at their sizes and are all different, whatever
their order is, and the catalog lists them in ascending order of value.
-/

namespace CilDisasm

/-!
# Values that can be written

A code fixes the size of its opcode and all bits of its value, not only the low byte.
-/

namespace Opcode

/-- The value of the opcode can be written at its size: alone, without being taken for the
announcing byte, or behind it. -/
def Encodable (opcode : Opcode) : Prop :=
  (opcode.size = 1 ∧ opcode.value ≤ 0xFF ∧ opcode.value ≠ 0xFE) ∨
    (opcode.size = 2 ∧ opcode.value >>> 8 = 0xFE)

instance (opcode : Opcode) : Decidable opcode.Encodable :=
  inferInstanceAs (Decidable (_ ∨ _))

variable {opcode : Opcode}

theorem highByte_eq_extensionByte_iff :
    opcode.highByte = extensionByte <-> opcode.value >>> 8 = 0xFE := by
  rw [← UInt8.toNat_inj, ← UInt16.toNat_inj, toNat_highByte, toNat_shiftRight_eight]
  exact Iff.rfl

theorem exists_code?_iff_encodable :
    (exists code : OpcodeCode, opcode.code? = some code) <-> opcode.Encodable := by
  unfold Encodable
  rw [← highByte_eq_extensionByte_iff]
  constructor
  · intro h
    rcases h with ⟨code, hcode⟩
    rcases code?_eq_some_cases hcode with ⟨hsize, hle, hne, -⟩ | ⟨hsize, hhigh, -⟩
    · exact Or.inl ⟨hsize, hle, hne⟩
    · exact Or.inr ⟨hsize, hhigh⟩
  · intro h
    rcases h with hone | ⟨hsize, hhigh⟩
    · exact ⟨_, if_pos hone⟩
    · have hnotOne : ¬ (opcode.size = 1 ∧ opcode.value ≤ 0xFF ∧ opcode.value ≠ 0xFE) := by
        intro hone
        rw [hsize] at hone
        exact absurd hone.1 (by decide)
      refine ⟨.twoByte opcode.lowByte, ?_⟩
      rw [code?, if_neg hnotOne, if_pos ⟨hsize, hhigh⟩]

theorem code?_eq_some_iff (h : opcode.Encodable) {code : OpcodeCode} :
    opcode.code? = some code <->
      opcode.size = UInt8.ofNat code.bytes.length ∧ opcode.value = code.value := by
  constructor
  · intro hcode
    refine ⟨?_, (value_of_code? hcode).symm⟩
    rcases code?_eq_some_cases hcode with ⟨hsize, -, -, rfl⟩ | ⟨hsize, -, rfl⟩
    · exact hsize
    · exact hsize
  · intro hboth
    rcases exists_code?_iff_encodable.mpr h with ⟨own, hown⟩
    rw [hown, OpcodeCode.eq_of_value_eq ((value_of_code? hown).trans hboth.2)]

end Opcode

/-!
# Codes in order
-/

def OpcodeCode.inOrder : List OpcodeCode :=
  (List.finRange 256).map (fun byte => .oneByte (.ofFin byte)) ++
    (List.finRange 256).map (fun byte => .twoByte (.ofFin byte))

theorem OpcodeCode.pairwise_map_finRange {make : UInt8 -> OpcodeCode}
    (hmake : forall first second : UInt8,
      first < second -> (make first).value < (make second).value) :
    ((List.finRange 256).map fun byte => make (.ofFin byte)).Pairwise
      fun left right => left.value < right.value := by
  apply List.pairwise_map.mpr
  exact (List.pairwise_lt_finRange 256).imp fun hlt => hmake _ _ hlt

theorem OpcodeCode.pairwise_inOrder :
    inOrder.Pairwise fun left right => left.value < right.value := by
  refine List.pairwise_append.mpr
    ⟨pairwise_map_finRange ?_, pairwise_map_finRange ?_, ?_⟩
  · intro first second hlt
    rw [UInt16.lt_iff_toNat_lt, toNat_value, toNat_value]
    exact hlt
  · intro first second hlt
    rw [UInt16.lt_iff_toNat_lt, toNat_value, toNat_value]
    exact Nat.add_lt_add_left hlt _
  · intro left hleft right hright
    rcases List.mem_map.mp hleft with ⟨first, -, rfl⟩
    rcases List.mem_map.mp hright with ⟨second, -, rfl⟩
    have hfirst := first.isLt
    rw [UInt16.lt_iff_toNat_lt, toNat_value, toNat_value]
    show first.val < 0xFE00 + second.val
    omega

namespace Catalog

variable {catalog : Catalog}

theorem toList_eq_filterMap_lookup (catalog : Catalog) :
    catalog.toList = OpcodeCode.inOrder.filterMap catalog.lookup := by
  have hhalf : forall half : Vector (Option Opcode) 256,
      half.toList = (List.finRange 256).map fun byte => half[byte] := by
    intro half
    apply List.ext_getElem
    · simp
    · intro index hindex hindex'
      simp
  rw [toList, hhalf, hhalf, List.filterMap_append, List.filterMap_map, List.filterMap_map,
    OpcodeCode.inOrder, List.filterMap_append, List.filterMap_map, List.filterMap_map]
  rfl

theorem Coherent.pairwise_toList (h : catalog.Coherent) :
    catalog.toList.Pairwise fun left right => left.value < right.value := by
  rw [toList_eq_filterMap_lookup]
  refine OpcodeCode.pairwise_inOrder.filterMap _ ?_
  intro code other hlt left hleft right hright
  rw [← Opcode.value_of_code? (h code left hleft), ← Opcode.value_of_code? (h other right hright)]
  exact hlt

theorem eq_of_lookup_eq {other : Catalog}
    (h : forall code : OpcodeCode, catalog.lookup code = other.lookup code) :
    catalog = other := by
  rcases catalog with ⟨oneByte, twoByte⟩
  rcases other with ⟨oneByte', twoByte'⟩
  have hone : oneByte = oneByte' := by
    apply Vector.ext
    intro index hindex
    exact h (.oneByte (.ofFin ⟨index, hindex⟩))
  have htwo : twoByte = twoByte' := by
    apply Vector.ext
    intro index hindex
    exact h (.twoByte (.ofFin ⟨index, hindex⟩))
  rw [hone, htwo]

end Catalog

/-!
# Lists in ascending order
-/

theorem Opcode.find?_eq_some_iff_least {entries : List Opcode}
    (h : entries.Pairwise fun left right => left.value < right.value)
    {test : Opcode -> Bool} {opcode : Opcode} :
    entries.find? test = some opcode <->
      opcode ∈ entries ∧ test opcode = true ∧
        forall other, other ∈ entries -> test other = true -> opcode.value ≤ other.value := by
  induction entries with
  | nil => simp
  | cons first rest ih =>
      rcases List.pairwise_cons.mp h with ⟨hfirst, hrest⟩
      cases htest : test first with
      | true =>
          rw [List.find?_cons_of_pos htest, Option.some.injEq]
          constructor
          · intro hsame
            subst hsame
            refine ⟨List.mem_cons_self, htest, ?_⟩
            intro other hother _
            rcases List.mem_cons.mp hother with rfl | htail
            · exact UInt16.le_refl _
            · exact UInt16.le_of_lt (hfirst other htail)
          · intro hleast
            rcases hleast with ⟨hmem, -, hle⟩
            rcases List.mem_cons.mp hmem with rfl | htail
            · rfl
            · have hlower := hle first List.mem_cons_self htest
              exact absurd (hfirst opcode htail) (UInt16.not_lt.mpr hlower)
      | false =>
          have hfails : ¬ test first = true := by
            rw [htest]
            exact Bool.false_ne_true
          rw [List.find?_cons_of_neg hfails, ih hrest]
          constructor
          · intro hleast
            rcases hleast with ⟨hmem, hpasses, hle⟩
            refine ⟨List.mem_cons_of_mem first hmem, hpasses, ?_⟩
            intro other hother hpass
            rcases List.mem_cons.mp hother with rfl | htail
            · exact absurd hpass hfails
            · exact hle other htail hpass
          · intro hleast
            rcases hleast with ⟨hmem, hpasses, hle⟩
            rcases List.mem_cons.mp hmem with rfl | htail
            · exact absurd hpasses hfails
            · exact ⟨htail, hpasses, fun other hother =>
                hle other (List.mem_cons_of_mem first hother)⟩

/-!
# Built catalogs
-/

namespace Catalog

open Opcode (publicOf mem_publicOf)

/-- What a catalog answers that holds the given entries and nothing else. -/
structure Indexes (catalog : Catalog) (entries : List Opcode) : Prop where
  oneByte_iff : forall (byte : UInt8) (opcode : Opcode),
    catalog.lookup (.oneByte byte) = some opcode <->
      opcode ∈ entries ∧ opcode.size = 1 ∧ opcode.value = byte.toUInt16
  extensionByte : catalog.lookup (.oneByte extensionByte) = none
  twoByte_iff : forall (byte : UInt8) (opcode : Opcode),
    catalog.lookup (.twoByte byte) = some opcode <->
      opcode ∈ entries ∧ opcode.size = 2 ∧ opcode.value = 0xFE00 + byte.toUInt16
  toList_perm : catalog.toList.Perm entries
  toList_ascending : catalog.toList.Pairwise fun left right => left.value < right.value
  size_eq : catalog.size = entries.length
  isEmpty_iff : catalog.isEmpty = true <-> entries = []
  find?_eq_some_iff : forall (name : String) (opcode : Opcode),
    catalog.find? name = some opcode <->
      opcode ∈ entries ∧ opcode.name = name ∧
        forall other, other ∈ entries -> other.name = name -> opcode.value ≤ other.value
  find?_eq_none_iff : forall name : String,
    catalog.find? name = none <-> forall opcode, opcode ∈ entries -> opcode.name ≠ name

section Built

variable {definitions : List Opcode}

theorem exists_ofDefinitions_iff_encodable :
    (exists catalog : Catalog, ofDefinitions definitions = .ok catalog) <->
      (forall opcode, opcode ∈ publicOf definitions -> opcode.Encodable) ∧
        ((publicOf definitions).map Opcode.value).Nodup := by
  rw [exists_ofDefinitions_iff]
  simp only [Opcode.exists_code?_iff_encodable]

theorem lookup_eq_some_iff (h : ofDefinitions definitions = .ok catalog)
    {code : OpcodeCode} {opcode : Opcode} :
    catalog.lookup code = some opcode <->
      opcode ∈ publicOf definitions ∧
        opcode.size = UInt8.ofNat code.bytes.length ∧ opcode.value = code.value := by
  have hencodable := (exists_ofDefinitions_iff_encodable.mp ⟨catalog, h⟩).1
  rw [lookup_ofDefinitions_iff h, ← mem_publicOf]
  exact and_congr_right fun hopcode => Opcode.code?_eq_some_iff (hencodable opcode hopcode)

theorem mem_toList_iff (h : ofDefinitions definitions = .ok catalog) {opcode : Opcode} :
    opcode ∈ catalog.toList <-> opcode ∈ publicOf definitions := by
  rw [mem_toList_iff_lists, lists_ofDefinitions_iff h, ← mem_publicOf]
  apply and_iff_left_of_imp
  intro hopcode
  rw [Option.isSome_iff_exists]
  exact (exists_ofDefinitions_iff.mp ⟨catalog, h⟩).1 opcode hopcode

theorem toList_perm_publicOf (h : ofDefinitions definitions = .ok catalog) :
    catalog.toList.Perm (publicOf definitions) := by
  have hlisted : catalog.toList.Nodup := by
    refine (coherent_ofDefinitions h).pairwise_toList.imp ?_
    intro left right hlt hsame
    rw [hsame] at hlt
    exact UInt16.lt_irrefl _ hlt
  have hdefined : (publicOf definitions).Nodup :=
    List.Nodup.of_map Opcode.value (exists_ofDefinitions_iff.mp ⟨catalog, h⟩).2
  exact (List.perm_ext_iff_of_nodup hlisted hdefined).mpr fun _ => mem_toList_iff h

theorem indexes_publicOf (h : ofDefinitions definitions = .ok catalog) :
    catalog.Indexes (publicOf definitions) where
  oneByte_iff _ _ := lookup_eq_some_iff h
  extensionByte := by
    apply Option.eq_none_iff_forall_ne_some.mpr
    intro opcode hlookup
    exact (coherent_ofDefinitions h).ne_extensionByte hlookup rfl
  twoByte_iff _ _ := lookup_eq_some_iff h
  toList_perm := toList_perm_publicOf h
  toList_ascending := (coherent_ofDefinitions h).pairwise_toList
  size_eq := (toList_perm_publicOf h).length_eq
  isEmpty_iff := by
    rw [isEmpty, List.isEmpty_iff, ← List.length_eq_zero_iff, ← List.length_eq_zero_iff,
      (toList_perm_publicOf h).length_eq]
  find?_eq_some_iff name opcode := by
    rw [find?, Opcode.find?_eq_some_iff_least (coherent_ofDefinitions h).pairwise_toList]
    simp only [mem_toList_iff h, decide_eq_true_eq]
  find?_eq_none_iff name := by
    rw [find?, List.find?_eq_none]
    simp only [mem_toList_iff h, decide_eq_true_eq]

/-- The order of the definitions plays no part in what is built from them. -/
theorem ofDefinitions_of_perm {others : List Opcode} (hperm : definitions.Perm others)
    (h : ofDefinitions definitions = .ok catalog) : ofDefinitions others = .ok catalog := by
  have hpublic : (publicOf definitions).Perm (publicOf others) := hperm.filter _
  rcases exists_ofDefinitions_iff.mp ⟨catalog, h⟩ with ⟨hcodes, hvalues⟩
  have hbuilds : exists other : Catalog, ofDefinitions others = .ok other := by
    apply exists_ofDefinitions_iff.mpr
    refine ⟨?_, (hpublic.map Opcode.value).nodup_iff.mp hvalues⟩
    intro opcode hopcode
    exact hcodes opcode (hpublic.mem_iff.mpr hopcode)
  rcases hbuilds with ⟨other, hother⟩
  have hsame : other = catalog := by
    apply eq_of_lookup_eq
    intro code
    apply Option.ext
    intro opcode
    rw [lookup_eq_some_iff hother, lookup_eq_some_iff h, hpublic.mem_iff]
  rw [hother, hsame]

end Built

/-- Definitions make a catalog when the values of the public ones can be written and are all
different. Their order has no influence, and the catalog is an index of the public ones. -/
theorem ofDefinitions_indexes (definitions : List Opcode) :
    ((exists catalog : Catalog, ofDefinitions definitions = .ok catalog) <->
        (forall opcode, opcode ∈ publicOf definitions -> opcode.Encodable) ∧
          ((publicOf definitions).map Opcode.value).Nodup) ∧
      (forall others : List Opcode,
        definitions.Perm others ->
        forall catalog : Catalog,
          ofDefinitions definitions = .ok catalog <-> ofDefinitions others = .ok catalog) ∧
      forall catalog : Catalog,
        ofDefinitions definitions = .ok catalog ->
        catalog.Indexes (publicOf definitions) := by
  refine ⟨exists_ofDefinitions_iff_encodable, ?_, fun _ => indexes_publicOf⟩
  intro others hperm catalog
  exact ⟨ofDefinitions_of_perm hperm, ofDefinitions_of_perm hperm.symm⟩

def crossedDefinitions : List Opcode :=
  [ .ofValue "ceq" 0xFE01 .none .primitive,
    .ofValue "twin" 0xFE00 .none .primitive,
    .ofValue "prefix1" 0xFE .none .internal,
    .ofValue "twin" 0x01 .none .primitive,
    .nop ]

theorem ofDefinitions_indexes_crossed :
    exists catalog : Catalog,
      ofDefinitions crossedDefinitions = .ok catalog ∧
        ofDefinitions crossedDefinitions.reverse = .ok catalog ∧
        catalog.size = 4 ∧
        catalog.lookup (.twoByte 0x01) = some (.ofValue "ceq" 0xFE01 .none .primitive) ∧
        catalog.find? "twin" = some (.ofValue "twin" 0x01 .none .primitive) := by
  rcases ofDefinitions_indexes crossedDefinitions with ⟨hbuilds, horder, hindexes⟩
  have hvalid :
      (forall opcode, opcode ∈ publicOf crossedDefinitions -> opcode.Encodable) ∧
        ((publicOf crossedDefinitions).map Opcode.value).Nodup := by
    decide
  rcases hbuilds.mpr hvalid with ⟨catalog, hcatalog⟩
  have hcontents := hindexes catalog hcatalog
  have hreversed := (horder _ (List.reverse_perm _).symm catalog).mp hcatalog
  refine ⟨catalog, hcatalog, hreversed, hcontents.size_eq, ?_, ?_⟩
  · exact (hcontents.twoByte_iff _ _).mpr (by decide)
  · exact (hcontents.find?_eq_some_iff _ _).mpr (by decide)

end Catalog

end CilDisasm
