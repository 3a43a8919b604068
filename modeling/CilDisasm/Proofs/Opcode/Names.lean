import CilDisasm.Proofs.Opcode.Lookup
import Mathlib.Data.List.Sort

/-!
# Names of the standard catalog

No two opcodes that the standard catalog lists have the same name, and the names are made of
letters, digits and dots.
-/

namespace CilDisasm
namespace Opcode

def publicSet : List Opcode :=
  standardSet.filter fun opcode => !opcode.isInternal

/-- The bytes of the name as the digits of one number. Numbers are compared much faster than
names, so the names are told apart by these. -/
def nameCode (opcode : Opcode) : Nat :=
  opcode.name.toByteArray.data.toList.foldl (fun code byte => 256 * code + byte.toNat) 0

theorem isChain_nameCode :
    List.IsChain (· < ·) ((publicSet.map nameCode).insertionSort (· ≤ ·)) := by
  decide +kernel

theorem nodup_nameCode : (publicSet.map nameCode).Nodup := by
  have hsorted := List.isChain_iff_pairwise.mp isChain_nameCode
  have hdistinct : ((publicSet.map nameCode).insertionSort (· ≤ ·)).Nodup :=
    hsorted.imp fun hlt => Nat.ne_of_lt hlt
  exact (List.perm_insertionSort _ _).nodup_iff.mp hdistinct

theorem eq_of_name_eq {left right : Opcode} (hleft : left ∈ publicSet)
    (hright : right ∈ publicSet) (hname : left.name = right.name) : left = right := by
  apply List.inj_on_of_nodup_map nodup_nameCode hleft hright
  rw [nameCode, nameCode, hname]

theorem all_name_publicSet :
    (publicSet.all fun opcode =>
      opcode.name.toList.all fun character =>
        character.isAlphanum || character == '.') = true := by
  decide +kernel

theorem isAlphanum_or_eq_dot_of_mem_name {opcode : Opcode} (hopcode : opcode ∈ publicSet)
    {character : Char} (hcharacter : character ∈ opcode.name.toList) :
    character.isAlphanum = true ∨ character = '.' := by
  have hname := List.all_eq_true.mp all_name_publicSet opcode hopcode
  have hone := List.all_eq_true.mp hname character hcharacter
  exact (Bool.or_eq_true_iff.mp hone).imp_right beq_iff_eq.mp

end Opcode

theorem Catalog.mem_publicSet_of_lists {opcode : Opcode} (h : standard.Lists opcode) :
    opcode ∈ Opcode.publicSet := by
  rcases (lists_ofDefinitions_iff ofDefinitions_standardSet).mp h with ⟨⟨hmem, hpublic⟩, -⟩
  apply List.mem_filter.mpr
  exact ⟨hmem, by rw [hpublic]; rfl⟩

theorem Catalog.notMem_name_of_lists {opcode : Opcode} (h : standard.Lists opcode)
    {separator : Char} (halphanum : separator.isAlphanum = false) (hdot : separator ≠ '.') :
    separator ∉ opcode.name.toList := by
  intro hmem
  rcases Opcode.isAlphanum_or_eq_dot_of_mem_name (mem_publicSet_of_lists h) hmem with
    hname | hname
  · rw [halphanum] at hname
    cases hname
  · exact hdot hname

end CilDisasm
