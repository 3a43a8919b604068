import CilDisasm.Proofs.Opcode.Contents

/-!
# The first refused definition

Building goes through the definitions from front to back and ends at the first one that it
refuses. The definitions in front of this one make a catalog, and those behind it are never
looked at. The error says what is wrong with the refused definition. A collision is noticed
at one byte in one half of the catalog, but all that stands there has been checked, so the
definition in front has the same size and the same value in full, and there is only one.
-/

namespace CilDisasm

open Opcode (publicOf mem_publicOf)

/-- The public definitions that are encoded like an opcode. -/
def Opcode.rivals (opcode : Opcode) (definitions : List Opcode) : List Opcode :=
  (publicOf definitions).filter fun other =>
    other.size = opcode.size && other.value = opcode.value

/-- What is wrong with a definition behind others that make a catalog. -/
inductive CatalogError.Blames (front : List Opcode) (opcode : Opcode) :
    CatalogError -> Prop where
  | invalidSize :
      opcode.size ≠ 1 ∧ opcode.size ≠ 2 ->
      Blames front opcode (.invalidSize opcode.name opcode.size)
  | invalidEncoding :
      ¬ (opcode.size ≠ 1 ∧ opcode.size ≠ 2) ->
      ¬ opcode.Encodable ->
      Blames front opcode (.invalidEncoding opcode.name opcode.value opcode.size)
  | collision {existing : Opcode} :
      opcode.Encodable ->
      opcode.rivals front = [existing] ->
      Blames front opcode (.collision existing.name opcode.name opcode.value)

namespace Catalog

variable {front definitions : List Opcode} {opcode : Opcode} {built : Catalog}
  {error : CatalogError}

/-!
# Building step by step
-/

theorem insert_eq_error_of_refuses (h : built.Refuses opcode error) :
    built.insert opcode = .error error := by
  unfold insert
  cases h with
  | invalidSize hone htwo => rw [if_pos ⟨hone, htwo⟩]
  | invalidEncoding hsize hcode =>
      rw [if_neg (Opcode.size_eq_one_or_two_iff.mpr hsize)]
      simp only [hcode]
  | collision hcode hlookup =>
      have hsize := (Opcode.code?_eq_some_cases hcode).imp And.left And.left
      rw [if_neg (Opcode.size_eq_one_or_two_iff.mpr hsize)]
      simp only [hcode, hlookup]

theorem ofDefinitions_append_of_ok (h : ofDefinitions front = .ok built)
    (back : List Opcode) :
    ofDefinitions (front ++ back) = (publicOf back).foldlM insert built := by
  unfold ofDefinitions at h ⊢
  rw [List.filter_append, List.foldlM_append, h]
  rfl

/-- What has been refused stays refused, whatever else is defined behind it. -/
theorem ofDefinitions_append_of_error (h : ofDefinitions front = .error error)
    (back : List Opcode) : ofDefinitions (front ++ back) = .error error := by
  unfold ofDefinitions at h ⊢
  rw [List.filter_append, List.foldlM_append, h]
  rfl

theorem exists_ofDefinitions_take (h : ofDefinitions definitions = .ok built)
    (count : Nat) : exists first : Catalog, ofDefinitions (definitions.take count) = .ok first := by
  cases htake : ofDefinitions (definitions.take count) with
  | ok first => exact ⟨first, rfl⟩
  | error cause =>
      have hfailed := ofDefinitions_append_of_error htake (definitions.drop count)
      rw [List.take_append_drop, h] at hfailed
      cases hfailed

theorem exists_first_refused (h : ofDefinitions definitions = .error error) :
    exists front : List Opcode, exists opcode : Opcode, exists back : List Opcode,
      exists built : Catalog,
        definitions = front ++ opcode :: back ∧ opcode.isInternal = false ∧
          ofDefinitions front = .ok built ∧ built.Refuses opcode error := by
  rcases exists_of_foldlM_insert_eq_error h with
    ⟨publicFront, opcode, publicBack, built, hsplit, hbuilt, hrefuses⟩
  rcases List.filter_eq_append_iff.mp hsplit with ⟨first, second, rfl, hfirst, hsecond⟩
  rcases List.filter_eq_cons_iff.mp hsecond with
    ⟨skipped, back, rfl, hskipped, hpublic, -⟩
  -- The internal entries in front of the refused one belong to what is built before it.
  have hnone : publicOf skipped = [] := by
    apply List.filter_eq_nil_iff.mpr
    exact hskipped
  refine ⟨first ++ skipped, opcode, back, built, ?_, ?_, ?_, hrefuses⟩
  · rw [List.append_assoc]
  · exact (Bool.not_eq_true' _).mp hpublic
  · show (publicOf (first ++ skipped)).foldlM insert empty = .ok built
    rw [publicOf, List.filter_append, hfirst, ← publicOf, hnone, List.append_nil]
    exact hbuilt

/-!
# What the error says
-/

theorem rivals_eq_singleton (h : ofDefinitions front = .ok built) {code : OpcodeCode}
    (hcode : opcode.code? = some code) {existing : Opcode}
    (hlookup : built.lookup code = some existing) : opcode.rivals front = [existing] := by
  have hopcode := (Opcode.code?_eq_some_iff
    (Opcode.exists_code?_iff_encodable.mp ⟨code, hcode⟩)).mp hcode
  rcases (lookup_eq_some_iff h).mp hlookup with ⟨hmem, hsize, hvalue⟩
  have hvalues := (exists_ofDefinitions_iff.mp ⟨built, h⟩).2
  have hnodup : (opcode.rivals front).Nodup :=
    (List.Nodup.of_map Opcode.value hvalues).filter _
  apply List.perm_singleton.mp
  apply (List.perm_ext_iff_of_nodup hnodup (List.nodup_singleton existing)).mpr
  intro other
  rw [Opcode.rivals, List.mem_filter, List.mem_singleton, Bool.and_eq_true_iff,
    decide_eq_true_eq, decide_eq_true_eq]
  constructor
  · intro hother
    rcases hother with ⟨hothers, -, hsame⟩
    apply List.inj_on_of_nodup_map hvalues hothers hmem
    rw [hsame, hopcode.2, hvalue]
  · intro hother
    rw [hother, hopcode.1, hopcode.2]
    exact ⟨hmem, hsize, hvalue⟩

theorem Refuses.blames (hrefuses : built.Refuses opcode error)
    (h : ofDefinitions front = .ok built) : error.Blames front opcode := by
  cases hrefuses with
  | invalidSize hone htwo => exact .invalidSize ⟨hone, htwo⟩
  | invalidEncoding hsize hcode =>
      refine .invalidEncoding (Opcode.size_eq_one_or_two_iff.mpr hsize) ?_
      intro hencodable
      rcases Opcode.exists_code?_iff_encodable.mpr hencodable with ⟨code, hsome⟩
      rw [hcode] at hsome
      cases hsome
  | collision hcode hlookup =>
      exact .collision (Opcode.exists_code?_iff_encodable.mp ⟨_, hcode⟩)
        (rivals_eq_singleton h hcode hlookup)

/-- An error is about the first public definition that is refused. The definitions in front
of it make catalogs, those behind it have no influence on the error. -/
theorem blames_of_ofDefinitions_error (h : ofDefinitions definitions = .error error) :
    exists index : Nat, exists opcode : Opcode,
      definitions[index]? = some opcode ∧ opcode.isInternal = false ∧
        (forall count : Nat,
          count ≤ index ->
          exists first : Catalog, ofDefinitions (definitions.take count) = .ok first) ∧
        (forall back : List Opcode,
          ofDefinitions (definitions.take (index + 1) ++ back) = .error error) ∧
        error.Blames (definitions.take index) opcode := by
  rcases exists_first_refused h with
    ⟨front, opcode, back, built, rfl, hpublic, hbuilt, hrefuses⟩
  have hfront : (front ++ opcode :: back).take front.length = front :=
    List.take_left
  have hnext : (front ++ opcode :: back).take (front.length + 1) = front ++ [opcode] := by
    rw [List.take_add_one, hfront, List.getElem?_append_right (Nat.le_refl _), Nat.sub_self]
    rfl
  have hfailed : ofDefinitions (front ++ [opcode]) = .error error := by
    rw [ofDefinitions_append_of_ok hbuilt]
    have hsingle : publicOf [opcode] = [opcode] := by
      rw [publicOf, List.filter_singleton, hpublic]
      rfl
    rw [hsingle, List.foldlM_cons, insert_eq_error_of_refuses hrefuses]
    rfl
  refine ⟨front.length, opcode, ?_, hpublic, ?_, ?_, ?_⟩
  · rw [List.getElem?_append_right (Nat.le_refl _), Nat.sub_self]
    rfl
  · intro count hcount
    have htake : (front ++ opcode :: back).take count = front.take count :=
      List.take_append_of_le_length hcount
    rw [htake]
    exact exists_ofDefinitions_take hbuilt count
  · intro other
    rw [hnext]
    exact ofDefinitions_append_of_error hfailed other
  · rw [hfront]
    exact hrefuses.blames hbuilt

def clashingDefinitions : List Opcode :=
  [ .ofValue "ceq" 0xFE00 .none .primitive,
    .nop,
    .ofValue "prefix1" 0x00 .none .internal,
    .ofValue "clash" 0x00 .none .primitive,
    { name := "wide", value := 0x10, size := 3, format := .none, group := .primitive } ]

theorem blames_of_ofDefinitions_error_clashing :
    ofDefinitions clashingDefinitions = .error (.collision "nop" "clash" 0x00) ∧
      exists index : Nat, exists opcode : Opcode,
        clashingDefinitions[index]? = some opcode ∧
          (forall back : List Opcode,
            ofDefinitions (clashingDefinitions.take (index + 1) ++ back) =
              .error (.collision "nop" "clash" 0x00)) ∧
          CatalogError.Blames (clashingDefinitions.take index) opcode
            (.collision "nop" "clash" 0x00) := by
  have hfails : ofDefinitions clashingDefinitions =
      .error (.collision "nop" "clash" 0x00) := by
    rfl
  rcases blames_of_ofDefinitions_error hfails with
    ⟨index, opcode, hopcode, -, -, hback, hblames⟩
  exact ⟨hfails, index, opcode, hopcode, hback, hblames⟩

end Catalog

end CilDisasm
