import CilDisasm.Proofs.Decoding.Statement

/-!
# Cutting a method body into statements

Statements that are written one behind the other lie at offsets that follow from the
lengths of those in front of them. Cutting finds exactly these segments again: it passes
over the encodings of statements as long as there are any, and it ends without a fault when
nothing is left. Since cutting is a function, a method body is the code of at most one list
of statements.
-/

namespace CilDisasm
namespace Statement

/-- The code of statements that are written one behind the other. -/
def codeOf (statements : List Statement) : List UInt8 :=
  statements.flatMap bytes

/-- The segments of statements that are written from `start` on. -/
def layOut : (start : Nat) -> List Statement -> List Segment
  | _, [] => []
  | start, statement :: rest =>
      statement.placed start :: layOut (start + statement.bytes.length) rest

@[simp] theorem codeOf_nil : codeOf [] = [] :=
  rfl

@[simp] theorem codeOf_cons (statement : Statement) (rest : List Statement) :
    codeOf (statement :: rest) = statement.bytes ++ codeOf rest :=
  List.flatMap_cons

@[simp] theorem codeOf_append (first second : List Statement) :
    codeOf (first ++ second) = codeOf first ++ codeOf second :=
  List.flatMap_append

theorem map_statement_layOut (start : Nat) (statements : List Statement) :
    (layOut start statements).map Segment.statement = statements := by
  induction statements generalizing start with
  | nil => rfl
  | cons statement rest ih => exact congrArg (statement :: ·) (ih _)

theorem length_bytes_pos (statement : Statement) : 0 < statement.bytes.length := by
  have hopcode : 0 < statement.opcode.bytes.length := by
    unfold Opcode.bytes
    split <;> simp
  rw [bytes, List.length_append]
  exact Nat.lt_of_lt_of_le hopcode (Nat.le_add_right _ _)

theorem codeOf_eq_nil_iff {statements : List Statement} :
    codeOf statements = [] <-> statements = [] := by
  constructor
  · intro h
    cases statements with
    | nil => rfl
    | cons statement rest =>
        have hpos := statement.length_bytes_pos
        rw [codeOf_cons] at h
        rw [(List.append_eq_nil_iff.mp h).1] at hpos
        cases hpos
  · intro h
    rw [h]
    rfl

/-!
# Offsets of statements

The offset of a statement is the length of the code in front of it.
-/

def offsetAt (statements : List Statement) (index : Nat) : Nat :=
  (codeOf (statements.take index)).length

@[simp] theorem offsetAt_zero (statements : List Statement) : offsetAt statements 0 = 0 :=
  rfl

theorem offsetAt_length (statements : List Statement) :
    offsetAt statements statements.length = (codeOf statements).length := by
  rw [offsetAt, List.take_length]

theorem offsetAt_succ {statements : List Statement} {index : Nat} {statement : Statement}
    (h : statements[index]? = some statement) :
    offsetAt statements (index + 1) =
      offsetAt statements index + statement.bytes.length := by
  rw [offsetAt, List.take_add_one, h, codeOf_append, List.length_append]
  simp [offsetAt]

theorem offsetAt_le {statements : List Statement} {first second : Nat}
    (h : first ≤ second) : offsetAt statements first ≤ offsetAt statements second := by
  have hsplit := congrArg codeOf (List.take_append_drop first (statements.take second))
  rw [List.take_take, Nat.min_eq_left h, codeOf_append] at hsplit
  rw [offsetAt, offsetAt, ← hsplit, List.length_append]
  exact Nat.le_add_right _ _

theorem offsetAt_lt {statements : List Statement} {first second : Nat}
    {statement : Statement} (hfirst : statements[first]? = some statement)
    (h : first < second) : offsetAt statements first < offsetAt statements second := by
  have hnext := offsetAt_succ hfirst
  have hpos := statement.length_bytes_pos
  have hle : offsetAt statements (first + 1) ≤ offsetAt statements second := offsetAt_le h
  rw [hnext] at hle
  exact Nat.lt_of_lt_of_le (Nat.lt_add_of_pos_right hpos) hle

theorem bytes_prefix_drop {statements : List Statement} {index : Nat}
    {statement : Statement} (h : statements[index]? = some statement) :
    statement.bytes <+: (codeOf statements).drop (offsetAt statements index) := by
  rcases List.getElem?_eq_some_iff.mp h with ⟨hindex, hget⟩
  have hsplit := congrArg codeOf (List.take_append_drop index statements)
  rw [List.drop_eq_getElem_cons hindex, hget, codeOf_append, codeOf_cons] at hsplit
  rw [← hsplit, offsetAt, List.drop_left]
  exact List.prefix_append _ _

theorem getElem?_layOut (start : Nat) (statements : List Statement) (index : Nat) :
    (layOut start statements)[index]? =
      statements[index]?.map (fun statement =>
        statement.placed (start + offsetAt statements index)) := by
  induction statements generalizing start index with
  | nil => rfl
  | cons statement rest ih =>
      cases index with
      | zero => simp [layOut]
      | succ index =>
          simp only [layOut, List.getElem?_cons_succ, ih, offsetAt, List.take_succ_cons,
            codeOf_cons, List.length_append, Nat.add_assoc]

end Statement

/-!
# Steps of a cut
-/

namespace Cut

open Statement (codeOf layOut)

variable {catalog : Catalog} {cursor next : Cursor} {done : Array Segment}

theorem continueFrom_of_atEnd (h : cursor.atEnd = true) :
    continueFrom catalog cursor done = { segments := done, fault := none } := by
  rw [continueFrom, dif_neg (by simp [h])]

theorem continueFrom_of_read {segment : Segment} (hmore : cursor.atEnd = false)
    (hread : Segment.read catalog cursor = .ok (segment, next)) :
    continueFrom catalog cursor done = continueFrom catalog next (done.push segment) := by
  rw [continueFrom, dif_pos hmore]
  split
  · next found last hfound =>
      rw [hfound] at hread
      cases hread
      rfl
  · next fault hfound =>
      rw [hfound] at hread
      cases hread

theorem continueFrom_of_fault {fault : SegmentFault} (hmore : cursor.atEnd = false)
    (hread : Segment.read catalog cursor = .error fault) :
    continueFrom catalog cursor done =
      { segments := done, fault := some (cursor.position, fault) } := by
  rw [continueFrom, dif_pos hmore]
  split
  · next found last hfound =>
      rw [hfound] at hread
      cases hread
  · next other hfound =>
      rw [hfound] at hread
      cases hread
      rfl

theorem atEnd_eq_false_of_consumes {bytes : List UInt8} (hbytes : 0 < bytes.length)
    (h : cursor.Consumes bytes next) : cursor.atEnd = false := by
  cases hend : cursor.atEnd with
  | false => rfl
  | true =>
      have hunread := h.unread_eq
      rw [Cursor.unread_eq_nil_iff.mpr hend] at hunread
      have hnil := (List.append_eq_nil_iff.mp hunread.symm).1
      rw [hnil] at hbytes
      cases hbytes

/-- A cut goes on behind the code of statements as if it had started there. -/
theorem continueFrom_of_consumes (hcatalog : catalog.Coherent)
    {statements : List Statement}
    (hlegal : forall statement, statement ∈ statements -> statement.Legal catalog)
    (hconsumes : cursor.Consumes (codeOf statements) next) :
    continueFrom catalog cursor done =
      continueFrom catalog next
        (done ++ (layOut cursor.position statements).toArray) := by
  induction statements generalizing cursor done with
  | nil =>
      rw [hconsumes.eq_of_nil]
      simp [layOut]
  | cons statement rest ih =>
      rw [Statement.codeOf_cons] at hconsumes
      rcases Cursor.consumes_append_iff.mp hconsumes with ⟨middle, hfirst, hrest⟩
      have hmore := atEnd_eq_false_of_consumes statement.length_bytes_pos hfirst
      have hread : Segment.read catalog cursor =
          .ok (statement.placed cursor.position, middle) :=
        (Segment.read_eq_ok_iff hcatalog).mpr
          ⟨statement, hlegal statement List.mem_cons_self, hfirst, rfl⟩
      have hlegalRest : forall other, other ∈ rest -> other.Legal catalog := by
        intro other hother
        exact hlegal other (List.mem_cons_of_mem statement hother)
      rw [continueFrom_of_read hmore hread, ih hlegalRest hrest, hfirst.position_eq]
      simp [layOut]

inductive Ends (catalog : Catalog) (cursor : Cursor) :
    Option (Nat × SegmentFault) -> Prop where
  | complete : cursor.atEnd = true -> Ends catalog cursor none
  | broken {fault : SegmentFault} :
      cursor.atEnd = false ->
      Segment.read catalog cursor = .error fault ->
      Ends catalog cursor (some (cursor.position, fault))

theorem exists_statements_of_continueFrom (hcatalog : catalog.Coherent)
    (done : Array Segment) (hposition : cursor.position ≤ cursor.buffer.size) :
    exists statements : List Statement, exists next : Cursor,
      (forall statement, statement ∈ statements -> statement.Legal catalog) ∧
        cursor.Consumes (codeOf statements) next ∧
          (continueFrom catalog cursor done).segments =
              done ++ (layOut cursor.position statements).toArray ∧
            Ends catalog next (continueFrom catalog cursor done).fault := by
  induction cursor, done using continueFrom.induct catalog with
  | case1 cursor done hmore segment middle hread _ ih =>
      rcases (Segment.read_eq_ok_iff hcatalog).mp hread with
        ⟨statement, hstatement, hfirst, rfl⟩
      rcases ih hfirst.position_le with ⟨rest, next, hlegal, hrest, hsegments, hends⟩
      rw [continueFrom_of_read hmore hread]
      refine ⟨statement :: rest, next, ?_, ?_, ?_, hends⟩
      · intro other hother
        rcases List.mem_cons.mp hother with rfl | htail
        · exact hstatement
        · exact hlegal other htail
      · rw [Statement.codeOf_cons]
        exact hfirst.append hrest
      · rw [hsegments, hfirst.position_eq]
        simp [layOut]
  | case2 cursor done hmore fault hfault =>
      rw [continueFrom_of_fault hmore hfault]
      refine ⟨[], cursor, ?_, Cursor.Consumes.nil hposition, by simp [layOut], ?_⟩
      · intro statement hstatement
        cases hstatement
      · exact Ends.broken hmore hfault
  | case3 cursor done hend =>
      have hatEnd : cursor.atEnd = true := by
        simpa using hend
      rw [continueFrom_of_atEnd hatEnd]
      refine ⟨[], cursor, ?_, Cursor.Consumes.nil hposition, by simp [layOut], ?_⟩
      · intro statement hstatement
        cases hstatement
      · exact Ends.complete hatEnd

/-!
# Whole method bodies
-/

theorem consumes_ofBytes (bytes rest : List UInt8) :
    (Cursor.ofBytes (bytes ++ rest)).Consumes bytes
      { Cursor.ofBytes (bytes ++ rest) with position := bytes.length } := by
  have hconsumes := Cursor.consumes_of_unread (Nat.zero_le _)
    (Cursor.unread_ofBytes (bytes ++ rest))
  change Cursor.Consumes _ bytes
    { Cursor.ofBytes (bytes ++ rest) with position := 0 + bytes.length } at hconsumes
  rw [Nat.zero_add] at hconsumes
  exact hconsumes

theorem ofCode_codeOf (hcatalog : catalog.Coherent) {statements : List Statement}
    (hlegal : forall statement, statement ∈ statements -> statement.Legal catalog) :
    ofCode catalog (codeOf statements) =
      { segments := (layOut 0 statements).toArray, fault := none } := by
  have hconsumes := consumes_ofBytes (codeOf statements) []
  rw [List.append_nil] at hconsumes
  have hatEnd : Cursor.atEnd
      { Cursor.ofBytes (codeOf statements) with
        position := (codeOf statements).length } = true := by
    simp [Cursor.atEnd, Cursor.ofBytes]
  rw [ofCode, continueFrom_of_consumes hcatalog hlegal hconsumes,
    continueFrom_of_atEnd hatEnd]
  simp [Cursor.ofBytes]

theorem isPrefix_of_consumes {code bytes : List UInt8}
    (h : (Cursor.ofBytes code).Consumes bytes cursor) : bytes <+: code := by
  have hunread := h.unread_eq
  rw [Cursor.unread_ofBytes] at hunread
  exact ⟨cursor.unread, hunread.symm⟩

/-- The segments of a method body are statements, and the cut ends behind these. -/
theorem exists_statements_of_ofCode (hcatalog : catalog.Coherent) (code : List UInt8) :
    exists statements : List Statement, exists next : Cursor,
      (forall statement, statement ∈ statements -> statement.Legal catalog) ∧
        (Cursor.ofBytes code).Consumes (codeOf statements) next ∧
          (ofCode catalog code).segments = (layOut 0 statements).toArray ∧
            Ends catalog next (ofCode catalog code).fault := by
  have hposition : (Cursor.ofBytes code).position ≤ (Cursor.ofBytes code).buffer.size :=
    Nat.zero_le _
  rcases exists_statements_of_continueFrom hcatalog #[] hposition with
    ⟨statements, next, hlegal, hconsumes, hsegments, hends⟩
  rw [Array.empty_append] at hsegments
  exact ⟨statements, next, hlegal, hconsumes, hsegments, hends⟩

theorem exists_statements_of_fault_eq_none (hcatalog : catalog.Coherent)
    {code : List UInt8} (hfault : (ofCode catalog code).fault = none) :
    exists statements : List Statement,
      (forall statement, statement ∈ statements -> statement.Legal catalog) ∧
        codeOf statements = code ∧
          (ofCode catalog code).segments = (layOut 0 statements).toArray := by
  rcases exists_statements_of_ofCode hcatalog code with
    ⟨statements, next, hlegal, hconsumes, hsegments, hends⟩
  have hend : Ends catalog next none := by
    rw [← hfault]
    exact hends
  cases hend with
  | complete hatEnd =>
      have hunread := hconsumes.unread_eq
      rw [Cursor.unread_ofBytes, Cursor.unread_eq_nil_iff.mpr hatEnd,
        List.append_nil] at hunread
      exact ⟨statements, hlegal, hunread.symm, hsegments⟩

/-- No method body is the code of two lists of statements. -/
theorem statements_unique (hcatalog : catalog.Coherent)
    {statements others : List Statement}
    (hlegal : forall statement, statement ∈ statements -> statement.Legal catalog)
    (hothers : forall statement, statement ∈ others -> statement.Legal catalog)
    (hcode : codeOf statements = codeOf others) : statements = others := by
  have hcut := ofCode_codeOf hcatalog hlegal
  rw [hcode, ofCode_codeOf hcatalog hothers] at hcut
  have hsegments : layOut 0 others = layOut 0 statements := by
    simpa using congrArg Cut.segments hcut
  rw [← Statement.map_statement_layOut 0 statements, ← hsegments,
    Statement.map_statement_layOut]

end Cut

end CilDisasm
