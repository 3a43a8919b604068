import CilDisasm.Metadata.Template
import Mathlib.Data.List.TakeWhile

/-!
# How a name is read

Every name is read in exactly one way. From left to right, a mark begins with each `!` that
is not part of the mark in front of it, and takes a second `!` if it can. A mark with digits
behind it is a placeholder and takes all of them. Whatever else there is stands for itself.
-/

namespace CilDisasm

@[simp] theorem GenericLevel.toList_marker_type : GenericLevel.type.marker.toList = ['!'] := by
  decide

@[simp] theorem GenericLevel.toList_marker_method :
    GenericLevel.method.marker.toList = ['!', '!'] := by
  decide

namespace Template

def NoDigitAhead (rest : List Char) : Prop :=
  forall char, rest.head? = some char -> char.isDigit = false

/-- A single mark stays single. -/
def EndsMark (level : GenericLevel) (rest : List Char) : Prop :=
  level = .type -> rest.head? ≠ some '!'

/-- The pieces of a name. -/
inductive Reads : List Char -> List TemplatePiece -> Prop where
  | nil : Reads [] []
  | text {char : Char} {rest : List Char} {pieces : List TemplatePiece} :
      char ≠ '!' ->
      Reads rest pieces ->
      Reads (char :: rest) (.literal [char] :: pieces)
  | mark {level : GenericLevel} {rest : List Char} {pieces : List TemplatePiece} :
      EndsMark level rest ->
      NoDigitAhead rest ->
      Reads rest pieces ->
      Reads (level.marker.toList ++ rest) (.literal level.marker.toList :: pieces)
  | placeholder {level : GenericLevel} {digits rest : List Char}
      {pieces : List TemplatePiece} :
      digits ≠ [] ->
      (forall digit, digit ∈ digits -> digit.isDigit = true) ->
      NoDigitAhead rest ->
      Reads rest pieces ->
      Reads (level.marker.toList ++ (digits ++ rest)) (.placeholder level digits :: pieces)

theorem Reads.flatMap_source {name : List Char} {pieces : List TemplatePiece}
    (h : Reads name pieces) : pieces.flatMap TemplatePiece.source = name := by
  induction h with
  | nil => rfl
  | text _ _ ih | mark _ _ _ ih =>
      rw [List.flatMap_cons, ih]
      rfl
  | placeholder _ _ _ _ ih =>
      rw [List.flatMap_cons, ih, TemplatePiece.source, List.append_assoc]

theorem Reads.isDigit_of_mem {name : List Char} {pieces : List TemplatePiece}
    {level : GenericLevel} {digits : List Char} (h : Reads name pieces)
    (hmem : .placeholder level digits ∈ pieces) :
    forall digit, digit ∈ digits -> digit.isDigit = true := by
  induction h with
  | nil => cases hmem
  | text _ _ ih | mark _ _ _ ih =>
      rcases List.mem_cons.mp hmem with hhead | hmem
      · cases hhead
      · exact ih hmem
  | placeholder _ hdigits _ _ ih =>
      rcases List.mem_cons.mp hmem with hhead | hmem
      · cases hhead
        exact hdigits
      · exact ih hmem

/-!
# Digits behind a mark
-/

theorem noDigitAhead_dropWhile (rest : List Char) :
    NoDigitAhead (rest.dropWhile Char.isDigit) := by
  intro char hchar
  have hhead := List.head?_dropWhile_not Char.isDigit rest
  rw [hchar] at hhead
  exact hhead

theorem takeWhile_isDigit_eq_nil {rest : List Char} (h : NoDigitAhead rest) :
    rest.takeWhile Char.isDigit = [] := by
  cases rest with
  | nil => rfl
  | cons char rest =>
      have hchar := h char rfl
      rw [List.takeWhile_cons, hchar]
      rfl

theorem dropWhile_isDigit_eq {rest : List Char} (h : NoDigitAhead rest) :
    rest.dropWhile Char.isDigit = rest := by
  cases rest with
  | nil => rfl
  | cons char rest =>
      have hchar := h char rfl
      rw [List.dropWhile_cons, hchar]
      rfl

theorem takeWhile_isDigit_append {digits rest : List Char}
    (hdigits : forall digit, digit ∈ digits -> digit.isDigit = true)
    (hrest : NoDigitAhead rest) : (digits ++ rest).takeWhile Char.isDigit = digits := by
  rw [List.takeWhile_append_of_pos hdigits, takeWhile_isDigit_eq_nil hrest, List.append_nil]

theorem endsMark_of_digits {level : GenericLevel} {digits rest : List Char} (hne : digits ≠ [])
    (hdigits : forall digit, digit ∈ digits -> digit.isDigit = true) :
    EndsMark level (digits ++ rest) := by
  intro _ hhead
  cases digits with
  | nil => exact hne rfl
  | cons digit digits =>
      have hmark : digit = '!' := Option.some.inj hhead
      have hdigit := hdigits digit List.mem_cons_self
      rw [hmark] at hdigit
      exact absurd hdigit (by decide)

theorem markedPiece_of_noDigitAhead {rest : List Char} (h : NoDigitAhead rest)
    (level : GenericLevel) :
    markedPiece level rest = (.literal level.marker.toList, rest) := by
  unfold markedPiece
  rw [takeWhile_isDigit_eq_nil h]
  rfl

theorem markedPiece_of_digits {digits rest : List Char} (hne : digits ≠ [])
    (hdigits : forall digit, digit ∈ digits -> digit.isDigit = true)
    (hrest : NoDigitAhead rest) (level : GenericLevel) :
    markedPiece level (digits ++ rest) = (.placeholder level digits, rest) := by
  have htake := takeWhile_isDigit_append hdigits hrest
  have hdrop : (digits ++ rest).dropWhile Char.isDigit = rest := by
    rw [List.dropWhile_append_of_pos hdigits, dropWhile_isDigit_eq hrest]
  have hsome : ¬ digits.isEmpty = true := by
    rw [List.isEmpty_iff]
    exact hne
  unfold markedPiece
  simp only [htake, hdrop, if_neg hsome]

/-!
# Cutting at marks
-/

theorem piecesFrom_nil (done : Array TemplatePiece) : piecesFrom [] done = done := by
  rw [piecesFrom]

theorem piecesFrom_text {char : Char} (h : char ≠ '!') (rest : List Char)
    (done : Array TemplatePiece) :
    piecesFrom (char :: rest) done = piecesFrom rest (done.push (.literal [char])) := by
  rw [piecesFrom]
  · intro _ hchar
    exact absurd hchar h
  · exact h

theorem piecesFrom_mark {level : GenericLevel} {rest : List Char}
    (h : EndsMark level rest) (done : Array TemplatePiece) :
    piecesFrom (level.marker.toList ++ rest) done =
      piecesFrom (markedPiece level rest).2 (done.push (markedPiece level rest).1) := by
  cases level with
  | method =>
      rw [GenericLevel.toList_marker_method]
      show piecesFrom ('!' :: '!' :: rest) done = _
      rw [piecesFrom]
  | type =>
      rw [GenericLevel.toList_marker_type]
      show piecesFrom ('!' :: rest) done = _
      rw [piecesFrom]
      intro other hother
      apply h rfl
      rw [hother]
      rfl

theorem Reads.toList_piecesFrom {name : List Char} {pieces : List TemplatePiece}
    (h : Reads name pieces) (done : Array TemplatePiece) :
    (piecesFrom name done).toList = done.toList ++ pieces := by
  induction h generalizing done with
  | nil => rw [piecesFrom_nil, List.append_nil]
  | text hchar _ ih =>
      rw [piecesFrom_text hchar, ih, Array.toList_push, List.append_assoc]
      rfl
  | mark hends hrest _ ih =>
      rw [piecesFrom_mark hends, markedPiece_of_noDigitAhead hrest, ih, Array.toList_push,
        List.append_assoc]
      rfl
  | @placeholder level digits rest pieces hne hdigits hrest _ ih =>
      rw [piecesFrom_mark (endsMark_of_digits hne hdigits),
        markedPiece_of_digits hne hdigits hrest, ih, Array.toList_push, List.append_assoc]
      rfl

theorem exists_beginning (name : List Char) :
    name = [] ∨
      (exists level : GenericLevel, exists rest : List Char,
        EndsMark level rest ∧ name = level.marker.toList ++ rest) ∨
      exists char : Char, exists rest : List Char, char ≠ '!' ∧ name = char :: rest := by
  cases name with
  | nil => exact Or.inl rfl
  | cons first rest =>
      refine Or.inr ?_
      by_cases hfirst : first = '!'
      · subst hfirst
        refine Or.inl ?_
        by_cases hsecond : rest.head? = some '!'
        · rcases List.head?_eq_some_iff.mp hsecond with ⟨last, rfl⟩
          refine ⟨.method, last, ?_, ?_⟩
          · intro hlevel
            cases hlevel
          · rw [GenericLevel.toList_marker_method]
            rfl
        · refine ⟨.type, rest, fun _ => hsecond, ?_⟩
          rw [GenericLevel.toList_marker_type]
          rfl
      · exact Or.inr ⟨first, rest, hfirst, rfl⟩

theorem exists_reads (name : List Char) : exists pieces : List TemplatePiece, Reads name pieces := by
  -- A mark takes its digits with it, so the induction is on the length.
  induction hlength : name.length using Nat.strongRecOn generalizing name with
  | ind length ih =>
      subst hlength
      rcases exists_beginning name with rfl | ⟨level, rest, hends, rfl⟩ | ⟨char, rest, hchar, rfl⟩
      · exact ⟨[], Reads.nil⟩
      · have hmarker : 0 < level.marker.toList.length := by
          cases level <;> simp
        have hlonger : rest.length < (level.marker.toList ++ rest).length := by
          rw [List.length_append]
          exact Nat.lt_add_of_pos_left hmarker
        by_cases hdigits : rest.takeWhile Char.isDigit = []
        · have hrest : rest.dropWhile Char.isDigit = rest := by
            have hsplit := List.takeWhile_append_dropWhile (p := Char.isDigit) (l := rest)
            rw [hdigits] at hsplit
            exact hsplit
          rcases ih _ hlonger rest rfl with ⟨pieces, hpieces⟩
          exact ⟨_, Reads.mark hends (hrest ▸ noDigitAhead_dropWhile rest) hpieces⟩
        · have hshorter : (rest.dropWhile Char.isDigit).length <
              (level.marker.toList ++ rest).length :=
            Nat.lt_of_le_of_lt (List.dropWhile_sublist _).length_le hlonger
          rcases ih _ hshorter _ rfl with ⟨pieces, hpieces⟩
          have hreads := @Reads.placeholder level _ _ _ hdigits
            (fun digit hdigit => List.mem_takeWhile_imp hdigit)
            (noDigitAhead_dropWhile rest) hpieces
          rw [List.takeWhile_append_dropWhile] at hreads
          exact ⟨_, hreads⟩
      · rcases ih _ (Nat.lt_succ_self rest.length) rest rfl with ⟨pieces, hpieces⟩
        exact ⟨_, Reads.text hchar hpieces⟩

/-- Cutting a name reads it, and there is no other way to read it. -/
theorem reads_iff {name : List Char} {others : List TemplatePiece} :
    Reads name others <-> others = pieces name := by
  have heq : forall {found : List TemplatePiece}, Reads name found -> found = pieces name := by
    intro found hfound
    have hpieces := hfound.toList_piecesFrom #[]
    exact hpieces.symm
  constructor
  · exact heq
  · intro h
    rcases exists_reads name with ⟨found, hfound⟩
    rw [h, ← heq hfound]
    exact hfound

end Template

end CilDisasm
