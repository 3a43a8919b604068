import CilDisasm.Proofs.Metadata.Pieces

/-!
# One pass and two

Copying a name from mark to mark is the same as cutting it into pieces and filling these.
-/

namespace CilDisasm
namespace Template

variable {context : Option GenericContext} {level : GenericLevel}
variable {rest behind : List Char} {done : Array Char}

theorem instantiateFrom_of_dropWhile_nil (h : rest.dropWhile (· ≠ '!') = []) :
    instantiateFrom context rest done = .ok (done ++ rest) := by
  rw [instantiateFrom.eq_def]
  split
  · rfl
  · next hcons =>
      rw [h] at hcons
      cases hcons

theorem instantiateFrom_of_dropWhile_cons {first : Char} {after : List Char}
    (h : rest.dropWhile (· ≠ '!') = first :: behind) (hmark : takeMark behind = (level, after)) :
    instantiateFrom context rest done =
      if (after.takeWhile Char.isDigit).isEmpty then
        instantiateFrom context after
          (done ++ rest.takeWhile (· ≠ '!') ++ level.marker.toList)
      else
        (argument context level (after.takeWhile Char.isDigit)).bind fun argument =>
          instantiateFrom context (after.drop (after.takeWhile Char.isDigit).length)
            (done ++ rest.takeWhile (· ≠ '!') ++ argument.toList) := by
  rw [instantiateFrom.eq_def]
  split
  · next hnil =>
      rw [h] at hnil
      cases hnil
  · next hcons =>
      rw [h] at hcons
      cases hcons
      simp only [hmark]

/-!
# Steps that read one piece
-/

theorem instantiateFrom_text {char : Char} (h : char ≠ '!') :
    instantiateFrom context (char :: rest) done =
      instantiateFrom context rest (done.push char) := by
  have hdrop : (char :: rest).dropWhile (· ≠ '!') = rest.dropWhile (· ≠ '!') :=
    List.dropWhile_cons_of_pos (decide_eq_true h)
  have htake : (char :: rest).takeWhile (· ≠ '!') = char :: rest.takeWhile (· ≠ '!') :=
    List.takeWhile_cons_of_pos (decide_eq_true h)
  have hpush : forall text : List Char, done ++ char :: text = done.push char ++ text := by
    simp
  -- All characters up to the next mark are copied at once, this one with those behind it.
  cases hbehind : rest.dropWhile (· ≠ '!') with
  | nil =>
      rw [instantiateFrom_of_dropWhile_nil (hdrop.trans hbehind),
        instantiateFrom_of_dropWhile_nil hbehind, hpush]
  | cons first behind =>
      rw [instantiateFrom_of_dropWhile_cons (hdrop.trans hbehind) rfl,
        instantiateFrom_of_dropWhile_cons hbehind rfl, htake, hpush]

theorem exists_takeMark (h : EndsMark level rest) :
    exists behind : List Char,
      level.marker.toList ++ rest = '!' :: behind ∧ takeMark behind = (level, rest) := by
  cases level with
  | method =>
      rw [GenericLevel.toList_marker_method]
      exact ⟨'!' :: rest, rfl, rfl⟩
  | type =>
      rw [GenericLevel.toList_marker_type]
      refine ⟨rest, rfl, ?_⟩
      unfold takeMark
      split
      · exact absurd rfl (h rfl)
      · rfl

theorem instantiateFrom_mark (h : EndsMark level rest) :
    instantiateFrom context (level.marker.toList ++ rest) done =
      if (rest.takeWhile Char.isDigit).isEmpty then
        instantiateFrom context rest (done ++ level.marker.toList)
      else
        (argument context level (rest.takeWhile Char.isDigit)).bind fun argument =>
          instantiateFrom context (rest.drop (rest.takeWhile Char.isDigit).length)
            (done ++ argument.toList) := by
  rcases exists_takeMark h with ⟨behind, hname, hmark⟩
  have hfront : ('!' :: behind).takeWhile (· ≠ '!') = [] := List.takeWhile_cons_of_neg (by decide)
  rw [hname, instantiateFrom_of_dropWhile_cons (List.dropWhile_cons_of_neg (by decide)) hmark,
    hfront, Array.appendList_nil]

theorem fillPiece_placeholder_eq (level : GenericLevel) (digits : List Char) :
    fillPiece (context.getD .empty) (.placeholder level digits) =
      (argument context level digits).map String.toList := by
  have hlookup : forall number : Nat,
      (context.bind fun context => (context.argumentsOf level)[number]?) =
        ((context.getD .empty).argumentsOf level)[number]? := by
    intro number
    cases context with
    | none => cases level <;> rfl
    | some context => rfl
  unfold fillPiece argument
  simp only [hlookup]
  split
  · rfl
  · split <;> rfl

/-!
# All pieces
-/

theorem Reads.instantiateFrom_eq {name : List Char} {pieces : List TemplatePiece}
    (h : Reads name pieces) (done : Array Char) :
    instantiateFrom context name done = fillFrom (context.getD .empty) pieces done := by
  induction h generalizing done with
  | nil =>
      rw [instantiateFrom_of_dropWhile_nil rfl, Array.appendList_nil]
      rfl
  | text hchar _ ih =>
      rw [instantiateFrom_text hchar, ih, fillFrom, fillPiece]
      simp only [Array.appendList_cons, Array.appendList_nil]
  | mark hends hrest _ ih =>
      rw [instantiateFrom_mark hends, takeWhile_isDigit_eq_nil hrest, fillFrom, fillPiece]
      exact ih _
  | @placeholder level digits rest pieces hne hdigits hrest _ ih =>
      rw [instantiateFrom_mark (endsMark_of_digits hne hdigits),
        takeWhile_isDigit_append hdigits hrest, List.drop_left, fillFrom,
        fillPiece_placeholder_eq, if_neg (by rwa [List.isEmpty_iff])]
      cases argument context level digits with
      | error failure => rfl
      | ok argument => exact ih _

/-- Instantiating a name is filling the pieces that it is read as. -/
theorem instantiate_eq_fill (name : String) (context : Option GenericContext) :
    instantiate name context = fill name context := by
  have hpieces := (reads_iff.mpr rfl : Reads name.toList (pieces name.toList))
  unfold instantiate fill
  rw [← hpieces.instantiateFrom_eq]
  split
  · rfl
  · next hmarks =>
      -- A name without marks is not copied at all.
      have hdrop : name.toList.dropWhile (· ≠ '!') = [] := by
        rw [List.dropWhile_eq_nil_iff]
        intro char hchar
        rw [List.contains_iff_mem] at hmarks
        exact decide_eq_true fun hmark => hmarks (hmark ▸ hchar)
      rw [instantiateFrom_of_dropWhile_nil hdrop]
      simp

end Template
end CilDisasm
