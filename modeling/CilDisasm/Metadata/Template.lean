import CilDisasm.Metadata.Query

/-!
# Name templates

The name of a member may hold placeholders: `!` and a number stand for an argument of the
generic type, `!!` and a number for an argument of the generic method. A `!` begins a
marker, which takes a second `!` if one follows; the digits behind the marker, as many as
there are, make it a placeholder, and a marker without digits is plain text. Arguments that
are put in are not searched for placeholders again.
-/

namespace CilDisasm

inductive TemplatePiece where
  | literal (text : List Char)
  | placeholder (level : GenericLevel) (digits : List Char)
deriving DecidableEq, Repr

namespace TemplatePiece

def number (digits : List Char) : Nat :=
  Nat.ofDigitChars 10 digits 0

def source : TemplatePiece -> List Char
  | literal text => text
  | placeholder level digits => level.marker.toList ++ digits

end TemplatePiece

namespace Template

/-!
# In one pass

From one mark to the next, what stands in front of the mark is copied, and then the mark or
the argument.
-/

/-- The level of a mark behind its first `!`, and what follows the mark. -/
def takeMark : List Char -> GenericLevel × List Char
  | '!' :: rest => (.method, rest)
  | rest => (.type, rest)

/-- The argument that a placeholder stands for. A number of 64 bits or more is refused before
any argument is looked for. -/
def argument (context : Option GenericContext) (level : GenericLevel) (digits : List Char) :
    Except ResolveFailure String :=
  let number := TemplatePiece.number digits
  if UInt64.size ≤ number then .error .parameterOverflow
  else
    match context.bind (fun context => (context.argumentsOf level)[number]?) with
    | some argument => .ok argument
    | none => .error (.noGenericArgument level number)

theorem length_takeMark (rest : List Char) : (takeMark rest).2.length ≤ rest.length := by
  unfold takeMark
  split
  · exact Nat.le_succ _
  · exact Nat.le_refl _

def instantiateFrom (context : Option GenericContext) (rest : List Char)
    (done : Array Char) : Except ResolveFailure (Array Char) :=
  match h : rest.dropWhile (· ≠ '!') with
  | [] => .ok (done ++ rest)
  | _ :: behind =>
      have : (takeMark behind).2.length < rest.length := by
        have hdrop := (List.dropWhile_sublist (l := rest) (· ≠ '!')).length_le
        rw [h] at hdrop
        exact Nat.lt_of_le_of_lt (length_takeMark behind) hdrop
      let front := done ++ rest.takeWhile (· ≠ '!')
      let level := (takeMark behind).1
      let after := (takeMark behind).2
      let digits := after.takeWhile Char.isDigit
      if digits.isEmpty then
        instantiateFrom context after (front ++ level.marker.toList)
      else
        (argument context level digits).bind fun argument =>
          instantiateFrom context (after.drop digits.length) (front ++ argument.toList)
termination_by rest.length
decreasing_by
  · exact this
  · exact Nat.lt_of_le_of_lt (List.length_drop ▸ Nat.sub_le _ _) this

/-- The name with every placeholder replaced, or the failure of the leftmost bad one. -/
def instantiate (name : String) (context : Option GenericContext) :
    Except ResolveFailure String :=
  if name.toList.contains '!' then
    match instantiateFrom context name.toList #[] with
    | .ok text => .ok (String.ofList text.toList)
    | .error failure => .error failure
  else .ok name

/-!
# Piece by piece

The same in two passes: the name is cut into pieces, and then each piece is filled.
-/

def markedPiece (level : GenericLevel) (rest : List Char) : TemplatePiece × List Char :=
  let digits := rest.takeWhile Char.isDigit
  if digits.isEmpty then (.literal level.marker.toList, rest)
  else (.placeholder level digits, rest.dropWhile Char.isDigit)

theorem length_markedPiece (level : GenericLevel) (rest : List Char) :
    (markedPiece level rest).2.length ≤ rest.length := by
  simp only [markedPiece]
  split
  · exact Nat.le_refl _
  · exact (List.dropWhile_sublist _).length_le

def piecesFrom (name : List Char) (done : Array TemplatePiece) : Array TemplatePiece :=
  match name with
  | [] => done
  | '!' :: '!' :: rest =>
      let next := markedPiece .method rest
      have := length_markedPiece .method rest
      piecesFrom next.2 (done.push next.1)
  | '!' :: rest =>
      let next := markedPiece .type rest
      have := length_markedPiece .type rest
      piecesFrom next.2 (done.push next.1)
  | char :: rest => piecesFrom rest (done.push (.literal [char]))
termination_by name.length

def pieces (name : List Char) : List TemplatePiece :=
  (piecesFrom name #[]).toList

def fillPiece (context : GenericContext) :
    TemplatePiece -> Except ResolveFailure (List Char)
  | .literal text => .ok text
  | .placeholder level digits =>
      let number := TemplatePiece.number digits
      if UInt64.size ≤ number then .error .parameterOverflow
      else
        match (context.argumentsOf level)[number]? with
        | some argument => .ok argument.toList
        | none => .error (.noGenericArgument level number)

def fillFrom (context : GenericContext) :
    List TemplatePiece -> Array Char -> Except ResolveFailure (Array Char)
  | [], done => .ok done
  | piece :: rest, done =>
      match fillPiece context piece with
      | .ok text => fillFrom context rest (done ++ text)
      | .error failure => .error failure

def fill (name : String) (context : Option GenericContext) :
    Except ResolveFailure String :=
  match fillFrom (context.getD .empty) (pieces name.toList) #[] with
  | .ok text => .ok (String.ofList text.toList)
  | .error failure => .error failure

end Template

end CilDisasm
