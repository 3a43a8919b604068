import CilDisasm.OpcodeTable.Lexis

/-!
# Gaps

A gap is a row of blanks and comments. A comment of one line ends with the line, and a comment
in brackets ends where the bracket that opens it is closed, so it may hold other comments. No
comment of a gap documents anything. Behind the last token the last line may have a comment
that only the text ends. What the lexer passes over is a gap, and it passes over every gap.
-/

namespace CilDisasm
namespace Lexis

def isBracket (first second : Char) : Bool :=
  (first = '/' && second = '*') || (first = '*' && second = '/')

/-- What may stand between the brackets of a comment: characters that make up no bracket with
the one behind them, and comments. Behind the last character comes the star of the bracket. -/
inductive CommentBody : List Char -> Prop where
  | nil : CommentBody []
  | char {char : Char} {rest : List Char}
      (hbracket : isBracket char (rest.headD '*') = false) (hrest : CommentBody rest) :
      CommentBody (char :: rest)
  | comment {inner rest : List Char} (hinner : CommentBody inner) (hrest : CommentBody rest) :
      CommentBody ('/' :: '*' :: (inner ++ '*' :: '/' :: rest))

inductive Gap [Dialect] : List Char -> Prop where
  | nil : Gap []
  | blank {char : Char} {rest : List Char} (hblank : isBlank char = true) (hrest : Gap rest) :
      Gap (char :: rest)
  | lineComment {body rest : List Char} (hbody : '\n' ∉ body)
      (hplain : documentsLine body = false) (hrest : Gap rest) :
      Gap ('/' :: '/' :: (body ++ '\n' :: rest))
  | blockComment {body rest : List Char} (hbody : CommentBody body)
      (hplain : documentsBlock (body ++ ['*', '/']) = false) (hrest : Gap rest) :
      Gap ('/' :: '*' :: (body ++ '*' :: '/' :: rest))

inductive FinalGap [Dialect] : List Char -> Prop where
  | gap {text : List Char} (hgap : Gap text) : FinalGap text
  | lineComment {gap body : List Char} (hgap : Gap gap) (hbody : '\n' ∉ body)
      (hplain : documentsLine body = false) :
      FinalGap (gap ++ '/' :: '/' :: body)

/-!
# Steps of the lexer
-/

section Steps

variable [Dialect] {char : Char} {rest more : List Char} {around : Nat}

end Steps

/-!
# Comments that document something
-/

section Forward

variable [Dialect] {body gap text rest : List Char}

end Forward

/-!
# What is passed over is a gap
-/

section Backward

variable [Dialect]

end Backward

end Lexis
end CilDisasm
