import CilDisasm.OpcodeTable.Literal

/-!
# Tokens of an opcode table

A text is a row of tokens with gaps between them and around them. A byte order mark at its
front is passed over.
-/

namespace CilDisasm
namespace Lexis

variable [Dialect]

def nameOf (word : List Char) : String :=
  String.ofList (Dialect.normalForm word)

def word (reserved : List String) (mark : String) (source : List Char) :
    Option (TableToken × List Char) :=
  let name := nameOf (source.takeWhile continuesIdentifier)
  if reserved.contains name then none
  else some (.identifier (mark ++ name), source.dropWhile continuesIdentifier)

def textToken (text : Option (String × List Char)) : Option (TableToken × List Char) :=
  text.bind (fun found => (dropSuffix? found.2).map (fun rest => (.text found.1, rest)))

def token? : List Char -> Option (TableToken × List Char)
  | ':' :: rest => some (.colon, rest)
  | '=' :: rest => some (.equals, rest)
  | ',' :: rest => some (.comma, rest)
  | ';' :: rest => some (.semicolon, rest)
  | '-' :: rest => some (.minus, rest)
  | '"' :: rest => textToken (plainText rest #[])
  | 'r' :: '"' :: rest => textToken (openRawText ('"' :: rest))
  | 'r' :: '#' :: char :: rest =>
      if startsIdentifier char then word alwaysReserved "r#" (char :: rest)
      else textToken (openRawText ('#' :: char :: rest))
  | char :: rest =>
      if startsIdentifier char then word reservedWords "" (char :: rest)
      else if char.isDigit then
        (number (char :: rest)).map (fun found => (.number found.1, found.2))
      else none
  | [] => none

theorem length_word {reserved : List String} {mark : String} {char : Char}
    {rest : List Char} {result : TableToken × List Char} (hchar : startsIdentifier char)
    (h : word reserved mark (char :: rest) = some result) :
    result.2.length < (char :: rest).length := by
  have hcontinues := continuesIdentifier_of_starts hchar
  simp only [word] at h
  split at h
  · cases h
  · cases h
    have hle := (List.dropWhile_sublist (l := rest) continuesIdentifier).length_le
    simp only [List.dropWhile_cons, hcontinues, if_true, List.length_cons]
    omega

theorem length_textToken {text : Option (String × List Char)} {bound : Nat}
    {result : TableToken × List Char}
    (hbound : forall found, text = some found -> found.2.length < bound)
    (h : textToken text = some result) : result.2.length < bound := by
  obtain ⟨found, hfound, hsuffix⟩ := Option.bind_eq_some_iff.mp h
  obtain ⟨rest, hrest, rfl⟩ := Option.map_eq_some_iff.mp hsuffix
  exact Nat.lt_of_le_of_lt (length_dropSuffix? hrest) (hbound found hfound)

theorem length_token? {source : List Char} {result : TableToken × List Char}
    (h : token? source = some result) : result.2.length < source.length := by
  unfold token? at h
  split at h
  case h_1 | h_2 | h_3 | h_4 | h_5 =>
    cases h
    simp
  case h_6 =>
    refine length_textToken (fun found hfound => ?_) h
    have hlt := length_plainText hfound
    simp only [List.length_cons]
    omega
  case h_7 =>
    refine length_textToken (fun found hfound => ?_) h
    have hlt := length_openRawText hfound
    simp only [List.length_cons] at hlt ⊢
    omega
  case h_8 =>
    split at h
    · next hchar =>
        have hlt := length_word hchar h
        simp only [List.length_cons] at hlt ⊢
        omega
    · refine length_textToken (fun found hfound => ?_) h
      have hlt := length_openRawText hfound
      simp only [List.length_cons] at hlt ⊢
      omega
  case h_9 =>
    split at h
    · next hchar => exact length_word hchar h
    · split at h
      · obtain ⟨found, hfound, rfl⟩ := Option.map_eq_some_iff.mp h
        exact length_number hfound
      · cases h
  case h_10 => cases h

/-- The tokens of a text, or nothing if there is a place where no token can be read. -/
def tokensFrom (source : List Char) (done : Array TableToken) :
    Option (Array TableToken) :=
  match hgap : skipGap .blank source with
  | none => none
  | some [] => some done
  | some rest =>
      match htoken : token? rest with
      | none => none
      | some (token, next) =>
          have : next.length < source.length :=
            Nat.lt_of_lt_of_le (length_token? htoken) (length_skipGap hgap)
          tokensFrom next (done.push token)
termination_by source.length

def dropByteOrderMark : List Char -> List Char
  | '\uFEFF' :: rest => rest
  | source => source

def tokens (text : String) : Option (List TableToken) :=
  (tokensFrom (dropByteOrderMark text.toList) #[]).map Array.toList

end Lexis

end CilDisasm
