import CilDisasm.OpcodeTable.Lexis

/-!
# Literals

A text stands in quotes. In a plain text a backslash begins an escape, and an escaped line
break swallows the blanks that follow it; a raw text has no escapes and ends at a quote
with as many `#` as stand in front of it. A carriage return is accepted only before a line
feed. A number is decimal or has a mark for its base, and may be grouped by underscores.
An identifier that follows a literal immediately is a suffix, which says nothing.
-/

namespace CilDisasm
namespace Lexis

section Suffixes

variable [Dialect]

def isRefusedSuffix (suffix : List Char) : Bool :=
  Dialect.strict && suffix = ['_']

/-- What follows the suffix of a literal, if there is one. -/
def dropSuffix? : List Char -> Option (List Char)
  | [] => some []
  | char :: rest =>
      if startsIdentifier char then
        if isRefusedSuffix (char :: rest.takeWhile continuesIdentifier) then none
        else some (rest.dropWhile continuesIdentifier)
      else some (char :: rest)

theorem length_dropSuffix? {source rest : List Char} (h : dropSuffix? source = some rest) :
    rest.length ≤ source.length := by
  unfold dropSuffix? at h
  split at h
  · cases h
    exact Nat.le_refl _
  · split at h
    · split at h
      · cases h
      · cases h
        exact Nat.le_succ_of_le (List.dropWhile_sublist _).length_le
    · cases h
      exact Nat.le_refl _

end Suffixes

/-!
# Escapes
-/

def scalar? (code : Nat) : Option Char :=
  if code.isValidChar then some (Char.ofNat code) else none

/-- The rest of an escape `\u{...}` behind the opening brace: one to six digits, with
underscores allowed after the first. -/
def bracedScalar (digits code : Nat) : List Char -> Option (Char × List Char)
  | [] => none
  | char :: rest =>
      match hexValue? char with
      | some value =>
          if digits = 6 then none else bracedScalar (digits + 1) (code * 16 + value) rest
      | none =>
          if digits = 0 then none
          else if char = '_' then bracedScalar digits code rest
          else if char = '}' then (scalar? code).map (fun scalar => (scalar, rest))
          else none

def skipBreak (afterReturn : Bool) : List Char -> Option (List Char)
  | [] => none
  | char :: rest =>
      if afterReturn then
        if char = '\n' then skipBreak false rest else none
      else if char = '\r' then skipBreak true rest
      else if char = ' ' || char = '\t' || char = '\n' then skipBreak false rest
      else some (char :: rest)

/-- An escape behind its backslash: the character it stands for, if any, and what follows. -/
def escape : List Char -> Option (Option Char × List Char)
  | 'n' :: rest => some (some '\n', rest)
  | 'r' :: rest => some (some '\r', rest)
  | 't' :: rest => some (some '\t', rest)
  | '0' :: rest => some (some '\x00', rest)
  | '\\' :: rest => some (some '\\', rest)
  | '\'' :: rest => some (some '\'', rest)
  | '"' :: rest => some (some '"', rest)
  | 'x' :: high :: low :: rest =>
      match hexValue? high, hexValue? low with
      | some upper, some lower =>
          if upper < 8 then some (some (Char.ofNat (16 * upper + lower)), rest) else none
      | _, _ => none
  | 'u' :: '{' :: rest =>
      (bracedScalar 0 0 rest).map (fun scalar => (some scalar.1, scalar.2))
  | '\n' :: rest => (skipBreak false rest).map (fun rest => (none, rest))
  | '\r' :: rest => (skipBreak true rest).map (fun rest => (none, rest))
  | _ => none

theorem length_bracedScalar {digits code : Nat} {source : List Char}
    {result : Char × List Char} (h : bracedScalar digits code source = some result) :
    result.2.length < source.length := by
  fun_induction bracedScalar digits code source
  case case1 | case2 | case4 | case7 => simp_all
  case case3 ih | case5 ih =>
    have hlt := ih h
    simp only [List.length_cons]
    omega
  case case6 =>
    obtain ⟨scalar, -, rfl⟩ := Option.map_eq_some_iff.mp h
    simp

theorem length_skipBreak {afterReturn : Bool} {source rest : List Char}
    (h : skipBreak afterReturn source = some rest) : rest.length ≤ source.length := by
  fun_induction skipBreak afterReturn source
  case case1 | case3 => simp_all
  case case2 ih | case4 ih | case5 ih =>
    have hle := ih h
    simp only [List.length_cons]
    omega
  case case6 =>
    cases h
    exact Nat.le_refl _

theorem length_escape {source : List Char} {result : Option Char × List Char}
    (h : escape source = some result) : result.2.length < source.length := by
  unfold escape at h
  split at h
  case h_8 =>
    split at h
    · split at h
      · cases h
        simp only [List.length_cons]
        omega
      · cases h
    · cases h
  case h_9 =>
    obtain ⟨scalar, hscalar, rfl⟩ := Option.map_eq_some_iff.mp h
    have hlt := length_bracedScalar hscalar
    simp only [List.length_cons]
    omega
  case h_10 | h_11 =>
    obtain ⟨rest, hrest, rfl⟩ := Option.map_eq_some_iff.mp h
    have hle := length_skipBreak hrest
    simp only [List.length_cons]
    omega
  case h_12 => cases h
  all_goals
    cases h
    simp

/-!
# Texts
-/

def plainText (source : List Char) (done : Array Char) : Option (String × List Char) :=
  match source with
  | [] => none
  | '"' :: rest => some (String.ofList done.toList, rest)
  | '\r' :: '\n' :: rest => plainText rest (done.push '\n')
  | '\r' :: _ => none
  | '\\' :: rest =>
      match h : escape rest with
      | none => none
      | some (char, next) =>
          have : next.length < rest.length := length_escape h
          plainText next (done ++ char.toArray)
  | char :: rest => plainText rest (done.push char)
termination_by source.length

section RawTexts

variable [Dialect]

def rawLineBreak : List Char :=
  if Dialect.strict then ['\n'] else ['\r', '\n']

/-- The characters of a raw text up to a quote with `marks` times `#` behind it. -/
def rawText (marks : Nat) : List Char -> Array Char -> Option (String × List Char)
  | [], _ => none
  | '\r' :: '\n' :: rest, done => rawText marks rest (done ++ rawLineBreak)
  | '\r' :: _, _ => none
  | char :: rest, done =>
      if char = '"' && (rest.take marks == List.replicate marks '#') then
        some (String.ofList done.toList, rest.drop marks)
      else
        rawText marks rest (done.push char)

/-- A raw text behind its `r`: at most 255 times `#` and then a quote. -/
def openRawText (source : List Char) : Option (String × List Char) :=
  let marks := (source.takeWhile (· = '#')).length
  match source.drop marks with
  | '"' :: rest => if marks ≤ 255 then rawText marks rest #[] else none
  | _ => none

end RawTexts

/-!
# Numbers
-/

def numberBase : List Char -> Nat × List Char
  | '0' :: 'x' :: rest => (16, rest)
  | '0' :: 'o' :: rest => (8, rest)
  | '0' :: 'b' :: rest => (2, rest)
  | source => (10, source)

/-- The value of the digits at the front, and what follows them. A decimal digit that the
base does not have makes the number invalid; a letter that it does not have ends it. -/
def digits (base value : Nat) (any : Bool) : List Char -> Option (Nat × List Char)
  | [] => if any then some (value, []) else none
  | char :: rest =>
      if char = '_' then digits base value any rest
      else
        match hexValue? char with
        | some digit =>
            if digit < base then digits base (value * base + digit) true rest
            else if char.isDigit then none
            else if any then some (value, char :: rest) else none
        | none => if any then some (value, char :: rest) else none

/-- Whether underscores and then a digit come first. -/
def opensExponent (source : List Char) : Bool :=
  match source.dropWhile (· = '_') with
  | char :: _ => char.isDigit
  | [] => false

section Numbers

variable [Dialect]

/-- Whether the digits of a number are followed by an exponent, which would make it a
fraction. -/
def hasExponent (base : Nat) : List Char -> Bool
  | 'e' :: rest | 'E' :: rest => Dialect.strict || (base = 10 && opensExponent rest)
  | _ => false

def number (source : List Char) : Option (Nat × List Char) :=
  let (base, source) := numberBase source
  match digits base 0 false source with
  | none => none
  | some (value, rest) =>
      if hasExponent base rest then none
      else (dropSuffix? rest).map fun rest => (value, rest)

end Numbers

/-!
# What follows a literal is shorter
-/

theorem length_plainText {source : List Char} {done : Array Char}
    {result : String × List Char} (h : plainText source done = some result) :
    result.2.length < source.length := by
  fun_induction plainText source done
  case case1 | case4 | case5 => cases h
  case case2 =>
    cases h
    simp
  case case3 ih | case7 ih =>
    have hlt := ih h
    simp only [List.length_cons]
    omega
  case case6 hlt ih =>
    have hnext := ih h
    simp only [List.length_cons]
    omega

theorem length_rawText [Dialect] {marks : Nat} {source : List Char} {done : Array Char}
    {result : String × List Char} (h : rawText marks source done = some result) :
    result.2.length < source.length := by
  fun_induction rawText marks source done
  case case1 | case3 => cases h
  case case4 =>
    cases h
    simp only [List.length_drop, List.length_cons]
    omega
  case case2 ih | case5 ih =>
    have hlt := ih h
    simp only [List.length_cons]
    omega

theorem length_openRawText [Dialect] {source : List Char} {result : String × List Char}
    (h : openRawText source = some result) : result.2.length < source.length := by
  simp only [openRawText] at h
  split at h
  · next rest hrest =>
      have hle := congrArg List.length hrest
      split at h
      · have hlt := length_rawText h
        simp only [List.length_drop, List.length_cons] at hle
        omega
      · cases h
  · cases h

theorem length_numberBase (source : List Char) :
    (numberBase source).2.length ≤ source.length := by
  unfold numberBase
  split <;> simp only [List.length_cons] <;> omega

theorem length_digits {base value : Nat} {any : Bool} {source : List Char}
    {result : Nat × List Char} (h : digits base value any source = some result) :
    result.2.length ≤ source.length ∧
      (any = false -> result.2.length < source.length) := by
  fun_induction digits base value any source
  case case2 | case5 | case7 | case9 => cases h
  case case1 | case6 | case8 =>
    cases h
    exact ⟨Nat.le_refl _, fun hany => Bool.noConfusion hany⟩
  case case3 ih | case4 ih =>
    have hle := (ih h).1
    simp only [List.length_cons]
    omega

theorem length_number [Dialect] {source : List Char} {result : Nat × List Char}
    (h : number source = some result) : result.2.length < source.length := by
  simp only [number] at h
  split at h
  · cases h
  · next value rest hdigits =>
      split at h
      · cases h
      · obtain ⟨behind, hbehind, rfl⟩ := Option.map_eq_some_iff.mp h
        have hbase := length_numberBase source
        have hlt := (length_digits hdigits).2 rfl
        have hsuffix := length_dropSuffix? hbehind
        exact Nat.lt_of_le_of_lt hsuffix (Nat.lt_of_lt_of_le hlt hbase)

end Lexis

end CilDisasm
