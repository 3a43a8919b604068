import CilDisasm.OpcodeTable.Lexer

/-!
# Entries of an opcode table

An entry gives an identifier, the name of the opcode, its value, the name of its operand
format and the name of its class:

`NOP: "nop" = 0x00, InlineNone, Primitive`

Entries are separated by semicolons, and one more may follow the last entry.
-/

namespace CilDisasm

structure TableEntry where
  identifier : String
  name : String
  negative : Bool
  magnitude : Nat
  format : String
  group : String
deriving DecidableEq, Repr

namespace TableEntry

def tokens (entry : TableEntry) : List TableToken :=
  [.identifier entry.identifier, .colon, .text entry.name, .equals] ++
    (if entry.negative then [.minus] else []) ++
    [.number entry.magnitude, .comma, .identifier entry.format, .comma,
      .identifier entry.group]

def ofSigned : List TableToken -> Option (Bool × Nat × List TableToken)
  | .minus :: .number magnitude :: rest => some (true, magnitude, rest)
  | .number magnitude :: rest => some (false, magnitude, rest)
  | _ => none

/-- The entry at the front of a row of tokens. -/
def ofTokens? : List TableToken -> Option (TableEntry × List TableToken)
  | .identifier identifier :: .colon :: .text name :: .equals :: rest =>
      match ofSigned rest with
      | some (negative, magnitude,
          .comma :: .identifier format :: .comma :: .identifier group :: rest) =>
          some
            ({ identifier := identifier
               name := name
               negative := negative
               magnitude := magnitude
               format := format
               group := group },
              rest)
      | _ => none
  | _ => none

theorem length_ofSigned {source : List TableToken}
    {result : Bool × Nat × List TableToken} (h : ofSigned source = some result) :
    result.2.2.length < source.length := by
  unfold ofSigned at h
  split at h
  case h_3 => cases h
  all_goals
    cases h
    simp only [List.length_cons]
    omega

theorem length_ofTokens? {source : List TableToken}
    {result : TableEntry × List TableToken} (h : ofTokens? source = some result) :
    result.2.length < source.length := by
  unfold ofTokens? at h
  split at h
  · split at h
    · next hsigned =>
        cases h
        have hlt := length_ofSigned hsigned
        simp only [List.length_cons] at hlt ⊢
        omega
    · cases h
  · cases h

def allFrom (source : List TableToken) (done : Array TableEntry) :
    Option (Array TableEntry) :=
  if source.isEmpty then some done
  else
    match h : ofTokens? source with
    | none => none
    | some (entry, rest) =>
        match hrest : rest with
        | [] => some (done.push entry)
        | .semicolon :: next =>
            have : next.length < source.length := by
              have hlt := length_ofTokens? h
              simp only [List.length_cons] at hlt
              omega
            allFrom next (done.push entry)
        | _ => none
termination_by source.length

/-- The entries that a row of tokens writes, if it is nothing but entries. -/
def all (source : List TableToken) : Option (List TableEntry) :=
  (allFrom source #[]).map Array.toList

end TableEntry

end CilDisasm
