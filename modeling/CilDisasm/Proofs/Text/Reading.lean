import CilDisasm.Text.Numeral

/-!
# Reading texts

A text that was put together from parts can be taken apart again when what follows a part
begins with a character that the part does not have. Numerals consist of letters, digits and
a sign, so any other character ends them, and a numeral says which number it stands for.
-/

namespace CilDisasm

/-!
# Parts
-/

/-- A part that is free of a separator ends where the separator, or nothing, follows. -/
theorem append_inj_of_separator {α : Type} {separator : α} {left right rest others : List α}
    (hleft : separator ∉ left) (hright : separator ∉ right)
    (hrest : forall first, first ∈ rest.head? -> first = separator)
    (hothers : forall first, first ∈ others.head? -> first = separator)
    (h : left ++ rest = right ++ others) : left = right ∧ rest = others := by
  induction left generalizing right with
  | nil =>
      cases right with
      | nil => exact ⟨rfl, h⟩
      | cons first right =>
          have hfirst : first ∈ rest.head? := by
            rw [show rest = first :: right ++ others from h]
            rfl
          rw [hrest first hfirst] at hright
          exact absurd List.mem_cons_self hright
  | cons first left ih =>
      cases right with
      | nil =>
          have hfirst : first ∈ others.head? := by
            rw [← show first :: left ++ rest = others from h]
            rfl
          rw [hothers first hfirst] at hleft
          exact absurd List.mem_cons_self hleft
      | cons second right =>
          injection h with hhead htail
          rcases ih (fun hmem => hleft (List.mem_cons_of_mem _ hmem))
            (fun hmem => hright (List.mem_cons_of_mem _ hmem)) htail with ⟨rfl, hrest⟩
          exact ⟨by rw [hhead], hrest⟩

theorem append_separator_inj {α : Type} {separator : α} {left right rest others : List α}
    (hleft : separator ∉ left) (hright : separator ∉ right)
    (h : left ++ separator :: rest = right ++ separator :: others) :
    left = right ∧ rest = others := by
  have hhead : forall tail : List α, forall first,
      first ∈ (separator :: tail).head? -> first = separator := by
    intro tail first hfirst
    exact (Option.some.inj hfirst).symm
  rcases append_inj_of_separator hleft hright (hhead rest) (hhead others) h with
    ⟨hparts, hrests⟩
  exact ⟨hparts, (List.cons.inj hrests).2⟩

theorem lines_inj {lines others : List (List Char)}
    (hlines : forall line, line ∈ lines -> '\n' ∉ line)
    (hothers : forall line, line ∈ others -> '\n' ∉ line)
    (h : lines.flatMap (fun line => line ++ ['\n']) =
      others.flatMap (fun line => line ++ ['\n'])) :
    lines = others := by
  induction lines generalizing others with
  | nil =>
      cases others with
      | nil => rfl
      | cons other others => simp at h
  | cons line lines ih =>
      cases others with
      | nil => simp at h
      | cons other others =>
          simp only [List.flatMap_cons, List.append_assoc, List.singleton_append] at h
          rcases append_separator_inj (hlines line List.mem_cons_self)
            (hothers other List.mem_cons_self) h with ⟨hhead, htail⟩
          have hrest := ih (fun line hline => hlines line (List.mem_cons_of_mem _ hline))
            (fun line hline => hothers line (List.mem_cons_of_mem _ hline)) htail
          rw [hhead, hrest]

/-- A list that is written with separators between its entries can be told, even an empty
one, when no entry is empty. -/
theorem intercalate_inj {α : Type} [DecidableEq α] {separator : α} {left right : List (List α)}
    (hleft : forall part, part ∈ left -> separator ∉ part ∧ part ≠ [])
    (hright : forall part, part ∈ right -> separator ∉ part ∧ part ≠ [])
    (h : [separator].intercalate left = [separator].intercalate right) : left = right := by
  -- One empty entry would read like no entry at all.
  have hcons : forall part : List α, forall rest, part ≠ [] ->
      [separator].intercalate (part :: rest) ≠ [] := by
    intro part rest hpart hnil
    cases rest with
    | nil =>
        rw [List.intercalate_singleton] at hnil
        exact hpart hnil
    | cons next rest => simp [List.intercalate_cons_cons, hpart] at hnil
  cases left with
  | nil =>
      cases right with
      | nil => rfl
      | cons part rest =>
          exact absurd h.symm (hcons part rest (hright part List.mem_cons_self).2)
  | cons part rest =>
      cases right with
      | nil => exact absurd h (hcons part rest (hleft part List.mem_cons_self).2)
      | cons other others =>
          have hsplit := congrArg (List.splitOn separator) h
          rw [List.splitOn_intercalate separator (fun part hpart => (hleft part hpart).1)
              (List.cons_ne_nil _ _),
            List.splitOn_intercalate separator (fun part hpart => (hright part hpart).1)
              (List.cons_ne_nil _ _)] at hsplit
          exact hsplit

theorem eq_or_mem_of_mem_intercalate {α : Type} {separator element : α}
    {parts : List (List α)} (h : element ∈ [separator].intercalate parts) :
    element = separator ∨ exists part, part ∈ parts ∧ element ∈ part := by
  induction parts with
  | nil => cases h
  | cons part rest ih =>
      cases rest with
      | nil =>
          rw [List.intercalate_singleton] at h
          exact Or.inr ⟨part, List.mem_cons_self, h⟩
      | cons next rest =>
          rw [List.intercalate_cons_cons] at h
          rcases List.mem_append.mp h with hfront | hback
          · rcases List.mem_append.mp hfront with hpart | hseparator
            · exact Or.inr ⟨part, List.mem_cons_self, hpart⟩
            · exact Or.inl (List.mem_singleton.mp hseparator)
          · rcases ih hback with hseparator | ⟨other, hother, hmem⟩
            · exact Or.inl hseparator
            · exact Or.inr ⟨other, List.mem_cons_of_mem _ hother, hmem⟩

/-!
# Hexadecimal numerals
-/

namespace Numeral

def digitValue (digit : Char) : Nat :=
  if digit.isDigit then digit.toNat - '0'.toNat else digit.toNat - 'a'.toNat + 10

def hexValue (before : Nat) (digits : List Char) : Nat :=
  digits.foldl (fun value digit => 16 * value + digitValue digit) before

theorem digitValue_digitChar : forall digit, digit < 16 ->
    digitValue digit.digitChar = digit := by
  decide

theorem isAlphanum_digitChar : forall digit, digit < 16 ->
    digit.digitChar.isAlphanum = true := by
  decide

theorem hexValue_toDigits (number : Nat) : hexValue 0 (Nat.toDigits 16 number) = number := by
  induction number using Nat.strongRecOn with
  | ind number ih =>
      by_cases hlt : number < 16
      · rw [Nat.toDigits_of_lt_base hlt]
        simp [hexValue, digitValue_digitChar number hlt]
      · have hhead := ih (number / 16) (by omega)
        rw [hexValue] at hhead
        rw [Nat.toDigits_of_base_le (by decide) (Nat.le_of_not_lt hlt), hexValue,
          List.foldl_append, hhead, List.foldl_cons, List.foldl_nil,
          digitValue_digitChar _ (Nat.mod_lt _ (by decide)), Nat.div_add_mod]

theorem hexValue_replicate_zero (count : Nat) (digits : List Char) :
    hexValue 0 (List.replicate count '0' ++ digits) = hexValue 0 digits := by
  induction count with
  | zero => rfl
  | succ count ih => exact ih

theorem hexValue_hexDigits (width number : Nat) :
    hexValue 0 (hexDigits width number) = number := by
  rw [hexDigits, zeroFilled, hexValue_replicate_zero, hexValue_toDigits]

theorem hexDigits_injective (width : Nat) : Function.Injective (hexDigits width) := by
  intro left right h
  rw [← hexValue_hexDigits width left, h, hexValue_hexDigits]

theorem isAlphanum_of_mem_toDigits {number : Nat} {digit : Char}
    (h : digit ∈ Nat.toDigits 16 number) : digit.isAlphanum = true := by
  induction number using Nat.strongRecOn with
  | ind number ih =>
      by_cases hlt : number < 16
      · rw [Nat.toDigits_of_lt_base hlt, List.mem_singleton] at h
        rw [h]
        exact isAlphanum_digitChar number hlt
      · rw [Nat.toDigits_of_base_le (by decide) (Nat.le_of_not_lt hlt), List.mem_append,
          List.mem_singleton] at h
        rcases h with hhead | rfl
        · exact ih (number / 16) (by omega) hhead
        · exact isAlphanum_digitChar _ (Nat.mod_lt _ (by decide))

theorem isAlphanum_of_mem_hexDigits {width number : Nat} {digit : Char}
    (h : digit ∈ hexDigits width number) : digit.isAlphanum = true := by
  rcases List.mem_append.mp h with hzero | hdigit
  · rw [List.eq_of_mem_replicate hzero]
    rfl
  · exact isAlphanum_of_mem_toDigits hdigit

/-!
# Decimal numerals
-/

theorem isAlphanum_of_mem_repr {number : Nat} {digit : Char}
    (h : digit ∈ number.repr.toList) : digit.isAlphanum = true := by
  rw [Nat.toList_repr] at h
  have hdigit := Nat.isDigit_of_mem_toDigits (by decide) (by decide) h
  rw [Char.isAlphanum, hdigit, Bool.or_true]

theorem isAlphanum_or_eq_sign_of_mem_repr {number : Int} {digit : Char}
    (h : digit ∈ number.repr.toList) : digit.isAlphanum = true ∨ digit = '-' := by
  rw [Int.repr_eq_if] at h
  split at h
  · exact Or.inl (isAlphanum_of_mem_repr h)
  · rw [String.toList_append] at h
    rcases List.mem_append.mp h with hsign | hdigit
    · exact Or.inr (List.mem_singleton.mp hsign)
    · exact Or.inl (isAlphanum_of_mem_repr hdigit)

end Numeral

end CilDisasm
