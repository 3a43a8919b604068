import CilDisasm.Metadata.Table
import CilDisasm.Proofs.Metadata.Passes

/-!
# Metadata with more in it

One table extends another when it holds all that the other holds, under the same tokens, and
a generic context extends another when further arguments follow behind those of the other.
What is found in the smaller one is found in the larger one: the placeholders of a name that
could be filled stand for the same arguments.
-/

namespace CilDisasm

theorem getElem?_eq_some_of_isPrefix {α : Type} {first second : List α}
    (h : first <+: second) {index : Nat} {value : α} (hvalue : first[index]? = some value) :
    second[index]? = some value := by
  rcases h with ⟨rest, rfl⟩
  rcases List.getElem?_eq_some_iff.mp hvalue with ⟨hindex, -⟩
  rw [List.getElem?_append_left hindex, hvalue]

/-!
# Generic contexts
-/

structure GenericContext.Extends (larger smaller : GenericContext) : Prop where
  typeArguments : smaller.typeArguments <+: larger.typeArguments
  methodArguments : smaller.methodArguments <+: larger.methodArguments

/-- Where there was no context there may be any. -/
def GenericContext.ExtendsOptional (larger smaller : Option GenericContext) : Prop :=
  forall context : GenericContext, smaller = some context ->
    exists extended : GenericContext, larger = some extended ∧ extended.Extends context

theorem GenericContext.ExtendsOptional.getD {larger smaller : Option GenericContext}
    (h : ExtendsOptional larger smaller) :
    (larger.getD .empty).Extends (smaller.getD .empty) := by
  cases smaller with
  | none => exact ⟨List.nil_prefix, List.nil_prefix⟩
  | some context =>
      rcases h context rfl with ⟨extended, rfl, hextends⟩
      exact hextends

namespace Template

variable {larger smaller : GenericContext}

theorem fillPiece_of_extends (h : larger.Extends smaller) {piece : TemplatePiece}
    {text : List Char} (hfill : fillPiece smaller piece = .ok text) :
    fillPiece larger piece = .ok text := by
  cases piece with
  | literal literal => exact hfill
  | placeholder level digits =>
      have hprefix : smaller.argumentsOf level <+: larger.argumentsOf level := by
        cases level with
        | type => exact h.typeArguments
        | method => exact h.methodArguments
      unfold fillPiece at hfill ⊢
      simp only at hfill ⊢
      split at hfill
      · cases hfill
      · next hsmall =>
          rw [if_neg hsmall]
          split at hfill
          · next argument hargument =>
              rw [getElem?_eq_some_of_isPrefix hprefix hargument]
              exact hfill
          · cases hfill

theorem fillFrom_of_extends (h : larger.Extends smaller) {pieces : List TemplatePiece}
    {done text : Array Char} (hfill : fillFrom smaller pieces done = .ok text) :
    fillFrom larger pieces done = .ok text := by
  induction pieces generalizing done with
  | nil => exact hfill
  | cons piece rest ih =>
      unfold fillFrom at hfill ⊢
      split at hfill
      · next part hpart =>
          rw [fillPiece_of_extends h hpart]
          exact ih hfill
      · cases hfill

theorem instantiate_of_extends {larger smaller : Option GenericContext}
    (h : GenericContext.ExtendsOptional larger smaller) {name text : String}
    (hfill : instantiate name smaller = .ok text) : instantiate name larger = .ok text := by
  rw [instantiate_eq_fill] at hfill ⊢
  unfold fill at hfill ⊢
  split at hfill
  · next filled hfilled =>
      rw [fillFrom_of_extends h.getD hfilled]
      exact hfill
  · cases hfill

end Template

/-!
# Tables
-/

/-- The larger table has all strings, members and signatures of the smaller one. -/
structure Metadata.Extends (larger smaller : Metadata) : Prop where
  strings : forall {token : Token} {text : String},
    smaller.strings[token]? = some text -> larger.strings[token]? = some text
  members : forall {token : Token} {member : Member},
    smaller.members[token]? = some member -> larger.members[token]? = some member
  signatures : forall {token : Token} {signature : Signature},
    smaller.signatures[token]? = some signature -> larger.signatures[token]? = some signature

namespace Metadata.Extends

variable {larger smaller : Metadata} {token : Token}

theorem resolve_string (h : larger.Extends smaller) {text : String}
    (hresolve : smaller.resolve (.string token) = .ok text) :
    larger.resolve (.string token) = .ok text := by
  unfold resolve at hresolve ⊢
  simp only at hresolve ⊢
  split at hresolve
  · next found hfound =>
      rw [h.strings hfound]
      exact hresolve
  · cases hresolve

theorem resolve_member (h : larger.Extends smaller)
    {context extended : Option GenericContext}
    (hcontext : GenericContext.ExtendsOptional extended context) {member : Member}
    (hresolve : smaller.resolve (.member token context) = .ok member) :
    larger.resolve (.member token extended) = .ok member := by
  unfold resolve at hresolve ⊢
  simp only at hresolve ⊢
  split at hresolve
  · next found hfound =>
      rw [h.members hfound]
      simp only
      split at hresolve
      · next name hname =>
          rw [Template.instantiate_of_extends hcontext hname]
          exact hresolve
      · cases hresolve
  · cases hresolve

theorem resolve_signature (h : larger.Extends smaller) {signature : Signature}
    (hresolve : smaller.resolve (.signature token) = .ok signature) :
    larger.resolve (.signature token) = .ok signature := by
  unfold resolve at hresolve ⊢
  simp only at hresolve ⊢
  split at hresolve
  · next found hfound =>
      rw [h.signatures hfound]
      exact hresolve
  · cases hresolve

end Metadata.Extends

theorem Metadata.extends_addString {metadata : Metadata} {token : Token}
    (h : metadata.strings[token]? = none) (text : String) :
    (metadata.addString token text).Extends metadata where
  strings := by
    intro other found hfound
    by_cases hsame : token = other
    · rw [← hsame, h] at hfound
      cases hfound
    · rw [← hfound, addString]
      simp [Std.TreeMap.getElem?_insert, hsame]
  members := id
  signatures := id

end CilDisasm
