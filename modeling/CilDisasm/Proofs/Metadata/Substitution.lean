import CilDisasm.Metadata.Table
import CilDisasm.Proofs.Metadata.Passes
import Mathlib.Data.List.Forall2
import Mathlib.Data.List.Induction

/-!
# Putting arguments in

A name with its arguments put in is the texts of its pieces, one behind the other: what is
literal as it stands in the name, a placeholder as the argument it stands for. There is such
a text when every placeholder stands for an argument. Otherwise the leftmost one that does
not is reported, with its number written as numbers are, however many zeros the name has in
front of it.
-/

namespace CilDisasm

/-- The digits number an argument that is there, and they do not overflow. -/
structure GenericContext.Holds (context : GenericContext) (level : GenericLevel)
    (digits : List Char) : Prop where
  number_lt : TemplatePiece.number digits < UInt64.size
  number_lt_length : TemplatePiece.number digits < (context.argumentsOf level).length

theorem ResolveFailure.reason_noGenericArgument (level : GenericLevel) (number : Nat) :
    (noGenericArgument level number).reason =
      "no generic argument for " ++ level.marker ++ String.ofList (Nat.toDigits 10 number) := by
  unfold reason
  rw [← Nat.toString_eq_ofList_toDigits]
  rfl

namespace TemplatePiece

inductive Fills (context : GenericContext) : TemplatePiece -> List Char -> Prop where
  | literal {text : List Char} : Fills context (.literal text) text
  | placeholder {level : GenericLevel} {digits : List Char} {argument : String} :
      number digits < UInt64.size ->
      (context.argumentsOf level)[number digits]? = some argument ->
      Fills context (.placeholder level digits) argument.toList

theorem Fills.holds {context : GenericContext} {level : GenericLevel} {digits text : List Char}
    (h : Fills context (.placeholder level digits) text) : context.Holds level digits := by
  cases h with
  | placeholder hsmall hargument =>
      exact ⟨hsmall, (List.getElem?_eq_some_iff.mp hargument).1⟩

/-!
# Numbers without leading zeros
-/

/-- The digits without the zeros in front of them, of which one stays if there is nothing
else. -/
def withoutLeadingZeros (digits : List Char) : List Char :=
  match digits.dropWhile (fun digit => digit = '0') with
  | [] => ['0']
  | first :: rest => first :: rest

theorem withoutLeadingZeros_of_dropWhile_ne_nil {digits : List Char}
    (h : digits.dropWhile (fun digit => digit = '0') ≠ []) :
    withoutLeadingZeros digits = digits.dropWhile (fun digit => digit = '0') := by
  unfold withoutLeadingZeros
  split
  · next hnil => exact absurd hnil h
  · next hcons => exact hcons.symm

theorem digitChar_of_isDigit {digit : Char} (h : digit.isDigit = true) :
    digit.toNat - '0'.toNat < 10 ∧ Nat.digitChar (digit.toNat - '0'.toNat) = digit := by
  have hnine : forall value : Fin 10,
      Nat.digitChar value.val = Char.ofNat ('0'.toNat + value.val) := by
    decide
  simp only [Char.isDigit, Bool.and_eq_true, decide_eq_true_eq] at h
  have hlow : '0'.toNat ≤ digit.toNat := h.1
  have hhigh : digit.toNat ≤ '9'.toNat := h.2
  have hlt : digit.toNat - '0'.toNat < 10 :=
    Nat.lt_of_le_of_lt (Nat.sub_le_sub_right hhigh _) (by decide)
  refine ⟨hlt, ?_⟩
  rw [hnine ⟨_, hlt⟩, Nat.add_sub_cancel' hlow, Char.ofNat_toNat]

theorem number_concat (digits : List Char) (digit : Char) :
    number (digits ++ [digit]) = 10 * number digits + (digit.toNat - '0'.toNat) := by
  unfold number
  rw [Nat.ofDigitChars_append, Nat.ofDigitChars_cons, Nat.ofDigitChars_nil]

theorem number_eq_zero {digits : List Char}
    (h : digits.dropWhile (fun digit => digit = '0') = []) : number digits = 0 := by
  rw [List.dropWhile_eq_nil_iff] at h
  induction digits with
  | nil => rfl
  | cons digit digits ih =>
      have hdigit : digit = '0' := of_decide_eq_true (h digit List.mem_cons_self)
      subst hdigit
      exact ih (fun other hother => h other (List.mem_cons_of_mem _ hother))

theorem toDigits_number {digits : List Char}
    (hdigits : forall digit, digit ∈ digits -> digit.isDigit = true) :
    Nat.toDigits 10 (number digits) = withoutLeadingZeros digits := by
  induction digits using List.reverseRecOn with
  | nil => rfl
  | append_singleton digits digit ih =>
      have hfront := ih (fun other hother => hdigits other (List.mem_append_left _ hother))
      rcases digitChar_of_isDigit (hdigits digit (by simp)) with ⟨hlt, hchar⟩
      have hlast : Nat.toDigits 10 (digit.toNat - '0'.toNat) = [digit] := by
        rw [Nat.toDigits_of_lt_base hlt, hchar]
      rw [number_concat]
      by_cases hzeros : digits.dropWhile (fun digit => digit = '0') = []
      · have hdrop : (digits ++ [digit]).dropWhile (fun digit => digit = '0') =
            [digit].dropWhile (fun digit => digit = '0') := by
          rw [List.dropWhile_append, hzeros]
          rfl
        rw [number_eq_zero hzeros, Nat.mul_zero, Nat.zero_add, hlast]
        unfold withoutLeadingZeros
        rw [hdrop]
        by_cases hdigit : digit = '0'
        · subst hdigit
          rfl
        · simp [hdigit]
      · have hdrop : (digits ++ [digit]).dropWhile (fun digit => digit = '0') =
            digits.dropWhile (fun digit => digit = '0') ++ [digit] := by
          rw [List.dropWhile_append, if_neg (by rwa [List.isEmpty_iff])]
        rw [withoutLeadingZeros_of_dropWhile_ne_nil hzeros] at hfront
        have hpositive : 0 < number digits := by
          -- Zero is written with a zero, which is not left in front.
          refine Nat.pos_of_ne_zero (fun hzero => ?_)
          have hhead := List.head?_dropWhile_not (fun digit : Char => digit = '0') digits
          rw [← hfront, hzero] at hhead
          exact absurd (show decide ('0' = '0') = false from hhead) (by decide)
        rw [withoutLeadingZeros_of_dropWhile_ne_nil (by simp [hdrop]), hdrop, ← hfront,
          ← hlast, Nat.toDigits_append_toDigits (by decide) hpositive hlt]

end TemplatePiece

namespace Template

open TemplatePiece

variable {context : GenericContext}

/-!
# One piece
-/

def failureOf (level : GenericLevel) (digits : List Char) : ResolveFailure :=
  if UInt64.size ≤ number digits then .parameterOverflow
  else .noGenericArgument level (number digits)

theorem reason_failureOf (level : GenericLevel) {digits : List Char}
    (hdigits : forall digit, digit ∈ digits -> digit.isDigit = true) :
    (failureOf level digits).reason =
      if UInt64.size ≤ number digits then "generic parameter index overflows"
      else "no generic argument for " ++ level.marker ++
        String.ofList (withoutLeadingZeros digits) := by
  unfold failureOf
  by_cases hlarge : UInt64.size ≤ number digits
  · rw [if_pos hlarge, if_pos hlarge]
    rfl
  · rw [if_neg hlarge, if_neg hlarge, ResolveFailure.reason_noGenericArgument, toDigits_number hdigits]

theorem fillPiece_placeholder (level : GenericLevel) (digits : List Char) :
    (exists text : List Char,
        fillPiece context (.placeholder level digits) = .ok text ∧
          Fills context (.placeholder level digits) text) ∨
      (fillPiece context (.placeholder level digits) = .error (failureOf level digits) ∧
        ¬ context.Holds level digits) := by
  unfold fillPiece failureOf
  by_cases hlarge : UInt64.size ≤ number digits
  · refine Or.inr ⟨?_, fun hholds => Nat.not_lt_of_le hlarge hholds.number_lt⟩
    simp only [if_pos hlarge]
  · simp only [if_neg hlarge]
    cases hargument : (context.argumentsOf level)[number digits]? with
    | some argument =>
        exact Or.inl ⟨_, rfl, Fills.placeholder (Nat.lt_of_not_le hlarge) hargument⟩
    | none =>
        have hlength := List.getElem?_eq_none_iff.mp hargument
        exact Or.inr ⟨rfl, fun hholds => Nat.not_lt_of_le hlength hholds.number_lt_length⟩

theorem fills_of_fillPiece_eq_ok {piece : TemplatePiece} {text : List Char}
    (h : fillPiece context piece = .ok text) : piece.Fills context text := by
  cases piece with
  | literal literal =>
      injection h with h
      subst h
      exact Fills.literal
  | placeholder level digits =>
      rcases fillPiece_placeholder level digits with ⟨found, hfound, hfills⟩ | ⟨hfailed, -⟩
      · rw [hfound] at h
        cases h
        exact hfills
      · rw [hfailed] at h
        cases h

theorem eq_failureOf_of_fillPiece_eq_error {piece : TemplatePiece} {failure : ResolveFailure}
    (h : fillPiece context piece = .error failure) :
    exists level : GenericLevel, exists digits : List Char,
      piece = .placeholder level digits ∧ ¬ context.Holds level digits ∧
        failure = failureOf level digits := by
  cases piece with
  | literal literal => cases h
  | placeholder level digits =>
      refine ⟨level, digits, rfl, ?_⟩
      rcases fillPiece_placeholder level digits with ⟨found, hfound, -⟩ | ⟨hfailed, hfails⟩
      · rw [hfound] at h
        cases h
      · rw [hfailed] at h
        cases h
        exact ⟨hfails, rfl⟩

/-!
# All pieces
-/

theorem exists_texts_of_fillFrom_eq_ok {pieces : List TemplatePiece} {done result : Array Char}
    (h : fillFrom context pieces done = .ok result) :
    exists texts : List (List Char),
      List.Forall₂ (Fills context) pieces texts ∧
        result.toList = done.toList ++ texts.flatten := by
  induction pieces generalizing done with
  | nil =>
      injection h with h
      subst h
      exact ⟨[], List.Forall₂.nil, (List.append_nil _).symm⟩
  | cons piece rest ih =>
      unfold fillFrom at h
      split at h
      · next text htext =>
          rcases ih h with ⟨texts, hfills, hresult⟩
          refine ⟨text :: texts, List.Forall₂.cons (fills_of_fillPiece_eq_ok htext) hfills, ?_⟩
          rw [hresult, Array.toList_appendList, List.append_assoc, List.flatten_cons]
      · cases h

theorem exists_placeholder_of_fillFrom_eq_error {pieces : List TemplatePiece}
    {done : Array Char} {failure : ResolveFailure}
    (h : fillFrom context pieces done = .error failure) :
    exists front back : List TemplatePiece, exists level : GenericLevel,
      exists digits : List Char,
        pieces = front ++ .placeholder level digits :: back ∧
          (forall piece, piece ∈ front -> exists text : List Char, piece.Fills context text) ∧
          ¬ context.Holds level digits ∧ failure = failureOf level digits := by
  induction pieces generalizing done with
  | nil => cases h
  | cons piece rest ih =>
      unfold fillFrom at h
      split at h
      · next text htext =>
          rcases ih h with ⟨front, back, level, digits, rfl, hfront, hfails⟩
          refine ⟨piece :: front, back, level, digits, rfl, ?_, hfails⟩
          intro other hother
          rcases List.mem_cons.mp hother with rfl | hother
          · exact ⟨text, fills_of_fillPiece_eq_ok htext⟩
          · exact hfront other hother
      · next hfailure =>
          injection h with h
          subst h
          rcases eq_failureOf_of_fillPiece_eq_error hfailure with ⟨level, digits, rfl, hfails⟩
          exact ⟨[], rest, level, digits, rfl, fun _ hmem => absurd hmem List.not_mem_nil, hfails⟩

/-!
# Names
-/

theorem exists_texts_of_fill_eq_ok {name text : String} {context : Option GenericContext}
    (h : fill name context = .ok text) :
    exists texts : List (List Char),
      List.Forall₂ (Fills (context.getD .empty)) (pieces name.toList) texts ∧
        text.toList = texts.flatten := by
  unfold fill at h
  split at h
  · next result hresult =>
      injection h with h
      rcases exists_texts_of_fillFrom_eq_ok hresult with ⟨texts, hfills, htexts⟩
      refine ⟨texts, hfills, ?_⟩
      rw [← h, String.toList_ofList, htexts]
      rfl
  · cases h

theorem exists_placeholder_of_fill_eq_error {name : String} {context : Option GenericContext}
    {failure : ResolveFailure} (h : fill name context = .error failure) :
    exists front back : List TemplatePiece, exists level : GenericLevel,
      exists digits : List Char,
        pieces name.toList = front ++ .placeholder level digits :: back ∧
          (forall piece, piece ∈ front ->
            exists text : List Char, piece.Fills (context.getD .empty) text) ∧
          ¬ (context.getD .empty).Holds level digits ∧ failure = failureOf level digits := by
  unfold fill at h
  split at h
  · cases h
  · next hfailure =>
      injection h with h
      subst h
      exact exists_placeholder_of_fillFrom_eq_error hfailure

/-- A name can be filled when every placeholder in it stands for an argument. -/
theorem exists_fill_eq_ok_iff (name : String) (context : Option GenericContext) :
    (exists text : String, fill name context = .ok text) <->
      forall (level : GenericLevel) (digits : List Char),
        .placeholder level digits ∈ pieces name.toList ->
          (context.getD .empty).Holds level digits := by
  constructor
  · rintro ⟨text, htext⟩ level digits hmem
    rcases exists_texts_of_fill_eq_ok htext with ⟨texts, hfills, -⟩
    rcases List.getElem_of_mem hmem with ⟨index, hindex, hpiece⟩
    have hfill := hfills.get hindex (hfills.length_eq ▸ hindex)
    rw [List.get_eq_getElem, hpiece] at hfill
    exact hfill.holds
  · intro hall
    cases hfill : fill name context with
    | ok text => exact ⟨text, rfl⟩
    | error failure =>
        rcases exists_placeholder_of_fill_eq_error hfill with
          ⟨front, back, level, digits, hpieces, -, hfails, -⟩
        exact absurd (hall level digits (by simp [hpieces])) hfails

end Template

/-!
# Members

A member is found under a name with the arguments put in.
-/

namespace Metadata

open Template TemplatePiece

variable {metadata : Metadata} {token : Token} {member : Member}

theorem resolve_member_eq_ok_iff (hmember : metadata.members[token]? = some member)
    (context : Option GenericContext) (resolved : Member) :
    metadata.resolve (.member token context) = .ok resolved <->
      resolved.kind = member.kind ∧ Template.fill member.name context = .ok resolved.name := by
  simp only [resolve, hmember, Template.instantiate_eq_fill]
  cases Template.fill member.name context with
  | error failure => simp
  | ok name =>
      constructor
      · intro h
        injection h with h
        subst h
        exact ⟨rfl, rfl⟩
      · rintro ⟨hkind, hname⟩
        injection hname with hname
        subst hname
        rw [← hkind]

theorem resolve_member_eq_error_iff (hmember : metadata.members[token]? = some member)
    (context : Option GenericContext) (error : ResolveError) :
    metadata.resolve (.member token context) = .error error <->
      error.token = token ∧ Template.fill member.name context = .error error.failure := by
  simp only [resolve, hmember, Template.instantiate_eq_fill]
  cases Template.fill member.name context with
  | ok name => simp
  | error failure =>
      constructor
      · intro h
        injection h with h
        subst h
        exact ⟨rfl, rfl⟩
      · rintro ⟨htoken, hfailure⟩
        injection hfailure with hfailure
        subst hfailure
        rw [← htoken]

/-- A member is found when every placeholder in its name stands for an argument, and then
its name has the arguments in place of the placeholders. Otherwise the error is about the
leftmost placeholder that stands for none. -/
theorem resolve_member_substitutes (hmember : metadata.members[token]? = some member)
    (context : Option GenericContext) :
    exists pieces : List TemplatePiece,
      (forall others : List TemplatePiece,
        Reads member.name.toList others <-> others = pieces) ∧
      ((exists resolved : Member,
          metadata.resolve (.member token context) = .ok resolved) <->
        forall (level : GenericLevel) (digits : List Char),
          .placeholder level digits ∈ pieces -> (context.getD .empty).Holds level digits) ∧
      (forall resolved : Member,
        metadata.resolve (.member token context) = .ok resolved ->
          resolved.kind = member.kind ∧
          exists texts : List (List Char),
            List.Forall₂ (Fills (context.getD .empty)) pieces texts ∧
              resolved.name.toList = texts.flatten) ∧
      (forall error : ResolveError,
        metadata.resolve (.member token context) = .error error ->
          error.token = token ∧
          exists front back : List TemplatePiece, exists level : GenericLevel,
            exists digits : List Char,
              pieces = front ++ .placeholder level digits :: back ∧
              (forall (earlier : GenericLevel) (others : List Char),
                .placeholder earlier others ∈ front ->
                  (context.getD .empty).Holds earlier others) ∧
              ¬ (context.getD .empty).Holds level digits ∧
              error.failure.reason =
                if UInt64.size ≤ number digits then "generic parameter index overflows"
                else "no generic argument for " ++ level.marker ++
                  String.ofList (withoutLeadingZeros digits)) := by
  refine ⟨pieces member.name.toList, fun others => reads_iff, ?_, ?_, ?_⟩
  · rw [← exists_fill_eq_ok_iff]
    constructor
    · rintro ⟨resolved, hresolved⟩
      exact ⟨resolved.name, ((resolve_member_eq_ok_iff hmember context resolved).mp hresolved).2⟩
    · rintro ⟨name, hname⟩
      exact ⟨{ kind := member.kind, name := name },
        (resolve_member_eq_ok_iff hmember context _).mpr ⟨rfl, hname⟩⟩
  · intro resolved hresolved
    rcases (resolve_member_eq_ok_iff hmember context resolved).mp hresolved with ⟨hkind, hname⟩
    exact ⟨hkind, exists_texts_of_fill_eq_ok hname⟩
  · intro error herror
    rcases (resolve_member_eq_error_iff hmember context error).mp herror with
      ⟨htoken, hfailure⟩
    rcases exists_placeholder_of_fill_eq_error hfailure with
      ⟨front, back, level, digits, hpieces, hfront, hfails, hreason⟩
    refine ⟨htoken, front, back, level, digits, hpieces, ?_, hfails, ?_⟩
    · intro earlier others hmem
      rcases hfront _ hmem with ⟨text, hfills⟩
      exact hfills.holds
    · have hmem : .placeholder level digits ∈ pieces member.name.toList := by
        simp [hpieces]
      rw [hreason, reason_failureOf level ((reads_iff.mpr rfl).isDigit_of_mem hmem)]

def markedMember : Member :=
  { kind := .method, name := "A!!!<!00, !!1>é!" }

def markedContext : GenericContext :=
  { typeArguments := ["x!1"], methodArguments := ["Ü", "!!0é"] }

def markedMetadata (token : Token) : Metadata :=
  empty.addMember token markedMember

theorem resolve_member_substitutes_marked :
    (exists pieces : List TemplatePiece, exists texts : List (List Char),
        Reads markedMember.name.toList pieces ∧
        List.Forall₂ (Fills markedContext) pieces texts ∧
        texts.flatten = "A!!!<x!1, !!0é>é!".toList) ∧
      exists error : ResolveError, exists level : GenericLevel, exists digits : List Char,
        (markedMetadata { value := 0x2B000001 }).resolve
          (.member { value := 0x2B000001 } none) = .error error ∧
        error.token = { value := 0x2B000001 } ∧
        error.failure.reason = "no generic argument for !0" ∧
        ¬ GenericContext.empty.Holds level digits := by
  have hmember : (markedMetadata { value := 0x2B000001 }).members[
      ({ value := 0x2B000001 } : Token)]? = some markedMember := by
    decide +kernel
  constructor
  · have hresolved : (markedMetadata { value := 0x2B000001 }).resolve
        (.member { value := 0x2B000001 } (some markedContext)) =
          .ok { kind := .method, name := "A!!!<x!1, !!0é>é!" } := by
      decide +kernel
    rcases resolve_member_substitutes hmember (some markedContext) with
      ⟨pieces, hreads, -, hok, -⟩
    rcases hok _ hresolved with ⟨-, texts, hfills, htexts⟩
    exact ⟨pieces, texts, (hreads pieces).mpr rfl, hfills, htexts.symm⟩
  · have hfails : (markedMetadata { value := 0x2B000001 }).resolve
        (.member { value := 0x2B000001 } none) =
          .error { token := { value := 0x2B000001 }, failure := .noGenericArgument .type 0 } := by
      decide +kernel
    rcases resolve_member_substitutes hmember none with ⟨pieces, -, -, -, herror⟩
    rcases herror _ hfails with ⟨htoken, -, -, level, digits, -, -, hholds, -⟩
    exact ⟨_, level, digits, hfails, htoken, by decide +kernel, hholds⟩

end Metadata

end CilDisasm
