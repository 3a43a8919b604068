import CilDisasm.Proofs.Decoding.Layout

/-!
# Chains

Links are positions, and every instruction carries those of its neighbours. Appending links
the new instruction and the one that was last, and resolving targets leaves links alone. So
the links of a listing always make one chain: it can be followed from the first instruction
to the last one and back, and it misses no instruction and meets none twice.
-/

namespace CilDisasm

/-- An instruction at a position of a listing of `length` instructions knows the position and
those next to it. -/
structure Instruction.LinkedAt (instruction : Instruction) (length index : Nat) : Prop where
  index_eq : instruction.index = index
  previous_eq : instruction.previous = if index = 0 then none else some (index - 1)
  next_eq : instruction.next = if index + 1 < length then some (index + 1) else none

namespace Listing

def Linked (listing : Listing) : Prop :=
  forall (index : Nat) (instruction : Instruction),
    listing.get? index = some instruction -> instruction.LinkedAt listing.length index

/-- The instructions that are met one after the other by taking steps until there is none. -/
inductive Walks (step : Instruction -> Option Instruction) :
    Option Instruction -> List Instruction -> Prop where
  | stop : Walks step none []
  | go {instruction : Instruction} {rest : List Instruction} :
      Walks step (step instruction) rest ->
      Walks step (some instruction) (instruction :: rest)

/-- The links of a listing make one chain, in the order of the listing. -/
structure Chained (listing : Listing) : Prop where
  index_eq : forall (index : Nat) (instruction : Instruction),
    listing.get? index = some instruction -> instruction.index = index
  previous_eq : forall (index : Nat) (instruction : Instruction),
    listing.get? index = some instruction ->
    listing.previous? instruction = if index = 0 then none else listing.get? (index - 1)
  next_eq : forall (index : Nat) (instruction : Instruction),
    listing.get? index = some instruction ->
    listing.next? instruction =
      if index + 1 = listing.length then none else listing.get? (index + 1)
  forward : forall visited : List Instruction,
    Walks listing.next? listing.first? visited <-> visited = listing.toList
  backward : forall visited : List Instruction,
    Walks listing.previous? listing.last? visited <-> visited = listing.toList.reverse
  last_eq : listing.last? = listing.toList.getLast?
  nodup : listing.toList.Nodup
  inverse : forall left right : Instruction,
    left ∈ listing.toList -> right ∈ listing.toList ->
    (listing.next? left = some right <-> listing.previous? right = some left)

/-!
# Steps that keep the links
-/

theorem linked_empty : empty.Linked := by
  intro index instruction hget
  cases hget

theorem Linked.push {listing : Listing} (h : listing.Linked) (offset : Nat) (opcode : Opcode)
    (operand : Operand) : (listing.push offset opcode operand).Linked := by
  intro index instruction hget
  rw [get?_push] at hget
  rw [length_push]
  split at hget
  · next hlast =>
      cases hget
      subst hlast
      exact ⟨rfl, rfl, (if_neg (Nat.lt_irrefl _)).symm⟩
  · next hother =>
      split at hget
      · -- The former last instruction is the one that gets a successor.
        next hbefore =>
          rcases Option.map_eq_some_iff.mp hget with ⟨former, hformer, rfl⟩
          have hlinked := h _ _ hformer
          refine ⟨hlinked.index_eq, hlinked.previous_eq, ?_⟩
          rw [hbefore, if_pos (Nat.lt_succ_self _)]
      · next hbefore =>
          have hlinked := h _ _ hget
          have hlt := lt_length_of_get? hget
          refine ⟨hlinked.index_eq, hlinked.previous_eq, ?_⟩
          rw [hlinked.next_eq, if_pos (by omega), if_pos (by omega)]

theorem Linked.resolveTargets {listing : Listing} (h : listing.Linked) :
    listing.resolveTargets.Linked := by
  intro index instruction hget
  rw [get?_resolveTargets] at hget
  rcases Option.map_eq_some_iff.mp hget with ⟨former, hformer, rfl⟩
  have hlinked := h _ _ hformer
  rw [length_resolveTargets]
  constructor
  · rw [Instruction.index_mapTargets]
    exact hlinked.index_eq
  · rw [Instruction.previous_mapTargets]
    exact hlinked.previous_eq
  · rw [Instruction.next_mapTargets]
    exact hlinked.next_eq

/-- However a listing was built, its instructions are linked. -/
theorem linked_ofDrafts (drafts : List Draft) : (ofDrafts drafts).Linked := by
  induction drafts using List.reverseRecOn with
  | nil => exact linked_empty
  | append_singleton rest draft ih =>
      rw [ofDrafts_concat]
      exact ih.push draft.offset draft.opcode draft.operand

/-!
# Neighbours
-/

section Neighbours

variable {listing : Listing} {index : Nat} {instruction : Instruction}

def before? (listing : Listing) (index : Nat) : Option Instruction :=
  if index = 0 then none else listing.get? (index - 1)

theorem Linked.previous?_eq (h : listing.Linked)
    (hget : listing.get? index = some instruction) :
    listing.previous? instruction = listing.before? index := by
  rw [previous?, (h _ _ hget).previous_eq, before?]
  split <;> rfl

theorem Linked.next?_eq (h : listing.Linked) (hget : listing.get? index = some instruction) :
    listing.next? instruction = listing.get? (index + 1) := by
  rw [next?, (h _ _ hget).next_eq]
  split
  · rfl
  · next hend => exact (get?_eq_none_iff.mpr (Nat.le_of_not_lt hend)).symm

theorem last?_eq_before? (listing : Listing) :
    listing.last? = listing.before? listing.length := by
  rw [last?_eq_get?, before?]
  split
  · next hlength =>
      rw [hlength]
      exact get?_eq_none_iff.mpr (Nat.le_of_eq hlength)
  · rfl

theorem Linked.eq_of_get? (h : listing.Linked) {other : Nat}
    (hget : listing.get? index = some instruction)
    (hother : listing.get? other = some instruction) : index = other :=
  (h _ _ hget).index_eq.symm.trans (h _ _ hother).index_eq

theorem Linked.nodup (h : listing.Linked) : listing.toList.Nodup := by
  apply List.pairwise_iff_getElem.mpr
  intro first second hfirst hsecond hlt heq
  have hget := getElem?_toList listing first
  have hother := getElem?_toList listing second
  rw [List.getElem?_eq_getElem hfirst] at hget
  rw [List.getElem?_eq_getElem hsecond, ← heq] at hother
  exact absurd (h.eq_of_get? hget.symm hother.symm) (Nat.ne_of_lt hlt)

theorem Linked.next?_eq_some_iff (h : listing.Linked) {other : Nat} {right : Instruction}
    (hget : listing.get? index = some instruction)
    (hright : listing.get? other = some right) :
    listing.next? instruction = some right <-> other = index + 1 := by
  rw [h.next?_eq hget]
  constructor
  · intro hnext
    exact h.eq_of_get? hright hnext
  · intro hother
    rw [← hother]
    exact hright

theorem Linked.previous?_eq_some_iff (h : listing.Linked) {other : Nat} {left : Instruction}
    (hget : listing.get? index = some instruction)
    (hleft : listing.get? other = some left) :
    listing.previous? instruction = some left <-> index = other + 1 := by
  rw [h.previous?_eq hget, before?]
  constructor
  · intro hprevious
    split at hprevious
    · cases hprevious
    · next hindex =>
        have hother := h.eq_of_get? hleft hprevious
        omega
  · intro hindex
    rw [hindex, if_neg (Nat.succ_ne_zero other), Nat.add_sub_cancel]
    exact hleft

end Neighbours

/-!
# Following the links
-/

section Walks

variable {listing : Listing} {step : Instruction -> Option Instruction}
  {start : Option Instruction} {visited others : List Instruction}

theorem Walks.unique (h : Walks step start visited) (h' : Walks step start others) :
    visited = others := by
  induction h generalizing others with
  | stop =>
      cases h'
      rfl
  | go _ ih =>
      cases h' with
      | go hrest => rw [ih hrest]

theorem Walks.iff_eq (h : Walks step start visited) :
    Walks step start others <-> others = visited := by
  constructor
  · intro h'
    exact h'.unique h
  · intro heq
    rw [heq]
    exact h

theorem Linked.walks_drop (h : listing.Linked) (index : Nat) :
    Walks listing.next? (listing.get? index) (listing.toList.drop index) := by
  generalize hrest : listing.toList.drop index = rest
  induction rest generalizing index with
  | nil =>
      rw [get?_eq_none_iff.mpr (List.drop_eq_nil_iff.mp hrest)]
      exact Walks.stop
  | cons instruction rest ih =>
      have hget : listing.get? index = some instruction := by
        rw [← getElem?_toList, ← List.head?_drop, hrest]
        rfl
      have htail : listing.toList.drop (index + 1) = rest := by
        rw [← List.tail_drop, hrest]
        rfl
      rw [hget]
      apply Walks.go
      rw [h.next?_eq hget]
      exact ih (index + 1) htail

theorem Linked.walks_reverse_take (h : listing.Linked) {count : Nat}
    (hcount : count ≤ listing.length) :
    Walks listing.previous? (listing.before? count) (listing.toList.take count).reverse := by
  induction count with
  | zero => exact Walks.stop
  | succ count ih =>
      cases hget : listing.get? count with
      | none => exact absurd (get?_eq_none_iff.mp hget) (Nat.not_le_of_lt hcount)
      | some instruction =>
          rw [List.take_add_one, getElem?_toList, hget, Option.toList_some,
            List.reverse_append, List.reverse_singleton, List.singleton_append, before?,
            if_neg (Nat.succ_ne_zero count), Nat.add_sub_cancel, hget]
          apply Walks.go
          rw [h.previous?_eq hget]
          exact ih (Nat.le_of_succ_le hcount)

end Walks

theorem Linked.chained {listing : Listing} (h : listing.Linked) : listing.Chained where
  index_eq _ _ hget := (h _ _ hget).index_eq
  previous_eq _ _ hget := h.previous?_eq hget
  next_eq := by
    intro index instruction hget
    rw [h.next?_eq hget]
    split
    · next hend => exact get?_eq_none_iff.mpr (Nat.le_of_eq hend.symm)
    · rfl
  forward _ := (h.walks_drop 0).iff_eq
  backward := by
    intro visited
    have hwalks := h.walks_reverse_take (Nat.le_refl listing.length)
    have hall : listing.toList.take listing.length = listing.toList := List.take_length
    rw [hall] at hwalks
    rw [last?_eq_before?]
    exact hwalks.iff_eq
  last_eq := by
    rw [last?_eq_get?, ← getElem?_toList, List.getLast?_eq_getElem?]
    rfl
  nodup := h.nodup
  inverse := by
    intro left right hleft hright
    rcases exists_get?_of_mem_toList hleft with ⟨first, hfirst⟩
    rcases exists_get?_of_mem_toList hright with ⟨second, hsecond⟩
    rw [h.next?_eq_some_iff hfirst hsecond, h.previous?_eq_some_iff hsecond hfirst]

/-!
# Orders
-/

theorem toList_map_offset_ofDrafts (drafts : List Draft) :
    (ofDrafts drafts).toList.map Instruction.offset = drafts.map Draft.offset := by
  have hoffsets := congrArg (List.map Draft.offset) (toList_map_draft_ofDrafts drafts)
  rw [List.map_map] at hoffsets
  exact hoffsets

theorem pairwise_of_ascending {listing : Listing} (h : listing.Ascending) :
    (listing.toList.map Instruction.offset).Pairwise (· < ·) := by
  rw [List.pairwise_map, List.pairwise_iff_getElem]
  intro first second hfirst hsecond hlt
  apply h hlt
  · rw [← getElem?_toList, List.getElem?_eq_getElem hfirst]
  · rw [← getElem?_toList, List.getElem?_eq_getElem hsecond]

end Listing

namespace MethodBody

/-- The links of a decoded listing make one chain, in the order of offsets. So do those of
every listing that was built by appending, in the order of what was appended, which is that
of offsets if these were appended in order. -/
theorem chained_of_decode {definitions : List Opcode} {σ : Type} {catalog : Catalog}
    (hcatalog : Catalog.ofDefinitions definitions = .ok catalog) (body : MethodBody)
    (respond : Program.Responder dialogueInterface σ) (state : σ) :
    (forall listing : Listing,
        ((body.decode catalog).run respond state).1 = .ok listing ->
        listing.Chained ∧ (listing.toList.map Instruction.offset).Pairwise (· < ·)) ∧
      forall drafts : List Draft,
        (Listing.ofDrafts drafts).Chained ∧
          (Listing.ofDrafts drafts).toList.map Instruction.draft = drafts ∧
          ((drafts.map Draft.offset).Pairwise (· < ·) ->
            ((Listing.ofDrafts drafts).toList.map Instruction.offset).Pairwise
              (· < ·)) := by
  constructor
  · intro listing hdecode
    have hcoherent := Catalog.coherent_ofDefinitions hcatalog
    rcases exists_transcribes_of_run hcoherent hdecode with
      ⟨hlimit, statements, operands, htranscribes, rfl⟩
    have hlinked := Listing.linked_ofDrafts
      (List.zipWith Segment.draft (Statement.layOut 0 statements) operands)
    exact ⟨hlinked.resolveTargets.chained,
      Listing.pairwise_of_ascending (htranscribes.tiles hcoherent hlimit).ascending⟩
  · intro drafts
    refine ⟨(Listing.linked_ofDrafts drafts).chained,
      Listing.toList_map_draft_ofDrafts drafts, ?_⟩
    intro hpairwise
    rw [Listing.toList_map_offset_ofDrafts]
    exact hpairwise

theorem chained_of_decode_loopBody :
    exists listing : Listing,
      ((Sample.loopBody.decode .standard).run Sample.metadata.resolve.respondOnly ()).1 =
          .ok listing ∧
        Listing.Walks listing.next? listing.first? listing.toList ∧
        Listing.Walks listing.previous? listing.last? listing.toList.reverse := by
  rcases exists_result_loopBody with ⟨listing, -, hdecode, -⟩
  rw [Dialogue.result] at hdecode
  have hchained := ((chained_of_decode Catalog.ofDefinitions_standardSet Sample.loopBody
    Sample.metadata.resolve.respondOnly ()).1 listing hdecode).1
  exact ⟨listing, hdecode, (hchained.forward _).mpr rfl, (hchained.backward _).mpr rfl⟩

end MethodBody

end CilDisasm
