import CilDisasm.Cache.Symbols

/-!
# Sound caches

A cache is sound when it keeps to its capacity, has one entry for each of its keys, and all
of its entries are true. Finding an entry, storing a true one and clearing leave it sound, so
an answer that is found in a sound cache is true.
-/

namespace CilDisasm
namespace Lru

variable {κ ν : Type} [DecidableEq κ]

structure Sound (cache : Lru κ ν) (capacity : Nat) (truth : κ -> ν -> Prop) : Prop where
  capacity_eq : cache.capacity = capacity
  length_le : cache.entries.length ≤ capacity
  nodup_keys : cache.keys.Nodup
  truthful : forall {key : κ} {value : ν}, (key, value) ∈ cache.entries -> truth key value

theorem mem_of_peek?_eq_some {cache : Lru κ ν} {key : κ} {value : ν}
    (h : cache.peek? key = some value) : (key, value) ∈ cache.entries := by
  unfold peek? at h
  generalize cache.entries = entries at h ⊢
  induction entries with
  | nil => cases h
  | cons entry rest ih =>
      rcases entry with ⟨found, stored⟩
      rw [List.lookup_cons] at h
      split at h
      · next hkey =>
          rw [Option.some.inj h, beq_iff_eq.mp hkey]
          exact List.mem_cons_self
      · exact List.mem_cons_of_mem _ (ih h)

theorem without_sublist (key : κ) (entries : List (κ × ν)) :
    (without key entries).Sublist entries :=
  List.filter_sublist

theorem nodup_keys_cons_without {entries : List (κ × ν)} (h : (entries.map Prod.fst).Nodup)
    (key : κ) (value : ν) : (((key, value) :: without key entries).map Prod.fst).Nodup := by
  rw [List.map_cons, List.nodup_cons]
  constructor
  · intro hkey
    rcases List.mem_map.mp hkey with ⟨entry, hentry, hfound⟩
    have hother := (List.mem_filter.mp hentry).2
    exact of_decide_eq_true hother hfound
  · exact h.sublist ((without_sublist key entries).map Prod.fst)

namespace Sound

variable {cache : Lru κ ν} {capacity : Nat} {truth : κ -> ν -> Prop}

omit [DecidableEq κ] in
theorem empty (capacity : Nat) (truth : κ -> ν -> Prop) :
    (Lru.empty capacity : Lru κ ν).Sound capacity truth where
  capacity_eq := rfl
  length_le := Nat.zero_le _
  nodup_keys := List.nodup_nil
  truthful := fun hmem => absurd hmem List.not_mem_nil

omit [DecidableEq κ] in
theorem clear (h : cache.Sound capacity truth) : cache.clear.Sound capacity truth where
  capacity_eq := h.capacity_eq
  length_le := Nat.zero_le _
  nodup_keys := List.nodup_nil
  truthful := fun hmem => absurd hmem List.not_mem_nil

theorem truth_of_get? (h : cache.Sound capacity truth) {key : κ} {value : ν}
    (hvalue : (cache.get? key).1 = some value) : truth key value := by
  unfold get? at hvalue
  split at hvalue
  · next found hfound =>
      cases hvalue
      exact h.truthful (mem_of_peek?_eq_some hfound)
  · cases hvalue

theorem get? (h : cache.Sound capacity truth) (key : κ) :
    (cache.get? key).2.Sound capacity truth := by
  unfold Lru.get?
  split
  · next value hvalue =>
      have hmem := mem_of_peek?_eq_some hvalue
      have hshorter : (without key cache.entries).length < cache.entries.length := by
        apply List.length_filter_lt_length_iff_exists.mpr
        exact ⟨(key, value), hmem, by simp⟩
      constructor
      · exact h.capacity_eq
      · exact Nat.le_trans hshorter h.length_le
      · exact nodup_keys_cons_without h.nodup_keys key value
      · intro other stored hstored
        rcases List.mem_cons.mp hstored with hfirst | hrest
        · cases hfirst
          exact h.truthful hmem
        · exact h.truthful ((without_sublist key _).mem hrest)
  · exact h

theorem insert (h : cache.Sound capacity truth) {key : κ} {value : ν}
    (htruth : truth key value) : (cache.insert key value).Sound capacity truth where
  capacity_eq := h.capacity_eq
  length_le := Nat.le_trans (length_insert_le cache key value) (Nat.le_of_eq h.capacity_eq)
  nodup_keys :=
    (nodup_keys_cons_without h.nodup_keys key value).sublist
      ((List.take_sublist _ _).map Prod.fst)
  truthful := by
    intro other stored hstored
    rcases List.mem_cons.mp (List.mem_of_mem_take hstored) with hfirst | hrest
    · cases hfirst
      exact htruth
    · exact h.truthful ((without_sublist key _).mem hrest)

end Sound
end Lru

/-!
# Symbols

The three caches of a resolver, with the answers of the resolver as the truth.
-/

namespace SymbolCache

structure Sound (cache : SymbolCache) (resolver : Resolver) (capacity : Nat) : Prop where
  strings : cache.strings.Sound capacity fun token text =>
    resolver (.string token) = .ok text
  members : cache.members.Sound capacity fun key member =>
    resolver (.member key.1 key.2) = .ok member
  signatures : cache.signatures.Sound capacity fun token signature =>
    resolver (.signature token) = .ok signature

namespace Sound

variable {cache : SymbolCache} {resolver : Resolver} {capacity : Nat}

theorem empty (resolver : Resolver) (capacity : Nat) :
    (SymbolCache.empty capacity).Sound resolver capacity where
  strings := .empty capacity _
  members := .empty capacity _
  signatures := .empty capacity _

theorem ok_of_get? (h : cache.Sound resolver capacity) {query : Query}
    {answer : query.Answer} (hanswer : (cache.get? query).1 = some answer) :
    resolver query = .ok answer := by
  cases query with
  | string token => exact h.strings.truth_of_get? hanswer
  | member token context => exact h.members.truth_of_get? hanswer
  | signature token => exact h.signatures.truth_of_get? hanswer

theorem get? (h : cache.Sound resolver capacity) (query : Query) :
    (cache.get? query).2.Sound resolver capacity := by
  cases query with
  | string token => exact { h with strings := h.strings.get? token }
  | member token context => exact { h with members := h.members.get? (token, context) }
  | signature token => exact { h with signatures := h.signatures.get? token }

theorem insert (h : cache.Sound resolver capacity) {query : Query} {answer : query.Answer}
    (hanswer : resolver query = .ok answer) :
    (cache.insert query answer).Sound resolver capacity := by
  cases query with
  | string token => exact { h with strings := h.strings.insert hanswer }
  | member token context => exact { h with members := h.members.insert hanswer }
  | signature token => exact { h with signatures := h.signatures.insert hanswer }

theorem clearKind (h : cache.Sound resolver capacity) (kind : SymbolKind) :
    (cache.clearKind kind).Sound resolver capacity := by
  cases kind with
  | string => exact { h with strings := h.strings.clear }
  | member => exact { h with members := h.members.clear }
  | signature => exact { h with signatures := h.signatures.clear }

end Sound
end SymbolCache

end CilDisasm
