import CilDisasm.Proofs.Cache.Soundness

/-!
# Entries of the symbol caches

The three caches hold keys of different types. With the queries in place of the keys, the
entries of all kinds are found and stored in the same way: what is used goes to the front of
its kind, and the other kinds stay as they are.
-/

namespace CilDisasm
namespace SymbolCache

def stringEntry (entry : Token × String) : (query : Query) × query.Answer :=
  ⟨.string entry.1, entry.2⟩

def memberEntry (entry : (Token × Option GenericContext) × Member) :
    (query : Query) × query.Answer :=
  ⟨.member entry.1.1 entry.1.2, entry.2⟩

def signatureEntry (entry : Token × Signature) : (query : Query) × query.Answer :=
  ⟨.signature entry.1, entry.2⟩

def entries (cache : SymbolCache) : SymbolKind -> List ((query : Query) × query.Answer)
  | .string => cache.strings.entries.map stringEntry
  | .member => cache.members.entries.map memberEntry
  | .signature => cache.signatures.entries.map signatureEntry

def capacityOf (cache : SymbolCache) : SymbolKind -> Nat
  | .string => cache.strings.capacity
  | .member => cache.members.capacity
  | .signature => cache.signatures.capacity

/-- The entries with one of them in front, in place of a former one for the same query. -/
def inFront (entry : (query : Query) × query.Answer)
    (entries : List ((query : Query) × query.Answer)) :
    List ((query : Query) × query.Answer) :=
  entry :: entries.filter (fun other => other.1 ≠ entry.1)

theorem kind_of_mem_entries {cache : SymbolCache} {kind : SymbolKind}
    {entry : (query : Query) × query.Answer} (h : entry ∈ cache.entries kind) :
    entry.1.kind = kind := by
  cases kind <;>
    · rcases List.mem_map.mp h with ⟨found, -, rfl⟩
      rfl

def KeepsKeys {κ ν : Type} (entry : κ × ν -> (query : Query) × query.Answer) : Prop :=
  forall first second, (entry first).1 = (entry second).1 <-> first.1 = second.1

theorem keepsKeys_stringEntry : KeepsKeys stringEntry := by
  simp [KeepsKeys, stringEntry]

theorem keepsKeys_memberEntry : KeepsKeys memberEntry := by
  simp [KeepsKeys, memberEntry]

theorem keepsKeys_signatureEntry : KeepsKeys signatureEntry := by
  simp [KeepsKeys, signatureEntry]

section Lru

variable {κ ν : Type} [DecidableEq κ] {lru : Lru κ ν} {key : κ} {value : ν}
  {entry : κ × ν -> (query : Query) × query.Answer}

theorem map_cons_without (hentry : KeepsKeys entry) (entries : List (κ × ν)) :
    ((key, value) :: Lru.without key entries).map entry =
      inFront (entry (key, value)) (entries.map entry) := by
  have hkeep : (entries.map entry).filter
        (fun other => other.1 ≠ (entry (key, value)).1) =
      (Lru.without key entries).map entry := by
    rw [List.filter_map, Lru.without]
    congr 1
    exact List.filter_congr fun other _ => by simp [hentry other (key, value)]
  rw [List.map_cons, inFront, hkeep]

theorem map_entries_get? (hentry : KeepsKeys entry) (h : (lru.get? key).1 = some value) :
    entry (key, value) ∈ lru.entries.map entry ∧
      (lru.get? key).2.entries.map entry =
        inFront (entry (key, value)) (lru.entries.map entry) := by
  unfold Lru.get? at h ⊢
  split at h
  · next found hfound =>
      cases h
      exact ⟨List.mem_map_of_mem (Lru.mem_of_peek?_eq_some hfound),
        map_cons_without hentry _⟩
  · cases h

theorem map_entries_insert (hentry : KeepsKeys entry) :
    (lru.insert key value).entries.map entry =
      (inFront (entry (key, value)) (lru.entries.map entry)).take lru.capacity := by
  rw [Lru.insert, List.map_take, map_cons_without hentry]

theorem ne_of_get?_eq_none (h : (lru.get? key).1 = none) {found : κ × ν}
    (hfound : found ∈ lru.entries) : found.1 ≠ key := by
  unfold Lru.get? at h
  split at h
  · cases h
  · next hnone =>
      intro hkey
      have hother := List.lookup_eq_none_iff.mp hnone found hfound
      simp [hkey] at hother

end Lru

theorem get?_eq_of_fst_eq_none {cache : SymbolCache} {query : Query}
    (h : (cache.get? query).1 = none) : cache.get? query = (none, cache) := by
  have hsame : forall {κ ν : Type} [DecidableEq κ] {lru : Lru κ ν} {key : κ},
      (lru.get? key).1 = none -> lru.get? key = (none, lru) := by
    intro κ ν _ lru key hnone
    unfold Lru.get? at hnone ⊢
    split at hnone
    · cases hnone
    · rfl
  cases query with
  | string token | member token context | signature token =>
      simp only [get?] at h ⊢
      rw [hsame h]

theorem entries_of_found {cache next : SymbolCache} {query : Query} {answer : query.Answer}
    (h : cache.get? query = (some answer, next)) :
    ⟨query, answer⟩ ∈ cache.entries query.kind ∧
      forall kind, next.capacityOf kind = cache.capacityOf kind ∧
        next.entries kind =
          if query.kind = kind then inFront ⟨query, answer⟩ (cache.entries kind)
          else cache.entries kind := by
  have hanswer := congrArg Prod.fst h
  have hnext := congrArg Prod.snd h
  subst hnext
  cases query with
  | string token =>
      have hfound := map_entries_get? keepsKeys_stringEntry hanswer
      refine ⟨hfound.1, fun kind => ?_⟩
      cases kind with
      | string => exact ⟨Lru.capacity_get? _ _, hfound.2⟩
      | _ => exact ⟨rfl, rfl⟩
  | member token context =>
      have hfound := map_entries_get? keepsKeys_memberEntry hanswer
      refine ⟨hfound.1, fun kind => ?_⟩
      cases kind with
      | member => exact ⟨Lru.capacity_get? _ _, hfound.2⟩
      | _ => exact ⟨rfl, rfl⟩
  | signature token =>
      have hfound := map_entries_get? keepsKeys_signatureEntry hanswer
      refine ⟨hfound.1, fun kind => ?_⟩
      cases kind with
      | signature => exact ⟨Lru.capacity_get? _ _, hfound.2⟩
      | _ => exact ⟨rfl, rfl⟩

theorem entries_insert (cache : SymbolCache) (query : Query) (answer : query.Answer)
    (kind : SymbolKind) :
    (cache.insert query answer).capacityOf kind = cache.capacityOf kind ∧
      (cache.insert query answer).entries kind =
        if query.kind = kind then
          (inFront ⟨query, answer⟩ (cache.entries kind)).take (cache.capacityOf kind)
        else cache.entries kind := by
  cases query with
  | string token =>
      cases kind with
      | string => exact ⟨rfl, map_entries_insert keepsKeys_stringEntry⟩
      | _ => exact ⟨rfl, rfl⟩
  | member token context =>
      cases kind with
      | member => exact ⟨rfl, map_entries_insert keepsKeys_memberEntry⟩
      | _ => exact ⟨rfl, rfl⟩
  | signature token =>
      cases kind with
      | signature => exact ⟨rfl, map_entries_insert keepsKeys_signatureEntry⟩
      | _ => exact ⟨rfl, rfl⟩

theorem ne_of_mem_entries {cache next : SymbolCache} {query : Query}
    (h : cache.get? query = (none, next)) {kind : SymbolKind}
    {entry : (query : Query) × query.Answer} (hentry : entry ∈ cache.entries kind) :
    entry.1 ≠ query := by
  intro hsame
  have hkind := kind_of_mem_entries hentry
  rw [hsame] at hkind
  subst hkind
  have hnone := congrArg Prod.fst h
  cases query with
  | string token =>
      rcases List.mem_map.mp hentry with ⟨found, hfound, rfl⟩
      exact ne_of_get?_eq_none hnone hfound (Query.string.inj hsame)
  | member token context =>
      rcases List.mem_map.mp hentry with ⟨found, hfound, rfl⟩
      exact ne_of_get?_eq_none hnone hfound (Prod.ext_iff.mpr (Query.member.inj hsame))
  | signature token =>
      rcases List.mem_map.mp hentry with ⟨found, hfound, rfl⟩
      exact ne_of_get?_eq_none hnone hfound (Query.signature.inj hsame)

end SymbolCache

end CilDisasm
