/-!
# Least recently used

A bounded cache keeps its entries in order of use, the most recent first. Finding an entry
moves it to the front. Storing puts an entry in front, in place of an older one with the
same key, and drops what is then beyond the capacity from the back.
-/

namespace CilDisasm

structure Lru (κ ν : Type) where
  capacity : Nat
  entries : List (κ × ν)
deriving Repr

namespace Lru

variable {κ ν : Type} [DecidableEq κ]

def empty (capacity : Nat) : Lru κ ν :=
  { capacity := capacity, entries := [] }

def clear (cache : Lru κ ν) : Lru κ ν :=
  { cache with entries := [] }

def keys (cache : Lru κ ν) : List κ :=
  cache.entries.map Prod.fst

def peek? (cache : Lru κ ν) (key : κ) : Option ν :=
  cache.entries.lookup key

def without (key : κ) (entries : List (κ × ν)) : List (κ × ν) :=
  entries.filter (fun entry => entry.1 ≠ key)

def get? (cache : Lru κ ν) (key : κ) : Option ν × Lru κ ν :=
  match cache.peek? key with
  | some value =>
      (some value, { cache with entries := (key, value) :: without key cache.entries })
  | none => (none, cache)

def insert (cache : Lru κ ν) (key : κ) (value : ν) : Lru κ ν :=
  { cache with
    entries := ((key, value) :: without key cache.entries).take cache.capacity }

theorem capacity_get? (cache : Lru κ ν) (key : κ) :
    (cache.get? key).2.capacity = cache.capacity := by
  unfold get?
  split <;> rfl

theorem length_insert_le (cache : Lru κ ν) (key : κ) (value : ν) :
    (cache.insert key value).entries.length ≤ cache.capacity := by
  simp only [insert, List.length_take]
  exact Nat.min_le_left _ _

theorem capacity_insert (cache : Lru κ ν) (key : κ) (value : ν) :
    (cache.insert key value).capacity = cache.capacity :=
  rfl

end Lru

end CilDisasm
