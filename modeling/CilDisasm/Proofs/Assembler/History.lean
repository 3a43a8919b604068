import CilDisasm.Assembler
import CilDisasm.Proofs.Bytes.History
import Mathlib.Algebra.Ring.Nat
import Mathlib.Data.List.DropRight
import Mathlib.Data.List.Forall2
import Mathlib.Data.List.Induction

/-!
# Items

One call of an assembler writes one item: a word, a token or a jump table. The bytes of an item
say by their number and their meaning which item it is.
-/

namespace CilDisasm

/-- The bytes are the word of this kind that means `meaning`. -/
def WordKind.Spells (kind : WordKind) (meaning : Int) (bytes : List UInt8) : Prop :=
  bytes.length = kind.width ∧ kind.meaningOfBytes bytes = meaning

theorem WordKind.spells_toBytes (kind : WordKind) (value : kind.Value) :
    kind.Spells (kind.meaning value) (Word.toBytes value) := by
  have hlength : (Word.toBytes value).length = kind.width := by
    rw [Word.length_toBytes, kind.width_value]
  constructor
  · exact hlength
  · rw [← kind.meaning_ofBytes hlength, Word.ofBytes_toBytes]

inductive Item where
  | word (kind : WordKind) (value : kind.Value)
  | token (symbol : Token)
  | jumpTable (distances : List Int32)

namespace Item

def bytes : Item -> List UInt8
  | word _ value => Word.toBytes value
  | token symbol => Word.toBytes symbol.value
  | jumpTable distances => (Payload.switch distances).bytes

def size : Item -> Nat
  | word kind _ => kind.width
  | token _ => 4
  | jumpTable distances => 4 + 4 * distances.length

/-- The entries of a jump table can be counted in the word in front of them. -/
def Countable : Item -> Prop
  | jumpTable distances => distances.length < UInt32.size
  | _ => True

/-- The item can be told from the bytes. A jump table is the word for the number of its entries
and then one word for each of them. -/
def WrittenAs (bytes : List UInt8) : Item -> Prop
  | word kind value => kind.Spells (kind.meaning value) bytes
  | token symbol => WordKind.uint32.Spells symbol.value.toNat bytes
  | jumpTable distances =>
      exists count : List UInt8, exists rows : List (List UInt8),
        bytes = count ++ rows.flatten ∧
          WordKind.uint32.Spells distances.length count ∧
          List.Forall₂ (fun distance row => WordKind.int32.Spells distance.toInt row)
            distances rows

theorem countable_of_forall {item : Item}
    (h : forall distances : List Int32,
      item = jumpTable distances -> distances.length < UInt32.size) :
    item.Countable := by
  cases item with
  | jumpTable distances => exact h distances rfl
  | word kind value => trivial
  | token symbol => trivial

theorem length_bytes (item : Item) : item.bytes.length = item.size := by
  cases item with
  | word kind value => exact (Word.length_toBytes value).trans kind.width_value
  | token symbol => exact Word.length_toBytes symbol.value
  | jumpTable distances =>
      show (Payload.switch distances).bytes.length = _
      rw [Payload.bytes, List.length_append, Word.length_toBytes, Word.length_flatMap_toBytes]
      rfl

theorem size_pos (item : Item) : 0 < item.size := by
  cases item with
  | word kind value => exact kind.width_pos
  | token symbol => exact Nat.zero_lt_succ 3
  | jumpTable distances => exact Nat.add_pos_left (Nat.zero_lt_succ 3) _

theorem length_flatMap_bytes (items : List Item) :
    (items.flatMap bytes).length = (items.map size).sum := by
  rw [List.length_flatMap]
  exact congrArg List.sum (List.map_congr_left fun item _ => item.length_bytes)

theorem flatMap_bytes_eq_nil_iff {items : List Item} :
    items.flatMap bytes = [] <-> items = [] := by
  constructor
  · intro h
    cases items with
    | nil => rfl
    | cons item rest =>
        have hempty : item.bytes = [] := List.flatMap_eq_nil_iff.mp h item List.mem_cons_self
        have hpos := item.size_pos
        rw [← item.length_bytes, hempty] at hpos
        exact absurd hpos (Nat.lt_irrefl 0)
  · rintro rfl
    rfl

theorem writtenAs_bytes {item : Item} (h : item.Countable) : item.WrittenAs item.bytes := by
  cases item with
  | word kind value => exact kind.spells_toBytes value
  | token symbol => exact WordKind.uint32.spells_toBytes symbol.value
  | jumpTable distances =>
      refine ⟨_, distances.map Word.toBytes, rfl, ?_, ?_⟩
      · have hcount : WordKind.uint32.meaning (UInt32.ofNat distances.length) =
            distances.length :=
          congrArg Nat.cast (UInt32.toNat_ofNat_of_lt' h)
        have hspells := WordKind.uint32.spells_toBytes (UInt32.ofNat distances.length)
        rw [hcount] at hspells
        exact hspells
      · rw [List.forall₂_map_right_iff]
        exact List.forall₂_same.mpr fun distance _ => WordKind.int32.spells_toBytes distance

theorem exists_pieces {items : List Item}
    (h : forall item, item ∈ items -> item.Countable) :
    exists pieces : List (List UInt8),
      items.flatMap bytes = pieces.flatten ∧
        List.Forall₂ (fun item piece => item.WrittenAs piece) items pieces := by
  refine ⟨items.map bytes, List.flatMap_def, ?_⟩
  rw [List.forall₂_map_right_iff]
  exact List.forall₂_same.mpr fun item hitem => writtenAs_bytes (h item hitem)

end Item

/-!
# Operations
-/

inductive AssemblerOperation where
  | write (item : Item)
  | finish

namespace AssemblerOperation

def item? : AssemblerOperation -> Option Item
  | write item => some item
  | finish => none

/-- The items that are written behind the last finish. -/
def pending (operations : List AssemblerOperation) : List Item :=
  (operations.rtakeWhile fun operation => operation.item?.isSome).filterMap item?

variable {operations : List AssemblerOperation} {item : Item}

theorem pending_concat_write :
    pending (operations ++ [write item]) = pending operations ++ [item] := by
  rw [pending, List.rtakeWhile_concat_pos _ _ _ rfl, List.filterMap_append]
  rfl

theorem pending_concat_finish : pending (operations ++ [finish]) = [] := by
  rw [pending, List.rtakeWhile_concat_neg _ _ _ Bool.false_ne_true]
  rfl

theorem pending_map_write (items : List Item) :
    pending (items.map write) = items := by
  induction items using List.reverseRecOn with
  | nil => rfl
  | append_singleton items item ih =>
      rw [List.map_append, List.map_singleton, pending_concat_write, ih]

theorem write_mem_of_mem_pending (h : item ∈ pending operations) : write item ∈ operations := by
  rcases List.mem_filterMap.mp h with ⟨operation, hmem, hitem⟩
  have hoperation : operation = write item := by
    cases operation with
    | write other => rw [Option.some.inj hitem]
    | finish => cases hitem
  rw [← hoperation]
  exact (List.rtakeWhile_suffix _ _).mem hmem

end AssemblerOperation

namespace Assembler

open AssemblerOperation (pending pending_concat_write pending_concat_finish)

def write (assembler : Assembler) : Item -> Assembler
  | .word _ value => assembler.word value
  | .token symbol => assembler.token symbol
  | .jumpTable distances => assembler.jumpTable distances

def perform (assembler : Assembler) : AssemblerOperation -> Assembler
  | .write item => assembler.write item
  | .finish => assembler.finish.2

def after (assembler : Assembler) (operations : List AssemblerOperation) : Assembler :=
  operations.foldl perform assembler

variable {assembler : Assembler} {operations more : List AssemblerOperation}

theorem written_write (item : Item) :
    (assembler.write item).written = assembler.written ++ item.bytes := by
  cases item with
  | word kind value => exact written_word assembler value
  | token symbol => exact written_word assembler symbol.value
  | jumpTable distances => exact written_jumpTable assembler distances

theorem after_append :
    assembler.after (operations ++ more) = (assembler.after operations).after more :=
  List.foldl_append

theorem after_concat (operation : AssemblerOperation) :
    assembler.after (operations ++ [operation]) =
      (assembler.after operations).perform operation :=
  List.foldl_concat perform assembler operation operations

theorem written_after_of_notMem (h : .finish ∉ operations) :
    (assembler.after operations).written =
      assembler.written ++ (pending operations).flatMap Item.bytes := by
  -- From the back: the last operation decides whether anything is pending in front of it.
  induction operations using List.reverseRecOn with
  | nil => exact (List.append_nil _).symm
  | append_singleton operations operation ih =>
      have hfront : .finish ∉ operations := mt (List.mem_append_left _) h
      cases operation with
      | write item =>
          rw [after_concat, perform, written_write, ih hfront, pending_concat_write,
            List.flatMap_append, List.flatMap_singleton, List.append_assoc]
      | finish => exact absurd List.mem_concat_self h

theorem written_after_of_mem (h : .finish ∈ operations) :
    (assembler.after operations).written = (pending operations).flatMap Item.bytes := by
  induction operations using List.reverseRecOn with
  | nil => cases h
  | append_singleton operations operation ih =>
      cases operation with
      | write item =>
          have hfront : .finish ∈ operations := by simpa using h
          rw [after_concat, perform, written_write, ih hfront, pending_concat_write,
            List.flatMap_append, List.flatMap_singleton]
      | finish =>
          rw [after_concat, pending_concat_finish]
          rfl

theorem written_after (operations : List AssemblerOperation) :
    (empty.after operations).written = (pending operations).flatMap Item.bytes := by
  by_cases h : .finish ∈ operations
  · exact written_after_of_mem h
  · rw [written_after_of_notMem h, written_empty, List.nil_append]

/-- What a row of operations writes stands behind what the row in front of it has written. -/
theorem written_after_append (hmore : .finish ∉ more) :
    (empty.after (operations ++ more)).written =
      (empty.after operations).written ++ (empty.after more).written := by
  rw [after_append, written_after_of_notMem hmore, written_after more]

theorem written_after_append_of_mem (hmore : .finish ∈ more) :
    (empty.after (operations ++ more)).written = (empty.after more).written := by
  rw [after_append, written_after_of_mem hmore, written_after more]

end Assembler

end CilDisasm
