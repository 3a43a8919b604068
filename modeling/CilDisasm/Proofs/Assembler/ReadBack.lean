import CilDisasm.Proofs.Assembler.History
import CilDisasm.Proofs.Bytes.Consumption

/-!
# Reading items

Who reads items knows of which kind each of them is and in which order they come. The values,
and how many entries a jump table has, are in the bytes.
-/

namespace CilDisasm

inductive ItemKind where
  | word (kind : WordKind)
  | token
  | jumpTable
deriving DecidableEq, Repr

def Item.kind : Item -> ItemKind
  | .word kind _ => .word kind
  | .token _ => .token
  | .jumpTable _ => .jumpTable

namespace Cursor

def readItem : ItemKind -> Reading Item
  | .word kind, cursor =>
      (read kind.Value cursor).map fun reply => (.word kind reply.1, reply.2)
  | .token, cursor =>
      (read UInt32 cursor).map fun reply => (.token ⟨reply.1⟩, reply.2)
  | .jumpTable, cursor =>
      match read UInt32 cursor with
      | .error error => .error error
      | .ok (count, entries) =>
          (readMany Int32 count.toNat #[] entries).map fun reply =>
            (.jumpTable reply.1.toList, reply.2)

def readItems : List ItemKind -> Reading (List Item)
  | [], cursor => .ok ([], cursor)
  | kind :: rest, cursor =>
      match readItem kind cursor with
      | .error error => .error error
      | .ok (item, next) =>
          (readItems rest next).map fun reply => (item :: reply.1, reply.2)

variable {cursor next : Cursor}

theorem readItem_of_consumes {item : Item} (hitem : item.Countable)
    (h : cursor.Consumes item.bytes next) :
    readItem item.kind cursor = .ok (item, next) := by
  cases item with
  | word kind value =>
      rw [Item.kind, readItem, read_eq_ok_iff_consumes.mpr h]
      rfl
  | token symbol =>
      have hread : read UInt32 cursor = .ok (symbol.value, next) := read_eq_ok_iff_consumes.mpr h
      rw [Item.kind, readItem, hread]
      rfl
  | jumpTable distances =>
      rcases consumes_append_iff.mp h with ⟨entries, hcount, hdistances⟩
      have hread : read UInt32 cursor = .ok (UInt32.ofNat distances.length, entries) :=
        read_eq_ok_iff_consumes.mpr hcount
      have hentries : readMany Int32 distances.length #[] entries =
          .ok (distances.toArray, next) :=
        (readMany_eq_ok_iff_consumes hcount.position_le).mpr ⟨distances, rfl, rfl, hdistances⟩
      have hlength : (UInt32.ofNat distances.length).toNat = distances.length :=
        UInt32.toNat_ofNat_of_lt' hitem
      rw [Item.kind, readItem, hread]
      simp only [hlength, hentries]
      rfl

theorem readItems_of_consumes {items : List Item}
    (hitems : forall item, item ∈ items -> item.Countable)
    (h : cursor.Consumes (items.flatMap Item.bytes) next) :
    readItems (items.map Item.kind) cursor = .ok (items, next) := by
  induction items generalizing cursor with
  | nil =>
      rw [h.eq_of_nil]
      rfl
  | cons item rest ih =>
      rcases consumes_append_iff.mp h with ⟨middle, hitem, hrest⟩
      have hfirst := readItem_of_consumes (hitems item List.mem_cons_self) hitem
      have hothers := ih (fun other hother => hitems other (List.mem_cons_of_mem _ hother)) hrest
      rw [List.map_cons, readItems, hfirst]
      simp only [hothers]
      rfl

/-- Whatever stands behind them, the items in front are read. -/
theorem exists_readItems_append {front back : List Item}
    (hfront : forall item, item ∈ front -> item.Countable) :
    exists stop : Cursor,
      readItems (front.map Item.kind) (ofBytes ((front ++ back).flatMap Item.bytes)) =
          .ok (front, stop) ∧
        stop.position = (front.flatMap Item.bytes).length ∧
        (stop.atEnd = true <-> back = []) := by
  have hunread : (ofBytes ((front ++ back).flatMap Item.bytes)).unread =
      front.flatMap Item.bytes ++ back.flatMap Item.bytes := by
    rw [unread_ofBytes, List.flatMap_append]
  have hconsumes := consumes_of_unread (Nat.zero_le _) hunread
  have hrest := List.append_cancel_left (hconsumes.unread_eq.symm.trans hunread)
  refine ⟨_, readItems_of_consumes hfront hconsumes, Nat.zero_add _, ?_⟩
  rw [← unread_eq_nil_iff, hrest, Item.flatMap_bytes_eq_nil_iff]

end Cursor

/-!
# What was written is read back
-/

namespace Assembler

open AssemblerOperation (pending)

/-- The items are what was written since the last finish. -/
structure Holds (assembler : Assembler) (items : List Item) : Prop where
  position_eq : assembler.position = (items.map Item.size).sum
  length_finish : assembler.finish.1.length = assembler.position
  writtenAs : exists pieces : List (List UInt8),
    assembler.finish.1 = pieces.flatten ∧
      List.Forall₂ (fun item piece => item.WrittenAs piece) items pieces
  position_finish : assembler.finish.2.position = 0
  /-- At every place between two items the reader stands where the writer stood. -/
  readItems_eq : forall front back : List Item,
    items = front ++ back ->
    exists stop : Cursor,
      Cursor.readItems (front.map Item.kind) (Cursor.ofBytes assembler.finish.1) =
          .ok (front, stop) ∧
        stop.position = (empty.after (front.map .write)).position ∧
        (stop.atEnd = true <-> back = [])

theorem position_after (operations : List AssemblerOperation) :
    (empty.after operations).position = ((pending operations).map Item.size).sum := by
  rw [position_eq, written_after, Item.length_flatMap_bytes]

/-- Whatever is done with an assembler, it holds the items that were written since the last
finish. Their bytes come out of it, readings of the same kinds give the items back, and what is
written later stands behind them, up to the next finish. -/
theorem holds_after (operations : List AssemblerOperation)
    (htables : forall distances : List Int32,
      .write (.jumpTable distances) ∈ operations -> distances.length < UInt32.size) :
    (empty.after operations).Holds (pending operations) ∧
      forall more : List AssemblerOperation,
        (.finish ∉ more ->
          (empty.after (operations ++ more)).finish.1 =
            (empty.after operations).finish.1 ++ (empty.after more).finish.1) ∧
        (.finish ∈ more ->
          (empty.after (operations ++ more)).finish.1 = (empty.after more).finish.1) := by
  have hcountable : forall item, item ∈ pending operations -> item.Countable := by
    intro item hitem
    apply Item.countable_of_forall
    rintro distances rfl
    exact htables distances (AssemblerOperation.write_mem_of_mem_pending hitem)
  have hfinish : (empty.after operations).finish.1 = (pending operations).flatMap Item.bytes :=
    written_after operations
  refine ⟨?_, fun more => ⟨written_after_append, written_after_append_of_mem⟩⟩
  constructor
  · exact position_after operations
  · exact (position_eq _).symm
  · rw [hfinish]
    exact Item.exists_pieces hcountable
  · rfl
  · intro front back hitems
    have hfront : forall item, item ∈ front -> item.Countable := by
      intro item hitem
      exact hcountable item (hitems ▸ List.mem_append_left back hitem)
    rw [hfinish, hitems, position_eq, written_after, AssemblerOperation.pending_map_write]
    exact Cursor.exists_readItems_append hfront

def mixedOperations : List AssemblerOperation :=
  [.write (.word .uint8 (0xFE : UInt8)), .finish, .write (.word .int8 (-128 : Int8)),
    .write (.word .uint16 (0xFFFF : UInt16)), .write (.word .float32 ⟨0x7FC00001⟩),
    .write (.token ⟨0x70000001⟩), .write (.jumpTable [-1, 4]),
    .write (.word .int64 (-2 : Int64))]

theorem holds_after_mixedOperations :
    (forall distances : List Int32,
      .write (.jumpTable distances) ∈ mixedOperations -> distances.length < UInt32.size) ∧
      (empty.after mixedOperations).Holds (pending mixedOperations) ∧
      (empty.after (mixedOperations ++ [.write (.word .uint8 (0x2A : UInt8))])).finish.1 =
        (empty.after mixedOperations).finish.1 ++ [0x2A] ∧
      pending mixedOperations =
        [.word .int8 (-128 : Int8), .word .uint16 (0xFFFF : UInt16),
          .word .float32 ⟨0x7FC00001⟩, .token ⟨0x70000001⟩, .jumpTable [-1, 4],
          .word .int64 (-2 : Int64)] ∧
      (empty.after mixedOperations).position = 31 ∧
      (empty.after mixedOperations).finish.1 =
        [0x80, 0xFF, 0xFF, 0x01, 0x00, 0xC0, 0x7F, 0x01, 0x00, 0x00, 0x70,
          0x02, 0x00, 0x00, 0x00, 0xFF, 0xFF, 0xFF, 0xFF, 0x04, 0x00, 0x00, 0x00,
          0xFE, 0xFF, 0xFF, 0xFF, 0xFF, 0xFF, 0xFF, 0xFF] := by
  have htables : forall distances : List Int32,
      .write (.jumpTable distances) ∈ mixedOperations -> distances.length < UInt32.size := by
    intro distances hmem
    have hdistances : distances = [-1, 4] := by
      simpa [mixedOperations] using hmem
    rw [hdistances]
    decide
  rcases holds_after mixedOperations htables with ⟨hholds, hlater⟩
  exact ⟨htables, hholds, (hlater _).1 (by simp), rfl, rfl, by decide⟩

end Assembler

end CilDisasm
