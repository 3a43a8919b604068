import CilDisasm.Proofs.Decoding.Transcription

/-!
# The grammar of method bodies

A method body is a row of pieces, each of which encodes one instruction: the bytes of a code
that the catalog knows, and behind them as many bytes as the format of the opcode takes. The
grammar speaks of bytes alone. Pieces and statements are two views of the same thing, so
decoding accepts exactly the method bodies that can be cut into pieces whose tokens and
slots stand for something.
-/

namespace CilDisasm

/-!
# Rows of words
-/

namespace Word

variable {α : Type} [Word α]

def listOfBytes (α : Type) [Word α] : (count : Nat) -> List UInt8 -> List α
  | 0, _ => []
  | count + 1, bytes =>
      ofBytes α (bytes.take (width α)) :: listOfBytes α count (bytes.drop (width α))

@[simp] theorem length_listOfBytes (count : Nat) (bytes : List UInt8) :
    (listOfBytes α count bytes).length = count := by
  induction count generalizing bytes with
  | zero => rfl
  | succ count ih => rw [listOfBytes, List.length_cons, ih]

theorem listOfBytes_flatMap_toBytes (values : List α) :
    listOfBytes α values.length (values.flatMap toBytes) = values := by
  induction values with
  | nil => rfl
  | cons value rest ih =>
      rw [List.length_cons, listOfBytes, List.flatMap_cons,
        List.take_left' (length_toBytes value), List.drop_left' (length_toBytes value),
        ofBytes_toBytes, ih]

theorem flatMap_toBytes_listOfBytes {count : Nat} {bytes : List UInt8}
    (h : bytes.length = width α * count) :
    (listOfBytes α count bytes).flatMap toBytes = bytes := by
  induction count generalizing bytes with
  | zero => exact (List.eq_nil_of_length_eq_zero h).symm
  | succ count ih =>
      rw [Nat.mul_succ] at h
      have htake : (bytes.take (width α)).length = width α := by
        rw [List.length_take, h]
        exact Nat.min_eq_left (Nat.le_add_left _ _)
      have hdrop : (bytes.drop (width α)).length = width α * count := by
        rw [List.length_drop, h, Nat.add_sub_cancel]
      rw [listOfBytes, List.flatMap_cons, toBytes_ofBytes _ htake, ih hdrop,
        List.take_append_drop]

theorem number_toBytes (value : α) : LittleEndian.number (toBytes value) = toNumber value :=
  LittleEndian.number_bytes _ _ (toNumber_lt value)

end Word

/-!
# Operand bytes
-/

/-- The bytes that may stand behind an opcode of a format. The first word of a jump table
says how many words follow it. -/
def OperandFormat.Admits (format : OperandFormat) (bytes : List UInt8) : Prop :=
  match format with
  | .phi => False
  | .switch => bytes.length = 4 * (1 + LittleEndian.number (bytes.take 4))
  | format => format.width? = some bytes.length

def Opcode.payloadOf (opcode : Opcode) (bytes : List UInt8) : Payload :=
  match opcode.format with
  | .none | .phi => .none
  | .shortInt =>
      if opcode.value = 0x1F then .int8 (Word.ofBytes Int8 bytes)
      else .uint8 (Word.ofBytes UInt8 bytes)
  | .int => .int32 (Word.ofBytes Int32 bytes)
  | .long => .int64 (Word.ofBytes Int64 bytes)
  | .shortFloat => .float32 (Word.ofBytes Binary32 bytes)
  | .float => .float64 (Word.ofBytes Binary64 bytes)
  | .shortBranch => .shortBranch (Word.ofBytes Int8 bytes)
  | .branch => .branch (Word.ofBytes Int32 bytes)
  | .switch =>
      .switch
        (Word.listOfBytes Int32 (LittleEndian.number (bytes.take 4)) (bytes.drop 4))
  | .string => .string ⟨Word.ofBytes UInt32 bytes⟩
  | .type | .method | .field | .member => .member ⟨Word.ofBytes UInt32 bytes⟩
  | .signature => .signature ⟨Word.ofBytes UInt32 bytes⟩
  | .shortLocalSlot => .shortLocalSlot (Word.ofBytes UInt8 bytes)
  | .localSlot => .localSlot (Word.ofBytes UInt16 bytes)
  | .shortArgumentSlot => .shortArgumentSlot (Word.ofBytes UInt8 bytes)
  | .argumentSlot => .argumentSlot (Word.ofBytes UInt16 bytes)

namespace Payload

variable {payload : Payload} {bytes : List UInt8}

theorem spelled_word_iff {α : Type} [Word α] {make : α -> Payload}
    (hmake : forall value, (make value).bytes = Word.toBytes value)
    (hfits : forall value, (make value).Fits) :
    (exists value : α, payload = make value) ∧ payload.Fits ∧ payload.bytes = bytes <->
      some (Word.width α) = some bytes.length ∧
        payload = make (Word.ofBytes α bytes) := by
  constructor
  · intro h
    rcases h with ⟨⟨value, rfl⟩, -, rfl⟩
    rw [hmake, Word.length_toBytes, Word.ofBytes_toBytes]
    exact ⟨rfl, rfl⟩
  · intro h
    rcases h with ⟨hlength, rfl⟩
    refine ⟨⟨_, rfl⟩, hfits _, ?_⟩
    rw [hmake]
    exact Word.toBytes_ofBytes bytes (Option.some.inj hlength).symm

theorem spelled_token_iff {make : Token -> Payload}
    (hmake : forall token, (make token).bytes = Word.toBytes token.value)
    (hfits : forall token, (make token).Fits) :
    (exists token : Token, payload = make token) ∧ payload.Fits ∧ payload.bytes = bytes <->
      some (Word.width UInt32) = some bytes.length ∧
        payload = make ⟨Word.ofBytes UInt32 bytes⟩ := by
  rw [exists_token_iff]
  exact spelled_word_iff (fun value => hmake ⟨value⟩) (fun value => hfits ⟨value⟩)

theorem spelled_switch_iff :
    (exists distances : List Int32, payload = .switch distances) ∧ payload.Fits ∧
        payload.bytes = bytes <->
      bytes.length = 4 * (1 + LittleEndian.number (bytes.take 4)) ∧
        payload =
          .switch
            (Word.listOfBytes Int32 (LittleEndian.number (bytes.take 4))
              (bytes.drop 4)) := by
  constructor
  · intro h
    rcases h with ⟨⟨distances, rfl⟩, hlength, rfl⟩
    have hnumber : LittleEndian.number (Word.toBytes (UInt32.ofNat distances.length)) =
        distances.length := by
      rw [Word.number_toBytes]
      exact UInt32.toNat_ofNat_of_lt' hlength
    have htake : (switch distances).bytes.take 4 =
        Word.toBytes (UInt32.ofNat distances.length) :=
      List.take_left' (Word.length_toBytes _)
    have hdrop : (switch distances).bytes.drop 4 = distances.flatMap Word.toBytes :=
      List.drop_left' (Word.length_toBytes _)
    rw [length_bytes_switch, htake, hdrop, hnumber, Word.listOfBytes_flatMap_toBytes]
    exact ⟨rfl, rfl⟩
  · intro h
    rcases h with ⟨hlength, rfl⟩
    have htake : (bytes.take 4).length = Word.width UInt32 := by
      rw [List.length_take, hlength]
      exact Nat.min_eq_left (by omega)
    have hdrop : (bytes.drop 4).length =
        Word.width Int32 * LittleEndian.number (bytes.take 4) := by
      rw [List.length_drop, hlength, Nat.mul_add]
      exact Nat.add_sub_cancel_left _ _
    have hcount := Word.toBytes_ofBytes (bytes.take 4) htake
    refine ⟨⟨_, rfl⟩, ?_, ?_⟩
    · show List.length _ < UInt32.size
      rw [Word.length_listOfBytes]
      have hlt := LittleEndian.number_lt (bytes.take 4)
      rw [htake] at hlt
      exact hlt
    · rw [Payload.bytes, Word.length_listOfBytes, Word.flatMap_toBytes_listOfBytes hdrop]
      show Word.toBytes (Word.ofBytes UInt32 (bytes.take 4)) ++ _ = _
      rw [hcount, List.take_append_drop]

/-- The payloads of an opcode are what the bytes that its format admits say. -/
theorem spelled_iff {opcode : Opcode} :
    payload.Suits opcode ∧ payload.Fits ∧ payload.bytes = bytes <->
      opcode.format.Admits bytes ∧ payload = opcode.payloadOf bytes := by
  unfold OperandFormat.Admits Opcode.payloadOf Suits
  cases opcode.format with
  | none =>
      constructor
      · intro h
        rcases h with ⟨hnone, -, rfl⟩
        rw [hnone]
        exact ⟨rfl, rfl⟩
      · intro h
        rcases h with ⟨hlength, rfl⟩
        have hzero := Option.some.inj hlength
        exact ⟨rfl, trivial, (List.eq_nil_of_length_eq_zero hzero.symm).symm⟩
  | shortInt =>
      by_cases hvalue : opcode.value = 0x1F
      · simp only [hvalue, if_true]
        exact spelled_word_iff (fun _ => rfl) (fun _ => trivial)
      · simp only [hvalue, if_false]
        exact spelled_word_iff (fun _ => rfl) (fun _ => trivial)
  | switch => exact spelled_switch_iff
  | string | signature => exact spelled_token_iff (fun _ => rfl) (fun _ => trivial)
  | type | method | field | member =>
      exact spelled_token_iff (fun _ => rfl) (fun _ => trivial)
  | phi =>
      constructor
      · intro h
        exact h.1.elim
      · intro h
        exact h.1.elim
  | _ => exact spelled_word_iff (fun _ => rfl) (fun _ => trivial)

end Payload

/-!
# Pieces
-/

/-- A piece of code that encodes one instruction. -/
structure Catalog.Encodes (catalog : Catalog) (piece : List UInt8) (opcode : Opcode)
    (operandBytes : List UInt8) : Prop where
  listed : exists code : OpcodeCode,
    catalog.lookup code = some opcode ∧ piece = code.bytes ++ operandBytes
  admits : opcode.format.Admits operandBytes

section Pieces

variable {catalog : Catalog}

theorem Statement.Legal.encodes (hcatalog : catalog.Coherent) {statement : Statement}
    (h : statement.Legal catalog) :
    catalog.Encodes statement.bytes statement.opcode statement.payload.bytes ∧
      statement.payload = statement.opcode.payloadOf statement.payload.bytes := by
  rcases Payload.spelled_iff.mp ⟨h.suits, h.fits, rfl⟩ with ⟨hadmits, hpayload⟩
  rcases h.lists with ⟨code, hlookup⟩
  have hbytes := Opcode.bytes_of_code? (hcatalog code statement.opcode hlookup)
  refine ⟨⟨⟨code, hlookup, ?_⟩, hadmits⟩, hpayload⟩
  rw [Statement.bytes, hbytes]

theorem Catalog.Encodes.legal (hcatalog : catalog.Coherent) {piece : List UInt8}
    {opcode : Opcode} {operandBytes : List UInt8}
    (h : catalog.Encodes piece opcode operandBytes) :
    Statement.Legal ⟨opcode, opcode.payloadOf operandBytes⟩ catalog ∧
      Statement.bytes ⟨opcode, opcode.payloadOf operandBytes⟩ = piece := by
  rcases Payload.spelled_iff.mpr ⟨h.admits, rfl⟩ with ⟨hsuits, hfits, hpayload⟩
  rcases h.listed with ⟨code, hlookup, rfl⟩
  have hbytes := Opcode.bytes_of_code? (hcatalog code opcode hlookup)
  refine ⟨⟨⟨code, hlookup⟩, hsuits, hfits⟩, ?_⟩
  rw [Statement.bytes, hpayload, hbytes]

end Pieces

namespace MethodBody

open Statement (codeOf offsetAt)

/-- A method body cut into pieces whose tokens and slots stand for something. -/
structure CutInto (body : MethodBody) (catalog : Catalog) (resolver : Resolver)
    (pieces : List (List UInt8)) : Prop where
  flatten_eq : pieces.flatten = body.code
  encodes : forall piece, piece ∈ pieces ->
    exists opcode : Opcode, exists operandBytes : List UInt8,
      catalog.Encodes piece opcode operandBytes ∧
        (opcode.payloadOf operandBytes).Resolves (.ofResolver resolver) body

/-- A listing reads off one instruction from each piece. -/
structure Reads (body : MethodBody) (catalog : Catalog) (resolver : Resolver)
    (pieces : List (List UInt8)) (listing : Listing) : Prop where
  length_eq : listing.length = pieces.length
  instruction : forall {index : Nat} {piece : List UInt8} {opcode : Opcode}
      {operandBytes : List UInt8},
    pieces[index]? = some piece ->
    catalog.Encodes piece opcode operandBytes ->
    exists instruction : Instruction, exists operand : Operand,
      listing.get? index = some instruction ∧
        instruction.opcode = opcode ∧
        instruction.offset = (pieces.take index).flatten.length ∧
        (opcode.payloadOf operandBytes).Denotes (.ofResolver resolver) body
          (instruction.offset + piece.length) operand ∧
        listing.Links operand instruction.operand

variable {body : MethodBody} {catalog : Catalog} {resolver : Resolver}

theorem resolves_of_denotes {payload : Payload} {limit : Nat} {operand : Operand}
    (h : payload.Denotes (.ofResolver resolver) body limit operand) :
    payload.Resolves (.ofResolver resolver) body := by
  cases payload with
  | string token | member token | signature token =>
      rcases h with ⟨answer, hanswer, -⟩
      intro outcome houtcome
      exact ⟨answer, houtcome.symm.trans hanswer⟩
  | shortLocalSlot index | localSlot index =>
      rcases h with ⟨slot, hslot, -⟩
      rcases List.getElem?_eq_some_iff.mp hslot with ⟨hindex, -⟩
      exact hindex
  | shortArgumentSlot index | argumentSlot index =>
      rcases h with ⟨argument, hargument, -⟩
      rcases List.getElem?_eq_some_iff.mp hargument with ⟨hindex, -⟩
      rw [length_arguments] at hindex
      exact hindex
  | _ => trivial

theorem cutInto_map_bytes (hcatalog : catalog.Coherent) {statements : List Statement}
    (hcode : codeOf statements = body.code)
    (hlegal : forall statement, statement ∈ statements -> statement.Legal catalog)
    (hresolves : forall statement, statement ∈ statements ->
      statement.payload.Resolves (.ofResolver resolver) body) :
    body.CutInto catalog resolver (statements.map Statement.bytes) := by
  constructor
  · rw [← List.flatMap_def]
    exact hcode
  · intro piece hpiece
    rcases List.mem_map.mp hpiece with ⟨statement, hstatement, rfl⟩
    rcases (hlegal statement hstatement).encodes hcatalog with ⟨hencodes, hpayload⟩
    refine ⟨statement.opcode, statement.payload.bytes, hencodes, ?_⟩
    rw [← hpayload]
    exact hresolves statement hstatement

theorem exists_statements_of_pieces (hcatalog : catalog.Coherent)
    {pieces : List (List UInt8)}
    (h : forall piece, piece ∈ pieces ->
      exists opcode : Opcode, exists operandBytes : List UInt8,
        catalog.Encodes piece opcode operandBytes ∧
          (opcode.payloadOf operandBytes).Resolves (.ofResolver resolver) body) :
    exists statements : List Statement,
      statements.map Statement.bytes = pieces ∧
        (forall statement, statement ∈ statements -> statement.Legal catalog) ∧
        forall statement, statement ∈ statements ->
          statement.payload.Resolves (.ofResolver resolver) body := by
  induction pieces with
  | nil => exact ⟨[], rfl, by simp, by simp⟩
  | cons piece rest ih =>
      rcases h piece List.mem_cons_self with ⟨opcode, operandBytes, hencodes, hresolves⟩
      rcases hencodes.legal hcatalog with ⟨hlegal, rfl⟩
      rcases ih (fun other hother => h other (List.mem_cons_of_mem _ hother)) with
        ⟨statements, rfl, hlegals, hresolve⟩
      refine ⟨_ :: statements, rfl, ?_, ?_⟩
      · exact List.forall_mem_cons.mpr ⟨hlegal, hlegals⟩
      · exact List.forall_mem_cons.mpr ⟨hresolves, hresolve⟩

theorem CutInto.exists_statements (hcatalog : catalog.Coherent)
    {pieces : List (List UInt8)} (h : body.CutInto catalog resolver pieces) :
    exists statements : List Statement,
      statements.map Statement.bytes = pieces ∧ codeOf statements = body.code ∧
        (forall statement, statement ∈ statements -> statement.Legal catalog) ∧
        forall statement, statement ∈ statements ->
          statement.payload.Resolves (.ofResolver resolver) body := by
  rcases exists_statements_of_pieces hcatalog h.encodes with
    ⟨statements, hpieces, hlegal, hresolves⟩
  refine ⟨statements, hpieces, ?_, hlegal, hresolves⟩
  rw [codeOf, List.flatMap_def, hpieces]
  exact h.flatten_eq

theorem Transcribes.resolves {statements : List Statement} {operands : List Operand}
    (h : body.Transcribes (.ofResolver resolver) catalog statements operands)
    {statement : Statement} (hstatement : statement ∈ statements) :
    statement.payload.Resolves (.ofResolver resolver) body := by
  rcases List.getElem?_of_mem hstatement with ⟨index, hindex⟩
  rcases List.getElem?_eq_some_iff.mp hindex with ⟨hlt, -⟩
  rw [← h.length_eq] at hlt
  exact resolves_of_denotes (h.denotes hindex (List.getElem?_eq_getElem hlt))

theorem Transcribes.cutInto (hcatalog : catalog.Coherent) {statements : List Statement}
    {operands : List Operand}
    (h : body.Transcribes (.ofResolver resolver) catalog statements operands) :
    body.CutInto catalog resolver (statements.map Statement.bytes) := by
  apply cutInto_map_bytes hcatalog h.codeOf_eq h.legal
  intro statement hstatement
  exact h.resolves hstatement

theorem Transcribes.reads (hcatalog : catalog.Coherent)
    (hlength : body.code.length < codeLengthLimit) {statements : List Statement}
    {operands : List Operand}
    (h : body.Transcribes (.ofResolver resolver) catalog statements operands) :
    body.Reads catalog resolver (statements.map Statement.bytes)
      (Listing.compose statements operands).resolveTargets := by
  constructor
  · rw [Listing.length_resolveTargets, h.length_compose, List.length_map]
  · intro index piece opcode operandBytes hpiece hencodes
    rw [List.getElem?_map] at hpiece
    rcases Option.map_eq_some_iff.mp hpiece with ⟨statement, hstatement, rfl⟩
    rcases hencodes.legal hcatalog with ⟨hlegal, hbytes⟩
    -- Another reading of the piece would be another statement with the same code.
    have hsingle : [Statement.mk opcode (opcode.payloadOf operandBytes)] = [statement] := by
      apply Cut.statements_unique hcatalog
      · exact List.forall_mem_singleton.mpr hlegal
      · exact List.forall_mem_singleton.mpr
          (h.legal statement (List.mem_of_getElem? hstatement))
      · rw [Statement.codeOf_cons, Statement.codeOf_cons, hbytes]
    have hsame := List.singleton_inj.mp hsingle
    rcases h.exists_instruction hcatalog hlength hstatement with
      ⟨instruction, hget, hrenders⟩
    rcases hrenders.links with ⟨operand, hoperand, hlinks⟩
    have hdenotes := h.denotes hstatement hoperand
    rw [Statement.offsetAt_succ hstatement, ← hrenders.offset_eq, ← hsame] at hdenotes
    refine ⟨instruction, operand, hget, ?_, ?_, ?_, hlinks⟩
    · rw [hrenders.opcode_eq, ← hsame]
    · rw [hrenders.offset_eq, offsetAt, codeOf, List.flatMap_def, List.map_take]
    · rw [← hsame]
      exact hdenotes

/-- Decoding accepts exactly the method bodies that can be cut into pieces, in one way only,
and what it returns reads off the pieces. -/
theorem result_decode_ok_iff_cutInto {definitions : List Opcode}
    (hcatalog : Catalog.ofDefinitions definitions = .ok catalog) (body : MethodBody)
    (hlength : body.code.length < codeLengthLimit) (resolver : Resolver) :
    ((exists listing : Listing, (body.decode catalog).result resolver = .ok listing) <->
        exists pieces : List (List UInt8), body.CutInto catalog resolver pieces) ∧
      (forall pieces others : List (List UInt8),
        body.CutInto catalog resolver pieces ->
        body.CutInto catalog resolver others ->
        pieces = others) ∧
      forall (listing : Listing) (pieces : List (List UInt8)),
        (body.decode catalog).result resolver = .ok listing ->
        body.CutInto catalog resolver pieces ->
        body.Reads catalog resolver pieces listing := by
  have hcoherent := Catalog.coherent_ofDefinitions hcatalog
  have hunique : forall pieces others : List (List UInt8),
      body.CutInto catalog resolver pieces ->
      body.CutInto catalog resolver others ->
      pieces = others := by
    intro pieces others hpieces hothers
    rcases hpieces.exists_statements hcoherent with ⟨first, rfl, hcode, hlegal, -⟩
    rcases hothers.exists_statements hcoherent with ⟨second, rfl, hcode', hlegal', -⟩
    rw [Cut.statements_unique hcoherent hlegal hlegal' (hcode.trans hcode'.symm)]
  refine ⟨⟨?_, ?_⟩, hunique, ?_⟩
  · intro h
    rcases h with ⟨listing, hresult⟩
    have hreturns := Dialogue.result_eq_iff_returns.mp hresult
    rcases (returns_decode_ok_iff hcoherent).mp hreturns with
      ⟨-, statements, operands, htranscribes, -⟩
    exact ⟨_, htranscribes.cutInto hcoherent⟩
  · intro h
    rcases h with ⟨pieces, hpieces⟩
    rcases hpieces.exists_statements hcoherent with
      ⟨statements, -, hcode, hlegal, hresolves⟩
    have hreturns := Dialogue.result_eq_iff_returns.mp
      (Eq.refl ((body.decode catalog).result resolver))
    exact ok_of_returns_decode hcoherent hcode hlength hlegal hresolves hreturns
  · intro listing pieces hresult hpieces
    have hreturns := Dialogue.result_eq_iff_returns.mp hresult
    rcases (returns_decode_ok_iff hcoherent).mp hreturns with
      ⟨-, statements, operands, htranscribes, rfl⟩
    rw [hunique pieces _ hpieces (htranscribes.cutInto hcoherent)]
    exact htranscribes.reads hcoherent hlength

theorem result_decode_ok_iff_cutInto_loopBody :
    (exists pieces : List (List UInt8),
      Sample.loopBody.CutInto .standard Sample.metadata.resolve pieces) ∧
      ¬ exists pieces : List (List UInt8),
        (MethodBody.ofCode [0x45, 0xFF, 0xFF, 0xFF, 0xFF, 0x00]).CutInto .standard
          Sample.metadata.resolve pieces := by
  constructor
  · have haccepts := result_decode_ok_iff_cutInto Catalog.ofDefinitions_standardSet
      Sample.loopBody (by decide +kernel) Sample.metadata.resolve
    rcases exists_result_loopBody with ⟨listing, -, hresult, -⟩
    exact haccepts.1.mp ⟨listing, hresult⟩
  · intro h
    have haccepted := (result_decode_ok_iff_cutInto Catalog.ofDefinitions_standardSet
      (MethodBody.ofCode [0x45, 0xFF, 0xFF, 0xFF, 0xFF, 0x00]) (by decide +kernel)
      Sample.metadata.resolve).1.mpr h
    rcases haccepted with ⟨listing, hresult⟩
    have hok : (((MethodBody.ofCode [0x45, 0xFF, 0xFF, 0xFF, 0xFF, 0x00]).decode
        .standard).result Sample.metadata.resolve).isOk = false := by
      decide +kernel
    rw [hresult] at hok
    cases hok

end MethodBody

end CilDisasm
