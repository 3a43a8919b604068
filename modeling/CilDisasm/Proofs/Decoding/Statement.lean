import CilDisasm.Decoding.Segment
import CilDisasm.Proofs.Bytes.Consumption
import CilDisasm.Proofs.Opcode.Lookup

/-!
# Statements

A statement is an opcode with the payload that it takes, in no particular place. It is what
is written in one go and what a segment says. The encoding of a statement is the code of the
opcode and then the bytes of the payload; reading a segment is the same as finding the
encoding of a statement in front of the cursor.
-/

namespace CilDisasm

/-- The kind of payload that an opcode has, by its format. -/
def Payload.Suits (payload : Payload) (opcode : Opcode) : Prop :=
  match opcode.format with
  | .none => payload = .none
  | .shortInt =>
      if opcode.value = 0x1F then exists value : Int8, payload = .int8 value
      else exists value : UInt8, payload = .uint8 value
  | .int => exists value : Int32, payload = .int32 value
  | .long => exists value : Int64, payload = .int64 value
  | .shortFloat => exists value : Binary32, payload = .float32 value
  | .float => exists value : Binary64, payload = .float64 value
  | .shortBranch => exists distance : Int8, payload = .shortBranch distance
  | .branch => exists distance : Int32, payload = .branch distance
  | .switch => exists distances : List Int32, payload = .switch distances
  | .string => exists token : Token, payload = .string token
  | .type | .method | .field | .member => exists token : Token, payload = .member token
  | .signature => exists token : Token, payload = .signature token
  | .shortLocalSlot => exists index : UInt8, payload = .shortLocalSlot index
  | .localSlot => exists index : UInt16, payload = .localSlot index
  | .shortArgumentSlot => exists index : UInt8, payload = .shortArgumentSlot index
  | .argumentSlot => exists index : UInt16, payload = .argumentSlot index
  | .phi => False

/-- The number of entries of a jump table is written as one word. -/
def Payload.Fits : Payload -> Prop
  | .switch distances => distances.length < UInt32.size
  | _ => True

theorem Opcode.loadsSignedByte_eq (opcode : Opcode) :
    opcode.loadsSignedByte = decide (opcode.value = 0x1F) :=
  rfl

structure Statement where
  opcode : Opcode
  payload : Payload
deriving DecidableEq, Repr

namespace Statement

def bytes (statement : Statement) : List UInt8 :=
  statement.opcode.bytes ++ statement.payload.bytes

/-- The statements of a catalog. -/
structure Legal (statement : Statement) (catalog : Catalog) : Prop where
  lists : catalog.Lists statement.opcode
  suits : statement.payload.Suits statement.opcode
  fits : statement.payload.Fits

def placed (statement : Statement) (offset : Nat) : Segment :=
  { offset := offset
    opcode := statement.opcode
    payload := statement.payload
    limit := offset + statement.bytes.length }

end Statement

def Segment.statement (segment : Segment) : Statement :=
  { opcode := segment.opcode, payload := segment.payload }

/-!
# The shape of a payload

What a format fixes of a payload: the number of its bytes, and whether it leads elsewhere.
-/

namespace Payload

def isBranch : Payload -> Bool
  | .shortBranch _ | .branch _ | .switch _ => true
  | _ => false

variable {payload : Payload} {opcode : Opcode}

theorem exists_of_suits_shortInt {name : String} {value : UInt16} {size : UInt8}
    {group : OpcodeClass}
    (h : payload.Suits
      { name := name, value := value, size := size, format := .shortInt, group := group }) :
    (exists signed : Int8, payload = .int8 signed) ∨
      exists unsigned : UInt8, payload = .uint8 unsigned := by
  unfold Suits at h
  simp only at h
  split at h
  · exact Or.inl h
  · exact Or.inr h

theorem isBranch_of_suits (h : payload.Suits opcode) :
    payload.isBranch = opcode.format.isBranch := by
  rcases opcode with ⟨name, value, size, format, group⟩
  cases format with
  | none =>
      have hpayload : payload = .none := h
      rw [hpayload]
      rfl
  | shortInt =>
      rcases exists_of_suits_shortInt h with ⟨signed, rfl⟩ | ⟨unsigned, rfl⟩
      · rfl
      · rfl
  | phi => cases h
  | _ =>
      rcases h with ⟨value, rfl⟩
      rfl

theorem length_bytes_of_suits (h : payload.Suits opcode) {width : Nat}
    (hwidth : opcode.format.width? = some width) : payload.bytes.length = width := by
  rcases opcode with ⟨name, value, size, format, group⟩
  cases format with
  | none =>
      have hpayload : payload = .none := h
      rw [hpayload]
      exact Option.some.inj hwidth
  | shortInt =>
      rcases exists_of_suits_shortInt h with ⟨signed, rfl⟩ | ⟨unsigned, rfl⟩
      · exact Option.some.inj hwidth
      · exact Option.some.inj hwidth
  | switch => cases hwidth
  | phi => cases h
  | _ =>
      rcases h with ⟨value, rfl⟩
      exact Option.some.inj hwidth

theorem length_bytes_switch (distances : List Int32) :
    (switch distances).bytes.length = 4 * (1 + distances.length) := by
  rw [bytes, List.length_append, Word.length_toBytes, Word.length_flatMap_toBytes,
    Nat.mul_add]
  rfl

end Payload

/-!
# Reading a payload

Every format but two reads one word and makes a payload of it.
-/

namespace Payload

variable {cursor next : Cursor} {payload : Payload}

theorem readWord_eq_ok_iff {α : Type} [Word α] {make : α -> Payload}
    (hmake : forall value, (make value).bytes = Word.toBytes value)
    (hfits : forall value, (make value).Fits) :
    readWord α make cursor = .ok (payload, next) <->
      (exists value : α, payload = make value) ∧ payload.Fits ∧
        cursor.Consumes payload.bytes next := by
  unfold readWord
  constructor
  · intro h
    split at h
    · next value last hread =>
        cases h
        rw [hmake]
        exact ⟨⟨value, rfl⟩, hfits value, Cursor.read_eq_ok_iff_consumes.mp hread⟩
    · cases h
  · intro h
    rcases h with ⟨⟨value, rfl⟩, -, hconsumes⟩
    rw [hmake] at hconsumes
    rw [Cursor.read_eq_ok_iff_consumes.mpr hconsumes]

theorem exists_token_iff {make : Token -> Payload} :
    (exists token : Token, payload = make token) <->
      exists value : UInt32, payload = make ⟨value⟩ := by
  constructor
  · intro h
    rcases h with ⟨token, hpayload⟩
    exact ⟨token.value, hpayload⟩
  · intro h
    rcases h with ⟨value, hpayload⟩
    exact ⟨⟨value⟩, hpayload⟩

theorem readToken_eq_ok_iff {make : Token -> Payload}
    (hmake : forall token, (make token).bytes = Word.toBytes token.value)
    (hfits : forall token, (make token).Fits) :
    readWord UInt32 (fun value => make ⟨value⟩) cursor = .ok (payload, next) <->
      (exists token : Token, payload = make token) ∧ payload.Fits ∧
        cursor.Consumes payload.bytes next := by
  rw [exists_token_iff]
  exact readWord_eq_ok_iff (fun value => hmake ⟨value⟩) (fun value => hfits ⟨value⟩)

/-- The count of a jump table says how many entries follow. -/
theorem readSwitch_eq_ok_iff :
    readSwitch cursor = .ok (payload, next) <->
      (exists distances : List Int32, payload = .switch distances) ∧ payload.Fits ∧
        cursor.Consumes payload.bytes next := by
  unfold readSwitch
  constructor
  · intro h
    split at h
    · cases h
    · next count entries hcount =>
        split at h
        · cases h
        · split at h
          · cases h
          · next distances last hentries =>
              cases h
              have hfirst := Cursor.read_eq_ok_iff_consumes.mp hcount
              rcases (Cursor.readMany_eq_ok_iff_consumes hfirst.position_le).mp hentries
                with ⟨values, hlength, hvalues, hrest⟩
              have hdistances : distances.toList = values := by
                simpa using hvalues
              have hcountEq : UInt32.ofNat values.length = count := by
                rw [hlength, UInt32.ofNat_toNat]
              rw [hdistances]
              refine ⟨⟨values, rfl⟩, ?_, ?_⟩
              · show values.length < UInt32.size
                rw [hlength]
                exact count.toNat_lt
              · rw [bytes, hcountEq]
                exact hfirst.append hrest
  · intro h
    rcases h with ⟨⟨distances, rfl⟩, hlength, hconsumes⟩
    rcases Cursor.consumes_append_iff.mp hconsumes with ⟨entries, hfirst, hrest⟩
    have hcount : (UInt32.ofNat distances.length).toNat = distances.length :=
      UInt32.toNat_ofNat_of_lt' hlength
    have hensure := Cursor.ensure_eq_ok_of_consumes hrest
    rw [Word.length_flatMap_toBytes] at hensure
    have hentries : Cursor.readMany Int32 distances.length #[] entries =
        .ok (distances.toArray, next) :=
      (Cursor.readMany_eq_ok_iff_consumes hfirst.position_le).mpr
        ⟨distances, rfl, rfl, hrest⟩
    rw [Cursor.read_eq_ok_iff_consumes.mpr hfirst]
    simp only [hcount]
    change Cursor.ensure (4 * distances.length) entries = .ok ((), entries) at hensure
    simp only [hensure, hentries]

theorem read_eq_ok_iff {opcode : Opcode} (hposition : cursor.position ≤ cursor.buffer.size) :
    read opcode cursor = .ok (payload, next) <->
      payload.Suits opcode ∧ payload.Fits ∧ cursor.Consumes payload.bytes next := by
  unfold read Suits
  cases opcode.format with
  | none =>
      simp only [Except.ok.injEq, Prod.mk.injEq]
      constructor
      · intro h
        rcases h with ⟨rfl, rfl⟩
        exact ⟨rfl, trivial, Cursor.Consumes.nil hposition⟩
      · intro h
        rcases h with ⟨rfl, -, hconsumes⟩
        exact ⟨rfl, hconsumes.eq_of_nil.symm⟩
  | shortInt =>
      rw [Opcode.loadsSignedByte_eq]
      by_cases hvalue : opcode.value = 0x1F
      · simp only [hvalue, decide_true, if_true]
        exact readWord_eq_ok_iff (fun _ => rfl) (fun _ => trivial)
      · simp only [hvalue, decide_false, if_false, Bool.false_eq_true]
        exact readWord_eq_ok_iff (fun _ => rfl) (fun _ => trivial)
  | switch => exact readSwitch_eq_ok_iff
  | string | signature => exact readToken_eq_ok_iff (fun _ => rfl) (fun _ => trivial)
  | type | method | field | member =>
      exact readToken_eq_ok_iff (fun _ => rfl) (fun _ => trivial)
  | phi =>
      constructor
      · intro h
        cases h
      · intro h
        exact h.1.elim
  | _ => exact readWord_eq_ok_iff (fun _ => rfl) (fun _ => trivial)

end Payload

/-!
# Reading a segment
-/

theorem Word.toBytes_uint8 (byte : UInt8) : Word.toBytes byte = [byte] := by
  have hbyte : UInt8.ofNat byte.toNat = byte := UInt8.ofNat_toNat
  exact congrArg (fun first => [first]) hbyte

theorem OpcodeCode.read_eq_ok_iff {cursor next : Cursor} {code : OpcodeCode} :
    read cursor = .ok (code, next) <->
      code ≠ .oneByte extensionByte ∧ cursor.Consumes code.bytes next := by
  unfold read
  constructor
  · intro h
    split at h
    · cases h
    · next first middle hfirst =>
        have hconsumes := Cursor.read_eq_ok_iff_consumes.mp hfirst
        rw [Word.toBytes_uint8] at hconsumes
        split at h
        · next hextension =>
            split at h
            · cases h
            · next second last hsecond =>
                cases h
                have hlast := Cursor.read_eq_ok_iff_consumes.mp hsecond
                rw [Word.toBytes_uint8] at hlast
                rw [hextension] at hconsumes
                refine ⟨?_, hconsumes.append hlast⟩
                intro hcode
                cases hcode
        · next hother =>
            cases h
            refine ⟨?_, hconsumes⟩
            intro hcode
            exact hother (OpcodeCode.oneByte.inj hcode)
  · intro h
    rcases h with ⟨hcode, hconsumes⟩
    cases code with
    | oneByte byte =>
        have hother : byte ≠ extensionByte := by
          intro hbyte
          exact hcode (congrArg OpcodeCode.oneByte hbyte)
        rw [bytes, ← Word.toBytes_uint8] at hconsumes
        rw [Cursor.read_eq_ok_iff_consumes.mpr hconsumes]
        simp only [if_neg hother]
    | twoByte byte =>
        have hsplit : (OpcodeCode.twoByte byte).bytes =
            Word.toBytes extensionByte ++ Word.toBytes byte := by
          rw [Word.toBytes_uint8, Word.toBytes_uint8]
          rfl
        rw [hsplit] at hconsumes
        rcases Cursor.consumes_append_iff.mp hconsumes with ⟨middle, hfirst, hsecond⟩
        rw [Cursor.read_eq_ok_iff_consumes.mpr hfirst]
        simp only [if_true, Cursor.read_eq_ok_iff_consumes.mpr hsecond]

namespace Segment

variable {catalog : Catalog} {cursor next : Cursor} {segment : Segment}

theorem read_eq_ok_iff (hcatalog : catalog.Coherent) :
    read catalog cursor = .ok (segment, next) <->
      exists statement : Statement,
        statement.Legal catalog ∧ cursor.Consumes statement.bytes next ∧
          segment = statement.placed cursor.position := by
  unfold read
  constructor
  · intro h
    split at h
    · cases h
    · next code middle hcode =>
        rcases OpcodeCode.read_eq_ok_iff.mp hcode with ⟨-, hfirst⟩
        split at h
        · cases h
        · next opcode hlookup =>
            split at h
            · cases h
            · next payload last hpayload =>
                cases h
                rcases (Payload.read_eq_ok_iff hfirst.position_le).mp hpayload with
                  ⟨hsuits, hfits, hrest⟩
                rw [← Opcode.bytes_of_code? (hcatalog code opcode hlookup)] at hfirst
                have hconsumes := hfirst.append hrest
                refine ⟨⟨opcode, payload⟩, ⟨⟨code, hlookup⟩, hsuits, hfits⟩, hconsumes, ?_⟩
                rw [hconsumes.position_eq]
                rfl
  · intro h
    rcases h with ⟨statement, ⟨⟨code, hlookup⟩, hsuits, hfits⟩, hconsumes, rfl⟩
    have hcode := hcatalog code statement.opcode hlookup
    have hread := hcatalog.ne_extensionByte hlookup
    have hposition := hconsumes.position_eq
    rcases Cursor.consumes_append_iff.mp hconsumes with ⟨middle, hfirst, hrest⟩
    rw [Opcode.bytes_of_code? hcode] at hfirst
    rw [OpcodeCode.read_eq_ok_iff.mpr ⟨hread, hfirst⟩]
    simp only [hlookup, hposition,
      (Payload.read_eq_ok_iff hfirst.position_le).mpr ⟨hsuits, hfits, hrest⟩]
    rfl

end Segment

end CilDisasm
