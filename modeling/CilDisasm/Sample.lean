import CilDisasm.Assembler
import CilDisasm.Disassembly
import CilDisasm.Metadata.Table

/-!
# Sample program

A small program shows the library at work: two methods are assembled and put into a
metadata table together with the symbols they use, and then disassembled one after the
other. A third method is asked for that has no body.
-/

namespace CilDisasm
namespace Sample

def labelToken : Token :=
  ⟨0x70000001⟩

def sleepToken : Token :=
  ⟨0x0A000001⟩

def writeLineToken : Token :=
  ⟨0x0A000002⟩

def timeParameter : Parameter :=
  { position := 0, name := "timeToSleep", typeName := "System.TimeSpan" }

def sleepBody : MethodBody :=
  let code :=
    (Assembler.empty.opcode .nop
      |>.opcode .ldarg0
      |>.opcode .call |>.token sleepToken
      |>.opcode .nop
      |>.opcode .ret).finish.1
  { MethodBody.ofCode code with parameters := [timeParameter] }

/-- A counted loop that prints a label, with a jump table on the counter. -/
def loopBody : MethodBody :=
  let code :=
    (Assembler.empty.opcode .ldcI4Zero
      |>.opcode .stloc0
      |>.opcode .brS |>.word (29 : Int8)
      |>.opcode .ldloc0
      |>.opcode .switch |>.jumpTable [0, 5]
      |>.opcode .ldstr |>.token labelToken
      |>.opcode .call |>.token writeLineToken
      |>.opcode .ldlocS |>.word (0 : UInt8)
      |>.opcode .ldcI4One
      |>.opcode .add
      |>.opcode .stloc0
      |>.opcode .ldloc0
      |>.opcode .ldcI4S |>.word (10 : Int8)
      |>.opcode .bltS |>.word (-34 : Int8)
      |>.opcode .ret).finish.1
  { MethodBody.ofCode code with
    locals := [{ index := 0, typeName := "System.Int32", pinned := false }] }

def metadata : Metadata :=
  Metadata.empty.addString labelToken "Elapsed time: "
    |>.addMember sleepToken
        { kind := .method, name := "System.Threading.Thread::Sleep(System.TimeSpan)" }
    |>.addMember writeLineToken
        { kind := .method, name := "System.Console::WriteLine(System.String)" }
    |>.addMethod "Program::TestSleep" sleepBody
    |>.addMethod "Program::Loop" loopBody

def methods : List String :=
  ["Program::TestSleep", "Program::Loop", "Program::Missing"]

def entry (method : String) : Dialogue String :=
  (MethodSource.disassemble metadata.methodBody? method).bind fun
    | .ok listing =>
        (Dialogue.report (.bytesDecoded listing.byteLength)).bind fun _ =>
          .done s!"\nMethod: {method}\n{listing.text}"
    | .error error =>
        .done s!"\nMethod: {method}\ncannot disassemble: {error.message}\n"

def entries : List String -> Dialogue String
  | [] => .done ""
  | method :: rest =>
      (entry method).bind fun text =>
      (entries rest).bind fun texts =>
        .done (text ++ texts)

def output : Dialogue String :=
  entries methods

end Sample

end CilDisasm
