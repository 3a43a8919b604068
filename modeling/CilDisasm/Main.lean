import CilDisasm.Dialogue.Transcript
import CilDisasm.Sample

/-!
# Command line

Prints the listings of the sample program.
-/

def main : IO Unit :=
  IO.print (CilDisasm.Sample.output.result CilDisasm.Sample.metadata.resolve)
