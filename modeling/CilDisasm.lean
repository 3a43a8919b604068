import CilDisasm.Main
import CilDisasm.OpcodeTable.Expansion
import CilDisasm.Proofs.Bytes.Consumption
import CilDisasm.Proofs.Decoding.Statement
import CilDisasm.Proofs.Program.Returns
import CilDisasm.Proofs.Decoding.Partition
import CilDisasm.Proofs.Listing.Construction
import CilDisasm.Proofs.Listing.Offsets
import CilDisasm.Proofs.Decoding.Denotation
import CilDisasm.Proofs.Decoding.Transcription
import CilDisasm.Proofs.Decoding.Layout
import CilDisasm.Proofs.Decoding.Branches
import CilDisasm.Proofs.Decoding.Grammar
import CilDisasm.Proofs.Decoding.RoundTrip
import CilDisasm.Proofs.Decoding.Reassembly
import CilDisasm.Proofs.Bytes.Relocation
import CilDisasm.Proofs.Decoding.Relocation
import CilDisasm.Proofs.Decoding.Concatenation
import CilDisasm.Proofs.Listing.Reading
import CilDisasm.Proofs.Opcode.Names
import CilDisasm.Proofs.Decoding.Legibility
import CilDisasm.Proofs.Cache.Soundness
import CilDisasm.Proofs.Program.Pool
import CilDisasm.Proofs.Program.Termination
import CilDisasm.Proofs.Dialogue.Transparency
import CilDisasm.Proofs.Cache.Recency
import CilDisasm.Proofs.Decoding.Extension
import CilDisasm.Proofs.Bytes.Overrun
import CilDisasm.Proofs.Decoding.Fault
import CilDisasm.Proofs.Decoding.Failure
import CilDisasm.Proofs.Opcode.Building
import CilDisasm.Proofs.OpcodeTable.Encoding
import CilDisasm.Proofs.Decoding.Truncation
import CilDisasm.Proofs.Opcode.Refusal
import CilDisasm.Proofs.Metadata.Substitution
import CilDisasm.Proofs.Decoding.Variation
import CilDisasm.Proofs.Listing.Resolution
import CilDisasm.Proofs.Decoding.Consultation
import CilDisasm.Proofs.Machine.Sizes
import CilDisasm.Proofs.OpcodeTable.Acceptance
import CilDisasm.Proofs.Machine.History
import CilDisasm.Proofs.Decoding.Comparison
import CilDisasm.Proofs.OpcodeTable.Grammar
import CilDisasm.Proofs.Listing.Lookup
import CilDisasm.Proofs.Decoding.Chain
import CilDisasm.Proofs.Listing.Settlement
import CilDisasm.Proofs.Decoding.Log
import CilDisasm.Proofs.Listing.Lines
import CilDisasm.Proofs.Decoding.Lines
import CilDisasm.Proofs.Assembler.ReadBack
