import CilDisasm.Opcode.Basic

/-!
# The standard instruction set

All opcodes that the standard defines, in ascending order of value, the internal ones
included. The opcodes that other modules refer to have names of their own.
-/

namespace CilDisasm
namespace Opcode

def nop : Opcode :=
  ofValue "nop" 0x00 .none .primitive

def ldarg0 : Opcode :=
  ofValue "ldarg.0" 0x02 .none .shorthand

def ldloc0 : Opcode :=
  ofValue "ldloc.0" 0x06 .none .shorthand

def stloc0 : Opcode :=
  ofValue "stloc.0" 0x0A .none .shorthand

def ldlocS : Opcode :=
  ofValue "ldloc.s" 0x11 .shortLocalSlot .shorthand

def ldcI4Zero : Opcode :=
  ofValue "ldc.i4.0" 0x16 .none .shorthand

def ldcI4One : Opcode :=
  ofValue "ldc.i4.1" 0x17 .none .shorthand

def ldcI4S : Opcode :=
  ofValue "ldc.i4.s" 0x1F .shortInt .shorthand

def call : Opcode :=
  ofValue "call" 0x28 .method .primitive

def ret : Opcode :=
  ofValue "ret" 0x2A .none .primitive

def brS : Opcode :=
  ofValue "br.s" 0x2B .shortBranch .shorthand

def bltS : Opcode :=
  ofValue "blt.s" 0x32 .shortBranch .shorthand

def switch : Opcode :=
  ofValue "switch" 0x45 .switch .primitive

def add : Opcode :=
  ofValue "add" 0x58 .none .primitive

def ldstr : Opcode :=
  ofValue "ldstr" 0x72 .string .objectModel

def standardSet : List Opcode :=
  [ nop,
    ofValue "break" 0x01 .none .primitive,
    ldarg0,
    ofValue "ldarg.1" 0x03 .none .shorthand,
    ofValue "ldarg.2" 0x04 .none .shorthand,
    ofValue "ldarg.3" 0x05 .none .shorthand,
    ldloc0,
    ofValue "ldloc.1" 0x07 .none .shorthand,
    ofValue "ldloc.2" 0x08 .none .shorthand,
    ofValue "ldloc.3" 0x09 .none .shorthand,
    stloc0,
    ofValue "stloc.1" 0x0B .none .shorthand,
    ofValue "stloc.2" 0x0C .none .shorthand,
    ofValue "stloc.3" 0x0D .none .shorthand,
    ofValue "ldarg.s" 0x0E .shortArgumentSlot .shorthand,
    ofValue "ldarga.s" 0x0F .shortArgumentSlot .shorthand,
    ofValue "starg.s" 0x10 .shortArgumentSlot .shorthand,
    ldlocS,
    ofValue "ldloca.s" 0x12 .shortLocalSlot .shorthand,
    ofValue "stloc.s" 0x13 .shortLocalSlot .shorthand,
    ofValue "ldnull" 0x14 .none .primitive,
    ofValue "ldc.i4.m1" 0x15 .none .shorthand,
    ldcI4Zero,
    ldcI4One,
    ofValue "ldc.i4.2" 0x18 .none .shorthand,
    ofValue "ldc.i4.3" 0x19 .none .shorthand,
    ofValue "ldc.i4.4" 0x1A .none .shorthand,
    ofValue "ldc.i4.5" 0x1B .none .shorthand,
    ofValue "ldc.i4.6" 0x1C .none .shorthand,
    ofValue "ldc.i4.7" 0x1D .none .shorthand,
    ofValue "ldc.i4.8" 0x1E .none .shorthand,
    ldcI4S,
    ofValue "ldc.i4" 0x20 .int .primitive,
    ofValue "ldc.i8" 0x21 .long .primitive,
    ofValue "ldc.r4" 0x22 .shortFloat .primitive,
    ofValue "ldc.r8" 0x23 .float .primitive,
    ofValue "dup" 0x25 .none .primitive,
    ofValue "pop" 0x26 .none .primitive,
    ofValue "jmp" 0x27 .method .primitive,
    call,
    ofValue "calli" 0x29 .signature .primitive,
    ret,
    brS,
    ofValue "brfalse.s" 0x2C .shortBranch .shorthand,
    ofValue "brtrue.s" 0x2D .shortBranch .shorthand,
    ofValue "beq.s" 0x2E .shortBranch .shorthand,
    ofValue "bge.s" 0x2F .shortBranch .shorthand,
    ofValue "bgt.s" 0x30 .shortBranch .shorthand,
    ofValue "ble.s" 0x31 .shortBranch .shorthand,
    bltS,
    ofValue "bne.un.s" 0x33 .shortBranch .shorthand,
    ofValue "bge.un.s" 0x34 .shortBranch .shorthand,
    ofValue "bgt.un.s" 0x35 .shortBranch .shorthand,
    ofValue "ble.un.s" 0x36 .shortBranch .shorthand,
    ofValue "blt.un.s" 0x37 .shortBranch .shorthand,
    ofValue "br" 0x38 .branch .primitive,
    ofValue "brfalse" 0x39 .branch .primitive,
    ofValue "brtrue" 0x3A .branch .primitive,
    ofValue "beq" 0x3B .branch .shorthand,
    ofValue "bge" 0x3C .branch .shorthand,
    ofValue "bgt" 0x3D .branch .shorthand,
    ofValue "ble" 0x3E .branch .shorthand,
    ofValue "blt" 0x3F .branch .shorthand,
    ofValue "bne.un" 0x40 .branch .shorthand,
    ofValue "bge.un" 0x41 .branch .shorthand,
    ofValue "bgt.un" 0x42 .branch .shorthand,
    ofValue "ble.un" 0x43 .branch .shorthand,
    ofValue "blt.un" 0x44 .branch .shorthand,
    switch,
    ofValue "ldind.i1" 0x46 .none .primitive,
    ofValue "ldind.u1" 0x47 .none .primitive,
    ofValue "ldind.i2" 0x48 .none .primitive,
    ofValue "ldind.u2" 0x49 .none .primitive,
    ofValue "ldind.i4" 0x4A .none .primitive,
    ofValue "ldind.u4" 0x4B .none .primitive,
    ofValue "ldind.i8" 0x4C .none .primitive,
    ofValue "ldind.i" 0x4D .none .primitive,
    ofValue "ldind.r4" 0x4E .none .primitive,
    ofValue "ldind.r8" 0x4F .none .primitive,
    ofValue "ldind.ref" 0x50 .none .primitive,
    ofValue "stind.ref" 0x51 .none .primitive,
    ofValue "stind.i1" 0x52 .none .primitive,
    ofValue "stind.i2" 0x53 .none .primitive,
    ofValue "stind.i4" 0x54 .none .primitive,
    ofValue "stind.i8" 0x55 .none .primitive,
    ofValue "stind.r4" 0x56 .none .primitive,
    ofValue "stind.r8" 0x57 .none .primitive,
    add,
    ofValue "sub" 0x59 .none .primitive,
    ofValue "mul" 0x5A .none .primitive,
    ofValue "div" 0x5B .none .primitive,
    ofValue "div.un" 0x5C .none .primitive,
    ofValue "rem" 0x5D .none .primitive,
    ofValue "rem.un" 0x5E .none .primitive,
    ofValue "and" 0x5F .none .primitive,
    ofValue "or" 0x60 .none .primitive,
    ofValue "xor" 0x61 .none .primitive,
    ofValue "shl" 0x62 .none .primitive,
    ofValue "shr" 0x63 .none .primitive,
    ofValue "shr.un" 0x64 .none .primitive,
    ofValue "neg" 0x65 .none .primitive,
    ofValue "not" 0x66 .none .primitive,
    ofValue "conv.i1" 0x67 .none .primitive,
    ofValue "conv.i2" 0x68 .none .primitive,
    ofValue "conv.i4" 0x69 .none .primitive,
    ofValue "conv.i8" 0x6A .none .primitive,
    ofValue "conv.r4" 0x6B .none .primitive,
    ofValue "conv.r8" 0x6C .none .primitive,
    ofValue "conv.u4" 0x6D .none .primitive,
    ofValue "conv.u8" 0x6E .none .primitive,
    ofValue "callvirt" 0x6F .method .objectModel,
    ofValue "cpobj" 0x70 .type .objectModel,
    ofValue "ldobj" 0x71 .type .objectModel,
    ldstr,
    ofValue "newobj" 0x73 .method .objectModel,
    ofValue "castclass" 0x74 .type .objectModel,
    ofValue "isinst" 0x75 .type .objectModel,
    ofValue "conv.r.un" 0x76 .none .primitive,
    ofValue "unbox" 0x79 .type .primitive,
    ofValue "throw" 0x7A .none .objectModel,
    ofValue "ldfld" 0x7B .field .objectModel,
    ofValue "ldflda" 0x7C .field .objectModel,
    ofValue "stfld" 0x7D .field .objectModel,
    ofValue "ldsfld" 0x7E .field .objectModel,
    ofValue "ldsflda" 0x7F .field .objectModel,
    ofValue "stsfld" 0x80 .field .objectModel,
    ofValue "stobj" 0x81 .type .primitive,
    ofValue "conv.ovf.i1.un" 0x82 .none .primitive,
    ofValue "conv.ovf.i2.un" 0x83 .none .primitive,
    ofValue "conv.ovf.i4.un" 0x84 .none .primitive,
    ofValue "conv.ovf.i8.un" 0x85 .none .primitive,
    ofValue "conv.ovf.u1.un" 0x86 .none .primitive,
    ofValue "conv.ovf.u2.un" 0x87 .none .primitive,
    ofValue "conv.ovf.u4.un" 0x88 .none .primitive,
    ofValue "conv.ovf.u8.un" 0x89 .none .primitive,
    ofValue "conv.ovf.i.un" 0x8A .none .primitive,
    ofValue "conv.ovf.u.un" 0x8B .none .primitive,
    ofValue "box" 0x8C .type .primitive,
    ofValue "newarr" 0x8D .type .objectModel,
    ofValue "ldlen" 0x8E .none .objectModel,
    ofValue "ldelema" 0x8F .type .objectModel,
    ofValue "ldelem.i1" 0x90 .none .objectModel,
    ofValue "ldelem.u1" 0x91 .none .objectModel,
    ofValue "ldelem.i2" 0x92 .none .objectModel,
    ofValue "ldelem.u2" 0x93 .none .objectModel,
    ofValue "ldelem.i4" 0x94 .none .objectModel,
    ofValue "ldelem.u4" 0x95 .none .objectModel,
    ofValue "ldelem.i8" 0x96 .none .objectModel,
    ofValue "ldelem.i" 0x97 .none .objectModel,
    ofValue "ldelem.r4" 0x98 .none .objectModel,
    ofValue "ldelem.r8" 0x99 .none .objectModel,
    ofValue "ldelem.ref" 0x9A .none .objectModel,
    ofValue "stelem.i" 0x9B .none .objectModel,
    ofValue "stelem.i1" 0x9C .none .objectModel,
    ofValue "stelem.i2" 0x9D .none .objectModel,
    ofValue "stelem.i4" 0x9E .none .objectModel,
    ofValue "stelem.i8" 0x9F .none .objectModel,
    ofValue "stelem.r4" 0xA0 .none .objectModel,
    ofValue "stelem.r8" 0xA1 .none .objectModel,
    ofValue "stelem.ref" 0xA2 .none .objectModel,
    ofValue "ldelem" 0xA3 .type .objectModel,
    ofValue "stelem" 0xA4 .type .objectModel,
    ofValue "unbox.any" 0xA5 .type .objectModel,
    ofValue "conv.ovf.i1" 0xB3 .none .primitive,
    ofValue "conv.ovf.u1" 0xB4 .none .primitive,
    ofValue "conv.ovf.i2" 0xB5 .none .primitive,
    ofValue "conv.ovf.u2" 0xB6 .none .primitive,
    ofValue "conv.ovf.i4" 0xB7 .none .primitive,
    ofValue "conv.ovf.u4" 0xB8 .none .primitive,
    ofValue "conv.ovf.i8" 0xB9 .none .primitive,
    ofValue "conv.ovf.u8" 0xBA .none .primitive,
    ofValue "refanyval" 0xC2 .type .primitive,
    ofValue "ckfinite" 0xC3 .none .primitive,
    ofValue "mkrefany" 0xC6 .type .primitive,
    ofValue "ldtoken" 0xD0 .member .primitive,
    ofValue "conv.u2" 0xD1 .none .primitive,
    ofValue "conv.u1" 0xD2 .none .primitive,
    ofValue "conv.i" 0xD3 .none .primitive,
    ofValue "conv.ovf.i" 0xD4 .none .primitive,
    ofValue "conv.ovf.u" 0xD5 .none .primitive,
    ofValue "add.ovf" 0xD6 .none .primitive,
    ofValue "add.ovf.un" 0xD7 .none .primitive,
    ofValue "mul.ovf" 0xD8 .none .primitive,
    ofValue "mul.ovf.un" 0xD9 .none .primitive,
    ofValue "sub.ovf" 0xDA .none .primitive,
    ofValue "sub.ovf.un" 0xDB .none .primitive,
    ofValue "endfinally" 0xDC .none .primitive,
    ofValue "leave" 0xDD .branch .primitive,
    ofValue "leave.s" 0xDE .shortBranch .primitive,
    ofValue "stind.i" 0xDF .none .primitive,
    ofValue "conv.u" 0xE0 .none .primitive,
    ofValue "prefix7" 0xF8 .none .internal,
    ofValue "prefix6" 0xF9 .none .internal,
    ofValue "prefix5" 0xFA .none .internal,
    ofValue "prefix4" 0xFB .none .internal,
    ofValue "prefix3" 0xFC .none .internal,
    ofValue "prefix2" 0xFD .none .internal,
    ofValue "prefix1" 0xFE .none .internal,
    ofValue "prefixref" 0xFF .none .internal,
    ofValue "arglist" 0xFE00 .none .primitive,
    ofValue "ceq" 0xFE01 .none .primitive,
    ofValue "cgt" 0xFE02 .none .primitive,
    ofValue "cgt.un" 0xFE03 .none .primitive,
    ofValue "clt" 0xFE04 .none .primitive,
    ofValue "clt.un" 0xFE05 .none .primitive,
    ofValue "ldftn" 0xFE06 .method .primitive,
    ofValue "ldvirtftn" 0xFE07 .method .primitive,
    ofValue "ldarg" 0xFE09 .argumentSlot .primitive,
    ofValue "ldarga" 0xFE0A .argumentSlot .primitive,
    ofValue "starg" 0xFE0B .argumentSlot .primitive,
    ofValue "ldloc" 0xFE0C .localSlot .primitive,
    ofValue "ldloca" 0xFE0D .localSlot .primitive,
    ofValue "stloc" 0xFE0E .localSlot .primitive,
    ofValue "localloc" 0xFE0F .none .primitive,
    ofValue "endfilter" 0xFE11 .none .primitive,
    ofValue "unaligned." 0xFE12 .shortInt .modifier,
    ofValue "volatile." 0xFE13 .none .modifier,
    ofValue "tail." 0xFE14 .none .modifier,
    ofValue "initobj" 0xFE15 .type .objectModel,
    ofValue "constrained." 0xFE16 .type .modifier,
    ofValue "cpblk" 0xFE17 .none .primitive,
    ofValue "initblk" 0xFE18 .none .primitive,
    ofValue "no." 0xFE19 .shortInt .modifier,
    ofValue "rethrow" 0xFE1A .none .objectModel,
    ofValue "sizeof" 0xFE1C .type .primitive,
    ofValue "refanytype" 0xFE1D .none .primitive,
    ofValue "readonly." 0xFE1E .none .modifier ]

def named? (name : String) : Option Opcode :=
  standardSet.find? (fun opcode => opcode.name = name)

/-- The opcode whose one-byte integer is signed is told by its value alone. -/
def loadsSignedByte (opcode : Opcode) : Bool :=
  opcode.value = ldcI4S.value

end Opcode

end CilDisasm
