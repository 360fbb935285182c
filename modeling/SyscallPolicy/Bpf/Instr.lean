/-! Classic BPF programs over system calls, as the kernel runs them on filters. -/
namespace SyscallPolicy.Bpf

structure Call where
  number : UInt32
  architecture : UInt32
  instructionPointer : UInt64 := 0
  args : Fin 6 → UInt64

def low (word : UInt64) : UInt32 := word.toUInt32

def high (word : UInt64) : UInt32 := (word >>> 32).toUInt32

namespace Call

def nativeArchitecture : UInt32 := 0xc000003e

/-- The 32 bits at an offset in the 64 bytes that describe a call. Each long word has its low half
first. -/
def word? (call : Call) (offset : Nat) : Option UInt32 :=
  match offset with
  | 0 => some call.number
  | 4 => some call.architecture
  | 8 => some (low call.instructionPointer)
  | 12 => some (high call.instructionPointer)
  | _ =>
    if h : 16 ≤ offset ∧ offset < 64 then
      let arg := call.args ⟨(offset - 16) / 8, by omega⟩
      if offset % 8 = 0 then some (low arg) else if offset % 8 = 4 then some (high arg) else none
    else none

end Call

/-- How a branch compares the accumulator with a constant, both unsigned. -/
inductive Test where
  | eq
  | gt
  | ge
  deriving DecidableEq, Repr

def Test.holds (a constant : UInt32) : Test → Bool
  | eq => a = constant
  | gt => constant < a
  | ge => constant ≤ a

/-- An instruction. Jumps only go forward and say how many instructions they leave out. -/
inductive Instr where
  | load (offset : Nat)
  | mask (bits : UInt32)
  | jump (skip : Nat)
  | branch (test : Test) (constant : UInt32) (yes no : Nat)
  | ret (value : UInt32)
  deriving DecidableEq, Repr

abbrev Program := List Instr

/-- The four numbers of an instruction: operation, the two offsets of a branch, and the operand. -/
def Instr.encode : Instr → Nat × Nat × Nat × Nat
  | load offset => (32, 0, 0, offset)
  | mask bits => (84, 0, 0, bits.toNat)
  | jump skip => (5, 0, 0, skip)
  | branch .eq constant yes no => (21, yes, no, constant.toNat)
  | branch .gt constant yes no => (37, yes, no, constant.toNat)
  | branch .ge constant yes no => (53, yes, no, constant.toNat)
  | ret value => (6, 0, 0, value.toNat)

namespace Program

/-- Runs a program with the accumulator `a`, after jumping over `skip` instructions. There is no
answer when it loads from outside the call or runs off its end. -/
def runFrom (call : Call) : (skip : Nat) → (a : UInt32) → Program → Option UInt32
  | _, _, [] => none
  | skip + 1, a, _ :: rest => runFrom call skip a rest
  | 0, _, .load offset :: rest => (call.word? offset).bind fun a => runFrom call 0 a rest
  | 0, a, .mask bits :: rest => runFrom call 0 (a &&& bits) rest
  | 0, a, .jump skip :: rest => runFrom call skip a rest
  | 0, a, .branch test constant yes no :: rest =>
    runFrom call (if test.holds a constant then yes else no) a rest
  | 0, _, .ret value :: _ => some value

def run (program : Program) (call : Call) : Option UInt32 := runFrom call 0 0 program

end Program

/-- Whether an instruction with `after` others behind it stays inside the program and the call. -/
def Instr.fits (after : Nat) : Instr → Bool
  | load offset => offset % 4 = 0 ∧ offset < 64
  | mask _ | ret _ => true
  | jump skip => skip < after
  | branch _ _ yes no => yes < 256 ∧ no < 256 ∧ yes < after ∧ no < after

namespace Program

def fits : Program → Bool
  | [] => true
  | instr :: rest => instr.fits rest.length && fits rest

def endsInReturn (program : Program) : Bool :=
  match program.getLast? with
  | some (.ret _) => true
  | _ => false

def maxLength : Nat := 4096

/-- Whether the kernel takes a program for a filter. -/
def isAcceptable (program : Program) : Bool :=
  program.length ≤ maxLength ∧ program.fits ∧ program.endsInReturn

end Program

/-- How many of the kernel's own instructions an instruction becomes. A constant with its top bit
set takes one more, and so does a branch whose ways out both jump. -/
def Instr.kernelSize : Instr → Nat
  | load _ | mask _ | jump _ => 1
  | branch _ constant yes no =>
    1 + (if 0x80000000 ≤ constant then 1 else 0) + (if yes ≠ 0 ∧ no ≠ 0 then 1 else 0)
  | ret _ => 2

/-- How many of the kernel's own instructions a program becomes, three of them in front of it. -/
def Program.kernelSize : Program → Nat
  | [] => 3
  | instr :: rest => instr.kernelSize + kernelSize rest

end SyscallPolicy.Bpf
