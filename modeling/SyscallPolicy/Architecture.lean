/-! Processor architectures, with the names that policies use for them. -/
namespace SyscallPolicy

inductive Architecture where
  | x86
  | x86_64
  | x32
  | arm
  | aarch64
  | mips
  | mips64
  | mips64n32
  | mipsel
  | mipsel64
  | mipsel64n32
  | ppc
  | ppc64
  | ppc64le
  | s390
  | s390x
  | riscv64
  deriving DecidableEq, Repr

namespace Architecture

def all : List Architecture :=
  [x86, x86_64, x32, arm, aarch64, mips, mips64, mips64n32, mipsel, mipsel64, mipsel64n32,
    ppc, ppc64, ppc64le, s390, s390x, riscv64]

def native : Architecture := x86_64

def shortName : Architecture → String
  | x86 => "x86"
  | x86_64 => "amd64"
  | x32 => "x32"
  | arm => "arm"
  | aarch64 => "arm64"
  | mips => "mips"
  | mips64 => "mips64"
  | mips64n32 => "mips64n32"
  | mipsel => "mipsel"
  | mipsel64 => "mipsel64"
  | mipsel64n32 => "mipsel64n32"
  | ppc => "ppc"
  | ppc64 => "ppc64"
  | ppc64le => "ppc64le"
  | s390 => "s390"
  | s390x => "s390x"
  | riscv64 => "riscv64"

/-- The name that a policy document and the reports use. -/
def name : Architecture → String
  | x86 => "SCMP_ARCH_X86"
  | x86_64 => "SCMP_ARCH_X86_64"
  | x32 => "SCMP_ARCH_X32"
  | arm => "SCMP_ARCH_ARM"
  | aarch64 => "SCMP_ARCH_AARCH64"
  | mips => "SCMP_ARCH_MIPS"
  | mips64 => "SCMP_ARCH_MIPS64"
  | mips64n32 => "SCMP_ARCH_MIPS64N32"
  | mipsel => "SCMP_ARCH_MIPSEL"
  | mipsel64 => "SCMP_ARCH_MIPSEL64"
  | mipsel64n32 => "SCMP_ARCH_MIPSEL64N32"
  | ppc => "SCMP_ARCH_PPC"
  | ppc64 => "SCMP_ARCH_PPC64"
  | ppc64le => "SCMP_ARCH_PPC64LE"
  | s390 => "SCMP_ARCH_S390"
  | s390x => "SCMP_ARCH_S390X"
  | riscv64 => "SCMP_ARCH_RISCV64"

/-- Two architectures have a third name. -/
def alias? : String → Option Architecture
  | "x86_64" => some x86_64
  | "aarch64" => some aarch64
  | _ => none

def ofName? (text : String) : Option Architecture :=
  (alias? text).or (all.find? fun a => a.name = text ∨ a.shortName = text)

/-- The name of the target of code generation, for the architectures that have one. -/
def target? : Architecture → Option String
  | x86_64 => some "x86_64"
  | aarch64 => some "aarch64"
  | riscv64 => some "riscv64"
  | _ => none

def le (a b : Architecture) : Bool := all.idxOf a ≤ all.idxOf b

end Architecture

end SyscallPolicy
