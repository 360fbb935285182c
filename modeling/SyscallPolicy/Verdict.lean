/-! What a filter decides about one system call, and how strict the decisions are. -/
namespace SyscallPolicy

/-- A decision about a system call, the most lenient first. -/
inductive Verdict where
  | allow
  | log
  | trace (code : UInt32)
  | errno (code : UInt32)
  | trap
  | killThread
  | killProcess
  deriving DecidableEq, Repr, Inhabited

namespace Verdict

def text : Verdict → String
  | allow => "allow"
  | log => "log"
  | trace code => "trace(" ++ toString code.toNat ++ ")"
  | errno code => "errno(" ++ toString code.toNat ++ ")"
  | trap => "trap"
  | killThread => "kill_thread"
  | killProcess => "kill_process"

/-- The digits of a code, between a name with its opening parenthesis and the closing one. -/
def codeOf? (name text : String) : Option UInt32 := do
  let rest ← text.dropPrefix? name
  let code ← (rest.toString.takeWhile Char.isDigit).toString.toNat?
  if code < UInt32.size then some code.toUInt32 else none

/-- Reads what `text` writes, and nothing else. -/
def ofText? (t : String) : Option Verdict :=
  let coded := ((codeOf? "errno(" t).map errno).or ((codeOf? "trace(" t).map trace)
  (coded.toList ++ [allow, log, trap, killThread, killProcess]).find? (·.text = t)

/-- The value that a filter program returns for a verdict: the kind of verdict in the upper half,
the lower half of its code in the lower. -/
def word : Verdict → UInt32
  | allow => 0x7fff0000
  | log => 0x7ffc0000
  | trace code => 0x7ff00000 ||| (code &&& 0xffff)
  | errno code => 0x00050000 ||| (code &&& 0xffff)
  | trap => 0x00030000
  | killThread => 0
  | killProcess => 0x80000000

/-- What the kernel makes of a program's return value. It kills the process for a kind of verdict
that it does not know. -/
def ofWord (value : UInt32) : Verdict :=
  let code := value &&& 0xffff
  match value &&& 0xffff0000 with
  | 0x7fff0000 => allow
  | 0x7ffc0000 => log
  | 0x7ff00000 => trace code
  | 0x00050000 => errno code
  | 0x00030000 => trap
  | 0 => killThread
  | _ => killProcess

/-- How strict a verdict is: the greater, the stricter. -/
def rank : Verdict → Nat
  | allow => 0
  | log => 1
  | trace _ => 2
  | errno _ => 3
  | trap => 4
  | killThread => 5
  | killProcess => 6

/-- The strictest of several verdicts, the first of them among equally strict ones. -/
def strictest : List Verdict → Verdict :=
  List.foldl (fun best next => if best.rank < next.rank then next else best) allow

def stops : Verdict → Bool
  | allow | log => false
  | _ => true

end Verdict

end SyscallPolicy
