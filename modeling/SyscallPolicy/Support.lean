import SyscallPolicy.Text.WhiteSpace
/-! What a system says about its support for filters. -/
namespace SyscallPolicy

inductive Mode where
  | disabled
  | strict
  | filter
  deriving DecidableEq, Repr

def Mode.name : Mode → String
  | disabled => "disabled"
  | strict => "strict"
  | filter => "filter"

/-- The mode that the status file of a thread gives, in the line for it. -/
def Mode.ofStatus? (status : String) : Option Mode := do
  let line ← (status.splitOn "\n").find? (·.startsWith "Seccomp:")
  match Text.trim (line.drop "Seccomp:".length).toString with
  | "0" => some disabled
  | "1" => some strict
  | "2" => some filter
  | _ => none

/-- The mode of a thread, none if the system does not tell, and the actions that the kernel
names. -/
structure Support where
  available : Bool
  mode : Option Mode
  actions : List String
  deriving DecidableEq, Repr

namespace Support

/-- A thread whose mode is known, with the actions that the kernel names. -/
def ofMode (mode : Option Mode) (actions : List String) : Support := ⟨mode.isSome, mode, actions⟩

/-- A thread by its status file and the kernel's list of actions, as far as these can be read. -/
def ofFiles (status actions : Option String) : Support :=
  ofMode (status >>= Mode.ofStatus?) (Text.words (actions.getD ""))

def canInstall (support : Support) : Bool :=
  support.mode = some .disabled ∨ support.mode = some .filter

/-- Whether the kernel knows an action. One that names none is taken to know all. -/
def supports (support : Support) (action : String) : Bool :=
  support.actions.isEmpty || support.actions.contains action

def mark (yes : Bool) : String := if yes then "[ok]" else "[--]"

def summaryLines (support : Support) : List String :=
  [mark support.available ++ " Seccomp BPF",
    mark support.canInstall ++ " Filter installation",
    "     Current mode: " ++ (support.mode.map Mode.name).getD "unavailable"] ++
  if support.actions.isEmpty then [] else ["     Actions: " ++ " ".intercalate support.actions]

def summary (support : Support) : String := "\n".intercalate support.summaryLines

def checkMark (yes : Bool) : String := if yes then "[✓]" else "[✗]"

def report (support : Support) : String :=
  "Checking seccomp support...\n\n" ++
  checkMark support.canInstall ++ " Seccomp filter mode " ++
    (if support.canInstall then "available\n" else "NOT available\n") ++
  String.join (["kill_process", "errno", "trap", "trace", "log"].map fun action =>
    checkMark (support.supports action) ++ " Action " ++ action ++ "\n") ++
  "\n" ++ support.summary

end Support

end SyscallPolicy
