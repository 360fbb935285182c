import SyscallPolicy.Filter
import SyscallPolicy.Json.Tree
import SyscallPolicy.SyscallTable
/-! Reports on filters and the lengths of their programs. -/
namespace SyscallPolicy.Filter

def label (number : Int) : String :=
  match SyscallTable.name? number with
  | some name => name ++ " (" ++ toString number ++ ")"
  | none => toString number

def column (text : String) : String := text.pushn ' ' (24 - text.length)

def ruleLine (rule : Rule) : String :=
  "  " ++ column (label rule.number) ++ " -> " ++ rule.verdict.text ++
    (if rule.isConditional then
      " if " ++ " && ".intercalate (rule.conditions.map Condition.text)
    else "") ++ "\n"

/-- The report as text, without a line break at its end. -/
def report (filter : Filter) (lengths : List Nat) : String :=
  "default action: " ++ filter.verdict.text ++ "\n" ++
  "architectures:  " ++ ", ".intercalate (filter.architectures.map Architecture.name) ++ "\n" ++
  "rules:          " ++ toString filter.rules.length ++ "\n" ++
  String.join (filter.rules.map ruleLine) ++
  "bpf programs:   " ++ toString lengths.length ++ " (" ++
    toString (lengths.foldl (· + ·) 0) ++ " instructions)"

def ruleTree (rule : Rule) : Json.Tree :=
  .object [
    ("action", .string rule.verdict.text),
    ("conditions", .list (rule.conditions.map fun c => .string c.text)),
    ("name", (SyscallTable.name? rule.number).elim .null .string),
    ("syscall", .integer rule.number)]

/-- The report as JSON, the names in alphabetical order. -/
def reportTree (filter : Filter) (lengths : List Nat) : Json.Tree :=
  .object [
    ("architectures", .list (filter.architectures.map fun a => .string a.name)),
    ("bpfInstructions", .list (lengths.map fun (n : Nat) => .integer n)),
    ("defaultAction", .string filter.verdict.text),
    ("noNewPrivs", .boolean filter.noNewPrivs),
    ("rules", .list (filter.rules.map ruleTree))]

end SyscallPolicy.Filter
