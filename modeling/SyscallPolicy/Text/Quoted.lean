import SyscallPolicy.Text.Unprintable
/-! Text in quotes, as error messages show it. -/
namespace SyscallPolicy.Text

def quotedChar (c : Char) : List Char :=
  match c with
  | '\x22' => ['\\', '\x22']
  | '\\' => ['\\', '\\']
  | '\n' => ['\\', 'n']
  | '\t' => ['\\', 't']
  | '\r' => ['\\', 'r']
  | '\x00' => ['\\', '0']
  | _ =>
    if isUnprintable c then
      ['\\', 'u', '\x7b'] ++ Nat.toDigits 16 c.toNat ++ ['\x7d']
    else [c]

/-- A text in quotes. What cannot be printed appears by its number in base sixteen. -/
def quoted (text : String) : String :=
  .ofList ('\x22' :: text.toList.flatMap quotedChar ++ ['\x22'])

end SyscallPolicy.Text
