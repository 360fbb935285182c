import SyscallPolicy.Json.StringLiteral
/-! JSON values laid out over lines. -/
namespace SyscallPolicy.Json

inductive Tree where
  | null
  | boolean (value : Bool)
  | integer (value : Int)
  | string (value : String)
  | list (items : List Tree)
  | object (members : List (String × Tree))

namespace Tree

def newline (depth : Nat) : String := "\n" ++ "".pushn ' ' (2 * depth)

/-- Puts parts on lines of their own between brackets. The brackets of no parts have nothing between
them. -/
def block (opening closing : String) (depth : Nat) (parts : List String) : String :=
  if parts.isEmpty then opening ++ closing
  else
    opening ++ newline (depth + 1) ++ ("," ++ newline (depth + 1)).intercalate parts ++
      newline depth ++ closing

mutual

/-- The text of a value inside `depth` others, each of which indents it by two blanks. -/
def pretty (depth : Nat) : Tree → String
  | null => "null"
  | boolean value => if value then "true" else "false"
  | integer value => toString value
  | string value => .ofList (StringLiteral.write value)
  | list items => block "[" "]" depth (prettyItems depth items)
  | object members => block "\x7b" "\x7d" depth (prettyMembers depth members)

def prettyItems (depth : Nat) : List Tree → List String
  | [] => []
  | item :: items => item.pretty (depth + 1) :: prettyItems depth items

def prettyMembers (depth : Nat) : List (String × Tree) → List String
  | [] => []
  | (name, value) :: members =>
    (.ofList (StringLiteral.write name) ++ ": " ++ value.pretty (depth + 1)) ::
      prettyMembers depth members

end

end Tree

end SyscallPolicy.Json
