import SyscallPolicy.Json.Fault
import SyscallPolicy.Text.Symbol
/-! Readers of JSON text, and the parts that every reader needs. -/
namespace SyscallPolicy.Json
open Text (Symbol)

/-- Reads a value off the front of a text, and hands on what follows it. -/
abbrev Reader (α : Type) := List Symbol → Except Fault (α × List Symbol)

def isBlank : Symbol → Bool
  | .char ' ' | .char '\n' | .char '\t' | .char '\r' => true
  | _ => false

def skipBlanks (s : List Symbol) : List Symbol := s.dropWhile isBlank

/-- Reads the letters `word`, the rest of a name whose first letter is known. -/
def readWord : (word : List Char) → Reader Unit
  | [], s => .ok ((), s)
  | _ :: _, [] => .error .endInValue
  | c :: word, a :: s => if a = .char c then readWord word s else .error .expectedWord

def readColon : Reader Unit := fun s =>
  match skipBlanks s with
  | [] => .error .endInObject
  | a :: rest => if a = .char ':' then .ok ((), rest) else .error .expectedColon

/-- Reads a whole document: one value, and nothing but blanks after it. -/
def Reader.document {α : Type} (reader : Reader α) (s : List Symbol) : Except Fault α :=
  match reader s with
  | .error e => .error e
  | .ok (value, rest) =>
    if (skipBlanks rest).isEmpty then .ok value else .error .trailingCharacters

end SyscallPolicy.Json
