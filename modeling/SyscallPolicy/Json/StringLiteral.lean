import SyscallPolicy.Json.Reader
/-! JSON strings: the escapes in them, and where they end. -/
namespace SyscallPolicy.Json
open Text (Symbol)

namespace StringLiteral

def hexDigit? (c : Char) : Option Nat :=
  if '0' ≤ c ∧ c ≤ '9' then some (c.toNat - '0'.toNat)
  else if 'a' ≤ c ∧ c ≤ 'f' then some (c.toNat - 'a'.toNat + 10)
  else if 'A' ≤ c ∧ c ≤ 'F' then some (c.toNat - 'A'.toNat + 10)
  else none

def hexNumber? : List Symbol → Option Nat
  | .char a :: .char b :: .char c :: .char d :: _ => do
    return (((← hexDigit? a) * 16 + (← hexDigit? b)) * 16 + (← hexDigit? c)) * 16 + (← hexDigit? d)
  | _ => none

/-- The four digits of an escaped number. A text with fewer than four bytes ends too early, whatever
they are. -/
def readHex (s : List Symbol) : Except Fault Nat :=
  match hexNumber? s with
  | some n => .ok n
  | none => .error (if s.foldl (fun n a => n + a.size) 0 < 4 then .endInString else .invalidEscape)

def shortEscape? : Char → Option Char
  | '\x22' => some '\x22'
  | '\\' => some '\\'
  | '/' => some '/'
  | 'b' => some '\x08'
  | 'f' => some '\x0c'
  | 'n' => some '\n'
  | 'r' => some '\r'
  | 't' => some '\t'
  | _ => none

def isHighSurrogate (n : Nat) : Bool := 0xd800 ≤ n ∧ n ≤ 0xdbff

def isLowSurrogate (n : Nat) : Bool := 0xdc00 ≤ n ∧ n ≤ 0xdfff

/-- The second half of a surrogate pair, after the digits of the first. -/
def readLowSurrogate (high : Nat) : List Symbol → Except Fault Char
  | [] | [.char '\\'] => .error .endInString
  | .char '\\' :: .char 'u' :: s => do
    let low ← readHex s
    if isLowSurrogate low then
      .ok (.ofNat (0x10000 + (high - 0xd800) * 0x400 + (low - 0xdc00)))
    else .error .loneSurrogate
  | _ => .error .missingSurrogate

/-- The character of an escape, and how many symbols after the backslash it takes. -/
def readEscape : List Symbol → Except Fault (Char × Nat)
  | [] => .error .endInString
  | .char 'u' :: s => do
    let n ← readHex s
    if isLowSurrogate n then .error .loneSurrogate
    else if isHighSurrogate n then return (← readLowSurrogate n (s.drop 4), 11)
    else return (.ofNat n, 5)
  | .char c :: _ =>
    match shortEscape? c with
    | some e => .ok (e, 1)
    | none => .error .invalidEscape
  | .stray _ :: _ => .error .invalidEscape

/-- The number of symbols after the backslash that an escape takes, any four digits allowed. -/
def measureEscape : List Symbol → Except Fault Nat
  | [] => .error .endInString
  | .char 'u' :: s => do
    let _ ← readHex s
    return 5
  | .char c :: _ => if (shortEscape? c).isSome then .ok 1 else .error .invalidEscape
  | .stray _ :: _ => .error .invalidEscape

/-- Drops the first `taken` symbols, which belong to an escape already read, and collects the
symbols that the rest of a string stands for in front of those in `done`. -/
def readSymbols : (taken : Nat) → (done : List Symbol) → Reader (List Symbol)
  | _, _, [] => .error .endInString
  | taken + 1, done, _ :: s => readSymbols taken done s
  | 0, done, .stray b :: s => readSymbols 0 (.stray b :: done) s
  | 0, done, .char c :: s =>
    if c = '\x22' then .ok (done.reverse, s)
    else if c = '\\' then
      match readEscape s with
      | .error e => .error e
      | .ok (e, taken) => readSymbols taken (.char e :: done) s
    else if c.toNat < 0x20 then .error .controlCharacter
    else readSymbols 0 (.char c :: done) s

def read : Reader String := fun s => do
  let (symbols, rest) ← readSymbols 0 [] s
  match Symbol.text? symbols with
  | some text => .ok (text, rest)
  | none => .error .invalidCodePoint

/-- The number of symbols up to and with the closing quote of a string, of which `taken` belong to
an escape already measured; `n` symbols lie before them. -/
def measureFrom : (n taken : Nat) → List Symbol → Except Fault Nat
  | _, _, [] => .error .endInString
  | n, taken + 1, _ :: s => measureFrom (n + 1) taken s
  | n, 0, .stray _ :: s => measureFrom (n + 1) 0 s
  | n, 0, .char c :: s =>
    if c = '\x22' then .ok (n + 1)
    else if c = '\\' then
      match measureEscape s with
      | .error e => .error e
      | .ok taken => measureFrom (n + 1) taken s
    else if c.toNat < 0x20 then .error .controlCharacter
    else measureFrom (n + 1) 0 s

/-- Measures a string without reading it: the characters that it stands for need not exist. -/
def measure : List Symbol → Except Fault Nat := measureFrom 0 0

/-- How a string shows a character. Only quotes, backslashes and controls are escaped. -/
def escaped (c : Char) : List Char :=
  match c with
  | '\x22' => ['\\', '\x22']
  | '\\' => ['\\', '\\']
  | '\x08' => ['\\', 'b']
  | '\t' => ['\\', 't']
  | '\n' => ['\\', 'n']
  | '\x0c' => ['\\', 'f']
  | '\r' => ['\\', 'r']
  | _ =>
    if c.toNat < 0x20 then ['\\', 'u', '0', '0', (c.toNat / 16).digitChar, (c.toNat % 16).digitChar]
    else [c]

def write (text : String) : List Char :=
  '\x22' :: text.toList.flatMap escaped ++ ['\x22']

end StringLiteral

end SyscallPolicy.Json
