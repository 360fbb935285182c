/-! Text as a stream of bytes delivers it: characters, and bytes that belong to no character. -/
namespace SyscallPolicy.Text

inductive Symbol where
  | char (c : Char)
  | stray (byte : UInt8)
  deriving DecidableEq, Repr

namespace Symbol

def size : Symbol → Nat
  | char c => c.utf8Size
  | stray _ => 1

def char? : Symbol → Option Char
  | char c => some c
  | stray _ => none

def continuation? (byte : UInt8) : Option Nat :=
  if 0x80 ≤ byte ∧ byte ≤ 0xbf then some (byte.toNat - 0x80) else none

/-- The character with number `n`, unless fewer bytes would do for it or it does not exist. -/
def scalar? (least n : Nat) : Option Char :=
  if least ≤ n ∧ n.isValidChar then some (Char.ofNat n) else none

/-- The character that begins with the byte `a`, and how many of the bytes after `a` it takes. -/
def leading? (a : UInt8) (rest : List UInt8) : Option (Char × Nat) :=
  if a < 0x80 then some (Char.ofNat a.toNat, 0)
  else if 0xc0 ≤ a ∧ a < 0xe0 then do
    let b ← rest[0]? >>= continuation?
    return (← scalar? 0x80 ((a.toNat - 0xc0) * 64 + b), 1)
  else if 0xe0 ≤ a ∧ a < 0xf0 then do
    let b ← rest[0]? >>= continuation?
    let c ← rest[1]? >>= continuation?
    return (← scalar? 0x800 (((a.toNat - 0xe0) * 64 + b) * 64 + c), 2)
  else if 0xf0 ≤ a ∧ a < 0xf8 then do
    let b ← rest[0]? >>= continuation?
    let c ← rest[1]? >>= continuation?
    let d ← rest[2]? >>= continuation?
    return (← scalar? 0x10000 ((((a.toNat - 0xf0) * 64 + b) * 64 + c) * 64 + d), 3)
  else none

/-- Drops the first `taken` bytes, which belong to a character already read, and reads the rest. -/
def ofBytesFrom : (taken : Nat) → List UInt8 → List Symbol
  | _, [] => []
  | taken + 1, _ :: rest => ofBytesFrom taken rest
  | 0, a :: rest =>
    match leading? a rest with
    | some (c, taken) => char c :: ofBytesFrom taken rest
    | none => stray a :: ofBytesFrom 0 rest

/-- The symbols of a byte stream in UTF-8. A byte that begins no character is stray, and reading
goes on with the byte after it. -/
def ofBytes (bytes : List UInt8) : List Symbol := ofBytesFrom 0 bytes

def ofString (text : String) : List Symbol := text.toList.map char

/-- The text of symbols without a stray byte among them. -/
def text? (symbols : List Symbol) : Option String := (symbols.mapM char?).map String.ofList

theorem mapM_char?_map_char (cs : List Char) : (cs.map char).mapM char? = some cs := by
  induction cs with
  | nil => rfl
  | cons c cs ih => simp [List.mapM_cons, char?, ih]

@[simp] theorem text?_ofString (text : String) : text? (ofString text) = some text := by
  rw [text?, ofString, mapM_char?_map_char, Option.map_some, String.ofList_toList]

end Symbol

end SyscallPolicy.Text
