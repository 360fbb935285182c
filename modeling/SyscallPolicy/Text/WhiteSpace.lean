/-! The white space of Unicode, and what lies between it. -/
namespace SyscallPolicy.Text

/-- Where the stretches of white space begin and end, both ends included. -/
def whiteSpaceRanges : List (Nat × Nat) :=
  [(0x09, 0x0d), (0x20, 0x20), (0x85, 0x85), (0xa0, 0xa0), (0x1680, 0x1680), (0x2000, 0x200a),
    (0x2028, 0x2029), (0x202f, 0x202f), (0x205f, 0x205f), (0x3000, 0x3000)]

def isWhiteSpace (c : Char) : Bool :=
  whiteSpaceRanges.any fun (first, last) => first ≤ c.toNat ∧ c.toNat ≤ last

def trim (text : String) : String :=
  let start := text.toList.dropWhile isWhiteSpace
  .ofList (start.reverse.dropWhile isWhiteSpace).reverse

/-- The parts of a text that white space separates. -/
def words (text : String) : List String :=
  (text.splitToList isWhiteSpace).filter (· ≠ "")

end SyscallPolicy.Text
