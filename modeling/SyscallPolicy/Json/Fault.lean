import SyscallPolicy.Decimal.Binary64
import SyscallPolicy.Text.Quoted
/-! What can be wrong with a JSON document. -/
namespace SyscallPolicy.Json

inductive Found where
  | null
  | boolean (value : Bool)
  | integer (value : Int)
  | floating (value : Decimal.Binary64)
  | string (value : String)
  | sequence
  | map
  deriving DecidableEq, Repr

def Found.text : Found → String
  | null => "null"
  | boolean value => "boolean `" ++ (if value then "true" else "false") ++ "`"
  | integer value => "integer `" ++ toString value ++ "`"
  | floating value => "floating point `" ++ value.text ++ "`"
  | string value => "string " ++ Text.quoted value
  | sequence => "sequence"
  | map => "map"

inductive Wanted where
  | string
  | sequence
  | unsigned (width : Nat)
  | record (title : String)
  deriving DecidableEq, Repr

def Wanted.text : Wanted → String
  | string => "a string"
  | sequence => "a sequence"
  | unsigned width => "u" ++ toString width
  | record title => "struct " ++ title

/-- The first problem in a document. -/
inductive Fault where
  | endInValue
  | endInString
  | endInList
  | endInObject
  | expectedValue
  | expectedWord
  | expectedColon
  | expectedCommaOrBracket
  | expectedCommaOrBrace
  | invalidNumber
  | numberOutOfRange
  | controlCharacter
  | invalidEscape
  | invalidCodePoint
  | loneSurrogate
  | missingSurrogate
  | keyNotString
  | trailingComma
  | trailingCharacters
  | wrongType (found : Found) (wanted : Wanted)
  | outOfRange (value : Int) (wanted : Wanted)
  | missingField (name : String)
  | duplicateField (name : String)
  | tooFewElements (given : Nat) (title : String) (size : Nat)
  deriving DecidableEq, Repr

def Fault.message : Fault → String
  | endInValue => "EOF while parsing a value"
  | endInString => "EOF while parsing a string"
  | endInList => "EOF while parsing a list"
  | endInObject => "EOF while parsing an object"
  | expectedValue => "expected value"
  | expectedWord => "expected ident"
  | expectedColon => "expected `:`"
  | expectedCommaOrBracket => "expected `,` or `]`"
  | expectedCommaOrBrace => "expected `,` or `\x7d`"
  | invalidNumber => "invalid number"
  | numberOutOfRange => "number out of range"
  | controlCharacter => "control character (\\u0000-\\u001F) found while parsing a string"
  | invalidEscape => "invalid escape"
  | invalidCodePoint => "invalid unicode code point"
  | loneSurrogate => "lone leading surrogate in hex escape"
  | missingSurrogate => "unexpected end of hex escape"
  | keyNotString => "key must be a string"
  | trailingComma => "trailing comma"
  | trailingCharacters => "trailing characters"
  | wrongType found wanted => "invalid type: " ++ found.text ++ ", expected " ++ wanted.text
  | outOfRange value wanted =>
    "invalid value: integer `" ++ toString value ++ "`, expected " ++ wanted.text
  | missingField name => "missing field `" ++ name ++ "`"
  | duplicateField name => "duplicate field `" ++ name ++ "`"
  | tooFewElements given title size =>
    "invalid length " ++ toString given ++ ", expected struct " ++ title ++ " with " ++
      toString size ++ " elements"

end SyscallPolicy.Json
