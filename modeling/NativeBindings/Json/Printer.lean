import NativeBindings.Decimal.Literal
import NativeBindings.Json.Value

namespace NativeBindings.Json

/-! # Writing JSON

Values are written either on one line without blanks, or one item to a line with
two spaces for each level of nesting.  Only quotes, backslashes and controls are
escaped.
-/

def hexDigit (n : Nat) : Char := (Nat.toDigits 16 n).headD '0'

/-- One character as it stands in a string. -/
def escapedChar (c : Char) : List Char :=
  if c = '"' then ['\\', '"']
  else if c = '\\' then ['\\', '\\']
  else if c = '\x08' then ['\\', 'b']
  else if c = '\x0c' then ['\\', 'f']
  else if c = '\n' then ['\\', 'n']
  else if c = '\r' then ['\\', 'r']
  else if c = '\t' then ['\\', 't']
  else if c.toNat < 0x20 then
    ['\\', 'u', '0', '0', hexDigit (c.toNat / 16), hexDigit (c.toNat % 16)]
  else [c]

def printString (text : String) : String :=
  String.ofList ('"' :: text.toList.flatMap escapedChar ++ ['"'])

def printNumber : Number → String
  | .integer value => toString value
  | .float value => Decimal.literal value

mutual

def Value.compact : Value → String
  | .null => "null"
  | .bool value => if value then "true" else "false"
  | .number value => printNumber value
  | .string text => printString text
  | .array items => "[" ++ String.intercalate "," (compactItems items) ++ "]"
  | .object fields => "\x7b" ++ String.intercalate "," (compactFields fields) ++ "\x7d"

def compactItems : List Value → List String
  | [] => []
  | item :: rest => item.compact :: compactItems rest

def compactFields : List (String × Value) → List String
  | [] => []
  | (key, value) :: rest => (printString key ++ ":" ++ value.compact) :: compactFields rest

end

/-- Items between brackets, each on a line of its own. -/
def bracketed (indent opening closing : String) (items : List String) : String :=
  if items.isEmpty then opening ++ closing
  else
    opening ++ "\n" ++ indent ++ "  " ++
      String.intercalate (",\n" ++ indent ++ "  ") items ++ "\n" ++ indent ++ closing

mutual

/-- The value over several lines, the first of which is already indented. -/
def Value.pretty (indent : String) : Value → String
  | .null => "null"
  | .bool value => if value then "true" else "false"
  | .number value => printNumber value
  | .string text => printString text
  | .array items => bracketed indent "[" "]" (prettyItems (indent ++ "  ") items)
  | .object fields => bracketed indent "\x7b" "\x7d" (prettyFields (indent ++ "  ") fields)

def prettyItems (indent : String) : List Value → List String
  | [] => []
  | item :: rest => item.pretty indent :: prettyItems indent rest

def prettyFields (indent : String) : List (String × Value) → List String
  | [] => []
  | (key, value) :: rest =>
      (printString key ++ ": " ++ value.pretty indent) :: prettyFields indent rest

end

end NativeBindings.Json
