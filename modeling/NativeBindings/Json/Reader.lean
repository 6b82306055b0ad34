import NativeBindings.Json.Number

namespace NativeBindings.Json

/-! # Reading texts

Reading never fails: it gives the tree of the text as far as the text goes.  A
function here returns what it read together with the text that follows, or
`none` in its place when nothing can be read any more.
-/

def isBlank (c : Char) : Bool := c = ' ' || c = '\n' || c = '\t' || c = '\r'

def skipBlanks (text : List Char) : List Char := text.dropWhile isBlank

/-- What the end of the text, or another character, means where neither is due. -/
def faultAt (text : List Char) : Fault := if text.isEmpty then .truncated else .malformed

def hexValue? (c : Char) : Option Nat :=
  if c.isDigit then some (c.toNat - '0'.toNat)
  else if 'a' ≤ c ∧ c ≤ 'f' then some (c.toNat - 'a'.toNat + 10)
  else if 'A' ≤ c ∧ c ≤ 'F' then some (c.toNat - 'A'.toNat + 10)
  else none

/-- Four hexadecimal digits.  They are wrong when four bytes are left, and cut
short otherwise. -/
def scanUnit (text : List Char) : Except Fault (Nat × List Char) :=
  let size := (text.take 4).foldl (fun size c => size + c.utf8Size) 0
  if size < 4 then .error .truncated
  else
    match text with
    | a :: b :: c :: d :: rest =>
        match hexValue? a, hexValue? b, hexValue? c, hexValue? d with
        | some a, some b, some c, some d => .ok (((a * 16 + b) * 16 + c) * 16 + d, rest)
        | _, _, _, _ => .error .malformed
    | _ => .error .malformed

/-- The second half of a surrogate pair, which is due after a first half. -/
def scanSecondHalf : List Char → Except Fault (Nat × List Char)
  | [] => .error .truncated
  | ['\\'] => .error .truncated
  | '\\' :: 'u' :: rest => do
      let (unit, rest) ← scanUnit rest
      if 0xdc00 ≤ unit ∧ unit ≤ 0xdfff then pure (unit, rest) else throw .malformed
  | _ => .error .malformed

/-- The character that a one-letter escape stands for. -/
def escaped? : Char → Option Char
  | '"' => some '"'
  | '\\' => some '\\'
  | '/' => some '/'
  | 'b' => some '\x08'
  | 'f' => some '\x0c'
  | 'n' => some '\n'
  | 'r' => some '\r'
  | 't' => some '\t'
  | _ => none

/-- Reads a string after its opening quote.  `read` holds its characters in
reverse, or the first fault that only matters to a reader of the value. -/
def scanString (fuel : Nat) (read : Except Fault (List Char)) (text : List Char) :
    Scalar String × Option (List Char) :=
  let stop (fault : Fault) : Scalar String × Option (List Char) :=
    (⟨match read with | .ok _ => .error fault | .error first => .error first, some fault⟩, none)
  let push (c : Char) : Except Fault (List Char) := read.map (c :: ·)
  match fuel, text with
  | 0, _ | _, [] => stop .truncated
  | fuel + 1, c :: rest =>
      if c = '"' then (⟨read.map fun cs => String.ofList cs.reverse, none⟩, some rest)
      else if c.toNat < 0x20 then stop .malformed
      else if c ≠ '\\' then scanString fuel (push c) rest
      else
        match rest with
        | [] => stop .truncated
        | 'u' :: rest =>
            match scanUnit rest with
            | .error fault => stop fault
            | .ok (unit, rest) =>
                if 0xdc00 ≤ unit ∧ unit ≤ 0xdfff then
                  scanString fuel (read.bind fun _ => .error .malformed) rest
                else if 0xd800 ≤ unit ∧ unit ≤ 0xdbff then
                  match scanSecondHalf rest with
                  | .ok (second, rest) =>
                      let code := 0x10000 + (unit - 0xd800) * 0x400 + (second - 0xdc00)
                      scanString fuel (push (Char.ofNat code)) rest
                  | .error fault => scanString fuel (read.bind fun _ => .error fault) rest
                else scanString fuel (push (Char.ofNat unit)) rest
        | letter :: rest =>
            match escaped? letter with
            | some c => scanString fuel (push c) rest
            | none => stop .malformed

def scanWord : List Char → List Char → Except Fault (List Char)
  | [], text => .ok text
  | _ :: _, [] => .error .truncated
  | due :: more, c :: rest => if c = due then scanWord more rest else .error .malformed

def readWord (word : List Char) (value : Source) (text : List Char) :
    Source × Option (List Char) :=
  match scanWord word text with
  | .ok rest => (value, some rest)
  | .error fault => (.broken fault, none)

/-- A number, and the text after it if it can be stepped over. -/
def readNumber (negative : Bool) (text : List Char) : Source × Option (List Char) :=
  let (scalar, rest) := scanNumber negative text
  (.number scalar, if scalar.blocked.isNone then some rest else none)

mutual

def readValue (fuel : Nat) (text : List Char) : Source × Option (List Char) :=
  match fuel, skipBlanks text with
  | 0, _ | _, [] => (.absent, none)
  | fuel + 1, c :: rest =>
      if c = 'n' then readWord ['u', 'l', 'l'] .null rest
      else if c = 't' then readWord ['r', 'u', 'e'] (.bool true) rest
      else if c = 'f' then readWord ['a', 'l', 's', 'e'] (.bool false) rest
      else if c = '-' then readNumber true rest
      else if c.isDigit then readNumber false (c :: rest)
      else if c = '"' then
        let (scalar, rest) := scanString (rest.length + 1) (.ok []) rest
        (.string scalar, rest)
      else if c = '[' then
        let (items, ending, rest) := readItems fuel false rest
        (.array items ending, rest)
      else if c = '{' then
        let (members, ending, rest) := readMembers fuel false rest
        (.object members ending, rest)
      else (.broken .malformed, none)

/-- Reads the items of an array up to its end.  `afterComma` says that an item is
due. -/
def readItems (fuel : Nat) (afterComma : Bool) (text : List Char) :
    List Source × Ending × Option (List Char) :=
  match fuel, skipBlanks text with
  | 0, _ => ([], .stopped afterComma .truncated, none)
  | _, [] => ([], .stopped afterComma .truncated, none)
  | fuel + 1, c :: rest =>
      if c = ']' then
        if afterComma then ([], .stopped true .malformed, none) else ([], .closed, some rest)
      else
        match readValue fuel (c :: rest) with
        | (item, none) => ([item], .closed, none)
        | (item, some rest) =>
            match skipBlanks rest with
            | ',' :: rest =>
                let (items, ending, rest) := readItems fuel true rest
                (item :: items, ending, rest)
            | ']' :: rest => ([item], .closed, some rest)
            | rest => ([item], .stopped false (faultAt rest), none)

/-- Reads the members of an object up to its end.  `afterComma` says that a
member is due. -/
def readMembers (fuel : Nat) (afterComma : Bool) (text : List Char) :
    List (Source × Source) × Ending × Option (List Char) :=
  match fuel, skipBlanks text with
  | 0, _ => ([], .stopped afterComma .truncated, none)
  | _, [] => ([], .stopped afterComma .truncated, none)
  | fuel + 1, c :: rest =>
      if c = '}' then
        if afterComma then ([], .stopped true .malformed, none) else ([], .closed, some rest)
      else
        match readValue fuel (c :: rest) with
        | (.string key, some rest) =>
            match skipBlanks rest with
            | ':' :: rest =>
                match readValue fuel rest with
                | (value, none) => ([(.string key, value)], .closed, none)
                | (value, some rest) =>
                    match skipBlanks rest with
                    | ',' :: rest =>
                        let (members, ending, rest) := readMembers fuel true rest
                        ((.string key, value) :: members, ending, rest)
                    | '}' :: rest => ([(.string key, value)], .closed, some rest)
                    | rest => ([(.string key, value)], .stopped false (faultAt rest), none)
            | [] => ([(.string key, .absent)], .closed, none)
            | _ => ([(.string key, .broken .malformed)], .closed, none)
        | (key, _) => ([(key, .absent)], .closed, none)

end

def Document.ofText (text : String) : Document :=
  let chars := text.toList
  match readValue (2 * chars.length + 1) chars with
  | (root, none) => ⟨root, false⟩
  | (root, some rest) => ⟨root, !(skipBlanks rest).isEmpty⟩

end NativeBindings.Json
