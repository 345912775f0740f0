import DocGraph.Json.Value
import DocGraph.Number.Shortest

namespace DocGraph.Json

namespace Number

def toText : Number → String
  | integer value => if value < 0 then "-" ++ Nat.repr value.natAbs else Nat.repr value.natAbs
  | double value => value.toText

end Number

def hexDigit (digit : Nat) : Char :=
  if digit < 10 then Char.ofNat ('0'.toNat + digit) else Char.ofNat ('a'.toNat + digit - 10)

/-- How one character of a text is written between quotes. -/
def escape (char : Char) : List Char :=
  match char with
  | '"' => ['\\', '"']
  | '\\' => ['\\', '\\']
  | '\x08' => ['\\', 'b']
  | '\t' => ['\\', 't']
  | '\n' => ['\\', 'n']
  | '\x0c' => ['\\', 'f']
  | '\r' => ['\\', 'r']
  | _ =>
    if char.toNat < 0x20 then
      ['\\', 'u', '0', '0', hexDigit (char.toNat / 16), hexDigit (char.toNat % 16)]
    else [char]

def quote (text : String) : String :=
  String.ofList ('"' :: (text.toList.flatMap escape ++ ['"']))

namespace Value

mutual

def compact : Value → String
  | null => "null"
  | boolean true => "true"
  | boolean false => "false"
  | number value => value.toText
  | string text => quote text
  | array items => "[" ++ ",".intercalate (compactItems items) ++ "]"
  | object members => "\x7b" ++ ",".intercalate (compactMembers members) ++ "\x7d"

def compactItems : List Value → List String
  | [] => []
  | first :: rest => compact first :: compactItems rest

def compactMembers : List (String × Value) → List String
  | [] => []
  | (key, first) :: rest => (quote key ++ ":" ++ compact first) :: compactMembers rest

end

def newline (level : Nat) : String :=
  String.ofList ('\n' :: List.replicate (2 * level) ' ')

/-- Parts of a container on lines of their own, between its brackets. -/
def bracketed (level : Nat) (opening closing : String) (parts : List String) : String :=
  if parts.isEmpty then opening ++ closing
  else
    opening ++ newline (level + 1) ++ ("," ++ newline (level + 1)).intercalate parts
      ++ newline level ++ closing

mutual

/-- The indented form of a value that stands on a given level. -/
def indented (level : Nat) : Value → String
  | null => "null"
  | boolean true => "true"
  | boolean false => "false"
  | number value => value.toText
  | string text => quote text
  | array items => bracketed level "[" "]" (indentedItems level items)
  | object members => bracketed level "\x7b" "\x7d" (indentedMembers level members)

def indentedItems (level : Nat) : List Value → List String
  | [] => []
  | first :: rest => indented (level + 1) first :: indentedItems level rest

def indentedMembers (level : Nat) : List (String × Value) → List String
  | [] => []
  | (key, first) :: rest =>
    (quote key ++ ": " ++ indented (level + 1) first) :: indentedMembers level rest

end

def pretty (value : Value) : String := indented 0 value

end Value

end DocGraph.Json
