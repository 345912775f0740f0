import DocGraph.Json.NumberLiteral
import DocGraph.Markup

/-!
# Reading JSON texts

A text is first read as markup and then, where a value is wanted, as a value.
The reader walks a list of characters; its fuel is the length of the text, of
which every step that takes fuel consumes at least one character.
-/

namespace DocGraph.Json.Reader

def isBlank (char : Char) : Bool :=
  char == ' ' || char == '\n' || char == '\t' || char == '\r'

def skipBlanks (text : List Char) : List Char := text.dropWhile isBlank

def digitsOf (text : List Char) : List Nat :=
  (text.takeWhile Char.isDigit).map fun char => char.toNat - '0'.toNat

def afterDigits (text : List Char) : List Char := text.dropWhile Char.isDigit

/-- The rest of a text behind a given beginning. -/
def behind? : List Char → List Char → Option (List Char)
  | [], text => some text
  | expected :: more, char :: text => if expected = char then behind? more text else none
  | _ :: _, [] => none

/-- The exponent of a number behind its mark: a sign and at least one digit. -/
def exponent? (text : List Char) : Option (Int × List Char) :=
  let (negative, text) := match text with
    | '-' :: rest => (true, rest)
    | '+' :: rest => (false, rest)
    | _ => (false, text)
  match digitsOf text with
  | [] => none
  | digits =>
    let size : Int := (digits.foldl (fun total digit => total * 10 + digit) 0 : Nat)
    some (if negative then -size else size, afterDigits text)

/-- A number literal. Its whole part has no needless zero. -/
def numberLiteral? (text : List Char) : Option (NumberLiteral × List Char) := do
  let (negative, text) := match text with
    | '-' :: rest => (true, rest)
    | _ => (false, text)
  let whole := digitsOf text
  match whole with
  | [] => none
  | 0 :: _ :: _ => none
  | _ => pure ()
  let text := afterDigits text
  let (fraction, text) ← match text with
    | '.' :: rest =>
      match digitsOf rest with
      | [] => none
      | digits => some (some digits, afterDigits rest)
    | _ => some (none, text)
  let (exponent, text) ← match text with
    | 'e' :: rest | 'E' :: rest => (exponent? rest).map fun (size, rest) => (some size, rest)
    | _ => some (none, text)
  return (⟨negative, whole, fraction, exponent⟩, text)

def hexDigit? (char : Char) : Option Nat :=
  if '0' ≤ char ∧ char ≤ '9' then some (char.toNat - '0'.toNat)
  else if 'a' ≤ char ∧ char ≤ 'f' then some (char.toNat - 'a'.toNat + 10)
  else if 'A' ≤ char ∧ char ≤ 'F' then some (char.toNat - 'A'.toNat + 10)
  else none

def hexNumber? (digits : List Char) : Option Nat :=
  digits.foldlM (fun total char => (hexDigit? char).map (total * 16 + ·)) 0

/-- What one piece of a string stands for: a 16-bit unit of an escape, or a
character of the text. -/
inductive Piece where
  | unit (code : Nat)
  | char (char : Char)

/-- The pieces of a string behind its opening quote. -/
def pieces? : Nat → List Char → Option (List Piece × List Char)
  | 0, _ => none
  | _, [] => none
  | _, '"' :: rest => some ([], rest)
  | fuel + 1, '\\' :: 'u' :: a :: b :: c :: d :: rest => do
    let code ← hexNumber? [a, b, c, d]
    let (pieces, rest) ← pieces? fuel rest
    return (.unit code :: pieces, rest)
  | fuel + 1, '\\' :: mark :: rest => do
    let char ← match mark with
      | '"' => some '"'
      | '\\' => some '\\'
      | '/' => some '/'
      | 'b' => some '\x08'
      | 'f' => some '\x0c'
      | 'n' => some '\n'
      | 'r' => some '\r'
      | 't' => some '\t'
      | _ => none
    let (pieces, rest) ← pieces? fuel rest
    return (.char char :: pieces, rest)
  | fuel + 1, char :: rest =>
    if char.toNat < 0x20 then none
    else do
      let (pieces, rest) ← pieces? fuel rest
      return (.char char :: pieces, rest)

/-- The characters of the pieces, if every half of a surrogate pair has its
other half next to it. -/
def characters? : List Piece → Option (List Char)
  | [] => some []
  | .char char :: rest => (characters? rest).map (char :: ·)
  | .unit high :: rest =>
    if 0xD800 ≤ high ∧ high < 0xDC00 then
      match rest with
      | .unit low :: rest =>
        if 0xDC00 ≤ low ∧ low < 0xE000 then
          let code := 0x10000 + (high - 0xD800) * 0x400 + (low - 0xDC00)
          (characters? rest).map (Char.ofNat code :: ·)
        else none
      | _ => none
    else if 0xDC00 ≤ high ∧ high < 0xE000 then none
    else (characters? rest).map (Char.ofNat high :: ·)

/-- A string behind its opening quote; its text if it stands for one. -/
def string? (text : List Char) : Option (Option String × List Char) := do
  let (pieces, rest) ← pieces? (text.length + 1) text
  return ((characters? pieces).map String.ofList, rest)

mutual

/-- One JSON value and what follows it. -/
def markup? : Nat → List Char → Option (Markup × List Char)
  | 0, _ => none
  | fuel + 1, text =>
    match skipBlanks text with
    | '"' :: rest => do
      let (content, rest) ← string? rest
      return (.string content, rest)
    | '[' :: rest =>
      match skipBlanks rest with
      | ']' :: rest => some (.array [], rest)
      | _ => do
        let (items, rest) ← items? fuel rest
        return (.array items, rest)
    | '\x7b' :: rest =>
      match skipBlanks rest with
      | '\x7d' :: rest => some (.table [], rest)
      | _ => do
        let (members, rest) ← members? fuel rest
        return (.table members, rest)
    | 'n' :: rest => (behind? "ull".toList rest).map fun rest => (.null, rest)
    | 't' :: rest => (behind? "rue".toList rest).map fun rest => (.boolean true, rest)
    | 'f' :: rest => (behind? "alse".toList rest).map fun rest => (.boolean false, rest)
    | other => do
      let (literal, rest) ← numberLiteral? other
      return (.number literal.number?, rest)

/-- The items of an array up to its closing bracket, of which there is at least
one. -/
def items? : Nat → List Char → Option (List Markup × List Char)
  | 0, _ => none
  | fuel + 1, text => do
    let (first, rest) ← markup? fuel text
    match skipBlanks rest with
    | ',' :: rest =>
      let (others, rest) ← items? fuel rest
      return (first :: others, rest)
    | ']' :: rest => return ([first], rest)
    | _ => none

/-- The members of an object up to its closing brace, of which there is at
least one. -/
def members? : Nat → List Char → Option (List (Option String × Markup) × List Char)
  | 0, _ => none
  | fuel + 1, text => do
    match skipBlanks text with
    | '"' :: rest =>
      let (key, rest) ← string? rest
      match skipBlanks rest with
      | ':' :: rest =>
        let (first, rest) ← markup? fuel rest
        match skipBlanks rest with
        | ',' :: rest =>
          let (others, rest) ← members? fuel rest
          return ((key, first) :: others, rest)
        | '\x7d' :: rest => return ([(key, first)], rest)
        | _ => none
      | _ => none
    | _ => none

end

end Reader

def markup? (text : String) : Option Markup :=
  let characters := text.toList
  match Reader.markup? (characters.length + 1) characters with
  | some (markup, rest) => if (Reader.skipBlanks rest).isEmpty then some markup else none
  | none => none

/-- A record that is given as a list has no more items than fields. -/
def recordForm : Markup.RecordForm := ⟨false⟩

/-- The most containers that a text read as a value may nest. -/
def depthLimit : Nat := 127

def Value.ofText? (text : String) : Option Value := do
  let markup ← markup? text
  if markup.depth ≤ depthLimit then markup.value? else none

end DocGraph.Json
