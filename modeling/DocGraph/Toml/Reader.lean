import DocGraph.Json.Reader
import DocGraph.Toml.Table

/-!
# Reading TOML texts

A text is read as a list of statements, which then build one tree of tables.
Numbers keep no more than the library needs: integers of 64 bits, and floats as
doubles. A date or time is checked and stands for an empty table, since no
record of this library has a field for one.
-/

namespace DocGraph.Toml.Reader

open Json.Reader (behind? hexNumber?)

def isBlank (char : Char) : Bool := char == ' ' || char == '\t'

def skipBlanks (text : List Char) : List Char := text.dropWhile isBlank

/-- The rest of a text behind one line break. -/
def newline? : List Char → Option (List Char)
  | '\n' :: rest => some rest
  | '\r' :: '\n' :: rest => some rest
  | _ => none

/-- Control characters other than the tab stand in no comment and no string. -/
def isPrintable (char : Char) : Bool :=
  char == '\t' || (0x20 ≤ char.toNat && char.toNat != 0x7F)

def skipComment : List Char → List Char
  | '#' :: rest => rest.dropWhile isPrintable
  | text => text

/-- The end of a statement: blanks, a comment, and a line break or the end. -/
def lineEnd? (text : List Char) : Option (List Char) :=
  match skipComment (skipBlanks text) with
  | [] => some []
  | rest => newline? rest

/-- Skips blanks, comments and line breaks. -/
def skipLines : Nat → List Char → List Char
  | 0, text => text
  | fuel + 1, text =>
    let rest := skipComment (skipBlanks text)
    match newline? rest with
    | some rest => skipLines fuel rest
    | none => rest

/-! ## Strings -/

/-- The character of a code point, unless it is half of a surrogate pair. -/
def scalar? (code : Nat) : Option Char :=
  if code < 0xD800 ∨ (0xE000 ≤ code ∧ code < 0x110000) then some (Char.ofNat code) else none

/-- The character that an escape stands for, behind its backslash. -/
def escape? : List Char → Option (Char × List Char)
  | 'b' :: rest => some ('\x08', rest)
  | 't' :: rest => some ('\t', rest)
  | 'n' :: rest => some ('\n', rest)
  | 'f' :: rest => some ('\x0c', rest)
  | 'r' :: rest => some ('\r', rest)
  | '"' :: rest => some ('"', rest)
  | '\\' :: rest => some ('\\', rest)
  | 'u' :: rest =>
    if rest.length < 4 then none
    else ((hexNumber? (rest.take 4)).bind scalar?).map fun char => (char, rest.drop 4)
  | 'U' :: rest =>
    if rest.length < 8 then none
    else ((hexNumber? (rest.take 8)).bind scalar?).map fun char => (char, rest.drop 8)
  | _ => none

/-- A basic string behind its opening quote. -/
def basic? : Nat → List Char → Option (List Char × List Char)
  | 0, _ => none
  | _, [] => none
  | _, '"' :: rest => some ([], rest)
  | fuel + 1, '\\' :: rest => do
    let (char, rest) ← escape? rest
    let (chars, rest) ← basic? fuel rest
    return (char :: chars, rest)
  | fuel + 1, char :: rest =>
    if isPrintable char then
      (basic? fuel rest).map fun (chars, rest) => (char :: chars, rest)
    else none

/-- A literal string behind its opening quote. -/
def literal? (text : List Char) : Option (List Char × List Char) :=
  let content := text.takeWhile fun char => isPrintable char && char != '\''
  match text.drop content.length with
  | '\'' :: rest => some (content, rest)
  | _ => none

/-- Skips blanks and line breaks behind a backslash at the end of a line. -/
def skipFolded : Nat → List Char → List Char
  | 0, text => text
  | fuel + 1, text =>
    match newline? (skipBlanks text) with
    | some rest => skipFolded fuel rest
    | none => skipBlanks text

/-- A string of several lines behind its opening quotes. Up to two quotes may
stand inside it, also right before the closing ones. -/
def multiline? (quote : Char) : Nat → List Char → Option (List Char × List Char)
  | 0, _ => none
  | fuel + 1, text =>
    match newline? text with
    | some rest => (multiline? quote fuel rest).map fun (chars, rest) => ('\n' :: chars, rest)
    | none =>
      let quotes := (text.takeWhile (· == quote)).length
      if 3 ≤ quotes then
        let inner := min (quotes - 3) 2
        some (List.replicate inner quote, text.drop (inner + 3))
      else
        match text with
        | [] => none
        | '\\' :: rest =>
          if quote = '"' then
            match newline? (skipBlanks rest) with
            | some folded => multiline? quote fuel (skipFolded fuel folded)
            | none => do
              let (char, rest) ← escape? rest
              let (chars, rest) ← multiline? quote fuel rest
              return (char :: chars, rest)
          else (multiline? quote fuel rest).map fun (chars, rest) => ('\\' :: chars, rest)
        | char :: rest =>
          if isPrintable char then
            (multiline? quote fuel rest).map fun (chars, rest) => (char :: chars, rest)
          else none

/-- Drops the line break right behind opening quotes. -/
def dropFirstBreak (text : List Char) : List Char := (newline? text).getD text

/-- Any string, or nothing if the text does not start with a quote. -/
def string? (text : List Char) : Option (List Char × List Char) :=
  match text with
  | '"' :: '"' :: '"' :: rest => multiline? '"' (rest.length + 1) (dropFirstBreak rest)
  | '\'' :: '\'' :: '\'' :: rest => multiline? '\'' (rest.length + 1) (dropFirstBreak rest)
  | '"' :: rest => basic? (rest.length + 1) rest
  | '\'' :: rest => literal? rest
  | _ => none

/-! ## Keys -/

def isBare (char : Char) : Bool := char.isAlphanum || char == '_' || char == '-'

def simpleKey? (text : List Char) : Option (String × List Char) :=
  match text with
  | '"' :: rest => (basic? (rest.length + 1) rest).map fun (chars, rest) =>
    (String.ofList chars, rest)
  | '\'' :: rest => (literal? rest).map fun (chars, rest) => (String.ofList chars, rest)
  | _ =>
    match text.takeWhile isBare with
    | [] => none
    | bare => some (String.ofList bare, text.dropWhile isBare)

/-- The most parts of a key, and the most brackets and braces around a value. -/
def depthLimit : Nat := 79

/-- A dotted key of at most the given number of parts, and the blanks around it. -/
def key? : Nat → List Char → Option (List String × List Char)
  | 0, _ => none
  | parts + 1, text => do
    let (first, rest) ← simpleKey? (skipBlanks text)
    match skipBlanks rest with
    | '.' :: rest =>
      let (others, rest) ← key? parts rest
      return (first :: others, rest)
    | rest => return ([first], rest)

/-! ## Numbers and dates -/

/-- Digits that may have single underscores between them, and what follows. -/
def digits? (isDigit : Char → Bool) : Nat → List Char → Option (List Char × List Char)
  | 0, _ => none
  | _, [] => none
  | fuel + 1, char :: rest =>
    if !isDigit char then none
    else
      match rest with
      | '_' :: rest => (digits? isDigit fuel rest).map fun (digits, rest) => (char :: digits, rest)
      | next :: _ =>
        if isDigit next then
          (digits? isDigit fuel rest).map fun (digits, rest) => (char :: digits, rest)
        else some ([char], rest)
      | [] => some ([char], [])

def decimals? (text : List Char) : Option (List Char × List Char) :=
  digits? Char.isDigit (text.length + 1) text

def isHexDigit (char : Char) : Bool := (Json.Reader.hexDigit? char).isSome

/-- The number written by digits of a base. -/
def numberOf (base : Nat) (digits : List Char) : Nat :=
  digits.foldl (fun total char => total * base + (Json.Reader.hexDigit? char).getD 0) 0

def integerLimit : Int := Nat.pow 2 63 - 1

def integer? (value : Int) : Option Markup :=
  if -integerLimit - 1 ≤ value ∧ value ≤ integerLimit then
    some (.number (some (.integer value)))
  else none

/-- An integer of a base other than ten, behind its mark. -/
def based? (base : Nat) (isDigit : Char → Bool) (text : List Char) :
    Option (Markup × List Char) := do
  let (digits, rest) ← digits? isDigit (text.length + 1) text
  let value ← integer? (numberOf base digits)
  return (value, rest)

/-- The whole digits of a decimal number: a single zero, or digits that do not
start with one. -/
def whole? (text : List Char) : Option (List Char × List Char) :=
  match text with
  | '0' :: rest => some (['0'], rest)
  | _ => decimals? text

/-- The double nearest to `digits * 10 ^ exponent`. A literal beyond the finite
doubles is infinite: it is refused when it is positive and stands for no number
when it is negative. -/
def float? (negative : Bool) (digits : List Char) (exponent : Int) : Option Markup :=
  let significand := numberOf 10 digits
  let scientific : Int := exponent + (digits.dropWhile (· == '0')).length
  let double : Option Double :=
    if significand = 0 ∨ scientific < -400 then some .zero
    else if 400 < scientific then none
    else Double.ofUnits? false (significand * Nat.pow 10 exponent.toNat * Double.unit)
      (Nat.pow 10 (-exponent).toNat)
  match double with
  | some double => some (.number (some (.double (if negative then double.neg else double))))
  | none => if negative then some (.number none) else none

/-- A decimal integer or a float behind its sign. -/
def decimal? (negative : Bool) (text : List Char) : Option (Markup × List Char) := do
  let (whole, rest) ← whole? text
  let (fraction, rest) ← match rest with
    | '.' :: behind => (decimals? behind).map fun (digits, rest) => (some digits, rest)
    | _ => some (none, rest)
  let (exponent, rest) ← match rest with
    | 'e' :: behind | 'E' :: behind =>
      let (down, behind) := match behind with
        | '-' :: behind => (true, behind)
        | '+' :: behind => (false, behind)
        | _ => (false, behind)
      (decimals? behind).map fun (digits, rest) =>
        let size : Int := numberOf 10 digits
        (some (if down then -size else size), rest)
    | _ => some (none, rest)
  match fraction, exponent with
  | none, none =>
    let size : Int := numberOf 10 whole
    let value ← integer? (if negative then -size else size)
    return (value, rest)
  | _, _ =>
    let digits := whole ++ fraction.getD []
    let value ← float? negative digits (exponent.getD 0 - (fraction.getD []).length)
    return (value, rest)

/-- Exactly so many digits, as a number. -/
def fixed? (count : Nat) (text : List Char) : Option (Nat × List Char) :=
  let digits := (text.take count).takeWhile Char.isDigit
  if digits.length = count then some (numberOf 10 digits, text.drop count) else none

def daysOf (year month : Nat) : Nat :=
  if month = 2 then
    if year % 4 = 0 ∧ (year % 100 ≠ 0 ∨ year % 400 = 0) then 29 else 28
  else if month = 4 ∨ month = 6 ∨ month = 9 ∨ month = 11 then 30
  else 31

def date? (text : List Char) : Option (List Char) := do
  let (year, rest) ← fixed? 4 text
  let (month, rest) ← fixed? 2 (← behind? ['-'] rest)
  let (day, rest) ← fixed? 2 (← behind? ['-'] rest)
  if 1 ≤ month ∧ month ≤ 12 ∧ 1 ≤ day ∧ day ≤ daysOf year month then some rest else none

/-- A time of day, with a fraction of a second if there is one. -/
def time? (text : List Char) : Option (List Char) := do
  let (hour, rest) ← fixed? 2 text
  let (minute, rest) ← fixed? 2 (← behind? [':'] rest)
  let (second, rest) ← fixed? 2 (← behind? [':'] rest)
  if hour ≤ 23 ∧ minute ≤ 59 ∧ second ≤ 60 then
    match rest with
    | '.' :: behind =>
      match behind.takeWhile Char.isDigit with
      | [] => some rest
      | _ => some (behind.dropWhile Char.isDigit)
    | _ => some rest
  else none

/-- The offset behind a time, if there is one. -/
def skipOffset (text : List Char) : List Char :=
  let numeric (rest : List Char) : Option (List Char) := do
    let (hour, rest) ← fixed? 2 rest
    let (minute, rest) ← fixed? 2 (← behind? [':'] rest)
    if hour ≤ 23 ∧ minute ≤ 59 then some rest else none
  match text with
  | 'Z' :: rest | 'z' :: rest => rest
  | '+' :: rest | '-' :: rest => (numeric rest).getD text
  | _ => text

def dateOrTime? (text : List Char) : Option (Markup × List Char) :=
  match date? text with
  | some rest =>
    let behind := match rest with
      | 'T' :: timed | 't' :: timed | ' ' :: timed => (time? timed).map skipOffset
      | _ => none
    some (.table [], behind.getD rest)
  | none => (time? text).map fun rest => (.table [], rest)

def number? (text : List Char) : Option (Markup × List Char) :=
  match dateOrTime? text with
  | some found => some found
  | none =>
    let (sign, unsigned) := match text with
      | '-' :: rest => (some true, rest)
      | '+' :: rest => (some false, rest)
      | _ => (none, text)
    match sign, unsigned with
    | _, 'i' :: 'n' :: 'f' :: rest => some (.number none, rest)
    | _, 'n' :: 'a' :: 'n' :: rest => some (.number none, rest)
    | none, '0' :: 'x' :: rest => based? 16 isHexDigit rest
    | none, '0' :: 'o' :: rest => based? 8 (fun char => '0' ≤ char && char ≤ '7') rest
    | none, '0' :: 'b' :: rest => based? 2 (fun char => char == '0' || char == '1') rest
    | _, _ => decimal? (sign.getD false) unsigned

/-! ## Values and statements -/

mutual

/-- A value with at most so many brackets and braces around its parts. -/
def value? : Nat → Nat → List Char → Option (Markup × List Char)
  | 0, _, _ => none
  | fuel + 1, depth, text =>
    match text with
    | '"' :: _ | '\'' :: _ => (string? text).map fun (chars, rest) =>
      (.string (some (String.ofList chars)), rest)
    | '[' :: rest =>
      match depth with
      | 0 => none
      | depth + 1 => (items? fuel depth rest).map fun (items, rest) => (.array items, rest)
    | '\x7b' :: rest =>
      match depth with
      | 0 => none
      | depth + 1 =>
        match skipBlanks rest with
        | '\x7d' :: rest => some (.table [], rest)
        | rest => do
          let (pairs, rest) ← pairs? fuel depth rest
          return (← inlineTable? pairs, rest)
    | 't' :: rest => (behind? "rue".toList rest).map fun rest => (.boolean true, rest)
    | 'f' :: rest => (behind? "alse".toList rest).map fun rest => (.boolean false, rest)
    | _ => number? text

/-- The items of an array up to its closing bracket; a comma may follow the
last one. -/
def items? : Nat → Nat → List Char → Option (List Markup × List Char)
  | 0, _, _ => none
  | fuel + 1, depth, text =>
    match skipLines text.length text with
    | ']' :: rest => some ([], rest)
    | rest => do
      let (first, rest) ← value? fuel depth rest
      match skipLines rest.length rest with
      | ',' :: rest =>
        let (others, rest) ← items? fuel depth rest
        return (first :: others, rest)
      | ']' :: rest => return ([first], rest)
      | _ => none

/-- The pairs of an inline table up to its closing brace. -/
def pairs? : Nat → Nat → List Char → Option (List (List String × Markup) × List Char)
  | 0, _, _ => none
  | fuel + 1, depth, text => do
    let (path, rest) ← key? depthLimit text
    let rest ← behind? ['='] rest
    let (content, rest) ← value? fuel depth (skipBlanks rest)
    match skipBlanks rest with
    | ',' :: rest =>
      let (others, rest) ← pairs? fuel depth rest
      return ((path, content) :: others, rest)
    | '\x7d' :: rest => return ([(path, content)], rest)
    | _ => none

end

def statement? (text : List Char) : Option (Statement × List Char) := do
  match text with
  | '[' :: '[' :: rest =>
    let (path, rest) ← key? depthLimit rest
    let rest ← lineEnd? (← behind? [']', ']'] rest)
    return (.arrayHeader path, rest)
  | '[' :: rest =>
    let (path, rest) ← key? depthLimit rest
    let rest ← lineEnd? (← behind? [']'] rest)
    return (.header path, rest)
  | _ =>
    let (path, rest) ← key? depthLimit text
    let rest ← behind? ['='] rest
    let (content, rest) ← value? (rest.length + 1) depthLimit (skipBlanks rest)
    return (.pair path content, ← lineEnd? rest)

def statements? : Nat → List Char → Option (List Statement)
  | 0, _ => none
  | fuel + 1, text =>
    match skipLines text.length text with
    | [] => some []
    | rest => do
      let (first, rest) ← statement? rest
      return first :: (← statements? fuel rest)

/-- Drops the mark that may stand at the start of a text. -/
def dropByteOrderMark : List Char → List Char
  | '\ufeff' :: rest => rest
  | text => text

end Reader

def markup? (text : String) : Option Markup :=
  let characters := Reader.dropByteOrderMark text.toList
  (Reader.statements? (characters.length + 1) characters).bind document?

/-- A record that is given as a list may have more items than fields. -/
def recordForm : Markup.RecordForm := ⟨true⟩

end DocGraph.Toml
