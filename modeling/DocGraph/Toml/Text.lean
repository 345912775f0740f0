namespace DocGraph.Toml

/-- The longest run of a character in a text. -/
def longestRun (char : Char) (text : List Char) : Nat :=
  let (_, longest) := text.foldl (fun (run, longest) next =>
    let run := if next = char then run + 1 else 0
    (run, max longest run)) (0, 0)
  longest

/-- Whether a character can only be written as an escape. -/
def needsEscape (char : Char) : Bool :=
  char != '\t' && char != '\n' && (char.toNat ≤ 0x1F || char.toNat == 0x7F)

/-- A hexadecimal digit in upper case. -/
def upperHexDigit (digit : Nat) : Char :=
  if digit < 10 then Char.ofNat ('0'.toNat + digit) else Char.ofNat ('A'.toNat + digit - 10)

/-- The content of a quoted text. A quote is escaped when it would continue a
run of more quotes than may stand inside. -/
def escaped (multiline : Bool) (quotesInside : Nat) : Nat → List Char → List Char
  | _, [] => []
  | run, '"' :: rest =>
    if run < quotesInside then '"' :: escaped multiline quotesInside (run + 1) rest
    else '\\' :: '"' :: escaped multiline quotesInside 0 rest
  | _, char :: rest =>
    let written : List Char :=
      if char = '\x08' then ['\\', 'b']
      else if char = '\t' then ['\\', 't']
      else if char = '\n' then (if multiline then ['\n'] else ['\\', 'n'])
      else if char = '\x0c' then ['\\', 'f']
      else if char = '\r' then ['\\', 'r']
      else if char = '\\' then ['\\', '\\']
      else if char.toNat ≤ 0x1F ∨ char.toNat = 0x7F then
        ['\\', 'u', '0', '0', upperHexDigit (char.toNat / 16), upperHexDigit (char.toNat % 16)]
      else [char]
    written ++ escaped multiline quotesInside 0 rest

def basic (text : List Char) : List Char := '"' :: (escaped false 0 0 text ++ ['"'])

def multilineBasic (text : List Char) : List Char :=
  let opening := if text.contains '\n' then ['"', '"', '"', '\n'] else ['"', '"', '"']
  opening ++ escaped true 2 0 text ++ ['"', '"', '"']

def literal (text : List Char) : List Char := '\'' :: (text ++ ['\''])

def multilineLiteral (text : List Char) : List Char :=
  let opening := if text.contains '\n' then ['\'', '\'', '\'', '\n'] else ['\'', '\'', '\'']
  opening ++ text ++ ['\'', '\'', '\'']

def quoted (text : List Char) : List Char :=
  let escapes := text.any needsEscape
  let backslash := text.contains '\\'
  let newline := text.contains '\n'
  let quotes := longestRun '"' text
  let apostrophes := longestRun '\'' text
  if !escapes && !backslash && quotes == 0 && !newline then basic text
  else if !escapes && apostrophes == 0 && !newline then literal text
  else if !escapes && !backslash && quotes ≤ 2 then multilineBasic text
  else if !escapes && apostrophes ≤ 2 then multilineLiteral text
  else if newline then multilineBasic text
  else basic text

end DocGraph.Toml
