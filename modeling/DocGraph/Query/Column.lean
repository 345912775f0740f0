namespace DocGraph.Column

/-- The column that every document has and that identifies it. -/
def id : String := "id"

/-- The name to which the text of a query binds each document. -/
def document : String := "c"

def startsPlain (char : Char) : Bool := char.isAlpha || char == '_'

def continuesPlain (char : Char) : Bool := char.isAlphanum || char == '_'

def isPlain (name : List Char) : Bool :=
  match name with
  | first :: rest => startsPlain first && rest.all continuesPlain
  | [] => false

def escape (char : Char) : List Char :=
  if char = '\\' ∨ char = '"' then ['\\', char] else [char]

/-- The characters of a reference to a column. -/
def referenceChars (name : List Char) : List Char :=
  if isPlain name then document.toList ++ '.' :: name
  else document.toList ++ '[' :: '"' :: (name.flatMap escape ++ ['"', ']'])

def reference (name : String) : String := String.ofList (referenceChars name.toList)

/-- The columns that a projection lists: the identifying one, then the distinct
others in the order of their first occurrence. -/
def projected (columns : List String) : List String :=
  columns.foldl (fun seen column => if seen.contains column then seen else seen ++ [column]) [id]

def projection (columns : List String) : String :=
  ", ".intercalate ((projected columns).map reference)

end DocGraph.Column
