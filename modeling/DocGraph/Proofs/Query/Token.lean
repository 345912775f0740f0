import DocGraph.Query.Column
import DocGraph.Query.Parameters

namespace DocGraph

/-- A piece of text, found without looking at what it means. -/
inductive Lexeme where
  | word (text : List Char)
  | symbol (text : List Char)
  /-- A reference by a quoted name, with its escapes undone. -/
  | quoted (name : List Char)
  | mark (char : Char)
  | space

namespace Lexeme

def isWordChar (char : Char) : Bool :=
  char.isAlphanum || char == '_' || char == '.' || char == '@'

def isSymbolChar (char : Char) : Bool :=
  char == '=' || char == '!' || char == '<' || char == '>'

def extendWord (char : Char) : List Lexeme → List Lexeme
  | word text :: rest => word (char :: text) :: rest
  | rest => word [char] :: rest

def extendSymbol (char : Char) : List Lexeme → List Lexeme
  | symbol text :: rest => symbol (char :: text) :: rest
  | rest => symbol [char] :: rest

def extendQuoted (char : Char) : List Lexeme → List Lexeme
  | quoted name :: rest => quoted (char :: name) :: rest
  | rest => rest

mutual

/-- The lexemes of a text outside of quotes. -/
def ofPlain : List Char → List Lexeme
  | [] => []
  | 'c' :: '[' :: '"' :: rest => ofQuoted rest
  | char :: rest =>
    if isWordChar char then extendWord char (ofPlain rest)
    else if isSymbolChar char then extendSymbol char (ofPlain rest)
    else if char = ' ' then space :: ofPlain rest
    else mark char :: ofPlain rest

/-- The lexemes of a text from inside a quoted name, of which the first is the
rest of that name. -/
def ofQuoted : List Char → List Lexeme
  | [] => [mark '"']
  | '"' :: ']' :: rest => quoted [] :: ofPlain rest
  | '"' :: rest => mark '"' :: ofPlain rest
  | '\\' :: char :: rest => extendQuoted char (ofQuoted rest)
  | char :: rest => extendQuoted char (ofQuoted rest)

end

end Lexeme

inductive Token where
  | column (name : String)
  | parameter (name : String)
  | word (text : String)
  | symbol (text : String)
  | opening
  | closing
  | comma
  | notWord
  | andWord
  | orWord
  | literal (value : Bool)
  /-- A character that stands for nothing. -/
  | stray (char : Char)
deriving DecidableEq

namespace Token

def ofKeyword (text : String) : Token :=
  if text = "NOT" then notWord
  else if text = "AND" then andWord
  else if text = "OR" then orWord
  else if text = "true" then literal true
  else if text = "false" then literal false
  else word text

/-- A word may be a property of the document or a parameter. -/
def ofWord : List Char → Token
  | 'c' :: '.' :: name =>
    if name.contains '.' then ofKeyword (String.ofList ('c' :: '.' :: name))
    else column (String.ofList name)
  | '@' :: name => parameter (String.ofList ('@' :: name))
  | text => ofKeyword (String.ofList text)

def ofMark : Char → Token
  | '(' => opening
  | ')' => closing
  | ',' => comma
  | char => stray char

def ofLexeme? : Lexeme → Option Token
  | .word text => some (ofWord text)
  | .symbol text => some (symbol (String.ofList text))
  | .quoted name => some (column (String.ofList name))
  | .mark char => some (ofMark char)
  | .space => none

/-- The tokens of a text. Between them there may be spaces. -/
def ofChars (text : List Char) : List Token := (Lexeme.ofPlain text).filterMap ofLexeme?

end Token

namespace Lexeme

/-- A character at which words, symbols and references end. -/
def Delimiter (char : Char) : Prop := char = ' ' ∨ char = '(' ∨ char = ')' ∨ char = ','

instance : DecidablePred Delimiter :=
  fun char => inferInstanceAs (Decidable (char = ' ' ∨ char = '(' ∨ char = ')' ∨ char = ','))

/-- A text at whose beginning whatever stood before has ended. -/
def Boundary : List Char → Prop
  | [] => True
  | char :: _ => Delimiter char

variable {char : Char} {text rest : List Char}

theorem ofPlain_cons (char : Char) (rest : List Char) (unquoted : rest.head? ≠ some '[') :
    ofPlain (char :: rest) =
      if isWordChar char then extendWord char (ofPlain rest)
      else if isSymbolChar char then extendSymbol char (ofPlain rest)
      else if char = ' ' then space :: ofPlain rest
      else mark char :: ofPlain rest := by
  rw [ofPlain]
  rintro rest rfl rfl
  simp at unquoted

theorem ofPlain_delimiter (delimiter : Delimiter char) (rest : List Char) :
    ofPlain (char :: rest) = (if char = ' ' then space else mark char) :: ofPlain rest := by
  rcases delimiter with rfl | rfl | rfl | rfl <;> simp [ofPlain, isWordChar, isSymbolChar]

theorem Boundary.head?_ne (boundary : Boundary rest) : rest.head? ≠ some '[' := by
  cases rest with
  | nil => simp
  | cons char rest => rcases boundary with rfl | rfl | rfl | rfl <;> simp

theorem Boundary.extendWord (boundary : Boundary rest) :
    extendWord char (ofPlain rest) = word [char] :: ofPlain rest := by
  cases rest with
  | nil => rfl
  | cons next rest =>
      rw [ofPlain_delimiter boundary]
      split <;> rfl

theorem Boundary.extendSymbol (boundary : Boundary rest) :
    extendSymbol char (ofPlain rest) = symbol [char] :: ofPlain rest := by
  cases rest with
  | nil => rfl
  | cons next rest =>
      rw [ofPlain_delimiter boundary]
      split <;> rfl

theorem extendWord_append {front back : List Lexeme} (nonempty : front ≠ []) :
    extendWord char (front ++ back) = extendWord char front ++ back := by
  cases front with
  | nil => contradiction
  | cons first others => cases first <;> rfl

theorem extendSymbol_append {front back : List Lexeme} (nonempty : front ≠ []) :
    extendSymbol char (front ++ back) = extendSymbol char front ++ back := by
  cases front with
  | nil => contradiction
  | cons first others => cases first <;> rfl

theorem extendWord_ne_nil (lexemes : List Lexeme) : extendWord char lexemes ≠ [] := by
  cases lexemes with
  | nil => simp [extendWord]
  | cons first others => cases first <;> simp [extendWord]

theorem extendSymbol_ne_nil (lexemes : List Lexeme) : extendSymbol char lexemes ≠ [] := by
  cases lexemes with
  | nil => simp [extendSymbol]
  | cons first others => cases first <;> simp [extendSymbol]

theorem ofPlain_ne_nil (unquoted : rest.head? ≠ some '[') : ofPlain (char :: rest) ≠ [] := by
  rw [ofPlain_cons char rest unquoted]
  split
  · exact extendWord_ne_nil _
  · split
    · exact extendSymbol_ne_nil _
    · split <;> simp

/-- Texts may be read one after the other where they meet at a delimiter. -/
theorem ofPlain_append (unquoted : '[' ∉ text)
    (seam : Boundary rest ∨ ∃ last ∈ text.getLast?, Delimiter last) :
    ofPlain (text ++ rest) = ofPlain text ++ ofPlain rest := by
  induction text with
  | nil => simp [ofPlain]
  | cons char text ih =>
      cases text with
      | nil =>
          have single := ofPlain_cons char [] (by simp)
          rcases seam with boundary | ⟨last, here, delimiter⟩
          · rw [List.singleton_append, ofPlain_cons char rest boundary.head?_ne, single,
              boundary.extendWord, boundary.extendSymbol]
            simp only [ofPlain, extendWord, extendSymbol]
            split
            · rfl
            · split
              · rfl
              · split <;> rfl
          · obtain rfl : char = last := by simpa using here
            rw [List.singleton_append, ofPlain_delimiter delimiter, ofPlain_delimiter delimiter]
            rfl
      | cons next text =>
          have parts : '[' ≠ char ∧ '[' ≠ next ∧ '[' ∉ text := by simpa using unquoted
          have both := ih (by simp [parts]) (seam.imp_right fun ends => by simpa using ends)
          have nonempty : ofPlain (next :: text) ≠ [] := by
            refine ofPlain_ne_nil fun opens => ?_
            cases text with
            | nil => simp at opens
            | cons third text => simp_all
          rw [List.cons_append, ofPlain_cons char (next :: text ++ rest) (by simp [parts.2.1.symm]),
            ofPlain_cons char (next :: text) (by simp [parts.2.1.symm]), both,
            extendWord_append nonempty, extendSymbol_append nonempty]
          split
          · rfl
          · split
            · rfl
            · split <;> rfl

theorem not_mem_of_word (chars : ∀ char ∈ text, isWordChar char = true) : '[' ∉ text := by
  intro member
  have bracket := chars '[' member
  simp [isWordChar] at bracket

theorem ofPlain_word (nonempty : text ≠ []) (chars : ∀ char ∈ text, isWordChar char = true) :
    ofPlain text = [word text] := by
  induction text with
  | nil => contradiction
  | cons char text ih =>
      have others : ∀ other ∈ text, isWordChar other = true :=
        fun other member => chars other (.tail _ member)
      have unquoted : text.head? ≠ some '[' :=
        fun opens => not_mem_of_word others (List.mem_of_mem_head? opens)
      rw [ofPlain_cons char text unquoted, if_pos (chars char List.mem_cons_self)]
      cases text with
      | nil => rfl
      | cons next text =>
          rw [ih (by simp) others]
          rfl

/-- A quoted name ends at the first quote that is not escaped. -/
theorem ofQuoted_escape (name rest : List Char) :
    ofQuoted (name.flatMap Column.escape ++ '"' :: ']' :: rest) = quoted name :: ofPlain rest := by
  induction name with
  | nil => simp [ofQuoted]
  | cons char name ih =>
      rw [List.flatMap_cons, List.append_assoc]
      simp only [Column.escape]
      split
      · simp [ofQuoted, ih, extendQuoted]
      · next plain =>
          rw [List.singleton_append, ofQuoted]
          · rw [ih, extendQuoted]
          · rintro _ rfl
            simp at plain
          · rintro rfl
            simp at plain
          · rintro _ _ rfl
            simp at plain

end Lexeme

theorem Column.continuesPlain_of_isPlain {name : List Char}
    (plain : isPlain name = true) :
    ∀ char ∈ name, continuesPlain char = true := by
  cases name with
  | nil => simp
  | cons first others =>
      obtain ⟨starts, continues⟩ := Bool.and_eq_true_iff.mp plain
      intro char member
      rcases List.mem_cons.mp member with rfl | member
      · rcases Bool.or_eq_true_iff.mp starts with alpha | underscore
        · simp [continuesPlain, Char.isAlphanum, alpha]
        · simp [continuesPlain, underscore]
      · exact List.all_eq_true.mp continues char member

namespace Token

open Lexeme

/-- A text with these tokens, wherever it is followed by a delimiter. -/
def Spells (text : String) (tokens : List Token) : Prop :=
  ∀ rest, Boundary rest → ofChars (text.toList ++ rest) = tokens ++ ofChars rest

/-- Fixed text that has ended before whatever follows it. -/
def Leads (text : String) (tokens : List Token) : Prop :=
  '[' ∉ text.toList ∧ text.toList.getLast?.any (Delimiter ·) = true ∧
    ofChars text.toList = tokens

/-- Fixed text that ends whatever comes before it. -/
def Closes (text : String) (tokens : List Token) : Prop :=
  '[' ∉ text.toList ∧ text.toList.head?.any (Delimiter ·) = true ∧
    ofChars text.toList = tokens

instance (text : String) (tokens : List Token) : Decidable (Leads text tokens) :=
  inferInstanceAs (Decidable (_ ∧ _ ∧ _))

instance (text : String) (tokens : List Token) : Decidable (Closes text tokens) :=
  inferInstanceAs (Decidable (_ ∧ _ ∧ _))

namespace Spells

variable {front back fixed : String} {before middle behind : List Token}

theorem ofChars_eq (spells : Spells front before) : ofChars front.toList = before := by
  have whole := spells [] trivial
  rwa [List.append_nil, show ofChars [] = [] from rfl, List.append_nil] at whole

theorem of_unquoted (unquoted : '[' ∉ front.toList) : Spells front (ofChars front.toList) := by
  intro rest boundary
  rw [ofChars, ofPlain_append unquoted (.inl boundary), List.filterMap_append]
  rfl

theorem append (first : Spells front before) (second : Spells back behind)
    (seam : Boundary back.toList) : Spells (front ++ back) (before ++ behind) := by
  intro rest boundary
  have meets : Boundary (back.toList ++ rest) := by
    cases chars : back.toList with
    | nil => exact boundary
    | cons char others => rwa [chars] at seam
  rw [String.toList_append, List.append_assoc, first _ meets, second rest boundary,
    List.append_assoc]

theorem boundary_of_begins {text : List Char}
    (begins : text.head?.any (Delimiter ·) = true) : Boundary text := by
  cases text with
  | nil => trivial
  | cons char others =>
      have delimiter : Delimiter char := by simpa using begins
      exact delimiter

theorem lead (leads : Leads fixed middle) (second : Spells back behind) :
    Spells (fixed ++ back) (middle ++ behind) := by
  obtain ⟨unquoted, ends, rfl⟩ := leads
  obtain ⟨last, here, delimiter⟩ := (Option.any_eq_true _ _).mp ends
  intro rest boundary
  rw [String.toList_append, List.append_assoc, ofChars, ofPlain_append unquoted
    (.inr ⟨last, here, of_decide_eq_true delimiter⟩),
    List.filterMap_append, List.append_assoc, ← second rest boundary]
  rfl

theorem close (first : Spells front before) (closes : Closes fixed middle) :
    Spells (front ++ fixed) (before ++ middle) := by
  obtain ⟨unquoted, begins, rfl⟩ := closes
  exact first.append (of_unquoted unquoted) (boundary_of_begins begins)

theorem between (first : Spells front before) (closes : Closes fixed middle)
    (leads : Leads fixed middle) (second : Spells back behind) :
    Spells (front ++ fixed ++ back) (before ++ middle ++ behind) := by
  obtain ⟨_, begins, _⟩ := closes
  rw [String.append_assoc, List.append_assoc]
  refine first.append (lead leads second) (boundary_of_begins ?_)
  obtain ⟨char, here, delimiter⟩ := (Option.any_eq_true _ _).mp begins
  rw [String.toList_append, List.head?_append, here]
  exact delimiter

theorem word {text : String} (nonempty : text ≠ "")
    (chars : ∀ char ∈ text.toList, isWordChar char = true) :
    Spells text [ofWord text.toList] := by
  have spells := of_unquoted (not_mem_of_word chars)
  rwa [ofChars, ofPlain_word (fun empty => nonempty (String.toList_inj.mp empty)) chars] at spells

theorem parameter (place : Nat) :
    Spells (Parameters.nameAt place) [.parameter (Parameters.nameAt place)] := by
  have digits : ∀ char ∈ (Nat.repr (place + 1)).toList, char.isDigit = true := by
    intro char member
    rw [Nat.toList_repr] at member
    exact Nat.isDigit_of_mem_toDigits (by decide) (by decide) member
  have chars : (Parameters.nameAt place).toList = '@' :: 'p' :: (Nat.repr (place + 1)).toList := by
    simp [Parameters.nameAt]
  have spells : Spells (Parameters.nameAt place) [ofWord (Parameters.nameAt place).toList] := by
    refine word (fun empty => ?_) fun char member => ?_
    · rw [empty] at chars
      simp at chars
    · rw [chars] at member
      rcases List.mem_cons.mp member with rfl | member
      · decide
      · rcases List.mem_cons.mp member with rfl | member
        · decide
        · simp [isWordChar, Char.isAlphanum, digits char member]
  rwa [chars, ofWord, ← chars, String.ofList_toList] at spells

/-- A reference to a column is one token, whatever its name contains. -/
theorem reference (name : String) : Spells (Column.reference name) [.column name] := by
  intro rest boundary
  rw [Column.reference, String.toList_ofList, Column.referenceChars]
  split
  · next plain =>
      have continues := Column.continuesPlain_of_isPlain plain
      have undotted : name.toList.contains '.' = false := by
        rw [List.contains_eq_mem, decide_eq_false_iff_not]
        intro member
        have dot := continues '.' member
        simp [Column.continuesPlain] at dot
      have chars : ∀ char ∈ 'c' :: '.' :: name.toList, isWordChar char = true := by
        intro char member
        rcases List.mem_cons.mp member with rfl | member
        · decide
        · rcases List.mem_cons.mp member with rfl | member
          · decide
          · rcases Bool.or_eq_true_iff.mp (continues char member) with alphanum | underscore
            · simp [isWordChar, alphanum]
            · simp [isWordChar, underscore]
      have read := ofPlain_append (not_mem_of_word chars) (.inl boundary)
      have front : Column.document.toList ++ '.' :: name.toList ++ rest =
          'c' :: '.' :: name.toList ++ rest := rfl
      rw [ofPlain_word (by simp) chars] at read
      rw [front, ofChars, read, List.singleton_append, List.filterMap_cons, ofLexeme?, ofWord,
        undotted]
      simp [ofChars]
  · have quoted := ofQuoted_escape name.toList rest
    have opening : Column.document.toList ++
        '[' :: '"' :: (name.toList.flatMap Column.escape ++ ['"', ']']) ++ rest =
          'c' :: '[' :: '"' :: (name.toList.flatMap Column.escape ++ '"' :: ']' :: rest) := by
      simp [Column.document]
    rw [opening, ofChars, ofPlain, quoted]
    simp [ofLexeme?, ofChars]

end Spells

end Token

end DocGraph
