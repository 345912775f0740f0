import DocGraph.Proofs.Query.Token

namespace DocGraph

open Token (Spells)

namespace Column

/-- An ASCII letter or an underscore. -/
def Letter (char : Char) : Prop :=
  'a' ≤ char ∧ char ≤ 'z' ∨ 'A' ≤ char ∧ char ≤ 'Z' ∨ char = '_'

/-- A name of ASCII letters, digits and underscores that does not begin with a digit. -/
inductive Identifier : List Char → Prop
  | named {first : Char} {rest : List Char} (starts : Letter first)
      (continues : ∀ char ∈ rest, Letter char ∨ '0' ≤ char ∧ char ≤ '9') :
      Identifier (first :: rest)

theorem startsPlain_iff {char : Char} : startsPlain char = true ↔ Letter char := by
  have upper : char.isUpper = true ↔ 'A' ≤ char ∧ char ≤ 'Z' := decide_eq_true_iff
  have lower : char.isLower = true ↔ 'a' ≤ char ∧ char ≤ 'z' :=
    Bool.and_eq_true_iff.trans (and_congr decide_eq_true_iff decide_eq_true_iff)
  have alpha : char.isAlpha = true ↔ char.isLower = true ∨ char.isUpper = true :=
    Bool.or_eq_true_iff.trans or_comm
  rw [startsPlain, Bool.or_eq_true, beq_iff_eq, alpha, lower, upper, or_assoc]
  rfl

theorem continuesPlain_iff {char : Char} :
    continuesPlain char = true ↔ Letter char ∨ '0' ≤ char ∧ char ≤ '9' := by
  have digit : char.isDigit = true ↔ '0' ≤ char ∧ char ≤ '9' :=
    Bool.and_eq_true_iff.trans (and_congr decide_eq_true_iff decide_eq_true_iff)
  rw [← startsPlain_iff, ← digit]
  simp only [continuesPlain, startsPlain, Char.isAlphanum, Bool.or_eq_true]
  exact or_right_comm

theorem isPlain_iff {name : List Char} : isPlain name = true ↔ Identifier name := by
  cases name with
  | nil =>
      constructor
      · intro plain
        contradiction
      · intro identifier
        cases identifier
  | cons first rest =>
      simp only [isPlain, Bool.and_eq_true, List.all_eq_true, startsPlain_iff, continuesPlain_iff]
      constructor
      · intro plain
        exact .named plain.1 plain.2
      · intro identifier
        cases identifier with
        | named starts continues => exact ⟨starts, continues⟩

/-- How many backslashes a text ends in when so many stand in front of it. -/
def backslashes (count : Nat) : List Char → Nat
  | [] => count
  | char :: rest => backslashes (if char = '\\' then count + 1 else 0) rest

/-- Text that only the quote behind it ends: every quote inside stands behind an odd number of
backslashes, the last of which escapes it, and the one that ends it behind an even number. -/
structure Enclosed (quoted : List Char) : Prop where
  inside : ∀ before behind, quoted = before ++ '"' :: behind → backslashes 0 before % 2 = 1
  ending : backslashes 0 quoted % 2 = 0

/-- The characters that a quoted text stands for: behind a backslash any character stands for
itself. -/
def unescape : List Char → List Char
  | '\\' :: char :: rest => char :: unescape rest
  | char :: rest => char :: unescape rest
  | [] => []

/-- Pairs of backslashes escape each other, whatever comes behind them. -/
theorem backslashes_parity {left right : Nat} (same : left % 2 = right % 2) (text : List Char) :
    backslashes left text % 2 = backslashes right text % 2 := by
  induction text generalizing left right with
  | nil => exact same
  | cons char rest ih =>
      apply ih
      split
      · omega
      · rfl

namespace Enclosed

variable {char : Char} {rest : List Char}

theorem escaped (enclosed : Enclosed ('\\' :: char :: rest)) : Enclosed rest := by
  have even : (if char = '\\' then 2 else 0) % 2 = 0 % 2 := by split <;> rfl
  have skip : ∀ text, backslashes 0 ('\\' :: char :: text) % 2 = backslashes 0 text % 2 :=
    fun text => backslashes_parity even text
  constructor
  · intro before behind split
    rw [← skip]
    apply enclosed.inside _ behind
    rw [split]
    rfl
  · rw [← skip]
    exact enclosed.ending

theorem plain (enclosed : Enclosed (char :: rest)) (other : char ≠ '\\') :
    char ≠ '"' ∧ Enclosed rest := by
  have skip : ∀ text, backslashes 0 (char :: text) = backslashes 0 text := by
    intro text
    rw [backslashes, if_neg other]
  constructor
  · intro quote
    have odd := enclosed.inside [] rest (by rw [quote]; rfl)
    contradiction
  · constructor
    · intro before behind split
      rw [← skip]
      apply enclosed.inside _ behind
      rw [split]
      rfl
    · rw [← skip]
      exact enclosed.ending

theorem not_backslash : ¬Enclosed ['\\'] := by
  intro enclosed
  exact absurd enclosed.ending (by decide)

end Enclosed

theorem escape_eq (char : Char) : escape char = ['\\', char] ∧ (char = '\\' ∨ char = '"') ∨
    escape char = [char] ∧ char ≠ '\\' ∧ char ≠ '"' := by
  by_cases special : char = '\\' ∨ char = '"'
  · exact .inl ⟨if_pos special, special⟩
  · exact .inr ⟨if_neg special, not_or.mp special⟩

theorem unescape_escape (name : List Char) : unescape (name.flatMap escape) = name := by
  induction name with
  | nil => rfl
  | cons char name ih =>
      rw [List.flatMap_cons]
      rcases escape_eq char with ⟨escaped, _⟩ | ⟨alone, other, _⟩
      · rw [escaped]
        exact congrArg (char :: ·) ih
      · rw [alone, List.singleton_append, unescape]
        · rw [ih]
        · intro next rest same
          exact absurd same other

/-- Replacing the backslashes first and then the quotes, each by its escape, is one pass. -/
theorem flatMap_escape_eq (name : List Char) :
    name.flatMap escape =
      (name.flatMap fun char => if char = '\\' then ['\\', '\\'] else [char]).flatMap
        fun char => if char = '"' then ['\\', '"'] else [char] := by
  have each : ∀ char, escape char =
      (if char = '\\' then ['\\', '\\'] else [char]).flatMap
        fun char => if char = '"' then ['\\', '"'] else [char] := by
    intro char
    by_cases backslash : char = '\\'
    · rw [backslash]
      rfl
    · by_cases quote : char = '"'
      · rw [quote]
        rfl
      · simp [escape, backslash, quote]
  rw [List.flatMap_assoc]
  exact congrArg (fun step => name.flatMap step) (funext each)

theorem backslashes_escape {count : Nat} (even : count % 2 = 0) (name : List Char) :
    backslashes count (name.flatMap escape) % 2 = 0 := by
  induction name generalizing count with
  | nil => exact even
  | cons char name ih =>
      rw [List.flatMap_cons]
      rcases escape_eq char with ⟨escaped, _⟩ | ⟨alone, other, _⟩
      · rw [escaped]
        apply ih
        split
        · simp only [if_true]
          omega
        · rfl
      · rw [alone, List.singleton_append, backslashes, if_neg other]
        exact ih rfl

theorem backslashes_before_quote {count : Nat} (even : count % 2 = 0)
    {name before behind : List Char} (cut : name.flatMap escape = before ++ '"' :: behind) :
    backslashes count before % 2 = 1 := by
  induction name generalizing count before with
  | nil => simp at cut
  | cons char name ih =>
      rw [List.flatMap_cons] at cut
      rcases escape_eq char with ⟨escaped, special⟩ | ⟨alone, other, unquoted⟩
      · rw [escaped] at cut
        match before with
        | [] => simp at cut
        | [first] =>
            simp only [List.cons_append, List.nil_append, List.cons.injEq] at cut
            rw [← cut.1]
            simp only [backslashes, if_true]
            omega
        | first :: second :: rest =>
            simp only [List.cons_append, List.nil_append, List.cons.injEq] at cut
            obtain ⟨rfl, rfl, cut⟩ := cut
            apply ih _ cut
            split
            · simp only [if_true]
              omega
            · rfl
      · rw [alone, List.singleton_append] at cut
        cases before with
        | nil => exact absurd (List.cons.inj cut).1 unquoted
        | cons first rest =>
            rw [List.cons_append, List.cons.injEq] at cut
            obtain ⟨rfl, cut⟩ := cut
            rw [backslashes, if_neg other]
            exact ih rfl cut

theorem enclosed_escape (name : List Char) : Enclosed (name.flatMap escape) :=
  ⟨fun _ _ split => backslashes_before_quote rfl split, backslashes_escape rfl name⟩

/-- A text that refers to a column by its name. -/
inductive Denotes : String → String → Prop
  | plain {name : String} (identifier : Identifier name.toList) : Denotes ("c." ++ name) name
  | quoted {quoted name : String} (enclosed : Enclosed quoted.toList)
      (means : unescape quoted.toList = name.toList) :
      Denotes ("c[\"" ++ quoted ++ "\"]") name

theorem denotes_reference (name : String) : Denotes (reference name) name := by
  by_cases plain : isPlain name.toList = true
  · have written : reference name = "c." ++ name := by
      apply String.toList_inj.mp
      rw [reference, String.toList_ofList, referenceChars, if_pos plain, String.toList_append]
      rfl
    rw [written]
    exact .plain (isPlain_iff.mp plain)
  · have written : reference name =
        "c[\"" ++ String.ofList (name.toList.flatMap escape) ++ "\"]" := by
      apply String.toList_inj.mp
      rw [reference, String.toList_ofList, referenceChars, if_neg plain]
      simp [document]
    rw [written]
    apply Denotes.quoted
    · rw [String.toList_ofList]
      exact enclosed_escape name.toList
    · rw [String.toList_ofList, unescape_escape]

end Column

/-- A quoted text is read to the quote that ends it, and its escapes are undone. -/
theorem Lexeme.ofQuoted_enclosed {quoted : List Char} (enclosed : Column.Enclosed quoted)
    (rest : List Char) :
    ofQuoted (quoted ++ '"' :: ']' :: rest) =
      .quoted (Column.unescape quoted) :: ofPlain rest := by
  fun_induction Column.unescape quoted with
  | case1 char others ih =>
      rw [List.cons_append, List.cons_append, ofQuoted, ih enclosed.escaped, extendQuoted]
  | case2 char others unescaped ih =>
      have other : char ≠ '\\' := by
        intro backslash
        cases others with
        | nil =>
            rw [backslash] at enclosed
            exact Column.Enclosed.not_backslash enclosed
        | cons next others => exact unescaped next others backslash rfl
      obtain ⟨unquoted, later⟩ := enclosed.plain other
      rw [List.cons_append, ofQuoted, ih later, extendQuoted]
      · intro next same
        exact absurd same unquoted
      · intro same
        exact absurd same unquoted
      · intro next following same
        exact absurd same other
  | case3 => rw [List.nil_append, ofQuoted]

namespace Column

theorem Denotes.spells {text name : String} (denotes : Denotes text name) :
    Spells text [.column name] := by
  cases denotes with
  | plain identifier =>
      have spells := Spells.reference name
      rw [reference, referenceChars, if_pos (isPlain_iff.mpr identifier)] at spells
      have same : String.ofList (document.toList ++ '.' :: name.toList) = "c." ++ name := by
        apply String.toList_inj.mp
        simp [document]
      rwa [same] at spells
  | @quoted quoted _ enclosed means =>
      intro rest boundary
      have opening : ("c[\"" ++ quoted ++ "\"]").toList ++ rest =
          'c' :: '[' :: '"' :: (quoted.toList ++ '"' :: ']' :: rest) := by
        simp
      rw [opening, Token.ofChars, Lexeme.ofPlain, Lexeme.ofQuoted_enclosed enclosed, means]
      simp [Token.ofLexeme?, Token.ofChars]

theorem Denotes.unique {text name other : String} (denotes : Denotes text name)
    (also : Denotes text other) : other = name := by
  have tokens := also.spells.ofChars_eq.symm.trans denotes.spells.ofChars_eq
  simpa using tokens

end Column

end DocGraph
