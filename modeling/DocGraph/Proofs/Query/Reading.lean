import DocGraph.Query.Condition
import DocGraph.Proofs.Query.Token
import Mathlib.Logic.Function.Basic

/-!
# Reading conditions

What the tokens of a condition say, given what is true of its comparisons. A
negation binds closer than a conjunction and a conjunction closer than a
disjunction. Tokens have at most one reading: a reader that goes over them once
finds it.
-/

namespace DocGraph

inductive Operand where
  | column (name : String)
  | parameter (name : String)
deriving DecidableEq

def Operand.token : Operand → Token
  | column name => .column name
  | parameter name => .parameter name

/-- How a comparison of the query language relates its operands. -/
inductive Operation where
  | relation (symbol : Symbol) (ignoreCase : Bool)
  | sameText
  | contains (ignoreCase : Bool)
  | member (ignoreCase : Bool)
  | defined
deriving DecidableEq

def Symbol.spelling : Symbol → String
  | equal => "="
  | notEqual => "!="
  | less => "<"
  | lessOrEqual => "<="
  | greater => ">"
  | greaterOrEqual => ">="

namespace Operation

open Token

/-- The grammar of comparisons. -/
def tokens (left right : Token) : Operation → List Token
  | relation relator false => [left, symbol relator.spelling, right]
  | relation relator true =>
    [word "LOWER", opening, left, closing, symbol relator.spelling,
      word "LOWER", opening, right, closing]
  | sameText => [word "STRINGEQUALS", opening, left, comma, right, comma, literal true, closing]
  | contains false => [word "CONTAINS", opening, left, comma, right, closing]
  | contains true =>
    [word "CONTAINS", opening, left, comma, right, comma, literal true, closing]
  | member false => [word "ARRAY_CONTAINS", opening, left, comma, right, closing]
  | member true =>
    [word "EXISTS", opening, word "SELECT", word "VALUE", word "v", word "FROM", word "v",
      word "IN", left, word "WHERE", word "STRINGEQUALS", opening, word "v", comma, right, comma,
      literal true, closing, closing]
  | defined => [word "IS_DEFINED", opening, left, closing, symbol "=", right]

end Operation

/-- A comparison that is true or false of a document. -/
structure Fact where
  operation : Operation
  left : Operand
  right : Operand
deriving DecidableEq

def Fact.tokens (fact : Fact) : List Token := fact.operation.tokens fact.left.token fact.right.token

inductive Precedence where
  | factor
  | conjunction
  | disjunction

/-- The tokens of a condition have a value under an assignment of truth values
to comparisons. -/
inductive Reading (truth : Fact → Bool) : Precedence → List Token → Bool → Prop
  | fact (fact : Fact) : Reading truth .factor fact.tokens (truth fact)
  | literal (value : Bool) : Reading truth .factor [.literal value] value
  | not {tokens : List Token} {value : Bool} (inner : Reading truth .factor tokens value) :
      Reading truth .factor (.notWord :: tokens) (!value)
  | group {tokens : List Token} {value : Bool} (inner : Reading truth .disjunction tokens value) :
      Reading truth .factor (.opening :: tokens ++ [.closing]) value
  | factor {tokens : List Token} {value : Bool} (inner : Reading truth .factor tokens value) :
      Reading truth .conjunction tokens value
  | and {front back : List Token} {left right : Bool}
      (first : Reading truth .conjunction front left) (second : Reading truth .factor back right) :
      Reading truth .conjunction (front ++ .andWord :: back) (left && right)
  | conjunction {tokens : List Token} {value : Bool}
      (inner : Reading truth .conjunction tokens value) : Reading truth .disjunction tokens value
  | or {front back : List Token} {left right : Bool}
      (first : Reading truth .disjunction front left)
      (second : Reading truth .conjunction back right) :
      Reading truth .disjunction (front ++ .orWord :: back) (left || right)

theorem Operand.token_injective : Function.Injective Operand.token := by
  intro left right same
  cases left <;> cases right <;> simp_all [token]

theorem Symbol.spelling_injective : Function.Injective Symbol.spelling := by
  intro left right same
  cases left <;> cases right <;> simp_all [spelling]

/-- The tokens of a comparison tell how it relates what to what. -/
theorem Operation.eq_of_tokens_eq {first second : Operation} {left right left' right' : Token}
    (unnamed : ∀ text, left ≠ .word text) (unnamed' : ∀ text, left' ≠ .word text)
    (same : first.tokens left right = second.tokens left' right') :
    first = second ∧ left = left' ∧ right = right' := by
  have unnamedSymm : ∀ text, .word text ≠ left' := fun text named => unnamed' text named.symm
  rcases first with ⟨symbol, _ | _⟩ | _ | _ | _ | _ <;>
    rcases second with ⟨symbol', _ | _⟩ | _ | _ | _ | _ <;>
    simp [tokens, unnamed, unnamedSymm, Symbol.spelling_injective.eq_iff] at same ⊢
  all_goals grind

theorem Fact.tokens_injective : Function.Injective Fact.tokens := by
  intro fact other same
  obtain ⟨first, left, right⟩ := fact
  obtain ⟨second, left', right'⟩ := other
  have unnamed : ∀ (operand : Operand) (text : String), operand.token ≠ .word text := by
    intro operand text
    cases operand <;> simp [Operand.token]
  obtain ⟨rfl, sameLeft, sameRight⟩ :=
    Operation.eq_of_tokens_eq (unnamed left) (unnamed left') same
  obtain rfl : left = left' := Operand.token_injective sameLeft
  obtain rfl : right = right' := Operand.token_injective sameRight
  rfl

theorem Fact.two_lt_length_tokens (fact : Fact) : 2 < fact.tokens.length := by
  obtain ⟨operation, left, right⟩ := fact
  rcases operation with ⟨symbol, _ | _⟩ | _ | ⟨_ | _⟩ | ⟨_ | _⟩ | _ <;>
    simp [tokens, Operation.tokens]

/-- What has been read inside of one pair of parentheses: the alternatives before
the last `OR`, the factors after it, and whether the next factor is negated. -/
structure Level where
  any : Bool
  all : Bool
  negated : Bool

namespace Level

def opened : Level := ⟨false, true, false⟩

def value (level : Level) : Bool := level.any || level.all

def negate (level : Level) : Level := { level with negated := !level.negated }

def add (level : Level) (factor : Bool) : Level :=
  ⟨level.any, level.all && (level.negated ^^ factor), false⟩

def alternative (level : Level) : Level := ⟨level.value, true, false⟩

end Level

/-- A reader keeps the tokens of a comparison until it ends; they may contain
parentheses of their own. -/
structure Reader where
  outer : List Level
  current : Level
  pending : List Token
  depth : Nat

namespace Reader

variable {truth : Fact → Bool}

def collect (reader : Reader) (token : Token) : Reader :=
  { reader with pending := reader.pending ++ [token] }

def enter (reader : Reader) : Reader :=
  { reader with outer := reader.current :: reader.outer, current := .opened }

def leave (reader : Reader) : Reader :=
  match reader.outer with
  | [] => reader
  | level :: outer => { reader with outer, current := level.add reader.current.value }

/-- The value of the tokens between two words of the logic. -/
noncomputable def factor (truth : Fact → Bool) : List Token → Bool
  | [.literal value] => value
  | tokens => Function.extend Fact.tokens truth (fun _ => false) tokens

noncomputable def flush (truth : Fact → Bool) (reader : Reader) : Reader :=
  if reader.pending.isEmpty then reader
  else { reader with current := reader.current.add (factor truth reader.pending), pending := [] }

noncomputable def step (truth : Fact → Bool) (reader : Reader) : Token → Reader
  | .opening =>
    if reader.pending.isEmpty then reader.enter
    else { reader.collect .opening with depth := reader.depth + 1 }
  | .closing =>
    if reader.depth = 0 then (reader.flush truth).leave
    else { reader.collect .closing with depth := reader.depth - 1 }
  | .notWord => { reader with current := reader.current.negate }
  | .andWord => reader.flush truth
  | .orWord =>
    { reader.flush truth with current := (reader.flush truth).current.alternative }
  | token => reader.collect token

/-- Where the tokens lead if a word of the logic, or nothing, follows them. -/
def Settles (truth : Fact → Bool) (reader : Reader) (tokens : List Token) (after : Reader) :
    Prop :=
  (tokens.foldl (step truth) reader).depth = 0 ∧
    (tokens.foldl (step truth) reader).flush truth = after

/-- What tokens of a precedence do to a reader that nothing is pending for. -/
def Takes (truth : Fact → Bool) (tokens : List Token) (value : Bool) : Precedence → Prop
  | .factor => ∀ outer current,
      Settles truth ⟨outer, current, [], 0⟩ tokens ⟨outer, current.add value, [], 0⟩
  | .conjunction => ∀ outer any all,
      Settles truth ⟨outer, ⟨any, all, false⟩, [], 0⟩ tokens
        ⟨outer, ⟨any, all && value, false⟩, [], 0⟩
  | .disjunction => ∀ outer, ∃ any all, (any || all) = value ∧
      Settles truth ⟨outer, .opened, [], 0⟩ tokens ⟨outer, ⟨any, all, false⟩, [], 0⟩

theorem factor_tokens (fact : Fact) : factor truth fact.tokens = truth fact := by
  have extended : Function.extend Fact.tokens truth (fun _ => false) fact.tokens = truth fact :=
    Fact.tokens_injective.extend_apply truth _ fact
  rw [← extended, factor]
  intro value literal
  have long := fact.two_lt_length_tokens
  simp [literal] at long

theorem foldl_fact (fact : Fact) (outer : List Level) (current : Level) :
    fact.tokens.foldl (step truth) ⟨outer, current, [], 0⟩ = ⟨outer, current, fact.tokens, 0⟩ := by
  obtain ⟨operation, left, right⟩ := fact
  rcases operation with ⟨symbol, _ | _⟩ | _ | ⟨_ | _⟩ | ⟨_ | _⟩ | _ <;>
    cases left <;> cases right <;>
    simp [Fact.tokens, Operation.tokens, Operand.token, step, collect]

theorem takes_of_reading {precedence : Precedence} {tokens : List Token} {value : Bool}
    (reading : Reading truth precedence tokens value) : Takes truth tokens value precedence := by
  induction reading with
  | fact fact =>
      intro outer current
      have nonempty : fact.tokens ≠ [] := by
        have long := fact.two_lt_length_tokens
        intro empty
        simp [empty] at long
      rw [Settles, foldl_fact]
      simp [flush, nonempty, factor_tokens]
  | literal value =>
      intro outer current
      simp [Settles, step, collect, flush, factor]
  | @not tokens value _ ih =>
      intro outer current
      have negated := ih outer current.negate
      have double : current.negate.add value = current.add (!value) := by
        simp [Level.add, Level.negate]
      rw [double] at negated
      exact negated
  | @group tokens value _ ih =>
      intro outer current
      obtain ⟨any, all, same, depth, settled⟩ := ih (current :: outer)
      have opens : step truth ⟨outer, current, [], 0⟩ .opening =
          ⟨current :: outer, .opened, [], 0⟩ := rfl
      have closes : step truth (tokens.foldl (step truth) ⟨current :: outer, .opened, [], 0⟩)
          .closing = ⟨outer, current.add value, [], 0⟩ := by
        rw [step, if_pos depth, settled]
        simp [leave, Level.value, same]
      rw [Settles, List.cons_append, List.foldl_cons, opens, List.foldl_append]
      simp [closes, flush]
  | @factor tokens value _ ih =>
      intro outer any all
      have added := ih outer ⟨any, all, false⟩
      simpa [Level.add] using added
  | @and front back left right _ _ ih ih' =>
      intro outer any all
      obtain ⟨_, settled⟩ := ih outer any all
      have added := ih' outer ⟨any, all && left, false⟩
      rw [Settles, List.foldl_append, List.foldl_cons, step, settled]
      simpa [Settles, Level.add, Bool.and_assoc] using added
  | @conjunction tokens value _ ih =>
      intro outer
      exact ⟨false, value, rfl, ih outer false true⟩
  | @or front back left right _ _ ih ih' =>
      intro outer
      obtain ⟨any, all, same, _, settled⟩ := ih outer
      have added := ih' outer left true
      refine ⟨left, right, rfl, ?_⟩
      rw [Settles, List.foldl_append, List.foldl_cons, step, settled]
      simpa [Settles, Level.alternative, Level.value, same] using added

end Reader

/-- Tokens have one value only. -/
theorem Reading.value_eq {truth : Fact → Bool} {tokens : List Token} {left right : Bool}
    (first : Reading truth .disjunction tokens left)
    (second : Reading truth .disjunction tokens right) : left = right := by
  obtain ⟨any, all, rfl, _, ends⟩ := Reader.takes_of_reading first []
  obtain ⟨any', all', rfl, _, ends'⟩ := Reader.takes_of_reading second []
  have same : (⟨any, all, false⟩ : Level) = ⟨any', all', false⟩ :=
    congrArg Reader.current (ends.symm.trans ends')
  exact congrArg Level.value same

end DocGraph
