import FormulaSheet.Formula.Expr
import FormulaSheet.Number.Binary64
import FormulaSheet.Text.Blank
import FormulaSheet.Text.Letter
import Mathlib.Data.List.Chain

/-!
# The sentences of the formula language

What a formula may look like, said without a reader. `Derives` is the grammar over tokens, one
constructor for each way to build a phrase, with its repetitions as lists. `Layout` is a sequence of
tokens written down with white space between them; it holds the only two conditions under which a
text cannot be cut into tokens in another way: no name begins with the word `not`, and white space
keeps a name apart from an `and` or `or` after it.
-/

namespace FormulaSheet

/-! ## Tokens -/

/-- A token of a formula. -/
inductive Token where
  | number (value : Decimal)
  | name (letters : List Char)
  | keyword (word : String)
  | mark (c : Char)

/-- The words of the language. -/
def keywords : List String := ["or", "and", "not", "max", "min"]

/-- The marks of the language. -/
def marks : List Char := ['*', '/', '+', '-', '=', '<', '>', '(', ')', ',']

namespace Token

/-- The ways to write a token. The case of a keyword's letters is free, and the point of a number
may be missing, stand last or stand first. -/
inductive Spells : Token → List Char → Prop
  | whole {w : List Char} : w ≠ [] → (∀ c ∈ w, c.isDigit) → Spells (.number (.ofDigits w [])) w
  | pointed {w f : List Char} : w ≠ [] → (∀ c ∈ w, c.isDigit) → (∀ c ∈ f, c.isDigit) →
      Spells (.number (.ofDigits w f)) (w ++ '.' :: f)
  | fraction {f : List Char} : f ≠ [] → (∀ c ∈ f, c.isDigit) →
      Spells (.number (.ofDigits [] f)) ('.' :: f)
  | name {c : Char} {cs : List Char} : isLetter c → (∀ d ∈ cs, isLetterOrNumeral d) →
      Spells (.name (c :: cs)) (c :: cs)
  | keyword {word : String} {w : List Char} : word ∈ keywords →
      w.map Char.toLower = word.toList → Spells (.keyword word) w
  | mark {c : Char} : c ∈ marks → Spells (.mark c) [c]

/-- The token is a name. -/
def IsName : Token → Prop
  | name _ => True
  | _ => False

/-- The token is a name whose first letters are n, o and t in either case. -/
def BeginsWithNot : Token → Prop
  | name letters => (letters.take 3).map Char.toLower = ['n', 'o', 't']
  | _ => False

/-- The token is one of the words between the parts of a condition. -/
def Joins (t : Token) : Prop := t = .keyword "and" ∨ t = .keyword "or"

/-- The token of an operator before one operand. -/
def sign : UnaryOp → Token
  | .neg => .mark '-'
  | .not => .keyword "not"

end Token

/-! ## Phrases -/

/-- The rules of the grammar, from the tightest to the loosest. -/
inductive Rule where
  | atom
  | signed
  | product
  | sum
  | comparison
  | conjunction
  | disjunction
  deriving DecidableEq

namespace Rule

/-- The rule for the operands of a rule with operators. -/
def operand : Rule → Rule
  | disjunction => conjunction
  | conjunction => comparison
  | comparison => sum
  | sum => product
  | _ => signed

/-- The operators of a rule with the tokens that stand for them. -/
def operators : Rule → List (Token × BinaryOp)
  | disjunction => [(.keyword "or", .or)]
  | conjunction => [(.keyword "and", .and)]
  | comparison => [(.mark '=', .eq), (.mark '<', .lt), (.mark '>', .gt)]
  | sum => [(.mark '+', .add), (.mark '-', .sub)]
  | product => [(.mark '*', .mul), (.mark '/', .div)]
  | _ => []

/-- A rule whose operators can stand any number of times, of which the first applies first. -/
def Repeating (rule : Rule) : Prop := rule ∈ [disjunction, conjunction, sum, product]

instance (rule : Rule) : Decidable rule.Repeating :=
  inferInstanceAs (Decidable (rule ∈ [disjunction, conjunction, sum, product]))

end Rule

/-- An operator and its right operand. -/
structure Link where
  token : Token
  op : BinaryOp
  tokens : List Token
  operand : Expr

namespace Link

/-- The operator and the operand as tokens. -/
def all (l : Link) : List Token := l.token :: l.tokens

/-- The expression that a link continues. -/
def extend (left : Expr) (l : Link) : Expr := .binary l.op left l.operand

end Link

/-- A sequence of tokens is a phrase of a rule and stands for an expression. -/
inductive Derives : Rule → List Token → Expr → Prop
  | chain {rule : Rule} {ts : List Token} {e : Expr} {links : List Link} : rule.Repeating →
      Derives rule.operand ts e →
      (∀ l ∈ links, (l.token, l.op) ∈ rule.operators) →
      (∀ l ∈ links, Derives rule.operand l.tokens l.operand) →
      Derives rule (ts ++ links.flatMap Link.all) (links.foldl Link.extend e)
  | single {ts : List Token} {e : Expr} : Derives .sum ts e → Derives .comparison ts e
  | compare {ts us : List Token} {e d : Expr} {t : Token} {op : BinaryOp} :
      Derives .sum ts e → (t, op) ∈ Rule.operators .comparison → Derives .sum us d →
      Derives .comparison (ts ++ t :: us) (.binary op e d)
  | signed {signs : List UnaryOp} {ts : List Token} {e : Expr} : Derives .atom ts e →
      Derives .signed (signs.map Token.sign ++ ts) (signs.foldr .unary e)
  | number {d : Decimal} : Derives .atom [.number d] (.number d.toFloat)
  | group {ts : List Token} {e : Expr} : Derives .disjunction ts e →
      Derives .atom (.mark '(' :: ts ++ [.mark ')']) e
  | call {f : Builtin} {ts us : List Token} {e d : Expr} :
      Derives .disjunction ts e → Derives .disjunction us d →
      Derives .atom (.keyword f.name :: .mark '(' :: ts ++ .mark ',' :: us ++ [.mark ')'])
        (.call f [e, d])
  | name {letters : List Char} : Derives .atom [.name letters] (.cell (String.ofList letters))

/-- An operand alone is a phrase of a rule whose operators may be missing. -/
theorem Derives.of_operand {rule : Rule} {ts : List Token} {e : Expr} (hrule : rule.Repeating)
    (h : Derives rule.operand ts e) : Derives rule ts e := by
  simpa using @Derives.chain rule ts e [] hrule h (by simp) (by simp)

/-- One more operator before an operand. -/
theorem Derives.sign {ts : List Token} {e : Expr} (op : UnaryOp) (h : Derives .signed ts e) :
    Derives .signed (.sign op :: ts) (.unary op e) := by
  cases h with
  | chain hrule => exact absurd hrule (by decide)
  | @signed signs _ _ hatom => exact @Derives.signed (op :: signs) _ _ hatom

/-- A phrase without operators between its parts is a formula. -/
theorem Derives.of_signed {ts : List Token} {e : Expr} (h : Derives .signed ts e) :
    Derives .disjunction ts e := by
  have hsum : Derives .sum ts e := .of_operand (by decide) (.of_operand (by decide) h)
  exact .of_operand (by decide) (.of_operand (by decide) (.single hsum))

/-! ## Layouts -/

/-- There may be no white space at all. -/
theorem allBlank_nil : allBlank [] = true := rfl

/-- A token as it is written, and the white space after it. -/
structure Lexeme where
  token : Token
  spelling : List Char
  space : List Char
  spells : token.Spells spelling
  blank : allBlank space = true

namespace Lexeme

/-- The text of a lexeme. -/
def text (x : Lexeme) : List Char := x.spelling ++ x.space

/-- White space keeps a name apart from an `and` or `or` after it. -/
def Apart (x y : Lexeme) : Prop := x.token.IsName → y.token.Joins → x.space ≠ []

end Lexeme

/-- A way to write down tokens, with any white space around them. -/
structure Layout where
  before : List Char
  lexemes : List Lexeme
  blank : allBlank before = true
  notNot : ∀ x ∈ lexemes, ¬ x.token.BeginsWithNot
  apart : lexemes.IsChain Lexeme.Apart

namespace Layout

/-- The tokens that are written. -/
def tokens (l : Layout) : List Token := l.lexemes.map (·.token)

/-- The written text. -/
def text (l : Layout) : List Char := l.before ++ l.lexemes.flatMap Lexeme.text

end Layout

/-- A text is a sentence that stands for an expression. -/
def Sentence (s : List Char) (e : Expr) : Prop :=
  ∃ l : Layout, l.text = s ∧ Derives .disjunction l.tokens e

end FormulaSheet
