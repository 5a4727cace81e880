import StepGraph.Value.Text

/-!
# Tokens of the expression language

An expression is a list of tokens: literals, names and symbols. The words that mean a symbol or
a literal are reserved.
-/

namespace StepGraph.Expression

/-- A symbol of the expression language. -/
inductive Symbol where
  | strictEqual
  | strictUnequal
  | looseEqual
  | looseUnequal
  | lessOrEqual
  | greaterOrEqual
  | and
  | or
  | less
  | greater
  | bang
  | plus
  | minus
  | times
  | divide
  | percent
  | openParen
  | closeParen
  | dot
  | openBracket
  | closeBracket
  | question
  | colon
  | comma
  deriving DecidableEq, Repr

/-- How a symbol is written. -/
def Symbol.text : Symbol → String
  | .strictEqual => "==="
  | .strictUnequal => "!=="
  | .looseEqual => "=="
  | .looseUnequal => "!="
  | .lessOrEqual => "<="
  | .greaterOrEqual => ">="
  | .and => "&&"
  | .or => "||"
  | .less => "<"
  | .greater => ">"
  | .bang => "!"
  | .plus => "+"
  | .minus => "-"
  | .times => "*"
  | .divide => "/"
  | .percent => "%"
  | .openParen => "("
  | .closeParen => ")"
  | .dot => "."
  | .openBracket => "["
  | .closeBracket => "]"
  | .question => "?"
  | .colon => ":"
  | .comma => ","

/-- All symbols, longer ones before those that they begin with. -/
def Symbol.all : List Symbol :=
  [.strictEqual, .strictUnequal, .looseEqual, .looseUnequal, .lessOrEqual, .greaterOrEqual,
   .and, .or, .less, .greater, .bang, .plus, .minus, .times, .divide, .percent, .openParen,
   .closeParen, .dot, .openBracket, .closeBracket, .question, .colon, .comma]

/-- A token of an expression. -/
inductive Token where
  /-- A number, text, or one of the four literal words. -/
  | literal (value : Value)
  | name (value : String)
  | symbol (value : Symbol)

/-- What a token holds, as a value. -/
def Token.value : Token → Value
  | .literal v => v
  | .name s => .text s
  | .symbol s => .text s.text

/-- The reserved words and their tokens. -/
def reserved : List (String × Token) :=
  [("and", .symbol .and), ("or", .symbol .or), ("not", .symbol .bang),
   ("true", .literal (.bool true)), ("false", .literal (.bool false)),
   ("null", .literal .null), ("undefined", .literal .undefined)]

/-- The token of a word: its reserved meaning, or else a name. -/
def Token.ofWord (word : String) : Token :=
  (Entries.get? reserved word).getD (.name word)

end StepGraph.Expression
