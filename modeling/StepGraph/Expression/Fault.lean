import StepGraph.Expression.Tree

/-!
# Why an expression has no value

Faults of writing are found before evaluation, the others during it.
-/

namespace StepGraph.Expression

/-- Why an expression cannot be read or evaluated. -/
inductive Fault where
  /-- No token starts with the character at a position of the text. -/
  | unexpectedCharacter (found : Char) (position : Nat)
  /-- There is no token at all. -/
  | empty
  /-- A token that cannot stand where it does. -/
  | unexpectedToken (found : Token)
  /-- The expression ends where an operand is due. -/
  | unexpectedEnd
  /-- A closing symbol is due, but another token or the end is found. -/
  | expected (due : Symbol) (found : Option Token)
  /-- A property name is due after a dot. -/
  | expectedProperty (found : Option Token)
  /-- A name without a binding. -/
  | notDefined (name : String)
  /-- A property of null or of a missing value. -/
  | noProperties (key : String) (object : Value)
  /-- A sign before something that is no number. -/
  | signNeedsNumber (operator : UnaryOperator) (operand : Value)
  /-- Arithmetic with something that is no number. -/
  | arithmeticNeedsNumbers (operator : BinaryOperator) (left right : Value)
  /-- A zero divisor. -/
  | divisionByZero
  /-- Arithmetic on numbers without a result. -/
  | arithmetic (fault : ArithmeticFault)

/-- A token where a message shows one; the end of the expression shows like null. -/
def foundText (found : Option Token) : String :=
  ((found.map Token.value).getD .null).literal

/-- The wording of a fault. -/
def Fault.message : Fault → String
  | .unexpectedCharacter c position =>
    "Unexpected character " ++ Text.quoted (String.ofList [c])
      ++ " at position " ++ toString position
  | .empty => "Empty expression"
  | .unexpectedToken found => "Unexpected token " ++ found.value.literal
  | .unexpectedEnd => "Unexpected end of expression"
  | .expected due found => "Expected " ++ Text.quoted due.text ++ " but found " ++ foundText found
  | .expectedProperty found => "Expected a property name after '.' but found " ++ foundText found
  | .notDefined name => name ++ " is not defined"
  | .noProperties key object =>
    "Cannot read property " ++ Text.quoted key ++ " of " ++ object.plainText
  | .signNeedsNumber operator operand =>
    "Unary " ++ Text.quoted operator.symbol.text ++ " requires a number, got " ++ operand.plainText
  | .arithmeticNeedsNumbers operator left right =>
    "Operator " ++ Text.quoted operator.symbol.text ++ " requires numbers, got "
      ++ left.plainText ++ " and " ++ right.plainText
  | .divisionByZero => "Division by zero"
  | .arithmetic fault => fault.message

end StepGraph.Expression
