import StepGraph.Expression.Token

/-!
# Expression trees

The tree of an expression, and the operators that join trees, by how tightly they bind.
-/

namespace StepGraph.Expression

/-- An operator with one operand. -/
inductive UnaryOperator where
  | not
  | minus
  | plus
  deriving DecidableEq, Repr

/-- An operator that needs the values of both operands. -/
inductive BinaryOperator where
  | strictEqual
  | strictUnequal
  | looseEqual
  | looseUnequal
  | less
  | lessOrEqual
  | greater
  | greaterOrEqual
  | add
  | subtract
  | multiply
  | divide
  | remainder
  deriving DecidableEq, Repr

/-- An operator that needs its second operand only for one truth of the first. -/
inductive LogicalOperator where
  | and
  | or
  deriving DecidableEq, Repr

/-- The symbol of a unary operator. -/
def UnaryOperator.symbol : UnaryOperator → Symbol
  | .not => .bang
  | .minus => .minus
  | .plus => .plus

/-- The symbol of a binary operator. -/
def BinaryOperator.symbol : BinaryOperator → Symbol
  | .strictEqual => .strictEqual
  | .strictUnequal => .strictUnequal
  | .looseEqual => .looseEqual
  | .looseUnequal => .looseUnequal
  | .less => .less
  | .lessOrEqual => .lessOrEqual
  | .greater => .greater
  | .greaterOrEqual => .greaterOrEqual
  | .add => .plus
  | .subtract => .minus
  | .multiply => .times
  | .divide => .divide
  | .remainder => .percent

/-- The symbol of a logical operator. -/
def LogicalOperator.symbol : LogicalOperator → Symbol
  | .and => .and
  | .or => .or

/-- The tree of an expression. -/
inductive Tree where
  | literal (value : Value)
  | name (value : String)
  | array (items : List Tree)
  /-- A property read; a name after a dot is a literal key. -/
  | member (object key : Tree)
  | unary (operator : UnaryOperator) (operand : Tree)
  | binary (operator : BinaryOperator) (left right : Tree)
  | logical (operator : LogicalOperator) (left right : Tree)
  /-- A test and what to take if it holds and if not. -/
  | ternary (test held otherwise : Tree)

instance : Inhabited Tree := ⟨.literal .null⟩

/-- The levels of operators that join a chain from the left, loosest first. -/
inductive Level where
  | or
  | and
  | equality
  | comparison
  | additive
  | multiplicative
  deriving DecidableEq, Repr

/-- The next tighter level; the operands of the tightest are unary expressions. -/
def Level.tighter? : Level → Option Level
  | .or => some .and
  | .and => some .equality
  | .equality => some .comparison
  | .comparison => some .additive
  | .additive => some .multiplicative
  | .multiplicative => none

/-- How many tighter levels there are. -/
def Level.height : Level → Nat
  | .or => 5
  | .and => 4
  | .equality => 3
  | .comparison => 2
  | .additive => 1
  | .multiplicative => 0

/-- The next tighter level is one lower. -/
theorem Level.height_of_tighter? {level next : Level} (h : level.tighter? = some next) :
    next.height < level.height := by
  cases level <;> simp [tighter?] at h <;> subst h <;> decide

/-- How the symbols of a level join two trees. -/
def Level.join? : Level → Symbol → Option (Tree → Tree → Tree)
  | .or, .or => some (.logical .or)
  | .and, .and => some (.logical .and)
  | .equality, .strictEqual => some (.binary .strictEqual)
  | .equality, .strictUnequal => some (.binary .strictUnequal)
  | .equality, .looseEqual => some (.binary .looseEqual)
  | .equality, .looseUnequal => some (.binary .looseUnequal)
  | .comparison, .less => some (.binary .less)
  | .comparison, .lessOrEqual => some (.binary .lessOrEqual)
  | .comparison, .greater => some (.binary .greater)
  | .comparison, .greaterOrEqual => some (.binary .greaterOrEqual)
  | .additive, .plus => some (.binary .add)
  | .additive, .minus => some (.binary .subtract)
  | .multiplicative, .times => some (.binary .multiply)
  | .multiplicative, .divide => some (.binary .divide)
  | .multiplicative, .percent => some (.binary .remainder)
  | _, _ => none

/-- The unary operator that a symbol writes. -/
def UnaryOperator.ofSymbol? : Symbol → Option UnaryOperator
  | .bang => some .not
  | .minus => some .minus
  | .plus => some .plus
  | _ => none

end StepGraph.Expression
