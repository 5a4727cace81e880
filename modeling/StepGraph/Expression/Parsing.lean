import StepGraph.Expression.Lexing

/-!
# From tokens to a tree

The reader descends from the loosest operator to the tightest. Each function takes tokens from
the front of a list and gives back the rest together with the proof that it is shorter, so that
reading ends on every list. Chains of operators of one level lean to the left; the ternary
leans to the right.
-/

namespace StepGraph.Expression

/-- Tokens left over that are fewer than those given. -/
abbrev Fewer (ts : List Token) : Type := { rest : List Token // rest.length < ts.length }

/-- Tokens left over that are no more than those given. -/
abbrev NoMore (ts : List Token) : Type := { rest : List Token // rest.length ≤ ts.length }

/-- A closing symbol at the front of the tokens. -/
def expect (due : Symbol) (ts : List Token) : Except Fault (Fewer ts) :=
  match ts with
  | [] => .error (.expected due none)
  | .symbol s :: rest =>
    if s = due then .ok ⟨rest, Nat.lt_succ_self _⟩ else .error (.expected due (some (.symbol s)))
  | t :: _ => .error (.expected due (some t))

mutual

/-- A ternary or what it is made of. -/
def readTernary (ts : List Token) : Except Fault (Tree × Fewer ts) := do
  let ⟨test, ⟨afterTest, hTest⟩⟩ ← readChain .or ts
  match afterTest, hTest with
  | .symbol .question :: rest, hTest =>
    have hRest : rest.length < ts.length := Nat.lt_of_succ_lt hTest
    let ⟨held, ⟨afterHeld, hHeld⟩⟩ ← readTernary rest
    let ⟨afterColon, hColon⟩ ← expect .colon afterHeld
    let ⟨otherwise, ⟨remainder, hRemainder⟩⟩ ← readTernary afterColon
    return (.ternary test held otherwise, ⟨remainder, by omega⟩)
  | rest, hTest => return (test, ⟨rest, hTest⟩)
termination_by (ts.length, 2 * Level.or.height + 5)

/-- A chain of operands joined by the symbols of a level. -/
def readChain (level : Level) (ts : List Token) : Except Fault (Tree × Fewer ts) := do
  let ⟨first, ⟨rest, hRest⟩⟩ ← readOperand level ts
  let ⟨tree, ⟨remainder, hRemainder⟩⟩ ← readJoined level first rest
  return (tree, ⟨remainder, Nat.lt_of_le_of_lt hRemainder hRest⟩)
termination_by (ts.length, 2 * level.height + 4)

/-- An operand of a level: a chain of the next tighter level, or a unary expression. -/
def readOperand (level : Level) (ts : List Token) : Except Fault (Tree × Fewer ts) :=
  match h : level.tighter? with
  | some next =>
    have := Level.height_of_tighter? h
    readChain next ts
  | none => readUnary ts
termination_by (ts.length, 2 * level.height + 3)

/-- The operands that follow the first of a chain. -/
def readJoined (level : Level) (left : Tree) :
    (ts : List Token) → Except Fault (Tree × NoMore ts)
  | .symbol s :: rest =>
    match level.join? s with
    | some join => do
      let ⟨right, ⟨afterRight, hRight⟩⟩ ← readOperand level rest
      let ⟨tree, ⟨remainder, hRemainder⟩⟩ ← readJoined level (join left right) afterRight
      return (tree, ⟨remainder, by simp only [List.length_cons]; omega⟩)
    | none => return (left, ⟨.symbol s :: rest, Nat.le_refl _⟩)
  | ts => return (left, ⟨ts, Nat.le_refl _⟩)
termination_by ts => (ts.length, 0)

/-- Signs and negations before a value with its properties. -/
def readUnary : (ts : List Token) → Except Fault (Tree × Fewer ts)
  | .symbol s :: rest =>
    match UnaryOperator.ofSymbol? s with
    | some operator => do
      let ⟨operand, ⟨remainder, hRemainder⟩⟩ ← readUnary rest
      return (.unary operator operand, ⟨remainder, Nat.lt_succ_of_lt hRemainder⟩)
    | none => readMember (.symbol s :: rest)
  | ts => readMember ts
termination_by ts => (ts.length, 2)

/-- A primary and the properties read from it. -/
def readMember (ts : List Token) : Except Fault (Tree × Fewer ts) := do
  let ⟨object, ⟨rest, hRest⟩⟩ ← readPrimary ts
  let ⟨tree, ⟨remainder, hRemainder⟩⟩ ← readProperties object rest
  return (tree, ⟨remainder, Nat.lt_of_le_of_lt hRemainder hRest⟩)
termination_by (ts.length, 1)

/-- The properties read from an object one after the other. -/
def readProperties (object : Tree) : (ts : List Token) → Except Fault (Tree × NoMore ts)
  | .symbol .dot :: .name key :: rest => do
    let ⟨tree, ⟨remainder, hRemainder⟩⟩ ←
      readProperties (.member object (.literal (.text key))) rest
    return (tree, ⟨remainder, by simp only [List.length_cons]; omega⟩)
  | .symbol .dot :: rest => throw (.expectedProperty rest.head?)
  | .symbol .openBracket :: rest => do
    let ⟨key, ⟨afterKey, hKey⟩⟩ ← readTernary rest
    let ⟨afterClose, hClose⟩ ← expect .closeBracket afterKey
    let ⟨tree, ⟨remainder, hRemainder⟩⟩ ← readProperties (.member object key) afterClose
    return (tree, ⟨remainder, by simp only [List.length_cons]; omega⟩)
  | ts => return (object, ⟨ts, Nat.le_refl _⟩)
termination_by ts => (ts.length, 0)

/-- A literal, a name, a parenthesised expression or an array. -/
def readPrimary : (ts : List Token) → Except Fault (Tree × Fewer ts)
  | [] => throw .unexpectedEnd
  | .literal v :: rest => return (.literal v, ⟨rest, Nat.lt_succ_self _⟩)
  | .name s :: rest => return (.name s, ⟨rest, Nat.lt_succ_self _⟩)
  | .symbol .openParen :: rest => do
    let ⟨tree, ⟨afterTree, hTree⟩⟩ ← readTernary rest
    let ⟨remainder, hRemainder⟩ ← expect .closeParen afterTree
    return (tree, ⟨remainder, by simp only [List.length_cons]; omega⟩)
  | .symbol .openBracket :: .symbol .closeBracket :: rest =>
    return (.array [], ⟨rest, by simp only [List.length_cons]; omega⟩)
  | .symbol .openBracket :: rest => do
    let ⟨items, ⟨remainder, hRemainder⟩⟩ ← readItems rest
    return (.array items, ⟨remainder, Nat.lt_succ_of_lt hRemainder⟩)
  | .symbol s :: _ => throw (.unexpectedToken (.symbol s))
termination_by ts => (ts.length, 0)

/-- The items of an array up to its closing bracket. -/
def readItems (ts : List Token) : Except Fault (List Tree × Fewer ts) := do
  let ⟨item, ⟨afterItem, hItem⟩⟩ ← readTernary ts
  match afterItem, hItem with
  | .symbol .comma :: rest, hItem =>
    have hRest : rest.length < ts.length := Nat.lt_of_succ_lt hItem
    let ⟨others, ⟨remainder, hRemainder⟩⟩ ← readItems rest
    return (item :: others, ⟨remainder, by omega⟩)
  | rest, hItem =>
    let ⟨remainder, hRemainder⟩ ← expect .closeBracket rest
    return ([item], ⟨remainder, by omega⟩)
termination_by (ts.length, 2 * Level.or.height + 6)

end

/-- The tree of a whole list of tokens. -/
def Tree.ofTokens (ts : List Token) : Except Fault Tree := do
  if ts.isEmpty then throw .empty
  let ⟨tree, ⟨rest, _⟩⟩ ← readTernary ts
  match rest with
  | [] => return tree
  | t :: _ => throw (.unexpectedToken t)

/-- The tree of an expression. -/
def Tree.ofSource (source : String) : Except Fault Tree := do
  Tree.ofTokens (← tokens source)

end StepGraph.Expression
