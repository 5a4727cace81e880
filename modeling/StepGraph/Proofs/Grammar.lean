import StepGraph.Expression.Parsing

/-!
# The grammar of expressions

A phrase is derived from a list of tokens by rules that say nothing about how it is read: chains
lean to the left because their rule does, and not because a loop goes on from the left. Two facts
about phrases are all that a reader has to know who looks at one token at a time: with which tokens
a phrase can begin, and with which symbols one that could end goes on.
-/

namespace StepGraph.Expression

/-- The level of a logical operator. -/
def LogicalOperator.level : LogicalOperator → Level
  | .or => .or
  | .and => .and

/-- The level of a binary operator. -/
def BinaryOperator.level : BinaryOperator → Level
  | .strictEqual | .strictUnequal | .looseEqual | .looseUnequal => .equality
  | .less | .lessOrEqual | .greater | .greaterOrEqual => .comparison
  | .add | .subtract => .additive
  | .multiply | .divide | .remainder => .multiplicative

/-- How two trees are joined at a level by a symbol. -/
inductive Joins : (Tree → Tree → Tree) → Level → Symbol → Prop where
  | logical (operator : LogicalOperator) : Joins (.logical operator) operator.level operator.symbol
  | binary (operator : BinaryOperator) : Joins (.binary operator) operator.level operator.symbol

/-- The kinds of phrases. -/
inductive Phrase where
  /-- A choice between two values, or a chain of the loosest level. -/
  | ternary
  /-- Operands joined by the operators of a level. -/
  | chain (level : Level)
  /-- A value behind signs. -/
  | unary
  /-- A primary and the properties read from it. -/
  | member
  /-- A literal, a name, something in parentheses or an array. -/
  | primary
  /-- What stands between the brackets of an array. -/
  | items
  deriving DecidableEq, Repr

/-- What the operators of a level join. -/
def Level.operand : Level → Phrase
  | .or => .chain .and
  | .and => .chain .equality
  | .equality => .chain .comparison
  | .comparison => .chain .additive
  | .additive => .chain .multiplicative
  | .multiplicative => .unary

/-- The phrases that tokens write, and their trees. -/
inductive Derives : Phrase → List Token → Tree → Prop where
  | plain {ts : List Token} {test : Tree} (h : Derives (.chain .or) ts test) :
      Derives .ternary ts test
  | choice {ts us vs : List Token} {test held otherwise : Tree}
      (htest : Derives (.chain .or) ts test) (hheld : Derives .ternary us held)
      (hotherwise : Derives .ternary vs otherwise) :
      Derives .ternary (ts ++ .symbol .question :: (us ++ .symbol .colon :: vs))
        (.ternary test held otherwise)
  | operand {level : Level} {ts : List Token} {t : Tree} (h : Derives level.operand ts t) :
      Derives (.chain level) ts t
  | join {level : Level} {s : Symbol} {join : Tree → Tree → Tree} {ts us : List Token}
      {left right : Tree} (hleft : Derives (.chain level) ts left) (hs : Joins join level s)
      (hright : Derives level.operand us right) :
      Derives (.chain level) (ts ++ .symbol s :: us) (join left right)
  | sign (operator : UnaryOperator) {ts : List Token} {t : Tree} (h : Derives .unary ts t) :
      Derives .unary (.symbol operator.symbol :: ts) (.unary operator t)
  | unsigned {ts : List Token} {t : Tree} (h : Derives .member ts t) : Derives .unary ts t
  | whole {ts : List Token} {t : Tree} (h : Derives .primary ts t) : Derives .member ts t
  | property {ts : List Token} {object : Tree} (key : String) (h : Derives .member ts object) :
      Derives .member (ts ++ [.symbol .dot, .name key]) (.member object (.literal (.text key)))
  | index {ts us : List Token} {object key : Tree} (h : Derives .member ts object)
      (hkey : Derives .ternary us key) :
      Derives .member (ts ++ .symbol .openBracket :: (us ++ [.symbol .closeBracket]))
        (.member object key)
  | literal (v : Value) : Derives .primary [.literal v] (.literal v)
  | name (s : String) : Derives .primary [.name s] (.name s)
  | parenthesised {ts : List Token} {t : Tree} (h : Derives .ternary ts t) :
      Derives .primary (.symbol .openParen :: (ts ++ [.symbol .closeParen])) t
  | noItems : Derives .primary [.symbol .openBracket, .symbol .closeBracket] (.array [])
  | array {ts : List Token} {items : List Tree} (h : Derives .items ts (.array items)) :
      Derives .primary (.symbol .openBracket :: (ts ++ [.symbol .closeBracket])) (.array items)
  | lastItem {ts : List Token} {t : Tree} (h : Derives .ternary ts t) :
      Derives .items ts (.array [t])
  | nextItem {ts us : List Token} {t : Tree} {items : List Tree} (h : Derives .ternary ts t)
      (hrest : Derives .items us (.array items)) :
      Derives .items (ts ++ .symbol .comma :: us) (.array (t :: items))

/-- A reader joins by the symbols of a level just as the grammar does. -/
theorem Level.join?_eq_some_iff {level : Level} {s : Symbol} {join : Tree → Tree → Tree} :
    level.join? s = some join ↔ Joins join level s := by
  constructor
  · intro h
    cases level <;> cases s <;> cases h
    all_goals first | exact .logical _ | exact .binary _
  · intro h
    cases h with
    | logical operator => cases operator <;> rfl
    | binary operator => cases operator <;> rfl

/-- The signs are the symbols of the unary operators. -/
theorem UnaryOperator.ofSymbol?_eq_some_iff {s : Symbol} {operator : UnaryOperator} :
    UnaryOperator.ofSymbol? s = some operator ↔ s = operator.symbol := by
  constructor
  · intro h
    cases s <;> cases h <;> rfl
  · rintro rfl
    cases operator <;> rfl

/-- The operands of a level are chains of the next tighter one. -/
theorem Level.operand_of_tighter? {level next : Level} (h : level.tighter? = some next) :
    level.operand = .chain next := by
  cases level <;> cases h <;> rfl

/-- The operands of the tightest level are unary expressions. -/
theorem Level.operand_of_tightest {level : Level} (h : level.tighter? = none) :
    level.operand = .unary := by
  cases level <;> first | rfl | cases h

/-- A token with which a primary can begin. -/
def Token.opens : Token → Bool
  | .literal _ | .name _ | .symbol .openParen | .symbol .openBracket => true
  | .symbol _ => false

/-- A token that writes a unary operator. -/
def Token.signs : Token → Bool
  | .symbol s => (UnaryOperator.ofSymbol? s).isSome
  | _ => false

/-- No primary begins with a sign. -/
theorem Token.signs_of_opens {first : Token} (h : first.opens = true) : first.signs = false := by
  cases first with
  | symbol s => cases s <;> first | rfl | cases h
  | literal v => rfl
  | name s => rfl

/-- The tokens with which a phrase can begin. -/
def Phrase.startsWith : Phrase → Token → Bool
  | .member, first | .primary, first => first.opens
  | _, first => first.opens || first.signs

/-- Tokens that begin as a phrase does. -/
def Phrase.Begins (phrase : Phrase) (ts : List Token) : Prop :=
  ∃ first others, ts = first :: others ∧ phrase.startsWith first = true

/-- What follows tokens does not change how they begin. -/
theorem Phrase.Begins.append {phrase : Phrase} {ts : List Token} (h : phrase.Begins ts)
    (us : List Token) : phrase.Begins (ts ++ us) := by
  obtain ⟨first, others, rfl, hfirst⟩ := h
  exact ⟨first, others ++ us, rfl, hfirst⟩

/-- The tokens of a phrase begin as it can. -/
theorem Derives.begins {phrase : Phrase} {ts : List Token} {t : Tree} (h : Derives phrase ts t) :
    phrase.Begins ts := by
  induction h with
  | plain _ ih => exact ih
  | choice _ _ _ ih => exact ih.append _
  | @operand level _ _ _ ih => cases level <;> exact ih
  | join _ _ _ ih => exact ih.append _
  | sign operator => exact ⟨_, _, rfl, by cases operator <;> rfl⟩
  | unsigned _ ih =>
    obtain ⟨first, others, rfl, hfirst⟩ := ih
    exact ⟨first, others, rfl, Bool.or_eq_true_iff.mpr (Or.inl hfirst)⟩
  | whole _ ih => exact ih
  | property _ _ ih => exact ih.append _
  | index _ _ ih => exact ih.append _
  | literal v => exact ⟨_, _, rfl, rfl⟩
  | name s => exact ⟨_, _, rfl, rfl⟩
  | parenthesised => exact ⟨_, _, rfl, rfl⟩
  | noItems => exact ⟨_, _, rfl, rfl⟩
  | array => exact ⟨_, _, rfl, rfl⟩
  | lastItem _ ih => exact ih
  | nextItem _ _ ih => exact ih.append _

/-- The level of an operator's symbol. -/
def Symbol.level? : Symbol → Option Level
  | .or => some .or
  | .and => some .and
  | .strictEqual | .strictUnequal | .looseEqual | .looseUnequal => some .equality
  | .less | .lessOrEqual | .greater | .greaterOrEqual => some .comparison
  | .plus | .minus => some .additive
  | .times | .divide | .percent => some .multiplicative
  | _ => none

/-- The symbols with which a phrase that could end goes on. -/
def Phrase.continuedBy : Phrase → Symbol → Bool
  | .primary, _ => false
  | .unary, s | .member, s => s == .dot || s == .openBracket
  | .chain level, s => s == .dot || s == .openBracket || s.level?.any (·.height ≤ level.height)
  | .ternary, s => s == .dot || s == .openBracket || s.level?.isSome || s == .question
  | .items, s => s == .comma

/-- A phrase that is followed by some tokens does not go on with them. -/
def Phrase.Stops (phrase : Phrase) (rest : List Token) : Prop :=
  ∀ s others, rest = .symbol s :: others → phrase.continuedBy s = false

namespace Phrase

/-- A symbol that does not go on with a phrase stops it. -/
theorem stops_symbol {phrase : Phrase} {s : Symbol} (h : phrase.continuedBy s = false)
    (others : List Token) : phrase.Stops (.symbol s :: others) := by
  intro s' others' heq
  cases heq
  exact h

theorem stops_nil (phrase : Phrase) : phrase.Stops [] := nofun

/-- What stops a phrase stops one that goes on with fewer symbols. -/
theorem Stops.of_imp {phrase phrase' : Phrase} {rest : List Token} (h : phrase.Stops rest)
    (himp : ∀ s, phrase'.continuedBy s = true → phrase.continuedBy s = true) :
    phrase'.Stops rest := by
  intro s others heq
  have hs := h s others heq
  cases hs' : phrase'.continuedBy s with
  | false => rfl
  | true => exact absurd (himp s hs') (by rw [hs]; exact Bool.false_ne_true)

/-- What stops a ternary stops the chain that is its test. -/
theorem Stops.test {rest : List Token} (h : Phrase.ternary.Stops rest) :
    (Phrase.chain .or).Stops rest := by
  refine h.of_imp fun s hs => ?_
  cases s <;> first | rfl | cases hs

/-- What stops a chain stops its last operand. -/
theorem Stops.operand {level : Level} {rest : List Token} (h : (Phrase.chain level).Stops rest) :
    level.operand.Stops rest := by
  refine h.of_imp fun s hs => ?_
  cases level <;> cases s <;> first | rfl | cases hs

/-- No symbol of the level joins a chain to what stops it. -/
theorem Stops.join? {level : Level} {s : Symbol} {others : List Token}
    (h : (Phrase.chain level).Stops (.symbol s :: others)) : level.join? s = none := by
  have hs := h s others rfl
  cases level <;> cases s <;> first | rfl | cases hs

end Phrase

/-- The operators of a level stop its operands. -/
theorem Joins.stops {join : Tree → Tree → Tree} {level : Level} {s : Symbol}
    (h : Joins join level s) (others : List Token) : level.operand.Stops (.symbol s :: others) := by
  refine Phrase.stops_symbol ?_ others
  cases h with
  | logical operator => cases operator <;> rfl
  | binary operator => cases operator <;> rfl

end StepGraph.Expression
