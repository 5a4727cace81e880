import StepGraph.Proofs.Reading

/-!
# Every phrase is read, and only as itself

A phrase at the front of some tokens is read whole, if the tokens after it do not go on with it. The
readers look one token ahead, so it matters only with which token the rest begins. Together with
the soundness of reading, a list of tokens is read as a tree exactly if it writes that tree, and no
list writes two trees.
-/

namespace StepGraph.Expression

/-- What is read is known, and so are the tokens left over. -/
def Leaves {α : Type} (a : α) (rest : List Token) : α → List Token → Prop :=
  fun found left => found = a ∧ left = rest

/-- A reading that does not fail, and a condition for what is read and left over. -/
def Gives {α : Type} {P : List Token → Prop}
    (reading : Except Fault (α × { rest : List Token // P rest }))
    (done : α → List Token → Prop) : Prop :=
  Ends reading done fun _ => False

/-- A reading goes on with what is known to be read and left over. -/
theorem gives_bind {α β : Type} {P R : List Token → Prop}
    {reading : Except Fault (α × { rest : List Token // P rest })}
    {next : α × { rest : List Token // P rest } →
      Except Fault (β × { rest : List Token // R rest })}
    {done : β → List Token → Prop} {a : α} {rest : List Token} (h : Gives reading (Leaves a rest))
    (hnext : ∀ h : P rest, Gives (next (a, ⟨rest, h⟩)) done) : Gives (reading >>= next) done := by
  refine Ends.bind h ?_
  rintro _ _ hrest ⟨rfl, rfl⟩
  exact hnext hrest

/-- The last part of a reading gives what the whole gives; what is left over is only weighed
anew. -/
theorem gives_last {α : Type} {P R : List Token → Prop}
    {reading : Except Fault (α × { rest : List Token // P rest })} (hPR : ∀ rest, P rest → R rest)
    {done : α → List Token → Prop} (h : Gives reading done) :
    Gives (do
      let (a, ⟨rest, hrest⟩) ← reading
      return (a, (⟨rest, hPR rest hrest⟩ : { rest : List Token // R rest }))) done :=
  Ends.bind h fun _ _ _ hdone => hdone

section
variable {level : Level} {left right t object key test held otherwise item : Tree}
  {join : Tree → Tree → Tree} {s : Symbol} {items : List Tree}
  {ts rest afterKey tail : List Token} {done : Tree → List Token → Prop}

/-- An operator of the level and its operand go on with a chain. -/
theorem readJoined_join (hs : Joins join level s)
    (hright : Gives (readOperand level tail) (Leaves right rest))
    (h : Gives (readJoined level (join left right) rest) done) :
    Gives (readJoined level left (.symbol s :: tail)) done := by
  rw [readJoined, Level.join?_eq_some_iff.mpr hs]
  exact gives_bind hright fun _ => gives_last _ h

/-- A chain ends where no operator of the level follows. -/
theorem readJoined_stops (h : Phrase.Stops (.chain level) rest) :
    Gives (readJoined level t rest) (Leaves t rest) := by
  unfold readJoined
  split
  · rw [h.join?]
    exact ⟨rfl, rfl⟩
  · exact ⟨rfl, rfl⟩

/-- A dot and a name go on with the properties. -/
theorem readProperties_property {name : String}
    (h : Gives (readProperties (.member object (.literal (.text name))) rest) done) :
    Gives (readProperties object (.symbol .dot :: .name name :: rest)) done := by
  rw [readProperties]
  exact gives_last _ h

/-- A key in brackets goes on with the properties. -/
theorem readProperties_index
    (hkey : Gives (readTernary tail) (Leaves key (.symbol .closeBracket :: rest)))
    (h : Gives (readProperties (.member object key) rest) done) :
    Gives (readProperties object (.symbol .openBracket :: tail)) done := by
  rw [readProperties]
  refine gives_bind hkey fun _ => ?_
  dsimp only
  rw [expect_due]
  exact gives_last _ h

/-- The properties end where neither a dot nor a bracket follows. -/
theorem readProperties_stops (h : Phrase.Stops .member rest) :
    Gives (readProperties t rest) (Leaves t rest) := by
  unfold readProperties
  split
  · cases h _ _ rfl
  · cases h _ _ rfl
  · cases h _ _ rfl
  · exact ⟨rfl, rfl⟩

/-- Between brackets that are not closed at once stand items. -/
theorem readPrimary_items (hts : ∀ rest, ts ≠ .symbol .closeBracket :: rest)
    (hitems : Gives (readItems ts) (Leaves items rest)) :
    Gives (readPrimary (.symbol .openBracket :: ts)) (Leaves (.array items) rest) := by
  rw [readPrimary]
  · exact gives_bind hitems fun _ => ⟨rfl, rfl⟩
  · exact hts

/-- Between parentheses stands a ternary. -/
theorem readPrimary_parenthesised
    (h : Gives (readTernary tail) (Leaves t (.symbol .closeParen :: rest))) :
    Gives (readPrimary (.symbol .openParen :: tail)) (Leaves t rest) := by
  rw [readPrimary]
  refine gives_bind h fun _ => ?_
  dsimp only
  rw [expect_due]
  exact ⟨rfl, rfl⟩

/-- A question mark makes of a test a choice. -/
theorem readTernary_choice
    (htest : Gives (readChain .or ts) (Leaves test (.symbol .question :: tail)))
    (hheld : Gives (readTernary tail) (Leaves held (.symbol .colon :: afterKey)))
    (hotherwise : Gives (readTernary afterKey) (Leaves otherwise rest)) :
    Gives (readTernary ts) (Leaves (.ternary test held otherwise) rest) := by
  rw [readTernary]
  refine gives_bind htest fun _ => ?_
  refine gives_bind hheld fun _ => ?_
  dsimp only
  rw [expect_due]
  exact gives_bind hotherwise fun _ => ⟨rfl, rfl⟩

/-- A ternary is its test where no question mark follows. -/
theorem readTernary_plain (htest : Gives (readChain .or ts) (Leaves test rest))
    (h : Phrase.Stops .ternary rest) : Gives (readTernary ts) (Leaves test rest) := by
  rw [readTernary]
  refine gives_bind htest fun _ => ?_
  dsimp only
  split
  · cases h _ _ rfl
  · exact ⟨rfl, rfl⟩

/-- The closing bracket follows the last item. -/
theorem readItems_last (h : Gives (readTernary ts) (Leaves t (.symbol .closeBracket :: rest))) :
    Gives (readItems ts) (Leaves [t] rest) := by
  rw [readItems]
  refine gives_bind h fun _ => ?_
  dsimp only
  rw [expect_due]
  exact ⟨rfl, rfl⟩

/-- A comma follows every other item. -/
theorem readItems_next (h : Gives (readTernary ts) (Leaves t (.symbol .comma :: tail)))
    (hitems : Gives (readItems tail) (Leaves items rest)) :
    Gives (readItems ts) (Leaves (t :: items) rest) := by
  rw [readItems]
  exact gives_bind h fun _ => gives_bind hitems fun _ => ⟨rfl, rfl⟩

/-- A sign stands before a unary expression. -/
theorem readUnary_sign (operator : UnaryOperator)
    (h : Gives (readUnary tail) (Leaves t rest)) :
    Gives (readUnary (.symbol operator.symbol :: tail)) (Leaves (.unary operator t) rest) := by
  rw [readUnary, UnaryOperator.ofSymbol?_eq_some_iff.mpr rfl]
  exact gives_bind h fun _ => ⟨rfl, rfl⟩

/-- Without a sign a unary expression is a member expression. -/
theorem readUnary_unsigned {first : Token} (hfirst : first.signs = false) (others : List Token) :
    readUnary (first :: others) = readMember (first :: others) := by
  cases first with
  | symbol s =>
    rw [readUnary]
    cases h : UnaryOperator.ofSymbol? s with
    | none => rfl
    | some operator =>
      change (UnaryOperator.ofSymbol? s).isSome = false at hfirst
      rw [h] at hfirst
      cases hfirst
  | literal v =>
    rw [readUnary]
    intro _ _ heq
    cases heq
  | name s =>
    rw [readUnary]
    intro _ _ heq
    cases heq

/-- A chain begins with its first operand. -/
theorem readChain_of_operand (hfirst : Gives (readOperand level ts) (Leaves t rest))
    (h : Gives (readJoined level t rest) done) : Gives (readChain level ts) done := by
  rw [readChain]
  exact gives_bind hfirst fun _ => gives_last _ h

/-- A member expression begins with its primary. -/
theorem readMember_of_primary (hprimary : Gives (readPrimary ts) (Leaves t rest))
    (h : Gives (readProperties t rest) done) : Gives (readMember ts) done := by
  rw [readMember]
  exact gives_bind hprimary fun _ => gives_last _ h

end

/-- A phrase is read from the front of any tokens that it does not go on with. The two loops are
told by what they do next: a chain and a member expression are read as their loop goes on from them,
so that they can be made longer from the right. -/
def Complete : Phrase → List Token → Tree → Prop
  | .ternary, ts, t => ∀ rest, Phrase.Stops .ternary rest →
    Gives (readTernary (ts ++ rest)) (Leaves t rest)
  | .chain level, ts, t => ∀ rest done, Phrase.Stops level.operand rest →
    Gives (readJoined level t rest) done → Gives (readChain level (ts ++ rest)) done
  | .unary, ts, t => ∀ rest, Phrase.Stops .unary rest →
    Gives (readUnary (ts ++ rest)) (Leaves t rest)
  | .member, ts, t => ∀ rest done, Gives (readProperties t rest) done →
    Gives (readMember (ts ++ rest)) done
  | .primary, ts, t => ∀ rest, Gives (readPrimary (ts ++ rest)) (Leaves t rest)
  | .items, ts, t => ∀ items rest, t = .array items →
    Gives (readItems (ts ++ .symbol .closeBracket :: rest)) (Leaves items rest)

/-- The operands of a level are read if they are where they stop. -/
theorem Complete.operand {level : Level} {ts : List Token} {t : Tree}
    (h : Complete level.operand ts t) {rest : List Token}
    (hrest : Phrase.Stops level.operand rest) :
    Gives (readOperand level (ts ++ rest)) (Leaves t rest) := by
  cases htighter : level.tighter? with
  | none =>
    rw [Level.operand_of_tightest htighter] at h hrest
    rw [readOperand_eq_unary htighter]
    exact h rest hrest
  | some next =>
    rw [Level.operand_of_tighter? htighter] at h hrest
    rw [readOperand_eq_chain htighter]
    exact h rest _ hrest.operand (readJoined_stops hrest)

/-- Every phrase is read, by induction on how it is derived. -/
theorem Derives.complete {phrase : Phrase} {ts : List Token} {t : Tree}
    (h : Derives phrase ts t) : Complete phrase ts t := by
  induction h with
  | plain _ ih =>
    intro rest hrest
    exact readTernary_plain (ih rest _ hrest.test.operand (readJoined_stops hrest.test)) hrest
  | @choice ts us vs test held otherwise _ _ _ ihtest ihheld ihotherwise =>
    intro rest hrest
    rw [List.append_assoc, List.cons_append, List.append_assoc, List.cons_append]
    have hquestion : (Phrase.chain .or).Stops
        (.symbol .question :: (us ++ .symbol .colon :: (vs ++ rest))) :=
      Phrase.stops_symbol rfl _
    have hcolon : Phrase.ternary.Stops (.symbol .colon :: (vs ++ rest)) :=
      Phrase.stops_symbol rfl _
    exact readTernary_choice (ihtest _ _ hquestion.operand (readJoined_stops hquestion))
      (ihheld _ hcolon) (ihotherwise rest hrest)
  | operand _ ih =>
    intro rest done hrest hdone
    exact readChain_of_operand (Complete.operand ih hrest) hdone
  | join _ hs _ ihleft ihright =>
    intro rest done hrest hdone
    -- The loop after the left operand takes the symbol and the right one, and goes on as before.
    rw [List.append_assoc, List.cons_append]
    exact ihleft _ _ (hs.stops _) (readJoined_join hs (Complete.operand ihright hrest) hdone)
  | sign operator _ ih =>
    intro rest hrest
    exact readUnary_sign operator (ih rest hrest)
  | @unsigned ts t h ih =>
    intro rest hrest
    obtain ⟨first, others, rfl, hfirst⟩ := h.begins
    -- A primary begins with no sign, so nothing is read as one before it.
    rw [List.cons_append, readUnary_unsigned (Token.signs_of_opens hfirst)]
    exact ih rest _ (readProperties_stops hrest)
  | whole _ ih =>
    intro rest done hdone
    exact readMember_of_primary (ih rest) hdone
  | property key _ ih =>
    intro rest done hdone
    rw [List.append_assoc]
    exact ih _ _ (readProperties_property hdone)
  | index _ _ ih ihkey =>
    intro rest done hdone
    rw [List.append_assoc, List.cons_append, List.append_assoc]
    exact ih _ _ (readProperties_index (ihkey _ (Phrase.stops_symbol rfl _)) hdone)
  | literal v =>
    intro rest
    rw [List.singleton_append, readPrimary]
    exact ⟨rfl, rfl⟩
  | name s =>
    intro rest
    rw [List.singleton_append, readPrimary]
    exact ⟨rfl, rfl⟩
  | parenthesised _ ih =>
    intro rest
    rw [List.cons_append, List.append_assoc]
    exact readPrimary_parenthesised (ih _ (Phrase.stops_symbol rfl _))
  | noItems =>
    intro rest
    rw [List.cons_append, List.singleton_append, readPrimary]
    exact ⟨rfl, rfl⟩
  | array h ih =>
    intro rest
    obtain ⟨first, others, rfl, hfirst⟩ := h.begins
    rw [List.cons_append, List.append_assoc]
    refine readPrimary_items ?_ (ih _ rest rfl)
    -- Items begin as a phrase does, so the array is not taken for an empty one.
    rintro _ heq
    cases heq
    cases hfirst
  | lastItem _ ih =>
    intro items rest hitems
    cases hitems
    exact readItems_last (ih _ (Phrase.stops_symbol rfl _))
  | nextItem _ _ ih ihrest =>
    intro items rest hitems
    cases hitems
    rw [List.append_assoc, List.cons_append]
    exact readItems_next (ih _ (Phrase.stops_symbol rfl _)) (ihrest _ rest rfl)

/-- Tokens that write a ternary are read as its tree. -/
theorem Tree.ofTokens_of_derives {ts : List Token} {t : Tree} (h : Derives .ternary ts t) :
    Tree.ofTokens ts = .ok t := by
  have hread : Gives (readTernary (ts ++ [])) (Leaves t []) :=
    h.complete [] (Phrase.stops_nil .ternary)
  rw [List.append_nil] at hread
  obtain ⟨first, others, rfl, _⟩ := h.begins
  rw [ofTokens_cons]
  cases hts : readTernary (first :: others) with
  | error fault =>
    rw [hts] at hread
    cases hread
  | ok p =>
    obtain ⟨found, rest, hrest⟩ := p
    rw [hts] at hread
    obtain ⟨rfl, rfl⟩ : found = t ∧ rest = [] := hread
    rfl

/-- Tokens are read as a tree exactly if they write a ternary with it. -/
theorem Tree.ofTokens_eq_ok_iff {ts : List Token} {t : Tree} :
    Tree.ofTokens ts = .ok t ↔ Derives .ternary ts t := by
  refine ⟨fun h => ?_, Tree.ofTokens_of_derives⟩
  have hsound := ofTokens_sound ts
  rw [h] at hsound
  exact hsound

/-- Tokens that write no ternary are at fault. -/
theorem Tree.ofTokens_of_underivable {ts : List Token} (h : ∀ t, ¬Derives .ternary ts t) :
    ∃ fault, Tree.ofTokens ts = .error fault ∧ fault.IsOfWriting := by
  have hsound := ofTokens_sound ts
  cases hts : Tree.ofTokens ts with
  | ok t => exact absurd (Tree.ofTokens_eq_ok_iff.mp hts) (h t)
  | error fault =>
    rw [hts] at hsound
    exact ⟨fault, rfl, hsound⟩

/-- A list of tokens writes at most one ternary. -/
theorem Derives.unique {ts : List Token} {t t' : Tree} (h : Derives .ternary ts t)
    (h' : Derives .ternary ts t') : t = t' :=
  Except.ok.inj ((Tree.ofTokens_of_derives h).symm.trans (Tree.ofTokens_of_derives h'))

/-- A source is read as a tree exactly if it is cut into tokens that write a ternary with it. -/
theorem Tree.ofSource_eq_ok_iff {source : String} {t : Tree} :
    Tree.ofSource source = .ok t ↔ ∃ ts, tokens source = .ok ts ∧ Derives .ternary ts t := by
  unfold Tree.ofSource
  cases hts : tokens source with
  | error fault => exact ⟨nofun, fun ⟨_, h, _⟩ => nomatch h⟩
  | ok ts =>
    refine Tree.ofTokens_eq_ok_iff.trans ⟨fun h => ⟨ts, rfl, h⟩, ?_⟩
    rintro ⟨_, hts', h⟩
    cases hts'
    exact h

/-- The reader accepts exactly the grammar: tokens are read as a tree if and only if they write a
ternary with that tree, they are at fault if they write none, and they never write two. So a source
is read as a tree if and only if it is cut into tokens that write it. -/
theorem Tree.ofTokens_accepts_grammar :
    (∀ ts t, Tree.ofTokens ts = .ok t ↔ Derives .ternary ts t) ∧
    (∀ ts, (∀ t, ¬Derives .ternary ts t) →
      ∃ fault, Tree.ofTokens ts = .error fault ∧ fault.IsOfWriting) ∧
    (∀ ts t t', Derives .ternary ts t → Derives .ternary ts t' → t = t') ∧
    (∀ source t, Tree.ofSource source = .ok t ↔
      ∃ ts, tokens source = .ok ts ∧ Derives .ternary ts t) :=
  ⟨fun _ _ => Tree.ofTokens_eq_ok_iff, fun _ => Tree.ofTokens_of_underivable,
    fun _ _ _ => Derives.unique, fun _ _ => Tree.ofSource_eq_ok_iff⟩

/-- Three names with minus signs between them are read as a chain that leans to the left, and no
tokens at all are at fault. -/
theorem Tree.ofTokens_accepts_differences :
    Tree.ofTokens [.name "a", .symbol .minus, .name "b", .symbol .minus, .name "c"] =
        .ok (.binary .subtract (.binary .subtract (.name "a") (.name "b")) (.name "c")) ∧
      ∃ fault, Tree.ofTokens [] = .error fault ∧ fault.IsOfWriting := by
  have operand (s : String) : Derives .unary [.name s] (.name s) :=
    .unsigned (.whole (.name s))
  have minus : Joins (.binary .subtract) .additive .minus := .binary .subtract
  have first : Derives (.chain .additive) [.name "a"] (.name "a") :=
    .operand (.operand (operand "a"))
  have difference := (first.join minus (.operand (operand "b"))).join minus (.operand (operand "c"))
  constructor
  · exact (Tree.ofTokens_accepts_grammar.1 _ _).mpr
      (.plain (.operand (.operand (.operand (.operand difference)))))
  · refine Tree.ofTokens_accepts_grammar.2.1 [] fun t ht => ?_
    obtain ⟨_, _, hnil, _⟩ := ht.begins
    cases hnil

end StepGraph.Expression
