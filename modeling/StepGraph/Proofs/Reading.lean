import StepGraph.Proofs.Grammar

/-!
# What is read is a phrase

Whatever a reader takes from the front of the tokens is a phrase of its kind, and the tree that it
gives is the tree of that phrase. Where it gives none, the fault says what is wrong with the tokens.
The readers call one another on fewer tokens, so all of them are shown sound at once, by induction
on the number of tokens; the calls that leave the tokens as they are descend through the levels of
operators.
-/

namespace StepGraph.Expression

section
variable {α β : Type} {P R : List Token → Prop}

/-- How a reading ends: a condition for what is read and left over, and one for faults. -/
def Ends (reading : Except Fault (α × { rest : List Token // P rest }))
    (done : α → List Token → Prop) (failed : Fault → Prop) : Prop :=
  match reading with
  | .ok (a, rest) => done a rest.1
  | .error fault => failed fault

/-- A reading that goes on ends as the second part does with what the first has left over. -/
theorem Ends.bind {reading : Except Fault (α × { rest : List Token // P rest })}
    {next : α × { rest : List Token // P rest } →
      Except Fault (β × { rest : List Token // R rest })}
    {first : α → List Token → Prop} {done : β → List Token → Prop} {failed : Fault → Prop}
    (h : Ends reading first failed)
    (hnext : ∀ a rest (hrest : P rest), first a rest → Ends (next (a, ⟨rest, hrest⟩)) done failed) :
    Ends (reading >>= next) done failed := by
  cases reading with
  | error fault => exact h
  | ok p =>
    obtain ⟨a, rest, hrest⟩ := p
    exact hnext a rest hrest h

/-- How a reading ends can be said in weaker terms. -/
theorem Ends.imp {reading : Except Fault (α × { rest : List Token // P rest })}
    {done done' : α → List Token → Prop} {failed failed' : Fault → Prop}
    (h : Ends reading done failed) (hdone : ∀ a rest, P rest → done a rest → done' a rest)
    (hfailed : ∀ fault, failed fault → failed' fault) : Ends reading done' failed' := by
  cases reading with
  | error fault => exact hfailed fault h
  | ok p =>
    obtain ⟨a, rest, hrest⟩ := p
    exact hdone a rest hrest h

/-- A closing symbol is there and is taken, or it is missed. -/
theorem ends_expect {due : Symbol} {ts : List Token}
    {next : Fewer ts → Except Fault (β × { rest : List Token // R rest })}
    {done : β → List Token → Prop} {failed : Fault → Prop}
    (hdone : ∀ rest (h : rest.length < ts.length), ts = .symbol due :: rest →
      Ends (next ⟨rest, h⟩) done failed)
    (hfailed : ∀ found, failed (.expected due found)) :
    Ends (expect due ts >>= next) done failed := by
  unfold expect
  split
  · exact hfailed _
  · rename_i s rest
    split
    · rename_i hs
      subst hs
      exact hdone rest _ rfl
    · exact hfailed _
  · exact hfailed _

/-- A closing symbol that is there is taken. -/
theorem expect_due (due : Symbol) (rest : List Token) :
    expect due (.symbol due :: rest) = .ok ⟨rest, Nat.lt_succ_self _⟩ := if_pos rfl

end

/-- A fault of tokens that cannot be read, and not of evaluation. -/
def Fault.IsOfWriting : Fault → Prop
  | .empty | .unexpectedToken _ | .unexpectedEnd | .expected _ _ | .expectedProperty _ => True
  | _ => False

/-- The tokens taken from the front, up to a rest, are a phrase with a tree. -/
def Takes (phrase : Phrase) (ts : List Token) (t : Tree) (rest : List Token) : Prop :=
  ∃ used, ts = used ++ rest ∧ Derives phrase used t

/-- Every reader takes a phrase of its kind from the front of the tokens, or finds them wrong. The
loops of a chain and of properties go on with a phrase that has been read before. -/
structure SoundAt (ts : List Token) : Prop where
  ternary : Ends (readTernary ts) (Takes .ternary ts) Fault.IsOfWriting
  operand : ∀ level : Level, Ends (readOperand level ts) (Takes level.operand ts) Fault.IsOfWriting
  joined : ∀ level earlier left, Derives (.chain level) earlier left →
    Ends (readJoined level left ts) (Takes (.chain level) (earlier ++ ts)) Fault.IsOfWriting
  unary : Ends (readUnary ts) (Takes .unary ts) Fault.IsOfWriting
  properties : ∀ earlier object, Derives .member earlier object →
    Ends (readProperties object ts) (Takes .member (earlier ++ ts)) Fault.IsOfWriting
  items : Ends (readItems ts)
    (fun items rest => Takes .items ts (.array items) (.symbol .closeBracket :: rest))
    Fault.IsOfWriting

/-- The operands of a level with a tighter one are the chains of that. -/
theorem readOperand_eq_chain {level next : Level} (h : level.tighter? = some next)
    (ts : List Token) : readOperand level ts = readChain next ts := by
  unfold readOperand
  split
  · rename_i other hother
    cases h.symm.trans hother
    rfl
  · rename_i hnone
    cases h.symm.trans hnone

/-- The operands of the tightest level are unary expressions. -/
theorem readOperand_eq_unary {level : Level} (h : level.tighter? = none) (ts : List Token) :
    readOperand level ts = readUnary ts := by
  unfold readOperand
  split
  · rename_i next hnext
    cases h.symm.trans hnext
  · rfl

section
variable {ts : List Token} (ih : ∀ us, us.length < ts.length → SoundAt us)
include ih

/-- The loop of a chain makes its phrase longer by one operand at a time. -/
theorem readJoined_sound {level : Level} {earlier : List Token} {left : Tree}
    (hleft : Derives (.chain level) earlier left) :
    Ends (readJoined level left ts) (Takes (.chain level) (earlier ++ ts)) Fault.IsOfWriting := by
  unfold readJoined
  split
  · rename_i s rest
    split
    · rename_i join hjoin
      refine ((ih rest (Nat.lt_succ_self _)).operand level).bind ?_
      rintro right afterRight hRight ⟨used, hused, hright⟩
      dsimp only
      have hjoined := hleft.join (Level.join?_eq_some_iff.mp hjoin) hright
      refine ((ih afterRight (Nat.lt_succ_of_lt hRight)).joined level _ _ hjoined).bind ?_
      rintro tree remainder _ ⟨taken, htaken, htree⟩
      refine ⟨taken, ?_, htree⟩
      rw [← htaken, hused]
      simp
    · exact ⟨earlier, rfl, hleft⟩
  · exact ⟨earlier, rfl, hleft⟩

/-- A primary is a single token, or what stands between two closing symbols. -/
theorem readPrimary_sound : Ends (readPrimary ts) (Takes .primary ts) Fault.IsOfWriting := by
  unfold readPrimary
  split
  · trivial
  · rename_i v rest
    exact ⟨[.literal v], rfl, .literal v⟩
  · rename_i s rest
    exact ⟨[.name s], rfl, .name s⟩
  · rename_i rest
    refine (ih rest (Nat.lt_succ_self _)).ternary.bind ?_
    rintro t afterTree _ ⟨used, hused, ht⟩
    refine ends_expect (fun remainder _ hclose => ?_) (fun _ => trivial)
    refine ⟨_, ?_, .parenthesised ht⟩
    simp [hused, hclose]
  · rename_i rest
    exact ⟨_, rfl, .noItems⟩
  · rename_i rest _
    refine (ih rest (Nat.lt_succ_self _)).items.bind ?_
    rintro items remainder _ ⟨used, hused, hitems⟩
    refine ⟨_, ?_, .array hitems⟩
    simp [hused]
  · trivial

/-- The loop of properties makes a phrase longer by one property at a time. -/
theorem readProperties_sound {earlier : List Token} {object : Tree}
    (hobject : Derives .member earlier object) :
    Ends (readProperties object ts) (Takes .member (earlier ++ ts)) Fault.IsOfWriting := by
  unfold readProperties
  split
  · rename_i key rest
    refine ((ih rest (Nat.lt_succ_of_lt (Nat.lt_succ_self _))).properties _ _
      (hobject.property key)).bind ?_
    rintro tree remainder _ ⟨taken, htaken, htree⟩
    refine ⟨taken, ?_, htree⟩
    rw [← htaken]
    simp
  · trivial
  · rename_i rest
    refine (ih rest (Nat.lt_succ_self _)).ternary.bind ?_
    rintro key afterKey hKey ⟨used, hused, hkey⟩
    refine ends_expect (fun afterClose hClose hclose => ?_) (fun _ => trivial)
    have hshort : afterClose.length < (Token.symbol .openBracket :: rest).length :=
      Nat.lt_succ_of_lt (Nat.lt_trans hClose hKey)
    dsimp only
    refine ((ih afterClose hshort).properties _ _ (hobject.index hkey)).bind ?_
    rintro tree remainder _ ⟨taken, htaken, htree⟩
    refine ⟨taken, ?_, htree⟩
    rw [← htaken, hused, hclose]
    simp
  · exact ⟨earlier, rfl, hobject⟩

/-- A primary goes on with its properties. -/
theorem readMember_sound : Ends (readMember ts) (Takes .member ts) Fault.IsOfWriting := by
  unfold readMember
  refine (readPrimary_sound ih).bind ?_
  rintro object rest hRest ⟨used, hused, hobject⟩
  dsimp only
  refine ((ih rest hRest).properties _ _ hobject.whole).bind ?_
  rintro tree remainder _ htaken
  rw [← hused] at htaken
  exact htaken

/-- A sign stands before a unary expression; without one it is a member expression. -/
theorem readUnary_sound : Ends (readUnary ts) (Takes .unary ts) Fault.IsOfWriting := by
  have hmember : Ends (readMember ts) (Takes .unary ts) Fault.IsOfWriting := by
    refine (readMember_sound ih).imp ?_ (fun _ => id)
    rintro t rest _ ⟨used, hused, ht⟩
    exact ⟨used, hused, .unsigned ht⟩
  unfold readUnary
  split
  · rename_i s rest
    split
    · rename_i operator hoperator
      have hs := UnaryOperator.ofSymbol?_eq_some_iff.mp hoperator
      refine (ih rest (Nat.lt_succ_self _)).unary.bind ?_
      rintro operand remainder _ ⟨used, hused, hoperand⟩
      refine ⟨.symbol s :: used, ?_, ?_⟩
      · simp [hused]
      · rw [hs]
        exact .sign operator hoperand
    · exact hmember
  · exact hmember

/-- A chain begins with an operand of its level. -/
theorem readChain_sound {level : Level}
    (hoperand : Ends (readOperand level ts) (Takes level.operand ts) Fault.IsOfWriting) :
    Ends (readChain level ts) (Takes (.chain level) ts) Fault.IsOfWriting := by
  unfold readChain
  refine hoperand.bind ?_
  rintro first rest hRest ⟨used, hused, hfirst⟩
  dsimp only
  refine ((ih rest hRest).joined level _ _ hfirst.operand).bind ?_
  rintro tree remainder _ htaken
  rw [← hused] at htaken
  exact htaken

/-- The operands of every level, by induction on how many tighter levels there are. -/
theorem readOperand_sound (level : Level) :
    Ends (readOperand level ts) (Takes level.operand ts) Fault.IsOfWriting := by
  -- On the way down no token is taken, so the number of tokens does not decrease here.
  induction hheight : level.height using Nat.strongRecOn generalizing level with
  | ind height ihlevel =>
    cases htighter : level.tighter? with
    | none =>
      rw [readOperand_eq_unary htighter, Level.operand_of_tightest htighter]
      exact readUnary_sound ih
    | some next =>
      have hlower : next.height < height := hheight ▸ Level.height_of_tighter? htighter
      have hnext := ihlevel next.height hlower next rfl
      rw [readOperand_eq_chain htighter, Level.operand_of_tighter? htighter]
      exact readChain_sound ih hnext

/-- A ternary is its test, or goes on with both choices. -/
theorem readTernary_sound : Ends (readTernary ts) (Takes .ternary ts) Fault.IsOfWriting := by
  unfold readTernary
  refine (readChain_sound ih (readOperand_sound ih .or)).bind ?_
  rintro test afterTest hTest ⟨used, hused, htest⟩
  dsimp only
  split
  · rename_i rest hTest
    have hRest : rest.length < ts.length := Nat.lt_of_succ_lt hTest
    refine (ih rest hRest).ternary.bind ?_
    rintro held afterHeld hHeld ⟨usedHeld, husedHeld, hheld⟩
    refine ends_expect (fun afterColon hColon hcolon => ?_) (fun _ => trivial)
    dsimp only
    have hshort : afterColon.length < ts.length :=
      Nat.lt_trans hColon (Nat.lt_trans hHeld hRest)
    refine (ih afterColon hshort).ternary.bind ?_
    rintro otherwise remainder _ ⟨usedOtherwise, husedOtherwise, hotherwise⟩
    have hafter : afterHeld = .symbol .colon :: afterColon := hcolon
    refine ⟨_, ?_, .choice htest hheld hotherwise⟩
    simp [hused, husedHeld, hafter, husedOtherwise]
  · exact ⟨used, hused, htest.plain⟩

/-- The items of an array stand before its closing bracket. -/
theorem readItems_sound : Ends (readItems ts)
    (fun items rest => Takes .items ts (.array items) (.symbol .closeBracket :: rest))
    Fault.IsOfWriting := by
  unfold readItems
  refine (readTernary_sound ih).bind ?_
  rintro item afterItem hItem ⟨used, hused, hitem⟩
  dsimp only
  split
  · rename_i rest hItem
    refine (ih rest (Nat.lt_of_succ_lt hItem)).items.bind ?_
    rintro others remainder _ ⟨usedOthers, husedOthers, hothers⟩
    refine ⟨_, ?_, .nextItem hitem hothers⟩
    simp [hused, husedOthers]
  · refine ends_expect (fun remainder _ hclose => ?_) (fun _ => trivial)
    exact ⟨used, hused.trans (congrArg (used ++ ·) hclose), .lastItem hitem⟩

end

/-- All readers are sound on every list of tokens, by induction on its length. -/
theorem soundAt (ts : List Token) : SoundAt ts := by
  induction hlength : ts.length using Nat.strongRecOn generalizing ts with
  | ind n ih =>
    -- Calls on the same tokens need no induction: each lemma above uses the ones before it.
    have ih : ∀ us, us.length < ts.length → SoundAt us :=
      fun us hus => ih us.length (hlength ▸ hus) us rfl
    exact ⟨readTernary_sound ih, readOperand_sound ih, fun _ _ _ => readJoined_sound ih,
      readUnary_sound ih, fun _ _ => readProperties_sound ih, readItems_sound ih⟩

/-- Tokens are read as one ternary that leaves none over. -/
theorem ofTokens_cons (first : Token) (others : List Token) :
    Tree.ofTokens (first :: others) = (do
      let (tree, ⟨rest, _⟩) ← readTernary (first :: others)
      match rest with
      | [] => return tree
      | t :: _ => throw (.unexpectedToken t)) := rfl

/-- The tree of a whole list of tokens is that of the phrase that they write, and without one they
are at fault: there are none, they cannot be read, or some are left over. -/
theorem ofTokens_sound (ts : List Token) :
    match Tree.ofTokens ts with
    | .ok t => Derives .ternary ts t
    | .error fault => fault.IsOfWriting := by
  cases ts with
  | nil => trivial
  | cons first others =>
    have hread := (soundAt (first :: others)).ternary
    rw [ofTokens_cons]
    cases hts : readTernary (first :: others) with
    | error fault =>
      rw [hts] at hread
      exact hread
    | ok p =>
      obtain ⟨t, rest, hrest⟩ := p
      rw [hts] at hread
      obtain ⟨used, hused, ht⟩ := hread
      cases rest with
      | nil =>
        have hall : first :: others = used := hused.trans (List.append_nil used)
        change Derives .ternary (first :: others) t
        rw [hall]
        exact ht
      | cons next others => trivial

end StepGraph.Expression
