import StepGraph.Expression.Fault

/-!
# From text to tokens

The text is cut from the left: blanks are dropped, and each token is as long as its kind allows.
Numbers use digits of any script, names those of the Latin alphabet. A number with a point is a
double. `tokens` fails exactly at the first position where no token starts.
-/

namespace StepGraph.Expression

open Text (isBlank isDigit readDigits)

/-- The character that an escape in a quoted text stands for. -/
def unescaped : Char → Char
  | 'n' => '\n'
  | 't' => '\t'
  | 'r' => '\r'
  | 'b' => '\x08'
  | 'f' => '\x0c'
  | '0' => '\x00'
  | c => c

/-- The characters of a quoted text up to its closing quote, escapes resolved, and the rest. A
backslash escapes any character but a line feed. -/
def quotedBody? (quote : Char) : List Char → Option (List Char × List Char)
  | [] => none
  | '\\' :: c :: rest =>
    if c = '\n' then none
    else (quotedBody? quote rest).map fun (body, rest) => (unescaped c :: body, rest)
  | c :: rest =>
    if c = quote then some ([], rest)
    else (quotedBody? quote rest).map fun (body, rest) => (c :: body, rest)

/-- A character that can start a name. -/
def isNameStart (c : Char) : Bool := c.isAlpha || c == '_' || c == '$'

/-- A character that can continue a name. -/
def isNamePart (c : Char) : Bool := isNameStart c || c.isDigit

/-- A decimal number from its digits before and after the point. -/
def decimalLiteral (whole fraction : List Char) : Token :=
  let digits := whole ++ fraction
  .literal (.float
    (Number.Reading.ofDecimal false (readDigits digits) digits.length (-(fraction.length : Int))))

/-- The number that starts with a digit. -/
def numberFrom (first : Char) (rest : List Char) : Token × List Char :=
  let whole := first :: rest.takeWhile isDigit
  match rest.dropWhile isDigit with
  | '.' :: rest => (decimalLiteral whole (rest.takeWhile isDigit), rest.dropWhile isDigit)
  | rest => (.literal (.int (readDigits whole)), rest)

/-- The word that starts with a character. -/
def wordFrom (first : Char) (rest : List Char) : Token × List Char :=
  (Token.ofWord (String.ofList (first :: rest.takeWhile isNamePart)), rest.dropWhile isNamePart)

/-- The longest symbol at the start of a text. -/
def symbolFrom? (first : Char) (rest : List Char) : Option (Token × List Char) :=
  (Symbol.all.find? fun s => s.text.toList.isPrefixOf (first :: rest)).map fun s =>
    (.symbol s, rest.drop (s.text.length - 1))

/-- The token that starts with a character, which is no blank, and the rest of the text. -/
def token? (first : Char) (rest : List Char) : Option (Token × List Char) :=
  if isDigit first then some (numberFrom first rest)
  else if first = '.' ∧ (rest.takeWhile isDigit).isEmpty = false then
    some (decimalLiteral [] (rest.takeWhile isDigit), rest.dropWhile isDigit)
  else if first = '"' ∨ first = '\'' then
    (quotedBody? first rest).map fun (body, rest) => (.literal (.text (String.ofList body)), rest)
  else if isNameStart first then some (wordFrom first rest)
  else symbolFrom? first rest

/-- What is left after a leading run is no longer than the list. -/
theorem length_dropWhile_le (p : Char → Bool) (cs : List Char) :
    (cs.dropWhile p).length ≤ cs.length :=
  (List.dropWhile_sublist p).length_le

/-- What is left after a quoted text is no longer than the text. -/
theorem length_quotedBody? {quote : Char} {cs body rest : List Char}
    (h : quotedBody? quote cs = some (body, rest)) : rest.length ≤ cs.length := by
  fun_induction quotedBody? quote cs generalizing body rest with
  | case1 => simp at h
  | case2 => simp at h
  | case3 tail c hc ih =>
    obtain ⟨⟨b, r⟩, hb, heq⟩ := Option.map_eq_some_iff.1 h
    simp only [Prod.mk.injEq] at heq
    have := ih hb
    simp only [List.length_cons, ← heq.2]
    omega
  | case4 =>
    simp only [Option.some.injEq, Prod.mk.injEq] at h
    simp [← h.2]
  | case5 _ _ _ _ ih =>
    obtain ⟨⟨b, r⟩, hb, heq⟩ := Option.map_eq_some_iff.1 h
    simp only [Prod.mk.injEq] at heq
    have := ih hb
    simp only [List.length_cons, ← heq.2]
    omega

/-- What is left after a number is no longer than what follows its first digit. -/
theorem length_numberFrom (first : Char) (rest : List Char) :
    (numberFrom first rest).2.length ≤ rest.length := by
  have hrest := length_dropWhile_le isDigit rest
  unfold numberFrom
  split
  · next tail heq =>
    have htail := length_dropWhile_le isDigit tail
    rw [heq, List.length_cons] at hrest
    simp only
    omega
  · exact hrest

/-- What is left after a token is no longer than what follows its first character. -/
theorem length_token? {first : Char} {rest remainder : List Char} {t : Token}
    (h : token? first rest = some (t, remainder)) : remainder.length ≤ rest.length := by
  unfold token? at h
  split at h
  · have := length_numberFrom first rest
    rw [Option.some.injEq] at h
    rw [h] at this
    exact this
  · split at h
    · simp only [Option.some.injEq, Prod.mk.injEq] at h
      rw [← h.2]
      exact length_dropWhile_le isDigit rest
    · split at h
      · obtain ⟨⟨b, r⟩, hb, heq⟩ := Option.map_eq_some_iff.1 h
        simp only [Prod.mk.injEq] at heq
        rw [← heq.2]
        exact length_quotedBody? hb
      · split at h
        · simp only [wordFrom, Option.some.injEq, Prod.mk.injEq] at h
          rw [← h.2]
          exact length_dropWhile_le isNamePart rest
        · obtain ⟨s, _, heq⟩ := Option.map_eq_some_iff.1 h
          simp only [Prod.mk.injEq] at heq
          rw [← heq.2, List.length_drop]
          omega

/-- The tokens of a text that starts at a position of the whole expression. -/
def tokensFrom (position : Nat) (cs : List Char) : Except Fault (List Token) :=
  match cs with
  | [] => .ok []
  | c :: rest =>
    if isBlank c then tokensFrom (position + 1) rest
    else
      match h : token? c rest with
      | none => .error (.unexpectedCharacter c position)
      | some (t, remainder) =>
        have : remainder.length ≤ rest.length := length_token? h
        (tokensFrom (position + 1 + (rest.length - remainder.length)) remainder).map (t :: ·)
termination_by cs.length

/-- The tokens of an expression. -/
def tokens (source : String) : Except Fault (List Token) := tokensFrom 0 source.toList

end StepGraph.Expression
