import StepGraph.Proofs.Parsing

/-!
# Names joined by dots

Names with dots between them are cut back into the same names, and they are read as the first name
with the others as properties, each of the object before it. A text is cut from the left, so it is
enough to know the first token and how the rest is cut.
-/

namespace StepGraph.Expression

open Text (isBlank isDigit)

/-- A word that is a name: it begins with a letter of the Latin alphabet, an underscore or a
dollar sign, goes on with these or digits, and is not reserved. -/
def isName (word : String) : Bool :=
  match word.toList with
  | [] => false
  | first :: rest => isNameStart first && rest.all isNamePart && !Entries.hasKey reserved word

/-- How a name is written. -/
theorem isName_eq_true_iff {word : String} : isName word = true ↔
    ∃ first rest, word.toList = first :: rest ∧ isNameStart first = true ∧
      (∀ c ∈ rest, isNamePart c = true) ∧ Entries.hasKey reserved word = false := by
  unfold isName
  cases word.toList with
  | nil => simp
  | cons first rest => simp [and_assoc]

/-- The characters of names are among the first that there are. -/
theorem toNat_lt_of_isNamePart {c : Char} (h : isNamePart c = true) : c.toNat < 128 := by
  have hval : ∀ last : Char, c.val ≤ last.val → last.toNat < 128 → c.toNat < 128 :=
    fun last hc hlast => Nat.lt_of_le_of_lt hc hlast
  have hkinds : ((((c.isUpper || c.isLower) || c == '_') || c == '$') || c.isDigit) = true := h
  simp only [Bool.or_eq_true, beq_iff_eq] at hkinds
  obtain (((hupper | hlower) | rfl) | rfl) | hdigit := hkinds
  · have hrange : 'A'.val ≤ c.val ∧ c.val ≤ 'Z'.val := of_decide_eq_true hupper
    exact hval 'Z' hrange.2 (by decide)
  · have hrange := (Bool.and_eq_true_iff.mp hlower).2
    exact hval 'z' (of_decide_eq_true hrange) (by decide)
  · decide
  · decide
  · have hrange := (Bool.and_eq_true_iff.mp hdigit).2
    exact hval '9' (of_decide_eq_true hrange) (by decide)

/-- Among the first characters those that begin a name are neither blanks nor digits. -/
theorem plain_of_isNameStart_ofNat : ∀ n < 128, isNameStart (Char.ofNat n) = true →
    isBlank (Char.ofNat n) = false ∧ isDigit (Char.ofNat n) = false := by
  decide +kernel

/-- A character that begins a name is neither a blank nor a digit, a dot or a quote. -/
theorem plain_of_isNameStart {c : Char} (h : isNameStart c = true) :
    isBlank c = false ∧ isDigit c = false ∧ c ≠ '.' ∧ c ≠ '"' ∧ c ≠ '\'' := by
  have hlow : c.toNat < 128 := toNat_lt_of_isNamePart (Bool.or_eq_true_iff.mpr (Or.inl h))
  have hplain := plain_of_isNameStart_ofNat c.toNat hlow
  rw [Char.ofNat_toNat] at hplain
  refine ⟨(hplain h).1, (hplain h).2, ?_, ?_, ?_⟩
  all_goals
    rintro rfl
    revert h
    decide

theorem ne_dot_of_isNamePart {c : Char} (h : isNamePart c = true) : c ≠ '.' := by
  rintro rfl
  revert h
  decide

/-- A text that is cut into tokens, wherever in an expression it stands. -/
def Cuts (cs : List Char) (ts : List Token) : Prop := ∀ position, tokensFrom position cs = .ok ts

theorem cuts_nil : Cuts [] [] := by
  intro position
  rw [tokensFrom]

/-- The first token is cut off, and then the rest. -/
theorem Cuts.cons {first : Char} {rest remainder : List Char} {t : Token} {ts : List Token}
    (hblank : isBlank first = false) (ht : token? first rest = some (t, remainder))
    (h : Cuts remainder ts) : Cuts (first :: rest) (t :: ts) := by
  intro position
  rw [tokensFrom, if_neg (by rw [hblank]; exact Bool.false_ne_true)]
  split
  · rename_i hnone
    cases ht.symm.trans hnone
  · rename_i t' remainder' hsome
    cases ht.symm.trans hsome
    rw [h]
    rfl

/-- Nothing is taken from a text that does not begin with the characters that are taken. -/
theorem span_of_head {kind : Char → Bool} {tail : List Char}
    (htail : ∀ c ∈ tail.head?, kind c = false) :
    tail.takeWhile kind = [] ∧ tail.dropWhile kind = tail := by
  cases tail with
  | nil => exact ⟨rfl, rfl⟩
  | cons c others =>
    have hc : kind c = false := htail c rfl
    exact ⟨by rw [List.takeWhile_cons, hc]; rfl, by rw [List.dropWhile_cons, hc]; rfl⟩

/-- A word is cut off where no character follows that could go on with it. -/
theorem Cuts.word {first : Char} {rest tail : List Char} (hfirst : isNameStart first = true)
    (hrest : ∀ c ∈ rest, isNamePart c = true) (htail : ∀ c ∈ tail.head?, isNamePart c = false)
    {ts : List Token} (h : Cuts tail ts) :
    Cuts (first :: (rest ++ tail)) (Token.ofWord (String.ofList (first :: rest)) :: ts) := by
  obtain ⟨hblank, hdigit, hdot, hquote, hquote'⟩ := plain_of_isNameStart hfirst
  have hword : wordFrom first (rest ++ tail) =
      (Token.ofWord (String.ofList (first :: rest)), tail) := by
    unfold wordFrom
    rw [List.takeWhile_append_of_pos hrest, List.dropWhile_append_of_pos hrest,
      (span_of_head htail).1, (span_of_head htail).2, List.append_nil]
  refine Cuts.cons hblank ?_ h
  rw [token?, if_neg (by rw [hdigit]; exact Bool.false_ne_true), if_neg (fun hd => hdot hd.1),
    if_neg (not_or.mpr ⟨hquote, hquote'⟩), if_pos hfirst, hword]

/-- So is a name, which is no reserved word. -/
theorem Cuts.name {word : String} (hword : isName word = true) {tail : List Char}
    (htail : ∀ c ∈ tail.head?, isNamePart c = false) {ts : List Token} (h : Cuts tail ts) :
    Cuts (word.toList ++ tail) (.name word :: ts) := by
  obtain ⟨first, rest, hchars, hfirst, hrest, hfree⟩ := isName_eq_true_iff.mp hword
  have hname : Token.ofWord word = .name word := by
    rw [Entries.hasKey, Option.isSome_eq_false_iff, Option.isNone_iff_eq_none] at hfree
    rw [Token.ofWord, hfree]
    rfl
  have hcuts := Cuts.word hfirst hrest htail h
  rwa [← hchars, String.ofList_toList, hname, ← List.cons_append, ← hchars] at hcuts

/-- A dot before a name is cut off. -/
theorem Cuts.dot {word : String} (hword : isName word = true) {tail : List Char}
    {ts : List Token} (h : Cuts (word.toList ++ tail) ts) :
    Cuts ('.' :: (word.toList ++ tail)) (.symbol .dot :: ts) := by
  obtain ⟨first, rest, hchars, hfirst, -, -⟩ := isName_eq_true_iff.mp hword
  have hdigit := (plain_of_isNameStart hfirst).2.1
  refine Cuts.cons (by decide) ?_ h
  have hsymbol : ∀ cs, symbolFrom? '.' cs = some (.symbol .dot, cs) := fun _ => rfl
  rw [token?, if_neg (by decide), if_neg, if_neg (by decide), if_neg (by decide), hsymbol]
  rintro ⟨-, hdigits⟩
  rw [hchars, List.cons_append, List.takeWhile_cons_of_neg] at hdigits
  · cases hdigits
  · rw [hdigit]
    exact Bool.false_ne_true

/-- How a path with a further name is written. -/
theorem toList_intercalate_cons_cons (first next : String) (others : List String) :
    (".".intercalate (first :: next :: others)).toList =
      first.toList ++ '.' :: (".".intercalate (next :: others)).toList := by
  simp [String.toList_intercalate, List.intercalate]

/-- A path begins with its first name. -/
theorem exists_toList_intercalate_cons (first : String) (others : List String) :
    ∃ tail, (".".intercalate (first :: others)).toList = first.toList ++ tail := by
  cases others with
  | nil => exact ⟨[], by simp⟩
  | cons next others => exact ⟨_, toList_intercalate_cons_cons first next others⟩

/-- The tokens of a property after a dot. -/
def propertyTokens (key : String) : List Token := [.symbol .dot, .name key]

/-- A path of names is cut back into them, where nothing follows that goes on with the last one. -/
theorem cuts_intercalate {root : String} {keys : List String} (hroot : isName root = true)
    (hkeys : ∀ key ∈ keys, isName key = true) {tail : List Char}
    (htail : ∀ c ∈ tail.head?, isNamePart c = false) {ts : List Token} (h : Cuts tail ts) :
    Cuts ((".".intercalate (root :: keys)).toList ++ tail)
      (.name root :: (keys.flatMap propertyTokens ++ ts)) := by
  induction keys generalizing root with
  | nil => simpa using Cuts.name hroot htail h
  | cons key keys ih =>
    have hkey := hkeys key List.mem_cons_self
    have hrest := ih hkey fun k hk => hkeys k (List.mem_cons_of_mem _ hk)
    rw [toList_intercalate_cons_cons, List.append_assoc, List.cons_append]
    refine Cuts.name hroot (fun c hc => ?_) ?_
    · cases hc
      rfl
    · -- The dot is cut off alone only if no digit follows, so the next name has to be in sight.
      obtain ⟨others, hothers⟩ := exists_toList_intercalate_cons key keys
      rw [hothers, List.append_assoc] at hrest ⊢
      exact Cuts.dot hkey hrest

/-- The tree of an object and the properties read from it one after the other. -/
def Tree.properties (object : Tree) (keys : List String) : Tree :=
  keys.foldl (fun object key => .member object (.literal (.text key))) object

/-- A member expression goes on with any number of properties. -/
theorem Derives.properties {ts : List Token} {object : Tree} (h : Derives .member ts object)
    (keys : List String) :
    Derives .member (ts ++ keys.flatMap propertyTokens) (object.properties keys) := by
  induction keys generalizing ts object with
  | nil =>
    rw [List.flatMap_nil, List.append_nil]
    exact h
  | cons key keys ih =>
    rw [List.flatMap_cons, ← List.append_assoc]
    exact ih (h.property key)

/-- A unary expression is an operand of every operator that compares. -/
theorem Derives.comparison_of_unary {ts : List Token} {t : Tree} (h : Derives .unary ts t) :
    Derives (.chain .comparison) ts t := by
  have hmultiplicative : Derives (.chain .multiplicative) ts t := .operand h
  have hadditive : Derives (.chain .additive) ts t := .operand hmultiplicative
  exact .operand hadditive

/-- A chain of comparisons for equality is a whole expression. -/
theorem Derives.ternary_of_equality {ts : List Token} {t : Tree}
    (h : Derives (.chain .equality) ts t) : Derives .ternary ts t := by
  have hand : Derives (.chain .and) ts t := .operand h
  exact .plain (.operand hand)

/-- A path of names is read as its first name with the others as properties. -/
theorem Tree.ofSource_intercalate {root : String} {keys : List String} (hroot : isName root = true)
    (hkeys : ∀ key ∈ keys, isName key = true) :
    Tree.ofSource (".".intercalate (root :: keys)) =
      .ok ((Tree.name root).properties keys) := by
  have htokens := cuts_intercalate hroot hkeys (by simp) cuts_nil 0
  rw [List.append_nil, List.append_nil] at htokens
  have hpath := (Derives.name root).whole.properties keys
  have hchain : Derives (.chain .equality) _ _ := .operand hpath.unsigned.comparison_of_unary
  exact Tree.ofSource_eq_ok_iff.mpr ⟨_, htokens, hchain.ternary_of_equality⟩

end StepGraph.Expression
