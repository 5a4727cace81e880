import Mathlib.Data.List.Forall2
import StepGraph.Proofs.Constants

/-!
# Tokens as they are written

A blank ends every token before it, and nothing that follows changes how the text before it was cut.
So a text that is cut into tokens, blanks, and another text are cut into the tokens of the one and
the tokens of the other, or they fail as the other one does, further on. It follows that tokens
which are written out with spaces between them are cut back into the same tokens.
-/

namespace StepGraph

namespace Text

/-- The runs of code points between the boundaries of a class. -/
def runsOf : List Nat → List (Nat × Nat)
  | first :: last :: rest => (first, last) :: runsOf rest
  | _ => []

/-- A code point of a class whose boundaries come in pairs is in one of its runs. -/
theorem mem_run_of_insideAfter {point : Nat} {boundaries : List Nat}
    (hpairs : boundaries.length % 2 = 0) (h : insideAfter point false boundaries = true) :
    ∃ run ∈ runsOf boundaries, run.1 ≤ point ∧ point < run.2 := by
  fun_induction runsOf boundaries with
  | case1 first last rest ih =>
    rw [insideAfter] at h
    split at h
    · cases h
    · rename_i hfirst
      rw [insideAfter] at h
      split at h
      · rename_i hlast
        exact ⟨_, List.mem_cons_self, Nat.le_of_not_lt hfirst, hlast⟩
      · rw [List.length_cons, List.length_cons] at hpairs
        obtain ⟨run, hmem, hrun⟩ := ih (by omega) h
        exact ⟨run, List.mem_cons_of_mem _ hmem, hrun⟩
  | case2 boundaries hshort =>
    match boundaries with
    | [] => cases h
    | [_] => cases hpairs
    | first :: last :: rest => exact (hshort first last rest rfl).elim

/-- No script has its digits among the blanks. -/
theorem isDigit_of_isBlank {c : Char} (h : isBlank c = true) : isDigit c = false := by
  have hapart : ∀ run ∈ runsOf blankBoundaries, ∀ first ∈ digitZeros,
      run.2 ≤ first ∨ first + 10 ≤ run.1 := by decide
  obtain ⟨run, hrun, hbegins, hends⟩ := mem_run_of_insideAfter (by decide) h
  have hnone : (digitZeros.find? fun first => first ≤ c.toNat && c.toNat < first + 10) = none := by
    refine List.find?_eq_none.mpr fun first hfirst hinside => ?_
    simp only [Bool.and_eq_true, decide_eq_true_eq] at hinside
    have := hapart run hrun first hfirst
    omega
  rw [isDigit, digitValue?, hnone]
  rfl

end Text

namespace Expression

open Text (isBlank isDigit readDigits)

/-- Among the first characters no blank is part of a name. -/
theorem isNamePart_ofNat_of_isBlank : ∀ n < 128, isBlank (Char.ofNat n) = true →
    isNamePart (Char.ofNat n) = false := by
  decide +kernel

/-- A blank is no part of a name. -/
theorem isNamePart_of_isBlank {c : Char} (h : isBlank c = true) : isNamePart c = false := by
  cases hpart : isNamePart c with
  | false => rfl
  | true =>
    have hnone := isNamePart_ofNat_of_isBlank c.toNat (toNat_lt_of_isNamePart hpart)
    rw [Char.ofNat_toNat] at hnone
    rw [← hpart, hnone h]

/-- No symbol has a blank in it. -/
theorem Symbol.not_mem_of_isBlank {c : Char} (h : isBlank c = true) (s : Symbol) :
    c ∉ s.text.toList := by
  have hplain : s.text.toList.any isBlank = false := by cases s <;> decide
  exact fun hmem => List.any_eq_false.mp hplain c hmem h

/-- A run of characters that ends before a character ends there whatever follows. -/
theorem span_append {kind : Char → Bool} {c : Char} (hc : kind c = false) (cs tail : List Char) :
    (cs ++ c :: tail).takeWhile kind = cs.takeWhile kind ∧
      (cs ++ c :: tail).dropWhile kind = cs.dropWhile kind ++ c :: tail := by
  induction cs with
  | nil => simp [hc]
  | cons d cs ih =>
    cases hd : kind d with
    | true => simpa [hd] using ih
    | false => simp [hd]

/-- A number before a blank is cut off in the same way whatever follows. -/
theorem numberFrom_append {blank : Char} (hblank : isBlank blank = true) (first : Char)
    (rest tail : List Char) :
    numberFrom first (rest ++ blank :: tail) =
      ((numberFrom first rest).1, (numberFrom first rest).2 ++ blank :: tail) := by
  have hdot : blank ≠ '.' := by
    rintro rfl
    revert hblank
    decide
  obtain ⟨htake, hdrop⟩ := span_append (Text.isDigit_of_isBlank hblank) rest tail
  unfold numberFrom
  rw [htake, hdrop]
  cases hrest : rest.dropWhile isDigit with
  | nil => simp [hdot]
  | cons c others =>
    obtain ⟨htake', hdrop'⟩ := span_append (Text.isDigit_of_isBlank hblank) others tail
    by_cases hc : c = '.'
    · subst hc
      simp [htake', hdrop']
    · simp [hc]

/-- A quoted text is closed by its own quote, whatever follows. -/
theorem quotedBody?_append {quote : Char} {cs body rest : List Char} (hquote : quote ≠ '\\')
    (h : quotedBody? quote cs = some (body, rest)) (tail : List Char) :
    quotedBody? quote (cs ++ tail) = some (body, rest ++ tail) := by
  fun_induction quotedBody? quote cs generalizing body rest with
  | case1 => cases h
  | case2 => cases h
  | case3 cs c hc ih =>
    obtain ⟨⟨body', rest'⟩, hbody, heq⟩ := Option.map_eq_some_iff.mp h
    cases heq
    rw [List.cons_append, List.cons_append, quotedBody?, if_neg hc, ih hbody]
    rfl
  | case4 cs hplain =>
    cases h
    rw [List.cons_append, quotedBody?, if_pos rfl]
    exact fun _ _ hbackslash => absurd hbackslash hquote
  | case5 c cs hplain hne ih =>
    obtain ⟨⟨body', rest'⟩, hbody, heq⟩ := Option.map_eq_some_iff.mp h
    cases heq
    rw [List.cons_append, quotedBody?, if_neg hne, ih hbody]
    · rfl
    · -- A lone backslash at the end would be open, so the text is not closed there.
      intro d others hbackslash hothers
      cases cs with
      | nil => cases hbody
      | cons e cs => exact hplain e cs hbackslash rfl

/-- What begins with a symbol begins with it whatever follows a blank, and the other way round. -/
theorem isPrefixOf_append {s : List Char} {c : Char} (hc : c ∉ s) (cs tail : List Char) :
    s.isPrefixOf (cs ++ c :: tail) = s.isPrefixOf cs := by
  induction s generalizing cs with
  | nil => simp
  | cons d s ih =>
    have hne : d ≠ c := fun h => hc (h ▸ List.mem_cons_self)
    have hrest : c ∉ s := fun h => hc (List.mem_cons_of_mem d h)
    cases cs with
    | nil => simp [List.isPrefixOf, hne]
    | cons e cs => simp [List.isPrefixOf, ih hrest]

/-- The longest symbol is the same whatever follows a blank. -/
theorem symbolFrom?_append {blank : Char} (hblank : isBlank blank = true) {first : Char}
    {rest remainder : List Char} {t : Token} (h : symbolFrom? first rest = some (t, remainder))
    (tail : List Char) :
    symbolFrom? first (rest ++ blank :: tail) = some (t, remainder ++ blank :: tail) := by
  have hsame : (fun s : Symbol => s.text.toList.isPrefixOf (first :: (rest ++ blank :: tail))) =
      fun s => s.text.toList.isPrefixOf (first :: rest) :=
    funext fun s => isPrefixOf_append (s.not_mem_of_isBlank hblank) (first :: rest) tail
  obtain ⟨s, hfound, heq⟩ := Option.map_eq_some_iff.mp h
  cases heq
  have hlength : s.text.length - 1 ≤ rest.length := by
    have hbegins : s.text.toList.isPrefixOf (first :: rest) = true := by
      simpa using List.find?_some hfound
    have hle := (List.isPrefixOf_iff_prefix.mp hbegins).length_le
    rw [String.length_toList, List.length_cons] at hle
    omega
  unfold symbolFrom?
  rw [hsame, hfound, Option.map_some, List.drop_append_of_le_length hlength]

/-- A token is cut off in the same way whatever follows a blank. -/
theorem token?_append {blank : Char} (hblank : isBlank blank = true) {first : Char}
    {rest remainder : List Char} {t : Token} (h : token? first rest = some (t, remainder))
    (tail : List Char) :
    token? first (rest ++ blank :: tail) = some (t, remainder ++ blank :: tail) := by
  have hdigits := span_append (Text.isDigit_of_isBlank hblank) rest tail
  have hparts := span_append (isNamePart_of_isBlank hblank) rest tail
  unfold token? at h ⊢
  rw [hdigits.1, hdigits.2]
  split at h
  · rename_i hfirst
    rw [if_pos hfirst, numberFrom_append hblank, Option.some.inj h]
  · rename_i hfirst
    rw [if_neg hfirst]
    split at h
    · rename_i hpoint
      rw [if_pos hpoint]
      cases h
      rfl
    · rename_i hpoint
      rw [if_neg hpoint]
      split at h
      · rename_i hquote
        have hplain : first ≠ '\\' := by
          rintro rfl
          revert hquote
          decide
        obtain ⟨⟨body, closed⟩, hbody, heq⟩ := Option.map_eq_some_iff.mp h
        cases heq
        rw [if_pos hquote, quotedBody?_append hplain hbody]
        rfl
      · rename_i hquote
        rw [if_neg hquote]
        split at h
        · rename_i hstart
          unfold wordFrom at h ⊢
          rw [if_pos hstart, hparts.1, hparts.2]
          cases h
          rfl
        · rename_i hstart
          rw [if_neg hstart]
          exact symbolFrom?_append hblank h tail

/-- A fault further on in the text; a fault that tells no place is the same. -/
def Fault.later (distance : Nat) : Fault → Fault
  | .unexpectedCharacter c position => .unexpectedCharacter c (distance + position)
  | fault => fault

/-- Where a text stands matters only for the place that a fault tells. -/
theorem tokensFrom_later (distance position : Nat) (cs : List Char) :
    tokensFrom (distance + position) cs =
      (tokensFrom position cs).mapError (Fault.later distance) := by
  fun_induction tokensFrom position cs with
  | case1 => rw [tokensFrom]; rfl
  | case2 position c rest hblank ih =>
    rw [tokensFrom, if_pos hblank]
    exact ih
  | case3 position c rest hblank hnone =>
    rw [tokensFrom, if_neg hblank]
    split
    · rfl
    · rename_i hsome
      cases hnone.symm.trans hsome
  | case4 position c rest hblank t remainder hsome _ ih =>
    rw [tokensFrom, if_neg hblank]
    split
    · rename_i hnone
      cases hnone.symm.trans hsome
    · rename_i t' remainder' hsome'
      cases hsome.symm.trans hsome'
      have hposition : distance + position + 1 + (rest.length - remainder.length) =
          distance + (position + 1 + (rest.length - remainder.length)) := by omega
      rw [hposition, ih]
      cases tokensFrom (position + 1 + (rest.length - remainder.length)) remainder <;> rfl

/-- Blanks are dropped. -/
theorem tokensFrom_blanks {blanks : List Char} (hblanks : ∀ c ∈ blanks, isBlank c = true)
    (position : Nat) (cs : List Char) :
    tokensFrom position (blanks ++ cs) = tokensFrom (position + blanks.length) cs := by
  induction blanks generalizing position with
  | nil => rfl
  | cons c blanks ih =>
    have hlength : position + (c :: blanks).length = position + 1 + blanks.length := by
      rw [List.length_cons]
      omega
    rw [List.cons_append, tokensFrom, if_pos (hblanks c List.mem_cons_self), hlength]
    exact ih (fun d hd => hblanks d (List.mem_cons_of_mem c hd)) _

/-- A text that is cut into tokens is cut into the same ones before a blank. -/
theorem tokensFrom_append {blank : Char} (hblank : isBlank blank = true) {position : Nat}
    {cs : List Char} {ts : List Token} (h : tokensFrom position cs = .ok ts) (tail : List Char) :
    tokensFrom position (cs ++ blank :: tail) =
      (tokensFrom (position + cs.length) (blank :: tail)).map (ts ++ ·) := by
  fun_induction tokensFrom position cs generalizing ts with
  | case1 position =>
    cases h
    rw [List.nil_append, List.length_nil, Nat.add_zero]
    cases tokensFrom position (blank :: tail) <;> rfl
  | case2 position c rest hc ih =>
    have hlength : position + (c :: rest).length = position + 1 + rest.length := by
      rw [List.length_cons]
      omega
    rw [List.cons_append, tokensFrom, if_pos hc, hlength]
    exact ih h
  | case3 position c rest hc hnone => cases h
  | case4 position c rest hc t remainder hsome _ ih =>
    have hshorter := length_token? hsome
    have hskipped : (rest ++ blank :: tail).length - (remainder ++ blank :: tail).length =
        rest.length - remainder.length := by
      rw [List.length_append, List.length_append, Nat.add_sub_add_right]
    have hlength : position + (c :: rest).length =
        position + 1 + (rest.length - remainder.length) + remainder.length := by
      rw [List.length_cons]
      omega
    rw [List.cons_append, tokensFrom, if_neg hc, hlength]
    split
    · rename_i hnone
      cases hnone.symm.trans (token?_append hblank hsome tail)
    · rename_i t' remainder' hsome'
      cases (token?_append hblank hsome tail).symm.trans hsome'
      rw [hskipped]
      cases hlater : tokensFrom (position + 1 + (rest.length - remainder.length)) remainder with
      | error fault =>
        rw [hlater] at h
        cases h
      | ok later =>
        rw [hlater] at h
        cases h
        rw [ih hlater]
        cases tokensFrom _ (blank :: tail) <;> rfl

/-- A text that is cut into tokens, some blanks and another text are cut into the tokens of the one
and those of the other, or they fail as the other one does. -/
theorem tokens_append {source blanks : String} {ts : List Token} (h : tokens source = .ok ts)
    (hsome : blanks ≠ "") (hblanks : ∀ c ∈ blanks.toList, isBlank c = true) (rest : String) :
    tokens (source ++ blanks ++ rest) =
      ((tokens rest).map (ts ++ ·)).mapError (Fault.later (source ++ blanks).length) := by
  obtain ⟨blank, others, hchars⟩ : ∃ blank others, blanks.toList = blank :: others :=
    List.exists_cons_of_ne_nil fun hnil => hsome (String.toList_eq_nil_iff.mp hnil)
  have hblank : isBlank blank = true := hblanks blank (hchars ▸ List.mem_cons_self)
  have hcut := tokensFrom_append hblank h (others ++ rest.toList)
  rw [← List.cons_append, ← hchars, tokensFrom_blanks hblanks] at hcut
  have hplace : 0 + source.toList.length + blanks.toList.length =
      (source ++ blanks).length + 0 := by
    rw [String.length_toList, String.length_toList, String.length_append]
    omega
  unfold tokens
  rw [String.toList_append, String.toList_append, List.append_assoc, hcut, hplace, tokensFrom_later]
  cases tokensFrom 0 rest.toList <;> rfl

/-- How a token is written: an integer with its decimal digits, a text between quotes, the reserved
words, names and symbols as they are. -/
inductive Token.Spells : Token → String → Prop where
  | int (n : Nat) : Spells (.literal (.int n)) n.repr
  | text {quote : Char} {s : String} {written : List Char} (hquote : quote = '"' ∨ quote = '\'')
      (h : Escapes quote s.toList written) :
      Spells (.literal (.text s)) (String.ofList (quote :: (written ++ [quote])))
  | reserved {word : String} {t : Token} (h : (word, t) ∈ Expression.reserved) : Spells t word
  | name {word : String} (h : isName word = true) : Spells (.name word) word
  | symbol (s : Symbol) : Spells (.symbol s) s.text

/-- A token that can be written: a natural number, a text, one of the four literal words, a name
that is not reserved or a symbol. -/
def Token.isWritable : Token → Bool
  | .literal (.number (.int n)) => 0 ≤ n
  | .literal (.text _) | .literal (.bool _) | .literal .null | .literal .undefined => true
  | .literal _ => false
  | .name word => isName word
  | .symbol _ => true

/-- Such a token can be written in at least one way. -/
theorem Token.exists_spells {t : Token} (h : t.isWritable = true) : ∃ word, t.Spells word := by
  have hreserved : ∀ entry ∈ Expression.reserved, Token.Spells entry.2 entry.1 :=
    fun entry hentry => .reserved hentry
  cases t with
  | literal v =>
    cases v with
    | null => exact ⟨_, hreserved ("null", _) (by simp [Expression.reserved])⟩
    | undefined => exact ⟨_, hreserved ("undefined", _) (by simp [Expression.reserved])⟩
    | bool b => cases b with
      | true => exact ⟨_, hreserved ("true", _) (by simp [Expression.reserved])⟩
      | false => exact ⟨_, hreserved ("false", _) (by simp [Expression.reserved])⟩
    | number n => cases n with
      | int n =>
        obtain ⟨m, rfl⟩ := Int.eq_ofNat_of_zero_le (of_decide_eq_true h)
        exact ⟨_, .int m⟩
      | float x => cases h
    | text s =>
      obtain ⟨written, hwritten⟩ := exists_escapes (Or.inl rfl) s.toList
      exact ⟨_, .text (Or.inl rfl) hwritten⟩
    | list items => cases h
    | mapping entries => cases h
    | record kind fields => cases h
  | name word => exact ⟨word, .name h⟩
  | symbol s => exact ⟨_, .symbol s⟩

/-- Each of several such tokens can be written. -/
theorem exists_spells_all {ts : List Token} (h : ∀ t ∈ ts, t.isWritable = true) :
    ∃ words, List.Forall₂ Token.Spells ts words := by
  induction ts with
  | nil => exact ⟨[], .nil⟩
  | cons t ts ih =>
    obtain ⟨word, hword⟩ := Token.exists_spells (h t List.mem_cons_self)
    obtain ⟨words, hwords⟩ := ih fun u hu => h u (List.mem_cons_of_mem t hu)
    exact ⟨word :: words, .cons hword hwords⟩

/-- What is written for a token is cut into that token. -/
theorem Token.Spells.tokens_eq {t : Token} {word : String} (h : t.Spells word) :
    tokens word = .ok [t] := by
  suffices hcuts : Cuts word.toList [t] from hcuts 0
  cases h with
  | int n => exact cuts_digits n
  | text hquote h =>
    rw [String.toList_ofList]
    exact Cuts.quoted hquote h cuts_nil
  | reserved h =>
    simp only [Expression.reserved, List.mem_cons, List.not_mem_nil, or_false, Prod.mk.injEq] at h
    obtain ⟨rfl, rfl⟩ | ⟨rfl, rfl⟩ | ⟨rfl, rfl⟩ | ⟨rfl, rfl⟩ | ⟨rfl, rfl⟩ | ⟨rfl, rfl⟩ |
      ⟨rfl, rfl⟩ := h
    all_goals exact Cuts.cons (by decide) (by rfl) cuts_nil
  | name h => simpa using Cuts.name h (by simp) cuts_nil
  | symbol s => cases s <;> exact Cuts.cons (by decide) (by rfl) cuts_nil

/-- Tokens that are written with a space between two of them are cut back. -/
theorem tokens_intercalate {ts : List Token} {words : List String}
    (h : List.Forall₂ Token.Spells ts words) : tokens (" ".intercalate words) = .ok ts := by
  induction h with
  | nil => exact cuts_nil 0
  | @cons t word ts words ht hrest ih =>
    cases hrest with
    | nil => simpa using ht.tokens_eq
    | @cons t' word' ts words ht' hrest =>
      have hspaced : " ".intercalate (word :: word' :: words) =
          word ++ " " ++ " ".intercalate (word' :: words) :=
        String.toList_inj.mp (by simp [String.toList_intercalate, List.intercalate])
      rw [hspaced, tokens_append ht.tokens_eq (by decide) (List.all_eq_true.mp (by decide)), ih]
      rfl

/-- Cutting a text into tokens is compositional and undoes writing them out. A text that is cut into
tokens, blanks, and any other text are cut into the tokens of the one followed by those of the
other; if the other one cannot be cut, the fault is the same, further on. And tokens that can be
written are cut back from what is written with a space between two of them, however each of them is
written. -/
theorem tokens_compose :
    (∀ (source blanks rest : String) (ts : List Token), tokens source = .ok ts → blanks ≠ "" →
      (∀ c ∈ blanks.toList, isBlank c = true) →
      tokens (source ++ blanks ++ rest) =
        ((tokens rest).map (ts ++ ·)).mapError (Fault.later (source ++ blanks).length)) ∧
    ∀ ts : List Token, (∀ t ∈ ts, t.isWritable = true) →
      (∃ words, List.Forall₂ Token.Spells ts words) ∧
      ∀ words, List.Forall₂ Token.Spells ts words → tokens (" ".intercalate words) = .ok ts := by
  refine ⟨fun source blanks rest ts h hsome hblanks => tokens_append h hsome hblanks rest,
    fun ts hwritable => ⟨?_, fun words hwords => tokens_intercalate hwords⟩⟩
  exact exists_spells_all hwritable

/-- Two signs with blanks between them are not the symbol that they would be together, and the fault
of the second one is found behind the blanks; a text with a quote and a backslash in it is cut back
from what is written. -/
theorem signs_apart_compose :
    tokens "n <" = .ok [.name "n", .symbol .less] ∧
      tokens "= 2" = .error (.unexpectedCharacter '=' 0) ∧
      tokens ("n <" ++ "\t\n" ++ "= 2") = .error (.unexpectedCharacter '=' 5) ∧
      tokens (" ".intercalate ["'it\\'s \\\\'", "!==", "7", "trueish"]) =
        .ok [.literal (.text "it's \\"), .symbol .strictUnequal, .literal (.int 7),
          .name "trueish"] := by
  have hless : tokens "n <" = .ok [.name "n", .symbol .less] := by
    have hspaced : "n <" = " ".intercalate ["n", Symbol.less.text] := by decide
    rw [hspaced]
    exact tokens_intercalate (.cons (.name (by decide)) (.cons (.symbol .less) .nil))
  have hequal : tokens "= 2" = .error (.unexpectedCharacter '=' 0) := by
    change tokensFrom 0 ['=', ' ', '2'] = _
    rw [tokensFrom, if_neg (by decide)]
    split
    · rfl
    · rename_i hsome
      cases hsome
  have hquoted : Token.Spells (.literal (.text "it's \\")) "'it\\'s \\\\'" := by
    have hescapes : Escapes '\'' "it's \\".toList "it\\'s \\\\".toList :=
      .plain (by decide) (by decide) <| .plain (by decide) (by decide) <| .escaped (by decide) <|
        .plain (by decide) (by decide) <| .plain (by decide) (by decide) <|
        .escaped (by decide) .nil
    exact .text (Or.inr rfl) hescapes
  refine ⟨hless, hequal, ?_, ?_⟩
  · have hfault := tokens_compose.1 "n <" "\t\n" "= 2" _ hless (by decide)
      (List.all_eq_true.mp (by decide))
    rw [hfault, hequal]
    rfl
  · refine (tokens_compose.2 _ ?_).2 _ ?_
    · exact List.all_eq_true.mp (by decide)
    · exact .cons hquoted (.cons (.symbol _) (.cons (.int 7) (.cons (.name (by decide)) .nil)))

end Expression

end StepGraph
