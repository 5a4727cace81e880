import Mathlib.Data.List.TakeWhile
import StepGraph.Proofs.Dotted
import StepGraph.Expression.Evaluation

/-!
# Constants as they are written

A condition compares with constants: null, the truth values, integers and texts. In an expression a
constant is written out: a text between quotes, with the quotes and backslashes in it escaped, and a
negative integer with a sign. However it is written, the expression stands for the constant.
-/

namespace StepGraph

/-- A constant of a condition. -/
inductive Constant where
  | null
  | bool (value : Bool)
  | int (value : Int)
  | text (value : String)

/-- The value of a constant. -/
def Constant.value : Constant → Value
  | .null => .null
  | .bool b => .bool b
  | .int n => .int n
  | .text s => .text s

namespace Expression

/-- The characters of a text and how they are written between quotes. The quote itself and
backslashes have to be escaped, and the other quote may be. -/
inductive Escapes (quote : Char) : List Char → List Char → Prop where
  | nil : Escapes quote [] []
  | plain {c : Char} {cs written : List Char} (hquote : c ≠ quote) (hbackslash : c ≠ '\\')
      (h : Escapes quote cs written) : Escapes quote (c :: cs) (c :: written)
  | escaped {c : Char} {cs written : List Char} (hc : c = '"' ∨ c = '\'' ∨ c = '\\')
      (h : Escapes quote cs written) : Escapes quote (c :: cs) ('\\' :: c :: written)

/-- Every text can be written between quotes of either kind. -/
theorem exists_escapes {quote : Char} (hquote : quote = '"' ∨ quote = '\'') (cs : List Char) :
    ∃ written, Escapes quote cs written := by
  induction cs with
  | nil => exact ⟨[], .nil⟩
  | cons c cs ih =>
    obtain ⟨written, h⟩ := ih
    by_cases hc : c = '"' ∨ c = '\'' ∨ c = '\\'
    · exact ⟨_, .escaped hc h⟩
    · have hne : c ≠ quote := by
        rintro rfl
        exact hc (hquote.imp_right Or.inl)
      exact ⟨_, .plain hne (fun hbackslash => hc (Or.inr (Or.inr hbackslash))) h⟩

end Expression

/-- How a constant is written in an expression. -/
inductive Constant.Spells : Constant → String → Prop where
  | null : Spells .null "null"
  | yes : Spells (.bool true) "true"
  | no : Spells (.bool false) "false"
  | int (n : Int) : Spells (.int n) (toString n)
  | text {quote : Char} {s : String} {written : List Char} (hquote : quote = '"' ∨ quote = '\'')
      (h : Expression.Escapes quote s.toList written) :
      Spells (.text s) (String.ofList (quote :: (written ++ [quote])))

/-- Every constant can be written. -/
theorem Constant.exists_spells (c : Constant) : ∃ written, c.Spells written := by
  cases c with
  | null => exact ⟨_, .null⟩
  | bool b => cases b with
    | true => exact ⟨_, .yes⟩
    | false => exact ⟨_, .no⟩
  | int n => exact ⟨_, .int n⟩
  | text s =>
    obtain ⟨written, h⟩ := Expression.exists_escapes (Or.inl rfl) s.toList
    exact ⟨_, .text (Or.inl rfl) h⟩

namespace Expression

open Text (isBlank isDigit readDigits digitValue?)

/-- What was escaped is read back, up to the closing quote. -/
theorem quotedBody?_of_escapes {quote : Char} {cs written : List Char}
    (h : Escapes quote cs written) (hquote : quote ≠ '\\') (rest : List Char) :
    quotedBody? quote (written ++ quote :: rest) = some (cs, rest) := by
  induction h with
  | nil =>
    rw [List.nil_append, quotedBody?, if_pos rfl]
    exact fun _ _ hbackslash => absurd hbackslash hquote
  | plain hne hbackslash h ih =>
    rw [List.cons_append, quotedBody?, if_neg hne, ih]
    · rfl
    · exact fun _ _ hc => absurd hc hbackslash
  | escaped hc h ih =>
    rw [List.cons_append, List.cons_append, quotedBody?, ih]
    obtain rfl | rfl | rfl := hc <;> rfl

/-- A text between quotes is cut off as one token. -/
theorem Cuts.quoted {quote : Char} {s : String} {written tail : List Char}
    (hquote : quote = '"' ∨ quote = '\'') (hwritten : Escapes quote s.toList written)
    {ts : List Token} (h : Cuts tail ts) :
    Cuts (quote :: (written ++ quote :: tail)) (.literal (.text s) :: ts) := by
  have hplain : isBlank quote = false ∧ isDigit quote = false ∧ quote ≠ '.' ∧ quote ≠ '\\' := by
    obtain rfl | rfl := hquote <;> decide
  obtain ⟨hblank, hdigit, hdot, hbackslash⟩ := hplain
  refine Cuts.cons hblank ?_ h
  rw [token?, if_neg (by rw [hdigit]; exact Bool.false_ne_true), if_neg (fun hd => hdot hd.1),
    if_pos hquote, quotedBody?_of_escapes hwritten hbackslash]
  exact congrArg (fun s => some (Token.literal (.text s), tail)) String.ofList_toList

/-- A digit of the Latin script has its value. -/
theorem digitValue?_of_isDigit {c : Char} (h : c.isDigit = true) :
    digitValue? c = some (c.toNat - '0'.toNat) := by
  have hrange : '0'.toNat ≤ c.toNat ∧ c.toNat ≤ '9'.toNat := Char.isDigit_iff_toNat.mp h
  have hlatin : (decide (0x30 ≤ c.toNat) && decide (c.toNat < 0x30 + 10)) = true := by
    simp only [Bool.and_eq_true, decide_eq_true_eq]
    exact ⟨hrange.1, Nat.lt_succ_of_le hrange.2⟩
  have hzeros : Text.digitZeros = 0x30 :: Text.digitZeros.tail := rfl
  have hfound : (Text.digitZeros.find? fun first => first ≤ c.toNat && c.toNat < first + 10) =
      some 0x30 := by
    rw [hzeros]
    exact List.find?_cons_of_pos hlatin
  rw [digitValue?, hfound]
  rfl

/-- Nor is it a blank. -/
theorem isBlank_of_isDigit {c : Char} (h : c.isDigit = true) : isBlank c = false := by
  have hrange : '0'.toNat ≤ c.toNat ∧ c.toNat ≤ '9'.toNat := Char.isDigit_iff_toNat.mp h
  have hall : ∀ n ≤ '9'.toNat, '0'.toNat ≤ n → isBlank (Char.ofNat n) = false := by decide +kernel
  have hblank := hall c.toNat hrange.2 hrange.1
  rwa [Char.ofNat_toNat] at hblank

/-- Digits of the Latin script are read as a decimal number. -/
theorem readDigits_of_isDigit {cs : List Char} (h : ∀ c ∈ cs, c.isDigit = true) (total : Nat) :
    cs.foldl (fun total c => 10 * total + (digitValue? c).getD 0) total =
      Nat.ofDigitChars 10 cs total := by
  induction cs generalizing total with
  | nil => rfl
  | cons c cs ih =>
    rw [List.foldl_cons, digitValue?_of_isDigit (h c List.mem_cons_self), Nat.ofDigitChars_cons]
    exact ih (fun d hd => h d (List.mem_cons_of_mem c hd)) _

/-- The digits of a number are cut off together, if nothing follows. -/
theorem cuts_digits (n : Nat) : Cuts n.repr.toList [.literal (.int n)] := by
  have hdigits : ∀ c ∈ Nat.toDigits 10 n, c.isDigit = true :=
    fun c hc => Nat.isDigit_of_mem_toDigits (by decide) (by decide) hc
  have hread : readDigits (Nat.toDigits 10 n) = n :=
    (readDigits_of_isDigit hdigits 0).trans Nat.ofDigitChars_ten_toDigits
  have hkind : ∀ c ∈ Nat.toDigits 10 n, isDigit c = true := fun c hc => by
    rw [isDigit, digitValue?_of_isDigit (hdigits c hc)]
    rfl
  rw [Nat.toList_repr]
  -- The first digit decides that a number is cut off, and the others are taken along with it.
  obtain ⟨first, rest, hchars⟩ := List.exists_cons_of_ne_nil
    (Nat.toDigits_ne_nil (n := n) (b := 10))
  rw [hchars] at hread hkind ⊢
  have hfirst : isDigit first = true := hkind first List.mem_cons_self
  have hrest : ∀ c ∈ rest, isDigit c = true := fun c hc => hkind c (List.mem_cons_of_mem first hc)
  have hnumber : numberFrom first rest = (.literal (.int n), []) := by
    unfold numberFrom
    rw [List.takeWhile_eq_self_iff.mpr hrest, List.dropWhile_eq_nil_iff.mpr hrest]
    dsimp only
    rw [hread]
  refine Cuts.cons ?_ ?_ cuts_nil
  · exact isBlank_of_isDigit (hdigits first (hchars ▸ List.mem_cons_self))
  · rw [token?, if_pos hfirst, hnumber]

/-- What is written stands for a value: it is cut into the tokens of a unary expression that has the
value under all bindings. -/
def Writes (written : String) (v : Value) : Prop :=
  ∃ ts t, Cuts written.toList ts ∧ Derives .unary ts t ∧ ∀ bindings, t.evaluate bindings = .ok v

/-- A single token stands for the value that it holds. -/
theorem Writes.of_cuts {written : String} {v : Value} (h : Cuts written.toList [.literal v]) :
    Writes written v := by
  refine ⟨_, .literal v, h, (Derives.literal v).whole.unsigned, fun bindings => ?_⟩
  rw [Tree.evaluate]

/-- A reserved word stands for the value of its token. -/
theorem Writes.reserved {word : String} {v : Value} {first : Char} {rest : List Char}
    (hchars : word.toList = first :: rest) (hfirst : isNameStart first = true)
    (hrest : rest.all isNamePart = true) (hword : Token.ofWord word = .literal v) :
    Writes word v := by
  have hcuts := Cuts.word hfirst (List.all_eq_true.mp hrest) (by simp) cuts_nil
  rw [List.append_nil, ← hchars, String.ofList_toList, hword] at hcuts
  exact .of_cuts hcuts

/-- An integer stands for itself; a negative one is written as the negation of its size. -/
theorem writes_int (n : Int) : Writes (toString n) (.int n) := by
  cases n with
  | ofNat n => exact .of_cuts (cuts_digits n)
  | negSucc n =>
    have htokens : Cuts ("-" ++ (n + 1).repr).toList
        [.symbol .minus, .literal (.int (n + 1 : Nat))] := by
      rw [String.toList_append]
      exact Cuts.cons (by decide) (by rfl) (cuts_digits (n + 1))
    have hunary : Derives .unary [.symbol .minus, .literal (.int (n + 1 : Nat))]
        (.unary .minus (.literal (.int (n + 1 : Nat)))) :=
      .sign .minus (Derives.literal _).whole.unsigned
    refine ⟨_, _, htokens, hunary, fun bindings => ?_⟩
    rw [Tree.evaluate, Tree.evaluate]
    rfl

end Expression

open Expression in
/-- A constant stands for its value, however it is written. -/
theorem Constant.Spells.writes {c : Constant} {written : String} (h : c.Spells written) :
    Writes written c.value := by
  cases h with
  | null => exact .reserved rfl (by decide) (by decide) rfl
  | yes => exact .reserved rfl (by decide) (by decide) rfl
  | no => exact .reserved rfl (by decide) (by decide) rfl
  | int n => exact writes_int n
  | text hquote h =>
    refine .of_cuts ?_
    rw [String.toList_ofList]
    exact Cuts.quoted hquote h cuts_nil

end StepGraph
