import StepGraph.Proofs.Constants
import StepGraph.Proofs.PathAgreement

/-!
# Tests and expressions agree

A condition is a tree of tests on paths or an expression. The test whether a path equals a constant
and the expression that compares the same path with the constant, however that is written, have the
same truth, and so have the test whether there is a value at a path and the comparison with
undefined. Where the path breaks off, the test sees an undefined value, and the expression has no
value at all and is false for that.
-/

namespace StepGraph

open StepGraph.Path (Root)

namespace Expression

open Text (isBlank)

/-- A blank is dropped. -/
theorem Cuts.blank {c : Char} {rest : List Char} {ts : List Token} (hc : isBlank c = true)
    (h : Cuts rest ts) : Cuts (c :: rest) ts := by
  intro position
  rw [tokensFrom, if_pos hc]
  exact h (position + 1)

/-- The symbol of a comparison for equality is cut off with the blanks around it. -/
theorem cuts_equality {operator : BinaryOperator} (hlevel : operator.level = .equality)
    {tail : List Char} {ts : List Token} (h : Cuts tail ts) :
    Cuts (' ' :: (operator.symbol.text.toList ++ ' ' :: tail)) (.symbol operator.symbol :: ts) := by
  have htail : Cuts (' ' :: tail) ts := .blank (by decide) h
  refine .blank (by decide) ?_
  cases operator <;> cases hlevel
  all_goals exact Cuts.cons (by decide) (by rfl) htail

end Expression

open Expression

/-- A path compared for equality with what stands for a value: its properties are read, and the
value that is found is compared. -/
theorem evaluate_equality (ctx : Context) {root : Root} {keys : List String}
    (hkeys : ∀ key ∈ keys, isName key = true) {operator : BinaryOperator}
    (hlevel : operator.level = .equality) {written source : String} {v : Value}
    (hwritten : Writes written v)
    (hsource : source.toList = (root.path keys).toList ++
      ' ' :: (operator.symbol.text.toList ++ ' ' :: written.toList)) :
    evaluate source (Condition.bindingsOf ctx) =
      propertiesOf (root.value ctx) keys >>= fun found => applyBinary operator found v := by
  obtain ⟨ts, constant, htokens, hconstant, hvalue⟩ := hwritten
  have hcuts : Cuts source.toList _ := hsource ▸
    cuts_intercalate root.isName_word hkeys (by simp; decide) (cuts_equality hlevel htokens)
  have hpath := (Derives.name root.word).whole.properties keys
  have hleft : Derives (.chain .equality) _ _ := .operand hpath.unsigned.comparison_of_unary
  have hchain := Derives.join hleft (hlevel ▸ Joins.binary operator) hconstant.comparison_of_unary
  have htree := Tree.ofSource_eq_ok_iff.mpr ⟨_, hcuts 0, hchain.ternary_of_equality⟩
  rw [evaluate, htree]
  change Tree.evaluate _ (.binary operator _ _) = _
  rw [Tree.evaluate, root.evaluate_properties ctx keys, hvalue]
  rfl

/-- The properties along a path give the value at its end, or they are at fault and the path is
undefined. -/
theorem Expression.propertiesOf_walk (v : Value) (keys : List String) :
    propertiesOf v keys = .ok (v.walk keys) ∨
      (∃ fault, propertiesOf v keys = .error fault) ∧ v.walk keys = .undefined := by
  obtain ⟨hthere, hmissing⟩ := propertiesOf_agrees v keys
  by_cases h : ∃ i < keys.length, (v.walk (keys.take i)).isNullish = true
  · obtain ⟨⟨key, object, hfault⟩, hundefined⟩ := hmissing h
    exact Or.inr ⟨⟨_, hfault⟩, hundefined⟩
  · refine Or.inl (hthere fun i hi => ?_)
    exact Bool.eq_false_iff.mpr fun hnull => h ⟨i, hi, hnull⟩

/-- The truth of a condition that is an expression; only an empty one would be no condition. -/
theorem Condition.holds_expression (ctx : Context) {source : String} (h : source ≠ "") :
    Condition.holds (.mapping [("expr", .text source)]) ctx =
      Condition.expressionHolds source ctx := by
  have hpresent : (Value.text source).isPresent = true := by
    change (!source.isEmpty) = true
    simp [h]
  change (if (Value.text source).isPresent then Condition.expressionHolds source ctx else _) = _
  rw [hpresent, if_pos rfl]

/-- An expression that compares a path for equality is as true as the comparison with the value at
its end, if the comparison does not hold of an undefined value. -/
theorem Condition.holds_equality (ctx : Context) {root : Root} {keys : List String}
    (hkeys : ∀ key ∈ keys, isName key = true) (hlong : root.needsKey = true → keys ≠ [])
    (operator : BinaryOperator) (hlevel : operator.level = .equality) {written source : String}
    {v : Value} (hwritten : Writes written v)
    (hsource : source.toList = (root.path keys).toList ++
      ' ' :: (operator.symbol.text.toList ++ ' ' :: written.toList))
    {compare : Value → Bool}
    (hcompare : ∀ found, applyBinary operator found v = .ok (.bool (compare found)))
    (hundefined : compare .undefined = false) :
    Condition.holds (.mapping [("expr", .text source)]) ctx =
      compare (ctx.resolve (root.path keys)) := by
  have hnonempty : source ≠ "" := by
    rintro rfl
    simp at hsource
  rw [Condition.holds_expression ctx hnonempty, Condition.expressionHolds,
    evaluate_equality ctx hkeys hlevel hwritten hsource, ctx.resolve_path hkeys hlong]
  obtain hok | ⟨⟨fault, hfault⟩, hnone⟩ := propertiesOf_walk (root.value ctx) keys
  · have hvalue : (Except.ok ((root.value ctx).walk keys) >>= fun found =>
        applyBinary operator found v) = .ok (.bool (compare ((root.value ctx).walk keys))) :=
      hcompare _
    rw [hok, hvalue]
    rfl
  · -- A fault in the expression makes it false, and so is the comparison with undefined.
    rw [hfault, hnone, hundefined]
    rfl

/-- A constant is never undefined. -/
theorem Constant.strictEquals_undefined (c : Constant) :
    Value.strictEquals .undefined c.value = false := by
  cases c <;> rfl

/-- Only an undefined value strictly equals undefined. -/
theorem Value.strictEquals_undefined (v : Value) : v.strictEquals .undefined = v.isUndefined := by
  cases v <;> rfl

/-- The two condition languages agree. For every path of names from one of the roots and for every
constant, however it is written, the test that the path equals the constant is the expression that
compares them strictly, and the test that there is a value at the path is the expression that it is
not undefined. -/
theorem holds_agrees_with_expression (ctx : Context) (root : Root) (keys : List String)
    (hkeys : ∀ key ∈ keys, isName key = true) (hlong : root.needsKey = true → keys ≠ [])
    (c : Constant) (written : String) (hwritten : c.Spells written) :
    Condition.holds
          (.mapping [("equals", .mapping [("left", .text (root.path keys)), ("right", c.value)])])
          ctx =
      Condition.holds (.mapping [("expr", .text (root.path keys ++ " === " ++ written))]) ctx ∧
    Condition.holds (.mapping [("exists", .text (root.path keys))]) ctx =
      Condition.holds (.mapping [("expr", .text (root.path keys ++ " !== undefined"))]) ctx := by
  have hequal : Condition.holds
      (.mapping [("expr", .text (root.path keys ++ " === " ++ written))]) ctx =
        (ctx.resolve (root.path keys)).strictEquals c.value := by
    refine Condition.holds_equality ctx hkeys hlong .strictEqual rfl hwritten.writes ?_
      (fun _ => rfl) c.strictEquals_undefined
    rw [String.toList_append, String.toList_append, List.append_assoc]
    rfl
  have hthere : Condition.holds
      (.mapping [("expr", .text (root.path keys ++ " !== undefined"))]) ctx =
        !(ctx.resolve (root.path keys)).strictEquals .undefined := by
    have hundefined : Writes "undefined" .undefined := .reserved rfl (by decide) (by decide) rfl
    refine Condition.holds_equality ctx hkeys hlong .strictUnequal rfl hundefined ?_
      (fun _ => rfl) rfl
    rw [String.toList_append]
    rfl
  rw [hequal, hthere, Value.strictEquals_undefined]
  exact ⟨rfl, rfl⟩

/-- A name with an apostrophe is compared with a quoted text in which it is escaped. Behind a user
who is null there is no name, so none of the four conditions holds there. -/
theorem userName_agrees_with_expression :
    let named : Context := { vars := [("user", .mapping [("name", .text "O'Hara")])] }
    let unnamed : Context := { vars := [("user", .null)] }
    let equals : Value := .mapping
      [("equals", .mapping [("left", .text "vars.user.name"), ("right", .text "O'Hara")])]
    let compared : Value := .mapping [("expr", .text "vars.user.name === 'O\\'Hara'")]
    let present : Value := .mapping [("exists", .text "vars.user.name")]
    let defined : Value := .mapping [("expr", .text "vars.user.name !== undefined")]
    (Condition.holds equals named = Condition.holds compared named ∧
      Condition.holds present named = Condition.holds defined named) ∧
    (Condition.holds equals unnamed = Condition.holds compared unnamed ∧
      Condition.holds present unnamed = Condition.holds defined unnamed) ∧
    Condition.holds equals named = true ∧ Condition.holds present unnamed = false := by
  intro named unnamed equals compared present defined
  have hkeys : ∀ key ∈ ["user", "name"], isName key = true := by decide +kernel
  have hlong : Root.vars.needsKey = true → ["user", "name"] ≠ [] := by decide
  have hescapes : Escapes '\'' "O'Hara".toList "O\\'Hara".toList :=
    .plain (by decide) (by decide) (.escaped (by decide) (.plain (by decide) (by decide)
      (.plain (by decide) (by decide) (.plain (by decide) (by decide)
        (.plain (by decide) (by decide) .nil)))))
  have hwritten : (Constant.text "O'Hara").Spells "'O\\'Hara'" := .text (Or.inr rfl) hescapes
  have hagrees := fun ctx =>
    holds_agrees_with_expression ctx .vars ["user", "name"] hkeys hlong _ _ hwritten
  exact ⟨hagrees named, hagrees unnamed, by decide +kernel, by decide +kernel⟩

end StepGraph
