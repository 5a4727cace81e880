import StepGraph.Plugin.Signature

/-!
# Binding values to parameters

Only texts are ever changed when values are bound, and a text becomes a value of a type that its
parameter names. Since such a value is no text any more, binding what was bound changes nothing. The
names that are bound are those given that the signature knows, or all of them if it accepts others.
-/

namespace StepGraph

/-- A value that a text can become by a type. -/
inductive ParameterType.Makes : ParameterType → Value → Prop where
  | nothing : Makes .nothing .null
  | integer (n : Int) : Makes .integer (.int n)
  | decimal (x : Float) : Makes .decimal (.float x)
  | truth (b : Bool) : Makes .truth (.bool b)

/-- What an annotation may turn a value into: itself, or from a text a value of one of its types. -/
def Accepted.Turns (accepted : Accepted) (v bound : Value) : Prop :=
  bound = v ∨ (∃ s, v = .text s) ∧ ∃ type ∈ accepted.types, type.Makes bound

/-- What a type makes of a text is no text. -/
theorem ParameterType.Makes.ne_text {type : ParameterType} {v : Value} (h : type.Makes v)
    (s : String) : v ≠ .text s := by
  cases h <;> exact nofun

section
variable {v bound : Value} {type : ParameterType} {types : List ParameterType}

/-- No type changes a value that is no text. -/
theorem ParameterType.convert_of_ne_text (type : ParameterType) (h : ∀ s, v ≠ .text s) :
    type.convert v = .ok v := by
  cases v with
  | text s => exact absurd rfl (h s)
  | _ => cases type <;> rfl

/-- A type leaves a text as it is, or it makes a value of its own of it. -/
theorem ParameterType.convert_text {s : String} (h : type.convert (.text s) = .ok bound) :
    bound = .text s ∨ type.Makes bound := by
  cases type with
  | integer =>
    cases hn : Number.integerOf s with
    | error fault => simp [convert, hn, Except.map] at h
    | ok n =>
      have hbound : Value.int n = bound := by simpa [convert, hn, Except.map] using h
      exact Or.inr (hbound ▸ .integer n)
  | decimal =>
    cases hx : Number.decimalOf s with
    | error fault => simp [convert, hx, Except.map] at h
    | ok x =>
      have hbound : Value.float x = bound := by simpa [convert, hx, Except.map] using h
      exact Or.inr (hbound ▸ .decimal x)
  | truth =>
    simp only [convert] at h
    split at h
    · have hbound : Value.bool true = bound := by simpa using h
      exact Or.inr (hbound ▸ .truth true)
    · split at h
      · have hbound : Value.bool false = bound := by simpa using h
        exact Or.inr (hbound ▸ .truth false)
      · have hbound : Value.text s = bound := by simpa using h
        exact Or.inl hbound.symm
  | any | text | nothing | other =>
    have hbound : Value.text s = bound := by simpa [convert] using h
    exact Or.inl hbound.symm

/-- No alternatives change a value that is no text. -/
theorem convertFirst_of_ne_text (types : List ParameterType) (h : ∀ s, v ≠ .text s) :
    convertFirst v types = v := by
  cases types with
  | nil => rfl
  | cons type rest =>
    have htype := type.convert_of_ne_text h
    simp [convertFirst, htype]

/-- Alternatives leave a text as it is, or one of them makes a value of its own of it: the first
that takes the text decides. -/
theorem convertFirst_text (s : String) (types : List ParameterType) :
    convertFirst (.text s) types = .text s ∨
      ∃ type ∈ types, type.Makes (convertFirst (.text s) types) := by
  induction types with
  | nil => exact Or.inl rfl
  | cons type rest ih =>
    cases htype : type.convert (.text s) with
    | ok converted =>
      have hfirst : convertFirst (.text s) (type :: rest) = converted := by
        simp [convertFirst, htype]
      rw [hfirst]
      exact (ParameterType.convert_text htype).imp_right fun hmakes =>
        ⟨type, List.mem_cons_self, hmakes⟩
    | error fault =>
      have hrest : convertFirst (.text s) (type :: rest) = convertFirst (.text s) rest := by
        simp [convertFirst, htype]
      rw [hrest]
      refine ih.imp_right ?_
      rintro ⟨later, hlater, hmakes⟩
      exact ⟨later, List.mem_cons_of_mem _ hlater, hmakes⟩

end

namespace Accepted

variable {accepted : Accepted} {v bound : Value}

/-- An annotation of one type converts as the type does. -/
theorem convert_single {type : ParameterType} (h : accepted.types = [type]) (v : Value) :
    accepted.convert v = type.convert v := by
  simp [convert, h]

/-- Alternatives never fail: nothing is said where they allow it, or the first that takes the value
decides. -/
theorem convert_alternatives (h : ∀ type, accepted.types ≠ [type]) (v : Value) :
    accepted.convert v = .ok (if accepted.types.contains .nothing && saysNothing v then .null
      else convertFirst v (accepted.types.filter (· != .nothing))) := by
  unfold convert
  split
  · next type htypes => exact absurd htypes (h type)
  · split <;> simp [*]

/-- An annotation leaves a value that is no text as it is. -/
theorem convert_of_ne_text (accepted : Accepted) (h : ∀ s, v ≠ .text s) :
    accepted.convert v = .ok v := by
  by_cases hsingle : ∃ type, accepted.types = [type]
  · obtain ⟨type, htypes⟩ := hsingle
    rw [convert_single htypes, type.convert_of_ne_text h]
  · have hfirst := convertFirst_of_ne_text (accepted.types.filter (· != .nothing)) h
    rw [convert_alternatives (not_exists.mp hsingle), hfirst]
    split
    · next hnothing =>
      have hnull : v = .null := by
        cases v with
        | null => rfl
        | text s => exact absurd rfl (h s)
        | _ => simp [saysNothing] at hnothing
      rw [hnull]
    · rfl

/-- An annotation turns a text into itself or into a value of one of its types. -/
theorem convert_text {s : String} (h : accepted.convert (.text s) = .ok bound) :
    bound = .text s ∨ ∃ type ∈ accepted.types, type.Makes bound := by
  by_cases hsingle : ∃ type, accepted.types = [type]
  · obtain ⟨type, htypes⟩ := hsingle
    rw [convert_single htypes] at h
    refine (ParameterType.convert_text h).imp_right fun hmakes => ?_
    exact ⟨type, by simp [htypes], hmakes⟩
  · rw [convert_alternatives (not_exists.mp hsingle)] at h
    split at h
    · next hnothing =>
      have hmem : .nothing ∈ accepted.types := by
        simp only [Bool.and_eq_true, List.contains_iff_mem] at hnothing
        exact hnothing.1
      have hbound : Value.null = bound := by simpa using h
      exact Or.inr ⟨.nothing, hmem, hbound ▸ .nothing⟩
    · have hbound : convertFirst (.text s) (accepted.types.filter (· != .nothing)) = bound := by
        simpa using h
      rw [← hbound]
      refine (convertFirst_text s _).imp_right ?_
      rintro ⟨type, htype, hmakes⟩
      exact ⟨type, (List.mem_filter.mp htype).1, hmakes⟩

/-- Whatever an annotation gives, it turns the value into that. -/
theorem convert_turns (h : accepted.convert v = .ok bound) : accepted.Turns v bound := by
  by_cases htext : ∃ s, v = .text s
  · obtain ⟨s, rfl⟩ := htext
    exact (convert_text h).imp_right fun hmakes => ⟨⟨s, rfl⟩, hmakes⟩
  · have hsame := accepted.convert_of_ne_text (not_exists.mp htext)
    have hbound : v = bound := by simpa [hsame] using h
    exact Or.inl hbound.symm

/-- What an annotation gives it leaves as it is. -/
theorem convert_converted (h : accepted.convert v = .ok bound) :
    accepted.convert bound = .ok bound := by
  rcases convert_turns h with rfl | ⟨-, type, -, hmakes⟩
  · exact h
  · exact accepted.convert_of_ne_text hmakes.ne_text

end Accepted

namespace Signature

variable {values again bound : List (String × Value)} {parameters : List Parameter} {p : Parameter}

/-- The first parameter is passed over if there is no value for it, and otherwise its value is
converted before the others are bound. -/
theorem bindNamed_cons_iff : bindNamed values (p :: parameters) = .ok bound ↔
    (Entries.get? values p.name = none ∧ bindNamed values parameters = .ok bound) ∨
      ∃ v converted others, Entries.get? values p.name = some v ∧
        p.accepts.convert v = .ok converted ∧ bindNamed values parameters = .ok others ∧
        bound = (p.name, converted) :: others := by
  cases hvalue : Entries.get? values p.name with
  | none => simp [bindNamed, hvalue]
  | some v =>
    cases hconverted : p.accepts.convert v with
    | error fault => simp [bindNamed, hvalue, hconverted, Bind.bind, Except.bind]
    | ok converted =>
      cases hothers : bindNamed values parameters with
      | error fault => simp [bindNamed, hvalue, hconverted, hothers, Bind.bind, Except.bind]
      | ok others =>
        simp [bindNamed, hvalue, hconverted, hothers, Bind.bind, Except.bind, Pure.pure,
          Except.pure, eq_comm]

/-- The names bound to parameters are those of the parameters for which there is a value. -/
theorem bindNamed_names (h : bindNamed values parameters = .ok bound) :
    bound.map (·.1) =
      (parameters.filter fun p => Entries.hasKey values p.name).map (·.name) := by
  induction parameters generalizing bound with
  | nil =>
    cases h
    rfl
  | cons p rest ih =>
    rcases bindNamed_cons_iff.mp h with
      ⟨hnone, hrest⟩ | ⟨v, converted, others, hsome, -, hrest, rfl⟩
    · have hmissing : Entries.hasKey values p.name = false := by simp [Entries.hasKey, hnone]
      simp [ih hrest, hmissing]
    · have hgiven : Entries.hasKey values p.name = true := by simp [Entries.hasKey, hsome]
      simp [ih hrest, hgiven]

/-- A name is bound to a parameter exactly if there is a value for it and a parameter of it. -/
theorem mem_names_bindNamed (h : bindNamed values parameters = .ok bound) (name : String) :
    name ∈ bound.map (·.1) ↔ name ∈ values.map (·.1) ∧ name ∈ parameters.map (·.name) := by
  rw [bindNamed_names h, ← Entries.hasKey_iff_mem]
  simp only [List.mem_map, List.mem_filter]
  constructor
  · rintro ⟨p, ⟨hp, hgiven⟩, rfl⟩
    exact ⟨hgiven, p, hp, rfl⟩
  · rintro ⟨hgiven, p, hp, rfl⟩
    exact ⟨p, ⟨hp, hgiven⟩, rfl⟩

/-- Every name is bound to a parameter once, as every parameter has a name of its own. -/
theorem nodup_names_bindNamed (h : bindNamed values parameters = .ok bound)
    (hnames : (parameters.map (·.name)).Nodup) : (bound.map (·.1)).Nodup := by
  rw [bindNamed_names h]
  exact hnames.sublist (List.filter_sublist.map _)

/-- A parameter for which there is a value is bound to the converted value. -/
theorem mem_bindNamed {v : Value} (h : bindNamed values parameters = .ok bound)
    (hp : p ∈ parameters) (hv : Entries.get? values p.name = some v) :
    ∃ converted, p.accepts.convert v = .ok converted ∧ (p.name, converted) ∈ bound := by
  induction parameters generalizing bound with
  | nil => cases hp
  | cons first rest ih =>
    rcases bindNamed_cons_iff.mp h with
      ⟨hnone, hrest⟩ | ⟨w, converted, others, hsome, hw, hrest, rfl⟩
    · rcases List.mem_cons.mp hp with rfl | hp
      · simp [hnone] at hv
      · exact ih hrest hp
    · rcases List.mem_cons.mp hp with rfl | hp
      · have hsame : v = w := by simpa [hv] using hsome
        exact ⟨converted, hsame ▸ hw, List.mem_cons_self⟩
      · obtain ⟨later, hlater, hmem⟩ := ih hrest hp
        exact ⟨later, hlater, List.mem_cons_of_mem _ hmem⟩

/-- Values under which every parameter finds what was bound to it are bound in the same way. -/
theorem bindNamed_again (h : bindNamed values parameters = .ok bound)
    (hnames : (parameters.map (·.name)).Nodup)
    (hagain : ∀ p ∈ parameters, Entries.get? again p.name = Entries.get? bound p.name) :
    bindNamed again parameters = .ok bound := by
  induction parameters generalizing bound with
  | nil => exact h
  | cons p rest ih =>
    have hfirst := hagain p List.mem_cons_self
    obtain ⟨hfresh, hrestNames⟩ := List.nodup_cons.mp hnames
    rcases bindNamed_cons_iff.mp h with ⟨-, hrest⟩ | ⟨v, converted, others, -, hv, hrest, rfl⟩
    · have hunbound : Entries.get? bound p.name = none :=
        Entries.get?_eq_none_iff.mpr (by simp [mem_names_bindNamed hrest, hfresh])
      have hlater := ih hrest hrestNames fun q hq => hagain q (List.mem_cons_of_mem _ hq)
      exact bindNamed_cons_iff.mpr (Or.inl ⟨hfirst.trans hunbound, hlater⟩)
    · have hfound : Entries.get? again p.name = some converted := by simp [hfirst, Entries.get?]
      have hlater : bindNamed again rest = .ok others := by
        refine ih hrest hrestNames fun q hq => ?_
        have hother : p.name ≠ q.name := by
          intro hsame
          exact hfresh (List.mem_map.mpr ⟨q, hq, hsame.symm⟩)
        simpa [Entries.get?, hother] using hagain q (List.mem_cons_of_mem _ hq)
      have hconverted := Accepted.convert_converted hv
      exact bindNamed_cons_iff.mpr (Or.inr ⟨_, _, _, hfound, hconverted, hlater, rfl⟩)

/-- A signature binds its parameters, and then the other values if it accepts them. -/
theorem bind_eq_ok_iff {s : Signature} : s.bind values = .ok bound ↔
    ∃ named, bindNamed values s.parameters = .ok named ∧ bound = if s.acceptsOthers then
      named ++ values.filter (fun (name, _) => !Entries.hasKey named name) else named := by
  cases hnamed : bindNamed values s.parameters with
  | error fault => simp [bind, hnamed, Bind.bind, Except.bind]
  | ok named =>
    cases hothers : s.acceptsOthers <;>
      simp [bind, hnamed, hothers, Bind.bind, Except.bind, Pure.pure, Except.pure, eq_comm]

end Signature

/-- What a signature binds of some values: the names given that it knows, each once, and the values
of these names as the annotations of their parameters turn them. -/
structure Signature.Binds (s : Signature) (values bound : List (String × Value)) : Prop where
  /-- The names. -/
  names : ∀ name, name ∈ bound.map (·.1) ↔
    name ∈ values.map (·.1) ∧ (s.acceptsOthers = true ∨ name ∈ s.parameters.map (·.name))
  /-- Every name is bound once if every name is given once. -/
  once : (values.map (·.1)).Nodup → (bound.map (·.1)).Nodup
  /-- The value of a parameter. -/
  named : ∀ p ∈ s.parameters, ∀ v, Entries.get? values p.name = some v →
    ∃ b, Entries.get? bound p.name = some b ∧ p.accepts.Turns v b
  /-- A value that is not meant for a parameter. -/
  others : s.acceptsOthers = true → ∀ name, name ∉ s.parameters.map (·.name) →
    Entries.get? bound name = Entries.get? values name

namespace Signature

variable {s : Signature} {values bound named : List (String × Value)}

/-- A name that is no parameter's is not bound to one. -/
theorem get?_bindNamed_other (h : bindNamed values s.parameters = .ok named) {name : String}
    (hother : name ∉ s.parameters.map (·.name)) : Entries.get? named name = none :=
  Entries.get?_eq_none_iff.mpr fun hmem => hother ((mem_names_bindNamed h name).mp hmem).2

/-- The given values that are bound to no parameter. -/
def unbound (values named : List (String × Value)) : List (String × Value) :=
  values.filter fun (name, _) => !Entries.hasKey named name

/-- A value that is bound to no parameter is found beside those that are. -/
theorem get?_unbound (values named : List (String × Value)) (name : String) :
    Entries.get? (unbound values named) name =
      if Entries.hasKey named name then none else Entries.get? values name := by
  have hfilter := Entries.get?_filter (fun k => !Entries.hasKey named k) values name
  cases hkey : Entries.hasKey named name <;> simpa [unbound, hkey] using hfilter

/-- None of the values beside those bound to parameters has the name of one. -/
theorem not_hasKey_of_mem_unbound {e : String × Value} (h : e ∈ unbound values named) :
    Entries.hasKey named e.1 = false := by
  simpa using (List.mem_filter.mp h).2

/-- The values of a signature that accepts no others are those of its parameters. -/
theorem binds_named (h : bindNamed values s.parameters = .ok named)
    (hnames : (s.parameters.map (·.name)).Nodup) (hothers : s.acceptsOthers = false) :
    s.Binds values named where
  names := by simp [mem_names_bindNamed h, hothers]
  once := fun _ => nodup_names_bindNamed h hnames
  named := by
    intro p hp v hv
    obtain ⟨b, hb, hmem⟩ := mem_bindNamed h hp hv
    exact ⟨b, Entries.get?_of_mem (nodup_names_bindNamed h hnames) hmem, Accepted.convert_turns hb⟩
  others := fun haccepts => by simp [hothers] at haccepts

/-- A signature that accepts others adds the values that are bound to no parameter. -/
theorem binds_others (h : bindNamed values s.parameters = .ok named)
    (hnames : (s.parameters.map (·.name)).Nodup) (hothers : s.acceptsOthers = true) :
    s.Binds values (named ++ unbound values named) where
  names := by
    intro name
    rw [← Entries.hasKey_iff_mem, ← Entries.hasKey_iff_mem]
    cases hkey : Entries.hasKey named name with
    | false =>
      have hnone : Entries.get? named name = none := by simpa [Entries.hasKey] using hkey
      simp [hothers, Entries.hasKey, Entries.get?_append, get?_unbound, hnone]
    | true =>
      have hsome : (Entries.get? named name).isSome = true := hkey
      have hmem := (mem_names_bindNamed h name).mp (Entries.hasKey_iff_mem.mp hkey)
      have hgiven : (Entries.get? values name).isSome = true := Entries.hasKey_iff_mem.mpr hmem.1
      simp [hothers, hgiven, Entries.hasKey, Entries.get?_append, hsome]
  once := by
    intro hvalues
    have hnamed := nodup_names_bindNamed h hnames
    have hunbound : ((unbound values named).map (·.1)).Nodup :=
      hvalues.sublist (List.filter_sublist.map _)
    rw [List.map_append, List.nodup_append]
    refine ⟨hnamed, hunbound, ?_⟩
    rintro name hname other hother rfl
    obtain ⟨e, he, rfl⟩ := List.mem_map.mp hother
    have hkey := not_hasKey_of_mem_unbound he
    rw [Entries.hasKey_iff_mem.mpr hname] at hkey
    cases hkey
  named := by
    intro p hp v hv
    obtain ⟨b, hb, hmem⟩ := mem_bindNamed h hp hv
    have hfound := Entries.get?_of_mem (nodup_names_bindNamed h hnames) hmem
    exact ⟨b, by simp [Entries.get?_append, hfound], Accepted.convert_turns hb⟩
  others := by
    intro _ name hother
    have hnone := get?_bindNamed_other h hother
    simp [Entries.get?_append, get?_unbound, Entries.hasKey, hnone]

/-- Parameters find what was bound to them, whatever other values stand beside it. -/
theorem get?_bound (h : bindNamed values s.parameters = .ok named) {p : Parameter}
    (hp : p ∈ s.parameters) :
    Entries.get? (named ++ unbound values named) p.name = Entries.get? named p.name := by
  rw [Entries.get?_append, get?_unbound]
  cases hfound : Entries.get? named p.name with
  | some b => rfl
  | none =>
    have hmissing : p.name ∉ values.map (·.1) := by
      intro hgiven
      have hmem := (mem_names_bindNamed h p.name).mpr ⟨hgiven, List.mem_map.mpr ⟨p, hp, rfl⟩⟩
      exact Entries.get?_eq_none_iff.mp hfound hmem
    simp [Entries.hasKey, hfound, Entries.get?_eq_none_iff.mpr hmissing]

/-- What is bound to no parameter is so again. -/
theorem unbound_again (values named : List (String × Value)) :
    unbound (named ++ unbound values named) named = unbound values named := by
  have hnamed : unbound named named = [] := by
    refine List.filter_eq_nil_iff.mpr fun e he => ?_
    have hkey : Entries.hasKey named e.1 = true :=
      Entries.hasKey_iff_mem.mpr (List.mem_map.mpr ⟨e, he, rfl⟩)
    simp [hkey]
  have hothers : unbound (unbound values named) named = unbound values named :=
    List.filter_eq_self.mpr fun e he => by simp [not_hasKey_of_mem_unbound he]
  calc unbound (named ++ unbound values named) named
      = unbound named named ++ unbound (unbound values named) named := List.filter_append ..
    _ = unbound values named := by rw [hnamed, hothers, List.nil_append]

/-- Binding changes texts only, each into a value that its parameter names, and binding what was
bound changes nothing. -/
theorem bind_idempotent (hnames : (s.parameters.map (·.name)).Nodup)
    (h : s.bind values = .ok bound) : s.Binds values bound ∧ s.bind bound = .ok bound := by
  obtain ⟨named, hnamed, rfl⟩ := bind_eq_ok_iff.mp h
  cases hothers : s.acceptsOthers with
  | false =>
    have hagain := bindNamed_again hnamed hnames fun p _ => rfl
    exact ⟨binds_named hnamed hnames hothers, bind_eq_ok_iff.mpr ⟨named, hagain, by simp [hothers]⟩⟩
  | true =>
    have hagain := bindNamed_again hnamed hnames fun p hp => get?_bound hnamed hp
    have hsame := unbound_again values named
    refine ⟨binds_others hnamed hnames hothers, bind_eq_ok_iff.mpr ⟨named, hagain, ?_⟩⟩
    simp only [hothers, if_true]
    exact congrArg (named ++ ·) hsame.symm

end Signature

/-- A signature with alternatives, an unannotated parameter and values under other names. -/
def Signature.mixed : Signature where
  parameters :=
    [{ name := "count", accepts := ⟨[.integer, .nothing]⟩ },
     { name := "flag", accepts := ⟨[.truth]⟩ }, { name := "note" }]
  acceptsOthers := true

/-- Texts for a number, for nothing known as a truth and for an unannotated parameter, and a list
under another name: only the first is changed. -/
theorem Signature.mixed_bind_idempotent :
    let values := [("flag", .text "perhaps"), ("note", .text "7"), ("more", .list []),
      ("count", .text " 7 ")]
    let bound := [("count", .int 7), ("flag", .text "perhaps"), ("note", .text "7"),
      ("more", .list [])]
    mixed.bind values = .ok bound ∧ mixed.Binds values bound ∧ mixed.bind bound = .ok bound := by
  have hseven : spoken " 7 " = "7" := by decide +kernel
  have hnumber : Number.integerOf " 7 " = .ok 7 := rfl
  have hcount : Accepted.convert ⟨[.integer, .nothing]⟩ (.text " 7 ") = .ok (.int 7) := by
    simp [Accepted.convert, convertFirst, ParameterType.convert, saysNothing, wordsForNothing,
      hseven, hnumber, Except.map]
  have hperhaps : spoken "perhaps" = "perhaps" := by decide +kernel
  have hflag : Accepted.convert ⟨[.truth]⟩ (.text "perhaps") = .ok (.text "perhaps") := by
    simp [Accepted.convert, ParameterType.convert, wordsForTrue, wordsForFalse, hperhaps]
  have hnote : Accepted.convert {} (.text "7") = .ok (.text "7") := rfl
  have hbind : mixed.bind [("flag", .text "perhaps"), ("note", .text "7"), ("more", .list []),
      ("count", .text " 7 ")] = .ok [("count", .int 7), ("flag", .text "perhaps"),
      ("note", .text "7"), ("more", .list [])] := by
    simp only [bind, bindNamed, mixed, Entries.get?, hcount, hflag, hnote, String.reduceEq,
      if_true, if_false]
    rfl
  exact ⟨hbind, bind_idempotent (by decide) hbind⟩

end StepGraph
