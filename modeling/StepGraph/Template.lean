import StepGraph.Context
import StepGraph.Value.Text
import StepGraph.Text.Blank

/-!
# Templates and bindings

A placeholder is a dollar sign, an opening brace, a run of characters that is not empty and a
closing brace; the run, without the blanks around it, is a path into the context. A text that is
one placeholder stands for the value itself; in any other text each placeholder is replaced by
the text of its value. A mapping with a source path or a template is a binding and is replaced
as a whole.
-/

namespace StepGraph.Template

/-- The run of a placeholder at the start of a text, and the rest after its closing brace. -/
def placeholder? : List Char → Option (List Char × List Char)
  | '$' :: '\x7b' :: rest =>
    match rest.dropWhile (· != '\x7d') with
    | [] => none
    | _ :: after =>
      let run := rest.takeWhile (· != '\x7d')
      if run.isEmpty then none else some (run, after)
  | _ => none

/-- What is left after a placeholder is shorter than the text. -/
theorem length_placeholder? {cs run rest : List Char}
    (h : placeholder? cs = some (run, rest)) : rest.length < cs.length := by
  unfold placeholder? at h
  split at h
  · next tail =>
    have hlen := (List.dropWhile_sublist (l := tail) (· != '\x7d')).length_le
    split at h
    · simp at h
    · next _ after heq =>
      rw [heq, List.length_cons] at hlen
      dsimp only at h
      split at h
      · simp at h
      · simp only [Option.some.injEq, Prod.mk.injEq] at h
        rw [← h.2]
        simp only [List.length_cons]
        omega
  · simp at h

/-- A text with each placeholder replaced, from the left; what is put in is not read again. -/
def substitute (replacement : List Char → List Char) (cs : List Char) : List Char :=
  match h : placeholder? cs with
  | some (run, rest) =>
    have := length_placeholder? h
    replacement run ++ substitute replacement rest
  | none =>
    match cs with
    | [] => []
    | c :: rest => c :: substitute replacement rest
termination_by cs.length

/-- The path that a placeholder's run names. -/
def pathOf (run : List Char) : String := String.ofList (Text.trimmed run)

/-- The path of a text that is one placeholder. -/
def wholePath? (cs : List Char) : Option String :=
  match placeholder? cs with
  | some (run, []) => some (pathOf run)
  | _ => none

/-- A template filled in from the context. -/
def interpolate (template : String) (ctx : Context) : Value :=
  let cs := template.toList
  match wholePath? cs with
  | some path =>
    match ctx.resolve path with
    | .undefined => .null
    | v => v
  | none =>
    .text (String.ofList
      (substitute (fun run => (ctx.resolve (pathOf run)).templateText.toList) cs))

/-- An entry of a binding; null counts as absent. -/
def part? (entries : List (String × Value)) (key : String) : Option Value :=
  match Entries.get? entries key with
  | some .null => none
  | found => found

/-- Whether a mapping is a binding. -/
def isBinding (entries : List (String × Value)) : Bool :=
  Entries.hasKey entries "valueFrom" || Entries.hasKey entries "template"

/-- The value of a binding: its source path, or else its template, or else its default. The
default also replaces a missing source, an empty template result and a template that is no
text. -/
def resolveBinding (entries : List (String × Value)) (ctx : Context) : Value :=
  let default := (Entries.get? entries "default").getD .null
  match part? entries "valueFrom" with
  | some source =>
    match ctx.resolveValue source with
    | .undefined => default
    | v => v
  | none =>
    match part? entries "template" with
    | some (.text template) =>
      match interpolate template ctx with
      | .null => default
      | .text "" => default
      | v => v
    | _ => default

mutual

/-- A value with all templates filled in and all bindings replaced. -/
def resolve (ctx : Context) : Value → Value
  | .text s => interpolate s ctx
  | .list items => .list (resolveItems ctx items)
  | .mapping entries =>
    if isBinding entries then resolveBinding entries ctx
    else .mapping (resolveEntries ctx entries)
  | v => v

/-- The items of a list resolved. -/
def resolveItems (ctx : Context) : List Value → List Value
  | [] => []
  | v :: rest => resolve ctx v :: resolveItems ctx rest

/-- The entries of a mapping resolved; keys stay. -/
def resolveEntries (ctx : Context) : List (String × Value) → List (String × Value)
  | [] => []
  | (key, v) :: rest => (key, resolve ctx v) :: resolveEntries ctx rest

end

end StepGraph.Template
