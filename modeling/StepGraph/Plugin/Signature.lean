import StepGraph.Plugin.Accepted
import StepGraph.Plugin.Raised
import StepGraph.Value.Entries

/-!
# Signatures of plugins

A plugin names its parameters; it may also accept values that it does not name. The values of a
block are bound to the parameters by name. Whether one that must be given is missing shows only
when the plugin is called.
-/

namespace StepGraph

/-- A parameter of a plugin. -/
structure Parameter where
  /-- The name that values are bound by. -/
  name : String
  /-- What the parameter takes. -/
  accepts : Accepted := {}
  /-- The value if none is bound; without one the parameter must be given. -/
  default : Option Value := none
  /-- Whether the parameter can only be given by name. -/
  keywordOnly : Bool := false

/-- The parameters of a plugin. -/
structure Signature where
  /-- The parameters in order. -/
  parameters : List Parameter := []
  /-- Whether values under other names are accepted. -/
  acceptsOthers : Bool := false

namespace Signature

/-- The values bound to parameters, in the order of the parameters. -/
def bindNamed (values : List (String × Value)) :
    List Parameter → Except Number.ConversionFault (List (String × Value))
  | [] => .ok []
  | p :: rest =>
    match Entries.get? values p.name with
    | none => bindNamed values rest
    | some v => do
      let converted ← p.accepts.convert v
      let others ← bindNamed values rest
      return (p.name, converted) :: others

/-- The values bound to a signature. Values under other names are dropped unless they are
accepted, and then they are passed on as they are. -/
def bind (s : Signature) (values : List (String × Value)) :
    Except Number.ConversionFault (List (String × Value)) := do
  let bound ← bindNamed values s.parameters
  if s.acceptsOthers then
    return bound ++ values.filter fun (name, _) => !Entries.hasKey bound name
  else return bound

/-- The names of the parameters that must be given and are not. -/
def missing (s : Signature) (keywordOnly : Bool) (bound : List (String × Value)) : List String :=
  (s.parameters.filter fun p =>
    p.keywordOnly == keywordOnly && p.default.isNone && !Entries.hasKey bound p.name).map (·.name)

/-- All values of a call: those of the parameters in order, then the others. -/
def complete (s : Signature) (bound : List (String × Value)) : List (String × Value) :=
  (s.parameters.map fun p => (p.name, ((Entries.get? bound p.name).or p.default).getD .null))
    ++ bound.filter fun (name, _) => !s.parameters.any (·.name == name)

end Signature

/-- Quoted names in a sentence. -/
def enumerated (names : List String) : String :=
  match names.map Text.quoted with
  | [] => ""
  | [a] => a
  | [a, b] => a ++ " and " ++ b
  | quoted =>
    String.intercalate ", " quoted.dropLast ++ ", and " ++ (quoted.getLast?).getD ""

/-- The complaint about missing values of a call. -/
def missingMessage (caller manner : String) (names : List String) : String :=
  caller ++ "() missing " ++ toString names.length ++ " required " ++ manner ++ " argument"
    ++ (if names.length == 1 then "" else "s") ++ ": " ++ enumerated names

/-- What is wrong with a call, if anything. The receiver of the call cannot be given as a value,
and missing positional values are reported before those that can only be given by name. -/
def Signature.complaint? (s : Signature) (caller : String) (bound : List (String × Value)) :
    Option String :=
  if Entries.hasKey bound "self" then some (caller ++ "() got multiple values for argument 'self'")
  else
    match s.missing false bound, s.missing true bound with
    | [], [] => none
    | [], names => some (missingMessage caller "keyword-only" names)
    | names, _ => some (missingMessage caller "positional" names)

end StepGraph
