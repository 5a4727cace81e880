import StepGraph.Value.Basic

/-!
# Reading inside values

One path segment reads a mapping by key, a list or text by index or length, and a record by the
name of a field. Whatever does not resolve is undefined. A walk reads segment after segment and
ends early on a null or missing value.
-/

namespace StepGraph.Value

/-- The index that a segment writes: decimal digits of the Latin script, leading zeros allowed. -/
def index? (key : String) : Option Nat :=
  let cs := key.toList
  if !cs.isEmpty && cs.all Char.isDigit then
    some (cs.foldl (fun n c => 10 * n + (c.toNat - '0'.toNat)) 0)
  else none

/-- A segment read from a sequence: its length, or the item at an index. -/
def lookupItem (items : List Value) (key : String) : Value :=
  if key == "length" then .int items.length
  else
    match index? key with
    | some n => ofOption items[n]?
    | none => .undefined

/-- A text as the sequence of its characters. -/
def characters (s : String) : List Value := s.toList.map fun c => .text (String.ofList [c])

/-- One path segment read from a value. -/
def lookup (v : Value) (key : String) : Value :=
  match v with
  | .mapping entries => ofOption (Entries.get? entries key)
  | .list items => lookupItem items key
  | .text s => lookupItem (characters s) key
  | .record _ fields => ofOption (Entries.get? fields key)
  | _ => .undefined

/-- Path segments read one after the other; a null or missing value ends the walk. -/
def walk (root : Value) : List String → Value
  | [] => root
  | key :: rest => if root.isNullish then .undefined else (root.lookup key).walk rest

end StepGraph.Value
