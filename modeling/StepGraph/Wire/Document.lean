import StepGraph.Value.Basic

/-!
# Documents as they are read

A document is the tree of what a text or value holds, before it is known whether it describes
anything. A text may break off in the middle: the tree then keeps all that was read before the
fault, so that a decoder that visits the tree in order meets problems and the fault in the order
of the text.
-/

namespace StepGraph.Wire

/-- A tree of wire data. -/
inductive Document where
  | null
  | bool (value : Bool)
  | number (value : Number)
  /-- A decimal literal beyond the doubles. -/
  | overflow
  | text (value : String)
  /-- Items in order; not closed if the text breaks off after them. -/
  | array (items : List Document) (closed : Bool)
  /-- Members in order, keys possibly repeated; not closed if the text breaks off after them. -/
  | object (members : List (String × Document)) (closed : Bool)
  /-- A value that no text can write: a missing value or a record. -/
  | embedded (value : Value)
  /-- The place where a text breaks off. -/
  | malformed

instance : Inhabited Document := ⟨.malformed⟩

mutual

/-- A value as a document. -/
def Document.ofValue : Value → Document
  | .null => .null
  | .bool b => .bool b
  | .number n => .number n
  | .text s => .text s
  | .list items => .array (Document.ofItems items) true
  | .mapping entries => .object (Document.ofEntries entries) true
  | v => .embedded v

/-- The items of a list as documents. -/
def Document.ofItems : List Value → List Document
  | [] => []
  | v :: rest => Document.ofValue v :: Document.ofItems rest

/-- The entries of a mapping as members. -/
def Document.ofEntries : List (String × Value) → List (String × Document)
  | [] => []
  | (key, v) :: rest => (key, Document.ofValue v) :: Document.ofEntries rest

end

/-- The name of a document's kind in messages. -/
def Document.kindName : Document → String
  | .null => "null"
  | .bool _ => "bool"
  | .number (.int _) => "int"
  | .number (.float _) | .overflow => "float"
  | .text _ => "str"
  | .array _ _ => "array"
  | .object _ _ => "object"
  | .embedded v => v.kindName
  | .malformed => ""

end StepGraph.Wire
