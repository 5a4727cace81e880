import StepGraph.Wire.Fault

/-!
# Shapes of documents

A shape says which kinds of document it takes and what it reads from them. Shapes of records
visit the members in the order in which they are written, so that the first fault in the text is
the one reported; members that must be there are missed only after the last one.
-/

namespace StepGraph.Wire

/-- What is expected at some place of a document. -/
structure Shape (α : Type) where
  /-- The kinds that the shape takes, as messages name them. -/
  expected : String
  /-- The reading of a document; nothing if it is of another kind. -/
  read? : Location → Document → Option (Except Fault α)

/-- A document read by a shape. -/
def Shape.read {α : Type} (shape : Shape α) (place : Location) (document : Document) :
    Except Fault α :=
  match document with
  | .malformed => .error .unreadable
  | _ =>
    match shape.read? place document with
    | some result => result
    | none => .error (.unexpected shape.expected document.kindName place)

/-- A shape with its result passed on. -/
def Shape.map {α β : Type} (f : α → β) (shape : Shape α) : Shape β where
  expected := shape.expected
  read? place document := (shape.read? place document).map (·.map f)

/-- Either of two shapes, the first having precedence. -/
def Shape.or {α : Type} (first second : Shape α) : Shape α where
  expected := first.expected ++ " | " ++ second.expected
  read? place document := (first.read? place document).or (second.read? place document)

/-- A shape or null. -/
def Shape.optional {α : Type} (shape : Shape α) : Shape (Option α) where
  expected := shape.expected ++ " | null"
  read? place document :=
    match document with
    | .null => some (.ok none)
    | _ => (shape.map some).read? place document

/-- A text. -/
def Shape.text : Shape String where
  expected := "str"
  read? _ document :=
    match document with
    | .text s => some (.ok s)
    | _ => none

/-- A truth value. -/
def Shape.truth : Shape Bool where
  expected := "bool"
  read? _ document :=
    match document with
    | .bool b => some (.ok b)
    | _ => none

/-- An integer of any size; a decimal is none, even when it is whole. -/
def Shape.integer : Shape Int where
  expected := "int"
  read? _ document :=
    match document with
    | .number (.int n) => some (.ok n)
    | _ => none

/-- A double; an integer is converted to one. -/
def Shape.double : Shape Number where
  expected := "float"
  read? place document :=
    match document with
    | .number n =>
      match n.toFloat with
      | .ok x => some (.ok (.float x))
      | .error _ => some (.error (.outOfRange place))
    | .overflow => some (.error (.outOfRange place))
    | _ => none

/-- One of several texts, each standing for a value. -/
def Shape.choice {α : Type} (choices : List (String × α)) : Shape α where
  expected := "str"
  read? place document :=
    match document with
    | .text s =>
      match choices.lookup s with
      | some a => some (.ok a)
      | none => some (.error (.unknownChoice s place))
    | _ => none

/-- The items of an array read one after the other from an index on. -/
def readItems {α : Type} (shape : Shape α) (place : Location) :
    Nat → List Document → Except Fault (List α)
  | _, [] => .ok []
  | index, item :: rest => do
    let first ← shape.read (.item index :: place) item
    let others ← readItems shape place (index + 1) rest
    return first :: others

/-- An array of items of one shape. -/
def Shape.array {α : Type} (shape : Shape α) : Shape (List α) where
  expected := "array"
  read? place document :=
    match document with
    | .array items closed => some do
      let found ← readItems shape place 0 items
      if closed then return found else throw .unreadable
    | _ => none

mutual

/-- The value that a document writes, whatever its shape. -/
def Document.toValue (place : Location) : Document → Except Fault Value
  | .null => .ok .null
  | .bool b => .ok (.bool b)
  | .number n => .ok (.number n)
  | .overflow => .error (.outOfRange place)
  | .text s => .ok (.text s)
  | .array items closed => do
    let found ← Document.toItems place 0 items
    if closed then return .list found else throw .unreadable
  | .object members closed => do
    let found ← Document.toEntries place members
    if closed then return .mapping (Entries.ofList found) else throw .unreadable
  | .embedded v => .ok v
  | .malformed => .error .unreadable

/-- The values of the items of an array from an index on. -/
def Document.toItems (place : Location) : Nat → List Document → Except Fault (List Value)
  | _, [] => .ok []
  | index, item :: rest => do
    let first ← Document.toValue (.item index :: place) item
    let others ← Document.toItems place (index + 1) rest
    return first :: others

/-- The values of the members of an object. -/
def Document.toEntries (place : Location) :
    List (String × Document) → Except Fault (List (String × Value))
  | [] => .ok []
  | (key, document) :: rest => do
    let first ← Document.toValue (.entry :: place) document
    let others ← Document.toEntries place rest
    return (key, first) :: others

end

/-- Any value. -/
def Shape.anything : Shape Value where
  expected := "any"
  read? place document := some (document.toValue place)

/-- A mapping with free keys and any values. -/
def Shape.mapping : Shape (List (String × Value)) where
  expected := "object"
  read? place document :=
    match document with
    | .object members closed => some do
      let found ← Document.toEntries place members
      if closed then return Entries.ofList found else throw .unreadable
    | _ => none

/-- A member of a record with the place that its reading is stored in. -/
structure Member (α : Type) where
  /-- The key of the member. -/
  name : String
  /-- The record with the reading of a document stored. -/
  store : Location → Document → α → Except Fault α

/-- A member of a given shape. -/
def Shape.member {α β : Type} (shape : Shape β) (name : String) (set : α → β → α) : Member α where
  name := name
  store place document a := (shape.read place document).map (set a)

/-- A record filled in with the written members, in order. -/
def fill {α : Type} (members : List (Member α)) (place : Location) :
    List (String × Document) → α → Except Fault α
  | [], a => .ok a
  | (name, document) :: rest, a =>
    match members.find? (·.name == name) with
    | none => .error (.unknownMember name place)
    | some member => do
      let filled ← member.store (.member name :: place) document a
      fill members place rest filled

/-- A record: members that are not written keep the value of the blank record, unless they must
be there. -/
def Shape.record {α : Type} (blank : α) (members : List (Member α)) (required : List String) :
    Shape α where
  expected := "object"
  read? place document :=
    match document with
    | .object written closed => some do
      let filled ← fill members place written blank
      unless closed do throw .unreadable
      match required.find? fun name => !(written.any (·.1 == name)) with
      | some name => throw (.missingMember name place)
      | none => return filled
    | _ => none

end StepGraph.Wire
