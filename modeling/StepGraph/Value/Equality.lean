import StepGraph.Value.Basic

/-!
# Equality of values

Strict equality compares values without turning one kind into another: booleans are never
numbers, null is never undefined, and mappings are equal whatever the order of their keys. Loose
equality adds that null equals undefined. Two records are strictly equal if they are of one kind
and their fields are plainly equal; plain equality lets a boolean equal the number 0 or 1.
-/

namespace StepGraph.Value

/-- A value as a number, booleans counting as 0 and 1. -/
def asNumber? : Value → Option Number
  | .bool b => some (.int (if b then 1 else 0))
  | .number n => some n
  | _ => none

mutual

/-- Equality of values where booleans are the numbers 0 and 1. -/
def plainEquals : Value → Value → Bool
  | .null, .null => true
  | .undefined, .undefined => true
  | .text a, .text b => a == b
  | .list xs, .list ys => plainEqualsList xs ys
  | .mapping es, .mapping fs => es.length == fs.length && plainEqualsEntries es fs
  | .record k es, .record l fs => k == l && plainEqualsFields es fs
  | a, b =>
    match a.asNumber?, b.asNumber? with
    | some m, some n => m.equal n
    | _, _ => false

/-- Plain equality of lists, item by item. -/
def plainEqualsList : List Value → List Value → Bool
  | [], [] => true
  | x :: xs, y :: ys => plainEquals x y && plainEqualsList xs ys
  | _, _ => false

/-- Whether each entry has a plainly equal one under its key. -/
def plainEqualsEntries : List (String × Value) → List (String × Value) → Bool
  | [], _ => true
  | (key, v) :: es, fs =>
    (match Entries.get? fs key with
      | some w => plainEquals v w
      | none => false)
      && plainEqualsEntries es fs

/-- Plain equality of the fields of two records of one kind. -/
def plainEqualsFields : List (String × Value) → List (String × Value) → Bool
  | [], [] => true
  | (_, v) :: es, (_, w) :: fs => plainEquals v w && plainEqualsFields es fs
  | _, _ => false

end

mutual

/-- Equality without coercion. -/
def strictEquals : Value → Value → Bool
  | .null, .null => true
  | .undefined, .undefined => true
  | .bool a, .bool b => a == b
  | .number m, .number n => m.equal n
  | .text a, .text b => a == b
  | .list xs, .list ys => strictEqualsList xs ys
  | .mapping es, .mapping fs => es.length == fs.length && strictEqualsEntries es fs
  | .record k es, .record l fs => k == l && plainEqualsFields es fs
  | _, _ => false

/-- Strict equality of lists, item by item. -/
def strictEqualsList : List Value → List Value → Bool
  | [], [] => true
  | x :: xs, y :: ys => strictEquals x y && strictEqualsList xs ys
  | _, _ => false

/-- Whether each entry has a strictly equal one under its key. -/
def strictEqualsEntries : List (String × Value) → List (String × Value) → Bool
  | [], _ => true
  | (key, v) :: es, fs =>
    (match Entries.get? fs key with
      | some w => strictEquals v w
      | none => false)
      && strictEqualsEntries es fs

end

/-- Strict equality, except that null and undefined are equal. -/
def looseEquals (a b : Value) : Bool :=
  (a.isNullish && b.isNullish) || strictEquals a b

end StepGraph.Value
