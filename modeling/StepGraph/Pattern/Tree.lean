/-!
# Text patterns

The tree of a regular expression with groups, backreferences, look-around, and greedy, lazy and
possessive repetition. Case, line and dot rules are flags that a group may switch for its body.
-/

namespace StepGraph.Pattern

/-- Rules that a pattern or one of its groups switches on and off. -/
structure Flags where
  /-- Letters match in either case. -/
  ignoreCase : Bool := false
  /-- The line anchors match at every line feed. -/
  multiline : Bool := false
  /-- The dot matches a line feed too. -/
  dotAll : Bool := false
  /-- Blanks and comments in the pattern are skipped. -/
  verbose : Bool := false
  /-- Classes of characters know the Latin alphabet only. -/
  latinOnly : Bool := false
  deriving DecidableEq, Repr

/-- A class of characters with a name of one letter. -/
inductive CharClass where
  | digit
  | blank
  | word
  deriving DecidableEq, Repr

/-- One element of a character set. -/
inductive SetItem where
  /-- A single code point. -/
  | point (code : Nat)
  /-- All code points between two, ends included. -/
  | range (low high : Nat)
  /-- A class or what lies outside it. -/
  | ofClass (kind : CharClass) (negated : Bool)
  deriving DecidableEq, Repr

/-- A place between characters. -/
inductive Anchor where
  /-- Start of the text, or of a line. -/
  | lineStart
  /-- End of the text or just before a final line feed, or end of a line. -/
  | lineEnd
  | textStart
  | textEnd
  | wordBoundary
  | noWordBoundary
  deriving DecidableEq, Repr

/-- How a repetition tries its counts. -/
inductive Greed where
  /-- Most first, giving back. -/
  | greedy
  /-- Fewest first. -/
  | lazy
  /-- Most, without giving back. -/
  | possessive
  deriving DecidableEq, Repr

/-- What a group does to its body besides matching it. -/
inductive GroupKind where
  /-- Remembers the matched stretch under a number. -/
  | capture (index : Nat)
  /-- Switches flags on and off. -/
  | flags (on off : Flags)
  /-- Takes the first way to match and no other. -/
  | atomic
  deriving DecidableEq, Repr

/-- A part of a pattern; parts are matched one after the other. -/
inductive Node where
  | point (code : Nat)
  | notPoint (code : Nat)
  | any
  | set (negated : Bool) (items : List SetItem)
  | anchor (kind : Anchor)
  | group (kind : GroupKind) (body : List Node)
  | branch (alternatives : List (List Node))
  | repetition (greed : Greed) (least : Nat) (most : Option Nat) (body : List Node)
  /-- The stretch that a group matched, with the widths that the group can have. -/
  | backreference (index least most : Nat)
  /-- One of two bodies, by whether a group has matched. -/
  | conditional (index : Nat) (held otherwise : List Node)
  /-- A body that must or must not match here, without taking up text; a body that looks behind
  starts its width before this place. -/
  | look (behind : Option Nat) (negated : Bool) (body : List Node)

instance : Inhabited Node := ⟨.any⟩

/-- More than any width that text can have. -/
def endless : Nat := Nat.pow 2 64

mutual

/-- The least and the greatest number of characters that a part can match. -/
def Node.width : Node → Nat × Nat
  | .point _ | .notPoint _ | .any | .set _ _ => (1, 1)
  | .anchor _ | .look _ _ _ => (0, 0)
  | .group _ body => Node.widthOfAll body
  | .branch alternatives => Node.widthOfAny alternatives
  | .repetition _ least most body =>
    let (low, high) := Node.widthOfAll body
    (min endless (low * least),
      match most with
      | some n => min endless (high * n)
      | none => if high = 0 then 0 else endless)
  | .backreference _ least most => (least, most)
  | .conditional _ held otherwise =>
    let (low, high) := Node.widthOfAll held
    let (low', high') := Node.widthOfAll otherwise
    (min low low', max high high')

/-- The width of parts one after the other. -/
def Node.widthOfAll : List Node → Nat × Nat
  | [] => (0, 0)
  | node :: rest =>
    let (low, high) := node.width
    let (low', high') := Node.widthOfAll rest
    (min endless (low + low'), min endless (high + high'))

/-- The width of one of several bodies. -/
def Node.widthOfAny : List (List Node) → Nat × Nat
  | [] => (0, 0)
  | [body] => Node.widthOfAll body
  | body :: rest =>
    let (low, high) := Node.widthOfAll body
    let (low', high') := Node.widthOfAny rest
    (min low low', max high high')

end

end StepGraph.Pattern
