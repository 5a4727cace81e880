import StepGraph.Pattern.Reading
import StepGraph.Text.Lowercase

/-!
# Matching patterns

A matcher takes a place in the text and what is to be matched afterwards, and gives the first
way in which both succeed. Trying the ways in order and giving up one for the next is the call
of what comes afterwards. A repetition stops trying an iteration that starts where the one
before it started, so that it ends on every text.
-/

namespace StepGraph.Pattern

/-- A place reached in a text, with the stretches that groups have matched on the way. -/
structure Reached where
  /-- The number of characters before the place. -/
  place : Nat
  /-- The stretches of groups, by number; the last match of a group counts. -/
  groups : List (Nat × Nat × Nat) := []

/-- The stretch that a group matched last. -/
def Reached.group? (r : Reached) (index : Nat) : Option (Nat × Nat) :=
  (r.groups.find? fun g => g.1 == index).map fun g => g.2

/-- What is to be matched after a part. -/
abbrev After : Type := Reached → Option Reached

/-- A matcher of one part. -/
abbrev Matcher : Type := After → After

/-- Membership in a class. -/
def CharClass.holds (latinOnly : Bool) (c : Char) : CharClass → Bool
  | .digit => if latinOnly then c.isDigit else Text.isDigit c
  | .blank =>
    if latinOnly then c == ' ' || (9 ≤ c.toNat && c.toNat ≤ 13) else Text.isBlank c
  | .word => if latinOnly then c.isAlphanum || c == '_' else Text.isWord c

/-- The lower case of a code point, within the alphabet of the flags. -/
def lowered (flags : Flags) (code : Nat) : Nat :=
  if flags.latinOnly then
    if 65 ≤ code && code ≤ 90 then code + 32 else code
  else Text.lowercasePoint code

/-- Code points that are the same letter as one in lower case, in lower case. -/
def variants (flags : Flags) (code : Nat) : List Nat :=
  if flags.latinOnly then [code] else Text.lowercaseVariants code

/-- Whether a code point of the pattern stands for one of the text. -/
def samePoint (flags : Flags) (wanted found : Nat) : Bool :=
  if flags.ignoreCase then
    wanted == found || (variants flags (lowered flags wanted)).contains (lowered flags found)
  else wanted == found

/-- Code points whose lower case is a given one. -/
def raised (flags : Flags) (code : Nat) : List Nat :=
  if flags.latinOnly then
    if 97 ≤ code && code ≤ 122 then [code, code - 32] else [code]
  else
    code :: Text.lowercaseRuns.filterMap fun (first, last, step, distance) =>
      let upper := (code : Int) - distance
      if (first : Int) ≤ upper && upper ≤ last && (upper.toNat - first) % step == 0 then
        some upper.toNat
      else none

/-- Whether a code point of the text lies in a range of the pattern. -/
def inRange (flags : Flags) (low high found : Nat) : Bool :=
  let within (code : Nat) : Bool := low ≤ code && code ≤ high
  within found ||
    (flags.ignoreCase
      && ((variants flags (lowered flags found)).flatMap (raised flags)).any within)

/-- Whether an element of a set stands for a character. -/
def SetItem.holds (flags : Flags) (c : Char) : SetItem → Bool
  | .point code => samePoint flags code c.toNat
  | .range low high => inRange flags low high c.toNat
  | .ofClass kind negated => kind.holds flags.latinOnly c != negated

/-- Whether a place lies between a word character and none. -/
def atWordBoundary (flags : Flags) (text : Array Char) (place : Nat) : Bool :=
  let isWord (c : Option Char) : Bool := (c.map (CharClass.word.holds flags.latinOnly)).getD false
  let before := if place = 0 then none else text[place - 1]?
  isWord before != isWord text[place]?

/-- Whether an anchor holds at a place. An empty text has no word places at all. -/
def Anchor.holds (flags : Flags) (text : Array Char) (place : Nat) : Anchor → Bool
  | .lineStart => place == 0 || (flags.multiline && text[place - 1]? == some '\n')
  | .lineEnd =>
    place == text.size
      || (if flags.multiline then text[place]? == some '\n'
        else place + 1 == text.size && text[place]? == some '\n')
  | .textStart => place == 0
  | .textEnd => place == text.size
  | .wordBoundary => text.size != 0 && atWordBoundary flags text place
  | .noWordBoundary => text.size != 0 && !atWordBoundary flags text place

/-- One character of a kind. -/
def oneCharacter (text : Array Char) (isKind : Char → Bool) : Matcher := fun after r =>
  match text[r.place]? with
  | some c => if isKind c then after { r with place := r.place + 1 } else none
  | none => none

/-- The stretch that a group matched, once more. -/
def sameStretch (flags : Flags) (text : Array Char) (start stop : Nat) : Matcher := fun after r =>
  let length := stop - start
  let same := (List.range length).all fun i =>
    match text[start + i]?, text[r.place + i]? with
    | some c, some d =>
      c == d || (flags.ignoreCase && lowered flags c.toNat == lowered flags d.toNat)
    | _, _ => false
  if same then after { r with place := r.place + length } else none

/-- A repetition that prefers more iterations. `last` is where the iteration before started, once
the least count is reached. The fuel bounds the iterations. -/
def greedyLoop (body : Matcher) (least : Nat) (most : Option Nat) :
    Nat → Nat → Option Nat → Matcher
  | 0, _, _, after, r => after r
  | fuel + 1, count, last, after, r =>
    if count < least then body (greedyLoop body least most fuel (count + 1) last after) r
    else
      let mayGoOn := (most.all (count < ·)) && last != some r.place
      let more :=
        if mayGoOn then body (greedyLoop body least most fuel (count + 1) (some r.place) after) r
        else none
      match more with
      | some found => some found
      | none => after r

/-- A repetition that prefers fewer iterations. -/
def lazyLoop (body : Matcher) (least : Nat) (most : Option Nat) :
    Nat → Nat → Option Nat → Matcher
  | 0, _, _, after, r => after r
  | fuel + 1, count, last, after, r =>
    if count < least then body (lazyLoop body least most fuel (count + 1) last after) r
    else
      match after r with
      | some found => some found
      | none =>
        if (most.all (count < ·)) && last != some r.place then
          body (lazyLoop body least most fuel (count + 1) (some r.place) after) r
        else none

/-- A repetition that takes each iteration the first way it matches and as many as it can. -/
def possessiveLoop (body : Matcher) (least : Nat) (most : Option Nat) :
    Nat → Nat → Option Nat → Matcher
  | 0, _, _, after, r => after r
  | fuel + 1, count, last, after, r =>
    if count < least then
      match body some r with
      | some r' => possessiveLoop body least most fuel (count + 1) last after r'
      | none => none
    else if (most.all (count < ·)) && last != some r.place then
      match body some r with
      | some r' => possessiveLoop body least most fuel (count + 1) (some r.place) after r'
      | none => after r
    else after r

/-- A repetition of a body in a text of some length. After the least count an iteration takes up
text or is the last. -/
def repeatBody (greed : Greed) (least : Nat) (most : Option Nat) (size : Nat) (body : Matcher) :
    Matcher := fun after r =>
  let fuel := least + (size - r.place) + 3
  match greed with
  | .greedy => greedyLoop body least most fuel 0 none after r
  | .lazy => lazyLoop body least most fuel 0 none after r
  | .possessive => possessiveLoop body least most fuel 0 none after r

mutual

/-- The matcher of a part. -/
def Node.matcher (text : Array Char) (flags : Flags) : Node → Matcher
  | .point code => oneCharacter text fun c => samePoint flags code c.toNat
  | .notPoint code => oneCharacter text fun c => !samePoint flags code c.toNat
  | .any => oneCharacter text fun c => flags.dotAll || c != '\n'
  | .set negated items => oneCharacter text fun c => items.any (·.holds flags c) != negated
  | .anchor kind => fun after r => if kind.holds flags text r.place then after r else none
  | .group kind body => fun after r =>
    match kind with
    | .capture index =>
      Node.matcherOfAll text flags body
        (fun r' => after { r' with groups := (index, r.place, r'.place) :: r'.groups }) r
    | .flags on off =>
      Node.matcherOfAll text ((flags.union on).without off) body after r
    | .atomic =>
      match Node.matcherOfAll text flags body some r with
      | some r' => after r'
      | none => none
  | .branch alternatives => Node.matcherOfAny text flags alternatives
  | .repetition greed least most body =>
    repeatBody greed least most text.size (Node.matcherOfAll text flags body)
  | .backreference index _ _ => fun after r =>
    match r.group? index with
    | some (start, stop) => sameStretch flags text start stop after r
    | none => none
  | .conditional index held otherwise => fun after r =>
    match r.group? index with
    | some _ => Node.matcherOfAll text flags held after r
    | none => Node.matcherOfAll text flags otherwise after r
  | .look behind negated body => fun after r =>
    let back := behind.getD 0
    let found :=
      if r.place < back then none
      else Node.matcherOfAll text flags body some { r with place := r.place - back }
    match found, negated with
    | some r', false => after { r' with place := r.place }
    | none, true => after r
    | _, _ => none

/-- The matcher of parts one after the other. -/
def Node.matcherOfAll (text : Array Char) (flags : Flags) : List Node → Matcher
  | [] => fun after r => after r
  | node :: rest => fun after r =>
    node.matcher text flags (fun r' => Node.matcherOfAll text flags rest after r') r

/-- The matcher of one of several bodies, earlier ones first. -/
def Node.matcherOfAny (text : Array Char) (flags : Flags) : List (List Node) → Matcher
  | [] => fun _ _ => none
  | body :: rest => fun after r =>
    match Node.matcherOfAll text flags body after r with
    | some found => some found
    | none => Node.matcherOfAny text flags rest after r

end

/-- Whether a pattern matches somewhere in a text. -/
def Compiled.occursIn (pattern : Compiled) (s : String) : Bool :=
  let text := s.toList.toArray
  (List.range (text.size + 1)).any fun start =>
    (Node.matcherOfAll text pattern.flags pattern.body some ⟨start, []⟩).isSome

end StepGraph.Pattern
