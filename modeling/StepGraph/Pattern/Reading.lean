import StepGraph.Pattern.Tree
import StepGraph.Number.Reading
import StepGraph.Text.Word
import StepGraph.Value.Entries

/-!
# Reading patterns

A pattern is cut into plain and escaped characters and read by descent: alternatives, sequences,
then single parts with their repetitions. A text that is no pattern has no tree; which rule it
breaks does not matter to anyone.
-/

namespace StepGraph.Pattern

/-- A character of a pattern, perhaps after a backslash. -/
inductive Mark where
  | plain (c : Char)
  | escaped (c : Char)
  deriving DecidableEq, Repr

/-- A pattern as marks; nothing if it ends in a backslash. -/
def marks? : List Char → Option (List Mark)
  | [] => some []
  | ['\\'] => none
  | '\\' :: c :: rest => (marks? rest).map (.escaped c :: ·)
  | c :: rest => (marks? rest).map (.plain c :: ·)

/-- What is known while a pattern is read. -/
structure Progress where
  /-- The marks still to be read. -/
  rest : List Mark
  /-- Flags set for the whole pattern. -/
  flags : Flags
  /-- The widths of the groups so far from number one on; an open group has none yet. -/
  groups : List (Option (Nat × Nat)) := []
  /-- The numbers of named groups. -/
  names : List (String × Nat) := []
  /-- While looking behind: the number of the first group opened inside. -/
  behind : Option Nat := none
  /-- The greatest group number that a condition asks for. -/
  asked : Nat := 0

/-- The number that the next group gets; group zero is the whole match. -/
def Progress.nextGroup (p : Progress) : Nat := p.groups.length + 1

/-- The widths of a group that is closed. -/
def Progress.closedGroup? (p : Progress) (index : Nat) : Option (Nat × Nat) :=
  if index = 0 then none else (p.groups[index - 1]?).join

/-- Whether a group may be referred to here: while looking behind it must have been closed
before. -/
def Progress.mayRefer (p : Progress) (index : Nat) : Bool :=
  match p.behind with
  | none => true
  | some first => (p.closedGroup? index).isSome && index < first

/-- The reading of one piece of a pattern. -/
abbrev Reader (α : Type) : Type := Progress → Option (α × Progress)

/-- The rest of the marks if a plain character comes next. -/
def afterPlain? (c : Char) : List Mark → Option (List Mark)
  | .plain d :: rest => if c = d then some rest else none
  | _ => none

/-- Up to `count` plain characters of a kind at the front, and the rest. -/
def takePlain (isKind : Char → Bool) : Nat → List Mark → List Char × List Mark
  | count + 1, .plain c :: rest =>
    if isKind c then
      let (taken, rest) := takePlain isKind count rest
      (c :: taken, rest)
    else ([], .plain c :: rest)
  | _, ms => ([], ms)

/-- The text of a mark. -/
def Mark.text : Mark → List Char
  | .plain c => [c]
  | .escaped c => ['\\', c]

/-- A name up to a closing character, not empty, and the rest. -/
def nameUntil? (close : Char) (ms : List Mark) : Option (String × List Mark) :=
  match ms.dropWhile (· != .plain close) with
  | [] => none
  | _ :: rest =>
    let name := (ms.takeWhile (· != .plain close)).flatMap Mark.text
    if name.isEmpty then none else some (String.ofList name, rest)

/-- A group's name: word characters that do not start with a digit. -/
def isGroupName (name : String) : Bool :=
  match name.toList with
  | [] => false
  | c :: rest => Text.isWord c && !Text.isDigit c && rest.all Text.isWord

/-- A digit below eight. -/
def isOctal (c : Char) : Bool := '0' ≤ c && c ≤ '7'

/-- A hexadecimal digit. -/
def isHex (c : Char) : Bool :=
  c.isDigit || ('a' ≤ c && c ≤ 'f') || ('A' ≤ c && c ≤ 'F')

/-- The number that digits of a base write. -/
def digitsIn (base : Nat) (cs : List Char) : Nat :=
  cs.foldl (fun n c =>
    base * n + (if c.isDigit then c.toNat - '0'.toNat else c.toLower.toNat - 'a'.toNat + 10)) 0

/-- A numbered escape of exactly so many hexadecimal digits. -/
def hexPoint? (count : Nat) (ms : List Mark) : Option (Nat × List Mark) :=
  match takePlain isHex count ms with
  | (digits, rest) =>
    let code := digitsIn 16 digits
    if digits.length = count && code ≤ 0x10ffff then some (code, rest) else none

/-- The control character of a letter escape. -/
def control? : Char → Option Nat
  | 'a' => some 7
  | 'b' => some 8
  | 'f' => some 12
  | 'n' => some 10
  | 'r' => some 13
  | 't' => some 9
  | 'v' => some 11
  | '\\' => some 92
  | _ => none

/-- The class of a letter escape; a capital means what lies outside. -/
def class? : Char → Option SetItem
  | 'd' => some (.ofClass .digit false)
  | 'D' => some (.ofClass .digit true)
  | 's' => some (.ofClass .blank false)
  | 'S' => some (.ofClass .blank true)
  | 'w' => some (.ofClass .word false)
  | 'W' => some (.ofClass .word true)
  | _ => none

/-- An escape that is written by number or stands for its own character. -/
def pointEscape? (c : Char) (rest : List Mark) : Option (Nat × List Mark) :=
  match c with
  | 'x' => hexPoint? 2 rest
  | 'u' => hexPoint? 4 rest
  | 'U' => hexPoint? 8 rest
  | _ => if c.isAlpha || c.isDigit then none else some (c.toNat, rest)

/-- An escape inside a character set. -/
def setEscape? (c : Char) (rest : List Mark) : Option (SetItem × List Mark) :=
  match control? c, class? c with
  | some code, _ => some (.point code, rest)
  | none, some item => some (item, rest)
  | none, none =>
    if isOctal c then
      let (more, rest) := takePlain isOctal 2 rest
      let code := digitsIn 8 (c :: more)
      if code ≤ 0xff then some (.point code, rest) else none
    else (pointEscape? c rest).map fun (code, rest) => (.point code, rest)

/-- The anchor of a letter escape. -/
def anchor? : Char → Option Anchor
  | 'A' => some .textStart
  | 'Z' => some .textEnd
  | 'b' => some .wordBoundary
  | 'B' => some .noWordBoundary
  | _ => none

/-- A reference to a group by number. -/
def referTo? (index : Nat) (p : Progress) : Option (Node × Progress) :=
  match p.closedGroup? index with
  | some (low, high) => if p.mayRefer index then some (.backreference index low high, p) else none
  | none => none

/-- An escape by digits outside sets: up to three octal digits after a zero, three octal digits,
or else the number of a group in one or two digits. -/
def digitEscape? (c : Char) (p : Progress) : Option (Node × Progress) :=
  if c = '0' then
    let (more, rest) := takePlain isOctal 2 p.rest
    some (.point (digitsIn 8 (c :: more)), { p with rest })
  else
    match takePlain Char.isDigit 1 p.rest with
    | ([d], rest) =>
      match takePlain isOctal 1 rest with
      | ([e], rest') =>
        if isOctal c && isOctal d then
          let code := digitsIn 8 [c, d, e]
          if code ≤ 0xff then some (.point code, { p with rest := rest' }) else none
        else referTo? (digitsIn 10 [c, d]) { p with rest }
      | _ => referTo? (digitsIn 10 [c, d]) { p with rest }
    | _ => referTo? (digitsIn 10 [c]) p

/-- An escape outside sets, the escaped character having been read. -/
def escape? (c : Char) (p : Progress) : Option (Node × Progress) :=
  match anchor? c, class? c, control? c with
  | some kind, _, _ => some (.anchor kind, p)
  | none, some item, _ => some (.set false [item], p)
  | none, none, some code => some (.point code, p)
  | none, none, none =>
    if c.isDigit then digitEscape? c p
    else (pointEscape? c p.rest).map fun (code, rest) => (.point code, { p with rest })

/-- One end of a set's range, or an element that stands alone. -/
def setItem? : List Mark → Option (SetItem × List Mark)
  | [] => none
  | .plain c :: rest => some (.point c.toNat, rest)
  | .escaped c :: rest => setEscape? c rest

/-- The elements of a character set up to its closing bracket, which is an element when it comes
first. The fuel is at least the number of marks. -/
def setItems? : Nat → Bool → List Mark → Option (List SetItem × List Mark)
  | 0, _, _ => none
  | fuel + 1, first, ms =>
    match ms, first with
    | .plain ']' :: rest, false => some ([], rest)
    | ms, _ =>
      match setItem? ms with
      | none => none
      | some (item, .plain '-' :: rest) =>
        match rest with
        | .plain ']' :: rest => some ([item, .point '-'.toNat], rest)
        | rest =>
          match item, setItem? rest with
          | .point low, some (.point high, rest) =>
            if high < low then none
            else
              (setItems? fuel false rest).map fun (items, rest) => (.range low high :: items, rest)
          | _, _ => none
      | some (item, rest) =>
        (setItems? fuel false rest).map fun (items, rest) => (item :: items, rest)

/-- A character set whose opening bracket has been read. A set of one point is that point. -/
def set? (ms : List Mark) : Option (Node × List Mark) :=
  let (negated, body) := match ms with
    | .plain '^' :: rest => (true, rest)
    | _ => (false, ms)
  (setItems? (body.length + 1) true body).map fun (items, rest) =>
    (match items.eraseDups, negated with
      | [.point code], false => .point code
      | [.point code], true => .notPoint code
      | items, negated => .set negated items, rest)

/-- The counts of a repetition in braces, the opening brace having been read. -/
def counts? (ms : List Mark) : Option ((Nat × Option Nat) × List Mark) :=
  let (low, rest) := takePlain Char.isDigit ms.length ms
  let least := digitsIn 10 low
  match afterPlain? ',' rest with
  | some rest =>
    let (high, rest) := takePlain Char.isDigit rest.length rest
    (afterPlain? '\x7d' rest).map fun rest =>
      ((least, if high.isEmpty then none else some (digitsIn 10 high)), rest)
  | none =>
    if low.isEmpty then none
    else (afterPlain? '\x7d' rest).map fun rest => ((least, some least), rest)

/-- The greatest count that a repetition may write. -/
def greatestCount : Nat := Nat.pow 2 32 - 1

/-- Whether the counts of a repetition are in order and in range. -/
def countsInOrder (least : Nat) (most : Option Nat) : Bool :=
  least < greatestCount &&
    match most with
    | some n => n < greatestCount && least ≤ n
    | none => true

/-- The repetition of the part read last. Anchors and repetitions cannot be repeated. -/
def repeated? (least : Nat) (most : Option Nat) (done : List Node) (ms : List Mark) :
    Option (List Node × List Mark) :=
  match done with
  | [] => none
  | .anchor _ :: _ => none
  | .repetition _ _ _ _ :: _ => none
  | node :: before =>
    let (greed, rest) := match ms with
      | .plain '?' :: rest => (Greed.lazy, rest)
      | .plain '+' :: rest => (Greed.possessive, rest)
      | _ => (Greed.greedy, ms)
    some (.repetition greed least most [node] :: before, rest)

/-- The flag of a letter; two letters change nothing. -/
def flagOf? : Char → Option Flags
  | 'i' => some { ignoreCase := true }
  | 'm' => some { multiline := true }
  | 's' => some { dotAll := true }
  | 'x' => some { verbose := true }
  | 'a' => some { latinOnly := true }
  | 'u' => some {}
  | 't' => some {}
  | _ => none

/-- The flags of either of two. -/
def Flags.union (f g : Flags) : Flags :=
  ⟨f.ignoreCase || g.ignoreCase, f.multiline || g.multiline, f.dotAll || g.dotAll,
    f.verbose || g.verbose, f.latinOnly || g.latinOnly⟩

/-- The flags of the first that are not in the second. -/
def Flags.without (f g : Flags) : Flags :=
  ⟨f.ignoreCase && !g.ignoreCase, f.multiline && !g.multiline, f.dotAll && !g.dotAll,
    f.verbose && !g.verbose, f.latinOnly && !g.latinOnly⟩

/-- The letters of flags at the front, and the rest. -/
def flagLetters (ms : List Mark) : List Char × List Mark :=
  takePlain (fun c => (flagOf? c).isSome) ms.length ms

/-- The flags of letters taken together. -/
def flagsOf (letters : List Char) : Flags :=
  letters.foldl (fun f c => f.union ((flagOf? c).getD {})) {}

/-- Letters that cannot be switched for a group alone or that exclude each other. -/
def lettersClash (letters : List Char) : Bool := letters.contains 'a' && letters.contains 'u'

/-- What the flags of a group do. -/
inductive FlagsEffect where
  /-- They hold for the whole pattern. -/
  | whole (on : Flags)
  /-- They hold for the body that follows. -/
  | body (on off : Flags)

/-- The flags after an opening parenthesis and question mark. -/
def groupFlags? (ms : List Mark) : Option (FlagsEffect × List Mark) :=
  let (letters, rest) := flagLetters ms
  if lettersClash letters then none
  else
    match rest with
    | .plain ')' :: rest => if letters.isEmpty then none else some (.whole (flagsOf letters), rest)
    | .plain ':' :: rest =>
      if letters.isEmpty || letters.contains 't' then none
      else some (.body (flagsOf letters) {}, rest)
    | .plain '-' :: rest =>
      let (off, rest) := flagLetters rest
      let fixed := off.any fun c => c == 'a' || c == 'u' || c == 't'
      if letters.contains 't' || off.isEmpty || fixed || letters.any off.contains then none
      else (afterPlain? ':' rest).map fun rest => (.body (flagsOf letters) (flagsOf off), rest)
    | _ => none

/-- Blanks that a verbose pattern skips. -/
def isSkipped (c : Char) : Bool :=
  c == ' ' || c == '\t' || c == '\n' || c == '\r' || c == '\x0b' || c == '\x0c'

/-- The marks after a comment that runs to the end of its line. -/
def afterLine (ms : List Mark) : List Mark := (ms.dropWhile (· != .plain '\n')).drop 1

/-- The marks after a comment in parentheses. -/
def afterComment? (ms : List Mark) : Option (List Mark) :=
  match ms.dropWhile (· != .plain ')') with
  | [] => none
  | _ :: rest => some rest

/-- The group of a condition, by name or by number. -/
def conditionGroup? (name : String) (p : Progress) : Option (Nat × Progress) :=
  if isGroupName name then (Entries.get? p.names name).map (·, p)
  else
    match Number.Reading.integer? name with
    | some n =>
      if 0 < n then some (n.toNat, { p with asked := max p.asked n.toNat }) else none
    | none => none

/-- A fresh group, perhaps with a name that no other group has. -/
def openGroup? (name : Option String) (p : Progress) : Option (Nat × Progress) :=
  let index := p.nextGroup
  let opened := { p with groups := p.groups ++ [none] }
  match name with
  | none => some (index, opened)
  | some s =>
    if Entries.hasKey p.names s then none
    else some (index, { opened with names := Entries.insert s index p.names })

/-- A group closed with the widths of its body. -/
def closeGroup (index : Nat) (body : List Node) (p : Progress) : Progress :=
  { p with groups := p.groups.set (index - 1) (some (Node.widthOfAll body)) }

/-- The marks after a closing parenthesis. -/
def closing? (p : Progress) : Option Progress :=
  (afterPlain? ')' p.rest).map fun rest => { p with rest }

/-- What an opening parenthesis begins, without a body or condition to read. -/
inductive Opening where
  /-- A group of a kind. -/
  | group (kind : Option GroupKind) (name : Option String)
  /-- A body looked at. -/
  | look (behind negated : Bool)
  /-- A choice by a group. -/
  | conditional
  /-- Flags of the whole pattern. -/
  | flags (on : Flags)
  /-- Nothing. -/
  | comment
  /-- A reference by name. -/
  | refer (name : String)

/-- What an opening parenthesis begins, and the marks after its head. -/
def opening? (ms : List Mark) : Option (Opening × List Mark) :=
  match ms with
  | .plain '?' :: rest =>
    match rest with
    | .plain 'P' :: .plain '<' :: rest =>
      match nameUntil? '>' rest with
      | some (name, rest) => if isGroupName name then some (.group none (some name), rest) else none
      | none => none
    | .plain 'P' :: .plain '=' :: rest =>
      match nameUntil? ')' rest with
      | some (name, rest) => if isGroupName name then some (.refer name, rest) else none
      | none => none
    | .plain ':' :: rest => some (.group (some (.flags {} {})) none, rest)
    | .plain '#' :: rest => (afterComment? rest).map fun rest => (.comment, rest)
    | .plain '=' :: rest => some (.look false false, rest)
    | .plain '!' :: rest => some (.look false true, rest)
    | .plain '<' :: .plain '=' :: rest => some (.look true false, rest)
    | .plain '<' :: .plain '!' :: rest => some (.look true true, rest)
    | .plain '(' :: rest => some (.conditional, rest)
    | .plain '>' :: rest => some (.group (some .atomic) none, rest)
    | rest =>
      match groupFlags? rest with
      | some (.whole on, rest) => some (.flags on, rest)
      | some (.body on off, rest) => some (.group (some (.flags on off)) none, rest)
      | none => none
  | ms => some (.group none none, ms)

/-- Whether a group's body is verbose. -/
def verboseInside (verbose : Bool) : Option GroupKind → Bool
  | some (.flags on off) => (verbose || on.verbose) && !off.verbose
  | _ => verbose

mutual

/-- Alternatives up to the end of the pattern or of the group around them. The fuel bounds the
number of steps and is at least twice the number of marks. -/
def alternatives? : Nat → Bool → Bool → Bool → Progress → Option (List (List Node) × Progress)
  | 0, _, _, _, _ => none
  | fuel + 1, verbose, nested, first, p => do
    let (body, p) ← sequence? fuel verbose (!nested && first) [] p
    match afterPlain? '|' p.rest with
    | none => return ([body], p)
    | some rest =>
      let verbose := if nested then verbose else p.flags.verbose
      let (others, p) ← alternatives? fuel verbose nested false { p with rest }
      return (body :: others, p)

/-- Parts one after the other, gathered in reverse. Flags of the whole pattern may only stand at
its start. -/
def sequence? : Nat → Bool → Bool → List Node → Progress → Option (List Node × Progress)
  | 0, _, _, _, _ => none
  | fuel + 1, verbose, atStart, done, p =>
    match p.rest with
    | [] => some (done.reverse, p)
    | .escaped c :: rest => do
      let (node, p) ← escape? c { p with rest }
      sequence? fuel verbose atStart (node :: done) p
    | .plain c :: rest =>
      if c = '|' || c = ')' then some (done.reverse, p)
      else if verbose && isSkipped c then sequence? fuel verbose atStart done { p with rest }
      else if verbose && c = '#' then
        sequence? fuel verbose atStart done { p with rest := afterLine rest }
      else
        match c with
        | '[' => do
          let (node, rest) ← set? rest
          sequence? fuel verbose atStart (node :: done) { p with rest }
        | '.' => sequence? fuel verbose atStart (.any :: done) { p with rest }
        | '^' => sequence? fuel verbose atStart (.anchor .lineStart :: done) { p with rest }
        | '$' => sequence? fuel verbose atStart (.anchor .lineEnd :: done) { p with rest }
        | '*' => do
          let (done, rest) ← repeated? 0 none done rest
          sequence? fuel verbose atStart done { p with rest }
        | '+' => do
          let (done, rest) ← repeated? 1 none done rest
          sequence? fuel verbose atStart done { p with rest }
        | '?' => do
          let (done, rest) ← repeated? 0 (some 1) done rest
          sequence? fuel verbose atStart done { p with rest }
        | '\x7b' =>
          match counts? rest with
          | none => sequence? fuel verbose atStart (.point c.toNat :: done) { p with rest }
          | some ((least, most), rest) =>
            if countsInOrder least most then do
              let (done, rest) ← repeated? least most done rest
              sequence? fuel verbose atStart done { p with rest }
            else none
        | '(' => do
          let (head, rest) ← opening? rest
          let p := { p with rest }
          match head with
          | .comment => sequence? fuel verbose atStart done p
          | .flags on =>
            if atStart && done.isEmpty then
              let flags := p.flags.union on
              sequence? fuel flags.verbose atStart done { p with flags }
            else none
          | .refer name => do
            let index ← Entries.get? p.names name
            let (node, p) ← referTo? index p
            sequence? fuel verbose atStart (node :: done) p
          | .look behind negated => do
            let outer := p.behind
            let inner := if behind && outer.isNone then some p.nextGroup else outer
            let (bodies, p) ← alternatives? fuel verbose true true { p with behind := inner }
            let p ← closing? { p with behind := outer }
            let (low, high) := Node.widthOfAny bodies
            if behind && low ≠ high then none
            else
              let node := .look (if behind then some low else none) negated [.branch bodies]
              sequence? fuel verbose atStart (node :: done) p
          | .conditional => do
            let (name, rest) ← nameUntil? ')' p.rest
            let (index, p) ← conditionGroup? name { p with rest }
            if !p.mayRefer index then none
            else
              let (held, p) ← sequence? fuel verbose false [] p
              let (otherwise, p) ←
                match afterPlain? '|' p.rest with
                | some rest => sequence? fuel verbose false [] { p with rest }
                | none => some ([], p)
              let p ← closing? p
              sequence? fuel verbose atStart (.conditional index held otherwise :: done) p
          | .group (some kind) _ => do
            let (bodies, p) ← alternatives? fuel (verboseInside verbose (some kind)) true true p
            let p ← closing? p
            sequence? fuel verbose atStart (.group kind [.branch bodies] :: done) p
          | .group none name => do
            let (index, p) ← openGroup? name p
            let (bodies, p) ← alternatives? fuel verbose true true p
            let p ← closing? p
            let body := [.branch bodies]
            sequence? fuel verbose atStart (.group (.capture index) body :: done)
              (closeGroup index body p)
        | c => sequence? fuel verbose atStart (.point c.toNat :: done) { p with rest }

end

/-- A pattern that has been read. -/
structure Compiled where
  /-- The flags of the whole pattern. -/
  flags : Flags
  /-- The parts of the pattern. -/
  body : List Node

/-- The pattern that a text writes under flags. -/
def Compiled.ofText? (pattern : String) (flags : Flags) : Option Compiled := do
  let ms ← marks? pattern.toList
  let (bodies, p) ← alternatives? (4 * ms.length + 4) flags.verbose false true { rest := ms, flags }
  if !p.rest.isEmpty || p.asked > p.groups.length then none
  else return ⟨p.flags, [.branch bodies]⟩

end StepGraph.Pattern
