import StepGraph.Expression.Parsing

/-!
# Reading at a position

The readers take tokens from the front of a list, so that there is nothing else for them to look at.
Here expressions are read by routines that share one position in a row of places, the last of which
marks the end. Nothing keeps the position inside: a look anywhere else is a mishap of its own, and
the routines call one another down to a depth that is given. What they look at and how their calls
end is noted, also where they fail.
-/

namespace StepGraph.Expression

/-- The places of some tokens: the tokens, and behind them the mark of the end. -/
def places (ts : List Token) : List (Option Token) := ts.map some ++ [none]

/-- A routine that reads an expression, or what is left of one of its loops. -/
inductive Routine where
  /-- A ternary or what it is made of. -/
  | ternary
  /-- Operands joined by the operators of a level. -/
  | chain (level : Level)
  /-- The loop over the operators of a level, with what they have joined so far. -/
  | joined (level : Level) (left : Tree)
  /-- Signs before a member expression. -/
  | unary
  /-- A primary and its properties. -/
  | member
  /-- The loop over the properties, with what they were read from so far. -/
  | properties (object : Tree)
  /-- A literal, a name, something in parentheses or an array. -/
  | primary
  /-- The loop over the items of an array, with those that were read so far. -/
  | items (earlier : List Tree)

/-- A call of a routine that has ended. -/
structure Routine.Call where
  /-- The routine. -/
  routine : Routine
  /-- The position at which it was called. -/
  start : Nat
  /-- The position at which it ended. -/
  stop : Nat
  /-- Whether it has returned a tree; otherwise a fault ended it. -/
  returned : Bool

/-- The position that the routines share, with what was noted on the way. -/
structure Cursor where
  /-- The place that is next. -/
  position : Nat := 0
  /-- The places that were looked at, the latest first. -/
  looks : List Nat := []
  /-- The calls that have ended, the latest first. -/
  calls : List Routine.Call := []

namespace Cursor

/-- The cursor after a look. -/
def seen (c : Cursor) : Cursor := { c with looks := c.position :: c.looks }

/-- The cursor at the next place. -/
def moved (c : Cursor) : Cursor := { c with position := c.position + 1 }

/-- The cursor after a call. -/
def called (c : Cursor) (call : Routine.Call) : Cursor := { c with calls := call :: c.calls }

end Cursor

/-- Why reading comes to no tree. -/
inductive Halt where
  /-- The tokens are at fault. -/
  | fault (fault : Fault)
  /-- There is no place at the position. -/
  | outside
  /-- Calls are deeper than they were allowed to be. -/
  | unfinished

/-- A part of reading: what it gives, or why it gives nothing, and the cursor afterwards. -/
def Steps (α : Type) : Type := Cursor → Except Halt α × Cursor

namespace Steps

variable {α β : Type}

/-- Giving something. -/
def pure (a : α) : Steps α := fun c => (.ok a, c)

/-- One part after another. -/
def bind (first : Steps α) (next : α → Steps β) : Steps β := fun c =>
  match first c with
  | (.ok a, after) => next a after
  | (.error why, after) => (.error why, after)

instance : Monad Steps where
  pure := pure
  bind := bind

/-- Giving nothing. -/
def halt (why : Halt) : Steps α := fun c => (.error why, c)

/-- What stands at the position. -/
def look (ts : List Token) : Steps (Option Token) := fun c =>
  match (places ts)[c.position]? with
  | some place => (.ok place, c.seen)
  | none => (.error .outside, c.seen)

/-- Going on to the next place. -/
def move : Steps Unit := fun c => (.ok (), c.moved)

/-- What stands at the position, whatever it is, is passed. -/
def advance (ts : List Token) : Steps (Option Token) := do
  let place ← look ts
  move
  return place

/-- A symbol at the position is passed if it has a meaning. -/
def accept (ts : List Token) (meaning : Symbol → Option α) : Steps (Option α) := do
  match ← look ts with
  | some (.symbol s) =>
    match meaning s with
    | some a => do
      move
      return some a
    | none => return none
  | _ => return none

/-- Only one symbol has a meaning. -/
def only (due s : Symbol) : Option Unit := if s = due then some () else none

/-- A symbol that is due is passed; anything else is a fault. -/
def demand (ts : List Token) (due : Symbol) : Steps Unit := do
  match ← accept ts (only due) with
  | some _ => return ()
  | none => do
    let found ← look ts
    halt (.fault (.expected due found))

/-- A call of a routine is noted when it ends. -/
def noted (routine : Routine) (action : Steps α) : Steps α := fun c =>
  let (result, after) := action c
  (result, after.called ⟨routine, c.position, after.position, result.isOk⟩)

end Steps

namespace Routine

open Steps

/-- The routine for the operands of a level. -/
def operand (level : Level) : Routine :=
  match level.tighter? with
  | some next => .chain next
  | none => .unary

/-- What a routine does, given how routines are called. -/
def body (ts : List Token) (call : Routine → Steps Tree) : Routine → Steps Tree
  | .ternary => do
    let test ← call (.chain .or)
    match ← accept ts (only .question) with
    | some _ => do
      let held ← call .ternary
      demand ts .colon
      let otherwise ← call .ternary
      return .ternary test held otherwise
    | none => return test
  | .chain level => do
    let first ← call (operand level)
    call (.joined level first)
  | .joined level left => do
    match ← accept ts level.join? with
    | some join => do
      let right ← call (operand level)
      call (.joined level (join left right))
    | none => return left
  | .unary => do
    match ← accept ts UnaryOperator.ofSymbol? with
    | some operator => do
      let operand ← call .unary
      return .unary operator operand
    | none => call .member
  | .member => do
    let object ← call .primary
    call (.properties object)
  | .properties object => do
    match ← accept ts (only .dot) with
    | some _ => do
      match ← advance ts with
      | some (.name key) => call (.properties (.member object (.literal (.text key))))
      | found => halt (.fault (.expectedProperty found))
    | none => do
      match ← accept ts (only .openBracket) with
      | some _ => do
        let key ← call .ternary
        demand ts .closeBracket
        call (.properties (.member object key))
      | none => return object
  | .primary => do
    match ← advance ts with
    | some (.literal v) => return .literal v
    | some (.name s) => return .name s
    | some (.symbol .openParen) => do
      let tree ← call .ternary
      demand ts .closeParen
      return tree
    | some (.symbol .openBracket) => do
      match ← accept ts (only .closeBracket) with
      | some _ => return .array []
      | none => call (.items [])
    | some found => halt (.fault (.unexpectedToken found))
    | none => halt (.fault .unexpectedEnd)
  | .items earlier => do
    let item ← call .ternary
    match ← accept ts (only .comma) with
    | some _ => call (.items (earlier ++ [item]))
    | none => do
      demand ts .closeBracket
      return .array (earlier ++ [item])

end Routine

/-- A call of a routine, down to some depth of calls. -/
def perform (ts : List Token) : Nat → Routine → Steps Tree
  | 0, _ => Steps.halt .unfinished
  | depth + 1, routine => Steps.noted routine (routine.body ts (perform ts depth))

/-- A whole list of tokens read with a cursor. -/
def parse (ts : List Token) (depth : Nat) : Steps Tree := do
  match ← Steps.look ts with
  | none => Steps.halt (.fault .empty)
  | some _ => do
    let tree ← perform ts depth .ternary
    match ← Steps.look ts with
    | none => return tree
    | some found => do
      let _ ← Steps.look ts
      Steps.halt (.fault (.unexpectedToken found))

namespace Cursor

/-- Only places were looked at, and no call that has passed the mark of the end has returned. -/
structure Inside (ts : List Token) (c : Cursor) : Prop where
  /-- The looks. -/
  looks : ∀ i ∈ c.looks, i < (places ts).length
  /-- The calls. -/
  calls : ∀ call ∈ c.calls, (places ts).length ≤ call.stop → call.returned = false

/-- A cursor inside at which some last tokens are left over. -/
structure Stands (ts us : List Token) (c : Cursor) : Prop extends c.Inside ts where
  /-- The mark of the end is not passed. -/
  within : c.position ≤ ts.length
  /-- The tokens left over. -/
  rest : ts.drop c.position = us

variable {ts us : List Token} {t : Token} {c : Cursor}

/-- There is one place more than there are tokens. -/
theorem length_places (ts : List Token) : (places ts).length = ts.length + 1 := by simp [places]

/-- Before anything was read all tokens are left over. -/
theorem stands_start (ts : List Token) : Stands ts ts {} :=
  ⟨⟨nofun, nofun⟩, Nat.zero_le _, rfl⟩

/-- Moving on by itself looks at nothing and ends no call. -/
theorem Inside.moved (h : c.Inside ts) : c.moved.Inside ts := ⟨h.looks, h.calls⟩

namespace Stands

/-- A place that stands at the position can be looked at. -/
theorem seen (h : c.Stands ts us) : c.seen.Stands ts us := by
  refine ⟨⟨fun i hi => ?_, h.calls⟩, h.within, h.rest⟩
  rcases List.mem_cons.mp hi with rfl | hold
  · rw [length_places]
    exact Nat.lt_succ_of_le h.within
  · exact h.looks i hold

/-- A token can be passed. -/
theorem moved (h : c.Stands ts (t :: us)) : c.moved.Stands ts us := by
  have hlength := congrArg List.length h.rest
  rw [List.length_drop, List.length_cons] at hlength
  refine ⟨h.toInside.moved, ?_, ?_⟩
  · change c.position + 1 ≤ ts.length
    omega
  · change ts.drop (c.position + 1) = us
    rw [← List.tail_drop, h.rest, List.tail_cons]

/-- With nothing left over the cursor is at the mark of the end. -/
theorem position_of_nil (h : c.Stands ts []) : c.position = ts.length :=
  Nat.le_antisymm h.within (List.drop_eq_nil_iff.mp h.rest)

/-- What stands at the position is the first of the tokens left over, or the mark of the end. -/
theorem place (h : c.Stands ts us) : (places ts)[c.position]? = some us.head? := by
  unfold places
  cases us with
  | nil => simp [h.position_of_nil]
  | cons first others =>
    have hfirst : ts[c.position]? = some first := by
      rw [← List.head?_drop, h.rest, List.head?_cons]
    have hlt : c.position < (ts.map some).length := by
      rw [List.length_map]
      exact (List.getElem?_eq_some_iff.mp hfirst).1
    rw [List.getElem?_append_left hlt, List.getElem?_map, hfirst]
    rfl

end Stands

/-- A call that has returned has ended where the cursor stands. -/
theorem Stands.called (h : c.Stands ts us) {call : Routine.Call} (hstop : call.stop = c.position) :
    (c.called call).Stands ts us := by
  refine ⟨⟨h.looks, fun other hother hpassed => ?_⟩, h.within, h.rest⟩
  rcases List.mem_cons.mp hother with rfl | hold
  · have hwithin := h.within
    rw [length_places, hstop] at hpassed
    omega
  · exact h.calls other hold hpassed

/-- A call that has not returned may have ended anywhere. -/
theorem Inside.called (h : c.Inside ts) {call : Routine.Call} (hfailed : call.returned = false) :
    (c.called call).Inside ts := by
  refine ⟨h.looks, fun other hother hpassed => ?_⟩
  rcases List.mem_cons.mp hother with rfl | hold
  · exact hfailed
  · exact h.calls other hold hpassed

end Cursor

namespace Steps

variable {α β : Type} {ts us : List Token} {c : Cursor}

theorem bind_ok {first : Steps α} {next : α → Steps β} {a : α} {after : Cursor}
    (h : first c = (.ok a, after)) : (first >>= next) c = next a after := by
  change bind first next c = _
  unfold bind
  rw [h]

theorem bind_error {first : Steps α} {next : α → Steps β} {why : Halt} {after : Cursor}
    (h : first c = (.error why, after)) : (first >>= next) c = (.error why, after) := by
  change bind first next c = _
  unfold bind
  rw [h]

/-- A look shows the first of the tokens left over, or the mark of the end. -/
theorem look_eq (h : c.Stands ts us) : look ts c = (.ok us.head?, c.seen) := by
  unfold look
  rw [h.place]

/-- It is passed, even the mark of the end. -/
theorem advance_eq (h : c.Stands ts us) : advance ts c = (.ok us.head?, c.seen.moved) :=
  bind_ok (look_eq h)

/-- A symbol with a meaning is passed. -/
theorem accept_some {meaning : Symbol → Option α} {s : Symbol} {a : α}
    (h : c.Stands ts (.symbol s :: us)) (hs : meaning s = some a) :
    accept ts meaning c = (.ok (some a), c.seen.moved) := by
  refine (bind_ok (look_eq h)).trans ?_
  dsimp only [List.head?_cons]
  rw [hs]
  rfl

/-- Anything else stays where it is. -/
theorem accept_none {meaning : Symbol → Option α} (h : c.Stands ts us)
    (hnone : ∀ s rest, us = .symbol s :: rest → meaning s = none) :
    accept ts meaning c = (.ok none, c.seen) := by
  refine (bind_ok (look_eq h)).trans ?_
  cases us with
  | nil => rfl
  | cons t rest =>
    cases t with
    | symbol s =>
      dsimp only [List.head?_cons]
      rw [hnone s rest rfl]
      rfl
    | literal _ => rfl
    | name _ => rfl

/-- The one symbol that is looked for is passed. -/
theorem accept_only {due : Symbol} (h : c.Stands ts (.symbol due :: us)) :
    accept ts (only due) c = (.ok (some ()), c.seen.moved) := accept_some h (if_pos rfl)

/-- If it does not come next, nothing is. -/
theorem accept_only_none {due : Symbol} (h : c.Stands ts us)
    (hmissing : ∀ rest, us ≠ .symbol due :: rest) :
    accept ts (only due) c = (.ok none, c.seen) := by
  refine accept_none h fun s rest hus => if_neg ?_
  rintro rfl
  exact hmissing rest hus

/-- A symbol that is due is passed. -/
theorem demand_due {due : Symbol} (h : c.Stands ts (.symbol due :: us)) :
    demand ts due c = (.ok (), c.seen.moved) := bind_ok (accept_only h)

/-- A symbol that is missing is a fault, which shows what stands in its place. -/
theorem demand_missing {due : Symbol} (h : c.Stands ts us)
    (hmissing : ∀ rest, us ≠ .symbol due :: rest) :
    demand ts due c = (.error (.fault (.expected due us.head?)), c.seen.seen) := by
  refine (bind_ok (accept_only_none h hmissing)).trans ?_
  exact bind_ok (look_eq h.seen)

end Steps

end StepGraph.Expression
