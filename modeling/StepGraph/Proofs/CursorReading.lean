import StepGraph.Proofs.Cursor
import StepGraph.Proofs.Reading

/-!
# A cursor reads what the readers read

Wherever a cursor stands with some tokens left over, a routine gives what the reader of its kind
gives on those tokens, and leaves the cursor where the reader's rest begins. As the readers do, the
routines call one another on fewer tokens or further down, so that a depth of a dozen calls for
every token is always enough. So reading with a cursor ends, never looks outside of the places, and
passes the mark of the end only on the way to a fault.
-/

namespace StepGraph.Expression

section
variable {α β γ δ : Type} {P R : List Token → Prop} {ts us : List Token} {c : Cursor}

/-- The end of a part of reading is what a reading comes to: it gives the same and stands where that
is left over, or it ends with the same fault. -/
def Follows (ts : List Token) (reading : Except Fault (α × { rest : List Token // P rest }))
    (value : α → β) (ended : Except Halt β × Cursor) : Prop :=
  match reading with
  | .ok (a, rest) => ended.1 = .ok (value a) ∧ ended.2.Stands ts rest.1
  | .error fault => ended.1 = .error (.fault fault) ∧ ended.2.Inside ts

namespace Follows

/-- One part after another. -/
theorem bind {reading : Except Fault (α × { rest : List Token // P rest })}
    {next : α × { rest : List Token // P rest } →
      Except Fault (γ × { rest : List Token // R rest })}
    {value : α → β} {value' : γ → δ} {first : Steps β} {more : β → Steps δ}
    (h : Follows ts reading value (first c))
    (hnext : ∀ a rest (hrest : P rest) after, after.Stands ts rest →
      Follows ts (next (a, ⟨rest, hrest⟩)) value' (more (value a) after)) :
    Follows ts (reading >>= next) value' ((first >>= more) c) := by
  cases hfirst : first c with
  | mk result after =>
    rw [hfirst] at h
    cases reading with
    | error fault =>
      obtain ⟨hresult, hinside⟩ := h
      cases hresult
      rw [Steps.bind_error hfirst]
      exact ⟨rfl, hinside⟩
    | ok read =>
      obtain ⟨a, rest, hrest⟩ := read
      obtain ⟨hresult, hstands⟩ := h
      cases hresult
      rw [Steps.bind_ok hfirst]
      exact hnext a rest hrest after hstands

/-- The last part of a reading gives what the whole gives; only what is read is put together. -/
theorem last {reading : Except Fault (α × { rest : List Token // P rest })} {value : α → β}
    {value' : γ → β} {make : α → γ} {hPR : ∀ rest, P rest → R rest}
    {ended : Except Halt β × Cursor} (h : Follows ts reading value ended)
    (hmake : ∀ a, value' (make a) = value a) :
    Follows ts (do
      let (a, ⟨rest, hrest⟩) ← reading
      return (make a, (⟨rest, hPR rest hrest⟩ : { rest : List Token // R rest })))
      value' ended := by
  cases reading with
  | error fault => exact h
  | ok read =>
    obtain ⟨a, rest, hrest⟩ := read
    exact ⟨h.1.trans (congrArg Except.ok (hmake a).symm), h.2⟩

/-- A closing symbol is demanded where one is expected. -/
theorem demand {due : Symbol}
    {next : Fewer us → Except Fault (γ × { rest : List Token // R rest })} {value : γ → δ}
    {more : Unit → Steps δ} (hc : c.Stands ts us)
    (hnext : ∀ rest (hrest : rest.length < us.length) after, us = .symbol due :: rest →
      after.Stands ts rest → Follows ts (next ⟨rest, hrest⟩) value (more () after)) :
    Follows ts (expect due us >>= next) value ((Steps.demand ts due >>= more) c) := by
  have hmissing (h : ∀ rest, us ≠ .symbol due :: rest) :
      ((Steps.demand ts due >>= more) c).1 = .error (.fault (.expected due us.head?)) ∧
        ((Steps.demand ts due >>= more) c).2.Inside ts := by
    rw [Steps.bind_error (Steps.demand_missing hc h)]
    exact ⟨rfl, hc.seen.seen.toInside⟩
  cases us with
  | nil => exact hmissing nofun
  | cons t rest =>
    cases t with
    | symbol s =>
      by_cases hs : s = due
      · subst hs
        rw [expect_due, Steps.bind_ok (Steps.demand_due hc)]
        exact hnext rest _ _ rfl hc.seen.moved
      · have hread : expect due (.symbol s :: rest) = .error (.expected due (some (.symbol s))) :=
          if_neg hs
        rw [hread]
        exact hmissing fun _ h => hs (Token.symbol.inj (List.cons.inj h).1)
    | literal _ => exact hmissing nofun
    | name _ => exact hmissing nofun

/-- A call is noted and comes to the same. -/
theorem noted {reading : Except Fault (α × { rest : List Token // P rest })} {value : α → β}
    {routine : Routine} {action : Steps β} (h : Follows ts reading value (action c)) :
    Follows ts reading value (Steps.noted routine action c) := by
  unfold Steps.noted
  cases hran : action c with
  | mk result after =>
    rw [hran] at h
    cases reading with
    | error fault =>
      obtain ⟨hresult, hinside⟩ := h
      cases hresult
      exact ⟨rfl, hinside.called rfl⟩
    | ok read =>
      obtain ⟨a, rest⟩ := read
      obtain ⟨hresult, hstands⟩ := h
      cases hresult
      exact ⟨rfl, hstands.called rfl⟩

end Follows

end

/-- How many calls on the same tokens a call can lead down to. -/
def Routine.rank : Routine → Nat
  | .primary | .joined _ _ | .properties _ => 1
  | .member => 2
  | .unary => 3
  | .chain level => level.height + 4
  | .ternary => 10
  | .items _ => 11

/-- A depth that is enough for a call with a number of tokens left over. -/
def Routine.need (routine : Routine) (n : Nat) : Nat := 12 * n + routine.rank

section
variable {routine inner : Routine} {depth n m : Nat}

/-- There are six levels. -/
theorem Level.height_le (level : Level) : level.height ≤ 5 := by cases level <;> decide

/-- A routine is called at least once, and a dozen are more than lead down from any. -/
theorem Routine.rank_bounds (routine : Routine) : 1 ≤ routine.rank ∧ routine.rank ≤ 11 := by
  cases routine with
  | chain level =>
    have hheight := level.height_le
    change 1 ≤ level.height + 4 ∧ level.height + 4 ≤ 11
    omega
  | _ => simp [rank]

/-- The operands of a level are further down than its chains. -/
theorem Routine.rank_operand_lt (level : Level) :
    (operand level).rank < (chain level).rank := by cases level <;> decide

/-- What is enough for a call is enough for the calls in it on fewer tokens. -/
theorem Routine.need_of_fewer (h : routine.need n ≤ depth + 1) (hm : m < n) :
    inner.need m ≤ depth := by
  have hbelow := inner.rank_bounds.2
  have habove := routine.rank_bounds.1
  unfold need at h ⊢
  omega

/-- It is enough for those on the same tokens that are further down. -/
theorem Routine.need_of_lower (h : routine.need n ≤ depth + 1) (hrank : inner.rank < routine.rank) :
    inner.need n ≤ depth := by
  unfold need at h ⊢
  omega

end

/-- A call of a routine with some tokens left over comes to what a reading of them does, if it may
be deep enough. -/
def Routine.Tracks {α : Type} {P : List Token → Prop} (ts us : List Token) (routine : Routine)
    (reading : Except Fault (α × { rest : List Token // P rest })) (value : α → Tree) : Prop :=
  ∀ depth c, c.Stands ts us → routine.need us.length ≤ depth →
    Follows ts reading value (perform ts depth routine c)

/-- A call does what the body of its routine does. -/
theorem Routine.Tracks.of_body {α : Type} {P : List Token → Prop} {ts us : List Token}
    {routine : Routine} {reading : Except Fault (α × { rest : List Token // P rest })}
    {value : α → Tree}
    (h : ∀ depth c, c.Stands ts us → routine.need us.length ≤ depth + 1 →
      Follows ts reading value (routine.body ts (perform ts depth) c)) :
    routine.Tracks ts us reading value := by
  intro depth c hc hneed
  cases depth with
  | zero =>
    have habove := routine.rank_bounds.1
    unfold Routine.need at hneed
    omega
  | succ depth => exact (h depth c hc hneed).noted

/-- All routines track the readers on some last tokens. -/
structure TracksAt (ts us : List Token) : Prop where
  ternary : Routine.ternary.Tracks ts us (readTernary us) id
  operand : ∀ level, (Routine.operand level).Tracks ts us (readOperand level us) id
  joined : ∀ level left, (Routine.joined level left).Tracks ts us (readJoined level left us) id
  unary : Routine.unary.Tracks ts us (readUnary us) id
  properties : ∀ object, (Routine.properties object).Tracks ts us (readProperties object us) id
  items : ∀ earlier, (Routine.items earlier).Tracks ts us (readItems us)
    (fun items => .array (earlier ++ items))

section
variable {ts us : List Token} (ih : ∀ vs, vs.length < us.length → TracksAt ts vs)
include ih

/-- The loop of a chain goes on while there are operators of its level. -/
theorem joined_tracks (level : Level) (left : Tree) :
    (Routine.joined level left).Tracks ts us (readJoined level left us) id := by
  refine .of_body fun depth c hc hneed => ?_
  unfold Routine.body readJoined
  dsimp only
  split
  · rename_i s rest
    split
    · rename_i join hjoin
      rw [Steps.bind_ok (Steps.accept_some hc hjoin)]
      dsimp only
      refine ((ih rest (Nat.lt_succ_self _)).operand level depth _ hc.seen.moved
        (Routine.need_of_fewer hneed (Nat.lt_succ_self _))).bind ?_
      intro right afterRight hRight after hafter
      have hfewer : afterRight.length < (Token.symbol s :: rest).length := Nat.lt_succ_of_lt hRight
      exact ((ih afterRight hfewer).joined level _ depth after hafter
        (Routine.need_of_fewer hneed hfewer)).last fun _ => rfl
    · rename_i hnone
      rw [Steps.bind_ok (Steps.accept_none hc fun s' rest' hus => ?_)]
      · exact ⟨rfl, hc.seen⟩
      · cases hus
        exact hnone
  · rename_i hsymbol
    rw [Steps.bind_ok (Steps.accept_none hc fun s' rest' hus => absurd hus (hsymbol s' rest'))]
    exact ⟨rfl, hc.seen⟩

/-- A value is read from its first token, and what is enclosed is read before it is closed. -/
theorem primary_tracks : Routine.primary.Tracks ts us (readPrimary us) id := by
  refine .of_body fun depth c hc hneed => ?_
  unfold Routine.body readPrimary
  dsimp only
  rw [Steps.bind_ok (Steps.advance_eq hc)]
  split
  · exact ⟨rfl, hc.seen.toInside.moved⟩
  · exact ⟨rfl, hc.seen.moved⟩
  · exact ⟨rfl, hc.seen.moved⟩
  · rename_i rest
    refine ((ih rest (Nat.lt_succ_self _)).ternary depth _ hc.seen.moved
      (Routine.need_of_fewer hneed (Nat.lt_succ_self _))).bind ?_
    intro tree afterTree hTree after hafter
    refine Follows.demand hafter fun remainder hRemainder last _ hlast => ?_
    exact ⟨rfl, hlast⟩
  · rename_i rest
    dsimp only [List.head?_cons]
    rw [Steps.bind_ok (Steps.accept_only hc.seen.moved)]
    exact ⟨rfl, hc.seen.moved.seen.moved⟩
  · rename_i rest hclose
    dsimp only [List.head?_cons]
    rw [Steps.bind_ok (Steps.accept_only_none hc.seen.moved fun others h => ?_)]
    · have hitems := (ih rest (Nat.lt_succ_self _)).items [] depth _ hc.seen.moved.seen
        (Routine.need_of_fewer hneed (Nat.lt_succ_self _))
      exact hitems.last fun _ => rfl
    · exact hclose others h
  · rename_i s rest hparen _ hbracket
    cases s with
    | openParen => exact (hparen rfl).elim
    | openBracket => exact (hbracket rfl).elim
    | _ => exact ⟨rfl, hc.seen.toInside.moved⟩

/-- The loop of properties goes on while there are dots and brackets. -/
theorem properties_tracks (object : Tree) :
    (Routine.properties object).Tracks ts us (readProperties object us) id := by
  refine .of_body fun depth c hc hneed => ?_
  unfold Routine.body readProperties
  dsimp only
  split
  · rename_i key rest
    rw [Steps.bind_ok (Steps.accept_only hc)]
    dsimp only
    rw [Steps.bind_ok (Steps.advance_eq hc.seen.moved)]
    have hfewer : rest.length < (Token.symbol .dot :: .name key :: rest).length :=
      Nat.lt_succ_of_lt (Nat.lt_succ_self _)
    exact ((ih rest hfewer).properties _ depth _ hc.seen.moved.seen.moved
      (Routine.need_of_fewer hneed hfewer)).last fun _ => rfl
  · rename_i rest hname
    rw [Steps.bind_ok (Steps.accept_only hc)]
    dsimp only
    rw [Steps.bind_ok (Steps.advance_eq hc.seen.moved)]
    have hinside := hc.seen.moved.seen.toInside.moved
    cases rest with
    | nil => exact ⟨rfl, hinside⟩
    | cons t others =>
      cases t with
      | name key => exact absurd rfl (hname key others)
      | literal _ => exact ⟨rfl, hinside⟩
      | symbol _ => exact ⟨rfl, hinside⟩
  · rename_i rest
    rw [Steps.bind_ok (Steps.accept_only_none hc (by simp))]
    dsimp only
    rw [Steps.bind_ok (Steps.accept_only hc.seen)]
    refine ((ih rest (Nat.lt_succ_self _)).ternary depth _ hc.seen.seen.moved
      (Routine.need_of_fewer hneed (Nat.lt_succ_self _))).bind ?_
    intro key afterKey hKey after hafter
    refine Follows.demand hafter fun afterClose hClose later _ hlater => ?_
    have hfewer : afterClose.length < (Token.symbol .openBracket :: rest).length :=
      Nat.lt_succ_of_lt (Nat.lt_trans hClose hKey)
    exact ((ih afterClose hfewer).properties _ depth later hlater
      (Routine.need_of_fewer hneed hfewer)).last fun _ => rfl
  · rename_i hdot hbracket
    rw [Steps.bind_ok (Steps.accept_only_none hc hdot)]
    dsimp only
    rw [Steps.bind_ok (Steps.accept_only_none hc.seen hbracket)]
    exact ⟨rfl, hc.seen.seen⟩

/-- A primary goes on with its properties. -/
theorem member_tracks : Routine.member.Tracks ts us (readMember us) id := by
  refine .of_body fun depth c hc hneed => ?_
  unfold Routine.body readMember
  dsimp only
  refine (primary_tracks ih depth c hc (Routine.need_of_lower hneed (by decide))).bind ?_
  intro object rest hRest after hafter
  exact ((ih rest hRest).properties object depth after hafter
    (Routine.need_of_fewer hneed hRest)).last fun _ => rfl

/-- A sign is passed before its operand; without one the routine goes further down. -/
theorem unary_tracks : Routine.unary.Tracks ts us (readUnary us) id := by
  refine .of_body fun depth c hc hneed => ?_
  have hmember : ∀ later : Cursor, later.Stands ts us →
      Follows ts (readMember us) id (perform ts depth .member later) := fun later hlater =>
    member_tracks ih depth later hlater (Routine.need_of_lower hneed (by decide))
  unfold Routine.body readUnary
  dsimp only
  split
  · rename_i s rest
    split
    · rename_i operator hoperator
      rw [Steps.bind_ok (Steps.accept_some hc hoperator)]
      refine ((ih rest (Nat.lt_succ_self _)).unary depth _ hc.seen.moved
        (Routine.need_of_fewer hneed (Nat.lt_succ_self _))).bind ?_
      intro operand remainder hRemainder after hafter
      exact ⟨rfl, hafter⟩
    · rename_i hnone
      rw [Steps.bind_ok (Steps.accept_none hc fun s' rest' hus => ?_)]
      · exact hmember _ hc.seen
      · cases hus
        exact hnone
  · rename_i hsymbol
    rw [Steps.bind_ok (Steps.accept_none hc fun s' rest' hus => absurd hus (hsymbol s' rest'))]
    exact hmember _ hc.seen

/-- A chain begins with an operand of its level. -/
theorem chain_tracks (level : Level)
    (hoperand : (Routine.operand level).Tracks ts us (readOperand level us) id)
    (hrank : (Routine.operand level).rank < (Routine.chain level).rank) :
    (Routine.chain level).Tracks ts us (readChain level us) id := by
  refine .of_body fun depth c hc hneed => ?_
  unfold Routine.body readChain
  dsimp only
  refine (hoperand depth c hc (Routine.need_of_lower hneed hrank)).bind ?_
  intro first rest hRest after hafter
  exact ((ih rest hRest).joined level first depth after hafter
    (Routine.need_of_fewer hneed hRest)).last fun _ => rfl

/-- The operands of every level, by induction on how many tighter levels there are. -/
theorem operand_tracks (level : Level) :
    (Routine.operand level).Tracks ts us (readOperand level us) id := by
  -- On the way down no token is passed, so the number of tokens does not decrease here.
  induction hheight : level.height using Nat.strongRecOn generalizing level with
  | ind height ihlevel =>
    unfold Routine.operand
    cases htighter : level.tighter? with
    | none =>
      rw [readOperand_eq_unary htighter]
      exact unary_tracks ih
    | some next =>
      have hlower : next.height < height := hheight ▸ Level.height_of_tighter? htighter
      rw [readOperand_eq_chain htighter]
      exact chain_tracks ih next (ihlevel next.height hlower next rfl)
        (Routine.rank_operand_lt next)

/-- A ternary is its test, or goes on with both choices. -/
theorem ternary_tracks : Routine.ternary.Tracks ts us (readTernary us) id := by
  refine .of_body fun depth c hc hneed => ?_
  unfold Routine.body readTernary
  dsimp only
  refine (chain_tracks ih .or (operand_tracks ih .or) (Routine.rank_operand_lt .or) depth c hc
    (Routine.need_of_lower hneed (by decide))).bind ?_
  intro test afterTest hTest after hafter
  dsimp only
  split
  · rename_i rest hTest
    have hRest : rest.length < us.length := Nat.lt_of_succ_lt hTest
    rw [Steps.bind_ok (Steps.accept_only hafter)]
    refine ((ih rest hRest).ternary depth _ hafter.seen.moved
      (Routine.need_of_fewer hneed hRest)).bind ?_
    intro held afterHeld hHeld inHeld hinHeld
    refine Follows.demand hinHeld fun afterColon hColon inColon _ hinColon => ?_
    have hfewer : afterColon.length < us.length := Nat.lt_trans hColon (Nat.lt_trans hHeld hRest)
    refine ((ih afterColon hfewer).ternary depth inColon hinColon
      (Routine.need_of_fewer hneed hfewer)).bind ?_
    intro otherwise remainder hRemainder last hlast
    exact ⟨rfl, hlast⟩
  · rename_i hother
    have hmissing : ∀ rest, afterTest ≠ .symbol .question :: rest := by
      rintro rest rfl
      exact hother rest hTest rfl HEq.rfl
    rw [Steps.bind_ok (Steps.accept_only_none hafter hmissing)]
    exact ⟨rfl, hafter.seen⟩

/-- An item is followed by others after a comma, or by the closing bracket. -/
theorem items_tracks (earlier : List Tree) : (Routine.items earlier).Tracks ts us (readItems us)
    (fun items => .array (earlier ++ items)) := by
  refine .of_body fun depth c hc hneed => ?_
  unfold Routine.body readItems
  dsimp only
  refine (ternary_tracks ih depth c hc (Routine.need_of_lower hneed (Nat.lt_succ_self 10))).bind ?_
  intro item afterItem hItem after hafter
  dsimp only
  split
  · rename_i rest hItem
    have hRest : rest.length < us.length := Nat.lt_of_succ_lt hItem
    rw [Steps.bind_ok (Steps.accept_only hafter)]
    have hothers := (ih rest hRest).items (earlier ++ [item]) depth _ hafter.seen.moved
      (Routine.need_of_fewer hneed hRest)
    exact hothers.last fun others => by rw [List.append_assoc, List.singleton_append]
  · rename_i hother
    have hmissing : ∀ rest, afterItem ≠ .symbol .comma :: rest := by
      rintro rest rfl
      exact hother rest hItem rfl HEq.rfl
    rw [Steps.bind_ok (Steps.accept_only_none hafter hmissing)]
    refine Follows.demand hafter.seen fun remainder hRemainder last _ hlast => ?_
    exact ⟨rfl, hlast⟩

end

/-- All routines track the readers on any tokens that are left over, by induction on how many these
are. -/
theorem tracksAt (ts us : List Token) : TracksAt ts us := by
  induction hlength : us.length using Nat.strongRecOn generalizing us with
  | ind n ih =>
    have ih : ∀ vs, vs.length < us.length → TracksAt ts vs :=
      fun vs hvs => ih vs.length (hlength ▸ hvs) vs rfl
    exact ⟨ternary_tracks ih, operand_tracks ih, joined_tracks ih, unary_tracks ih,
      properties_tracks ih, items_tracks ih⟩

/-- A depth that is enough for a whole list of tokens. -/
def enough (ts : List Token) : Nat := Routine.ternary.need ts.length

/-- Reading with a cursor always stops and never leaves the places. Whatever the tokens are, calls
that may be a dozen deep for each of them all end; only places are looked at, and a call that has
passed the mark of the end does not return. What comes of it is what the readers make of the
tokens: a tree, with the cursor at the mark of the end, or a fault of writing. -/
theorem parse_stays_inside (ts : List Token) (more : Nat) :
    (parse ts (enough ts + more) {}).2.Inside ts ∧
      match Tree.ofTokens ts with
      | .ok tree => (parse ts (enough ts + more) {}).1 = .ok tree ∧
          (parse ts (enough ts + more) {}).2.position = ts.length
      | .error fault => (parse ts (enough ts + more) {}).1 = .error (.fault fault) ∧
          fault.IsOfWriting := by
  have hstart := Cursor.stands_start ts
  unfold parse
  rw [Steps.bind_ok (Steps.look_eq hstart)]
  cases ts with
  | nil => exact ⟨hstart.seen.toInside, rfl, trivial⟩
  | cons first others =>
    have hfaults := (soundAt (first :: others)).ternary
    have htracks := (tracksAt (first :: others) (first :: others)).ternary
      (enough (first :: others) + more) _ hstart.seen (Nat.le_add_right _ _)
    rw [ofTokens_cons]
    dsimp only [List.head?_cons]
    cases hcall : perform (first :: others) (enough (first :: others) + more) .ternary
        (Cursor.seen {}) with
    | mk result after =>
      rw [hcall] at htracks
      cases hread : readTernary (first :: others) with
      | error fault =>
        rw [hread] at htracks hfaults
        obtain ⟨hresult, hinside⟩ := htracks
        cases hresult
        rw [Steps.bind_error hcall]
        exact ⟨hinside, rfl, hfaults⟩
      | ok read =>
        obtain ⟨tree, rest, hrest⟩ := read
        rw [hread] at htracks
        obtain ⟨hresult, hstands⟩ := htracks
        cases hresult
        rw [Steps.bind_ok hcall, Steps.bind_ok (Steps.look_eq hstands)]
        cases rest with
        | nil => exact ⟨hstands.seen.toInside, rfl, hstands.position_of_nil⟩
        | cons t later =>
          dsimp only [List.head?_cons]
          rw [Steps.bind_ok (Steps.look_eq hstands.seen)]
          exact ⟨hstands.seen.seen.toInside, rfl, trivial⟩

/-- An expression that is cut off after a dot: the mark of the end is passed, but not looked
behind. -/
example : (parse [.name "a", .symbol .dot] 40 {}).2.position = 3 ∧
    (parse [.name "a", .symbol .dot] 40 {}).2.looks = [2, 1, 0, 0, 0] := by decide

end StepGraph.Expression
