import Mathlib.Data.List.TakeWhile
import StepGraph.Proofs.Mentions

/-!
# Filling in a template is one substitution from the left

A template is read from the left into pieces. Where it opens with a placeholder, the placeholder
is the next piece, and reading goes on after its closing brace; everywhere else the next piece is
one character. This cuts the template in one way only, and the context has no part in it. So
filling in a template puts the text of a value in the place of each placeholder and leaves the
other characters as they are, and no text of a value is ever read for placeholders. A template
that is one placeholder stands for the value itself, whose text is what the substitution gives.
-/

namespace StepGraph.Template

/-- A text opens with a placeholder around a run, with some text after it: the run is not empty
and has no closing brace in it. -/
def Opens (cs run rest : List Char) : Prop :=
  run ≠ [] ∧ '\x7d' ∉ run ∧ cs = '$' :: '\x7b' :: (run ++ '\x7d' :: rest)

section
variable {cs run rest : List Char}

/-- A run of other characters ends at the first closing brace. -/
theorem span_run (hrun : '\x7d' ∉ run) :
    (run ++ '\x7d' :: rest).takeWhile (· != '\x7d') = run ∧
      (run ++ '\x7d' :: rest).dropWhile (· != '\x7d') = '\x7d' :: rest := by
  have hother : ∀ c ∈ run, (c != '\x7d') = true := by
    intro c hc
    rw [bne_iff_ne]
    rintro rfl
    exact hrun hc
  rw [List.takeWhile_append_of_pos hother, List.dropWhile_append_of_pos hother]
  simp

/-- The placeholder that a text opens with is found. -/
theorem Opens.placeholder? (h : Opens cs run rest) : placeholder? cs = some (run, rest) := by
  obtain ⟨hnonempty, hrun, rfl⟩ := h
  simp [Template.placeholder?, (span_run hrun).1, (span_run hrun).2, hnonempty]

/-- A text opens with the placeholder that is found. -/
theorem opens_of_placeholder? (h : placeholder? cs = some (run, rest)) : Opens cs run rest := by
  unfold placeholder? at h
  split at h
  · rename_i tail
    split at h
    · cases h
    · rename_i last after hafter
      have hlast : last = '\x7d' := by
        have hstop := List.head_dropWhile_not (· != '\x7d') (l := tail) (by simp [hafter])
        simpa [hafter] using hstop
      subst hlast
      dsimp only at h
      split at h
      · cases h
      · rename_i hnonempty
        cases h
        refine ⟨by simpa using hnonempty, fun hmem => ?_, ?_⟩
        · simpa using List.mem_takeWhile_imp hmem
        · rw [← hafter, List.takeWhile_append_dropWhile]
  · cases h

/-- None is found where the text opens with none. -/
theorem placeholder?_eq_none (h : ∀ run rest, ¬ Opens cs run rest) : placeholder? cs = none := by
  cases hfound : placeholder? cs with
  | none => rfl
  | some found => exact absurd (opens_of_placeholder? hfound) (h found.1 found.2)

end

/-- A piece of a template: a character that stays, or a placeholder around a run. -/
inductive Piece where
  | plain (c : Char)
  | placeholder (run : List Char)
  deriving DecidableEq, Repr

namespace Piece

/-- The characters of a piece in the template. -/
def source : Piece → List Char
  | plain c => [c]
  | placeholder run => '$' :: '\x7b' :: (run ++ ['\x7d'])

/-- What stands in the place of a piece. -/
def fill (replacement : List Char → List Char) : Piece → List Char
  | plain c => [c]
  | placeholder run => replacement run

/-- What stands in the place of a piece in a context: for a placeholder, the text of the value at
its path. -/
def text (ctx : Context) : Piece → List Char :=
  fill fun run => (ctx.resolve (pathOf run)).templateText.toList

end Piece

/-- A text read from the left into pieces. A placeholder comes before a character wherever the
text opens with one. -/
inductive Scans : List Char → List Piece → Prop where
  | nil : Scans [] []
  | placeholder {cs run rest : List Char} {pieces : List Piece} (hopens : Opens cs run rest)
      (hrest : Scans rest pieces) : Scans cs (.placeholder run :: pieces)
  | plain {c : Char} {rest : List Char} {pieces : List Piece}
      (hnone : ∀ run after, ¬ Opens (c :: rest) run after) (hrest : Scans rest pieces) :
      Scans (c :: rest) (.plain c :: pieces)

/-- Every text can be read into pieces. -/
theorem exists_scans (cs : List Char) : ∃ pieces, Scans cs pieces := by
  induction cs using runs.induct with
  | case1 cs run rest hplace _ ih =>
    obtain ⟨pieces, hpieces⟩ := ih
    exact ⟨_, .placeholder (opens_of_placeholder? hplace) hpieces⟩
  | case2 => exact ⟨[], .nil⟩
  | case3 c rest hplace ih =>
    obtain ⟨pieces, hpieces⟩ := ih
    refine ⟨_, .plain (fun run after hopens => ?_) hpieces⟩
    rw [hopens.placeholder?] at hplace
    cases hplace

namespace Scans

variable {cs : List Char} {pieces others : List Piece}

/-- It can be read in one way only. -/
theorem unique (h : Scans cs pieces) (h' : Scans cs others) : pieces = others := by
  induction h generalizing others with
  | nil =>
    cases h' with
    | nil => rfl
    | placeholder hopens _ => cases hopens.2.2
  | placeholder hopens hrest ih =>
    cases h' with
    | nil => cases hopens.2.2
    | placeholder hopens' hrest' =>
      have hsame := hopens.placeholder?.symm.trans hopens'.placeholder?
      cases hsame
      rw [ih hrest']
    | plain hnone _ => exact absurd hopens (hnone _ _)
  | plain hnone hrest ih =>
    cases h' with
    | placeholder hopens _ => exact absurd hopens (hnone _ _)
    | plain _ hrest' => rw [ih hrest']

/-- The pieces make up the text. -/
theorem flatMap_source (h : Scans cs pieces) : pieces.flatMap Piece.source = cs := by
  induction h with
  | nil => rfl
  | placeholder hopens _ ih => rw [List.flatMap_cons, ih, hopens.2.2]; simp [Piece.source]
  | plain _ _ ih => rw [List.flatMap_cons, ih]; rfl

/-- Replacing the placeholders from the left fills in every piece. -/
theorem substitute_eq (h : Scans cs pieces) (replacement : List Char → List Char) :
    substitute replacement cs = pieces.flatMap (Piece.fill replacement) := by
  induction h with
  | nil =>
    rw [substitute]
    rfl
  | placeholder hopens _ ih =>
    rw [substitute_of_placeholder _ hopens.placeholder?, ih]
    rfl
  | plain hnone _ ih =>
    rw [substitute_cons _ (placeholder?_eq_none hnone), ih]
    rfl

/-- The runs of a text are those of its placeholders. -/
theorem mem_runs_iff (h : Scans cs pieces) {run : List Char} :
    run ∈ runs cs ↔ .placeholder run ∈ pieces := by
  induction h with
  | nil =>
    rw [runs]
    simp [placeholder?]
  | placeholder hopens _ ih =>
    rw [runs_of_placeholder hopens.placeholder?, List.mem_cons, ih]
    simp
  | plain hnone _ ih =>
    rw [runs_cons (placeholder?_eq_none hnone), ih]
    simp

/-- Any other text has none. -/
theorem wholePath?_eq_none (h : Scans cs pieces) (hmany : ∀ run, pieces ≠ [.placeholder run]) :
    wholePath? cs = none := by
  cases h with
  | nil => rfl
  | @placeholder _ run rest pieces hopens hrest =>
    rw [wholePath?, hopens.placeholder?]
    cases rest with
    | nil =>
      have hpieces : pieces = [] := hrest.unique .nil
      rw [hpieces] at hmany
      exact absurd rfl (hmany run)
    | cons => rfl
  | plain hnone _ => rw [wholePath?, placeholder?_eq_none hnone]

end Scans

/-- What the pieces of a template are replaced by in a context, put together. -/
def filled (ctx : Context) (pieces : List Piece) : String :=
  String.ofList (pieces.flatMap (Piece.text ctx))

/-- Any other template stands for a text. -/
theorem interpolate_many {template : String} {pieces : List Piece}
    (h : Scans template.toList pieces) (hmany : ∀ run, pieces ≠ [.placeholder run])
    (ctx : Context) : interpolate template ctx = .text (filled ctx pieces) := by
  unfold interpolate
  dsimp only
  rw [h.wholePath?_eq_none hmany, h.substitute_eq]
  rfl

/-- A text that is put in is not read again, and braces around nothing are no placeholder. -/
example : interpolate "$\x7b\x7d<$\x7bvars.a\x7d>"
    { vars := [("a", .text "$\x7bvars.b\x7d"), ("b", .text "other")] } =
      .text "$\x7b\x7d<$\x7bvars.b\x7d>" := by cbv

end StepGraph.Template
