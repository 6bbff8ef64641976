import Mathlib.Data.List.Basic
set_option autoImplicit false

/-!
# Outlines

Trees of texts, written one text to a line, each level two columns further in than the one
above it.  The lines are read back by how far in they stand, and nothing else: `readAll`
undoes `writeAll` for texts that have no line break and do not begin with a space.
-/

namespace RpcSpec.Foundation

/-- A text and what stands under it. -/
inductive Outline where
  | node (text : List Char) (under : List Outline)

namespace Outline

/-- The text of the first line. -/
def text : Outline → List Char
  | .node text _ => text

/-- What stands under the first line. -/
def under : Outline → List Outline
  | .node _ under => under

/-! ## Writing -/

/-- What a line begins with that stands `level` steps in. -/
def margin (level : Nat) : List Char := List.replicate (2 * level) ' '

mutual

/-- The lines of an outline, from `level` steps in. -/
def write (level : Nat) : Outline → List Char
  | .node text under => margin level ++ text ++ '\n' :: writeAll (level + 1) under

/-- Outlines one below the other. -/
def writeAll (level : Nat) : List Outline → List Char
  | [] => []
  | outline :: rest => outline.write level ++ writeAll level rest

end

/-- Writing a joined list is writing its parts in order. -/
theorem writeAll_append (level : Nat) (outlines outlines' : List Outline) :
    writeAll level (outlines ++ outlines') =
      writeAll level outlines ++ writeAll level outlines' := by
  induction outlines with
  | nil => rfl
  | cons outline rest ih => simp only [List.cons_append, writeAll, ih, List.append_assoc]

/-! ## Reading -/

/-- How far in the line stands, and its text. -/
def lineOf (line : List Char) : Nat × List Char :=
  ((line.takeWhile (· == ' ')).length / 2, line.dropWhile (· == ' '))

/-- The written text, line by line. -/
def readLines (written : List Char) : List (Nat × List Char) :=
  (written.splitOn '\n').dropLast.map lineOf

/-- Of what has been read behind a line, that which stands further in is under it. -/
def attach (line : Nat × List Char) (behind : List (Nat × Outline)) : List (Nat × Outline) :=
  (line.1, .node line.2 ((behind.takeWhile (line.1 < ·.1)).map Prod.snd)) ::
    behind.dropWhile (line.1 < ·.1)

/-- The outlines read back, from the last line to the first. -/
def readAll (written : List Char) : List Outline :=
  ((readLines written).foldr attach []).map Prod.snd

/-! ## Reading what has been written -/

/-- A text that stands on one line and whose beginning can be told. -/
structure IsLine (text : List Char) : Prop where
  unbroken : '\n' ∉ text
  flush : text.head? ≠ some ' '

theorem isLine_iff {text : List Char} : IsLine text ↔ '\n' ∉ text ∧ text.head? ≠ some ' ' :=
  ⟨fun h => ⟨h.unbroken, h.flush⟩, fun h => ⟨h.1, h.2⟩⟩

mutual

/-- Every line of the outline can be told from its neighbours. -/
def Plain : Outline → Prop
  | .node text under => IsLine text ∧ AllPlain under

/-- The same of outlines one below the other. -/
def AllPlain : List Outline → Prop
  | [] => True
  | outline :: rest => outline.Plain ∧ AllPlain rest

end

mutual

/-- The lines of an outline: how far in each stands, and its text. -/
def lines (level : Nat) : Outline → List (Nat × List Char)
  | .node text under => (level, text) :: linesAll (level + 1) under

/-- The lines of outlines one below the other. -/
def linesAll (level : Nat) : List Outline → List (Nat × List Char)
  | [] => []
  | outline :: rest => outline.lines level ++ linesAll level rest

end

/-- A plain line is read as it was written. -/
theorem lineOf_margin {text : List Char} (h : IsLine text) (level : Nat) :
    lineOf (margin level ++ text) = (level, text) := by
  have hmargin : ∀ c ∈ margin level, (c == ' ') = true := fun c hc =>
    beq_iff_eq.mpr (List.eq_of_mem_replicate hc)
  have htext : text.takeWhile (· == ' ') = [] ∧ text.dropWhile (· == ' ') = text := by
    cases text with
    | nil => exact ⟨rfl, rfl⟩
    | cons c rest =>
        have hc : (c == ' ') = false := beq_eq_false_iff_ne.mpr fun heq => h.flush (heq ▸ rfl)
        exact ⟨List.takeWhile_cons_of_neg (by simp [hc]), List.dropWhile_cons_of_neg (by simp [hc])⟩
  rw [lineOf, List.takeWhile_append_of_pos hmargin, List.dropWhile_append_of_pos hmargin,
    htext.1, htext.2, List.append_nil, margin, List.length_replicate, Nat.mul_div_cancel_left _
    (by decide)]

/-- A plain line is the first line read. -/
theorem readLines_cons {text : List Char} (h : IsLine text) (level : Nat) (rest : List Char) :
    readLines (margin level ++ text ++ '\n' :: rest) = (level, text) :: readLines rest := by
  have hunbroken : ∀ c ∈ margin level ++ text, (c == '\n') = false := by
    intro c hc
    rcases List.mem_append.mp hc with hc | hc
    · rw [List.eq_of_mem_replicate hc]
      rfl
    · exact beq_eq_false_iff_ne.mpr fun heq => h.unbroken (heq ▸ hc)
  have hne : rest.splitOn '\n' ≠ [] := by
    rw [List.splitOn_eq_splitOnP]
    exact List.splitOnP_ne_nil _ rest
  have hsplit : (margin level ++ text ++ '\n' :: rest).splitOn '\n' =
      (margin level ++ text) :: rest.splitOn '\n' := by
    rw [List.splitOn_eq_splitOnP, List.splitOn_eq_splitOnP]
    exact List.splitOnP_append_cons_of_forall_mem hunbroken '\n' rfl rest
  rw [readLines, hsplit, List.dropLast_cons_of_ne_nil hne, List.map_cons, lineOf_margin h]
  rfl

mutual

/-- The lines of an outline are read as they were written. -/
theorem readLines_write (level : Nat) (rest : List Char) : ∀ outline : Outline, outline.Plain →
    readLines (outline.write level ++ rest) = outline.lines level ++ readLines rest
  | .node text under, h => by
      rw [Plain] at h
      rw [write, lines, List.append_assoc, List.cons_append, readLines_cons h.1,
        readLines_writeAll (level + 1) rest under h.2, List.cons_append]

theorem readLines_writeAll (level : Nat) (rest : List Char) :
    ∀ outlines : List Outline, AllPlain outlines →
      readLines (writeAll level outlines ++ rest) = linesAll level outlines ++ readLines rest
  | [], _ => rfl
  | outline :: others, h => by
      rw [AllPlain] at h
      rw [writeAll, linesAll, List.append_assoc, readLines_write level _ outline h.1,
        readLines_writeAll level rest others h.2, List.append_assoc]

end

/-- What stands next does not stand further in. -/
def Ends (level : Nat) (behind : List (Nat × Outline)) : Prop :=
  ∀ next ∈ behind.head?, next.1 ≤ level

theorem Ends.succ {level : Nat} {behind : List (Nat × Outline)} (h : Ends level behind) :
    Ends (level + 1) behind := fun next hnext => Nat.le_succ_of_le (h next hnext)

/-- A line takes everything that stands further in. -/
theorem attach_append {level : Nat} {text : List Char} (under : List Outline)
    {behind : List (Nat × Outline)} (h : Ends level behind) :
    attach (level, text) (under.map (Prod.mk (level + 1)) ++ behind) =
      (level, .node text under) :: behind := by
  have hunder : ∀ e ∈ under.map (Prod.mk (level + 1)), decide (level < e.1) = true := by
    intro e he
    obtain ⟨outline, -, rfl⟩ := List.mem_map.mp he
    exact decide_eq_true (Nat.lt_succ_self level)
  have hbehind : behind.takeWhile (fun e => decide (level < e.1)) = [] ∧
      behind.dropWhile (fun e => decide (level < e.1)) = behind := by
    cases behind with
    | nil => exact ⟨rfl, rfl⟩
    | cons next rest =>
        have hnext : ¬ level < next.1 := Nat.not_lt.mpr (h next rfl)
        exact ⟨List.takeWhile_cons_of_neg (by simpa using hnext),
          List.dropWhile_cons_of_neg (by simpa using hnext)⟩
  rw [attach, List.takeWhile_append_of_pos hunder, List.dropWhile_append_of_pos hunder, hbehind.1,
    hbehind.2, List.append_nil, List.map_map]
  simp [Function.comp_def]

mutual

/-- The lines of an outline are put together to that outline. -/
theorem foldr_lines {level : Nat} {behind : List (Nat × Outline)} (h : Ends level behind) :
    ∀ outline : Outline, (outline.lines level).foldr attach behind = (level, outline) :: behind
  | .node text under => by
      rw [lines, List.foldr_cons, foldr_linesAll h.succ under, attach_append under h]

theorem foldr_linesAll {level : Nat} {behind : List (Nat × Outline)} (h : Ends level behind) :
    ∀ outlines : List Outline,
      (linesAll level outlines).foldr attach behind = outlines.map (Prod.mk level) ++ behind
  | [] => rfl
  | outline :: rest => by
      have hrest : Ends level (rest.map (Prod.mk level) ++ behind) := by
        cases rest with
        | nil => exact h
        | cons next _ =>
            rintro _ ⟨rfl⟩
            exact Nat.le_refl _
      rw [linesAll, List.foldr_append, foldr_linesAll h rest, foldr_lines hrest outline,
        List.map_cons, List.cons_append]

end

/-- Outlines are read back as they have been written. -/
theorem readAll_writeAll {outlines : List Outline} (h : AllPlain outlines) :
    readAll (writeAll 0 outlines) = outlines := by
  have hlines : readLines (writeAll 0 outlines) = linesAll 0 outlines := by
    rw [← List.append_nil (writeAll 0 outlines), readLines_writeAll 0 [] outlines h]
    exact List.append_nil _
  rw [readAll, hlines, foldr_linesAll (by simp [Ends]) outlines, List.append_nil, List.map_map]
  simp [Function.comp_def]

end Outline

end RpcSpec.Foundation
