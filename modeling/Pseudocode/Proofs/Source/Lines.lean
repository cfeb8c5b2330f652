import Pseudocode.Proofs.Scanning.Tiling

/-!
# Lines and rows of carets

The lines of a text, each with the offset of its first character, and rows of carets under them.  A
row marks the part of a line that belongs to a stretch of the text, and a stretch is shown by its
lines, each followed by such a row.
-/

namespace Pseudocode
namespace Underline

/-! ## Lines -/

/-- A line of a text. -/
structure Line where
  /-- The number of characters of the text before it. -/
  offset : Nat
  /-- Its characters, without the line end. -/
  chars : List Char

/-- The lines of a text, the first of them at an offset. -/
def linesFrom (offset : Nat) : List Char → List Line
  | [] => [⟨offset, []⟩]
  | c :: rest =>
      if c = '\n' then ⟨offset, []⟩ :: linesFrom (offset + 1) rest
      else
        match linesFrom (offset + 1) rest with
        | [] => []
        | line :: others => ⟨offset, c :: line.chars⟩ :: others

theorem linesFrom_inLine {line : List Char} (inLine : '\n' ∉ line) (offset : Nat) :
    linesFrom offset line = [⟨offset, line⟩] := by
  induction line generalizing offset with
  | nil => rfl
  | cons c rest ih =>
      rw [List.mem_cons, not_or] at inLine
      rw [linesFrom, if_neg (Ne.symm inLine.1), ih inLine.2]

theorem linesFrom_append {line : List Char} (inLine : '\n' ∉ line) (rest : List Char)
    (offset : Nat) : linesFrom offset (line ++ '\n' :: rest) =
      ⟨offset, line⟩ :: linesFrom (offset + line.length + 1) rest := by
  induction line generalizing offset with
  | nil => rfl
  | cons c line ih =>
      rw [List.mem_cons, not_or] at inLine
      rw [List.cons_append, linesFrom, if_neg (Ne.symm inLine.1), ih inLine.2,
        List.length_cons, Nat.add_right_comm offset 1, Nat.add_assoc offset line.length 1]

/-- A text is its first line, or its first line, a line end and more lines. -/
theorem exists_firstLine (text : List Char) :
    ∃ line, '\n' ∉ line ∧ (text = line ∨ ∃ rest, text = line ++ '\n' :: rest) := by
  by_cases more : '\n' ∈ text
  · obtain ⟨line, rest, parts, inLine⟩ := List.eq_append_cons_of_mem more
    exact ⟨line, inLine, .inr ⟨rest, parts⟩⟩
  · exact ⟨text, more, .inl rfl⟩

/-- The lines behind a line end.  The induction is on the lines above it. -/
theorem drop_linesFrom {above : List Char} (ends : above = [] ∨ above.getLast? = some '\n')
    (tail : List Char) (offset : Nat) :
    (linesFrom offset (above ++ tail)).drop (above.count '\n') =
      linesFrom (offset + above.length) tail := by
  obtain rfl | last := ends
  · rfl
  obtain ⟨line, rest, rfl, inLine⟩ := List.eq_append_cons_of_mem (List.mem_of_getLast? last)
  have ends : rest = [] ∨ rest.getLast? = some '\n' := by
    cases rest with
    | nil => exact .inl rfl
    | cons c rest => simpa using last
  have ih := drop_linesFrom ends tail (offset + line.length + 1)
  rw [List.append_assoc, List.cons_append, linesFrom_append inLine, List.count_append,
    List.count_eq_zero.mpr inLine, List.count_cons_self, Nat.zero_add, List.drop_succ_cons,
    ih, List.length_append, List.length_cons]
  congr 1
  omega
termination_by above.length

/-- Lines of which each starts behind the line end of the one before. -/
def Chained : List Line → Prop
  | line :: next :: rest =>
      next.offset = line.offset + line.chars.length + 1 ∧ Chained (next :: rest)
  | _ => True

theorem exists_linesFrom (offset : Nat) (text : List Char) :
    ∃ line rest, linesFrom offset text = line :: rest ∧ line.offset = offset := by
  obtain ⟨line, inLine, rfl | ⟨rest, rfl⟩⟩ := exists_firstLine text
  · exact ⟨_, _, linesFrom_inLine inLine offset, rfl⟩
  · exact ⟨_, _, linesFrom_append inLine rest offset, rfl⟩

theorem chained_linesFrom (offset : Nat) (text : List Char) : Chained (linesFrom offset text) := by
  obtain ⟨line, inLine, rfl | ⟨rest, rfl⟩⟩ := exists_firstLine text
  · rw [linesFrom_inLine inLine]
    trivial
  · have ih := chained_linesFrom (offset + line.length + 1) rest
    obtain ⟨next, others, same, start⟩ := exists_linesFrom (offset + line.length + 1) rest
    rw [same] at ih
    rw [linesFrom_append inLine, same]
    exact ⟨start, ih⟩
termination_by text.length

theorem length_linesFrom (offset : Nat) (text : List Char) :
    (linesFrom offset text).length = text.count '\n' + 1 := by
  induction text generalizing offset with
  | nil => rfl
  | cons c rest ih =>
      have length := ih (offset + 1)
      rw [linesFrom]
      split
      · next lineEnd => rw [lineEnd, List.length_cons, length, List.count_cons_self]
      · next other =>
          rw [List.count_cons_of_ne other]
          obtain ⟨line, others, same, -⟩ := exists_linesFrom (offset + 1) rest
          rw [same] at length ⊢
          exact length

theorem inLine_of_mem_linesFrom {offset : Nat} {text : List Char} {line : Line}
    (member : line ∈ linesFrom offset text) : '\n' ∉ line.chars := by
  induction text generalizing offset line with
  | nil =>
      cases List.mem_singleton.mp member
      exact List.not_mem_nil
  | cons c rest ih =>
      rw [linesFrom] at member
      split at member
      · rcases List.mem_cons.mp member with rfl | member
        · exact List.not_mem_nil
        · exact ih member
      · next other =>
          obtain ⟨head, others, same, -⟩ := exists_linesFrom (offset + 1) rest
          rw [same] at member
          rcases List.mem_cons.mp member with rfl | member
          · have first : head ∈ linesFrom (offset + 1) rest := same ▸ List.mem_cons_self
            simp [ih first, Ne.symm other]
          · have later : line ∈ linesFrom (offset + 1) rest := same ▸ List.mem_cons_of_mem _ member
            exact ih later

/-- All lines are empty exactly if there are only line ends. -/
theorem forall_nil_iff (offset : Nat) (text : List Char) :
    (∀ line ∈ linesFrom offset text, line.chars = []) ↔ ∀ c ∈ text, c = '\n' := by
  induction text generalizing offset with
  | nil => simp [linesFrom]
  | cons c rest ih =>
      rw [linesFrom, List.forall_mem_cons]
      split
      · next lineEnd => simp [lineEnd, ih (offset + 1)]
      · next other =>
          obtain ⟨head, others, same, -⟩ := exists_linesFrom (offset + 1) rest
          rw [same]
          simp [other]

/-- The line that a place tells, with the lines behind it.  The place is not beyond its end. -/
theorem exists_lineOf {text : List Char} {p : Position} (agrees : p.Agrees text)
    (inside : p.index ≤ text.length) :
    ∃ line rest, (linesFrom 0 text).drop p.line = line :: rest ∧ Chained (line :: rest) ∧
      line.offset + p.column = p.index ∧ p.column ≤ line.chars.length := by
  obtain ⟨number, above, inLine, parts, ends, noLine, column⟩ := agrees
  have length := congrArg List.length parts
  rw [List.length_take, List.length_append] at length
  have lines := drop_linesFrom ends (inLine ++ text.drop p.index) 0
  rw [← List.append_assoc, ← parts, List.take_append_drop] at lines
  rw [parts, List.count_append, List.count_eq_zero.mpr noLine, Nat.add_zero] at number
  obtain ⟨more, noMore, rest⟩ := exists_firstLine (text.drop p.index)
  have whole : '\n' ∉ inLine ++ more := by simp [noLine, noMore]
  obtain ⟨others, first⟩ : ∃ others, linesFrom (0 + above.length) (inLine ++ text.drop p.index) =
      ⟨0 + above.length, inLine ++ more⟩ :: others := by
    obtain same | ⟨rest, same⟩ := rest
    · exact ⟨[], by rw [same, linesFrom_inLine whole]⟩
    · exact ⟨_, by rw [same, ← List.append_assoc, linesFrom_append whole]⟩
  have chained := chained_linesFrom (0 + above.length) (inLine ++ text.drop p.index)
  rw [first] at lines chained
  refine ⟨_, _, number ▸ lines, chained, ?_, ?_⟩
  · simp only
    omega
  · simp only [List.length_append]
    omega

/-! ## Rows of carets -/

/-- A row with carets exactly under the characters of a line from one offset on and before another
one, and with nothing but spaces before them. -/
structure Marks (first stop : Nat) (line : Line) (row : List Char) : Prop where
  shape : ∃ spaces carets, row = List.replicate spaces ' ' ++ List.replicate carets '^'
  carets : ∀ column, row[column]? = some '^' ↔
    column < line.chars.length ∧ first ≤ line.offset + column ∧ line.offset + column < stop

theorem getElem?_row (spaces carets column : Nat) :
    (List.replicate spaces ' ' ++ List.replicate carets '^')[column]? = some '^' ↔
      spaces ≤ column ∧ column < spaces + carets := by
  rw [List.getElem?_append, List.length_replicate, List.getElem?_replicate,
    List.getElem?_replicate]
  split
  · constructor
    · intro same
      cases same
    · omega
  · split
    · exact iff_of_true rfl (by omega)
    · constructor
      · intro same
        cases same
      · omega

theorem marks_replicate {first stop spaces carets : Nat} {line : Line}
    (under : ∀ column, spaces ≤ column ∧ column < spaces + carets ↔
      column < line.chars.length ∧ first ≤ line.offset + column ∧ line.offset + column < stop) :
    Marks first stop line (List.replicate spaces ' ' ++ List.replicate carets '^') :=
  ⟨⟨spaces, carets, rfl⟩, fun column => (getElem?_row spaces carets column).trans (under column)⟩

theorem Marks.inLine {first stop : Nat} {line : Line} {row : List Char}
    (marks : Marks first stop line row) : '\n' ∉ row := by
  obtain ⟨spaces, carets, rfl⟩ := marks.shape
  simp [List.mem_replicate]

/-- Lines, each followed by a row that marks a stretch in it. -/
inductive Shows (first stop : Nat) : List Line → List Char → Prop where
  | last {line : Line} {row : List Char} (marks : Marks first stop line row) :
      Shows first stop [line] (line.chars ++ '\n' :: row)
  | more {line : Line} {row : List Char} {lines : List Line} {output : List Char}
      (marks : Marks first stop line row) (rest : Shows first stop lines output) :
      Shows first stop (line :: lines) (line.chars ++ '\n' :: (row ++ '\n' :: output))

theorem Shows.exists_row {first stop : Nat} {line : Line} {lines : List Line} {output : List Char}
    (shows : Shows first stop (line :: lines) output) :
    ∃ row, Marks first stop line row ∧
      ((lines = [] ∧ output = line.chars ++ '\n' :: row) ∨
        ∃ more, Shows first stop lines more ∧
          output = line.chars ++ '\n' :: (row ++ '\n' :: more)) := by
  cases shows with
  | last marks => exact ⟨_, marks, .inl ⟨rfl, rfl⟩⟩
  | more marks rest => exact ⟨_, marks, .inr ⟨_, rest, rfl⟩⟩

theorem Shows.exists_head {first stop : Nat} {line : Line} {lines : List Line}
    {output : List Char} (shows : Shows first stop (line :: lines) output) :
    ∃ more, output = line.chars ++ '\n' :: more := by
  obtain ⟨row, -, ⟨-, same⟩ | ⟨more, -, same⟩⟩ := shows.exists_row
  · exact ⟨_, same⟩
  · exact ⟨_, same⟩

theorem Shows.ne_nil {first stop : Nat} {lines : List Line} {output : List Char}
    (shows : Shows first stop lines output) : lines ≠ [] := by
  rintro rfl
  cases shows

end Underline
end Pseudocode
