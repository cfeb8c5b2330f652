import Pseudocode.Proofs.Source.Lines
import Pseudocode.Source.Underline

/-!
# Carets under a stretch of text

The lines of a stretch are cut out one after the other, each together with the line end before it.
So they are shown with carets exactly under the stretch, whatever its lines are, with one exception:
the first line of a text has no line end before it.  A stretch that goes from there to a later line
lacks a caret at the end of the first line.
-/

namespace Pseudocode
namespace Underline

/-! ## What is written -/

/-- What is written of the lines behind a line end.  Where there are no lines any more, only the
carets are left. -/
def blocks (stop : Int) : Nat → Int → List Line → List Char
  | 0, _, _ => []
  | count + 1, column, [] =>
      '\n' :: (repeated ' ' column ++ repeated '^' ((if count = 0 then stop else -1) - column) ++
        blocks stop count 0 [])
  | count + 1, column, line :: rest =>
      '\n' :: (line.chars ++ '\n' :: (repeated ' ' column ++
        repeated '^' ((if count = 0 then stop else line.chars.length) - column) ++
        blocks stop count 0 rest))

theorem findIdx?_inLine {line : List Char} (inLine : '\n' ∉ line) :
    line.findIdx? (· = '\n') = none := by
  rw [List.findIdx?_eq_none_iff]
  intro c member
  rw [decide_eq_false_iff_not]
  rintro rfl
  exact inLine member

theorem findIdx?_append {line : List Char} (inLine : '\n' ∉ line) (rest : List Char) :
    (line ++ '\n' :: rest).findIdx? (· = '\n') = some line.length := by
  rw [List.findIdx?_append, findIdx?_inLine inLine, List.findIdx?_cons, if_pos (by decide)]
  exact congrArg some (Nat.zero_add _)

/-- What is before the first line end, and what is behind it. -/
theorem append_lineEnd_inj {a b x y : List Char} (inLine : '\n' ∉ a) (inLine' : '\n' ∉ b)
    (same : a ++ '\n' :: x = b ++ '\n' :: y) : a = b ∧ x = y := by
  have found := findIdx?_append inLine x
  rw [same, findIdx?_append inLine' y] at found
  obtain ⟨equal, rest⟩ := List.append_inj same (Option.some.inj found).symm
  exact ⟨equal, List.tail_eq_of_cons_eq rest⟩

theorem lineEndFrom_append {line : List Char} (inLine : '\n' ∉ line) (before rest : List Char) :
    lineEndFrom (before ++ (line ++ '\n' :: rest)) before.length =
      before.length + line.length := by
  rw [lineEndFrom, List.drop_left, findIdx?_append inLine]

theorem lineEndFrom_inLine {line : List Char} (inLine : '\n' ∉ line) (before : List Char) :
    lineEndFrom (before ++ line) before.length = (before ++ line).length := by
  rw [lineEndFrom, List.drop_left, findIdx?_inLine inLine]

theorem lineEndFrom_beyond (text : List Char) :
    lineEndFrom text (text.length + 1) = text.length := by
  rw [lineEndFrom, List.drop_eq_nil_of_le (Nat.le_succ _)]
  rfl

theorem lines_beyond (text : List Char) (stop : Int) (count : Nat) (column : Int) :
    lines text stop count column text.length text.length = blocks stop count column [] := by
  induction count generalizing column with
  | zero => rfl
  | succ count ih =>
      rw [lines, blocks, lineEndFrom_beyond, ih, List.take_length, List.drop_length]
      rfl

/-- One step: a line is cut out together with the line end before it. -/
theorem lines_step {text line : List Char} {first last : Nat}
    (cut : (text.take last).drop first = '\n' :: line) (stop : Int) (count : Nat) (column : Int) :
    lines text stop (count + 1) column first last =
      '\n' :: (line ++ '\n' :: (repeated ' ' column ++
        repeated '^' ((if count = 0 then stop else line.length) - column) ++
        lines text stop count 0 last (lineEndFrom text (last + 1)))) := by
  have width : (('\n' :: line).length : Int) - 1 = line.length := by
    rw [List.length_cons]
    omega
  rw [lines, cut, width]
  simp only [List.cons_append, List.append_assoc]

/-- Every run: the lines behind a line end are written one after the other. -/
theorem lines_eq_blocks (before tail : List Char) (offset : Nat) (stop : Int) (count : Nat)
    (column : Int) :
    lines (before ++ '\n' :: tail) stop count column before.length
        (lineEndFrom (before ++ '\n' :: tail) (before.length + 1)) =
      blocks stop count column (linesFrom offset tail) := by
  induction count generalizing before tail offset column with
  | zero => rfl
  | succ count ih =>
      have length : (before ++ ['\n']).length = before.length + 1 := by simp
      obtain ⟨line, inLine, rfl | ⟨rest, rfl⟩⟩ := exists_firstLine tail
      · have last := lineEndFrom_inLine inLine (before ++ ['\n'])
        rw [length, List.append_assoc, List.singleton_append] at last
        have cut : ((before ++ '\n' :: tail).take (before ++ '\n' :: tail).length).drop
            before.length = '\n' :: tail := by
          rw [List.take_length, List.drop_left]
        rw [last, lines_step cut, lineEndFrom_beyond, lines_beyond, linesFrom_inLine inLine, blocks]
      · have last := lineEndFrom_append inLine (before ++ ['\n']) rest
        rw [length, List.append_assoc, List.singleton_append] at last
        have parts : before ++ '\n' :: (line ++ '\n' :: rest) =
            (before ++ '\n' :: line) ++ '\n' :: rest := by simp
        have width : (before ++ '\n' :: line).length = before.length + 1 + line.length := by
          simp only [List.length_append, List.length_cons]
          omega
        have cut : ((before ++ '\n' :: (line ++ '\n' :: rest)).take
            (before.length + 1 + line.length)).drop before.length = '\n' :: line := by
          rw [parts, ← width, List.take_left, List.drop_left]
        rw [last, lines_step cut, linesFrom_append inLine, blocks, parts, ← width, ih]

theorem repeated_natCast (c : Char) (times : Nat) :
    repeated c times = List.replicate times c := by
  rw [repeated, Int.toNat_natCast]

theorem repeated_sub (c : Char) (a b : Nat) :
    repeated c ((a : Int) - (b : Int)) = List.replicate (a - b) c := by
  rw [repeated, Int.toNat_sub]

theorem Chained.offset_le {lines : List Line} {first line : Line} {k : Nat}
    (chained : Chained (first :: lines)) (found : lines[k]? = some line) :
    first.offset + first.chars.length < line.offset := by
  induction k generalizing first lines with
  | zero =>
      cases lines with
      | nil => cases found
      | cons next rest =>
          cases found
          have := chained.1
          omega
  | succ k ih =>
      cases lines with
      | nil => cases found
      | cons next rest =>
          have later := ih chained.2 found
          have := chained.1
          omega

/-- The lines of a stretch are shown as they should be, behind a line end. -/
theorem exists_shows (first : Nat) {stop k : Nat} {line last : Line} {lines : List Line}
    (chained : Chained (line :: lines)) (within : first ≤ line.offset + line.chars.length)
    (found : (line :: lines)[k]? = some last) (fits : stop ≤ last.chars.length) :
    ∃ output, Shows first (last.offset + stop) ((line :: lines).take (k + 1)) output ∧
      blocks stop (k + 1) (first - line.offset : Nat) (line :: lines) = '\n' :: output := by
  induction k generalizing line lines with
  | zero =>
      cases found
      have marks : Marks first (last.offset + stop) last
          (List.replicate (first - last.offset) ' ' ++
            List.replicate (stop - (first - last.offset)) '^') :=
        marks_replicate fun column => by omega
      refine ⟨_, .last marks, ?_⟩
      rw [blocks, if_pos rfl, repeated_natCast, repeated_sub, blocks, List.append_nil]
  | succ k ih =>
      cases lines with
      | nil => cases found
      | cons next rest =>
          have step := chained.1
          have start : first - next.offset = 0 := by omega
          obtain ⟨output, shows, written⟩ := ih chained.2 (by omega) found
          have before := chained.offset_le found
          have marks : Marks first (last.offset + stop) line
              (List.replicate (first - line.offset) ' ' ++
                List.replicate (line.chars.length - (first - line.offset)) '^') :=
            marks_replicate fun column => by omega
          refine ⟨_, .more marks shows, ?_⟩
          rw [start] at written
          rw [blocks, if_neg (Nat.succ_ne_zero k), repeated_natCast, repeated_sub]
          exact congrArg _ (congrArg _ (congrArg _ (congrArg _ written)))

/-! ## An empty first line -/

theorem exists_blocks (stop : Int) (count : Nat) (column : Int) (lines : List Line) :
    ∃ more, blocks stop (count + 1) column lines = '\n' :: more := by
  cases lines <;> exact ⟨_, rfl⟩

/-- A line that is not the last one has carets under all its characters. -/
theorem blocks_whole (stop : Int) (count : Nat) (line : Line) (rest : List Line) :
    blocks stop (count + 2) 0 (line :: rest) =
      '\n' :: (line.chars ++ '\n' :: (List.replicate line.chars.length '^' ++
        blocks stop (count + 1) 0 rest)) := by
  rw [blocks, if_neg (Nat.succ_ne_zero count), Int.sub_zero, repeated_natCast]
  rfl

/-- If the lines are written where the empty line before them should be shown as well, all lines are
empty, and they are all there are.  The induction takes one line after the other as the empty
one. -/
theorem empty_of_shows {first stop : Nat} {column : Int} {count : Nat} {line : Line}
    {lines : List Line} (empty : line.chars = []) (inLine : ∀ line ∈ lines, '\n' ∉ line.chars)
    (enough : count ≤ lines.length)
    (shows : Shows first stop (line :: lines.take count) (blocks column (count + 1) 0 lines)) :
    lines.length = count ∧ ∀ line ∈ lines, line.chars = [] := by
  induction count generalizing line lines with
  | zero =>
      cases lines with
      | nil => exact ⟨rfl, fun line member => by cases member⟩
      | cons next rest =>
          obtain ⟨row, marks, ⟨-, same⟩ | ⟨more, none, -⟩⟩ := shows.exists_row
          · rw [empty, List.nil_append, blocks] at same
            refine absurd ?_ marks.inLine
            rw [← List.tail_eq_of_cons_eq same]
            simp
          · exact absurd rfl none.ne_nil
  | succ count ih =>
      cases lines with
      | nil => cases enough
      | cons next rest =>
          rw [List.forall_mem_cons] at inLine
          obtain ⟨row, marks, ⟨none, -⟩ | ⟨output, later, same⟩⟩ := shows.exists_row
          · cases none
          rw [empty, List.nil_append, blocks_whole] at same
          obtain ⟨rfl, rfl⟩ := append_lineEnd_inj inLine.1 marks.inLine
            (List.tail_eq_of_cons_eq same)
          obtain ⟨more, written⟩ := exists_blocks column count 0 rest
          obtain ⟨others, head⟩ := later.exists_head
          rw [written] at head
          obtain ⟨bare, -⟩ := append_lineEnd_inj (by simp [List.mem_replicate]) inLine.1 head
          have nextEmpty : next.chars = [] := by
            have unmarked : next.chars[0]? ≠ some '^' := by
              rw [ne_eq, marks.carets 0, empty]
              simp
            rw [← bare] at unmarked
            simpa [List.getElem?_replicate] using unmarked
          rw [nextEmpty] at later
          obtain ⟨length, all⟩ := ih nextEmpty inLine.2 (Nat.le_of_succ_le_succ enough) later
          exact ⟨congrArg (· + 1) length, List.forall_mem_cons.mpr ⟨nextEmpty, all⟩⟩

/-- Nothing but empty lines, up to the end. -/
theorem shows_empty {first stop : Nat} {line : Line} {lines : List Line} (empty : line.chars = [])
    (all : ∀ line ∈ lines, line.chars = []) :
    Shows first stop (line :: lines) (blocks 0 (lines.length + 1) 0 lines) := by
  have marks : Marks first stop line [] :=
    ⟨⟨0, 0, rfl⟩, fun column => by simp [empty]⟩
  induction lines generalizing line with
  | nil =>
      have shows := Shows.last marks
      rw [empty] at shows
      exact shows
  | cons next rest ih =>
      rw [List.forall_mem_cons] at all
      have shows := Shows.more marks
        (ih all.1 all.2 ⟨⟨0, 0, rfl⟩, fun column => by simp [all.1]⟩)
      rw [List.length_cons, blocks_whole, all.1]
      rw [empty] at shows
      exact shows

theorem lineEndBefore_of_lineEnd {above inLine : List Char} (noLine : '\n' ∉ inLine)
    (rest : List Char) :
    lineEndBefore (above ++ '\n' :: inLine ++ rest) (above.length + 1 + inLine.length : Nat) =
      above.length := by
  have length : (above ++ '\n' :: inLine).length = above.length + 1 + inLine.length := by
    simp only [List.length_append, List.length_cons]
    omega
  have clipped : clip (above ++ '\n' :: inLine ++ rest).length
      (above.length + 1 + inLine.length : Nat) = (above ++ '\n' :: inLine).length := by
    rw [clip, if_neg (by omega), Int.toNat_natCast, List.length_append, ← length]
    omega
  have found : (above ++ '\n' :: inLine).reverse.findIdx? (· = '\n') = some inLine.length := by
    have turned : (above ++ '\n' :: inLine).reverse = inLine.reverse ++ '\n' :: above.reverse := by
      simp
    rw [turned, findIdx?_append (by simpa using noLine), List.length_reverse]
  rw [lineEndBefore, clipped, List.take_left, found]
  simp only [length]
  omega

theorem lineEndBefore_of_inLine {text : List Char} {stop : Nat} (inside : stop ≤ text.length)
    (noLine : '\n' ∉ text.take stop) : lineEndBefore text stop = 0 := by
  have clipped : clip text.length stop = stop := by
    rw [clip, if_neg (by omega), Int.toNat_natCast]
    omega
  have found : (text.take stop).reverse.findIdx? (· = '\n') = none :=
    findIdx?_inLine (by simpa using noLine)
  rw [lineEndBefore, clipped, found]

theorem tab_not_mem_lines {text : List Char} (noTabs : '\t' ∉ text) (stop : Int) (count : Nat)
    (column : Int) (first last : Nat) : '\t' ∉ lines text stop count column first last := by
  induction count generalizing column first last with
  | zero => exact List.not_mem_nil
  | succ count ih =>
      have cut : '\t' ∉ (text.take last).drop first := fun member =>
        noTabs (List.mem_of_mem_take (List.mem_of_mem_drop member))
      simp [lines, repeated, cut, ih, List.mem_replicate]

end Underline

/-! ## Stretches -/

namespace Span

open Underline

/-- A stretch of a text without tabs, between two places that tell their lines and columns. -/
structure Proper (s : Span) : Prop where
  noTabs : '\t' ∉ s.start.source.text.toList
  start : s.start.Agrees s.start.source.text.toList
  stop : s.stop.Agrees s.start.source.text.toList
  ordered : s.start.index < s.stop.index
  inside : s.stop.index ≤ s.start.source.text.toList.length

/-- The lines of a stretch. -/
def shownLines (s : Span) : List Line :=
  ((linesFrom 0 s.start.source.text.toList).drop s.start.line).take (s.stop.line - s.start.line + 1)

/-- Every line of the stretch is shown in order, followed by a row with carets exactly under its
characters in the stretch.  A stretch that does not start in the first line has an empty row in
front. -/
def Exact (s : Span) : Prop :=
  ∃ output, Shows s.start.index s.stop.index s.shownLines output ∧
    s.underline.toList = if s.start.line = 0 then output else '\n' :: output

section

variable {s : Span} {line more : List Char} (first : s.start.line = 0)
  (parts : s.start.source.text.toList = line ++ '\n' :: more) (inLine : '\n' ∉ line)

include first parts inLine

theorem linesFrom_of_first : (linesFrom 0 s.start.source.text.toList).drop s.start.line =
    ⟨0, line⟩ :: linesFrom (line.length + 1) more := by
  rw [first, List.drop_zero, parts, linesFrom_append inLine, Nat.zero_add]

theorem shownLines_of_first :
    s.shownLines = ⟨0, line⟩ :: (linesFrom (line.length + 1) more).take s.stop.line := by
  rw [shownLines, linesFrom_of_first first parts inLine, first]
  rfl

end

namespace Proper

variable {s : Span} (proper : s.Proper)

include proper

theorem line_le : s.start.line ≤ s.stop.line := by
  rw [proper.start.line, proper.stop.line]
  have ordered := proper.ordered
  have earlier : s.start.source.text.toList.take s.start.index =
      (s.start.source.text.toList.take s.stop.index).take s.start.index := by
    rw [List.take_take]
    congr 1
    omega
  rw [earlier]
  exact (List.take_sublist _ _).count_le _

theorem toList_underline : s.underline.toList =
    lines s.start.source.text.toList s.stop.column (s.stop.line - s.start.line + 1) s.start.column
      (lineEndBefore s.start.source.text.toList s.start.index)
      (lineEndFrom s.start.source.text.toList
        (lineEndBefore s.start.source.text.toList s.start.index + 1)) := by
  have count : ((s.stop.line : Int) - s.start.line + 1).toNat = s.stop.line - s.start.line + 1 := by
    have := proper.line_le
    omega
  rw [underline, render, String.toList_ofList]
  simp only [Position.mark, count]
  rw [List.filter_eq_self]
  intro c member
  rw [decide_eq_true_iff]
  rintro rfl
  exact tab_not_mem_lines proper.noTabs _ _ _ _ _ member

/-- The line in which a stretch starts, the lines behind it, and the line in which it stops. -/
theorem exists_lines : ∃ line rest last,
    (linesFrom 0 s.start.source.text.toList).drop s.start.line = line :: rest ∧
    Chained (line :: rest) ∧ line.offset + s.start.column = s.start.index ∧
    s.start.column ≤ line.chars.length ∧
    (line :: rest)[s.stop.line - s.start.line]? = some last ∧
    last.offset + s.stop.column = s.stop.index ∧ s.stop.column ≤ last.chars.length := by
  have le := proper.line_le
  have ordered := proper.ordered
  have inside := proper.inside
  obtain ⟨line, rest, lines, chained, offset, fits⟩ := exists_lineOf proper.start (by omega)
  obtain ⟨last, others, lines', -, offset', fits'⟩ := exists_lineOf proper.stop inside
  refine ⟨line, rest, last, lines, chained, offset, fits, ?_, offset', fits'⟩
  rw [← lines, List.getElem?_drop, Nat.add_sub_cancel' le]
  have first := congrArg (·[0]?) lines'
  simpa using first

/-- What is written of a stretch that does not start in the first line. -/
theorem toList_of_later (later : s.start.line ≠ 0) : s.underline.toList =
    blocks s.stop.column (s.stop.line - s.start.line + 1) s.start.column
      ((linesFrom 0 s.start.source.text.toList).drop s.start.line) := by
  have written := proper.toList_underline
  have ordered := proper.ordered
  have inside := proper.inside
  obtain ⟨number, above, inLine, parts, ends, noLine, column⟩ := proper.start
  rw [parts, List.count_append, List.count_eq_zero.mpr noLine, Nat.add_zero] at number
  have lines := drop_linesFrom ends (inLine ++ s.start.source.text.toList.drop s.start.index) 0
  rw [← number, ← List.append_assoc, ← parts, List.take_append_drop] at lines
  have last : above.getLast? = some '\n' := by
    refine ends.resolve_left ?_
    rintro rfl
    exact later number
  obtain ⟨higher, rfl⟩ := List.getLast?_eq_some_iff.mp last
  have length := congrArg List.length parts
  simp only [List.length_take, List.length_append, List.length_singleton] at length column
  have index : s.start.index = higher.length + 1 + inLine.length := by omega
  have whole : s.start.source.text.toList =
      higher ++ '\n' :: inLine ++ s.start.source.text.toList.drop s.start.index := by
    rw [List.append_cons, ← parts, List.take_append_drop]
  have first : lineEndBefore s.start.source.text.toList s.start.index = higher.length := by
    rw [index, whole, index]
    exact lineEndBefore_of_lineEnd noLine _
  rw [written, first, lines]
  generalize s.start.source.text.toList.drop s.start.index = tail at whole ⊢
  rw [whole, List.append_assoc, List.cons_append]
  exact lines_eq_blocks higher (inLine ++ tail) _ _ _ _

/-- A stretch that does not start in the first line. -/
theorem exact_of_later (later : s.start.line ≠ 0) : s.Exact := by
  have written := proper.toList_of_later later
  obtain ⟨line, rest, last, lines, chained, offset, fits, found, offset', fits'⟩ :=
    proper.exists_lines
  obtain ⟨output, shows, same⟩ := exists_shows s.start.index chained (by omega) found fits'
  have column : s.start.index - line.offset = s.start.column := by omega
  refine ⟨output, ?_, ?_⟩
  · rw [shownLines, lines, ← offset']
    exact shows
  · rw [if_neg later, written, lines, ← same, column]

/-! ## Stretches from the first line on -/

theorem lineEndBefore_of_first (first : s.start.line = 0) :
    lineEndBefore s.start.source.text.toList s.start.index = 0 := by
  have ordered := proper.ordered
  have inside := proper.inside
  have noLine := proper.start.line.symm.trans first
  exact lineEndBefore_of_inLine (by omega) (List.count_eq_zero.mp noLine)

/-- The first line is written without a line end before it, and so its length is taken to be one
less than it is. -/
theorem toList_of_first (first : s.start.line = 0) {line rest : List Char} (inLine : '\n' ∉ line)
    (nonempty : line ≠ []) (parts : s.start.source.text.toList = line ++ rest)
    (ends : rest = [] ∨ ∃ more, rest = '\n' :: more) :
    s.underline.toList = line ++ '\n' :: (repeated ' ' s.start.column ++
      repeated '^' ((if s.stop.line = 0 then (s.stop.column : Int) else line.length - 1) -
        s.start.column) ++
      lines (line ++ rest) s.stop.column s.stop.line 0 line.length
        (lineEndFrom (line ++ rest) (line.length + 1))) := by
  obtain ⟨c, line, rfl⟩ := List.exists_cons_of_ne_nil nonempty
  have noLine : '\n' ∉ line := fun member => inLine (List.mem_cons_of_mem c member)
  have last : lineEndFrom (c :: line ++ rest) 1 = (c :: line).length := by
    obtain rfl | ⟨more, rfl⟩ := ends
    · rw [List.append_nil]
      exact lineEndFrom_inLine noLine [c]
    · rw [List.length_cons, Nat.add_comm]
      exact lineEndFrom_append noLine [c] more
  rw [proper.toList_underline, proper.lineEndBefore_of_first first, parts, first, Nat.sub_zero,
    Nat.zero_add, last, lines, List.take_left, List.drop_zero]
  simp only [List.append_assoc, List.cons_append]

/-- A stretch within the first line. -/
theorem exact_of_single (single : s.stop.line = 0) : s.Exact := by
  have first : s.start.line = 0 := Nat.le_zero.mp (single ▸ proper.line_le)
  have ordered := proper.ordered
  obtain ⟨_, _, last, lines, -, offset, -, found, offset', fits⟩ := proper.exists_lines
  obtain ⟨line, rest, inLine, parts, ends⟩ : ∃ line rest, '\n' ∉ line ∧
      s.start.source.text.toList = line ++ rest ∧ (rest = [] ∨ ∃ more, rest = '\n' :: more) := by
    obtain ⟨line, inLine, same | ⟨more, same⟩⟩ :=
      Underline.exists_firstLine s.start.source.text.toList
    · exact ⟨line, [], inLine, by rw [same, List.append_nil], .inl rfl⟩
    · exact ⟨line, _, inLine, same, .inr ⟨more, rfl⟩⟩
  obtain ⟨others, only⟩ : ∃ others, linesFrom 0 (line ++ rest) = ⟨0, line⟩ :: others := by
    obtain rfl | ⟨more, rfl⟩ := ends
    · exact ⟨[], by rw [List.append_nil, linesFrom_inLine inLine]⟩
    · exact ⟨_, linesFrom_append inLine more 0⟩
  rw [parts, first, List.drop_zero, only] at lines
  obtain ⟨rfl, rfl⟩ := List.cons.inj lines
  rw [single, first] at found
  cases found
  simp only [Nat.zero_add] at offset offset' fits
  have nonempty : line ≠ [] := by
    rintro rfl
    rw [List.length_nil] at fits
    omega
  have marks : Marks s.start.index s.stop.index ⟨0, line⟩
      (List.replicate s.start.index ' ' ++ List.replicate (s.stop.column - s.start.index) '^') :=
    marks_replicate fun column => by simp only; omega
  have written := proper.toList_of_first first inLine nonempty parts ends
  rw [if_pos single, single, repeated_natCast, repeated_sub, Underline.lines, List.append_nil,
    offset] at written
  refine ⟨_, ?_, written.trans (if_pos first).symm⟩
  rw [shownLines, parts, single, first, List.drop_zero, only]
  exact .last marks

theorem exists_split (several : s.stop.line ≠ 0) :
    ∃ line more, s.start.source.text.toList = line ++ '\n' :: more ∧ '\n' ∉ line := by
  have lineEnd : '\n' ∈ s.start.source.text.toList.take s.stop.index := by
    rw [← List.count_pos_iff, ← proper.stop.line]
    omega
  exact List.eq_append_cons_of_mem (List.mem_of_mem_take lineEnd)

section

variable {line more : List Char} (first : s.start.line = 0) (several : s.stop.line ≠ 0)
  (parts : s.start.source.text.toList = line ++ '\n' :: more) (inLine : '\n' ∉ line)

include first several parts inLine

/-- The lines of a stretch that goes beyond the first line. -/
theorem exists_lines_of_first : s.start.column = s.start.index ∧ s.start.index ≤ line.length ∧
    ∃ k next others last, s.stop.line = k + 1 ∧
      linesFrom (line.length + 1) more = next :: others ∧
      Chained (⟨0, line⟩ :: next :: others) ∧ (next :: others)[k]? = some last ∧
      last.offset + s.stop.column = s.stop.index ∧ s.stop.column ≤ last.chars.length := by
  obtain ⟨_, _, last, lines, chained, offset, fits, found, offset', fits'⟩ := proper.exists_lines
  rw [linesFrom_of_first first parts inLine] at lines
  obtain ⟨rfl, rfl⟩ := List.cons.inj lines
  obtain ⟨k, same⟩ := Nat.exists_eq_succ_of_ne_zero several
  obtain ⟨next, others, rest, -⟩ := exists_linesFrom (line.length + 1) more
  rw [first, same] at found
  rw [rest] at chained found
  simp only [Nat.zero_add] at offset fits
  exact ⟨offset, offset ▸ fits, k, next, others, last, same, rest, chained, found, offset', fits'⟩

/-- What is written of a stretch that goes beyond the first line: one caret less in this line than
there are characters, if there is any. -/
theorem exists_short (nonempty : line ≠ []) :
    ∃ output, Shows s.start.index s.stop.index
        ((linesFrom (line.length + 1) more).take s.stop.line) output ∧
      s.underline.toList = line ++ '\n' :: (List.replicate s.start.index ' ' ++
        List.replicate (line.length - 1 - s.start.index) '^' ++ '\n' :: output) := by
  obtain ⟨column, within, k, next, others, last, same, rest, chained, found, offset, fits⟩ :=
    proper.exists_lines_of_first first several parts inLine
  have start : next.offset = 0 + line.length + 1 := chained.1
  have written := proper.toList_of_first first inLine nonempty parts (.inr ⟨more, rfl⟩)
  obtain ⟨output, shows, writes⟩ := exists_shows s.start.index chained.2 (by omega) found fits
  have ahead : s.start.index - next.offset = 0 := by omega
  have width :
      (line.length : Int) - 1 - s.start.index = (line.length - 1 : Nat) - s.start.index := by
    have := List.length_pos_iff.mpr nonempty
    omega
  refine ⟨output, ?_, ?_⟩
  · rw [rest, same, ← offset]
    exact shows
  · rw [ahead] at writes
    rw [written, if_neg several, column, repeated_natCast, width, repeated_sub,
      lines_eq_blocks line more (line.length + 1), rest, same, ← writes]
    rfl

theorem lt_stop_of_several : line.length < s.stop.index := by
  obtain ⟨_, _, k, next, others, last, -, -, chained, found, offset, -⟩ :=
    proper.exists_lines_of_first first several parts inLine
  have before := chained.offset_le found
  simp only [Nat.zero_add] at before
  omega

/-- A stretch from the end of the first line on. -/
theorem exact_of_lineEnd (nonempty : line ≠ []) (atEnd : s.start.index = line.length) :
    s.Exact := by
  obtain ⟨output, shows, written⟩ := proper.exists_short first several parts inLine nonempty
  have marks : Marks s.start.index s.stop.index ⟨0, line⟩ (List.replicate s.start.index ' ' ++
      List.replicate (line.length - 1 - s.start.index) '^') :=
    marks_replicate fun column => by simp only; omega
  refine ⟨_, ?_, written.trans (if_pos first).symm⟩
  rw [shownLines_of_first first parts inLine]
  exact .more marks shows

/-- Where a stretch comes to the end of the first line, a caret is missing. -/
theorem exists_missing (before : s.start.index < line.length) :
    ∃ row output, Marks s.start.index s.stop.index ⟨0, line⟩ (row ++ ['^']) ∧
      Shows s.start.index s.stop.index
        ((linesFrom (line.length + 1) more).take s.stop.line) output ∧
      s.underline.toList = line ++ '\n' :: (row ++ '\n' :: output) := by
  have nonempty : line ≠ [] := List.ne_nil_of_length_pos (by omega)
  have beyond := proper.lt_stop_of_several first several parts inLine
  obtain ⟨output, shows, written⟩ := proper.exists_short first several parts inLine nonempty
  refine ⟨_, output, ?_, shows, written⟩
  rw [List.append_assoc, ← List.replicate_succ']
  exact marks_replicate fun column => by simp only; omega

theorem not_exact_of_missing (before : s.start.index < line.length) : ¬ s.Exact := by
  rintro ⟨output, shows, written⟩
  obtain ⟨short, output', marks, rest, written'⟩ :=
    proper.exists_missing first several parts inLine before
  rw [if_pos first, written'] at written
  rw [shownLines_of_first first parts inLine] at shows
  obtain ⟨row, marks', ⟨none, -⟩ | ⟨more, -, rfl⟩⟩ := shows.exists_row
  · exact rest.ne_nil none
  have noLine : '\n' ∉ short := fun member => marks.inLine (List.mem_append_left _ member)
  obtain ⟨rfl, -⟩ := append_lineEnd_inj noLine marks'.inLine
    (List.tail_eq_of_cons_eq (List.append_cancel_left written))
  -- the column of the missing caret is that of the last character
  have here : (short ++ ['^'])[short.length]? = some '^' := by simp
  have there := (marks'.carets short.length).mpr ((marks.carets short.length).mp here)
  rw [List.getElem?_eq_none (Nat.le_refl _)] at there
  cases there

/-- A stretch from a first line that is not empty to a later one. -/
theorem exact_iff_of_nonempty (nonempty : line ≠ []) :
    s.Exact ↔ 0 < s.start.index ∧ s.start.source.text.toList[s.start.index]? = some '\n' := by
  obtain ⟨-, within, -⟩ := proper.exists_lines_of_first first several parts inLine
  have long := List.length_pos_iff.mpr nonempty
  obtain before | atEnd := Nat.lt_or_eq_of_le within
  · refine iff_of_false (proper.not_exact_of_missing first several parts inLine before) ?_
    rintro ⟨-, lineEnd⟩
    rw [parts, List.getElem?_append_left before] at lineEnd
    exact inLine (List.mem_of_getElem? lineEnd)
  · refine iff_of_true (proper.exact_of_lineEnd first several parts inLine nonempty atEnd) ?_
    rw [parts, atEnd, List.getElem?_append_right (Nat.le_refl _), Nat.sub_self]
    exact ⟨long, rfl⟩

end

section

variable {more : List Char} (first : s.start.line = 0)
  (parts : s.start.source.text.toList = '\n' :: more)

include first parts

/-- If the first line is empty, it is left out. -/
theorem toList_of_empty (several : s.stop.line ≠ 0) : s.underline.toList =
    blocks s.stop.column (s.stop.line + 1) 0 (linesFrom 1 more) := by
  obtain ⟨column, least, -⟩ :=
    proper.exists_lines_of_first first several (parts : _ = [] ++ '\n' :: more) List.not_mem_nil
  have start : s.start.column = 0 := column.trans (Nat.le_zero.mp least)
  rw [proper.toList_underline, proper.lineEndBefore_of_first first, parts, first, start,
    Nat.sub_zero]
  exact lines_eq_blocks [] more 1 _ _ _

theorem exact_iff_of_empty (several : s.stop.line ≠ 0) :
    s.Exact ↔ s.stop.index = s.start.source.text.toList.length ∧
      ∀ c ∈ s.start.source.text.toList, c = '\n' := by
  have shown : s.shownLines = ⟨0, []⟩ :: (linesFrom 1 more).take s.stop.line :=
    shownLines_of_first first (parts : _ = [] ++ '\n' :: more) List.not_mem_nil
  have written := proper.toList_of_empty first parts several
  have stopLine := proper.stop.line
  have length : (linesFrom 1 more).length = s.start.source.text.toList.count '\n' := by
    rw [length_linesFrom, parts, List.count_cons_self]
  have only_iff : (∀ line ∈ linesFrom 1 more, line.chars = []) ↔
      ∀ c ∈ s.start.source.text.toList, c = '\n' := by
    rw [parts, List.forall_mem_cons, forall_nil_iff]
    exact (and_iff_right rfl).symm
  constructor
  · rintro ⟨output, shows, same⟩
    rw [if_pos first, written] at same
    rw [shown, ← same] at shows
    have enough : s.stop.line ≤ (linesFrom 1 more).length := by
      rw [length, stopLine]
      exact (List.take_sublist _ _).count_le _
    obtain ⟨all, empty⟩ := empty_of_shows rfl (fun line member => inLine_of_mem_linesFrom member)
      enough shows
    have only := only_iff.mp empty
    have counted (chars : List Char) (sub : chars ⊆ s.start.source.text.toList) :
        chars.count '\n' = chars.length :=
      List.count_eq_length.mpr fun c member => (only c (sub member)).symm
    refine ⟨?_, only⟩
    rw [length, stopLine, counted _ (List.Subset.refl _), counted _ (List.take_subset _ _),
      List.length_take, Nat.min_eq_left proper.inside] at all
    exact all.symm
  · rintro ⟨atEnd, only⟩
    have empty := only_iff.mpr only
    obtain ⟨-, -, k, next, others, last, -, rest, -, found, -, fits⟩ :=
      proper.exists_lines_of_first first several (parts : _ = [] ++ '\n' :: more) List.not_mem_nil
    have lines : linesFrom 1 more = next :: others := rest
    have lastEmpty : last.chars = [] := empty last (lines ▸ List.mem_of_getElem? found)
    have column : s.stop.column = 0 := by
      rw [lastEmpty] at fits
      exact Nat.le_zero.mp fits
    have all : s.stop.line = (linesFrom 1 more).length := by
      rw [length, stopLine, atEnd, List.take_length]
    refine ⟨_, ?_, written.trans (if_pos first).symm⟩
    rw [shown, column, all, List.take_length]
    exact shows_empty rfl empty

end

end Proper

/-- A stretch that does not go from the first line to a later one is shown as it should be.
Otherwise the last caret of the first line is missing, unless the stretch starts at the end of this
line, and an empty first line is left out, which makes no difference if there are only line ends. -/
theorem underline_exact_iff {s : Span} (proper : s.Proper) :
    (s.Exact ↔ s.start.line ≠ 0 ∨ s.stop.line = 0 ∨
      (0 < s.start.index ∧ s.start.source.text.toList[s.start.index]? = some '\n') ∨
      (s.stop.index = s.start.source.text.toList.length ∧
        ∀ c ∈ s.start.source.text.toList, c = '\n')) ∧
    ∀ line rest, s.start.line = 0 → s.shownLines = line :: rest → rest ≠ [] →
      s.start.index < line.chars.length →
      ∃ row output, Marks s.start.index s.stop.index line (row ++ ['^']) ∧
        Shows s.start.index s.stop.index rest output ∧
        s.underline.toList = line.chars ++ '\n' :: (row ++ '\n' :: output) := by
  constructor
  · by_cases first : s.start.line = 0
    · by_cases several : s.stop.line = 0
      · exact iff_of_true (proper.exact_of_single several) (.inr (.inl several))
      · obtain ⟨line, more, parts, inLine⟩ := proper.exists_split several
        have neither : ¬ (s.start.line ≠ 0 ∨ s.stop.line = 0) := by simp [first, several]
        rw [← or_assoc, or_iff_right neither]
        cases line with
        | nil =>
            obtain ⟨-, least, -⟩ := proper.exists_lines_of_first first several parts inLine
            rw [proper.exact_iff_of_empty first parts several, or_iff_right]
            exact fun atEnd => absurd least (Nat.not_le_of_lt atEnd.1)
        | cons c line =>
            rw [proper.exact_iff_of_nonempty first several parts inLine (List.cons_ne_nil c line),
              or_iff_left]
            rintro ⟨-, only⟩
            refine inLine (List.mem_cons.mpr (.inl (only c ?_).symm))
            rw [parts]
            exact List.mem_cons_self
    · exact iff_of_true (proper.exact_of_later first) (.inl first)
  · intro line rest first shown others before
    have several : s.stop.line ≠ 0 := by
      intro single
      have length := congrArg List.length shown
      rw [shownLines, single, first, List.length_take, List.length_cons] at length
      exact others (List.eq_nil_of_length_eq_zero (by omega))
    obtain ⟨line', more, parts, inLine⟩ := proper.exists_split several
    rw [shownLines_of_first first parts inLine] at shown
    obtain ⟨rfl, rfl⟩ := List.cons.inj shown
    exact proper.exists_missing first several parts inLine before

/-- A stretch from the second line of a text to its last one. -/
def threeLines : Span :=
  ⟨.behind ⟨"", "x\nab\n\ncd"⟩ ['x', '\n', 'a'],
    .behind ⟨"", "x\nab\n\ncd"⟩ ['x', '\n', 'a', 'b', '\n', '\n', 'c']⟩

theorem proper_threeLines : threeLines.Proper where
  noTabs := by decide
  start := Position.agrees_behind _ ['x', '\n', 'a'] ['b', '\n', '\n', 'c', 'd']
  stop := Position.agrees_behind _ ['x', '\n', 'a', 'b', '\n', '\n', 'c'] ['d']
  ordered := by decide
  inside := by decide

theorem underline_exact_iff_threeLines :
    threeLines.Proper ∧ threeLines.Exact ∧ threeLines.underline = "\nab\n ^\n\n\ncd\n^" :=
  ⟨proper_threeLines, (underline_exact_iff proper_threeLines).1.mpr (.inl (by decide)), by decide⟩

/-- A stretch from the first line of a text to the second one. -/
def twoLines : Span :=
  ⟨.behind ⟨"", "ab\ncd"⟩ [], .behind ⟨"", "ab\ncd"⟩ ['a', 'b', '\n', 'c']⟩

theorem proper_twoLines : twoLines.Proper where
  noTabs := by decide
  start := Position.agrees_behind _ [] ['a', 'b', '\n', 'c', 'd']
  stop := Position.agrees_behind _ ['a', 'b', '\n', 'c'] ['d']
  ordered := by decide
  inside := by decide

theorem twoLines_not_exact :
    twoLines.Proper ∧ twoLines.underline = "ab\n^\ncd\n^" ∧ ¬ twoLines.Exact :=
  ⟨proper_twoLines, by decide, proper_twoLines.not_exact_of_missing rfl (by decide)
    (rfl : _ = ['a', 'b'] ++ '\n' :: ['c', 'd']) (by decide) (by decide)⟩

end Span
end Pseudocode
