import Pseudocode.Proofs.Scanning.Readings

/-!
# Comments

A comment ends with its line end, which belongs to it: what is read from a program stays the same
when every comment is replaced, together with its line end, by a blank.  When the line ends stay, a
line end is read for each comment in addition.  So taking only the comments away leaves what is read
unchanged just where there is no comment, or where the program cannot be read anyway.
-/

namespace Pseudocode

namespace Mode

/-- The characters of a program, with one character in place of each comment and its line end. -/
def uncomment (filler : Char) : Mode → List Char → List Char
  | _, [] => []
  | comment, c :: cs =>
      if c = '\n' then filler :: code.uncomment filler cs else comment.uncomment filler cs
  | mode, c :: cs =>
      if mode.next c = comment then comment.uncomment filler cs
      else c :: (mode.next c).uncomment filler cs

/-- The number of comments that start in a program. -/
def comments : Mode → List Char → Nat
  | _, [] => 0
  | mode, c :: cs =>
      (mode.next c).comments cs + if mode ≠ comment ∧ mode.next c = comment then 1 else 0

theorem uncomment_comment {body : List Char} (inLine : '\n' ∉ body) (filler : Char)
    (rest : List Char) :
    comment.uncomment filler (body ++ '\n' :: rest) = filler :: code.uncomment filler rest := by
  induction body with
  | nil => rfl
  | cons c body ih =>
      rw [List.mem_cons, not_or] at inLine
      rw [List.cons_append, uncomment, if_neg (Ne.symm inLine.1), ih inLine.2]

theorem comments_comment {body : List Char} (inLine : '\n' ∉ body) (rest : List Char) :
    comment.comments (body ++ '\n' :: rest) = code.comments rest := by
  induction body with
  | nil => rfl
  | cons c body ih =>
      rw [List.mem_cons, not_or] at inLine
      have mode : comment.next c = comment := by simp [next, Ne.symm inLine.1]
      rw [List.cons_append, comments, mode, ih inLine.2]
      rfl

theorem uncomment_cons {mode : Mode} {c : Char} (outside : mode ≠ comment)
    (goesOn : mode.next c ≠ comment) (filler : Char) (cs : List Char) :
    mode.uncomment filler (c :: cs) = c :: (mode.next c).uncomment filler cs := by
  cases mode with
  | comment => exact absurd rfl outside
  | code | text | escape => rw [uncomment, if_neg goesOn]; nofun

theorem comments_cons {mode : Mode} {c : Char} (goesOn : mode.next c ≠ comment)
    (cs : List Char) : mode.comments (c :: cs) = (mode.next c).comments cs := by
  rw [comments, if_neg fun starts => goesOn starts.2, Nat.add_zero]

/-- Only a number sign outside texts starts a comment. -/
theorem next_eq_comment {mode : Mode} {c : Char} (outside : mode ≠ comment)
    (starts : mode.next c = comment) : mode = code ∧ c = '#' := by
  cases mode with
  | code =>
      refine ⟨rfl, Decidable.byContradiction fun other => ?_⟩
      simp only [next, other, if_false] at starts
      split at starts <;> cases starts
  | text =>
      simp only [next] at starts
      split at starts
      · cases starts
      · split at starts <;> cases starts
  | escape => cases starts
  | comment => exact absurd rfl outside

end Mode

open Scanner

/-! ## Programs cut at their comments -/

/-- A program and the same program with a character in place of each of so many comments. -/
inductive Commented (filler : Char) : List Char → List Char → Nat → Prop where
  | plain {chars : List Char} (closed : CommentsClosed chars) : Commented filler chars chars 0
  | comment {before body rest others : List Char} {count : Nat} (settled : Settled before)
      (inLine : '\n' ∉ body) (later : Commented filler rest others count) :
      Commented filler (before ++ '#' :: (body ++ '\n' :: rest)) (before ++ filler :: others)
        (count + 1)

/-- A program has no comment, or a first one. -/
theorem exists_first_comment {mode : Mode} {chars : List Char} (outside : mode ≠ .comment)
    (closed : mode.after chars ≠ .comment) :
    (∀ filler, mode.uncomment filler chars = chars) ∧ mode.comments chars = 0 ∨
      ∃ before body rest, chars = before ++ '#' :: (body ++ '\n' :: rest) ∧
        mode.after before = .code ∧ '\n' ∉ body ∧
        (∀ filler, mode.uncomment filler chars =
          before ++ filler :: Mode.code.uncomment filler rest) ∧
        mode.comments chars = Mode.code.comments rest + 1 := by
  induction chars generalizing mode with
  | nil => exact .inl ⟨fun _ => by rw [Mode.uncomment], rfl⟩
  | cons c cs ih =>
      rw [Mode.after_cons] at closed
      by_cases starts : mode.next c = .comment
      · obtain ⟨rfl, rfl⟩ := Mode.next_eq_comment outside starts
        obtain ⟨body, rest, rfl, inLine⟩ := exists_of_comment closed
        refine .inr ⟨[], body, rest, rfl, rfl, inLine, fun filler => ?_, ?_⟩
        · exact Mode.uncomment_comment inLine filler rest
        · exact congrArg (· + 1) (Mode.comments_comment inLine rest)
      · simp only [Mode.uncomment_cons outside starts, Mode.comments_cons starts]
        obtain ⟨same, none⟩ | ⟨before, body, rest, rfl, settled, inLine, same, count⟩ :=
          ih starts closed
        · exact .inl ⟨fun filler => by rw [same], none⟩
        · exact .inr ⟨c :: before, body, rest, rfl, settled, inLine,
            fun filler => by rw [same, List.cons_append], count⟩

theorem commented_uncomment {chars : List Char} (closed : CommentsClosed chars) (filler : Char) :
    Commented filler chars (Mode.code.uncomment filler chars) (Mode.code.comments chars) := by
  obtain ⟨same, none⟩ | ⟨before, body, rest, rfl, settled, inLine, same, count⟩ :=
    exists_first_comment (by nofun) closed
  · rw [same, none]
    exact .plain closed
  · rw [same, count]
    have shorter : rest.length < (before ++ '#' :: (body ++ '\n' :: rest)).length := by
      simp only [List.length_append, List.length_cons]
      omega
    have later : CommentsClosed rest := by
      rw [commentsClosed_append settled, CommentsClosed, Mode.after_cons] at closed
      change Mode.after .comment (body ++ '\n' :: rest) ≠ .comment at closed
      rwa [Mode.after_append, after_comment inLine] at closed
    exact .comment settled inLine (commented_uncomment later filler)
  termination_by chars.length

namespace Commented

variable {filler : Char} {chars others : List Char} {count : Nat}

theorem closed (commented : Commented filler chars others count) : CommentsClosed chars := by
  induction commented with
  | plain closed => exact closed
  | @comment before body rest others count settled inLine later ih =>
      rw [commentsClosed_append settled, CommentsClosed, Mode.after_cons]
      change Mode.after .comment (body ++ '\n' :: rest) ≠ .comment
      rwa [Mode.after_append, after_comment inLine]

theorem closed_others (commented : Commented filler chars others count)
    (plain : Mode.code.next filler = .code) : CommentsClosed others := by
  induction commented with
  | plain closed => exact closed
  | comment settled _ _ ih =>
      rwa [commentsClosed_append settled, CommentsClosed, Mode.after_cons, plain]

/-- A comment is read as nothing and what replaces it as one piece, so what is read differs by as
many lexemes as there are comments, if that piece has a lexeme. -/
theorem reading (commented : Commented filler chars others count) {lexeme? : Option Lexeme}
    (begins : ∀ rest, Begins (fun s => s.step filler) (filler :: rest) ⟨[filler], lexeme?⟩ rest)
    (anew : joins filler = false) :
    (∃ cause, Scanner.reading chars = .error cause ∧ Scanner.reading others = .error cause) ∨
      ∃ found more, Scanner.reading chars = .ok found ∧ Scanner.reading others = .ok more ∧
        found.Sublist more ∧ more.length = found.length + count * lexeme?.toList.length := by
  have plain : Mode.code.next filler = .code := (begins []).settled
  induction commented with
  | @plain chars closed =>
      cases Scanner.reading chars with
      | error cause => exact .inl ⟨cause, rfl, rfl⟩
      | ok found => exact .inr ⟨found, found, rfl, rfl, .refl found, by simp⟩
  | @comment before body rest others count settled inLine later ih =>
      have comment : Begins (fun s => s.step '#') ('#' :: (body ++ '\n' :: rest))
          ⟨'#' :: (body ++ ['\n']), none⟩ rest := begins_comment inLine rest
      have closed : CommentsClosed ('#' :: (body ++ '\n' :: rest)) :=
        (commentsClosed_append settled _).mp (Commented.comment settled inLine later).closed
      have closed' : CommentsClosed (filler :: others) :=
        (commentsClosed_append settled _).mp
          ((Commented.comment settled inLine later).closed_others plain)
      have first := reading_append settled (stops_cons rfl _) closed
      have second := reading_append settled (stops_cons anew _) closed'
      rw [comment.reading later.closed] at first
      rw [(begins others).reading (later.closed_others plain)] at second
      obtain ⟨front, ends, same⟩ | ⟨cause, stops, same⟩ := first
      · obtain ⟨front', ends', same'⟩ | ⟨cause, stops, -⟩ := second
        · have equal : front' = front :=
            List.append_cancel_right (Except.ok.inj (ends'.symm.trans ends))
          subst equal
          obtain ⟨cause, stops, stops'⟩ | ⟨found, more, reads, reads', inside, longer⟩ := ih
          · exact .inl ⟨cause, by rw [same, stops]; rfl, by rw [same', stops']; rfl⟩
          · refine .inr ⟨front' ++ found, front' ++ (lexeme?.toList ++ more), ?_, ?_, ?_, ?_⟩
            · rw [same, reads]
              rfl
            · rw [same', reads']
              rfl
            · exact (List.Sublist.refl front').append
                (inside.trans (List.sublist_append_right lexeme?.toList more))
            · simp only [List.length_append, longer, Nat.succ_mul]
              omega
        · rw [ends] at stops
          cases stops
      · obtain ⟨front', ends', -⟩ | ⟨cause', stops', same'⟩ := second
        · rw [stops] at ends'
          cases ends'
        · obtain rfl := Except.error.inj (stops'.symm.trans stops)
          exact .inl ⟨cause', same, same'⟩

end Commented

/-! ## Programs without their comments -/

/-- A program with a character in place of each comment and its line end. -/
def uncommented (filler : Char) (text : String) : String :=
  String.ofList (Mode.code.uncomment filler text.toList)

theorem toList_uncommented (filler : Char) (text : String) :
    (uncommented filler text).toList = Mode.code.uncomment filler text.toList :=
  String.toList_ofList

/-- A program without its comments; the line ends that close them stay. -/
def withoutComments (text : String) : String :=
  uncommented '\n' text

/-- A program with a blank in place of each comment and its line end. -/
def blankedComments (text : String) : String :=
  uncommented ' ' text

/-- The number of comments in a program. -/
def commentCount (text : String) : Nat :=
  Mode.code.comments text.toList

theorem begins_blank (rest : List Char) :
    Begins (fun s => s.step ' ') (' ' :: rest) ⟨[' '], none⟩ rest :=
  ⟨rfl, List.cons_ne_nil _ _, rfl, fun _ => .blank (.inl rfl) .nil, fun _ _ _ => rfl⟩

/-- What is read from a program with characters in place of its comments, compared with what is read
from the program itself. -/
theorem Source.reading_uncommented {name text : String} (closed : CommentsClosed text.toList)
    {filler : Char} {lexeme? : Option Lexeme}
    (begins : ∀ rest, Begins (fun s => s.step filler) (filler :: rest) ⟨[filler], lexeme?⟩ rest)
    (anew : joins filler = false) :
    (∃ cause, Source.reading ⟨name, text⟩ = .error cause ∧
        Source.reading ⟨name, uncommented filler text⟩ = .error cause) ∨
      ∃ found more, Source.reading ⟨name, text⟩ = .ok found ∧
        Source.reading ⟨name, uncommented filler text⟩ = .ok more ∧ found.Sublist more ∧
        more.length = found.length + commentCount text * lexeme?.toList.length := by
  have commented := commented_uncomment closed filler
  have closed' := commented.closed_others (begins []).settled
  rw [← toList_uncommented] at commented closed'
  rw [Source.reading_eq closed, Source.reading_eq closed']
  exact commented.reading begins anew

/-- Without its comments a program reads as before exactly if it has none or cannot be read.  It
always reads as before with blanks in place of the comments and their line ends. -/
theorem Source.reading_withoutComments_iff {name text : String}
    (closed : CommentsClosed text.toList) :
    (Source.reading ⟨name, withoutComments text⟩ = Source.reading ⟨name, text⟩ ↔
      commentCount text = 0 ∨ ∃ stop, Source.reading ⟨name, text⟩ = .error stop) ∧
    Source.reading ⟨name, blankedComments text⟩ = Source.reading ⟨name, text⟩ := by
  constructor
  · obtain ⟨cause, stops, stops'⟩ | ⟨found, more, reads, reads', inside, longer⟩ :=
      Source.reading_uncommented closed begins_lineEnd rfl
    · rw [withoutComments, stops, stops']
      exact ⟨fun _ => .inr ⟨cause, rfl⟩, fun _ => rfl⟩
    · rw [withoutComments, reads, reads']
      have longer : more.length = found.length + commentCount text := by simpa using longer
      constructor
      · intro same
        rw [Except.ok.inj same] at longer
        exact .inl (by omega)
      · rintro (none | ⟨stop, stops⟩)
        · rw [none] at longer
          rw [inside.eq_of_length longer.symm]
        · cases stops
  · obtain ⟨cause, stops, stops'⟩ | ⟨found, more, reads, reads', inside, longer⟩ :=
      Source.reading_uncommented closed begins_blank rfl
    · rw [blankedComments, stops, stops']
    · rw [blankedComments, reads, reads', inside.eq_of_length (by simpa using longer.symm)]

/-- A number sign in a text, a comment behind a name and a comment on a line of its own. -/
def remarks : String :=
  "a <- \"# no\"# yes\n# \"alone\nb"

theorem Source.reading_withoutComments_iff_remarks :
    CommentsClosed remarks.toList ∧ commentCount remarks = 2 ∧
      Source.reading ⟨"", blankedComments remarks⟩ = Source.reading ⟨"", remarks⟩ :=
  ⟨by decide +kernel, by decide +kernel,
    (Source.reading_withoutComments_iff (by decide +kernel)).2⟩

/-- A comment takes the line end away that separates two statements. -/
theorem Source.reading_lacks_lineEnd :
    CommentsClosed "x # c\ny".toList ∧ withoutComments "x # c\ny" = "x \ny" ∧
      Source.reading ⟨"", "x # c\ny"⟩ = .ok [.name "x", .name "y", .eof] ∧
      Source.reading ⟨"", "x \ny"⟩ = .ok [.name "x", .newline, .name "y", .eof] :=
  ⟨by decide +kernel, by decide +kernel, rfl, rfl⟩

end Pseudocode
