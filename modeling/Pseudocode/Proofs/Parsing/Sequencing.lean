import Pseudocode.Proofs.Parsing.Extension
import Pseudocode.Proofs.Parsing.Soundness
import Pseudocode.Proofs.Parsing.Yield

/-!
# One program after another

Two programs on consecutive lines are the program of all their statements, unless the first one ends
with the closing brace of a branch without `ELSE`.  Such a branch takes the line ends behind it, so
nothing is left to separate it from a further statement.
-/

namespace Pseudocode
namespace Grammar

/-- Whether statements end with a branch without `ELSE`. -/
def lastOpen (nodes : List Node) : Bool :=
  nodes.getLast?.any Node.endsOpen

/-! ## Programs that go on -/

section

variable {line e e' : Token} {a b c rest : List Token} {nodes others : List Node} {node : Node}

theorem ReadsFurther.endsIn (reading : ReadsFurther a nodes e) : EndsIn e a := by
  obtain ⟨ts, divided, -⟩ := reading.derives
  exact ⟨ts, divided⟩

theorem pastNewlines_end (isEnd : e.lexeme = .eof) : pastNewlines [e] = [e] :=
  pastNewlines_cons (by rw [isEnd]; exact Lexeme.noConfusion) []

/-- A program that starts on a new line is further statements. -/
theorem ReadsProgram.further {span : Span} (reading : ReadsProgram (a ++ [e]) (.list nodes span))
    (isLine : line.lexeme = .newline) : ReadsFurther (line :: a ++ [e]) nodes e := by
  generalize whole : a ++ [e] = tokens at reading
  have ends : ∀ {e'}, ReadsFurther (line :: tokens) nodes e' → e' = e := by
    intro e' further
    obtain ⟨front, divided⟩ := further.endsIn
    rw [← whole, ← List.cons_append] at divided
    exact (List.cons.inj (List.append_inj' divided rfl).2).1.symm
  rw [List.cons_append, whole]
  cases reading with
  | empty first eof lines isEnd =>
      have further := ReadsFurther.trailing line eof isLine lines isEnd
      exact ends further ▸ further
  | statements first lines head tail =>
      have further := ReadsFurther.next line isLine lines head tail
      exact ends further ▸ further

/-- Further statements are a program of their own. -/
theorem ReadsFurther.program (reading : ReadsFurther (line :: a) nodes e) (nonempty : a ≠ []) :
    ∃ span, ReadsProgram a (.list nodes span) := by
  obtain ⟨first, a, rfl⟩ := List.exists_cons_of_ne_nil nonempty
  cases reading with
  | trailing _ _ _ lines isEnd => exact ⟨_, .empty first e lines isEnd⟩
  | next _ _ lines head tail => exact ⟨_, .statements first lines head tail⟩

/-- How many line ends there are in front of further statements does not matter. -/
theorem ReadsFurther.moved (reading : ReadsFurther a nodes e) (isLine : line.lexeme = .newline)
    (lines : pastNewlines b = pastNewlines a) : ReadsFurther (line :: b) nodes e := by
  cases reading with
  | last _ isEnd => exact .trailing line e isLine (lines.trans (pastNewlines_end isEnd)) isEnd
  | trailing _ _ isLine' lines' isEnd =>
      rw [pastNewlines_line isLine', lines'] at lines
      exact .trailing line e isLine lines isEnd
  | next _ isLine' lines' head tail =>
      rw [pastNewlines_line isLine', lines'] at lines
      exact .next line isLine lines head tail

/-- Behind the end there are no further statements. -/
theorem ReadsFurther.eq_nil_of_end (reading : ReadsFurther a nodes e') (isEnd : e.lexeme = .eof)
    (lines : pastNewlines a = [e]) : nodes = [] := by
  cases reading with
  | last eof isEnd => rfl
  | trailing line eof isLine lines isEnd => rfl
  | next line isLine lines' head tail =>
      rw [pastNewlines_line isLine, lines'] at lines
      obtain ⟨t, rest, divided, starts⟩ := head.starts
      rw [lines] at divided
      rw [← (List.cons.inj divided).1, isEnd] at starts
      cases starts

/-- A statement and those after it, with a line end and more in place of the end. -/
theorem statement_goesOn (isEnd : e.lexeme = .eof) (isEnd' : e'.lexeme = .eof)
    (isLine : EndsLine line) {more : List Node}
    (further : ReadsFurther (line :: rest) more e') (head : Reads .statement a (.node node) c)
    (tail : ReadsFurther c others e)
    (shut : c = [e] → node.endsOpen = true → BraceBefore a c → pastNewlines (line :: rest) = [e'])
    (tail_goesOn : ∃ others', ReadsFurther (extend (line :: rest) c) others' e' ∧
      eraseAll others' = eraseAll (others ++ more)) :
    ∃ node' c' others', Reads .statement (extend (line :: rest) a) (.node node') c' ∧
      ReadsFurther c' others' e' ∧
      eraseAll (node' :: others') = eraseAll (node :: others ++ more) := by
  obtain ⟨x', c', reading, same, stops⟩ :=
    head.goesOn isEnd isEnd' isLine tail.endsIn fun last => ⟨rfl, shut last⟩
  obtain ⟨node', rfl, erased⟩ := Phrase.erase_eq_node same
  rcases stops with rfl | ⟨rfl, isOpen, before, rfl⟩
  · obtain ⟨others', reading', erased'⟩ := tail_goesOn
    exact ⟨node', _, others', reading, reading', by simp [eraseAll, erased, erased']⟩
  · -- The statement takes the line ends, so nothing else may follow.
    obtain rfl := tail.eq_nil_of_end isEnd (pastNewlines_end isEnd)
    obtain rfl := further.eq_nil_of_end isEnd' (shut rfl isOpen before)
    exact ⟨node', _, [], reading, .last e' isEnd', by simp [eraseAll, erased]⟩

/-- Further statements with a line end and more in place of the end. -/
theorem ReadsFurther.goesOn (reading : ReadsFurther a nodes e) (isEnd : e.lexeme = .eof)
    (isEnd' : e'.lexeme = .eof) (isLine : EndsLine line) {more : List Node}
    (further : ReadsFurther (line :: rest) more e')
    (shut : lastOpen nodes = true → BraceBefore a [e] → pastNewlines (line :: rest) = [e']) :
    ∃ nodes', ReadsFurther (extend (line :: rest) a) nodes' e' ∧
      eraseAll nodes' = eraseAll (nodes ++ more) := by
  induction reading with
  | last eof _ => exact ⟨more, further, rfl⟩
  | trailing line' eof isLine' lines _ =>
      have longer : _ ≠ [] := (EndsIn.of_pastNewlines lines ⟨[], rfl⟩).ne_nil
      rw [extend_cons _ longer]
      exact ⟨more, further.moved isLine' (pastNewlines_extend_last lines), rfl⟩
  | @next line' a b c node others e isLine' lines head tail ih =>
      have brace : ∀ {d}, BraceBefore b d → BraceBefore (line' :: a) d := by
        intro d before
        obtain ⟨ends, divided, -⟩ := exists_newlines a
        rw [divided, lines]
        exact (before.append ends).cons line'
      obtain ⟨ts, divided, -⟩ := head.derives
      have tail_goesOn := ih isEnd fun isOpen before => by
        refine shut ?_ (brace (divided ▸ before.append ts))
        cases others with
        | nil => cases isOpen
        | cons other others => simpa [lastOpen] using isOpen
      obtain ⟨node', c', others', reading, reading', erased⟩ :=
        statement_goesOn isEnd isEnd' isLine further head tail
          (fun last isOpen before => by
            subst last
            obtain rfl := tail.eq_nil_of_end isEnd (pastNewlines_end isEnd)
            exact shut isOpen (brace before))
          tail_goesOn
      have longer := (EndsIn.of_pastNewlines lines (head.endsIn tail.endsIn)).ne_nil
      rw [extend_cons _ longer]
      obtain ⟨t, b, rfl, longer'⟩ := head.exists_more tail.endsIn isEnd
      rw [extend_cons t longer'] at reading
      exact ⟨_, .next line' isLine' (pastNewlines_extend lines longer') reading reading', erased⟩

end

/-! ## Behind a branch without `ELSE` -/

section

variable {a b ts us : List Token}

/-- Only the end of the tokens decides whether there is a brace. -/
theorem BraceBefore.of_append (ts : List Token) (before : BraceBefore (ts ++ us ++ b) b) {t : Token}
    (member : t ∈ us) (other : t.lexeme ≠ .newline) : BraceBefore (us ++ b) b := by
  obtain ⟨front, span, lines, divided, ends⟩ := before
  have divided := List.append_cancel_right divided
  rcases List.append_eq_append_iff.mp divided with ⟨mid, rfl, tail⟩ | ⟨mid, rfl, tail⟩
  · exact ⟨mid, span, lines, by rw [tail], ends⟩
  · cases mid with
    | nil => exact ⟨[], span, lines, by rw [tail]; simp, ends⟩
    | cons u mid =>
        obtain ⟨rfl, rfl⟩ := List.cons.inj tail
        exact absurd (ends t (by simp [member])) other

theorem not_braceBefore_paren (ts : List Token) (span : Span) (b : List Token) :
    ¬ BraceBefore (ts ++ ⟨.rightParen, span⟩ :: b) b := by
  intro before
  have before : BraceBefore ([⟨.rightParen, span⟩] ++ b) b :=
    BraceBefore.of_append ts (by simpa using before) List.mem_cons_self Lexeme.noConfusion
  obtain ⟨front, brace, lines, divided, -⟩ := before
  have divided := List.append_cancel_right divided
  cases front with
  | nil => cases divided
  | cons u front => simp at divided

/-- The last part of a phrase has the brace of the phrase. -/
theorem Reads.braceBefore {s : Symbol} {x : Phrase} (reading : Reads s a x b)
    (direct : s.direct = true) (ts : List Token) (before : BraceBefore (ts ++ a) b) :
    BraceBefore a b := by
  obtain ⟨us, rfl, derived⟩ := reading.derives
  obtain ⟨t, rest, rfl, other⟩ := (derived.opensWith direct).exists_cons
  exact BraceBefore.of_append ts (by simpa using before) List.mem_cons_self other

theorem Level.direct_operand (level : Level) : level.operand.direct = true := by
  cases level <;> rfl

/-- Operands with operators between them end with the last operand. -/
theorem operands_end (ts : List Token) {level : Level} {c : List Token} {node : Node}
    {operations : List Operation} (first : Reads level.operand a (.node node) b)
    (others : Reads (.operations level) b (.operations operations) c)
    (isOpen : (applyAll node operations).endsOpen = true) (before : BraceBefore (ts ++ a) c) :
    (b = c ∧ leavesOpen level.operand (.node node) = true ∧ BraceBefore a b) ∨
      (leavesOpen (.operations level) (.operations operations) = true ∧ BraceBefore b c) := by
  cases others with
  | noOperation next a' noOperator =>
      exact Or.inl ⟨rfl, by cases level <;> exact isOpen,
        first.braceBefore level.direct_operand ts before⟩
  | @operation _ sign op a' b' _ right operations isOperator operand more =>
      obtain ⟨us, rfl, -⟩ := first.derives
      obtain ⟨vs, rfl, -⟩ := operand.derives
      obtain ⟨ws, rfl, -⟩ := more.derives
      have other : sign.lexeme ≠ .newline := by
        rw [lexeme_of_operator isOperator]
        cases op <;> exact Lexeme.noConfusion
      have before : BraceBefore (sign :: vs ++ ws ++ c) c :=
        BraceBefore.of_append (ts ++ us) (by simpa using before) List.mem_cons_self other
      exact Or.inr ⟨(leavesOpen_operations level node _ operations).trans isOpen, by
        simpa using before⟩

/-- Behind a branch without `ELSE` there is no line end. -/
theorem Reads.ends_ne_newline {s : Symbol} {x : Phrase} (reading : Reads s a x b)
    (isOpen : leavesOpen s x = true) (before : BraceBefore a b) :
    ∃ next rest, b = next :: rest ∧ next.lexeme ≠ .newline := by
  induction reading with
  | assign text span sign right ih =>
      exact ih isOpen (right.braceBefore rfl [_, _] before)
  | logical plain whole ih => exact ih isOpen before
  | negation word operand ih =>
      exact ih isOpen (operand.braceBefore rfl [_] before)
  | comparing whole ih => exact ih isOpen before
  | @chain level a b c left operations first others first_ih others_ih =>
      rcases operands_end [] first others isOpen before with
        ⟨rfl, isOpen, before⟩ | ⟨isOpen, before⟩
      · exact first_ih isOpen before
      · exact others_ih isOpen before
  | @operation level sign op a b c right operations isOperator operand others operand_ih
      others_ih =>
      have isOpen : (applyAll right operations).endsOpen = true := by
        rw [leavesOpen_operations level right, endsOpen_applyAll] at isOpen
        rw [endsOpen_applyAll]
        cases operations <;> exact isOpen
      rcases operands_end [sign] operand others isOpen before with
        ⟨rfl, isOpen, before⟩ | ⟨isOpen, before⟩
      · exact operand_ih isOpen before
      · exact others_ih isOpen before
  | sign sign isSign operand ih =>
      exact ih isOpen (operand.braceBefore rfl [_] before)
  | unsigned whole ih => exact ih isOpen before
  | base next whole ends ih => exact ih isOpen before
  | raised sign base isPower exponent base_ih exponent_ih =>
      obtain ⟨ts, rfl, -⟩ := base.derives
      exact exponent_ih isOpen
        (exponent.braceBefore rfl (ts ++ [sign]) (by simpa using before))
  | bare next whole ends ih => exact ih isOpen before
  | parenthesised opening closing inside ih =>
      obtain ⟨ts, rfl, -⟩ := inside.derives
      exact absurd before (not_braceBefore_paren (_ :: ts) closing _)
  | branch whole ih => exact ih isOpen before
  | lastCase span next guard inside lines noElif noElse guard_ih inside_ih =>
      exact ⟨next, _, rfl, ne_newline_of_pastNewlines lines⟩
  | @elifCase word span a b c d e test body parts guard inside lines others guard_ih
      inside_ih others_ih =>
      obtain ⟨ts, rfl, -⟩ := guard.derives
      obtain ⟨us, rfl, -⟩ := inside.derives
      obtain ⟨ends, divided, -⟩ := exists_newlines c
      rw [divided, lines] at before
      exact others_ih isOpen
        (others.braceBefore rfl (_ :: ts ++ us ++ ends) (by simpa using before))
  | returnValue word next result ih =>
      exact ih isOpen (result.braceBefore rfl [_] before)
  | evaluated whole ih => exact ih isOpen before
  | _ => cases isOpen

end

/-! ## Two ways to cut the tokens -/

section

variable {line e e' : Token} {a b c ends r ts us : List Token} {nodes others : List Node}

theorem eraseAll_eq_map (nodes : List Node) : eraseAll nodes = nodes.map Node.erase := by
  induction nodes with
  | nil => rfl
  | cons node nodes ih => simp [eraseAll, ih]

theorem eraseAll_eq_nil_iff : eraseAll nodes = [] ↔ nodes = [] := by
  rw [eraseAll_eq_map, List.map_eq_nil_iff]

theorem lastOpen_eraseAll (nodes : List Node) : lastOpen (eraseAll nodes) = lastOpen nodes := by
  rw [eraseAll_eq_map, lastOpen, List.getLast?_map, lastOpen]
  cases nodes.getLast? <;> simp

theorem mem_solid {t : Token} (member : t ∈ ts) (kept : isSolid t = true) : solid ts ≠ [] := by
  rw [solid, ne_eq, List.map_eq_nil_iff, List.filter_eq_nil_iff]
  exact fun absent => absent t member kept

/-- Line ends and opening parentheses that leave nothing open are line ends. -/
theorem newlines_of_openParens (simple : ∀ t ∈ ts, t.lexeme = .newline ∨ t.lexeme = .leftParen) :
    0 ≤ openParens ts ∧ (openParens ts = 0 → Newlines ts) := by
  induction ts with
  | nil => exact ⟨Int.le_refl 0, fun _ => newlines_nil⟩
  | cons t ts ih =>
      obtain ⟨least, areLines⟩ := ih fun u member => simple u (List.mem_cons_of_mem t member)
      rcases simple t List.mem_cons_self with isLine | isOpening
      · have same : openParens (t :: ts) = openParens ts := by simp [isLine, opens]
        rw [same]
        refine ⟨least, fun balanced u member => ?_⟩
        rcases List.mem_cons.mp member with rfl | later
        · exact isLine
        · exact areLines balanced u later
      · have more : openParens (t :: ts) = 1 + openParens ts := by simp [isOpening, opens]
        rw [more]
        exact ⟨by omega, fun balanced => by omega⟩

/-- What lies before the first solid token of a phrase and is balanced consists of line ends. -/
theorem OpensWith.newlines (opens : OpensWith ts) (areLines : Newlines ends)
    (divided : ends ++ ts = r ++ c) (empty : solid r = []) (balanced : openParens r = 0) :
    Newlines r := by
  obtain ⟨opened, t, rest, rfl, areOpen, kept⟩ := opens
  refine (newlines_of_openParens fun u member => ?_).2 balanced
  have within : u ∈ ends ++ opened := by
    rw [← List.append_assoc] at divided
    rcases List.append_eq_append_iff.mp divided with ⟨mid, rfl, tail⟩ | ⟨mid, same, -⟩
    · cases mid with
      | nil => simpa using member
      | cons v mid =>
          obtain ⟨rfl, -⟩ := List.cons.inj tail
          exact absurd empty (mem_solid (by simp) kept)
    · rw [same]
      exact List.mem_append_left mid member
  rcases List.mem_append.mp within with inLines | inOpened
  · exact Or.inl (areLines u inLines)
  · exact Or.inr (areOpen u inOpened)

theorem BraceBefore.append_newlines (before : BraceBefore a []) (areLines : Newlines ends) :
    BraceBefore (a ++ ends) [] := by
  obtain ⟨front, span, lines, rfl, areLines'⟩ := before
  refine ⟨front, span, lines ++ ends, by simp, fun t member => ?_⟩
  rcases List.mem_append.mp member with inLines | inEnds
  · exact areLines' t inLines
  · exact areLines t inEnds

theorem BraceBefore.of_append_empty (before : BraceBefore (a ++ r) []) (empty : solid r = []) :
    BraceBefore a [] := by
  obtain ⟨front, span, lines, divided, areLines⟩ := before
  rw [List.append_nil] at divided
  rcases List.append_eq_append_iff.mp divided with ⟨mid, rfl, tail⟩ | ⟨mid, rfl, tail⟩
  · rw [tail] at empty
    exact absurd empty (mem_solid (List.mem_append_right mid List.mem_cons_self) rfl)
  · cases mid with
    | nil =>
        obtain rfl : _ = r := tail
        exact absurd empty (mem_solid List.mem_cons_self rfl)
    | cons u mid =>
        obtain ⟨rfl, rfl⟩ := List.cons.inj tail
        exact ⟨front, span, mid, by simp, fun t member => areLines t (by simp [member])⟩

theorem braceBefore_append_iff : BraceBefore (a ++ b) b ↔ BraceBefore a [] := by
  constructor
  · rintro ⟨front, span, lines, divided, areLines⟩
    exact ⟨front, span, lines, by simpa using List.append_cancel_right divided, areLines⟩
  · rintro ⟨front, span, lines, rfl, areLines⟩
    exact ⟨front, span, lines, by simp, areLines⟩

/-- Further statements start with line ends and the first of them. -/
theorem ReadsFurther.opensWith (reading : ReadsFurther a nodes e) (nonempty : nodes ≠ []) :
    ∃ ends ts, a = ends ++ ts ∧ Newlines ends ∧ OpensWith ts := by
  cases reading with
  | last => contradiction
  | trailing => contradiction
  | next line isLine lines head tail =>
      obtain ⟨ends, divided, -, areLines⟩ := exists_newlines_cons isLine lines
      obtain ⟨ts, rfl, derived⟩ := head.derives
      exact ⟨ends, _, divided, areLines, (derived.opensWith rfl).append _⟩

theorem ReadsFurther.tokens (reading : ReadsFurther (ts ++ [e]) nodes e) :
    solid ts = statementLexemes nodes ∧ openParens ts = 0 := by
  obtain ⟨us, divided, derived⟩ := reading.derives
  obtain rfl := List.append_cancel_right divided
  exact ⟨derived.solid, derived.openParens⟩

/-- The tokens of the first statements, when a line end and other statements follow. -/
theorem ReadsFurther.split (reading : ReadsFurther a (nodes ++ others) e) (nonempty : nodes ≠ [])
    (more : others ≠ []) :
    ∃ us ts c last, a = us ++ ts ++ c ∧ solid (us ++ ts) = statementLexemes nodes ∧
      openParens (us ++ ts) = 0 ∧ nodes.getLast? = some last ∧
      Reads .statement (ts ++ c) (.node last) c ∧
      ∃ line rest, c = line :: rest ∧ line.lexeme = .newline := by
  induction nodes generalizing a with
  | nil => contradiction
  | cons node nodes ih =>
      cases reading with
      | @next line a b c _ _ _ isLine lines head tail =>
          obtain ⟨ends, divided, -, areLines⟩ := exists_newlines_cons isLine lines
          obtain ⟨vs, rfl, derived⟩ := head.derives
          have same : solid vs = node.lexemes := derived.solid
          cases nodes with
          | nil =>
              refine ⟨ends, vs, c, node, by rw [divided]; simp, ?_, ?_, rfl, head, ?_⟩
              · simp [solid_newlines areLines, same, statementLexemes]
              · simp [openParens_newlines areLines, derived.openParens]
              · cases tail with
                | last => contradiction
                | trailing => contradiction
                | next line isLine lines head tail => exact ⟨line, _, rfl, isLine⟩
          | cons other nodes =>
              obtain ⟨us, ts, d, last, rfl, kept, balanced, isLast, final⟩ :=
                ih tail (by simp)
              refine ⟨ends ++ vs ++ us, ts, d, last, by rw [divided]; simp, ?_, ?_, ?_, final⟩
              · rw [List.append_assoc, solid_append, kept]
                simp [solid_newlines areLines, same, statementLexemes]
              · rw [List.append_assoc, openParens_append, balanced]
                simp [openParens_newlines areLines, derived.openParens]
              · simpa using isLast

end

/-! ## The exact condition -/

section

variable {p q : List Token} {line e e₁ e₂ e₃ : Token} {S T nodes : List Node}

/-- A program whose tokens end with the closing brace of a branch without `ELSE`. -/
def EndsOpen (tokens : List Token) (nodes : List Node) : Prop :=
  lastOpen nodes = true ∧ BraceBefore tokens []

theorem endsOpen_cons_iff (isLine : line.lexeme = .newline) :
    EndsOpen (line :: p) S ↔ EndsOpen p S := by
  refine and_congr_right fun _ => ⟨?_, fun before => before.cons line⟩
  rintro ⟨front, span, lines, divided, areLines⟩
  cases front with
  | nil =>
      rw [(List.cons.inj divided).1] at isLine
      cases isLine
  | cons u front => exact ⟨front, span, lines, (List.cons.inj divided).2, areLines⟩

theorem ReadsFurther.pastNewlines_eq (reading : ReadsFurther p [] e) : pastNewlines p = [e] := by
  cases reading with
  | last _ isEnd => exact pastNewlines_end isEnd
  | trailing _ _ isLine lines _ => exact (pastNewlines_line isLine _).trans lines

/-- Further statements before another end. -/
theorem ReadsFurther.withEnd (reading : ReadsFurther (q ++ [e]) T e) (isEnd : e.lexeme = .eof)
    (isEnd' : e₃.lexeme = .eof) :
    ∃ T', ReadsFurther (q ++ [e₃]) T' e₃ ∧ eraseAll T' = eraseAll T := by
  obtain ⟨T', reading', same⟩ := reading.goesOn isEnd isEnd' (Or.inr isEnd') (.last e₃ isEnd')
    fun _ _ => pastNewlines_end isEnd'
  exact ⟨T', by simpa [extend] using reading', by simpa using same⟩

/-- If the first program does not end open, or nothing follows, all statements are read in turn. -/
theorem ReadsFurther.sequence (isEnd₁ : e₁.lexeme = .eof) (isEnd₃ : e₃.lexeme = .eof)
    (isLine : line.lexeme = .newline) (first : ReadsFurther (p ++ [e₁]) S e₁)
    (second : ReadsFurther (line :: q ++ [e₃]) T e₃) (apart : EndsOpen p S → T = []) :
    ∃ nodes, ReadsFurther (p ++ line :: q ++ [e₃]) nodes e₃ ∧
      eraseAll nodes = eraseAll (S ++ T) := by
  obtain ⟨nodes, reading, same⟩ :=
    first.goesOn isEnd₁ isEnd₃ (Or.inl isLine) second fun isOpen before => by
      obtain rfl := apart ⟨isOpen, braceBefore_append_iff.mp before⟩
      exact second.pastNewlines_eq
  exact ⟨nodes, by simpa [extend] using reading, same⟩

/-- If the first program ends open, its last statement takes the line ends, so no reading gives the
statements of both programs in turn. -/
theorem ReadsFurther.not_sequence (first : ReadsFurther (p ++ [e₁]) S e₁)
    (second : ReadsFurther (line :: q ++ [e₃]) T e₃)
    (isOpen : EndsOpen p S) (more : T ≠ [])
    (reading : ReadsFurther (p ++ line :: q ++ [e₃]) nodes e₃) :
    eraseAll nodes ≠ eraseAll (S ++ T) := by
  intro same
  rw [eraseAll_append, eraseAll_eq_map nodes] at same
  obtain ⟨A, B, rfl, sameA, sameB⟩ := List.map_eq_append_iff.mp same
  rw [← eraseAll_eq_map] at sameA sameB
  have nonempty : A ≠ [] := by
    rintro rfl
    obtain rfl := eraseAll_eq_nil_iff.mp sameA.symm
    cases isOpen.1
  have nonempty' : B ≠ [] := by
    intro empty
    exact more (eraseAll_eq_nil_iff.mp (by rw [← sameB, empty]; rfl))
  obtain ⟨us, ts, c, last, divided, kept, balanced, isLast, final, line', rest, rfl, isLine'⟩ :=
    reading.split nonempty nonempty'
  obtain ⟨kept', balanced'⟩ := first.tokens
  -- Both ways to cut the tokens have the same solid tokens, so they differ by line ends only.
  have agree : solid (us ++ ts) = solid p := by
    rw [kept, kept', ← statementLexemes_erase, sameA, statementLexemes_erase]
  have before : BraceBefore (us ++ ts) [] := by
    rw [List.append_assoc] at divided
    rcases List.append_eq_append_iff.mp divided with ⟨r, longer, tail⟩ | ⟨r, rfl, tail⟩
    · rw [longer] at agree balanced ⊢
      obtain ⟨ends, vs, divided', areLines, opens⟩ := second.opensWith more
      have empty : solid r = [] := by simpa using agree
      have shut : openParens r = 0 := by simpa [balanced'] using balanced
      exact isOpen.2.append_newlines
        (opens.newlines areLines (divided'.symm.trans tail) empty shut)
    · refine isOpen.2.of_append_empty ?_
      simpa using agree
  have isOpen' : last.endsOpen = true := by
    have lastA : lastOpen A = true := by
      rw [← lastOpen_eraseAll, sameA, lastOpen_eraseAll]
      exact isOpen.1
    simpa [lastOpen, isLast] using lastA
  have before' : BraceBefore (ts ++ line' :: rest) (line' :: rest) :=
    final.braceBefore rfl us (by simpa using braceBefore_append_iff.mpr before)
  obtain ⟨next, rest', found, other⟩ := final.ends_ne_newline isOpen' before'
  exact other ((List.cons.inj found).1 ▸ isLine')

theorem ReadsProgram.exists_list {node : Node} (reading : ReadsProgram p node) :
    ∃ nodes span, node = .list nodes span := by
  cases reading <;> exact ⟨_, _, rfl⟩

theorem exists_list_of_isOk (tokens : List Token) (noEnd : ∀ t ∈ tokens, t.lexeme ≠ .eof)
    (accepted : (parseProgram (tokens ++ [⟨.eof, default⟩])).isOk = true) :
    ∃ nodes span, parseProgram (tokens ++ [⟨.eof, default⟩]) = .ok (.list nodes span) := by
  obtain ⟨node, parsed⟩ := exists_of_isOk _ accepted
  obtain ⟨nodes, span, rfl⟩ :=
    (readsProgram_of_parseProgram (ended_append rfl noEnd) parsed).exists_list
  exact ⟨nodes, span, parsed⟩

/-- Two programs on consecutive lines are accepted with the statements of both, in turn and up to
places, exactly if the first does not end open or the second is empty. -/
theorem parseProgram_lines_iff {p q : List Token} {line e₁ e₂ e₃ : Token} {S T : List Node}
    {span₁ span₂ : Span} (isLine : line.lexeme = .newline) (isEnd₁ : e₁.lexeme = .eof)
    (isEnd₂ : e₂.lexeme = .eof) (isEnd₃ : e₃.lexeme = .eof) (noEnd₁ : ∀ t ∈ p, t.lexeme ≠ .eof)
    (noEnd₂ : ∀ t ∈ q, t.lexeme ≠ .eof)
    (first : parseProgram (p ++ [e₁]) = .ok (.list S span₁))
    (second : parseProgram (q ++ [e₂]) = .ok (.list T span₂)) :
    (∃ nodes span, parseProgram (p ++ line :: q ++ [e₃]) = .ok (.list nodes span) ∧
      eraseAll nodes = eraseAll (S ++ T)) ↔ (EndsOpen p S → T = []) := by
  have first := (readsProgram_of_parseProgram (ended_append isEnd₁ noEnd₁) first).further isLine
  have second := (readsProgram_of_parseProgram (ended_append isEnd₂ noEnd₂) second).further isLine
  obtain ⟨T', second, same⟩ := second.withEnd isEnd₂ isEnd₃
  have same' : eraseAll (S ++ T') = eraseAll (S ++ T) := by
    rw [eraseAll_append, same, eraseAll_append]
  have none_iff : T' = [] ↔ T = [] := by
    rw [← eraseAll_eq_nil_iff, same, eraseAll_eq_nil_iff]
  rw [← none_iff, ← same', ← endsOpen_cons_iff isLine]
  constructor
  · rintro ⟨nodes, span, parsed, sames⟩ isOpen
    refine Decidable.byContradiction fun more => ?_
    have noEnd : ∀ t ∈ p ++ line :: q, t.lexeme ≠ .eof := by
      intro t member
      rcases List.mem_append.mp member with inFirst | inRest
      · exact noEnd₁ t inFirst
      · rcases List.mem_cons.mp inRest with rfl | inSecond
        · rw [isLine]
          exact Lexeme.noConfusion
        · exact noEnd₂ t inSecond
    have reading := (readsProgram_of_parseProgram (ended_append isEnd₃ noEnd) parsed).further isLine
    exact first.not_sequence second isOpen more reading sames
  · intro apart
    obtain ⟨nodes, reading, sames⟩ := first.sequence isEnd₁ isEnd₃ isLine second apart
    obtain ⟨span, reading⟩ := reading.program (by simp)
    exact ⟨nodes, span, reading.parses, sames⟩

/-- A branch with `ELSE` and a name on the next line. -/
theorem parseProgram_lines_iff_else : ∃ (p q : List Token) (S T : List Node) (span₁ span₂ : Span),
    parseProgram (p ++ [⟨.eof, default⟩]) = .ok (.list S span₁) ∧
    parseProgram (q ++ [⟨.eof, default⟩]) = .ok (.list T span₂) ∧
    ((∃ nodes span, parseProgram (p ++ ⟨.newline, default⟩ :: q ++ [⟨.eof, default⟩]) =
      .ok (.list nodes span) ∧ eraseAll nodes = eraseAll (S ++ T)) ↔ (EndsOpen p S → T = [])) := by
  obtain ⟨S, span₁, first⟩ := exists_list_of_isOk (unplaced [.keyword .ifWord,
    .leftParen, .keyword .trueWord, .rightParen, .leftBrace, .int 1, .rightBrace,
    .keyword .elseWord, .leftBrace, .int 2, .rightBrace, .newline]) (by simp [unplaced])
    (by decide +kernel)
  obtain ⟨T, span₂, second⟩ := exists_list_of_isOk (unplaced [.newline, .name "x"])
    (by simp [unplaced]) (by decide +kernel)
  exact ⟨_, _, S, T, span₁, span₂, first, second, parseProgram_lines_iff rfl rfl rfl rfl
    (by simp [unplaced]) (by simp [unplaced]) first second⟩

/-- A branch without `ELSE` is not followed by a name on the next line. -/
theorem parseProgram_lines_open : ∃ p q : List Token,
    (parseProgram (p ++ [⟨.eof, default⟩])).isOk = true ∧
    (parseProgram (q ++ [⟨.eof, default⟩])).isOk = true ∧
    (parseProgram (p ++ ⟨.newline, default⟩ :: q ++ [⟨.eof, default⟩])).isOk = false :=
  ⟨unplaced [.keyword .ifWord, .leftParen, .int 1, .rightParen, .leftBrace, .int 1, .rightBrace],
    unplaced [.name "x"], by decide +kernel⟩

end

end Grammar
end Pseudocode
