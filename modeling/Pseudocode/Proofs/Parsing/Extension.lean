import Pseudocode.Proofs.Parsing.Reading
import Pseudocode.Proofs.Tree.Shape

/-!
# Going on after the end

What is read before the end of a program is read in the same way if a line end and more follow
instead, or just another end, with one exception.  A branch without `ELSE` also takes the line ends
after its closing brace, so a phrase that ends with such a branch takes the line end that was put
there.  That does no harm only if nothing but line ends follow.
-/

namespace Pseudocode
namespace Grammar

/-! ## Phrases up to places -/

/-- An operation without places. -/
def Operation.erase (o : Operation) : Operation :=
  ⟨o.op, default, o.operand.erase⟩

/-- The parts of a branch without places. -/
def Cases.erase (parts : Cases) : Cases :=
  ⟨parts.condition.erase, parts.body.erase, eraseGuards parts.others, eraseOption parts.otherwise⟩

/-- A phrase without places. -/
def Phrase.erase : Phrase → Phrase
  | .node tree => .node tree.erase
  | .nodes trees => .nodes (eraseAll trees)
  | .operations list => .operations (list.map Operation.erase)
  | .cases parts => .cases parts.erase

theorem Phrase.erase_eq_node {x : Phrase} {node : Node}
    (same : x.erase = Phrase.erase (.node node)) :
    ∃ node', x = .node node' ∧ node'.erase = node.erase := by
  cases x with
  | node node' => exact ⟨node', rfl, Phrase.node.inj same⟩
  | _ => cases same

theorem Phrase.erase_eq_nodes {x : Phrase} {nodes : List Node}
    (same : x.erase = Phrase.erase (.nodes nodes)) :
    ∃ nodes', x = .nodes nodes' ∧ eraseAll nodes' = eraseAll nodes := by
  cases x with
  | nodes nodes' => exact ⟨nodes', rfl, Phrase.nodes.inj same⟩
  | _ => cases same

theorem Phrase.erase_eq_operations {x : Phrase} {operations : List Operation}
    (same : x.erase = Phrase.erase (.operations operations)) :
    ∃ operations', x = .operations operations' ∧
      operations'.map Operation.erase = operations.map Operation.erase := by
  cases x with
  | operations operations' => exact ⟨operations', rfl, Phrase.operations.inj same⟩
  | _ => cases same

theorem Phrase.erase_eq_cases {x : Phrase} {parts : Cases}
    (same : x.erase = Phrase.erase (.cases parts)) :
    ∃ parts', x = .cases parts' ∧ parts'.erase = parts.erase := by
  cases x with
  | cases parts' => exact ⟨parts', rfl, Phrase.cases.inj same⟩
  | _ => cases same

theorem erase_applyAll {left left' : Node} {operations operations' : List Operation}
    (same : left'.erase = left.erase)
    (sames : operations'.map Operation.erase = operations.map Operation.erase) :
    (applyAll left' operations').erase = (applyAll left operations).erase := by
  induction operations generalizing left left' operations' with
  | nil =>
      obtain rfl := List.map_eq_nil_iff.mp sames
      exact same
  | cons o operations ih =>
      obtain ⟨o', operations', rfl, head, tail⟩ := List.map_eq_cons_iff.mp sames
      rw [applyAll_cons, applyAll_cons]
      refine ih ?_ tail
      simp only [Operation.erase, Operation.mk.injEq] at head
      simp [Node.mkBinary, Node.erase, same, head]

/-! ## Ends of phrases -/

/-- Whether a phrase ends with a branch without `ELSE`.  Conditions and blocks end with a
bracket. -/
def leavesOpen : Symbol → Phrase → Bool
  | .condition, _ => false
  | .braces, _ => false
  | .block, _ => false
  | _, .node node => node.endsOpen
  | _, .operations operations => operations.getLast?.any fun o => o.operand.endsOpen
  | _, .cases parts => parts.otherwise.isNone
  | _, .nodes _ => false

/-- What was taken ends with a closing brace and line ends. -/
def BraceBefore (a b : List Token) : Prop :=
  ∃ front span lines, a = front ++ ⟨.rightBrace, span⟩ :: lines ++ b ∧ Newlines lines

theorem BraceBefore.cons {a b : List Token} (before : BraceBefore a b) (t : Token) :
    BraceBefore (t :: a) b := by
  obtain ⟨front, span, lines, rfl, ends⟩ := before
  exact ⟨t :: front, span, lines, rfl, ends⟩

theorem BraceBefore.append {a b : List Token} (before : BraceBefore a b) (ts : List Token) :
    BraceBefore (ts ++ a) b := by
  induction ts with
  | nil => exact before
  | cons t ts ih => exact ih.cons t

/-- The last token is the given one. -/
def EndsIn (e : Token) (a : List Token) : Prop :=
  ∃ front, a = front ++ [e]

theorem EndsIn.ne_nil {e : Token} {a : List Token} (ends : EndsIn e a) : a ≠ [] := by
  obtain ⟨front, rfl⟩ := ends
  simp

theorem EndsIn.append {e : Token} {a : List Token} (ends : EndsIn e a) (ts : List Token) :
    EndsIn e (ts ++ a) := by
  obtain ⟨front, rfl⟩ := ends
  exact ⟨ts ++ front, by simp⟩

theorem Reads.endsIn {s : Symbol} {a b : List Token} {x : Phrase} {e : Token}
    (reading : Reads s a x b) (ends : EndsIn e b) : EndsIn e a := by
  obtain ⟨ts, rfl, -⟩ := reading.derives
  exact ends.append ts

/-- The tokens with others in place of the last one. -/
def extend (tail a : List Token) : List Token :=
  a.dropLast ++ tail

theorem extend_cons {tail a : List Token} (t : Token) (more : a ≠ []) :
    extend tail (t :: a) = t :: extend tail a := by
  simp [extend, List.dropLast_cons_of_ne_nil more]

theorem pastNewlines_append {lines : List Token} (ends : Newlines lines) (a : List Token) :
    pastNewlines (lines ++ a) = pastNewlines a := by
  induction lines with
  | nil => rfl
  | cons line lines ih =>
      have rest := ih fun t member => ends t (List.mem_cons_of_mem line member)
      simpa [pastNewlines, isNewline_iff.mpr (ends line List.mem_cons_self)] using rest

theorem ne_newline_of_pastNewlines {a b : List Token} {t : Token}
    (lines : pastNewlines a = t :: b) : t.lexeme ≠ .newline := by
  have first := List.head?_dropWhile_not isNewline a
  rw [show a.dropWhile isNewline = t :: b from lines] at first
  intro line
  rw [List.head?_cons] at first
  simp [isNewline_iff.mpr line] at first

/-- Line ends are stepped over as before, unless only the last token is left. -/
theorem pastNewlines_extend {tail a b : List Token} {t : Token} (lines : pastNewlines a = t :: b)
    (more : b ≠ []) : pastNewlines (extend tail a) = t :: extend tail b := by
  obtain ⟨ends, divided, areLines⟩ := exists_newlines a
  rw [lines] at divided
  have moved : extend tail a = ends ++ t :: extend tail b := by
    rw [divided, ← extend_cons t more]
    simp [extend, List.dropLast_append_of_ne_nil]
  rw [moved, pastNewlines_append areLines, pastNewlines_cons (ne_newline_of_pastNewlines lines)]

theorem pastNewlines_extend_last {tail a : List Token} {e : Token} (lines : pastNewlines a = [e]) :
    pastNewlines (extend tail a) = pastNewlines tail := by
  obtain ⟨ends, divided, areLines⟩ := exists_newlines a
  rw [lines] at divided
  have moved : extend tail a = ends ++ tail := by
    rw [divided]
    simp [extend]
  rw [moved, pastNewlines_append areLines]

/-- A token that ends a line: a line end or the end of the program. -/
def EndsLine (t : Token) : Prop :=
  t.lexeme = .newline ∨ t.lexeme = .eof

theorem EndsLine.elim {t : Token} (ends : EndsLine t) (P : Lexeme → Prop) (atLine : P .newline)
    (atEnd : P .eof) : P t.lexeme := by
  rcases ends with isLine | isEnd
  · rwa [isLine]
  · rwa [isEnd]

theorem assigns_extend {line : Token} {rest a : List Token} (isLine : EndsLine line)
    (plain : assigns a = false) : assigns (extend (line :: rest) a) = false := by
  have noName : line.lexeme.isName = false := isLine.elim (Lexeme.isName · = false) rfl rfl
  have noSign : isAssign line.lexeme = false := isLine.elim (isAssign · = false) rfl rfl
  have noStart : assigns (line :: rest) = false := by
    cases rest <;> simp [assigns, noName]
  rcases a with _ | ⟨t, _ | ⟨u, _ | ⟨v, a⟩⟩⟩
  · exact noStart
  · exact noStart
  · simp [extend, assigns, noSign]
  · rw [extend_cons t (by simp), extend_cons u (by simp)]
    exact plain

section

variable {e : Token}

theorem EndsIn.eq_of_singleton {t : Token} (ends : EndsIn e [t]) : t = e := by
  obtain ⟨front, divided⟩ := ends
  cases front with
  | nil => exact (List.cons.inj divided).1
  | cons u front => simp at divided

theorem EndsIn.of_pastNewlines {c d : List Token} (lines : pastNewlines c = d) (ends : EndsIn e d) :
    EndsIn e c := by
  obtain ⟨front, divided, -⟩ := exists_newlines c
  rw [divided, lines]
  exact ends.append front

theorem EndsIn.more {t : Token} {a : List Token} (ends : EndsIn e (t :: a))
    (isEnd : e.lexeme = .eof) (other : t.lexeme ≠ .eof) : a ≠ [] := by
  rintro rfl
  rw [ends.eq_of_singleton] at other
  contradiction

theorem ne_last {t : Token} {a : List Token} (isEnd : e.lexeme = .eof) (other : t.lexeme ≠ .eof) :
    t :: a ≠ [e] := by
  intro last
  rw [(List.cons.inj last).1] at other
  contradiction

/-- Behind the last token there is nothing to read. -/
theorem Reads.eq_last {s : Symbol} {x : Phrase} {c : List Token} (reading : Reads s [e] x c)
    (ends : EndsIn e c) : c = [e] := by
  obtain ⟨ts, divided, -⟩ := reading.derives
  cases ts with
  | nil => exact divided.symm
  | cons t ts =>
      have none := (List.cons.inj divided).2
      exact absurd (List.append_eq_nil_iff.mp none.symm).2 ends.ne_nil

theorem Reads.exists_brace {a c : List Token} {x : Phrase} (reading : Reads .braces a x c) :
    ∃ front span, a = front ++ ⟨.rightBrace, span⟩ :: c := by
  cases reading with
  | @braces opening closing _ b _ node lines inside =>
      obtain ⟨ends, divided, -⟩ := exists_newlines a
      obtain ⟨ts, rfl, -⟩ := inside.derives
      exact ⟨ends ++ ⟨.leftBrace, opening⟩ :: ts, closing, by rw [divided, lines]; simp⟩

theorem Reads.braces_ne_last {b c : List Token} {x : Phrase} (reading : Reads .braces b x c)
    (ends : EndsIn e c) : b ≠ [e] := by
  intro last
  obtain ⟨front, span, divided⟩ := reading.exists_brace
  have lengths := congrArg List.length (last.symm.trans divided)
  have positive := List.length_pos_iff.mpr ends.ne_nil
  simp only [List.length_append, List.length_cons, List.length_nil] at lengths
  omega

/-- Before the end of the program there is more behind the first token of a statement. -/
theorem Reads.exists_more {a b : List Token} {x : Phrase} (reading : Reads .statement a x b)
    (ends : EndsIn e b) (isEnd : e.lexeme = .eof) : ∃ t c, a = t :: c ∧ c ≠ [] := by
  obtain ⟨t, c, rfl, starts⟩ := reading.starts
  have other : t.lexeme ≠ .eof := fun isEnd => by rw [isEnd] at starts; cases starts
  exact ⟨t, c, rfl, (reading.endsIn ends).more isEnd other⟩

theorem endsOpen_applyAll (left : Node) (operations : List Operation) :
    (applyAll left operations).endsOpen =
      (operations.getLast?.map fun o => o.operand.endsOpen).getD left.endsOpen := by
  induction operations generalizing left with
  | nil => rfl
  | cons o operations ih =>
      rw [applyAll_cons, ih]
      cases operations <;> rfl

/-- Operations end as their last operand does. -/
theorem leavesOpen_operations (level : Level) (left : Node) (o : Operation)
    (operations : List Operation) :
    leavesOpen (.operations level) (.operations (o :: operations)) =
      (applyAll left (o :: operations)).endsOpen := by
  rw [endsOpen_applyAll]
  cases last : (o :: operations).getLast? with
  | none => simp at last
  | some final => simp [leavesOpen, last]

theorem erase_branch {parts parts' : Cases} (same : parts'.erase = parts.erase) :
    parts'.branch.erase = parts.branch.erase := by
  have parts_erase : ∀ p : Cases, p.branch.erase =
      .branch p.erase.condition p.erase.body p.erase.others p.erase.otherwise default :=
    fun _ => rfl
  rw [parts_erase, parts_erase, same]

end

/-! ## Reading on -/

/-- Symbols whose phrases are always followed by a bracket. -/
def Symbol.enclosed : Symbol → Bool
  | .items => true
  | .moreItems => true
  | .block => true
  | .moreStatements => true
  | _ => false

/-- Where reading stops with other tokens in place of the last one: at the same place, or, behind a
branch without `ELSE`, at the end that follows the line ends. -/
def StopsAt (tail : List Token) (e e' : Token) (s : Symbol) (a : List Token) (x : Phrase)
    (b b' : List Token) : Prop :=
  b' = extend tail b ∨ (b = [e] ∧ leavesOpen s x = true ∧ BraceBefore a b ∧ b' = [e'])

/-- If the phrase reaches the last token, it may do so, and if it takes the line ends that were put
there, nothing else follows. -/
def MayReach (tail : List Token) (e e' : Token) (s : Symbol) (a : List Token) (x : Phrase)
    (b : List Token) : Prop :=
  b = [e] → s.enclosed = false ∧
    (leavesOpen s x = true → BraceBefore a b → pastNewlines tail = [e'])

/-- What is read is also read with other tokens in place of the last one. -/
def Extends (tail : List Token) (e e' : Token) (s : Symbol) (a : List Token) (x : Phrase)
    (b : List Token) : Prop :=
  EndsIn e b → MayReach tail e e' s a x b →
    ∃ x' b', Reads s (extend tail a) x' b' ∧ x'.erase = x.erase ∧ StopsAt tail e e' s a x b b'

section

variable {tail : List Token} {e e' : Token}

theorem MayReach.ne_last {s : Symbol} {a b : List Token} {x : Phrase}
    (may : MayReach tail e e' s a x b) (enclosed : s.enclosed = true) : b ≠ [e] := by
  intro last
  simp [(may last).1] at enclosed

/-- The lookahead is as before, or a line end, or the end of the program. -/
theorem exists_extend_cons {line next : Token} (rest b : List Token) (isLine : EndsLine line)
    (P : Lexeme → Prop) (found : P next.lexeme) (atLine : P .newline) (atEnd : P .eof) :
    ∃ next' c, extend (line :: rest) (next :: b) = next' :: c ∧ P next'.lexeme := by
  cases b with
  | nil => exact ⟨line, rest, rfl, isLine.elim P atLine atEnd⟩
  | cons u b => exact ⟨next, _, extend_cons next (by simp), found⟩

theorem StopsAt.look {line next : Token} {rest a b b' : List Token} {s : Symbol} {x : Phrase}
    (stops : StopsAt (line :: rest) e e' s a x (next :: b) b') (isLine : EndsLine line)
    (isEnd' : e'.lexeme = .eof) (P : Lexeme → Prop) (found : P next.lexeme) (atLine : P .newline)
    (atEnd : P .eof) : ∃ next' c, b' = next' :: c ∧ P next'.lexeme := by
  rcases stops with rfl | ⟨-, -, -, rfl⟩
  · exact exists_extend_cons rest b isLine P found atLine atEnd
  · exact ⟨e', [], rfl, by rwa [isEnd']⟩

namespace Extends

variable {s s₁ s₂ : Symbol} {t : Token} {a a₁ b c : List Token} {x x₁ : Phrase}
  {node first test body : Node} {nodes others : List Node}

/-- A part that is followed by another one. -/
theorem inner (part : Extends tail e e' s a x b) (ends : EndsIn e b) (more : b ≠ [e]) :
    ∃ x', Reads s (extend tail a) x' (extend tail b) ∧ x'.erase = x.erase := by
  obtain ⟨x', b', reading, same, stops⟩ := part ends fun last => absurd last more
  rcases stops with rfl | ⟨last, -⟩
  · exact ⟨x', reading, same⟩
  · contradiction

/-- A part that is followed by a token of the phrase. -/
theorem beforeNode (part : Extends tail e e' s a (.node node) (t :: b)) (isEnd : e.lexeme = .eof)
    (other : t.lexeme ≠ .eof) (ends : EndsIn e b) :
    ∃ node', Reads s (extend tail a) (.node node') (t :: extend tail b) ∧
      node'.erase = node.erase := by
  obtain ⟨x', reading, same⟩ := part.inner (ends.append [t]) (ne_last isEnd other)
  obtain ⟨node', rfl, erased⟩ := Phrase.erase_eq_node same
  rw [extend_cons t ends.ne_nil] at reading
  exact ⟨node', reading, erased⟩

theorem beforeNodes (part : Extends tail e e' s a (.nodes nodes) (t :: b))
    (isEnd : e.lexeme = .eof) (other : t.lexeme ≠ .eof) (ends : EndsIn e b) :
    ∃ nodes', Reads s (extend tail a) (.nodes nodes') (t :: extend tail b) ∧
      eraseAll nodes' = eraseAll nodes := by
  obtain ⟨x', reading, same⟩ := part.inner (ends.append [t]) (ne_last isEnd other)
  obtain ⟨nodes', rfl, erased⟩ := Phrase.erase_eq_nodes same
  rw [extend_cons t ends.ne_nil] at reading
  exact ⟨nodes', reading, erased⟩

/-- A block in braces. -/
theorem braced (part : Extends tail e e' .braces a (.node node) b) (ends : EndsIn e b) :
    ∃ node', Reads .braces (extend tail a) (.node node') (extend tail b) ∧
      node'.erase = node.erase := by
  obtain ⟨x', b', reading, same, stops⟩ := part ends fun _ => ⟨rfl, fun leaves => by cases leaves⟩
  obtain ⟨node', rfl, erased⟩ := Phrase.erase_eq_node same
  rcases stops with rfl | ⟨-, leaves, -⟩
  · exact ⟨node', reading, erased⟩
  · cases leaves

/-- A condition and the block behind it. -/
theorem guarded (guard : Extends tail e e' .condition a (.node test) b)
    (block : Extends tail e e' .braces b (.node body) c) (inside : Reads .braces b (.node body) c)
    (ends : EndsIn e c) :
    ∃ test' body', Reads .condition (extend tail a) (.node test') (extend tail b) ∧
      Reads .braces (extend tail b) (.node body') (extend tail c) ∧
      test'.erase = test.erase ∧ body'.erase = body.erase := by
  obtain ⟨x', reading, same⟩ := guard.inner (inside.endsIn ends) (inside.braces_ne_last ends)
  obtain ⟨test', rfl, erased⟩ := Phrase.erase_eq_node same
  obtain ⟨body', reading', erased'⟩ := block.braced ends
  exact ⟨test', body', reading, reading', erased, erased'⟩

/-- A first part and those behind it, before a bracket. -/
theorem sequence (head : Extends tail e e' s₁ a (.node first) b)
    (more : Extends tail e e' s₂ b (.nodes others) c) (reads : Reads s₂ b (.nodes others) c)
    (ends : EndsIn e c) (notLast : c ≠ [e]) :
    ∃ first' others', Reads s₁ (extend tail a) (.node first') (extend tail b) ∧
      Reads s₂ (extend tail b) (.nodes others') (extend tail c) ∧
      first'.erase = first.erase ∧ eraseAll others' = eraseAll others := by
  have notLast' : b ≠ [e] := by
    rintro rfl
    exact notLast (reads.eq_last ends)
  obtain ⟨x', reading, same⟩ := head.inner (reads.endsIn ends) notLast'
  obtain ⟨first', rfl, erased⟩ := Phrase.erase_eq_node same
  obtain ⟨y', reading', same'⟩ := more.inner ends notLast
  obtain ⟨others', rfl, erased'⟩ := Phrase.erase_eq_nodes same'
  exact ⟨first', others', reading, reading', erased, erased'⟩

/-- The last part of a phrase. -/
theorem edge (part : Extends tail e e' s₁ a₁ x₁ b) (may : MayReach tail e e' s a x b)
    (ends : EndsIn e b) (free : s₁.enclosed = false)
    (leaves : leavesOpen s₁ x₁ = true → leavesOpen s x = true)
    (brace : BraceBefore a₁ b → BraceBefore a b) :
    ∃ x' b', Reads s₁ (extend tail a₁) x' b' ∧ x'.erase = x₁.erase ∧
      StopsAt tail e e' s a x b b' := by
  obtain ⟨x', b', reading, same, stops⟩ :=
    part ends fun last => ⟨free, fun isOpen before => (may last).2 (leaves isOpen) (brace before)⟩
  refine ⟨x', b', reading, same, ?_⟩
  rcases stops with same | ⟨last, isOpen, before, same⟩
  · exact Or.inl same
  · exact Or.inr ⟨last, leaves isOpen, brace before, same⟩

theorem edgeNode (part : Extends tail e e' s₁ a₁ (.node node) b) (may : MayReach tail e e' s a x b)
    (ends : EndsIn e b) (free : s₁.enclosed = false)
    (leaves : leavesOpen s₁ (.node node) = true → leavesOpen s x = true)
    (brace : BraceBefore a₁ b → BraceBefore a b) :
    ∃ node' b', Reads s₁ (extend tail a₁) (.node node') b' ∧ node'.erase = node.erase ∧
      StopsAt tail e e' s a x b b' := by
  obtain ⟨x', b', reading, same, stops⟩ := part.edge may ends free leaves brace
  obtain ⟨node', rfl, erased⟩ := Phrase.erase_eq_node same
  exact ⟨node', b', reading, erased, stops⟩

/-- A part that is the whole phrase. -/
theorem whole (part : Extends tail e e' s₁ a (.node node) b) (free : s₁.enclosed = false)
    (leaves : leavesOpen s₁ (.node node) = true → leavesOpen s (.node node) = true)
    (rule : ∀ node' b', Reads s₁ (extend tail a) (.node node') b' →
      StopsAt tail e e' s a (.node node) b b' → Reads s (extend tail a) (.node node') b') :
    Extends tail e e' s a (.node node) b := by
  intro ends may
  obtain ⟨node', b', reading, erased, stops⟩ := part.edgeNode may ends free leaves id
  exact ⟨.node node', b', rule node' b' reading stops, congrArg Phrase.node erased, stops⟩

/-- A phrase of one token. -/
theorem token (rule : ∀ b, Reads s (t :: b) x b) (b : List Token) :
    Extends tail e e' s (t :: b) x b := by
  intro ends _
  refine ⟨x, extend tail b, ?_, rfl, Or.inl rfl⟩
  rw [extend_cons t ends.ne_nil]
  exact rule _

end Extends

theorem ReadsNames.ne_nil {a b : List Token} {names : List Name} (reading : ReadsNames a names b) :
    a ≠ [] := by
  cases reading <;> simp

theorem ReadsParameters.ne_nil {a b : List Token} {names : List Name}
    (reading : ReadsParameters a names b) : a ≠ [] := by
  cases reading <;> simp

theorem ReadsNames.extend {a b : List Token} {names : List Name} (reading : ReadsNames a names b)
    (more : b ≠ []) : ReadsNames (extend tail a) names (extend tail b) := by
  induction reading with
  | last closing after =>
      rw [extend_cons _ more]
      exact .last closing _
  | @next comma span text tokens after names others ih =>
      rw [extend_cons _ (by simp), extend_cons _ others.ne_nil]
      exact .next comma span text (ih more)

theorem ReadsParameters.extend {a b : List Token} {names : List Name}
    (reading : ReadsParameters a names b) (more : b ≠ []) :
    ReadsParameters (extend tail a) names (extend tail b) := by
  cases reading with
  | none closing after =>
      rw [extend_cons _ more]
      exact .none closing _
  | @some span text tokens after names others =>
      rw [extend_cons _ others.ne_nil]
      exact .some span text (others.extend more)

end

section

variable {line e e' : Token} {rest : List Token}

/-- Operands with operators between them, the last of which may reach the end. -/
theorem operands_goOn {level : Level} {a b c : List Token} {node : Node}
    {operations : List Operation} {s : Symbol} {whole : List Token} {x : Phrase}
    (isEnd : e.lexeme = .eof) (isEnd' : e'.lexeme = .eof) (isLine : EndsLine line)
    (others : Reads (.operations level) b (.operations operations) c)
    (operand_ih : Extends (line :: rest) e e' level.operand a (.node node) b)
    (others_ih :
      Extends (line :: rest) e e' (.operations level) b (.operations operations) c)
    (leaves : operations = [] → node.endsOpen = true → leavesOpen s x = true)
    (leaves' : leavesOpen (.operations level) (.operations operations) = true →
      leavesOpen s x = true)
    (brace : ∀ {d}, BraceBefore a d → BraceBefore whole d)
    (brace' : ∀ {d}, BraceBefore b d → BraceBefore whole d) (ends : EndsIn e c)
    (may : MayReach (line :: rest) e e' s whole x c) :
    ∃ node' operations' b' c', Reads level.operand (extend (line :: rest) a) (.node node') b' ∧
      Reads (.operations level) b' (.operations operations') c' ∧ node'.erase = node.erase ∧
      operations'.map Operation.erase = operations.map Operation.erase ∧
      StopsAt (line :: rest) e e' s whole x c c' := by
  have free : level.operand.enclosed = false := by cases level <;> rfl
  have shape : leavesOpen level.operand (.node node) = node.endsOpen := by cases level <;> rfl
  cases others with
  | noOperation next a' noOperator =>
      obtain ⟨node', b', reading, erased, stops⟩ := operand_ih.edgeNode may ends free
        (fun isOpen => leaves rfl (shape ▸ isOpen)) brace
      have newline : level.operator? .newline = none := by cases level <;> rfl
      have eof : level.operator? .eof = none := by cases level <;> rfl
      obtain ⟨next', c', rfl, noOperator'⟩ :=
        stops.look isLine isEnd' (level.operator? · = none) noOperator newline eof
      exact ⟨node', [], _, _, reading, .noOperation next' c' noOperator', erased, rfl, stops⟩
  | operation sign isOperator operand more =>
      have other : sign.lexeme ≠ .eof := by
        intro isEnd
        rw [isEnd] at isOperator
        cases level <;> cases isOperator
      obtain ⟨x', reading, same⟩ :=
        operand_ih.inner (.append (operand.endsIn (more.endsIn ends)) [sign])
          (ne_last isEnd other)
      obtain ⟨node', rfl, erased⟩ := Phrase.erase_eq_node same
      obtain ⟨x'', c', reading', same', stops⟩ :=
        others_ih.edge may ends rfl leaves' brace'
      obtain ⟨operations', rfl, erased'⟩ := Phrase.erase_eq_operations same'
      exact ⟨node', operations', _, _, reading, reading', erased, erased', stops⟩

section

variable {level : Level} {a b c : List Token} {operations : List Operation}

theorem extends_chain {left : Node} (isEnd : e.lexeme = .eof) (isEnd' : e'.lexeme = .eof)
    (isLine : EndsLine line) (first : Reads level.operand a (.node left) b)
    (others : Reads (.operations level) b (.operations operations) c)
    (first_ih : Extends (line :: rest) e e' level.operand a (.node left) b)
    (others_ih :
      Extends (line :: rest) e e' (.operations level) b (.operations operations) c) :
    Extends (line :: rest) e e' (.chain level) a (.node (applyAll left operations)) c := by
  intro ends may
  obtain ⟨ts, divided, -⟩ := first.derives
  have leaves : leavesOpen (.operations level) (.operations operations) = true →
      leavesOpen (.chain level) (.node (applyAll left operations)) = true := by
    intro isOpen
    cases operations with
    | nil => cases isOpen
    | cons o operations => exact (leavesOpen_operations level left o operations).symm.trans isOpen
  obtain ⟨left', operations', b', c', reading, reading', same, same', stops⟩ :=
    operands_goOn isEnd isEnd' isLine others first_ih others_ih
      (fun same isOpen => by subst same; exact isOpen) leaves id
      (fun before => divided ▸ before.append ts) ends may
  have agree := erase_applyAll same same'
  exact ⟨_, c', .chain reading reading', congrArg Phrase.node agree, stops⟩

theorem extends_noOperation {next : Token} (isLine : EndsLine line)
    (noOperator : level.operator? next.lexeme = none) :
    Extends (line :: rest) e e' (.operations level) (next :: a) (.operations []) (next :: a) := by
  intro _ _
  have newline : level.operator? .newline = none := by cases level <;> rfl
  have eof : level.operator? .eof = none := by cases level <;> rfl
  obtain ⟨next', c, divided, noOperator'⟩ :=
    exists_extend_cons rest a isLine (level.operator? · = none) noOperator newline eof
  rw [divided]
  exact ⟨_, _, .noOperation next' c noOperator', rfl, Or.inl divided.symm⟩

theorem extends_operation {sign : Token} {op : BinaryOp} {right : Node} (isEnd : e.lexeme = .eof)
    (isEnd' : e'.lexeme = .eof) (isLine : EndsLine line)
    (isOperator : level.operator? sign.lexeme = some op)
    (operand : Reads level.operand a (.node right) b)
    (others : Reads (.operations level) b (.operations operations) c)
    (operand_ih : Extends (line :: rest) e e' level.operand a (.node right) b)
    (others_ih :
      Extends (line :: rest) e e' (.operations level) b (.operations operations) c) :
    Extends (line :: rest) e e' (.operations level) (sign :: a)
      (.operations (⟨op, sign.span, right⟩ :: operations)) c := by
  intro ends may
  obtain ⟨ts, divided, -⟩ := operand.derives
  have leaves : leavesOpen (.operations level) (.operations operations) = true →
      leavesOpen (.operations level) (.operations (⟨op, sign.span, right⟩ :: operations)) =
        true := by
    intro isOpen
    cases operations with
    | nil => cases isOpen
    | cons o operations => simpa [leavesOpen] using isOpen
  obtain ⟨right', operations', b', c', reading, reading', same, same', stops⟩ :=
    operands_goOn isEnd isEnd' isLine others operand_ih others_ih
      (fun same isOpen => by subst same; exact isOpen) leaves (fun before => before.cons sign)
      (fun before => (divided ▸ before.append ts).cons sign) ends may
  refine ⟨.operations (⟨op, sign.span, right'⟩ :: operations'), c', ?_, ?_, stops⟩
  · rw [extend_cons _ operand.ne_nil]
    exact .operation sign isOperator reading reading'
  · simp [Phrase.erase, Operation.erase, same, same']

end

section

variable {word : Keyword} {span : Span} {a b c d f : List Token} {test body other : Node}
  {parts : Cases}

/-- The end of a branch without `ELSE` takes the line ends, and must then stand at the new end. -/
theorem extends_lastCase {next : Token} (isEnd' : e'.lexeme = .eof)
    (guard : Reads .condition a (.node test) b) (inside : Reads .braces b (.node body) c)
    (lines : pastNewlines c = next :: d) (noElif : next.lexeme.isKeyword .elifWord = false)
    (noElse : next.lexeme.isKeyword .elseWord = false)
    (guard_ih : Extends (line :: rest) e e' .condition a (.node test) b)
    (inside_ih : Extends (line :: rest) e e' .braces b (.node body) c) :
    Extends (line :: rest) e e' (.cases word) (⟨.keyword word, span⟩ :: a)
      (.cases ⟨test, body, [], none⟩) (next :: d) := by
  intro ends may
  obtain ⟨test', body', reading, reading', erased, erased'⟩ :=
    guard_ih.guarded inside_ih inside (EndsIn.of_pastNewlines lines ends)
  have agree : (Phrase.cases ⟨test', body', [], none⟩).erase =
      (Phrase.cases ⟨test, body, [], none⟩).erase := by
    simp [Phrase.erase, Cases.erase, erased, erased']
  rw [extend_cons _ guard.ne_nil]
  cases d with
  | nil =>
      obtain rfl := ends.eq_of_singleton
      have before : BraceBefore (⟨.keyword word, span⟩ :: a) [next] := by
        obtain ⟨ts, rfl, -⟩ := guard.derives
        obtain ⟨front, closing, rfl⟩ := inside.exists_brace
        obtain ⟨more, divided, areLines⟩ := exists_newlines c
        rw [lines] at divided
        exact ⟨⟨.keyword word, span⟩ :: (ts ++ front), closing, more, by rw [divided]; simp,
          areLines⟩
      have past := (pastNewlines_extend_last lines).trans ((may rfl).2 rfl before)
      exact ⟨_, _, .lastCase span e' reading reading' past (by rw [isEnd']; rfl)
        (by rw [isEnd']; rfl), agree, Or.inr ⟨rfl, rfl, before, rfl⟩⟩
  | cons t d =>
      exact ⟨_, _, .lastCase span next reading reading' (pastNewlines_extend lines (by simp))
        noElif noElse, agree, Or.inl (extend_cons next (by simp)).symm⟩

theorem extends_elifCase (isEnd : e.lexeme = .eof) (guard : Reads .condition a (.node test) b)
    (inside : Reads .braces b (.node body) c) (lines : pastNewlines c = d)
    (others : Reads (.cases .elifWord) d (.cases parts) f)
    (guard_ih : Extends (line :: rest) e e' .condition a (.node test) b)
    (inside_ih : Extends (line :: rest) e e' .braces b (.node body) c)
    (others_ih : Extends (line :: rest) e e' (.cases .elifWord) d (.cases parts) f) :
    Extends (line :: rest) e e' (.cases word) (⟨.keyword word, span⟩ :: a)
      (.cases (parts.guard test body)) f := by
  intro ends may
  have endsD := others.endsIn ends
  obtain ⟨test', body', reading, reading', erased, erased'⟩ :=
    guard_ih.guarded inside_ih inside (EndsIn.of_pastNewlines lines endsD)
  have brace : BraceBefore d f → BraceBefore (⟨.keyword word, span⟩ :: a) f := by
    obtain ⟨ts, rfl, -⟩ := guard.derives
    obtain ⟨us, rfl, -⟩ := inside.derives
    obtain ⟨more, divided, -⟩ := exists_newlines c
    intro before
    rw [divided, lines]
    exact (((before.append more).append us).append ts).cons _
  obtain ⟨x', f', reading'', same, stops⟩ := others_ih.edge may ends rfl id brace
  obtain ⟨parts', rfl, erased''⟩ := Phrase.erase_eq_cases same
  obtain ⟨t, d, rfl, isElif⟩ := others.starts
  have longer := endsD.more isEnd (by rw [isKeyword_iff.mp isElif]; exact Lexeme.noConfusion)
  rw [extend_cons t longer] at reading''
  rw [extend_cons _ guard.ne_nil]
  refine ⟨_, f', .elifCase span reading reading' (pastNewlines_extend lines longer) reading'',
    ?_, stops⟩
  simp only [Cases.erase, Cases.mk.injEq] at erased''
  simp [Phrase.erase, Cases.erase, Cases.guard, eraseGuards, eraseGuard, erased, erased',
    erased'']

theorem extends_elseCase {elseWord : Span} (guard : Reads .condition a (.node test) b)
    (inside : Reads .braces b (.node body) c)
    (lines : pastNewlines c = ⟨.keyword .elseWord, elseWord⟩ :: d)
    (otherwise : Reads .braces d (.node other) f)
    (guard_ih : Extends (line :: rest) e e' .condition a (.node test) b)
    (inside_ih : Extends (line :: rest) e e' .braces b (.node body) c)
    (otherwise_ih : Extends (line :: rest) e e' .braces d (.node other) f) :
    Extends (line :: rest) e e' (.cases word) (⟨.keyword word, span⟩ :: a)
      (.cases ⟨test, body, [], some other⟩) f := by
  intro ends _
  have endsC := EndsIn.of_pastNewlines lines ((otherwise.endsIn ends).append [_])
  obtain ⟨test', body', reading, reading', erased, erased'⟩ :=
    guard_ih.guarded inside_ih inside endsC
  obtain ⟨other', reading'', erased''⟩ := otherwise_ih.braced ends
  rw [extend_cons _ guard.ne_nil]
  refine ⟨_, _, .elseCase span elseWord reading reading'
    (pastNewlines_extend lines otherwise.ne_nil) reading'', ?_, Or.inl rfl⟩
  simp [Phrase.erase, Cases.erase, eraseOption, erased, erased', erased'']

end

section

variable {next : Token} {a b c d : List Token} {node : Node} {others : List Node}

theorem extends_block {first : Token} (isEnd : e.lexeme = .eof)
    (lines : pastNewlines (first :: a) = b) (head : Reads .statement b (.node node) c)
    (tail : Reads .moreStatements c (.nodes others) (next :: d))
    (head_ih : Extends (line :: rest) e e' .statement b (.node node) c)
    (tail_ih : Extends (line :: rest) e e' .moreStatements c (.nodes others) (next :: d)) :
    Extends (line :: rest) e e' .block (first :: a)
      (.node (.list (node :: others) ⟨first.span.start, next.span.stop⟩)) (next :: d) := by
  intro ends may
  have notLast := may.ne_last rfl
  obtain ⟨node', others', reading, reading', erased, erased'⟩ :=
    head_ih.sequence tail_ih tail ends notLast
  obtain ⟨t, b, rfl, longer⟩ := head.exists_more (tail.endsIn ends) isEnd
  have longer' : d ≠ [] := by
    rintro rfl
    exact notLast (congrArg (· :: []) ends.eq_of_singleton)
  have longer'' : a ≠ [] := by
    rintro rfl
    have shorter := length_le_of_pastNewlines lines
    have positive := List.length_pos_iff.mpr longer
    simp only [List.length_cons, List.length_nil] at shorter
    omega
  have lines' : pastNewlines (extend (line :: rest) _) = _ := pastNewlines_extend lines longer
  rw [extend_cons t longer] at reading
  rw [extend_cons next longer'] at reading'
  rw [extend_cons first longer''] at lines' ⊢
  refine ⟨_, _, .block first next lines' reading reading', ?_,
    Or.inl (extend_cons next longer').symm⟩
  simp [Phrase.erase, Node.erase, eraseAll, erased, erased']

theorem extends_nextStatement {line' : Token} (isEnd : e.lexeme = .eof)
    (isLine' : line'.lexeme = .newline) (lines : pastNewlines a = b)
    (head : Reads .statement b (.node node) c) (tail : Reads .moreStatements c (.nodes others) d)
    (head_ih : Extends (line :: rest) e e' .statement b (.node node) c)
    (tail_ih : Extends (line :: rest) e e' .moreStatements c (.nodes others) d) :
    Extends (line :: rest) e e' .moreStatements (line' :: a) (.nodes (node :: others)) d := by
  intro ends may
  obtain ⟨node', others', reading, reading', erased, erased'⟩ :=
    head_ih.sequence tail_ih tail ends (may.ne_last rfl)
  have endsC := tail.endsIn ends
  have longer' := (EndsIn.of_pastNewlines lines (head.endsIn endsC)).ne_nil
  obtain ⟨t, b, rfl, longer⟩ := head.exists_more endsC isEnd
  have lines' : pastNewlines (extend (line :: rest) _) = _ := pastNewlines_extend lines longer
  rw [extend_cons t longer] at reading
  rw [extend_cons _ longer']
  refine ⟨_, _, .nextStatement line' isLine' lines' reading reading', ?_, Or.inl rfl⟩
  simp [Phrase.erase, eraseAll, erased, erased']

end

/-- What is read before the end is read as well if a line end and more follow instead, or if the end
is another one. -/
theorem Reads.goesOn {s : Symbol} {a b : List Token} {x : Phrase} (reading : Reads s a x b)
    (isEnd : e.lexeme = .eof) (isEnd' : e'.lexeme = .eof) (isLine : EndsLine line) :
    Extends (line :: rest) e e' s a x b := by
  induction reading with
  | assign text span sign right ih =>
      intro ends may
      obtain ⟨value', b', reading, erased, stops⟩ :=
        ih.edgeNode may ends rfl id (fun before => (before.cons _).cons _)
      rw [extend_cons _ (by simp), extend_cons _ right.ne_nil]
      refine ⟨_, b', .assign text span sign reading, ?_, stops⟩
      simp [Phrase.erase, Node.mkAssign, Node.erase, erased]
  | logical plain whole ih =>
      exact ih.whole rfl id fun _ _ reading _ =>
        .logical (assigns_extend isLine plain) reading
  | negation word operand ih =>
      intro ends may
      obtain ⟨node', b', reading, erased, stops⟩ :=
        ih.edgeNode may ends rfl id (fun before => before.cons _)
      rw [extend_cons _ operand.ne_nil]
      refine ⟨_, b', .negation word reading, ?_, stops⟩
      simp [Phrase.erase, Node.mkUnary, Node.erase, erased]
  | comparing whole ih =>
      exact ih.whole rfl id fun _ _ reading _ => .comparing reading
  | chain first others first_ih others_ih =>
      exact extends_chain isEnd isEnd' isLine first others first_ih others_ih
  | noOperation next a noOperator => exact extends_noOperation isLine noOperator
  | operation sign isOperator operand others operand_ih others_ih =>
      exact extends_operation isEnd isEnd' isLine isOperator operand others operand_ih
        others_ih
  | sign sign isSign operand ih =>
      intro ends may
      obtain ⟨node', b', reading, erased, stops⟩ :=
        ih.edgeNode may ends rfl id (fun before => before.cons _)
      rw [extend_cons _ operand.ne_nil]
      refine ⟨_, b', .sign sign isSign reading, ?_, stops⟩
      simp [Phrase.erase, Node.mkUnary, Node.erase, erased]
  | unsigned whole ih =>
      exact ih.whole rfl id fun _ _ reading _ => .unsigned reading
  | base next whole noPower ih =>
      refine ih.whole rfl id fun node' b' reading stops => ?_
      obtain ⟨next', c, rfl, noPower'⟩ :=
        stops.look isLine isEnd' (powerOp? · = none) noPower rfl rfl
      exact .base next' reading noPower'
  | raised sign base isPower exponent base_ih exponent_ih =>
      intro ends may
      have other : sign.lexeme ≠ .eof := fun isEnd => by rw [isEnd] at isPower; cases isPower
      obtain ⟨left', reading, erased⟩ :=
        base_ih.beforeNode isEnd other (exponent.endsIn ends)
      obtain ⟨ts, rfl, -⟩ := base.derives
      obtain ⟨right', b', reading', erased', stops⟩ :=
        exponent_ih.edgeNode may ends rfl id (fun before => (before.cons sign).append ts)
      refine ⟨_, b', .raised sign reading isPower reading', ?_, stops⟩
      simp [Phrase.erase, Node.mkBinary, Node.erase, erased, erased']
  | bare next whole noParen ih =>
      refine ih.whole rfl id fun node' b' reading stops => ?_
      obtain ⟨next', c, rfl, noParen'⟩ :=
        stops.look isLine isEnd' (· ≠ .leftParen) noParen Lexeme.noConfusion Lexeme.noConfusion
      exact .bare next' reading noParen'
  | callEmpty opening closing called ih =>
      intro ends _
      obtain ⟨callee', reading, erased⟩ :=
        ih.beforeNode isEnd Lexeme.noConfusion (ends.append [_])
      rw [extend_cons _ ends.ne_nil] at reading
      refine ⟨_, _, .callEmpty opening closing reading, ?_, Or.inl rfl⟩
      simp [Phrase.erase, Node.mkCall, Node.erase, erased]
  | call opening closing called given called_ih given_ih =>
      intro ends _
      obtain ⟨callee', reading, erased⟩ :=
        called_ih.beforeNode isEnd Lexeme.noConfusion (given.endsIn (ends.append [_]))
      obtain ⟨arguments', reading', erased'⟩ :=
        given_ih.beforeNodes isEnd Lexeme.noConfusion ends
      refine ⟨_, _, .call opening closing reading reading', ?_, Or.inl rfl⟩
      simp [Phrase.erase, Node.mkCall, Node.erase, erased, erased']
  | items head tail head_ih tail_ih =>
      intro ends may
      obtain ⟨first', others', reading, reading', erased, erased'⟩ :=
        head_ih.sequence tail_ih tail ends (may.ne_last rfl)
      refine ⟨_, _, .items reading reading', ?_, Or.inl rfl⟩
      simp [Phrase.erase, eraseAll, erased, erased']
  | lastItem next a noComma =>
      intro _ _
      obtain ⟨next', c, divided, noComma'⟩ := exists_extend_cons rest a isLine (· ≠ .comma) noComma
        Lexeme.noConfusion Lexeme.noConfusion
      rw [divided]
      exact ⟨_, _, .lastItem next' c noComma', rfl, Or.inl divided.symm⟩
  | nextItem comma head tail head_ih tail_ih =>
      intro ends may
      obtain ⟨first', others', reading, reading', erased, erased'⟩ :=
        head_ih.sequence tail_ih tail ends (may.ne_last rfl)
      rw [extend_cons _ head.ne_nil]
      refine ⟨_, _, .nextItem comma reading reading', ?_, Or.inl rfl⟩
      simp [Phrase.erase, eraseAll, erased, erased']
  | int n span a => exact .token (.int n span) a
  | float x span a => exact .token (.float x span) a
  | string s span a => exact .token (.string s span) a
  | trueWord span a => exact .token (.trueWord span) a
  | falseWord span a => exact .token (.falseWord span) a
  | name text span a => exact .token (.name text span) a
  | parenthesised opening closing inside ih =>
      intro ends _
      obtain ⟨node', reading, erased⟩ := ih.beforeNode isEnd Lexeme.noConfusion ends
      rw [extend_cons _ inside.ne_nil]
      exact ⟨_, _, .parenthesised opening closing reading, congrArg Phrase.node erased, Or.inl rfl⟩
  | emptyList opening closing next a =>
      intro _ _
      obtain ⟨next', c, divided, -⟩ :=
        exists_extend_cons rest a isLine (fun _ => True) trivial trivial trivial
      rw [extend_cons _ (by simp), extend_cons _ (by simp), divided]
      exact ⟨_, _, .emptyList opening closing next' c, rfl, Or.inl divided.symm⟩
  | @list opening closing next a b elements inside ih =>
      intro ends _
      obtain ⟨elements', reading, erased⟩ := ih.beforeNodes isEnd Lexeme.noConfusion ends
      obtain ⟨next', c, divided, -⟩ :=
        exists_extend_cons rest b isLine (fun _ => True) trivial trivial trivial
      rw [divided] at reading
      rw [extend_cons _ inside.ne_nil]
      refine ⟨_, _, .list opening closing next' reading, ?_, Or.inl divided.symm⟩
      simp [Phrase.erase, Node.erase, erased]
  | branch whole ih =>
      intro ends may
      obtain ⟨x', b', reading, same, stops⟩ := ih.edge may ends rfl id id
      obtain ⟨parts', rfl, erased⟩ := Phrase.erase_eq_cases same
      exact ⟨_, b', .branch reading, congrArg Phrase.node (erase_branch erased), stops⟩
  | forEach forWord eachWord inWord span listSpan text list inside ih =>
      intro ends _
      obtain ⟨body', reading, erased⟩ := ih.braced ends
      rw [extend_cons _ (by simp), extend_cons _ (by simp), extend_cons _ (by simp),
        extend_cons _ (by simp), extend_cons _ inside.ne_nil]
      refine ⟨_, _, .forEach forWord eachWord inWord span listSpan text list reading, ?_,
        Or.inl rfl⟩
      simp [Phrase.erase, Node.mkForEach, Node.erase, erased]
  | whileLoop word guard inside guard_ih inside_ih =>
      intro ends _
      obtain ⟨test', body', reading, reading', erased, erased'⟩ :=
        guard_ih.guarded inside_ih inside ends
      rw [extend_cons _ guard.ne_nil]
      refine ⟨_, _, .whileLoop word reading reading', ?_, Or.inl rfl⟩
      simp [Phrase.erase, Node.mkWhile, Node.erase, erased, erased']
  | untilLoop word untilWord guard inside guard_ih inside_ih =>
      intro ends _
      obtain ⟨test', body', reading, reading', erased, erased'⟩ :=
        guard_ih.guarded inside_ih inside ends
      rw [extend_cons _ (by simp), extend_cons _ guard.ne_nil]
      refine ⟨_, _, .untilLoop word untilWord reading reading', ?_, Or.inl rfl⟩
      simp [Phrase.erase, Node.mkUntil, Node.erase, erased, erased']
  | repeatFixed word span timesWord count inside ih =>
      intro ends _
      obtain ⟨body', reading, erased⟩ := ih.braced ends
      rw [extend_cons _ (by simp), extend_cons _ (by simp), extend_cons _ inside.ne_nil]
      refine ⟨_, _, .repeatFixed word span timesWord count reading, ?_, Or.inl rfl⟩
      simp [Phrase.erase, Node.mkRepeatFixed, Node.erase, erased]
  | repeatBy word span timesWord text inside ih =>
      intro ends _
      obtain ⟨body', reading, erased⟩ := ih.braced ends
      rw [extend_cons _ (by simp), extend_cons _ (by simp), extend_cons _ inside.ne_nil]
      refine ⟨_, _, .repeatBy word span timesWord text reading, ?_, Or.inl rfl⟩
      simp [Phrase.erase, Node.mkRepeatBy, Node.erase, erased]
  | procedure word span opening text listed inside ih =>
      intro ends _
      obtain ⟨body', reading, erased⟩ := ih.braced ends
      rw [extend_cons _ (by simp), extend_cons _ (by simp), extend_cons _ listed.ne_nil]
      refine ⟨_, _, .procedure word span opening text (listed.extend inside.ne_nil) reading, ?_,
        Or.inl rfl⟩
      simp [Phrase.erase, Node.mkProcedure, Node.erase, erased]
  | anonymous word opening listed inside ih =>
      intro ends _
      obtain ⟨body', reading, erased⟩ := ih.braced ends
      rw [extend_cons _ (by simp), extend_cons _ listed.ne_nil]
      refine ⟨_, _, .anonymous word opening (listed.extend inside.ne_nil) reading, ?_, Or.inl rfl⟩
      simp [Phrase.erase, Node.mkProcedure, Node.erase, erased]
  | condition opening closing inside ih =>
      intro ends _
      obtain ⟨node', reading, erased⟩ := ih.beforeNode isEnd Lexeme.noConfusion ends
      rw [extend_cons _ inside.ne_nil]
      exact ⟨_, _, .condition opening closing reading, congrArg Phrase.node erased, Or.inl rfl⟩
  | braces opening closing lines inside ih =>
      intro ends _
      obtain ⟨node', reading, erased⟩ := ih.beforeNode isEnd Lexeme.noConfusion ends
      exact ⟨_, _, .braces opening closing (pastNewlines_extend lines inside.ne_nil) reading,
        congrArg Phrase.node erased, Or.inl rfl⟩
  | lastCase span next guard inside lines noElif noElse guard_ih inside_ih =>
      exact extends_lastCase isEnd' guard inside lines noElif noElse guard_ih
        inside_ih
  | elifCase span guard inside lines others guard_ih inside_ih others_ih =>
      exact extends_elifCase isEnd guard inside lines others guard_ih inside_ih
        others_ih
  | elseCase span elseWord guard inside lines otherwise guard_ih inside_ih
      otherwise_ih =>
      exact extends_elseCase guard inside lines otherwise guard_ih inside_ih
        otherwise_ih
  | returnNothing word next a noValue noEnd =>
      intro ends _
      have more := ends.more isEnd noEnd
      rw [extend_cons _ (by simp), extend_cons _ more]
      exact ⟨_, _, .returnNothing word next _ noValue noEnd, rfl,
        Or.inl (extend_cons next more).symm⟩
  | returnValue word next result ih =>
      intro ends may
      obtain ⟨value', b', reading, erased, stops⟩ :=
        ih.edgeNode may ends rfl id (fun before => before.cons _)
      obtain ⟨next', c, rfl, -⟩ :=
        stops.look isLine isEnd' (fun _ => True) trivial trivial trivial
      rw [extend_cons _ result.ne_nil]
      refine ⟨_, _, .returnValue word next' reading, ?_, stops⟩
      simp [Phrase.erase, Node.erase, eraseOption, erased]
  | continuing word next a =>
      intro _ _
      obtain ⟨next', c, divided, -⟩ :=
        exists_extend_cons rest a isLine (fun _ => True) trivial trivial trivial
      rw [extend_cons _ (by simp), divided]
      exact ⟨_, _, .continuing word next' c, rfl, Or.inl divided.symm⟩
  | breaking word next a =>
      intro _ _
      obtain ⟨next', c, divided, -⟩ :=
        exists_extend_cons rest a isLine (fun _ => True) trivial trivial trivial
      rw [extend_cons _ (by simp), divided]
      exact ⟨_, _, .breaking word next' c, rfl, Or.inl divided.symm⟩
  | evaluated whole ih =>
      exact ih.whole rfl id fun _ _ reading _ => .evaluated reading
  | block first next lines head tail head_ih tail_ih =>
      exact extends_block isEnd lines head tail head_ih tail_ih
  | lastStatement next a noLine =>
      intro ends may
      cases a with
      | nil => exact absurd (congrArg (· :: []) ends.eq_of_singleton) (may.ne_last rfl)
      | cons t a =>
          rw [extend_cons _ (by simp)]
          exact ⟨_, _, .lastStatement next _ noLine, rfl, Or.inl (extend_cons _ (by simp)).symm⟩
  | trailing line' next isLine' lines noStart noEnd =>
      intro ends _
      have longer := ends.more isEnd noEnd
      rw [extend_cons _ (EndsIn.of_pastNewlines lines ends).ne_nil]
      exact ⟨_, _, .trailing line' next isLine' (pastNewlines_extend lines longer) noStart noEnd,
        rfl, Or.inl (extend_cons next longer).symm⟩
  | nextStatement line' isLine' lines head tail head_ih tail_ih =>
      exact extends_nextStatement isEnd isLine' lines head tail head_ih tail_ih

end

end Grammar
end Pseudocode
