import Pseudocode.Proofs.Parsing.Completeness
import Pseudocode.Proofs.Parsing.Writing

/-!
# Printing expressions

Expressions are printed with parentheses only where the precedences of the grammar ask for them.
Parsing what is printed gives the expression back, up to places, and stops right behind it.
-/

namespace Pseudocode

/-- Expressions that hold no branch, loop or procedure. -/
inductive Expr where
  | int (value : Nat)
  | float (value : Float)
  | string (value : String)
  | truth (value : Bool)
  | name (text : String)
  | list (elements : List Expr)
  | call (callee : Expr) (arguments : List Expr)
  | unary (op : UnaryOp) (operand : Expr)
  | binary (left : Expr) (op : BinaryOp) (right : Expr)
  | assign (text : String) (value : Expr)

mutual

/-- The tree of an expression, without places. -/
def Expr.node : Expr → Node
  | .int value => .number (.whole value) default
  | .float value => .number (.real value) default
  | .string value => .text value default
  | .truth value => .truth value default
  | .name text => .access ⟨text, default⟩
  | .list elements => .list (nodes elements) default
  | .call callee arguments => .call callee.node (nodes arguments) default
  | .unary op operand => .unary op default operand.node default
  | .binary left op right => .binary left.node op default right.node default
  | .assign text value => .assign ⟨text, default⟩ value.node default

/-- The trees of expressions, without places. -/
def nodes : List Expr → List Node
  | [] => []
  | e :: es => e.node :: nodes es

end

namespace Grammar

/-! ## Precedences -/

/-- The level of a binary operator, unless it is a power. -/
def level? : BinaryOp → Option Level
  | .and => some .logical
  | .or => some .logical
  | .equal => some .comparison
  | .notEqual => some .comparison
  | .less => some .comparison
  | .greater => some .comparison
  | .lessEqual => some .comparison
  | .greaterEqual => some .comparison
  | .add => some .sum
  | .sub => some .sum
  | .mul => some .term
  | .div => some .term
  | .mod => some .term
  | .pow _ => none

/-- The precedence of a binary operation. -/
def precedence (op : BinaryOp) : Precedence :=
  ((level? op).map Level.precedence).getD .power

/-- The precedence that the left operand of a binary operation must have. -/
def leftPrecedence (op : BinaryOp) : Precedence :=
  ((level? op).map Level.precedence).getD .call

/-- The precedence that the right operand of a binary operation must have. -/
def rightPrecedence (op : BinaryOp) : Precedence :=
  ((level? op).map Level.tighter).getD .sign

/-- The precedence of a unary operation and of its operand. -/
def unaryPrecedence : UnaryOp → Precedence
  | .plus => .sign
  | .minus => .sign
  | .not => .negation

end Grammar

open Grammar

/-- The precedence of an expression. -/
def Expr.precedence : Expr → Precedence
  | .assign _ _ => .assignment
  | .binary _ op _ => Grammar.precedence op
  | .unary op _ => unaryPrecedence op
  | .call _ _ => .call
  | _ => .atom

/-- Whether an expression may stand without parentheses where a precedence is asked for. -/
def Expr.fits (e : Expr) (p : Precedence) : Bool :=
  p.rank ≤ e.precedence.rank

/-- Lexemes in parentheses, unless they may stand bare. -/
def enclose (bare : Bool) (lexemes : List Lexeme) : List Lexeme :=
  if bare then lexemes else .leftParen :: lexemes ++ [.rightParen]

mutual

/-- An expression with as few parentheses as the precedences allow.  Where any expression may stand,
none are needed. -/
def Expr.print : Expr → List Lexeme
  | .int value => [.int value]
  | .float value => [.float value]
  | .string value => [.string value]
  | .truth value => [.keyword (if value then .trueWord else .falseWord)]
  | .name text => [.name text]
  | .list elements => .leftBracket :: printItems elements ++ [.rightBracket]
  | .call callee arguments =>
      enclose (callee.fits .atom) callee.print ++ .leftParen :: printItems arguments ++
        [.rightParen]
  | .unary op operand => op.lexeme :: enclose (operand.fits (unaryPrecedence op)) operand.print
  | .binary left op right =>
      enclose (left.fits (leftPrecedence op)) left.print ++
        op.lexeme :: enclose (right.fits (rightPrecedence op)) right.print
  | .assign text value => .name text :: .assign :: value.print

/-- Expressions with commas between them. -/
def printItems : List Expr → List Lexeme
  | [] => []
  | e :: es => e.print ++ printMore es

/-- Expressions with a comma in front of each. -/
def printMore : List Expr → List Lexeme
  | [] => []
  | e :: es => .comma :: e.print ++ printMore es

end

/-! ## Tokens of printed expressions -/

namespace Grammar

section

variable {l : Lexeme} {ls ls' : List Lexeme} {ts us : List Token} {e : Expr} {es : List Expr}

/-- Tokens with the given lexemes, at any places. -/
def Spells (ts : List Token) (ls : List Lexeme) : Prop :=
  ts.map (·.lexeme) = ls

theorem spells_unplaced (ls : List Lexeme) : Spells (unplaced ls) ls := by
  induction ls with
  | nil => rfl
  | cons l ls ih => exact congrArg (l :: ·) ih

theorem Spells.exists_cons (spells : Spells ts (l :: ls)) :
    ∃ span us, ts = ⟨l, span⟩ :: us ∧ Spells us ls := by
  obtain ⟨⟨l, span⟩, us, rfl, rfl, rest⟩ := List.map_eq_cons_iff.mp spells
  exact ⟨span, us, rfl, rest⟩

theorem Spells.exists_append (spells : Spells ts (ls ++ ls')) :
    ∃ us vs, ts = us ++ vs ∧ Spells us ls ∧ Spells vs ls' :=
  List.map_eq_append_iff.mp spells

theorem Spells.exists_singleton (spells : Spells ts [l]) : ∃ span, ts = [⟨l, span⟩] := by
  obtain ⟨span, us, rfl, rest⟩ := spells.exists_cons
  obtain rfl := List.map_eq_nil_iff.mp rest
  exact ⟨span, rfl⟩

theorem operator?_of_level? {op : BinaryOp} {level : Level} (found : level? op = some level) :
    level.operator? op.lexeme = some op := by
  cases op <;> cases found <;> rfl

theorem powerOp?_of_level? {op : BinaryOp} (none : level? op = none) :
    powerOp? op.lexeme = some op := by
  cases op <;> cases none
  rfl

/-- Printed tokens write their expression, also in front of operations of its own level. -/
def Written (e : Expr) : Prop :=
  ∀ ts, Spells ts e.print → Writes e.precedence ts e.node ∧
    ∀ level : Level, level.precedence = e.precedence → Chains level ts e.node

/-- Where an expression is too loose, parentheses help. -/
theorem Written.writes (written : Written e) (p : Precedence)
    (spells : Spells ts (enclose (e.fits p) e.print)) : Writes p ts e.node := by
  by_cases fits : e.fits p = true
  · rw [enclose, if_pos fits] at spells
    exact (written ts spells).1.loosen (of_decide_eq_true fits)
  · rw [enclose, if_neg fits] at spells
    obtain ⟨opening, us, rfl, rest⟩ := Spells.exists_cons spells
    obtain ⟨vs, ws, rfl, inside, last⟩ := rest.exists_append
    obtain ⟨closing, rfl⟩ := last.exists_singleton
    have atom := (written vs inside).1.parenthesised opening closing
    exact atom.loosen (by cases p <;> decide)

/-- The left operand of an operation of a level may itself be one. -/
theorem Written.chains (written : Written e) (level : Level)
    (spells : Spells ts (enclose (e.fits level.precedence) e.print)) : Chains level ts e.node := by
  by_cases same : level.precedence = e.precedence
  · have fits : e.fits level.precedence = true := by simp [Expr.fits, same]
    rw [enclose, if_pos fits] at spells
    exact (written ts spells).2 level same
  · have fits : e.fits level.precedence = e.fits level.tighter := by
      have other : level.precedence.rank ≠ e.precedence.rank :=
        fun rank => same (Precedence.rank_inj rank)
      have succ := level.rank_tighter
      simp only [Expr.fits, decide_eq_decide]
      omega
    rw [fits] at spells
    exact (written.writes level.tighter spells).chains

/-- An expression whose precedence is no level. -/
theorem written_of_writes (p : Precedence) (same : e.precedence = p)
    (other : ∀ level : Level, level.precedence ≠ p)
    (writes : ∀ ts, Spells ts e.print → Writes p ts e.node) : Written e := by
  intro ts spells
  rw [same]
  exact ⟨writes ts spells, fun level found => absurd found (other level)⟩

theorem Written.bare (written : Written e) (spells : Spells ts e.print) :
    Writes .assignment ts e.node :=
  (written ts spells).1.loosen (Nat.zero_le _)

/-! ## One expression at a time -/

theorem written_token {node : Span → Node} (atom : e.precedence = .atom) (print : e.print = [l])
    (reads : ∀ span a, Reads .atom (⟨l, span⟩ :: a) (.node (node span)) a)
    (same : ∀ span, (node span).erase = e.node) : Written e := by
  refine written_of_writes .atom atom (by intro level; cases level <;> decide) ?_
  intro ts spells
  rw [print] at spells
  obtain ⟨span, rfl⟩ := spells.exists_singleton
  rw [← same span]
  exact writes_token (reads span)

theorem written_unary {op : UnaryOp} (operand : Written e) : Written (.unary op e) := by
  refine written_of_writes (unaryPrecedence op) rfl
    (by intro level; cases level <;> cases op <;> decide) ?_
  intro ts spells
  obtain ⟨span, us, rfl, rest⟩ := Spells.exists_cons spells
  have writes := operand.writes (unaryPrecedence op) rest
  cases op with
  | plus => exact writes.signed rfl
  | minus => exact writes.signed rfl
  | not => exact writes.negated span

theorem written_binary {left right : Expr} {op : BinaryOp} (leftWritten : Written left)
    (rightWritten : Written right) : Written (.binary left op right) := by
  intro ts spells
  obtain ⟨us, vs, rfl, leftSpells, rest⟩ := Spells.exists_append spells
  obtain ⟨span, ws, rfl, rightSpells⟩ := rest.exists_cons
  have writes := rightWritten.writes _ rightSpells
  cases found : level? op with
  | none =>
      have precedence : (Expr.binary left op right).precedence = .power := by
        simp [Expr.precedence, Grammar.precedence, found]
      rw [rightPrecedence, found] at writes
      rw [leftPrecedence, found] at leftSpells
      rw [precedence]
      have base : Writes .call us left.node := leftWritten.writes .call leftSpells
      refine ⟨base.raised writes (powerOp?_of_level? found), fun level same => ?_⟩
      cases level <;> cases same
  | some level =>
      have precedence : (Expr.binary left op right).precedence = level.precedence := by
        simp [Expr.precedence, Grammar.precedence, found]
      rw [rightPrecedence, found] at writes
      rw [leftPrecedence, found] at leftSpells
      have chains : Chains level us left.node := leftWritten.chains level leftSpells
      have both : Chains level (us ++ ⟨op.lexeme, span⟩ :: ws) (Expr.binary left op right).node :=
        chains.operation writes (operator?_of_level? found)
      rw [precedence]
      refine ⟨both.writes, fun level' same => ?_⟩
      obtain rfl : level' = level := by
        cases level <;> cases level' <;> simp_all [Level.precedence]
      exact both

theorem written_assign (text : String) (value : Written e) : Written (.assign text e) := by
  refine written_of_writes .assignment rfl (by intro level; cases level <;> decide) ?_
  intro ts spells
  obtain ⟨span, us, rfl, rest⟩ := Spells.exists_cons spells
  obtain ⟨sign, vs, rfl, rest'⟩ := rest.exists_cons
  exact (value.bare rest').assigned text span sign

theorem writesMore_of_written (written : ∀ e ∈ es, Written e) (spells : Spells ts (printMore es)) :
    WritesMore ts (nodes es) := by
  induction es generalizing ts with
  | nil =>
      obtain rfl := List.map_eq_nil_iff.mp spells
      exact writesMore_nil
  | cons e es ih =>
      obtain ⟨comma, us, rfl, rest⟩ := Spells.exists_cons spells
      obtain ⟨vs, ws, rfl, first, others⟩ := rest.exists_append
      have more := ih (fun e member => written e (List.mem_cons_of_mem _ member)) others
      exact more.cons ((written e List.mem_cons_self).bare first) comma

theorem writesItems_of_written (first : Written e) (written : ∀ e ∈ es, Written e)
    (spells : Spells ts (printItems (e :: es))) : WritesItems ts (nodes (e :: es)) := by
  obtain ⟨us, vs, rfl, head, others⟩ := Spells.exists_append spells
  exact (writesMore_of_written written others).items (first.bare head)

theorem written_list (written : ∀ e ∈ es, Written e) : Written (.list es) := by
  refine written_of_writes .atom rfl (by intro level; cases level <;> decide) ?_
  intro ts spells
  obtain ⟨opening, us, rfl, rest⟩ := Spells.exists_cons spells
  obtain ⟨vs, ws, rfl, inside, last⟩ := rest.exists_append
  obtain ⟨closing, rfl⟩ := last.exists_singleton
  cases es with
  | nil =>
      obtain rfl := List.map_eq_nil_iff.mp inside
      exact writes_emptyList opening closing
  | cons e es =>
      have items := writesItems_of_written (written e List.mem_cons_self)
        (fun e member => written e (List.mem_cons_of_mem _ member)) inside
      exact items.list opening closing

theorem written_call (callee : Written e) (written : ∀ e ∈ es, Written e) :
    Written (.call e es) := by
  refine written_of_writes .call rfl (by intro level; cases level <;> decide) ?_
  intro ts spells
  obtain ⟨us, vs, rfl, rest, last⟩ := Spells.exists_append spells
  obtain ⟨closing, rfl⟩ := last.exists_singleton
  obtain ⟨us, ws, rfl, called, rest'⟩ := rest.exists_append
  obtain ⟨opening, ws, rfl, inside⟩ := rest'.exists_cons
  have atom := callee.writes .atom called
  cases es with
  | nil =>
      obtain rfl := List.map_eq_nil_iff.mp inside
      rw [List.append_assoc]
      exact atom.calledEmpty opening closing
  | cons e es =>
      have items := writesItems_of_written (written e List.mem_cons_self)
        (fun e member => written e (List.mem_cons_of_mem _ member)) inside
      exact atom.called items opening closing

mutual

/-- Every printed expression is read as it was. -/
theorem written (e : Expr) : Written e := by
  cases e with
  | int value => exact written_token rfl rfl (Reads.int value) fun _ => rfl
  | float value => exact written_token rfl rfl (Reads.float value) fun _ => rfl
  | string value => exact written_token rfl rfl (Reads.string value) fun _ => rfl
  | truth value =>
      cases value with
      | true => exact written_token rfl rfl Reads.trueWord fun _ => rfl
      | false => exact written_token rfl rfl Reads.falseWord fun _ => rfl
  | name text => exact written_token rfl rfl (Reads.name text) fun _ => rfl
  | list elements => exact written_list (all_written elements)
  | call callee arguments => exact written_call (written callee) (all_written arguments)
  | unary op operand => exact written_unary (written operand)
  | binary left op right => exact written_binary (written left) (written right)
  | assign text value => exact written_assign text (written value)

theorem all_written (es : List Expr) : ∀ e ∈ es, Written e := by
  cases es with
  | nil =>
      intro e member
      cases member
  | cons first es =>
      intro e member
      rcases List.mem_cons.mp member with same | later
      · rw [same]
        exact written first
      · exact all_written es e later

end

/-! ## Parsing what is printed -/

/-- The lexemes that may follow an expression. -/
def followsExpression : Lexeme → Bool
  | .eof => true
  | .newline => true
  | .comma => true
  | .rightParen => true
  | .rightBracket => true
  | .leftBrace => true
  | .rightBrace => true
  | _ => false

theorem attaches?_of_follows (follows : followsExpression l = true) : attaches? l = none := by
  cases l <;> simp_all [followsExpression, attaches?]

theorem reads_of_print (e : Expr) (spells : Spells ts e.print) (next : Token) (rest : List Token)
    (follows : followsExpression next.lexeme = true) :
    ∃ node, Reads .expression (ts ++ next :: rest) (.node node) (next :: rest) ∧
      node.erase = e.node :=
  (written e).bare spells next rest (endsBefore_of_none _ (attaches?_of_follows follows))

/-- Parsing a printed expression that is followed by something else gives the expression back, up to
places, and stops right behind it. -/
theorem run_expression_print (e : Expr) {front printed : List Token}
    (spells : Spells printed e.print) {next : Token} (rest : List Token)
    (follows : followsExpression next.lexeme = true) :
    ∃ node after, RuleName.expression.run (front ++ printed ++ next :: rest).toArray front.length =
        .ok (.node node) after ∧ node.erase = e.node ∧
      after.index = front.length + printed.length ∧ after.current = next := by
  obtain ⟨node, reading, same⟩ := reads_of_print e spells next rest follows
  have enough : 2 * (printed ++ next :: rest).length + 0 ≤
      bound (front ++ printed ++ next :: rest).length := by
    unfold bound
    simp only [List.length_append, List.length_cons]
    omega
  have accepts := (reading.accepts enough).map Yield.node
  have before : Walk.Before ⟨(front ++ printed ++ next :: rest).toArray, front.length, {}⟩
      (printed ++ next :: rest) := by
    refine ⟨Int.natCast_nonneg _, ?_⟩
    simp
  obtain ⟨after, run, stands, size⟩ := accepts _ before
  refine ⟨node, after, ?_, same, ?_, after.current_of_before stands⟩
  · simpa [RuleName.run, RuleName.ruleIn] using run
  · have place := after.index_of_before stands
    rw [size] at place
    simp only [List.size_toArray, List.length_append, List.length_cons] at place
    omega

/-- Signs around powers. -/
theorem run_expression_print_powers : ∃ node after,
    RuleName.expression.run (unplaced [.name "x", .assign, .leftParen, .minus, .int 2, .rightParen,
      .power true, .minus, .int 3, .power false, .int 2, .eof]).toArray 0 =
        .ok (.node node) after ∧
      node.erase = (Expr.assign "x" (.binary (.unary .minus (.int 2)) (.pow true)
        (.unary .minus (.binary (.int 3) (.pow false) (.int 2))))).node ∧
      after.index = 11 ∧ after.current = ⟨.eof, default⟩ :=
  @run_expression_print (Expr.assign "x" (.binary (.unary .minus (.int 2)) (.pow true)
    (.unary .minus (.binary (.int 3) (.pow false) (.int 2))))) [] (unplaced _) (spells_unplaced _)
    ⟨.eof, default⟩ [] rfl

end

end Grammar
end Pseudocode
