import Pseudocode.Proofs.Parsing.Reading
import Pseudocode.Proofs.Tree.Shape

/-!
# Writing expressions

Expressions are written with ten precedences, from the assignment, which is loosest, to the atom.
Tokens write a tree at a precedence if they are read as this tree, whatever stands behind them, as
long as it does not go on with an expression of this precedence.  Operators that associate to the
left need more: tokens chain to a tree at a level if further operations of the level may follow.

There is one lemma for each way to write an expression, and `Writes.loosen` for expressions that
stand where a looser one is asked for.
-/

namespace Pseudocode
namespace Grammar

/-- How tightly the parts of an expression hold together, from the loosest to the tightest. -/
inductive Precedence where
  | assignment
  | logical
  | negation
  | comparison
  | sum
  | term
  | sign
  | power
  | call
  | atom
  deriving DecidableEq, Repr

/-- The place of a precedence in the order. -/
def Precedence.rank : Precedence → Nat
  | assignment => 0
  | logical => 1
  | negation => 2
  | comparison => 3
  | sum => 4
  | term => 5
  | sign => 6
  | power => 7
  | call => 8
  | atom => 9

/-- The symbol of the grammar that asks for a precedence. -/
def Precedence.symbol : Precedence → Symbol
  | assignment => .expression
  | logical => .chain .logical
  | negation => .comparison
  | comparison => .chain .comparison
  | sum => .chain .sum
  | term => .chain .term
  | sign => .factor
  | power => .power
  | call => .application
  | atom => .atom

/-- The precedence of the operations of a level. -/
def Level.precedence : Level → Precedence
  | logical => .logical
  | comparison => .comparison
  | sum => .sum
  | term => .term

/-- The precedence of the operands of a level. -/
def Level.tighter : Level → Precedence
  | logical => .negation
  | comparison => .sum
  | sum => .term
  | term => .sign

/-- The tightest precedence at which a lexeme goes on with an expression in front of it. -/
def attaches? : Lexeme → Option Precedence
  | .assign => some .assignment
  | .keyword .andWord => some .logical
  | .keyword .orWord => some .logical
  | .equal => some .comparison
  | .notEqual => some .comparison
  | .less => some .comparison
  | .greater => some .comparison
  | .lessEqual => some .comparison
  | .greaterEqual => some .comparison
  | .plus => some .sum
  | .minus => some .sum
  | .star => some .term
  | .slash => some .term
  | .keyword .modWord => some .term
  | .power _ => some .power
  | .leftParen => some .call
  | _ => none

/-- An expression of a precedence ends before a lexeme. -/
def Precedence.EndsBefore (p : Precedence) (l : Lexeme) : Prop :=
  ∀ q, attaches? l = some q → q.rank < p.rank

theorem Precedence.EndsBefore.mono {p q : Precedence} {l : Lexeme} (ends : p.EndsBefore l)
    (tighter : p.rank ≤ q.rank) : q.EndsBefore l := by
  intro r attached
  exact Nat.lt_of_lt_of_le (ends r attached) tighter

theorem endsBefore_of_none (p : Precedence) {l : Lexeme} (free : attaches? l = none) :
    p.EndsBefore l := by
  intro q attached
  rw [free] at attached
  cases attached

theorem Precedence.EndsBefore.ne {p : Precedence} {l l' : Lexeme} (ends : p.EndsBefore l)
    {q : Precedence} (attached : attaches? l' = some q) (looser : p.rank ≤ q.rank) : l ≠ l' := by
  rintro rfl
  exact Nat.not_lt.mpr looser (ends q attached)

theorem Level.symbol_precedence (level : Level) : level.precedence.symbol = .chain level := by
  cases level <;> rfl

theorem Level.symbol_tighter (level : Level) : level.tighter.symbol = level.operand := by
  cases level <;> rfl

theorem Level.rank_tighter (level : Level) : level.tighter.rank = level.precedence.rank + 1 := by
  cases level <;> rfl

theorem Level.rank_lt (level : Level) : level.precedence.rank < level.tighter.rank :=
  Nat.lt_of_succ_le (Nat.le_of_eq level.rank_tighter.symm)

theorem attaches?_of_operator {level : Level} {l : Lexeme} {op : BinaryOp}
    (isOperator : level.operator? l = some op) : attaches? l = some level.precedence := by
  cases level <;>
    simp only [Level.operator?, logicalOp?, comparisonOp?, sumOp?, termOp?] at isOperator <;>
    split at isOperator <;> cases isOperator <;> rfl

theorem operator?_of_endsBefore {level : Level} {l : Lexeme}
    (ends : level.precedence.EndsBefore l) : level.operator? l = none := by
  cases found : level.operator? l with
  | none => rfl
  | some op => exact absurd (ends _ (attaches?_of_operator found)) (Nat.lt_irrefl _)

theorem powerOp?_of_endsBefore {l : Lexeme} (ends : Precedence.power.EndsBefore l) :
    powerOp? l = none := by
  cases l with
  | power doubled => exact absurd (ends .power rfl) (Nat.lt_irrefl _)
  | _ => rfl

theorem attaches?_of_power {l : Lexeme} {op : BinaryOp} (isPower : powerOp? l = some op) :
    attaches? l = some .power := by
  cases l <;> cases isPower
  rfl

/-- Nothing goes on with a sign but what goes on with a power. -/
theorem Precedence.EndsBefore.sign {l : Lexeme} (ends : Precedence.power.EndsBefore l) :
    Precedence.sign.EndsBefore l := by
  intro q attached
  have other : q ≠ .sign := by
    rintro rfl
    unfold attaches? at attached
    split at attached <;> cases attached
  have tight := ends q attached
  cases q with
  | sign => contradiction
  | _ => simp [Precedence.rank] at tight ⊢

/-- Tokens that are read as a tree, up to places, at a precedence. -/
def Writes (p : Precedence) (ts : List Token) (tree : Node) : Prop :=
  ∀ next b, p.EndsBefore next.lexeme →
    ∃ node, Reads p.symbol (ts ++ next :: b) (.node node) (next :: b) ∧ node.erase = tree

/-- Tokens that are read as a tree, up to places, in front of operations of a level. -/
def Chains (level : Level) (ts : List Token) (tree : Node) : Prop :=
  ∀ next b operations c, Reads (.operations level) (next :: b) (.operations operations) c →
    level.tighter.EndsBefore next.lexeme →
    ∃ node, Reads (.chain level) (ts ++ next :: b) (.node (applyAll node operations)) c ∧
      node.erase = tree

section

variable {p q : Precedence} {level : Level} {ts us : List Token} {tree left right : Node}

/-! ## Levels of operators -/

theorem Chains.writes (chains : Chains level ts tree) : Writes level.precedence ts tree := by
  intro next b ends
  have stops := Reads.noOperation next b (operator?_of_endsBefore ends)
  have tighter := ends.mono (Nat.le_of_lt level.rank_lt)
  rw [level.symbol_precedence]
  exact chains next b [] _ stops tighter

theorem Writes.chains (writes : Writes level.tighter ts tree) : Chains level ts tree := by
  intro next b operations c others ends
  obtain ⟨node, reading, same⟩ := writes next b ends
  rw [level.symbol_tighter] at reading
  exact ⟨node, .chain reading others, same⟩

/-- A further operation at the end of a chain. -/
theorem Chains.operation (chains : Chains level ts left) (writes : Writes level.tighter us right)
    {sign : Token} {op : BinaryOp} (isOperator : level.operator? sign.lexeme = some op) :
    Chains level (ts ++ sign :: us) (.binary left op default right default) := by
  intro next b operations c others ends
  obtain ⟨rightNode, operand, sameRight⟩ := writes next b ends
  rw [level.symbol_tighter] at operand
  have looser : level.tighter.EndsBefore sign.lexeme := by
    intro q attached
    rw [attaches?_of_operator isOperator] at attached
    cases attached
    exact level.rank_lt
  have more := Reads.operation sign isOperator operand others
  obtain ⟨leftNode, reading, sameLeft⟩ := chains sign (us ++ next :: b) _ c more looser
  refine ⟨.mkBinary leftNode op sign.span rightNode, ?_, ?_⟩
  · simpa using reading
  · simp [Node.mkBinary, Node.erase, sameLeft, sameRight]

/-! ## Looser places -/

/-- Symbols of expressions that are no assignments. -/
def Symbol.plain : Symbol → Bool
  | .comparison => true
  | .chain _ => true
  | .factor => true
  | .power => true
  | .application => true
  | .atom => true
  | _ => false

/-- A name before an assignment sign is read by itself. -/
theorem Reads.stops_at_assign {s : Symbol} {a b c : List Token} {x : Phrase} {text : String}
    {span sign : Span} (reading : Reads s a x b) (plain : s.plain = true)
    (start : a = ⟨.name text, span⟩ :: ⟨.assign, sign⟩ :: c) : b = ⟨.assign, sign⟩ :: c := by
  induction reading with
  | comparing whole ih => exact ih rfl start
  | @chain level a b c left operations first others first_ih others_ih =>
      obtain rfl := first_ih (by cases level <;> rfl) start
      cases others with
      | noOperation next a' ends => rfl
      | operation sign isOperator operand more => cases level <;> cases isOperator
  | sign sign isSign operand ih =>
      rw [(List.cons.inj start).1] at isSign
      cases isSign
  | unsigned whole ih => exact ih rfl start
  | base next whole ends ih => exact ih rfl start
  | raised sign base isPower exponent base_ih exponent_ih =>
      have same := base_ih rfl start
      rw [(List.cons.inj same).1] at isPower
      cases isPower
  | bare next whole ends ih => exact ih rfl start
  | callEmpty opening closing called ih => cases ih rfl start
  | call opening closing called given called_ih given_ih =>
      cases called_ih rfl start
  | name text span a => exact (List.cons.inj start).2
  | branch whole ih =>
      obtain ⟨t, rest, rfl, starts⟩ := whole.starts
      rw [(List.cons.inj start).1] at starts
      cases starts
  | _ => simp [Symbol.plain] at plain start

/-- The next tighter precedence. -/
def Precedence.next : Precedence → Precedence
  | assignment => .logical
  | logical => .negation
  | negation => .comparison
  | comparison => .sum
  | sum => .term
  | term => .sign
  | sign => .power
  | power => .call
  | call => .atom
  | atom => .atom

theorem Precedence.rank_inj (same : p.rank = q.rank) : p = q := by
  cases p <;> cases q <;> simp_all [rank]

theorem Precedence.rank_next (looser : p.rank < q.rank) : p.next.rank = p.rank + 1 := by
  cases p with
  | atom => cases q <;> simp [Precedence.rank] at looser
  | _ => rfl

/-- What is written at a precedence may stand where the next looser one is asked for. -/
theorem Writes.step (writes : Writes p.next ts tree) : Writes p ts tree := by
  cases p with
  | assignment =>
      intro next b ends
      obtain ⟨node, reading, same⟩ := writes next b (ends.mono (Nat.zero_le 1))
      have plain : assigns (ts ++ next :: b) = false := by
        refine Bool.eq_false_iff.mpr fun found => ?_
        obtain ⟨t, a, divided, -⟩ := reading.starts
        rw [divided] at found
        obtain ⟨text, span, sign, c, rfl, rfl⟩ := exists_of_assigns found
        have stops := reading.stops_at_assign rfl divided
        have other : next.lexeme ≠ .assign := ends.ne rfl (Nat.le_refl 0)
        rw [(List.cons.inj stops).1] at other
        contradiction
      exact ⟨node, .logical plain reading, same⟩
  | logical =>
      have chains : Chains .logical ts tree := Writes.chains writes
      exact chains.writes
  | negation =>
      intro next b ends
      obtain ⟨node, reading, same⟩ := writes next b (ends.mono (Nat.le_succ 2))
      exact ⟨node, .comparing reading, same⟩
  | comparison =>
      have chains : Chains .comparison ts tree := Writes.chains writes
      exact chains.writes
  | sum =>
      have chains : Chains .sum ts tree := Writes.chains writes
      exact chains.writes
  | term =>
      have chains : Chains .term ts tree := Writes.chains writes
      exact chains.writes
  | sign =>
      intro next b ends
      obtain ⟨node, reading, same⟩ := writes next b (ends.mono (Nat.le_succ 6))
      exact ⟨node, .unsigned reading, same⟩
  | power =>
      intro next b ends
      obtain ⟨node, reading, same⟩ := writes next b (ends.mono (Nat.le_succ 7))
      exact ⟨node, .base next reading (powerOp?_of_endsBefore ends), same⟩
  | call =>
      intro next b ends
      obtain ⟨node, reading, same⟩ := writes next b (ends.mono (Nat.le_succ 8))
      exact ⟨node, .bare next reading (ends.ne rfl (Nat.le_refl 8)), same⟩
  | atom => exact writes

theorem Writes.loosen (writes : Writes q ts tree) (looser : p.rank ≤ q.rank) :
    Writes p ts tree := by
  induction gap : q.rank - p.rank generalizing p with
  | zero =>
      obtain rfl := Precedence.rank_inj (p := p) (q := q) (by omega)
      exact writes
  | succ gap ih =>
      have succ : p.next.rank = p.rank + 1 := Precedence.rank_next (q := q) (by omega)
      exact (ih (by omega) (by omega)).step

/-! ## Ways to write an expression -/

/-- Parentheses around an expression make it an atom. -/
theorem Writes.parenthesised (writes : Writes p ts tree) (opening closing : Span) :
    Writes .atom (⟨.leftParen, opening⟩ :: ts ++ [⟨.rightParen, closing⟩]) tree := by
  intro next b _
  have inner : Writes .assignment ts tree := writes.loosen (Nat.zero_le p.rank)
  obtain ⟨node, reading, same⟩ :=
    inner ⟨.rightParen, closing⟩ (next :: b) (endsBefore_of_none _ rfl)
  refine ⟨node, ?_, same⟩
  rw [List.append_assoc]
  exact .parenthesised opening closing reading

/-- A sign in front of a factor. -/
theorem Writes.signed (writes : Writes .sign ts tree) {sign : Token} {op : UnaryOp}
    (isSign : signOp? sign.lexeme = some op) :
    Writes .sign (sign :: ts) (.unary op default tree default) := by
  intro next b ends
  obtain ⟨node, reading, same⟩ := writes next b ends
  refine ⟨_, .sign sign isSign reading, ?_⟩
  simp [Node.mkUnary, Node.erase, same]

/-- A negation of a comparison. -/
theorem Writes.negated (writes : Writes .negation ts tree) (word : Span) :
    Writes .negation (⟨.keyword .notWord, word⟩ :: ts) (.unary .not default tree default) := by
  intro next b ends
  obtain ⟨node, reading, same⟩ := writes next b ends
  refine ⟨_, .negation word reading, ?_⟩
  simp [Node.mkUnary, Node.erase, same]

/-- A power, with the base as tight as a call and the exponent as tight as a sign. -/
theorem Writes.raised (base : Writes .call ts left) (exponent : Writes .sign us right)
    {sign : Token} {op : BinaryOp} (isPower : powerOp? sign.lexeme = some op) :
    Writes .power (ts ++ sign :: us) (.binary left op default right default) := by
  intro next b ends
  obtain ⟨rightNode, reading', sameRight⟩ := exponent next b ends.sign
  have looser : Precedence.call.EndsBefore sign.lexeme := by
    intro q attached
    rw [attaches?_of_power isPower] at attached
    cases attached
    exact Nat.lt_succ_self 7
  obtain ⟨leftNode, reading, sameLeft⟩ := base sign (us ++ next :: b) looser
  refine ⟨.mkBinary leftNode op sign.span rightNode, ?_, ?_⟩
  · rw [List.append_assoc]
    exact .raised sign reading isPower reading'
  · simp [Node.mkBinary, Node.erase, sameLeft, sameRight]

/-- An assignment. -/
theorem Writes.assigned (value : Writes .assignment ts tree) (text : String) (span sign : Span) :
    Writes .assignment (⟨.name text, span⟩ :: ⟨.assign, sign⟩ :: ts)
      (.assign ⟨text, default⟩ tree default) := by
  intro next b ends
  obtain ⟨node, reading, same⟩ := value next b ends
  refine ⟨_, .assign text span sign reading, ?_⟩
  simp [Node.mkAssign, Node.erase, Name.erase, same]

/-- A single token that is an atom. -/
theorem writes_token {t : Token} {node : Node} (reads : ∀ a, Reads .atom (t :: a) (.node node) a) :
    Writes .atom [t] node.erase := by
  intro next b _
  exact ⟨node, reads (next :: b), rfl⟩

/-- Commas, each with an expression behind it, that are read as trees, up to places. -/
def WritesMore (ts : List Token) (trees : List Node) : Prop :=
  ∀ next b, attaches? next.lexeme = none → next.lexeme ≠ .comma →
    ∃ first c nodes, ts ++ next :: b = first :: c ∧ attaches? first.lexeme = none ∧
      Reads .moreItems (first :: c) (.nodes nodes) (next :: b) ∧ eraseAll nodes = trees

/-- Expressions with commas between them that are read as trees, up to places. -/
def WritesItems (ts : List Token) (trees : List Node) : Prop :=
  ∀ next b, attaches? next.lexeme = none → next.lexeme ≠ .comma →
    ∃ nodes, Reads .items (ts ++ next :: b) (.nodes nodes) (next :: b) ∧ eraseAll nodes = trees

theorem writesMore_nil : WritesMore [] [] := by
  intro next b free other
  exact ⟨next, b, [], rfl, free, .lastItem next b other, rfl⟩

theorem WritesMore.items {trees : List Node} (more : WritesMore us trees)
    (writes : Writes .assignment ts tree) : WritesItems (ts ++ us) (tree :: trees) := by
  intro next b free other
  obtain ⟨first, c, nodes, divided, free', reading', sames⟩ := more next b free other
  obtain ⟨node, reading, same⟩ := writes first c (endsBefore_of_none _ free')
  refine ⟨node :: nodes, ?_, by simp [eraseAll, same, sames]⟩
  rw [List.append_assoc, divided]
  exact .items reading reading'

theorem WritesMore.cons {trees : List Node} (more : WritesMore us trees)
    (writes : Writes .assignment ts tree) (comma : Span) :
    WritesMore (⟨.comma, comma⟩ :: ts ++ us) (tree :: trees) := by
  intro next b free other
  obtain ⟨first, c, nodes, divided, free', reading', sames⟩ := more next b free other
  obtain ⟨node, reading, same⟩ := writes first c (endsBefore_of_none _ free')
  refine ⟨⟨.comma, comma⟩, ts ++ us ++ next :: b, node :: nodes, rfl, rfl, ?_, ?_⟩
  · rw [List.append_assoc, divided]
    exact .nextItem comma reading reading'
  · simp [eraseAll, same, sames]

theorem writes_emptyList (opening closing : Span) :
    Writes .atom [⟨.leftBracket, opening⟩, ⟨.rightBracket, closing⟩] (.list [] default) := by
  intro next b _
  exact ⟨_, .emptyList opening closing next b, rfl⟩

theorem WritesItems.list {trees : List Node} (items : WritesItems ts trees)
    (opening closing : Span) :
    Writes .atom (⟨.leftBracket, opening⟩ :: ts ++ [⟨.rightBracket, closing⟩])
      (.list trees default) := by
  intro next b _
  obtain ⟨nodes, reading, same⟩ :=
    items ⟨.rightBracket, closing⟩ (next :: b) rfl Lexeme.noConfusion
  refine ⟨.list nodes ⟨opening.start, next.span.stop⟩, ?_, by simp [Node.erase, same]⟩
  rw [List.append_assoc]
  exact .list opening closing next reading

theorem endsBefore_leftParen : Precedence.atom.EndsBefore .leftParen := by
  intro q attached
  cases attached
  exact Nat.lt_succ_self 8

theorem Writes.calledEmpty (callee : Writes .atom ts tree) (opening closing : Span) :
    Writes .call (ts ++ [⟨.leftParen, opening⟩, ⟨.rightParen, closing⟩])
      (.call tree [] default) := by
  intro next b _
  obtain ⟨node, reading, same⟩ :=
    callee ⟨.leftParen, opening⟩ (⟨.rightParen, closing⟩ :: next :: b) endsBefore_leftParen
  refine ⟨.mkCall node [], ?_, by simp [Node.mkCall, Node.erase, eraseAll, same]⟩
  rw [List.append_assoc]
  exact .callEmpty opening closing reading

theorem Writes.called {trees : List Node} (callee : Writes .atom ts tree)
    (items : WritesItems us trees) (opening closing : Span) :
    Writes .call (ts ++ ⟨.leftParen, opening⟩ :: us ++ [⟨.rightParen, closing⟩])
      (.call tree trees default) := by
  intro next b _
  obtain ⟨nodes, given, sames⟩ :=
    items ⟨.rightParen, closing⟩ (next :: b) rfl Lexeme.noConfusion
  obtain ⟨node, reading, same⟩ :=
    callee ⟨.leftParen, opening⟩ (us ++ ⟨.rightParen, closing⟩ :: next :: b) endsBefore_leftParen
  refine ⟨.mkCall node nodes, ?_, by simp [Node.mkCall, Node.erase, same, sames]⟩
  have shape : ts ++ ⟨.leftParen, opening⟩ :: us ++ [⟨.rightParen, closing⟩] ++ next :: b =
      ts ++ ⟨.leftParen, opening⟩ :: (us ++ ⟨.rightParen, closing⟩ :: next :: b) := by simp
  rw [shape]
  exact .call opening closing reading given

end

end Grammar
end Pseudocode
