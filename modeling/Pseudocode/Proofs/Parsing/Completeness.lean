import Pseudocode.Proofs.Parsing.Walk
import Pseudocode.Tree.Parse

/-!
# The parser reads all that can be read

Whatever can be read with one token of lookahead, the rules of the grammar read, and they stop at
the same place with the same tree.  The bound on the nesting never gets in the way: a rule that
stands before `n` tokens needs at most `2 * n + 1` levels, because between two nested rules at least
one token is taken, except from a block to its first expression.
-/

namespace Pseudocode
namespace Grammar

open Rule

/-! ## Rules that fail at once -/

/-- The steps that a rule counts before a token that it cannot start with. -/
def endSteps : Lexeme → Nat
  | .eof => 1
  | _ => 0

theorem endSteps_of_ne {l : Lexeme} (other : l ≠ .eof) : endSteps l = 0 := by
  cases l with
  | eof => contradiction
  | _ => rfl

theorem fail_fails {α : Type} (what : Expectation) (a : List Token) :
    (Rule.fail what : Rule α).Fails a 0 :=
  fun w _ => ⟨_, w.tally, rfl, rfl, fun moved => absurd rfl moved⟩

section

variable {self : Rules} {fuel : Nat} {t : Token} {a : List Token}

theorem seen_current (w : Walk) (before : w.Before (t :: a)) : Rule.current w = .ok t w := by
  rw [Rule.current, w.current_of_before before]

theorem atom_fails (noStart : startsAtom t.lexeme = false) :
    (atom self fuel).Fails (t :: a) (endSteps t.lexeme) := by
  refine Fails.look seen_current ?_
  obtain ⟨lexeme, span⟩ := t
  cases lexeme with
  | keyword word =>
      cases word <;> first | exact fail_fails .atom _ | cases noStart
  | eof => exact fun w _ => ⟨_, w.tally.count, rfl, rfl, fun _ => rfl⟩
  | _ => first | exact fail_fails .atom _ | cases noStart

theorem application_fails (noStart : startsAtom t.lexeme = false) :
    (application self fuel).Fails (t :: a) (endSteps t.lexeme) :=
  (atom_fails noStart).call.bind _

theorem factor_fails (noStart : startsFactor t.lexeme = false) :
    (factor self fuel).Fails (t :: a) (endSteps t.lexeme) := by
  rw [startsFactor, Bool.or_eq_false_iff] at noStart
  have noSign : signOp? t.lexeme = none := Option.not_isSome_iff_eq_none.mp (by simp [noStart.2])
  refine Fails.look seen_current ?_
  rw [noSign]
  exact (application_fails noStart.1).call.bind _

theorem comparison_fails (noStart : startsExpression t.lexeme = false) :
    (comparison self fuel).Fails (t :: a) (endSteps t.lexeme) := by
  rw [startsExpression, Bool.or_eq_false_iff] at noStart
  refine Fails.look seen_current ?_
  rw [Token.isKeyword, noStart.2]
  exact Fails.callOr _ ((((factor_fails noStart.1).call.bind _).call.bind _).call.bind _)

/-- An expression looks at two tokens to tell an assignment. -/
theorem expression_eq {w : Walk} (before : w.Before (t :: a)) :
    expression self fuel w =
      (if assigns (t :: a) = true then do
        let target ← name .name
        advance
        let value ← call (self .expression)
        return .mkAssign target value
      else
        callOr (chain logicalOp? (comparison self fuel) (comparison self fuel) fuel) fun w =>
          .expected .expression w.current.span) w := by
  rw [← w.assigns_of_before before]
  rfl

theorem expression_fails (noStart : startsExpression t.lexeme = false) :
    (expression self fuel).Fails (t :: a) (endSteps t.lexeme) := by
  intro w before
  have plain : assigns (t :: a) = false := by
    obtain ⟨lexeme, span⟩ := t
    cases a with
    | nil => rfl
    | cons u a =>
        cases lexeme with
        | name text => cases noStart
        | _ => rfl
  rw [expression_eq before, plain]
  exact Fails.callOr _ ((comparison_fails noStart).call.bind _) w before

theorem statement_fails (fails : (self .expression).Fails (t :: a) (endSteps t.lexeme))
    (noStart : startsStatement t.lexeme = false) :
    (statement self).Fails (t :: a) (endSteps t.lexeme) := by
  simp only [startsStatement, Bool.or_eq_false_iff] at noStart
  refine Fails.look seen_current ?_
  simp only [Token.isKeyword, noStart, Bool.false_eq_true, if_false]
  exact fails.callOr _

end

theorem rule_expression_fails (fuel : Nat) {t : Token} {a : List Token} (enough : 0 < fuel)
    (noStart : startsExpression t.lexeme = false) :
    (rule fuel .expression).Fails (t :: a) (endSteps t.lexeme) := by
  obtain ⟨fuel, rfl⟩ := Nat.exists_eq_succ_of_ne_zero (Nat.ne_of_gt enough)
  exact expression_fails noStart

/-! ## One rule at a time -/

section

variable {self : Rules} {fuel : Nat} {a b c d e : List Token} {node : Node}

theorem expression_reaches_assign {text : String} {span sign : Span}
    (right : (self .expression).Reaches a node b) :
    (expression self fuel).Reaches (⟨.name text, span⟩ :: ⟨.assign, sign⟩ :: a)
      (.mkAssign ⟨text, span⟩ node) b :=
  .bind .current (.bind .followingLexeme
    (.bind (.bind .current (.bind .advance (.pure _)))
      (.bind .advance (.bind (.call right) (.pure _)))))

theorem expression_reaches_logical {t : Token} (plain : assigns (t :: a) = false)
    (whole : (chain logicalOp? (comparison self fuel) (comparison self fuel) fuel).Reaches (t :: a)
      node b) :
    (expression self fuel).Reaches (t :: a) node b := by
  intro w before
  rw [expression_eq before, plain]
  exact Reaches.callOr _ whole w before

theorem comparison_reaches_negation {word : Span} (operand : (self .comparison).Reaches a node b) :
    (comparison self fuel).Reaches (⟨.keyword .notWord, word⟩ :: a) (.mkUnary .not word node) b :=
  .bind .current (.bind .advance (.bind (.call operand) (.pure _)))

theorem comparison_reaches_chain {t : Token} (noNot : t.isKeyword .notWord = false)
    (whole : (chain comparisonOp? (sum self fuel) (sum self fuel) fuel).Reaches (t :: a) node b) :
    (comparison self fuel).Reaches (t :: a) node b := by
  refine .bind .current ?_
  rw [noNot]
  exact .callOr _ whole

theorem factor_reaches_sign {sign : Token} {op : UnaryOp} (isSign : signOp? sign.lexeme = some op)
    (operand : (self .factor).Reaches a node b) :
    (factor self fuel).Reaches (sign :: a) (.mkUnary op sign.span node) b := by
  refine .bind .current ?_
  rw [isSign]
  exact .bind .advance (.bind (.call operand) (.pure _))

theorem factor_reaches_power {t : Token} (noSign : signOp? t.lexeme = none)
    (whole : (power self fuel).Reaches (t :: a) node b) :
    (factor self fuel).Reaches (t :: a) node b := by
  refine .bind .current ?_
  rw [noSign]
  exact whole

theorem chainFrom_reaches_end {operator? : Lexeme → Option BinaryOp} {right : Rule Node}
    {next : Token} (ends : operator? next.lexeme = none) (left : Node) :
    (chainFrom operator? right (fuel + 1) left).Reaches (next :: a) left (next :: a) := by
  refine .bind .current ?_
  rw [ends]
  exact .pure left

theorem chainFrom_reaches_operation {operator? : Lexeme → Option BinaryOp} {right : Rule Node}
    {sign : Token} {op : BinaryOp} {left operand : Node}
    (isOperator : operator? sign.lexeme = some op) (first : right.Reaches a operand b)
    (others :
      (chainFrom operator? right fuel (.mkBinary left op sign.span operand)).Reaches b node c) :
    (chainFrom operator? right (fuel + 1) left).Reaches (sign :: a) node c := by
  refine .bind .current ?_
  rw [isOperator]
  exact .bind .advance (.bind (.call first) others)

theorem application_reaches_atom {next : Token} (ends : next.lexeme ≠ .leftParen)
    (whole : (atom self fuel).Reaches a node (next :: b)) :
    (application self fuel).Reaches a node (next :: b) := by
  refine .bind (.call whole) (.bind .lexeme ?_)
  split
  · contradiction
  · exact .pure node

theorem application_reaches_callEmpty {opening closing : Span}
    (called :
      (atom self fuel).Reaches a node (⟨.leftParen, opening⟩ :: ⟨.rightParen, closing⟩ :: b)) :
    (application self fuel).Reaches a (.mkCall node []) b :=
  .bind (.call called) (.bind .lexeme (.bind .advance (.bind .lexeme (.bind .advance (.pure _)))))

theorem firstArgument_reaches (reached : (self .expression).Reaches a node b) :
    (firstArgument self).Reaches a node b :=
  .observe reached fun tally => .bind (.register tally) (.pure node)

theorem application_reaches_call {opening closing : Span} {t : Token} {first : Node}
    {others : List Node} (nonempty : t.lexeme ≠ .rightParen)
    (called : (atom self fuel).Reaches a node (⟨.leftParen, opening⟩ :: t :: b))
    (head : (self .expression).Reaches (t :: b) first c)
    (tail : (moreItems self fuel).Reaches c others (⟨.rightParen, closing⟩ :: d)) :
    (application self fuel).Reaches a (.mkCall node (first :: others)) d := by
  refine .bind (.call called) (.bind .lexeme (.bind .advance (.bind .lexeme ?_)))
  split
  · contradiction
  · exact .bind (firstArgument_reaches head) (.bind tail (.bind (.expect rfl) (.pure _)))

theorem moreItems_reaches_end {next : Token} (ends : next.lexeme ≠ .comma) :
    (moreItems self (fuel + 1)).Reaches (next :: a) [] (next :: a) := by
  refine .bind .lexeme ?_
  split
  · contradiction
  · exact .pure []

theorem moreItems_reaches_next {comma : Span} {others : List Node}
    (head : (self .expression).Reaches a node b) (tail : (moreItems self fuel).Reaches b others c) :
    (moreItems self (fuel + 1)).Reaches (⟨.comma, comma⟩ :: a) (node :: others) c :=
  .bind .lexeme (.bind .advance (.bind (.call head) (.bind tail (.pure _))))

theorem atom_reaches_parenthesised {opening closing : Span}
    (inside : (self .expression).Reaches a node (⟨.rightParen, closing⟩ :: b)) :
    (atom self fuel).Reaches (⟨.leftParen, opening⟩ :: a) node b :=
  .bind .current (.bind .advance (.bind (.call inside) (.bind (.expect rfl) (.pure _))))

theorem atom_reaches_emptyList {opening closing : Span} {next : Token} :
    (atom self fuel).Reaches (⟨.leftBracket, opening⟩ :: ⟨.rightBracket, closing⟩ :: next :: a)
      (.list [] ⟨opening.start, next.span.stop⟩) (next :: a) :=
  .bind .current (.call (.bind .current (.bind (.expect rfl) (.bind .lexeme
    (.bind .advance (.bind .current (.pure _)))))))

theorem atom_reaches_list {opening closing : Span} {next t : Token} {others : List Node}
    (nonempty : t.lexeme ≠ .rightBracket) (head : (self .expression).Reaches (t :: a) node b)
    (tail : (moreItems self fuel).Reaches b others (⟨.rightBracket, closing⟩ :: next :: c)) :
    (atom self fuel).Reaches (⟨.leftBracket, opening⟩ :: t :: a)
      (.list (node :: others) ⟨opening.start, next.span.stop⟩) (next :: c) := by
  refine .bind .current (.call (.bind .current (.bind (.expect rfl) (.bind .lexeme ?_))))
  split
  · contradiction
  · exact .bind (.callOr _ head) (.bind tail (.bind (.expect rfl) (.bind .current (.pure _))))

theorem name_reaches {what : Expectation} {text : String} {span : Span} :
    (name what : Rule Name).Reaches (⟨.name text, span⟩ :: a) ⟨text, span⟩ a :=
  .bind .current (.bind .advance (.pure _))

theorem keyword_reaches {word : Keyword} {span : Span} :
    (keyword word : Rule Unit).Reaches (⟨.keyword word, span⟩ :: a) () a :=
  .expect (by simp [Lexeme.isKeyword])

theorem condition_reaches {opening closing : Span}
    (inside : (self .expression).Reaches a node (⟨.rightParen, closing⟩ :: b)) :
    (condition self).Reaches (⟨.leftParen, opening⟩ :: a) node b :=
  .bind (.expect rfl) (.bind (.call inside) (.bind (.expect rfl) (.pure _)))

theorem braces_reaches {opening closing : Span}
    (lines : pastNewlines a = ⟨.leftBrace, opening⟩ :: b)
    (inside : (self .block).Reaches b node (⟨.rightBrace, closing⟩ :: c)) :
    (braces self).Reaches a node c :=
  .bind (.skipNewlines lines)
    (.bind (.expect rfl) (.bind (.call inside) (.bind (.expect rfl) (.pure _))))

theorem power_reaches_base {next : Token}
    (whole : (application self (fuel + 1)).Reaches a node (next :: b))
    (ends : powerOp? next.lexeme = none) :
    (power self (fuel + 1)).Reaches a node (next :: b) :=
  .bind (.call whole) (chainFrom_reaches_end ends node)

theorem power_reaches_raised {sign next : Token} {op : BinaryOp} {left right : Node}
    (base : (application self (fuel + 2)).Reaches a left (sign :: b))
    (isPower : powerOp? sign.lexeme = some op)
    (exponent : (self .factor).Reaches b right (next :: c)) (ends : powerOp? next.lexeme = none) :
    (power self (fuel + 2)).Reaches a (.mkBinary left op sign.span right) (next :: c) :=
  .bind (.call base)
    (chainFrom_reaches_operation isPower exponent (chainFrom_reaches_end ends _))

theorem cases_reaches_last {word : Keyword} {span : Span} {next : Token} {test body : Node}
    (guard : (condition self).Reaches a test b) (inside : (braces self).Reaches b body c)
    (lines : pastNewlines c = next :: d) (noElif : next.lexeme.isKeyword .elifWord = false)
    (noElse : next.lexeme.isKeyword .elseWord = false) :
    (cases self (fuel + 1) word).Reaches (⟨.keyword word, span⟩ :: a) ⟨test, body, [], none⟩
      (next :: d) := by
  refine .bind (.expect (by simp [Lexeme.isKeyword])) (.bind guard (.bind inside
    (.bind (.skipNewlines lines) (.bind .lexeme ?_))))
  simp only [noElif, noElse, Bool.false_eq_true, if_false]
  exact .pure _

theorem cases_reaches_elif {word : Keyword} {span : Span} {t : Token} {test body : Node}
    {parts : Cases} (guard : (condition self).Reaches a test b)
    (inside : (braces self).Reaches b body c) (lines : pastNewlines c = t :: d)
    (isElif : t.lexeme.isKeyword .elifWord = true)
    (others : (cases self fuel .elifWord).Reaches (t :: d) parts e) :
    (cases self (fuel + 1) word).Reaches (⟨.keyword word, span⟩ :: a)
      (parts.guard test body) e := by
  refine .bind (.expect (by simp [Lexeme.isKeyword])) (.bind guard (.bind inside
    (.bind (.skipNewlines lines) (.bind .lexeme ?_))))
  rw [if_pos isElif]
  exact .bind (.call others) (.pure _)

theorem cases_reaches_else {word : Keyword} {span elseWord : Span} {test body other : Node}
    (guard : (condition self).Reaches a test b) (inside : (braces self).Reaches b body c)
    (lines : pastNewlines c = ⟨.keyword .elseWord, elseWord⟩ :: d)
    (otherwise : (braces self).Reaches d other e) :
    (cases self (fuel + 1) word).Reaches (⟨.keyword word, span⟩ :: a) ⟨test, body, [], some other⟩
      e :=
  .bind (.expect (by simp [Lexeme.isKeyword])) (.bind guard (.bind inside
    (.bind (.skipNewlines lines) (.bind .lexeme
      (.bind (.call (.bind .lexeme (.bind .advance (.bind otherwise (.pure _))))) (.pure _))))))

theorem branch_reaches {span : Span} {parts : Cases}
    (whole : (cases self fuel .ifWord).Reaches (⟨.keyword .ifWord, span⟩ :: a) parts b) :
    (atom self fuel).Reaches (⟨.keyword .ifWord, span⟩ :: a) parts.branch b :=
  .bind .current (.call (.bind (.call whole) (.pure _)))

theorem forEach_reaches {forWord eachWord inWord span listSpan : Span} {text list : String}
    (inside : (braces self).Reaches a node b) :
    (atom self fuel).Reaches
      (⟨.keyword .forWord, forWord⟩ :: ⟨.keyword .eachWord, eachWord⟩ :: ⟨.name text, span⟩ ::
        ⟨.keyword .inWord, inWord⟩ :: ⟨.name list, listSpan⟩ :: a)
      (.mkForEach ⟨text, span⟩ (.access ⟨list, listSpan⟩) node) b :=
  .bind .current (.call (.bind keyword_reaches (.bind keyword_reaches (.bind name_reaches
    (.bind keyword_reaches (.bind name_reaches (.bind inside (.pure _))))))))

theorem whileLoop_reaches {word : Span} {test : Node} (guard : (condition self).Reaches a test b)
    (inside : (braces self).Reaches b node c) :
    (atom self fuel).Reaches (⟨.keyword .whileWord, word⟩ :: a) (.mkWhile test node) c :=
  .bind .current (.call (.bind keyword_reaches (.bind guard (.bind inside (.pure _)))))

theorem untilLoop_reaches {word untilWord : Span} {test : Node}
    (guard : (condition self).Reaches a test b) (inside : (braces self).Reaches b node c) :
    (atom self fuel).Reaches
      (⟨.keyword .repeatWord, word⟩ :: ⟨.keyword .untilWord, untilWord⟩ :: a)
      (.mkUntil test node) c :=
  .bind .current (.call (.bind keyword_reaches (.bind .lexeme
    (.bind .advance (.bind guard (.bind inside (.pure _)))))))

theorem repeatFixed_reaches {word span timesWord : Span} {count : Nat}
    (inside : (braces self).Reaches a node b) :
    (atom self fuel).Reaches
      (⟨.keyword .repeatWord, word⟩ :: ⟨.int count, span⟩ :: ⟨.keyword .timesWord, timesWord⟩ :: a)
      (.mkRepeatFixed count span node) b :=
  .bind .current (.call (.bind keyword_reaches (.bind .lexeme (.bind .current
    (.bind .advance (.bind keyword_reaches (.bind inside (.pure _))))))))

theorem repeatBy_reaches {word span timesWord : Span} {text : String}
    (inside : (braces self).Reaches a node b) :
    (atom self fuel).Reaches
      (⟨.keyword .repeatWord, word⟩ :: ⟨.name text, span⟩ :: ⟨.keyword .timesWord, timesWord⟩ :: a)
      (.mkRepeatBy (.access ⟨text, span⟩) node) b :=
  .bind .current (.call (.bind keyword_reaches (.bind .lexeme (.bind .current
    (.bind .advance (.bind keyword_reaches (.bind inside (.pure _))))))))

theorem moreParameters_reaches (fuel : Nat) {names : List Name} (reading : ReadsNames a names b)
    (enough : a.length ≤ fuel) :
    ∃ closing,
      (moreParameters fuel : Rule (List Name)).Reaches a names (⟨.rightParen, closing⟩ :: b) := by
  induction reading generalizing fuel with
  | last closing after =>
      cases fuel with
      | zero => simp at enough
      | succ fuel => exact ⟨closing, .bind .lexeme (.pure [])⟩
  | next comma span text others ih =>
      cases fuel with
      | zero => simp at enough
      | succ fuel =>
          simp only [List.length_cons] at enough
          obtain ⟨closing, reached⟩ := ih fuel (by omega)
          exact ⟨closing,
            .bind .lexeme (.bind .advance (.bind name_reaches (.bind reached (.pure _))))⟩

theorem parameters_reaches {names : List Name} (reading : ReadsParameters a names b)
    (enough : a.length ≤ fuel) : (parameters fuel : Rule (List Name)).Reaches a names b := by
  cases reading with
  | none closing after => exact .bind .lexeme (.bind (.expect rfl) (.pure []))
  | some span text others =>
      simp only [List.length_cons] at enough
      obtain ⟨closing, reached⟩ := moreParameters_reaches fuel others (by omega)
      exact .bind .lexeme (.bind name_reaches (.bind reached (.bind (.expect rfl) (.pure _))))

theorem procedure_reaches {word span opening : Span} {text : String} {names : List Name}
    (listed : (parameters fuel : Rule (List Name)).Reaches a names b)
    (inside : (braces self).Reaches b node c) :
    (atom self fuel).Reaches
      (⟨.keyword .procedureWord, word⟩ :: ⟨.name text, span⟩ :: ⟨.leftParen, opening⟩ :: a)
      (.mkProcedure (some ⟨text, span⟩) names node) c :=
  .bind .current (.call (.bind keyword_reaches (.bind .lexeme (.bind name_reaches
    (.bind (.expect rfl) (.bind listed (.bind inside (.pure _))))))))

theorem anonymous_reaches {word opening : Span} {names : List Name}
    (listed : (parameters fuel : Rule (List Name)).Reaches a names b)
    (inside : (braces self).Reaches b node c) :
    (atom self fuel).Reaches (⟨.keyword .procedureWord, word⟩ :: ⟨.leftParen, opening⟩ :: a)
      (.mkProcedure none names node) c :=
  .bind .current (.call (.bind keyword_reaches (.bind .lexeme
    (.bind (.expect rfl) (.bind listed (.bind inside (.pure _)))))))

theorem statement_reaches_returnNothing {word : Span} {next : Token}
    (fails : (self .expression).Fails (next :: a) 0) :
    (statement self).Reaches (⟨.keyword .returnWord, word⟩ :: next :: a)
      (.returning none ⟨word.start, next.span.stop⟩) (next :: a) :=
  .bind .current (.bind .advance (.takenBack fails rfl (.bind .current (.pure _))))

theorem statement_reaches_returnValue {word : Span} {next : Token}
    (result : (self .expression).Reaches a node (next :: b)) :
    (statement self).Reaches (⟨.keyword .returnWord, word⟩ :: a)
      (.returning (some node) ⟨word.start, next.span.stop⟩) (next :: b) :=
  .bind .current (.bind .advance (.bind (.attempt result) (.bind .current (.pure _))))

theorem statement_reaches_continuing {word : Span} {next : Token} :
    (statement self).Reaches (⟨.keyword .continueWord, word⟩ :: next :: a)
      (.continuing ⟨word.start, next.span.stop⟩) (next :: a) :=
  .bind .current (.bind .advance (.bind .current (.pure _)))

theorem statement_reaches_breaking {word : Span} {next : Token} :
    (statement self).Reaches (⟨.keyword .breakWord, word⟩ :: next :: a)
      (.breaking ⟨word.start, next.span.stop⟩) (next :: a) :=
  .bind .current (.bind .advance (.bind .current (.pure _)))

theorem statement_reaches_expression {t : Token} (starts : startsExpression t.lexeme = true)
    (whole : (self .expression).Reaches (t :: a) node b) :
    (statement self).Reaches (t :: a) node b := by
  have noWord : ∀ word ∈ [Keyword.returnWord, .continueWord, .breakWord],
      t.isKeyword word = false := by
    intro word member
    refine Bool.eq_false_iff.mpr fun (found : t.lexeme.isKeyword word = true) => ?_
    rw [isKeyword_iff.mp found] at starts
    simp only [List.mem_cons, List.not_mem_nil, or_false] at member
    rcases member with rfl | rfl | rfl <;> cases starts
  refine .bind .current ?_
  simp only [noWord .returnWord (by simp), noWord .continueWord (by simp),
    noWord .breakWord (by simp), Bool.false_eq_true, if_false]
  exact .callOr _ whole

theorem moreStatements_reaches_last {next : Token} (ends : next.lexeme ≠ .newline) :
    (moreStatements self (fuel + 1)).Reaches (next :: a) [] (next :: a) := by
  refine .bind .lexeme ?_
  split
  · contradiction
  · exact .pure []

theorem moreStatements_reaches_trailing {line next : Token} (isLine : line.lexeme = .newline)
    (lines : pastNewlines a = next :: b) (fails : (statement self).Fails (next :: b) 0) :
    (moreStatements self (fuel + 1)).Reaches (line :: a) [] (next :: b) := by
  have skipped : pastNewlines (line :: a) = next :: b := by
    simpa [pastNewlines, isNewline_iff.mpr isLine] using lines
  have again : pastNewlines (next :: b) = next :: b := by
    rw [← lines, pastNewlines_pastNewlines]
  refine .bind .lexeme ?_
  rw [isLine]
  exact .bind (.skipNewlines skipped)
    (.takenBack fails rfl (.bind (.skipNewlines again) (.pure [])))

theorem moreStatements_reaches_next {line t : Token} {others : List Node}
    (isLine : line.lexeme = .newline) (lines : pastNewlines a = t :: b)
    (head : (statement self).Reaches (t :: b) node c)
    (tail : (moreStatements self fuel).Reaches c others d) :
    (moreStatements self (fuel + 1)).Reaches (line :: a) (node :: others) d := by
  have skipped : pastNewlines (line :: a) = t :: b := by
    simpa [pastNewlines, isNewline_iff.mpr isLine] using lines
  refine .bind .lexeme ?_
  rw [isLine]
  exact .bind (.skipNewlines skipped) (.bind (.attempt head) (.bind tail (.pure _)))

theorem block_reaches {first t next : Token} {others : List Node}
    (lines : pastNewlines (first :: a) = t :: b) (head : (statement self).Reaches (t :: b) node c)
    (tail : (moreStatements self fuel).Reaches c others (next :: d)) :
    (block self fuel).Reaches (first :: a)
      (.list (node :: others) ⟨first.span.start, next.span.stop⟩) (next :: d) :=
  .bind .current (.bind (.skipNewlines lines) (.bind (.call head) (.bind tail
    (.bind .current (.pure _)))))

end

/-! ## All rules together -/

/-- The rule for the operands of a level. -/
def Level.operandRule (self : Rules) (fuel : Nat) : Level → Rule Node
  | logical => Grammar.comparison self fuel
  | comparison => Grammar.sum self fuel
  | sum => Grammar.term self fuel
  | term => factor self fuel

/-- The rules of the grammar, at a level of the nesting, take a phrase off the front of the
tokens.  The loops have bounds of their own; any bound that is not below the number of tokens
will do. -/
def Accepts (fuel : Nat) : Symbol → List Token → Phrase → List Token → Prop
  | .expression, a, .node node, b => (expression (rule fuel) fuel).Reaches a node b
  | .comparison, a, .node node, b => (comparison (rule fuel) fuel).Reaches a node b
  | .chain level, a, .node node, b =>
      (chain level.operator? (level.operandRule (rule fuel) fuel)
        (level.operandRule (rule fuel) fuel) fuel).Reaches a node b
  | .operations level, a, .operations operations, b =>
      ∀ limit left, a.length ≤ limit →
        (chainFrom level.operator? (level.operandRule (rule fuel) fuel) limit left).Reaches a
          (applyAll left operations) b
  | .factor, a, .node node, b => (factor (rule fuel) fuel).Reaches a node b
  | .power, a, .node node, b => (power (rule fuel) fuel).Reaches a node b
  | .application, a, .node node, b => (application (rule fuel) fuel).Reaches a node b
  | .atom, a, .node node, b => (atom (rule fuel) fuel).Reaches a node b
  | .items, a, .nodes (first :: others), c =>
      ∃ b, (rule fuel .expression).Reaches a first b ∧
        (moreItems (rule fuel) fuel).Reaches b others c
  | .moreItems, a, .nodes nodes, b =>
      ∀ limit, a.length ≤ limit → (moreItems (rule fuel) limit).Reaches a nodes b
  | .condition, a, .node node, b => (condition (rule fuel)).Reaches a node b
  | .braces, a, .node node, b => (braces (rule fuel)).Reaches a node b
  | .cases word, a, .cases parts, b =>
      ∀ limit, a.length ≤ limit → (cases (rule fuel) limit word).Reaches a parts b
  | .statement, a, .node node, b => (statement (rule fuel)).Reaches a node b
  | .block, a, .node node, b => (block (rule fuel) fuel).Reaches a node b
  | .moreStatements, a, .nodes nodes, b =>
      ∀ limit, a.length ≤ limit → (moreStatements (rule fuel) limit).Reaches a nodes b
  | _, _, _, _ => False

theorem accepts_operand {fuel : Nat} {level : Level} {a b : List Token} {node : Node} :
    Accepts fuel level.operand a (.node node) b ↔
      (level.operandRule (rule fuel) fuel).Reaches a node b := by
  cases level <;> exact Iff.rfl

/-- One more level of nesting for symbols that call for an expression without taking a token. -/
def Symbol.slack : Symbol → Nat
  | .items => 1
  | .statement => 1
  | .block => 1
  | _ => 0

@[simp]
theorem slack_operand (level : Level) : level.operand.slack = 0 := by
  cases level <;> rfl

/-- An expression never starts with a closing bracket. -/
theorem Reads.ne_closing {a b : List Token} {nodes : List Node}
    (reading : Reads .items a (.nodes nodes) b) :
    ∃ t rest, a = t :: rest ∧ t.lexeme ≠ .rightParen ∧ t.lexeme ≠ .rightBracket := by
  obtain ⟨t, rest, rfl, starts⟩ := reading.starts
  refine ⟨t, rest, rfl, ?_, ?_⟩ <;> intro same <;> rw [same] at starts <;> cases starts

theorem not_notWord_of_startsFactor {t : Token} (starts : startsFactor t.lexeme = true) :
    t.isKeyword .notWord = false := by
  refine Bool.eq_false_iff.mpr fun (found : t.lexeme.isKeyword .notWord = true) => ?_
  rw [isKeyword_iff.mp found] at starts
  cases starts

theorem signOp?_of_startsAtom {l : Lexeme} (starts : startsAtom l = true) : signOp? l = none := by
  cases l with
  | plus => cases starts
  | minus => cases starts
  | _ => rfl

/-- The rules of the grammar read all that can be read. -/
theorem Reads.accepts {s : Symbol} {a b : List Token} {x : Phrase} (reading : Reads s a x b) :
    ∀ {fuel : Nat}, 2 * a.length + s.slack ≤ fuel → Accepts fuel s a x b := by
  induction reading with
  | assign text span sign right ih =>
      intro fuel enough
      simp only [List.length_cons, Symbol.slack] at enough
      obtain ⟨fuel, rfl⟩ : ∃ below, fuel = below + 1 := ⟨fuel - 1, by omega⟩
      have inner : Accepts fuel .expression _ _ _ := ih (by simp only [Symbol.slack]; omega)
      exact expression_reaches_assign inner
  | logical plain whole ih =>
      intro fuel enough
      obtain ⟨t, rest, rfl, -⟩ := whole.starts
      exact expression_reaches_logical plain (ih enough)
  | negation word operand ih =>
      intro fuel enough
      simp only [List.length_cons, Symbol.slack] at enough
      obtain ⟨fuel, rfl⟩ : ∃ below, fuel = below + 1 := ⟨fuel - 1, by omega⟩
      have inner : Accepts fuel .comparison _ _ _ := ih (by simp only [Symbol.slack]; omega)
      exact comparison_reaches_negation inner
  | comparing whole ih =>
      intro fuel enough
      obtain ⟨t, rest, rfl, starts⟩ := whole.starts
      exact comparison_reaches_chain (not_notWord_of_startsFactor starts) (ih enough)
  | chain first others first_ih others_ih =>
      intro fuel enough
      have shorter := first.length_le
      simp only [Symbol.slack] at enough
      have left := accepts_operand.mp (@first_ih fuel (by rw [slack_operand]; omega))
      have right := @others_ih fuel (by simp only [Symbol.slack]; omega)
      exact .bind (.call left) (right fuel _ (by omega))
  | noOperation next a ends =>
      intro fuel enough limit left long
      obtain ⟨limit, rfl⟩ : ∃ below, limit = below + 1 := ⟨limit - 1, by simp at long; omega⟩
      exact chainFrom_reaches_end ends left
  | operation sign isOperator operand others operand_ih others_ih =>
      intro fuel enough limit left long
      have shorter := operand.length_le
      simp only [List.length_cons, Symbol.slack] at enough long
      obtain ⟨limit, rfl⟩ : ∃ below, limit = below + 1 := ⟨limit - 1, by omega⟩
      have first :=
        accepts_operand.mp (@operand_ih fuel (by rw [slack_operand]; omega))
      have rest := @others_ih fuel (by simp only [Symbol.slack]; omega)
      exact chainFrom_reaches_operation isOperator first (rest limit _ (by omega))
  | sign sign isSign operand ih =>
      intro fuel enough
      simp only [List.length_cons, Symbol.slack] at enough
      obtain ⟨fuel, rfl⟩ : ∃ below, fuel = below + 1 := ⟨fuel - 1, by omega⟩
      have inner : Accepts fuel .factor _ _ _ := ih (by simp only [Symbol.slack]; omega)
      exact factor_reaches_sign isSign inner
  | unsigned whole ih =>
      intro fuel enough
      obtain ⟨t, rest, rfl, starts⟩ := whole.starts
      exact factor_reaches_power (signOp?_of_startsAtom starts) (ih enough)
  | base next whole ends ih =>
      intro fuel enough
      have shorter := whole.length_le
      simp only [List.length_cons, Symbol.slack] at enough shorter
      obtain ⟨fuel, rfl⟩ : ∃ below, fuel = below + 1 := ⟨fuel - 1, by omega⟩
      exact power_reaches_base (ih (by simp only [Symbol.slack]; omega)) ends
  | raised sign base isPower exponent base_ih exponent_ih =>
      intro fuel enough
      obtain ⟨next, rest, rfl, ends⟩ := exponent.ends_power (Or.inl rfl)
      have shorter := base.length_le
      simp only [List.length_cons, Symbol.slack] at enough shorter
      obtain ⟨fuel, rfl⟩ : ∃ below, fuel = below + 2 := ⟨fuel - 2, by omega⟩
      have inner : Accepts (fuel + 1) .factor _ _ _ :=
        exponent_ih (by simp only [Symbol.slack]; omega)
      exact power_reaches_raised (base_ih (by simp only [Symbol.slack]; omega)) isPower inner
        ends
  | bare next whole ends ih =>
      intro fuel enough
      exact application_reaches_atom ends (ih enough)
  | callEmpty opening closing called ih =>
      intro fuel enough
      exact application_reaches_callEmpty (ih enough)
  | call opening closing called given called_ih given_ih =>
      intro fuel enough
      obtain ⟨t, rest, rfl, nonempty, -⟩ := given.ne_closing
      have shorter := called.length_le
      simp only [List.length_cons, Symbol.slack] at enough shorter
      cases given with
      | items head tail =>
          obtain ⟨c, first, others⟩ :=
            @given_ih fuel (by simp only [List.length_cons, Symbol.slack]; omega)
          exact application_reaches_call nonempty
            (called_ih (by simp only [Symbol.slack]; omega)) first others
  | items head tail head_ih tail_ih =>
      intro fuel enough
      have shorter := head.length_le
      simp only [Symbol.slack] at enough
      obtain ⟨fuel, rfl⟩ : ∃ below, fuel = below + 1 := ⟨fuel - 1, by omega⟩
      have first : Accepts fuel .expression _ _ _ :=
        head_ih (by simp only [Symbol.slack]; omega)
      have others := @tail_ih (fuel + 1) (by simp only [Symbol.slack]; omega)
      exact ⟨_, first, others (fuel + 1) (by omega)⟩
  | lastItem next a ends =>
      intro fuel enough limit long
      obtain ⟨limit, rfl⟩ : ∃ below, limit = below + 1 := ⟨limit - 1, by simp at long; omega⟩
      exact moreItems_reaches_end ends
  | nextItem comma head tail head_ih tail_ih =>
      intro fuel enough limit long
      have shorter := head.length_le
      simp only [List.length_cons, Symbol.slack] at enough long
      obtain ⟨fuel, rfl⟩ : ∃ below, fuel = below + 1 := ⟨fuel - 1, by omega⟩
      obtain ⟨limit, rfl⟩ : ∃ below, limit = below + 1 := ⟨limit - 1, by omega⟩
      have first : Accepts fuel .expression _ _ _ :=
        head_ih (by simp only [Symbol.slack]; omega)
      have others := @tail_ih (fuel + 1) (by simp only [Symbol.slack]; omega)
      exact moreItems_reaches_next first (others limit (by omega))
  | int n span a => exact fun _ => .bind .current (.bind .advance (.pure _))
  | float x span a => exact fun _ => .bind .current (.bind .advance (.pure _))
  | string s span a => exact fun _ => .bind .current (.bind .advance (.pure _))
  | trueWord span a => exact fun _ => .bind .current (.bind (.takeTruth true) (.pure _))
  | falseWord span a => exact fun _ => .bind .current (.bind (.takeTruth false) (.pure _))
  | name text span a => exact fun _ => .bind .current (.bind .advance (.pure _))
  | parenthesised opening closing inside ih =>
      intro fuel enough
      simp only [List.length_cons, Symbol.slack] at enough
      obtain ⟨fuel, rfl⟩ : ∃ below, fuel = below + 1 := ⟨fuel - 1, by omega⟩
      have inner : Accepts fuel .expression _ _ _ := ih (by simp only [Symbol.slack]; omega)
      exact atom_reaches_parenthesised inner
  | emptyList opening closing next a => exact fun _ => atom_reaches_emptyList
  | list opening closing next inside ih =>
      intro fuel enough
      obtain ⟨t, rest, rfl, -, nonempty⟩ := inside.ne_closing
      simp only [List.length_cons, Symbol.slack] at enough
      cases inside with
      | items head tail =>
          obtain ⟨c, first, others⟩ :=
            @ih fuel (by simp only [List.length_cons, Symbol.slack]; omega)
          exact atom_reaches_list nonempty first others
  | branch whole ih =>
      intro fuel enough
      obtain ⟨⟨lexeme, span⟩, rest, rfl, starts⟩ := whole.starts
      obtain rfl : lexeme = .keyword .ifWord := isKeyword_iff.mp starts
      exact branch_reaches (ih enough fuel (by omega))
  | forEach forWord eachWord inWord span listSpan text list inside ih =>
      intro fuel enough
      simp only [List.length_cons, Symbol.slack] at enough
      exact forEach_reaches (ih (by simp only [Symbol.slack]; omega))
  | whileLoop word guard inside guard_ih inside_ih =>
      intro fuel enough
      have shorter := guard.length_le
      simp only [List.length_cons, Symbol.slack] at enough
      exact whileLoop_reaches (guard_ih (by simp only [Symbol.slack]; omega))
        (inside_ih (by simp only [Symbol.slack]; omega))
  | untilLoop word untilWord guard inside guard_ih inside_ih =>
      intro fuel enough
      have shorter := guard.length_le
      simp only [List.length_cons, Symbol.slack] at enough
      exact untilLoop_reaches (guard_ih (by simp only [Symbol.slack]; omega))
        (inside_ih (by simp only [Symbol.slack]; omega))
  | repeatFixed word span timesWord count inside ih =>
      intro fuel enough
      simp only [List.length_cons, Symbol.slack] at enough
      exact repeatFixed_reaches (ih (by simp only [Symbol.slack]; omega))
  | repeatBy word span timesWord text inside ih =>
      intro fuel enough
      simp only [List.length_cons, Symbol.slack] at enough
      exact repeatBy_reaches (ih (by simp only [Symbol.slack]; omega))
  | procedure word span opening text listed inside ih =>
      intro fuel enough
      have shorter := listed.length_le
      simp only [List.length_cons, Symbol.slack] at enough
      exact procedure_reaches (parameters_reaches listed (by omega))
        (ih (by simp only [Symbol.slack]; omega))
  | anonymous word opening listed inside ih =>
      intro fuel enough
      have shorter := listed.length_le
      simp only [List.length_cons, Symbol.slack] at enough
      exact anonymous_reaches (parameters_reaches listed (by omega))
        (ih (by simp only [Symbol.slack]; omega))
  | condition opening closing inside ih =>
      intro fuel enough
      simp only [List.length_cons, Symbol.slack] at enough
      obtain ⟨fuel, rfl⟩ : ∃ below, fuel = below + 1 := ⟨fuel - 1, by omega⟩
      have inner : Accepts fuel .expression _ _ _ := ih (by simp only [Symbol.slack]; omega)
      exact condition_reaches inner
  | braces opening closing lines inside ih =>
      intro fuel enough
      have shorter := length_le_of_pastNewlines lines
      simp only [List.length_cons, Symbol.slack] at enough shorter
      obtain ⟨fuel, rfl⟩ : ∃ below, fuel = below + 1 := ⟨fuel - 1, by omega⟩
      have inner : Accepts fuel .block _ _ _ := ih (by simp only [Symbol.slack]; omega)
      exact braces_reaches lines inner
  | lastCase span next guard inside lines noElif noElse guard_ih inside_ih =>
      intro fuel enough limit long
      have shorter := guard.length_le
      simp only [List.length_cons, Symbol.slack] at enough long
      obtain ⟨limit, rfl⟩ : ∃ below, limit = below + 1 := ⟨limit - 1, by omega⟩
      exact cases_reaches_last (guard_ih (by simp only [Symbol.slack]; omega))
        (inside_ih (by simp only [Symbol.slack]; omega)) lines noElif noElse
  | elifCase span guard inside lines others guard_ih inside_ih others_ih =>
      intro fuel enough limit long
      have shorter := guard.length_le
      have shorter' := inside.length_le
      have shorter'' := length_le_of_pastNewlines lines
      simp only [List.length_cons, Symbol.slack] at enough long
      obtain ⟨limit, rfl⟩ : ∃ below, limit = below + 1 := ⟨limit - 1, by omega⟩
      obtain ⟨t, rest, rfl, isElif⟩ := others.starts
      exact cases_reaches_elif (guard_ih (by simp only [Symbol.slack]; omega))
        (inside_ih (by simp only [Symbol.slack]; omega)) lines isElif
        (others_ih (by simp only [Symbol.slack]; omega) limit (by omega))
  | elseCase span elseWord guard inside lines otherwise guard_ih inside_ih
      otherwise_ih =>
      intro fuel enough limit long
      have shorter := guard.length_le
      have shorter' := inside.length_le
      have shorter'' := length_le_of_pastNewlines lines
      simp only [List.length_cons, Symbol.slack] at enough long shorter''
      obtain ⟨limit, rfl⟩ : ∃ below, limit = below + 1 := ⟨limit - 1, by omega⟩
      exact cases_reaches_else (guard_ih (by simp only [Symbol.slack]; omega))
        (inside_ih (by simp only [Symbol.slack]; omega)) lines
        (otherwise_ih (by simp only [Symbol.slack]; omega))
  | returnNothing word next a noValue noEnd =>
      intro fuel enough
      have fails := rule_expression_fails fuel (a := a) (by simp at enough; omega) noValue
      rw [endSteps_of_ne noEnd] at fails
      exact statement_reaches_returnNothing fails
  | returnValue word next result ih =>
      intro fuel enough
      simp only [List.length_cons, Symbol.slack] at enough
      obtain ⟨fuel, rfl⟩ : ∃ below, fuel = below + 1 := ⟨fuel - 1, by omega⟩
      have inner : Accepts fuel .expression _ _ _ := ih (by simp only [Symbol.slack]; omega)
      exact statement_reaches_returnValue inner
  | continuing word next a => exact fun _ => statement_reaches_continuing
  | breaking word next a => exact fun _ => statement_reaches_breaking
  | evaluated whole ih =>
      intro fuel enough
      obtain ⟨t, rest, rfl, starts⟩ := whole.starts
      simp only [Symbol.slack] at enough
      obtain ⟨fuel, rfl⟩ : ∃ below, fuel = below + 1 := ⟨fuel - 1, by omega⟩
      have inner : Accepts fuel .expression _ _ _ := ih (by simp only [Symbol.slack]; omega)
      exact statement_reaches_expression starts inner
  | block first next lines head tail head_ih tail_ih =>
      intro fuel enough
      have shorter := length_le_of_pastNewlines lines
      have shorter' := head.length_le
      simp only [Symbol.slack] at enough
      obtain ⟨t, rest, rfl, -⟩ := head.starts
      exact block_reaches lines (head_ih (by simp only [Symbol.slack]; omega))
        (tail_ih (by simp only [Symbol.slack]; omega) fuel (by omega))
  | lastStatement next a ends =>
      intro fuel enough limit long
      obtain ⟨limit, rfl⟩ : ∃ below, limit = below + 1 := ⟨limit - 1, by simp at long; omega⟩
      exact moreStatements_reaches_last ends
  | @trailing line next a b isLine lines ends noEnd =>
      intro fuel enough limit long
      obtain ⟨limit, rfl⟩ : ∃ below, limit = below + 1 := ⟨limit - 1, by simp at long; omega⟩
      have fails := statement_fails (rule_expression_fails fuel (a := b)
        (by simp at enough; omega) (not_startsExpression_of_not_startsStatement ends)) ends
      rw [endSteps_of_ne noEnd] at fails
      exact moreStatements_reaches_trailing isLine lines fails
  | nextStatement line isLine lines head tail head_ih tail_ih =>
      intro fuel enough limit long
      have shorter := length_le_of_pastNewlines lines
      have shorter' := head.length_le
      simp only [List.length_cons, Symbol.slack] at enough long
      obtain ⟨limit, rfl⟩ : ∃ below, limit = below + 1 := ⟨limit - 1, by omega⟩
      obtain ⟨t, rest, rfl, -⟩ := head.starts
      exact moreStatements_reaches_next isLine lines
        (head_ih (by simp only [Symbol.slack]; omega))
        (tail_ih (by simp only [Symbol.slack]; omega) limit (by omega))

/-! ## Programs -/

section

variable {self : Rules} {fuel : Nat} {a b c : List Token} {eof : Token}

theorem exists_line_before {line : Token} (isLine : line.lexeme = .newline)
    (lines : pastNewlines a = b) :
    ∃ front t, line :: a = front ++ t :: b ∧ isNewline t = true := by
  obtain ⟨ends, divided, nonempty, areLines⟩ := exists_newlines_cons isLine lines
  rcases List.eq_nil_or_concat ends with empty | ⟨front, t, rfl⟩
  · contradiction
  · exact ⟨front, t, by simpa using divided, isNewline_iff.mpr (areLines t (by simp))⟩

/-- Line ends before the end of the program are stepped over twice: the attempt to read a statement
at the end counts a step, and taking it back goes to the line end before. -/
theorem moreProgram_reaches_trailing (fuel : Nat) {line : Token} (isLine : line.lexeme = .newline)
    (lines : pastNewlines a = [eof]) (fails : (statement self).Fails [eof] 1) :
    (moreProgram self (fuel + 1)).Reaches (line :: a) [] [eof] := by
  intro w before
  have skipped : pastNewlines (line :: a) = [eof] := by
    simpa [pastNewlines, isNewline_iff.mpr isLine] using lines
  obtain ⟨front, t, divided, isLine'⟩ := exists_line_before isLine lines
  obtain ⟨middle, skip, stop, tokens, -⟩ := skipNewlines_run before skipped
  obtain ⟨d, tally, run, taken, reported⟩ := fails { middle with tally := {} } stop
  have counted : tally.taken = 1 := by simpa using taken
  have twice : pastNewlines [t, eof] = [eof] := by
    have same := pastNewlines_pastNewlines a
    rw [lines] at same
    simpa [pastNewlines, isLine'] using same
  obtain ⟨after, again, stop', tokens', -⟩ :=
    skipNewlines_run
      (Walk.before_back (divided ▸ before) stop tokens { middle.tally with rewind := 1 }) twice
  refine ⟨after, ?_, stop', congrArg Array.size (tokens'.trans tokens)⟩
  have seen : lexeme w = .ok .newline w := by rw [lexeme, w.current_of_before before, isLine]
  have observed : observe (statement self) middle = .ok (.error d, tally) middle := by
    simp only [observe, run]
  rw [moreProgram, act_rule, bind_of_ok seen]
  simp only
  rw [bind_of_ok skip, observe_rule, bind_of_ok observed]
  simp only
  refine (congrFun (if_pos (reported Nat.one_ne_zero)) middle).trans ?_
  rw [counted]
  exact bind_of_ok again

theorem moreProgram_reaches_next {line t : Token} {node : Node} {others : List Node}
    (isLine : line.lexeme = .newline) (lines : pastNewlines a = t :: b)
    (head : (statement self).Reaches (t :: b) node c)
    (tail : (moreProgram self fuel).Reaches c others [eof]) :
    (moreProgram self (fuel + 1)).Reaches (line :: a) (node :: others) [eof] := by
  have skipped : pastNewlines (line :: a) = t :: b := by
    simpa [pastNewlines, isNewline_iff.mpr isLine] using lines
  refine .bind .lexeme ?_
  rw [isLine]
  exact .bind (.skipNewlines skipped)
    (.observe head fun tally => .bind (.register tally) (.bind tail (.pure _)))

end

/-- The end of the program is no statement. -/
theorem statement_fails_at_end {fuel : Nat} {eof : Token} (isEnd : eof.lexeme = .eof)
    (enough : 0 < fuel) : (statement (rule fuel)).Fails [eof] 1 := by
  have noStart : startsStatement eof.lexeme = false := by rw [isEnd]; rfl
  have fails := statement_fails (a := []) (rule_expression_fails fuel enough
    (not_startsExpression_of_not_startsStatement noStart)) noStart
  rw [isEnd] at fails
  exact fails

theorem ReadsFurther.reaches {a : List Token} {nodes : List Node} {eof : Token}
    (reading : ReadsFurther a nodes eof) (fuel : Nat) (enough : 2 * a.length + 1 ≤ fuel) :
    ∀ limit, a.length ≤ limit → (moreProgram (rule fuel) limit).Reaches a nodes [eof] := by
  induction reading with
  | last eof isEnd =>
      intro limit long
      obtain ⟨limit, rfl⟩ : ∃ below, limit = below + 1 := ⟨limit - 1, by simp at long; omega⟩
      refine .bind .lexeme ?_
      rw [isEnd]
      exact .pure []
  | trailing line eof isLine lines isEnd =>
      intro limit long
      obtain ⟨limit, rfl⟩ : ∃ below, limit = below + 1 := ⟨limit - 1, by simp at long; omega⟩
      exact moreProgram_reaches_trailing _ isLine lines (statement_fails_at_end isEnd (by omega))
  | next line isLine lines head tail ih =>
      intro limit long
      have shorter := length_le_of_pastNewlines lines
      have shorter' := head.length_le
      simp only [List.length_cons] at enough long
      obtain ⟨limit, rfl⟩ : ∃ below, limit = below + 1 := ⟨limit - 1, by omega⟩
      obtain ⟨t, rest, rfl, -⟩ := head.starts
      exact moreProgram_reaches_next isLine lines
        (head.accepts (by simp only [Symbol.slack]; omega))
        (ih (by omega) limit (by omega))

theorem ReadsFurther.end_lexeme {a : List Token} {nodes : List Node} {eof : Token}
    (reading : ReadsFurther a nodes eof) : eof.lexeme = .eof := by
  induction reading with
  | last eof isEnd => exact isEnd
  | trailing line eof isLine lines isEnd => exact isEnd
  | next line isLine lines head tail ih => exact ih

theorem program_reaches {self : Rules} {fuel : Nat} {a : List Token} {node : Node} {eof : Token}
    (whole : (statements self fuel).Reaches a node [eof]) (isEnd : eof.lexeme = .eof) :
    (program self fuel).Reaches a node [eof] := by
  refine .bind whole (.bind .lexeme ?_)
  rw [isEnd]
  exact .pure node

theorem ReadsProgram.reaches {tokens : List Token} {node : Node}
    (reading : ReadsProgram tokens node) (fuel : Nat) (enough : 2 * tokens.length + 1 ≤ fuel) :
    ∃ eof, (program (rule fuel) fuel).Reaches tokens node [eof] := by
  cases reading with
  | empty first eof lines isEnd =>
      refine ⟨eof, program_reaches ?_ isEnd⟩
      refine .bind .current (.bind (.skipNewlines lines) (.bind .lexeme ?_))
      rw [isEnd]
      exact .bind .current (.pure _)
  | @statements first a b c node others eof lines head tail =>
      have shorter := length_le_of_pastNewlines lines
      have shorter' := head.length_le
      obtain ⟨t, rest, rfl, starts⟩ := head.starts
      have started : (statement (rule fuel)).Reaches (t :: rest) node c :=
        head.accepts (by simp only [Symbol.slack]; omega)
      have further := tail.reaches fuel (by omega) fuel (by omega)
      refine ⟨eof, program_reaches ?_ tail.end_lexeme⟩
      refine .bind .current (.bind (.skipNewlines lines) (.bind .lexeme ?_))
      split
      · next isEnd =>
          rw [isEnd] at starts
          cases starts
      · exact .bind (.observe started fun tally => .bind (.register tally) (.pure node))
          (.bind further (.bind .current (.pure _)))

/-- A program that can be read is parsed, with the same tree. -/
theorem ReadsProgram.parses {tokens : List Token} {node : Node}
    (reading : ReadsProgram tokens node) : parseProgram tokens = .ok node := by
  obtain ⟨eof, reached⟩ := reading.reaches (bound tokens.length) (by unfold bound; omega)
  obtain ⟨after, run, -⟩ := reached { tokens := tokens.toArray, index := 0 } ⟨Int.le_refl 0, rfl⟩
  simp only [parseProgram, List.size_toArray, run]

/-- A program of a single statement. -/
theorem parseProgram_of_statement {ts : List Token} {e : Token} {node : Node}
    (reading : Reads .statement (ts ++ [e]) (.node node) [e]) (isEnd : e.lexeme = .eof) :
    ∃ span, parseProgram (ts ++ [e]) = .ok (.list [node] span) := by
  obtain ⟨t, a, divided, starts⟩ := reading.starts
  have other : t.lexeme ≠ .newline := by
    intro line
    rw [line] at starts
    cases starts
  rw [divided] at reading ⊢
  have program := ReadsProgram.statements t (pastNewlines_cons other a) reading (.last e isEnd)
  exact ⟨_, program.parses⟩

end Grammar
end Pseudocode
