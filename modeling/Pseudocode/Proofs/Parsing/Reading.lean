import Pseudocode.Proofs.Parsing.Derivation

/-!
# Reading with one token of lookahead

`Reads symbol before phrase after` says that a reader that stands before the tokens `before` takes a
phrase off their front and then stands before `after`.  Where the grammar leaves a choice, the next
token decides: operands, items and line ends are taken as long as there are any, a name before an
assignment sign starts an assignment, and `RETURN` takes a value whenever one can start.  Unlike a
derivation, a reading fixes every place in the tree, also those that depend on what comes after.

`Reads.derives` forgets the lookahead: what is read is derived from the tokens that were taken.
-/

namespace Pseudocode
namespace Grammar

theorem isKeyword_iff {word : Keyword} {l : Lexeme} :
    l.isKeyword word = true ↔ l = .keyword word := by
  cases l <;> simp [Lexeme.isKeyword, eq_comm]

/-- Whether a lexeme starts an atom. -/
def startsAtom : Lexeme → Bool
  | .int _ => true
  | .float _ => true
  | .string _ => true
  | .name _ => true
  | .leftParen => true
  | .leftBracket => true
  | .keyword .trueWord => true
  | .keyword .falseWord => true
  | .keyword .ifWord => true
  | .keyword .forWord => true
  | .keyword .whileWord => true
  | .keyword .repeatWord => true
  | .keyword .procedureWord => true
  | _ => false

/-- Whether a lexeme starts a factor. -/
def startsFactor (l : Lexeme) : Bool :=
  startsAtom l || (signOp? l).isSome

/-- Whether a lexeme starts an expression. -/
def startsExpression (l : Lexeme) : Bool :=
  startsFactor l || l.isKeyword .notWord

/-- Whether a lexeme starts a statement. -/
def startsStatement (l : Lexeme) : Bool :=
  startsExpression l || l.isKeyword .returnWord || l.isKeyword .continueWord ||
    l.isKeyword .breakWord

/-- Whether the tokens start with a name and an assignment sign. -/
def assigns : List Token → Bool
  | t :: u :: _ => t.lexeme.isName && isAssign u.lexeme
  | _ => false

theorem exists_of_assigns {t : Token} {a : List Token} (found : assigns (t :: a) = true) :
    ∃ text span sign b, t = ⟨.name text, span⟩ ∧ a = ⟨.assign, sign⟩ :: b := by
  obtain ⟨lexeme, span⟩ := t
  cases a with
  | nil => cases found
  | cons u a =>
      obtain ⟨sign, place⟩ := u
      rw [assigns, Bool.and_eq_true] at found
      cases lexeme with
      | name text =>
          cases sign with
          | assign => exact ⟨text, span, place, a, rfl, rfl⟩
          | _ => cases found.2
      | _ => cases found.1

/-- Whether a token is a line end. -/
def isNewline (t : Token) : Bool :=
  t.lexeme matches .newline

theorem isNewline_iff {t : Token} : isNewline t = true ↔ t.lexeme = .newline := by
  unfold isNewline
  cases t.lexeme <;> simp

/-- The tokens without the line ends in front. -/
def pastNewlines (tokens : List Token) : List Token :=
  tokens.dropWhile isNewline

theorem pastNewlines_cons {t : Token} (other : t.lexeme ≠ .newline) (a : List Token) :
    pastNewlines (t :: a) = t :: a := by
  have noLine : isNewline t = false :=
    Bool.eq_false_iff.mpr fun line => other (isNewline_iff.mp line)
  simp [pastNewlines, noLine]

theorem pastNewlines_line {line : Token} (isLine : line.lexeme = .newline) (rest : List Token) :
    pastNewlines (line :: rest) = pastNewlines rest := by
  simp [pastNewlines, isNewline_iff.mpr isLine]

theorem pastNewlines_pastNewlines (a : List Token) :
    pastNewlines (pastNewlines a) = pastNewlines a := by
  induction a with
  | nil => rfl
  | cons t a ih =>
      by_cases line : isNewline t = true
      · simpa [pastNewlines, List.dropWhile_cons, line] using ih
      · simp [pastNewlines, line]

/-- Further parameters, up to and including the closing parenthesis. -/
inductive ReadsNames : List Token → List Name → List Token → Prop where
  | last (closing : Span) (after : List Token) :
      ReadsNames (⟨.rightParen, closing⟩ :: after) [] after
  | next (comma span : Span) (text : String) {tokens after : List Token} {names : List Name}
      (others : ReadsNames tokens names after) :
      ReadsNames (⟨.comma, comma⟩ :: ⟨.name text, span⟩ :: tokens) (⟨text, span⟩ :: names) after

/-- Parameters, up to and including the closing parenthesis. -/
inductive ReadsParameters : List Token → List Name → List Token → Prop where
  | none (closing : Span) (after : List Token) :
      ReadsParameters (⟨.rightParen, closing⟩ :: after) [] after
  | some (span : Span) (text : String) {tokens after : List Token} {names : List Name}
      (others : ReadsNames tokens names after) :
      ReadsParameters (⟨.name text, span⟩ :: tokens) (⟨text, span⟩ :: names) after

/-- Phrases that a reader takes off the front of the tokens. -/
inductive Reads : Symbol → List Token → Phrase → List Token → Prop where
  | assign (text : String) (span sign : Span) {a b : List Token} {value : Node}
      (right : Reads .expression a (.node value) b) :
      Reads .expression (⟨.name text, span⟩ :: ⟨.assign, sign⟩ :: a)
        (.node (.mkAssign ⟨text, span⟩ value)) b
  | logical {a b : List Token} {node : Node} (plain : assigns a = false)
      (whole : Reads (.chain .logical) a (.node node) b) :
      Reads .expression a (.node node) b
  | negation (word : Span) {a b : List Token} {node : Node}
      (operand : Reads .comparison a (.node node) b) :
      Reads .comparison (⟨.keyword .notWord, word⟩ :: a) (.node (.mkUnary .not word node)) b
  | comparing {a b : List Token} {node : Node}
      (whole : Reads (.chain .comparison) a (.node node) b) :
      Reads .comparison a (.node node) b
  | chain {level : Level} {a b c : List Token} {left : Node} {operations : List Operation}
      (first : Reads level.operand a (.node left) b)
      (others : Reads (.operations level) b (.operations operations) c) :
      Reads (.chain level) a (.node (applyAll left operations)) c
  | noOperation {level : Level} (next : Token) (a : List Token)
      (ends : level.operator? next.lexeme = none) :
      Reads (.operations level) (next :: a) (.operations []) (next :: a)
  | operation {level : Level} (sign : Token) {op : BinaryOp} {a b c : List Token} {right : Node}
      {operations : List Operation} (isOperator : level.operator? sign.lexeme = some op)
      (operand : Reads level.operand a (.node right) b)
      (others : Reads (.operations level) b (.operations operations) c) :
      Reads (.operations level) (sign :: a) (.operations (⟨op, sign.span, right⟩ :: operations)) c
  | sign (sign : Token) {op : UnaryOp} {a b : List Token} {node : Node}
      (isSign : signOp? sign.lexeme = some op) (operand : Reads .factor a (.node node) b) :
      Reads .factor (sign :: a) (.node (.mkUnary op sign.span node)) b
  | unsigned {a b : List Token} {node : Node} (whole : Reads .power a (.node node) b) :
      Reads .factor a (.node node) b
  | base (next : Token) {a b : List Token} {node : Node}
      (whole : Reads .application a (.node node) (next :: b)) (ends : powerOp? next.lexeme = none) :
      Reads .power a (.node node) (next :: b)
  | raised (sign : Token) {op : BinaryOp} {a b c : List Token} {left right : Node}
      (base : Reads .application a (.node left) (sign :: b))
      (isPower : powerOp? sign.lexeme = some op) (exponent : Reads .factor b (.node right) c) :
      Reads .power a (.node (.mkBinary left op sign.span right)) c
  | bare (next : Token) {a b : List Token} {node : Node}
      (whole : Reads .atom a (.node node) (next :: b)) (ends : next.lexeme ≠ .leftParen) :
      Reads .application a (.node node) (next :: b)
  | callEmpty (opening closing : Span) {a b : List Token} {callee : Node}
      (called :
        Reads .atom a (.node callee) (⟨.leftParen, opening⟩ :: ⟨.rightParen, closing⟩ :: b)) :
      Reads .application a (.node (.mkCall callee [])) b
  | call (opening closing : Span) {a b c : List Token} {callee : Node} {arguments : List Node}
      (called : Reads .atom a (.node callee) (⟨.leftParen, opening⟩ :: b))
      (given : Reads .items b (.nodes arguments) (⟨.rightParen, closing⟩ :: c)) :
      Reads .application a (.node (.mkCall callee arguments)) c
  | items {a b c : List Token} {first : Node} {others : List Node}
      (head : Reads .expression a (.node first) b) (tail : Reads .moreItems b (.nodes others) c) :
      Reads .items a (.nodes (first :: others)) c
  | lastItem (next : Token) (a : List Token) (ends : next.lexeme ≠ .comma) :
      Reads .moreItems (next :: a) (.nodes []) (next :: a)
  | nextItem (comma : Span) {a b c : List Token} {first : Node} {others : List Node}
      (head : Reads .expression a (.node first) b) (tail : Reads .moreItems b (.nodes others) c) :
      Reads .moreItems (⟨.comma, comma⟩ :: a) (.nodes (first :: others)) c
  | int (n : Nat) (span : Span) (a : List Token) :
      Reads .atom (⟨.int n, span⟩ :: a) (.node (.number (.whole n) span)) a
  | float (x : Float) (span : Span) (a : List Token) :
      Reads .atom (⟨.float x, span⟩ :: a) (.node (.number (.real x) span)) a
  | string (s : String) (span : Span) (a : List Token) :
      Reads .atom (⟨.string s, span⟩ :: a) (.node (.text s span)) a
  | trueWord (span : Span) (a : List Token) :
      Reads .atom (⟨.keyword .trueWord, span⟩ :: a) (.node (.truth true span)) a
  | falseWord (span : Span) (a : List Token) :
      Reads .atom (⟨.keyword .falseWord, span⟩ :: a) (.node (.truth false span)) a
  | name (text : String) (span : Span) (a : List Token) :
      Reads .atom (⟨.name text, span⟩ :: a) (.node (.access ⟨text, span⟩)) a
  | parenthesised (opening closing : Span) {a b : List Token} {node : Node}
      (inside : Reads .expression a (.node node) (⟨.rightParen, closing⟩ :: b)) :
      Reads .atom (⟨.leftParen, opening⟩ :: a) (.node node) b
  | emptyList (opening closing : Span) (next : Token) (a : List Token) :
      Reads .atom (⟨.leftBracket, opening⟩ :: ⟨.rightBracket, closing⟩ :: next :: a)
        (.node (.list [] ⟨opening.start, next.span.stop⟩)) (next :: a)
  | list (opening closing : Span) (next : Token) {a b : List Token} {elements : List Node}
      (inside : Reads .items a (.nodes elements) (⟨.rightBracket, closing⟩ :: next :: b)) :
      Reads .atom (⟨.leftBracket, opening⟩ :: a)
        (.node (.list elements ⟨opening.start, next.span.stop⟩)) (next :: b)
  | branch {a b : List Token} {parts : Cases} (whole : Reads (.cases .ifWord) a (.cases parts) b) :
      Reads .atom a (.node parts.branch) b
  | forEach (forWord eachWord inWord span listSpan : Span) (text list : String) {a b : List Token}
      {body : Node} (inside : Reads .braces a (.node body) b) :
      Reads .atom
        (⟨.keyword .forWord, forWord⟩ :: ⟨.keyword .eachWord, eachWord⟩ :: ⟨.name text, span⟩ ::
          ⟨.keyword .inWord, inWord⟩ :: ⟨.name list, listSpan⟩ :: a)
        (.node (.mkForEach ⟨text, span⟩ (.access ⟨list, listSpan⟩) body)) b
  | whileLoop (word : Span) {a b c : List Token} {test body : Node}
      (guard : Reads .condition a (.node test) b) (inside : Reads .braces b (.node body) c) :
      Reads .atom (⟨.keyword .whileWord, word⟩ :: a) (.node (.mkWhile test body)) c
  | untilLoop (word untilWord : Span) {a b c : List Token} {test body : Node}
      (guard : Reads .condition a (.node test) b) (inside : Reads .braces b (.node body) c) :
      Reads .atom (⟨.keyword .repeatWord, word⟩ :: ⟨.keyword .untilWord, untilWord⟩ :: a)
        (.node (.mkUntil test body)) c
  | repeatFixed (word span timesWord : Span) (count : Nat) {a b : List Token} {body : Node}
      (inside : Reads .braces a (.node body) b) :
      Reads .atom
        (⟨.keyword .repeatWord, word⟩ :: ⟨.int count, span⟩ ::
          ⟨.keyword .timesWord, timesWord⟩ :: a)
        (.node (.mkRepeatFixed count span body)) b
  | repeatBy (word span timesWord : Span) (text : String) {a b : List Token} {body : Node}
      (inside : Reads .braces a (.node body) b) :
      Reads .atom
        (⟨.keyword .repeatWord, word⟩ :: ⟨.name text, span⟩ ::
          ⟨.keyword .timesWord, timesWord⟩ :: a)
        (.node (.mkRepeatBy (.access ⟨text, span⟩) body)) b
  | procedure (word span opening : Span) (text : String) {a b c : List Token} {names : List Name}
      {body : Node} (listed : ReadsParameters a names b) (inside : Reads .braces b (.node body) c) :
      Reads .atom
        (⟨.keyword .procedureWord, word⟩ :: ⟨.name text, span⟩ :: ⟨.leftParen, opening⟩ :: a)
        (.node (.mkProcedure (some ⟨text, span⟩) names body)) c
  | anonymous (word opening : Span) {a b c : List Token} {names : List Name} {body : Node}
      (listed : ReadsParameters a names b) (inside : Reads .braces b (.node body) c) :
      Reads .atom (⟨.keyword .procedureWord, word⟩ :: ⟨.leftParen, opening⟩ :: a)
        (.node (.mkProcedure none names body)) c
  | condition (opening closing : Span) {a b : List Token} {node : Node}
      (inside : Reads .expression a (.node node) (⟨.rightParen, closing⟩ :: b)) :
      Reads .condition (⟨.leftParen, opening⟩ :: a) (.node node) b
  | braces (opening closing : Span) {a b c : List Token} {node : Node}
      (lines : pastNewlines a = ⟨.leftBrace, opening⟩ :: b)
      (inside : Reads .block b (.node node) (⟨.rightBrace, closing⟩ :: c)) :
      Reads .braces a (.node node) c
  | lastCase {word : Keyword} (span : Span) (next : Token) {a b c d : List Token} {test body : Node}
      (guard : Reads .condition a (.node test) b) (inside : Reads .braces b (.node body) c)
      (lines : pastNewlines c = next :: d) (noElif : next.lexeme.isKeyword .elifWord = false)
      (noElse : next.lexeme.isKeyword .elseWord = false) :
      Reads (.cases word) (⟨.keyword word, span⟩ :: a) (.cases ⟨test, body, [], none⟩) (next :: d)
  | elifCase {word : Keyword} (span : Span) {a b c d e : List Token} {test body : Node}
      {parts : Cases} (guard : Reads .condition a (.node test) b)
      (inside : Reads .braces b (.node body) c) (lines : pastNewlines c = d)
      (others : Reads (.cases .elifWord) d (.cases parts) e) :
      Reads (.cases word) (⟨.keyword word, span⟩ :: a) (.cases (parts.guard test body)) e
  | elseCase {word : Keyword} (span elseWord : Span) {a b c d e : List Token}
      {test body other : Node} (guard : Reads .condition a (.node test) b)
      (inside : Reads .braces b (.node body) c)
      (lines : pastNewlines c = ⟨.keyword .elseWord, elseWord⟩ :: d)
      (otherwise : Reads .braces d (.node other) e) :
      Reads (.cases word) (⟨.keyword word, span⟩ :: a) (.cases ⟨test, body, [], some other⟩) e
  | returnNothing (word : Span) (next : Token) (a : List Token)
      (noValue : startsExpression next.lexeme = false) (noEnd : next.lexeme ≠ .eof) :
      Reads .statement (⟨.keyword .returnWord, word⟩ :: next :: a)
        (.node (.returning none ⟨word.start, next.span.stop⟩)) (next :: a)
  | returnValue (word : Span) (next : Token) {a b : List Token} {value : Node}
      (result : Reads .expression a (.node value) (next :: b)) :
      Reads .statement (⟨.keyword .returnWord, word⟩ :: a)
        (.node (.returning (some value) ⟨word.start, next.span.stop⟩)) (next :: b)
  | continuing (word : Span) (next : Token) (a : List Token) :
      Reads .statement (⟨.keyword .continueWord, word⟩ :: next :: a)
        (.node (.continuing ⟨word.start, next.span.stop⟩)) (next :: a)
  | breaking (word : Span) (next : Token) (a : List Token) :
      Reads .statement (⟨.keyword .breakWord, word⟩ :: next :: a)
        (.node (.breaking ⟨word.start, next.span.stop⟩)) (next :: a)
  | evaluated {a b : List Token} {node : Node} (whole : Reads .expression a (.node node) b) :
      Reads .statement a (.node node) b
  | block (first next : Token) {a b c d : List Token} {node : Node} {others : List Node}
      (lines : pastNewlines (first :: a) = b) (head : Reads .statement b (.node node) c)
      (tail : Reads .moreStatements c (.nodes others) (next :: d)) :
      Reads .block (first :: a)
        (.node (.list (node :: others) ⟨first.span.start, next.span.stop⟩)) (next :: d)
  | lastStatement (next : Token) (a : List Token) (ends : next.lexeme ≠ .newline) :
      Reads .moreStatements (next :: a) (.nodes []) (next :: a)
  | trailing (line next : Token) {a b : List Token} (isLine : line.lexeme = .newline)
      (lines : pastNewlines a = next :: b) (ends : startsStatement next.lexeme = false)
      (noEnd : next.lexeme ≠ .eof) :
      Reads .moreStatements (line :: a) (.nodes []) (next :: b)
  | nextStatement (line : Token) {a b c d : List Token} {node : Node} {others : List Node}
      (isLine : line.lexeme = .newline) (lines : pastNewlines a = b)
      (head : Reads .statement b (.node node) c)
      (tail : Reads .moreStatements c (.nodes others) d) :
      Reads .moreStatements (line :: a) (.nodes (node :: others)) d

/-- The further statements of a program and its end. -/
inductive ReadsFurther : List Token → List Node → Token → Prop where
  | last (eof : Token) (isEnd : eof.lexeme = .eof) : ReadsFurther [eof] [] eof
  | trailing (line eof : Token) {a : List Token} (isLine : line.lexeme = .newline)
      (lines : pastNewlines a = [eof]) (isEnd : eof.lexeme = .eof) :
      ReadsFurther (line :: a) [] eof
  | next (line : Token) {a b c : List Token} {node : Node} {others : List Node} {eof : Token}
      (isLine : line.lexeme = .newline) (lines : pastNewlines a = b)
      (head : Reads .statement b (.node node) c) (tail : ReadsFurther c others eof) :
      ReadsFurther (line :: a) (node :: others) eof

/-- A whole program, up to and including its end. -/
inductive ReadsProgram : List Token → Node → Prop where
  | empty (first eof : Token) {a : List Token} (lines : pastNewlines (first :: a) = [eof])
      (isEnd : eof.lexeme = .eof) :
      ReadsProgram (first :: a) (.list [] ⟨first.span.start, eof.span.stop⟩)
  | statements (first : Token) {a b c : List Token} {node : Node} {others : List Node} {eof : Token}
      (lines : pastNewlines (first :: a) = b) (head : Reads .statement b (.node node) c)
      (tail : ReadsFurther c others eof) :
      ReadsProgram (first :: a) (.list (node :: others) ⟨first.span.start, eof.span.stop⟩)

/-! ## From readings to derivations -/

theorem newlines_nil : Newlines [] := by
  intro t member
  cases member

theorem exists_newlines (a : List Token) :
    ∃ lines, a = lines ++ pastNewlines a ∧ Newlines lines := by
  refine ⟨a.takeWhile isNewline, List.takeWhile_append_dropWhile.symm, ?_⟩
  intro t member
  exact isNewline_iff.mp (List.all_eq_true.mp List.all_takeWhile t member)

theorem exists_newlines_cons {line : Token} {a b : List Token} (isLine : line.lexeme = .newline)
    (lines : pastNewlines a = b) : ∃ ends, line :: a = ends ++ b ∧ ends ≠ [] ∧ Newlines ends := by
  obtain ⟨more, divided, areLines⟩ := exists_newlines a
  refine ⟨line :: more, ?_, List.cons_ne_nil line more, ?_⟩
  · rw [divided, lines]
    simp
  · intro t member
    rcases List.mem_cons.mp member with rfl | later
    · exact isLine
    · exact areLines t later

theorem ReadsNames.names {a b : List Token} {names : List Name} (reading : ReadsNames a names b)
    (text : String) (span : Span) :
    ∃ ts closing, ⟨.name text, span⟩ :: a = ts ++ ⟨.rightParen, closing⟩ :: b ∧
      Names ts (⟨text, span⟩ :: names) := by
  induction reading generalizing text span with
  | last closing after => exact ⟨_, closing, rfl, .one text span⟩
  | next comma inner word others ih =>
      obtain ⟨ts, closing, divided, listed⟩ := ih word inner
      exact ⟨_ :: _ :: ts, closing, by simp [divided], .more text span comma listed⟩

theorem ReadsParameters.parameters {a b : List Token} {names : List Name}
    (reading : ReadsParameters a names b) :
    ∃ ts closing, a = ts ++ ⟨.rightParen, closing⟩ :: b ∧ Parameters ts names := by
  cases reading with
  | none closing after => exact ⟨[], closing, rfl, .none⟩
  | some span text others =>
      obtain ⟨ts, closing, divided, listed⟩ := others.names text span
      exact ⟨ts, closing, divided, .some listed⟩

/-- What is read is derived from the tokens that were taken. -/
theorem Reads.derives {s : Symbol} {a b : List Token} {x : Phrase} (reading : Reads s a x b) :
    ∃ ts, a = ts ++ b ∧ Derives s ts x := by
  induction reading with
  | assign text span sign right ih =>
      obtain ⟨ts, rfl, derived⟩ := ih
      exact ⟨_ :: _ :: ts, rfl, .assign text span sign derived⟩
  | logical plain whole ih =>
      obtain ⟨ts, divided, derived⟩ := ih
      exact ⟨ts, divided, .logical derived⟩
  | negation word operand ih =>
      obtain ⟨ts, rfl, derived⟩ := ih
      exact ⟨_ :: ts, rfl, .negation word derived⟩
  | comparing whole ih =>
      obtain ⟨ts, divided, derived⟩ := ih
      exact ⟨ts, divided, .comparing derived⟩
  | chain first others first_ih others_ih =>
      obtain ⟨ts, rfl, left⟩ := first_ih
      obtain ⟨us, rfl, operations⟩ := others_ih
      exact ⟨ts ++ us, by simp, .chain left operations⟩
  | noOperation next a ends => exact ⟨[], rfl, .noOperation⟩
  | operation sign isOperator operand others operand_ih others_ih =>
      obtain ⟨ts, rfl, right⟩ := operand_ih
      obtain ⟨us, rfl, operations⟩ := others_ih
      exact ⟨sign :: ts ++ us, by simp, .operation sign isOperator right operations⟩
  | sign sign isSign operand ih =>
      obtain ⟨ts, rfl, derived⟩ := ih
      exact ⟨sign :: ts, rfl, .sign sign isSign derived⟩
  | unsigned whole ih =>
      obtain ⟨ts, divided, derived⟩ := ih
      exact ⟨ts, divided, .unsigned derived⟩
  | base next whole ends ih =>
      obtain ⟨ts, divided, derived⟩ := ih
      exact ⟨ts, divided, .base derived⟩
  | raised sign base isPower exponent base_ih exponent_ih =>
      obtain ⟨ts, rfl, left⟩ := base_ih
      obtain ⟨us, rfl, right⟩ := exponent_ih
      exact ⟨ts ++ sign :: us, by simp, .raised sign left isPower right⟩
  | bare next whole ends ih =>
      obtain ⟨ts, divided, derived⟩ := ih
      exact ⟨ts, divided, .bare derived⟩
  | callEmpty opening closing called ih =>
      obtain ⟨ts, rfl, callee⟩ := ih
      exact ⟨ts ++ [_, _], by simp, .callEmpty opening closing callee⟩
  | call opening closing called given called_ih given_ih =>
      obtain ⟨ts, rfl, callee⟩ := called_ih
      obtain ⟨us, rfl, arguments⟩ := given_ih
      exact ⟨ts ++ _ :: us ++ [_], by simp, .call opening closing callee arguments⟩
  | items head tail head_ih tail_ih =>
      obtain ⟨ts, rfl, first⟩ := head_ih
      obtain ⟨us, rfl, others⟩ := tail_ih
      exact ⟨ts ++ us, by simp, .items first others⟩
  | lastItem next a ends => exact ⟨[], rfl, .lastItem⟩
  | nextItem comma head tail head_ih tail_ih =>
      obtain ⟨ts, rfl, first⟩ := head_ih
      obtain ⟨us, rfl, others⟩ := tail_ih
      exact ⟨_ :: ts ++ us, by simp, .nextItem comma first others⟩
  | int n span a => exact ⟨[_], rfl, .int n span⟩
  | float x span a => exact ⟨[_], rfl, .float x span⟩
  | string s span a => exact ⟨[_], rfl, .string s span⟩
  | trueWord span a => exact ⟨[_], rfl, .trueWord span⟩
  | falseWord span a => exact ⟨[_], rfl, .falseWord span⟩
  | name text span a => exact ⟨[_], rfl, .name text span⟩
  | parenthesised opening closing inside ih =>
      obtain ⟨ts, rfl, derived⟩ := ih
      exact ⟨_ :: ts ++ [_], by simp, .parenthesised opening closing derived⟩
  | emptyList opening closing next a => exact ⟨[_, _], rfl, .emptyList opening closing _⟩
  | list opening closing next inside ih =>
      obtain ⟨ts, rfl, elements⟩ := ih
      exact ⟨_ :: ts ++ [_], by simp, .list opening closing _ elements⟩
  | branch whole ih =>
      obtain ⟨ts, divided, derived⟩ := ih
      exact ⟨ts, divided, .branch derived⟩
  | forEach forWord eachWord inWord span listSpan text list inside ih =>
      obtain ⟨ts, rfl, body⟩ := ih
      exact ⟨_ :: _ :: _ :: _ :: _ :: ts, rfl,
        .forEach forWord eachWord inWord span listSpan text list body⟩
  | whileLoop word guard inside guard_ih inside_ih =>
      obtain ⟨ts, rfl, test⟩ := guard_ih
      obtain ⟨us, rfl, body⟩ := inside_ih
      exact ⟨_ :: ts ++ us, by simp, .whileLoop word test body⟩
  | untilLoop word untilWord guard inside guard_ih inside_ih =>
      obtain ⟨ts, rfl, test⟩ := guard_ih
      obtain ⟨us, rfl, body⟩ := inside_ih
      exact ⟨_ :: _ :: ts ++ us, by simp, .untilLoop word untilWord test body⟩
  | repeatFixed word span timesWord count inside ih =>
      obtain ⟨ts, rfl, body⟩ := ih
      exact ⟨_ :: _ :: _ :: ts, rfl, .repeatFixed word span timesWord count body⟩
  | repeatBy word span timesWord text inside ih =>
      obtain ⟨ts, rfl, body⟩ := ih
      exact ⟨_ :: _ :: _ :: ts, rfl, .repeatBy word span timesWord text body⟩
  | procedure word span opening text listed inside ih =>
      obtain ⟨ts, closing, rfl, parameters⟩ := listed.parameters
      obtain ⟨us, rfl, body⟩ := ih
      exact ⟨_ :: _ :: _ :: ts ++ _ :: us, by simp,
        .procedure word span opening closing text parameters body⟩
  | anonymous word opening listed inside ih =>
      obtain ⟨ts, closing, rfl, parameters⟩ := listed.parameters
      obtain ⟨us, rfl, body⟩ := ih
      exact ⟨_ :: _ :: ts ++ _ :: us, by simp, .anonymous word opening closing parameters body⟩
  | condition opening closing inside ih =>
      obtain ⟨ts, rfl, derived⟩ := ih
      exact ⟨_ :: ts ++ [_], by simp, .condition opening closing derived⟩
  | @braces opening closing a b c node lines inside ih =>
      obtain ⟨ends, divided, areLines⟩ := exists_newlines a
      obtain ⟨ts, rfl, body⟩ := ih
      refine ⟨ends ++ _ :: ts ++ [_], ?_, .braces opening closing areLines body⟩
      rw [divided, lines]
      simp
  | @lastCase word span next a b c d test body guard inside lines noElif noElse guard_ih
      inside_ih =>
      obtain ⟨ends, divided, areLines⟩ := exists_newlines c
      obtain ⟨ts, rfl, guarded⟩ := guard_ih
      obtain ⟨us, rfl, derived⟩ := inside_ih
      refine ⟨_ :: ts ++ us ++ ends, ?_, .lastCase span guarded derived areLines⟩
      rw [divided, lines]
      simp
  | @elifCase word span a b c d e test body parts guard inside lines others guard_ih
      inside_ih others_ih =>
      obtain ⟨ends, divided, areLines⟩ := exists_newlines c
      obtain ⟨ts, rfl, guarded⟩ := guard_ih
      obtain ⟨us, rfl, derived⟩ := inside_ih
      obtain ⟨vs, rfl, more⟩ := others_ih
      refine ⟨_ :: ts ++ us ++ ends ++ vs, ?_, .elifCase span guarded derived areLines more⟩
      rw [divided, lines]
      simp
  | @elseCase word span elseWord a b c d e test body other guard inside lines otherwise
      guard_ih inside_ih otherwise_ih =>
      obtain ⟨ends, divided, areLines⟩ := exists_newlines c
      obtain ⟨ts, rfl, guarded⟩ := guard_ih
      obtain ⟨us, rfl, derived⟩ := inside_ih
      obtain ⟨vs, rfl, more⟩ := otherwise_ih
      refine ⟨_ :: ts ++ us ++ ends ++ _ :: vs, ?_,
        .elseCase span elseWord guarded derived areLines more⟩
      rw [divided, lines]
      simp
  | returnNothing word next a noValue noEnd => exact ⟨[_], rfl, .returnNothing word _⟩
  | returnValue word next result ih =>
      obtain ⟨ts, rfl, value⟩ := ih
      exact ⟨_ :: ts, rfl, .returnValue word _ value⟩
  | continuing word next a => exact ⟨[_], rfl, .continuing word _⟩
  | breaking word next a => exact ⟨[_], rfl, .breaking word _⟩
  | evaluated whole ih =>
      obtain ⟨ts, divided, derived⟩ := ih
      exact ⟨ts, divided, .evaluated derived⟩
  | @block first next a b c d node others lines head tail head_ih tail_ih =>
      obtain ⟨ends, divided, areLines⟩ := exists_newlines (first :: a)
      obtain ⟨ts, rfl, statement⟩ := head_ih
      obtain ⟨us, rfl, more⟩ := tail_ih
      refine ⟨ends ++ ts ++ us, ?_, .block _ areLines statement more⟩
      rw [divided, lines]
      simp
  | lastStatement next a ends => exact ⟨[], rfl, .lastStatement newlines_nil⟩
  | trailing line next isLine lines ends noEnd =>
      obtain ⟨more, divided, -, areLines⟩ := exists_newlines_cons isLine lines
      exact ⟨more, divided, .lastStatement areLines⟩
  | nextStatement line isLine lines head tail head_ih tail_ih =>
      obtain ⟨more, divided, nonempty, areLines⟩ := exists_newlines_cons isLine lines
      obtain ⟨ts, rfl, statement⟩ := head_ih
      obtain ⟨us, rfl, rest⟩ := tail_ih
      exact ⟨more ++ ts ++ us, by rw [divided]; simp,
        .nextStatement nonempty areLines statement rest⟩

theorem ReadsFurther.derives {a : List Token} {nodes : List Node} {eof : Token}
    (reading : ReadsFurther a nodes eof) :
    ∃ ts, a = ts ++ [eof] ∧ Derives .moreStatements ts (.nodes nodes) := by
  induction reading with
  | last eof isEnd => exact ⟨[], rfl, .lastStatement newlines_nil⟩
  | trailing line eof isLine lines isEnd =>
      obtain ⟨more, divided, -, areLines⟩ := exists_newlines_cons isLine lines
      exact ⟨more, divided, .lastStatement areLines⟩
  | next line isLine lines head tail ih =>
      obtain ⟨more, divided, nonempty, areLines⟩ := exists_newlines_cons isLine lines
      obtain ⟨ts, rfl, statement⟩ := head.derives
      obtain ⟨us, rfl, rest⟩ := ih
      exact ⟨more ++ ts ++ us, by rw [divided]; simp,
        .nextStatement nonempty areLines statement rest⟩

/-- A program that is read is derived from all tokens but the last. -/
theorem ReadsProgram.derives {tokens : List Token} {node : Node}
    (reading : ReadsProgram tokens node) :
    ∃ ts eof, tokens = ts ++ [eof] ∧ DerivesProgram ts node := by
  cases reading with
  | @empty first eof a lines isEnd =>
      obtain ⟨ends, divided, areLines⟩ := exists_newlines (first :: a)
      exact ⟨ends, eof, by rw [divided, lines], .empty _ areLines⟩
  | @statements first a b c node others eof lines head tail =>
      obtain ⟨ends, divided, areLines⟩ := exists_newlines (first :: a)
      obtain ⟨ts, rfl, statement⟩ := head.derives
      obtain ⟨us, rfl, rest⟩ := tail.derives
      exact ⟨ends ++ ts ++ us, eof, by rw [divided, lines]; simp,
        .block (.block _ areLines statement rest)⟩

/-- A reading takes tokens off the front. -/
theorem Reads.length_le {s : Symbol} {a b : List Token} {x : Phrase} (reading : Reads s a x b) :
    b.length ≤ a.length := by
  obtain ⟨ts, rfl, -⟩ := reading.derives
  simp

theorem length_le_of_pastNewlines {a b : List Token} (lines : pastNewlines a = b) :
    b.length ≤ a.length := by
  rw [← lines]
  exact (List.dropWhile_sublist isNewline).length_le

theorem ReadsNames.length_le {a b : List Token} {names : List Name}
    (reading : ReadsNames a names b) : b.length ≤ a.length := by
  induction reading with
  | last closing after => simp
  | next comma span text others ih =>
      exact Nat.le_add_right_of_le (Nat.le_succ_of_le ih)

theorem ReadsParameters.length_le {a b : List Token} {names : List Name}
    (reading : ReadsParameters a names b) : b.length ≤ a.length := by
  cases reading with
  | none closing after => simp
  | some span text others => exact Nat.le_succ_of_le others.length_le

/-! ## First tokens -/

/-- Whether a phrase can start with a lexeme; for symbols whose phrases may be empty or start with
line ends, nothing is said. -/
def Symbol.starts : Symbol → Lexeme → Bool
  | .expression => startsExpression
  | .comparison => startsExpression
  | .chain .logical => startsExpression
  | .items => startsExpression
  | .chain _ => startsFactor
  | .factor => startsFactor
  | .power => startsAtom
  | .application => startsAtom
  | .atom => startsAtom
  | .condition => (· matches .leftParen)
  | .cases word => Lexeme.isKeyword word
  | .statement => startsStatement
  | _ => fun _ => true

theorem startsFactor_of_startsAtom {l : Lexeme} (starts : startsAtom l = true) :
    startsFactor l = true := by
  simp [startsFactor, starts]

theorem startsExpression_of_startsFactor {l : Lexeme} (starts : startsFactor l = true) :
    startsExpression l = true := by
  simp [startsExpression, starts]

theorem startsStatement_of_startsExpression {l : Lexeme} (starts : startsExpression l = true) :
    startsStatement l = true := by
  simp [startsStatement, starts]

theorem not_startsExpression_of_not_startsStatement {l : Lexeme}
    (noStart : startsStatement l = false) : startsExpression l = false :=
  Bool.eq_false_iff.mpr fun starts => by
    simp [startsStatement_of_startsExpression starts] at noStart

/-- A reading starts with a token that can start its symbol. -/
theorem Reads.starts {s : Symbol} {a b : List Token} {x : Phrase} (reading : Reads s a x b) :
    ∃ t rest, a = t :: rest ∧ s.starts t.lexeme = true := by
  induction reading with
  | logical plain whole ih => exact ih
  | comparing whole ih =>
      obtain ⟨t, rest, divided, starts⟩ := ih
      exact ⟨t, rest, divided, startsExpression_of_startsFactor starts⟩
  | @chain level a b c left operations first others first_ih others_ih =>
      obtain ⟨t, rest, divided, starts⟩ := first_ih
      refine ⟨t, rest, divided, ?_⟩
      cases level <;> exact starts
  | sign sign isSign operand ih =>
      exact ⟨sign, _, rfl, by simp [Symbol.starts, startsFactor, isSign]⟩
  | unsigned whole ih =>
      obtain ⟨t, rest, divided, starts⟩ := ih
      exact ⟨t, rest, divided, startsFactor_of_startsAtom starts⟩
  | base next whole ends ih => exact ih
  | raised sign base isPower exponent base_ih exponent_ih => exact base_ih
  | bare next whole ends ih => exact ih
  | callEmpty opening closing called ih => exact ih
  | call opening closing called given called_ih given_ih => exact called_ih
  | items head tail head_ih tail_ih => exact head_ih
  | branch whole ih =>
      obtain ⟨t, rest, divided, starts⟩ := ih
      refine ⟨t, rest, divided, ?_⟩
      rw [isKeyword_iff.mp starts]
      rfl
  | evaluated whole ih =>
      obtain ⟨t, rest, divided, starts⟩ := ih
      exact ⟨t, rest, divided, startsStatement_of_startsExpression starts⟩
  | @braces opening closing a b c node lines inside ih =>
      cases a with
      | nil => cases lines
      | cons t rest => exact ⟨t, rest, rfl, rfl⟩
  | lastCase => exact ⟨_, _, rfl, by simp [Symbol.starts, Lexeme.isKeyword]⟩
  | elifCase => exact ⟨_, _, rfl, by simp [Symbol.starts, Lexeme.isKeyword]⟩
  | elseCase => exact ⟨_, _, rfl, by simp [Symbol.starts, Lexeme.isKeyword]⟩
  | _ => exact ⟨_, _, rfl, rfl⟩

theorem Reads.ne_nil {s : Symbol} {a b : List Token} {x : Phrase} (reading : Reads s a x b) :
    a ≠ [] := by
  obtain ⟨t, rest, rfl, -⟩ := reading.starts
  simp

/-- A factor takes all powers that follow. -/
theorem Reads.ends_power {s : Symbol} {a b : List Token} {x : Phrase} (reading : Reads s a x b)
    (isPower : s = .factor ∨ s = .power) :
    ∃ next c, b = next :: c ∧ powerOp? next.lexeme = none := by
  induction reading with
  | sign sign isSign operand ih => exact ih (Or.inl rfl)
  | unsigned whole ih => exact ih (Or.inr rfl)
  | base next whole ends ih => exact ⟨next, _, rfl, ends⟩
  | raised sign base isPower exponent base_ih exponent_ih =>
      exact exponent_ih (Or.inl rfl)
  | _ => simp at isPower

end Grammar
end Pseudocode
