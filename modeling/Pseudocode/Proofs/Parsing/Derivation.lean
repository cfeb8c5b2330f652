import Pseudocode.Tree.Grammar

/-!
# The grammar as a relation

The language as a context-free grammar, independent of the parser: `Derives symbol tokens phrase`
says that exactly these tokens, from the first to the last, are a phrase of this kind.  Every token
of a terminal stands once in the list of tokens and every part has a stretch of its own, so a
derivation neither skips a token nor uses one twice.

Nodes keep the places of their tokens.  Only the stretch of a list, of a statement sequence and of a
`RETURN`, `CONTINUE` or `BREAK` is left open here, because it also depends on what comes after.
-/

namespace Pseudocode
namespace Grammar

/-- Tokens with the given lexemes, all at the same place. -/
def unplaced (lexemes : List Lexeme) : List Token :=
  lexemes.map fun l => ⟨l, default⟩

/-- The levels of binary operators that associate to the left, from the loosest to the tightest. -/
inductive Level where
  | logical
  | comparison
  | sum
  | term
  deriving DecidableEq, Repr

/-- The symbols of the grammar. -/
inductive Symbol where
  | expression
  | comparison
  /-- Operands of one level with operators between them. -/
  | chain (level : Level)
  /-- Operators of one level, each with its right operand. -/
  | operations (level : Level)
  | factor
  | power
  | application
  | atom
  /-- Expressions with commas between them; there is at least one. -/
  | items
  /-- Commas, each with an expression after it. -/
  | moreItems
  /-- A condition in parentheses. -/
  | condition
  /-- A block in braces. -/
  | braces
  /-- A condition with its body, behind the given word, and all that belongs to the same branch. -/
  | cases (word : Keyword)
  | statement
  | block
  /-- Line ends, each run of them with a statement after it, and line ends at the end. -/
  | moreStatements

/-- The symbol of the operands of a level. -/
def Level.operand : Level → Symbol
  | logical => .comparison
  | comparison => .chain .sum
  | sum => .chain .term
  | term => .factor

/-- The operators of a level. -/
def Level.operator? : Level → Lexeme → Option BinaryOp
  | logical => logicalOp?
  | comparison => comparisonOp?
  | sum => sumOp?
  | term => termOp?

/-- An operator with its place and its right operand. -/
structure Operation where
  /-- The operator. -/
  op : BinaryOp
  /-- Its place. -/
  mark : Span
  /-- Its right operand. -/
  operand : Node

/-- Operations applied to a left operand, one after another. -/
def applyAll (left : Node) (operations : List Operation) : Node :=
  operations.foldl (fun node o => .mkBinary node o.op o.mark o.operand) left

@[simp]
theorem applyAll_nil (left : Node) : applyAll left [] = left := rfl

@[simp]
theorem applyAll_cons (left : Node) (o : Operation) (operations : List Operation) :
    applyAll left (o :: operations) = applyAll (.mkBinary left o.op o.mark o.operand) operations :=
  rfl

/-- What a symbol stands for. -/
inductive Phrase where
  | node (node : Node)
  | nodes (nodes : List Node)
  | operations (operations : List Operation)
  | cases (parts : Cases)

/-- The branch made of its parts. -/
def Cases.branch (parts : Cases) : Node :=
  .mkBranch parts.condition parts.body parts.others parts.otherwise

/-- The parts of a branch with a condition and a body in front. -/
def Cases.guard (condition body : Node) (parts : Cases) : Cases :=
  ⟨condition, body, (parts.condition, parts.body) :: parts.others, parts.otherwise⟩

/-- Nothing but line ends. -/
def Newlines (tokens : List Token) : Prop :=
  ∀ t ∈ tokens, t.lexeme = .newline

/-- Names with commas between them. -/
inductive Names : List Token → List Name → Prop where
  | one (text : String) (span : Span) : Names [⟨.name text, span⟩] [⟨text, span⟩]
  | more (text : String) (span comma : Span) {tokens : List Token} {names : List Name}
      (others : Names tokens names) :
      Names (⟨.name text, span⟩ :: ⟨.comma, comma⟩ :: tokens) (⟨text, span⟩ :: names)

/-- The parameters of a procedure. -/
inductive Parameters : List Token → List Name → Prop where
  | none : Parameters [] []
  | some {tokens : List Token} {names : List Name} (listed : Names tokens names) :
      Parameters tokens names

/-- Tokens that make up a phrase. -/
inductive Derives : Symbol → List Token → Phrase → Prop where
  | assign (text : String) (span sign : Span) {ts : List Token} {value : Node}
      (right : Derives .expression ts (.node value)) :
      Derives .expression (⟨.name text, span⟩ :: ⟨.assign, sign⟩ :: ts)
        (.node (.mkAssign ⟨text, span⟩ value))
  | logical {ts : List Token} {node : Node} (whole : Derives (.chain .logical) ts (.node node)) :
      Derives .expression ts (.node node)
  | negation (word : Span) {ts : List Token} {node : Node}
      (operand : Derives .comparison ts (.node node)) :
      Derives .comparison (⟨.keyword .notWord, word⟩ :: ts) (.node (.mkUnary .not word node))
  | comparing {ts : List Token} {node : Node}
      (whole : Derives (.chain .comparison) ts (.node node)) :
      Derives .comparison ts (.node node)
  | chain {level : Level} {ts us : List Token} {left : Node} {operations : List Operation}
      (first : Derives level.operand ts (.node left))
      (others : Derives (.operations level) us (.operations operations)) :
      Derives (.chain level) (ts ++ us) (.node (applyAll left operations))
  | noOperation {level : Level} : Derives (.operations level) [] (.operations [])
  | operation {level : Level} (sign : Token) {op : BinaryOp} {ts us : List Token} {right : Node}
      {operations : List Operation} (isOperator : level.operator? sign.lexeme = some op)
      (operand : Derives level.operand ts (.node right))
      (others : Derives (.operations level) us (.operations operations)) :
      Derives (.operations level) (sign :: ts ++ us)
        (.operations (⟨op, sign.span, right⟩ :: operations))
  | sign (sign : Token) {op : UnaryOp} {ts : List Token} {node : Node}
      (isSign : signOp? sign.lexeme = some op) (operand : Derives .factor ts (.node node)) :
      Derives .factor (sign :: ts) (.node (.mkUnary op sign.span node))
  | unsigned {ts : List Token} {node : Node} (whole : Derives .power ts (.node node)) :
      Derives .factor ts (.node node)
  | base {ts : List Token} {node : Node} (whole : Derives .application ts (.node node)) :
      Derives .power ts (.node node)
  | raised (sign : Token) {op : BinaryOp} {ts us : List Token} {left right : Node}
      (base : Derives .application ts (.node left)) (isPower : powerOp? sign.lexeme = some op)
      (exponent : Derives .factor us (.node right)) :
      Derives .power (ts ++ sign :: us) (.node (.mkBinary left op sign.span right))
  | bare {ts : List Token} {node : Node} (whole : Derives .atom ts (.node node)) :
      Derives .application ts (.node node)
  | callEmpty (opening closing : Span) {ts : List Token} {callee : Node}
      (called : Derives .atom ts (.node callee)) :
      Derives .application (ts ++ [⟨.leftParen, opening⟩, ⟨.rightParen, closing⟩])
        (.node (.mkCall callee []))
  | call (opening closing : Span) {ts us : List Token} {callee : Node} {arguments : List Node}
      (called : Derives .atom ts (.node callee)) (given : Derives .items us (.nodes arguments)) :
      Derives .application (ts ++ ⟨.leftParen, opening⟩ :: us ++ [⟨.rightParen, closing⟩])
        (.node (.mkCall callee arguments))
  | items {ts us : List Token} {first : Node} {others : List Node}
      (head : Derives .expression ts (.node first)) (tail : Derives .moreItems us (.nodes others)) :
      Derives .items (ts ++ us) (.nodes (first :: others))
  | lastItem : Derives .moreItems [] (.nodes [])
  | nextItem (comma : Span) {ts us : List Token} {first : Node} {others : List Node}
      (head : Derives .expression ts (.node first)) (tail : Derives .moreItems us (.nodes others)) :
      Derives .moreItems (⟨.comma, comma⟩ :: ts ++ us) (.nodes (first :: others))
  | int (n : Nat) (span : Span) : Derives .atom [⟨.int n, span⟩] (.node (.number (.whole n) span))
  | float (x : Float) (span : Span) :
      Derives .atom [⟨.float x, span⟩] (.node (.number (.real x) span))
  | string (s : String) (span : Span) : Derives .atom [⟨.string s, span⟩] (.node (.text s span))
  | trueWord (span : Span) :
      Derives .atom [⟨.keyword .trueWord, span⟩] (.node (.truth true span))
  | falseWord (span : Span) :
      Derives .atom [⟨.keyword .falseWord, span⟩] (.node (.truth false span))
  | name (text : String) (span : Span) :
      Derives .atom [⟨.name text, span⟩] (.node (.access ⟨text, span⟩))
  | parenthesised (opening closing : Span) {ts : List Token} {node : Node}
      (inside : Derives .expression ts (.node node)) :
      Derives .atom (⟨.leftParen, opening⟩ :: ts ++ [⟨.rightParen, closing⟩]) (.node node)
  | emptyList (opening closing span : Span) :
      Derives .atom [⟨.leftBracket, opening⟩, ⟨.rightBracket, closing⟩] (.node (.list [] span))
  | list (opening closing span : Span) {ts : List Token} {elements : List Node}
      (inside : Derives .items ts (.nodes elements)) :
      Derives .atom (⟨.leftBracket, opening⟩ :: ts ++ [⟨.rightBracket, closing⟩])
        (.node (.list elements span))
  | branch {ts : List Token} {parts : Cases} (whole : Derives (.cases .ifWord) ts (.cases parts)) :
      Derives .atom ts (.node parts.branch)
  | forEach (forWord eachWord inWord span listSpan : Span) (text list : String) {ts : List Token}
      {body : Node} (inside : Derives .braces ts (.node body)) :
      Derives .atom
        (⟨.keyword .forWord, forWord⟩ :: ⟨.keyword .eachWord, eachWord⟩ :: ⟨.name text, span⟩ ::
          ⟨.keyword .inWord, inWord⟩ :: ⟨.name list, listSpan⟩ :: ts)
        (.node (.mkForEach ⟨text, span⟩ (.access ⟨list, listSpan⟩) body))
  | whileLoop (word : Span) {ts us : List Token} {test body : Node}
      (guard : Derives .condition ts (.node test)) (inside : Derives .braces us (.node body)) :
      Derives .atom (⟨.keyword .whileWord, word⟩ :: ts ++ us) (.node (.mkWhile test body))
  | untilLoop (word untilWord : Span) {ts us : List Token} {test body : Node}
      (guard : Derives .condition ts (.node test)) (inside : Derives .braces us (.node body)) :
      Derives .atom (⟨.keyword .repeatWord, word⟩ :: ⟨.keyword .untilWord, untilWord⟩ :: ts ++ us)
        (.node (.mkUntil test body))
  | repeatFixed (word span timesWord : Span) (count : Nat) {ts : List Token} {body : Node}
      (inside : Derives .braces ts (.node body)) :
      Derives .atom
        (⟨.keyword .repeatWord, word⟩ :: ⟨.int count, span⟩ ::
          ⟨.keyword .timesWord, timesWord⟩ :: ts)
        (.node (.mkRepeatFixed count span body))
  | repeatBy (word span timesWord : Span) (text : String) {ts : List Token} {body : Node}
      (inside : Derives .braces ts (.node body)) :
      Derives .atom
        (⟨.keyword .repeatWord, word⟩ :: ⟨.name text, span⟩ ::
          ⟨.keyword .timesWord, timesWord⟩ :: ts)
        (.node (.mkRepeatBy (.access ⟨text, span⟩) body))
  | procedure (word span opening closing : Span) (text : String) {ts us : List Token}
      {names : List Name} {body : Node} (listed : Parameters ts names)
      (inside : Derives .braces us (.node body)) :
      Derives .atom
        (⟨.keyword .procedureWord, word⟩ :: ⟨.name text, span⟩ :: ⟨.leftParen, opening⟩ :: ts ++
          ⟨.rightParen, closing⟩ :: us)
        (.node (.mkProcedure (some ⟨text, span⟩) names body))
  | anonymous (word opening closing : Span) {ts us : List Token} {names : List Name} {body : Node}
      (listed : Parameters ts names) (inside : Derives .braces us (.node body)) :
      Derives .atom
        (⟨.keyword .procedureWord, word⟩ :: ⟨.leftParen, opening⟩ :: ts ++
          ⟨.rightParen, closing⟩ :: us)
        (.node (.mkProcedure none names body))
  | condition (opening closing : Span) {ts : List Token} {node : Node}
      (inside : Derives .expression ts (.node node)) :
      Derives .condition (⟨.leftParen, opening⟩ :: ts ++ [⟨.rightParen, closing⟩]) (.node node)
  | braces (opening closing : Span) {lines ts : List Token} {node : Node} (ends : Newlines lines)
      (inside : Derives .block ts (.node node)) :
      Derives .braces (lines ++ ⟨.leftBrace, opening⟩ :: ts ++ [⟨.rightBrace, closing⟩])
        (.node node)
  | lastCase {word : Keyword} (span : Span) {ts us lines : List Token} {test body : Node}
      (guard : Derives .condition ts (.node test)) (inside : Derives .braces us (.node body))
      (ends : Newlines lines) :
      Derives (.cases word) (⟨.keyword word, span⟩ :: ts ++ us ++ lines)
        (.cases ⟨test, body, [], none⟩)
  | elifCase {word : Keyword} (span : Span) {ts us lines vs : List Token} {test body : Node}
      {parts : Cases} (guard : Derives .condition ts (.node test))
      (inside : Derives .braces us (.node body)) (ends : Newlines lines)
      (others : Derives (.cases .elifWord) vs (.cases parts)) :
      Derives (.cases word) (⟨.keyword word, span⟩ :: ts ++ us ++ lines ++ vs)
        (.cases (parts.guard test body))
  | elseCase {word : Keyword} (span elseWord : Span) {ts us lines vs : List Token}
      {test body other : Node} (guard : Derives .condition ts (.node test))
      (inside : Derives .braces us (.node body)) (ends : Newlines lines)
      (otherwise : Derives .braces vs (.node other)) :
      Derives (.cases word)
        (⟨.keyword word, span⟩ :: ts ++ us ++ lines ++ ⟨.keyword .elseWord, elseWord⟩ :: vs)
        (.cases ⟨test, body, [], some other⟩)
  | returnNothing (word span : Span) :
      Derives .statement [⟨.keyword .returnWord, word⟩] (.node (.returning none span))
  | returnValue (word span : Span) {ts : List Token} {value : Node}
      (result : Derives .expression ts (.node value)) :
      Derives .statement (⟨.keyword .returnWord, word⟩ :: ts) (.node (.returning (some value) span))
  | continuing (word span : Span) :
      Derives .statement [⟨.keyword .continueWord, word⟩] (.node (.continuing span))
  | breaking (word span : Span) :
      Derives .statement [⟨.keyword .breakWord, word⟩] (.node (.breaking span))
  | evaluated {ts : List Token} {node : Node} (whole : Derives .expression ts (.node node)) :
      Derives .statement ts (.node node)
  | block (span : Span) {lines ts us : List Token} {first : Node} {others : List Node}
      (ends : Newlines lines) (head : Derives .statement ts (.node first))
      (tail : Derives .moreStatements us (.nodes others)) :
      Derives .block (lines ++ ts ++ us) (.node (.list (first :: others) span))
  | lastStatement {lines : List Token} (ends : Newlines lines) :
      Derives .moreStatements lines (.nodes [])
  | nextStatement {lines ts us : List Token} {first : Node} {others : List Node}
      (nonempty : lines ≠ []) (ends : Newlines lines) (head : Derives .statement ts (.node first))
      (tail : Derives .moreStatements us (.nodes others)) :
      Derives .moreStatements (lines ++ ts ++ us) (.nodes (first :: others))

/-- Tokens that make up a program: a sequence of statements, or nothing but line ends. -/
inductive DerivesProgram : List Token → Node → Prop where
  | empty (span : Span) {lines : List Token} (ends : Newlines lines) :
      DerivesProgram lines (.list [] span)
  | block {ts : List Token} {node : Node} (whole : Derives .block ts (.node node)) :
      DerivesProgram ts node

end Grammar
end Pseudocode
