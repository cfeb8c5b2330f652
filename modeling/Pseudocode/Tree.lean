import Pseudocode.Token

/-!
# Syntax trees

A node keeps the stretch of source it is reported at.  The smart constructors at the end of the file
compute this stretch from the parts, so that the parser never has to.  The stretch of a branch runs
from its first condition to the end of its `ELSE` body or, without one, of its last condition.
-/

namespace Pseudocode

/-- A name with its place. -/
structure Name where
  /-- The name. -/
  text : String
  /-- Its place. -/
  span : Span

/-- The binary operators. -/
inductive BinaryOp where
  | add
  | sub
  | mul
  | div
  | mod
  /-- The power operator, in its one-character or its two-character spelling. -/
  | pow (doubled : Bool)
  | equal
  | notEqual
  | less
  | greater
  | lessEqual
  | greaterEqual
  | and
  | or
  deriving DecidableEq, Repr

/-- The unary operators. -/
inductive UnaryOp where
  | plus
  | minus
  | not
  deriving DecidableEq, Repr

/-- The lexeme of a binary operator. -/
def BinaryOp.lexeme : BinaryOp → Lexeme
  | add => .plus
  | sub => .minus
  | mul => .star
  | div => .slash
  | mod => .keyword .modWord
  | pow doubled => .power doubled
  | equal => .equal
  | notEqual => .notEqual
  | less => .less
  | greater => .greater
  | lessEqual => .lessEqual
  | greaterEqual => .greaterEqual
  | and => .keyword .andWord
  | or => .keyword .orWord

/-- The lexeme of a unary operator. -/
def UnaryOp.lexeme : UnaryOp → Lexeme
  | plus => .plus
  | minus => .minus
  | not => .keyword .notWord

/-- A syntax tree.  A sequence of statements is a list node, like a list literal. -/
inductive Node where
  /-- A number literal. -/
  | number (value : Number) (span : Span)
  /-- A truth value. -/
  | truth (value : Bool) (span : Span)
  /-- A text literal. -/
  | text (value : String) (span : Span)
  /-- A list literal or a sequence of statements. -/
  | list (elements : List Node) (span : Span)
  /-- The value of a name. -/
  | access (name : Name)
  /-- An assignment. -/
  | assign (name : Name) (value : Node) (span : Span)
  /-- A binary operation; `mark` is the place of the operator. -/
  | binary (left : Node) (op : BinaryOp) (mark : Span) (right : Node) (span : Span)
  /-- A unary operation; `mark` is the place of the operator. -/
  | unary (op : UnaryOp) (mark : Span) (operand : Node) (span : Span)
  /-- A branch: a condition with its body, further ones, and what else to do. -/
  | branch (condition body : Node) (others : List (Node × Node)) (otherwise : Option Node)
      (span : Span)
  /-- A loop over the elements of a list. -/
  | forEach (name : Name) (list body : Node) (span : Span)
  /-- A loop that goes on while its condition holds. -/
  | whileLoop (condition body : Node) (span : Span)
  /-- A loop that goes on until its condition holds. -/
  | untilLoop (condition body : Node) (span : Span)
  /-- A repetition by a literal number of times; `mark` is the place of the number. -/
  | repeatFixed (count : Nat) (mark : Span) (body : Node) (span : Span)
  /-- A repetition by the value of a node. -/
  | repeatBy (count body : Node) (span : Span)
  /-- A procedure, possibly without a name. -/
  | procedure (name : Option Name) (parameters : List Name) (body : Node) (span : Span)
  /-- A call. -/
  | call (callee : Node) (arguments : List Node) (span : Span)
  /-- A return, possibly of a value. -/
  | returning (value : Option Node) (span : Span)
  /-- Go on with the next round of a loop. -/
  | continuing (span : Span)
  /-- Leave a loop. -/
  | breaking (span : Span)

namespace Node

/-- The stretch of source that a node is reported at. -/
def span : Node → Span
  | number _ span => span
  | truth _ span => span
  | text _ span => span
  | list _ span => span
  | access name => name.span
  | assign _ _ span => span
  | binary _ _ _ _ span => span
  | unary _ _ _ span => span
  | branch _ _ _ _ span => span
  | forEach _ _ _ span => span
  | whileLoop _ _ span => span
  | untilLoop _ _ span => span
  | repeatFixed _ _ _ span => span
  | repeatBy _ _ span => span
  | procedure _ _ _ span => span
  | call _ _ span => span
  | returning _ span => span
  | continuing span => span
  | breaking span => span

/-- The first place of a node. -/
def start (n : Node) : Position := n.span.start

/-- The place after a node. -/
def stop (n : Node) : Position := n.span.stop

/-- An assignment, from its name to its value. -/
def mkAssign (name : Name) (value : Node) : Node :=
  assign name value ⟨name.span.start, value.stop⟩

/-- A binary operation, from its left to its right operand. -/
def mkBinary (left : Node) (op : BinaryOp) (mark : Span) (right : Node) : Node :=
  binary left op mark right ⟨left.start, right.stop⟩

/-- A unary operation, from the operator to its operand. -/
def mkUnary (op : UnaryOp) (mark : Span) (operand : Node) : Node :=
  unary op mark operand ⟨mark.start, operand.stop⟩

/-- A branch, from its first condition to its other body or its last condition. -/
def mkBranch (condition body : Node) (others : List (Node × Node)) (otherwise : Option Node) :
    Node :=
  let last := (others.getLast?.map Prod.fst).getD condition
  branch condition body others otherwise ⟨condition.start, (otherwise.getD last).stop⟩

/-- A loop over a list, from its name to its body. -/
def mkForEach (name : Name) (list body : Node) : Node :=
  forEach name list body ⟨name.span.start, body.stop⟩

/-- A loop, from its condition to its body. -/
def mkWhile (condition body : Node) : Node :=
  whileLoop condition body ⟨condition.start, body.stop⟩

/-- A loop, from its condition to its body. -/
def mkUntil (condition body : Node) : Node :=
  untilLoop condition body ⟨condition.start, body.stop⟩

/-- A repetition, from its literal count to its body. -/
def mkRepeatFixed (count : Nat) (mark : Span) (body : Node) : Node :=
  repeatFixed count mark body ⟨mark.start, body.stop⟩

/-- A repetition, from its count to its body. -/
def mkRepeatBy (count body : Node) : Node :=
  repeatBy count body ⟨count.start, body.stop⟩

/-- A procedure, from its name, its first parameter or its body, to its body. -/
def mkProcedure (name : Option Name) (parameters : List Name) (body : Node) : Node :=
  let first := (name.or parameters.head?).map fun n => n.span.start
  procedure name parameters body ⟨first.getD body.start, body.stop⟩

/-- A call, from the callee to the last argument or the end of the callee. -/
def mkCall (callee : Node) (arguments : List Node) : Node :=
  call callee arguments ⟨callee.start, (arguments.getLast?.getD callee).stop⟩

/-- A node as one line: operations in parentheses with their operator between, literals as their
tokens.  Other nodes have no such form and show as a mark. -/
def render : Node → String
  | number (.whole n) span => Token.render ⟨.int n.toNat, span⟩
  | number (.real x) span => Token.render ⟨.float x, span⟩
  | truth value span => Token.render ⟨.truth value, span⟩
  | text value span => Token.render ⟨.string value, span⟩
  | binary left op mark right _ =>
      s!"({left.render}, {Token.render ⟨op.lexeme, mark⟩}, {right.render})"
  | unary op mark operand _ => s!"({Token.render ⟨op.lexeme, mark⟩}, {operand.render})"
  | _ => "<node>"

end Node
end Pseudocode
