import Pseudocode.Tree.Rule

/-!
# The grammar

The rules of the language, from simple expressions up to whole programs.  Four of them call
themselves: expressions, comparisons, factors and blocks.  The rules are written over a parameter
`self` that stands for these four; `Grammar.knot` ties them together with a bound on the nesting,
which `Grammar.bound` sets high enough for any array of tokens.

The bounds on the nesting, here and where files are read or programs are run, only see to it that
the recursion ends.  They are no limit on how deeply a text may be nested: a machine that runs out
of room at some depth is not modelled anywhere.

Binary operators of one level associate to the left; the right operand of a power is a factor, so
powers associate to the right.  Attempts are made in two places: after `RETURN`, whose value is
optional, and for every statement of a sequence but the first.
-/

namespace Pseudocode
namespace Grammar

open Rule hiding observe
open MonadWalk

/-- The rules that call themselves. -/
inductive Category where
  | expression
  | comparison
  | factor
  | block
  deriving DecidableEq, Repr

/-- Rules for all categories, in a monad. -/
abbrev RulesIn (m : Type → Type) : Type := Category → m Node

/-- Rules for all categories. -/
abbrev Rules : Type := RulesIn Rule

variable {m : Type → Type} [Monad m] [MonadWalk m]

/-! ## Lists of expressions -/

/-- The expressions after further commas. -/
def moreItems (self : RulesIn m) : Nat → m (List Node)
  | 0 => act (abort .exhausted)
  | fuel + 1 => do
      match ← act lexeme with
      | .comma =>
          act advance
          let item ← call (self .expression)
          return item :: (← moreItems self fuel)
      | _ => return []

/-- A list literal.  It is reported up to the end of the token after it. -/
def listLiteral (self : RulesIn m) (fuel : Nat) : m Node := do
  let first := (← act current).span.start
  expect (· matches .leftBracket) (.bracket "[")
  match ← act lexeme with
  | .rightBracket =>
      act advance
      return .list [] ⟨first, (← act current).span.stop⟩
  | _ =>
      let item ← callOr (self .expression) fun w => .expected .firstElement w.current.span
      let items ← moreItems self fuel
      expect (· matches .rightBracket) .listEnd
      return .list (item :: items) ⟨first, (← act current).span.stop⟩

/-! ## Blocks -/

/-- A block in braces, which may start on a later line. -/
def braces (self : RulesIn m) : m Node := do
  skipNewlines
  expect (· matches .leftBrace) (.bracket "\x7b")
  let body ← call (self .block)
  expect (· matches .rightBrace) (.bracket "\x7d")
  return body

/-- A condition in parentheses. -/
def condition (self : RulesIn m) : m Node := do
  expect (· matches .leftParen) (.bracket "(")
  let node ← call (self .expression)
  expect (· matches .rightParen) (.bracket ")")
  return node

/-- The parts of a branch. -/
structure Cases where
  /-- The first condition. -/
  condition : Node
  /-- What to do if it holds. -/
  body : Node
  /-- Further conditions with their bodies. -/
  others : List (Node × Node)
  /-- What to do if no condition holds. -/
  otherwise : Option Node

/-- What to do if no condition holds, if anything. -/
def elseBranch (self : RulesIn m) : m (Option Node) := do
  if (← act lexeme).isKeyword .elseWord then
    act advance
    return some (← braces self)
  else return none

/-- The parts of a branch that starts with the given word. -/
def cases (self : RulesIn m) : Nat → Keyword → m Cases
  | 0, _ => act (abort .exhausted)
  | fuel + 1, word => do
      expect (Lexeme.isKeyword word) (.branch word.word)
      let test ← condition self
      let body ← braces self
      skipNewlines
      let next ← act lexeme
      if next.isKeyword .elifWord then
        let more ← call (cases self fuel .elifWord)
        return ⟨test, body, (more.condition, more.body) :: more.others, more.otherwise⟩
      else if next.isKeyword .elseWord then
        return ⟨test, body, [], ← call (elseBranch self)⟩
      else return ⟨test, body, [], none⟩

/-- A branch. -/
def branch (self : RulesIn m) (fuel : Nat) : m Node := do
  let parts ← call (cases self fuel .ifWord)
  return .mkBranch parts.condition parts.body parts.others parts.otherwise

/-- The current token as a name. -/
def name (what : Expectation) : m Name := do
  let token ← act current
  match token.lexeme with
  | .name text =>
      act advance
      return ⟨text, token.span⟩
  | _ => act (fail what)

/-- Move over a reserved word. -/
def keyword (word : Keyword) : m Unit :=
  expect (Lexeme.isKeyword word) (.word word.word)

/-- A loop over a list. -/
def forEach (self : RulesIn m) : m Node := do
  keyword .forWord
  keyword .eachWord
  let variable_ ← name .name
  keyword .inWord
  let list ← name .name
  let body ← braces self
  return .mkForEach variable_ (.access list) body

/-- A loop with a condition in front. -/
def whileLoop (self : RulesIn m) : m Node := do
  keyword .whileWord
  let test ← condition self
  let body ← braces self
  return .mkWhile test body

/-- A repetition, either until a condition holds or a number of times. -/
def repetition (self : RulesIn m) : m Node := do
  keyword .repeatWord
  if (← act lexeme).isKeyword .untilWord then
    act advance
    let test ← condition self
    let body ← braces self
    return .mkUntil test body
  else
    let token ← act current
    match token.lexeme with
    | .int count =>
        act advance
        keyword .timesWord
        let body ← braces self
        return .mkRepeatFixed count token.span body
    | .name text =>
        act advance
        keyword .timesWord
        let body ← braces self
        return .mkRepeatBy (.access ⟨text, token.span⟩) body
    | _ => act (fail .count)

/-- The parameters after further commas. -/
def moreParameters : Nat → m (List Name)
  | 0 => act (abort .exhausted)
  | fuel + 1 => do
      match ← act lexeme with
      | .comma =>
          act advance
          let parameter ← name .parameter
          return parameter :: (← moreParameters fuel)
      | _ => return []

/-- The parameters of a procedure, up to the closing parenthesis. -/
def parameters (fuel : Nat) : m (List Name) := do
  if (← act lexeme).isName then
    let first ← name .name
    let others ← moreParameters fuel
    expect (· matches .rightParen) .parametersEnd
    return first :: others
  else
    expect (· matches .rightParen) .parametersStart
    return []

/-- A procedure. -/
def procedure (self : RulesIn m) (fuel : Nat) : m Node := do
  keyword .procedureWord
  if (← act lexeme).isName then
    let own ← name .name
    expect (· matches .leftParen) (.bracket "(")
    let names ← parameters fuel
    let body ← braces self
    return .mkProcedure (some own) names body
  else
    expect (· matches .leftParen) .procedureHead
    let names ← parameters fuel
    let body ← braces self
    return .mkProcedure none names body

/-! ## Expressions -/

/-- The rules that start with a reserved word. -/
def keywordAtom (self : RulesIn m) (fuel : Nat) : Keyword → Option (m Node)
  | .ifWord => some (branch self fuel)
  | .forWord => some (forEach self)
  | .whileWord => some (whileLoop self)
  | .repeatWord => some (repetition self)
  | .procedureWord => some (procedure self fuel)
  | _ => none

/-- A simple expression.  The end of the program counts as a step here, so that no other rule
replaces the error that reports it. -/
def atom (self : RulesIn m) (fuel : Nat) : m Node := do
  let token ← act current
  match token.lexeme with
  | .int n =>
      act advance
      return .number (.whole n) token.span
  | .float x =>
      act advance
      return .number (.real x) token.span
  | .string s =>
      act advance
      return .text s token.span
  | .keyword .trueWord =>
      act (takeTruth true)
      return .truth true token.span
  | .keyword .falseWord =>
      act (takeTruth false)
      return .truth false token.span
  | .name text =>
      act advance
      return .access ⟨text, token.span⟩
  | .leftParen =>
      act advance
      let node ← call (self .expression)
      expect (· matches .rightParen) (.bracket ")")
      return node
  | .leftBracket => call (listLiteral self fuel)
  | .keyword word =>
      match keywordAtom self fuel word with
      | some rule => call rule
      | none => act (fail .atom)
  | .eof =>
      meetEnd
      act (raise ⟨.endOfFile, some token.span⟩)
  | _ => act (fail .atom)

/-- The first argument of a call.  If it cannot be parsed the whole parse is abandoned. -/
def firstArgument (self : RulesIn m) : m Node := do
  let (result, tally) ← observe (self .expression)
  act (register tally)
  match result with
  | .ok node => return node
  | .error _ => act (abort .unreadableArgument)

/-- A simple expression, possibly called with arguments. -/
def application (self : RulesIn m) (fuel : Nat) : m Node := do
  let callee ← call (atom self fuel)
  match ← act lexeme with
  | .leftParen =>
      act advance
      match ← act lexeme with
      | .rightParen =>
          act advance
          return .mkCall callee []
      | _ =>
          let first ← firstArgument self
          let others ← moreItems self fuel
          expect (· matches .rightParen) .argumentsEnd
          return .mkCall callee (first :: others)
  | _ => return callee

/-- Further operators of a level with their right operands. -/
def chainFrom (operator? : Lexeme → Option BinaryOp) (right : m Node) : Nat → Node → m Node
  | 0, _ => act (abort .exhausted)
  | fuel + 1, left => do
      let token ← act current
      match operator? token.lexeme with
      | some op =>
          act advance
          let operand ← call right
          chainFrom operator? right fuel (.mkBinary left op token.span operand)
      | none => return left

/-- A chain of operators of one level. -/
def chain (operator? : Lexeme → Option BinaryOp) (operand right : m Node) (fuel : Nat) :
    m Node := do
  let left ← call operand
  chainFrom operator? right fuel left

/-- The power operators. -/
def powerOp? : Lexeme → Option BinaryOp
  | .power doubled => some (.pow doubled)
  | _ => none

/-- The multiplicative operators. -/
def termOp? : Lexeme → Option BinaryOp
  | .star => some .mul
  | .slash => some .div
  | .keyword .modWord => some .mod
  | _ => none

/-- The additive operators. -/
def sumOp? : Lexeme → Option BinaryOp
  | .plus => some .add
  | .minus => some .sub
  | _ => none

/-- The comparison operators. -/
def comparisonOp? : Lexeme → Option BinaryOp
  | .equal => some .equal
  | .notEqual => some .notEqual
  | .less => some .less
  | .greater => some .greater
  | .lessEqual => some .lessEqual
  | .greaterEqual => some .greaterEqual
  | _ => none

/-- The logical operators. -/
def logicalOp? : Lexeme → Option BinaryOp
  | .keyword .andWord => some .and
  | .keyword .orWord => some .or
  | _ => none

/-- The signs. -/
def signOp? : Lexeme → Option UnaryOp
  | .plus => some .plus
  | .minus => some .minus
  | _ => none

/-- A power. -/
def power (self : RulesIn m) (fuel : Nat) : m Node :=
  chain powerOp? (application self fuel) (self .factor) fuel

/-- A power, possibly with signs in front. -/
def factor (self : RulesIn m) (fuel : Nat) : m Node := do
  let token ← act current
  match signOp? token.lexeme with
  | some op =>
      act advance
      let operand ← call (self .factor)
      return .mkUnary op token.span operand
  | none => power self fuel

/-- A product. -/
def term (self : RulesIn m) (fuel : Nat) : m Node :=
  chain termOp? (factor self fuel) (factor self fuel) fuel

/-- A sum. -/
def sum (self : RulesIn m) (fuel : Nat) : m Node :=
  chain sumOp? (term self fuel) (term self fuel) fuel

/-- A chain of comparisons, or the negation of one. -/
def comparison (self : RulesIn m) (fuel : Nat) : m Node := do
  let token ← act current
  if token.isKeyword .notWord then
    act advance
    let operand ← call (self .comparison)
    return .mkUnary .not token.span operand
  else
    callOr (chain comparisonOp? (sum self fuel) (sum self fuel) fuel) fun w =>
      .expected .comparison w.current.span

/-- Whether a lexeme is the assignment sign. -/
def isAssign : Lexeme → Bool
  | .assign => true
  | _ => false

/-- An assignment or a logical expression. -/
def expression (self : RulesIn m) (fuel : Nat) : m Node := do
  let token ← act current
  let next ← act followingLexeme
  if token.lexeme.isName && isAssign next then
    let target ← name .name
    act advance
    let value ← call (self .expression)
    return .mkAssign target value
  else
    callOr (chain logicalOp? (comparison self fuel) (comparison self fuel) fuel) fun w =>
      .expected .expression w.current.span

/-! ## Statements -/

/-- A statement. -/
def statement (self : RulesIn m) : m Node := do
  let token ← act current
  let first := token.span.start
  if token.isKeyword .returnWord then
    act advance
    let value ← attempt (self .expression)
    if value.isNone then act rewind
    return .returning value ⟨first, (← act current).span.stop⟩
  else if token.isKeyword .continueWord then
    act advance
    return .continuing ⟨first, (← act current).span.stop⟩
  else if token.isKeyword .breakWord then
    act advance
    return .breaking ⟨first, (← act current).span.stop⟩
  else
    callOr (self .expression) fun w => .expected .statement ⟨first, w.current.span.stop⟩

/-- The further statements of a block.  A statement that cannot be parsed ends the block. -/
def moreStatements (self : RulesIn m) : Nat → m (List Node)
  | 0 => act (abort .exhausted)
  | fuel + 1 => do
      match ← act lexeme with
      | .newline =>
          skipNewlines
          match ← attempt (statement self) with
          | some node => return node :: (← moreStatements self fuel)
          | none =>
              act rewind
              skipNewlines
              return []
      | _ => return []

/-- The statements of a block; there is at least one. -/
def block (self : RulesIn m) (fuel : Nat) : m Node := do
  let first := (← act current).span.start
  skipNewlines
  let node ← call (statement self)
  let others ← moreStatements self fuel
  return .list (node :: others) ⟨first, (← act current).span.stop⟩

/-- Whether an error reports the end of the program. -/
def isEndOfFile (d : Diagnostic) : Bool :=
  d.problem matches .endOfFile

/-- After an error in a later statement of a program: line ends up to the end of the program are
stepped over before the error is reported. -/
def giveUp (diagnostic : Diagnostic) : m (List Node) := do
  skipNewlines
  match ← act lexeme with
  | .eof =>
      act rewind
      skipNewlines
      act (raise diagnostic)
  | _ => act (raise diagnostic)

/-- The further statements of a program.  Unlike in a block, only the end of the program ends them;
any other error is reported. -/
def moreProgram (self : RulesIn m) : Nat → m (List Node)
  | 0 => act (abort .exhausted)
  | fuel + 1 => do
      match ← act lexeme with
      | .newline =>
          skipNewlines
          let (result, tally) ← observe (statement self)
          match result with
          | .ok node =>
              act (register tally)
              return node :: (← moreProgram self fuel)
          | .error diagnostic =>
              if isEndOfFile diagnostic then
                act (noteRewind tally.taken)
                act rewind
                skipNewlines
                return []
              else
                act (register tally)
                giveUp diagnostic
      | _ => return []

/-- The first statement of a program.  An end of the program inside it is reported as a missing
statement. -/
def firstStatement (self : RulesIn m) : m Node := do
  let (result, tally) ← observe (statement self)
  act (register tally)
  match result with
  | .ok node => return node
  | .error diagnostic =>
      if isEndOfFile diagnostic then
        act forgetLast
        act (raise ⟨.expected .program, diagnostic.span⟩)
      else act (raise diagnostic)

/-- The statements of a program, which may be empty. -/
def statements (self : RulesIn m) (fuel : Nat) : m Node := do
  let first := (← act current).span.start
  skipNewlines
  match ← act lexeme with
  | .eof => return .list [] ⟨first, (← act current).span.stop⟩
  | _ =>
      let node ← firstStatement self
      let others ← moreProgram self fuel
      return .list (node :: others) ⟨first, (← act current).span.stop⟩

/-- A whole program. -/
def program (self : RulesIn m) (fuel : Nat) : m Node := do
  let node ← statements self fuel
  match ← act lexeme with
  | .eof => return node
  | _ => act (fail .operator)

/-! ## Tying the knot -/

/-- The rule for a category in a monad, with a bound on the nesting. -/
def knot : Nat → RulesIn m
  | 0, _ => act (abort .exhausted)
  | fuel + 1, category =>
      match category with
      | .expression => expression (knot fuel) fuel
      | .comparison => comparison (knot fuel) fuel
      | .factor => factor (knot fuel) fuel
      | .block => block (knot fuel) fuel

/-- The rule for a category, with a bound on the nesting. -/
abbrev rule (fuel : Nat) : Rules :=
  knot fuel

/-- A bound on the nesting that no array of this many tokens reaches. -/
def bound (size : Nat) : Nat :=
  20 * (size + 2)

end Grammar
end Pseudocode
