import Pseudocode.Token.Scanner
import Pseudocode.Tree.Grammar

/-!
# Parsing

Every rule of the grammar can be started by name on an array of tokens.  Parsing a program is the
rule `program`.
-/

namespace Pseudocode

/-- The rules that can be started by name. -/
inductive RuleName where
  | program
  | block
  | statement
  | expression
  | comparison
  | sum
  | term
  | factor
  | power
  | application
  | atom
  | listLiteral
  | branch
  | elifBranch
  | elseBranch
  | forEach
  | whileLoop
  | repetition
  | procedure
  deriving DecidableEq, Repr

/-- What a rule yields. -/
inductive Yield where
  /-- A tree. -/
  | node (node : Node)
  /-- The parts of a branch. -/
  | cases (parts : Grammar.Cases)
  /-- What else to do, if anything. -/
  | otherwise (body : Option Node)

namespace RuleName

open Grammar

/-- The rule with a name in a monad, with a bound on the nesting. -/
def ruleIn {m : Type → Type} [Monad m] [MonadWalk m] (fuel : Nat) : RuleName → m Yield
  | program => .node <$> Grammar.program (Grammar.knot fuel) fuel
  | block => .node <$> Grammar.block (Grammar.knot fuel) fuel
  | statement => .node <$> Grammar.statement (Grammar.knot fuel)
  | expression => .node <$> Grammar.expression (Grammar.knot fuel) fuel
  | comparison => .node <$> Grammar.comparison (Grammar.knot fuel) fuel
  | sum => .node <$> Grammar.sum (Grammar.knot fuel) fuel
  | term => .node <$> Grammar.term (Grammar.knot fuel) fuel
  | factor => .node <$> Grammar.factor (Grammar.knot fuel) fuel
  | power => .node <$> Grammar.power (Grammar.knot fuel) fuel
  | application => .node <$> Grammar.application (Grammar.knot fuel) fuel
  | atom => .node <$> Grammar.atom (Grammar.knot fuel) fuel
  | listLiteral => .node <$> Grammar.listLiteral (Grammar.knot fuel) fuel
  | branch => .node <$> Grammar.branch (Grammar.knot fuel) fuel
  | elifBranch => .cases <$> Grammar.cases (Grammar.knot fuel) fuel .elifWord
  | elseBranch => .otherwise <$> Grammar.elseBranch (Grammar.knot fuel)
  | forEach => .node <$> Grammar.forEach (Grammar.knot fuel)
  | whileLoop => .node <$> Grammar.whileLoop (Grammar.knot fuel)
  | repetition => .node <$> Grammar.repetition (Grammar.knot fuel)
  | procedure => .node <$> Grammar.procedure (Grammar.knot fuel) fuel

/-- The rule with a name, with a bound on the nesting. -/
abbrev rule (fuel : Nat) (name : RuleName) : Rule Yield :=
  name.ruleIn fuel

/-- Start a rule at an index of an array of tokens. -/
def run (name : RuleName) (tokens : Array Token) (index : Int) : Outcome Yield :=
  name.rule (bound tokens.size) { tokens, index }

end RuleName

/-- Parse a program. -/
def parseProgram (tokens : List Token) : Except Stop Node :=
  let tokens := tokens.toArray
  let fuel := Grammar.bound tokens.size
  match Grammar.program (Grammar.rule fuel) fuel { tokens, index := 0 } with
  | .ok node _ => .ok node
  | .error diagnostic _ => .error (.error diagnostic)
  | .fault fault => .error (.fault fault)

/-- Scan and parse a source. -/
def Source.parse (source : Source) : Except Stop Node := do
  parseProgram (← source.tokens)

end Pseudocode
