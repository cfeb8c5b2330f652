import Pseudocode.Diagnostic
import Pseudocode.Tree

/-!
# Parsing rules

A rule walks along an array of tokens.  It keeps a tally of the steps it has counted: a rule that
calls another one adds that one's tally to its own, and a rule that gives up an attempt goes back by
the number of steps the attempt has counted.  The count is not always the distance walked, because
the end of the program is counted as a step although nothing lies beyond it.

The tally also decides which error is reported: a rule may replace the error of the rule it has just
called only if that rule has not counted a single step.

Rules are put together from single actions and from calls of other rules.  All that is put together
here and in the grammar is written for any monad that has these, so that a rule can also be run with
something that goes along with it.
-/

namespace Pseudocode

/-- The steps that a rule has counted. -/
structure Tally where
  /-- The steps counted by the latest move or the latest rule that was called. -/
  last : Nat := 0
  /-- All steps counted. -/
  taken : Nat := 0
  /-- The steps counted by the latest attempt that was given up. -/
  rewind : Nat := 0
  deriving DecidableEq, Repr

/-- Add the tally of a rule that was called. -/
def Tally.register (own called : Tally) : Tally :=
  { own with last := called.taken, taken := own.taken + called.taken }

/-- Count one step. -/
def Tally.count (own : Tally) : Tally :=
  { own with last := 1, taken := own.taken + 1 }

/-- A place in an array of tokens. -/
structure Walk where
  /-- The tokens. -/
  tokens : Array Token
  /-- The index of the current token. -/
  index : Int
  /-- The steps counted so far. -/
  tally : Tally := {}

namespace Walk

/-- The place in the array that an index means: a negative index counts from the end, and an index
beyond the end means the last token. -/
def slot (w : Walk) (index : Int) : Nat :=
  if index < 0 then (index + w.tokens.size).toNat else min index.toNat (w.tokens.size - 1)

/-- The token at an index. -/
def tokenAt (w : Walk) (index : Int) : Token :=
  w.tokens.getD (w.slot index) ⟨.eof, default⟩

/-- The current token. -/
def current (w : Walk) : Token :=
  w.tokenAt w.index

/-- The token after the current one. -/
def following (w : Walk) : Token :=
  w.tokenAt (w.index + 1)

end Walk

/-- How a rule ends. -/
inductive Outcome (α : Type) where
  /-- With a result. -/
  | ok (result : α) (after : Walk)
  /-- With an error. -/
  | error (diagnostic : Diagnostic) (after : Walk)
  /-- With a fault. -/
  | fault (fault : Fault)

/-- A rule for a part of a program. -/
def Rule (α : Type) : Type :=
  Walk → Outcome α

namespace Rule

variable {α β : Type}

instance : Monad Rule where
  pure result := fun w => .ok result w
  bind rule next := fun w =>
    match rule w with
    | .ok result after => next result after
    | .error diagnostic after => .error diagnostic after
    | .fault fault => .fault fault

instance : LawfulMonad Rule :=
  LawfulMonad.mk' Rule
    (by
      intro α rule
      funext w
      change (match rule w with
        | .ok result after => Outcome.ok (id result) after
        | .error diagnostic after => .error diagnostic after
        | .fault fault => .fault fault) = rule w
      cases rule w <;> rfl)
    (by intro α β result next; rfl)
    (by
      intro α β γ rule second third
      funext w
      simp only [bind]
      cases rule w <;> rfl)

/-- The current token. -/
def current : Rule Token :=
  fun w => .ok w.current w

/-- The current lexeme. -/
def lexeme : Rule Lexeme :=
  fun w => .ok w.current.lexeme w

/-- The lexeme after the current one. -/
def followingLexeme : Rule Lexeme :=
  fun w => .ok w.following.lexeme w

/-- Count a step without moving. -/
def count : Rule Unit :=
  fun w => .ok () { w with tally := w.tally.count }

/-- Move to the next token. -/
def advance : Rule Unit :=
  fun w => .ok () { w with index := w.index + 1, tally := w.tally.count }

/-- Move back. -/
def goBack (steps : Nat) : Rule Unit :=
  fun w => .ok () { w with index := w.index - steps }

/-- End with an error. -/
def raise (diagnostic : Diagnostic) : Rule α :=
  fun w => .error diagnostic w

/-- End with a fault. -/
def abort (fault : Fault) : Rule α :=
  fun _ => .fault fault

/-- End with the error that something else was expected at the current token. -/
def fail (what : Expectation) : Rule α :=
  fun w => .error (.expected what w.current.span) w

/-- Call a rule with a tally of its own, and see how it ends. -/
def observe (rule : Rule α) : Rule (Except Diagnostic α × Tally) :=
  fun w =>
    match rule { w with tally := {} } with
    | .ok result after => .ok (.ok result, after.tally) { after with tally := w.tally }
    | .error diagnostic after =>
        .ok (.error diagnostic, after.tally) { after with tally := w.tally }
    | .fault fault => .fault fault

/-- Add a tally. -/
def register (called : Tally) : Rule Unit :=
  fun w => .ok () { w with tally := w.tally.register called }

/-- Forget how many steps were counted latest. -/
def forgetLast : Rule Unit :=
  fun w => .ok () { w with tally := { w.tally with last := 0 } }

/-- Note how many steps an attempt has counted. -/
def noteRewind (steps : Nat) : Rule Unit :=
  fun w => .ok () { w with tally := { w.tally with rewind := steps } }

/-- Go back by the steps of the latest attempt that was given up. -/
def rewind : Rule Unit :=
  fun w => goBack w.tally.rewind w

/-- The number of tokens. -/
def size : Rule Nat :=
  fun w => .ok w.tokens.size w

/-- Turn the current token, the word for a truth value, into that value, and move on. -/
def takeTruth (value : Bool) : Rule Unit :=
  fun w =>
    let token : Token := { w.current with lexeme := .truth value }
    advance { w with tokens := w.tokens.setIfInBounds (w.slot w.index) token }

end Rule

/-- The monads that rules can be written in. -/
class MonadWalk (m : Type → Type) where
  /-- A single action. -/
  act {α : Type} : Rule α → m α
  /-- Call a rule with a tally of its own, and see how it ends. -/
  observe {α : Type} : m α → m (Except Diagnostic α × Tally)
  /-- Meet the end of the program where an expression should stand, and count it as a step. -/
  meetEnd : m Unit

instance : MonadWalk Rule where
  act action := action
  observe := Rule.observe
  meetEnd := Rule.count

@[simp] theorem act_rule {α : Type} (action : Rule α) : MonadWalk.act action = action :=
  rfl

@[simp] theorem observe_rule {α : Type} (rule : Rule α) : MonadWalk.observe rule = rule.observe :=
  rfl

@[simp] theorem meetEnd_rule : (MonadWalk.meetEnd : Rule Unit) = Rule.count :=
  rfl

namespace Rule

open MonadWalk (act)

variable {m : Type → Type} [Monad m] [MonadWalk m] {α : Type}

/-- Call a rule and add its tally. -/
def call (rule : m α) : m α := do
  let (result, tally) ← MonadWalk.observe rule
  act (register tally)
  match result with
  | .ok value => return value
  | .error diagnostic => act (raise diagnostic)

/-- Call a rule and add its tally.  If it fails without having counted a step, its error is replaced
by one made from the walk. -/
def callOr (rule : m α) (replacement : Walk → Diagnostic) : m α := do
  let (result, tally) ← MonadWalk.observe rule
  act (register tally)
  match result with
  | .ok value => return value
  | .error diagnostic =>
      if tally.taken = 0 then act fun w => .error (replacement w) w else act (raise diagnostic)

/-- Call a rule and add its tally; if it fails, note its steps instead and give nothing. -/
def attempt (rule : m α) : m (Option α) := do
  let (result, tally) ← MonadWalk.observe rule
  match result with
  | .ok value => do
      act (register tally)
      return some value
  | .error _ => do
      act (noteRewind tally.taken)
      return none

/-- Move to the next token if the current one has the given lexeme type, and fail otherwise. -/
def expect (matching : Lexeme → Bool) (what : Expectation) : m Unit := do
  if matching (← act lexeme) then act advance else act (fail what)

/-- Step over at most `fuel` line ends. -/
def skipNewlinesWithin : Nat → m Unit
  | 0 => return ()
  | fuel + 1 => do
      match ← act lexeme with
      | .newline =>
          act advance
          skipNewlinesWithin fuel
      | _ => return ()

/-- Step over line ends. -/
def skipNewlines : m Unit := do
  skipNewlinesWithin ((← act size) + 1)

theorem skipNewlines_rule (w : Walk) :
    (skipNewlines : Rule Unit) w = (skipNewlinesWithin (w.tokens.size + 1) : Rule Unit) w :=
  rfl

end Rule
end Pseudocode
