import Pseudocode.Eval.Builtin
import Pseudocode.Tree.Parse

/-!
# Evaluating programs

The evaluation of a node is written over the evaluation of its parts, `self`, and the knot is tied
in `eval` with a bound on the nesting of nodes and calls.  The same bound limits the rounds of a
loop.  Branches and loops have no value of their own; where one is needed they give the one object
that stands for the absence of a value.
-/

namespace Pseudocode

/-- How to evaluate a node in an activation. -/
abbrev Evaluator : Type := Node → Frame → Eval Ref

namespace Evaluator

/-- Evaluate nodes in order. -/
def all (self : Evaluator) (frame : Frame) : List Node → Eval (List Ref)
  | [] => return []
  | node :: rest => do
      let first ← self node frame
      return first :: (← all self frame rest)

/-- Whether the value of a node counts as true. -/
def test (self : Evaluator) (node : Node) (frame : Frame) : Eval Bool := do
  let value ← self node frame
  return (← Eval.object value).datum.isTrue

/-- Evaluate a node and forget its value. -/
def execute (self : Evaluator) (node : Node) (frame : Frame) : Eval Ref := do
  discard (self node frame)
  return Store.nullRef

/-! ## Names, lists and operators -/

/-- The value of a name: a copy of what is bound to it. -/
def access (name : Name) (frame : Frame) : Eval Ref := do
  match ← Eval.fromStore fun store => store.find? frame.scope name.text with
  | some ref => Eval.takenOver ref name.span frame
  | none => Eval.fail (.undefined name.text) (some frame) (some name.span)

/-- Bind a name in an activation. -/
def bindName (frame : Frame) (name : String) (ref : Ref) : Eval Unit :=
  Eval.modifyStore fun store => store.bind frame.scope name ref

/-- Assign the value of a node to a name. -/
def assign (self : Evaluator) (name : Name) (value : Node) (frame : Frame) : Eval Ref := do
  let ref ← self value frame
  bindName frame name.text ref
  return ref

/-- A list with the values of nodes. -/
def listOf (self : Evaluator) (elements : List Node) (span : Span) (frame : Frame) :
    Eval Ref := do
  let refs ← self.all frame elements
  let storage ← Eval.withStore fun store => store.allocStorage refs.toArray
  Eval.fresh ⟨.list storage, some span, some frame⟩

/-- Apply a binary operator to the values of two nodes. -/
def binary (self : Evaluator) (left : Node) (op : BinaryOp) (right : Node) (span : Span)
    (frame : Frame) : Eval Ref := do
  let leftRef ← self left frame
  let rightRef ← self right frame
  let result ← Eval.tryStore fun store => store.binary op leftRef rightRef
  Eval.located result span

/-- Apply a unary operator to the value of a node.  A plus changes nothing but the place; a minus
multiplies by minus one. -/
def unary (self : Evaluator) (op : UnaryOp) (operand : Node) (span : Span) (frame : Frame) :
    Eval Ref := do
  let ref ← self operand frame
  match op with
  | .plus => Eval.located ref span
  | .minus =>
      let minusOne ← Eval.fresh (Datum.number (.whole (-1))).object
      let result ← Eval.tryStore fun store => store.binary .mul ref minusOne
      Eval.located result span
  | .not =>
      let result ← Eval.tryStore fun store => store.negate ref
      Eval.located result span

/-! ## Branches and loops -/

/-- Run the body of the first condition that holds, or else the other body. -/
def cases (self : Evaluator) (frame : Frame) : List (Node × Node) → Option Node → Eval Ref
  | [], none => return Store.nullRef
  | [], some body => self.execute body frame
  | (condition, body) :: rest, otherwise => do
      if ← self.test condition frame then self.execute body frame
      else cases self frame rest otherwise

/-- Run a body as long as a condition has the given truth. -/
def whileTest (self : Evaluator) (fuel : Nat) (wanted : Bool) (condition body : Node)
    (frame : Frame) : Eval Ref :=
  Eval.loop fuel fun _ => do
    if (← self.test condition frame) = wanted then Eval.round (self body frame) else return false

/-- Run a body for each element of a list.  The list may change meanwhile: a round takes the element
that is then at its place. -/
def forEach (self : Evaluator) (fuel : Nat) (name : Name) (list body : Node) (frame : Frame) :
    Eval Ref := do
  let ref ← self list frame
  match (← Eval.object ref).datum with
  | .list storage =>
      Eval.loop fuel fun number => do
        match ← Eval.fromStore fun store => (store.elements storage)[number]? with
        | none => return false
        | some element =>
            bindName frame name.text element
            Eval.round (self body frame)
  | _ => Eval.fail .notIterable (some frame) (some list.span)

/-- Run a body a number of times. -/
def repeatTimes (self : Evaluator) (fuel : Nat) (count : Int) (body : Node) (frame : Frame) :
    Eval Ref :=
  Eval.loop fuel fun number =>
    if (number : Int) < count then Eval.round (self body frame) else return false

/-- The number of times that a value stands for. -/
def repetitions : Datum → Except Fault Int
  | .number (.whole n) => .ok n
  | .truth b => .ok (if b then 1 else 0)
  | .number _ => .error .countNotWhole
  | .text _ => .error .countNotWhole
  | _ => .error .countMissing

/-- Run a body as many times as the value of a node says. -/
def repeatBy (self : Evaluator) (fuel : Nat) (count body : Node) (frame : Frame) : Eval Ref := do
  let ref ← self count frame
  let times ← Eval.ofExcept (repetitions (← Eval.object ref).datum)
  self.repeatTimes fuel times body frame

/-! ## Procedures and calls -/

/-- Define a procedure and bind it to its name, if it has one. -/
def define (name : Option Name) (parameters : List Name) (body : Node) (span : Span)
    (frame : Frame) : Eval Ref := do
  let own := (name.map Name.text).getD Procedure.unnamed
  let procedure : Procedure := ⟨own, parameters.map Name.text, body⟩
  let ref ← Eval.fresh ⟨.procedure procedure, some span, some frame⟩
  match name with
  | some name => bindName frame name.text ref
  | none => pure ()
  return ref

/-- Bind arguments to parameters; the arguments belong to the activation from then on. -/
def bindArguments (frame : Frame) : List String → List Ref → Store → Store
  | name :: names, ref :: refs, store =>
      bindArguments frame names refs ((store.setFrame ref frame).bind frame.scope name ref)
  | _, _, store => store

/-- Enter a procedure: a new activation with a scope inside that of the procedure's activation, in
which the parameters are bound. -/
def enter (callee : Object) (name : String) (parameters : List String) (arguments : List Ref)
    (span : Span) : Eval Frame := do
  match callee.frame with
  | none => Eval.abort .noScope
  | some caller =>
      let scope ← Eval.withStore fun store => store.pushScope caller.scope
      let frame := Frame.call name span.start caller scope
      if parameters.length < arguments.length then
        Eval.fail (.tooManyArguments (arguments.length - parameters.length) name) (some caller)
          (some span)
      else if arguments.length < parameters.length then
        Eval.fail (.tooFewArguments (parameters.length - arguments.length) name) (some caller)
          (some span)
      else
        Eval.modifyStore (bindArguments frame parameters arguments)
        return frame

/-- Run a program in the main scope.  It may end in a signal, which is then forgotten. -/
def runSource (self : Evaluator) (source : Source) : Eval (Option Ref) :=
  match source.parse with
  | .ok tree => Eval.program (self tree (.program Store.globalScope))
  | .error stop => Eval.halt stop

/-- Start a value with arguments, at the place of the call. -/
def invoke (self : Evaluator) (callee : Object) (arguments : List Ref) (span : Span) :
    Eval Ref := do
  match callee.datum with
  | .procedure procedure =>
      let frame ← enter callee procedure.name procedure.parameters arguments span
      Eval.callBody (self procedure.body frame)
  | .builtin builtin =>
      let frame ← enter callee builtin.name builtin.parameters arguments span
      builtin.perform (fun source => discard (self.runSource source)) ⟨span, frame⟩ arguments
  | _ => Eval.abort .notCallable

/-- Call the value of a node with the values of nodes. -/
def call (self : Evaluator) (callee : Node) (arguments : List Node) (span : Span) (frame : Frame) :
    Eval Ref := do
  let calleeRef ← self callee frame
  let calleeObject ← Eval.object calleeRef
  let argumentRefs ← self.all frame arguments
  let result ← self.invoke calleeObject argumentRefs span
  Eval.takenOver result span frame

/-- Return from a call, with the value of a node if there is one. -/
def returnFrom (self : Evaluator) (value : Option Node) (frame : Frame) : Eval Ref := do
  match value with
  | some node =>
      let ref ← self node frame
      Eval.send (.returning ref)
  | none => Eval.send (.returning Store.nullRef)

/-- Evaluate a node over the evaluation of its parts. -/
def step (self : Evaluator) (fuel : Nat) (node : Node) (frame : Frame) : Eval Ref :=
  match node with
  | .number value span => Eval.fresh ⟨.number value, some span, some frame⟩
  | .truth value span => Eval.fresh ⟨.truth value, some span, some frame⟩
  | .text value span => Eval.fresh ⟨.text value, some span, some frame⟩
  | .list elements span => self.listOf elements span frame
  | .access name => access name frame
  | .assign name value _ => self.assign name value frame
  | .binary left op _ right span => self.binary left op right span frame
  | .unary op _ operand span => self.unary op operand span frame
  | .branch condition body others otherwise _ =>
      self.cases frame ((condition, body) :: others) otherwise
  | .forEach name list body _ => self.forEach fuel name list body frame
  | .whileLoop condition body _ => self.whileTest fuel true condition body frame
  | .untilLoop condition body _ => self.whileTest fuel false condition body frame
  | .repeatFixed count _ body _ => self.repeatTimes fuel count body frame
  | .repeatBy count body _ => self.repeatBy fuel count body frame
  | .procedure name parameters body span => define name parameters body span frame
  | .call callee arguments span => self.call callee arguments span frame
  | .returning value _ => self.returnFrom value frame
  | .continuing _ => Eval.send .continuing
  | .breaking _ => Eval.send .breaking

end Evaluator

/-- Evaluate a node in an activation, with a bound on the nesting of nodes and calls and on the
rounds of a loop. -/
def eval : Nat → Node → Frame → World → Ending Ref × World
  | 0, _, _, w => (.fault .exhausted, w)
  | fuel + 1, node, frame, w =>
      Evaluator.step (fun node frame w => eval fuel node frame w) fuel node frame w

end Pseudocode
