import Pseudocode.Proofs.Evaluation.Pairing

/-!
# What two evaluations have in common

A likeness says what two runs of an evaluator have in common at every moment: which references,
storages and activations answer to each other, and that the stores agree along these.  It is carried
over to worlds and endings here, and from these to whole evaluations.

The second run may be told to give up at certain points, the barred ones; about a run that came to
such a point nothing is said.
-/

namespace Pseudocode

/-- What two runs have in common. -/
structure Likeness where
  /-- What answers to what, as far as the runs have come. -/
  Link : Type
  /-- More answers to each other. -/
  Extends : Link → Link → Prop
  /-- The nodes that are evaluated. -/
  Nodes : Node → Node → Prop
  /-- The places that values and errors are reported at. -/
  Spans : Span → Span → Prop
  /-- The objects. -/
  Refs : Link → Ref → Ref → Prop
  /-- The storages of lists. -/
  Storages : Link → StorageId → StorageId → Prop
  /-- The activations that objects belong to. -/
  Owners : Link → Frame → Frame → Prop
  /-- The activations in which a node may be come to. -/
  Entries : Link → Frame → Frame → Prop
  /-- The activations in which a node is evaluated, unless it is barred. -/
  Frames : Link → Frame → Frame → Prop
  /-- The stores. -/
  Stores : Link → Store → Store → Prop
  /-- The errors. -/
  Errors : Diagnostic → Diagnostic → Prop
  /-- Where the second run gives up. -/
  barred : Node → Frame → World → Bool

/-- Whether an error can be rendered depends on its place only. -/
theorem Diagnostic.render_cases (d : Diagnostic) :
    (d.span = none ∧ d.render = .error .noPosition) ∨
      ∃ span report, d.span = some span ∧ d.render = .ok report := by
  obtain ⟨problem, span⟩ := d
  cases span with
  | none => exact .inl ⟨rfl, rfl⟩
  | some span =>
      right
      cases problem <;> exact ⟨span, _, rfl, rfl⟩

namespace Likeness

variable {α ε : Type}

/-- Results that are the same. -/
def Same (like : Likeness) (_ : like.Link) (a b : α) : Prop :=
  a = b

/-- Nodes of one kind whose parts answer to each other. -/
abbrev Shapes (like : Likeness) : Node → Node → Prop :=
  Node.Paired like.Nodes like.Nodes like.Nodes like.Spans

/-- Data of one kind whose parts answer to each other. -/
abbrev Data (like : Likeness) (link : like.Link) : Datum → Datum → Prop :=
  Datum.Paired like.Nodes (like.Storages link)

/-- Objects whose parts answer to each other. -/
abbrev Objects (like : Likeness) (link : like.Link) : Object → Object → Prop :=
  Object.Paired (like.Data link) like.Spans (like.Owners link)

/-- Worlds that differ in the store only, and there no more than the runs may. -/
structure Worlds (like : Likeness) (link : like.Link) (w v : World) : Prop where
  stores : like.Stores link w.store v.store
  input : w.input = v.input
  output : w.output = v.output
  robot : w.robot = v.robot
  scripts : w.scripts = v.scripts
  generator : w.generator = v.generator

/-- Signals that answer to each other. -/
abbrev Signals (like : Likeness) (link : like.Link) : Signal → Signal → Prop :=
  Signal.Paired (like.Refs link)

/-- Endings that answer to each other, given which results do. -/
abbrev Endings (like : Likeness) (link : like.Link) (R : like.Link → α → α → Prop) :
    Ending α → Ending α → Prop :=
  Ending.Paired (R link) (like.Signals link) like.Errors

/-- The second run gave up, or both ended alike. -/
def Outcomes (like : Likeness) (link : like.Link) (R : like.Link → α → α → Prop)
    (o p : Ending α × World) : Prop :=
  p.1 = .fault .exhausted ∨
    ∃ later, like.Extends link later ∧ like.Worlds later o.2 p.2 ∧ like.Endings later R o.1 p.1

/-- Evaluations that take worlds that are alike to outcomes that are alike. -/
def Couples (like : Likeness) (link : like.Link) (R : like.Link → α → α → Prop)
    (e f : Eval α) : Prop :=
  ∀ w v, like.Worlds link w v → like.Outcomes link R (e w) (f v)

/-- Reasons to stop that answer to each other. -/
inductive Stops (like : Likeness) : Stop → Stop → Prop
  | error {d e : Diagnostic} (errors : like.Errors d e) : Stops like (.error d) (.error e)
  | fault (fault : Fault) : Stops like (.fault fault) (.fault fault)

/-- Work on the stores that gives references or ends for reasons that answer to each other. -/
inductive Works (like : Likeness) (link : like.Link) (S : ε → ε → Prop) :
    Except ε Ref × Store → Except ε Ref × Store → Prop
  | ok {later : like.Link} {r r' : Ref} {s t : Store} (further : like.Extends link later)
      (stores : like.Stores later s t) (refs : like.Refs later r r') :
      Works like link S (.ok r, s) (.ok r', t)
  | error {d e : ε} {s t : Store} (stores : like.Stores link s t) (reasons : S d e) :
      Works like link S (.error d, s) (.error e, t)

end Likeness

end Pseudocode
