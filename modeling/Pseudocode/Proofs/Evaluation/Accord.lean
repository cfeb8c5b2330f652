import Pseudocode.Proofs.Evaluation.Pairing
import Pseudocode.Proofs.Evaluation.Scalars
import Pseudocode.Proofs.Parsing.Placement

/-!
# Evaluations in accord

What is true of all evaluations is shown of two runs at once: of a run and one that goes along with
it, gives up earlier or runs a program that is a little different.  A comparison says what the two
have in common; an accord has a law for every part that evaluations are made of.  From the laws
alone the constructs of the language are shown to be in accord, once for all comparisons.
-/

namespace Pseudocode

/-- What a program can order the robot to do. -/
inductive Robot.IsOrder : (Robot → Answer Unit) → Prop
  | createGrid : IsOrder createGrid
  | moveForward : IsOrder moveForward
  | rotateLeft : IsOrder rotateLeft
  | rotateRight : IsOrder rotateRight

/-- What two runs are compared by.  A flag says whether an evaluation takes place in the body of a
loop, where signals for the loop may be sent. -/
structure Comparison where
  /-- What answers to what, as far as the runs have come. -/
  Link : Type
  /-- More answers to each other. -/
  Extends : Link → Link → Prop
  /-- The nodes that are evaluated. -/
  Nodes : Bool → Node → Node → Prop
  /-- The places that values and errors are reported at. -/
  Spans : Span → Span → Prop
  /-- The objects. -/
  Refs : Link → Ref → Ref → Prop
  /-- The objects that are values of nodes. -/
  Values : Link → Ref → Ref → Prop
  /-- The storages of lists. -/
  Storages : Link → StorageId → StorageId → Prop
  /-- The activations that objects belong to. -/
  Owners : Link → Frame → Frame → Prop
  /-- The activations in which a node may be come to. -/
  Entries : Link → Frame → Frame → Prop
  /-- The activations in which a node is evaluated, unless it is barred. -/
  Frames : Link → Frame → Frame → Prop
  /-- The bounds on the nesting of nodes and on the rounds of loops. -/
  Bounds : Nat → Nat → Prop
  /-- The programs that are run. -/
  Runs : Source → Prop
  /-- The worlds in which evaluations start. -/
  Worlds : Link → World → World → Prop
  /-- What evaluations come to, given which results answer to each other. -/
  Outcomes {α : Type} : Bool → Link → (Link → α → α → Prop) →
    Ending α × World → Ending α × World → Prop
  /-- Where the second run gives up. -/
  barred : Node → Frame → World → Bool

namespace Comparison

variable {α : Type}

/-- Evaluations that take worlds that are compared to outcomes that are. -/
def Rel (c : Comparison) (b : Bool) (link : c.Link) (R : c.Link → α → α → Prop) (e f : Eval α) :
    Prop :=
  ∀ w v, c.Worlds link w v → c.Outcomes b link R (e w) (f v)

/-- Results that are the same. -/
def Same (c : Comparison) (_ : c.Link) (a a' : α) : Prop :=
  a = a'

/-- References that answer to each other, in a row. -/
def RefLists (c : Comparison) (link : c.Link) : List Ref → List Ref → Prop :=
  List.Forall₂ (c.Refs link)

/-- Nodes of one kind whose parts answer to each other. -/
abbrev Shapes (c : Comparison) (b : Bool) : Node → Node → Prop :=
  Node.Paired (c.Nodes b) (c.Nodes true) (c.Nodes false) c.Spans

/-- Data of one kind whose parts answer to each other. -/
abbrev Data (c : Comparison) (link : c.Link) : Datum → Datum → Prop :=
  Datum.Paired (c.Nodes false) (c.Storages link)

/-- Objects whose parts answer to each other. -/
abbrev Objects (c : Comparison) (link : c.Link) : Object → Object → Prop :=
  Object.Paired (c.Data link) c.Spans (c.Owners link)

end Comparison

open Pairing in
/-- Comparisons that all parts of evaluations keep up. -/
structure Accord extends Comparison where
  -- What answers to each other goes on to do so, as values, as parts and in activations.
  extends_refl (link : Link) : Extends link link
  extends_trans {x y z : Link} : Extends x y → Extends y z → Extends x z
  refs_mono {x y : Link} {r r' : Ref} : Extends x y → Refs x r r' → Refs y r r'
  values_mono {x y : Link} {r r' : Ref} : Extends x y → Values x r r' → Values y r r'
  storages_mono {x y : Link} {t u : StorageId} : Extends x y → Storages x t u → Storages y t u
  owners_mono {x y : Link} {f g : Frame} : Extends x y → Owners x f g → Owners y f g
  frames_mono {x y : Link} {f g : Frame} : Extends x y → Frames x f g → Frames y f g
  refs_of_values {link : Link} {r r' : Ref} : Values link r r' → Refs link r r'
  owners_of_frames {link : Link} {f g : Frame} : Frames link f g → Owners link f g
  entries_of_frames {link : Link} {f g : Frame} : Frames link f g → Entries link f g
  spans_of_nodes {b : Bool} {n m : Node} : Nodes b n m → Spans n.span m.span
  shapes_of_nodes {b : Bool} {n m : Node} : Nodes b n m → toComparison.Shapes b n m
  nodes_of_runs {source : Source} {tree : Node} : Runs source → source.parse = .ok tree →
    Nodes true tree tree
  bounds_succ {fuel fuel' : Nat} : Bounds fuel (fuel' + 1) →
    ∃ less, fuel = less + 1 ∧ Bounds less fuel'
  -- Evaluations one after the other, and how they end.
  rel_pure {α : Type} {b : Bool} {link : Link} {R : Link → α → α → Prop} {a a' : α} :
    R link a a' → toComparison.Rel b link R (pure a) (pure a')
  rel_bind {α β : Type} {b : Bool} {link : Link} {R : Link → α → α → Prop}
    {S : Link → β → β → Prop} {e f : Eval α} {k l : α → Eval β} :
    toComparison.Rel b link R e f →
    (∀ later a a', Extends link later → R later a a' →
      toComparison.Rel b later S (k a) (l a')) →
    toComparison.Rel b link S (e >>= k) (f >>= l)
  rel_abort {α : Type} {b : Bool} {link : Link} {R : Link → α → α → Prop} (fault : Fault) :
    toComparison.Rel b link R (Eval.abort fault) (Eval.abort fault)
  rel_exhausted {α : Type} {b : Bool} {link : Link} {R : Link → α → α → Prop} {fuel : Nat}
    {e : Nat → Eval α} : Bounds fuel 0 → e 0 = Eval.abort .exhausted →
    toComparison.Rel b link R (e fuel) (Eval.abort .exhausted)
  rel_early {α : Type} {b : Bool} {link : Link} {R : Link → α → α → Prop} {stop : Stop} :
    stop.Early → toComparison.Rel b link R (Eval.halt stop) (Eval.halt stop)
  rel_fail {α : Type} {b : Bool} {link : Link} {R : Link → α → α → Prop} {f g : Frame}
    {p q : Span} (what : RuntimeProblem) : Owners link f g → Spans p q →
    toComparison.Rel b link R (Eval.fail what (some f) (some p)) (Eval.fail what (some g) (some q))
  rel_return {α : Type} {b : Bool} {link : Link} {R : Link → α → α → Prop} {r r' : Ref} :
    Refs link r r' →
    toComparison.Rel b link R (Eval.send (.returning r)) (Eval.send (.returning r'))
  rel_break {α : Type} {b : Bool} {link : Link} {R : Link → α → α → Prop} {p q : Span} :
    Nodes b (.breaking p) (.breaking q) →
    toComparison.Rel b link R (Eval.send .breaking) (Eval.send .breaking)
  rel_continue {α : Type} {b : Bool} {link : Link} {R : Link → α → α → Prop} {p q : Span} :
    Nodes b (.continuing p) (.continuing q) →
    toComparison.Rel b link R (Eval.send .continuing) (Eval.send .continuing)
  -- What takes signals and errors.  A body is evaluated as that of a loop or not, whatever the flag
  -- of the whole.
  rel_callBody {α : Type} {b : Bool} {link : Link} {R : Link → α → α → Prop} {e f : Eval α} :
    toComparison.Rel false link R e f →
    toComparison.Rel b link Refs (Eval.callBody e) (Eval.callBody f)
  rel_round {α : Type} {b : Bool} {link : Link} {R : Link → α → α → Prop} {e f : Eval α} :
    toComparison.Rel true link R e f →
    toComparison.Rel b link toComparison.Same (Eval.round e) (Eval.round f)
  rel_program {α : Type} {b : Bool} {link : Link} {R : Link → α → α → Prop} {e f : Eval α} :
    (Entries link (.program Store.globalScope) (.program Store.globalScope) →
      toComparison.Rel true link R e f) →
    toComparison.Rel b link (fun later => Option.Rel (R later)) (Eval.program e) (Eval.program f)
  rel_runScript {b : Bool} {link : Link} {e f : Eval Unit} {g h : Frame} {p q : Span}
    (name : String) : toComparison.Rel b link toComparison.Same e f → Frames link g h →
    Spans p q → toComparison.Rel b link toComparison.Same (Builtin.runScript ⟨p, g⟩ name e)
      (Builtin.runScript ⟨q, h⟩ name f)
  -- The store.  Only fresh objects at a place and objects taken over become values of nodes.
  rel_null {b : Bool} {link : Link} :
    toComparison.Rel b link Values (pure Store.nullRef) (pure Store.nullRef)
  rel_fresh {b : Bool} {link : Link} {o p : Object} : toComparison.Objects link o p →
    o.datum ≠ .bare → o.span.isSome = true →
    toComparison.Rel b link Values (Eval.fresh o) (Eval.fresh p)
  rel_answer {b : Bool} {link : Link} {d : Datum} : d.isScalar = true →
    toComparison.Rel b link Refs (Eval.fresh d.object) (Eval.fresh d.object)
  rel_object {b : Bool} {link : Link} {r r' : Ref} : Refs link r r' →
    toComparison.Rel b link toComparison.Objects (Eval.object r) (Eval.object r')
  rel_takenOver {b : Bool} {link : Link} {r r' : Ref} {p q : Span} {f g : Frame} :
    Refs link r r' → Spans p q → Owners link f g →
    toComparison.Rel b link Values (Eval.takenOver r p f) (Eval.takenOver r' q g)
  outcomes_access {b : Bool} {link : Link} {x y : Name} {f g : Frame} {w v : World} :
    x.text = y.text → Spans x.span y.span → Frames link f g → Worlds link w v →
    barred (.access y) g v = false →
    toComparison.Outcomes b link Values (Evaluator.access x f w) (Evaluator.access y g v)
  rel_bindName {b : Bool} {link : Link} {f g : Frame} {r r' : Ref} (name : String) :
    Frames link f g → Refs link r r' → toComparison.Rel b link toComparison.Same
      (Evaluator.bindName f name r) (Evaluator.bindName g name r')
  rel_allocStorage {b : Bool} {link : Link} {refs refs' : List Ref} :
    toComparison.RefLists link refs refs' → toComparison.Rel b link Storages
      (Eval.withStore fun s => s.allocStorage refs.toArray)
      (Eval.withStore fun s => s.allocStorage refs'.toArray)
  rel_elements {b : Bool} {link : Link} {t u : StorageId} : Storages link t u →
    toComparison.Rel b link (fun later => Lists (Refs later))
      (Eval.fromStore fun s => s.elements t) (Eval.fromStore fun s => s.elements u)
  rel_updateElements {b : Bool} {link : Link} {t u : StorageId} {f g : Array Ref → Array Ref} :
    Storages link t u →
    (∀ later xs ys, Extends link later → Lists (Refs later) xs ys →
      Lists (Refs later) (f xs) (g ys)) →
    toComparison.Rel b link toComparison.Same (Eval.modifyStore fun s => s.updateElements t f)
      (Eval.modifyStore fun s => s.updateElements u g)
  rel_snapshot {b : Bool} {link : Link} {r r' : Ref} : Refs link r r' →
    toComparison.Rel b link toComparison.Same (Eval.fromStore fun s => s.snapshot r)
      (Eval.fromStore fun s => s.snapshot r')
  rel_pushScope {b : Bool} {link : Link} {f g : Frame} {p q : Span} (name : String) :
    Owners link f g → Spans p q → toComparison.Rel b link
      (fun later scope scope' =>
        Frames later (.call name p.start f scope) (.call name q.start g scope'))
      (Eval.withStore fun s => s.pushScope f.scope) (Eval.withStore fun s => s.pushScope g.scope)
  rel_bindArguments {b : Bool} {link : Link} {f g : Frame} {refs refs' : List Ref}
    (names : List String) : Frames link f g → toComparison.RefLists link refs refs' →
    toComparison.Rel b link toComparison.Same
      (Eval.modifyStore (Evaluator.bindArguments f names refs))
      (Eval.modifyStore (Evaluator.bindArguments g names refs'))
  -- The world outside.
  rel_print {b : Bool} {link : Link} (text : String) :
    toComparison.Rel b link toComparison.Same (Eval.print text) (Eval.print text)
  rel_readLine {b : Bool} {link : Link} :
    toComparison.Rel b link toComparison.Same Eval.readLine Eval.readLine
  rel_draw {b : Bool} {link : Link} (low high : Number) :
    toComparison.Rel b link toComparison.Same (Eval.draw low high) (Eval.draw low high)
  rel_order {b : Bool} {link : Link} {act : Robot → Robot.Answer Unit} {p q : Span} :
    Robot.IsOrder act → Spans p q → toComparison.Rel b link toComparison.Same
      (Eval.command (some p) act) (Eval.command (some q) act)
  rel_scripts {b : Bool} {link : Link} : toComparison.Rel b link
      (fun _ scripts scripts' => scripts = scripts' ∧
        ∀ name content, scripts.read name = .ok content → Runs ⟨name, content⟩)
      (fun w => (.value w.scripts, w)) (fun w => (.value w.scripts, w))

namespace Accord

variable {accord : Accord} {b : Bool} {link : accord.Link} {α : Type}
variable {self self' : Evaluator} {f g : Frame} {n m : Node} {p q : Span} {r r' : Ref}

/-- Evaluators that take nodes that answer to each other to outcomes that do. -/
def Evaluators (accord : Accord) (self self' : Evaluator) : Prop :=
  ∀ ⦃b : Bool⦄ ⦃link : accord.Link⦄ ⦃n m : Node⦄ ⦃f g : Frame⦄, accord.Nodes b n m →
    accord.Entries link f g → accord.Rel b link accord.Values (self n f) (self' m g)

theorem Evaluators.run (agree : accord.Evaluators self self') (nodes : accord.Nodes b n m)
    (frames : accord.Frames link f g) :
    accord.Rel b link accord.Values (self n f) (self' m g) :=
  agree nodes (accord.entries_of_frames frames)

theorem refLists_mono {later : accord.Link} {refs refs' : List Ref}
    (further : accord.Extends link later) (lists : accord.RefLists link refs refs') :
    accord.RefLists later refs refs' :=
  List.Forall₂.imp (fun _ _ => accord.refs_mono further) lists

theorem objects_mono {later : accord.Link} {o o' : Object} (further : accord.Extends link later)
    (objects : accord.Objects link o o') : accord.Objects later o o' :=
  objects.imp (fun _ _ => id) (fun _ _ => id) (fun _ _ => accord.storages_mono further)
    fun _ _ => accord.owners_mono further

theorem rel_discard {R : accord.Link → α → α → Prop} {e e' : Eval α}
    (rel : accord.Rel b link R e e') :
    accord.Rel b link accord.Same (discard e) (discard e') :=
  accord.rel_bind rel fun _ _ _ _ _ => accord.rel_pure rfl

theorem rel_ofExcept (result : Except Fault α) :
    accord.Rel b link accord.Same (Eval.ofExcept result) (Eval.ofExcept result) := by
  cases result with
  | ok value => exact accord.rel_pure rfl
  | error fault => exact accord.rel_abort fault

/-- A value that is handed on as an object. -/
theorem rel_refs {e e' : Eval Ref} (rel : accord.Rel b link accord.Values e e') :
    accord.Rel b link accord.Refs e e' := by
  rw [← bind_pure e, ← bind_pure e']
  apply accord.rel_bind rel
  intro later r r' _ values
  exact accord.rel_pure (accord.refs_of_values values)

theorem rel_all (agree : accord.Evaluators self self') {ns ms : List Node}
    (nodes : List.Forall₂ (accord.Nodes b) ns ms) (frames : accord.Frames link f g) :
    accord.Rel b link accord.RefLists (self.all f ns) (self'.all g ms) := by
  induction nodes generalizing link with
  | nil => exact accord.rel_pure .nil
  | cons first _ ih =>
      apply accord.rel_bind (rel_refs (agree.run first frames))
      intro later r r' further refs
      apply accord.rel_bind (ih (accord.frames_mono further frames))
      intro last rest rest' evenFurther lists
      exact accord.rel_pure (.cons (accord.refs_mono evenFurther refs) lists)

theorem isTrue_eq {d d' : Datum} (data : accord.Data link d d') : d.isTrue = d'.isTrue := by
  cases data <;> rfl

theorem rel_test (agree : accord.Evaluators self self') (nodes : accord.Nodes b n m)
    (frames : accord.Frames link f g) :
    accord.Rel b link accord.Same (self.test n f) (self'.test m g) := by
  apply accord.rel_bind (rel_refs (agree.run nodes frames))
  intro later r r' _ refs
  apply accord.rel_bind (accord.rel_object refs)
  intro last o o' _ objects
  exact accord.rel_pure (isTrue_eq objects.data)

theorem rel_execute (agree : accord.Evaluators self self') (nodes : accord.Nodes b n m)
    (frames : accord.Frames link f g) :
    accord.Rel b link accord.Values (self.execute n f) (self'.execute m g) := by
  apply accord.rel_bind (rel_discard (agree.run nodes frames))
  intro later _ _ _ _
  exact accord.rel_null

/-! ## Names and lists -/

theorem rel_assign (agree : accord.Evaluators self self') {x y : Name}
    (texts : x.text = y.text) (nodes : accord.Nodes b n m) (frames : accord.Frames link f g) :
    accord.Rel b link accord.Values (self.assign x n f) (self'.assign y m g) := by
  apply accord.rel_bind (agree.run nodes frames)
  intro later r r' further values
  rw [texts]
  apply accord.rel_bind (accord.rel_bindName _ (accord.frames_mono further frames)
    (accord.refs_of_values values))
  intro last _ _ evenFurther _
  exact accord.rel_pure (accord.values_mono evenFurther values)

theorem rel_listOf (agree : accord.Evaluators self self') {ns ms : List Node}
    (nodes : List.Forall₂ (accord.Nodes b) ns ms) (spans : accord.Spans p q)
    (frames : accord.Frames link f g) :
    accord.Rel b link accord.Values (self.listOf ns p f) (self'.listOf ms q g) := by
  apply accord.rel_bind (rel_all agree nodes frames)
  intro later refs refs' further lists
  apply accord.rel_bind (accord.rel_allocStorage lists)
  intro last t u evenFurther storages
  have moved := accord.frames_mono evenFurther (accord.frames_mono further frames)
  exact accord.rel_fresh ⟨.list storages, .some spans, .some (accord.owners_of_frames moved)⟩
    (fun bare => by cases bare) rfl

/-! ## Branches and loops -/

theorem rel_cases (agree : accord.Evaluators self self') {cs ds : List (Node × Node)}
    {e e' : Option Node}
    (guards : List.Forall₂ (fun c d => accord.Nodes b c.1 d.1 ∧ accord.Nodes b c.2 d.2) cs ds)
    (otherwise : Option.Rel (accord.Nodes b) e e') (frames : accord.Frames link f g) :
    accord.Rel b link accord.Values (self.cases f cs e) (self'.cases g ds e') := by
  induction guards generalizing link with
  | nil =>
      cases otherwise with
      | some body => exact rel_execute agree body frames
      | none => exact accord.rel_null
  | cons first _ ih =>
      apply accord.rel_bind (rel_test agree first.1 frames)
      intro later holds holds' further same
      cases same
      have moved := accord.frames_mono further frames
      cases holds with
      | true => exact rel_execute agree first.2 moved
      | false => exact ih moved

end Accord

theorem Eval.rounds_succ (step : Nat → Eval Bool) (fuel number : Nat) :
    rounds step (fuel + 1) number =
      Eval.bind (step number) fun goesOn =>
        if goesOn then rounds step fuel (number + 1) else Eval.pure () := by
  funext w
  rw [rounds, Eval.bind]
  generalize step number w = outcome
  obtain ⟨ending, after⟩ := outcome
  cases ending with
  | value goesOn => cases goesOn <;> rfl
  | signal | error | fault => rfl

namespace Accord

variable {accord : Accord} {b : Bool} {link : accord.Link} {α : Type}
variable {self self' : Evaluator} {f g : Frame} {n m : Node} {p q : Span} {r r' : Ref}
variable {fuel fuel' : Nat}

theorem rel_rounds {step step' : Nat → Eval Bool}
    (steps : ∀ later number, accord.Extends link later →
      accord.Rel b later accord.Same (step number) (step' number))
    (bounds : accord.Bounds fuel fuel') (number : Nat) :
    accord.Rel b link accord.Same (Eval.rounds step fuel number)
      (Eval.rounds step' fuel' number) := by
  induction fuel' generalizing link fuel number with
  | zero => exact accord.rel_exhausted (e := fun fuel => Eval.rounds step fuel number) bounds rfl
  | succ fuel' ih =>
      obtain ⟨fuel, rfl, fewer⟩ := accord.bounds_succ bounds
      rw [Eval.rounds_succ, Eval.rounds_succ]
      apply accord.rel_bind (steps link number (accord.extends_refl link))
      intro later goesOn goesOn' further same
      cases same
      cases goesOn with
      | true =>
          apply ih _ fewer
          intro last number evenFurther
          exact steps last number (accord.extends_trans further evenFurther)
      | false => exact accord.rel_pure rfl

theorem rel_loop {step step' : Nat → Eval Bool} (bounds : accord.Bounds fuel fuel')
    (steps : ∀ later number, accord.Extends link later →
      accord.Rel b later accord.Same (step number) (step' number)) :
    accord.Rel b link accord.Values (Eval.loop fuel step) (Eval.loop fuel' step') := by
  apply accord.rel_bind (rel_rounds steps bounds 0)
  intro later _ _ _ _
  exact accord.rel_null

theorem rel_whileTest (agree : accord.Evaluators self self') {body body' : Node}
    (bounds : accord.Bounds fuel fuel') (wanted : Bool) (conditions : accord.Nodes b n m)
    (bodies : accord.Nodes true body body') (frames : accord.Frames link f g) :
    accord.Rel b link accord.Values (self.whileTest fuel wanted n body f)
      (self'.whileTest fuel' wanted m body' g) := by
  apply rel_loop bounds
  intro later number further
  have moved := accord.frames_mono further frames
  apply accord.rel_bind (rel_test agree conditions moved)
  intro last holds holds' evenFurther same
  cases same
  split
  · exact accord.rel_round (agree.run bodies (accord.frames_mono evenFurther moved))
  · exact accord.rel_pure rfl

theorem rel_element {t u : StorageId} (number : Nat) (storages : accord.Storages link t u) :
    accord.Rel b link (fun later => Option.Rel (accord.Refs later))
      (Eval.fromStore fun store => (store.elements t)[number]?)
      (Eval.fromStore fun store => (store.elements u)[number]?) := by
  have looked (t : StorageId) : (Eval.fromStore fun store => (store.elements t)[number]?) =
      (Eval.fromStore fun store => store.elements t) >>= fun xs => pure xs[number]? := rfl
  rw [looked, looked]
  apply accord.rel_bind (accord.rel_elements storages)
  intro later xs ys _ lists
  exact accord.rel_pure (lists.getElem? number)

theorem rel_forEach (agree : accord.Evaluators self self') {x y : Name} {body body' : Node}
    (bounds : accord.Bounds fuel fuel') (texts : x.text = y.text) (lists : accord.Nodes b n m)
    (bodies : accord.Nodes true body body') (frames : accord.Frames link f g) :
    accord.Rel b link accord.Values (self.forEach fuel x n body f)
      (self'.forEach fuel' y m body' g) := by
  apply accord.rel_bind (rel_refs (agree.run lists frames))
  intro second r r' further refs
  apply accord.rel_bind (accord.rel_object refs)
  intro third o o' evenFurther objects
  have moved := accord.frames_mono evenFurther (accord.frames_mono further frames)
  obtain ⟨d, span, frame⟩ := o
  obtain ⟨d', span', frame'⟩ := o'
  have failed := accord.rel_fail (b := b) (R := accord.Values) .notIterable
    (accord.owners_of_frames moved) (accord.spans_of_nodes lists)
  cases objects.data with
  | list storages =>
      apply rel_loop bounds
      intro fourth number onward
      apply accord.rel_bind (rel_element number (accord.storages_mono onward storages))
      intro fifth a a' again found
      have here := accord.frames_mono again (accord.frames_mono onward moved)
      cases found with
      | none => exact accord.rel_pure rfl
      | some element =>
          rw [texts]
          apply accord.rel_bind (accord.rel_bindName _ here element)
          intro last _ _ thence _
          exact accord.rel_round (agree.run bodies (accord.frames_mono thence here))
  | number | truth | text | procedure | builtin | bare => exact failed

theorem rel_repeatTimes (agree : accord.Evaluators self self') {body body' : Node}
    (bounds : accord.Bounds fuel fuel') (count : Int) (bodies : accord.Nodes true body body')
    (frames : accord.Frames link f g) :
    accord.Rel b link accord.Values (self.repeatTimes fuel count body f)
      (self'.repeatTimes fuel' count body' g) := by
  apply rel_loop bounds
  intro later number further
  split
  · exact accord.rel_round (agree.run bodies (accord.frames_mono further frames))
  · exact accord.rel_pure rfl

theorem repetitions_eq {d d' : Datum} (data : accord.Data link d d') :
    Evaluator.repetitions d = Evaluator.repetitions d' := by
  cases data <;> rfl

theorem rel_repeatBy (agree : accord.Evaluators self self') {body body' : Node}
    (bounds : accord.Bounds fuel fuel') (counts : accord.Nodes b n m)
    (bodies : accord.Nodes true body body') (frames : accord.Frames link f g) :
    accord.Rel b link accord.Values (self.repeatBy fuel n body f)
      (self'.repeatBy fuel' m body' g) := by
  apply accord.rel_bind (rel_refs (agree.run counts frames))
  intro second r r' further refs
  apply accord.rel_bind (accord.rel_object refs)
  intro third o o' evenFurther objects
  rw [repetitions_eq objects.data]
  apply accord.rel_bind (rel_ofExcept _)
  intro last times times' onward same
  cases same
  have moved := accord.frames_mono evenFurther (accord.frames_mono further frames)
  exact rel_repeatTimes agree bounds times bodies (accord.frames_mono onward moved)

/-! ## Procedures -/

theorem rel_define {x y : Option Name} {ps qs : List Name}
    (names : Option.Rel (fun a a' => a.text = a'.text) x y)
    (parameters : ps.map Name.text = qs.map Name.text) (bodies : accord.Nodes false n m)
    (spans : accord.Spans p q) (frames : accord.Frames link f g) :
    accord.Rel b link accord.Values (Evaluator.define x ps n p f)
      (Evaluator.define y qs m q g) := by
  have owners := accord.owners_of_frames frames
  have fresh (name : String) : accord.Rel b link accord.Values
      (Eval.fresh ⟨.procedure ⟨name, ps.map Name.text, n⟩, some p, some f⟩)
      (Eval.fresh ⟨.procedure ⟨name, ps.map Name.text, m⟩, some q, some g⟩) :=
    accord.rel_fresh ⟨.procedure _ _ bodies, .some spans, .some owners⟩
      (fun bare => by cases bare) rfl
  unfold Evaluator.define
  rw [← parameters]
  cases names with
  | none =>
      apply accord.rel_bind (fresh _)
      intro later r r' further values
      exact accord.rel_pure values
  | @some x y texts =>
      dsimp only [Option.map_some, Option.getD_some]
      rw [texts]
      apply accord.rel_bind (fresh _)
      intro later r r' further values
      apply accord.rel_bind (accord.rel_bindName _ (accord.frames_mono further frames)
        (accord.refs_of_values values))
      intro last _ _ evenFurther _
      exact accord.rel_pure (accord.values_mono evenFurther values)

theorem rel_enter {o o' : Object} {refs refs' : List Ref} (name : String)
    (parameters : List String) (owners : Option.Rel (accord.Owners link) o.frame o'.frame)
    (lists : accord.RefLists link refs refs') (spans : accord.Spans p q) :
    accord.Rel b link accord.Frames (Evaluator.enter o name parameters refs p)
      (Evaluator.enter o' name parameters refs' q) := by
  unfold Evaluator.enter
  generalize o.frame = x at owners ⊢
  generalize o'.frame = y at owners ⊢
  cases owners with
  | none => exact accord.rel_abort _
  | some owners =>
      apply accord.rel_bind (accord.rel_pushScope name owners spans)
      intro later scope scope' further frames
      have moved := accord.owners_mono further owners
      rw [List.Forall₂.length_eq lists]
      split
      · exact accord.rel_fail _ moved spans
      · split
        · exact accord.rel_fail _ moved spans
        · apply accord.rel_bind
            (accord.rel_bindArguments parameters frames (refLists_mono further lists))
          intro last _ _ evenFurther _
          exact accord.rel_pure (accord.frames_mono evenFurther frames)

theorem rel_returnFrom (agree : accord.Evaluators self self') {n m : Option Node}
    (nodes : Option.Rel (accord.Nodes b) n m) (frames : accord.Frames link f g) :
    accord.Rel b link accord.Values (self.returnFrom n f) (self'.returnFrom m g) := by
  have sent {e e' : Eval Ref} (rel : accord.Rel b link accord.Values e e') :
      accord.Rel b link accord.Values (do Eval.send (.returning (← e)))
        (do Eval.send (.returning (← e'))) := by
    apply accord.rel_bind (rel_refs rel)
    intro later r r' _ refs
    exact accord.rel_return refs
  cases nodes with
  | some nodes => exact sent (agree.run nodes frames)
  | none => exact sent accord.rel_null

theorem rel_runSource (agree : accord.Evaluators self self') {source : Source}
    (runs : accord.Runs source) :
    accord.Rel b link (fun later => Option.Rel (accord.Values later)) (self.runSource source)
      (self'.runSource source) := by
  unfold Evaluator.runSource
  cases parsed : source.parse with
  | ok tree =>
      apply accord.rel_program
      intro entries
      exact agree (accord.nodes_of_runs runs parsed) entries
  | error stop => exact accord.rel_early (Source.early_parse parsed)

end Accord
end Pseudocode
