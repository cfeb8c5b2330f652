import Pseudocode.Proofs.Evaluation.Traversal
import Pseudocode.Session

/-!
# Signals that stay in their procedure

A `BREAK` or `CONTINUE` is enclosed if it stands in the body of a loop of its own procedure.  Where
all procedures enclose their signals, evaluation contains them: outside the body of a loop no signal
for a loop is ever sent, and all procedures that a run defines enclose their signals as well.
-/

namespace Pseudocode

/-! ## Trees whose signals are enclosed -/

mutual

/-- Whether every `BREAK` and `CONTINUE` in a tree stands in the body of a loop of its own
procedure.  The flag says whether the tree itself stands in the body of a loop. -/
def Node.enclosed : Bool → Node → Bool
  | _, .number _ _ => true
  | _, .truth _ _ => true
  | _, .text _ _ => true
  | _, .access _ => true
  | inLoop, .list elements _ => allEnclosed inLoop elements
  | inLoop, .assign _ value _ => value.enclosed inLoop
  | inLoop, .binary left _ _ right _ => left.enclosed inLoop && right.enclosed inLoop
  | inLoop, .unary _ _ operand _ => operand.enclosed inLoop
  | inLoop, .branch condition body others otherwise _ =>
      condition.enclosed inLoop && body.enclosed inLoop && guardsEnclosed inLoop others &&
        optionEnclosed inLoop otherwise
  | inLoop, .forEach _ list body _ => list.enclosed inLoop && body.enclosed true
  | inLoop, .whileLoop condition body _ => condition.enclosed inLoop && body.enclosed true
  | inLoop, .untilLoop condition body _ => condition.enclosed inLoop && body.enclosed true
  | _, .repeatFixed _ _ body _ => body.enclosed true
  | inLoop, .repeatBy count body _ => count.enclosed inLoop && body.enclosed true
  | _, .procedure _ _ body _ => body.enclosed false
  | inLoop, .call callee arguments _ => callee.enclosed inLoop && allEnclosed inLoop arguments
  | inLoop, .returning value _ => optionEnclosed inLoop value
  | inLoop, .continuing _ => inLoop
  | inLoop, .breaking _ => inLoop

/-- The same of trees in a row. -/
def allEnclosed : Bool → List Node → Bool
  | _, [] => true
  | inLoop, node :: nodes => node.enclosed inLoop && allEnclosed inLoop nodes

/-- The same of a condition and its body. -/
def guardEnclosed : Bool → Node × Node → Bool
  | inLoop, (condition, body) => condition.enclosed inLoop && body.enclosed inLoop

/-- The same of conditions and their bodies. -/
def guardsEnclosed : Bool → List (Node × Node) → Bool
  | _, [] => true
  | inLoop, guard :: guards => guardEnclosed inLoop guard && guardsEnclosed inLoop guards

/-- The same of a tree, if there is one. -/
def optionEnclosed : Bool → Option Node → Bool
  | _, none => true
  | inLoop, some node => node.enclosed inLoop

end

/-- Whether the body of a procedure encloses its signals. -/
def Datum.enclosed : Datum → Bool
  | .procedure value => value.body.enclosed false
  | _ => true

theorem Datum.enclosed_of_isScalar {d : Datum} (scalar : d.isScalar = true) :
    d.enclosed = true := by
  cases d with
  | procedure value => cases scalar
  | number | truth | text | list | builtin | bare => rfl

/-- All procedures in a store enclose their signals. -/
def Store.Enclosed (s : Store) : Prop :=
  ∀ object ∈ s.objects, object.datum.enclosed = true

/-- All procedures that there are and all that a script can define enclose their signals.  The
signals of a script itself end the script. -/
structure World.Enclosed (w : World) : Prop where
  store : w.store.Enclosed
  scripts : ∀ name content tree, w.scripts.read name = .ok content →
    Source.parse ⟨name, content⟩ = .ok tree → tree.enclosed true = true

namespace Store.Enclosed

variable {s : Store}

theorem object (enclosed : s.Enclosed) (ref : Ref) : (s.object ref).datum.enclosed = true := by
  rw [Store.object, Array.getD_eq_getD_getElem?]
  cases found : s.objects[ref.index]? with
  | none => rfl
  | some object => exact enclosed object (Array.mem_of_getElem? found)

theorem alloc (enclosed : s.Enclosed) {object : Object} (new : object.datum.enclosed = true) :
    (s.alloc object).2.Enclosed := by
  intro other member
  obtain old | rfl := Array.mem_push.mp member
  · exact enclosed other old
  · exact new

theorem modify (enclosed : s.Enclosed) {change : Object → Object}
    (data : ∀ o, (change o).datum = o.datum) (place : Nat) :
    Store.Enclosed { s with objects := s.objects.modify place change } := by
  intro object member
  obtain ⟨index, found⟩ := Array.getElem?_of_mem member
  rw [Array.getElem?_modify] at found
  split at found
  · obtain ⟨old, here, rfl⟩ := Option.map_eq_some_iff.mp found
    rw [data]
    exact enclosed old (Array.mem_of_getElem? here)
  · exact enclosed object (Array.mem_of_getElem? found)

theorem setSpan (enclosed : s.Enclosed) (ref : Ref) (span : Span) :
    (s.setSpan ref span).Enclosed := by
  apply enclosed.modify
  intro o
  rfl

theorem setFrame (enclosed : s.Enclosed) (ref : Ref) (frame : Frame) :
    (s.setFrame ref frame).Enclosed := by
  apply enclosed.modify
  intro o
  rfl

theorem copy (enclosed : s.Enclosed) (ref : Ref) : (s.copy ref).2.Enclosed := by
  unfold Store.copy
  dsimp only
  split
  · exact enclosed
  · exact enclosed.alloc (enclosed.object ref)

theorem listOperation (enclosed : s.Enclosed) (op : BinaryOp) {left : Object}
    (held : left.datum.enclosed = true) (storage : StorageId) (right : Ref) :
    (s.listOperation op left storage right).2.Enclosed := by
  have changed (change : Array Ref → Array Ref) :
      ((s.updateElements storage change).yield left).2.Enclosed :=
    alloc (s := s.updateElements storage change) enclosed held
  unfold Store.listOperation
  split
  · exact changed _
  · split
    · exact changed _
    · exact enclosed
  · exact changed _
  · split <;> exact enclosed
  · exact enclosed

theorem binary (enclosed : s.Enclosed) (op : BinaryOp) (left right : Ref) :
    (s.binary op left right).2.Enclosed := by
  change (s.operate op (s.object left) right).2.Enclosed
  unfold Store.operate
  split
  · exact enclosed.listOperation op (enclosed.object left) _ right
  · split
    · next run =>
        exact enclosed.alloc (Datum.enclosed_of_isScalar (Datum.isScalar_scalarOperation run))
    · exact enclosed

theorem negate (enclosed : s.Enclosed) (ref : Ref) : (s.negate ref).2.Enclosed := by
  unfold Store.negate
  dsimp only
  split
  · exact enclosed.alloc rfl
  · exact enclosed

theorem bindArguments (enclosed : s.Enclosed) (frame : Frame) (names : List String)
    (refs : List Ref) : (Evaluator.bindArguments frame names refs s).Enclosed := by
  induction names generalizing refs s with
  | nil => exact enclosed
  | cons name names ih =>
      cases refs with
      | nil => exact enclosed
      | cons ref refs =>
          have bound : ((s.setFrame ref frame).bind frame.scope name ref).Enclosed :=
            enclosed.setFrame ref frame
          exact ih bound refs

end Store.Enclosed

/-! ## Evaluations -/

/-- An ending with a value that satisfies a condition or, only in the body of a loop, with a signal
for the loop.  Nothing is said about other endings. -/
def Ending.Held {α : Type} (inLoop : Bool) (R : α → Prop) : Ending α → Prop
  | .value result => R result
  | .signal (.returning _) => True
  | .signal _ => inLoop = true
  | .error _ => True
  | .fault _ => True

theorem Ending.Held.imp {α : Type} {inLoop : Bool} {R S : α → Prop} {ending : Ending α}
    (held : ending.Held inLoop R) (implies : ∀ a, R a → S a) : ending.Held inLoop S := by
  cases ending with
  | value a => exact implies a held
  | signal signal => cases signal <;> exact held
  | error | fault => trivial

/-- An evaluation that keeps all procedures enclosed and has such an ending. -/
def Eval.Holds {α : Type} (inLoop : Bool) (R : α → Prop) (e : Eval α) : Prop :=
  ∀ w : World, w.Enclosed → (e w).2.Enclosed ∧ (e w).1.Held inLoop R

/-- No condition on a value. -/
def Anything {α : Type} (_ : α) : Prop := True

namespace Eval

variable {α β : Type} {inLoop : Bool} {R : α → Prop} {S : β → Prop}

theorem holds_pure {result : α} (holds : R result) :
    Holds inLoop R (pure result) :=
  fun _ enclosed => ⟨enclosed, holds⟩

theorem holds_bind {first : Eval α} {next : α → Eval β} (before : first.Holds inLoop R)
    (later : ∀ a, R a → (next a).Holds inLoop S) : (first >>= next).Holds inLoop S := by
  intro w enclosed
  have held := before w enclosed
  change (Eval.bind first next w).2.Enclosed ∧ (Eval.bind first next w).1.Held inLoop S
  unfold Eval.bind
  generalize first w = outcome at held ⊢
  obtain ⟨ending, after⟩ := outcome
  cases ending with
  | value a => exact later a held.2 after held.1
  | signal signal => cases signal <;> exact held
  | error | fault => exact held

theorem Holds.anything {e : Eval α} (holds : e.Holds inLoop R) : e.Holds inLoop Anything :=
  fun w enclosed => ⟨(holds w enclosed).1, (holds w enclosed).2.imp fun _ _ => trivial⟩

theorem holds_raise (diagnostic : Diagnostic) : Holds inLoop R (raise diagnostic) :=
  fun _ enclosed => ⟨enclosed, trivial⟩

theorem holds_abort (fault : Fault) : Holds inLoop R (abort fault) :=
  fun _ enclosed => ⟨enclosed, trivial⟩

theorem holds_halt (stop : Stop) : Holds inLoop R (halt stop) := by
  cases stop with
  | error diagnostic => exact holds_raise diagnostic
  | fault fault => exact holds_abort fault

theorem holds_ofExcept (result : Except Fault α) : Holds inLoop Anything (ofExcept result) := by
  cases result with
  | ok value => exact holds_pure trivial
  | error fault => exact holds_abort fault

/-! ### The store -/

theorem holds_withStore {work : Store → α × Store}
    (works : ∀ s : Store, s.Enclosed → (work s).2.Enclosed ∧ R (work s).1) :
    Holds inLoop R (withStore work) := by
  intro w enclosed
  obtain ⟨store, result⟩ := works w.store enclosed.store
  exact ⟨{ enclosed with store := store }, result⟩

theorem holds_modifyStore {change : Store → Store}
    (keeps : ∀ s : Store, s.Enclosed → (change s).Enclosed) :
    Holds inLoop Anything (modifyStore change) :=
  fun w enclosed => ⟨{ enclosed with store := keeps w.store enclosed.store }, trivial⟩

theorem holds_fromStore (view : Store → α) : Holds inLoop Anything (fromStore view) :=
  fun _ enclosed => ⟨enclosed, trivial⟩

theorem holds_tryStore {work : Store → Except Stop α × Store}
    (works : ∀ s : Store, s.Enclosed → (work s).2.Enclosed) :
    Holds inLoop Anything (tryStore work) := by
  have worked : Holds inLoop Anything (withStore work) :=
    holds_withStore fun s enclosed => ⟨works s enclosed, trivial⟩
  apply holds_bind worked
  intro result _
  cases result with
  | ok value => exact holds_pure trivial
  | error stop => exact holds_halt stop

theorem holds_fresh {object : Object} (new : object.datum.enclosed = true) :
    Holds inLoop Anything (fresh object) :=
  holds_withStore fun _ enclosed => ⟨enclosed.alloc new, trivial⟩

theorem holds_object (ref : Ref) :
    Holds inLoop (fun object => object.datum.enclosed = true) (object ref) :=
  fun _ enclosed => ⟨enclosed, enclosed.store.object ref⟩

theorem holds_located (ref : Ref) (span : Span) : Holds inLoop Anything (located ref span) := by
  have placed : Holds inLoop Anything (modifyStore fun store => store.setSpan ref span) :=
    holds_modifyStore fun s enclosed => enclosed.setSpan ref span
  exact holds_bind placed fun _ _ => holds_pure trivial

theorem holds_takenOver (ref : Ref) (span : Span) (frame : Frame) :
    Holds inLoop Anything (takenOver ref span frame) := by
  have copied : Holds inLoop Anything (copied ref) := by
    have worked : Holds inLoop Anything (withStore fun store => store.copy ref) :=
      holds_withStore fun s enclosed => ⟨enclosed.copy ref, trivial⟩
    exact holds_bind worked fun result _ => holds_ofExcept result
  apply holds_bind copied
  intro copy _
  have placed : Holds inLoop Anything
      (modifyStore fun store => (store.setSpan copy span).setFrame copy frame) :=
    holds_modifyStore fun s enclosed => (enclosed.setSpan copy span).setFrame copy frame
  exact holds_bind placed fun _ _ => holds_pure trivial

theorem holds_access (name : Name) (frame : Frame) :
    (Evaluator.access name frame).Holds inLoop Anything := by
  apply holds_bind (holds_fromStore _)
  intro found _
  cases found with
  | some ref => exact holds_takenOver ref name.span frame
  | none => exact holds_raise _

/-! ### Input and output -/

theorem holds_print (text : String) : Holds inLoop Anything (print text) :=
  fun _ enclosed => ⟨{ enclosed with }, trivial⟩

theorem holds_readLine : Holds inLoop Anything readLine := by
  intro w enclosed
  unfold readLine
  split
  · exact ⟨enclosed, trivial⟩
  · exact ⟨{ enclosed with }, trivial⟩

theorem holds_draw (low high : Number) : Holds inLoop Anything (draw low high) := by
  intro w enclosed
  unfold draw
  split
  · exact ⟨{ enclosed with }, trivial⟩
  · exact ⟨enclosed, trivial⟩

theorem holds_command (span : Option Span) (act : Robot → Robot.Answer α) :
    Holds inLoop Anything (command span act) := by
  intro w enclosed
  unfold command
  dsimp only
  split <;> exact ⟨{ enclosed with }, trivial⟩

/-! ### Control -/

/-- A call sends no signal on from a body that sends none. -/
theorem holds_callBody {body : Eval α} (holds : body.Holds false R) :
    Holds inLoop Anything (callBody body) := by
  intro w enclosed
  have held := holds w enclosed
  unfold callBody
  generalize body w = outcome at held ⊢
  obtain ⟨ending, after⟩ := outcome
  cases ending with
  | value | error | fault => exact ⟨held.1, trivial⟩
  | signal signal =>
      cases signal with
      | returning result => exact ⟨held.1, trivial⟩
      | breaking | continuing => cases held.2

/-- A round takes the signals for its loop. -/
theorem holds_round {body : Eval α} (holds : body.Holds true R) :
    Holds inLoop Anything (round body) := by
  intro w enclosed
  have held := holds w enclosed
  unfold round
  generalize body w = outcome at held ⊢
  obtain ⟨ending, after⟩ := outcome
  cases ending with
  | value | error | fault => exact ⟨held.1, trivial⟩
  | signal signal => cases signal <;> exact ⟨held.1, trivial⟩

/-- A program takes all signals. -/
theorem holds_program {body : Eval α} (holds : body.Holds true R) :
    Holds inLoop (fun result => ∀ a ∈ result, R a) (program body) := by
  intro w enclosed
  have held := holds w enclosed
  unfold program
  generalize body w = outcome at held ⊢
  obtain ⟨ending, after⟩ := outcome
  cases ending with
  | value a => exact ⟨held.1, fun _ same => Option.some.inj same ▸ held.2⟩
  | signal => exact ⟨held.1, fun _ absent => by cases absent⟩
  | error | fault => exact ⟨held.1, trivial⟩

theorem holds_runScript {P : Unit → Prop} {script : Eval Unit} (holds : script.Holds inLoop P)
    (site : Site) (name : String) :
    (Builtin.runScript site name script).Holds inLoop P := by
  intro w enclosed
  have held := holds w enclosed
  unfold Builtin.runScript
  generalize script w = outcome at held ⊢
  obtain ⟨ending, after⟩ := outcome
  cases ending with
  | error diagnostic =>
      dsimp only
      split <;> exact ⟨held.1, trivial⟩
  | value | signal | fault => exact held

end Eval

/-! ## Containment -/

/-- The comparison of runs of one tree that encloses its signals.  It says something about the first
of the runs only. -/
def Comparison.containing : Comparison where
  Link := Unit
  Extends _ _ := True
  Nodes b n m := n = m ∧ n.enclosed b = true
  Spans _ _ := True
  Refs _ _ _ := True
  Values _ _ _ := True
  Storages _ _ _ := True
  Owners _ _ _ := True
  Entries _ _ _ := True
  Frames _ _ _ := True
  Bounds := Eq
  Runs source := ∀ tree, source.parse = .ok tree → tree.enclosed true = true
  Worlds _ w _ := w.Enclosed
  Outcomes b _ R o _ := o.2.Enclosed ∧ o.1.Held b fun a => ∃ a', R () a a'
  barred _ _ _ := false

namespace Comparison

variable {α : Type} {b : Bool}

theorem containing_of_holds {link : containing.Link} {R : containing.Link → α → α → Prop}
    {P : α → Prop} {e f : Eval α} (holds : e.Holds b P) (related : ∀ a, P a → R () a a) :
    containing.Rel b link R e f := by
  intro w _ enclosed
  obtain ⟨after, held⟩ := holds w enclosed
  exact ⟨after, held.imp fun a satisfied => ⟨a, related a satisfied⟩⟩

theorem containing_any {link : containing.Link} {P : Ref → Prop} {e f : Eval Ref}
    (holds : e.Holds b P) : containing.Rel b link containing.Refs e f :=
  containing_of_holds holds fun _ _ => trivial

theorem containing_same {link : containing.Link} {P : α → Prop} {e f : Eval α}
    (holds : e.Holds b P) : containing.Rel b link containing.Same e f :=
  containing_of_holds holds fun _ _ => rfl

theorem holds_of_containing {link : containing.Link} {R : containing.Link → α → α → Prop}
    {e f : Eval α} (rel : containing.Rel b link R e f) : e.Holds b fun a => ∃ a', R () a a' :=
  fun w enclosed => rel w w enclosed

theorem containing_all {nodes : List Node} (each : allEnclosed b nodes = true) :
    List.Forall₂ (containing.Nodes b) nodes nodes := by
  induction nodes with
  | nil => exact .nil
  | cons node rest ih =>
      rw [allEnclosed, Bool.and_eq_true] at each
      exact .cons ⟨rfl, each.1⟩ (ih each.2)

theorem containing_guards {guards : List (Node × Node)} (each : guardsEnclosed b guards = true) :
    List.Forall₂ (fun c d => containing.Nodes b c.1 d.1 ∧ containing.Nodes b c.2 d.2) guards
      guards := by
  induction guards with
  | nil => exact .nil
  | cons guard rest ih =>
      obtain ⟨condition, body⟩ := guard
      rw [guardsEnclosed, guardEnclosed, Bool.and_eq_true, Bool.and_eq_true] at each
      exact .cons ⟨⟨rfl, each.1.1⟩, rfl, each.1.2⟩ (ih each.2)

theorem containing_option {node : Option Node} (enclosed : optionEnclosed b node = true) :
    Option.Rel (containing.Nodes b) node node := by
  cases node with
  | none => exact .none
  | some node => exact .some ⟨rfl, enclosed⟩

/-- The parts of a tree that encloses its signals enclose theirs. -/
theorem containing_shapes {node : Node} (enclosed : node.enclosed b = true) :
    containing.Shapes b node node := by
  cases node with
  | number value span => exact .number value trivial
  | truth value span => exact .truth value trivial
  | text value span => exact .text value trivial
  | list elements span => exact .list (containing_all enclosed) trivial
  | access name => exact .access rfl trivial
  | assign name value span =>
      rw [Node.enclosed] at enclosed
      exact .assign rfl ⟨rfl, enclosed⟩
  | binary left op mark right span =>
      rw [Node.enclosed, Bool.and_eq_true] at enclosed
      exact .binary op ⟨rfl, enclosed.1⟩ ⟨rfl, enclosed.2⟩ trivial
  | unary op mark operand span =>
      rw [Node.enclosed] at enclosed
      exact .unary op ⟨rfl, enclosed⟩ trivial
  | branch condition body others otherwise span =>
      rw [Node.enclosed, Bool.and_eq_true, Bool.and_eq_true, Bool.and_eq_true] at enclosed
      obtain ⟨⟨⟨guard, first⟩, rest⟩, last⟩ := enclosed
      exact .branch ⟨rfl, guard⟩ ⟨rfl, first⟩ (containing_guards rest) (containing_option last)
  | forEach name list body span =>
      rw [Node.enclosed, Bool.and_eq_true] at enclosed
      exact .forEach rfl ⟨rfl, enclosed.1⟩ ⟨rfl, enclosed.2⟩
  | whileLoop condition body span =>
      rw [Node.enclosed, Bool.and_eq_true] at enclosed
      exact .whileLoop ⟨rfl, enclosed.1⟩ ⟨rfl, enclosed.2⟩
  | untilLoop condition body span =>
      rw [Node.enclosed, Bool.and_eq_true] at enclosed
      exact .untilLoop ⟨rfl, enclosed.1⟩ ⟨rfl, enclosed.2⟩
  | repeatFixed count mark body span => exact .repeatFixed count ⟨rfl, enclosed⟩
  | repeatBy count body span =>
      rw [Node.enclosed, Bool.and_eq_true] at enclosed
      exact .repeatBy ⟨rfl, enclosed.1⟩ ⟨rfl, enclosed.2⟩
  | procedure name parameters body span =>
      exact .procedure (Pairing.rel_refl fun _ _ => rfl) rfl ⟨rfl, enclosed⟩ trivial
  | call callee arguments span =>
      rw [Node.enclosed, Bool.and_eq_true] at enclosed
      exact .call ⟨rfl, enclosed.1⟩ (containing_all enclosed.2) trivial
  | returning value span => exact .returning (containing_option enclosed)
  | continuing span => exact .continuing
  | breaking span => exact .breaking

theorem containing_objects {object : Object} (enclosed : object.datum.enclosed = true) :
    containing.Objects () object object := by
  refine .refl ?_ (fun _ => trivial) fun _ => trivial
  obtain ⟨datum, place, owner⟩ := object
  cases datum with
  | list storage => exact .list trivial
  | procedure value => exact .procedure value.name value.parameters ⟨rfl, enclosed⟩
  | number | truth | text | builtin | bare => constructor

theorem enclosed_of_containing {d d' : Datum} (data : containing.Data () d d') :
    d.enclosed = true := by
  cases data with
  | procedure name parameters bodies => exact bodies.2
  | number | truth | text | list | builtin | bare => rfl

end Comparison

namespace Accord

open Comparison Eval

/-- Signals stay contained whatever an evaluation is made of. -/
def containment : Accord where
  toComparison := containing
  extends_refl _ := trivial
  extends_trans _ _ := trivial
  refs_mono _ _ := trivial
  values_mono _ _ := trivial
  storages_mono _ _ := trivial
  owners_mono _ _ := trivial
  frames_mono _ _ := trivial
  refs_of_values _ := trivial
  owners_of_frames _ := trivial
  entries_of_frames _ := trivial
  spans_of_nodes _ := trivial
  shapes_of_nodes nodes := nodes.1 ▸ containing_shapes nodes.2
  nodes_of_runs runs parsed := ⟨rfl, runs _ parsed⟩
  bounds_succ bounds := ⟨_, bounds, rfl⟩
  rel_pure related _ _ enclosed := ⟨enclosed, _, related⟩
  rel_bind first next w _ enclosed := by
    refine holds_bind (holds_of_containing first) ?_ w enclosed
    rintro a ⟨a', related⟩
    exact holds_of_containing (next () a a' trivial related)
  rel_abort fault w _ enclosed := holds_abort fault w enclosed
  rel_exhausted bounds zero w _ enclosed := by
    cases bounds
    rw [zero]
    exact holds_abort .exhausted w enclosed
  rel_early _ w _ enclosed := holds_halt _ w enclosed
  rel_fail _ _ _ w _ enclosed := holds_raise _ w enclosed
  rel_return _ _ _ enclosed := ⟨enclosed, trivial⟩
  rel_break nodes _ _ enclosed := ⟨enclosed, nodes.2⟩
  rel_continue nodes _ _ enclosed := ⟨enclosed, nodes.2⟩
  rel_callBody bodies := containing_any (holds_callBody (holds_of_containing bodies))
  rel_round bodies := containing_same (holds_round (holds_of_containing bodies))
  rel_program bodies w _ enclosed := by
    obtain ⟨after, held⟩ := holds_program (holds_of_containing (bodies trivial)) w enclosed
    refine ⟨after, held.imp fun result each => ?_⟩
    cases result with
    | none => exact ⟨none, .none⟩
    | some a =>
        obtain ⟨a', related⟩ := each a rfl
        exact ⟨some a', .some related⟩
  rel_runScript name scripts _ _ w _ enclosed :=
    holds_runScript (holds_of_containing scripts) _ name w enclosed
  rel_null _ _ enclosed := ⟨enclosed, Store.nullRef, trivial⟩
  rel_fresh objects _ _ := containing_any (holds_fresh (enclosed_of_containing objects.data))
  rel_answer scalar := containing_any (holds_fresh (Datum.enclosed_of_isScalar scalar))
  rel_object _ := containing_of_holds (holds_object _) fun _ => containing_objects
  rel_takenOver _ _ _ := containing_any (holds_takenOver _ _ _)
  outcomes_access {_ _ x _ f _ w v} _ _ _ enclosed _ :=
    containing_any (holds_access x f) w v enclosed
  rel_bindName _ _ _ := containing_same (holds_modifyStore fun _ enclosed => enclosed)
  rel_allocStorage _ := containing_of_holds (P := Anything)
    (holds_withStore fun _ enclosed => ⟨enclosed, trivial⟩) fun _ _ => trivial
  rel_elements _ := containing_of_holds (holds_fromStore _) fun _ _ =>
    List.forall₂_same.mpr fun _ _ => trivial
  rel_updateElements _ _ := containing_same (holds_modifyStore fun _ enclosed => enclosed)
  rel_snapshot _ := containing_same (holds_fromStore _)
  rel_pushScope _ _ _ := containing_of_holds (P := Anything)
    (holds_withStore fun _ enclosed => ⟨enclosed, trivial⟩) fun _ _ => trivial
  rel_bindArguments names _ _ :=
    containing_same (holds_modifyStore fun _ enclosed => enclosed.bindArguments _ names _)
  rel_print text := containing_same (holds_print text)
  rel_readLine := containing_same holds_readLine
  rel_draw low high := containing_same (holds_draw low high)
  rel_order _ _ := containing_same (holds_command _ _)
  rel_scripts w _ enclosed :=
    ⟨enclosed, w.scripts, rfl, fun name content opened tree =>
      enclosed.scripts name content tree opened⟩

theorem containment_plain : containment.Plain where
  located _ _ := containing_any (holds_located _ _)
  operation op _ _ := containing_any (holds_tryStore fun _ enclosed => enclosed.binary op _ _)
  negation _ := containing_any (holds_tryStore fun _ enclosed => enclosed.negate _)
  question _ := containing_same (holds_command _ _)

end Accord

/-- Every run: the evaluator contains the signals of trees that enclose them. -/
theorem contains_eval (fuel : Nat) : Accord.containment.Evaluators (eval fuel) (eval fuel) := by
  induction fuel with
  | zero =>
      intro b link n m f g nodes entries w v enclosed
      exact ⟨enclosed, trivial⟩
  | succ fuel ih =>
      intro b link n m f g nodes entries w v enclosed
      exact Accord.outcomes_step ih (Accord.containment_plain.steps ih) rfl nodes trivial enclosed
        rfl

section

open Comparison

variable {b : Bool} (fuel : Nat)

theorem holds_eval {node : Node} (enclosed : node.enclosed b = true) (frame : Frame) :
    Eval.Holds b Anything (eval fuel node frame) := by
  have entries : containing.Entries () frame frame := trivial
  exact (holds_of_containing (contains_eval fuel ⟨rfl, enclosed⟩ entries)).anything

theorem holds_all {nodes : List Node} (each : allEnclosed b nodes = true) (frame : Frame) :
    (Evaluator.all (eval fuel) frame nodes).Holds b Anything := by
  have frames : containing.Frames () frame frame := trivial
  exact (holds_of_containing
    (Accord.rel_all (contains_eval fuel) (containing_all each) frames)).anything

theorem holds_invoke {callee : Object} (enclosed : callee.datum.enclosed = true)
    (arguments : List Ref) (span : Span) :
    (Evaluator.invoke (eval fuel) callee arguments span).Holds b Anything := by
  have lists : containing.RefLists () arguments arguments :=
    List.forall₂_same.mpr fun _ _ => trivial
  have spans : containing.Spans span span := trivial
  exact (holds_of_containing (Accord.rel_invoke Accord.containment_plain (contains_eval fuel)
    (containing_objects enclosed) lists spans)).anything

end

/-! ## Sessions -/

theorem enclosed_start (robot : Robot) {scripts : Scripts} (generator : StdGen)
    (enclosed : ∀ name content tree, scripts.read name = .ok content →
      Source.parse ⟨name, content⟩ = .ok tree → tree.enclosed true = true) :
    (World.start robot scripts generator).Enclosed where
  store := by
    intro object member
    obtain ⟨binding, listed, rfl⟩ := List.mem_map.mp (List.mem_toArray.mp member)
    have plain : ∀ binding ∈ Store.startGlobals, binding.2.enclosed = true := by decide
    exact plain binding listed
  scripts := enclosed

end Pseudocode
