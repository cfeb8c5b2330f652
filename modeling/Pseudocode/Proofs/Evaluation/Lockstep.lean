import Pseudocode.Proofs.Evaluation.Coupling
import Pseudocode.Proofs.Evaluation.Growth
import Pseudocode.Proofs.Evaluation.Traversal

/-!
# Evaluators in lockstep

Two evaluators are in lockstep under a coupling if they take nodes that are alike to outcomes that
are alike.  One step of an evaluator over parts in lockstep is again in lockstep; by induction on
the bound so is the evaluator of programs with itself, where the second run may give up at barred
nodes.
-/

namespace Pseudocode

/-- Evaluate a node as `eval` does, but give up where one is barred. -/
def evalUnless (barred : Node → Frame → World → Bool) :
    Nat → Node → Frame → World → Ending Ref × World
  | 0, _, _, w => (.fault .exhausted, w)
  | fuel + 1, node, frame, w =>
      if barred node frame w then (.fault .exhausted, w)
      else
        Evaluator.step (fun node frame w => evalUnless barred fuel node frame w) fuel node frame w

theorem evalUnless_never (fuel : Nat) : evalUnless (fun _ _ _ => false) fuel = eval fuel := by
  induction fuel with
  | zero => rfl
  | succ fuel ih =>
      funext node frame w
      rw [evalUnless, eval, ih]
      rfl

/-- Whether a run came to its bound or gave up. -/
def Ending.isExhausted {α : Type} : Ending α → Bool
  | .fault .exhausted => true
  | _ => false

theorem Ending.ne_exhausted {α : Type} {ending : Ending α} (finished : ending.isExhausted = false) :
    ending ≠ .fault .exhausted := by
  rintro rfl
  cases finished

namespace Evaluator

/-- Call an object with the values that an evaluation gives. -/
def callObject (self : Evaluator) (callee : Ref) (arguments : Eval (List Ref)) (span : Span)
    (frame : Frame) : Eval Ref := do
  let calleeObject ← Eval.object callee
  let argumentRefs ← arguments
  let result ← self.invoke calleeObject argumentRefs span
  Eval.takenOver result span frame

theorem access_of_some {name : Name} {frame : Frame} {w : World} {ref : Ref}
    (found : w.store.find? frame.scope name.text = some ref) :
    access name frame w = Eval.takenOver ref name.span frame w := by
  have looked : Eval.fromStore (fun store => store.find? frame.scope name.text) w =
      (.value (some ref), w) := by rw [Eval.fromStore, found]
  exact Eval.bind_of_value looked

theorem access_of_none {name : Name} {frame : Frame} {w : World}
    (missing : w.store.find? frame.scope name.text = none) :
    access name frame w =
      Eval.fail (.undefined name.text) (some frame) (some name.span) w := by
  have looked : Eval.fromStore (fun store => store.find? frame.scope name.text) w =
      (.value none, w) := by rw [Eval.fromStore, missing]
  exact Eval.bind_of_value looked

end Evaluator

namespace Likeness

/-- The comparison by a likeness: the second run may have less of a bound. -/
def comparison (like : Likeness) : Comparison where
  Link := like.Link
  Extends := like.Extends
  Nodes _ := like.Nodes
  Spans := like.Spans
  Refs := like.Refs
  Values := like.Refs
  Storages := like.Storages
  Owners := like.Owners
  Entries := like.Entries
  Frames := like.Frames
  Bounds fuel fuel' := fuel' ≤ fuel
  Runs _ := True
  Worlds := like.Worlds
  Outcomes _ := like.Outcomes
  barred := like.barred

end Likeness

namespace Coupling

variable {c : Coupling} {link : c.Link} {self self' : Evaluator} {f g : Frame}

/-- Reading a name, if it means the same in both activations. -/
theorem outcomes_found {x y : Name} {w v : World} (texts : x.text = y.text)
    (spans : c.Spans x.span y.span) (owners : c.Owners link f g) (worlds : c.Worlds link w v)
    (found : Option.Rel (c.Refs link) (w.store.find? f.scope x.text)
      (v.store.find? g.scope y.text)) :
    c.Outcomes link c.Refs (Evaluator.access x f w) (Evaluator.access y g v) := by
  cases left : w.store.find? f.scope x.text with
  | none =>
      cases right : v.store.find? g.scope y.text with
      | none =>
          rw [Evaluator.access_of_none left, Evaluator.access_of_none right, texts]
          exact couples_fail _ owners spans w v worlds
      | some ref =>
          rw [left, right] at found
          cases found
  | some ref =>
      cases right : v.store.find? g.scope y.text with
      | none =>
          rw [left, right] at found
          cases found
      | some ref' =>
          rw [left, right] at found
          cases found with
          | some refs =>
              rw [Evaluator.access_of_some left, Evaluator.access_of_some right]
              exact couples_takenOver refs spans owners w v worlds

theorem stores_bindArguments {s t : Store} {refs refs' : List Ref} (names : List String)
    (lists : List.Forall₂ (c.Refs link) refs refs') (frames : c.Frames link f g)
    (stores : c.Stores link s t) :
    c.Stores link (Evaluator.bindArguments f names refs s)
      (Evaluator.bindArguments g names refs' t) := by
  have owners := c.owners_of_frames frames
  induction lists generalizing names s t with
  | nil => cases names <;> exact stores
  | cons first _ ih =>
      cases names with
      | nil => exact stores
      | cons name names =>
          have placed := c.setFrame stores first owners
          exact ih names (c.bind name placed frames first)

theorem couples_runScript {e e' : Eval Unit} {p q : Span} (name : String)
    (scripts : c.Couples link c.Same e e') (spans : c.Spans p q) (frames : c.Frames link f g) :
    c.Couples link c.Same (Builtin.runScript ⟨p, f⟩ name e)
      (Builtin.runScript ⟨q, g⟩ name e') := by
  intro w v worlds
  unfold Builtin.runScript
  refine outcomes_cases (scripts w v worlds) ?_ ?_
  · intro o v
    exact .inl rfl
  · intro later a b w v further worlds endings
    apply outcomes_later further
    have owners := c.owners_of_frames (c.frames_mono further frames)
    cases endings with
    | value results => exact outcomes_now worlds (.value results)
    | signal signals => exact outcomes_now worlds (.signal signals)
    | fault fault => exact outcomes_now worlds (.fault fault)
    | error errors =>
        obtain ⟨fault, left, right⟩ | ⟨report, report', left, right, reports⟩ :=
          c.errors_report name errors owners spans
        · dsimp only
          rw [left, right]
          exact outcomes_now worlds (.fault fault)
        · dsimp only
          rw [left, right]
          exact couples_raise reports w v worlds

/-- Couplings are kept up by all parts of evaluations. -/
def accord (c : Coupling) : Accord where
  toComparison := c.comparison
  extends_refl := c.extends_refl
  extends_trans := c.extends_trans
  refs_mono := c.refs_mono
  values_mono := c.refs_mono
  storages_mono := c.storages_mono
  owners_mono := c.owners_mono
  frames_mono := c.frames_mono
  refs_of_values refs := refs
  owners_of_frames := c.owners_of_frames
  entries_of_frames := c.entries_of_frames
  spans_of_nodes := c.nodes_span
  shapes_of_nodes := c.shapes_of_nodes
  nodes_of_runs _ _ := c.nodes_refl _
  bounds_succ {fuel _} fewer :=
    ⟨fuel - 1, (Nat.succ_pred_eq_of_pos (Nat.zero_lt_of_lt fewer)).symm, Nat.le_sub_one_of_lt fewer⟩
  rel_pure := couples_pure
  rel_bind := couples_bind
  rel_abort := couples_abort
  rel_exhausted _ _ _ _ _ := .inl rfl
  rel_early {_ _ _ _ stop} _ := by
    cases stop with
    | error diagnostic => exact couples_raise (c.errors_refl diagnostic)
    | fault fault => exact couples_abort fault
  rel_fail := couples_fail
  rel_return refs := couples_send (.returning refs)
  rel_break _ := couples_send .breaking
  rel_continue _ := couples_send .continuing
  rel_callBody := couples_callBody
  rel_round := couples_round
  rel_program bodies w v worlds :=
    couples_program (bodies (c.entries_program worlds.stores)) w v worlds
  rel_runScript name scripts frames spans := couples_runScript name scripts spans frames
  rel_null := couples_null
  rel_fresh objects _ _ := couples_fresh objects
  rel_answer scalar := couples_fresh ⟨data_of_isScalar scalar, .none, .none⟩
  rel_object := couples_object
  rel_takenOver := couples_takenOver
  outcomes_access texts spans frames worlds free := by
    apply outcomes_found texts spans (c.owners_of_frames frames) worlds
    rw [texts]
    exact c.find worlds.stores frames free
  rel_bindName name frames refs :=
    couples_modifyStore fun _ _ stores => c.bind name stores frames refs
  rel_allocStorage lists := couples_withStore fun _ _ stores => c.allocStorage stores lists
  rel_elements storages := couples_fromStore fun _ _ stores => c.elements stores storages
  rel_updateElements storages change := couples_modifyStore fun _ _ stores =>
    c.updateElements stores storages (change _ _ _ (c.extends_refl _))
  rel_snapshot refs := couples_fromStore fun _ _ stores => c.snapshot stores refs
  rel_pushScope name owners spans := by
    apply couples_withStore
    intro s t stores
    obtain ⟨later, further, after, frames⟩ := c.pushScope stores owners
    exact ⟨later, further, after, frames name _ _ spans⟩
  rel_bindArguments names frames lists :=
    couples_modifyStore fun _ _ => stores_bindArguments names lists frames
  rel_print := couples_print
  rel_readLine := couples_readLine
  rel_draw := couples_draw
  rel_order _ spans := couples_command _ (.some spans)
  rel_scripts _ _ worlds :=
    outcomes_now worlds (.value ⟨worlds.scripts, fun _ _ _ => trivial⟩)

/-- Operators work on objects that are alike, and so do questions to the robot. -/
theorem plain (c : Coupling) : c.accord.Plain where
  located := couples_located
  operation op lefts rights :=
    couples_tryStore fun _ _ stores => works_binary op stores lefts rights
  negation refs := couples_tryStore fun _ _ stores => works_negate stores refs
  question _ := couples_command _ .none

theorem couples_callObject (lockstep : c.accord.Evaluators self self') {r r' : Ref}
    {arguments arguments' : Eval (List Ref)} {p q : Span} (callees : c.Refs link r r')
    (lists : ∀ later, c.Extends link later →
      c.Couples later c.accord.RefLists arguments arguments')
    (spans : c.Spans p q) (owners : c.Owners link f g) :
    c.Couples link c.Refs (self.callObject r arguments p f)
      (self'.callObject r' arguments' q g) := by
  change c.accord.Rel false link c.accord.Values _ _
  refine Accord.rel_callObject callees ?_ lists spans owners
  intro later o o' refs refs' _ objects refLists
  exact Accord.rel_invoke c.plain lockstep objects refLists spans

/-- Every run: an evaluator is in lockstep with itself, up to the point where the second run gives
up or comes to its bound. -/
theorem lockstep_eval (c : Coupling) {fuel fuel' : Nat} (fewer : fuel' ≤ fuel) :
    c.accord.Evaluators (eval fuel) (evalUnless c.barred fuel') := by
  induction fuel' generalizing fuel with
  | zero =>
      intro b link n m f g nodes entries w v worlds
      exact .inl rfl
  | succ fuel' ih =>
      obtain ⟨fuel, rfl⟩ : ∃ less, fuel = less + 1 := ⟨fuel - 1, by omega⟩
      have fewer := Nat.le_of_succ_le_succ fewer
      intro b link n m f g nodes entries w v worlds
      rw [eval, evalUnless]
      cases free : c.barred m g v with
      | true => exact .inl rfl
      | false =>
          have frames := c.frames_of_entries entries free
          exact Accord.outcomes_step (ih fewer) (c.plain.steps (ih fewer)) fewer nodes frames
            worlds free

end Coupling
end Pseudocode
