import Pseudocode.Proofs.Evaluation.Renumbering

/-!
# Two ways to say how long a loop goes on

A loop that goes on until a condition holds does what a loop does that goes on while its negation
holds, as long as the values of the condition are truth values.  The second loop makes an object for
every negation, which nobody else ever sees, so the two runs differ in the numbers of objects.
-/

namespace Pseudocode
namespace Coupling

variable {c : Coupling} {link later : c.Link} {α β : Type}
variable {R : c.Link → α → α → Prop} {S : c.Link → β → β → Prop} {w v : World}

/-- What follows on the results of two runs. -/
theorem outcomes_bind {e f : Eval α} {k l : α → Eval β} (first : c.Outcomes link R (e w) (f v))
    (next : ∀ later a b w' v', c.Extends link later → c.Worlds later w' v' → R later a b →
      e w = (.value a, w') → f v = (.value b, v') → c.Outcomes later S (k a w') (l b v')) :
    c.Outcomes link S ((e >>= k) w) ((f >>= l) v) := by
  change c.Outcomes link S (Eval.bind e k w) (Eval.bind f l v)
  unfold Eval.bind
  generalize e w = o at first next ⊢
  generalize f v = p at first next ⊢
  obtain ⟨a, w'⟩ := o
  obtain ⟨b, v'⟩ := p
  obtain gaveUp | ⟨later, further, worlds, endings⟩ := first
  · cases gaveUp
    exact .inl rfl
  · apply outcomes_later further
    cases endings with
    | value results => exact next later _ _ w' v' further worlds results rfl rfl
    | signal signals => exact outcomes_now worlds (.signal signals)
    | error errors => exact outcomes_now worlds (.error errors)
    | fault fault => exact outcomes_now worlds (.fault fault)

/-- Rounds that are alike in the worlds that the two loops come to. -/
theorem outcomes_rounds {step step' : Nat → Eval Bool} (Comes : World → World → Prop)
    (steps : ∀ later number w v, c.Worlds later w v → Comes w v →
      c.Outcomes later c.Same (step number w) (step' number v))
    (comes : ∀ number w v w' v', Comes w v → step number w = (.value true, w') →
      step' number v = (.value true, v') → Comes w' v')
    {fuel fuel' : Nat} (fewer : fuel' ≤ fuel) (number : Nat) (worlds : c.Worlds link w v)
    (start : Comes w v) :
    c.Outcomes link c.Same (Eval.rounds step fuel number w) (Eval.rounds step' fuel' number v) := by
  induction fuel' generalizing link fuel number w v with
  | zero => exact .inl rfl
  | succ fuel' ih =>
      obtain ⟨fuel, rfl⟩ : ∃ less, fuel = less + 1 := ⟨fuel - 1, by omega⟩
      have once := steps link number w v worlds start
      have next := comes number w v
      unfold Eval.rounds
      generalize step number w = o at once next ⊢
      generalize step' number v = p at once next ⊢
      obtain ⟨a, w'⟩ := o
      obtain ⟨b, v'⟩ := p
      obtain gaveUp | ⟨later, further, after, endings⟩ := once
      · cases gaveUp
        exact .inl rfl
      · apply outcomes_later further
        cases endings with
        | @value goesOn _ same =>
            cases same
            cases goesOn with
            | true =>
                have start' := next w' v' start rfl rfl
                exact ih (Nat.le_of_succ_le_succ fewer) (number + 1) after start'
            | false => exact outcomes_now after (.value rfl)
        | signal signals => exact outcomes_now after (.signal signals)
        | error errors => exact outcomes_now after (.error errors)
        | fault fault => exact outcomes_now after (.fault fault)

end Coupling

/-! ## Rounds -/

namespace Store

variable {s : Store} {ref : Ref} {b : Bool}

theorem negate_of_truth (isTruth : s.datum ref = .truth b) :
    s.negate ref = (.ok (s.alloc ⟨.truth !b, none, (s.object ref).frame⟩).1,
      (s.alloc ⟨.truth !b, none, (s.object ref).frame⟩).2) := by
  change (s.object ref).datum = .truth b at isTruth
  simp only [negate, isTruth]

end Store

namespace Evaluator

variable {condition body : Node} {frame : Frame} {w v after : World} {fuel : Nat} {ref : Ref}

/-- A round of a loop, if the condition has the given truth. -/
def roundIf (self : Evaluator) (wanted : Bool) (condition body : Node) (frame : Frame) :
    Eval Bool := do
  if (← self.test condition frame) = wanted then Eval.round (self body frame) else return false

/-- A loop goes on after a round in which the condition had the given truth. -/
theorem exists_of_goesOn {wanted : Bool}
    (goesOn : roundIf (eval fuel) wanted condition body frame w = (.value true, after)) :
    ∃ ref tested, eval fuel condition frame w = (.value ref, tested) ∧
      (tested.store.datum ref).isTrue = wanted ∧
      Eval.round (eval fuel body frame) tested = (.value true, after) := by
  obtain ⟨truth, tested, test, goesOn⟩ := Eval.exists_of_bind goesOn
  obtain ⟨ref, middle, run, view⟩ := Eval.exists_of_bind test
  have viewed : (Ending.value (middle.store.datum ref).isTrue, middle) = (.value truth, tested) :=
    view
  obtain ⟨same, rfl⟩ := Prod.mk.inj viewed
  have same := Ending.value.inj same
  by_cases isWanted : truth = wanted
  · rw [if_pos isWanted] at goesOn
    exact ⟨ref, middle, run, same.trans isWanted, goesOn⟩
  · rw [if_neg isWanted] at goesOn
    cases goesOn

/-- The truth of the negation of a value. -/
def testNot (ref : Ref) (span : Span) : Eval Bool := do
  let result ← Eval.tryStore fun store => store.negate ref
  let value ← Eval.located result span
  return (← Eval.object value).datum.isTrue

theorem test_not (fuel : Nat) (mark : Span) (condition : Node) (span : Span) (frame : Frame) :
    test (eval (fuel + 1)) (.unary .not mark condition span) frame =
      (show Eval Ref from eval fuel condition frame) >>= fun ref => testNot ref span := by
  have inner (ref : Ref) : ((do
      let result ← Eval.tryStore fun store => store.negate ref
      Eval.located result span) >>= fun value => do
        return (← Eval.object value).datum.isTrue) = testNot ref span :=
    bind_assoc _ _ _
  exact (bind_assoc _ _ _).trans (congrArg _ (funext inner))

/-- The negation of a truth value is its opposite, in an object of its own. -/
theorem testNot_of_truth {b : Bool} (isTruth : w.store.datum ref = .truth b) (span : Span) :
    ∃ object, testNot ref span w =
      (.value !b, { w with store := (w.store.alloc object).2 }) := by
  let object : Object := ⟨.truth !b, some span, (w.store.object ref).frame⟩
  have negated : Eval.tryStore (fun store => store.negate ref) w = _ :=
    Eval.tryStore_of_ok (Store.negate_of_truth isTruth)
  have located : Eval.located (w.store.alloc object).1 span { w with store := (w.store.alloc
      ⟨.truth !b, none, (w.store.object ref).frame⟩).2 } =
        (.value (w.store.alloc object).1, { w with store := (w.store.alloc object).2 }) := by
    rw [← Store.setSpan_alloc w.store ⟨.truth !b, none, (w.store.object ref).frame⟩]
    rfl
  refine ⟨object, ((Eval.bind_of_value negated).trans (Eval.bind_of_value located)).trans ?_⟩
  have datum := (Store.holds_alloc w.store object).datum_eq
  change (Ending.value (Store.datum _ _).isTrue, _) = _
  rw [datum]
  rfl

end Evaluator

/-- Rounds of two loops whose conditions have the truth that they go on with at the same time. -/
theorem outcomes_roundIf {c : Coupling} {link : c.Link} {self self' : Evaluator}
    {wanted wanted' : Bool} {condition condition' body body' : Node} {frame frame' : Frame}
    {w v : World} (tests : c.Outcomes link (fun _ a b => a = wanted ↔ b = wanted')
      (self.test condition frame w) (self'.test condition' frame' v))
    (bodies : ∀ later, c.Couples later c.Refs (self body frame) (self' body' frame')) :
    c.Outcomes link c.Same (self.roundIf wanted condition body frame w)
      (self'.roundIf wanted' condition' body' frame' v) := by
  refine Coupling.outcomes_bind tests ?_
  intro later a b w' v' _ worlds same _ _
  by_cases goesOn : a = wanted
  · rw [if_pos goesOn, if_pos (same.mp goesOn)]
    exact Coupling.couples_round (bodies later) w' v' worlds
  · rw [if_neg goesOn, if_neg (mt same.mpr goesOn)]
    exact Coupling.outcomes_now worlds (.value rfl)

/-! ## The two loops -/

section

open Matching Evaluator

variable {link : Matching} {condition body : Node} {frame : Frame} {w v : World} {n k : Nat}

theorem datum_of_refs {r r' : Ref} {b : Bool} (worlds : renumbering.Worlds link w v)
    (refs : link.Refs r r') : w.store.datum r = .truth b ↔ v.store.datum r' = .truth b := by
  have data : strictParts.Data link (w.store.datum r) (v.store.datum r') :=
    (worlds.stores.objects refs).data
  generalize w.store.datum r = d at data ⊢
  generalize v.store.datum r' = d' at data ⊢
  cases data with
  | truth value => exact Iff.rfl
  | number | text | list | procedure | builtin | bare => simp

theorem couples_node (fewer : k ≤ n) (link : Matching) (node : Node) (frame : Frame) :
    renumbering.Couples link renumbering.Refs (eval n node frame) (eval k node frame) :=
  lockstep_renumbering fewer (b := false) rfl rfl

/-- A negated condition, beside the condition itself. -/
theorem outcomes_testNot_left (fewer : n ≤ k) (worlds : renumbering.Worlds link w v)
    (decided : ∀ ref tested, eval n condition frame v = (.value ref, tested) →
      ∃ b, tested.store.datum ref = .truth b) (mark span : Span) :
    renumbering.Outcomes link (fun _ a b => a = true ↔ b = false)
      (test (eval (k + 1)) (.unary .not mark condition span) frame w)
      (test (eval n) condition frame v) := by
  rw [test_not]
  refine Coupling.outcomes_bind (couples_node fewer link condition frame w v worlds) ?_
  intro later r r' w' v' further worlds refs run run'
  obtain ⟨b, isTruth⟩ := decided r' v' run'
  obtain ⟨object, tested⟩ := testNot_of_truth ((datum_of_refs worlds refs).mpr isTruth) span
  rw [tested]
  refine Coupling.outcomes_now (Coupling.worlds_withStore worlds ?_) (.value ?_)
  · exact worlds.stores.alloc_left object
  · rw [show (v'.store.object r').datum = .truth b from isTruth]
    exact iff_of_eq (Bool.not_eq_true' b)

/-- The same with the sides exchanged: now the run with the negation may come to its bound. -/
theorem outcomes_testNot_right (fewer : k ≤ n) (worlds : renumbering.Worlds link w v)
    (decided : ∀ ref tested, eval n condition frame w = (.value ref, tested) →
      ∃ b, tested.store.datum ref = .truth b) (mark span : Span) :
    renumbering.Outcomes link (fun _ a b => a = false ↔ b = true)
      (test (eval n) condition frame w)
      (test (eval (k + 1)) (.unary .not mark condition span) frame v) := by
  rw [test_not]
  refine Coupling.outcomes_bind (couples_node fewer link condition frame w v worlds) ?_
  intro later r r' w' v' further worlds refs run run'
  obtain ⟨b, isTruth⟩ := decided r w' run
  obtain ⟨object, tested⟩ := testNot_of_truth ((datum_of_refs worlds refs).mp isTruth) span
  rw [tested]
  refine Coupling.outcomes_now (Coupling.worlds_withStore worlds ?_) (.value ?_)
  · exact worlds.stores.alloc_right object
  · rw [show (w'.store.object r).datum = .truth b from isTruth]
    exact (iff_of_eq (Bool.not_eq_true' b)).symm

/-- The worlds in which a loop that goes on until its condition holds comes to the condition. -/
inductive ComesTo (condition body : Node) (frame : Frame) (w : World) : World → Prop where
  | start : ComesTo condition body frame w w
  | again {v tested after : World} {ref : Ref} {fuel : Nat}
      (comes : ComesTo condition body frame w v)
      (run : eval fuel condition frame v = (.value ref, tested))
      (fails : (tested.store.datum ref).isTrue = false)
      (goesOn : Eval.round (eval fuel body frame) tested = (.value true, after)) :
      ComesTo condition body frame w after

/-- Every value that such a loop finds for its condition is a truth value. -/
def Decides (condition body : Node) (frame : Frame) (w : World) : Prop :=
  ∀ v, ComesTo condition body frame w v → ∀ fuel ref tested,
    eval fuel condition frame v = (.value ref, tested) → ∃ b, tested.store.datum ref = .truth b

theorem ComesTo.next {after : World} (comes : ComesTo condition body frame w v)
    (goesOn : roundIf (eval n) false condition body frame v = (.value true, after)) :
    ComesTo condition body frame w after := by
  obtain ⟨ref, tested, run, fails, goesOn⟩ := exists_of_goesOn goesOn
  exact comes.again run fails goesOn

/-- No value on either side. -/
def NoValues (_ : Matching) (r r' : Ref) : Prop :=
  r = Store.nullRef ∧ r' = Store.nullRef

theorem outcomes_loop {step step' : Nat → Eval Bool} {fuel fuel' : Nat}
    (rounds : renumbering.Outcomes link renumbering.Same (Eval.rounds step fuel 0 w)
      (Eval.rounds step' fuel' 0 v)) :
    renumbering.Outcomes link NoValues (Eval.loop fuel step w) (Eval.loop fuel' step' v) := by
  refine Coupling.outcomes_bind rounds ?_
  intro later _ _ w' v' _ worlds _ _ _
  exact Coupling.outcomes_now worlds (.value ⟨rfl, rfl⟩)

variable (mark inner span span' : Span)

/-- If the loop that goes on until its condition holds ends, so does the other one. -/
theorem outcomes_while (worlds : renumbering.Worlds link w w)
    (decides : Decides condition body frame w) :
    renumbering.Outcomes link NoValues
      (eval (n + 2) (.whileLoop (.unary .not mark condition inner) body span') frame w)
      (eval (n + 1) (.untilLoop condition body span) frame w) := by
  apply outcomes_loop
  refine Coupling.outcomes_rounds (fun _ v => ComesTo condition body frame w v) ?_ ?_
    (Nat.le_succ n) 0 worlds .start
  · intro later number w' v' worlds comes
    have tests := outcomes_testNot_left (Nat.le_refl n) worlds (decides v' comes n) mark inner
    exact outcomes_roundIf tests fun last => couples_node (Nat.le_succ n) last body frame
  · intro number _ v' _ after comes _ goesOn
    exact comes.next goesOn

theorem outcomes_until (worlds : renumbering.Worlds link w w)
    (decides : Decides condition body frame w) :
    renumbering.Outcomes link NoValues
      (eval (n + 1) (.untilLoop condition body span) frame w)
      (eval (n + 1) (.whileLoop (.unary .not mark condition inner) body span') frame w) := by
  apply outcomes_loop
  cases n with
  | zero => exact .inl rfl
  | succ n =>
      refine Coupling.outcomes_rounds (fun v _ => ComesTo condition body frame w v) ?_ ?_
        (Nat.le_refl _) 0 worlds .start
      · intro later number w' v' worlds comes
        have tests := outcomes_testNot_right (Nat.le_succ n) worlds (decides w' comes _) mark inner
        exact outcomes_roundIf tests fun last => couples_node (Nat.le_refl _) last body frame
      · intro number v' _ after _ comes goesOn _
        exact comes.next goesOn

/-- Runs from one store that end alike: without a value, with the same signal, or with the very
same error or fault, in worlds that differ in the numbers of the objects made meanwhile only. -/
structure EndAlike (s : Store) (o p : Ending Ref × World) : Prop where
  ends : o.1 ≠ .fault .exhausted
  ends' : p.1 ≠ .fault .exhausted
  alike : ∃ m, (identity s).Extends m ∧ renumbering.Worlds m o.2 p.2 ∧
    renumbering.Endings m NoValues o.1 p.1
  /-- Every name has the same value, at every depth, -/
  bindings : ∀ scope name, (o.2.store.find? scope name).map o.2.store.snapshot =
    (p.2.store.find? scope name).map p.2.store.snapshot
  /-- and so has everything that was there before. -/
  contents : ∀ ref, ref.index < s.objects.size → o.2.store.snapshot ref = p.2.store.snapshot ref

theorem endAlike_of_outcomes {s : Store} {o p : Ending Ref × World}
    (outcomes : renumbering.Outcomes (identity s) NoValues o p) (ends : p.1 ≠ .fault .exhausted) :
    EndAlike s o p := by
  obtain gaveUp | ⟨m, further, worlds, endings⟩ := outcomes
  · exact absurd gaveUp ends
  refine ⟨?_, ends, ⟨m, further, worlds, endings⟩, fun scope name => ?_, fun ref inside => ?_⟩
  · intro exhausted
    rw [exhausted] at endings
    generalize p.1 = ending at endings ends
    cases endings
    exact ends rfl
  · have found := worlds.stores.stores.find scope name
    generalize o.2.store.find? scope name = x at found ⊢
    generalize p.2.store.find? scope name = y at found ⊢
    cases found with
    | none => rfl
    | some refs => exact congrArg some (worlds.stores.stores.snapshot refs)
  · exact worlds.stores.stores.snapshot (further.refs ⟨rfl, inside⟩)

/-- A loop that goes on until its condition holds and one that goes on while the negation holds both
never end, or both end alike. -/
theorem untilLoop_whileNot (wellFormed : w.store.WellFormed)
    (decides : Decides condition body frame w) :
    (∀ fuel, (eval fuel (.untilLoop condition body span) frame w).1 = .fault .exhausted ∧
      (eval fuel (.whileLoop (.unary .not mark condition inner) body span') frame w).1 =
        .fault .exhausted) ∨
    ∃ fuel, EndAlike w.store (eval fuel (.untilLoop condition body span) frame w)
      (eval fuel (.whileLoop (.unary .not mark condition inner) body span') frame w) := by
  have worlds : renumbering.Worlds (identity w.store) w w :=
    ⟨renumbers_identity wellFormed, rfl, rfl, rfl, rfl, rfl⟩
  by_cases ends : ∃ fuel, (eval fuel (.whileLoop (.unary .not mark condition inner) body span')
      frame w).1 ≠ .fault .exhausted
  · obtain ⟨fuel, ends⟩ := ends
    cases fuel with
    | zero => exact absurd rfl ends
    | succ n =>
        have outcomes := outcomes_until (n := n) mark inner span span' worlds decides
        exact .inr ⟨n + 1, endAlike_of_outcomes outcomes ends⟩
  · have never (fuel : Nat) := not_not.mp fun ended => ends ⟨fuel, ended⟩
    refine .inl fun fuel => ⟨?_, never fuel⟩
    cases fuel with
    | zero => rfl
    | succ n =>
        obtain gaveUp | ⟨m, -, -, endings⟩ :=
          outcomes_while (n := n) mark inner span span' worlds decides
        · exact gaveUp
        · rw [never (n + 2)] at endings
          generalize (eval (n + 1) _ frame w).1 = ending at endings
          cases endings
          rfl

end

/-! ## Conditions that compare -/

/-- The operators whose results are truth values. -/
def BinaryOp.compares : BinaryOp → Bool
  | equal => true
  | notEqual => true
  | less => true
  | greater => true
  | lessEqual => true
  | greaterEqual => true
  | _ => false

namespace Datum

variable {op : BinaryOp} {value : Datum}

theorem truth_of_ofOrder {order : Except Fault (Option Ordering)} {holds : Ordering → Bool}
    (run : ofOrder order holds = .ok value) : ∃ b, value = .truth b := by
  cases order with
  | ok order => exact ⟨_, (Except.ok.inj run).symm⟩
  | error fault => cases run

theorem truth_of_numberOperation (compares : op.compares = true) {a b : Number}
    (run : numberOperation a b op = .ok value) : ∃ b, value = .truth b := by
  cases op with
  | equal | notEqual => exact ⟨_, (Except.ok.inj run).symm⟩
  | less | greater | lessEqual | greaterEqual => exact truth_of_ofOrder run
  | add | sub | mul | div | mod | pow | and | or => cases compares

theorem truth_of_truthOperation (compares : op.compares = true) {a b : Bool}
    (run : truthOperation a b op = .ok value) : ∃ b, value = .truth b := by
  cases op with
  | equal | notEqual => exact ⟨_, (Except.ok.inj run).symm⟩
  | less | greater | lessEqual | greaterEqual => cases run
  | add | sub | mul | div | mod | pow | and | or => cases compares

theorem truth_of_scalarOperation (compares : op.compares = true) {d e : Datum}
    (run : d.scalarOperation op e = .ok value) : ∃ b, value = .truth b := by
  unfold scalarOperation at run
  split at run
  · exact truth_of_numberOperation compares run
  · exact truth_of_truthOperation compares run
  · split at run
    · next isAdd => rw [isAdd] at compares; cases compares
    · cases run
  · split at run
    · next isMul => rw [isMul] at compares; cases compares
    · cases run
  · cases run

end Datum

/-- A comparison of two objects gives a truth value, or nothing. -/
theorem Store.truth_of_binary {op : BinaryOp} (compares : op.compares = true) {s t : Store}
    {left right ref : Ref} (run : s.binary op left right = (.ok ref, t)) :
    ∃ b, t.datum ref = .truth b := by
  unfold Store.binary Store.operate at run
  dsimp only at run
  split at run
  · next storage isList =>
      cases op with
      | equal | notEqual | less | greater | lessEqual | greaterEqual => cases run
      | add | sub | mul | div | mod | pow | and | or => cases compares
  · split at run
    · next value found =>
        obtain ⟨b, isTruth⟩ := Datum.truth_of_scalarOperation compares found
        cases run
        exact ⟨b, (Store.holds_alloc s _).datum_eq.trans isTruth⟩
    · cases run

/-- A loop whose condition is a comparison finds nothing but truth values for it. -/
theorem decides_of_compares (op : BinaryOp) (compares : op.compares = true) (left right : Node)
    (mark span : Span) (body : Node) (frame : Frame) (w : World) :
    Decides (.binary left op mark right span) body frame w := by
  intro v _ fuel ref tested run
  cases fuel with
  | zero => cases run
  | succ fuel =>
      obtain ⟨leftRef, _, -, run⟩ := Eval.exists_of_bind run
      obtain ⟨rightRef, before, -, run⟩ := Eval.exists_of_bind run
      obtain ⟨result, after, tried, placed⟩ := Eval.exists_of_bind run
      obtain ⟨store, worked, rfl⟩ := Eval.exists_of_tryStore tried
      obtain ⟨b, isTruth⟩ := Store.truth_of_binary compares worked
      cases placed
      exact ⟨b, (Store.datum_setSpan store _ span _).trans isTruth⟩

/-- The body of a loop that counts with a name, skips a number and is left early. -/
def counting : Node :=
  .list [
    .assign ⟨"NULL", default⟩
      (.binary (.access ⟨"NULL", default⟩) .add default (.number (.whole 1) default) default)
      default,
    .branch
      (.binary (.access ⟨"NULL", default⟩) .equal default (.number (.whole 1) default) default)
      (.continuing default) [] none default,
    .call (.access ⟨"DISPLAY", default⟩) [.access ⟨"NULL", default⟩] default,
    .branch
      (.binary (.access ⟨"NULL", default⟩) .equal default (.number (.whole 2) default) default)
      (.breaking default) [] none default] default

/-- The condition that the count is above nine. -/
def aboveNine : Node :=
  .binary (.access ⟨"NULL", default⟩) .greater default (.number (.whole 9) default) default

theorem untilLoop_whileNot_counting :
    (eval 8 (.untilLoop aboveNine counting default) (.program Store.globalScope)
      (World.start {} [] (mkStdGen 0))).2.output = "2\n" ∧
    ∃ fuel, EndAlike Store.start
      (eval fuel (.untilLoop aboveNine counting default) (.program Store.globalScope)
        (World.start {} [] (mkStdGen 0)))
      (eval fuel (.whileLoop (.unary .not default aboveNine default) counting default)
        (.program Store.globalScope) (World.start {} [] (mkStdGen 0))) := by
  have ends : (eval 8 (.untilLoop aboveNine counting default) (.program Store.globalScope)
      (World.start {} [] (mkStdGen 0))).1.isExhausted = false := by decide +kernel
  have decides := decides_of_compares .greater rfl (.access ⟨"NULL", default⟩)
    (.number (.whole 9) default) default default counting (.program Store.globalScope)
    (World.start {} [] (mkStdGen 0))
  refine ⟨by decide +kernel, ?_⟩
  have both := untilLoop_whileNot default default default default Store.WellFormed.start decides
  exact both.resolve_left fun never => Ending.ne_exhausted ends (never 8).1

end Pseudocode
