import Pseudocode.Proofs.Evaluation.Formula
import Pseudocode.Proofs.Evaluation.Growth
import Pseudocode.Session

/-!
# Running formulas

The evaluator computes with objects in the store.  On the objects of numbers and truth values every
operation is the operation on the values themselves: it makes one new object, or it is refused for
the mishap.  From this follows what the evaluation of a whole formula gives, by induction on the
formula, and what a session gives that runs the text of the formula.
-/

namespace Pseudocode

/-- The datum of a value. -/
def Value.datum : Value → Datum
  | whole n => .number (.whole n)
  | truth b => .truth b

/-- Why an operation is refused after a mishap. -/
def Mishap.refusal : Mishap → Refusal
  | illTyped => .illegal
  | zeroDivisor => .divisionByZero

/-- The problem that a mishap is reported as. -/
def Mishap.problem : Mishap → RuntimeProblem
  | illTyped => .illegalOperation
  | zeroDivisor => .divisionByZero

/-- The wording of a mishap is that of the problem it is reported as. -/
theorem Mishap.message_problem (mishap : Mishap) : mishap.problem.message = mishap.message := by
  cases mishap <;> rfl

/-! ## Operations on values -/

/-- What an operation on data gives that belongs to the result of an operation on values. -/
def scalarResult : Except Mishap Value → Except Refusal Datum
  | .ok value => .ok value.datum
  | .error mishap => .error mishap.refusal

theorem fmod_eq_remainder (a b : Int) : Int.fmod a b = Value.remainder a b := by
  rw [Int.fmod_eq_emod, Value.remainder]
  by_cases negative : b < 0
  · have multiple : b ∣ a → a % b = 0 := Int.emod_eq_zero_of_dvd
    rw [if_pos negative, Int.neg_emod]
    split <;> split <;> omega
  · rw [if_neg negative, if_pos (Or.inl (by omega)), Int.add_zero]

/-- A comparison of whole numbers is decided by their order. -/
theorem ofOrder_whole {a b : Int} {holds : Ordering → Bool} {p : Prop} [Decidable p]
    (same : holds (compare a b) = true ↔ p) :
    Datum.ofOrder (Number.order (.whole a) (.whole b)) holds =
      scalarResult (.ok (.truth (decide p))) := by
  have found : holds (compare a b) = decide p := by
    rw [Bool.eq_iff_iff, same, decide_eq_true_iff]
  rw [← found]
  rfl

theorem numberOperation_whole {op : BinaryOp} (exactOp : isExact op = true) (a b : Int) :
    Datum.numberOperation (.whole a) (.whole b) op =
      scalarResult (Value.binary op (.whole a) (.whole b)) := by
  cases op with
  | div => cases exactOp
  | pow doubled => cases exactOp
  | add => rfl
  | sub => rfl
  | mul => rfl
  | and => rfl
  | or => rfl
  | mod =>
      by_cases zero : b = 0
      · simp [Datum.numberOperation, Number.isZero, Value.binary, zero, scalarResult,
          Mishap.refusal]
      · simp [Datum.numberOperation, Number.isZero, Value.binary, zero, scalarResult, Value.datum,
          Number.mod, Datum.ofNumber, fmod_eq_remainder]
  | equal => rfl
  | notEqual => simp [Datum.numberOperation, Value.binary, scalarResult, Value.datum, Number.equal]
  | less => exact ofOrder_whole (by simp [Int.compare_eq_lt])
  | greater => exact ofOrder_whole (by simp [Int.compare_eq_gt])
  | lessEqual => exact ofOrder_whole (by simp [Int.compare_eq_gt])
  | greaterEqual => exact ofOrder_whole (by simp [Int.compare_eq_lt])

theorem truthOperation_eq {op : BinaryOp} (exactOp : isExact op = true) (a b : Bool) :
    Datum.truthOperation a b op = scalarResult (Value.binary op (.truth a) (.truth b)) := by
  cases op with
  | div => cases exactOp
  | pow doubled => cases exactOp
  | _ => cases a <;> cases b <;> rfl

/-- On numbers and truth values the operations are exact. -/
theorem scalarOperation_datum {op : BinaryOp} (exactOp : isExact op = true) (a b : Value) :
    Datum.scalarOperation op a.datum b.datum = scalarResult (Value.binary op a b) := by
  match a, b with
  | .whole m, .whole n => exact numberOperation_whole exactOp m n
  | .truth c, .truth d => exact truthOperation_eq exactOp c d
  | .whole _, .truth _ => cases op <;> rfl
  | .truth _, .whole _ => cases op <;> rfl

/-- To change the sign is to multiply by minus one. -/
theorem binary_mul_minusOne (a : Value) :
    Value.binary .mul a (.whole (-1)) = Value.unary .minus a := by
  cases a with
  | whole n => simp [Value.binary, Value.unary]
  | truth b => rfl

/-! ## Operations on objects -/

/-- What an operation on objects of an activation does to a store: it makes a new object with the
value, or it is refused for the mishap and makes none. -/
inductive Yields (s : Store) (frame : Frame) :
    Except Stop Ref × Store → Except Mishap Value → Prop
  | value (value : Value) :
      Yields s frame
        (.ok (s.alloc ⟨value.datum, none, some frame⟩).1,
          (s.alloc ⟨value.datum, none, some frame⟩).2)
        (.ok value)
  | mishap (mishap : Mishap) (place : Option Span) :
      Yields s frame (.error (.error ⟨.runtime mishap.problem (some frame), place⟩), s)
        (.error mishap)

section

variable {s : Store} {frame : Frame} {left right ref : Ref} {a b : Value}

/-- A value is no list, so that operations on it are operations on data. -/
theorem operate_of_ok {op : BinaryOp} {datum : Datum} (place : Option Span)
    (computed : Datum.scalarOperation op a.datum (s.datum right) = .ok datum) :
    s.operate op ⟨a.datum, place, some frame⟩ right = s.yield ⟨datum, none, some frame⟩ := by
  cases a <;> simp only [Store.operate, Value.datum] at computed ⊢ <;> rw [computed]

theorem operate_of_error {op : BinaryOp} {refusal : Refusal} (place : Option Span)
    (computed : Datum.scalarOperation op a.datum (s.datum right) = .error refusal) :
    s.operate op ⟨a.datum, place, some frame⟩ right = (.error refusal, s) := by
  cases a <;> simp only [Store.operate, Value.datum] at computed ⊢ <;> rw [computed]

theorem yields_binary {op : BinaryOp} (exactOp : isExact op = true) {place place' : Option Span}
    {owner : Option Frame} (leftHolds : s.Holds left ⟨a.datum, place, some frame⟩)
    (rightHolds : s.Holds right ⟨b.datum, place', owner⟩) :
    Yields s frame (s.binary op left right) (Value.binary op a b) := by
  have operand : s.datum right = b.datum := rightHolds.datum_eq
  have computed := scalarOperation_datum exactOp a b
  rw [← operand] at computed
  rw [Store.binary, leftHolds.object_eq, rightHolds.object_eq]
  generalize Value.binary op a b = result at computed ⊢
  cases result with
  | ok value =>
      rw [operate_of_ok place computed]
      exact .value value
  | error mishap =>
      rw [operate_of_error place computed]
      cases mishap with
      | illTyped => exact .mishap .illTyped place
      | zeroDivisor => exact .mishap .zeroDivisor place'

theorem yields_negate {place : Option Span} (holds : s.Holds ref ⟨a.datum, place, some frame⟩) :
    Yields s frame (s.negate ref) (Value.unary .not a) := by
  rw [Store.negate, holds.object_eq]
  cases a with
  | whole n => exact .mishap .illTyped place
  | truth b => exact .value (.truth !b)

end

/-! ## Evaluations -/

/-- What the evaluation of a formula in an activation comes to: a new object with its value, or the
error that belongs to the mishap.  The store has grown, and the rest of the world is as it was. -/
inductive Evaluates (w : World) (frame : Frame) :
    Ending Ref × World → Except Mishap Value → Prop
  | value {store : Store} {ref : Ref} {value : Value} {place : Option Span}
      (grows : w.store.Grows store) (new : w.store.objects.size ≤ ref.index)
      (holds : store.Holds ref ⟨value.datum, place, some frame⟩) :
      Evaluates w frame (.value ref, { w with store := store }) (.ok value)
  | mishap {store : Store} {mishap : Mishap} {place : Option Span}
      (grows : w.store.Grows store) :
      Evaluates w frame
        (.error ⟨.runtime mishap.problem (some frame), place⟩, { w with store := store })
        (.error mishap)

namespace Evaluates

variable {w : World} {frame : Frame} {self : Evaluator}

theorem fresh (value : Value) (span : Span) :
    Evaluates w frame (Eval.fresh ⟨value.datum, some span, some frame⟩ w) (.ok value) :=
  .value (Store.grows_alloc _ _) (Nat.le_refl _) (Store.holds_alloc _ _)

theorem located {s : Store} {ref : Ref} {value : Value} {place : Option Span}
    (grows : w.store.Grows s) (new : w.store.objects.size ≤ ref.index)
    (holds : s.Holds ref ⟨value.datum, place, some frame⟩) (span : Span) :
    Evaluates w frame (Eval.located ref span { w with store := s }) (.ok value) :=
  .value (grows.setSpan new span) new (Store.holds_setSpan holds span)

/-- An operation on the objects of operands, whose result is then placed. -/
theorem of_yields {s : Store} {work : Store → Except Stop Ref × Store}
    {result : Except Mishap Value} (grows : w.store.Grows s)
    (yields : Yields s frame (work s) result) (span : Span) :
    Evaluates w frame
      ((Eval.tryStore work >>= fun ref => Eval.located ref span) { w with store := s }) result := by
  generalize done : work s = outcome at yields
  cases yields with
  | value value =>
      rw [Eval.bind_of_value (Eval.tryStore_of_ok done)]
      have further := grows.trans (s.grows_alloc ⟨value.datum, none, some frame⟩)
      exact located further grows.size_le (s.holds_alloc _) span
  | mishap mishap place =>
      rw [Eval.bind_of_error (Eval.tryStore_of_error done)]
      exact .mishap grows

theorem unary {operand : Node} {result : Except Mishap Value}
    (evaluates : Evaluates w frame (self operand frame w) result) (op : UnaryOp) (span : Span) :
    Evaluates w frame (self.unary op operand span frame w) (result >>= Value.unary op) := by
  generalize run : self operand frame w = outcome at evaluates
  cases evaluates with
  | mishap grows =>
      have stopped : self.unary op operand span frame w = _ := Eval.bind_of_error run
      rw [stopped]
      exact .mishap grows
  | @value store ref value place grows new holds =>
      have continued : self.unary op operand span frame w = _ := Eval.bind_of_value run
      rw [continued]
      cases op with
      | plus => exact located grows new holds span
      | not => exact of_yields grows (yields_negate holds) span
      | minus =>
          let minusOne : Object := (Datum.number (.whole (-1))).object
          have further := store.grows_alloc minusOne
          have yields : Yields (store.alloc minusOne).2 frame
              ((store.alloc minusOne).2.binary .mul ref (store.alloc minusOne).1)
              (Value.binary .mul value (.whole (-1))) :=
            yields_binary rfl (further.objects _ _ holds) (store.holds_alloc minusOne)
          rw [binary_mul_minusOne] at yields
          exact of_yields (grows.trans further) yields span

/-- The right operand is evaluated in the world that the left one leaves behind. -/
theorem binary {left right : Node} {op : BinaryOp} (exactOp : isExact op = true)
    {leftResult rightResult : Except Mishap Value}
    (leftEvaluates : Evaluates w frame (self left frame w) leftResult)
    (rightEvaluates : ∀ w, Evaluates w frame (self right frame w) rightResult) (span : Span) :
    Evaluates w frame (self.binary left op right span frame w)
      (leftResult >>= fun a => rightResult >>= fun b => Value.binary op a b) := by
  generalize run : self left frame w = outcome at leftEvaluates
  cases leftEvaluates with
  | mishap grows =>
      have stopped : self.binary left op right span frame w = _ := Eval.bind_of_error run
      rw [stopped]
      exact .mishap grows
  | @value store ref value place grows new holds =>
      have continued : self.binary left op right span frame w = _ := Eval.bind_of_value run
      rw [continued]
      have second := rightEvaluates { w with store := store }
      generalize run' : self right frame { w with store := store } = outcome at second
      cases second with
      | mishap further =>
          rw [Eval.bind_of_error run']
          exact .mishap (grows.trans further)
      | @value store' ref' value' place' further new' holds' =>
          rw [Eval.bind_of_value run']
          have yields := yields_binary exactOp (further.objects _ _ holds) holds'
          exact of_yields (grows.trans further) yields span

end Evaluates

/-! ## Programs of one statement -/

section

variable {self : Evaluator} {node : Node} {frame : Frame} {w after : World}

/-- A list with the value of one node. -/
theorem listOf_of_value {ref : Ref} (run : self node frame w = (.value ref, after)) (span : Span) :
    ∃ store list storage,
      self.listOf [node] span frame w = (.value list, { after with store := store }) ∧
      after.store.Grows store ∧ store.datum list = .list storage ∧
      store.elements storage = #[ref] := by
  let grown := (after.store.allocStorage #[ref]).2
  let storage := (after.store.allocStorage #[ref]).1
  let object : Object := ⟨.list storage, some span, some frame⟩
  have elements : self.all frame [node] w = (.value [ref], after) := Eval.bind_of_value run
  have evaluated : self.listOf [node] span frame w =
      (.value (grown.alloc object).1, { after with store := (grown.alloc object).2 }) :=
    Eval.bind_of_value elements
  refine ⟨_, _, storage, evaluated, ?_, ?_, ?_⟩
  · exact (after.store.grows_allocStorage #[ref]).trans (grown.grows_alloc object)
  · exact (grown.holds_alloc object).datum_eq
  · exact after.store.elements_allocStorage #[ref]

theorem listOf_of_error {diagnostic : Diagnostic}
    (run : self node frame w = (.error diagnostic, after)) (span : Span) :
    self.listOf [node] span frame w = (.error diagnostic, after) := by
  have elements : self.all frame [node] w = (.error diagnostic, after) := Eval.bind_of_error run
  exact Eval.bind_of_error elements

end

namespace World

variable {w after : World} {source : Source} {tree : Node}

theorem runSource_of_parse (self : Evaluator) (parsed : source.parse = .ok tree) :
    self.runSource source = Eval.program (self tree (.program Store.globalScope)) := by
  unfold Evaluator.runSource
  rw [parsed]

theorem run_of_value (parsed : source.parse = .ok tree) {ref : Ref}
    (run : eval (limit source) tree (.program Store.globalScope) w = (.value ref, after)) :
    w.run source = (.value (some ref), after) := by
  have started := runSource_of_parse (eval (limit source)) parsed
  simp only [World.run, runWithin, started, Eval.program, run]

theorem run_of_error (parsed : source.parse = .ok tree) {diagnostic : Diagnostic}
    (run : eval (limit source) tree (.program Store.globalScope) w = (.error diagnostic, after)) :
    w.run source = (.error diagnostic, after) := by
  have started := runSource_of_parse (eval (limit source)) parsed
  simp only [World.run, runWithin, started, Eval.program, run]

end World

namespace Formula

theorem exists_of_depth_le {f : Formula} {fuel : Nat} (enough : f.depth ≤ fuel) :
    ∃ less, fuel = less + 1 := by
  have positive : 0 < f.depth := by cases f <;> exact Nat.succ_pos _
  exact ⟨fuel - 1, by omega⟩

/-- With enough fuel, the evaluator gives the value of a formula. -/
theorem evaluates (f : Formula) {node : Node} (shape : node.erase = f.node) {fuel : Nat}
    (enough : f.depth ≤ fuel) (frame : Frame) (w : World) :
    Evaluates w frame (eval fuel node frame w) f.value := by
  induction f generalizing node fuel w with
  | numeral n =>
      obtain ⟨span, rfl⟩ := Node.exists_number_of_erase shape
      obtain ⟨fuel, rfl⟩ := exists_of_depth_le enough
      exact .fresh (.whole n.value) span
  | truth b =>
      obtain ⟨span, rfl⟩ := Node.exists_truth_of_erase shape
      obtain ⟨fuel, rfl⟩ := exists_of_depth_le enough
      exact .fresh (.truth b) span
  | unary op operand ih =>
      obtain ⟨mark, inner, span, rfl, inner_shape⟩ := Node.exists_unary_of_erase shape
      obtain ⟨fuel, rfl⟩ := exists_of_depth_le enough
      have inner_enough : operand.depth ≤ fuel := Nat.le_of_succ_le_succ enough
      exact (ih inner_shape inner_enough w).unary op span
  | binary left op exactOp right left_ih right_ih =>
      obtain ⟨first, mark, second, span, rfl, left_shape, right_shape⟩ :=
        Node.exists_binary_of_erase shape
      obtain ⟨fuel, rfl⟩ := exists_of_depth_le enough
      have both : max left.depth right.depth ≤ fuel := Nat.le_of_succ_le_succ enough
      have left_enough : left.depth ≤ fuel := Nat.le_trans (Nat.le_max_left _ _) both
      have right_enough : right.depth ≤ fuel := Nat.le_trans (Nat.le_max_right _ _) both
      exact (left_ih left_shape left_enough w).binary exactOp
        (right_ih right_shape right_enough) span

/-- A session that runs the text of a formula gives a list with its value, or the error that belongs
to the first mishap.  Nothing is printed, no name is bound and all objects stay as they were. -/
theorem run_text (w : World) (name : String) (f : Formula) (outer : Bool) :
    ∃ store, w.store.Grows store ∧
      match f.value with
      | .ok value => ∃ list storage element,
          w.run ⟨name, f.text outer⟩ = (.value (some list), { w with store := store }) ∧
          store.datum list = .list storage ∧ store.elements storage = #[element] ∧
          store.datum element = value.datum
      | .error mishap => ∃ diagnostic,
          w.run ⟨name, f.text outer⟩ = (.error diagnostic, { w with store := store }) ∧
          diagnostic.problem.kind = "Runtime Error" ∧
          diagnostic.problem.details = mishap.message := by
  obtain ⟨tree, span, parsed, shape⟩ := f.parse_text outer name
  obtain ⟨fuel, limited, enough⟩ :
      ∃ fuel, World.limit ⟨name, f.text outer⟩ = fuel + 1 ∧ f.depth ≤ fuel := by
    have short := f.depth_le_text outer
    exact ⟨999999999999999 + (f.text outer).length, by simp only [World.limit]; omega, by omega⟩
  have evaluates := f.evaluates shape enough (.program Store.globalScope) w
  generalize run : eval fuel tree (.program Store.globalScope) w = outcome at evaluates
  generalize f.value = result at evaluates ⊢
  cases evaluates with
  | @value store element value place grows new holds =>
      obtain ⟨final, list, storage, listed, further, isList, elements⟩ := listOf_of_value run span
      refine ⟨final, grows.trans further, list, storage, element, ?_, isList, elements, ?_⟩
      · apply World.run_of_value parsed
        rw [limited]
        exact listed
      · exact (further.objects _ _ holds).datum_eq
  | @mishap store mishap place grows =>
      refine ⟨store, grows, ⟨.runtime mishap.problem (some (.program Store.globalScope)), place⟩,
        ?_, rfl, mishap.message_problem⟩
      apply World.run_of_error parsed
      rw [limited]
      exact listOf_of_error run span

end Formula
end Pseudocode
