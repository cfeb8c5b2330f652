import Pseudocode.Proofs.Evaluation.Accord

/-!
# Steps in accord

The built-in procedures are in accord by the laws for what they are made of, and with them one step
of the evaluation of any node.  Only operators and calls may depend on where a run is barred; for
runs that are not barred there, laws for the operators and for questions to the robot are enough.
-/

namespace Pseudocode
namespace Accord

variable {accord : Accord} {b : Bool} {link : accord.Link}
variable {self self' : Evaluator} {f g : Frame} {n m : Node} {p q : Span} {r r' : Ref}

/-! ## Built-in procedures -/

theorem rel_listArgument (problem : RuntimeProblem) (refs : accord.Refs link r r')
    (spans : accord.Spans p q) (frames : accord.Frames link f g) :
    accord.Rel b link accord.Storages (Site.listArgument ⟨p, f⟩ r problem)
      (Site.listArgument ⟨q, g⟩ r' problem) := by
  apply accord.rel_bind (accord.rel_object refs)
  intro later o o' further objects
  have owners := accord.owners_of_frames (accord.frames_mono further frames)
  obtain ⟨d, span, frame⟩ := o
  obtain ⟨d', span', frame'⟩ := o'
  cases objects.data with
  | list storages => exact accord.rel_pure storages
  | number | truth | text | procedure | builtin | bare => exact accord.rel_fail _ owners spans

theorem rel_numberArgument (problem : RuntimeProblem) (refs : accord.Refs link r r')
    (spans : accord.Spans p q) (frames : accord.Frames link f g) :
    accord.Rel b link accord.Same (Site.numberArgument ⟨p, f⟩ r problem)
      (Site.numberArgument ⟨q, g⟩ r' problem) := by
  apply accord.rel_bind (accord.rel_object refs)
  intro later o o' further objects
  have owners := accord.owners_of_frames (accord.frames_mono further frames)
  obtain ⟨d, span, frame⟩ := o
  obtain ⟨d', span', frame'⟩ := o'
  cases objects.data with
  | number value => exact accord.rel_pure rfl
  | list | truth | text | procedure | builtin | bare => exact accord.rel_fail _ owners spans

section

variable {sources sources' : Source → Eval Unit} {i i' l l' : Ref}

theorem rel_nothing : accord.Rel b link accord.Refs (pure Store.nullRef) (pure Store.nullRef) :=
  rel_refs accord.rel_null

theorem rel_display (values : accord.Refs link r r') :
    accord.Rel b link accord.Refs (Builtin.display.perform sources ⟨p, f⟩ [r])
      (Builtin.display.perform sources' ⟨q, g⟩ [r']) := by
  apply accord.rel_bind (accord.rel_snapshot values)
  intro second shot shot' _ same
  cases same
  apply accord.rel_bind (rel_ofExcept _)
  intro third text text' _ same
  cases same
  apply accord.rel_bind (accord.rel_print _)
  intro last _ _ _ _
  exact rel_nothing

theorem rel_input :
    accord.Rel b link accord.Refs (Builtin.input.perform sources ⟨p, f⟩ [])
      (Builtin.input.perform sources' ⟨q, g⟩ []) := by
  apply accord.rel_bind accord.rel_readLine
  intro later line line' _ same
  cases same
  exact accord.rel_answer (Builtin.isScalar_inputDatum line)

theorem rel_random (lows : accord.Refs link l l') (highs : accord.Refs link r r')
    (spans : accord.Spans p q) (frames : accord.Frames link f g) :
    accord.Rel b link accord.Refs (Builtin.random.perform sources ⟨p, f⟩ [l, r])
      (Builtin.random.perform sources' ⟨q, g⟩ [l', r']) := by
  apply accord.rel_bind (rel_numberArgument _ lows spans frames)
  intro second low low' further same
  cases same
  apply accord.rel_bind (rel_numberArgument _ (accord.refs_mono further highs) spans
    (accord.frames_mono further frames))
  intro third high high' _ same
  cases same
  apply accord.rel_bind (accord.rel_draw low high)
  intro last number number' _ same
  cases same
  exact accord.rel_answer rfl

theorem rel_append (lists : accord.Refs link l l') (values : accord.Refs link r r')
    (spans : accord.Spans p q) (frames : accord.Frames link f g) :
    accord.Rel b link accord.Refs (Builtin.append.perform sources ⟨p, f⟩ [l, r])
      (Builtin.append.perform sources' ⟨q, g⟩ [l', r']) := by
  apply accord.rel_bind (rel_listArgument _ lists spans frames)
  intro second t u further storages
  have moved := accord.refs_mono further values
  apply accord.rel_bind (accord.rel_updateElements storages fun later xs ys evenFurther lists =>
    lists.push (accord.refs_mono evenFurther moved))
  intro last _ _ _ _
  exact rel_nothing

theorem rel_insert (lists : accord.Refs link l l') (indices : accord.Refs link i i')
    (values : accord.Refs link r r') (spans : accord.Spans p q)
    (frames : accord.Frames link f g) :
    accord.Rel b link accord.Refs (Builtin.insert.perform sources ⟨p, f⟩ [l, i, r])
      (Builtin.insert.perform sources' ⟨q, g⟩ [l', i', r']) := by
  apply accord.rel_bind (rel_listArgument _ lists spans frames)
  intro second t u further storages
  apply accord.rel_bind (rel_numberArgument _ (accord.refs_mono further indices) spans
    (accord.frames_mono further frames))
  intro third number number' again same
  cases same
  apply accord.rel_bind (rel_ofExcept _)
  intro fourth index index' onward same
  cases same
  have further := accord.extends_trans further (accord.extends_trans again onward)
  have storages := accord.storages_mono onward (accord.storages_mono again storages)
  have inserted : accord.Rel b fourth accord.Same
      (Eval.modifyStore fun store => store.updateElements t fun elements =>
        Builtin.insertAt elements (Builtin.insertionPlace elements.size index) r)
      (Eval.modifyStore fun store => store.updateElements u fun elements =>
        Builtin.insertAt elements (Builtin.insertionPlace elements.size index) r') := by
    apply accord.rel_updateElements storages
    intro later xs ys evenFurther lists
    rw [lists.size_eq]
    exact lists.insert (accord.refs_mono (accord.extends_trans further evenFurther) values) _
  apply accord.rel_bind inserted
  intro last _ _ _ _
  exact rel_nothing

theorem rel_remove (lists : accord.Refs link l l') (indices : accord.Refs link i i')
    (spans : accord.Spans p q) (frames : accord.Frames link f g) :
    accord.Rel b link accord.Refs (Builtin.remove.perform sources ⟨p, f⟩ [l, i])
      (Builtin.remove.perform sources' ⟨q, g⟩ [l', i']) := by
  apply accord.rel_bind (rel_listArgument _ lists spans frames)
  intro second t u further storages
  have moved := accord.frames_mono further frames
  apply accord.rel_bind (rel_numberArgument _ (accord.refs_mono further indices) spans moved)
  intro third index index' again same
  cases same
  have storages := accord.storages_mono again storages
  apply accord.rel_bind (accord.rel_elements storages)
  intro fourth xs ys onward elements
  have owners :=
    accord.owners_of_frames (accord.frames_mono onward (accord.frames_mono again moved))
  rw [elements.size_eq]
  cases listIndex? ys.size index with
  | none => exact accord.rel_fail _ owners spans
  | some place =>
      dsimp only
      have found := elements.getElem? place
      generalize xs[place]? = x at found ⊢
      generalize ys[place]? = y at found ⊢
      cases found with
      | none => exact accord.rel_fail _ owners spans
      | some element =>
          apply accord.rel_bind (accord.rel_updateElements (accord.storages_mono onward storages)
            fun later xs ys _ lists => lists.erase place)
          intro last _ _ evenFurther _
          exact accord.rel_pure (accord.refs_mono evenFurther element)

theorem rel_length (lists : accord.Refs link l l') (spans : accord.Spans p q)
    (frames : accord.Frames link f g) :
    accord.Rel b link accord.Refs (Builtin.length.perform sources ⟨p, f⟩ [l])
      (Builtin.length.perform sources' ⟨q, g⟩ [l']) := by
  apply accord.rel_bind (rel_listArgument _ lists spans frames)
  intro second t u further storages
  apply accord.rel_bind (accord.rel_elements storages)
  intro last xs ys _ elements
  rw [elements.size_eq]
  exact accord.rel_answer rfl

theorem rel_ordered {act : Robot → Robot.Answer Unit} (isOrder : Robot.IsOrder act)
    (spans : accord.Spans p q) :
    accord.Rel b link accord.Refs
      (do Eval.command (some p) act; return Store.nullRef)
      (do Eval.command (some q) act; return Store.nullRef) := by
  apply accord.rel_bind (accord.rel_order isOrder spans)
  intro later _ _ _ _
  exact rel_nothing

theorem rel_run (names : accord.Refs link r r')
    (rel : ∀ later source, accord.Extends link later → accord.Runs source →
      accord.Rel b later accord.Same (sources source) (sources' source))
    (spans : accord.Spans p q) (frames : accord.Frames link f g) :
    accord.Rel b link accord.Refs (Builtin.run.perform sources ⟨p, f⟩ [r])
      (Builtin.run.perform sources' ⟨q, g⟩ [r']) := by
  apply accord.rel_bind (accord.rel_object names)
  intro second o o' further objects
  have moved := accord.frames_mono further frames
  obtain ⟨d, span, frame⟩ := o
  obtain ⟨d', span', frame'⟩ := o'
  have refused := accord.rel_fail (b := b) (R := accord.Refs) .notText
    (accord.owners_of_frames moved) spans
  cases objects.data with
  | text name =>
      apply accord.rel_bind accord.rel_scripts
      intro third scripts scripts' again found
      obtain ⟨rfl, runs⟩ := found
      have here := accord.frames_mono again moved
      cases opened : scripts.read name with
      | error obstacle => exact accord.rel_fail _ (accord.owners_of_frames here) spans
      | ok content =>
          have script := rel third ⟨name, content⟩ (accord.extends_trans further again)
            (runs name content opened)
          apply accord.rel_bind (accord.rel_runScript name script here spans)
          intro last _ _ _ _
          exact rel_nothing
  | number | list | truth | procedure | builtin | bare => exact refused

/-- A built-in procedure that is handed the right number of arguments, or another one.  How a robot
is asked for a free way is left open. -/
theorem rel_perform {refs refs' : List Ref} (builtin : Builtin)
    (rel : ∀ later source, accord.Extends link later → accord.Runs source →
      accord.Rel b later accord.Same (sources source) (sources' source))
    (asks : ∀ {r r'}, builtin = .canMove → accord.Refs link r r' →
      accord.Rel b link accord.Refs (Builtin.canMove.perform sources ⟨p, f⟩ [r])
        (Builtin.canMove.perform sources' ⟨q, g⟩ [r']))
    (lists : accord.RefLists link refs refs') (spans : accord.Spans p q)
    (frames : accord.Frames link f g) :
    accord.Rel b link accord.Refs (builtin.perform sources ⟨p, f⟩ refs)
      (builtin.perform sources' ⟨q, g⟩ refs') := by
  obtain _ | ⟨first, _ | ⟨second, _ | ⟨third, _ | ⟨_, _⟩⟩⟩⟩ := lists
  · cases builtin with
    | input => exact rel_input
    | clear => exact rel_nothing
    | createGrid => exact rel_ordered .createGrid spans
    | moveForward => exact rel_ordered .moveForward spans
    | rotateLeft => exact rel_ordered .rotateLeft spans
    | rotateRight => exact rel_ordered .rotateRight spans
    | display | random | append | insert | remove | length | canMove | run =>
        exact accord.rel_abort _
  · cases builtin with
    | display => exact rel_display first
    | length => exact rel_length first spans frames
    | canMove => exact asks rfl first
    | run => exact rel_run first rel spans frames
    | input | clear | createGrid | moveForward | rotateLeft | rotateRight | random | append
    | insert | remove => exact accord.rel_abort _
  · cases builtin with
    | random => exact rel_random first second spans frames
    | append => exact rel_append first second spans frames
    | remove => exact rel_remove first second spans frames
    | input | clear | createGrid | moveForward | rotateLeft | rotateRight | display | length
    | canMove | run | insert => exact accord.rel_abort _
  · cases builtin with
    | insert => exact rel_insert first second third spans frames
    | input | clear | createGrid | moveForward | rotateLeft | rotateRight | display | length
    | canMove | run | random | append | remove => exact accord.rel_abort _
  · cases builtin <;> exact accord.rel_abort _

end

/-! ## Steps -/

/-- Steps that may depend on where a run is barred: operators and calls. -/
structure Steps (accord : Accord) (first second : Evaluator) : Prop where
  binary {b : Bool} {link : accord.Link} {l l' r r' : Node} {mark p q : Span} {f g : Frame}
    {w v : World} (op : BinaryOp) : accord.Nodes b l l' → accord.Nodes b r r' →
    accord.Spans p q → accord.Frames link f g → accord.Worlds link w v →
    accord.barred (.binary l' op mark r' q) g v = false →
    accord.Outcomes b link accord.Values (first.binary l op r p f w) (second.binary l' op r' q g v)
  unary {b : Bool} {link : accord.Link} {n m : Node} {mark p q : Span} {f g : Frame}
    {w v : World} (op : UnaryOp) : accord.Nodes b n m → accord.Spans p q →
    accord.Frames link f g → accord.Worlds link w v →
    accord.barred (.unary op mark m q) g v = false →
    accord.Outcomes b link accord.Values (first.unary op n p f w) (second.unary op m q g v)
  call {b : Bool} {link : accord.Link} {n m : Node} {ns ms : List Node} {p q : Span}
    {f g : Frame} {w v : World} : accord.Nodes b n m → List.Forall₂ (accord.Nodes b) ns ms →
    accord.Spans p q → accord.Frames link f g → accord.Worlds link w v →
    accord.barred (.call m ms q) g v = false →
    accord.Outcomes b link accord.Values (first.call n ns p f w) (second.call m ms q g v)

/-- One step: nodes that answer to each other, over parts that are evaluated in accord. -/
theorem outcomes_step (agree : accord.Evaluators self self') (steps : accord.Steps self self')
    {w v : World} {fuel fuel' : Nat} (bounds : accord.Bounds fuel fuel')
    (nodes : accord.Nodes b n m) (frames : accord.Frames link f g)
    (worlds : accord.Worlds link w v) (free : accord.barred m g v = false) :
    accord.Outcomes b link accord.Values (self.step fuel n f w) (self'.step fuel' m g v) := by
  have owners := accord.owners_of_frames frames
  have literal {d d' : Datum} {p q : Span} (data : accord.Data link d d') (some : d ≠ .bare)
      (spans : accord.Spans p q) :
      accord.Outcomes b link accord.Values (Eval.fresh ⟨d, .some p, .some f⟩ w)
        (Eval.fresh ⟨d', .some q, .some g⟩ v) :=
    accord.rel_fresh ⟨data, .some spans, .some owners⟩ some rfl w v worlds
  cases accord.shapes_of_nodes nodes with
  | number value spans => exact literal (.number value) (fun bare => by cases bare) spans
  | truth value spans => exact literal (.truth value) (fun bare => by cases bare) spans
  | text value spans => exact literal (.text value) (fun bare => by cases bare) spans
  | list elements spans => exact rel_listOf agree elements spans frames w v worlds
  | access texts spans => exact accord.outcomes_access texts spans frames worlds free
  | assign texts values => exact rel_assign agree texts values frames w v worlds
  | binary op lefts rights spans => exact steps.binary op lefts rights spans frames worlds free
  | unary op operands spans => exact steps.unary op operands spans frames worlds free
  | branch conditions bodies others otherwise =>
      have guards : List.Forall₂ (fun c d => accord.Nodes b c.1 d.1 ∧ accord.Nodes b c.2 d.2)
          ((_, _) :: _) ((_, _) :: _) := .cons ⟨conditions, bodies⟩ others
      exact rel_cases agree guards otherwise frames w v worlds
  | forEach texts lists bodies =>
      exact rel_forEach agree bounds texts lists bodies frames w v worlds
  | whileLoop conditions bodies =>
      exact rel_whileTest agree bounds true conditions bodies frames w v worlds
  | untilLoop conditions bodies =>
      exact rel_whileTest agree bounds false conditions bodies frames w v worlds
  | repeatFixed count bodies =>
      exact rel_repeatTimes agree bounds count bodies frames w v worlds
  | repeatBy counts bodies => exact rel_repeatBy agree bounds counts bodies frames w v worlds
  | procedure names parameters bodies spans =>
      exact rel_define names parameters bodies spans frames w v worlds
  | call callees arguments spans => exact steps.call callees arguments spans frames worlds free
  | returning values => exact rel_returnFrom agree values frames w v worlds
  | continuing => exact accord.rel_continue nodes w v worlds
  | breaking => exact accord.rel_break nodes w v worlds

/-! ## Operators and calls that are not barred -/

/-- Laws for operators and for questions to the robot, wherever they stand. -/
structure Plain (accord : Accord) : Prop where
  located {b : Bool} {link : accord.Link} {r r' : Ref} {p q : Span} : accord.Refs link r r' →
    accord.Spans p q →
    accord.Rel b link accord.Values (Eval.located r p) (Eval.located r' q)
  operation {b : Bool} {link : accord.Link} {l l' r r' : Ref} (op : BinaryOp) :
    accord.Refs link l l' → accord.Refs link r r' → accord.Rel b link accord.Refs
      (Eval.tryStore fun s => s.binary op l r) (Eval.tryStore fun s => s.binary op l' r')
  negation {b : Bool} {link : accord.Link} {r r' : Ref} : accord.Refs link r r' →
    accord.Rel b link accord.Refs (Eval.tryStore fun s => s.negate r)
      (Eval.tryStore fun s => s.negate r')
  question {b : Bool} {link : accord.Link} (direction : String) :
    accord.Rel b link accord.Same (Eval.command none fun robot => robot.canMove direction)
      (Eval.command none fun robot => robot.canMove direction)

theorem rel_binary (plain : accord.Plain) (agree : accord.Evaluators self self')
    {k k' : Node} (op : BinaryOp) (lefts : accord.Nodes b k k') (rights : accord.Nodes b n m)
    (spans : accord.Spans p q) (frames : accord.Frames link f g) :
    accord.Rel b link accord.Values (self.binary k op n p f) (self'.binary k' op m q g) := by
  apply accord.rel_bind (rel_refs (agree.run lefts frames))
  intro second l l' further left
  apply accord.rel_bind (rel_refs (agree.run rights (accord.frames_mono further frames)))
  intro third r r' evenFurther right
  apply accord.rel_bind (plain.operation op (accord.refs_mono evenFurther left) right)
  intro last result result' _ refs
  exact plain.located refs spans

theorem rel_unary (plain : accord.Plain) (agree : accord.Evaluators self self') (op : UnaryOp)
    (nodes : accord.Nodes b n m) (spans : accord.Spans p q) (frames : accord.Frames link f g) :
    accord.Rel b link accord.Values (self.unary op n p f) (self'.unary op m q g) := by
  apply accord.rel_bind (rel_refs (agree.run nodes frames))
  intro second r r' _ operand
  cases op with
  | plus => exact plain.located operand spans
  | minus =>
      apply accord.rel_bind (accord.rel_answer rfl)
      intro third one one' further minusOne
      apply accord.rel_bind (plain.operation .mul (accord.refs_mono further operand) minusOne)
      intro last result result' _ refs
      exact plain.located refs spans
  | not =>
      apply accord.rel_bind (plain.negation operand)
      intro last result result' _ refs
      exact plain.located refs spans

theorem rel_canMove (plain : accord.Plain) {sources sources' : Source → Eval Unit}
    (directions : accord.Refs link r r') (spans : accord.Spans p q)
    (frames : accord.Frames link f g) :
    accord.Rel b link accord.Refs (Builtin.canMove.perform sources ⟨p, f⟩ [r])
      (Builtin.canMove.perform sources' ⟨q, g⟩ [r']) := by
  apply accord.rel_bind (accord.rel_object directions)
  intro later o o' further objects
  have owners := accord.owners_of_frames (accord.frames_mono further frames)
  obtain ⟨d, span, frame⟩ := o
  obtain ⟨d', span', frame'⟩ := o'
  cases objects.data with
  | text name =>
      dsimp only
      split
      · apply accord.rel_bind (plain.question name)
        intro last free free' _ same
        cases same
        exact accord.rel_answer rfl
      · exact accord.rel_fail _ owners spans
  | number | list | truth | procedure | builtin | bare => exact accord.rel_fail _ owners spans

theorem rel_performed (plain : accord.Plain) (agree : accord.Evaluators self self')
    {refs refs' : List Ref} (builtin : Builtin) (lists : accord.RefLists link refs refs')
    (spans : accord.Spans p q) (frames : accord.Frames link f g) :
    accord.Rel b link accord.Refs
      (builtin.perform (fun source => discard (self.runSource source)) ⟨p, f⟩ refs)
      (builtin.perform (fun source => discard (self'.runSource source)) ⟨q, g⟩ refs') := by
  refine rel_perform builtin ?_ ?_ lists spans frames
  · intro later source _ runs
    exact rel_discard (rel_runSource agree runs)
  · intro r r' _ refs
    exact rel_canMove plain refs spans frames

theorem rel_invoke (plain : accord.Plain) (agree : accord.Evaluators self self') {o o' : Object}
    {refs refs' : List Ref} (objects : accord.Objects link o o')
    (lists : accord.RefLists link refs refs') (spans : accord.Spans p q) :
    accord.Rel b link accord.Refs (self.invoke o refs p) (self'.invoke o' refs' q) := by
  obtain ⟨d, span, frame⟩ := o
  obtain ⟨d', span', frame'⟩ := o'
  have owners := objects.frames
  cases objects.data with
  | procedure name parameters bodies =>
      apply accord.rel_bind (rel_enter name parameters owners lists spans)
      intro later f g _ frames
      exact accord.rel_callBody (agree.run bodies frames)
  | builtin builtin =>
      apply accord.rel_bind (rel_enter builtin.name builtin.parameters owners lists spans)
      intro later f g further frames
      exact rel_performed plain agree builtin (refLists_mono further lists) spans frames
  | number | truth | text | list | bare => exact accord.rel_abort _

/-- A call of an object, however it is started. -/
theorem rel_callObject {start start' : Object → List Ref → Eval Ref}
    {arguments arguments' : Eval (List Ref)} (callees : accord.Refs link r r')
    (starts : ∀ {later o o' refs refs'}, accord.Extends link later →
      accord.Objects later o o' → accord.RefLists later refs refs' →
      accord.Rel b later accord.Refs (start o refs) (start' o' refs'))
    (lists : ∀ later, accord.Extends link later →
      accord.Rel b later accord.RefLists arguments arguments')
    (spans : accord.Spans p q) (owners : accord.Owners link f g) :
    accord.Rel b link accord.Values
      (do
        let callee ← Eval.object r
        let refs ← arguments
        let result ← start callee refs
        Eval.takenOver result p f)
      (do
        let callee ← Eval.object r'
        let refs ← arguments'
        let result ← start' callee refs
        Eval.takenOver result q g) := by
  apply accord.rel_bind (accord.rel_object callees)
  intro second o o' further objects
  apply accord.rel_bind (lists second further)
  intro third refs refs' again lists
  have evenFurther := accord.extends_trans further again
  apply accord.rel_bind (starts evenFurther (objects_mono again objects) lists)
  intro last result result' onward refs
  have moved := accord.owners_mono onward (accord.owners_mono evenFurther owners)
  exact accord.rel_takenOver refs spans moved

theorem rel_call (plain : accord.Plain) (agree : accord.Evaluators self self')
    {ns ms : List Node} (callees : accord.Nodes b n m)
    (nodes : List.Forall₂ (accord.Nodes b) ns ms) (spans : accord.Spans p q)
    (frames : accord.Frames link f g) :
    accord.Rel b link accord.Values (self.call n ns p f) (self'.call m ms q g) := by
  apply accord.rel_bind (rel_refs (agree.run callees frames))
  intro later r r' further refs
  have moved := accord.frames_mono further frames
  refine rel_callObject refs ?_ ?_ spans (accord.owners_of_frames moved)
  · intro last o o' refs refs' _ objects lists
    exact rel_invoke plain agree objects lists spans
  · intro last again
    exact rel_all agree nodes (accord.frames_mono again moved)

/-- Where nothing is barred the steps are in accord. -/
theorem Plain.steps (plain : accord.Plain) (agree : accord.Evaluators self self') :
    accord.Steps self self' where
  binary op lefts rights spans frames worlds _ :=
    rel_binary plain agree op lefts rights spans frames _ _ worlds
  unary op nodes spans frames worlds _ := rel_unary plain agree op nodes spans frames _ _ worlds
  call callees nodes spans frames worlds _ :=
    rel_call plain agree callees nodes spans frames _ _ worlds

end Accord
end Pseudocode
