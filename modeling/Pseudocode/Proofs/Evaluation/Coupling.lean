import Pseudocode.Proofs.Evaluation.Likeness
import Pseudocode.Proofs.Evaluation.Scalars

/-!
# Two evaluations side by side

A coupling is a likeness that the operations of the store keep up.  From its laws alone it follows
that two runs end alike, so a statement about all evaluations is proved by naming a coupling.  The
parts that evaluations are made of are treated here.
-/

namespace Pseudocode

open Pairing in
/-- Likenesses that every operation of the store keeps up. -/
structure Coupling extends Likeness where
  extends_refl (link : Link) : Extends link link
  extends_trans {a b c : Link} : Extends a b → Extends b c → Extends a c
  refs_mono {a b : Link} {r r' : Ref} : Extends a b → Refs a r r' → Refs b r r'
  storages_mono {a b : Link} {t u : StorageId} : Extends a b → Storages a t u → Storages b t u
  owners_mono {a b : Link} {f g : Frame} : Extends a b → Owners a f g → Owners b f g
  frames_mono {a b : Link} {f g : Frame} : Extends a b → Frames a f g → Frames b f g
  owners_of_frames {link : Link} {f g : Frame} : Frames link f g → Owners link f g
  entries_of_frames {link : Link} {f g : Frame} : Frames link f g → Entries link f g
  frames_of_entries {link : Link} {f g : Frame} {n : Node} {v : World} :
    Entries link f g → barred n g v = false → Frames link f g
  entries_program {link : Link} {s t : Store} : Stores link s t →
    Entries link (.program Store.globalScope) (.program Store.globalScope)
  nodes_refl (n : Node) : Nodes n n
  nodes_span {n m : Node} : Nodes n m → Spans n.span m.span
  shapes_of_nodes {n m : Node} : Nodes n m → toLikeness.Shapes n m
  object {link : Link} {s t : Store} {r r' : Ref} : Stores link s t → Refs link r r' →
    toLikeness.Objects link (s.object r) (t.object r')
  elements {link : Link} {s t : Store} {a b : StorageId} : Stores link s t → Storages link a b →
    Lists (Refs link) (s.elements a) (t.elements b)
  snapshot {link : Link} {s t : Store} {r r' : Ref} : Stores link s t → Refs link r r' →
    s.snapshot r = t.snapshot r'
  find {link : Link} {f g : Frame} {w v : World} {x : Name} : Stores link w.store v.store →
    Frames link f g → barred (.access x) g v = false →
    Option.Rel (Refs link) (w.store.find? f.scope x.text) (v.store.find? g.scope x.text)
  null {link : Link} {s t : Store} : Stores link s t → Refs link Store.nullRef Store.nullRef
  alloc {link : Link} {s t : Store} {o p : Object} : Stores link s t →
    toLikeness.Objects link o p → ∃ later, Extends link later ∧
      Stores later (s.alloc o).2 (t.alloc p).2 ∧ Refs later (s.alloc o).1 (t.alloc p).1
  allocStorage {link : Link} {s t : Store} {xs ys : Array Ref} : Stores link s t →
    Lists (Refs link) xs ys → ∃ later, Extends link later ∧
      Stores later (s.allocStorage xs).2 (t.allocStorage ys).2 ∧
      Storages later (s.allocStorage xs).1 (t.allocStorage ys).1
  updateElements {link : Link} {s t : Store} {a b : StorageId} {f g : Array Ref → Array Ref} :
    Stores link s t → Storages link a b →
    (∀ {xs ys}, Lists (Refs link) xs ys → Lists (Refs link) (f xs) (g ys)) →
    Stores link (s.updateElements a f) (t.updateElements b g)
  setSpan {link : Link} {s t : Store} {r r' : Ref} {p q : Span} : Stores link s t →
    Refs link r r' → Spans p q → Stores link (s.setSpan r p) (t.setSpan r' q)
  setFrame {link : Link} {s t : Store} {r r' : Ref} {f g : Frame} : Stores link s t →
    Refs link r r' → Owners link f g → Stores link (s.setFrame r f) (t.setFrame r' g)
  bind {link : Link} {s t : Store} {f g : Frame} {r r' : Ref} (name : String) :
    Stores link s t → Frames link f g → Refs link r r' →
    Stores link (s.bind f.scope name r) (t.bind g.scope name r')
  pushScope {link : Link} {s t : Store} {f g : Frame} : Stores link s t → Owners link f g →
    ∃ later, Extends link later ∧
      Stores later (s.pushScope f.scope).2 (t.pushScope g.scope).2 ∧
      ∀ (name : String) (p q : Span), Spans p q →
        Frames later (.call name p.start f (s.pushScope f.scope).1)
          (.call name q.start g (t.pushScope g.scope).1)
  errors_refl (d : Diagnostic) : Errors d d
  errors_runtime {link : Link} {f g : Option Frame} {p q : Option Span} (what : RuntimeProblem) :
    Option.Rel (Owners link) f g → Option.Rel Spans p q →
    Errors ⟨.runtime what f, p⟩ ⟨.runtime what g, q⟩
  errors_grid {p q : Option Span} (what : GridProblem) : Option.Rel Spans p q →
    Errors ⟨.grid what, p⟩ ⟨.grid what, q⟩
  errors_report {link : Link} {d e : Diagnostic} {f g : Frame} {p q : Span} (name : String) :
    Errors d e → Owners link f g → Spans p q →
    (∃ fault, d.render = .error fault ∧ e.render = .error fault) ∨
      ∃ report report', d.render = .ok report ∧ e.render = .ok report' ∧
        Errors ⟨.runtime (.scriptFailed name report) (some f), some p⟩
          ⟨.runtime (.scriptFailed name report') (some g), some q⟩

namespace Coupling

variable {c : Coupling} {link later : c.Link} {α β : Type}
variable {R : c.Link → α → α → Prop} {S : c.Link → β → β → Prop}

/-! ## Outcomes -/

theorem outcomes_later {o p : Ending α × World} (further : c.Extends link later)
    (outcomes : c.Outcomes later R o p) : c.Outcomes link R o p := by
  obtain gaveUp | ⟨last, evenFurther, worlds, endings⟩ := outcomes
  · exact .inl gaveUp
  · exact .inr ⟨last, c.extends_trans further evenFurther, worlds, endings⟩

theorem outcomes_now {a b : Ending α} {w v : World} (worlds : c.Worlds link w v)
    (endings : c.Endings link R a b) : c.Outcomes link R (a, w) (b, v) :=
  .inr ⟨link, c.extends_refl link, worlds, endings⟩

/-- What follows on outcomes: nothing has to be shown about a run that gave up. -/
@[elab_as_elim]
theorem outcomes_cases {motive : Ending α × World → Ending α × World → Prop}
    {o p : Ending α × World} (outcomes : c.Outcomes link R o p)
    (gaveUp : ∀ o v, motive o (.fault .exhausted, v))
    (alike : ∀ later a b w v, c.Extends link later → c.Worlds later w v →
      c.Endings later R a b → motive (a, w) (b, v)) : motive o p := by
  obtain stopped | ⟨later, further, worlds, endings⟩ := outcomes
  · obtain ⟨b, v⟩ := p
    cases stopped
    exact gaveUp o v
  · exact alike later o.1 p.1 o.2 p.2 further worlds endings

/-! ## Evaluations -/

theorem couples_pure {a b : α} (results : R link a b) :
    c.Couples link R (pure a) (pure b) :=
  fun _ _ worlds => outcomes_now worlds (.value results)

theorem couples_send {s t : Signal} (signals : c.Signals link s t) :
    c.Couples link R (Eval.send s) (Eval.send t) :=
  fun _ _ worlds => outcomes_now worlds (.signal signals)

theorem couples_raise {d e : Diagnostic} (errors : c.Errors d e) :
    c.Couples link R (Eval.raise d) (Eval.raise e) :=
  fun _ _ worlds => outcomes_now worlds (.error errors)

theorem couples_abort (fault : Fault) :
    c.Couples link R (Eval.abort fault) (Eval.abort fault) :=
  fun _ _ worlds => outcomes_now worlds (.fault fault)

theorem couples_fail {f g : Frame} {p q : Span} (what : RuntimeProblem)
    (frames : c.Owners link f g) (spans : c.Spans p q) :
    c.Couples link R (Eval.fail what (some f) (some p)) (Eval.fail what (some g) (some q)) :=
  couples_raise (c.errors_runtime what (.some frames) (.some spans))

theorem couples_bind {e f : Eval α} {k l : α → Eval β} (first : c.Couples link R e f)
    (next : ∀ later a b, c.Extends link later → R later a b → c.Couples later S (k a) (l b)) :
    c.Couples link S (e >>= k) (f >>= l) := by
  intro w v worlds
  change c.Outcomes link S (Eval.bind e k w) (Eval.bind f l v)
  unfold Eval.bind
  refine outcomes_cases (first w v worlds) ?_ ?_
  · intro o v
    exact .inl rfl
  · intro later a b w v further worlds endings
    apply outcomes_later further
    cases endings with
    | value results => exact next later _ _ further results w v worlds
    | signal signals => exact outcomes_now worlds (.signal signals)
    | error errors => exact outcomes_now worlds (.error errors)
    | fault fault => exact outcomes_now worlds (.fault fault)

/-! ## The store -/

theorem worlds_withStore {w v : World} {s t : Store} (worlds : c.Worlds link w v)
    (stores : c.Stores later s t) :
    c.Worlds later { w with store := s } { v with store := t } :=
  { worlds with stores := stores }

theorem couples_modifyStore {change change' : Store → Store}
    (changes : ∀ s t, c.Stores link s t → c.Stores link (change s) (change' t)) :
    c.Couples link c.Same (Eval.modifyStore change) (Eval.modifyStore change') :=
  fun _ _ worlds =>
    outcomes_now (worlds_withStore worlds (changes _ _ worlds.stores)) (.value rfl)

theorem couples_fromStore {view view' : Store → α}
    (views : ∀ s t, c.Stores link s t → R link (view s) (view' t)) :
    c.Couples link R (Eval.fromStore view) (Eval.fromStore view') :=
  fun _ _ worlds => outcomes_now worlds (.value (views _ _ worlds.stores))

theorem couples_withStore {work work' : Store → α × Store}
    (works : ∀ s t, c.Stores link s t → ∃ later, c.Extends link later ∧
      c.Stores later (work s).2 (work' t).2 ∧ R later (work s).1 (work' t).1) :
    c.Couples link R (Eval.withStore work) (Eval.withStore work') := by
  intro w v worlds
  obtain ⟨later, further, stores, results⟩ := works _ _ worlds.stores
  exact outcomes_later further (outcomes_now (worlds_withStore worlds stores) (.value results))

/-- A new object. -/
theorem couples_fresh {o p : Object} (objects : c.Objects link o p) :
    c.Couples link c.Refs (Eval.fresh o) (Eval.fresh p) :=
  couples_withStore fun _ _ stores => c.alloc stores objects

theorem couples_object {r r' : Ref} (refs : c.Refs link r r') :
    c.Couples link c.Objects (Eval.object r) (Eval.object r') :=
  couples_fromStore fun _ _ stores => c.object stores refs

theorem couples_null : c.Couples link c.Refs (pure Store.nullRef) (pure Store.nullRef) :=
  fun _ _ worlds => outcomes_now worlds (.value (c.null worlds.stores))

theorem couples_located {r r' : Ref} {p q : Span} (refs : c.Refs link r r')
    (spans : c.Spans p q) : c.Couples link c.Refs (Eval.located r p) (Eval.located r' q) := by
  apply couples_bind (couples_modifyStore fun s t stores => c.setSpan stores refs spans)
  intro later _ _ further _
  exact couples_pure (c.refs_mono further refs)

theorem works_alloc {s t : Store} {o p : Object} {ε : Type} {S : ε → ε → Prop}
    (stores : c.Stores link s t) (objects : c.Objects link o p) :
    c.Works link S (.ok (s.alloc o).1, (s.alloc o).2) (.ok (t.alloc p).1, (t.alloc p).2) := by
  obtain ⟨later, further, after, refs⟩ := c.alloc stores objects
  exact .ok further after refs

theorem works_copy {s t : Store} {r r' : Ref} (stores : c.Stores link s t)
    (refs : c.Refs link r r') : c.Works link Eq (s.copy r) (t.copy r') := by
  have objects := c.object stores refs
  unfold Store.copy
  generalize s.object r = o at objects ⊢
  generalize t.object r' = p at objects ⊢
  obtain ⟨d, span, frame⟩ := o
  obtain ⟨d', span', frame'⟩ := p
  cases objects.data with
  | bare => exact .error stores rfl
  | number | truth | text | list | procedure | builtin => exact works_alloc stores objects

/-- What follows on work that may end without a reference. -/
theorem couples_works {ε : Type} {T : ε → ε → Prop} {work work' : Store → Except ε Ref × Store}
    {k l : Except ε Ref → Eval Ref}
    (works : ∀ s t, c.Stores link s t → c.Works link T (work s) (work' t))
    (ok : ∀ later r r', c.Refs later r r' → c.Couples later c.Refs (k (.ok r)) (l (.ok r')))
    (error : ∀ d e, T d e → c.Couples link c.Refs (k (.error d)) (l (.error e))) :
    c.Couples link c.Refs (Eval.withStore work >>= k) (Eval.withStore work' >>= l) := by
  intro w v worlds
  have worked := works _ _ worlds.stores
  change c.Outcomes link c.Refs (k (work w.store).1 { w with store := (work w.store).2 })
    (l (work' v.store).1 { v with store := (work' v.store).2 })
  generalize work w.store = x at worked ⊢
  generalize work' v.store = y at worked ⊢
  cases worked with
  | ok further stores refs =>
      exact outcomes_later further (ok _ _ _ refs _ _ (worlds_withStore worlds stores))
  | error stores reasons => exact error _ _ reasons _ _ (worlds_withStore worlds stores)

theorem couples_halt {a b : Stop} (stops : c.Stops a b) :
    c.Couples link R (Eval.halt a) (Eval.halt b) := by
  cases stops with
  | error errors => exact couples_raise errors
  | fault fault => exact couples_abort fault

theorem couples_tryStore {work work' : Store → Except Stop Ref × Store}
    (works : ∀ s t, c.Stores link s t → c.Works link c.Stops (work s) (work' t)) :
    c.Couples link c.Refs (Eval.tryStore work) (Eval.tryStore work') := by
  apply couples_works works
  · intro later r r' refs
    exact couples_pure refs
  · intro d e stops
    exact couples_halt stops

theorem couples_copied {r r' : Ref} (refs : c.Refs link r r') :
    c.Couples link c.Refs (Eval.copied r) (Eval.copied r') := by
  apply couples_works fun s t stores => works_copy stores refs
  · intro later r r' refs
    exact couples_pure refs
  · intro d e same
    subst same
    exact couples_abort d

theorem couples_takenOver {r r' : Ref} {p q : Span} {f g : Frame} (refs : c.Refs link r r')
    (spans : c.Spans p q) (owners : c.Owners link f g) :
    c.Couples link c.Refs (Eval.takenOver r p f) (Eval.takenOver r' q g) := by
  apply couples_bind (couples_copied refs)
  intro later a b further copies
  have owners := c.owners_mono further owners
  apply couples_bind (couples_modifyStore fun s t stores =>
    c.setFrame (c.setSpan stores copies spans) copies owners)
  intro last _ _ evenFurther _
  exact couples_pure (c.refs_mono evenFurther copies)

/-! ## Operations -/

theorem works_yield {s t : Store} {o p : Object} (stores : c.Stores link s t)
    (objects : c.Objects link o p) : c.Works link Eq (s.yield o) (t.yield p) :=
  works_alloc stores objects

/-- The operators on lists see the same length, take away at the same place and give the elements
at the same place. -/
theorem works_listOperation {s t : Store} {o p : Object} {a b : StorageId} {r r' : Ref}
    (op : BinaryOp) (stores : c.Stores link s t) (objects : c.Objects link o p)
    (storages : c.Storages link a b) (refs : c.Refs link r r') :
    c.Works link Eq (s.listOperation op o a r) (t.listOperation op p b r') := by
  have data : c.Data link (s.datum r) (t.datum r') := (c.object stores refs).data
  have lists := c.elements stores storages
  unfold Store.listOperation
  generalize s.datum r = d at data ⊢
  generalize t.datum r' = d' at data ⊢
  cases op with
  | add =>
      have pushed := c.updateElements stores storages fun lists => lists.push refs
      exact works_yield pushed objects
  | sub =>
      cases data with
      | number index =>
          dsimp only
          rw [lists.size_eq]
          cases listIndex? (t.elements b).size index with
          | none => exact .error stores rfl
          | some place =>
              have erased := c.updateElements stores storages fun lists => lists.erase place
              exact works_yield erased objects
      | truth | text | list | procedure | builtin | bare => exact .error stores rfl
  | mul =>
      cases data with
      | list others =>
          have appended := c.updateElements stores storages fun lists =>
            lists.append (c.elements stores others)
          exact works_yield appended objects
      | number | truth | text | procedure | builtin | bare => exact .error stores rfl
  | div =>
      cases data with
      | number index =>
          dsimp only
          rw [lists.size_eq]
          cases listIndex? (t.elements b).size index with
          | none => exact .error stores rfl
          | some place =>
              dsimp only [Option.bind_some]
              have found := lists.getElem? place
              generalize (s.elements a)[place]? = x at found ⊢
              generalize (t.elements b)[place]? = y at found ⊢
              cases found with
              | none => exact .error stores rfl
              | some element => exact .ok (c.extends_refl link) stores element
      | truth | text | list | procedure | builtin | bare => exact .error stores rfl
  | mod | pow | equal | notEqual | less | greater | lessEqual | greaterEqual | and | or =>
      exact .error stores rfl

/-- Scalars answer to themselves. -/
theorem data_of_isScalar {d : Datum} (scalar : d.isScalar = true) : c.Data link d d := by
  cases d with
  | number | truth | text => constructor
  | list | procedure | builtin | bare => cases scalar

/-- Operations that do not involve a list look at nothing but scalars. -/
theorem scalarOperation_eq {d d' e e' : Datum} (op : BinaryOp) (lefts : c.Data link d d')
    (rights : c.Data link e e') : d.scalarOperation op e = d'.scalarOperation op e' := by
  cases lefts <;> cases rights <;> rfl

theorem works_operate {s t : Store} {o p : Object} {r r' : Ref} (op : BinaryOp)
    (stores : c.Stores link s t) (objects : c.Objects link o p) (refs : c.Refs link r r') :
    c.Works link Eq (s.operate op o r) (t.operate op p r') := by
  have scalars := scalarOperation_eq op objects.data (c.object stores refs).data
  obtain ⟨d, span, frame⟩ := o
  obtain ⟨d', span', frame'⟩ := p
  unfold Store.operate
  cases objects.data with
  | list storages => exact works_listOperation op stores objects storages refs
  | number | truth | text | procedure | builtin | bare =>
      dsimp only [Store.datum] at scalars ⊢
      rw [scalars]
      split
      · rename_i value run
        have scalar := Datum.isScalar_scalarOperation run
        exact works_yield stores ⟨data_of_isScalar scalar, .none, objects.frames⟩
      · exact .error stores rfl

theorem stops_refuse {o p o' p' : Object} (lefts : c.Objects link o p)
    (rights : c.Objects link o' p') (refusal : Refusal) :
    c.Stops (Store.refuse o o' refusal) (Store.refuse p p' refusal) := by
  cases refusal with
  | illegal => exact .error (c.errors_runtime _ lefts.frames lefts.spans)
  | divisionByZero => exact .error (c.errors_runtime _ lefts.frames rights.spans)
  | outOfBounds => exact .error (c.errors_runtime _ lefts.frames rights.spans)
  | fault fault => exact .fault fault

theorem works_binary {s t : Store} {l l' r r' : Ref} (op : BinaryOp)
    (stores : c.Stores link s t) (lefts : c.Refs link l l') (rights : c.Refs link r r') :
    c.Works link c.Stops (s.binary op l r) (t.binary op l' r') := by
  have objects := c.object stores lefts
  have others := c.object stores rights
  have worked := works_operate op stores objects rights
  unfold Store.binary
  dsimp only
  generalize s.operate op (s.object l) r = x at worked ⊢
  generalize t.operate op (t.object l') r' = y at worked ⊢
  cases worked with
  | ok further after refs => exact .ok further after refs
  | error after same =>
      subst same
      exact .error after (stops_refuse objects others _)

theorem works_negate {s t : Store} {r r' : Ref} (stores : c.Stores link s t)
    (refs : c.Refs link r r') : c.Works link c.Stops (s.negate r) (t.negate r') := by
  have objects := c.object stores refs
  unfold Store.negate
  generalize s.object r = o at objects ⊢
  generalize t.object r' = p at objects ⊢
  obtain ⟨d, span, frame⟩ := o
  obtain ⟨d', span', frame'⟩ := p
  have refused := stops_refuse objects objects .illegal
  cases objects.data with
  | truth value => exact works_alloc stores ⟨.truth _, .none, objects.frames⟩
  | number | text | list | procedure | builtin | bare => exact .error stores refused

/-! ## Input and output -/

theorem couples_print (text : String) :
    c.Couples link c.Same (Eval.print text) (Eval.print text) := by
  intro w v worlds
  have printed : w.output ++ text = v.output ++ text := by rw [worlds.output]
  exact outcomes_now { worlds with output := printed } (.value rfl)

theorem couples_readLine : c.Couples link c.Same Eval.readLine Eval.readLine := by
  intro w v worlds
  unfold Eval.readLine
  rw [worlds.input]
  cases v.input with
  | nil => exact outcomes_now worlds (.fault _)
  | cons line rest => exact outcomes_now { worlds with input := rfl } (.value rfl)

theorem couples_draw (low high : Number) :
    c.Couples link c.Same (Eval.draw low high) (Eval.draw low high) := by
  intro w v worlds
  unfold Eval.draw
  rw [worlds.generator]
  cases Number.draw v.generator low high with
  | ok result => exact outcomes_now { worlds with generator := rfl } (.value rfl)
  | error fault => exact outcomes_now worlds (.fault fault)

theorem couples_command {p q : Option Span} (act : Robot → Robot.Answer α)
    (spans : Option.Rel c.Spans p q) :
    c.Couples link c.Same (Eval.command p act) (Eval.command q act) := by
  intro w v worlds
  unfold Eval.command
  rw [worlds.robot]
  have output : w.output ++ (act v.robot).output = v.output ++ (act v.robot).output := by
    rw [worlds.output]
  have after := { worlds with robot := rfl, output := output : c.Worlds link
    { w with robot := (act v.robot).robot, output := w.output ++ (act v.robot).output }
    { v with robot := (act v.robot).robot, output := v.output ++ (act v.robot).output } }
  dsimp only
  split
  · exact outcomes_now after (.value rfl)
  · exact outcomes_now after (.error (c.errors_grid _ spans))
  · exact outcomes_now after (.fault _)

/-! ## Control -/

theorem couples_callBody {e f : Eval α} (bodies : c.Couples link R e f) :
    c.Couples link c.Refs (Eval.callBody e) (Eval.callBody f) := by
  intro w v worlds
  unfold Eval.callBody
  refine outcomes_cases (bodies w v worlds) ?_ ?_
  · intro o v
    exact .inl rfl
  · intro later a b w v further worlds endings
    apply outcomes_later further
    cases endings with
    | value results => exact outcomes_now worlds (.value (c.null worlds.stores))
    | signal signals =>
        cases signals with
        | returning refs => exact outcomes_now worlds (.value refs)
        | breaking => exact outcomes_now worlds (.signal .breaking)
        | continuing => exact outcomes_now worlds (.signal .continuing)
    | error errors => exact outcomes_now worlds (.error errors)
    | fault fault => exact outcomes_now worlds (.fault fault)

theorem couples_round {e f : Eval α} (bodies : c.Couples link R e f) :
    c.Couples link c.Same (Eval.round e) (Eval.round f) := by
  intro w v worlds
  unfold Eval.round
  refine outcomes_cases (bodies w v worlds) ?_ ?_
  · intro o v
    exact .inl rfl
  · intro later a b w v further worlds endings
    apply outcomes_later further
    cases endings with
    | value results => exact outcomes_now worlds (.value rfl)
    | signal signals =>
        cases signals with
        | returning refs => exact outcomes_now worlds (.signal (.returning refs))
        | breaking => exact outcomes_now worlds (.value rfl)
        | continuing => exact outcomes_now worlds (.value rfl)
    | error errors => exact outcomes_now worlds (.error errors)
    | fault fault => exact outcomes_now worlds (.fault fault)

theorem couples_program {e f : Eval α} (bodies : c.Couples link R e f) :
    c.Couples link (fun later => Option.Rel (R later)) (Eval.program e) (Eval.program f) := by
  intro w v worlds
  unfold Eval.program
  refine outcomes_cases (bodies w v worlds) ?_ ?_
  · intro o v
    exact .inl rfl
  · intro later a b w v further worlds endings
    apply outcomes_later further
    cases endings with
    | value results => exact outcomes_now worlds (.value (.some results))
    | signal signals => exact outcomes_now worlds (.value .none)
    | error errors => exact outcomes_now worlds (.error errors)
    | fault fault => exact outcomes_now worlds (.fault fault)

end Coupling
end Pseudocode
