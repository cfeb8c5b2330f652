import Pseudocode.Proofs.Evaluation.Matching
import Pseudocode.Proofs.Evaluation.Running
import Pseudocode.Proofs.Parsing.Respelling

/-!
# Line by line

Lines may be entered one after another, each as a program of its own, or be put into one program.
As long as every line ends with a value, both do the same.  Only a text or a comment that is still
open at the end of a line, or a branch that might still be followed by `ELSE`, would join two lines
that are entered apart.
-/

namespace Pseudocode

/-- Whether a reserved word is missing from a source. -/
def Source.lacks (source : Source) (k : Keyword) : Bool :=
  match source.tokens with
  | .ok tokens => tokens.all fun t => !t.isKeyword k
  | .error _ => true

theorem Source.lacks_iff {source : Source} {k : Keyword} {tokens : List Token}
    (scanned : source.tokens = .ok tokens) :
    source.lacks k = true ↔ ∀ t ∈ tokens, t.isKeyword k = false := by
  rw [Source.lacks, scanned]
  simp

/-- Values that are the same at every depth; the bodies of procedures are the same up to places. -/
structure SameValue (s t : Store) (r r' : Ref) : Prop where
  snapshots : s.snapshot r = t.snapshot r'
  bodies : ∀ procedure, s.datum r = .procedure procedure →
    ∃ other, t.datum r' = .procedure other ∧ procedure.body.erase = other.body.erase

namespace World

/-- Run lines one after another, each as a program of its own, as long as they end with a value. -/
def enterAll (name : String) : List String → World → Option World
  | [], w => some w
  | line :: lines, w =>
      match w.run ⟨name, line⟩ with
      | (.value (some _), after) => enterAll name lines after
      | _ => none

/-- Worlds that cannot be told apart by what was printed and read, by the robot and its grid, by the
scripts, by later draws or by the values of the main program. -/
structure SameState (w v : World) : Prop where
  input : w.input = v.input
  output : w.output = v.output
  robot : w.robot = v.robot
  scripts : w.scripts = v.scripts
  generator : w.generator = v.generator
  /-- The values agree up to their numbers, and what is shared in one world is shared in the
  other. -/
  stores : ∃ m : Matching, m.Stores w.store v.store
  names : (w.store.scopes.own Store.globalScope).map (·.1) =
    (v.store.scopes.own Store.globalScope).map (·.1)
  globals : ∀ name, Option.Rel (SameValue w.store v.store)
    ((w.store.scopes.own Store.globalScope).get? name)
    ((v.store.scopes.own Store.globalScope).get? name)

end World

/-! ## Statements in a row -/

namespace Evaluator

variable {self : Evaluator} {frame : Frame} {nodes others : List Node} {span : Span}
  {w u v : World} {refs more : List Ref}

theorem all_append (self : Evaluator) (frame : Frame) (nodes others : List Node) :
    self.all frame (nodes ++ others) = (do
      let refs ← self.all frame nodes
      let more ← self.all frame others
      return refs ++ more) := by
  induction nodes with
  | nil => simp [all]
  | cons node nodes ih => simp [all, ih]

theorem all_append_of_value (first : self.all frame nodes w = (.value refs, u))
    (second : self.all frame others u = (.value more, v)) :
    self.all frame (nodes ++ others) w = (.value (refs ++ more), v) := by
  rw [all_append]
  exact (Eval.bind_of_value first).trans (Eval.bind_of_value second)

/-- The world with a new list of values. -/
def withList (refs : List Ref) (span : Span) (frame : Frame) (w : World) : World :=
  let (storage, store) := w.store.allocStorage refs.toArray
  { w with store := (store.alloc ⟨.list storage, some span, some frame⟩).2 }

theorem listOf_of_all (span : Span) (ran : self.all frame nodes w = (.value refs, u)) :
    ∃ list, self.listOf nodes span frame w = (.value list, withList refs span frame u) :=
  ⟨_, Eval.bind_of_value ran⟩

theorem all_of_listOf {list : Ref} (ran : self.listOf nodes span frame w = (.value list, v)) :
    ∃ refs u, self.all frame nodes w = (.value refs, u) ∧ v = withList refs span frame u := by
  rcases run : self.all frame nodes w with ⟨ending, u⟩
  change Eval.bind (self.all frame nodes) _ w = _ at ran
  rw [Eval.bind, run] at ran
  cases ending with
  | value refs =>
      refine ⟨refs, u, rfl, ?_⟩
      exact (congrArg Prod.snd ran).symm
  | signal | error | fault => cases ran

end Evaluator

theorem eval_list (fuel : Nat) (nodes : List Node) (span : Span) (frame : Frame) (w : World) :
    eval (fuel + 1) (.list nodes span) frame w =
      Evaluator.listOf (eval fuel) nodes span frame w := by
  rw [eval]
  rfl

/-! ## Lines in a row -/

namespace World

open Grammar (ReadAs readAs_of_parse)

variable {name : String} {w u v : World} {source : Source} {lines : List String}
  {nodes : List Node}

theorem exists_of_run {ref : Ref} (ran : w.run source = (.value (some ref), v)) :
    ∃ tree, source.parse = .ok tree ∧
      eval (limit source) tree (.program Store.globalScope) w = (.value ref, v) := by
  unfold World.run runWithin Evaluator.runSource at ran
  cases parsed : source.parse with
  | error stop =>
      rw [parsed] at ran
      cases stop <;> cases ran
  | ok tree =>
      refine ⟨tree, rfl, ?_⟩
      rcases run : eval (limit source) tree (.program Store.globalScope) w with ⟨ending, u⟩
      simp only [parsed, Eval.program, run] at ran
      cases ending with
      | value result =>
          cases ran
          rfl
      | signal | error | fault => cases ran

theorem exists_limit (source : Source) : ∃ fuel, limit source = fuel + 1 :=
  ⟨limit source - 1, by unfold limit; omega⟩

/-- Lines that are entered one after another, with all their statements. -/
inductive Entered (name : String) : World → List String → List Node → World → Prop
  | done (w : World) : Entered name w [] [] w
  | line {w u v : World} {line : String} {lines : List String} {nodes others : List Node}
      {span : Span} {fuel : Nat} {refs : List Ref}
      (parsed : Source.parse ⟨name, line⟩ = .ok (.list nodes span))
      (bound : limit ⟨name, line⟩ = fuel + 1)
      (ran : Evaluator.all (eval fuel) (.program Store.globalScope) nodes w = (.value refs, u))
      (rest : Entered name (Evaluator.withList refs span (.program Store.globalScope) u) lines
        others v) :
      Entered name w (line :: lines) (nodes ++ others) v

theorem exists_entered (settled : ∀ line ∈ lines, Settled line.toList)
    (ran : w.enterAll name lines = some v) : ∃ nodes, Entered name w lines nodes v := by
  induction lines generalizing w with
  | nil =>
      cases ran
      exact ⟨[], .done _⟩
  | cons line lines ih =>
      rw [enterAll] at ran
      split at ran
      · next ref after entered =>
          obtain ⟨tree, parsed, evaluated⟩ := exists_of_run entered
          obtain ⟨nodes, span, rfl, -⟩ :=
            readAs_of_parse (settled line List.mem_cons_self) parsed
          obtain ⟨fuel, bound⟩ := exists_limit ⟨name, line⟩
          rw [bound, eval_list] at evaluated
          obtain ⟨refs, u, run, rfl⟩ := Evaluator.all_of_listOf evaluated
          obtain ⟨others, rest⟩ := ih
            (fun line member => settled line (List.mem_cons_of_mem _ member)) ran
          exact ⟨nodes ++ others, .line parsed bound run rest⟩
      · cases ran

/-- The lines in one text are read as all their statements. -/
theorem Entered.readAs (entered : Entered name w lines nodes v)
    (settled : ∀ line ∈ lines, Settled line.toList)
    (noBranch : ∀ line ∈ lines, Source.lacks ⟨name, line⟩ .ifWord = true) :
    ReadAs ("\n".intercalate lines) nodes := by
  induction entered with
  | done w => exact ⟨[], [], .done, .trailing _ _ rfl rfl rfl, rfl⟩
  | @line w u v line lines nodes others span fuel refs parsed bound ran rest ih =>
      obtain ⟨_, _, same, first⟩ := readAs_of_parse (settled line List.mem_cons_self) parsed
      cases same
      have more := ih (fun line member => settled line (List.mem_cons_of_mem _ member))
        fun line member => noBranch line (List.mem_cons_of_mem _ member)
      cases lines with
      | nil =>
          cases rest
          simpa using first
      | cons next lines =>
          rw [String.intercalate_cons_cons]
          refine first.append more ?_
          obtain ⟨tokens, scanned⟩ : ∃ tokens, Source.tokens ⟨name, line⟩ = .ok tokens := by
            cases scanned : Source.tokens ⟨name, line⟩ with
            | ok tokens => exact ⟨tokens, rfl⟩
            | error stop =>
                rw [Source.parse, scanned] at parsed
                cases parsed
          exact first.lastOpen scanned
            ((Source.lacks_iff scanned).mp (noBranch line List.mem_cons_self))

open Matching in
/-- The statements of the lines do in a row, in a world that agrees along a matching, what the lines
do one after another. -/
theorem Entered.evaluates (entered : Entered name w lines nodes v) {fuel : Nat}
    (enough : ∀ line ∈ lines, limit ⟨name, line⟩ ≤ fuel + 1) {m : Matching} {x : World}
    (worlds : coupling.Worlds m x w) {nodes' : List Node}
    (same : eraseAll nodes' = eraseAll nodes) :
    ∃ refs x' m', Evaluator.all (eval fuel) (.program Store.globalScope) nodes' x =
      (.value refs, x') ∧ coupling.Worlds m' x' v := by
  induction entered generalizing m x nodes' with
  | done w =>
      obtain rfl := Grammar.eraseAll_eq_nil_iff.mp same
      exact ⟨[], x, m, rfl, worlds⟩
  | @line w u v line lines nodes others span less refs parsed bound ran rest ih =>
      have fewer : less ≤ fuel := by
        have := enough line List.mem_cons_self
        omega
      obtain ⟨front, back, rfl, sameFront, sameBack⟩ :
          ∃ front back, nodes' = front ++ back ∧ eraseAll front = eraseAll nodes ∧
            eraseAll back = eraseAll others := by
        simp only [Grammar.eraseAll_eq_map, List.map_append] at same ⊢
        exact List.map_eq_append_iff.mp same
      have lockstep := coupling.lockstep_eval fewer
      rw [show evalUnless coupling.barred less = eval less from evalUnless_never less] at lockstep
      have frames : coupling.Frames m (.program Store.globalScope) (.program Store.globalScope) :=
        rfl
      have outcomes :=
        Accord.rel_all lockstep (b := false) (forall₂_of_eraseAll sameFront) frames x w worlds
      rw [ran] at outcomes
      obtain gaveUp | ⟨later, _, after, endings⟩ := outcomes
      · cases gaveUp
      · rcases run : Evaluator.all (eval fuel) (.program Store.globalScope) front x with ⟨ending, y⟩
        rw [run] at after endings
        cases endings with
        | @value refs' _ lists =>
            have stores : later.Stores y.store u.store := after.stores
            have kept : coupling.Worlds later y
                (Evaluator.withList refs span (.program Store.globalScope) u) :=
              { after with stores := (stores.allocStorage_right _).alloc_right _ }
            obtain ⟨more, x', m', others, worlds⟩ := ih
              (fun line member => enough line (List.mem_cons_of_mem _ member)) kept sameBack
            exact ⟨refs' ++ more, x', m', Evaluator.all_append_of_value run others, worlds⟩

open Matching in
theorem sameState_of_worlds {m : Matching} (worlds : coupling.Worlds m w v) : w.SameState v := by
  have stores : m.Stores w.store v.store := worlds.stores
  have main := stores.scopes.getElem? Store.globalScope.index
  refine ⟨worlds.input, worlds.output, worlds.robot, worlds.scripts, worlds.generator,
    ⟨m, stores⟩, ?_, ?_⟩
  all_goals
    rw [Pseudocode.Scopes.own, Pseudocode.Scopes.own]
    generalize w.store.scopes[Store.globalScope.index]? = a at main ⊢
    generalize v.store.scopes[Store.globalScope.index]? = b at main ⊢
  · cases main with
    | none => rfl
    | some scopes => exact scopes.names
  · intro name
    cases main with
    | none => exact .none
    | some scopes =>
        refine Pairing.rel_imp (scopes.values name) fun r r' refs => ⟨stores.snapshot refs, ?_⟩
        intro procedure isProcedure
        have data : parts.Data m (w.store.datum r) (v.store.datum r') := (stores.objects refs).data
        rw [isProcedure] at data
        obtain ⟨own, parameters, body⟩ := procedure
        generalize v.store.datum r' = d at data ⊢
        cases data with
        | procedure _ _ bodies => exact ⟨_, rfl, bodies⟩

/-- A line is not longer than the text it is part of. -/
theorem length_le_intercalate {line : String} (member : line ∈ lines) :
    line.length ≤ ("\n".intercalate lines).length := by
  induction lines with
  | nil => cases member
  | cons first lines ih =>
      cases lines with
      | nil =>
          obtain rfl := List.mem_singleton.mp member
          simp
      | cons next lines =>
          rw [String.intercalate_cons_cons, String.length_append, String.length_append]
          rcases List.mem_cons.mp member with rfl | later
          · omega
          · have shorter := ih later
            omega

/-- Lines that all end with a value when they are entered one after another, and that leave neither
a text nor a comment open and have no branch, also end with a value as one program, and leave the
world in the same state. -/
theorem run_intercalate (reached : w.Reached) (settled : ∀ line ∈ lines, Settled line.toList)
    (noBranch : ∀ line ∈ lines, Source.lacks ⟨name, line⟩ .ifWord = true)
    (ran : w.enterAll name lines = some v) (file : String) :
    ∃ result after, w.run ⟨file, "\n".intercalate lines⟩ = (.value (some result), after) ∧
      after.SameState v := by
  obtain ⟨nodes, entered⟩ := exists_entered settled ran
  obtain ⟨nodes', span, parsed, same⟩ := (entered.readAs settled noBranch).parse file
  obtain ⟨fuel, bound⟩ := exists_limit ⟨file, "\n".intercalate lines⟩
  have enough : ∀ line ∈ lines, limit ⟨name, line⟩ ≤ fuel + 1 := by
    intro line member
    rw [← bound]
    exact Nat.add_le_add_left (length_le_intercalate member) _
  have worlds : Matching.coupling.Worlds (.identity w.store) w w :=
    ⟨Matching.stores_identity reached.wellFormed, rfl, rfl, rfl, rfl, rfl⟩
  obtain ⟨refs, u, m, evaluated, worlds⟩ := entered.evaluates enough worlds same
  obtain ⟨list, listed⟩ := Evaluator.listOf_of_all span evaluated
  rw [← eval_list, ← bound] at listed
  have stores : m.Stores u.store v.store := worlds.stores
  have after : Matching.coupling.Worlds m
      (Evaluator.withList refs span (.program Store.globalScope) u) v :=
    { worlds with stores := (stores.allocStorage_left _).alloc_left _ }
  exact ⟨list, _, run_of_value parsed listed, sameState_of_worlds after⟩

/-- Lines that define a procedure, call it, are empty and print in a loop. -/
def doubling : List String :=
  ["PROCEDURE f(n) \x7b RETURN n * 2 \x7d", "x <- f(4)", "",
    "REPEAT 2 TIMES \x7b DISPLAY(x) \x7d"]

theorem run_intercalate_doubling : ∃ v, (start {} [] (mkStdGen 0)).enterAll promptName doubling =
      some v ∧
    ∃ result after, (start {} [] (mkStdGen 0)).run ⟨"doubling", "\n".intercalate doubling⟩ =
      (.value (some result), after) ∧ after.SameState v := by
  have entered : ((start {} [] (mkStdGen 0)).enterAll promptName doubling).isSome = true := by
    decide +kernel
  obtain ⟨v, entered⟩ := Option.isSome_iff_exists.mp entered
  exact ⟨v, entered, run_intercalate (.start _ _ _) (by decide +kernel) (by decide +kernel) entered
    "doubling"⟩

end World
end Pseudocode
