import Pseudocode.Tree.Parse

/-!
# The places of errors in the text

An error that is found before a program runs has a place and concerns the text: the scanner reports
the characters it stands at and the parser a token, and no rule hands on an error of another rule
without its place.
-/

namespace Pseudocode

/-- An error with a place. -/
def Diagnostic.Placed (d : Diagnostic) : Prop :=
  d.span.isSome = true

/-- What stops a piece of work has a place, if it is an error. -/
def Stop.Placed : Stop → Prop
  | .error diagnostic => diagnostic.Placed
  | .fault _ => True

/-- Whether a problem concerns the text of a program and not its run. -/
def Problem.isTextual : Problem → Bool
  | .runtime _ _ => false
  | .grid _ => false
  | _ => true

/-- An error that is found before a program runs. -/
structure Diagnostic.Early (d : Diagnostic) : Prop where
  placed : d.Placed
  textual : d.problem.isTextual = true

/-- What stops a piece of work before a program runs. -/
def Stop.Early : Stop → Prop
  | .error diagnostic => diagnostic.Early
  | .fault _ => True

theorem Stop.Early.placed {stop : Stop} (early : stop.Early) : stop.Placed := by
  cases stop with
  | error diagnostic => exact Diagnostic.Early.placed early
  | fault fault => trivial

/-- An outcome before a program runs. -/
def Outcome.Early {α : Type} : Outcome α → Prop
  | .error diagnostic _ => diagnostic.Early
  | .ok _ _ => True
  | .fault _ => True

/-! ## Rules -/

namespace Rule

variable {α β : Type}

/-- A rule whose errors have places and concern the text. -/
def Early (rule : Rule α) : Prop :=
  ∀ w : Walk, (rule w).Early

theorem early_pure (result : α) : (pure result : Rule α).Early :=
  fun _ => trivial

theorem early_current : current.Early :=
  fun _ => trivial

theorem early_lexeme : lexeme.Early :=
  fun _ => trivial

theorem early_followingLexeme : followingLexeme.Early :=
  fun _ => trivial

theorem early_advance : advance.Early :=
  fun _ => trivial

theorem early_register (called : Tally) : (register called).Early :=
  fun _ => trivial

theorem early_noteRewind (steps : Nat) : (noteRewind steps).Early :=
  fun _ => trivial

theorem early_rewind : rewind.Early :=
  fun _ => trivial

theorem early_takeTruth (value : Bool) : (takeTruth value).Early :=
  fun _ => trivial

theorem early_abort (fault : Fault) : (abort fault : Rule α).Early :=
  fun _ => trivial

theorem early_fail (what : Expectation) : (fail what : Rule α).Early :=
  fun _ => ⟨rfl, rfl⟩

theorem early_raise {diagnostic : Diagnostic} (early : diagnostic.Early) :
    (raise diagnostic : Rule α).Early :=
  fun _ => early

namespace Early

variable {rule : Rule α}

theorem bind {next : α → Rule β} (first : rule.Early) (second : ∀ x, (next x).Early) :
    (rule >>= next).Early := by
  intro w
  have early := first w
  simp only [Bind.bind]
  cases run : rule w with
  | ok x after => exact second x after
  | error diagnostic after => rwa [run] at early
  | fault fault => trivial

/-- The error that a rule ends in is seen with its place. -/
theorem observe {next : Except Diagnostic α × Tally → Rule β} (first : rule.Early)
    (succeeded : ∀ x tally, (next (.ok x, tally)).Early)
    (failed : ∀ diagnostic tally, diagnostic.Early → (next (.error diagnostic, tally)).Early) :
    (Rule.observe rule >>= next).Early := by
  intro w
  have early := first { w with tally := {} }
  simp only [Rule.observe, Bind.bind]
  cases run : rule { w with tally := {} } with
  | ok x after => exact succeeded x after.tally _
  | error diagnostic after =>
      rw [run] at early
      exact failed diagnostic after.tally early _
  | fault fault => trivial

theorem call (early : rule.Early) : (Rule.call rule).Early := by
  refine early.observe (fun x tally => ?_) fun diagnostic tally known => ?_
  · exact (early_register tally).bind fun _ => early_pure x
  · exact (early_register tally).bind fun _ => early_raise known

theorem callOr (early : rule.Early) {replacement : Walk → Diagnostic}
    (replaced : ∀ w, (replacement w).Early) : (Rule.callOr rule replacement).Early := by
  refine early.observe (fun x tally => ?_) fun diagnostic tally known => ?_
  · exact (early_register tally).bind fun _ => early_pure x
  · refine (early_register tally).bind fun _ => ?_
    by_cases counted : tally.taken = 0
    · simp only [counted]
      exact replaced
    · simp only [counted]
      exact early_raise known

theorem attempt (early : rule.Early) : (Rule.attempt rule).Early := by
  refine early.observe (fun x tally => ?_) fun diagnostic tally _ => ?_
  · exact (early_register tally).bind fun _ => early_pure (some x)
  · exact (early_noteRewind tally.taken).bind fun _ => early_pure none

end Early

theorem early_expect (matching : Lexeme → Bool) (what : Expectation) :
    (expect matching what : Rule Unit).Early := by
  refine early_lexeme.bind fun lexeme => ?_
  split
  · exact early_advance
  · exact early_fail what

theorem early_skipNewlines : (skipNewlines : Rule Unit).Early := by
  have within (fuel : Nat) : (skipNewlinesWithin fuel : Rule Unit).Early := by
    induction fuel with
    | zero => exact early_pure ()
    | succ fuel ih =>
        refine early_lexeme.bind fun lexeme => ?_
        split
        · exact early_advance.bind fun _ => ih
        · exact early_pure ()
  exact fun w => within (w.tokens.size + 1) w

end Rule

/-! ## The grammar -/

namespace Grammar

open Rule

/-- Rules for all categories whose errors have places and concern the text. -/
def Rules.Early (self : Rules) : Prop :=
  ∀ category, (self category).Early

variable {self : Rules}

theorem early_listed (first : Position) (nodes : List Node) :
    (do return Node.list nodes ⟨first, (← current).span.stop⟩ : Rule Node).Early :=
  early_current.bind fun _ => early_pure _

theorem early_moreItems (early : self.Early) (fuel : Nat) : (moreItems self fuel).Early := by
  induction fuel with
  | zero => exact early_abort _
  | succ fuel ih =>
      refine early_lexeme.bind fun lexeme => ?_
      split
      · refine early_advance.bind fun _ => (early .expression).call.bind fun item => ?_
        exact ih.bind fun items => early_pure _
      · exact early_pure []

theorem early_listLiteral (early : self.Early) (fuel : Nat) :
    (listLiteral self fuel).Early := by
  refine early_current.bind fun opening => (early_expect _ _).bind fun _ => ?_
  refine early_lexeme.bind fun lexeme => ?_
  split
  · exact early_advance.bind fun _ => early_listed _ _
  · have first : (callOr (self .expression) fun w =>
        .expected .firstElement w.current.span).Early :=
      (early .expression).callOr fun _ => ⟨rfl, rfl⟩
    refine first.bind fun item => (early_moreItems early fuel).bind fun items => ?_
    exact (early_expect _ _).bind fun _ => early_listed _ _

theorem early_braces (early : self.Early) : (braces self).Early := by
  refine early_skipNewlines.bind fun _ => (early_expect _ _).bind fun _ => ?_
  refine (early .block).call.bind fun body => ?_
  exact (early_expect _ _).bind fun _ => early_pure body

theorem early_condition (early : self.Early) : (condition self).Early := by
  refine (early_expect _ _).bind fun _ => (early .expression).call.bind fun node => ?_
  exact (early_expect _ _).bind fun _ => early_pure node

theorem early_elseBranch (early : self.Early) : (elseBranch self).Early := by
  refine early_lexeme.bind fun lexeme => ?_
  split
  · refine early_advance.bind fun _ => ?_
    exact (early_braces early).bind fun body => early_pure (some body)
  · exact early_pure none

theorem early_cases (early : self.Early) (fuel : Nat) (word : Keyword) :
    (cases self fuel word).Early := by
  induction fuel generalizing word with
  | zero => exact early_abort _
  | succ fuel ih =>
      refine (early_expect _ _).bind fun _ => (early_condition early).bind fun test => ?_
      refine (early_braces early).bind fun body => early_skipNewlines.bind fun _ => ?_
      refine early_lexeme.bind fun next => ?_
      split
      · exact (ih .elifWord).call.bind fun more => early_pure _
      · split
        · exact (early_elseBranch early).call.bind fun otherwise => early_pure _
        · exact early_pure _

theorem early_branch (early : self.Early) (fuel : Nat) : (branch self fuel).Early :=
  (early_cases early fuel .ifWord).call.bind fun _ => early_pure _

theorem early_name (what : Expectation) : (name what : Rule Name).Early := by
  refine early_current.bind fun token => ?_
  split
  · exact early_advance.bind fun _ => early_pure _
  · exact early_fail what

theorem early_keyword (word : Keyword) : (keyword word : Rule Unit).Early :=
  early_expect _ _

theorem early_forEach (early : self.Early) : (forEach self).Early := by
  refine (early_keyword _).bind fun _ => (early_keyword _).bind fun _ => ?_
  refine (early_name _).bind fun _ => (early_keyword _).bind fun _ => ?_
  exact (early_name _).bind fun _ => (early_braces early).bind fun _ => early_pure _

theorem early_whileLoop (early : self.Early) : (whileLoop self).Early := by
  refine (early_keyword _).bind fun _ => (early_condition early).bind fun _ => ?_
  exact (early_braces early).bind fun _ => early_pure _

theorem early_repetition (early : self.Early) : (repetition self).Early := by
  refine (early_keyword _).bind fun _ => early_lexeme.bind fun lexeme => ?_
  split
  · refine early_advance.bind fun _ => (early_condition early).bind fun _ => ?_
    exact (early_braces early).bind fun _ => early_pure _
  · refine early_current.bind fun token => ?_
    split
    · refine early_advance.bind fun _ => (early_keyword _).bind fun _ => ?_
      exact (early_braces early).bind fun _ => early_pure _
    · refine early_advance.bind fun _ => (early_keyword _).bind fun _ => ?_
      exact (early_braces early).bind fun _ => early_pure _
    · exact early_fail _

theorem early_moreParameters (fuel : Nat) : (moreParameters fuel : Rule (List Name)).Early := by
  induction fuel with
  | zero => exact early_abort _
  | succ fuel ih =>
      refine early_lexeme.bind fun lexeme => ?_
      split
      · refine early_advance.bind fun _ => (early_name _).bind fun parameter => ?_
        exact ih.bind fun others => early_pure _
      · exact early_pure []

theorem early_parameters (fuel : Nat) : (parameters fuel : Rule (List Name)).Early := by
  refine early_lexeme.bind fun lexeme => ?_
  split
  · refine (early_name _).bind fun first => (early_moreParameters fuel).bind fun others => ?_
    exact (early_expect _ _).bind fun _ => early_pure _
  · exact (early_expect _ _).bind fun _ => early_pure []

theorem early_procedure (early : self.Early) (fuel : Nat) : (procedure self fuel).Early := by
  refine (early_keyword _).bind fun _ => early_lexeme.bind fun lexeme => ?_
  split
  · refine (early_name _).bind fun own => (early_expect _ _).bind fun _ => ?_
    refine (early_parameters fuel).bind fun names => ?_
    exact (early_braces early).bind fun body => early_pure _
  · refine (early_expect _ _).bind fun _ => (early_parameters fuel).bind fun names => ?_
    exact (early_braces early).bind fun body => early_pure _

theorem early_keywordAtom (early : self.Early) (fuel : Nat) {word : Keyword} {rule : Rule Node}
    (starts : keywordAtom self fuel word = some rule) : rule.Early := by
  unfold keywordAtom at starts
  split at starts <;> cases starts
  · exact early_branch early fuel
  · exact early_forEach early
  · exact early_whileLoop early
  · exact early_repetition early
  · exact early_procedure early fuel

theorem early_atom (early : self.Early) (fuel : Nat) : (atom self fuel).Early := by
  refine early_current.bind fun token => ?_
  split
  case h_4 => exact (early_takeTruth true).bind fun _ => early_pure _
  case h_5 => exact (early_takeTruth false).bind fun _ => early_pure _
  case h_7 =>
    refine early_advance.bind fun _ => (early .expression).call.bind fun node => ?_
    exact (early_expect _ _).bind fun _ => early_pure node
  case h_8 => exact (early_listLiteral early fuel).call
  case h_9 =>
    split
    · next starts => exact (early_keywordAtom early fuel starts).call
    · exact early_fail _
  case h_10 =>
    have counted : count.Early := fun _ => trivial
    exact counted.bind fun _ => early_raise ⟨rfl, rfl⟩
  case h_11 => exact early_fail _
  all_goals exact early_advance.bind fun _ => early_pure _

theorem early_firstArgument (early : self.Early) : (firstArgument self).Early := by
  refine (early .expression).observe (fun node tally => ?_) fun diagnostic tally _ => ?_
  · exact (early_register tally).bind fun _ => early_pure node
  · exact (early_register tally).bind fun _ => early_abort _

theorem early_application (early : self.Early) (fuel : Nat) :
    (application self fuel).Early := by
  refine (early_atom early fuel).call.bind fun callee => early_lexeme.bind fun lexeme => ?_
  split
  · refine early_advance.bind fun _ => early_lexeme.bind fun lexeme => ?_
    split
    · exact early_advance.bind fun _ => early_pure _
    · refine (early_firstArgument early).bind fun first => ?_
      refine (early_moreItems early fuel).bind fun others => ?_
      exact (early_expect _ _).bind fun _ => early_pure _
  · exact early_pure callee

theorem early_chain {operator? : Lexeme → Option BinaryOp} {operand right : Rule Node}
    (first : operand.Early) (further : right.Early) (fuel : Nat) :
    (chain operator? operand right fuel).Early := by
  have more (fuel : Nat) (left : Node) : (chainFrom operator? right fuel left).Early := by
    induction fuel generalizing left with
    | zero => exact early_abort _
    | succ fuel ih =>
        refine early_current.bind fun token => ?_
        split
        · refine early_advance.bind fun _ => further.call.bind fun operand => ?_
          exact ih _
        · exact early_pure left
  exact first.call.bind fun left => more fuel left

theorem early_factor (early : self.Early) (fuel : Nat) : (factor self fuel).Early := by
  refine early_current.bind fun token => ?_
  split
  · exact early_advance.bind fun _ => (early .factor).call.bind fun operand => early_pure _
  · exact early_chain (early_application early fuel) (early .factor) fuel

theorem early_sum (early : self.Early) (fuel : Nat) : (sum self fuel).Early := by
  have term : (term self fuel).Early :=
    early_chain (early_factor early fuel) (early_factor early fuel) fuel
  exact early_chain term term fuel

theorem early_comparison (early : self.Early) (fuel : Nat) : (comparison self fuel).Early := by
  have sum := early_sum early fuel
  refine early_current.bind fun token => ?_
  split
  · refine early_advance.bind fun _ => ?_
    exact (early .comparison).call.bind fun operand => early_pure _
  · exact (early_chain sum sum fuel).callOr fun _ => ⟨rfl, rfl⟩

theorem early_expression (early : self.Early) (fuel : Nat) : (expression self fuel).Early := by
  have comparison := early_comparison early fuel
  refine early_current.bind fun token => early_followingLexeme.bind fun next => ?_
  split
  · refine (early_name _).bind fun target => early_advance.bind fun _ => ?_
    exact (early .expression).call.bind fun value => early_pure _
  · exact (early_chain comparison comparison fuel).callOr fun _ => ⟨rfl, rfl⟩

/-! ### Statements -/

theorem early_statement (early : self.Early) : (statement self).Early := by
  refine early_current.bind fun token => ?_
  dsimp only
  split
  · refine early_advance.bind fun _ => (early .expression).attempt.bind fun value => ?_
    have ended : (do return Node.returning value ⟨token.span.start, (← current).span.stop⟩ :
        Rule Node).Early := early_current.bind fun _ => early_pure _
    split
    · exact early_rewind.bind fun _ => ended
    · exact ended
  · split
    · exact early_advance.bind fun _ => early_current.bind fun _ => early_pure _
    · split
      · exact early_advance.bind fun _ => early_current.bind fun _ => early_pure _
      · exact (early .expression).callOr fun _ => ⟨rfl, rfl⟩

theorem early_moreStatements (early : self.Early) (fuel : Nat) :
    (moreStatements self fuel).Early := by
  induction fuel with
  | zero => exact early_abort _
  | succ fuel ih =>
      refine early_lexeme.bind fun lexeme => ?_
      split
      · refine early_skipNewlines.bind fun _ => (early_statement early).attempt.bind ?_
        rintro (_ | node)
        · exact early_rewind.bind fun _ => early_skipNewlines.bind fun _ => early_pure []
        · exact ih.bind fun others => early_pure _
      · exact early_pure []

theorem early_block (early : self.Early) (fuel : Nat) : (block self fuel).Early := by
  refine early_current.bind fun opening => early_skipNewlines.bind fun _ => ?_
  refine (early_statement early).call.bind fun node => ?_
  exact (early_moreStatements early fuel).bind fun others => early_listed _ _

theorem early_giveUp {diagnostic : Diagnostic} (early : diagnostic.Early) :
    (giveUp diagnostic : Rule (List Node)).Early := by
  refine early_skipNewlines.bind fun _ => early_lexeme.bind fun lexeme => ?_
  split
  · exact early_rewind.bind fun _ => early_skipNewlines.bind fun _ => early_raise early
  · exact early_raise early

theorem early_moreProgram (early : self.Early) (fuel : Nat) :
    (moreProgram self fuel).Early := by
  induction fuel with
  | zero => exact early_abort _
  | succ fuel ih =>
      refine early_lexeme.bind fun lexeme => ?_
      split
      · refine early_skipNewlines.bind fun _ => (early_statement early).observe
          (fun node tally => ?_) fun diagnostic tally known => ?_
        · refine (early_register tally).bind fun _ => ?_
          exact ih.bind fun others => early_pure _
        · dsimp only
          split
          · refine (early_noteRewind _).bind fun _ => early_rewind.bind fun _ => ?_
            exact early_skipNewlines.bind fun _ => early_pure []
          · exact (early_register tally).bind fun _ => early_giveUp known
      · exact early_pure []

theorem early_firstStatement (early : self.Early) : (firstStatement self).Early := by
  refine (early_statement early).observe (fun node tally => ?_) fun diagnostic tally known => ?_
  · exact (early_register tally).bind fun _ => early_pure node
  · refine (early_register tally).bind fun _ => ?_
    dsimp only
    split
    · have forgotten : forgetLast.Early := fun _ => trivial
      exact forgotten.bind fun _ => early_raise ⟨known.placed, rfl⟩
    · exact early_raise known

theorem early_program (early : self.Early) (fuel : Nat) : (program self fuel).Early := by
  have statements : (statements self fuel).Early := by
    refine early_current.bind fun opening => early_skipNewlines.bind fun _ => ?_
    refine early_lexeme.bind fun lexeme => ?_
    split
    · exact early_listed _ _
    · refine (early_firstStatement early).bind fun node => ?_
      exact (early_moreProgram early fuel).bind fun others => early_listed _ _
  refine statements.bind fun node => early_lexeme.bind fun lexeme => ?_
  split
  · exact early_pure node
  · exact early_fail _

/-- Every rule of the grammar, by induction on the bound on the nesting. -/
theorem early_rule (fuel : Nat) : (rule fuel).Early := by
  induction fuel with
  | zero => exact fun _ => early_abort _
  | succ fuel ih =>
      intro category
      cases category with
      | expression => exact early_expression ih fuel
      | comparison => exact early_comparison ih fuel
      | factor => exact early_factor ih fuel
      | block => exact early_block ih fuel

end Grammar

/-! ## Texts -/

namespace Scanner

/-- A step that, if it ends in an error, ends in one with a place that concerns the text. -/
def Places (result : Except Stop (Option Token × Scanner)) : Prop :=
  ∀ stop, result = .error stop → stop.Early

theorem places_ok (result : Option Token × Scanner) : Places (.ok result) := by
  intro stop failed
  cases failed

theorem places_error {stop : Stop} (early : stop.Early) : Places (.error stop) := by
  intro other failed
  cases failed
  exact early

theorem places_ite {condition : Prop} [Decidable condition]
    {first second : Except Stop (Option Token × Scanner)} (holds : Places first)
    (fails : Places second) : Places (if condition then first else second) := by
  split
  · exact holds
  · exact fails

theorem places_step (s : Scanner) (c : Char) : Places (s.step c) := by
  have found (result : Token × Scanner) : Places (found result) := places_ok _
  refine places_ite (places_ok _) (places_ite (places_ok _) (places_ite ?number
    (places_ite (found _) (places_ite (found _) (places_ite (found _) (places_ite ?exclamation
      (places_ite (found _) (places_ite (found _) (places_ite (found _) ?single)))))))))
  case number =>
    split
    · exact found _
    · exact places_error trivial
  case exclamation =>
    split
    · exact found _
    · next read =>
        unfold notEqual at read
        dsimp only at read
        split at read <;> cases read
        exact places_error ⟨rfl, rfl⟩
  case single =>
    split
    · exact found _
    · exact places_error ⟨rfl, rfl⟩

theorem early_tokensWithin {fuel : Nat} {s : Scanner} {stop : Stop}
    (failed : tokensWithin fuel s = .error stop) : stop.Early := by
  induction fuel generalizing s with
  | zero => cases failed
  | succ fuel ih =>
      unfold tokensWithin at failed
      split at failed
      · cases failed
      · next c rest _ =>
          cases run : s.step c with
          | error first =>
              rw [run] at failed
              cases failed
              exact places_step s c stop run
          | ok result =>
              obtain ⟨token?, after⟩ := result
              rw [run] at failed
              cases others : tokensWithin fuel after with
              | error second =>
                  simp only [others, bind, Except.bind] at failed
                  cases failed
                  exact ih others
              | ok tokens =>
                  simp only [others, bind, Except.bind] at failed
                  cases failed

end Scanner

theorem early_parseProgram {tokens : List Token} {stop : Stop}
    (failed : parseProgram tokens = .error stop) : stop.Early := by
  have early := Grammar.early_program (Grammar.early_rule (Grammar.bound tokens.toArray.size))
    (Grammar.bound tokens.toArray.size) { tokens := tokens.toArray, index := 0 }
  unfold parseProgram at failed
  dsimp only at failed
  split at failed <;> cases failed
  · next run => rwa [run] at early
  · trivial

/-- What stops the reading of a source has a place and concerns the text, if it is an error. -/
theorem Source.early_parse {source : Source} {stop : Stop} (failed : source.parse = .error stop) :
    stop.Early := by
  unfold Source.parse at failed
  cases scanned : source.tokens with
  | error first =>
      rw [scanned] at failed
      cases failed
      exact Scanner.early_tokensWithin scanned
  | ok tokens =>
      rw [scanned] at failed
      exact early_parseProgram failed

end Pseudocode
