import Pseudocode.Proofs.Parsing.Keeping

/-!
# The range of the rules

Every rule of the grammar keeps to its tokens and keeps count.  The only moves back are those after
an attempt.  An attempt has counted the distance it has walked, or one step more, and it is made
behind a token: behind the word `RETURN` or behind a line end.  So going back never leads before the
first token.  The steps too many do not add up, because a walk that has gone astray does not move
any more: see `Rule.Traced`.
-/

namespace Pseudocode

open Grammar

namespace Recorded

/-- Recorded rules that keep to the tokens as the rules of the grammar do. -/
def Mirrors (self : RulesIn Recorded) (rules : Rules) : Prop :=
  ∀ category, (self category).Careful (rules category)

/-! ## Parts of expressions -/

section

variable {self : RulesIn Recorded} {rules : Rules} {fuel : Nat}

theorem careful_moreItems (careful : Mirrors self rules) :
    (moreItems self fuel).Careful (moreItems rules fuel) := by
  induction fuel with
  | zero => exact careful_abort _
  | succ fuel ih =>
      intro w
      refine .lexeme ?_
      cases same : w.current.lexeme with
      | comma =>
          exact .advanceOver same Lexeme.noConfusion
            ((careful_call (careful .expression)).bind fun _ =>
              ih.bind fun _ => careful_pure _)
      | _ => exact careful_pure _ w

theorem careful_listLiteral (careful : Mirrors self rules) :
    (listLiteral self fuel).Careful (listLiteral rules fuel) := by
  intro w
  refine .current ((careful_expect rfl w).bind fun _ v _ _ => .lexeme ?_)
  cases same : v.current.lexeme with
  | rightBracket => exact .advanceOver same Lexeme.noConfusion fun v => .current (careful_pure _ v)
  | _ =>
      refine (careful_callOr (careful .expression) _).bind (fun item => ?_) v
      refine (careful_moreItems careful).bind fun items => (careful_expect rfl).bind fun _ v => ?_
      exact .current (careful_pure _ v)

theorem careful_braces (careful : Mirrors self rules) :
    (braces self).Careful (braces rules) :=
  careful_skipNewlines.bind fun _ => (careful_expect rfl).bind fun _ =>
    (careful_call (careful .block)).bind fun _ => (careful_expect rfl).bind fun _ => careful_pure _

theorem careful_condition (careful : Mirrors self rules) :
    (condition self).Careful (condition rules) :=
  (careful_expect rfl).bind fun _ => (careful_call (careful .expression)).bind fun _ =>
    (careful_expect rfl).bind fun _ => careful_pure _

theorem careful_elseBranch (careful : Mirrors self rules) :
    (elseBranch self).Careful (elseBranch rules) := by
  refine fun w => .lexeme (.ite (fun isElse => ?_) fun _ => careful_pure none w)
  exact .advanceOver (isKeyword_iff.mp isElse) Lexeme.noConfusion
    ((careful_braces careful).bind fun _ => careful_pure _)

theorem careful_cases (careful : Mirrors self rules)
    (word : Keyword) : (cases self fuel word).Careful (cases rules fuel word) := by
  induction fuel generalizing word with
  | zero => exact careful_abort _
  | succ fuel ih =>
      refine (careful_expect rfl).bind fun _ => (careful_condition careful).bind fun test =>
        (careful_braces careful).bind fun body => careful_skipNewlines.bind fun _ w => ?_
      refine .lexeme (.ite (fun _ => ?_) fun _ => .ite (fun _ => ?_) fun _ => careful_pure _ w)
      · exact (careful_call (ih .elifWord)).bind (fun _ => careful_pure _) w
      · exact (careful_call (careful_elseBranch careful)).bind (fun _ => careful_pure _) w

theorem careful_branch (careful : Mirrors self rules) :
    (branch self fuel).Careful (branch rules fuel) :=
  (careful_call (careful_cases careful .ifWord)).bind fun _ => careful_pure _

theorem careful_forEach (careful : Mirrors self rules) :
    (forEach self).Careful (forEach rules) :=
  (careful_keyword .forWord).bind fun _ => (careful_keyword .eachWord).bind fun _ =>
    (careful_name .name).bind fun _ => (careful_keyword .inWord).bind fun _ =>
      (careful_name .name).bind fun _ => (careful_braces careful).bind fun _ => careful_pure _

theorem careful_whileLoop (careful : Mirrors self rules) :
    (whileLoop self).Careful (whileLoop rules) :=
  (careful_keyword .whileWord).bind fun _ => (careful_condition careful).bind fun _ =>
    (careful_braces careful).bind fun _ => careful_pure _

theorem careful_repetition (careful : Mirrors self rules) :
    (repetition self).Careful (repetition rules) := by
  refine (careful_keyword .repeatWord).bind fun _ w =>
    .lexeme (.ite (fun isUntil => ?_) fun _ => .current ?_)
  · exact .advanceOver (isKeyword_iff.mp isUntil) Lexeme.noConfusion
      ((careful_condition careful).bind fun _ =>
        (careful_braces careful).bind fun _ => careful_pure _)
  · cases same : w.current.lexeme with
    | int count =>
        exact .advanceOver same Lexeme.noConfusion ((careful_keyword .timesWord).bind fun _ =>
          (careful_braces careful).bind fun _ => careful_pure _)
    | name text =>
        exact .advanceOver same Lexeme.noConfusion ((careful_keyword .timesWord).bind fun _ =>
          (careful_braces careful).bind fun _ => careful_pure _)
    | _ => exact careful_fail _ w

theorem careful_moreParameters : Careful (moreParameters fuel) (moreParameters fuel) := by
  induction fuel with
  | zero => exact careful_abort _
  | succ fuel ih =>
      intro w
      refine .lexeme ?_
      cases same : w.current.lexeme with
      | comma =>
          exact .advanceOver same Lexeme.noConfusion ((careful_name .parameter).bind fun _ =>
            ih.bind fun _ => careful_pure _)
      | _ => exact careful_pure _ w

theorem careful_parameters : Careful (parameters fuel) (parameters fuel) := by
  refine fun w => .lexeme (.ite (fun _ => ?_) fun _ => ?_)
  · exact (careful_name .name).bind (fun _ => careful_moreParameters.bind fun _ =>
      (careful_expect rfl).bind fun _ => careful_pure _) w
  · exact (careful_expect rfl).bind (fun _ => careful_pure _) w

theorem careful_procedure (careful : Mirrors self rules) :
    (procedure self fuel).Careful (procedure rules fuel) := by
  refine (careful_keyword .procedureWord).bind fun _ w =>
    .lexeme (.ite (fun _ => ?_) fun _ => ?_)
  · exact (careful_name .name).bind (fun _ => (careful_expect rfl).bind fun _ =>
      careful_parameters.bind fun _ => (careful_braces careful).bind fun _ => careful_pure _) w
  · exact (careful_expect rfl).bind (fun _ => careful_parameters.bind fun _ =>
      (careful_braces careful).bind fun _ => careful_pure _) w

/-- The end of the program counts as a step, and it is noted that it was met. -/
theorem careful_meetEnd (diagnostic : Diagnostic) :
    (do meetEnd; act (Rule.raise diagnostic) : Recorded Node).Careful
      (do Rule.count; Rule.raise diagnostic) := by
  intro w inside
  have trail : (do meetEnd; act (Rule.raise diagnostic) : Recorded Node).trail w =
      [.ending, .place w.index] ++ [.place w.index] := rfl
  rw [trail]
  refine ⟨rfl, ?_, rfl, ?_, inside.nonneg, inside.below, fun unmet => ?_⟩
  · intro index member
    have member' : Footprint.place index ∈ [Footprint.place w.index] := by simpa using member
    exact inside.holds index member'
  · exact ⟨by omega, by omega, rfl⟩
  · simp at unmet

theorem careful_atom (careful : Mirrors self rules) :
    (atom self fuel).Careful (atom rules fuel) := by
  intro w
  refine .current ?_
  cases same : w.current.lexeme with
  | int n => exact .advanceOver same Lexeme.noConfusion (careful_pure _)
  | float x => exact .advanceOver same Lexeme.noConfusion (careful_pure _)
  | string s => exact .advanceOver same Lexeme.noConfusion (careful_pure _)
  | name text => exact .advanceOver same Lexeme.noConfusion (careful_pure _)
  | leftParen =>
      exact .advanceOver same Lexeme.noConfusion ((careful_call (careful .expression)).bind fun _ =>
        (careful_expect rfl).bind fun _ => careful_pure _)
  | leftBracket => exact careful_call (careful_listLiteral careful) w
  | keyword word =>
      cases word with
      | trueWord => exact .takeTruth (by rw [same]; rfl) (careful_pure _)
      | falseWord => exact .takeTruth (by rw [same]; rfl) (careful_pure _)
      | ifWord => exact careful_call (careful_branch careful) w
      | forWord => exact careful_call (careful_forEach careful) w
      | whileWord => exact careful_call (careful_whileLoop careful) w
      | repeatWord => exact careful_call (careful_repetition careful) w
      | procedureWord => exact careful_call (careful_procedure careful) w
      | _ => exact careful_fail .atom w
  | eof => exact careful_meetEnd _ w
  | _ => exact careful_fail .atom w

theorem careful_firstArgument (careful : Mirrors self rules) :
    (firstArgument self).Careful (firstArgument rules) :=
  fun _ => .observe (careful .expression) (fun x _ _ => .register (careful_pure x _))
    fun _ _ _ => .register (careful_abort _ _)

theorem careful_application (careful : Mirrors self rules) :
    (application self fuel).Careful (application rules fuel) := by
  refine (careful_call (careful_atom careful)).bind fun callee w => .lexeme ?_
  cases same : w.current.lexeme with
  | leftParen =>
      refine .advanceOver same Lexeme.noConfusion fun v => .lexeme ?_
      cases same' : v.current.lexeme with
      | rightParen => exact .advanceOver same' Lexeme.noConfusion (careful_pure _)
      | _ =>
          exact (careful_firstArgument careful).bind (fun _ => (careful_moreItems careful).bind
            fun _ => (careful_expect rfl).bind fun _ => careful_pure _) v
  | _ => exact careful_pure callee w

/-! ## Operators -/

theorem careful_chainFrom {operator? : Lexeme → Option BinaryOp} {right : Recorded Node}
    {right' : Rule Node} (noEnd : operator? .eof = none) (careful : right.Careful right')
    (left : Node) :
    (chainFrom operator? right fuel left).Careful
      (chainFrom operator? right' fuel left) := by
  induction fuel generalizing left with
  | zero => exact careful_abort _
  | succ fuel ih =>
      intro w
      refine .current ?_
      cases found : operator? w.current.lexeme with
      | some op =>
          have other : w.current.lexeme ≠ .eof := by
            intro isEnd
            rw [isEnd, noEnd] at found
            cases found
          exact .advance other ((careful_call careful).bind (fun _ => ih _) _)
      | none => exact careful_pure left w

theorem careful_chain {operator? : Lexeme → Option BinaryOp} {operand right : Recorded Node}
    {operand' right' : Rule Node} (noEnd : operator? .eof = none)
    (careful : operand.Careful operand') (careful' : right.Careful right') :
    (chain operator? operand right fuel).Careful
      (chain operator? operand' right' fuel) :=
  (careful_call careful).bind fun left => careful_chainFrom noEnd careful' left

theorem careful_power (careful : Mirrors self rules) :
    (power self fuel).Careful (power rules fuel) :=
  careful_chain rfl (careful_application careful) (careful .factor)

theorem careful_factor (careful : Mirrors self rules) :
    (factor self fuel).Careful (factor rules fuel) := by
  intro w
  refine .current ?_
  cases found : signOp? w.current.lexeme with
  | some op =>
      have other : w.current.lexeme ≠ .eof := fun isEnd => by rw [isEnd] at found; cases found
      exact .advance other ((careful_call (careful .factor)).bind (fun _ => careful_pure _) _)
  | none => exact careful_power careful w

theorem careful_term (careful : Mirrors self rules) :
    (term self fuel).Careful (term rules fuel) :=
  careful_chain rfl (careful_factor careful) (careful_factor careful)

theorem careful_sum (careful : Mirrors self rules) :
    (sum self fuel).Careful (sum rules fuel) :=
  careful_chain rfl (careful_term careful) (careful_term careful)

theorem careful_comparison (careful : Mirrors self rules) :
    (comparison self fuel).Careful (comparison rules fuel) := by
  refine fun w => .current (.ite (fun isNot => ?_) fun _ => ?_)
  · exact .advanceOver (isKeyword_iff.mp isNot) Lexeme.noConfusion
      ((careful_call (careful .comparison)).bind fun _ => careful_pure _)
  · exact careful_callOr (careful_chain rfl (careful_sum careful) (careful_sum careful)) _ w

theorem name_run {what : Expectation} {w : Walk} {text : String}
    (same : w.current.lexeme = .name text) :
    (name what : Rule Name) w = .ok ⟨text, w.current.span⟩
      { w with index := w.index + 1, tally := w.tally.count } := by
  rw [Grammar.name, act_rule, Rule.bind_of_ok (rfl : Rule.current w = .ok w.current w)]
  simp only [same]
  rfl

theorem careful_expression (careful : Mirrors self rules) :
    (expression self fuel).Careful (expression rules fuel) := by
  refine fun w => .current (keeps_look rfl (.ite (fun assigns => ?_) fun _ => ?_))
  · -- the sign behind the name has been seen before the walk comes to it
    obtain ⟨isName, isSign⟩ := Bool.and_eq_true_iff.mp assigns
    refine (careful_name .name w).bind fun target v run _ => ?_
    cases same : w.current.lexeme with
    | name text =>
        rw [name_run same] at run
        cases run
        refine .advance ?_ ((careful_call (careful .expression)).bind (fun _ => careful_pure _) _)
        intro (isEnd : w.following.lexeme = .eof)
        rw [isEnd] at isSign
        cases isSign
    | _ =>
        rw [same] at isName
        cases isName
  · exact careful_callOr
      (careful_chain rfl (careful_comparison careful) (careful_comparison careful)) _ w

/-! ## Statements -/

/-- A statement goes back only behind the word `RETURN`. -/
theorem careful_statement (careful : Mirrors self rules) (faithful : Faithful rules) :
    (statement self).Careful (statement rules) := by
  intro w inside
  have stop : ∀ node : Span → Node,
      (do return node ⟨w.current.span.start, (← act Rule.current).span.stop⟩).Careful
        (do return node ⟨w.current.span.start, (← Rule.current).span.stop⟩) :=
    fun node v => .current (careful_pure _ v)
  refine Keeps.current (.ite (fun isReturn => ?_) fun _ => .ite (fun isContinue => ?_) fun _ =>
    .ite (fun isBreak => ?_) fun _ => careful_callOr (careful .expression) _ w) inside
  · have other : w.current.lexeme ≠ .eof := by
      rw [isKeyword_iff.mp isReturn]
      exact Lexeme.noConfusion
    have nonneg := inside.nonneg
    refine .advance other (.attempt (careful .expression) ?_ ?_ ?_ (stop _) rfl rfl)
    · exact fun v inside => inside.strays fun a => faithful.expression a
    · simp only
      omega
    · exact fun value => stop _
  · exact .advanceOver (isKeyword_iff.mp isContinue) Lexeme.noConfusion (stop _)
  · exact .advanceOver (isKeyword_iff.mp isBreak) Lexeme.noConfusion (stop _)

theorem strays_statement (faithful : Faithful rules) (stops : StopsAtOnce rules) {w : Walk}
    (inside : w.Inside) : (statement rules w).Strays w :=
  inside.strays fun _ => statement_traced faithful stops

/-- A block goes back only behind a line end. -/
theorem careful_moreStatements (careful : Mirrors self rules) (faithful : Faithful rules)
    (stops : StopsAtOnce rules) :
    (moreStatements self fuel).Careful (moreStatements rules fuel) := by
  induction fuel with
  | zero => exact careful_abort _
  | succ fuel ih =>
      intro w inside
      refine Keeps.lexeme ?_ inside
      cases same : w.current.lexeme with
      | newline =>
          refine (careful_skipNewlines w).bind fun _ v skipped _ => ?_
          have nonneg := inside.nonneg
          have ahead := Rule.skipNewlines_ahead same skipped
          refine .attempt (careful_statement careful faithful)
            (fun v inside => strays_statement faithful stops inside) (by omega) (fun node => ?_) ?_
            rfl rfl
          · exact ih.bind fun _ => careful_pure _
          · exact careful_skipNewlines.bind fun _ => careful_pure _
      | _ => exact careful_pure _ w

theorem careful_block (careful : Mirrors self rules) (faithful : Faithful rules)
    (stops : StopsAtOnce rules) : (block self fuel).Careful (block rules fuel) := by
  refine fun w => .current (careful_skipNewlines.bind (fun _ => ?_) w)
  refine (careful_call (careful_statement careful faithful)).bind fun node => ?_
  exact (careful_moreStatements careful faithful stops).bind fun others v =>
    .current (careful_pure _ v)

end

/-- All rules of the grammar keep to the tokens. -/
theorem mirrors_knot (fuel : Nat) : Mirrors (knot fuel) (Grammar.rule fuel) := by
  induction fuel with
  | zero => exact fun _ => careful_abort _
  | succ fuel ih =>
      intro category
      cases category with
      | expression => exact careful_expression ih
      | comparison => exact careful_comparison ih
      | factor => exact careful_factor ih
      | block => exact careful_block ih (rule_faithful fuel) (rule_stops fuel)

/-! ## Programs -/

section

variable {self : RulesIn Recorded} {rules : Rules} {fuel : Nat} {w : Walk}

/-- A program only gives up attempts at its end, so here going back leads nowhere. -/
theorem keeps_giveUp (diagnostic : Diagnostic) (fresh : w.tally.rewind = 0) :
    Keeps (giveUp diagnostic) (giveUp diagnostic) 0 w := by
  refine (careful_skipNewlines w).bind fun _ v skipped _ => .lexeme ?_
  have fresh' : v.tally.rewind = 0 := (Rule.skipNewlines_skips skipped).rewind.trans fresh
  cases v.current.lexeme with
  | eof =>
      exact keeps_look (Rule.rewind_stays fresh')
        (careful_skipNewlines.bind (fun _ => careful_raise diagnostic) v)
  | _ => exact careful_raise diagnostic v

theorem keeps_moreProgram (careful : Mirrors self rules) (faithful : Faithful rules)
    (stops : StopsAtOnce rules) (fresh : w.tally.rewind = 0) :
    (moreProgram self fuel).Keeps (moreProgram rules fuel) 0 w := by
  induction fuel generalizing w with
  | zero => exact careful_abort _ w
  | succ fuel ih =>
      intro inside
      refine Keeps.lexeme ?_ inside
      cases same : w.current.lexeme with
      | newline =>
          refine (careful_skipNewlines w).bind fun _ v skipped inside' => ?_
          have nonneg := inside.nonneg
          have ahead := Rule.skipNewlines_ahead same skipped
          have fresh' : v.tally.rewind = 0 := (Rule.skipNewlines_skips skipped).rewind.trans fresh
          refine .observe (careful_statement careful faithful) (fun node after _ => .register ?_)
            fun diagnostic after run => .ite (fun _ => .takeBack (fun _ => ?_) ?_)
              fun _ => .register ?_
          · refine Keeps.bind (ih ?_) fun _ u _ _ => careful_pure _ u
            exact fresh'
          · have strayed := strays_statement faithful stops inside'.untallied
            rw [run] at strayed
            have offset := strayed.offset
            simp only at offset ⊢
            omega
          · exact careful_skipNewlines.bind (fun _ => careful_pure _) _
          · exact keeps_giveUp diagnostic fresh'
      | _ => exact careful_pure _ w

theorem careful_firstStatement (careful : Mirrors self rules) (faithful : Faithful rules) :
    (firstStatement self).Careful (firstStatement rules) := by
  refine fun _ => .observe (careful_statement careful faithful)
    (fun node _ _ => .register (careful_pure node _))
    fun diagnostic _ _ => .register (.ite (fun _ => ?_) fun _ => careful_raise diagnostic _)
  exact keeps_act rfl rfl (by simp only; omega) (fun inside => ⟨inside.nonneg, inside.below⟩) rfl
    (careful_raise _ _)

theorem keeps_statements (careful : Mirrors self rules) (faithful : Faithful rules)
    (stops : StopsAtOnce rules) (fresh : w.tally.rewind = 0) :
    (statements self fuel).Keeps (statements rules fuel) 0 w := by
  refine .current ((careful_skipNewlines w).bind fun _ v skipped _ => .lexeme ?_)
  have fresh' : v.tally.rewind = 0 := (Rule.skipNewlines_skips skipped).rewind.trans fresh
  cases v.current.lexeme with
  | eof => exact .current (careful_pure _ v)
  | _ =>
      refine (careful_firstStatement careful faithful v).bind fun node u started _ => ?_
      obtain ⟨third, -, rfl⟩ := firstStatement_ok started
      refine Keeps.bind (keeps_moreProgram careful faithful stops fresh') fun _ last _ _ => ?_
      exact .current (careful_pure _ last)

theorem keeps_program (careful : Mirrors self rules) (faithful : Faithful rules)
    (stops : StopsAtOnce rules) (fresh : w.tally.rewind = 0) :
    (program self fuel).Keeps (program rules fuel) 0 w := by
  refine (keeps_statements careful faithful stops fresh).bind fun node v _ _ => .lexeme ?_
  cases v.current.lexeme with
  | eof => exact careful_pure node v
  | _ => exact careful_fail .operator v

end

end Recorded
end Pseudocode
