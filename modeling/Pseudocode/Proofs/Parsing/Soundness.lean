import Pseudocode.Proofs.Parsing.Completeness
import Pseudocode.Proofs.Parsing.Trace

/-!
# The parser only accepts what can be read

Every success of a rule of the grammar is traced back to a reading.  Only statements and blocks can
go astray, and a walk that has done so stands at a token that neither a statement nor a block can be
followed by, so no program is accepted after that.
-/

namespace Pseudocode
namespace Grammar

open Rule

/-- Rules whose successes come from readings.  A block that has gone astray does not stand at its
closing brace. -/
structure Faithful (rules : Rules) : Prop where
  expression (a : List Token) :
    (rules .expression).Sound a fun node b => Reads .expression a (.node node) b
  comparison (a : List Token) :
    (rules .comparison).Sound a fun node b => Reads .comparison a (.node node) b
  factor (a : List Token) : (rules .factor).Sound a fun node b => Reads .factor a (.node node) b
  block (a : List Token) :
    (rules .block).Traced a (fun node b => Reads .block a (.node node) b) (· ≠ .rightBrace)

section

variable {self : Rules} {fuel : Nat} {β : Type} {reads : β → List Token → Prop}
  {stray : Lexeme → Prop} {t : Token} {a : List Token}

theorem keyword_traced {word : Keyword} {next : Unit → Rule β}
    (rest : ∀ span, t = ⟨.keyword word, span⟩ → (next ()).Traced a reads stray) :
    (keyword word >>= next).Traced (t :: a) reads stray :=
  .expect _ (fun _ => isKeyword_iff.mp) Lexeme.noConfusion rest

theorem name_sound {what : Expectation} :
    (name what : Rule Name).Sound a fun found b =>
      ∃ text span, a = ⟨.name text, span⟩ :: b ∧ found = ⟨text, span⟩ := by
  cases a with
  | nil => exact .nil
  | cons t a =>
      refine .current ?_
      obtain ⟨lexeme, span⟩ := t
      cases lexeme with
      | name text => exact .advance Lexeme.noConfusion (.pure ⟨text, span, rfl, rfl⟩)
      | _ => exact .fail

theorem moreItems_sound (faithful : Faithful self) :
    (moreItems self fuel).Sound a fun nodes b => Reads .moreItems a (.nodes nodes) b := by
  induction fuel generalizing a with
  | zero => exact .abort
  | succ fuel ih =>
      cases a with
      | nil => exact .nil
      | cons t a =>
          refine .lexeme ?_
          split
          · next isComma =>
              refine .advance (by rw [isComma]; exact Lexeme.noConfusion) ?_
              refine .bind (.call (faithful.expression a)) fun first b head => ?_
              refine .bind ih fun others c tail => .pure ?_
              obtain ⟨lexeme, span⟩ := t
              obtain rfl : lexeme = .comma := isComma
              exact .nextItem span head tail
          · next ends => exact .pure (.lastItem t a ends)

theorem condition_sound (faithful : Faithful self) :
    (condition self).Sound a fun node b => Reads .condition a (.node node) b := by
  cases a with
  | nil => exact .nil
  | cons t a =>
      refine .expect .leftParen (by rintro ⟨⟩ ⟨⟩; rfl) Lexeme.noConfusion
        fun opening isOpening => ?_
      refine .bind (.call (faithful.expression a)) fun node b inside => ?_
      cases b with
      | nil => exact .nil
      | cons u b =>
          refine .expect .rightParen (by rintro ⟨⟩ ⟨⟩; rfl) Lexeme.noConfusion
            fun closing isClosing => .pure ?_
          subst isOpening isClosing
          exact .condition opening closing inside

theorem listLiteral_sound (faithful : Faithful self) :
    (listLiteral self fuel).Sound a fun node b => Reads .atom a (.node node) b := by
  cases a with
  | nil => exact .nil
  | cons t a =>
      refine .current (.expect .leftBracket (by rintro ⟨⟩ ⟨⟩; rfl) Lexeme.noConfusion
        fun opening isOpening => ?_)
      subst isOpening
      cases a with
      | nil => exact .nil
      | cons u a =>
          refine .lexeme ?_
          split
          · next isClosing =>
              refine .advance (by rw [isClosing]; exact Lexeme.noConfusion) ?_
              obtain ⟨lexeme, closing⟩ := u
              obtain rfl : lexeme = .rightBracket := isClosing
              cases a with
              | nil => exact .nil
              | cons next a => exact .current (.pure (.emptyList opening closing next a))
          · refine .bind (.callOr _ (faithful.expression (u :: a))) fun first b head => ?_
            refine .bind (moreItems_sound faithful) fun others c tail => ?_
            cases c with
            | nil => exact .nil
            | cons v c =>
                refine .expect .rightBracket (by rintro ⟨⟩ ⟨⟩; rfl) Lexeme.noConfusion
                  fun closing isClosing => ?_
                subst isClosing
                cases c with
                | nil => exact .nil
                | cons next c =>
                    exact .current (.pure (.list opening closing next (.items head tail)))

/-- A block that has gone astray does not stand at its closing brace, so it is not accepted. -/
theorem braces_sound (faithful : Faithful self) :
    (braces self).Sound a fun node b => Reads .braces a (.node node) b := by
  refine .skipNewlines fun t b lines _ => ?_
  refine .expect .leftBrace (by rintro ⟨⟩ ⟨⟩; rfl) Lexeme.noConfusion fun opening isOpening => ?_
  refine .bindStray (.call (faithful.block b)) (fun node c inside => ?_) fun node w stands => ?_
  · cases c with
    | nil => exact .nil
    | cons u c =>
        refine .expect .rightBrace (by rintro ⟨⟩ ⟨⟩; rfl) Lexeme.noConfusion
          fun closing isClosing => .pure ?_
        subst isOpening isClosing
        exact .braces opening closing lines inside
  · rw [bind_of_error _ (expect_error ?_)]
    · exact rfl
    · cases same : w.current.lexeme with
      | rightBrace => exact absurd same stands
      | _ => rfl

theorem elseBranch_sound (faithful : Faithful self) (isElse : t.lexeme.isKeyword .elseWord = true) :
    (call (elseBranch self)).Sound (t :: a) fun other b =>
      ∃ span body, t = ⟨.keyword .elseWord, span⟩ ∧ other = some body ∧
        Reads .braces a (.node body) b := by
  refine .call (.lexeme ?_)
  have isWord := isKeyword_iff.mp isElse
  rw [if_pos isElse]
  refine .advance (by rw [isWord]; exact Lexeme.noConfusion) ?_
  exact .bind (braces_sound faithful) fun body b inside =>
    .pure ⟨t.span, body, by rw [← isWord], rfl, inside⟩

theorem cases_sound (faithful : Faithful self) {word : Keyword} :
    (cases self fuel word).Sound a fun parts b => Reads (.cases word) a (.cases parts) b := by
  induction fuel generalizing a word with
  | zero => exact .abort
  | succ fuel ih =>
      cases a with
      | nil => exact .nil
      | cons t a =>
          refine .expect (.keyword word) (fun _ => isKeyword_iff.mp) Lexeme.noConfusion
            fun span isWord => ?_
          subst isWord
          refine .bind (condition_sound faithful) fun test b guard => ?_
          refine .bind (braces_sound faithful) fun body c inside => ?_
          refine .skipNewlines fun next d lines _ => .lexeme ?_
          by_cases isElif : next.lexeme.isKeyword .elifWord = true
          · simp only [isElif, if_true]
            exact .bind (.call ih) fun more e others =>
              .pure (.elifCase span guard inside lines others)
          · by_cases isElse : next.lexeme.isKeyword .elseWord = true
            · simp only [isElif, isElse, if_true, if_false, Bool.false_eq_true]
              refine .bind (elseBranch_sound faithful isElse) fun other e otherwise => ?_
              obtain ⟨elseWord, body', isWord, rfl, read⟩ := otherwise
              subst isWord
              exact .pure (.elseCase span elseWord guard inside lines read)
            · simp only [isElif, isElse, if_false, Bool.false_eq_true]
              exact .pure (.lastCase span next guard inside lines (eq_false_of_ne_true isElif)
                (eq_false_of_ne_true isElse))

theorem forEach_sound (faithful : Faithful self) :
    (forEach self).Sound a fun node b => Reads .atom a (.node node) b := by
  obtain _ | ⟨t, a⟩ := a
  · exact .nil
  refine keyword_traced fun forWord isFor => ?_
  obtain _ | ⟨u, a⟩ := a
  · exact .nil
  refine keyword_traced fun eachWord isEach => ?_
  refine .bind name_sound ?_
  rintro _ b ⟨text, span, rfl, rfl⟩
  obtain _ | ⟨v, b⟩ := b
  · exact .nil
  refine keyword_traced fun inWord isIn => ?_
  refine .bind name_sound ?_
  rintro _ c ⟨list, listSpan, rfl, rfl⟩
  refine .bind (braces_sound faithful) fun body d inside => .pure ?_
  subst isFor isEach isIn
  exact .forEach forWord eachWord inWord span listSpan text list inside

theorem whileLoop_sound (faithful : Faithful self) :
    (whileLoop self).Sound a fun node b => Reads .atom a (.node node) b := by
  obtain _ | ⟨t, a⟩ := a
  · exact .nil
  refine keyword_traced fun word isWhile => ?_
  refine .bind (condition_sound faithful) fun test b guard => ?_
  refine .bind (braces_sound faithful) fun body c inside => .pure ?_
  subst isWhile
  exact .whileLoop word guard inside

theorem repetition_sound (faithful : Faithful self) :
    (repetition self).Sound a fun node b => Reads .atom a (.node node) b := by
  obtain _ | ⟨t, a⟩ := a
  · exact .nil
  refine keyword_traced fun word isRepeat => ?_
  subst isRepeat
  obtain _ | ⟨⟨lexeme, span⟩, a⟩ := a
  · exact .nil
  refine .lexeme ?_
  by_cases isUntil : lexeme.isKeyword .untilWord = true
  · obtain rfl := isKeyword_iff.mp isUntil
    refine .advance Lexeme.noConfusion ?_
    refine .bind (condition_sound faithful) fun test b guard => ?_
    exact .bind (braces_sound faithful) fun body c inside =>
      .pure (.untilLoop word span guard inside)
  · rw [if_neg isUntil]
    refine .current ?_
    cases lexeme with
    | int count =>
        refine .advance Lexeme.noConfusion ?_
        obtain _ | ⟨u, a⟩ := a
        · exact .nil
        refine keyword_traced fun timesWord isTimes => ?_
        subst isTimes
        exact .bind (braces_sound faithful) fun body b inside =>
          .pure (.repeatFixed word span timesWord count inside)
    | name text =>
        refine .advance Lexeme.noConfusion ?_
        obtain _ | ⟨u, a⟩ := a
        · exact .nil
        refine keyword_traced fun timesWord isTimes => ?_
        subst isTimes
        exact .bind (braces_sound faithful) fun body b inside =>
          .pure (.repeatBy word span timesWord text inside)
    | _ => exact .fail

theorem moreParameters_sound :
    (moreParameters fuel : Rule (List Name)).Sound a fun names b =>
      ∀ closing c, b = ⟨.rightParen, closing⟩ :: c → ReadsNames a names c := by
  induction fuel generalizing a with
  | zero => exact .abort
  | succ fuel ih =>
      obtain _ | ⟨t, a⟩ := a
      · exact .nil
      refine .lexeme ?_
      split
      · next isComma =>
          refine .advance (by rw [isComma]; exact Lexeme.noConfusion) (.bind name_sound ?_)
          rintro _ b ⟨text, span, rfl, rfl⟩
          refine .bind ih fun names c listed => .pure fun closing d divided => ?_
          obtain ⟨lexeme, comma⟩ := t
          obtain rfl : lexeme = .comma := isComma
          exact .next comma span text (listed closing d divided)
      · refine .pure fun closing c divided => ?_
        rw [divided]
        exact .last closing c

theorem parameters_sound :
    (parameters fuel : Rule (List Name)).Sound a fun names b => ReadsParameters a names b := by
  obtain _ | ⟨t, a⟩ := a
  · exact .nil
  refine .lexeme ?_
  split
  · refine .bind name_sound ?_
    rintro _ b ⟨text, span, divided, rfl⟩
    obtain ⟨rfl, rfl⟩ := List.cons.inj divided
    refine .bind moreParameters_sound fun names c listed => ?_
    obtain _ | ⟨u, c⟩ := c
    · exact .nil
    refine .expect .rightParen (by rintro ⟨⟩ ⟨⟩; rfl) Lexeme.noConfusion
      fun closing isClosing => .pure ?_
    subst isClosing
    exact .some span text (listed closing c rfl)
  · refine .expect .rightParen (by rintro ⟨⟩ ⟨⟩; rfl) Lexeme.noConfusion
      fun closing isClosing => .pure ?_
    subst isClosing
    exact .none closing a

theorem procedure_sound (faithful : Faithful self) :
    (procedure self fuel).Sound a fun node b => Reads .atom a (.node node) b := by
  obtain _ | ⟨t, a⟩ := a
  · exact .nil
  refine keyword_traced fun word isProcedure => ?_
  subst isProcedure
  obtain _ | ⟨u, a⟩ := a
  · exact .nil
  refine .lexeme ?_
  split
  · refine .bind name_sound ?_
    rintro _ b ⟨text, span, divided, rfl⟩
    obtain ⟨rfl, rfl⟩ := List.cons.inj divided
    obtain _ | ⟨v, a⟩ := a
    · exact .nil
    refine .expect .leftParen (by rintro ⟨⟩ ⟨⟩; rfl) Lexeme.noConfusion fun opening isOpening => ?_
    subst isOpening
    refine .bind parameters_sound fun names b listed => ?_
    exact .bind (braces_sound faithful) fun body c inside =>
      .pure (.procedure word span opening text listed inside)
  · refine .expect .leftParen (by rintro ⟨⟩ ⟨⟩; rfl) Lexeme.noConfusion fun opening isOpening => ?_
    subst isOpening
    refine .bind parameters_sound fun names b listed => ?_
    exact .bind (braces_sound faithful) fun body c inside =>
      .pure (.anonymous word opening listed inside)

/-! ## Expressions -/

theorem branch_sound (faithful : Faithful self) :
    (branch self fuel).Sound a fun node b => Reads .atom a (.node node) b :=
  .bind (.call (cases_sound faithful)) fun _ _ whole => .pure (.branch whole)

theorem atom_sound (faithful : Faithful self) :
    (atom self fuel).Sound a fun node b => Reads .atom a (.node node) b := by
  obtain _ | ⟨⟨lexeme, span⟩, a⟩ := a
  · exact .nil
  refine .current ?_
  cases lexeme with
  | int n => exact .advance Lexeme.noConfusion (.pure (.int n span a))
  | float x => exact .advance Lexeme.noConfusion (.pure (.float x span a))
  | string s => exact .advance Lexeme.noConfusion (.pure (.string s span a))
  | name text => exact .advance Lexeme.noConfusion (.pure (.name text span a))
  | leftParen =>
      refine .advance Lexeme.noConfusion ?_
      refine .bind (.call (faithful.expression a)) fun node b inside => ?_
      obtain _ | ⟨u, b⟩ := b
      · exact .nil
      refine .expect .rightParen (by rintro ⟨⟩ ⟨⟩; rfl) Lexeme.noConfusion
        fun closing isClosing => .pure ?_
      subst isClosing
      exact .parenthesised span closing inside
  | leftBracket => exact .call (listLiteral_sound faithful)
  | keyword word =>
      cases word with
      | trueWord => exact .takeTruth rfl (.pure (.trueWord span a))
      | falseWord => exact .takeTruth rfl (.pure (.falseWord span a))
      | ifWord => exact .call (branch_sound faithful)
      | forWord => exact .call (forEach_sound faithful)
      | whileWord => exact .call (whileLoop_sound faithful)
      | repeatWord => exact .call (repetition_sound faithful)
      | procedureWord => exact .call (procedure_sound faithful)
      | _ => exact .fail
  | eof =>
      intro w _ _
      refine ⟨rfl, Or.inr ?_⟩
      simp only [Tally.count]
      omega
  | _ => exact .fail

theorem firstArgument_sound (faithful : Faithful self) :
    (firstArgument self).Sound a fun node b => Reads .expression a (.node node) b :=
  .observe (faithful.expression a) (fun _ _ _ => rfl) fun _ _ _ => Or.inl ⟨_, rfl⟩

theorem application_sound (faithful : Faithful self) :
    (application self fuel).Sound a fun node b => Reads .application a (.node node) b := by
  refine .bind (.call (atom_sound faithful)) fun callee b called => ?_
  obtain _ | ⟨⟨lexeme, span⟩, b⟩ := b
  · exact .nil
  refine .lexeme ?_
  split
  · next isOpening =>
      obtain rfl : lexeme = .leftParen := isOpening
      refine .advance Lexeme.noConfusion ?_
      obtain _ | ⟨⟨lexeme, closing⟩, b⟩ := b
      · exact .nil
      refine .lexeme ?_
      split
      · next isClosing =>
          obtain rfl : lexeme = .rightParen := isClosing
          exact .advance Lexeme.noConfusion (.pure (.callEmpty span closing called))
      · refine .bind (firstArgument_sound faithful) fun first c head => ?_
        refine .bind (moreItems_sound faithful) fun others d tail => ?_
        obtain _ | ⟨u, d⟩ := d
        · exact .nil
        refine .expect .rightParen (by rintro ⟨⟩ ⟨⟩; rfl) Lexeme.noConfusion
          fun closing' isClosing => .pure ?_
        subst isClosing
        exact .call span closing' called (.items head tail)
  · next ends => exact .pure (.bare _ called ends)

theorem chainFrom_sound {level : Level} {right : Rule Node} {left : Node}
    (sound : ∀ a, right.Sound a fun node b => Reads level.operand a (.node node) b) :
    (chainFrom level.operator? right fuel left).Sound a fun node b =>
      ∃ operations, Reads (.operations level) a (.operations operations) b ∧
        node = applyAll left operations := by
  induction fuel generalizing a left with
  | zero => exact .abort
  | succ fuel ih =>
      obtain _ | ⟨sign, a⟩ := a
      · exact .nil
      refine .current ?_
      cases isOperator : level.operator? sign.lexeme with
      | none => exact .pure ⟨[], .noOperation sign a isOperator, rfl⟩
      | some op =>
          have other : sign.lexeme ≠ .eof := by
            intro isEnd
            rw [isEnd] at isOperator
            cases level <;> cases isOperator
          refine .advance other (.bind (.call (sound a)) fun operand b first => ?_)
          refine (ih (a := b)).mono ?_
          rintro node c ⟨operations, others, rfl⟩
          exact ⟨_, .operation sign isOperator first others, rfl⟩

theorem chain_sound (level : Level) {operand : Rule Node}
    (sound : ∀ a, operand.Sound a fun node b => Reads level.operand a (.node node) b) :
    (chain level.operator? operand operand fuel).Sound a fun node b =>
      Reads (.chain level) a (.node node) b := by
  refine .bind (.call (sound a)) fun left b first => ?_
  refine (chainFrom_sound sound).mono ?_
  rintro node c ⟨operations, others, rfl⟩
  exact .chain first others

theorem power_sound (faithful : Faithful self) :
    (power self fuel).Sound a fun node b => Reads .power a (.node node) b := by
  refine .bind (.call (application_sound faithful)) fun left b base => ?_
  obtain _ | fuel := fuel
  · exact .abort
  obtain _ | ⟨sign, b⟩ := b
  · exact .nil
  refine .current ?_
  cases isPower : powerOp? sign.lexeme with
  | none => exact .pure (.base sign base isPower)
  | some op =>
      have other : sign.lexeme ≠ .eof := fun isEnd => by rw [isEnd] at isPower; cases isPower
      refine .advance other (.bind (.call (faithful.factor b)) fun right c exponent => ?_)
      -- the exponent has taken all further powers, so the loop ends here
      obtain ⟨next, d, rfl, ends⟩ := exponent.ends_power (Or.inl rfl)
      obtain _ | fuel := fuel
      · exact .abort
      refine .current ?_
      rw [ends]
      exact .pure (.raised sign base isPower exponent)

theorem factor_sound (faithful : Faithful self) :
    (factor self fuel).Sound a fun node b => Reads .factor a (.node node) b := by
  obtain _ | ⟨sign, a⟩ := a
  · exact .nil
  refine .current ?_
  cases isSign : signOp? sign.lexeme with
  | none => exact (power_sound faithful).mono fun _ _ whole => .unsigned whole
  | some op =>
      have other : sign.lexeme ≠ .eof := fun isEnd => by rw [isEnd] at isSign; cases isSign
      exact .advance other (.bind (.call (faithful.factor a)) fun node b operand =>
        .pure (.sign sign isSign operand))

theorem comparison_sound (faithful : Faithful self) :
    (comparison self fuel).Sound a fun node b => Reads .comparison a (.node node) b := by
  obtain _ | ⟨⟨lexeme, span⟩, a⟩ := a
  · exact .nil
  refine .current ?_
  split
  · next isNot =>
      obtain rfl : lexeme = .keyword .notWord := isKeyword_iff.mp isNot
      exact .advance Lexeme.noConfusion (.bind (.call (faithful.comparison a)) fun node b operand =>
        .pure (.negation span operand))
  · have term_sound : ∀ a, (term self fuel).Sound a fun node b =>
        Reads (.chain .term) a (.node node) b :=
      fun _ => chain_sound .term fun _ => factor_sound faithful
    have sum_sound : ∀ a, (sum self fuel).Sound a fun node b =>
        Reads (.chain .sum) a (.node node) b :=
      fun _ => chain_sound .sum term_sound
    exact .callOr _ ((chain_sound .comparison sum_sound).mono
      fun _ _ whole => .comparing whole)

theorem expression_sound (faithful : Faithful self) :
    (expression self fuel).Sound a fun node b => Reads .expression a (.node node) b := by
  obtain _ | ⟨t, a⟩ := a
  · exact .nil
  intro w before
  rw [expression_eq before]
  revert w
  split
  · next isAssignment =>
      obtain ⟨text, span, sign, b, rfl, rfl⟩ := exists_of_assigns isAssignment
      intro w before
      refine Traced.bind name_sound ?_ w before
      rintro _ b ⟨_, _, divided, rfl⟩
      cases divided
      exact .advance Lexeme.noConfusion (.bind (.call (faithful.expression _)) fun value c right =>
        .pure (.assign text span sign right))
  · next plain =>
      intro w before
      exact Traced.callOr _ ((chain_sound .logical fun _ => comparison_sound faithful).mono
        fun _ _ whole => .logical (eq_false_of_ne_true plain) whole) w before

/-! ## Statements -/

theorem ending_of_startsStatement {l : Lexeme} (starts : startsStatement l = true) :
    ending l = none := by
  cases l with
  | newline => cases starts
  | rightBrace => cases starts
  | eof => cases starts
  | _ => rfl

theorem statement_return {word : Span} {w : Walk}
    (before : w.Before (⟨.keyword .returnWord, word⟩ :: a)) :
    statement self w =
      (do
        let value ← attempt (self .expression)
        if value.isNone then rewind
        return Node.returning value ⟨word.start, (← current).span.stop⟩)
      { w with index := w.index + 1, tally := w.tally.count } := by
  rw [statement, act_rule, bind_of_ok (seen_current w before)]
  rfl

/-- A walk that has gone back to the word `RETURN`, or to what cannot be its end, is astray. -/
theorem return_strays {word : Span} {next : Token} {w after : Walk}
    (before : w.Before (⟨.keyword .returnWord, word⟩ :: next :: a)) (marks : after.marks = w.marks)
    (counted : after.tally.taken = w.tally.taken + 1)
    (place : after.index = w.index ∨ after.index = w.index + 1 ∧ ending next.lexeme = none) :
    w.Strays after ∧ ending after.current.lexeme = none := by
  refine ⟨⟨marks, by omega⟩, ?_⟩
  rw [Walk.current, Walk.ending_tokenAt marks]
  rcases place with same | ⟨same, other⟩
  · rw [same, ← Walk.current, w.current_of_before before]
    rfl
  · rw [same, ← Walk.following, w.following_of_before before]
    exact other

/-- What an attempt to read an expression comes to before a token that starts none. -/
def StopsAtOnce (self : Rules) : Prop :=
  ∀ {t : Token} {a : List Token} {w : Walk}, w.Before (t :: a) →
    startsExpression t.lexeme = false →
    (∃ fault, attempt (self .expression) w = .fault fault) ∨
      attempt (self .expression) w =
        .ok none { w with tally := { w.tally with rewind := endSteps t.lexeme } }

theorem returned_traced {value : Option Node} {start : Position} {next : Token} {b : List Token}
    {w after : Walk} (follows : w.Follows after (next :: b))
    (read : Reads .statement a (.node (.returning value ⟨start, next.span.stop⟩)) (next :: b)) :
    Outcome.Traced w (fun node b => Reads .statement a (.node node) b) stray
      ((do return Node.returning value ⟨start, (← current).span.stop⟩ : Rule Node) after) := by
  have traced : (do return Node.returning value ⟨start, (← current).span.stop⟩ : Rule Node).Traced
      (next :: b) (fun node b => Reads .statement a (.node node) b) stray := .current (.pure read)
  exact Traced.follow follows (traced after follows.before follows.ended)

theorem return_traced (faithful : Faithful self) (stops : StopsAtOnce self) {word : Span} :
    (statement self).Traced (⟨.keyword .returnWord, word⟩ :: a)
      (fun node b => Reads .statement (⟨.keyword .returnWord, word⟩ :: a) (.node node) b)
      (ending · = none) := by
  intro w before ended
  rw [statement_return before]
  have ended' : Ended a := ended.tail Lexeme.noConfusion
  have before' := Walk.before_next before w.tally.count
  obtain _ | ⟨next, a⟩ := a
  · exact ended'.elim
  cases starts : startsExpression next.lexeme with
  | false =>
      rcases stops before' starts with ⟨fault, run⟩ | run
      · simp only [Bind.bind, run]
        trivial
      rw [bind_of_ok run]
      by_cases isEnd : next.lexeme = .eof
      · -- the end of the program counts as a step, so the walk goes back to `RETURN`
        rw [isEnd]
        exact Or.inr (return_strays before rfl rfl (Or.inl (by simp only [endSteps]; omega)))
      · rw [endSteps_of_ne isEnd]
        have read := Reads.returnNothing word next a starts isEnd
        have stays : Walk.Before
            { w with
              index := w.index + 1 - (0 : Nat)
              tally := { w.tally.count with rewind := 0 } } (next :: a) := by
          simpa [Walk.Before] using before'
        refine returned_traced ⟨stays, ended', rfl, ?_⟩ read
        simp only [Tally.count]
        omega
  | true =>
      rcases attempt_cases (faithful.expression (next :: a)) before' ended' with
        ⟨fault, run⟩ | ⟨value, after, run, traced⟩ | ⟨after, run, marks, counted, place⟩
      · simp only [Bind.bind, run]
        trivial
      · rw [bind_of_ok run]
        obtain ⟨b, result, follows⟩ := traced.resolve_right And.right
        obtain _ | ⟨next', b⟩ := b
        · exact follows.ended.elim
        have step : w.Follows { w with index := w.index + 1, tally := w.tally.count } (next :: a) :=
          ⟨before', ended', rfl, by simp only [Tally.count]; omega⟩
        have read := Reads.returnValue word next' result
        exact returned_traced (step.trans follows) read
      · rw [bind_of_ok run]
        have other : ending next.lexeme = none :=
          ending_of_startsStatement (startsStatement_of_startsExpression starts)
        refine Or.inr (return_strays before marks counted ?_)
        rcases place with same | back
        · exact Or.inr ⟨same, other⟩
        · exact Or.inl (by simp only at back ⊢; omega)

theorem statement_traced (faithful : Faithful self) (stops : StopsAtOnce self) :
    (statement self).Traced a (fun node b => Reads .statement a (.node node) b)
      (ending · = none) := by
  obtain _ | ⟨⟨lexeme, span⟩, a⟩ := a
  · exact .nil
  by_cases isReturn : lexeme.isKeyword .returnWord = true
  · obtain rfl := isKeyword_iff.mp isReturn
    exact return_traced faithful stops
  refine .current ?_
  simp only [Token.isKeyword, isReturn]
  by_cases isContinue : lexeme.isKeyword .continueWord = true
  · obtain rfl := isKeyword_iff.mp isContinue
    refine .advance Lexeme.noConfusion ?_
    obtain _ | ⟨next, a⟩ := a
    · exact .nil
    exact .current (.pure (.continuing span next a))
  by_cases isBreak : lexeme.isKeyword .breakWord = true
  · obtain rfl := isKeyword_iff.mp isBreak
    refine .advance Lexeme.noConfusion ?_
    obtain _ | ⟨next, a⟩ := a
    · exact .nil
    exact .current (.pure (.breaking span next a))
  simp only [isContinue, isBreak]
  exact Sound.weaken (.callOr _ ((faithful.expression _).mono fun _ _ whole => .evaluated whole))

theorem ending_eq_newline {l : Lexeme} : ending l = some .newline ↔ l = .newline := by
  cases l <;> simp [ending]

theorem ending_eq_rightBrace {l : Lexeme} : ending l = some .rightBrace ↔ l = .rightBrace := by
  cases l <;> simp [ending]

theorem ending_eq_eof {l : Lexeme} : ending l = some .eof ↔ l = .eof := by
  cases l <;> simp [ending]

/-- Before what follows line ends, an attempt that is taken back ends where it was made, once line
ends are stepped over again. -/
theorem skipNewlines_takenBack {w v : Walk} {u : Token} {b : List Token}
    (before : w.Before (u :: b))
    (line : (w.tokenAt (w.index - 1)).lexeme = .newline) (other : u.lexeme ≠ .newline)
    (marks : v.marks = w.marks) (counted : v.tally.taken = w.tally.taken)
    (place : v.index = w.index ∨ v.index = w.index - 1) :
    ∃ after, (skipNewlines : Rule Unit) v = .ok () after ∧ w.Strays after ∧
      ending after.current.lexeme = ending u.lexeme := by
  have here : ∀ after : Walk, after.marks = w.marks →
      ending (after.tokenAt w.index).lexeme = ending u.lexeme := by
    intro after same
    rw [Walk.ending_tokenAt same, ← Walk.current, w.current_of_before before]
  have stands : (v.tokenAt w.index).lexeme ≠ .newline := by
    intro same
    have found := here v marks
    rw [same] at found
    exact other (ending_eq_newline.mp found.symm)
  rcases place with same | back
  · rw [← same] at stands here
    exact ⟨v, skipNewlines_stays stands, ⟨marks, by omega⟩, here v marks⟩
  · have current_line : v.current.lexeme = .newline := by
      refine ending_eq_newline.mp ?_
      rw [Walk.current, Walk.ending_tokenAt marks, back, line]
      rfl
    have next : v.index + 1 = w.index := by omega
    rw [← next] at stands here
    refine ⟨_, skipNewlines_step current_line stands, ⟨marks, ?_⟩, here _ marks⟩
    simp only [Tally.count]
    omega

/-- The token before what follows line ends is a line end. -/
theorem newline_before {w middle : Walk} {t u : Token} {b : List Token}
    (isLine : t.lexeme = .newline) (before : w.Before (t :: a)) (lines : pastNewlines a = u :: b)
    (stop : middle.Before (u :: b)) (tokens : middle.tokens = w.tokens) :
    (middle.tokenAt (middle.index - 1)).lexeme = .newline := by
  obtain ⟨front, line, divided, isLine'⟩ := exists_line_before isLine lines
  have back := Walk.before_back (divided ▸ before) stop tokens middle.tally
  have seen := Walk.current_of_before back
  rw [← isNewline_iff.mp isLine', ← seen]
  rfl

theorem moreStatements_stays (self : Rules) (fuel : Nat) {w : Walk}
    (stands : ending w.current.lexeme = none) :
    (∃ fault, moreStatements self fuel w = .fault fault) ∨
      moreStatements self fuel w = .ok [] w := by
  cases fuel with
  | zero => exact Or.inl ⟨_, rfl⟩
  | succ fuel =>
      refine Or.inr ?_
      rw [moreStatements, act_rule, bind_of_ok (rfl : lexeme w = .ok w.current.lexeme w)]
      cases same : w.current.lexeme with
      | newline =>
          rw [same] at stands
          cases stands
      | _ => rfl

/-- The rest of a block behind line ends. -/
def behindLines (self : Rules) (fuel : Nat) : Rule (List Node) := do
  match ← attempt (statement self) with
  | some node => return node :: (← moreStatements self fuel)
  | none =>
      rewind
      skipNewlines
      return []

theorem moreStatements_newline {w middle : Walk} (line : w.current.lexeme = .newline)
    (skip : (skipNewlines : Rule Unit) w = .ok () middle) :
    moreStatements self (fuel + 1) w = behindLines self fuel middle := by
  rw [moreStatements, act_rule, bind_of_ok (rfl : lexeme w = .ok w.current.lexeme w), line]
  exact bind_of_ok skip

theorem behindLines_none {w after last : Walk} (run : attempt (statement self) w = .ok none after)
    (skip : (skipNewlines : Rule Unit)
      { after with index := after.index - after.tally.rewind } = .ok () last) :
    behindLines self fuel w = .ok [] last := by
  rw [behindLines, bind_of_ok run]
  exact bind_of_ok skip

theorem behindLines_some {w after : Walk} {node : Node}
    (run : attempt (statement self) w = .ok (some node) after) :
    behindLines self fuel w =
      (do return node :: (← moreStatements self fuel) : Rule (List Node)) after := by
  rw [behindLines, bind_of_ok run]

theorem behindLines_fault {w : Walk} {fault : Fault}
    (run : attempt (statement self) w = .fault fault) : behindLines self fuel w = .fault fault := by
  simp only [behindLines, Bind.bind, run]

/-- A closing brace is no statement. -/
def ClosesAtOnce (self : Rules) : Prop :=
  ∀ (span : Span) (a : List Token), (statement self).Fails (⟨.rightBrace, span⟩ :: a) 0

theorem behindLines_closing (fuel : Nat) (closes : ClosesAtOnce self) {span : Span} {w : Walk}
    (before : w.Before (⟨.rightBrace, span⟩ :: a)) (ended : Ended (⟨.rightBrace, span⟩ :: a)) :
    ∃ after, behindLines self fuel w = .ok [] after ∧
      w.Follows after (⟨.rightBrace, span⟩ :: a) := by
  have stays : Walk.Before
      { w with index := w.index - (0 : Nat), tally := { w.tally with rewind := 0 } }
      (⟨.rightBrace, span⟩ :: a) := by
    simpa [Walk.Before] using before
  have attempted := (closes span a).attempt before
  refine ⟨_, behindLines_none attempted (skipNewlines_stays ?_), stays, ended, rfl, by simp⟩
  rw [Walk.current_of_before stays]
  exact Lexeme.noConfusion

/-- Behind line ends comes a statement with what follows it, or a closing brace, or the walk goes
astray. -/
theorem behindLines_traced (faithful : Faithful self) (stops : StopsAtOnce self)
    {w : Walk} {u : Token} {others : List Node → List Token → List Token → Prop}
    (tail : ∀ c, (moreStatements self fuel).Traced c (fun nodes b => others nodes c b)
      (· ≠ .rightBrace))
    (before : w.Before (u :: a)) (ended : Ended (u :: a)) (other : u.lexeme ≠ .newline)
    (noBrace : u.lexeme ≠ .rightBrace) (line : (w.tokenAt (w.index - 1)).lexeme = .newline) :
    (behindLines self fuel w).Traced w
      (fun nodes b => ∃ node rest c, nodes = node :: rest ∧
        Reads .statement (u :: a) (.node node) c ∧ others rest c b) (· ≠ .rightBrace) := by
  rcases attempt_cases (statement_traced faithful stops) before ended with
    ⟨fault, run⟩ | ⟨node, after, run, traced⟩ | ⟨after, run, marks, counted, place⟩
  · rw [behindLines_fault run]
    trivial
  · rw [behindLines_some run]
    rcases traced with ⟨c, head, follows⟩ | ⟨strays, stands⟩
    · have rest : (do return node :: (← moreStatements self fuel) : Rule (List Node)).Traced c
          (fun nodes b => ∃ node rest c, nodes = node :: rest ∧
            Reads .statement (u :: a) (.node node) c ∧ others rest c b) (· ≠ .rightBrace) :=
        .bindStray (tail c) (fun rest b read => .pure ⟨node, rest, c, rfl, head, read⟩)
          fun _ _ stands => ⟨rfl, stands⟩
      exact Traced.follow follows (rest after follows.before follows.ended)
    · rcases moreStatements_stays self fuel stands with ⟨fault, run'⟩ | run'
      · simp only [Bind.bind, run']
        trivial
      · rw [bind_of_ok run']
        refine Or.inr ⟨strays, fun same => ?_⟩
        rw [same] at stands
        cases stands
  · obtain ⟨last, skip, strays, stands⟩ := skipNewlines_takenBack before line other
      (v := { after with index := after.index - after.tally.rewind }) marks counted place
    rw [behindLines_none run skip]
    refine Or.inr ⟨strays, fun same => noBrace ?_⟩
    rw [same] at stands
    exact ending_eq_rightBrace.mp stands.symm

theorem moreStatements_traced (faithful : Faithful self) (stops : StopsAtOnce self)
    (closes : ClosesAtOnce self) :
    (moreStatements self fuel).Traced a (fun nodes b => Reads .moreStatements a (.nodes nodes) b)
      (· ≠ .rightBrace) := by
  induction fuel generalizing a with
  | zero => exact .abort
  | succ fuel ih =>
      obtain _ | ⟨t, a⟩ := a
      · exact .nil
      by_cases isLine : t.lexeme = .newline
      · intro w before ended
        obtain ⟨u, b, lines, ended', other⟩ :=
          (ended.tail (by rw [isLine]; exact Lexeme.noConfusion)).exists_pastNewlines
        have skipped : pastNewlines (t :: a) = u :: b := by
          simpa [pastNewlines, isNewline_iff.mpr isLine] using lines
        obtain ⟨middle, skip, stop, tokens, offset⟩ := skipNewlines_run before skipped
        have follows : w.Follows middle (u :: b) :=
          ⟨stop, ended', by rw [Walk.marks, tokens, Walk.marks], offset⟩
        rw [moreStatements_newline (by rw [w.current_of_before before, isLine]) skip]
        by_cases isBrace : u.lexeme = .rightBrace
        · obtain ⟨lexeme, span⟩ := u
          obtain rfl : lexeme = .rightBrace := isBrace
          obtain ⟨after, run, follows'⟩ := behindLines_closing fuel closes stop ended'
          rw [run]
          exact Or.inl ⟨_, .trailing t _ isLine lines rfl Lexeme.noConfusion,
            follows.trans follows'⟩
        · have traced := behindLines_traced faithful stops (fun c => ih (a := c)) stop ended'
            other isBrace (newline_before isLine before lines stop tokens)
          refine Traced.follow follows (traced.mono ?_)
          rintro _ c ⟨node, rest, d, rfl, head, tail⟩
          exact .nextStatement t isLine lines head tail
      · refine .lexeme ?_
        split
        · contradiction
        · exact .pure (.lastStatement t a isLine)

theorem block_traced (faithful : Faithful self) (stops : StopsAtOnce self)
    (closes : 0 < fuel → ClosesAtOnce self) :
    (block self fuel).Traced a (fun node b => Reads .block a (.node node) b) (· ≠ .rightBrace) := by
  obtain _ | ⟨first, a⟩ := a
  · exact .nil
  refine .current (.skipNewlines fun t b lines _ => ?_)
  refine .bindStray (.call (statement_traced faithful stops)) (fun node c head => ?_)
    fun node w stands => ?_
  · obtain _ | fuel := fuel
    · have stuck : ∀ a, (moreStatements self 0).Sound a fun _ _ => False := fun _ => .abort
      exact .bind (stuck c) fun _ _ absurd => absurd.elim
    refine .bindStray (moreStatements_traced faithful stops (closes (Nat.succ_pos fuel)))
      (fun others d tail => ?_) fun _ _ stands => ⟨rfl, stands⟩
    obtain _ | ⟨next, d⟩ := d
    · exact .nil
    exact .current (.pure (.block first next lines head tail))
  · rcases moreStatements_stays self fuel stands with ⟨fault, run⟩ | run
    · simp only [Bind.bind, run]
      trivial
    · rw [bind_of_ok run]
      refine ⟨rfl, fun same => ?_⟩
      rw [same] at stands
      cases stands

end

/-! ## All rules together -/

theorem rule_stops (fuel : Nat) : StopsAtOnce (rule fuel) := by
  intro t a w before noStart
  cases fuel with
  | zero => exact Or.inl ⟨.exhausted, rfl⟩
  | succ fuel => exact Or.inr ((rule_expression_fails _ (Nat.succ_pos fuel) noStart).attempt before)

theorem rule_closes {fuel : Nat} (enough : 0 < fuel) : ClosesAtOnce (rule fuel) :=
  fun _ _ => statement_fails (rule_expression_fails _ enough rfl) rfl

/-- The rules of the grammar only read what can be read. -/
theorem rule_faithful (fuel : Nat) : Faithful (rule fuel) := by
  induction fuel with
  | zero => exact ⟨fun _ => .abort, fun _ => .abort, fun _ => .abort, fun _ => .abort⟩
  | succ fuel ih =>
      exact
        { expression := fun _ => expression_sound ih
          comparison := fun _ => comparison_sound ih
          factor := fun _ => factor_sound ih
          block := fun _ => block_traced ih (rule_stops fuel) rule_closes }

/-! ## Programs -/

theorem giveUp_ne_ok {d : Diagnostic} {w after : Walk} {nodes : List Node} :
    (giveUp d : Rule (List Node)) w ≠ .ok nodes after := by
  intro run
  obtain ⟨_, middle, -, run⟩ := bind_eq_ok run
  obtain ⟨l, middle', -, run⟩ := bind_eq_ok run
  split at run
  · obtain ⟨_, _, -, run⟩ := bind_eq_ok run
    obtain ⟨_, _, -, run⟩ := bind_eq_ok run
    cases run
  · cases run

section

variable {self : Rules} {fuel : Nat} {a : List Token} {w after : Walk} {tally : Tally}
  {nodes : List Node}

/-- Behind a token that ends no statement there are no further statements. -/
theorem moreProgram_stays (stands : w.current.lexeme ≠ .newline)
    (run : moreProgram self fuel w = .ok nodes after) : nodes = [] ∧ after = w := by
  cases fuel with
  | zero => cases run
  | succ fuel =>
      rw [moreProgram, act_rule, bind_of_ok (rfl : lexeme w = .ok w.current.lexeme w)] at run
      cases same : w.current.lexeme with
      | newline => contradiction
      | _ =>
          rw [same] at run
          cases run
          exact ⟨rfl, rfl⟩

/-- A walk that has gone astray behind a statement does not get to the end of the program. -/
theorem moreProgram_astray (stands : ending w.current.lexeme = none)
    (run : moreProgram self fuel { w with tally := tally } = .ok nodes after) :
    after.current.lexeme ≠ .eof := by
  have noLine : w.current.lexeme ≠ .newline := fun same => by rw [same] at stands; cases stands
  obtain ⟨-, rfl⟩ := moreProgram_stays (w := { w with tally := tally }) noLine run
  intro (finished : w.current.lexeme = .eof)
  rw [finished] at stands
  cases stands

/-- The rest of a program behind line ends. -/
def programBehindLines (self : Rules) (fuel : Nat) : Rule (List Node) := do
  let (result, tally) ← observe (statement self)
  match result with
  | .ok node =>
      register tally
      return node :: (← moreProgram self fuel)
  | .error diagnostic =>
      if isEndOfFile diagnostic then
        noteRewind tally.taken
        rewind
        skipNewlines
        return []
      else
        register tally
        giveUp diagnostic

theorem moreProgram_newline {middle : Walk} (line : w.current.lexeme = .newline)
    (skip : (skipNewlines : Rule Unit) w = .ok () middle) :
    moreProgram self (fuel + 1) w = programBehindLines self fuel middle := by
  rw [moreProgram, act_rule, bind_of_ok (rfl : lexeme w = .ok w.current.lexeme w), line]
  exact bind_of_ok skip

/-- Behind line ends, and before the end of the program, a program goes on with a statement, or the
walk never gets to the end. -/
theorem programBehindLines_reads (faithful : Faithful self) (stops : StopsAtOnce self) {u : Token}
    (before : w.Before (u :: a)) (ended : Ended (u :: a)) (other : u.lexeme ≠ .newline)
    (noEnd : u.lexeme ≠ .eof) (line : (w.tokenAt (w.index - 1)).lexeme = .newline)
    (run : programBehindLines self fuel w = .ok nodes after)
    (finished : after.current.lexeme = .eof) :
    ∃ node others c second, nodes = node :: others ∧ Reads .statement (u :: a) (.node node) c ∧
      second.Before c ∧ Ended c ∧ moreProgram self fuel second = .ok others after := by
  have traced := statement_traced faithful stops { w with tally := {} } before ended
  obtain ⟨⟨result, tally⟩, second, observed, run⟩ := bind_eq_ok run
  simp only [observe] at observed
  cases first : statement self { w with tally := {} } with
  | ok node third =>
      rw [first] at traced observed
      cases observed
      obtain ⟨_, fourth, registered, run⟩ := bind_eq_ok run
      cases registered
      obtain ⟨others, last, further, run⟩ := bind_eq_ok run
      cases run
      rcases traced with ⟨c, head, follows⟩ | ⟨-, stands⟩
      · have stop : { third with tally := w.tally.register third.tally }.Before c := follows.before
        exact ⟨node, others, c, _, rfl, head, stop, follows.ended, further⟩
      · exact absurd finished (moreProgram_astray stands further)
  | error d third =>
      rw [first] at traced observed
      cases observed
      by_cases reported : isEndOfFile d = true
      · have run := (congrFun (if_pos reported) _).symm.trans run
        obtain ⟨last, skip, -, stands⟩ := skipNewlines_takenBack before line other
          (v := { third with
            index := third.index - third.tally.taken
            tally := { w.tally with rewind := third.tally.taken } }) traced.marks rfl
          (by simpa using traced.offset)
        have run := (bind_of_ok skip).symm.trans run
        cases run
        rw [finished] at stands
        exact absurd (ending_eq_eof.mp stands.symm) noEnd
      · obtain ⟨_, _, -, run⟩ := bind_eq_ok ((congrFun (if_neg reported) _).symm.trans run)
        exact absurd run giveUp_ne_ok
  | fault fault =>
      rw [first] at observed
      cases observed

/-- The further statements of a program are read up to its end, if the walk gets there. -/
theorem moreProgram_reads (faithful : Faithful self) (stops : StopsAtOnce self)
    (endless : ∀ eof : Token, eof.lexeme = .eof → (statement self).Fails [eof] 1)
    (before : w.Before a) (ended : Ended a) (run : moreProgram self fuel w = .ok nodes after)
    (finished : after.current.lexeme = .eof) : ReadsFurther a nodes after.current := by
  induction fuel generalizing a w nodes with
  | zero => cases run
  | succ fuel ih =>
      obtain _ | ⟨t, a⟩ := a
      · exact ended.elim
      have seen := w.current_of_before before
      by_cases isLine : t.lexeme = .newline
      · obtain ⟨u, b, lines, ended', other⟩ :=
          (ended.tail (by rw [isLine]; exact Lexeme.noConfusion)).exists_pastNewlines
        by_cases isEnd : u.lexeme = .eof
        · obtain rfl := ended'.eq_nil isEnd
          obtain ⟨last, run', stop, -⟩ :=
            moreProgram_reaches_trailing fuel isLine lines (endless u isEnd) w before
          rw [run'] at run
          cases run
          rw [Walk.current_of_before stop]
          exact .trailing t u isLine lines isEnd
        · have skipped : pastNewlines (t :: a) = u :: b := by
            simpa [pastNewlines, isNewline_iff.mpr isLine] using lines
          obtain ⟨middle, skip, stop, tokens, -⟩ := skipNewlines_run before skipped
          rw [moreProgram_newline (by rw [seen, isLine]) skip] at run
          obtain ⟨node, others, c, second, rfl, head, before', ended'', further⟩ :=
            programBehindLines_reads faithful stops stop ended' other isEnd
              (newline_before isLine before lines stop tokens) run finished
          exact .next t isLine lines head (ih before' ended'' further)
      · obtain ⟨rfl, rfl⟩ := moreProgram_stays (by rwa [seen]) run
        rw [seen] at finished ⊢
        obtain rfl := ended.eq_nil finished
        exact .last t finished

theorem firstStatement_ok {node : Node} (run : firstStatement self w = .ok node after) :
    ∃ third, statement self { w with tally := {} } = .ok node third ∧
      after = { third with tally := w.tally.register third.tally } := by
  obtain ⟨⟨result, tally⟩, second, observed, run⟩ := bind_eq_ok run
  rw [observe_rule, observe] at observed
  cases first : statement self { w with tally := {} } with
  | ok node' third =>
      rw [first] at observed
      cases observed
      cases run
      exact ⟨third, rfl, rfl⟩
  | error d third =>
      rw [first] at observed
      cases observed
      obtain ⟨_, middle, -, run⟩ := bind_eq_ok run
      simp only at run
      split at run
      · obtain ⟨_, _, -, run⟩ := bind_eq_ok run
        cases run
      · cases run
  | fault fault =>
      rw [first] at observed
      cases observed

/-- The statements of a program are read up to its end, if the walk gets there. -/
theorem statements_reads (faithful : Faithful self) (stops : StopsAtOnce self)
    (endless : ∀ eof : Token, eof.lexeme = .eof → (statement self).Fails [eof] 1) {node : Node}
    (before : w.Before a) (ended : Ended a) (run : statements self fuel w = .ok node after)
    (finished : after.current.lexeme = .eof) : ReadsProgram a node := by
  obtain _ | ⟨first, a⟩ := a
  · exact ended.elim
  obtain ⟨t, b, lines, ended', -⟩ := ended.exists_pastNewlines
  obtain ⟨middle, skip, stop, -⟩ := skipNewlines_run before lines
  rw [statements, act_rule, bind_of_ok (seen_current w before)] at run
  have run := (bind_of_ok skip).symm.trans run
  rw [act_rule, bind_of_ok (rfl : lexeme middle = .ok middle.current.lexeme middle),
    Walk.current_of_before stop] at run
  by_cases isEnd : t.lexeme = .eof
  · obtain rfl := ended'.eq_nil isEnd
    rw [isEnd] at run
    have run := (bind_of_ok (seen_current middle stop)).symm.trans run
    cases run
    exact .empty first t lines isEnd
  · have run : (do
        let node ← firstStatement self
        let others ← moreProgram self fuel
        return Node.list (node :: others) ⟨first.span.start, (← current).span.stop⟩) middle =
          .ok node after := by
      cases same : t.lexeme with
      | eof => contradiction
      | _ => rwa [same] at run
    obtain ⟨node', second, started, run⟩ := bind_eq_ok run
    obtain ⟨others, last, further, run⟩ := bind_eq_ok run
    cases run
    obtain ⟨third, started', rfl⟩ := firstStatement_ok started
    have traced := statement_traced faithful stops { middle with tally := {} } stop ended'
    rw [started'] at traced
    rcases traced with ⟨c, head, follows⟩ | ⟨-, stands⟩
    · have before' : { third with tally := middle.tally.register third.tally }.Before c :=
        follows.before
      exact .statements first lines head
        (moreProgram_reads faithful stops endless before' follows.ended further finished)
    · exact absurd finished (moreProgram_astray stands further)

/-- What is parsed can be read. -/
theorem readsProgram_of_parseProgram {tokens : List Token} {node : Node} (ended : Ended tokens)
    (parsed : parseProgram tokens = .ok node) : ReadsProgram tokens node := by
  have enough : 0 < bound tokens.length := by unfold bound; omega
  simp only [parseProgram, List.size_toArray] at parsed
  split at parsed
  · next node' after run =>
      cases parsed
      obtain ⟨node', middle, whole, run⟩ := bind_eq_ok run
      obtain ⟨l, last, seen, run⟩ := bind_eq_ok run
      cases seen
      cases finished : middle.current.lexeme with
      | eof =>
          rw [finished] at run
          cases run
          exact statements_reads (rule_faithful _) (rule_stops _)
            (fun _ isEnd => statement_fails_at_end isEnd enough) ⟨Int.le_refl 0, rfl⟩ ended whole
            finished
      | _ =>
          rw [finished] at run
          cases run
  · cases parsed
  · cases parsed

/-- The parser accepts exactly the programs that can be read, with the tree that is read. -/
theorem parseProgram_eq_ok_iff {tokens : List Token} {node : Node} (ended : Ended tokens) :
    parseProgram tokens = .ok node ↔ ReadsProgram tokens node :=
  ⟨readsProgram_of_parseProgram ended, ReadsProgram.parses⟩

theorem ended_append {body : List Token} {eof : Token} (isEnd : eof.lexeme = .eof)
    (noEnd : ∀ t ∈ body, t.lexeme ≠ .eof) : Ended (body ++ [eof]) := by
  induction body with
  | nil => exact Or.inl ⟨isEnd, rfl⟩
  | cons t body ih =>
      exact Or.inr ⟨noEnd t (by simp), ih fun u member => noEnd u (by simp [member])⟩

/-- The tree of a program that the parser accepts is derived from all its tokens up to the end. -/
theorem derivesProgram_of_parseProgram {body : List Token} {eof : Token} {node : Node}
    (isEnd : eof.lexeme = .eof) (noEnd : ∀ t ∈ body, t.lexeme ≠ .eof)
    (parsed : parseProgram (body ++ [eof]) = .ok node) : DerivesProgram body node := by
  obtain ⟨ts, last, divided, derived⟩ :=
    (readsProgram_of_parseProgram (ended_append isEnd noEnd) parsed).derives
  rwa [(List.append_inj' divided rfl).1]

theorem exists_of_isOk {ε α : Type} (result : Except ε α) (accepted : result.isOk = true) :
    ∃ x, result = .ok x := by
  cases result with
  | ok x => exact ⟨x, rfl⟩
  | error e => cases accepted

/-- A loop whose body is a `RETURN` without a value, and an assignment of a chain of powers. -/
theorem derivesProgram_of_parseProgram_while :
    ∃ node,
      parseProgram (unplaced [.keyword .whileWord, .leftParen, .keyword .trueWord, .rightParen,
        .newline, .leftBrace, .keyword .returnWord, .newline, .rightBrace, .newline, .newline,
        .name "x", .assign, .int 2, .power true, .minus, .int 3, .power false, .int 2, .newline] ++
          [⟨.eof, default⟩]) = .ok node ∧
      DerivesProgram (unplaced [.keyword .whileWord, .leftParen, .keyword .trueWord, .rightParen,
        .newline, .leftBrace, .keyword .returnWord, .newline, .rightBrace, .newline, .newline,
        .name "x", .assign, .int 2, .power true, .minus, .int 3, .power false, .int 2, .newline])
          node := by
  refine (exists_of_isOk (parseProgram _) ?_).imp fun node parsed =>
    ⟨parsed, derivesProgram_of_parseProgram rfl (by simp [unplaced]) parsed⟩
  decide +kernel

end

end Grammar
end Pseudocode
