import Pseudocode.Proofs.Parsing.Breaking

/-!
# The rules break off nowhere else

Rule by rule: if a rule of the grammar ends in a fault, the parse breaks off at an argument.  The
bounds on the nesting and on the loops are large enough wherever a rule is called, so they are never
the reason.
-/

namespace Pseudocode
namespace Grammar

open Rule

/-- At a level of the nesting that is high enough for the tokens ahead, the rules that call
themselves end in a fault only if the parse breaks off at an argument. -/
structure Settles (fuel : Nat) : Prop where
  expression {a : List Token} (enough : 2 * a.length < fuel) :
    (rule fuel .expression).Blames a (Breaks .expression a)
  comparison {a : List Token} (enough : 2 * a.length < fuel) :
    (rule fuel .comparison).Blames a (Breaks .comparison a)
  factor {a : List Token} (enough : 2 * a.length < fuel) :
    (rule fuel .factor).Blames a (Breaks .factor a)
  block {a : List Token} (enough : 2 * a.length + 1 < fuel) :
    (rule fuel .block).Blames a (Breaks .block a)

theorem harmless_name (what : Expectation) : (name what : Rule Name).Harmless := by
  refine harmless_current.bind fun t => ?_
  split
  · exact Harmless.bind (fun _ _ => trivial) fun _ => harmless_pure _
  · exact fun _ _ => trivial

/-- An expression that can be read is read at any level that is high enough. -/
theorem Reads.rule_reaches {fuel : Nat} {a b : List Token} {node : Node}
    (reading : Reads .expression a (.node node) b) (enough : 2 * a.length < fuel) :
    (rule fuel .expression).Reaches a node b := by
  obtain ⟨fuel, rfl⟩ : ∃ below, fuel = below + 1 := ⟨fuel - 1, by omega⟩
  have accepted : Accepts fuel .expression a (.node node) b :=
    reading.accepts (by simp only [Symbol.slack]; omega)
  exact accepted

section

variable {fuel : Nat} {t : Token} {a : List Token}

/-! ## Lists of expressions and blocks -/

theorem moreItems_blames (settles : Settles fuel) (limit : Nat) (enough : 2 * a.length ≤ fuel)
    (long : a.length ≤ limit) : (moreItems (rule fuel) limit).Blames a (Breaks .moreItems a) := by
  induction limit generalizing a with
  | zero =>
      obtain rfl := List.eq_nil_of_length_eq_zero (Nat.le_zero.mp long)
      exact .nil
  | succ limit ih =>
      obtain _ | ⟨⟨lexeme, comma⟩, a⟩ := a
      · exact .nil
      simp only [List.length_cons] at enough long
      refine .lexeme ?_
      split
      · next isComma =>
          obtain rfl : lexeme = .comma := isComma
          refine .advance Lexeme.noConfusion ?_
          have item := settles.expression (a := a) (by omega)
          refine .bind (.call ((rule_faithful fuel).expression a)) (item.call.mono ?_)
            fun first b head => ?_
          · exact fun breaks => .inside (.nextItem comma a) (.inside (.item a) breaks)
          · have shorter := head.length_le
            have others := ih (a := b) (by omega) (by omega)
            refine .andThen (others.mono fun breaks => ?_) fun _ => harmless_pure _
            exact .inside (.nextItem comma a) (.inside (.moreItems head) breaks)
      · exact .pure []

theorem condition_blames (settles : Settles fuel) (enough : 2 * a.length ≤ fuel) :
    (condition (rule fuel)).Blames a (Breaks .condition a) := by
  obtain _ | ⟨t, a⟩ := a
  · exact .nil
  simp only [List.length_cons] at enough
  refine .expect .leftParen (by rintro ⟨⟩ ⟨⟩; rfl) Lexeme.noConfusion fun opening isOpening => ?_
  subst isOpening
  have inside := settles.expression (a := a) (by omega)
  refine .andThen (inside.call.mono (.inside (.condition opening a))) fun _ => ?_
  exact (harmless_expect _ _).bind fun _ => harmless_pure _

theorem listLiteral_blames (settles : Settles fuel) (enough : 2 * (t :: a).length ≤ fuel)
    {opening : Span} (isOpening : t = ⟨.leftBracket, opening⟩) :
    (listLiteral (rule fuel) fuel).Blames (t :: a) (Breaks .atom (t :: a)) := by
  subst isOpening
  simp only [List.length_cons] at enough
  refine .current (.expect .leftBracket (by rintro ⟨⟩ ⟨⟩; rfl) Lexeme.noConfusion fun _ _ => ?_)
  obtain _ | ⟨u, a⟩ := a
  · exact .nil
  simp only [List.length_cons] at enough
  have read : ∀ node, (do return Node.list node ⟨opening.start, (← current).span.stop⟩ : Rule
      Node).Harmless :=
    fun _ => harmless_current.bind fun _ => harmless_pure _
  refine .lexeme ?_
  split
  · exact .andThen (fun _ _ _ => trivial) fun _ => read []
  · next isOther =>
      have first := settles.expression (a := u :: a) (by simp only [List.length_cons]; omega)
      refine .bind (.callOr _ ((rule_faithful fuel).expression (u :: a)))
        ((first.callOr _).mono ?_) fun node b head => ?_
      · exact fun breaks => .inside (.list opening a isOther) (.inside (.item _) breaks)
      · have shorter := head.length_le
        simp only [List.length_cons] at shorter
        have others := moreItems_blames (a := b) settles fuel (by omega) (by omega)
        refine .andThen (others.mono fun breaks => ?_) fun _ => ?_
        · exact .inside (.list opening a isOther) (.inside (.moreItems head) breaks)
        · exact (harmless_expect _ _).bind fun _ => read _

theorem braces_blames (settles : Settles fuel) (enough : 2 * a.length ≤ fuel) :
    (braces (rule fuel)).Blames a (Breaks .braces a) := by
  refine .skipNewlines fun t b lines => ?_
  have shorter := length_le_of_pastNewlines lines
  simp only [List.length_cons] at shorter
  refine .expect .leftBrace (by rintro ⟨⟩ ⟨⟩; rfl) Lexeme.noConfusion fun opening isOpening => ?_
  subst isOpening
  have inside := settles.block (a := b) (by omega)
  refine .andThen (inside.call.mono (.inside (.braces opening lines))) fun _ => ?_
  exact (harmless_expect _ _).bind fun _ => harmless_pure _

theorem cases_blames (settles : Settles fuel) (limit : Nat) (word : Keyword)
    (enough : 2 * a.length ≤ fuel) (long : a.length ≤ limit) :
    (cases (rule fuel) limit word).Blames a (Breaks (.cases word) a) := by
  induction limit generalizing a word with
  | zero =>
      obtain rfl := List.eq_nil_of_length_eq_zero (Nat.le_zero.mp long)
      exact .nil
  | succ limit ih =>
      obtain _ | ⟨t, a⟩ := a
      · exact .nil
      simp only [List.length_cons] at enough long
      have faithful := rule_faithful fuel
      refine .expect (.keyword word) (fun _ => isKeyword_iff.mp) Lexeme.noConfusion
        fun span isWord => ?_
      subst isWord
      refine .bind (condition_sound faithful)
        ((condition_blames (a := a) settles (by omega)).mono (.inside (.guard span a)))
        fun test b guard => ?_
      have shorter := guard.length_le
      refine .bind (braces_sound faithful)
        ((braces_blames (a := b) settles (by omega)).mono (.inside (.body span guard)))
        fun body c inside => ?_
      have shorter' := inside.length_le
      refine .skipNewlines fun next d lines => .lexeme ?_
      have shorter'' := length_le_of_pastNewlines lines
      by_cases isElif : next.lexeme.isKeyword .elifWord = true
      · rw [if_pos isElif]
        have others := ih (a := next :: d) .elifWord (by omega) (by omega)
        exact .andThen (others.call.mono (.inside (.elifCase span guard inside lines isElif)))
          fun _ => harmless_pure _
      · rw [if_neg isElif]
        by_cases isElse : next.lexeme.isKeyword .elseWord = true
        · rw [if_pos isElse]
          obtain ⟨lexeme, elseWord⟩ := next
          obtain rfl : lexeme = .keyword .elseWord := isKeyword_iff.mp isElse
          simp only [List.length_cons] at shorter''
          have other := braces_blames (a := d) settles (by omega)
          have otherwise : (elseBranch (rule fuel)).Blames (⟨.keyword .elseWord, elseWord⟩ :: d)
              (Breaks .braces d) := by
            refine .lexeme ?_
            rw [if_pos isElse]
            exact .advance Lexeme.noConfusion (other.andThen fun _ => harmless_pure _)
          exact .andThen
            (otherwise.call.mono (.inside (.elseCase span elseWord guard inside lines)))
            fun _ => harmless_pure _
        · rw [if_neg isElse]
          exact .pure _

/-! ## Atoms that start with a reserved word -/

theorem forEach_blames (settles : Settles fuel) (enough : 2 * a.length ≤ fuel) :
    (forEach (rule fuel)).Blames a (Breaks .atom a) := by
  obtain _ | ⟨t, a⟩ := a
  · exact .nil
  refine .keyword .forWord fun forWord isFor => ?_
  obtain _ | ⟨u, a⟩ := a
  · exact .nil
  refine .keyword .eachWord fun eachWord isEach => ?_
  refine .bind name_sound (harmless_name _).blames ?_
  rintro _ b ⟨text, span, rfl, rfl⟩
  obtain _ | ⟨v, b⟩ := b
  · exact .nil
  refine .keyword .inWord fun inWord isIn => ?_
  refine .bind name_sound (harmless_name _).blames ?_
  rintro _ c ⟨list, listSpan, rfl, rfl⟩
  subst isFor isEach isIn
  simp only [List.length_cons] at enough
  have body := braces_blames (a := c) settles (by omega)
  exact .andThen
    (body.mono (.inside (.forEach forWord eachWord inWord span listSpan text list c)))
    fun _ => harmless_pure _

theorem whileLoop_blames (settles : Settles fuel) (enough : 2 * a.length ≤ fuel) :
    (whileLoop (rule fuel)).Blames a (Breaks .atom a) := by
  obtain _ | ⟨t, a⟩ := a
  · exact .nil
  simp only [List.length_cons] at enough
  refine .keyword .whileWord fun word isWhile => ?_
  subst isWhile
  refine .bind (condition_sound (rule_faithful fuel))
    ((condition_blames (a := a) settles (by omega)).mono (.inside (.whileGuard word a)))
    fun test b guard => ?_
  have shorter := guard.length_le
  have body := braces_blames (a := b) settles (by omega)
  exact .andThen (body.mono (.inside (.whileBody word guard))) fun _ => harmless_pure _

theorem repetition_blames (settles : Settles fuel) (enough : 2 * a.length ≤ fuel) :
    (repetition (rule fuel)).Blames a (Breaks .atom a) := by
  obtain _ | ⟨t, a⟩ := a
  · exact .nil
  refine .keyword .repeatWord fun word isRepeat => ?_
  subst isRepeat
  obtain _ | ⟨⟨lexeme, span⟩, a⟩ := a
  · exact .nil
  simp only [List.length_cons] at enough
  refine .lexeme ?_
  by_cases isUntil : lexeme.isKeyword .untilWord = true
  · rw [if_pos isUntil]
    obtain rfl := isKeyword_iff.mp isUntil
    refine .advance Lexeme.noConfusion ?_
    refine .bind (condition_sound (rule_faithful fuel))
      ((condition_blames (a := a) settles (by omega)).mono (.inside (.untilGuard word span a)))
      fun test b guard => ?_
    have shorter := guard.length_le
    have body := braces_blames (a := b) settles (by omega)
    exact .andThen (body.mono (.inside (.untilBody word span guard))) fun _ => harmless_pure _
  · rw [if_neg isUntil]
    refine .current ?_
    cases lexeme with
    | int count =>
        refine .advance Lexeme.noConfusion ?_
        obtain _ | ⟨u, a⟩ := a
        · exact .nil
        refine .keyword .timesWord fun timesWord isTimes => ?_
        subst isTimes
        simp only [List.length_cons] at enough
        have body := braces_blames (a := a) settles (by omega)
        exact .andThen (body.mono (.inside (.repeatFixed word span timesWord count a)))
          fun _ => harmless_pure _
    | name text =>
        refine .advance Lexeme.noConfusion ?_
        obtain _ | ⟨u, a⟩ := a
        · exact .nil
        refine .keyword .timesWord fun timesWord isTimes => ?_
        subst isTimes
        simp only [List.length_cons] at enough
        have body := braces_blames (a := a) settles (by omega)
        exact .andThen (body.mono (.inside (.repeatBy word span timesWord text a)))
          fun _ => harmless_pure _
    | _ => exact .fail _

theorem moreParameters_blames (limit : Nat) (long : a.length ≤ limit) :
    (moreParameters limit : Rule (List Name)).Blames a False := by
  induction limit generalizing a with
  | zero =>
      obtain rfl := List.eq_nil_of_length_eq_zero (Nat.le_zero.mp long)
      exact .nil
  | succ limit ih =>
      obtain _ | ⟨t, a⟩ := a
      · exact .nil
      simp only [List.length_cons] at long
      refine .lexeme ?_
      split
      · next isComma =>
          refine .advance (by rw [isComma]; exact Lexeme.noConfusion) ?_
          refine .bind name_sound (harmless_name _).blames ?_
          rintro _ b ⟨text, span, rfl, rfl⟩
          simp only [List.length_cons] at long
          exact .andThen (ih (a := b) (by omega)) fun _ => harmless_pure _
      · exact .pure []

theorem parameters_blames {limit : Nat} (long : a.length ≤ limit) :
    (parameters limit : Rule (List Name)).Blames a False := by
  obtain _ | ⟨t, a⟩ := a
  · exact .nil
  refine .lexeme ?_
  split
  · refine .bind name_sound (harmless_name _).blames ?_
    rintro _ b ⟨text, span, parts, rfl⟩
    obtain ⟨-, rfl⟩ := List.cons.inj parts
    have others := moreParameters_blames (a := a) limit
      (by simp only [List.length_cons] at long; omega)
    refine others.andThen fun _ => ?_
    exact (harmless_expect _ _).bind fun _ => harmless_pure _
  · exact ((harmless_expect _ _).bind fun _ => harmless_pure _).blames

theorem procedure_blames (settles : Settles fuel) (enough : 2 * a.length ≤ fuel) :
    (procedure (rule fuel) fuel).Blames a (Breaks .atom a) := by
  obtain _ | ⟨t, a⟩ := a
  · exact .nil
  refine .keyword .procedureWord fun word isProcedure => ?_
  subst isProcedure
  obtain _ | ⟨u, a⟩ := a
  · exact .nil
  refine .lexeme ?_
  split
  · refine .bind name_sound (harmless_name _).blames ?_
    rintro _ b ⟨text, span, parts, rfl⟩
    obtain ⟨rfl, rfl⟩ := List.cons.inj parts
    obtain _ | ⟨v, a⟩ := a
    · exact .nil
    refine .expect .leftParen (by rintro ⟨⟩ ⟨⟩; rfl) Lexeme.noConfusion fun opening isOpening => ?_
    subst isOpening
    simp only [List.length_cons] at enough
    refine .bind parameters_sound ((parameters_blames (by omega)).mono False.elim)
      fun names b listed => ?_
    have shorter := listed.length_le
    have body := braces_blames (a := b) settles (by omega)
    exact .andThen (body.mono (.inside (.procedure word span opening text listed)))
      fun _ => harmless_pure _
  · refine .expect .leftParen (by rintro ⟨⟩ ⟨⟩; rfl) Lexeme.noConfusion fun opening isOpening => ?_
    subst isOpening
    simp only [List.length_cons] at enough
    refine .bind parameters_sound ((parameters_blames (by omega)).mono False.elim)
      fun names b listed => ?_
    have shorter := listed.length_le
    have body := braces_blames (a := b) settles (by omega)
    exact .andThen (body.mono (.inside (.anonymous word opening listed)))
      fun _ => harmless_pure _

/-! ## Expressions -/

theorem atom_blames (settles : Settles fuel) (enough : 2 * a.length ≤ fuel) :
    (atom (rule fuel) fuel).Blames a (Breaks .atom a) := by
  obtain _ | ⟨⟨lexeme, span⟩, a⟩ := a
  · exact .nil
  refine .current ?_
  cases lexeme with
  | int n => exact .advance Lexeme.noConfusion (.pure _)
  | float x => exact .advance Lexeme.noConfusion (.pure _)
  | string s => exact .advance Lexeme.noConfusion (.pure _)
  | name text => exact .advance Lexeme.noConfusion (.pure _)
  | leftParen =>
      simp only [List.length_cons] at enough
      refine .advance Lexeme.noConfusion ?_
      have inside := settles.expression (a := a) (by omega)
      refine .andThen (inside.call.mono (.inside (.parenthesised span a))) fun _ => ?_
      exact (harmless_expect _ _).bind fun _ => harmless_pure _
  | leftBracket => exact (listLiteral_blames settles enough rfl).call
  | keyword word =>
      cases word with
      | trueWord =>
          exact .after (.takeTruth true) (fun ended => ended.tail Lexeme.noConfusion) (.pure _)
      | falseWord =>
          exact .after (.takeTruth false) (fun ended => ended.tail Lexeme.noConfusion) (.pure _)
      | ifWord =>
          have whole := cases_blames settles fuel .ifWord enough (by omega)
          exact .call (.andThen (whole.call.mono (.inside (.branch span a)))
            fun _ => harmless_pure _)
      | forWord => exact (forEach_blames settles enough).call
      | whileWord => exact (whileLoop_blames settles enough).call
      | repeatWord => exact (repetition_blames settles enough).call
      | procedureWord => exact (procedure_blames settles enough).call
      | _ => exact .fail _
  | _ => exact fun _ _ _ => trivial

/-- The one place where a parse is broken off: the rule has failed, so the expression cannot be
read. -/
theorem firstArgument_blames (settles : Settles fuel) (enough : 2 * a.length < fuel) :
    (firstArgument (rule fuel)).Blames a
      (Breaks .expression a ∨ ∀ node b, ¬Reads .expression a (.node node) b) := by
  intro w before ended
  have blamed := settles.expression enough { w with tally := {} } before ended
  simp only [firstArgument, observe_rule, act_rule, observe, Bind.bind]
  cases run : rule fuel .expression { w with tally := {} } with
  | ok node after => trivial
  | error diagnostic after =>
      refine ⟨rfl, Or.inr fun node b reading => ?_⟩
      obtain ⟨last, run', -⟩ := reading.rule_reaches enough { w with tally := {} } before
      rw [run] at run'
      cases run'
  | fault fault =>
      rw [run] at blamed
      exact ⟨blamed.1, Or.inl blamed.2⟩

theorem application_blames (settles : Settles fuel) (enough : 2 * a.length ≤ fuel) :
    (application (rule fuel) fuel).Blames a (Breaks .application a) := by
  have faithful := rule_faithful fuel
  refine .bind (.call (atom_sound faithful))
    ((atom_blames settles enough).call.mono (.inside (.callee a))) fun callee b called => ?_
  have shorter := called.length_le
  obtain _ | ⟨⟨lexeme, opening⟩, b⟩ := b
  · exact .nil
  refine .lexeme ?_
  split
  · next isOpening =>
      obtain rfl : lexeme = .leftParen := isOpening
      refine .advance Lexeme.noConfusion ?_
      obtain _ | ⟨t, b⟩ := b
      · exact .nil
      simp only [List.length_cons] at shorter
      refine .lexeme ?_
      split
      · next isClosing => exact .advance (by rw [isClosing]; exact Lexeme.noConfusion) (.pure _)
      · next nonempty =>
          have first := firstArgument_blames (a := t :: b) settles
            (by simp only [List.length_cons]; omega)
          refine .bind (firstArgument_sound faithful) (first.mono ?_) fun node c head => ?_
          · rintro (breaks | unreadable)
            · exact .inside (.arguments opening called nonempty) (.inside (.item _) breaks)
            · exact .argument opening called nonempty unreadable
          · have shorter' := head.length_le
            simp only [List.length_cons] at shorter'
            have others := moreItems_blames (a := c) settles fuel (by omega) (by omega)
            refine .andThen (others.mono fun breaks => ?_) fun _ => ?_
            · exact .inside (.arguments opening called nonempty) (.inside (.moreItems head) breaks)
            · exact (harmless_expect _ _).bind fun _ => harmless_pure _
  · exact .pure callee

theorem chainFrom_blames {level : Level} {right : Rule Node} (limit : Nat) (left : Node)
    (sound : ∀ b, right.Sound b fun node c => Reads level.operand b (.node node) c)
    (blames : ∀ b, 2 * b.length ≤ fuel → right.Blames b (Breaks level.operand b))
    (enough : 2 * a.length ≤ fuel) (long : a.length ≤ limit) :
    (chainFrom level.operator? right limit left).Blames a (Breaks (.operations level) a) := by
  induction limit generalizing a left with
  | zero =>
      obtain rfl := List.eq_nil_of_length_eq_zero (Nat.le_zero.mp long)
      exact .nil
  | succ limit ih =>
      obtain _ | ⟨sign, a⟩ := a
      · exact .nil
      simp only [List.length_cons] at enough long
      refine .current ?_
      cases isOperator : level.operator? sign.lexeme with
      | none => exact .pure left
      | some op =>
          have other : sign.lexeme ≠ .eof := by
            intro isEnd
            rw [isEnd] at isOperator
            cases level <;> cases isOperator
          refine .advance other ?_
          have operand := blames a (by omega)
          refine .bind (.call (sound a)) (operand.call.mono fun breaks => ?_)
            fun right b first => ?_
          · exact .inside (.further sign a isOperator) (.inside (.operand level a) breaks)
          · have shorter := first.length_le
            refine (ih (a := b) _ (by omega) (by omega)).mono fun breaks => ?_
            exact .inside (.further sign a isOperator) (.inside (.operations first) breaks)

theorem chain_blames (level : Level) {operand : Rule Node}
    (sound : ∀ b, operand.Sound b fun node c => Reads level.operand b (.node node) c)
    (blames : ∀ b, 2 * b.length ≤ fuel → operand.Blames b (Breaks level.operand b))
    (enough : 2 * a.length ≤ fuel) :
    (chain level.operator? operand operand fuel).Blames a (Breaks (.chain level) a) := by
  refine .bind (.call (sound a)) ((blames a enough).call.mono (.inside (.operand level a)))
    fun left b first => ?_
  have shorter := first.length_le
  have others := chainFrom_blames (a := b) fuel left sound blames (by omega)
    (by omega)
  exact others.mono (.inside (.operations first))

theorem powersFrom_blames (settles : Settles fuel) {limit : Nat} {left : Node} {b : List Token}
    (base : Reads .application a (.node left) b) (enough : 2 * a.length ≤ fuel)
    (long : b.length ≤ limit) :
    (chainFrom powerOp? (rule fuel .factor) limit left).Blames b (Breaks .power a) := by
  have shorter := base.length_le
  obtain _ | ⟨sign, b⟩ := b
  · exact .nil
  simp only [List.length_cons] at shorter long
  obtain ⟨limit, rfl⟩ : ∃ below, limit = below + 1 := ⟨limit - 1, by omega⟩
  refine .current ?_
  cases isPower : powerOp? sign.lexeme with
  | none => exact .pure left
  | some op =>
      have other : sign.lexeme ≠ .eof := fun isEnd => by rw [isEnd] at isPower; cases isPower
      have factor := settles.factor (a := b) (by omega)
      refine .advance other (.bind (.call ((rule_faithful fuel).factor b))
        (factor.call.mono (.inside (.exponent sign base isPower))) fun right c exponent => ?_)
      -- the exponent has taken all further powers, so the loop ends here
      have shorter' := exponent.length_le
      obtain ⟨next, d, rfl, ends⟩ := exponent.ends_power (Or.inl rfl)
      simp only [List.length_cons] at shorter'
      obtain ⟨limit, rfl⟩ : ∃ below, limit = below + 1 := ⟨limit - 1, by omega⟩
      refine .current ?_
      rw [ends]
      exact .pure _

theorem power_blames (settles : Settles fuel) (enough : 2 * a.length ≤ fuel) :
    (power (rule fuel) fuel).Blames a (Breaks .power a) := by
  refine .bind (.call (application_sound (rule_faithful fuel)))
    ((application_blames settles enough).call.mono (.inside (.base a))) fun left b base => ?_
  have shorter := base.length_le
  exact powersFrom_blames settles base enough (by omega)

theorem factor_blames (settles : Settles fuel) (enough : 2 * a.length ≤ fuel) :
    (factor (rule fuel) fuel).Blames a (Breaks .factor a) := by
  obtain _ | ⟨sign, a⟩ := a
  · exact .nil
  refine .current ?_
  cases isSign : signOp? sign.lexeme with
  | none => exact (power_blames settles enough).mono (.inside (.unsigned a isSign))
  | some op =>
      have other : sign.lexeme ≠ .eof := fun isEnd => by rw [isEnd] at isSign; cases isSign
      simp only [List.length_cons] at enough
      have operand := settles.factor (a := a) (by omega)
      exact .advance other (.andThen (operand.call.mono (.inside (.signed sign a isSign)))
        fun _ => harmless_pure _)

theorem comparison_blames (settles : Settles fuel) (enough : 2 * a.length ≤ fuel) :
    (comparison (rule fuel) fuel).Blames a (Breaks .comparison a) := by
  obtain _ | ⟨⟨lexeme, span⟩, a⟩ := a
  · exact .nil
  have faithful := rule_faithful fuel
  refine .current ?_
  split
  · next isNot =>
      obtain rfl : lexeme = .keyword .notWord := isKeyword_iff.mp isNot
      simp only [List.length_cons] at enough
      have operand := settles.comparison (a := a) (by omega)
      exact .advance Lexeme.noConfusion (.andThen (operand.call.mono (.inside (.negated span a)))
        fun _ => harmless_pure _)
  · next noNot =>
      have term_sound : ∀ b, (term (rule fuel) fuel).Sound b fun node c =>
          Reads (.chain .term) b (.node node) c :=
        fun _ => chain_sound .term fun _ => factor_sound faithful
      have term_blames : ∀ b, 2 * b.length ≤ fuel →
          (term (rule fuel) fuel).Blames b (Breaks (.chain .term) b) :=
        fun _ => chain_blames .term (fun _ => factor_sound faithful)
          fun _ => factor_blames settles
      have sum_sound : ∀ b, (sum (rule fuel) fuel).Sound b fun node c =>
          Reads (.chain .sum) b (.node node) c :=
        fun _ => chain_sound .sum term_sound
      have sum_blames : ∀ b, 2 * b.length ≤ fuel →
          (sum (rule fuel) fuel).Blames b (Breaks (.chain .sum) b) :=
        fun _ => chain_blames .sum term_sound term_blames
      have whole := chain_blames .comparison sum_sound sum_blames enough
      exact (whole.callOr _).mono (.inside (.comparing a (eq_false_of_ne_true noNot)))

theorem expression_blames (settles : Settles fuel) (enough : 2 * a.length ≤ fuel) :
    (expression (rule fuel) fuel).Blames a (Breaks .expression a) := by
  obtain _ | ⟨t, a⟩ := a
  · exact .nil
  intro w before
  rw [expression_eq before]
  revert w
  split
  · next isAssignment =>
      obtain ⟨text, span, sign, b, rfl, rfl⟩ := exists_of_assigns isAssignment
      simp only [List.length_cons] at enough
      have value := settles.expression (a := b) (by omega)
      intro w before
      refine Blames.after name_reaches (fun ended => ended.tail Lexeme.noConfusion) ?_ w before
      exact .advance Lexeme.noConfusion
        (.andThen (value.call.mono (.inside (.assigned text span sign b))) fun _ => harmless_pure _)
  · next plain =>
      have whole := chain_blames .logical
        (fun _ => comparison_sound (rule_faithful fuel)) (fun _ => comparison_blames settles) enough
      intro w before
      exact (whole.callOr _).mono (.inside (.logical (eq_false_of_ne_true plain))) w before

/-! ## Statements -/

theorem statement_blames (settles : Settles fuel) (enough : 2 * a.length < fuel) :
    (statement (rule fuel)).Blames a (Breaks .statement a) := by
  obtain _ | ⟨⟨lexeme, span⟩, a⟩ := a
  · exact .nil
  have read : ∀ node : Span → Node, (do return node ⟨span.start, (← current).span.stop⟩ : Rule
      Node).Harmless :=
    fun _ => harmless_current.bind fun _ => harmless_pure _
  refine .current ?_
  by_cases isReturn : lexeme.isKeyword .returnWord = true
  · obtain rfl := isKeyword_iff.mp isReturn
    simp only [List.length_cons] at enough
    have value := settles.expression (a := a) (by omega)
    refine .advance Lexeme.noConfusion
      (.andThen (value.attempt.mono (.inside (.returned span a))) fun value => ?_)
    cases value with
    | some node => exact read (Node.returning (some node))
    | none => exact harmless_rewind.bind fun _ => read (Node.returning none)
  simp only [Token.isKeyword, isReturn]
  by_cases isContinue : lexeme.isKeyword .continueWord = true
  · obtain rfl := isKeyword_iff.mp isContinue
    exact .advance Lexeme.noConfusion (read .continuing).blames
  by_cases isBreak : lexeme.isKeyword .breakWord = true
  · obtain rfl := isKeyword_iff.mp isBreak
    exact .advance Lexeme.noConfusion (read .breaking).blames
  simp only [isContinue, isBreak]
  have whole := settles.expression (a := ⟨lexeme, span⟩ :: a) enough
  refine (whole.callOr _).mono (.inside (.evaluated a fun word member => ?_))
  simp only [List.mem_cons, List.not_mem_nil, or_false] at member
  rcases member with rfl | rfl | rfl
  · exact eq_false_of_ne_true isReturn
  · exact eq_false_of_ne_true isContinue
  · exact eq_false_of_ne_true isBreak

theorem Walk.ne_newline_of_stray {w : Walk} (stands : ending w.current.lexeme = none) :
    w.current.lexeme ≠ .newline :=
  fun same => by rw [same] at stands; cases stands

theorem moreStatements_ok {self : Rules} {limit : Nat} {w : Walk}
    (stands : w.current.lexeme ≠ .newline) : moreStatements self (limit + 1) w = .ok [] w := by
  rw [moreStatements, act_rule, bind_of_ok (rfl : lexeme w = .ok w.current.lexeme w)]
  cases same : w.current.lexeme with
  | newline => contradiction
  | _ => rfl

theorem moreStatements_blames (settles : Settles fuel) (limit : Nat) (enough : 2 * a.length < fuel)
    (long : a.length ≤ limit) :
    (moreStatements (rule fuel) limit).Blames a (Breaks .moreStatements a) := by
  induction limit generalizing a with
  | zero =>
      obtain rfl := List.eq_nil_of_length_eq_zero (Nat.le_zero.mp long)
      exact .nil
  | succ limit ih =>
      obtain _ | ⟨t, a⟩ := a
      · exact .nil
      refine .lexeme ?_
      split
      · next isLine =>
          refine .skipNewlines fun u b lines => ?_
          rw [pastNewlines_line isLine] at lines
          have shorter := length_le_of_pastNewlines lines
          simp only [List.length_cons] at shorter long enough
          have head := statement_blames (a := u :: b) settles
            (by simp only [List.length_cons]; omega)
          refine .attemptThen (statement_traced (rule_faithful fuel) (rule_stops fuel))
            (head.mono fun breaks => ?_) (fun node c read => ?_) (fun node w stands => ?_) ?_
          · exact .inside (.nextStatement a isLine) (.inside (.firstStatement lines) breaks)
          · have shorter' := read.length_le
            simp only [List.length_cons] at shorter'
            have others := ih (a := c) (by omega) (by omega)
            refine .andThen (others.mono fun breaks => ?_) fun _ => harmless_pure _
            exact .inside (.nextStatement a isLine) (.inside (.moreStatements lines read) breaks)
          · obtain ⟨limit, rfl⟩ : ∃ below, limit = below + 1 := ⟨limit - 1, by omega⟩
            exact blames_bind_of_ok (moreStatements_ok (Walk.ne_newline_of_stray stands)) trivial
          · exact harmless_rewind.bind fun _ => harmless_skipNewlines.bind fun _ => harmless_pure _
      · exact .pure []

theorem block_blames (settles : Settles fuel) (enough : 2 * a.length < fuel) :
    (block (rule fuel) fuel).Blames a (Breaks .block a) := by
  obtain _ | ⟨first, a⟩ := a
  · exact .nil
  refine .current (.skipNewlines fun t b lines => ?_)
  have shorter := length_le_of_pastNewlines lines
  have head := statement_blames (a := t :: b) settles (by omega)
  refine .bindStray (.call (statement_traced (rule_faithful fuel) (rule_stops fuel)))
    (head.call.mono (.inside (.firstStatement lines))) (fun node c read => ?_)
    fun node w stands => ?_
  · have shorter' := read.length_le
    have others := moreStatements_blames (a := c) settles fuel (by omega) (by omega)
    refine .andThen (others.mono (.inside (.moreStatements lines read))) fun _ => ?_
    exact harmless_current.bind fun _ => harmless_pure _
  · have stays : moreStatements (rule fuel) fuel w = .ok [] w := by
      obtain ⟨below, isLimit⟩ : ∃ below, fuel = below + 1 := ⟨fuel - 1, by omega⟩
      exact isLimit ▸ moreStatements_ok (Walk.ne_newline_of_stray stands)
    exact blames_bind_of_ok stays trivial

end

/-! ## All rules together -/

/-- The rules of the grammar end in a fault only if the parse breaks off at an argument. -/
theorem rule_settles (fuel : Nat) : Settles fuel := by
  induction fuel with
  | zero =>
      exact
        { expression := fun enough => absurd enough (Nat.not_lt_zero _)
          comparison := fun enough => absurd enough (Nat.not_lt_zero _)
          factor := fun enough => absurd enough (Nat.not_lt_zero _)
          block := fun enough => absurd enough (Nat.not_lt_zero _) }
  | succ fuel ih =>
      exact
        { expression := fun enough => expression_blames ih (Nat.le_of_lt_succ enough)
          comparison := fun enough => comparison_blames ih (Nat.le_of_lt_succ enough)
          factor := fun enough => factor_blames ih (Nat.le_of_lt_succ enough)
          block := fun enough => block_blames ih (Nat.lt_of_succ_lt_succ enough) }

/-! ## Programs -/

section

variable {fuel : Nat} {a : List Token}

theorem harmless_giveUp (diagnostic : Diagnostic) :
    (giveUp diagnostic : Rule (List Node)).Harmless := by
  refine harmless_skipNewlines.bind fun _ => harmless_lexeme.bind fun l => ?_
  split
  · exact harmless_rewind.bind fun _ => harmless_skipNewlines.bind fun _ =>
      harmless_raise diagnostic
  · exact harmless_raise diagnostic

theorem moreProgram_ok {self : Rules} {limit : Nat} {w : Walk}
    (stands : w.current.lexeme ≠ .newline) : moreProgram self (limit + 1) w = .ok [] w := by
  rw [moreProgram, act_rule, bind_of_ok (rfl : lexeme w = .ok w.current.lexeme w)]
  cases same : w.current.lexeme with
  | newline => contradiction
  | _ => rfl

theorem moreProgram_blames (fuel limit : Nat) (enough : 2 * a.length < fuel)
    (long : a.length ≤ limit) :
    (moreProgram (rule fuel) limit).Blames a (Breaks .moreStatements a) := by
  induction limit generalizing a with
  | zero =>
      obtain rfl := List.eq_nil_of_length_eq_zero (Nat.le_zero.mp long)
      exact .nil
  | succ limit ih =>
      obtain _ | ⟨t, a⟩ := a
      · exact .nil
      refine .lexeme ?_
      split
      · next isLine =>
          refine .skipNewlines fun u b lines => ?_
          rw [pastNewlines_line isLine] at lines
          have shorter := length_le_of_pastNewlines lines
          simp only [List.length_cons] at shorter long enough
          have head := statement_blames (a := u :: b) (rule_settles fuel)
            (by simp only [List.length_cons]; omega)
          refine .observeThen (statement_traced (rule_faithful fuel) (rule_stops fuel))
            (head.mono fun breaks => ?_) (fun node tally c read => ?_)
            (fun node tally w stands => ?_) fun diagnostic tally => ?_
          · exact .inside (.nextStatement a isLine) (.inside (.firstStatement lines) breaks)
          · have shorter' := read.length_le
            simp only [List.length_cons] at shorter'
            have others := ih (a := c) (by omega) (by omega)
            refine .after (.register tally) id (.andThen (others.mono fun breaks => ?_)
              fun _ => harmless_pure _)
            exact .inside (.nextStatement a isLine) (.inside (.moreStatements lines read) breaks)
          · obtain ⟨limit, rfl⟩ : ∃ below, limit = below + 1 := ⟨limit - 1, by omega⟩
            have stays : moreProgram (rule fuel) (limit + 1)
                { w with tally := w.tally.register tally } =
                  .ok [] { w with tally := w.tally.register tally } :=
              moreProgram_ok (Walk.ne_newline_of_stray stands)
            exact blames_bind_of_ok rfl (blames_bind_of_ok stays trivial)
          · simp only
            split
            · exact Harmless.bind (fun _ _ => trivial) fun _ => harmless_rewind.bind fun _ =>
                harmless_skipNewlines.bind fun _ => harmless_pure _
            · exact (harmless_register tally).bind fun _ => harmless_giveUp diagnostic
      · exact .pure []

theorem firstStatement_traced {self : Rules} (faithful : Faithful self)
    (stops : StopsAtOnce self) :
    (firstStatement self).Traced a (fun node b => Reads .statement a (.node node) b)
      (ending · = none) := by
  refine .observe (statement_traced faithful stops) (fun _ _ _ => rfl) fun diagnostic tally w => ?_
  by_cases reported : isEndOfFile diagnostic = true
  · exact Or.inr ⟨_, 0, congrFun (if_pos reported) _⟩
  · exact Or.inr ⟨diagnostic, tally.taken, congrFun (if_neg reported) _⟩

theorem firstStatement_blames (fuel : Nat) (enough : 2 * a.length < fuel) :
    (firstStatement (rule fuel)).Blames a (Breaks .statement a) := by
  have head := statement_blames (rule_settles fuel) enough
  refine head.observe.andThen fun ⟨result, tally⟩ => (harmless_register tally).bind fun _ => ?_
  cases result with
  | ok node => exact harmless_pure node
  | error diagnostic =>
      by_cases reported : isEndOfFile diagnostic = true
      · simp only [reported]
        exact Harmless.bind (fun _ _ => trivial) fun _ => harmless_raise _
      · simp only [reported]
        exact harmless_raise diagnostic

theorem statements_blames (enough : 2 * a.length < fuel) :
    (statements (rule fuel) fuel).Blames a (Breaks .block a) := by
  obtain _ | ⟨first, a⟩ := a
  · exact .nil
  refine .current (.skipNewlines fun t b lines => .lexeme ?_)
  have shorter := length_le_of_pastNewlines lines
  split
  · exact (harmless_current.bind fun _ => harmless_pure _).blames
  · have head := firstStatement_blames (a := t :: b) fuel (by omega)
    refine .bindStray (firstStatement_traced (rule_faithful fuel) (rule_stops fuel))
      (head.mono (.inside (.firstStatement lines))) (fun node c read => ?_) fun node w stands => ?_
    · have shorter' := read.length_le
      have others := moreProgram_blames (a := c) fuel fuel (by omega) (by omega)
      refine .andThen (others.mono (.inside (.moreStatements lines read))) fun _ => ?_
      exact harmless_current.bind fun _ => harmless_pure _
    · have stays : moreProgram (rule fuel) fuel w = .ok [] w := by
        obtain ⟨below, isLimit⟩ : ∃ below, fuel = below + 1 := ⟨fuel - 1, by omega⟩
        exact isLimit ▸ moreProgram_ok (Walk.ne_newline_of_stray stands)
      exact blames_bind_of_ok stays trivial

theorem program_blames (fuel : Nat) (enough : 2 * a.length < fuel) :
    (program (rule fuel) fuel).Blames a (Breaks .block a) := by
  refine .andThen (statements_blames enough) fun node => harmless_lexeme.bind fun l => ?_
  split
  · exact harmless_pure node
  · exact fun _ _ => trivial

end

end Grammar
end Pseudocode
