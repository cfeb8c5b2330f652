import Pseudocode.Proofs.Parsing.Blame
import Pseudocode.Proofs.Scanning.Ending

/-!
# A call without a readable first argument abandons the parse

Whoever comes to a call whose first argument cannot be read takes the whole parse along: no rule
catches the fault, neither the attempt at a value after `RETURN` nor the one at a further statement.
So the parser breaks off exactly where `Breaks` says, and in all other cases it ends with a tree or
with an error.
-/

namespace Pseudocode

namespace Rule

variable {α β : Type}

/-- A rule that abandons the parse on every walk before these tokens. -/
def Faults (rule : Rule α) (a : List Token) : Prop :=
  ∀ w : Walk, w.Before a → rule w = .fault .unreadableArgument

namespace Faults

variable {a b : List Token} {rule : Rule α}

theorem bind {next : α → Rule β} (faults : rule.Faults a) : (rule >>= next).Faults a := by
  intro w before
  simp only [Bind.bind, faults w before]

theorem after {next : α → Rule β} {x : α} (reached : rule.Reaches a x b)
    (faults : (next x).Faults b) : (rule >>= next).Faults a := by
  intro w before
  obtain ⟨middle, run, between, -⟩ := reached w before
  exact (bind_of_ok run).trans (faults middle between)

theorem observe (faults : rule.Faults a) : (Rule.observe rule).Faults a := by
  intro w before
  simp only [Rule.observe, faults { w with tally := {} } before]

/-- What comes after a rule that is watched and succeeds. -/
theorem observed {next : Except Diagnostic α × Tally → Rule β} {x : α}
    (reached : rule.Reaches a x b) (faults : ∀ tally, (next (.ok x, tally)).Faults b) :
    (Rule.observe rule >>= next).Faults a := by
  intro w before
  obtain ⟨middle, run, between, -⟩ := reached { w with tally := {} } before
  have rest := faults middle.tally { middle with tally := w.tally } between
  simp only [Rule.observe, Bind.bind, run, rest]

theorem call (faults : rule.Faults a) : (Rule.call rule).Faults a :=
  faults.observe.bind

theorem callOr (replacement : Walk → Diagnostic) (faults : rule.Faults a) :
    (Rule.callOr rule replacement).Faults a :=
  faults.observe.bind

theorem attempt (faults : rule.Faults a) : (Rule.attempt rule).Faults a :=
  faults.observe.bind

theorem not_fails {steps : Nat} (faults : rule.Faults a) : ¬rule.Fails a steps := by
  intro fails
  have before : Walk.Before { tokens := a.toArray, index := 0 } a := ⟨Int.le_refl 0, rfl⟩
  obtain ⟨diagnostic, tally, run, -⟩ := fails _ before
  rw [faults _ before] at run
  cases run

end Faults

end Rule

namespace Grammar

open Rule

/-! ## What is visited lies ahead -/

theorem Reads.suffix {s : Symbol} {a b : List Token} {x : Phrase} (reading : Reads s a x b) :
    b <:+ a := by
  obtain ⟨ts, rfl, -⟩ := reading.derives
  exact List.suffix_append ts b

theorem ReadsParameters.suffix {a b : List Token} {names : List Name}
    (reading : ReadsParameters a names b) : b <:+ a := by
  obtain ⟨ts, closing, rfl, -⟩ := reading.parameters
  exact (List.suffix_cons _ b).trans (List.suffix_append ts _)

theorem suffix_of_pastNewlines {a b : List Token} (lines : pastNewlines a = b) : b <:+ a :=
  lines ▸ List.dropWhile_suffix isNewline

theorem Visits.suffix {s s' : Symbol} {a b : List Token} (visits : Visits s a s' b) : b <:+ a := by
  cases visits with
  | assigned => exact ⟨[_, _], rfl⟩
  | operations first => exact first.suffix
  | exponent sign base => exact (List.suffix_cons sign b).trans base.suffix
  | arguments opening called => exact (List.suffix_cons _ _).trans called.suffix
  | moreItems head => exact head.suffix
  | forEach => exact ⟨[_, _, _, _, _], rfl⟩
  | whileBody word guard => exact guard.suffix.trans (List.suffix_cons _ _)
  | untilGuard => exact ⟨[_, _], rfl⟩
  | untilBody word untilWord guard => exact guard.suffix.trans ⟨[_, _], rfl⟩
  | repeatFixed => exact ⟨[_, _, _], rfl⟩
  | repeatBy => exact ⟨[_, _, _], rfl⟩
  | procedure word span opening text listed => exact listed.suffix.trans ⟨[_, _, _], rfl⟩
  | anonymous word opening listed => exact listed.suffix.trans ⟨[_, _], rfl⟩
  | braces opening lines => exact (List.suffix_cons _ _).trans (suffix_of_pastNewlines lines)
  | body span guard => exact guard.suffix.trans (List.suffix_cons _ _)
  | elifCase span guard inside lines =>
      have within := (suffix_of_pastNewlines lines).trans (inside.suffix.trans guard.suffix)
      exact within.trans (List.suffix_cons _ _)
  | elseCase span elseWord guard inside lines =>
      have within := (suffix_of_pastNewlines lines).trans (inside.suffix.trans guard.suffix)
      exact (List.suffix_cons _ _).trans (within.trans (List.suffix_cons _ _))
  | firstStatement lines => exact suffix_of_pastNewlines lines
  | moreStatements lines head => exact head.suffix.trans (suffix_of_pastNewlines lines)
  | _ => first | exact List.suffix_refl _ | exact List.suffix_cons _ _

theorem Ended.suffix {a b : List Token} (ended : Ended a) (ahead : b <:+ a) (nonempty : b ≠ []) :
    Ended b := by
  obtain ⟨ts, rfl⟩ := ahead
  induction ts with
  | nil => exact ended
  | cons t ts ih =>
      by_cases isEnd : t.lexeme = .eof
      · exact absurd (List.append_eq_nil_iff.mp (ended.eq_nil isEnd)).2 nonempty
      · exact ih (ended.tail isEnd)

theorem Breaks.ne_nil {s : Symbol} {a : List Token} (breaks : Breaks s a) : a ≠ [] := by
  induction breaks with
  | argument opening called nonempty unreadable => exact called.ne_nil
  | inside visits breaks ih =>
      rintro rfl
      exact ih (List.eq_nil_of_suffix_nil visits.suffix)

/-! ## One level of the nesting -/

/-- The rules of the grammar, at a level of the nesting, abandon the parse.  As for `Accepts`, the
loops have bounds of their own; where a symbol starts with another one, either that one abandons the
parse or it is read and what comes after does. -/
def Abandons (fuel : Nat) : Symbol → List Token → Prop
  | .expression, a => (expression (rule fuel) fuel).Faults a
  | .comparison, a => (comparison (rule fuel) fuel).Faults a
  | .chain level, a =>
      (level.operandRule (rule fuel) fuel).Faults a ∨
        ∃ node b, (level.operandRule (rule fuel) fuel).Reaches a node b ∧
          ∀ limit left, a.length ≤ limit →
            (chainFrom level.operator? (level.operandRule (rule fuel) fuel) limit left).Faults b
  | .operations level, a =>
      ∀ limit left, a.length ≤ limit →
        (chainFrom level.operator? (level.operandRule (rule fuel) fuel) limit left).Faults a
  | .factor, a => (factor (rule fuel) fuel).Faults a
  | .power, a => (power (rule fuel) fuel).Faults a
  | .application, a => (application (rule fuel) fuel).Faults a
  | .atom, a => (atom (rule fuel) fuel).Faults a
  | .items, a =>
      (rule fuel .expression).Faults a ∨
        ∃ first b, (rule fuel .expression).Reaches a first b ∧
          ∀ limit, a.length ≤ limit → (moreItems (rule fuel) limit).Faults b
  | .moreItems, a => ∀ limit, a.length ≤ limit → (moreItems (rule fuel) limit).Faults a
  | .condition, a => (condition (rule fuel)).Faults a
  | .braces, a => (braces (rule fuel)).Faults a
  | .cases word, a => ∀ limit, a.length ≤ limit → (cases (rule fuel) limit word).Faults a
  | .statement, a => (statement (rule fuel)).Faults a
  | .block, a =>
      ∃ t b, pastNewlines a = t :: b ∧ t.lexeme ≠ .eof ∧
        ((statement (rule fuel)).Faults (t :: b) ∨
          ∃ node c, c.length ≤ (t :: b).length ∧ (statement (rule fuel)).Reaches (t :: b) node c ∧
            ∀ limit, c.length ≤ limit →
              (moreStatements (rule fuel) limit).Faults c ∧
                (moreProgram (rule fuel) limit).Faults c)
  | .moreStatements, a =>
      ∀ limit, a.length ≤ limit →
        (moreStatements (rule fuel) limit).Faults a ∧ (moreProgram (rule fuel) limit).Faults a

/-- The rules abandon the parse at every level that is high enough. -/
def Abandoned (s : Symbol) (a : List Token) : Prop :=
  ∀ fuel, 2 * a.length + s.slack ≤ fuel → Abandons fuel s a

section

variable {fuel : Nat} {a : List Token}

theorem Abandons.chain_faults {level : Level} (abandons : Abandons fuel (.chain level) a)
    (enough : a.length ≤ fuel) :
    (chain level.operator? (level.operandRule (rule fuel) fuel)
      (level.operandRule (rule fuel) fuel) fuel).Faults a := by
  rcases abandons with faults | ⟨left, b, reached, others⟩
  · exact faults.call.bind
  · exact .after reached.call (others fuel left enough)

theorem Abandons.operand_faults {level : Level} (abandons : Abandons fuel level.operand a)
    (enough : a.length ≤ fuel) : (level.operandRule (rule fuel) fuel).Faults a := by
  cases level with
  | logical => exact abandons
  | comparison => exact abandons.chain_faults enough
  | sum => exact abandons.chain_faults enough
  | term => exact abandons

theorem Abandons.block_faults (abandons : Abandons fuel .block a) (enough : a.length ≤ fuel) :
    (block (rule fuel) fuel).Faults a := by
  obtain ⟨t, b, lines, -, alternatives⟩ := abandons
  have shorter := length_le_of_pastNewlines lines
  obtain _ | ⟨first, a⟩ := a
  · cases lines
  refine .after .current (.after (.skipNewlines lines) ?_)
  rcases alternatives with faults | ⟨node, c, shorter', reached, others⟩
  · exact faults.call.bind
  · exact .after reached.call (others fuel (by omega)).1.bind

/-- The symbol that a rule reads. -/
def Category.symbol : Category → Symbol
  | expression => .expression
  | comparison => .comparison
  | factor => .factor
  | block => .block

/-- A rule that calls itself abandons the parse if the rules one level below do. -/
theorem rule_faults (fuel : Nat) (category : Category) (inner : Abandoned category.symbol a)
    (enough : 2 * a.length + category.symbol.slack < fuel) : (rule fuel category).Faults a := by
  obtain ⟨below, rfl⟩ : ∃ below, fuel = below + 1 := ⟨fuel - 1, by omega⟩
  have abandons := inner below (by omega)
  cases category with
  | expression => exact abandons
  | comparison => exact abandons
  | factor => exact abandons
  | block => exact abandons.block_faults (by omega)

theorem expression_faults (fuel : Nat) (inner : Abandoned .expression a)
    (enough : 2 * a.length < fuel) : (rule fuel .expression).Faults a :=
  rule_faults fuel .expression inner enough

theorem factor_faults (fuel : Nat) (inner : Abandoned .factor a) (enough : 2 * a.length < fuel) :
    (rule fuel .factor).Faults a :=
  rule_faults fuel .factor inner enough

theorem condition_faults (fuel : Nat) (inner : Abandoned .condition a)
    (enough : 2 * a.length ≤ fuel) : (condition (rule fuel)).Faults a :=
  inner fuel enough

theorem braces_faults (fuel : Nat) (inner : Abandoned .braces a) (enough : 2 * a.length ≤ fuel) :
    (braces (rule fuel)).Faults a :=
  inner fuel enough

theorem condition_reaches_of_reads (fuel : Nat) {b : List Token} {node : Node}
    (reading : Reads .condition a (.node node) b) (enough : 2 * a.length ≤ fuel) :
    (condition (rule fuel)).Reaches a node b :=
  reading.accepts enough

theorem braces_reaches_of_reads (fuel : Nat) {b : List Token} {node : Node}
    (reading : Reads .braces a (.node node) b) (enough : 2 * a.length ≤ fuel) :
    (braces (rule fuel)).Reaches a node b :=
  reading.accepts enough

/-- The place where a parse is abandoned: the rule neither succeeds, since nothing can be read, nor
ends in another fault. -/
theorem firstArgument_faults (ended : Ended a) (enough : 2 * a.length < fuel)
    (unreadable : ∀ node b, ¬Reads .expression a (.node node) b) :
    (firstArgument (rule fuel)).Faults a := by
  intro w before
  have sound := (rule_faithful fuel).expression a { w with tally := {} } before ended
  have blamed := (rule_settles fuel).expression enough { w with tally := {} } before ended
  simp only [firstArgument, observe_rule, act_rule, observe, Bind.bind]
  cases run : rule fuel .expression { w with tally := {} } with
  | ok node after =>
      rw [run] at sound
      obtain ⟨b, reading, -⟩ := sound.resolve_right And.right
      exact absurd reading (unreadable node b)
  | error diagnostic after => rfl
  | fault fault =>
      rw [run] at blamed
      rw [blamed.1]

end

/-! ## One symbol at a time

What is visited takes the visitor along. -/

section

variable {s : Symbol} {a b : List Token}

theorem expression_abandoned (visits : Visits .expression a s b) (nonempty : b ≠ [])
    (inner : Abandoned s b) : Abandoned .expression a := by
  intro fuel enough
  cases visits with
  | assigned text span sign =>
      simp only [List.length_cons, Symbol.slack] at enough
      have value := expression_faults fuel inner (by omega)
      exact .after .current (.after .followingLexeme (.after name_reaches
        (.after .advance value.call.bind)))
  | logical plain =>
      have whole := (inner fuel enough).chain_faults (by omega)
      obtain _ | ⟨t, a⟩ := a
      · contradiction
      intro w before
      rw [expression_eq before, plain]
      exact whole.callOr _ w before

theorem comparison_abandoned (visits : Visits .comparison a s b) (inner : Abandoned s b) :
    Abandoned .comparison a := by
  intro fuel enough
  cases visits with
  | negated word =>
      simp only [List.length_cons, Symbol.slack] at enough
      have operand := rule_faults fuel .comparison inner
        (by simp only [Category.symbol, Symbol.slack]; omega)
      exact .after .current (.after .advance operand.call.bind)
  | comparing a noNot =>
      have whole := (inner fuel enough).chain_faults (by omega)
      refine .after .current ?_
      rw [noNot]
      exact whole.callOr _

theorem chain_abandoned {level : Level} (visits : Visits (.chain level) a s b)
    (inner : Abandoned s b) : Abandoned (.chain level) a := by
  intro fuel enough
  simp only [Symbol.slack] at enough
  cases visits with
  | operand =>
      have first := inner fuel (by rw [slack_operand]; exact enough)
      exact Or.inl (first.operand_faults (by omega))
  | operations first =>
      have shorter := first.length_le
      have reached : (level.operandRule (rule fuel) fuel).Reaches a _ b :=
        accepts_operand.mp (first.accepts (by rw [slack_operand]; omega))
      have others := inner fuel (by simp only [Symbol.slack]; omega)
      exact Or.inr ⟨_, b, reached, fun limit left long => others limit left (by omega)⟩

theorem operations_abandoned {level : Level} (visits : Visits (.operations level) a s b)
    (inner : Abandoned s b) : Abandoned (.operations level) a := by
  intro fuel enough limit left long
  cases visits with
  | further sign a isOperator =>
      simp only [List.length_cons, Symbol.slack] at enough long
      obtain ⟨limit, rfl⟩ : ∃ below, limit = below + 1 := ⟨limit - 1, by omega⟩
      refine .after .current ?_
      rw [isOperator]
      refine .after .advance ?_
      rcases inner fuel (by simp only [Symbol.slack]; omega) with faults | ⟨_, c, reached, others⟩
      · exact faults.call.bind
      · exact .after reached.call (others limit _ (by omega))

theorem factor_abandoned (visits : Visits .factor a s b) (inner : Abandoned s b) :
    Abandoned .factor a := by
  intro fuel enough
  cases visits with
  | signed sign a isSign =>
      simp only [List.length_cons, Symbol.slack] at enough
      have operand := factor_faults fuel inner (by omega)
      refine .after .current ?_
      rw [isSign]
      exact .after .advance operand.call.bind
  | unsigned a noSign =>
      refine .after .current ?_
      rw [noSign]
      exact inner fuel enough

theorem power_abandoned (visits : Visits .power a s b) (inner : Abandoned s b) :
    Abandoned .power a := by
  intro fuel enough
  cases visits with
  | base =>
      have whole : (application (rule fuel) fuel).Faults a := inner fuel enough
      exact whole.call.bind
  | @exponent sign op a b left base isPower =>
      have shorter := base.length_le
      simp only [List.length_cons, Symbol.slack] at enough shorter
      have exponent := factor_faults fuel inner (by omega)
      have reached : (application (rule fuel) fuel).Reaches a left (sign :: b) :=
        base.accepts enough
      have raised : ∀ limit, (chainFrom powerOp? (rule fuel .factor) (limit + 1) left).Faults
          (sign :: b) := by
        intro limit
        refine .after .current ?_
        rw [isPower]
        exact .after .advance exponent.call.bind
      obtain ⟨limit, isLimit⟩ : ∃ below, fuel = below + 1 := ⟨fuel - 1, by omega⟩
      have loop := raised limit
      rw [← isLimit] at loop
      exact .after reached.call loop

theorem application_abandoned (visits : Visits .application a s b) (inner : Abandoned s b) :
    Abandoned .application a := by
  intro fuel enough
  cases visits with
  | callee =>
      have whole : (atom (rule fuel) fuel).Faults a := inner fuel enough
      exact whole.call.bind
  | arguments opening called nonempty =>
      have shorter := called.length_le
      simp only [List.length_cons, Symbol.slack] at enough shorter
      have reached : (atom (rule fuel) fuel).Reaches a _ _ := called.accepts enough
      refine .after reached.call (.after .lexeme (.after .advance (.after .lexeme ?_)))
      split
      · contradiction
      · rcases inner fuel (by simp only [List.length_cons, Symbol.slack]; omega) with
          faults | ⟨first, c, head, others⟩
        · exact faults.observe.bind.bind
        · exact .after (firstArgument_reaches head)
            (others fuel (by simp only [List.length_cons]; omega)).bind

theorem items_abandoned (visits : Visits .items a s b) (inner : Abandoned s b) :
    Abandoned .items a := by
  intro fuel enough
  simp only [Symbol.slack] at enough
  cases visits with
  | item => exact Or.inl (expression_faults fuel inner (by omega))
  | moreItems head =>
      have shorter := head.length_le
      have others := inner fuel (by simp only [Symbol.slack]; omega)
      exact Or.inr ⟨_, b, head.rule_reaches (by omega), fun limit long => others limit (by omega)⟩

theorem moreItems_abandoned (visits : Visits .moreItems a s b) (inner : Abandoned s b) :
    Abandoned .moreItems a := by
  intro fuel enough limit long
  cases visits with
  | nextItem comma =>
      simp only [List.length_cons, Symbol.slack] at enough long
      obtain ⟨limit, rfl⟩ : ∃ below, limit = below + 1 := ⟨limit - 1, by omega⟩
      refine .after .lexeme (.after .advance ?_)
      rcases inner fuel (by simp only [Symbol.slack]; omega) with
        faults | ⟨first, c, head, others⟩
      · exact faults.call.bind
      · exact .after head.call (others limit (by omega)).bind

theorem atom_abandoned (visits : Visits .atom a s b) (inner : Abandoned s b) :
    Abandoned .atom a := by
  intro fuel enough
  cases visits with
  | parenthesised opening =>
      simp only [List.length_cons, Symbol.slack] at enough
      have inside := expression_faults fuel inner (by omega)
      exact .after .current (.after .advance inside.call.bind)
  | list opening a nonempty =>
      simp only [List.length_cons, Symbol.slack] at enough
      refine .after .current (.call (.after .current (.after (.expect rfl) (.after .lexeme ?_))))
      split
      · contradiction
      · rcases inner fuel (by simp only [List.length_cons, Symbol.slack]; omega) with
          faults | ⟨first, c, head, others⟩
        · exact (faults.callOr _).bind
        · exact .after (head.callOr _) (others fuel (by simp only [List.length_cons]; omega)).bind
  | branch word =>
      have whole := inner fuel enough fuel (by omega)
      exact .after .current (.call whole.call.bind)
  | forEach forWord eachWord inWord span listSpan text list =>
      simp only [List.length_cons, Symbol.slack] at enough
      have body := braces_faults fuel inner (by omega)
      exact .after .current (.call (.after keyword_reaches (.after keyword_reaches
        (.after name_reaches (.after keyword_reaches (.after name_reaches body.bind))))))
  | whileGuard word =>
      simp only [List.length_cons, Symbol.slack] at enough
      have guard := condition_faults fuel inner (by omega)
      exact .after .current (.call (.after keyword_reaches guard.bind))
  | whileBody word guard =>
      have shorter := guard.length_le
      simp only [List.length_cons, Symbol.slack] at enough
      have test := condition_reaches_of_reads fuel guard (by omega)
      have body := braces_faults fuel inner (by omega)
      exact .after .current (.call (.after keyword_reaches (.after test body.bind)))
  | untilGuard word untilWord =>
      simp only [List.length_cons, Symbol.slack] at enough
      have guard := condition_faults fuel inner (by omega)
      exact .after .current (.call (.after keyword_reaches (.after .lexeme
        (.after .advance guard.bind))))
  | untilBody word untilWord guard =>
      have shorter := guard.length_le
      simp only [List.length_cons, Symbol.slack] at enough
      have test := condition_reaches_of_reads fuel guard (by omega)
      have body := braces_faults fuel inner (by omega)
      exact .after .current (.call (.after keyword_reaches (.after .lexeme
        (.after .advance (.after test body.bind)))))
  | repeatFixed word span timesWord count =>
      simp only [List.length_cons, Symbol.slack] at enough
      have body := braces_faults fuel inner (by omega)
      exact .after .current (.call (.after keyword_reaches (.after .lexeme (.after .current
        (.after .advance (.after keyword_reaches body.bind))))))
  | repeatBy word span timesWord text =>
      simp only [List.length_cons, Symbol.slack] at enough
      have body := braces_faults fuel inner (by omega)
      exact .after .current (.call (.after keyword_reaches (.after .lexeme (.after .current
        (.after .advance (.after keyword_reaches body.bind))))))
  | procedure word span opening text listed =>
      have shorter := listed.length_le
      simp only [List.length_cons, Symbol.slack] at enough
      have names : (parameters fuel : Rule (List Name)).Reaches _ _ b :=
        parameters_reaches listed (by omega)
      have body := braces_faults fuel inner (by omega)
      exact .after .current (.call (.after keyword_reaches (.after .lexeme (.after name_reaches
        (.after (.expect rfl) (.after names body.bind))))))
  | anonymous word opening listed =>
      have shorter := listed.length_le
      simp only [List.length_cons, Symbol.slack] at enough
      have names : (parameters fuel : Rule (List Name)).Reaches _ _ b :=
        parameters_reaches listed (by omega)
      have body := braces_faults fuel inner (by omega)
      exact .after .current (.call (.after keyword_reaches (.after .lexeme
        (.after (.expect rfl) (.after names body.bind)))))

theorem condition_abandoned (visits : Visits .condition a s b) (inner : Abandoned s b) :
    Abandoned .condition a := by
  intro fuel enough
  cases visits with
  | condition opening =>
      simp only [List.length_cons, Symbol.slack] at enough
      have inside := expression_faults fuel inner (by omega)
      exact .after (.expect rfl) inside.call.bind

theorem braces_abandoned (visits : Visits .braces a s b) (inner : Abandoned s b) :
    Abandoned .braces a := by
  intro fuel enough
  cases visits with
  | braces opening lines =>
      have shorter := length_le_of_pastNewlines lines
      simp only [List.length_cons, Symbol.slack] at enough shorter
      have inside := rule_faults fuel .block inner
        (by simp only [Category.symbol, Symbol.slack]; omega)
      exact .after (.skipNewlines lines) (.after (.expect rfl) inside.call.bind)

theorem cases_abandoned {word : Keyword} (visits : Visits (.cases word) a s b)
    (inner : Abandoned s b) : Abandoned (.cases word) a := by
  intro fuel enough limit long
  have starts : ∀ span a, Reaches (expect (Lexeme.isKeyword word) (.branch word.word))
      (⟨.keyword word, span⟩ :: a) () a := fun _ _ => .expect (by simp [Lexeme.isKeyword])
  cases visits with
  | guard span =>
      simp only [List.length_cons, Symbol.slack] at enough long
      obtain ⟨limit, rfl⟩ : ∃ below, limit = below + 1 := ⟨limit - 1, by omega⟩
      have guard := condition_faults fuel inner (by omega)
      exact .after (starts span _) guard.bind
  | body span guard =>
      have shorter := guard.length_le
      simp only [List.length_cons, Symbol.slack] at enough long
      obtain ⟨limit, rfl⟩ : ∃ below, limit = below + 1 := ⟨limit - 1, by omega⟩
      have test := condition_reaches_of_reads fuel guard (by omega)
      have body := braces_faults fuel inner (by omega)
      exact .after (starts span _) (.after test body.bind)
  | elifCase span guard inside lines isElif =>
      have shorter := guard.length_le
      have shorter' := inside.length_le
      have shorter'' := length_le_of_pastNewlines lines
      simp only [List.length_cons, Symbol.slack] at enough long shorter''
      obtain ⟨limit, rfl⟩ : ∃ below, limit = below + 1 := ⟨limit - 1, by omega⟩
      have test := condition_reaches_of_reads fuel guard (by omega)
      have body := braces_reaches_of_reads fuel inside (by omega)
      have others := inner fuel (by simp only [List.length_cons, Symbol.slack]; omega) limit
        (by simp only [List.length_cons]; omega)
      refine .after (starts span _) (.after test (.after body (.after (.skipNewlines lines)
        (.after .lexeme ?_))))
      rw [if_pos isElif]
      exact others.call.bind
  | elseCase span elseWord guard inside lines =>
      have shorter := guard.length_le
      have shorter' := inside.length_le
      have shorter'' := length_le_of_pastNewlines lines
      simp only [List.length_cons, Symbol.slack] at enough long shorter''
      obtain ⟨limit, rfl⟩ : ∃ below, limit = below + 1 := ⟨limit - 1, by omega⟩
      have test := condition_reaches_of_reads fuel guard (by omega)
      have body := braces_reaches_of_reads fuel inside (by omega)
      have other := braces_faults fuel inner (by omega)
      exact .after (starts span _) (.after test (.after body (.after (.skipNewlines lines)
        (.after .lexeme (.bind (.call (.after .lexeme (.after .advance other.bind))))))))

theorem statement_abandoned (visits : Visits .statement a s b) (inner : Abandoned s b) :
    Abandoned .statement a := by
  intro fuel enough
  simp only [Symbol.slack] at enough
  cases visits with
  | returned word =>
      simp only [List.length_cons] at enough
      have value := expression_faults fuel inner (by omega)
      exact .after .current (.after .advance value.attempt.bind)
  | evaluated a noWord =>
      have whole := expression_faults fuel inner (by omega)
      refine .after .current ?_
      simp only [noWord .returnWord (by simp), noWord .continueWord (by simp),
        noWord .breakWord (by simp), Bool.false_eq_true, if_false]
      exact whole.callOr _

theorem block_abandoned (visits : Visits .block a s b) (ended : Ended b) (inner : Abandoned s b) :
    Abandoned .block a := by
  intro fuel enough
  simp only [Symbol.slack] at enough
  cases visits with
  | firstStatement lines =>
      have shorter := length_le_of_pastNewlines lines
      have faults : (statement (rule fuel)).Faults b :=
        inner fuel (by simp only [Symbol.slack]; omega)
      obtain _ | ⟨t, b⟩ := b
      · exact ended.elim
      refine ⟨t, b, lines, fun isEnd => ?_, Or.inl faults⟩
      obtain rfl := ended.eq_nil isEnd
      exact faults.not_fails (statement_fails_at_end isEnd (by omega))
  | @moreStatements a _ b node lines head =>
      have shorter := length_le_of_pastNewlines lines
      have shorter' := head.length_le
      obtain ⟨t, rest, rfl, starts⟩ := head.starts
      have others := inner fuel (by simp only [Symbol.slack]; omega)
      refine ⟨t, rest, lines, fun isEnd => ?_, Or.inr ⟨node, b, shorter', ?_, others⟩⟩
      · rw [isEnd] at starts
        cases starts
      · exact head.accepts (by simp only [Symbol.slack]; omega)

theorem moreStatements_abandoned (visits : Visits .moreStatements a s b)
    (inner : Abandoned s b) : Abandoned .moreStatements a := by
  intro fuel enough limit long
  cases visits with
  | nextStatement a isLine =>
      simp only [List.length_cons, Symbol.slack] at enough long
      obtain ⟨t, b, lines, -, alternatives⟩ := inner fuel (by simp only [Symbol.slack]; omega)
      have shorter := length_le_of_pastNewlines lines
      rw [← pastNewlines_line isLine] at lines
      simp only [List.length_cons] at shorter
      obtain ⟨limit, rfl⟩ : ∃ below, limit = below + 1 := ⟨limit - 1, by omega⟩
      constructor
      · refine .after .lexeme ?_
        rw [isLine]
        refine .after (.skipNewlines lines) ?_
        rcases alternatives with faults | ⟨node, c, shorter', reached, others⟩
        · exact faults.attempt.bind
        · simp only [List.length_cons] at shorter'
          exact .after reached.attempt (others limit (by omega)).1.bind
      · refine .after .lexeme ?_
        rw [isLine]
        refine .after (.skipNewlines lines) ?_
        rcases alternatives with faults | ⟨node, c, shorter', reached, others⟩
        · exact faults.observe.bind
        · simp only [List.length_cons] at shorter'
          exact .observed reached fun tally =>
            .after (.register tally) (others limit (by omega)).2.bind

end

/-! ## All rules together -/

theorem abandoned_of_visits {s s' : Symbol} {a b : List Token} (visits : Visits s a s' b)
    (ended : Ended b) (nonempty : b ≠ []) (inner : Abandoned s' b) : Abandoned s a := by
  cases s with
  | expression => exact expression_abandoned visits nonempty inner
  | comparison => exact comparison_abandoned visits inner
  | chain level => exact chain_abandoned visits inner
  | operations level => exact operations_abandoned visits inner
  | factor => exact factor_abandoned visits inner
  | power => exact power_abandoned visits inner
  | application => exact application_abandoned visits inner
  | atom => exact atom_abandoned visits inner
  | items => exact items_abandoned visits inner
  | moreItems => exact moreItems_abandoned visits inner
  | condition => exact condition_abandoned visits inner
  | braces => exact braces_abandoned visits inner
  | cases word => exact cases_abandoned visits inner
  | statement => exact statement_abandoned visits inner
  | block => exact block_abandoned visits ended inner
  | moreStatements => exact moreStatements_abandoned visits inner

/-- A reader that comes to a call without a readable first argument abandons the parse. -/
theorem Breaks.abandoned {s : Symbol} {a : List Token} (breaks : Breaks s a) (ended : Ended a) :
    Abandoned s a := by
  induction breaks with
  | @argument opening t a b callee called nonempty unreadable =>
      intro fuel enough
      have shorter := called.length_le
      simp only [List.length_cons, Symbol.slack] at enough shorter
      have reached : (atom (rule fuel) fuel).Reaches a callee _ := called.accepts enough
      have ended' : Ended (t :: b) :=
        ended.suffix ((List.suffix_cons _ _).trans called.suffix) (List.cons_ne_nil t b)
      refine .after reached.call (.after .lexeme (.after .advance (.after .lexeme ?_)))
      split
      · contradiction
      · exact (firstArgument_faults ended' (by simp only [List.length_cons]; omega) unreadable).bind
  | inside visits breaks ih =>
      have ended' := ended.suffix visits.suffix breaks.ne_nil
      exact abandoned_of_visits visits ended' breaks.ne_nil (ih ended')

/-! ## Programs -/

theorem program_faults {fuel : Nat} {a : List Token} (abandons : Abandons fuel .block a)
    (enough : a.length ≤ fuel) : (program (rule fuel) fuel).Faults a := by
  obtain ⟨t, b, lines, other, alternatives⟩ := abandons
  have shorter := length_le_of_pastNewlines lines
  obtain _ | ⟨first, a⟩ := a
  · cases lines
  refine .bind (.after .current (.after (.skipNewlines lines) (.after .lexeme ?_)))
  split
  · contradiction
  · rcases alternatives with faults | ⟨node, c, shorter', reached, others⟩
    · exact faults.observe.bind.bind
    · have head : (firstStatement (rule fuel)).Reaches (t :: b) node c :=
        .observe reached fun tally => .bind (.register tally) (.pure node)
      exact .after head (others fuel (by omega)).2.bind

/-- A parse ends in a fault exactly if it breaks off at the first argument of a call. -/
theorem parseProgram_eq_fault_iff {tokens : List Token} (ended : Ended tokens) (fault : Fault) :
    parseProgram tokens = .error (.fault fault) ↔
      fault = .unreadableArgument ∧ Breaks .block tokens := by
  have enough : 2 * tokens.length + 1 < bound tokens.length := by unfold bound; omega
  have before : Walk.Before { tokens := tokens.toArray, index := 0 } tokens := ⟨Int.le_refl 0, rfl⟩
  constructor
  · intro parsed
    have blamed := program_blames (bound tokens.length) (by omega) _ before ended
    simp only [parseProgram, List.size_toArray] at parsed
    split at parsed
    · cases parsed
    · cases parsed
    · next fault' run =>
        cases parsed
        rwa [run] at blamed
  · rintro ⟨rfl, breaks⟩
    have abandons := breaks.abandoned ended (bound tokens.length)
      (by simp only [Symbol.slack]; omega)
    have run := program_faults abandons (by omega) _ before
    simp only [parseProgram, List.size_toArray, run]

/-! ## Answers -/

/-- The fault that a piece of work has ended in. -/
def faultOf {α : Type} : Except Stop α → Option Fault
  | .error (.fault fault) => some fault
  | _ => none

theorem eq_of_faultOf {α : Type} {result : Except Stop α} {fault : Fault}
    (found : faultOf result = some fault) : result = .error (.fault fault) := by
  unfold faultOf at found
  split at found
  · cases found
    rfl
  · cases found

theorem answers_of_faultOf {tokens : List Token} (answered : faultOf (parseProgram tokens) = none) :
    (∃ tree, parseProgram tokens = .ok tree) ∨
      ∃ diagnostic, parseProgram tokens = .error (.error diagnostic) := by
  cases parsed : parseProgram tokens with
  | ok tree => exact Or.inl ⟨tree, rfl⟩
  | error stop =>
      cases stop with
      | error diagnostic => exact Or.inr ⟨diagnostic, rfl⟩
      | fault fault =>
          rw [parsed] at answered
          cases answered

/-- The parser answers every text that can be scanned with a tree or with an error, unless it comes
to a call whose first argument cannot be read. -/
theorem parseProgram_answers_iff {source : Source} {tokens : List Token}
    (scanned : source.tokens = .ok tokens) :
    ((∃ tree, parseProgram tokens = .ok tree) ∨
      ∃ diagnostic, parseProgram tokens = .error (.error diagnostic)) ↔ ¬Breaks .block tokens := by
  have faults := parseProgram_eq_fault_iff (Source.ended_tokens scanned)
  constructor
  · intro answers breaks
    have fault := (faults .unreadableArgument).mpr ⟨rfl, breaks⟩
    rcases answers with ⟨tree, parsed⟩ | ⟨diagnostic, parsed⟩
    · rw [parsed] at fault
      cases fault
    · rw [parsed] at fault
      cases fault
  · intro whole
    refine answers_of_faultOf ?_
    cases found : faultOf (parseProgram tokens) with
    | none => rfl
    | some fault => exact absurd ((faults fault).mp (eq_of_faultOf found)).2 whole

/-- A readable first argument, and an operator in the place of the second. -/
theorem parseProgram_answers_second : ∃ tokens, (⟨"", "f(1, *)"⟩ : Source).tokens = .ok tokens ∧
    ¬Breaks .block tokens := by
  obtain ⟨tokens, scanned⟩ := exists_of_isOk (⟨"", "f(1, *)"⟩ : Source).tokens (by decide +kernel)
  have answered : faultOf (⟨"", "f(1, *)"⟩ : Source).parse = none := by decide +kernel
  rw [Source.parse, scanned] at answered
  exact ⟨tokens, scanned, (parseProgram_answers_iff scanned).mp (answers_of_faultOf answered)⟩

/-- An operator in the place of the first argument. -/
theorem parseProgram_unreadable : ∃ tokens, (⟨"", "f(*)"⟩ : Source).tokens = .ok tokens ∧
    parseProgram tokens = .error (.fault .unreadableArgument) := by
  obtain ⟨tokens, scanned⟩ := exists_of_isOk (⟨"", "f(*)"⟩ : Source).tokens (by decide +kernel)
  have parsed : faultOf (⟨"", "f(*)"⟩ : Source).parse = some .unreadableArgument := by
    decide +kernel
  rw [Source.parse, scanned] at parsed
  exact ⟨tokens, scanned, eq_of_faultOf parsed⟩

end Grammar
end Pseudocode
