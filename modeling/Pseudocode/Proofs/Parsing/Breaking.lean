import Pseudocode.Proofs.Parsing.Soundness

/-!
# Where a parse breaks off

The first argument of a call is special: if no expression can be read there, the parser does not
report an error but breaks off with a fault.  `Visits` says, in terms of readings only, what a
reader comes to read on its way through a phrase, and `Breaks` that it comes to such an argument.

The rules of the grammar break off nowhere else.  In particular the bound on the nesting is never
used up: a rule that stands before `n` tokens needs at most `2 * n + 1` levels, also where nothing
can be read.
-/

namespace Pseudocode
namespace Grammar

/-- On its way through a phrase of the first kind before the first tokens, a reader comes to read a
phrase of the second kind before the second ones. -/
inductive Visits : Symbol → List Token → Symbol → List Token → Prop where
  | assigned (text : String) (span sign : Span) (a : List Token) :
      Visits .expression (⟨.name text, span⟩ :: ⟨.assign, sign⟩ :: a) .expression a
  | logical {a : List Token} (plain : assigns a = false) :
      Visits .expression a (.chain .logical) a
  | negated (word : Span) (a : List Token) :
      Visits .comparison (⟨.keyword .notWord, word⟩ :: a) .comparison a
  | comparing {t : Token} (a : List Token) (noNot : t.isKeyword .notWord = false) :
      Visits .comparison (t :: a) (.chain .comparison) (t :: a)
  | operand (level : Level) (a : List Token) : Visits (.chain level) a level.operand a
  | operations {level : Level} {a b : List Token} {left : Node}
      (first : Reads level.operand a (.node left) b) :
      Visits (.chain level) a (.operations level) b
  | further {level : Level} (sign : Token) {op : BinaryOp} (a : List Token)
      (isOperator : level.operator? sign.lexeme = some op) :
      Visits (.operations level) (sign :: a) (.chain level) a
  | signed (sign : Token) {op : UnaryOp} (a : List Token)
      (isSign : signOp? sign.lexeme = some op) : Visits .factor (sign :: a) .factor a
  | unsigned {t : Token} (a : List Token) (noSign : signOp? t.lexeme = none) :
      Visits .factor (t :: a) .power (t :: a)
  | base (a : List Token) : Visits .power a .application a
  | exponent (sign : Token) {op : BinaryOp} {a b : List Token} {left : Node}
      (base : Reads .application a (.node left) (sign :: b))
      (isPower : powerOp? sign.lexeme = some op) : Visits .power a .factor b
  | callee (a : List Token) : Visits .application a .atom a
  | arguments (opening : Span) {t : Token} {a b : List Token} {callee : Node}
      (called : Reads .atom a (.node callee) (⟨.leftParen, opening⟩ :: t :: b))
      (nonempty : t.lexeme ≠ .rightParen) : Visits .application a .items (t :: b)
  | item (a : List Token) : Visits .items a .expression a
  | moreItems {a b : List Token} {first : Node} (head : Reads .expression a (.node first) b) :
      Visits .items a .moreItems b
  | nextItem (comma : Span) (a : List Token) :
      Visits .moreItems (⟨.comma, comma⟩ :: a) .items a
  | parenthesised (opening : Span) (a : List Token) :
      Visits .atom (⟨.leftParen, opening⟩ :: a) .expression a
  | list (opening : Span) {t : Token} (a : List Token) (nonempty : t.lexeme ≠ .rightBracket) :
      Visits .atom (⟨.leftBracket, opening⟩ :: t :: a) .items (t :: a)
  | branch (word : Span) (a : List Token) :
      Visits .atom (⟨.keyword .ifWord, word⟩ :: a) (.cases .ifWord)
        (⟨.keyword .ifWord, word⟩ :: a)
  | forEach (forWord eachWord inWord span listSpan : Span) (text list : String) (a : List Token) :
      Visits .atom
        (⟨.keyword .forWord, forWord⟩ :: ⟨.keyword .eachWord, eachWord⟩ :: ⟨.name text, span⟩ ::
          ⟨.keyword .inWord, inWord⟩ :: ⟨.name list, listSpan⟩ :: a) .braces a
  | whileGuard (word : Span) (a : List Token) :
      Visits .atom (⟨.keyword .whileWord, word⟩ :: a) .condition a
  | whileBody (word : Span) {a b : List Token} {test : Node}
      (guard : Reads .condition a (.node test) b) :
      Visits .atom (⟨.keyword .whileWord, word⟩ :: a) .braces b
  | untilGuard (word untilWord : Span) (a : List Token) :
      Visits .atom (⟨.keyword .repeatWord, word⟩ :: ⟨.keyword .untilWord, untilWord⟩ :: a)
        .condition a
  | untilBody (word untilWord : Span) {a b : List Token} {test : Node}
      (guard : Reads .condition a (.node test) b) :
      Visits .atom (⟨.keyword .repeatWord, word⟩ :: ⟨.keyword .untilWord, untilWord⟩ :: a)
        .braces b
  | repeatFixed (word span timesWord : Span) (count : Nat) (a : List Token) :
      Visits .atom
        (⟨.keyword .repeatWord, word⟩ :: ⟨.int count, span⟩ ::
          ⟨.keyword .timesWord, timesWord⟩ :: a) .braces a
  | repeatBy (word span timesWord : Span) (text : String) (a : List Token) :
      Visits .atom
        (⟨.keyword .repeatWord, word⟩ :: ⟨.name text, span⟩ ::
          ⟨.keyword .timesWord, timesWord⟩ :: a) .braces a
  | procedure (word span opening : Span) (text : String) {a b : List Token} {names : List Name}
      (listed : ReadsParameters a names b) :
      Visits .atom
        (⟨.keyword .procedureWord, word⟩ :: ⟨.name text, span⟩ :: ⟨.leftParen, opening⟩ :: a)
        .braces b
  | anonymous (word opening : Span) {a b : List Token} {names : List Name}
      (listed : ReadsParameters a names b) :
      Visits .atom (⟨.keyword .procedureWord, word⟩ :: ⟨.leftParen, opening⟩ :: a) .braces b
  | condition (opening : Span) (a : List Token) :
      Visits .condition (⟨.leftParen, opening⟩ :: a) .expression a
  | braces (opening : Span) {a b : List Token}
      (lines : pastNewlines a = ⟨.leftBrace, opening⟩ :: b) : Visits .braces a .block b
  | guard {word : Keyword} (span : Span) (a : List Token) :
      Visits (.cases word) (⟨.keyword word, span⟩ :: a) .condition a
  | body {word : Keyword} (span : Span) {a b : List Token} {test : Node}
      (guard : Reads .condition a (.node test) b) :
      Visits (.cases word) (⟨.keyword word, span⟩ :: a) .braces b
  | elifCase {word : Keyword} (span : Span) {next : Token} {a b c d : List Token}
      {test body : Node} (guard : Reads .condition a (.node test) b)
      (inside : Reads .braces b (.node body) c) (lines : pastNewlines c = next :: d)
      (isElif : next.lexeme.isKeyword .elifWord = true) :
      Visits (.cases word) (⟨.keyword word, span⟩ :: a) (.cases .elifWord) (next :: d)
  | elseCase {word : Keyword} (span elseWord : Span) {a b c d : List Token} {test body : Node}
      (guard : Reads .condition a (.node test) b) (inside : Reads .braces b (.node body) c)
      (lines : pastNewlines c = ⟨.keyword .elseWord, elseWord⟩ :: d) :
      Visits (.cases word) (⟨.keyword word, span⟩ :: a) .braces d
  | returned (word : Span) (a : List Token) :
      Visits .statement (⟨.keyword .returnWord, word⟩ :: a) .expression a
  | evaluated {t : Token} (a : List Token)
      (noWord : ∀ word ∈ [Keyword.returnWord, .continueWord, .breakWord],
        t.isKeyword word = false) :
      Visits .statement (t :: a) .expression (t :: a)
  | firstStatement {a b : List Token} (lines : pastNewlines a = b) :
      Visits .block a .statement b
  | moreStatements {a b c : List Token} {node : Node} (lines : pastNewlines a = b)
      (head : Reads .statement b (.node node) c) : Visits .block a .moreStatements c
  | nextStatement {line : Token} (a : List Token) (isLine : line.lexeme = .newline) :
      Visits .moreStatements (line :: a) .block a

/-- On its way through a phrase, a reader comes to a call whose first argument cannot be read. -/
inductive Breaks : Symbol → List Token → Prop where
  | argument (opening : Span) {t : Token} {a b : List Token} {callee : Node}
      (called : Reads .atom a (.node callee) (⟨.leftParen, opening⟩ :: t :: b))
      (nonempty : t.lexeme ≠ .rightParen)
      (unreadable : ∀ node c, ¬Reads .expression (t :: b) (.node node) c) : Breaks .application a
  | inside {s s' : Symbol} {a b : List Token} (visits : Visits s a s' b) (breaks : Breaks s' b) :
      Breaks s a

end Grammar

open Grammar

/-- An outcome that is a fault only if the parse breaks off at an argument. -/
def Outcome.Blames {α : Type} (broken : Prop) : Outcome α → Prop
  | .ok _ _ => True
  | .error _ _ => True
  | .fault reason => reason = .unreadableArgument ∧ broken

namespace Rule

variable {α β : Type}

/-- A rule that, before the given tokens, ends in a fault only if the parse breaks off at an
argument. -/
def Blames (rule : Rule α) (a : List Token) (broken : Prop) : Prop :=
  ∀ w : Walk, w.Before a → Ended a → (rule w).Blames broken

/-- A rule that never ends in a fault. -/
def Harmless (rule : Rule α) : Prop :=
  ∀ (w : Walk) (broken : Prop), (rule w).Blames broken

theorem Harmless.blames {rule : Rule α} {a : List Token} {broken : Prop}
    (harmless : rule.Harmless) : rule.Blames a broken :=
  fun w _ _ => harmless w broken

theorem Harmless.bind {rule : Rule α} {next : α → Rule β} (first : rule.Harmless)
    (second : ∀ x, (next x).Harmless) : (rule >>= next).Harmless := by
  intro w broken
  have blamed := first w broken
  simp only [Bind.bind]
  cases run : rule w with
  | ok x after => exact second x after broken
  | error diagnostic after => trivial
  | fault fault => rwa [run] at blamed

theorem blames_bind_of_ok {rule : Rule α} {next : α → Rule β} {w after : Walk} {x : α}
    {broken : Prop} (run : rule w = .ok x after) (rest : (next x after).Blames broken) :
    ((rule >>= next) w).Blames broken := by
  rw [bind_of_ok run]
  exact rest

theorem harmless_pure (x : α) : (pure x : Rule α).Harmless :=
  fun _ _ => trivial

theorem harmless_raise (diagnostic : Diagnostic) : (raise diagnostic : Rule α).Harmless :=
  fun _ _ => trivial

theorem harmless_lexeme : lexeme.Harmless :=
  fun _ _ => trivial

theorem harmless_current : Rule.current.Harmless :=
  fun _ _ => trivial

theorem harmless_rewind : rewind.Harmless :=
  fun _ _ => trivial

theorem harmless_register (tally : Tally) : (register tally).Harmless :=
  fun _ _ => trivial

theorem harmless_expect (matching : Lexeme → Bool) (what : Expectation) :
    (expect matching what : Rule Unit).Harmless := by
  refine harmless_lexeme.bind fun l => ?_
  split
  · exact fun _ _ => trivial
  · exact fun _ _ => trivial

theorem harmless_skipNewlines : (skipNewlines : Rule Unit).Harmless := by
  have within : ∀ fuel, (skipNewlinesWithin fuel : Rule Unit).Harmless := by
    intro fuel
    induction fuel with
    | zero => exact harmless_pure ()
    | succ fuel ih =>
        refine harmless_lexeme.bind fun l => ?_
        split
        · exact Harmless.bind (fun _ _ => trivial) fun _ => ih
        · exact harmless_pure ()
  exact fun w => within (w.tokens.size + 1) w

namespace Blames

variable {a b : List Token} {t : Token} {broken : Prop} {reads : α → List Token → Prop}
  {stray : Lexeme → Prop}

theorem nil {rule : Rule α} : rule.Blames [] broken :=
  fun _ _ ended => ended.elim

theorem mono {rule : Rule α} {wider : Prop} (blames : rule.Blames a broken)
    (weaker : broken → wider) : rule.Blames a wider := by
  intro w before ended
  have blamed := blames w before ended
  cases run : rule w with
  | ok x after => trivial
  | error diagnostic after => trivial
  | fault fault =>
      rw [run] at blamed
      exact ⟨blamed.1, weaker blamed.2⟩

theorem pure (x : α) : (pure x : Rule α).Blames a broken :=
  fun _ _ _ => trivial

theorem fail (what : Expectation) : (Rule.fail what : Rule α).Blames a broken :=
  fun _ _ _ => trivial

/-- After a rule that may have gone astray, what follows has to be harmless where it stands. -/
theorem bindStray {rule : Rule α} {next : α → Rule β} (traced : rule.Traced a reads stray)
    (first : rule.Blames a broken) (second : ∀ x b, reads x b → (next x).Blames b broken)
    (astray : ∀ x w, stray w.current.lexeme → (next x w).Blames broken) :
    (rule >>= next).Blames a broken := by
  intro w before ended
  have traced := traced w before ended
  have blamed := first w before ended
  simp only [Bind.bind]
  cases run : rule w with
  | ok x after =>
      rw [run] at traced
      rcases traced with ⟨b, read, follows⟩ | ⟨-, stands⟩
      · exact second x b read after follows.before follows.ended
      · exact astray x after stands
  | error diagnostic after => trivial
  | fault fault => rwa [run] at blamed

theorem bind {rule : Rule α} {next : α → Rule β} (sound : rule.Sound a reads)
    (first : rule.Blames a broken) (second : ∀ x b, reads x b → (next x).Blames b broken) :
    (rule >>= next).Blames a broken :=
  bindStray sound first second fun _ _ stands => stands.elim

/-- Before what never ends in a fault, it does not matter where the walk stands. -/
theorem andThen {rule : Rule α} {next : α → Rule β} (first : rule.Blames a broken)
    (second : ∀ x, (next x).Harmless) : (rule >>= next).Blames a broken := by
  intro w before ended
  have blamed := first w before ended
  simp only [Bind.bind]
  cases run : rule w with
  | ok x after => exact second x after broken
  | error diagnostic after => trivial
  | fault fault => rwa [run] at blamed

/-- A rule that is known to succeed. -/
theorem after {rule : Rule α} {next : α → Rule β} {x : α} (reached : rule.Reaches a x b)
    (ends : Ended a → Ended b) (rest : (next x).Blames b broken) :
    (rule >>= next).Blames a broken := by
  intro w before ended
  obtain ⟨middle, run, between, -⟩ := reached w before
  rw [bind_of_ok run]
  exact rest middle between (ends ended)

theorem current {next : Token → Rule β} (rest : (next t).Blames (t :: a) broken) :
    (Rule.current >>= next).Blames (t :: a) broken :=
  after .current id rest

theorem lexeme {next : Lexeme → Rule β} (rest : (next t.lexeme).Blames (t :: a) broken) :
    (Rule.lexeme >>= next).Blames (t :: a) broken :=
  after .lexeme id rest

theorem advance {next : Unit → Rule β} (other : t.lexeme ≠ .eof)
    (rest : (next ()).Blames a broken) : (Rule.advance >>= next).Blames (t :: a) broken :=
  after .advance (fun ended => ended.tail other) rest

theorem expect (kind : Lexeme) {matching : Lexeme → Bool} {what : Expectation}
    {next : Unit → Rule β} (only : ∀ l, matching l = true → l = kind) (other : kind ≠ .eof)
    (rest : ∀ span, t = ⟨kind, span⟩ → (next ()).Blames a broken) :
    (Rule.expect matching what >>= next).Blames (t :: a) broken := by
  by_cases found : matching t.lexeme = true
  · have same := only _ found
    refine after (.expect found) (fun ended => ended.tail (same ▸ other)) ?_
    exact rest t.span (by rw [← same])
  · intro w before _
    have seen : matching w.current.lexeme = false := by
      rw [w.current_of_before before]
      exact eq_false_of_ne_true found
    rw [bind_of_error next (expect_error seen)]
    trivial

theorem keyword (word : Keyword) {next : Unit → Rule β}
    (rest : ∀ span, t = ⟨.keyword word, span⟩ → (next ()).Blames a broken) :
    (Grammar.keyword word >>= next).Blames (t :: a) broken :=
  expect (.keyword word) (fun _ => isKeyword_iff.mp) Lexeme.noConfusion rest

theorem skipNewlines {next : Unit → Rule β}
    (rest : ∀ t b, pastNewlines a = t :: b → (next ()).Blames (t :: b) broken) :
    (Rule.skipNewlines >>= next).Blames a broken := by
  intro w before ended
  obtain ⟨t, b, lines, ended', -⟩ := ended.exists_pastNewlines
  exact after (.skipNewlines lines) (fun _ => ended') (rest t b lines) w before ended

/-- A rule that is called with a tally of its own ends in the fault that it ends in alone. -/
theorem observe {rule : Rule α} (blames : rule.Blames a broken) :
    (Rule.observe rule).Blames a broken := by
  intro w before ended
  have blamed := blames { w with tally := {} } before ended
  simp only [Rule.observe]
  cases run : rule { w with tally := {} } with
  | ok x after => trivial
  | error diagnostic after => trivial
  | fault fault => rwa [run] at blamed

theorem call {rule : Rule α} (blames : rule.Blames a broken) :
    (Rule.call rule).Blames a broken := by
  refine blames.observe.andThen fun ⟨result, tally⟩ => ?_
  refine (harmless_register tally).bind fun _ => ?_
  cases result with
  | ok x => exact harmless_pure x
  | error diagnostic => exact harmless_raise diagnostic

theorem callOr {rule : Rule α} (replacement : Walk → Diagnostic) (blames : rule.Blames a broken) :
    (Rule.callOr rule replacement).Blames a broken := by
  refine blames.observe.andThen fun ⟨result, tally⟩ => ?_
  refine (harmless_register tally).bind fun _ => ?_
  cases result with
  | ok x => exact harmless_pure x
  | error diagnostic =>
      by_cases counted : tally.taken = 0
      · simp only [counted]
        exact fun _ _ => trivial
      · simp only [counted]
        exact harmless_raise diagnostic

theorem attempt {rule : Rule α} (blames : rule.Blames a broken) :
    (Rule.attempt rule).Blames a broken := by
  refine blames.observe.andThen fun ⟨result, tally⟩ => ?_
  cases result with
  | ok x => exact (harmless_register tally).bind fun _ => harmless_pure (some x)
  | error diagnostic =>
      exact Harmless.bind (fun _ _ => trivial) fun _ => harmless_pure none

/-- A rule that is watched and may have gone astray: after its success, what follows has to be
harmless where it stands, and after its error wherever it stands. -/
theorem observeThen {rule : Rule α} {next : Except Diagnostic α × Tally → Rule β}
    (traced : rule.Traced a reads stray) (first : rule.Blames a broken)
    (second : ∀ x tally b, reads x b → (next (.ok x, tally)).Blames b broken)
    (astray : ∀ x tally w, stray w.current.lexeme → (next (.ok x, tally) w).Blames broken)
    (failed : ∀ diagnostic tally, (next (.error diagnostic, tally)).Harmless) :
    (Rule.observe rule >>= next).Blames a broken := by
  intro w before ended
  have traced := traced { w with tally := {} } before ended
  have blamed := first { w with tally := {} } before ended
  simp only [Rule.observe, Bind.bind]
  cases run : rule { w with tally := {} } with
  | ok x after =>
      rw [run] at traced
      rcases traced with ⟨b, read, follows⟩ | ⟨-, stands⟩
      · exact second x after.tally b read _ follows.before follows.ended
      · exact astray x after.tally _ stands
  | error diagnostic after => exact failed diagnostic after.tally _ broken
  | fault fault => rwa [run] at blamed

theorem attemptThen {rule : Rule α} {next : Option α → Rule β}
    (traced : rule.Traced a reads stray) (first : rule.Blames a broken)
    (second : ∀ x b, reads x b → (next (some x)).Blames b broken)
    (astray : ∀ x w, stray w.current.lexeme → (next (some x) w).Blames broken)
    (failed : (next none).Harmless) : (Rule.attempt rule >>= next).Blames a broken := by
  rw [Rule.attempt, bind_assoc]
  refine observeThen traced first (fun x tally b read => ?_) (fun x tally w stands => ?_)
    fun diagnostic tally => ?_
  · rw [bind_assoc]
    exact after (.register tally) id (second x b read)
  · exact astray x _ stands
  · rw [bind_assoc]
    exact Harmless.bind (fun _ _ => trivial) fun _ => failed

end Blames

end Rule
end Pseudocode
