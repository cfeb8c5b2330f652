import Pseudocode.Proofs.Parsing.Reading

/-!
# Walks before a list of tokens

A walk stands before the tokens from its current one to the end of the array.  The rules of the
grammar only look at these tokens, so a walk can be described by their list: `Walk.Before`.  Reading
a truth value changes the array, but only behind the walk.
-/

namespace Pseudocode

namespace Walk

/-- The tokens from the current one to the end of the array. -/
def Before (w : Walk) (tokens : List Token) : Prop :=
  0 ≤ w.index ∧ w.tokens.toList.drop w.index.toNat = tokens

theorem tokenAt_of_before {w : Walk} {a : List Token} {k : Nat} {t : Token} (before : w.Before a)
    (found : a[k]? = some t) : w.tokenAt (w.index + k) = t := by
  obtain ⟨nonneg, rfl⟩ := before
  rw [List.getElem?_drop, Array.getElem?_toList] at found
  have inside : w.index.toNat + k < w.tokens.size := (Array.getElem?_eq_some_iff.mp found).1
  have slot_eq : w.slot (w.index + k) = w.index.toNat + k := by
    unfold slot
    split <;> omega
  rw [tokenAt, slot_eq, Array.getD_eq_getD_getElem?, found]
  rfl

theorem current_of_before {w : Walk} {t : Token} {a : List Token} (before : w.Before (t :: a)) :
    w.current = t := by
  simpa [current] using tokenAt_of_before before (k := 0) rfl

theorem following_of_before {w : Walk} {t u : Token} {a : List Token}
    (before : w.Before (t :: u :: a)) : w.following = u :=
  tokenAt_of_before before (k := 1) rfl

/-- The walk one token further on. -/
theorem before_next {w : Walk} {t : Token} {a : List Token} (before : w.Before (t :: a))
    (tally : Tally) : Before { w with index := w.index + 1, tally := tally } a := by
  obtain ⟨nonneg, parts⟩ := before
  refine ⟨by simp only; omega, ?_⟩
  have step : (w.index + 1).toNat = w.index.toNat + 1 := by omega
  simp only [step]
  rw [← List.tail_drop, parts]
  rfl

/-- The length of what is left says where a walk stands. -/
theorem index_of_before {w : Walk} {t : Token} {a : List Token} (before : w.Before (t :: a)) :
    w.index + (t :: a).length = w.tokens.size := by
  obtain ⟨nonneg, parts⟩ := before
  have lengths := congrArg List.length parts
  simp only [List.length_drop, Array.length_toList, List.length_cons] at lengths ⊢
  omega

/-- The walk one token further back. -/
theorem before_back {w after : Walk} {t u : Token} {a b : List Token}
    (before : w.Before (a ++ t :: u :: b)) (stop : after.Before (u :: b))
    (tokens : after.tokens = w.tokens) (tally : Tally) :
    Before { after with index := after.index - 1, tally := tally } (t :: u :: b) := by
  have position := index_of_before stop
  have start := congrArg List.length before.2
  have nonneg := before.1
  simp only [List.length_drop, Array.length_toList, List.length_append, List.length_cons, tokens]
    at start position
  have back : (after.index - 1).toNat = w.index.toNat + a.length := by omega
  refine ⟨by simp only; omega, ?_⟩
  simp only [back, tokens]
  rw [← List.drop_drop, before.2, List.drop_left]

/-- Behind the last token there is only the last token again. -/
theorem following_of_last {w : Walk} {t : Token} (before : w.Before [t]) : w.following = t := by
  have position := index_of_before before
  have nonneg := before.1
  have slot_eq : w.slot (w.index + 1) = w.slot w.index := by
    simp only [List.length_singleton] at position
    unfold slot
    split <;> split <;> omega
  rw [← current_of_before before, following, tokenAt, slot_eq]
  rfl

/-- The lookahead of an assignment only depends on the tokens ahead. -/
theorem assigns_of_before {w : Walk} {t : Token} {a : List Token} (before : w.Before (t :: a)) :
    (w.current.lexeme.isName && Grammar.isAssign w.following.lexeme) =
      Grammar.assigns (t :: a) := by
  rw [current_of_before before]
  cases a with
  | cons u a =>
      rw [following_of_before before]
      rfl
  | nil =>
      rw [following_of_last before]
      cases t.lexeme <;> rfl

/-- Changing the current token does not change what comes after it. -/
theorem before_retagged {w : Walk} {t : Token} {a : List Token} (before : w.Before (t :: a))
    (token : Token) (tally : Tally) :
    Before { w with
      tokens := w.tokens.setIfInBounds (w.slot w.index) token
      index := w.index + 1
      tally := tally } a := by
  have position := index_of_before before
  obtain ⟨nonneg, parts⟩ := before_next before tally
  have slot_eq : w.slot w.index = w.index.toNat := by
    have nonneg' := before.1
    simp only [List.length_cons] at position
    unfold slot
    split <;> omega
  refine ⟨nonneg, ?_⟩
  have step : (w.index + 1).toNat = w.index.toNat + 1 := by have := before.1; omega
  simp only [step, slot_eq, Array.toList_setIfInBounds] at parts ⊢
  rw [List.drop_set_of_lt (by omega), parts]

end Walk

namespace Rule

variable {α β : Type}

theorem bind_of_ok {rule : Rule α} {next : α → Rule β} {w after : Walk} {x : α}
    (run : rule w = .ok x after) : (rule >>= next) w = next x after := by
  simp only [Bind.bind, run]

theorem bind_of_error {rule : Rule α} (next : α → Rule β) {w after : Walk} {d : Diagnostic}
    (run : rule w = .error d after) : (rule >>= next) w = .error d after := by
  simp only [Bind.bind, run]

theorem bind_eq_ok {rule : Rule α} {next : α → Rule β} {w after : Walk} {y : β}
    (run : (rule >>= next) w = .ok y after) :
    ∃ x middle, rule w = .ok x middle ∧ next x middle = .ok y after := by
  simp only [Bind.bind] at run
  cases first : rule w with
  | ok x middle =>
      rw [first] at run
      exact ⟨x, middle, rfl, run⟩
  | error d middle =>
      rw [first] at run
      cases run
  | fault fault =>
      rw [first] at run
      cases run

theorem expect_error {matching : Lexeme → Bool} {what : Expectation} {w : Walk}
    (other : matching w.current.lexeme = false) :
    (expect matching what : Rule Unit) w = .error (.expected what w.current.span) w :=
  congrFun (if_neg (Bool.eq_false_iff.mp other)) w

section

open Grammar

theorem skipNewlinesWithin_run {fuel : Nat} {w : Walk} {t : Token} {a b : List Token}
    (before : w.Before a) (enough : a.length ≤ fuel) (lines : pastNewlines a = t :: b) :
    ∃ after : Walk, (skipNewlinesWithin fuel : Rule Unit) w = .ok () after ∧ after.Before (t :: b) ∧
      after.tokens = w.tokens ∧
      after.index - after.tally.taken = w.index - w.tally.taken := by
  induction fuel generalizing w a with
  | zero =>
      obtain rfl := List.eq_nil_of_length_eq_zero (Nat.le_zero.mp enough)
      cases lines
  | succ fuel ih =>
      cases a with
      | nil => cases lines
      | cons u a =>
          have seen : lexeme w = .ok u.lexeme w := by rw [lexeme, w.current_of_before before]
          by_cases line : isNewline u = true
          · obtain ⟨after, run, stop, tokens, counted⟩ :=
              ih (Walk.before_next before w.tally.count) (by simpa using enough)
                (by simpa [pastNewlines, line] using lines)
            refine ⟨after, ?_, stop, tokens, ?_⟩
            · rw [skipNewlinesWithin, act_rule, bind_of_ok seen, isNewline_iff.mp line]
              exact run
            · simp only [Tally.count] at counted
              omega
          · have found : u :: a = t :: b := by simpa [pastNewlines, line] using lines
            refine ⟨w, ?_, found ▸ before, rfl, rfl⟩
            rw [skipNewlinesWithin, act_rule, bind_of_ok seen]
            cases same : u.lexeme with
            | newline => exact absurd (isNewline_iff.mpr same) line
            | _ => rfl

/-- Stepping over line ends changes no token and counts every step. -/
theorem skipNewlines_run {w : Walk} {t : Token} {a b : List Token} (before : w.Before a)
    (lines : pastNewlines a = t :: b) :
    ∃ after : Walk, (skipNewlines : Rule Unit) w = .ok () after ∧ after.Before (t :: b) ∧
      after.tokens = w.tokens ∧
      after.index - after.tally.taken = w.index - w.tally.taken := by
  cases a with
  | nil => cases lines
  | cons u a =>
      have position := w.index_of_before before
      have nonneg := before.1
      exact skipNewlinesWithin_run before (by omega) lines

end

/-- A rule that, on every walk before these tokens, succeeds with a result and leaves the walk
before those. -/
def Reaches (rule : Rule α) (a : List Token) (result : α) (b : List Token) : Prop :=
  ∀ w : Walk, w.Before a →
    ∃ after : Walk, rule w = .ok result after ∧ after.Before b ∧ after.tokens.size = w.tokens.size

namespace Reaches

variable {a b c : List Token}

theorem pure (result : α) : Reaches (pure result) a result a :=
  fun w before => ⟨w, rfl, before, rfl⟩

theorem bind {rule : Rule α} {next : α → Rule β} {x : α} {y : β} (first : rule.Reaches a x b)
    (second : (next x).Reaches b y c) : (rule >>= next).Reaches a y c := by
  intro w before
  obtain ⟨middle, run, between, size⟩ := first w before
  obtain ⟨after, run', stop, size'⟩ := second middle between
  exact ⟨after, (bind_of_ok run).trans run', stop, size'.trans size⟩

theorem map {rule : Rule α} {x : α} (f : α → β) (reached : rule.Reaches a x b) :
    (f <$> rule).Reaches a (f x) b := by
  rw [map_eq_pure_bind]
  exact bind reached (pure (f x))

theorem current {t : Token} : Reaches Rule.current (t :: a) t (t :: a) :=
  fun w before => ⟨w, by rw [Rule.current, w.current_of_before before], before, rfl⟩

theorem lexeme {t : Token} : Reaches Rule.lexeme (t :: a) t.lexeme (t :: a) :=
  fun w before => ⟨w, by rw [Rule.lexeme, w.current_of_before before], before, rfl⟩

theorem followingLexeme {t u : Token} :
    Reaches Rule.followingLexeme (t :: u :: a) u.lexeme (t :: u :: a) :=
  fun w before =>
    ⟨w, by rw [Rule.followingLexeme, w.following_of_before before], before, rfl⟩

theorem advance {t : Token} : Reaches Rule.advance (t :: a) () a :=
  fun _ before => ⟨_, rfl, Walk.before_next before _, rfl⟩

theorem takeTruth {t : Token} (value : Bool) : Reaches (Rule.takeTruth value) (t :: a) () a :=
  fun w before => ⟨_, rfl, Walk.before_retagged before _ w.tally.count, by simp⟩

theorem register (called : Tally) : (Rule.register called).Reaches a () a :=
  fun _ before => ⟨_, rfl, before, rfl⟩

/-- A rule that is called with a tally of its own succeeds as it does alone. -/
theorem observe {rule : Rule α} {next : Except Diagnostic α × Tally → Rule β} {x : α} {y : β}
    (reached : rule.Reaches a x b) (rest : ∀ tally, (next (.ok x, tally)).Reaches b y c) :
    (Rule.observe rule >>= next).Reaches a y c := by
  intro w before
  obtain ⟨middle, run, between, size⟩ := reached { w with tally := {} } before
  obtain ⟨after, run', stop, size'⟩ := rest middle.tally { middle with tally := w.tally } between
  refine ⟨after, ?_, stop, size'.trans size⟩
  simp only [Rule.observe, Bind.bind, run, run']

theorem call {rule : Rule α} {x : α} (reached : rule.Reaches a x b) :
    (Rule.call rule).Reaches a x b :=
  observe reached fun tally => bind (register tally) (pure x)

theorem callOr {rule : Rule α} {x : α} (replacement : Walk → Diagnostic)
    (reached : rule.Reaches a x b) : (Rule.callOr rule replacement).Reaches a x b :=
  observe reached fun tally => bind (register tally) (pure x)

theorem attempt {rule : Rule α} {x : α} (reached : rule.Reaches a x b) :
    (Rule.attempt rule).Reaches a (some x) b :=
  observe reached fun tally => bind (register tally) (pure (some x))

theorem expect {t : Token} {matching : Lexeme → Bool} {what : Expectation}
    (found : matching t.lexeme = true) : Reaches (Rule.expect matching what) (t :: a) () a := by
  refine bind lexeme ?_
  rw [if_pos found]
  exact advance

open Grammar in
theorem skipNewlines {t : Token} (lines : pastNewlines a = t :: b) :
    Reaches Rule.skipNewlines a () (t :: b) := by
  intro w before
  obtain ⟨after, run, stop, tokens, -⟩ := skipNewlines_run before lines
  exact ⟨after, run, stop, congrArg Array.size tokens⟩

end Reaches

/-- A rule that fails on every walk before these tokens, without moving and after having counted
this many steps.  If it has counted any, it reports the end of the program. -/
def Fails (rule : Rule α) (a : List Token) (steps : Nat) : Prop :=
  ∀ w : Walk, w.Before a → ∃ diagnostic tally,
    rule w = .error diagnostic { w with tally := tally } ∧
      tally.taken = w.tally.taken + steps ∧
      (steps ≠ 0 → Grammar.isEndOfFile diagnostic = true)

namespace Fails

variable {a : List Token} {steps : Nat} {rule : Rule α}

theorem bind (next : α → Rule β) (fails : rule.Fails a steps) : (rule >>= next).Fails a steps := by
  intro w before
  obtain ⟨diagnostic, tally, run, rest⟩ := fails w before
  exact ⟨diagnostic, tally, bind_of_error next run, rest⟩

/-- A rule that first only looks at something fails if the rest of it does. -/
theorem look {look : Rule β} {next : β → Rule α} {x : β}
    (seen : ∀ w : Walk, w.Before a → look w = .ok x w) (fails : (next x).Fails a steps) :
    (look >>= next).Fails a steps := by
  intro w before
  obtain ⟨diagnostic, tally, run, rest⟩ := fails w before
  exact ⟨diagnostic, tally, (bind_of_ok (seen w before)).trans run, rest⟩

theorem call (fails : rule.Fails a steps) : (Rule.call rule).Fails a steps := by
  intro w before
  obtain ⟨diagnostic, tally, run, taken, reported⟩ := fails { w with tally := {} } before
  refine ⟨diagnostic, w.tally.register tally, ?_, ?_, reported⟩
  · simp only [Rule.call, observe_rule, act_rule, observe, register, Bind.bind, run]
    rfl
  · simp only [Tally.register, taken]
    omega

theorem callOr (replacement : Walk → Diagnostic) (fails : rule.Fails a steps) :
    (Rule.callOr rule replacement).Fails a steps := by
  intro w before
  obtain ⟨diagnostic, tally, run, taken, reported⟩ := fails { w with tally := {} } before
  have counted : tally.taken = steps := by simpa using taken
  by_cases stands : steps = 0
  · refine ⟨replacement { w with tally := w.tally.register tally }, w.tally.register tally, ?_, ?_,
      fun moved => absurd stands moved⟩
    · simp only [Rule.callOr, observe_rule, act_rule, observe, register, Bind.bind, run]
      exact congrFun (if_pos (counted.trans stands)) _
    · simp only [Tally.register, counted]
  · refine ⟨diagnostic, w.tally.register tally, ?_, ?_, reported⟩
    · simp only [Rule.callOr, observe_rule, act_rule, observe, register, Bind.bind, run]
      exact congrFun (if_neg (counted ▸ stands)) _
    · simp only [Tally.register, counted]

theorem attempt (fails : rule.Fails a steps) {w : Walk} (before : w.Before a) :
    Rule.attempt rule w = .ok none { w with tally := { w.tally with rewind := steps } } := by
  obtain ⟨diagnostic, tally, run, taken, -⟩ := fails { w with tally := {} } before
  have counted : tally.taken = steps := by simpa using taken
  simp only [Rule.attempt, observe_rule, act_rule, observe, noteRewind, Bind.bind, run, ← counted]
  rfl

end Fails

/-- An attempt that fails without a step, and is then taken back, leaves the walk where it was. -/
theorem Reaches.takenBack {a b : List Token} {rule : Rule α} {next : Option α → Rule β}
    {rest : Unit → Rule β} {y : β} (fails : rule.Fails a 0)
    (givenUp : next none = Rule.rewind >>= rest) (reached : (rest ()).Reaches a y b) :
    (Rule.attempt rule >>= next).Reaches a y b := by
  intro w before
  obtain ⟨after, run, stop⟩ :=
    reached { w with index := w.index - (0 : Nat), tally := { w.tally with rewind := 0 } }
      (by simpa [Walk.Before] using before)
  refine ⟨after, ?_, stop⟩
  rw [bind_of_ok (fails.attempt before), givenUp]
  exact run

end Rule
end Pseudocode
