import Pseudocode.Proofs.Parsing.Walk

/-!
# Tracing a success back to a reading

A rule that succeeds has usually read a phrase, and its walk stands behind it.  There is one
exception.  An attempt that is given up goes back by the steps it has counted, which may be one too
many, and it may have turned words for truth values into these values.  After that a walk has gone
astray: nothing is known but the line ends, closing braces and ends of the program in its array, and
that it is off by at most one step.  `Rule.Traced` keeps the two cases apart; a rule says at which
tokens a walk that has gone astray can stand, which is enough to see that it never gets far.
-/

namespace Pseudocode

namespace Grammar

/-- The lexemes at which a statement can end. -/
def ending : Lexeme → Option Lexeme
  | .newline => some .newline
  | .rightBrace => some .rightBrace
  | .eof => some .eof
  | _ => none

/-- The only end of the program is the last token. -/
def Ended : List Token → Prop
  | [] => False
  | t :: a => (t.lexeme = .eof ∧ a = []) ∨ (t.lexeme ≠ .eof ∧ Ended a)

theorem Ended.tail {t : Token} {a : List Token} (ended : Ended (t :: a)) (other : t.lexeme ≠ .eof) :
    Ended a := by
  rcases ended with ⟨isEnd, -⟩ | ⟨-, rest⟩
  · contradiction
  · exact rest

theorem Ended.eq_nil {t : Token} {a : List Token} (ended : Ended (t :: a))
    (isEnd : t.lexeme = .eof) : a = [] := by
  rcases ended with ⟨-, last⟩ | ⟨other, -⟩
  · exact last
  · contradiction

theorem Ended.exists_pastNewlines {a : List Token} (ended : Ended a) :
    ∃ t b, pastNewlines a = t :: b ∧ Ended (t :: b) ∧ t.lexeme ≠ .newline := by
  induction a with
  | nil => exact ended.elim
  | cons t a ih =>
      by_cases line : isNewline t = true
      · have isLine := isNewline_iff.mp line
        have other : t.lexeme ≠ .eof := by rw [isLine]; exact Lexeme.noConfusion
        obtain ⟨u, b, lines, rest⟩ := ih (ended.tail other)
        exact ⟨u, b, by simpa [pastNewlines, line] using lines, rest⟩
      · exact ⟨t, a, by simp [pastNewlines, line], ended, fun same => line (isNewline_iff.mpr same)⟩

end Grammar

open Grammar

namespace Walk

/-- The tokens as far as they can end a statement. -/
def marks (w : Walk) : Array (Option Lexeme) :=
  w.tokens.map fun t => ending t.lexeme

theorem ending_tokenAt {w after : Walk} (same : after.marks = w.marks) (index : Int) :
    ending (after.tokenAt index).lexeme = ending (w.tokenAt index).lexeme := by
  have marked : ∀ v : Walk, ending (v.tokenAt index).lexeme =
      (v.marks[v.slot index]?).getD (some .eof) := by
    intro v
    rw [tokenAt, Array.getD_eq_getD_getElem?, marks, Array.getElem?_map]
    cases v.tokens[v.slot index]? <;> rfl
  have size : after.tokens.size = w.tokens.size := by
    simpa [marks] using congrArg Array.size same
  rw [marked after, marked w, same, slot, slot, size]

/-- Changing the current token within the tokens that cannot end a statement. -/
theorem marks_retagged {w : Walk} {token : Token} (old : ending w.current.lexeme = none)
    (new : ending token.lexeme = none) :
    (w.tokens.setIfInBounds (w.slot w.index) token).map (fun t => ending t.lexeme) = w.marks := by
  apply Array.ext_getElem?
  intro i
  rw [marks, Array.getElem?_map, Array.getElem?_map, Array.getElem?_setIfInBounds]
  split
  · next same =>
      subst same
      rw [current, tokenAt, Array.getD_eq_getD_getElem?] at old
      split
      · next inside =>
          rw [Array.getElem?_eq_getElem inside] at old ⊢
          simpa [new] using old.symm
      · next outside => rw [Array.getElem?_eq_none (Nat.le_of_not_lt outside)]
  · rfl

/-- A walk that has read up to the given tokens and counted every step. -/
structure Follows (w after : Walk) (b : List Token) : Prop where
  before : after.Before b
  ended : Ended b
  marks : after.marks = w.marks
  offset : after.index - after.tally.taken = w.index - w.tally.taken

/-- A walk that may have gone astray: it may have counted a step too many. -/
structure Strays (w after : Walk) : Prop where
  marks : after.marks = w.marks
  offset : after.index - after.tally.taken = w.index - w.tally.taken ∨
    after.index - after.tally.taken = w.index - w.tally.taken - 1

theorem Strays.refl (w : Walk) : w.Strays w :=
  ⟨rfl, Or.inl rfl⟩

theorem Follows.trans {w middle after : Walk} {b c : List Token} (first : w.Follows middle b)
    (second : middle.Follows after c) : w.Follows after c :=
  ⟨second.before, second.ended, second.marks.trans first.marks,
    second.offset.trans first.offset⟩

theorem Follows.trans_strays {w middle after : Walk} {b : List Token} (first : w.Follows middle b)
    (second : middle.Strays after) : w.Strays after :=
  ⟨second.marks.trans first.marks, by rw [← first.offset]; exact second.offset⟩

/-- A rule that was called with a tally of its own, once its tally is added. -/
theorem Follows.registered {w after : Walk} {b : List Token}
    (follows : Follows { w with tally := {} } after b) :
    w.Follows { after with tally := w.tally.register after.tally } b := by
  refine ⟨follows.before, follows.ended, follows.marks, ?_⟩
  have offset := follows.offset
  simp only [Tally.register] at offset ⊢
  omega

theorem Strays.registered {w after : Walk} (strays : Strays { w with tally := {} } after) :
    w.Strays { after with tally := w.tally.register after.tally } := by
  refine ⟨strays.marks, ?_⟩
  have offset := strays.offset
  simp only [Tally.register] at offset ⊢
  omega

end Walk

/-- An outcome that is traced back to a reading, or whose walk has gone astray. -/
def Outcome.Traced {α : Type} (w : Walk) (reads : α → List Token → Prop) (stray : Lexeme → Prop) :
    Outcome α → Prop
  | .ok x after =>
      (∃ b, reads x b ∧ w.Follows after b) ∨ (w.Strays after ∧ stray after.current.lexeme)
  | .error _ after => w.Strays after
  | .fault _ => True

theorem Outcome.Traced.mono {α : Type} {w : Walk} {reads reads' : α → List Token → Prop}
    {stray : Lexeme → Prop} {outcome : Outcome α} (traced : outcome.Traced w reads stray)
    (weaker : ∀ x b, reads x b → reads' x b) : outcome.Traced w reads' stray := by
  cases outcome with
  | ok x after => exact traced.imp_left fun ⟨b, read, follows⟩ => ⟨b, weaker x b read, follows⟩
  | error diagnostic after => exact traced
  | fault fault => trivial

/-- An outcome that leaves the walk where it was: at a token where a walk can stand that has gone
astray, or with an error. -/
def Outcome.Stays {α : Type} (w : Walk) (stray : Lexeme → Prop) : Outcome α → Prop
  | .ok _ after => after = w ∧ stray w.current.lexeme
  | .error _ after => after = w
  | .fault _ => True

namespace Rule

variable {α β : Type}

/-- A rule whose successes before the given tokens are traced back to readings, or have gone
astray. -/
def Traced (rule : Rule α) (a : List Token) (reads : α → List Token → Prop)
    (stray : Lexeme → Prop) : Prop :=
  ∀ w : Walk, w.Before a → Ended a → (rule w).Traced w reads stray

/-- A rule whose successes are always traced back to readings. -/
abbrev Sound (rule : Rule α) (a : List Token) (reads : α → List Token → Prop) : Prop :=
  rule.Traced a reads fun _ => False

namespace Traced

variable {a b : List Token} {t : Token} {reads : α → List Token → Prop}
  {reads' : β → List Token → Prop} {stray : Lexeme → Prop}

theorem nil {rule : Rule α} : rule.Traced [] reads stray :=
  fun _ _ ended => ended.elim

theorem follow {outcome : Outcome α} {w middle : Walk} (follows : w.Follows middle b)
    (traced : outcome.Traced middle reads stray) : outcome.Traced w reads stray := by
  cases outcome with
  | ok x after =>
      rcases traced with ⟨c, read, rest⟩ | ⟨strays, stands⟩
      · exact Or.inl ⟨c, read, follows.trans rest⟩
      · exact Or.inr ⟨follows.trans_strays strays, stands⟩
  | error diagnostic after => exact follows.trans_strays traced
  | fault fault => trivial

theorem mono {rule : Rule α} {reads' : α → List Token → Prop} (traced : rule.Traced a reads stray)
    (weaker : ∀ x b, reads x b → reads' x b) : rule.Traced a reads' stray :=
  fun w before ended => (traced w before ended).mono weaker

theorem pure {x : α} (read : reads x a) : (pure x : Rule α).Traced a reads stray :=
  fun _ before ended => Or.inl ⟨a, read, before, ended, rfl, rfl⟩

theorem fail {what : Expectation} : (Rule.fail what : Rule α).Traced a reads stray :=
  fun w _ _ => Walk.Strays.refl w

theorem abort {fault : Fault} : (Rule.abort fault : Rule α).Traced a reads stray :=
  fun _ _ _ => trivial

/-- After a rule that may have gone astray, what follows has to stay where it is. -/
theorem bindStray {rule : Rule α} {next : α → Rule β} {stray' : Lexeme → Prop}
    (first : rule.Traced a reads stray)
    (second : ∀ x b, reads x b → (next x).Traced b reads' stray')
    (astray : ∀ x w, stray w.current.lexeme → (next x w).Stays w stray') :
    (rule >>= next).Traced a reads' stray' := by
  intro w before ended
  have traced := first w before ended
  simp only [Bind.bind]
  cases run : rule w with
  | ok x after =>
      rw [run] at traced
      rcases traced with ⟨b, read, follows⟩ | ⟨strays, stands⟩
      · exact follow follows (second x b read after follows.before follows.ended)
      · have stays := astray x after stands
        simp only
        cases run' : next x after with
        | ok y last =>
            rw [run'] at stays
            obtain ⟨rfl, stands'⟩ := stays
            exact Or.inr ⟨strays, stands'⟩
        | error diagnostic last =>
            rw [run'] at stays
            obtain rfl := stays
            exact strays
        | fault fault => trivial
  | error diagnostic after => rwa [run] at traced
  | fault fault => trivial

theorem bind {rule : Rule α} {next : α → Rule β} (first : rule.Sound a reads)
    (second : ∀ x b, reads x b → (next x).Traced b reads' stray) :
    (rule >>= next).Traced a reads' stray :=
  bindStray first second fun _ _ stands => stands.elim

theorem current {next : Token → Rule β} (rest : (next t).Traced (t :: a) reads' stray) :
    (Rule.current >>= next).Traced (t :: a) reads' stray := by
  intro w before ended
  have seen : Rule.current w = .ok t w := by rw [Rule.current, w.current_of_before before]
  rw [bind_of_ok seen]
  exact rest w before ended

theorem lexeme {next : Lexeme → Rule β} (rest : (next t.lexeme).Traced (t :: a) reads' stray) :
    (Rule.lexeme >>= next).Traced (t :: a) reads' stray := by
  intro w before ended
  have seen : Rule.lexeme w = .ok t.lexeme w := by rw [Rule.lexeme, w.current_of_before before]
  rw [bind_of_ok seen]
  exact rest w before ended

theorem advance {next : Unit → Rule β} (other : t.lexeme ≠ .eof)
    (rest : (next ()).Traced a reads' stray) :
    (Rule.advance >>= next).Traced (t :: a) reads' stray := by
  intro w before ended
  have follows : w.Follows { w with index := w.index + 1, tally := w.tally.count } a := by
    refine ⟨Walk.before_next before _, ended.tail other, rfl, ?_⟩
    simp only [Tally.count]
    omega
  exact follow follows (rest _ follows.before follows.ended)

theorem takeTruth {value : Bool} {next : Unit → Rule β} (word : ending t.lexeme = none)
    (rest : (next ()).Traced a reads' stray) :
    (Rule.takeTruth value >>= next).Traced (t :: a) reads' stray := by
  intro w before ended
  have other : t.lexeme ≠ .eof := fun same => by rw [same] at word; cases word
  have old : ending w.current.lexeme = none := by rw [w.current_of_before before, word]
  have follows : w.Follows
      { tokens := w.tokens.setIfInBounds (w.slot w.index) { w.current with lexeme := .truth value }
        index := w.index + 1
        tally := w.tally.count } a := by
    refine ⟨Walk.before_retagged before _ _, ended.tail other, Walk.marks_retagged old rfl, ?_⟩
    simp only [Tally.count]
    omega
  exact follow follows (rest _ follows.before follows.ended)

theorem expect (kind : Lexeme) {matching : Lexeme → Bool} {what : Expectation}
    {next : Unit → Rule β} (only : ∀ l, matching l = true → l = kind) (other : kind ≠ .eof)
    (rest : ∀ span, t = ⟨kind, span⟩ → (next ()).Traced a reads' stray) :
    (Rule.expect matching what >>= next).Traced (t :: a) reads' stray := by
  rw [Rule.expect, bind_assoc]
  refine lexeme ?_
  by_cases found : matching t.lexeme = true
  · rw [if_pos found]
    have same := only _ found
    exact advance (same ▸ other) (rest t.span (by rw [← same]))
  · rw [if_neg found]
    exact fun w _ _ => Walk.Strays.refl w

theorem skipNewlines {next : Unit → Rule β}
    (rest : ∀ t b, pastNewlines a = t :: b → t.lexeme ≠ .newline →
      (next ()).Traced (t :: b) reads' stray) :
    (Rule.skipNewlines >>= next).Traced a reads' stray := by
  intro w before ended
  obtain ⟨t, b, lines, ended', other⟩ := ended.exists_pastNewlines
  obtain ⟨after, run, stop, tokens, offset⟩ := skipNewlines_run before lines
  rw [bind_of_ok run]
  have follows : w.Follows after (t :: b) :=
    ⟨stop, ended', by rw [Walk.marks, tokens, Walk.marks], offset⟩
  exact follow follows (rest t b lines other after stop ended')

/-- A rule that is called with a tally of its own, and whose tally is added however it ends. -/
theorem observe {rule : Rule α} {next : Except Diagnostic α × Tally → Rule α}
    (traced : rule.Traced a reads stray)
    (good : ∀ x tally w,
      next (.ok x, tally) w = .ok x { w with tally := w.tally.register tally })
    (bad : ∀ d tally w, (∃ fault, next (.error d, tally) w = .fault fault) ∨
      ∃ d' last, next (.error d, tally) w =
        .error d' { w with tally := { w.tally.register tally with last := last } }) :
    (Rule.observe rule >>= next).Traced a reads stray := by
  intro w before ended
  have traced := traced { w with tally := {} } before ended
  simp only [Rule.observe, Bind.bind]
  cases run : rule { w with tally := {} } with
  | ok x after =>
      rw [run] at traced
      simp only [good]
      rcases traced with ⟨b, read, follows⟩ | ⟨strays, stands⟩
      · exact Or.inl ⟨b, read, follows.registered⟩
      · exact Or.inr ⟨strays.registered, stands⟩
  | error d after =>
      rw [run] at traced
      have strays := Walk.Strays.registered traced
      rcases bad d after.tally { after with tally := w.tally } with ⟨fault, ends⟩ | ⟨d', last, ends⟩
      · simp only [ends, Outcome.Traced]
      · simp only [ends, Outcome.Traced]
        exact ⟨strays.marks, strays.offset⟩
  | fault fault => trivial

theorem call {rule : Rule α} (traced : rule.Traced a reads stray) :
    (Rule.call rule).Traced a reads stray :=
  observe traced (fun _ _ _ => rfl) fun d tally _ => Or.inr ⟨d, tally.taken, rfl⟩

theorem callOr {rule : Rule α} (replacement : Walk → Diagnostic)
    (traced : rule.Traced a reads stray) : (Rule.callOr rule replacement).Traced a reads stray := by
  refine observe traced (fun _ _ _ => rfl) fun d tally w => Or.inr ?_
  by_cases counted : tally.taken = 0
  · exact ⟨_, tally.taken, congrFun (if_pos counted) _⟩
  · exact ⟨_, tally.taken, congrFun (if_neg counted) _⟩

end Traced

theorem Sound.weaken {a : List Token} {rule : Rule α} {reads : α → List Token → Prop}
    {stray : Lexeme → Prop} (sound : rule.Sound a reads) : rule.Traced a reads stray := by
  intro w before ended
  have traced := sound w before ended
  cases run : rule w with
  | ok x after =>
      rw [run] at traced
      exact Or.inl (traced.resolve_right And.right)
  | error diagnostic after => rwa [run] at traced
  | fault fault => trivial

/-- How an attempt ends: with a fault, with the success of the rule, or with nothing.  In the last
case, going back leads to where the attempt was made or to the token before. -/
theorem attempt_cases {a : List Token} {rule : Rule α} {reads : α → List Token → Prop}
    {stray : Lexeme → Prop} {w : Walk} (traced : rule.Traced a reads stray) (before : w.Before a)
    (ended : Ended a) :
    (∃ fault, attempt rule w = .fault fault) ∨
      (∃ x after, attempt rule w = .ok (some x) after ∧
        (Outcome.ok x after).Traced w reads stray) ∨
      ∃ after : Walk, attempt rule w = .ok none after ∧ after.marks = w.marks ∧
        after.tally.taken = w.tally.taken ∧
        (after.index - after.tally.rewind = w.index ∨
          after.index - after.tally.rewind = w.index - 1) := by
  have traced := traced { w with tally := {} } before ended
  cases run : rule { w with tally := {} } with
  | ok x after =>
      rw [run] at traced
      refine Or.inr (Or.inl ⟨x, { after with tally := w.tally.register after.tally }, ?_, ?_⟩)
      · simp only [attempt, observe_rule, act_rule, observe, register, Bind.bind, run]
        rfl
      · rcases traced with ⟨b, read, follows⟩ | ⟨strays, stands⟩
        · exact Or.inl ⟨b, read, follows.registered⟩
        · exact Or.inr ⟨strays.registered, stands⟩
  | error diagnostic after =>
      rw [run] at traced
      refine Or.inr (Or.inr ⟨{ after with tally := { w.tally with rewind := after.tally.taken } },
        ?_, traced.marks, rfl, ?_⟩)
      · simp only [attempt, observe_rule, act_rule, observe, noteRewind, Bind.bind, run]
        rfl
      · simpa using traced.offset
  | fault fault =>
      refine Or.inl ⟨fault, ?_⟩
      simp only [attempt, observe_rule, observe, Bind.bind, run]

theorem skipNewlines_stays {w : Walk} (other : w.current.lexeme ≠ .newline) :
    (skipNewlines : Rule Unit) w = .ok () w := by
  rw [skipNewlines_rule, skipNewlinesWithin, act_rule,
    bind_of_ok (rfl : lexeme w = .ok w.current.lexeme w)]
  cases same : w.current.lexeme with
  | newline => contradiction
  | _ => rfl

theorem skipNewlines_step {w : Walk} (line : w.current.lexeme = .newline)
    (other : w.following.lexeme ≠ .newline) :
    (skipNewlines : Rule Unit) w =
      .ok () { w with index := w.index + 1, tally := w.tally.count } := by
  rw [skipNewlines_rule, skipNewlinesWithin, act_rule,
    bind_of_ok (rfl : lexeme w = .ok w.current.lexeme w), line]
  cases size : w.tokens.size with
  | zero => rfl
  | succ n =>
      have seen : lexeme { w with index := w.index + 1, tally := w.tally.count } =
          .ok w.following.lexeme { w with index := w.index + 1, tally := w.tally.count } := rfl
      refine (bind_of_ok (rfl : advance w = _)).trans ?_
      rw [skipNewlinesWithin, act_rule, bind_of_ok seen]
      cases same : w.following.lexeme with
      | newline => contradiction
      | _ => rfl

end Rule
end Pseudocode
