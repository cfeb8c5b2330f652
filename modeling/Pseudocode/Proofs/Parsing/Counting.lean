import Pseudocode.Proofs.Parsing.Range

/-!
# Counting

A rule that is started by name at one of the tokens never leaves them, and when it ends it has
counted the distance it has walked, or one step more if it has met the end of the program where an
expression should stand.
-/

namespace Pseudocode

open Grammar Rule

/-! ## Programs -/

/-- What stays where it is does not count. -/
theorem Outcome.Strays.andStay {α β : Type} {rule : Rule α} {next : α → Rule β} {w start : Walk}
    (strays : (rule w).Strays start)
    (stays : ∀ x after, (next x after).Stays after fun _ => True) :
    ((rule >>= next) w).Strays start := by
  simp only [Bind.bind]
  cases run : rule w with
  | ok x after =>
      rw [run] at strays
      have stay := stays x after
      simp only
      cases run' : next x after with
      | ok y last =>
          rw [run'] at stay
          exact stay.1 ▸ strays
      | error diagnostic last =>
          rw [run'] at stay
          exact stay ▸ strays
      | fault fault => trivial
  | error diagnostic after => rwa [run] at strays
  | fault fault => trivial

theorem Walk.Follows.strays {α : Type} {w middle : Walk} {b : List Token} {outcome : Outcome α}
    (follows : w.Follows middle b) (strays : outcome.Strays middle) : outcome.Strays w := by
  cases outcome with
  | ok x after => exact follows.trans_strays strays
  | error diagnostic after => exact follows.trans_strays strays
  | fault fault => trivial

namespace Grammar

section

variable {rules : Rules} {fuel : Nat} {a : List Token} {w : Walk}

/-- Where line ends that are stepped over end. -/
theorem exists_pastLines (before : w.Before a) (ended : Ended a) :
    ∃ u b middle, pastNewlines a = u :: b ∧ u.lexeme ≠ .newline ∧
      (skipNewlines : Rule Unit) w = .ok () middle ∧ middle.tokens = w.tokens ∧
        w.Follows middle (u :: b) := by
  obtain ⟨u, b, lines, ended', other⟩ := ended.exists_pastNewlines
  obtain ⟨middle, skip, stop, tokens, offset⟩ := skipNewlines_run before lines
  have marks : middle.marks = w.marks := by rw [Walk.marks, tokens, Walk.marks]
  exact ⟨u, b, middle, lines, other, skip, tokens, stop, ended', marks, offset⟩

theorem giveUp_run (diagnostic : Diagnostic) (fresh : w.tally.rewind = 0) :
    ∃ after, (giveUp diagnostic : Rule (List Node)) w = .error diagnostic after ∧
      after.tokens = w.tokens ∧
      after.index - after.tally.taken = w.index - w.tally.taken := by
  obtain ⟨middle, skip, skips⟩ := exists_skips w
  obtain ⟨last, skip', skips'⟩ := exists_skips middle
  rw [giveUp, bind_of_ok skip, act_rule,
    bind_of_ok (rfl : lexeme middle = .ok middle.current.lexeme middle)]
  cases middle.current.lexeme with
  | eof =>
      refine ⟨last, ?_, skips'.tokens.trans skips.tokens, skips'.offset.trans skips.offset⟩
      simp only [act_rule, bind_of_ok (rewind_stays (skips.rewind.trans fresh)), bind_of_ok skip']
      rfl
  | _ => exact ⟨middle, rfl, skips.tokens, skips.offset⟩

/-- A program that has gone astray in a statement ends there. -/
theorem moreProgram_strays_after {start : Walk}
    (tail : ∀ c (v : Walk), v.Before c → Ended c → v.tally.rewind = 0 →
      (moreProgram rules fuel v).Strays v)
    (fresh : w.tally.rewind = 0)
    (traced : (∃ c, start.Follows w c) ∨ (start.Strays w ∧ ending w.current.lexeme = none)) :
    (moreProgram rules fuel w).Strays start := by
  rcases traced with ⟨c, follows⟩ | ⟨strays, stands⟩
  · exact follows.strays (tail c w follows.before follows.ended fresh)
  · cases fuel with
    | zero => trivial
    | succ fuel =>
        rw [moreProgram_ok (Walk.ne_newline_of_stray stands)]
        exact strays

theorem programBehindLines_strays (faithful : Faithful rules) (stops : StopsAtOnce rules)
    {u : Token}
    (tail : ∀ c (v : Walk), v.Before c → Ended c → v.tally.rewind = 0 →
      (moreProgram rules fuel v).Strays v)
    (before : w.Before (u :: a)) (ended : Ended (u :: a)) (other : u.lexeme ≠ .newline)
    (line : (w.tokenAt (w.index - 1)).lexeme = .newline) (fresh : w.tally.rewind = 0) :
    (programBehindLines rules fuel w).Strays w := by
  have traced := statement_traced faithful stops { w with tally := {} } before ended
  cases run : statement rules { w with tally := {} } with
  | ok node third =>
      rw [run] at traced
      have observed : observe (statement rules) w =
          .ok (.ok node, third.tally) { third with tally := w.tally } := by
        simp only [observe, run]
      have further : (moreProgram rules fuel
          { third with tally := w.tally.register third.tally }).Strays w := by
        refine moreProgram_strays_after tail fresh (traced.imp ?_ ?_)
        · rintro ⟨c, -, follows⟩
          exact ⟨c, follows.registered⟩
        · rintro ⟨strays, stands⟩
          exact ⟨strays.registered, stands⟩
      rw [programBehindLines, bind_of_ok observed]
      exact further.andStay fun _ _ => ⟨rfl, trivial⟩
  | error diagnostic third =>
      rw [run] at traced
      have observed : observe (statement rules) w =
          .ok (.error diagnostic, third.tally) { third with tally := w.tally } := by
        simp only [observe, run]
      by_cases reported : isEndOfFile diagnostic = true
      · -- the program ends, and the walk goes back by what the statement has counted
        obtain ⟨last, skip, strays, -⟩ := skipNewlines_takenBack before line other
          (v := { third with
            index := third.index - third.tally.taken
            tally := { w.tally with rewind := third.tally.taken } }) traced.marks rfl
          (by simpa using traced.offset)
        have ends : programBehindLines rules fuel w = .ok [] last := by
          rw [programBehindLines, bind_of_ok observed]
          exact (congrFun (if_pos reported) _).trans (bind_of_ok skip)
        rw [ends]
        exact strays
      · obtain ⟨after, gaveUp, tokens, offset⟩ :=
          giveUp_run (w := { third with tally := w.tally.register third.tally }) diagnostic fresh
        have strays := Walk.Strays.registered traced
        have ends : programBehindLines rules fuel w = .error diagnostic after := by
          rw [programBehindLines, bind_of_ok observed]
          exact (congrFun (if_neg reported) _).trans gaveUp
        rw [ends]
        refine ⟨?_, by rw [offset]; exact strays.offset⟩
        rw [← strays.marks, Walk.marks, tokens]
        rfl
  | fault fault =>
      simp only [programBehindLines, Bind.bind, observe, run]
      trivial

theorem moreProgram_strays (faithful : Faithful rules) (stops : StopsAtOnce rules)
    (before : w.Before a) (ended : Ended a) (fresh : w.tally.rewind = 0) :
    (moreProgram rules fuel w).Strays w := by
  induction fuel generalizing a w with
  | zero => trivial
  | succ fuel ih =>
      obtain _ | ⟨t, a⟩ := a
      · exact ended.elim
      have seen := w.current_of_before before
      by_cases isLine : t.lexeme = .newline
      · obtain ⟨u, b, middle, lines, other, skip, tokens, follows⟩ := exists_pastLines before ended
        rw [pastNewlines_line isLine] at lines
        have line := newline_before isLine before lines follows.before tokens
        have fresh' : middle.tally.rewind = 0 := (skipNewlines_skips skip).rewind.trans fresh
        rw [moreProgram_newline (by rw [seen, isLine]) skip]
        exact follows.strays (programBehindLines_strays faithful stops (fun _ _ => ih)
          follows.before follows.ended other line fresh')
      · rw [moreProgram_ok (by rwa [seen])]
        exact Walk.Strays.refl w

theorem statements_strays (faithful : Faithful rules) (stops : StopsAtOnce rules)
    (inside : w.Inside) (fresh : w.tally.rewind = 0) : (statements rules fuel w).Strays w := by
  obtain ⟨first, a, before, ended⟩ := inside.exists_before
  obtain ⟨t, b, middle, -, -, skip, -, follows⟩ := exists_pastLines before ended
  have fresh' : middle.tally.rewind = 0 := (skipNewlines_skips skip).rewind.trans fresh
  have further : ((do
      let node ← firstStatement rules
      let others ← moreProgram rules fuel
      return Node.list (node :: others) ⟨first.span.start, (← current).span.stop⟩ : Rule Node)
        middle).Strays w := by
    have traced := firstStatement_traced faithful stops middle follows.before follows.ended
    simp only [Bind.bind]
    cases run : firstStatement rules middle with
    | ok node after =>
        rw [run] at traced
        obtain ⟨third, -, rfl⟩ := firstStatement_ok run
        have further : (moreProgram rules fuel
            { third with tally := middle.tally.register third.tally }).Strays middle := by
          refine moreProgram_strays_after (fun _ _ => moreProgram_strays faithful stops) fresh'
            (Or.imp_left ?_ traced)
          rintro ⟨c, -, follows⟩
          exact ⟨c, follows⟩
        exact follows.strays (further.andStay fun _ _ => ⟨rfl, trivial⟩)
    | error diagnostic after =>
        rw [run] at traced
        exact follows.trans_strays traced
    | fault fault => trivial
  rw [statements, act_rule, bind_of_ok (seen_current w before), bind_of_ok skip, act_rule,
    bind_of_ok (rfl : lexeme middle = .ok middle.current.lexeme middle)]
  cases middle.current.lexeme with
  | eof => exact ⟨follows.marks, Or.inl follows.offset⟩
  | _ => exact further

theorem program_strays (faithful : Faithful rules) (stops : StopsAtOnce rules)
    (inside : w.Inside) (fresh : w.tally.rewind = 0) : (program rules fuel w).Strays w := by
  refine (statements_strays faithful stops inside fresh).andStay fun node after => ?_
  rw [act_rule, bind_of_ok (rfl : lexeme after = .ok after.current.lexeme after)]
  cases after.current.lexeme with
  | eof => exact ⟨rfl, trivial⟩
  | _ => rfl

/-! ## Single rules -/

theorem elseBranch_traced (faithful : Faithful rules) :
    (elseBranch rules).Sound a fun _ _ => True := by
  obtain _ | ⟨t, a⟩ := a
  · exact .nil
  refine .lexeme ?_
  by_cases isElse : t.lexeme.isKeyword .elseWord = true
  · rw [if_pos isElse]
    have other : t.lexeme ≠ .eof := by
      rw [isKeyword_iff.mp isElse]
      exact Lexeme.noConfusion
    exact .advance other (.bind (braces_sound faithful) fun _ _ _ => .pure trivial)
  · rw [if_neg isElse]
    exact .pure trivial

theorem elseBranch_blames (settles : Settles fuel) (enough : 2 * a.length ≤ fuel) :
    ∃ broken, (elseBranch (rule fuel)).Blames a broken := by
  obtain _ | ⟨t, a⟩ := a
  · exact ⟨False, .nil⟩
  simp only [List.length_cons] at enough
  refine ⟨Breaks .braces a, .lexeme ?_⟩
  by_cases isElse : t.lexeme.isKeyword .elseWord = true
  · rw [if_pos isElse]
    have other : t.lexeme ≠ .eof := by
      rw [isKeyword_iff.mp isElse]
      exact Lexeme.noConfusion
    exact .advance other ((braces_blames settles (by omega)).andThen fun _ => harmless_pure _)
  · rw [if_neg isElse]
    exact .pure none

/-- A list literal that does not start with a bracket is refused at once. -/
theorem listLiteral_blames_anywhere (settles : Settles fuel) (enough : 2 * a.length ≤ fuel) :
    ∃ broken, (listLiteral (rule fuel) fuel).Blames a broken := by
  obtain _ | ⟨⟨lexeme, span⟩, a⟩ := a
  · exact ⟨False, .nil⟩
  by_cases isOpening : lexeme = .leftBracket
  · subst isOpening
    exact ⟨_, listLiteral_blames settles enough rfl⟩
  · refine ⟨False, .current (.expect .leftBracket (by rintro ⟨⟩ ⟨⟩; rfl) Lexeme.noConfusion
      fun _ same => ?_)⟩
    exact absurd (congrArg Token.lexeme same) isOpening

end

end Grammar

/-! ## Rules by name -/

/-- Where an outcome leaves the walk, if it does not end in a fault. -/
def Outcome.after? {α : Type} : Outcome α → Option Walk
  | .ok _ after => some after
  | .error _ after => some after
  | .fault _ => none

theorem Outcome.Led.leads {α : Type} {w after : Walk} {debt : Int} {trail : List Footprint}
    {outcome : Outcome α} (led : outcome.Led w debt trail) (ends : outcome.after? = some after) :
    w.Leads debt trail after := by
  cases outcome with
  | ok x last =>
      cases ends
      exact led
  | error diagnostic last =>
      cases ends
      exact led
  | fault fault => cases ends

/-- The footprints lead without a gap to where the rule ends, if it ends. -/
theorem Outcome.Led.exists_last {α : Type} {w : Walk} {debt : Int} {trail : List Footprint}
    {outcome : Outcome α} (led : outcome.Led w debt trail) :
    ∃ last, Footprint.Tread w.index trail last ∧
      ∀ after, outcome.after? = some after → after.index = last := by
  cases outcome with
  | ok x stop =>
      refine ⟨stop.index, led.tread, fun after ends => ?_⟩
      cases ends
      rfl
  | error diagnostic stop =>
      refine ⟨stop.index, led.tread, fun after ends => ?_⟩
      cases ends
      rfl
  | fault fault =>
      obtain ⟨last, tread⟩ := led
      refine ⟨last, tread, fun after ends => ?_⟩
      cases ends

theorem Outcome.Strays.strays {α : Type} {w after : Walk} {outcome : Outcome α}
    (strays : outcome.Strays w) (ends : outcome.after? = some after) : w.Strays after := by
  cases outcome with
  | ok x last =>
      cases ends
      exact strays
  | error diagnostic last =>
      cases ends
      exact strays
  | fault fault => cases ends

theorem Recorded.Keeps.map {α β : Type} {recorded : Recorded α} {rule : Rule α} {w : Walk}
    (f : α → β) (keeps : recorded.Keeps rule 0 w) : (f <$> recorded).Keeps (f <$> rule) 0 w :=
  keeps.bind fun x after _ _ => careful_pure (f x) after

theorem Outcome.Strays.map {α β : Type} {rule : Rule α} {w start : Walk} (f : α → β)
    (strays : (rule w).Strays start) : ((f <$> rule) w).Strays start :=
  strays.andStay fun _ _ => ⟨rfl, trivial⟩

theorem Rule.Blames.map {α β : Type} {rule : Rule α} {a : List Token} {broken : Prop} (f : α → β)
    (blames : rule.Blames a broken) : (f <$> rule).Blames a broken :=
  blames.andThen fun x => harmless_pure (f x)

namespace RuleName

open Recorded

/-- Start a rule at an index of an array of tokens, and record its footprints. -/
def record (name : RuleName) (tokens : Array Token) (index : Int) :
    Outcome Yield × List Footprint :=
  let recorded : Recorded Yield := name.ruleIn (bound tokens.size)
  (recorded.rule { tokens, index }, recorded.trail { tokens, index })

variable (name : RuleName) (fuel : Nat) {w : Walk}

/-- Every rule that has a name keeps to the tokens. -/
theorem recorded_keeps (fresh : w.tally.rewind = 0) :
    Keeps (name.ruleIn fuel) (name.rule fuel) 0 w := by
  have careful := mirrors_knot fuel
  have faithful := rule_faithful fuel
  cases name with
  | program => exact (keeps_program careful faithful (rule_stops fuel) fresh).map _
  | block => exact (careful_block careful faithful (rule_stops fuel) w).map _
  | statement => exact (careful_statement careful faithful w).map _
  | expression => exact (careful_expression careful w).map _
  | comparison => exact (careful_comparison careful w).map _
  | sum => exact (careful_sum careful w).map _
  | term => exact (careful_term careful w).map _
  | factor => exact (careful_factor careful w).map _
  | power => exact (careful_power careful w).map _
  | application => exact (careful_application careful w).map _
  | atom => exact (careful_atom careful w).map _
  | listLiteral => exact (careful_listLiteral careful w).map _
  | branch => exact (careful_branch careful w).map _
  | elifBranch => exact (careful_cases careful .elifWord w).map _
  | elseBranch => exact (careful_elseBranch careful w).map _
  | forEach => exact (careful_forEach careful w).map _
  | whileLoop => exact (careful_whileLoop careful w).map _
  | repetition => exact (careful_repetition careful w).map _
  | procedure => exact (careful_procedure careful w).map _

/-- Every rule that has a name counts at most one step too many. -/
theorem rule_strays (inside : w.Inside) (fresh : w.tally.rewind = 0) :
    (name.rule fuel w).Strays w := by
  have faithful := rule_faithful fuel
  have term_sound : ∀ a, (Grammar.term (Grammar.rule fuel) fuel).Sound a fun node b =>
      Reads (.chain .term) a (.node node) b :=
    fun _ => chain_sound .term fun _ => factor_sound faithful
  cases name with
  | program => exact (program_strays faithful (rule_stops fuel) inside fresh).map _
  | block =>
      exact (inside.strays fun _ => block_traced faithful (rule_stops fuel) rule_closes).map _
  | statement => exact (strays_statement faithful (rule_stops fuel) inside).map _
  | expression => exact (inside.strays fun _ => expression_sound faithful).map _
  | comparison => exact (inside.strays fun _ => comparison_sound faithful).map _
  | sum => exact (inside.strays fun _ => chain_sound .sum term_sound).map _
  | term => exact (inside.strays term_sound).map _
  | factor => exact (inside.strays fun _ => factor_sound faithful).map _
  | power => exact (inside.strays fun _ => power_sound faithful).map _
  | application => exact (inside.strays fun _ => application_sound faithful).map _
  | atom => exact (inside.strays fun _ => atom_sound faithful).map _
  | listLiteral => exact (inside.strays fun _ => listLiteral_sound faithful).map _
  | branch => exact (inside.strays fun _ => branch_sound faithful).map _
  | elifBranch => exact (inside.strays fun _ => cases_sound faithful).map _
  | elseBranch => exact (inside.strays fun _ => elseBranch_traced faithful).map _
  | forEach => exact (inside.strays fun _ => forEach_sound faithful).map _
  | whileLoop => exact (inside.strays fun _ => whileLoop_sound faithful).map _
  | repetition => exact (inside.strays fun _ => repetition_sound faithful).map _
  | procedure => exact (inside.strays fun _ => procedure_sound faithful).map _

/-- No rule that has a name reaches the bound on the nesting. -/
theorem rule_blames {a : List Token} (enough : 2 * a.length < fuel) :
    ∃ broken, (name.rule fuel).Blames a broken := by
  have settles := rule_settles fuel
  have faithful := rule_faithful fuel
  have enough' := Nat.le_of_lt enough
  have term_sound : ∀ a, (Grammar.term (Grammar.rule fuel) fuel).Sound a fun node b =>
      Reads (.chain .term) a (.node node) b :=
    fun _ => chain_sound .term fun _ => factor_sound faithful
  have term_blames : ∀ b, 2 * b.length ≤ fuel →
      (Grammar.term (Grammar.rule fuel) fuel).Blames b (Breaks (.chain .term) b) :=
    fun _ => chain_blames .term (fun _ => factor_sound faithful) fun _ => factor_blames settles
  cases name with
  | program => exact ⟨_, (program_blames fuel enough).map _⟩
  | block => exact ⟨_, (block_blames settles enough).map _⟩
  | statement => exact ⟨_, (statement_blames settles enough).map _⟩
  | expression => exact ⟨_, (expression_blames settles enough').map _⟩
  | comparison => exact ⟨_, (comparison_blames settles enough').map _⟩
  | sum => exact ⟨_, (chain_blames .sum term_sound term_blames enough').map _⟩
  | term => exact ⟨_, (term_blames a enough').map _⟩
  | factor => exact ⟨_, (factor_blames settles enough').map _⟩
  | power => exact ⟨_, (power_blames settles enough').map _⟩
  | application => exact ⟨_, (application_blames settles enough').map _⟩
  | atom => exact ⟨_, (atom_blames settles enough').map _⟩
  | listLiteral =>
      obtain ⟨broken, blames⟩ := listLiteral_blames_anywhere settles enough'
      exact ⟨broken, blames.map _⟩
  | branch =>
      have blames := cases_blames settles fuel .ifWord enough' (by omega)
      exact ⟨_, (blames.call.andThen fun _ => harmless_pure _).map _⟩
  | elifBranch => exact ⟨_, (cases_blames settles fuel .elifWord enough' (by omega)).map _⟩
  | elseBranch =>
      obtain ⟨broken, blames⟩ := elseBranch_blames settles enough'
      exact ⟨broken, blames.map _⟩
  | forEach => exact ⟨_, (forEach_blames settles enough').map _⟩
  | whileLoop => exact ⟨_, (whileLoop_blames settles enough').map _⟩
  | repetition => exact ⟨_, (repetition_blames settles enough').map _⟩
  | procedure => exact ⟨_, (procedure_blames settles enough').map _⟩

/-- A rule that is started at one of the tokens of a text keeps to them: at no time does it stand
anywhere else, however often it goes back.  Its footprints lead from the start to where it ends, and
go forward only from one token to the next.  The bound on the nesting is never reached, and unless
the parse is abandoned, the rule has counted the distance it has walked, or one step more if it has
met the end of the program where an expression should stand. -/
theorem run_keeps_to_tokens {source : Source} {tokens : List Token} {start : Int}
    (scanned : source.tokens = .ok tokens) (name : RuleName) (nonneg : 0 ≤ start)
    (below : start < tokens.length) :
    ∃ trail last, name.record tokens.toArray start = (name.run tokens.toArray start, trail) ∧
      Footprint.Tread start trail last ∧
      (∀ index : Int, .place index ∈ trail → 0 ≤ index ∧ index < tokens.length) ∧
      (∀ fault, name.run tokens.toArray start = .fault fault → fault = .unreadableArgument) ∧
      ∀ after, (name.run tokens.toArray start).after? = some after →
        after.index = last ∧ 0 ≤ last ∧ last < tokens.length ∧
          (after.tally.taken = after.index - start ∨
            after.tally.taken = after.index - start + 1 ∧ .ending ∈ trail) := by
  have inside : Walk.Inside { tokens := tokens.toArray, index := start } :=
    ⟨Source.ended_tokens scanned, nonneg, by simpa using below⟩
  obtain ⟨same, held, led⟩ := name.recorded_keeps (bound tokens.length) rfl inside
  have strayed := name.rule_strays (bound tokens.length) inside rfl
  obtain ⟨last, tread, stops⟩ := led.exists_last
  refine ⟨_, last, Prod.ext same rfl, tread, held, fun fault ends => ?_, fun after ends => ?_⟩
  · obtain ⟨t, a, before, ended⟩ := inside.exists_before
    have position := Walk.index_of_before before
    have enough : 2 * (t :: a).length < bound tokens.length := by
      simp only [List.size_toArray] at position
      unfold bound
      omega
    obtain ⟨broken, blames⟩ := name.rule_blames (bound tokens.length) enough
    have blamed := blames _ before ended
    rw [show name.rule (bound tokens.length) _ = .fault fault from ends] at blamed
    exact blamed.1
  · have leads := led.leads ends
    have offset := (strayed.strays ends).offset
    have counted := leads.counted
    simp only at offset counted
    obtain rfl : after.index = last := stops after ends
    refine ⟨rfl, leads.nonneg, by simpa using leads.below, ?_⟩
    rcases offset with exactly | beyond
    · exact Or.inl (by omega)
    · -- without the end of the program, the count would be exact
      refine Or.inr ⟨by omega, Decidable.byContradiction fun unmet => ?_⟩
      have exactly := counted unmet
      omega

/-- The value of a `RETURN` at the end of a text is looked for at the end of the program.  The walk
goes back to the `RETURN`, which stays counted. -/
theorem run_keeps_to_tokens_return : ∃ tokens trail after,
    (⟨"", "x <- 1\nRETURN"⟩ : Source).tokens = .ok tokens ∧
      block.record tokens.toArray 0 = (block.run tokens.toArray 0, trail) ∧
      (block.run tokens.toArray 0).after? = some after ∧ after.index = 4 ∧ after.tally.taken = 5 ∧
      Footprint.Tread 0 trail 4 ∧ .ending ∈ trail := by
  obtain ⟨tokens, scanned⟩ :=
    exists_of_isOk (⟨"", "x <- 1\nRETURN"⟩ : Source).tokens (by decide +kernel)
  have computed : (⟨"", "x <- 1\nRETURN"⟩ : Source).tokens.toOption.any (fun tokens =>
      decide (0 < tokens.length) && (block.run tokens.toArray 0).after?.any fun after =>
        decide (after.index = 4) && decide (after.tally.taken = 5)) = true := by
    decide +kernel
  simp only [scanned, Except.toOption, Option.any_some, Bool.and_eq_true, decide_eq_true_eq,
    Option.any_eq_true] at computed
  obtain ⟨below, after, ends, place, counted⟩ := computed
  obtain ⟨trail, last, recorded, tread, -, -, ranges⟩ :=
    run_keeps_to_tokens scanned block (Int.le_refl 0) (by omega)
  obtain ⟨stops, -, -, counts⟩ := ranges after ends
  obtain rfl : 4 = last := place.symm.trans stops
  refine ⟨tokens, trail, after, scanned, recorded, ends, place, counted, tread, ?_⟩
  rw [place, counted] at counts
  exact (counts.resolve_left (by decide)).2

end RuleName
end Pseudocode
