import Pseudocode.Proofs.Parsing.Abandonment
import Pseudocode.Proofs.Parsing.Recording

/-!
# Rules that keep to their tokens

A rule that starts at one of the tokens keeps to them: each of its footprints is the index of a
token, however often it goes back.  It also keeps count.  The steps it has counted are the distance
it has walked, unless it has met the end of the program where an expression should stand, which is
counted as a step although the walk stays.  `Recorded.Keeps` says both of a recorded rule, and that
it does what the rule does.  Every way of putting rules together preserves it.
-/

namespace Pseudocode

open Grammar

namespace Grammar

/-- Which tokens are ends of the program can be seen from the marks. -/
theorem Ended.of_marks {a b : List Token} (ended : Ended a)
    (same : b.map (fun t => ending t.lexeme) = a.map fun t => ending t.lexeme) : Ended b := by
  induction a generalizing b with
  | nil => exact ended.elim
  | cons t a ih =>
      obtain _ | ⟨u, b⟩ := b
      · cases same
      simp only [List.map_cons, List.cons.injEq] at same
      obtain ⟨first, rest⟩ := same
      have alike : u.lexeme = .eof ↔ t.lexeme = .eof := by
        rw [← ending_eq_eof, ← ending_eq_eof, first]
      rcases ended with ⟨isEnd, rfl⟩ | ⟨other, ended⟩
      · exact Or.inl ⟨alike.mpr isEnd, List.map_eq_nil_iff.mp rest⟩
      · exact Or.inr ⟨fun isEnd => other (alike.mp isEnd), ih ended rest⟩

end Grammar

namespace Walk

/-- A walk that stands at one of its tokens, only the last of which is an end of the program. -/
structure Inside (w : Walk) : Prop where
  ended : Ended w.tokens.toList
  nonneg : 0 ≤ w.index
  below : w.index < w.tokens.size

theorem size_of_marks {w after : Walk} (same : after.marks = w.marks) :
    after.tokens.size = w.tokens.size := by
  simpa [marks] using congrArg Array.size same

theorem Inside.moved {w after : Walk} (inside : w.Inside) (marks : after.marks = w.marks)
    (nonneg : 0 ≤ after.index) (below : after.index < w.tokens.size) : after.Inside := by
  refine ⟨inside.ended.of_marks ?_, nonneg, by rwa [size_of_marks marks]⟩
  have same := congrArg Array.toList marks
  simpa only [Walk.marks, Array.toList_map] using same

theorem Inside.exists_before {w : Walk} (inside : w.Inside) :
    ∃ t a, w.Before (t :: a) ∧ Ended (t :: a) := by
  have nonneg := inside.nonneg
  have below := inside.below
  cases ahead : w.tokens.toList.drop w.index.toNat with
  | nil =>
      have nothing := List.drop_eq_nil_iff.mp ahead
      rw [Array.length_toList] at nothing
      omega
  | cons t a =>
      refine ⟨t, a, ⟨inside.nonneg, ahead⟩, ?_⟩
      rw [← ahead]
      exact inside.ended.suffix (List.drop_suffix _ _) (by rw [ahead]; exact List.cons_ne_nil t a)

/-- Before the end of the program there is a next token. -/
theorem Inside.next_below {w : Walk} (inside : w.Inside) (other : w.current.lexeme ≠ .eof) :
    w.index + 1 < w.tokens.size := by
  obtain ⟨t, a, before, ended⟩ := inside.exists_before
  rw [w.current_of_before before] at other
  have position := index_of_before before
  obtain _ | ⟨u, a⟩ := a
  · exact (ended.tail other).elim
  · simp only [List.length_cons] at position
    omega

theorem Inside.untallied {w : Walk} (inside : w.Inside) : Inside { w with tally := {} } :=
  ⟨inside.ended, inside.nonneg, inside.below⟩

/-- Footprints that are among the tokens. -/
def Holds (w : Walk) (trail : List Footprint) : Prop :=
  ∀ index : Int, .place index ∈ trail → 0 ≤ index ∧ index < w.tokens.size

theorem holds_nil (w : Walk) : w.Holds [] := by
  intro index member
  cases member

theorem Holds.append {w : Walk} {trail trail' : List Footprint} (first : w.Holds trail)
    (second : w.Holds trail') : w.Holds (trail ++ trail') := by
  intro index member
  exact (List.mem_append.mp member).elim (first index) (second index)

/-- The walk stands at one of its own tokens. -/
theorem Inside.holds {w : Walk} (inside : w.Inside) : w.Holds [.place w.index] := by
  intro index member
  simp only [List.mem_singleton, Footprint.place.injEq] at member
  exact member ▸ ⟨inside.nonneg, inside.below⟩

/-- Where a rule that leaves the given footprints leads: to one of the tokens, and to a tally that
has grown by the distance walked and the given debt, unless the end of the program was met. -/
structure Leads (w : Walk) (debt : Int) (trail : List Footprint) (after : Walk) : Prop where
  marks : after.marks = w.marks
  tread : Footprint.Tread w.index trail after.index
  nonneg : 0 ≤ after.index
  below : after.index < w.tokens.size
  counted : .ending ∉ trail →
    after.index - after.tally.taken = w.index - w.tally.taken - debt

theorem Leads.inside {w after : Walk} {debt : Int} {trail : List Footprint}
    (leads : w.Leads debt trail after) (inside : w.Inside) : after.Inside :=
  inside.moved leads.marks leads.nonneg leads.below

theorem Inside.leads {w : Walk} {trail : List Footprint} (inside : w.Inside)
    (tread : Footprint.Tread w.index trail w.index) : w.Leads 0 trail w :=
  ⟨rfl, tread, inside.nonneg, inside.below, fun _ => by omega⟩

theorem Leads.trans {w middle after : Walk} {debt debt' : Int} {trail trail' : List Footprint}
    (first : w.Leads debt trail middle) (second : middle.Leads debt' trail' after) :
    w.Leads (debt + debt') (trail ++ trail') after := by
  refine ⟨second.marks.trans first.marks, first.tread.append second.tread, second.nonneg, ?_,
    fun unmet => ?_⟩
  · rw [← size_of_marks first.marks]
    exact second.below
  · rw [List.mem_append, not_or] at unmet
    have counted := first.counted unmet.1
    have counted' := second.counted unmet.2
    omega

end Walk

/-- An outcome that leads where it should. -/
def Outcome.Led {α : Type} (w : Walk) (debt : Int) (trail : List Footprint) : Outcome α → Prop
  | .ok _ after => w.Leads debt trail after
  | .error _ after => w.Leads debt trail after
  | .fault _ => ∃ last, Footprint.Tread w.index trail last

/-- An outcome that has counted at most one step too many. -/
def Outcome.Strays {α : Type} (w : Walk) : Outcome α → Prop
  | .ok _ after => w.Strays after
  | .error _ after => w.Strays after
  | .fault _ => True

/-- A rule that is traced has counted at most one step too many. -/
theorem Walk.Inside.strays {α : Type} {w : Walk} {rule : Rule α}
    {reads : List Token → α → List Token → Prop} {stray : Lexeme → Prop} (inside : w.Inside)
    (traced : ∀ a, rule.Traced a (reads a) stray) : (rule w).Strays w := by
  obtain ⟨t, a, before, ended⟩ := inside.exists_before
  have result := traced (t :: a) w before ended
  cases run : rule w with
  | ok x after =>
      rw [run] at result
      rcases result with ⟨b, -, follows⟩ | ⟨strays, -⟩
      · exact ⟨follows.marks, Or.inl follows.offset⟩
      · exact strays
  | error diagnostic after => rwa [run] at result
  | fault fault => trivial

theorem Outcome.Led.after {α : Type} {w middle : Walk} {debt debt' : Int}
    {trail trail' : List Footprint} {outcome : Outcome α} (led : outcome.Led middle debt' trail')
    (first : w.Leads debt trail middle) : outcome.Led w (debt + debt') (trail ++ trail') := by
  cases outcome with
  | ok x after => exact first.trans led
  | error diagnostic after => exact first.trans led
  | fault fault => exact led.imp fun _ tread => first.tread.append tread

namespace Rule

/-- Where line ends that are stepped over lead. -/
structure Skips (w after : Walk) : Prop where
  tokens : after.tokens = w.tokens
  offset : after.index - after.tally.taken = w.index - w.tally.taken
  rewind : after.tally.rewind = w.tally.rewind
  ahead : w.index ≤ after.index

theorem exists_skipsWithin (fuel : Nat) (w : Walk) :
    ∃ after, (skipNewlinesWithin fuel : Rule Unit) w = .ok () after ∧ Skips w after := by
  induction fuel generalizing w with
  | zero => exact ⟨w, rfl, rfl, rfl, rfl, Int.le_refl _⟩
  | succ fuel ih =>
      rw [skipNewlinesWithin, act_rule, bind_of_ok (rfl : lexeme w = .ok w.current.lexeme w)]
      cases same : w.current.lexeme with
      | newline =>
          obtain ⟨after, run, skips⟩ :=
            ih { w with index := w.index + 1, tally := w.tally.count }
          have offset := skips.offset
          have ahead := skips.ahead
          simp only [Tally.count] at offset ahead
          exact ⟨after, run, skips.tokens, by omega, skips.rewind, by omega⟩
      | _ => exact ⟨w, rfl, rfl, rfl, rfl, Int.le_refl _⟩

theorem exists_skips (w : Walk) :
    ∃ after, (skipNewlines : Rule Unit) w = .ok () after ∧ Skips w after :=
  exists_skipsWithin (w.tokens.size + 1) w

theorem skipNewlines_skips {w after : Walk} (run : (skipNewlines : Rule Unit) w = .ok () after) :
    Skips w after := by
  obtain ⟨after', run', skips⟩ := exists_skips w
  rw [run] at run'
  cases run'
  exact skips

/-- At a line end the walk moves on. -/
theorem skipNewlines_ahead {w after : Walk} (line : w.current.lexeme = .newline)
    (run : (skipNewlines : Rule Unit) w = .ok () after) : w.index + 1 ≤ after.index := by
  rw [skipNewlines_rule, skipNewlinesWithin, act_rule,
    bind_of_ok (rfl : lexeme w = .ok w.current.lexeme w), line] at run
  obtain ⟨after', run', skips⟩ :=
    exists_skipsWithin w.tokens.size { w with index := w.index + 1, tally := w.tally.count }
  cases run'.symm.trans run
  exact skips.ahead

/-- Going back leads nowhere if no attempt has been given up. -/
theorem rewind_stays {w : Walk} (fresh : w.tally.rewind = 0) : rewind w = .ok () w := by
  simp only [rewind, goBack, fresh, Int.natCast_zero, Int.sub_zero]

end Rule

namespace Recorded

variable {α β : Type}

instance : LawfulMonad Recorded :=
  LawfulMonad.mk' Recorded
    (by
      intro α recorded
      refine Recorded.ext (id_map recorded.rule) (funext fun w => ?_)
      change (match recorded.rule w with
        | .ok _ _ => recorded.trail w ++ []
        | .error _ _ => recorded.trail w
        | .fault _ => recorded.trail w) = recorded.trail w
      cases recorded.rule w <;> simp)
    (by intro α β x next; rfl)
    (by
      intro α β γ recorded second third
      refine Recorded.ext (bind_assoc recorded.rule _ _) (funext fun w => ?_)
      simp only [bind]
      cases recorded.rule w with
      | ok x after =>
          simp only
          cases (second x).rule after <;> simp
      | error diagnostic after => rfl
      | fault fault => rfl)

/-- A recorded rule that does what the rule does, leaves its footprints among the tokens, and leads
where it should.  The debt is what a rule that was observed has counted and what is not in the tally
yet. -/
def Keeps (recorded : Recorded α) (rule : Rule α) (debt : Int) (w : Walk) : Prop :=
  w.Inside → recorded.rule w = rule w ∧ w.Holds (recorded.trail w) ∧
    (rule w).Led w debt (recorded.trail w)

/-- A recorded rule that keeps to the tokens wherever it starts. -/
def Careful (recorded : Recorded α) (rule : Rule α) : Prop :=
  ∀ w, recorded.Keeps rule 0 w

section

variable {recorded : Recorded α} {rule : Rule α} {next : α → Recorded β} {next' : α → Rule β}
  {w : Walk} {debt : Int}

theorem trail_bind_of_ok {x : α} {after : Walk} (run : recorded.rule w = .ok x after) :
    (recorded >>= next).trail w = recorded.trail w ++ (next x).trail after := by
  simp only [bind, run]

theorem trail_bind_of_error {diagnostic : Diagnostic} {after : Walk}
    (run : recorded.rule w = .error diagnostic after) :
    (recorded >>= next).trail w = recorded.trail w := by
  simp only [bind, run]

theorem trail_bind_of_fault {fault : Fault} (run : recorded.rule w = .fault fault) :
    (recorded >>= next).trail w = recorded.trail w := by
  simp only [bind, run]

/-- A rule that succeeds, and what follows it. -/
theorem keeps_bind_of_ok {x : α} {after : Walk} {first : Int} (same : recorded.rule w = rule w)
    (run : rule w = .ok x after) (held : w.Holds (recorded.trail w))
    (leads : w.Leads first (recorded.trail w) after)
    (rest : (next x).Keeps (next' x) (debt - first) after) :
    (recorded >>= next).Keeps (rule >>= next') debt w := by
  intro inside
  obtain ⟨same', held', led⟩ := rest (leads.inside inside)
  rw [run] at same
  rw [trail_bind_of_ok same, Rule.bind_of_ok run]
  refine ⟨(Rule.bind_of_ok same).trans same', held.append ?_, ?_⟩
  · intro index member
    rw [← Walk.size_of_marks leads.marks]
    exact held' index member
  · have total := led.after leads
    rwa [show first + (debt - first) = debt by omega] at total

theorem Keeps.bind (first : recorded.Keeps rule 0 w)
    (second : ∀ x after, rule w = .ok x after → after.Inside →
      (next x).Keeps (next' x) 0 after) :
    (recorded >>= next).Keeps (rule >>= next') 0 w := by
  intro inside
  obtain ⟨same, held, led⟩ := first inside
  cases run : rule w with
  | ok x after =>
      rw [run] at led
      exact keeps_bind_of_ok same run held led (second x after run (led.inside inside)) inside
  | error diagnostic after =>
      rw [run] at same led
      rw [trail_bind_of_error same, Rule.bind_of_error next' run]
      exact ⟨Rule.bind_of_error _ same, held, led⟩
  | fault fault =>
      rw [run] at same led
      rw [trail_bind_of_fault same]
      simp only [Bind.bind, run, same]
      exact ⟨trivial, held, led⟩

theorem Keeps.ite {condition : Prop} [Decidable condition] {yes no : Recorded α}
    {yes' no' : Rule α} (positive : condition → yes.Keeps yes' debt w)
    (negative : ¬condition → no.Keeps no' debt w) :
    (if condition then yes else no).Keeps (if condition then yes' else no') debt w := by
  split
  · next holds => exact positive holds
  · next fails => exact negative fails

theorem Careful.bind (first : recorded.Careful rule)
    (second : ∀ x, (next x).Careful (next' x)) : (recorded >>= next).Careful (rule >>= next') :=
  fun w => (first w).bind fun x after _ _ => second x after

end

/-! ## Actions -/

section

variable {next : α → Recorded β} {next' : α → Rule β} {w : Walk} {debt : Int}

theorem careful_pure (x : α) : (pure x : Recorded α).Careful (pure x) :=
  fun w inside => ⟨rfl, w.holds_nil, inside.leads rfl⟩

theorem careful_error (diagnostic : Walk → Diagnostic) :
    (act fun w => .error (diagnostic w) w : Recorded α).Careful fun w => .error (diagnostic w) w :=
  fun _ inside => ⟨rfl, inside.holds, inside.leads ⟨by omega, rfl⟩⟩

theorem careful_raise (diagnostic : Diagnostic) :
    (act (Rule.raise diagnostic) : Recorded α).Careful (Rule.raise diagnostic) :=
  careful_error fun _ => diagnostic

theorem careful_fail (what : Expectation) :
    (act (Rule.fail what) : Recorded α).Careful (Rule.fail what) :=
  careful_error fun w => .expected what w.current.span

theorem careful_abort (fault : Fault) : (act (Rule.abort fault) : Recorded α).Careful
    (Rule.abort fault) :=
  fun w _ => ⟨rfl, w.holds_nil, w.index, rfl⟩

/-- A single action, and what follows it. -/
theorem keeps_act {action : Rule α} {x : α} {after : Walk} {rest : Int}
    (run : action w = .ok x after) (marks : after.marks = w.marks)
    (step : after.index ≤ w.index + 1)
    (place : w.Inside → 0 ≤ after.index ∧ after.index < w.tokens.size)
    (counted : after.index - after.tally.taken - rest = w.index - w.tally.taken - debt)
    (further : (next x).Keeps (next' x) rest after) :
    (act action >>= next).Keeps (action >>= next') debt w := by
  intro inside
  obtain ⟨nonneg, below⟩ := place inside
  have trail : (act action).trail w = [.place after.index] := by
    simp only [act, run, Outcome.places]
  have held : w.Holds ((act action).trail w) := by
    intro index member
    rw [trail, List.mem_singleton, Footprint.place.injEq] at member
    exact member ▸ ⟨nonneg, below⟩
  have leads : w.Leads (debt - rest) ((act action).trail w) after :=
    ⟨marks, trail ▸ ⟨step, rfl⟩, nonneg, below, fun _ => by omega⟩
  refine keeps_bind_of_ok rfl run held leads ?_ inside
  rwa [show debt - (debt - rest) = rest by omega]

/-- An action that only looks. -/
theorem keeps_look {action : Rule α} {x : α} (run : action w = .ok x w)
    (further : (next x).Keeps (next' x) debt w) :
    (act action >>= next).Keeps (action >>= next') debt w :=
  keeps_act run rfl (by omega) (fun inside => ⟨inside.nonneg, inside.below⟩) rfl further

end

section

variable {w : Walk} {debt : Int}

theorem Keeps.current {next : Token → Recorded β} {next' : Token → Rule β}
    (further : (next w.current).Keeps (next' w.current) debt w) :
    (act Rule.current >>= next).Keeps (Rule.current >>= next') debt w :=
  keeps_look rfl further

theorem Keeps.lexeme {next : Lexeme → Recorded β} {next' : Lexeme → Rule β}
    (further : (next w.current.lexeme).Keeps (next' w.current.lexeme) debt w) :
    (act Rule.lexeme >>= next).Keeps (Rule.lexeme >>= next') debt w :=
  keeps_look rfl further

variable {next : Unit → Recorded β} {next' : Unit → Rule β}

theorem Keeps.advance (other : w.current.lexeme ≠ .eof)
    (further : (next ()).Keeps (next' ()) debt
      { w with index := w.index + 1, tally := w.tally.count }) :
    (act Rule.advance >>= next).Keeps (Rule.advance >>= next') debt w := by
  refine keeps_act rfl rfl (Int.le_refl _) (fun inside => ?_) ?_ further
  · have nonneg := inside.nonneg
    exact ⟨by simp only; omega, inside.next_below other⟩
  · simp only [Tally.count]
    omega

theorem Keeps.advanceOver {l : Lexeme} (same : w.current.lexeme = l) (other : l ≠ .eof)
    (further : (next ()).Careful (next' ())) :
    (act Rule.advance >>= next).Keeps (Rule.advance >>= next') 0 w :=
  .advance (same ▸ other) (further _)

theorem Keeps.takeTruth {value : Bool} (word : ending w.current.lexeme = none)
    (further : (next ()).Careful (next' ())) :
    (act (Rule.takeTruth value) >>= next).Keeps (Rule.takeTruth value >>= next') 0 w := by
  have other : w.current.lexeme ≠ .eof := fun same => by rw [same] at word; cases word
  refine keeps_act rfl (Walk.marks_retagged word rfl) (Int.le_refl _) (fun inside => ?_) ?_
    (further _)
  · have nonneg := inside.nonneg
    exact ⟨by simp only; omega, inside.next_below other⟩
  · simp only [Tally.count]
    omega

/-- Adding the tally of a rule that was observed settles the debt. -/
theorem Keeps.register {tally : Tally}
    (further : (next ()).Keeps (next' ()) 0 { w with tally := w.tally.register tally }) :
    (act (Rule.register tally) >>= next).Keeps (Rule.register tally >>= next') tally.taken w := by
  refine keeps_act rfl rfl (by simp only; omega) (fun inside => ⟨inside.nonneg, inside.below⟩) ?_
    further
  simp only [Tally.register]
  omega

/-- So does going back by the steps that it has counted, if that leads to one of the tokens. -/
theorem Keeps.takeBack {steps : Nat}
    (place : w.Inside → 0 ≤ w.index - steps)
    (further : (next ()).Keeps (next' ()) 0
      { w with index := w.index - steps, tally := { w.tally with rewind := steps } }) :
    (act (Rule.noteRewind steps) >>= fun _ => act Rule.rewind >>= next).Keeps
      (Rule.noteRewind steps >>= fun _ => Rule.rewind >>= next') steps w := by
  refine keeps_act rfl rfl (by simp only; omega) (fun inside => ⟨inside.nonneg, inside.below⟩) rfl
    ?_
  refine keeps_act rfl rfl (by simp only; omega) (fun inside => ?_) ?_ further
  · have below := inside.below
    have nonneg := place ⟨inside.ended, inside.nonneg, below⟩
    exact ⟨nonneg, by simp only at below ⊢; omega⟩
  · simp only
    omega

end

/-! ## Calls -/

section

variable {called : Recorded α} {rule : Rule α} {w : Walk}

/-- A rule that was observed has counted its steps, but they are not in the tally yet. -/
theorem Keeps.observe {next : Except Diagnostic α × Tally → Recorded β}
    {next' : Except Diagnostic α × Tally → Rule β} (inner : called.Careful rule)
    (good : ∀ x after, rule { w with tally := {} } = .ok x after →
      (next (.ok x, after.tally)).Keeps (next' (.ok x, after.tally)) after.tally.taken
        { after with tally := w.tally })
    (bad : ∀ d after, rule { w with tally := {} } = .error d after →
      (next (.error d, after.tally)).Keeps (next' (.error d, after.tally)) after.tally.taken
        { after with tally := w.tally }) :
    (Recorded.observe called >>= next).Keeps (Rule.observe rule >>= next') 0 w := by
  intro inside
  obtain ⟨same, held, led⟩ := inner { w with tally := {} } inside.untallied
  have same' : (Recorded.observe called).rule w = Rule.observe rule w := by
    simp only [Recorded.observe, Rule.observe, same]
  have restored : ∀ after : Walk,
      Walk.Leads { w with tally := {} } 0 (called.trail { w with tally := {} }) after →
        w.Leads (-after.tally.taken) ((Recorded.observe called).trail w)
          { after with tally := w.tally } := by
    intro after leads
    refine ⟨leads.marks, leads.tread, leads.nonneg, leads.below, fun unmet => ?_⟩
    have counted := leads.counted unmet
    simp only at counted ⊢
    omega
  cases run : rule { w with tally := {} } with
  | ok x after =>
      rw [run] at led
      have observed : Rule.observe rule w =
          .ok (.ok x, after.tally) { after with tally := w.tally } := by
        simp only [Rule.observe, run]
      refine keeps_bind_of_ok same' observed held (restored after led) ?_ inside
      simpa using good x after run
  | error d after =>
      rw [run] at led
      have observed : Rule.observe rule w =
          .ok (.error d, after.tally) { after with tally := w.tally } := by
        simp only [Rule.observe, run]
      refine keeps_bind_of_ok same' observed held (restored after led) ?_ inside
      simpa using bad d after run
  | fault fault =>
      rw [run] at led
      have observed : Rule.observe rule w = .fault fault := by simp only [Rule.observe, run]
      rw [trail_bind_of_fault (same'.trans observed)]
      simp only [Bind.bind, same', observed]
      exact ⟨trivial, held, led⟩

theorem careful_call (inner : called.Careful rule) : (Rule.call called).Careful (Rule.call rule) :=
  fun _ => .observe inner (fun x _ _ => .register (careful_pure x _))
    fun d _ _ => .register (careful_raise d _)

theorem careful_callOr (inner : called.Careful rule) (replacement : Walk → Diagnostic) :
    (Rule.callOr called replacement).Careful (Rule.callOr rule replacement) := by
  refine fun _ => .observe inner (fun x _ _ => .register (careful_pure x _))
    fun d after _ => .register (.ite (fun _ => ?_) fun _ => ?_)
  · exact careful_error replacement _
  · exact careful_raise d _

/-- An attempt that is taken back leads to where it was made or to the token before, so it is made
behind a token. -/
theorem Keeps.attempt {next : Option α → Recorded β} {next' : Option α → Rule β}
    {rest : Recorded β} {rest' : Rule β} (inner : called.Careful rule)
    (strays : ∀ v : Walk, v.Inside → (rule v).Strays v) (room : 1 ≤ w.index)
    (found : ∀ x, (next (some x)).Careful (next' (some x))) (missing : rest.Careful rest')
    (back : next none = act Rule.rewind >>= fun _ => rest)
    (back' : next' none = Rule.rewind >>= fun _ => rest') :
    (Rule.attempt called >>= next).Keeps (Rule.attempt rule >>= next') 0 w := by
  intro inside
  rw [Rule.attempt, Rule.attempt, bind_assoc, bind_assoc]
  refine Keeps.observe inner (fun x after _ => ?_) (fun d after run => ?_) inside
  · simp only [bind_assoc, pure_bind]
    exact .register (found x _)
  · have strayed := strays _ inside.untallied
    rw [run] at strayed
    have offset := strayed.offset
    simp only [bind_assoc, pure_bind, back, back']
    exact .takeBack (fun _ => by simp only at offset ⊢; omega) (missing _)

end

/-! ## Moving over tokens -/

theorem careful_expect {matching : Lexeme → Bool} {what : Expectation}
    (noEnd : matching .eof = false) :
    Careful (Rule.expect matching what) (Rule.expect matching what) := by
  intro w
  refine .lexeme (.ite (fun found => ?_) fun _ => careful_fail what w)
  have other : w.current.lexeme ≠ .eof := by
    intro isEnd
    rw [isEnd, noEnd] at found
    cases found
  have moved : (act Rule.advance >>= pure).Keeps (Rule.advance >>= pure) 0 w :=
    .advance other (careful_pure () _)
  rwa [bind_pure, bind_pure] at moved

theorem careful_keyword (word : Keyword) : Careful (keyword word) (keyword word) :=
  careful_expect rfl

theorem careful_name (what : Expectation) : Careful (name what) (name what) := by
  intro w
  refine .current ?_
  cases same : w.current.lexeme with
  | name text => exact .advanceOver same Lexeme.noConfusion (careful_pure _)
  | _ => exact careful_fail what w

theorem careful_skipNewlines : Careful Rule.skipNewlines Rule.skipNewlines := by
  have within : ∀ fuel,
      Careful (Rule.skipNewlinesWithin fuel) (Rule.skipNewlinesWithin fuel) := by
    intro fuel
    induction fuel with
    | zero => exact careful_pure ()
    | succ fuel ih =>
        intro w
        refine .lexeme ?_
        cases same : w.current.lexeme with
        | newline => exact .advanceOver same Lexeme.noConfusion ih
        | _ => exact careful_pure () w
  exact fun w => keeps_look rfl (within (w.tokens.size + 1) w)

end Recorded
end Pseudocode
