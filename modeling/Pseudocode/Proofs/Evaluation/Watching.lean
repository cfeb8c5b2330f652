import Pseudocode.Proofs.Evaluation.Places
import Pseudocode.Proofs.Evaluation.Traversal

/-!
# Watched evaluations

A run is watched by a second one that goes along with it and gives up before the first comes to an
error without a place.  So the two end alike, with an error that has a place if with any, or the
second gives up and the first ends in a fault or in an error without a place.
-/

namespace Pseudocode

/-! ## Endings -/

theorem Diagnostic.exists_render_iff_placed (d : Diagnostic) :
    (∃ report, d.render = .ok report) ↔ d.Placed := by
  obtain ⟨problem, span⟩ := d
  cases span with
  | none =>
      constructor
      · rintro ⟨report, shown⟩
        cases shown
      · intro placed
        cases placed
  | some span =>
      refine ⟨fun _ => rfl, fun _ => ?_⟩
      cases problem <;> exact ⟨_, rfl⟩

/-- One object of a store. -/
def Store.Within (s : Store) (r r' : Ref) : Prop :=
  r = r' ∧ r.index < s.objects.size

/-- Endings that answer to each other, where an error is the same one and has a place. -/
abbrev Ending.Shown {α : Type} (s : Store) (R : α → α → Prop) : Ending α → Ending α → Prop :=
  Ending.Paired R (Signal.Paired s.Within) fun d e => d = e ∧ d.Placed

/-- An ending with an error without a place or with a fault. -/
def Ending.Unshown {α : Type} : Ending α → Prop
  | .value _ => False
  | .signal _ => False
  | .error diagnostic => diagnostic.span = none
  | .fault _ => True

/-- A run from a store, and the run that watches it. -/
structure Watched {α : Type} (s : Store) (R : Store → α → α → Prop) (o p : Ending α × World) :
    Prop where
  leads : s.Leads o.2.store
  outcome : p.1 = .fault .exhausted ∧ o.1.Unshown ∨
    o.2 = p.2 ∧ Ending.Shown o.2.store (R o.2.store) o.1 p.1

namespace Watched

variable {α β : Type} {s : Store} {R : Store → α → α → Prop} {S : Store → β → β → Prop}
variable {ending ending' : Ending α} {after : World}

theorem now (leads : s.Leads after.store)
    (shown : Ending.Shown after.store (R after.store) ending ending') :
    Watched s R (ending, after) (ending', after) :=
  ⟨leads, .inr ⟨rfl, shown⟩⟩

theorem gaveUp {last : World} (leads : s.Leads after.store) (unshown : ending.Unshown) :
    Watched s R (ending, after) (.fault .exhausted, last) :=
  ⟨leads, .inl ⟨rfl, unshown⟩⟩

theorem value {a : α} {p : Ending α × World} (watched : Watched s R (.value a, after) p) :
    ∃ a', R after.store a a' := by
  obtain ⟨_, unshown⟩ | ⟨_, shown⟩ := watched.outcome
  · cases unshown
  · obtain ⟨ending, last⟩ := p
    cases shown with
    | value results => exact ⟨_, results⟩

/-- Handlers that pass errors and faults on only have to watch values and signals. -/
theorem handled {o p : Ending α × World} {handle handle' : Ending α × World → Ending β × World}
    (watched : Watched s R o p) (passes : Ending.Passes handle) (passes' : Ending.Passes handle')
    (values : ∀ a a' after, o = (.value a, after) → s.Leads after.store → R after.store a a' →
      Watched s S (handle (.value a, after)) (handle' (.value a', after)))
    (signals : ∀ signal signal' after, s.Leads after.store →
      Signal.Paired after.store.Within signal signal' →
      Watched s S (handle (.signal signal, after)) (handle' (.signal signal', after))) :
    Watched s S (handle o) (handle' p) := by
  obtain ⟨leads, outcome⟩ := watched
  obtain ⟨ending, after⟩ := o
  obtain ⟨ending', after'⟩ := p
  obtain ⟨exhausted, unshown⟩ | ⟨same, shown⟩ := outcome
  · cases exhausted
    rw [passes'.fault]
    cases ending with
    | value | signal => cases unshown
    | error diagnostic =>
        rw [passes.error]
        exact .gaveUp leads unshown
    | fault fault =>
        rw [passes.fault]
        exact .gaveUp leads unshown
  · cases same
    cases shown with
    | value results => exact values _ _ after rfl leads results
    | signal paired => exact signals _ _ after leads paired
    | error shown =>
        rw [passes.error, passes'.error]
        exact .now leads (.error shown)
    | fault fault =>
        rw [passes.fault, passes'.fault]
        exact .now leads (.fault fault)

end Watched

/-- What follows a watched run has that run at hand. -/
theorem Eval.watched_bind {α β : Type} {R : Store → α → α → Prop} {S : Store → β → β → Prop}
    {first second : Eval α} {next later : α → Eval β} {w : World}
    (before : Watched w.store R (first w) (second w))
    (continues : ∀ a a' after, first w = (.value a, after) → w.store.Leads after.store →
      R after.store a a' → Watched after.store S (next a after) (later a' after)) :
    Watched w.store S ((first >>= next) w) ((second >>= later) w) := by
  apply before.handled (passes_bind w next) (passes_bind w later)
  · intro a a' after run leads holds
    have continued := continues a a' after run leads holds
    exact ⟨leads.trans continued.leads, continued.outcome⟩
  · intro signal signal' after leads paired
    exact .now leads (.signal paired)

/-! ## Parts of evaluations -/

/-- The comparison of a run with one that watches it and gives up where it is barred.  It is linked
by the store that the runs have come to. -/
def Comparison.watching (barred : Node → Frame → World → Bool) : Comparison where
  Link := Store
  Extends := Store.Retains
  Nodes _ := Eq
  Spans := Eq
  Refs := Store.Within
  Values s r r' := s.Within r r' ∧ s.Valued r
  Storages _ := Eq
  Owners _ := Eq
  Entries _ := Eq
  Frames _ := Eq
  Bounds := Eq
  Runs _ := True
  Worlds s w v := w = v ∧ w.store = s ∧ s.Sound
  Outcomes _ := Watched
  barred := barred

theorem Store.Retains.within {s t : Store} {r r' : Ref} (retains : s.Retains t)
    (within : s.Within r r') : t.Within r r' :=
  ⟨within.1, Nat.lt_of_lt_of_le within.2 retains.size⟩

namespace Eval

open Comparison

variable {barred : Node → Frame → World → Bool} {b : Bool} {s : Store} {α β : Type}
variable {R : Store → α → α → Prop} {S : Store → β → β → Prop} {e f : Eval α}

theorem watching_pure {a a' : α} (related : R s a a') :
    (watching barred).Rel b s R (pure a) (pure a') := by
  rintro w _ ⟨rfl, rfl, sound⟩
  exact .now (.refl sound) (.value related)

theorem watching_null : (watching barred).Rel b s (watching barred).Values (pure Store.nullRef)
    (pure Store.nullRef) := by
  rintro w _ ⟨rfl, rfl, sound⟩
  exact .now (.refl sound) (.value ⟨⟨rfl, sound.nonempty⟩, .inl rfl⟩)

theorem watching_bind {k l : α → Eval β} (first : (watching barred).Rel b s R e f)
    (rest : ∀ later a a', s.Retains later → R later a a' →
      (watching barred).Rel b later S (k a) (l a')) :
    (watching barred).Rel b s S (e >>= k) (f >>= l) := by
  rintro w _ ⟨rfl, rfl, sound⟩
  apply watched_bind (first w w ⟨rfl, rfl, sound⟩)
  intro a a' after _ leads related
  exact rest after.store a a' leads.toRetains related after after ⟨rfl, rfl, leads.sound⟩

theorem watching_abort (fault : Fault) :
    (watching barred).Rel b s R (abort fault) (abort fault) := by
  rintro w _ ⟨rfl, rfl, sound⟩
  exact .now (.refl sound) (.fault fault)

theorem watching_raise {diagnostic : Diagnostic} (placed : diagnostic.Placed) :
    (watching barred).Rel b s R (raise diagnostic) (raise diagnostic) := by
  rintro w _ ⟨rfl, rfl, sound⟩
  exact .now (.refl sound) (.error ⟨rfl, placed⟩)

theorem watching_send {signal signal' : Signal} (paired : Signal.Paired s.Within signal signal') :
    (watching barred).Rel b s R (send signal) (send signal') := by
  rintro w _ ⟨rfl, rfl, sound⟩
  exact .now (.refl sound) (.signal paired)

/-! ### The store -/

theorem watching_withStore {work : Store → α × Store}
    (works : s.Sound → s.Leads (work s).2 ∧ R (work s).2 (work s).1 (work s).1) :
    (watching barred).Rel b s R (withStore work) (withStore work) := by
  rintro w _ ⟨rfl, rfl, sound⟩
  obtain ⟨leads, related⟩ := works sound
  exact .now leads (.value related)

theorem watching_modifyStore {change : Store → Store} (keeps : s.Sound → s.Leads (change s)) :
    (watching barred).Rel b s (watching barred).Same (modifyStore change) (modifyStore change) := by
  rintro w _ ⟨rfl, rfl, sound⟩
  exact .now (keeps sound) (.value rfl)

theorem watching_fromStore {view : Store → α} (related : s.Sound → R s (view s) (view s)) :
    (watching barred).Rel b s R (fromStore view) (fromStore view) := by
  rintro w _ ⟨rfl, rfl, sound⟩
  exact .now (.refl sound) (.value (related sound))

/-- Work on the store whose refusal is reported at a place. -/
theorem watched_tryStore (work : Store → Except Stop Ref × Store) {w : World}
    (yields : w.store.Yields (work w.store))
    (placed : ∀ stop, (work w.store).1 = .error stop → stop.Placed) :
    Watched w.store Store.Within (tryStore work w) (tryStore work w) := by
  obtain ⟨leads, inside⟩ := yields
  have worked : withStore work w =
      (.value (work w.store).1, { w with store := (work w.store).2 }) := rfl
  change Watched w.store _ ((withStore work >>= _) w) ((withStore work >>= _) w)
  rw [bind_of_value worked]
  cases result : (work w.store).1 with
  | ok ref => exact .now leads (.value ⟨rfl, inside ref result⟩)
  | error stop =>
      have shown := placed stop result
      cases stop with
      | error diagnostic => exact .now leads (.error ⟨rfl, shown⟩)
      | fault fault => exact .now leads (.fault fault)

theorem watching_fresh {object : Object} (new : object.datum ≠ .bare)
    (placed : object.span.isSome = true) :
    (watching barred).Rel b s (watching barred).Values (fresh object) (fresh object) :=
  watching_withStore fun sound => ⟨⟨.alloc s object, sound.alloc new⟩,
    ⟨rfl, (Store.holds_alloc s object).index_lt⟩, .inr (Store.places_alloc s placed)⟩

theorem watching_answer {object : Object} (new : object.datum ≠ .bare) :
    (watching barred).Rel b s Store.Within (fresh object) (fresh object) :=
  watching_withStore fun sound => ⟨⟨.alloc s object, sound.alloc new⟩, rfl,
    (Store.holds_alloc s object).index_lt⟩

theorem watching_located {ref ref' : Ref} (within : s.Within ref ref') (span : Span) :
    (watching barred).Rel b s (watching barred).Values (located ref span) (located ref' span) := by
  obtain ⟨rfl, inside⟩ := within
  have placed : (watching barred).Rel b s (fun t _ _ => t.Within ref ref ∧ t.Places ref)
      (modifyStore fun store => store.setSpan ref span)
      (modifyStore fun store => store.setSpan ref span) := by
    rintro w _ ⟨rfl, rfl, sound⟩
    have retains := Store.Retains.setSpan w.store ref span
    exact .now ⟨retains, sound.setSpan ref span⟩
      (.value ⟨retains.within ⟨rfl, inside⟩, Store.places_setSpan inside span⟩)
  apply watching_bind placed
  intro later _ _ _ places
  exact watching_pure ⟨places.1, .inr places.2⟩

/-- An operation that is reported at a place if it is refused, and whose result gets one. -/
theorem watched_operation (work : Store → Except Stop Ref × Store) {w : World} (span : Span)
    (yields : w.store.Yields (work w.store))
    (placed : ∀ stop, (work w.store).1 = .error stop → stop.Placed) :
    Watched w.store (watching barred).Values
      ((tryStore work >>= fun result => located result span) w)
      ((tryStore work >>= fun result => located result span) w) := by
  apply watched_bind (watched_tryStore work yields placed)
  intro result result' after _ leads within
  exact watching_located (b := false) within span after after ⟨rfl, rfl, leads.sound⟩

/-- A copy has the place that it is made for, whatever is copied. -/
theorem watching_takenOver (ref : Ref) (span : Span) (frame : Frame) :
    (watching barred).Rel b s (watching barred).Values (takenOver ref span frame)
      (takenOver ref span frame) := by
  have copied : (watching barred).Rel b s Store.Within (copied ref) (copied ref) := by
    have worked : (watching barred).Rel b s
        (fun t result result' => result = result' ∧
          ∀ copy, result = .ok copy → copy.index < t.objects.size)
        (withStore fun store => store.copy ref) (withStore fun store => store.copy ref) :=
      watching_withStore fun sound => ⟨(sound.copy ref).leads, rfl, (sound.copy ref).inside⟩
    apply watching_bind worked
    rintro later result _ _ ⟨rfl, inside⟩
    cases result with
    | ok copy => exact watching_pure ⟨rfl, inside copy rfl⟩
    | error fault => exact watching_abort fault
  apply watching_bind copied
  rintro t copy _ _ ⟨rfl, inside⟩
  have placed : (watching barred).Rel b t (fun u _ _ => u.Within copy copy ∧ u.Places copy)
      (modifyStore fun store => (store.setSpan copy span).setFrame copy frame)
      (modifyStore fun store => (store.setSpan copy span).setFrame copy frame) := by
    rintro w _ ⟨rfl, rfl, sound⟩
    have first := Store.Retains.setSpan w.store copy span
    have second := Store.Retains.setFrame (w.store.setSpan copy span) copy frame
    exact .now ⟨first.trans second, (sound.setSpan copy span).setFrame copy frame⟩
      (.value ⟨(first.trans second).within ⟨rfl, inside⟩,
        second.places copy (Store.places_setSpan inside span)⟩)
  apply watching_bind placed
  intro later _ _ _ places
  exact watching_pure ⟨places.1, .inr places.2⟩

theorem watching_access (name : Name) (frame : Frame) :
    (watching barred).Rel b s (watching barred).Values (Evaluator.access name frame)
      (Evaluator.access name frame) := by
  have found : (watching barred).Rel b s (watching barred).Same
      (fromStore fun store => store.find? frame.scope name.text)
      (fromStore fun store => store.find? frame.scope name.text) :=
    watching_fromStore fun _ => rfl
  apply watching_bind found
  rintro later ref _ _ rfl
  cases ref with
  | some ref => exact watching_takenOver ref name.span frame
  | none => exact watching_raise rfl

theorem watching_updateElements {f g : Array Ref → Array Ref} (storage : StorageId)
    (changes : ∀ later xs ys, s.Retains later → Pairing.Lists later.Within xs ys →
      Pairing.Lists later.Within (f xs) (g ys)) :
    (watching barred).Rel b s (watching barred).Same
      (modifyStore fun store => store.updateElements storage f)
      (modifyStore fun store => store.updateElements storage g) := by
  have changed (xs : Array Ref) (inside : ∀ ref ∈ xs, ref.index < s.objects.size) :
      Pairing.Lists s.Within (f xs) (g xs) :=
    changes s xs xs (.refl s) (List.forall₂_same.mpr fun ref member =>
      ⟨rfl, inside ref (Array.mem_toList_iff.mp member)⟩)
  have same (xs : Array Ref) (inside : ∀ ref ∈ xs, ref.index < s.objects.size) : f xs = g xs :=
    (changed xs inside).eq fun _ _ within => within.1
  rintro w _ ⟨rfl, rfl, sound⟩
  have leads : w.store.Leads (w.store.updateElements storage f) := by
    apply sound.updates storage
    intro xs inside ref member
    have lists := changed xs inside
    rw [← same xs inside] at lists
    exact (List.forall₂_same.mp lists ref (Array.mem_toList_iff.mpr member)).2
  have equal : w.store.updateElements storage f = w.store.updateElements storage g :=
    Store.updateElements_congr (same _ fun _ member => sound.inside member)
  exact ⟨leads, .inr ⟨congrArg (fun store => { w with store := store }) equal, .value rfl⟩⟩

/-! ### Input and output -/

theorem watching_print (text : String) :
    (watching barred).Rel b s (watching barred).Same (print text) (print text) := by
  rintro w _ ⟨rfl, rfl, sound⟩
  exact .now (.refl sound) (.value rfl)

theorem watching_scripts {R : Store → Scripts → Scripts → Prop}
    (related : ∀ found, R s found found) :
    (watching barred).Rel b s R (fun w => (.value w.scripts, w))
      (fun w => (.value w.scripts, w)) := by
  rintro w _ ⟨rfl, rfl, sound⟩
  exact .now (.refl sound) (.value (related w.scripts))

theorem watching_readLine :
    (watching barred).Rel b s (watching barred).Same readLine readLine := by
  rintro w _ ⟨rfl, rfl, sound⟩
  unfold readLine
  split
  · exact .now (.refl sound) (.fault _)
  · exact .now (.refl sound) (.value rfl)

theorem watching_draw (low high : Number) :
    (watching barred).Rel b s (watching barred).Same (draw low high) (draw low high) := by
  rintro w _ ⟨rfl, rfl, sound⟩
  unfold draw
  split
  · exact .now (.refl sound) (.value rfl)
  · exact .now (.refl sound) (.fault _)

/-- Orders to the robot that are reported at a place. -/
theorem watching_command (span : Span) (act : Robot → Robot.Answer α) :
    (watching barred).Rel b s (watching barred).Same (command (some span) act)
      (command (some span) act) := by
  rintro w _ ⟨rfl, rfl, sound⟩
  unfold command
  dsimp only
  split
  · exact .now (.refl sound) (.value rfl)
  · exact .now (.refl sound) (.error ⟨rfl, rfl⟩)
  · exact .now (.refl sound) (.fault _)

/-! ### Control -/

theorem watching_callBody (bodies : (watching barred).Rel false s R e f) :
    (watching barred).Rel b s Store.Within (callBody e) (callBody f) := by
  rintro w _ ⟨rfl, rfl, sound⟩
  apply (bodies w w ⟨rfl, rfl, sound⟩).handled (passes_callBody w) (passes_callBody w)
  · intro a a' after _ leads _
    exact .now leads (.value ⟨rfl, leads.sound.nonempty⟩)
  · intro signal signal' after leads paired
    cases paired with
    | returning within => exact .now leads (.value within)
    | breaking => exact .now leads (.signal .breaking)
    | continuing => exact .now leads (.signal .continuing)

theorem watching_round (bodies : (watching barred).Rel true s R e f) :
    (watching barred).Rel b s (watching barred).Same (round e) (round f) := by
  rintro w _ ⟨rfl, rfl, sound⟩
  apply (bodies w w ⟨rfl, rfl, sound⟩).handled (passes_round w) (passes_round w)
  · intro a a' after _ leads _
    exact .now leads (.value rfl)
  · intro signal signal' after leads paired
    cases paired with
    | returning within => exact .now leads (.signal (.returning within))
    | breaking | continuing => exact .now leads (.value rfl)

theorem watching_program (bodies : (watching barred).Rel true s R e f) :
    (watching barred).Rel b s (fun later => Option.Rel (R later)) (program e) (program f) := by
  rintro w _ ⟨rfl, rfl, sound⟩
  apply (bodies w w ⟨rfl, rfl, sound⟩).handled (passes_program w) (passes_program w)
  · intro a a' after _ leads related
    exact .now leads (.value (.some related))
  · intro signal signal' after leads _
    exact .now leads (.value .none)

/-- The failure of a script is reported at the call if it can be shown, and is a fault if not. -/
theorem watching_runScript {R : Store → Unit → Unit → Prop} {e f : Eval Unit} (site : Site)
    (name : String) (scripts : (watching barred).Rel b s R e f) :
    (watching barred).Rel b s R (Builtin.runScript site name e)
      (Builtin.runScript site name f) := by
  rintro w _ ⟨rfl, rfl, sound⟩
  obtain ⟨leads, outcome⟩ := scripts w w ⟨rfl, rfl, sound⟩
  unfold Builtin.runScript
  generalize e w = o at leads outcome ⊢
  generalize f w = p at outcome ⊢
  obtain ⟨ending, after⟩ := o
  obtain ⟨ending', after'⟩ := p
  obtain ⟨exhausted, unshown⟩ | ⟨same, shown⟩ := outcome
  · cases exhausted
    cases ending with
    | value | signal => cases unshown
    | fault fault => exact .gaveUp leads trivial
    | error diagnostic =>
        obtain ⟨problem, span⟩ := diagnostic
        cases unshown
        exact .gaveUp leads trivial
  · cases same
    cases shown with
    | value results => exact .now leads (.value results)
    | signal paired => exact .now leads (.signal paired)
    | fault fault => exact .now leads (.fault fault)
    | @error diagnostic _ shown =>
        obtain ⟨rfl, placed⟩ := shown
        obtain ⟨report, rendered⟩ := diagnostic.exists_render_iff_placed.mpr placed
        dsimp only
        rw [rendered]
        exact .now leads (.error ⟨rfl, rfl⟩)

end Eval

namespace Evaluator

open Eval

theorem leads_bindArguments {t : Store} (sound : t.Sound) (frame : Frame) (names : List String)
    (refs : List Ref) : t.Leads (bindArguments frame names refs t) := by
  induction names generalizing refs t with
  | nil => exact .refl sound
  | cons name names ih =>
      cases refs with
      | nil => exact .refl sound
      | cons ref refs =>
          have framed := sound.setFrame ref frame
          have bound : t.Leads ((t.setFrame ref frame).bind frame.scope name ref) :=
            ⟨(Store.Retains.setFrame t ref frame).trans (.of_objects rfl),
              { framed with }⟩
          exact bound.trans (ih bound.sound refs)

/-- Entering a procedure leaves the robot alone. -/
theorem robot_enter (callee : Object) (name : String) (parameters : List String)
    (arguments : List Ref) (span : Span) (w : World) :
    (enter callee name parameters arguments span w).2.robot = w.robot := by
  obtain ⟨datum, place, owner⟩ := callee
  cases owner with
  | none => rfl
  | some caller =>
      have pushed : withStore (fun store => store.pushScope caller.scope) w =
          (.value (w.store.pushScope caller.scope).1,
            { w with store := (w.store.pushScope caller.scope).2 }) := rfl
      unfold enter
      dsimp only
      rw [bind_of_value pushed]
      by_cases more : parameters.length < arguments.length
      · simp only [more, if_true]
        rfl
      · simp only [more, if_false]
        by_cases fewer : arguments.length < parameters.length
        · simp only [fewer, if_true]
          rfl
        · simp only [fewer, if_false]
          rfl

end Evaluator

namespace Accord

open Comparison Eval

/-- Runs are watched through all that evaluations are made of. -/
def watching (barred : Node → Frame → World → Bool) : Accord where
  toComparison := .watching barred
  extends_refl := .refl
  extends_trans := .trans
  refs_mono := Store.Retains.within
  values_mono retains values := ⟨retains.within values.1, values.2.mono retains⟩
  storages_mono _ same := same
  owners_mono _ same := same
  frames_mono _ same := same
  refs_of_values values := values.1
  owners_of_frames same := same
  entries_of_frames same := same
  spans_of_nodes same := congrArg Node.span same
  shapes_of_nodes same := same ▸ .refl (fun _ => rfl) (fun _ => rfl) _
  nodes_of_runs _ _ := rfl
  bounds_succ same := ⟨_, same, rfl⟩
  rel_pure := watching_pure
  rel_bind := watching_bind
  rel_abort := watching_abort
  rel_exhausted bounds zero := by
    cases bounds
    rw [zero]
    exact watching_abort .exhausted
  rel_early {_ _ _ _ stop} early := by
    have placed := early.placed
    cases stop with
    | error diagnostic => exact watching_raise placed
    | fault fault => exact watching_abort fault
  rel_fail what owners spans := by
    cases owners
    cases spans
    exact watching_raise rfl
  rel_return within := watching_send (.returning within)
  rel_break _ := watching_send .breaking
  rel_continue _ := watching_send .continuing
  rel_callBody := watching_callBody
  rel_round := watching_round
  rel_program bodies := watching_program (bodies rfl)
  rel_runScript name scripts frames spans := by
    cases frames
    cases spans
    exact watching_runScript _ name scripts
  rel_null := watching_null
  rel_fresh objects new placed := by
    cases objects.eq
    exact watching_fresh new placed
  rel_answer scalar := watching_answer (Datum.ne_bare_of_isScalar scalar)
  rel_object within := by
    cases within.1
    refine watching_fromStore fun _ => ?_
    exact .refl (.refl (fun _ => rfl) fun _ _ => rfl) (fun _ => rfl) fun _ => rfl
  rel_takenOver within spans owners := by
    cases within.1
    cases spans
    cases owners
    exact watching_takenOver _ _ _
  outcomes_access {_ _ x y f _ w v} texts spans frames worlds _ := by
    obtain ⟨text, span⟩ := x
    obtain ⟨text', span'⟩ := y
    cases texts
    cases spans
    cases frames
    exact watching_access (b := false) _ f w v worlds
  rel_bindName name frames within := by
    cases frames
    cases within.1
    exact watching_modifyStore fun sound => ⟨.of_objects rfl, { sound with }⟩
  rel_allocStorage lists := by
    cases Pairing.eq_of_forall₂ lists fun _ _ within => within.1
    refine watching_withStore fun sound => ⟨⟨.of_objects rfl, sound.allocStorage ?_⟩, rfl⟩
    intro ref member
    exact (List.forall₂_same.mp lists ref (List.mem_toArray.mp member)).2
  rel_elements storages := by
    cases storages
    refine watching_fromStore fun sound => ?_
    exact List.forall₂_same.mpr fun ref member =>
      ⟨rfl, sound.inside (Array.mem_toList_iff.mp member)⟩
  rel_updateElements storages changes := by
    cases storages
    exact watching_updateElements _ changes
  rel_snapshot within := by
    cases within.1
    exact watching_fromStore fun _ => rfl
  rel_pushScope name owners spans := by
    cases owners
    cases spans
    exact watching_withStore fun sound => ⟨⟨.of_objects rfl, { sound with }⟩, rfl⟩
  rel_bindArguments names frames lists := by
    cases frames
    cases Pairing.eq_of_forall₂ lists fun _ _ within => within.1
    exact watching_modifyStore fun sound => Evaluator.leads_bindArguments sound _ names _
  rel_print := watching_print
  rel_readLine := watching_readLine
  rel_draw := watching_draw
  rel_order _ spans := by
    cases spans
    exact watching_command _ _
  rel_scripts := watching_scripts fun _ => ⟨rfl, fun _ _ _ => trivial⟩

end Accord
end Pseudocode
