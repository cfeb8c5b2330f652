import Pseudocode.Proofs.Evaluation.Scoping
import Pseudocode.Proofs.Evaluation.WellFormed

/-!
# Operator expressions

An expression of literals, lists, names and operators binds nothing, but three operators change the
list on their left in place, and a value that is read from a name shares its elements with the name.
An expression that applies none of these operators to a list that was there before leaves the values
of all names alone.  The condition is not necessary: an operator that refuses its right operand, or
finds nothing to take out or to add, changes no list and is barred all the same, and so is one whose
right operand fails before it is applied.
-/

namespace Pseudocode

/-- Expressions of literals, lists, names and operators. -/
inductive Node.Operation : Node → Prop
  | number (value : Number) (span : Span) : Operation (.number value span)
  | truth (value : Bool) (span : Span) : Operation (.truth value span)
  | text (value : String) (span : Span) : Operation (.text value span)
  | access (name : Name) : Operation (.access name)
  | list {elements : List Node} (span : Span) (each : ∀ n ∈ elements, Operation n) :
      Operation (.list elements span)
  | binary {left right : Node} (op : BinaryOp) (mark span : Span) (first : Operation left)
      (second : Operation right) : Operation (.binary left op mark right span)
  | unary {operand : Node} (op : UnaryOp) (mark span : Span) (only : Operation operand) :
      Operation (.unary op mark operand span)

/-- The operators that change a list on their left. -/
def BinaryOp.changesList : BinaryOp → Bool
  | .add | .sub | .mul => true
  | _ => false

/-- An operator is come to that may change one of the first so many storages: it is of a kind that
changes lists, and one of these is on its left, whatever is on its right.  The bound is for finding
the list on its left. -/
def changing (old fuel : Nat) (node : Node) (frame : Frame) (w : World) : Bool :=
  match node with
  | .binary left op _ _ _ =>
      op.changesList &&
        match eval fuel left frame w with
        | (.value ref, after) =>
            match after.store.datum ref with
            | .list storage => storage.index < old
            | _ => false
        | _ => false
  | _ => false

/-! ## Stores with the same lists -/

/-- A store keeps another one, and the first so many storages hold what they held. -/
structure Store.Spares (old : Nat) (before after : Store) : Prop extends before.Keeps after where
  more : before.storages.size ≤ after.storages.size
  storages : ∀ index, index < old → after.storages[index]? = before.storages[index]?

namespace Store.Spares

variable {old : Nat} {s t u : Store}

theorem refl (s : Store) : s.Spares old s where
  toKeeps := .refl s
  more := Nat.le_refl _
  storages _ _ := rfl

theorem trans (first : Spares old s t) (second : Spares old t u) : Spares old s u where
  toKeeps := first.toKeeps.trans second.toKeeps
  more := Nat.le_trans first.more second.more
  storages index inside := (second.storages index inside).trans (first.storages index inside)

theorem alloc (s : Store) (object : Object) : Spares old s (s.alloc object).2 where
  toKeeps := (Store.Keeps.refl s).alloc object
  more := Nat.le_refl _
  storages _ _ := rfl

theorem modify (s : Store) {change : Object → Object} (data : ∀ o, (change o).datum = o.datum)
    (place : Nat) : Spares old s { s with objects := s.objects.modify place change } where
  toKeeps := (Store.Keeps.refl s).modify data place
  more := Nat.le_refl _
  storages _ _ := rfl

theorem allocStorage (enough : old ≤ s.storages.size) (elements : Array Ref) :
    Spares old s (s.allocStorage elements).2 where
  toKeeps := { Store.Keeps.refl s with }
  more := by
    change s.storages.size ≤ (s.storages.push elements).size
    rw [Array.size_push]
    exact Nat.le_succ _
  storages index inside := by
    change (s.storages.push elements)[index]? = _
    rw [Array.getElem?_push, if_neg (by omega)]

theorem updateElements {storage : StorageId} (new : old ≤ storage.index)
    (change : Array Ref → Array Ref) : Spares old s (s.updateElements storage change) where
  toKeeps := { Store.Keeps.refl s with }
  more := Nat.le_of_eq Array.size_modify.symm
  storages index inside := by
    change (s.storages.modify storage.index change)[index]? = _
    rw [Array.getElem?_modify, if_neg (by omega)]

/-! ## Operations -/

theorem copy (s : Store) (ref : Ref) : Spares old s (s.copy ref).2 := by
  unfold Store.copy
  dsimp only
  split
  · exact .refl s
  · exact .alloc s _

theorem negate (s : Store) (ref : Ref) : Spares old s (s.negate ref).2 := by
  unfold Store.negate
  dsimp only
  split
  · exact .alloc s _
  · exact .refl s

/-- The list on the left is a new one, or it is not changed after all. -/
theorem listOperation {op : BinaryOp} {storage : StorageId} {right : Ref} (left : Object)
    (safe : op.changesList = true → old ≤ storage.index ∨
      op = .mul ∧ (s.datum right).isList = false) :
    Spares old s (s.listOperation op left storage right).2 := by
  have changed (change : Array Ref → Array Ref) (new : old ≤ storage.index) :
      Spares old s ((s.updateElements storage change).yield left).2 :=
    (updateElements new change).trans (.alloc _ left)
  unfold Store.listOperation
  split
  · obtain new | ⟨other, _⟩ := safe rfl
    · exact changed _ new
    · cases other
  · obtain new | ⟨other, _⟩ := safe rfl
    · split
      · exact changed _ new
      · exact .refl s
    · cases other
  · rename_i other datum
    obtain new | ⟨_, noList⟩ := safe rfl
    · exact changed _ new
    · rw [datum] at noList
      cases noList
  · split
    · exact .refl s
    · exact .refl s
  · exact .refl s

theorem binary {op : BinaryOp} {left right : Ref}
    (safe : op.changesList = true → ∀ storage, s.datum left = .list storage →
      old ≤ storage.index ∨ op = .mul ∧ (s.datum right).isList = false) :
    Spares old s (s.binary op left right).2 := by
  change Spares old s (s.operate op (s.object left) right).2
  unfold Store.operate
  split
  · rename_i storage isList
    exact listOperation _ fun changes => safe changes storage isList
  · split
    · exact .alloc s _
    · exact .refl s

end Store.Spares

/-! ## Evaluations -/

section

variable {α β : Type} {old : Nat} {w : World} {frame : Frame}

theorem spares_bind {first : Eval α} {next : α → Eval β}
    (before : w.store.Spares old (first w).2.store)
    (later : ∀ a after, first w = (.value a, after) →
      after.store.Spares old (next a after).2.store) :
    w.store.Spares old ((first >>= next) w).2.store := by
  change w.store.Spares old (Eval.bind first next w).2.store
  unfold Eval.bind
  generalize first w = outcome at before later
  obtain ⟨ending, after⟩ := outcome
  cases ending with
  | value a => exact before.trans (later a after rfl)
  | signal | error | fault => exact before

theorem spares_tryStore {work : Store → Except Stop Ref × Store}
    (spares : w.store.Spares old (work w.store).2) :
    w.store.Spares old (Eval.tryStore work w).2.store := by
  apply spares_bind spares
  intro result after run
  cases result with
  | ok ref => exact .refl _
  | error stop => cases stop <;> exact .refl _

theorem spares_located (ref : Ref) (span : Span) :
    w.store.Spares old (Eval.located ref span w).2.store := by
  apply Store.Spares.modify
  intro o
  rfl

theorem spares_takenOver (ref : Ref) (span : Span) (frame : Frame) :
    w.store.Spares old (Eval.takenOver ref span frame w).2.store := by
  have copied : w.store.Spares old (Eval.copied ref w).2.store := by
    apply spares_bind (.copy w.store ref)
    intro result after _
    cases result <;> exact .refl _
  apply spares_bind copied
  intro copy after _
  apply Store.Spares.trans (spares_located copy span)
  apply Store.Spares.modify
  intro o
  rfl

theorem spares_access (name : Name) (frame : Frame) :
    w.store.Spares old (Evaluator.access name frame w).2.store := by
  have looked : w.store.Spares old
      (Eval.fromStore (fun store => store.find? frame.scope name.text) w).2.store := .refl _
  apply spares_bind looked
  intro found after _
  cases found with
  | some ref => exact spares_takenOver ref name.span frame
  | none => exact .refl _

/-- A moment at which an expression can be evaluated. -/
structure Ready (old : Nat) (frame : Frame) (w : World) : Prop where
  wellFormed : w.store.WellFormed
  inside : frame.scope.index < w.store.scopes.size
  enough : old ≤ w.store.storages.size

theorem Ready.value {barred : Node → Frame → World → Bool} {fuel : Nat} {node : Node} {ref : Ref}
    {after : World} (ready : Ready old frame w)
    (run : evalUnless barred fuel node frame w = (.value ref, after)) :
    Ready old frame after ∧ ref.index < after.store.objects.size := by
  let i := wellFormedness barred
  have nodes : i.coupling.Nodes node node := rfl
  have entries : i.coupling.Entries w.store.extent frame frame := ⟨rfl, ready.inside⟩
  have worlds : i.coupling.Worlds w.store.extent w w :=
    Invariant.worlds_refl ⟨rfl, ready.wellFormed⟩
  have outcomes := i.coupling.lockstep_eval (Nat.le_refl fuel) (b := false) nodes entries w w worlds
  change i.coupling.Outcomes _ _ _ (evalUnless barred fuel node frame w) at outcomes
  rw [run] at outcomes
  obtain ⟨_, ⟨_, storages, scopes⟩, ⟨rfl, wellFormed⟩, inside⟩ :=
    Invariant.value_of_outcomes outcomes
  exact ⟨⟨wellFormed, Nat.lt_of_lt_of_le ready.inside scopes, Nat.le_trans ready.enough storages⟩,
    inside⟩

/-- Evaluators that spare the first so many storages in expressions. -/
def SparesOperations (old : Nat) (self : Evaluator) : Prop :=
  ∀ ⦃node frame w⦄, node.Operation → Ready old frame w →
    w.store.Spares old (self node frame w).2.store

variable {barred : Node → Frame → World → Bool} {fuel : Nat}

theorem spares_all (spares : SparesOperations old (evalUnless barred fuel))
    {nodes : List Node} (each : ∀ n ∈ nodes, n.Operation) (ready : Ready old frame w) :
    w.store.Spares old (Evaluator.all (evalUnless barred fuel) frame nodes w).2.store := by
  induction nodes generalizing w with
  | nil => exact .refl _
  | cons node rest ih =>
      apply spares_bind (spares (each node List.mem_cons_self) ready)
      intro ref after run
      have later := ih (fun n member => each n (List.mem_cons_of_mem _ member))
        (ready.value run).1
      apply spares_bind later
      intro refs last _
      exact .refl _

theorem spares_listOf (spares : SparesOperations old (evalUnless barred fuel))
    {nodes : List Node} (each : ∀ n ∈ nodes, n.Operation) (span : Span)
    (ready : Ready old frame w) :
    w.store.Spares old (Evaluator.listOf (evalUnless barred fuel) nodes span frame w).2.store := by
  have elements := spares_all spares each ready
  apply spares_bind elements
  intro refs after run
  rw [run] at elements
  have enough : old ≤ after.store.storages.size := Nat.le_trans ready.enough elements.more
  have stored : after.store.Spares old
      (Eval.withStore (fun store => store.allocStorage refs.toArray) after).2.store :=
    .allocStorage enough _
  apply spares_bind stored
  intro storage last _
  exact .alloc _ _

/-- The list on the left of an operator was found with a greater bound, when it was made sure that
it is a new one. -/
theorem spares_binary {bound : Nat} (fewer : fuel ≤ bound)
    (spares : SparesOperations old (evalUnless (changing old bound) fuel)) {left right : Node}
    (first : left.Operation) (second : right.Operation) (op : BinaryOp) (mark span : Span)
    (ready : Ready old frame w)
    (free : changing old bound (.binary left op mark right span) frame w = false) :
    w.store.Spares old (Evaluator.binary (evalUnless (changing old bound) fuel) left op right span
      frame w).2.store := by
  apply spares_bind (spares first ready)
  intro leftRef after run
  obtain ⟨readyAfter, held⟩ := ready.value run
  have right := spares second readyAfter
  apply spares_bind right
  intro rightRef last runRight
  rw [runRight] at right
  have same : last.store.datum leftRef = after.store.datum leftRef := right.data leftRef held
  have found : eval bound left frame w = (.value leftRef, after) := by
    rw [← run]
    apply Invariant.eval_eq_evalUnless fewer
    rw [run]
    exact fun exhausted => by cases exhausted
  have safe (changes : op.changesList = true) (storage : StorageId)
      (isList : last.store.datum leftRef = .list storage) : old ≤ storage.index := by
    rw [changing, found, changes] at free
    dsimp only at free
    rw [← same, isList] at free
    simpa using free
  have operated : last.store.Spares old
      (Eval.tryStore (fun store => store.binary op leftRef rightRef) last).2.store :=
    spares_tryStore (.binary fun changes storage isList => .inl (safe changes storage isList))
  apply spares_bind operated
  intro result final _
  exact spares_located result span

/-- A minus multiplies by a number, which changes no list. -/
theorem spares_unary (spares : SparesOperations old (evalUnless barred fuel)) {operand : Node}
    (only : operand.Operation) (op : UnaryOp) (span : Span) (ready : Ready old frame w) :
    w.store.Spares old
      (Evaluator.unary (evalUnless barred fuel) op operand span frame w).2.store := by
  apply spares_bind (spares only ready)
  intro ref after _
  cases op with
  | plus => exact spares_located ref span
  | minus =>
      have one : after.store.Spares old
          (Eval.fresh (Datum.number (.whole (-1))).object after).2.store := .alloc _ _
      apply spares_bind one
      intro minusOne last run
      cases run
      have number : ((after.store.alloc (Datum.number (.whole (-1))).object).2.datum
          (after.store.alloc (Datum.number (.whole (-1))).object).1).isList = false := by
        rw [(Store.holds_alloc _ _).datum_eq]
        rfl
      apply spares_bind (spares_tryStore (.binary fun _ _ _ => .inr ⟨rfl, number⟩))
      intro result final _
      exact spares_located result span
  | not =>
      apply spares_bind (spares_tryStore (.negate _ ref))
      intro result final _
      exact spares_located result span

/-- Every run: it gives up before an old list is changed. -/
theorem sparesOperations {bound : Nat} (fewer : fuel ≤ bound) :
    SparesOperations old (evalUnless (changing old bound) fuel) := by
  induction fuel with
  | zero =>
      intro node frame w _ _
      exact .refl _
  | succ fuel ih =>
      intro node frame w operation ready
      have spares := ih (Nat.le_of_succ_le fewer)
      rw [evalUnless]
      cases free : changing old bound node frame w with
      | true => exact .refl _
      | false =>
          cases operation with
          | number | truth | text => exact .alloc _ _
          | access name => exact spares_access name frame
          | list span each => exact spares_listOf spares each span ready
          | binary op mark span first second =>
              exact spares_binary (Nat.le_of_succ_le fewer) spares first second op mark span ready
                free
          | unary op mark span only => exact spares_unary spares only op span ready

end

/-! ## Values -/

namespace Store.Spares

variable {s t : Store}

theorem elements_eq (spares : Spares s.storages.size s t) {storage : StorageId}
    (inside : storage.index < s.storages.size) : t.elements storage = s.elements storage := by
  rw [Store.elements, Store.elements, Array.getD_eq_getD_getElem?, Array.getD_eq_getD_getElem?,
    spares.storages storage.index inside]

/-- Where all lists are spared, values are what they were at every depth.  The bounds on the depth
may differ, because the lists on a path are different ones. -/
theorem snapshotWithin_eq (wellFormed : s.WellFormed) (spares : Spares s.storages.size s t)
    {fuel fuel' : Nat} {path : List StorageId} {ref : Ref} (held : ref.index < s.objects.size)
    (different : path.Nodup) (inside : ∀ storage ∈ path, storage.index < s.storages.size)
    (enough : s.storages.size < fuel + path.length)
    (enough' : s.storages.size < fuel' + path.length) :
    t.snapshotWithin fuel' path ref = s.snapshotWithin fuel path ref := by
  induction fuel generalizing fuel' path ref with
  | zero =>
      have short := length_le_of_nodup different inside
      omega
  | succ fuel ih =>
      have short := length_le_of_nodup different inside
      obtain ⟨fuel', rfl⟩ : ∃ less, fuel' = less + 1 := ⟨fuel' - 1, by omega⟩
      rw [Store.snapshotWithin, Store.snapshotWithin, spares.data ref held]
      split
      all_goals try rfl
      rename_i storage isList
      have here : storage.index < s.storages.size :=
        wellFormed.storage ref.index _ storage (object_eq_of_lt held) isList
      split
      · rfl
      · rename_i new
        have longer : (storage :: path).Nodup :=
          List.nodup_cons.mpr ⟨by simpa using new, different⟩
        have within : ∀ other ∈ storage :: path, other.index < s.storages.size :=
          List.forall_mem_cons.mpr ⟨here, inside⟩
        rw [spares.elements_eq here]
        congr 1
        apply List.map_congr_left
        intro element member
        apply ih _ longer within
        · rw [List.length_cons]
          omega
        · rw [List.length_cons]
          omega
        · exact wellFormed.element storage.index _ element (elements_eq_of_lt here)
            (Array.mem_toList_iff.mp member)

theorem snapshot_eq (wellFormed : s.WellFormed) (spares : Spares s.storages.size s t) {ref : Ref}
    (held : ref.index < s.objects.size) : t.snapshot ref = s.snapshot ref := by
  have more := spares.more
  apply snapshotWithin_eq wellFormed spares held List.nodup_nil
  · intro storage member
    cases member
  · omega
  · omega

end Store.Spares

/-- An expression that applies no operator of a kind that changes lists to a list that was there
before leaves every name of the main program with the value that it had at every depth, be the
result a value or an error.  Some expressions that do apply one leave all names alone as well. -/
theorem operation_spares_globals {w : World} (reached : w.Reached) {node : Node}
    (operation : node.Operation) (fuel : Nat)
    (spared : (evalUnless (changing w.store.storages.size fuel) fuel node
      (.program Store.globalScope) w).1 ≠ .fault .exhausted) :
    (eval fuel node (.program Store.globalScope) w).2.store.scopes.own Store.globalScope =
        w.store.scopes.own Store.globalScope ∧
      ∀ name ref, (w.store.scopes.own Store.globalScope).get? name = some ref →
        (eval fuel node (.program Store.globalScope) w).2.store.snapshot ref =
          w.store.snapshot ref := by
  have wellFormed := reached.wellFormed
  have ready : Ready w.store.storages.size (.program Store.globalScope) w :=
    ⟨wellFormed, wellFormed.scopes, Nat.le_refl _⟩
  have spares := sparesOperations (Nat.le_refl fuel) operation ready
  rw [← Invariant.eval_eq_evalUnless (Nat.le_refl fuel) spared] at spares
  have main := spares.scopes Store.globalScope.index wellFormed.scopes
  constructor
  · rw [Scopes.own, Scopes.own, main]
  · intro name ref bound
    apply spares.snapshot_eq wellFormed
    rw [Scopes.own] at bound
    split at bound
    · rename_i scope here
      exact wellFormed.bound _ scope name ref here bound
    · cases bound

/-- A session in which `a` is bound to a list of one element. -/
def oneList : World :=
  ((World.start {} [] (mkStdGen 0)).runStep ⟨"", "a <- [1]"⟩ []).2

/-- The list that `a` is bound to in this session. -/
def oneListRef : Ref := ⟨Store.start.objects.size + 1⟩

theorem reached_oneList : oneList.Reached := by
  have ends : ((World.start {} [] (mkStdGen 0)).runStep ⟨"", "a <- [1]"⟩ []).1.isExhausted =
      false := by decide +kernel
  exact .run _ _ (.start _ _ _) (Conclusion.ne_exhausted ends)

/-- The first element of the list, added to a new list that holds the list. -/
def nestedSum : Node :=
  .binary (.list [.access ⟨"a", default⟩] default) .add default
    (.binary (.access ⟨"a", default⟩) .div default (.number (.whole 0) default) default) default

/-- A number, added to the list. -/
def listSum : Node :=
  .binary (.access ⟨"a", default⟩) .add default (.number (.whole 2) default) default

theorem operation_spares_globals_nested :
    (oneList.store.scopes.own Store.globalScope).get? "a" = some oneListRef ∧
    (eval 10 nestedSum (.program Store.globalScope) oneList).2.store.snapshot oneListRef =
      oneList.store.snapshot oneListRef := by
  have bound : (oneList.store.scopes.own Store.globalScope).get? "a" = some oneListRef := by
    decide +kernel
  have operation : nestedSum.Operation := by
    apply Node.Operation.binary
    · apply Node.Operation.list
      intro n member
      cases List.mem_singleton.mp member
      exact .access _
    · exact .binary _ _ _ (.access _) (.number _ _)
  have spared : (evalUnless (changing oneList.store.storages.size 10) 10 nestedSum
      (.program Store.globalScope) oneList).1.isExhausted = false := by decide +kernel
  have kept := operation_spares_globals reached_oneList operation 10 (Ending.ne_exhausted spared)
  exact ⟨bound, kept.2 "a" oneListRef bound⟩

/-- Adding to a list that is read from a name changes the value of the name. -/
theorem operation_changes_global : listSum.Operation ∧
    (oneList.store.scopes.own Store.globalScope).get? "a" = some oneListRef ∧
    (eval 10 listSum (.program Store.globalScope) oneList).2.store.snapshot oneListRef ≠
      oneList.store.snapshot oneListRef := by
  refine ⟨.binary _ _ _ (.access _) (.number _ _), by decide +kernel, ?_⟩
  intro same
  have before : (oneList.store.snapshot oneListRef).resultText.toOption = some "[1]" := by
    decide +kernel
  have after : ((eval 10 listSum (.program Store.globalScope) oneList).2.store.snapshot
      oneListRef).resultText.toOption = some "[1, 2]" := by decide +kernel
  rw [same, before] at after
  exact absurd after (by decide)

end Pseudocode
