import Pseudocode.Eval.Node

/-!
# Growing stores

A store grows into another one if all that it holds is still there, unchanged, and names mean what
they meant.  Evaluations that only make new objects let the store grow.
-/

namespace Pseudocode
namespace Store

/-- A store holds an object at a reference. -/
def Holds (s : Store) (ref : Ref) (object : Object) : Prop :=
  s.objects[ref.index]? = some object

/-- All that was in the store is still there, and all names are bound as they were. -/
structure Grows (before after : Store) : Prop where
  /-- The objects are the same. -/
  objects : ∀ ref object, before.Holds ref object → after.Holds ref object
  /-- The elements of lists are the same. -/
  storages : ∀ (index : Nat) (elements : Array Ref),
    before.storages[index]? = some elements → after.storages[index]? = some elements
  /-- The scopes are the same. -/
  scopes : after.scopes = before.scopes

/-- Elements are changed alike by changes that agree on them. -/
theorem updateElements_congr {s : Store} {storage : StorageId} {f g : Array Ref → Array Ref}
    (same : f (s.elements storage) = g (s.elements storage)) :
    s.updateElements storage f = s.updateElements storage g := by
  have equal : s.storages.modify storage.index f = s.storages.modify storage.index g := by
    apply Array.ext_getElem?
    intro index
    rw [Array.getElem?_modify, Array.getElem?_modify]
    split
    · rename_i here
      subst here
      rw [elements, Array.getD_eq_getD_getElem?] at same
      cases found : s.storages[storage.index]? with
      | none => rfl
      | some old =>
          rw [found] at same
          exact congrArg some same
    · rfl
  rw [updateElements, updateElements, equal]

section

variable {s s' s'' : Store} {ref : Ref} {object : Object}

theorem Holds.object_eq (holds : s.Holds ref object) : s.object ref = object := by
  rw [Store.object, Array.getD_eq_getD_getElem?, holds]
  rfl

theorem Holds.datum_eq (holds : s.Holds ref object) : s.datum ref = object.datum := by
  rw [Store.datum, holds.object_eq]

theorem Holds.index_lt (holds : s.Holds ref object) : ref.index < s.objects.size :=
  (Array.getElem?_eq_some_iff.mp holds).1

/-- A new object leaves the data of the others alone. -/
theorem datum_alloc (inside : ref.index < s.objects.size) :
    (s.alloc object).2.datum ref = s.datum ref := by
  change ((s.objects.push object).getD ref.index default).datum = _
  rw [Array.getD_eq_getD_getElem?, Array.getElem?_push, if_neg (Nat.ne_of_lt inside), Store.datum,
    Store.object, Array.getD_eq_getD_getElem?]

/-- Changes in place that keep the datum of an object keep all data. -/
theorem datum_modify {change : Object → Object} (data : ∀ o, (change o).datum = o.datum)
    (place : Nat) (ref : Ref) :
    Store.datum { s with objects := s.objects.modify place change } ref = s.datum ref := by
  change ((s.objects.modify place change).getD ref.index default).datum = _
  rw [Array.getD_eq_getD_getElem?, Array.getElem?_modify, Store.datum, Store.object,
    Array.getD_eq_getD_getElem?]
  split
  · cases s.objects[ref.index]? with
    | none => rfl
    | some object => exact data object
  · rfl

theorem datum_setSpan (s : Store) (ref : Ref) (span : Span) (other : Ref) :
    (s.setSpan ref span).datum other = s.datum other := by
  apply datum_modify
  intro o
  rfl

theorem Grows.trans (first : s.Grows s') (second : s'.Grows s'') : s.Grows s'' where
  objects ref object holds := second.objects ref object (first.objects ref object holds)
  storages index elements found :=
    second.storages index elements (first.storages index elements found)
  scopes := second.scopes.trans first.scopes

theorem Grows.size_le (grows : s.Grows s') : s.objects.size ≤ s'.objects.size := by
  cases size : s.objects.size with
  | zero => exact Nat.zero_le _
  | succ last =>
      have inside : last < s.objects.size := by omega
      have holds : s.Holds ⟨last⟩ s.objects[last] := Array.getElem?_eq_getElem inside
      exact (grows.objects _ _ holds).index_lt

theorem grows_alloc (s : Store) (object : Object) : s.Grows (s.alloc object).2 where
  objects ref other holds := by
    have inside := holds.index_lt
    change (s.objects.push object)[ref.index]? = some other
    rw [Array.getElem?_push, if_neg (Nat.ne_of_lt inside)]
    exact holds
  storages _ _ found := found
  scopes := rfl

theorem holds_alloc (s : Store) (object : Object) :
    (s.alloc object).2.Holds (s.alloc object).1 object := by
  change (s.objects.push object)[s.objects.size]? = some object
  rw [Array.getElem?_push, if_pos rfl]

theorem grows_allocStorage (s : Store) (elements : Array Ref) :
    s.Grows (s.allocStorage elements).2 where
  objects _ _ holds := holds
  storages index others found := by
    have inside := (Array.getElem?_eq_some_iff.mp found).1
    change (s.storages.push elements)[index]? = some others
    rw [Array.getElem?_push, if_neg (Nat.ne_of_lt inside)]
    exact found
  scopes := rfl

/-- A new object may as well be made as it is changed into. -/
theorem modify_alloc (s : Store) (object : Object) (change : Object → Object) :
    { (s.alloc object).2 with
        objects := (s.alloc object).2.objects.modify (s.alloc object).1.index change } =
      (s.alloc (change object)).2 := by
  have last : (s.objects.push object).modify s.objects.size change =
      s.objects.push (change object) := by
    apply Array.ext_getElem?
    intro i
    rw [Array.getElem?_modify, Array.getElem?_push, Array.getElem?_push]
    grind
  rw [alloc, last]
  rfl

theorem setSpan_alloc (s : Store) (object : Object) (span : Span) :
    (s.alloc object).2.setSpan (s.alloc object).1 span =
      (s.alloc { object with span := some span }).2 :=
  modify_alloc s object _

theorem setFrame_alloc (s : Store) (object : Object) (frame : Frame) :
    (s.alloc object).2.setFrame (s.alloc object).1 frame =
      (s.alloc { object with frame := some frame }).2 :=
  modify_alloc s object _

theorem elements_allocStorage (s : Store) (elements : Array Ref) :
    (s.allocStorage elements).2.elements (s.allocStorage elements).1 = elements := by
  change (s.storages.push elements).getD s.storages.size #[] = elements
  rw [Array.getD_eq_getD_getElem?, Array.getElem?_push, if_pos rfl]
  rfl

theorem holds_setSpan (holds : s.Holds ref object) (span : Span) :
    (s.setSpan ref span).Holds ref { object with span := some span } := by
  change (s.objects.modify ref.index _)[ref.index]? = _
  rw [Array.getElem?_modify, if_pos rfl, holds]
  rfl

/-- Placing an object that was not there before changes none that was. -/
theorem Grows.setSpan (grows : s.Grows s') (new : s.objects.size ≤ ref.index) (span : Span) :
    s.Grows (s'.setSpan ref span) where
  objects other object holds := by
    have inside := holds.index_lt
    change (s'.objects.modify ref.index _)[other.index]? = _
    rw [Array.getElem?_modify, if_neg (by omega)]
    exact grows.objects other object holds
  storages := grows.storages
  scopes := grows.scopes

end

end Store

/-! ## Evaluations one after another -/

namespace Eval

variable {α β : Type} {first : Eval α} {next : α → Eval β} {w after : World}

theorem bind_of_value {result : α} (run : first w = (.value result, after)) :
    (first >>= next) w = next result after := by
  change Eval.bind first next w = next result after
  rw [Eval.bind, run]

theorem bind_of_error {diagnostic : Diagnostic} (run : first w = (.error diagnostic, after)) :
    (first >>= next) w = (.error diagnostic, after) := by
  change Eval.bind first next w = _
  rw [Eval.bind, run]

theorem tryStore_of_ok {work : Store → Except Stop α × Store} {result : α} {store : Store}
    (run : work w.store = (.ok result, store)) :
    tryStore work w = (.value result, { w with store := store }) := by
  have worked : withStore work w = (.value (.ok result), { w with store := store }) := by
    rw [withStore, run]
  exact bind_of_value worked

theorem tryStore_of_error {work : Store → Except Stop α × Store} {diagnostic : Diagnostic}
    {store : Store} (run : work w.store = (.error (.error diagnostic), store)) :
    tryStore work w = (.error diagnostic, { w with store := store }) := by
  have worked : withStore work w =
      (.value (.error (.error diagnostic)), { w with store := store }) := by
    rw [withStore, run]
  exact bind_of_value worked

/-- A value of two evaluations in a row comes from a value of the first. -/
theorem exists_of_bind {result : β} (run : (first >>= next) w = (.value result, after)) :
    ∃ a middle, first w = (.value a, middle) ∧ next a middle = (.value result, after) := by
  change Eval.bind first next w = _ at run
  unfold Eval.bind at run
  generalize first w = o at run ⊢
  obtain ⟨ending, middle⟩ := o
  cases ending with
  | value a => exact ⟨a, middle, rfl, run⟩
  | signal | error | fault => cases run

theorem exists_of_tryStore {work : Store → Except Stop α × Store} {result : α}
    (run : tryStore work w = (.value result, after)) :
    ∃ store, work w.store = (.ok result, store) ∧ after = { w with store := store } := by
  obtain ⟨answer, middle, worked, answered⟩ := exists_of_bind run
  cases worked
  cases found : (work w.store).1 with
  | ok r =>
      rw [found] at answered
      cases answered
      exact ⟨(work w.store).2, Prod.ext found rfl, rfl⟩
  | error stop =>
      rw [found] at answered
      cases stop <;> cases answered

end Eval
end Pseudocode
