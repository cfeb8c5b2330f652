import Pseudocode.Proofs.Evaluation.Invariant
import Pseudocode.Session

/-!
# Calls bind no names outside their own scope

Every construct that binds a name binds it in the scope of the activation it runs in, and a call has
a new scope.  So the scopes that were there before a call are as they were after it.  Only a script
that is run in the call can bind names outside, because it runs in the main program.
-/

namespace Pseudocode

/-- All scopes are as they were, and all objects have the data that they had.  The elements of lists
may have changed. -/
structure Store.Keeps (before after : Store) : Prop where
  objects : before.objects.size ≤ after.objects.size
  data : ∀ ref : Ref, ref.index < before.objects.size → after.datum ref = before.datum ref
  size : before.scopes.size ≤ after.scopes.size
  scopes : ∀ index, index < before.scopes.size → after.scopes[index]? = before.scopes[index]?

namespace Store.Keeps

variable {s t u : Store}

theorem refl (s : Store) : s.Keeps s where
  objects := Nat.le_refl _
  data _ _ := rfl
  size := Nat.le_refl _
  scopes _ _ := rfl

theorem trans (first : s.Keeps t) (second : t.Keeps u) : s.Keeps u where
  objects := Nat.le_trans first.objects second.objects
  data ref inside := by
    rw [second.data ref (Nat.lt_of_lt_of_le inside first.objects), first.data ref inside]
  size := Nat.le_trans first.size second.size
  scopes index inside := by
    rw [second.scopes index (Nat.lt_of_lt_of_le inside first.size), first.scopes index inside]

theorem alloc (keeps : s.Keeps t) (object : Object) : s.Keeps (t.alloc object).2 where
  objects := by
    change s.objects.size ≤ (t.objects.push object).size
    rw [Array.size_push]
    exact Nat.le_succ_of_le keeps.objects
  data ref inside := by
    rw [datum_alloc (Nat.lt_of_lt_of_le inside keeps.objects), keeps.data ref inside]
  size := keeps.size
  scopes := keeps.scopes

theorem modify (keeps : s.Keeps t) {change : Object → Object}
    (data : ∀ o, (change o).datum = o.datum) (place : Nat) :
    s.Keeps { t with objects := t.objects.modify place change } where
  objects := by simpa using keeps.objects
  data ref inside := by rw [datum_modify data, keeps.data ref inside]
  size := keeps.size
  scopes := keeps.scopes

/-- A name is bound in a scope that was not there before. -/
theorem bind (keeps : s.Keeps t) {scope : ScopeId} (new : s.scopes.size ≤ scope.index)
    (name : String) (ref : Ref) : s.Keeps (t.bind scope name ref) where
  objects := keeps.objects
  data := keeps.data
  size := by simpa [Store.bind, Scopes.set, Scopes.update] using keeps.size
  scopes index inside := by
    change (t.scopes.modify scope.index _)[index]? = _
    rw [Array.getElem?_modify, if_neg (by omega), keeps.scopes index inside]

theorem pushScope (keeps : s.Keeps t) (parent : ScopeId) : s.Keeps (t.pushScope parent).2 where
  objects := keeps.objects
  data := keeps.data
  size := by
    change s.scopes.size ≤ (Array.push t.scopes _).size
    rw [Array.size_push]
    exact Nat.le_succ_of_le keeps.size
  scopes index inside := by
    have older := Nat.lt_of_lt_of_le inside keeps.size
    change (Array.push t.scopes _)[index]? = _
    rw [Array.getElem?_push, if_neg (Nat.ne_of_lt older), keeps.scopes index inside]

end Store.Keeps

/-! ## The invariant -/

/-- In a call, the main program is only come to by running a script. -/
def inScript (_ : Node) (frame : Frame) (_ : World) : Bool :=
  match frame with
  | .program _ => true
  | .call .. => false

/-- The store keeps what was there at a moment, and code runs in scopes that are newer, as long as
no script is run. -/
def keeping (before : Store) : Invariant where
  Link := Unit
  Extends _ _ := True
  Refs _ _ := True
  Storages _ _ := True
  Owners _ _ := True
  Entries _ f := f = .program Store.globalScope ∨ before.scopes.size ≤ f.scope.index
  Frames _ f := before.scopes.size ≤ f.scope.index
  Stores _ s := before.Keeps s
  barred := inScript
  extends_refl _ := trivial
  extends_trans _ _ := trivial
  refs_mono _ _ := trivial
  storages_mono _ _ := trivial
  owners_mono _ _ := trivial
  frames_mono _ frames := frames
  owners_of_frames _ := trivial
  entries_of_frames frames := .inr frames
  frames_of_entries := by
    rintro _ f n w (rfl | new) free
    · cases free
    · exact new
  entries_program _ := .inl rfl
  object_storage _ _ _ := trivial
  object_owner _ _ _ := trivial
  element _ _ _ := trivial
  find _ _ _ := trivial
  null _ := trivial
  alloc keeps _ _ := ⟨(), trivial, keeps.alloc _, trivial⟩
  allocStorage keeps _ := ⟨(), trivial, { keeps with }, trivial⟩
  updateElements keeps _ _ := { keeps with }
  setSpan _ keeps _ := by
    apply keeps.modify
    intro o
    rfl
  setFrame keeps _ _ := by
    apply keeps.modify
    intro o
    rfl
  bind name keeps new _ := keeps.bind new name _
  pushScope keeps _ := ⟨(), trivial, keeps.pushScope _, fun _ _ => keeps.size⟩

/-! ## Calls -/

/-- A call that ends without running a script leaves every scope that was there as it was, and every
object with the datum that it had. -/
theorem invoke_keeps (fuel : Nat) (callee : Object) (arguments : List Ref) (span : Span)
    (w : World)
    (ends : (Evaluator.invoke (evalUnless inScript fuel) callee arguments span w).1 ≠
      .fault .exhausted) :
    Evaluator.invoke (eval fuel) callee arguments span w =
      Evaluator.invoke (evalUnless inScript fuel) callee arguments span w ∧
    w.store.Keeps (Evaluator.invoke (eval fuel) callee arguments span w).2.store := by
  let i := keeping w.store
  have lockstep := i.coupling.lockstep_eval (Nat.le_refl fuel)
  have worlds : i.coupling.Worlds () w w := Invariant.worlds_refl (.refl w.store)
  have objects : i.coupling.Objects () callee callee :=
    Invariant.objects_refl (fun _ _ => trivial) fun _ _ => trivial
  have lists : i.coupling.accord.RefLists () arguments arguments :=
    List.forall₂_same.mpr fun _ _ => ⟨rfl, trivial⟩
  have spans : i.coupling.Spans span span := rfl
  have outcomes := Accord.rel_invoke i.coupling.plain lockstep (b := false) objects lists spans w
    w worlds
  obtain ⟨same, _, _, keeps⟩ :=
    Invariant.eq_of_outcomes outcomes (fun _ _ _ refs => refs.1) ends
  exact ⟨same, keeps⟩

/-- A procedure that gives names of the main program other values, by an assignment, by a loop and
by a definition, calls the procedure it defines and changes the list that it is handed. -/
def rebinding : Object where
  datum := .procedure {
    name := "f"
    parameters := ["l"]
    body := .list [
      .assign ⟨"NULL", default⟩ (.number (.whole 1) default) default,
      .procedure (some ⟨"CLEAR", default⟩) [⟨"x", default⟩]
        (.assign ⟨"NULL", default⟩ (.access ⟨"x", default⟩) default) default,
      .forEach ⟨"DISPLAY", default⟩ (.access ⟨"l", default⟩)
        (.call (.access ⟨"CLEAR", default⟩) [.access ⟨"DISPLAY", default⟩] default) default,
      .call (.access ⟨"APPEND", default⟩)
        [.access ⟨"l", default⟩, .access ⟨"NULL", default⟩] default] default }
  span := none
  frame := some (.program Store.globalScope)

/-- The world at start-up with a list of one element, at the reference after the others. -/
def listed : World :=
  { World.start {} [] (mkStdGen 0) with
    store := ⟨Store.start.objects.push (Datum.list ⟨0⟩).object, #[#[Store.nullRef]],
      Store.start.scopes⟩ }

theorem invoke_keeps_names :
    listed.store.Keeps
      (Evaluator.invoke (eval 20) rebinding [⟨Store.start.objects.size⟩] default listed).2.store ∧
    ((Evaluator.invoke (eval 20) rebinding [⟨Store.start.objects.size⟩] default
      listed).2.store.elements ⟨0⟩).size = 2 := by
  have ends : (Evaluator.invoke (evalUnless inScript 20) rebinding [⟨Store.start.objects.size⟩]
      default listed).1.isExhausted = false := by decide +kernel
  have kept := invoke_keeps 20 rebinding [⟨Store.start.objects.size⟩] default listed
    (Ending.ne_exhausted ends)
  exact ⟨kept.2, by decide +kernel⟩

end Pseudocode
