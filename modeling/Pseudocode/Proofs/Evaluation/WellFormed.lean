import Pseudocode.Proofs.Evaluation.Invariant
import Pseudocode.Session

/-!
# Well-formed stores

In the store of a session nothing dangles: every reference, storage and scope that is mentioned
somewhere is there.  Scopes form a tree, in which parents are older than their children and the main
program is the root.
-/

namespace Pseudocode

/-- What a name means is among the bindings. -/
theorem Bindings.mem_of_get? {α : Type} {bindings : Bindings α} {name : String} {value : α}
    (found : bindings.get? name = some value) : (name, some value) ∈ bindings := by
  have looked : bindings.lookup name = some (some value) := Option.join_eq_some_iff.mp found
  obtain ⟨before, after, same, _⟩ := List.lookup_eq_some_iff.mp looked
  rw [same]
  exact List.mem_append_right _ List.mem_cons_self

/-- A path through different storages is not longer than there are storages. -/
theorem length_le_of_nodup {path : List StorageId} {size : Nat} (different : path.Nodup)
    (inside : ∀ storage ∈ path, storage.index < size) : path.length ≤ size := by
  have subset : path ⊆ (List.range size).map StorageId.mk := by
    intro storage member
    exact List.mem_map.mpr ⟨storage.index, List.mem_range.mpr (inside storage member), rfl⟩
  simpa using different.length_le_of_subset subset

/-- Whether a datum is a list. -/
def Datum.isList : Datum → Bool
  | .list _ => true
  | _ => false

namespace Store

/-- Nothing that is mentioned in a store is missing from it, and its scopes form a tree. -/
structure WellFormed (s : Store) : Prop where
  /-- There is the object that stands for the absence of a value. -/
  objects : 0 < s.objects.size
  /-- There is the scope of the main program. -/
  scopes : 0 < s.scopes.size
  /-- What a name is bound to is there. -/
  bound : ∀ (index : Nat) (scope : Scope Ref) (name : String) (ref : Ref),
    s.scopes[index]? = some scope → scope.bindings.get? name = some ref →
    ref.index < s.objects.size
  /-- The elements of lists are there. -/
  element : ∀ (index : Nat) (elements : Array Ref) (ref : Ref),
    s.storages[index]? = some elements → ref ∈ elements → ref.index < s.objects.size
  /-- The storages of lists are there. -/
  storage : ∀ (index : Nat) (object : Object) (storage : StorageId),
    s.objects[index]? = some object → object.datum = .list storage →
    storage.index < s.storages.size
  /-- The scopes of activations are there. -/
  owner : ∀ (index : Nat) (object : Object) (frame : Frame),
    s.objects[index]? = some object → object.frame = some frame →
    frame.scope.index < s.scopes.size
  /-- A scope without a parent is that of the main program. -/
  root : ∀ (index : Nat) (scope : Scope Ref),
    s.scopes[index]? = some scope → scope.parent = none → index = globalScope.index
  /-- A parent is older. -/
  parent : ∀ (index : Nat) (scope : Scope Ref) (parent : ScopeId),
    s.scopes[index]? = some scope → scope.parent = some parent → parent.index < index

theorem object_eq_of_lt {s : Store} {ref : Ref} (inside : ref.index < s.objects.size) :
    s.objects[ref.index]? = some (s.object ref) := by
  rw [Store.object, Array.getD_eq_getD_getElem?, Array.getElem?_eq_getElem inside]
  rfl

theorem elements_eq_of_lt {s : Store} {storage : StorageId}
    (inside : storage.index < s.storages.size) :
    s.storages[storage.index]? = some (s.elements storage) := by
  rw [Store.elements, Array.getD_eq_getD_getElem?, Array.getElem?_eq_getElem inside]
  rfl

/-- What a name means is bound to it in some scope. -/
theorem exists_of_findWithin {s : Store} {name : String} {ref : Ref} {fuel : Nat} {id : ScopeId}
    (found : s.scopes.findWithin name fuel id = some ref) :
    ∃ (index : Nat) (scope : Scope Ref),
      s.scopes[index]? = some scope ∧ scope.bindings.get? name = some ref := by
  induction fuel generalizing id with
  | zero => cases found
  | succ fuel ih =>
      unfold Scopes.findWithin at found
      split at found
      · cases found
      · rename_i scope here
        split at found
        · rename_i value bound
          cases found
          exact ⟨id.index, scope, here, bound⟩
        · obtain ⟨parent, _, above⟩ := Option.bind_eq_some_iff.mp found
          exact ih above

namespace WellFormed

variable {s : Store}

theorem find (wellFormed : s.WellFormed) {id : ScopeId} {name : String} {ref : Ref}
    (found : s.find? id name = some ref) : ref.index < s.objects.size := by
  obtain ⟨index, scope, here, bound⟩ := exists_of_findWithin found
  exact wellFormed.bound index scope name ref here bound

theorem alloc (wellFormed : s.WellFormed) {object : Object}
    (storages : ∀ t, object.datum = .list t → t.index < s.storages.size)
    (owners : ∀ f, object.frame = some f → f.scope.index < s.scopes.size) :
    (s.alloc object).2.WellFormed := by
  have more : (s.alloc object).2.objects.size = s.objects.size + 1 := Array.size_push _
  refine { wellFormed with objects := ?_, bound := ?_, element := ?_, storage := ?_, owner := ?_ }
  · omega
  · intro index scope name ref here bound
    have inside := wellFormed.bound index scope name ref here bound
    omega
  · intro index elements ref here member
    have inside := wellFormed.element index elements ref here member
    omega
  · intro index other t here isList
    change (s.objects.push object)[index]? = some other at here
    rw [Array.getElem?_push] at here
    split at here
    · cases here
      exact storages t isList
    · exact wellFormed.storage index other t here isList
  · intro index other f here owned
    change (s.objects.push object)[index]? = some other at here
    rw [Array.getElem?_push] at here
    split at here
    · cases here
      exact owners f owned
    · exact wellFormed.owner index other f here owned

theorem allocStorage (wellFormed : s.WellFormed) {elements : Array Ref}
    (refs : ∀ r ∈ elements, r.index < s.objects.size) :
    (s.allocStorage elements).2.WellFormed := by
  have more : (s.allocStorage elements).2.storages.size = s.storages.size + 1 := Array.size_push _
  refine { wellFormed with element := ?_, storage := ?_ }
  · intro index others ref here member
    change (s.storages.push elements)[index]? = some others at here
    rw [Array.getElem?_push] at here
    split at here
    · cases here
      exact refs ref member
    · exact wellFormed.element index others ref here member
  · intro index object t here isList
    have inside := wellFormed.storage index object t here isList
    omega

theorem updateElements (wellFormed : s.WellFormed) {storage : StorageId}
    {change : Array Ref → Array Ref}
    (refs : ∀ r ∈ change (s.elements storage), r.index < s.objects.size) :
    (s.updateElements storage change).WellFormed := by
  have same : (s.updateElements storage change).storages.size = s.storages.size :=
    Array.size_modify
  refine { wellFormed with element := ?_, storage := ?_ }
  · intro index elements ref here member
    change (s.storages.modify storage.index change)[index]? = some elements at here
    rw [Array.getElem?_modify] at here
    split at here
    · rename_i this
      obtain ⟨old, found, changed⟩ := Option.map_eq_some_iff.mp here
      have inside := (Array.getElem?_eq_some_iff.mp found).1
      subst this
      rw [elements_eq_of_lt inside] at found
      cases found
      subst changed
      exact refs ref member
    · exact wellFormed.element index elements ref here member
  · intro index object t here isList
    have inside := wellFormed.storage index object t here isList
    omega

/-- Changing an object in place, but neither its datum nor, to a scope that is missing, its
activation. -/
theorem modify (wellFormed : s.WellFormed) {place : Nat} {change : Object → Object}
    (data : ∀ o, (change o).datum = o.datum)
    (owners : ∀ o f, (change o).frame = some f → o.frame = some f ∨
      f.scope.index < s.scopes.size) :
    WellFormed { s with objects := s.objects.modify place change } := by
  have same : (s.objects.modify place change).size = s.objects.size := Array.size_modify
  refine { wellFormed with objects := ?_, bound := ?_, element := ?_, storage := ?_, owner := ?_ }
  · exact same.symm ▸ wellFormed.objects
  · exact same.symm ▸ wellFormed.bound
  · exact same.symm ▸ wellFormed.element
  · intro index object t here isList
    change (s.objects.modify place change)[index]? = some object at here
    rw [Array.getElem?_modify] at here
    split at here
    · obtain ⟨old, found, rfl⟩ := Option.map_eq_some_iff.mp here
      rw [data] at isList
      exact wellFormed.storage index old t found isList
    · exact wellFormed.storage index object t here isList
  · intro index object f here owned
    change (s.objects.modify place change)[index]? = some object at here
    rw [Array.getElem?_modify] at here
    split at here
    · obtain ⟨old, found, rfl⟩ := Option.map_eq_some_iff.mp here
      obtain before | inside := owners old f owned
      · exact wellFormed.owner index old f found before
      · exact inside
    · exact wellFormed.owner index object f here owned

theorem bind (wellFormed : s.WellFormed) {ref : Ref} (inside : ref.index < s.objects.size)
    (id : ScopeId) (name : String) : (s.bind id name ref).WellFormed := by
  -- Binding changes the bindings of one scope and keeps all parents.
  have each (index : Nat) (scope : Scope Ref)
      (here : (s.bind id name ref).scopes[index]? = some scope) :
      ∃ old, s.scopes[index]? = some old ∧ old.parent = scope.parent ∧
        ∀ x r, scope.bindings.get? x = some r → r = ref ∨ old.bindings.get? x = some r := by
    change (s.scopes.modify id.index _)[index]? = some scope at here
    rw [Array.getElem?_modify] at here
    split at here
    · obtain ⟨old, found, rfl⟩ := Option.map_eq_some_iff.mp here
      refine ⟨old, found, rfl, fun x r bound => ?_⟩
      by_cases same : x = name
      · subst same
        rw [Bindings.get?_set_self] at bound
        cases bound
        exact .inl rfl
      · rw [Bindings.get?_set_of_ne _ _ same] at bound
        exact .inr bound
    · exact ⟨scope, here, rfl, fun x r bound => .inr bound⟩
  have same : (s.bind id name ref).scopes.size = s.scopes.size := Array.size_modify
  refine { wellFormed with scopes := ?_, bound := ?_, owner := ?_, root := ?_, parent := ?_ }
  · exact same.symm ▸ wellFormed.scopes
  · intro index scope x r here bound
    obtain ⟨old, found, _, old_bound⟩ := each index scope here
    obtain rfl | before := old_bound x r bound
    · exact inside
    · exact wellFormed.bound index old x r found before
  · exact same.symm ▸ wellFormed.owner
  · intro index scope here none
    obtain ⟨old, found, parents, _⟩ := each index scope here
    exact wellFormed.root index old found (parents.trans none)
  · intro index scope parent here some
    obtain ⟨old, found, parents, _⟩ := each index scope here
    exact wellFormed.parent index old parent found (parents.trans some)

theorem pushScope (wellFormed : s.WellFormed) {id : ScopeId} (inside : id.index < s.scopes.size) :
    (s.pushScope id).2.WellFormed := by
  have more : (s.pushScope id).2.scopes.size = s.scopes.size + 1 := Array.size_push _
  have each (index : Nat) (scope : Scope Ref)
      (here : (s.pushScope id).2.scopes[index]? = some scope) :
      index = s.scopes.size ∧ scope = ⟨some id, []⟩ ∨ s.scopes[index]? = some scope := by
    change (Array.push s.scopes _)[index]? = some scope at here
    rw [Array.getElem?_push] at here
    split at here
    · cases here
      exact .inl ⟨by assumption, rfl⟩
    · exact .inr here
  refine { wellFormed with scopes := ?_, bound := ?_, owner := ?_, root := ?_, parent := ?_ }
  · omega
  · intro index scope x r here bound
    obtain ⟨_, rfl⟩ | found := each index scope here
    · cases bound
    · exact wellFormed.bound index scope x r found bound
  · intro index object f here owned
    have old := wellFormed.owner index object f here owned
    omega
  · intro index scope here none
    obtain ⟨_, rfl⟩ | found := each index scope here
    · cases none
    · exact wellFormed.root index scope found none
  · intro index scope parent here some
    obtain ⟨rfl, rfl⟩ | found := each index scope here
    · cases some
      exact inside
    · exact wellFormed.parent index scope parent found some

/-- At start-up there is one scope, and no object belongs to an activation or is a list. -/
theorem start : Store.start.WellFormed := by
  have only (index : Nat) (scope : Scope Ref) (here : Store.start.scopes[index]? = some scope) :
      index = 0 ∧ scope = ⟨none, startBindings.map fun binding => (binding.1, some binding.2)⟩ := by
    cases index with
    | zero => exact ⟨rfl, (Option.some.inj here).symm⟩
    | succ index => cases here
  have each (index : Nat) (object : Object) (here : Store.start.objects[index]? = some object) :
      ∃ binding ∈ startGlobals, binding.2.object = object := by
    rw [Store.start, List.getElem?_toArray] at here
    exact List.mem_map.mp (List.mem_of_getElem? here)
  refine { objects := by decide, scopes := by decide, bound := ?_, element := ?_, storage := ?_,
           owner := ?_, root := ?_, parent := ?_ }
  · intro index scope name ref here bound
    obtain ⟨rfl, rfl⟩ := only index scope here
    obtain ⟨binding, member, same⟩ := List.mem_map.mp (Bindings.mem_of_get? bound)
    cases same
    have inside : ∀ binding ∈ startBindings, binding.2.index < Store.start.objects.size := by
      decide
    exact inside binding member
  · intro index elements ref here
    cases here
  · intro index object t here isList
    obtain ⟨binding, member, rfl⟩ := each index object here
    have unlisted : ∀ binding ∈ startGlobals, binding.2.isList = false := by decide
    have isNot := unlisted binding member
    rw [show binding.2 = .list t from isList] at isNot
    cases isNot
  · intro index object f here owned
    obtain ⟨binding, _, rfl⟩ := each index object here
    cases owned
  · intro index scope here _
    exact (only index scope here).1
  · intro index scope parent here above
    obtain ⟨_, rfl⟩ := only index scope here
    cases above

end WellFormed

/-- The sizes of a store. -/
structure Extent where
  objects : Nat
  storages : Nat
  scopes : Nat

/-- How much there is in a store. -/
def extent (s : Store) : Extent :=
  ⟨s.objects.size, s.storages.size, s.scopes.size⟩

end Store

/-! ## The invariant -/

/-- A run in a well-formed store only mentions what is there. -/
def wellFormedness (barred : Node → Frame → World → Bool) : Invariant where
  Link := Store.Extent
  Extends a b := a.objects ≤ b.objects ∧ a.storages ≤ b.storages ∧ a.scopes ≤ b.scopes
  Refs link r := r.index < link.objects
  Storages link t := t.index < link.storages
  Owners link f := f.scope.index < link.scopes
  Entries link f := f.scope.index < link.scopes
  Frames link f := f.scope.index < link.scopes
  Stores link s := s.extent = link ∧ s.WellFormed
  barred := barred
  extends_refl _ := ⟨Nat.le_refl _, Nat.le_refl _, Nat.le_refl _⟩
  extends_trans := by
    rintro a b c ⟨o, t, u⟩ ⟨o', t', u'⟩
    exact ⟨Nat.le_trans o o', Nat.le_trans t t', Nat.le_trans u u'⟩
  refs_mono further inside := Nat.lt_of_lt_of_le inside further.1
  storages_mono further inside := Nat.lt_of_lt_of_le inside further.2.1
  owners_mono further inside := Nat.lt_of_lt_of_le inside further.2.2
  frames_mono further inside := Nat.lt_of_lt_of_le inside further.2.2
  owners_of_frames inside := inside
  entries_of_frames inside := inside
  frames_of_entries inside _ := inside
  entries_program := by
    rintro _ s ⟨rfl, wellFormed⟩
    exact wellFormed.scopes
  object_storage := by
    rintro _ s r t ⟨rfl, wellFormed⟩ inside isList
    exact wellFormed.storage _ _ t (Store.object_eq_of_lt inside) isList
  object_owner := by
    rintro _ s r f ⟨rfl, wellFormed⟩ inside owned
    exact wellFormed.owner _ _ f (Store.object_eq_of_lt inside) owned
  element := by
    rintro _ s t r ⟨rfl, wellFormed⟩ inside member
    exact wellFormed.element _ _ r (Store.elements_eq_of_lt inside) member
  find := by
    rintro _ f s name r ⟨rfl, wellFormed⟩ _ found
    exact wellFormed.find found
  null := by
    rintro _ s ⟨rfl, wellFormed⟩
    exact wellFormed.objects
  alloc := by
    rintro _ s o ⟨rfl, wellFormed⟩ storages owners
    refine ⟨(s.alloc o).2.extent, ⟨?_, Nat.le_refl _, Nat.le_refl _⟩,
      ⟨rfl, wellFormed.alloc storages owners⟩, ?_⟩
    · change s.objects.size ≤ (s.objects.push o).size
      rw [Array.size_push]
      exact Nat.le_succ _
    · change s.objects.size < (s.objects.push o).size
      rw [Array.size_push]
      exact Nat.lt_succ_self _
  allocStorage := by
    rintro _ s xs ⟨rfl, wellFormed⟩ refs
    refine ⟨(s.allocStorage xs).2.extent, ⟨Nat.le_refl _, ?_, Nat.le_refl _⟩,
      ⟨rfl, wellFormed.allocStorage refs⟩, ?_⟩
    · change s.storages.size ≤ (s.storages.push xs).size
      rw [Array.size_push]
      exact Nat.le_succ _
    · change s.storages.size < (s.storages.push xs).size
      rw [Array.size_push]
      exact Nat.lt_succ_self _
  updateElements := by
    rintro _ s t change ⟨rfl, wellFormed⟩ _ refs
    refine ⟨?_, wellFormed.updateElements refs⟩
    rw [Store.extent, Store.updateElements, Array.size_modify]
    rfl
  setSpan := by
    rintro _ s r span ⟨rfl, wellFormed⟩ _
    refine ⟨?_, wellFormed.modify (fun _ => rfl) fun _ _ => .inl⟩
    rw [Store.extent, Store.setSpan, Array.size_modify]
    rfl
  setFrame := by
    rintro _ s r f ⟨rfl, wellFormed⟩ _ inside
    refine ⟨?_, wellFormed.modify (fun _ => rfl) fun _ _ owned => .inr ?_⟩
    · rw [Store.extent, Store.setFrame, Array.size_modify]
      rfl
    · cases owned
      exact inside
  bind := by
    rintro _ s f r name ⟨rfl, wellFormed⟩ _ inside
    refine ⟨?_, wellFormed.bind inside f.scope name⟩
    rw [Store.extent, Store.bind, Scopes.set, Scopes.update, Array.size_modify]
    rfl
  pushScope := by
    rintro _ s f ⟨rfl, wellFormed⟩ inside
    refine ⟨(s.pushScope f.scope).2.extent, ⟨Nat.le_refl _, Nat.le_refl _, ?_⟩,
      ⟨rfl, wellFormed.pushScope inside⟩, ?_⟩
    · change s.scopes.size ≤ (Array.push s.scopes _).size
      rw [Array.size_push]
      exact Nat.le_succ _
    · intro name entry
      change s.scopes.size < (Array.push s.scopes _).size
      rw [Array.size_push]
      exact Nat.lt_succ_self _

/-! ## Sessions -/

/-- Whether a program came to its bound. -/
def Conclusion.isExhausted : Conclusion → Bool
  | .fault .exhausted => true
  | _ => false

theorem Conclusion.ne_exhausted {conclusion : Conclusion}
    (finished : conclusion.isExhausted = false) : conclusion ≠ .fault .exhausted := by
  rintro rfl
  cases finished

namespace World

/-- The worlds of a session: programs are run one after another, and between them everything but the
values may be changed from outside. -/
inductive Reached : World → Prop
  | start (robot : Robot) (scripts : Scripts) (generator : StdGen) :
      Reached (World.start robot scripts generator)
  | run {w : World} (source : Source) (input : List String) (reached : Reached w)
      (ends : (w.runStep source input).1 ≠ .fault .exhausted) :
      Reached (w.runStep source input).2
  | outside {w v : World} (reached : Reached w) (same : v.store = w.store) : Reached v

theorem runWithin_world (w : World) (fuel : Nat) (source : Source) :
    (w.runWithin fuel source).2 = (Evaluator.runSource (eval fuel) source w).2 := by
  unfold runWithin
  generalize Evaluator.runSource (eval fuel) source w = outcome
  obtain ⟨ending, after⟩ := outcome
  cases ending <;> rfl

theorem runWithin_exhausted {w : World} {fuel : Nat} {source : Source}
    (exhausted : (Evaluator.runSource (eval fuel) source w).1 = .fault .exhausted) :
    (w.runWithin fuel source).1 = .fault .exhausted := by
  unfold runWithin
  generalize Evaluator.runSource (eval fuel) source w = outcome at exhausted
  obtain ⟨ending, after⟩ := outcome
  cases exhausted
  rfl

theorem wellFormed_runWithin {w : World} {fuel : Nat} {source : Source}
    (wellFormed : w.store.WellFormed)
    (ends : (w.runWithin fuel source).1 ≠ .fault .exhausted) :
    (w.runWithin fuel source).2.store.WellFormed := by
  let i := wellFormedness fun _ _ _ => false
  have lockstep := i.coupling.lockstep_eval (Nat.le_refl fuel)
  rw [show evalUnless i.coupling.barred fuel = eval fuel from evalUnless_never fuel] at lockstep
  have worlds : i.coupling.Worlds w.store.extent w w :=
    Invariant.worlds_refl ⟨rfl, wellFormed⟩
  have runs : i.coupling.accord.Runs source := trivial
  have outcomes := Accord.rel_runSource lockstep (b := false) runs w w worlds
  have finished : (Evaluator.runSource (eval fuel) source w).1 ≠ .fault .exhausted :=
    fun exhausted => ends (runWithin_exhausted exhausted)
  obtain ⟨_, later, _, _, after⟩ := Invariant.eq_of_outcomes outcomes
    (fun _ _ _ related => Pairing.rel_eq related fun _ _ refs => refs.1) finished
  rw [runWithin_world]
  exact after

theorem Reached.wellFormed {w : World} (reached : w.Reached) : w.store.WellFormed := by
  induction reached with
  | start => exact Store.WellFormed.start
  | run source input _ ends ih => exact wellFormed_runWithin ih ends
  | outside _ same ih => exact same ▸ ih

end World
end Pseudocode
