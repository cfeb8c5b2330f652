import Pseudocode.Proofs.Evaluation.Lockstep

/-!
# Invariants of a run

An invariant says what is true of the store at every moment of a run and of all references and
activations that the run has at hand.  It is a coupling of the run with itself, so its laws have to
be shown for the operations of the store only.
-/

namespace Pseudocode

/-- What is true at every moment of a run. -/
structure Invariant where
  /-- What there is, as far as the run has come. -/
  Link : Type
  /-- There is more. -/
  Extends : Link → Link → Prop
  /-- The references at hand. -/
  Refs : Link → Ref → Prop
  /-- The storages at hand. -/
  Storages : Link → StorageId → Prop
  /-- The activations that objects belong to. -/
  Owners : Link → Frame → Prop
  /-- The activations in which a node may be come to. -/
  Entries : Link → Frame → Prop
  /-- The activations in which a node is evaluated, unless it is barred. -/
  Frames : Link → Frame → Prop
  /-- The stores. -/
  Stores : Link → Store → Prop
  /-- Where the run gives up. -/
  barred : Node → Frame → World → Bool
  extends_refl (link : Link) : Extends link link
  extends_trans {a b c : Link} : Extends a b → Extends b c → Extends a c
  refs_mono {a b : Link} {r : Ref} : Extends a b → Refs a r → Refs b r
  storages_mono {a b : Link} {t : StorageId} : Extends a b → Storages a t → Storages b t
  owners_mono {a b : Link} {f : Frame} : Extends a b → Owners a f → Owners b f
  frames_mono {a b : Link} {f : Frame} : Extends a b → Frames a f → Frames b f
  owners_of_frames {link : Link} {f : Frame} : Frames link f → Owners link f
  entries_of_frames {link : Link} {f : Frame} : Frames link f → Entries link f
  frames_of_entries {link : Link} {f : Frame} {n : Node} {w : World} :
    Entries link f → barred n f w = false → Frames link f
  entries_program {link : Link} {s : Store} : Stores link s →
    Entries link (.program Store.globalScope)
  object_storage {link : Link} {s : Store} {r : Ref} {t : StorageId} : Stores link s →
    Refs link r → (s.object r).datum = .list t → Storages link t
  object_owner {link : Link} {s : Store} {r : Ref} {f : Frame} : Stores link s →
    Refs link r → (s.object r).frame = some f → Owners link f
  element {link : Link} {s : Store} {t : StorageId} {r : Ref} : Stores link s →
    Storages link t → r ∈ s.elements t → Refs link r
  find {link : Link} {f : Frame} {s : Store} {name : String} {r : Ref} : Stores link s →
    Frames link f → s.find? f.scope name = some r → Refs link r
  null {link : Link} {s : Store} : Stores link s → Refs link Store.nullRef
  alloc {link : Link} {s : Store} {o : Object} : Stores link s →
    (∀ t, o.datum = .list t → Storages link t) → (∀ f, o.frame = some f → Owners link f) →
    ∃ later, Extends link later ∧ Stores later (s.alloc o).2 ∧ Refs later (s.alloc o).1
  allocStorage {link : Link} {s : Store} {xs : Array Ref} : Stores link s →
    (∀ r ∈ xs, Refs link r) → ∃ later, Extends link later ∧
      Stores later (s.allocStorage xs).2 ∧ Storages later (s.allocStorage xs).1
  updateElements {link : Link} {s : Store} {t : StorageId} {change : Array Ref → Array Ref} :
    Stores link s → Storages link t → (∀ r ∈ change (s.elements t), Refs link r) →
    Stores link (s.updateElements t change)
  setSpan {link : Link} {s : Store} {r : Ref} (span : Span) : Stores link s → Refs link r →
    Stores link (s.setSpan r span)
  setFrame {link : Link} {s : Store} {r : Ref} {f : Frame} : Stores link s → Refs link r →
    Owners link f → Stores link (s.setFrame r f)
  bind {link : Link} {s : Store} {f : Frame} {r : Ref} (name : String) : Stores link s →
    Frames link f → Refs link r → Stores link (s.bind f.scope name r)
  pushScope {link : Link} {s : Store} {f : Frame} : Stores link s → Owners link f →
    ∃ later, Extends link later ∧ Stores later (s.pushScope f.scope).2 ∧
      ∀ (name : String) (entry : Position),
        Frames later (.call name entry f (s.pushScope f.scope).1)

namespace Invariant

/-- What a run has in common with itself. -/
def likeness (i : Invariant) : Likeness where
  Link := i.Link
  Extends := i.Extends
  Nodes := Eq
  Spans := Eq
  Refs link r r' := r = r' ∧ i.Refs link r
  Storages link t u := t = u ∧ i.Storages link t
  Owners link f g := f = g ∧ i.Owners link f
  Entries link f g := f = g ∧ i.Entries link f
  Frames link f g := f = g ∧ i.Frames link f
  Stores link s t := s = t ∧ i.Stores link s
  Errors := Eq
  barred := i.barred

variable {i : Invariant} {link : i.Link}

theorem lists_refl {xs : Array Ref} (refs : ∀ r ∈ xs, i.Refs link r) :
    Pairing.Lists (i.likeness.Refs link) xs xs :=
  List.forall₂_same.mpr fun r inside => ⟨rfl, refs r (Array.mem_toList_iff.mp inside)⟩

theorem eq_of_lists {xs ys : Array Ref} (lists : Pairing.Lists (i.likeness.Refs link) xs ys) :
    xs = ys ∧ ∀ r ∈ xs, i.Refs link r := by
  cases lists.eq fun _ _ related => related.1
  refine ⟨rfl, fun r inside => ?_⟩
  exact (List.forall₂_same.mp lists r (Array.mem_toList_iff.mpr inside)).2

theorem objects_refl {o : Object} (storages : ∀ t, o.datum = .list t → i.Storages link t)
    (owners : ∀ f, o.frame = some f → i.Owners link f) : i.likeness.Objects link o o where
  data := .refl (fun _ => rfl) fun t isList => ⟨rfl, storages t isList⟩
  spans := Pairing.rel_refl fun _ _ => rfl
  frames := Pairing.rel_refl fun f isFrame => ⟨rfl, owners f isFrame⟩

theorem eq_of_objects {o p : Object} (objects : i.likeness.Objects link o p) :
    o = p ∧ (∀ t, o.datum = .list t → i.Storages link t) ∧
      ∀ f, o.frame = some f → i.Owners link f := by
  obtain ⟨d, span, frame⟩ := o
  obtain ⟨d', span', frame'⟩ := p
  obtain ⟨data, spans, frames⟩ := objects
  cases data.eq (fun _ _ => id) fun _ _ related => related.1
  cases Pairing.rel_eq spans fun _ _ => id
  cases Pairing.rel_eq frames fun _ _ related => related.1
  refine ⟨rfl, ?_, ?_⟩
  · rintro t rfl
    cases data with
    | list storages => exact storages.2
  · rintro f rfl
    cases frames with
    | some owners => exact owners.2

/-- An invariant as a coupling of a run with itself. -/
def coupling (i : Invariant) : Coupling where
  toLikeness := i.likeness
  extends_refl := i.extends_refl
  extends_trans := i.extends_trans
  refs_mono further refs := ⟨refs.1, i.refs_mono further refs.2⟩
  storages_mono further storages := ⟨storages.1, i.storages_mono further storages.2⟩
  owners_mono further owners := ⟨owners.1, i.owners_mono further owners.2⟩
  frames_mono further frames := ⟨frames.1, i.frames_mono further frames.2⟩
  owners_of_frames frames := ⟨frames.1, i.owners_of_frames frames.2⟩
  entries_of_frames frames := ⟨frames.1, i.entries_of_frames frames.2⟩
  frames_of_entries := by
    rintro link f _ n v ⟨rfl, entries⟩ free
    exact ⟨rfl, i.frames_of_entries entries free⟩
  entries_program stores := ⟨rfl, i.entries_program stores.2⟩
  nodes_refl _ := rfl
  nodes_span nodes := by cases nodes; rfl
  shapes_of_nodes := by
    rintro n _ rfl
    exact .refl (fun _ => rfl) (fun _ => rfl) n
  object := by
    rintro link s _ r _ ⟨rfl, stores⟩ ⟨rfl, refs⟩
    exact objects_refl (fun _ => i.object_storage stores refs) fun _ => i.object_owner stores refs
  elements := by
    rintro link s _ a _ ⟨rfl, stores⟩ ⟨rfl, storages⟩
    exact lists_refl fun _ => i.element stores storages
  snapshot := by
    rintro link s _ r _ ⟨rfl, _⟩ ⟨rfl, _⟩
    rfl
  find := by
    rintro link f _ w v x ⟨same, stores⟩ ⟨rfl, frames⟩ _
    rw [← same]
    exact Pairing.rel_refl fun _ found => ⟨rfl, i.find stores frames found⟩
  null stores := ⟨rfl, i.null stores.2⟩
  alloc := by
    rintro link s _ o p ⟨rfl, stores⟩ objects
    obtain ⟨rfl, storages, owners⟩ := eq_of_objects objects
    obtain ⟨later, further, after, refs⟩ := i.alloc stores storages owners
    exact ⟨later, further, ⟨rfl, after⟩, rfl, refs⟩
  allocStorage := by
    rintro link s _ xs ys ⟨rfl, stores⟩ lists
    obtain ⟨rfl, refs⟩ := eq_of_lists lists
    obtain ⟨later, further, after, storages⟩ := i.allocStorage stores refs
    exact ⟨later, further, ⟨rfl, after⟩, rfl, storages⟩
  updateElements := by
    rintro link s _ a _ f g ⟨rfl, stores⟩ ⟨rfl, storages⟩ changes
    have before := lists_refl fun _ => i.element stores storages
    obtain ⟨same, refs⟩ := eq_of_lists (changes before)
    exact ⟨Store.updateElements_congr same, i.updateElements stores storages refs⟩
  setSpan := by
    rintro link s _ r _ p _ ⟨rfl, stores⟩ ⟨rfl, refs⟩ rfl
    exact ⟨rfl, i.setSpan p stores refs⟩
  setFrame := by
    rintro link s _ r _ f _ ⟨rfl, stores⟩ ⟨rfl, refs⟩ ⟨rfl, owners⟩
    exact ⟨rfl, i.setFrame stores refs owners⟩
  bind := by
    rintro link s _ f _ r _ name ⟨rfl, stores⟩ ⟨rfl, frames⟩ ⟨rfl, refs⟩
    exact ⟨rfl, i.bind name stores frames refs⟩
  pushScope := by
    rintro link s _ f _ ⟨rfl, stores⟩ ⟨rfl, owners⟩
    obtain ⟨later, further, after, frames⟩ := i.pushScope stores owners
    refine ⟨later, further, ⟨rfl, after⟩, ?_⟩
    rintro name p _ rfl
    exact ⟨rfl, frames name p.start⟩
  errors_refl _ := rfl
  errors_runtime what frames spans := by
    cases Pairing.rel_eq frames fun _ _ related => related.1
    cases Pairing.rel_eq spans fun _ _ => id
    rfl
  errors_grid what spans := by
    cases Pairing.rel_eq spans fun _ _ => id
    rfl
  errors_report := by
    rintro _ d _ f _ p _ name rfl ⟨rfl, _⟩ rfl
    cases rendered : d.render with
    | error fault => exact .inl ⟨fault, rfl, rfl⟩
    | ok report => exact .inr ⟨report, report, rfl, rfl, rfl⟩

theorem worlds_refl {w : World} (stores : i.Stores link w.store) : i.coupling.Worlds link w w :=
  ⟨⟨rfl, stores⟩, rfl, rfl, rfl, rfl, rfl⟩

theorem eq_of_worlds {w v : World} (worlds : i.coupling.Worlds link w v) :
    w = v ∧ i.Stores link w.store := by
  obtain ⟨⟨stores, holds⟩, input, output, robot, scripts, generator⟩ := worlds
  cases w
  cases v
  simp_all

/-- A run that does not give up is the run that cannot, and the invariant holds after it. -/
theorem eq_of_outcomes {α : Type} {R : i.Link → α → α → Prop} {o p : Ending α × World}
    (outcomes : i.coupling.Outcomes link R o p) (equal : ∀ later a b, R later a b → a = b)
    (ends : p.1 ≠ .fault .exhausted) :
    o = p ∧ ∃ later, i.Extends link later ∧ i.Stores later o.2.store := by
  obtain gaveUp | ⟨later, further, worlds, endings⟩ := outcomes
  · exact absurd gaveUp ends
  · obtain ⟨a, w⟩ := o
    obtain ⟨b, v⟩ := p
    obtain ⟨same, stores⟩ := eq_of_worlds worlds
    cases same
    refine ⟨?_, later, further, stores⟩
    cases endings with
    | value results => rw [equal later _ _ results]
    | signal signals =>
        cases signals with
        | returning refs => rw [refs.1]
        | breaking | continuing => rfl
    | error errors => rw [errors]
    | fault fault => rfl

/-- The value of a run is at hand after it. -/
theorem value_of_outcomes {o : Ending Ref × World} {ref : Ref} {after : World}
    (outcomes : i.coupling.Outcomes link i.coupling.Refs o (.value ref, after)) :
    ∃ later, i.Extends link later ∧ i.Stores later after.store ∧ i.Refs later ref := by
  obtain gaveUp | ⟨later, further, worlds, endings⟩ := outcomes
  · cases gaveUp
  · obtain ⟨ending, w⟩ := o
    obtain ⟨same, stores⟩ := eq_of_worlds worlds
    cases same
    cases endings with
    | value results =>
        obtain ⟨rfl, refs⟩ := results
        exact ⟨later, further, stores, refs⟩

/-- Nothing in particular: a run is only compared with itself. -/
def nothing (barred : Node → Frame → World → Bool) : Invariant where
  Link := Unit
  Extends _ _ := True
  Refs _ _ := True
  Storages _ _ := True
  Owners _ _ := True
  Entries _ _ := True
  Frames _ _ := True
  Stores _ _ := True
  barred := barred
  extends_refl _ := trivial
  extends_trans _ _ := trivial
  refs_mono _ _ := trivial
  storages_mono _ _ := trivial
  owners_mono _ _ := trivial
  frames_mono _ _ := trivial
  owners_of_frames _ := trivial
  entries_of_frames _ := trivial
  frames_of_entries _ _ := trivial
  entries_program _ := trivial
  object_storage _ _ _ := trivial
  object_owner _ _ _ := trivial
  element _ _ _ := trivial
  find _ _ _ := trivial
  null _ := trivial
  alloc _ _ _ := ⟨(), trivial, trivial, trivial⟩
  allocStorage _ _ := ⟨(), trivial, trivial, trivial⟩
  updateElements _ _ _ := trivial
  setSpan _ _ _ := trivial
  setFrame _ _ _ := trivial
  bind _ _ _ _ := trivial
  pushScope _ _ := ⟨(), trivial, trivial, fun _ _ => trivial⟩

/-- A run that neither gives up nor comes to its bound is the run with any greater bound that cannot
give up. -/
theorem eval_eq_evalUnless {barred : Node → Frame → World → Bool} {fuel fuel' : Nat}
    (fewer : fuel' ≤ fuel) {node : Node} {frame : Frame} {w : World}
    (ends : (evalUnless barred fuel' node frame w).1 ≠ .fault .exhausted) :
    eval fuel node frame w = evalUnless barred fuel' node frame w := by
  let i := nothing barred
  have nodes : i.coupling.Nodes node node := rfl
  have entries : i.coupling.Entries () frame frame := ⟨rfl, trivial⟩
  have worlds : i.coupling.Worlds () w w := worlds_refl trivial
  have outcomes := i.coupling.lockstep_eval fewer (b := false) nodes entries w w worlds
  exact (eq_of_outcomes outcomes (fun _ _ _ refs => refs.1) ends).1

end Invariant
end Pseudocode
