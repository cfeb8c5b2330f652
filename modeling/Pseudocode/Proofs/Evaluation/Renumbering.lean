import Pseudocode.Proofs.Evaluation.Matching

/-!
# Runs up to numbers

A matching that also keeps places and activations: what answers to each other differs in its number
only.  Runs of one program from such stores end with the same values and the very same errors.
-/

namespace Pseudocode
namespace Matching

/-- What runs have in common that differ in numbers only, but for the stores. -/
def strictParts : Likeness where
  Link := Matching
  Extends := Extends
  Nodes n m := n = m
  Spans p q := p = q
  Refs := Refs
  Storages := Storages
  Owners _ f g := f = g
  Entries _ f g := f = g
  Frames _ f g := f = g
  Stores _ _ _ := True
  Errors d e := d = e
  barred _ _ _ := false

/-- Stores that agree along a matching, places and activations included. -/
structure Renumbers (m : Matching) (s t : Store) : Prop where
  stores : m.Stores s t
  objects : ∀ {r r'}, m.Refs r r' → strictParts.Objects m (s.object r) (t.object r')

variable {m n : Matching} {o p : Object}

theorem objects_of_strict (objects : strictParts.Objects m o p) : parts.Objects m o p :=
  objects.imp (fun _ _ => congrArg Node.erase) (fun _ _ _ => trivial) (fun _ _ => id)
    fun _ _ => congrArg Frame.scope

theorem Extends.strict (further : m.Extends n) (objects : strictParts.Objects m o p) :
    strictParts.Objects n o p :=
  objects.imp (fun _ _ => id) (fun _ _ => id) (fun _ _ => further.storages) fun _ _ => id

namespace Renumbers

variable {s t : Store} {r r' : Ref}

/-- Either store may hold more. -/
theorem alloc_left (renumbers : m.Renumbers s t) (object : Object) :
    m.Renumbers (s.alloc object).2 t := by
  refine ⟨renumbers.stores.alloc_left object, ?_⟩
  intro r r' refs
  rw [Store.object_alloc (renumbers.stores.refs refs).1]
  exact renumbers.objects refs

theorem alloc_right (renumbers : m.Renumbers s t) (object : Object) :
    m.Renumbers s (t.alloc object).2 := by
  refine ⟨renumbers.stores.alloc_right object, ?_⟩
  intro r r' refs
  rw [Store.object_alloc (renumbers.stores.refs refs).2]
  exact renumbers.objects refs

theorem alloc (renumbers : m.Renumbers s t) (objects : strictParts.Objects m o p) :
    (m.withRef (s.alloc o).1 (t.alloc p).1).Renumbers (s.alloc o).2 (t.alloc p).2 := by
  have further := extends_withRef m (s.alloc o).1 (t.alloc p).1
  refine ⟨renumbers.stores.alloc (objects_of_strict objects), ?_⟩
  rintro r r' (refs | ⟨rfl, rfl⟩)
  · exact further.strict (((renumbers.alloc_left o).alloc_right p).objects refs)
  · rw [(Store.holds_alloc s o).object_eq, (Store.holds_alloc t p).object_eq]
    exact further.strict objects

theorem allocStorage (renumbers : m.Renumbers s t) {xs ys : Array Ref}
    (lists : Pairing.Lists m.Refs xs ys) :
    (m.withStorage (s.allocStorage xs).1 (t.allocStorage ys).1).Renumbers (s.allocStorage xs).2
      (t.allocStorage ys).2 :=
  ⟨renumbers.stores.allocStorage lists, fun refs =>
    (extends_withStorage m _ _).strict (renumbers.objects refs)⟩

theorem index_iff (renumbers : m.Renumbers s t) {q q' : Ref} (refs : m.Refs r r')
    (others : m.Refs q q') : r.index = q.index ↔ r'.index = q'.index := by
  have same := renumbers.stores.refs_iff refs others
  obtain ⟨i⟩ := r
  obtain ⟨i'⟩ := r'
  obtain ⟨j⟩ := q
  obtain ⟨j'⟩ := q'
  simpa using same

theorem modifyObject (renumbers : m.Renumbers s t) (refs : m.Refs r r') {f g : Object → Object}
    (changes : ∀ o p, strictParts.Objects m o p → strictParts.Objects m (f o) (g p))
    (coarse : ∀ o p, parts.Objects m o p → parts.Objects m (f o) (g p)) :
    m.Renumbers { s with objects := s.objects.modify r.index f }
      { t with objects := t.objects.modify r'.index g } := by
  refine ⟨renumbers.stores.modifyObject refs coarse, ?_⟩
  intro q q' others
  have inside := renumbers.stores.refs others
  have same := renumbers.index_iff refs others
  rw [Store.object_modify inside.1, Store.object_modify inside.2]
  by_cases here : r.index = q.index
  · rw [if_pos here, if_pos (same.mp here)]
    exact changes _ _ (renumbers.objects others)
  · rw [if_neg here, if_neg (mt same.mpr here)]
    exact renumbers.objects others

theorem setSpan (renumbers : m.Renumbers s t) (refs : m.Refs r r') (span : Span) :
    m.Renumbers (s.setSpan r span) (t.setSpan r' span) :=
  renumbers.modifyObject refs (fun _ _ same => ⟨same.data, .some rfl, same.frames⟩)
    fun _ _ same => ⟨same.data, .some trivial, same.frames⟩

theorem setFrame (renumbers : m.Renumbers s t) (refs : m.Refs r r') (frame : Frame) :
    m.Renumbers (s.setFrame r frame) (t.setFrame r' frame) :=
  renumbers.modifyObject refs (fun _ _ same => ⟨same.data, same.spans, .some rfl⟩)
    fun _ _ same => ⟨same.data, same.spans, .some rfl⟩

end Renumbers

/-- What runs have in common that differ in numbers only. -/
def strict : Likeness :=
  { strictParts with Stores := Renumbers }

/-- Runs of one program in stores that differ in numbers only. -/
def renumbering : Coupling where
  toLikeness := strict
  extends_refl _ := ⟨id, id⟩
  extends_trans first second := ⟨second.refs ∘ first.refs, second.storages ∘ first.storages⟩
  refs_mono further refs := further.refs refs
  storages_mono further storages := further.storages storages
  owners_mono _ owners := owners
  frames_mono _ frames := frames
  owners_of_frames frames := frames
  entries_of_frames frames := frames
  frames_of_entries entries _ := entries
  entries_program _ := rfl
  nodes_refl _ := rfl
  nodes_span same := congrArg Node.span same
  shapes_of_nodes := by
    rintro n _ rfl
    exact .refl (fun _ => rfl) (fun _ => rfl) n
  object renumbers refs :=
    (renumbers.objects refs).imp (fun _ _ => id) (fun _ _ => id) (fun _ _ => id) fun _ _ => id
  elements renumbers storages := renumbers.stores.elements storages
  snapshot renumbers refs := renumbers.stores.snapshot refs
  find := by
    rintro link f _ w v x renumbers rfl _
    exact renumbers.stores.find f.scope x.text
  null renumbers := renumbers.stores.null
  alloc := by
    intro m s t o p renumbers objects
    refine ⟨_, extends_withRef m _ _, renumbers.alloc (objects.imp ?_ ?_ ?_ ?_),
      Or.inr ⟨rfl, rfl⟩⟩
    all_goals exact fun _ _ => id
  allocStorage := by
    intro m s t xs ys renumbers lists
    exact ⟨_, extends_withStorage m _ _, renumbers.allocStorage lists, Or.inr ⟨rfl, rfl⟩⟩
  updateElements renumbers storages changes :=
    ⟨renumbers.stores.updateElements storages changes, renumbers.objects⟩
  setSpan := by
    rintro m s t r r' p _ renumbers refs rfl
    exact renumbers.setSpan refs p
  setFrame := by
    rintro m s t r r' f _ renumbers refs rfl
    exact renumbers.setFrame refs f
  bind := by
    rintro m s t f _ r r' name renumbers rfl refs
    exact ⟨renumbers.stores.bind f.scope name refs, renumbers.objects⟩
  pushScope := by
    rintro m s t f _ renumbers rfl
    have scopes : (s.pushScope f.scope).1 = (t.pushScope f.scope).1 :=
      congrArg ScopeId.mk renumbers.stores.scopes.size_eq
    refine ⟨m, ⟨id, id⟩, ⟨renumbers.stores.pushScope f.scope, renumbers.objects⟩, ?_⟩
    rintro name p _ rfl
    exact congrArg (Frame.call name p.start f) scopes
  errors_refl _ := rfl
  errors_runtime := by
    intro link f g p q what owners spans
    obtain rfl := Pairing.rel_eq owners fun _ _ => id
    obtain rfl := Pairing.rel_eq spans fun _ _ => id
    rfl
  errors_grid := by
    intro p q what spans
    obtain rfl := Pairing.rel_eq spans fun _ _ => id
    rfl
  errors_report := by
    rintro link d _ f _ p _ name rfl rfl rfl
    obtain ⟨-, failed⟩ | ⟨span, report, -, made⟩ := d.render_cases
    · exact .inl ⟨_, failed, failed⟩
    · exact .inr ⟨report, report, made, made, rfl⟩

theorem renumbers_identity {s : Store} (wellFormed : s.WellFormed) :
    (identity s).Renumbers s s := by
  refine ⟨stores_identity wellFormed, ?_⟩
  rintro r _ ⟨rfl, inside⟩
  have held := Store.object_eq_of_lt inside
  refine ⟨.refl (fun _ => rfl) fun t isList => ?_, Pairing.rel_refl fun _ _ => rfl,
    Pairing.rel_refl fun _ _ => rfl⟩
  exact ⟨rfl, wellFormed.storage r.index _ t held isList⟩

/-- An evaluator is in step with itself; the second run may have a smaller bound. -/
theorem lockstep_renumbering {fuel fuel' : Nat} (fewer : fuel' ≤ fuel) :
    renumbering.accord.Evaluators (eval fuel) (eval fuel') := by
  have lockstep := renumbering.lockstep_eval fewer
  rwa [show evalUnless renumbering.barred fuel' = eval fuel' from evalUnless_never fuel']
    at lockstep

end Matching
end Pseudocode
