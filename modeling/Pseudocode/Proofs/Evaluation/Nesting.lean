import Pseudocode.Proofs.Evaluation.WellFormed

/-!
# Calls from inside a procedure

The scope of a call lies inside the scope of the activation that the call is made from, so the body
of a procedure sees the names of its callers.  A call from inside a procedure and the same call from
the main program therefore do the same only as long as no name is read that one of the caller's own
scopes binds; then they do the same in everything but the traces of errors.
-/

namespace Pseudocode

/-! ## Where a name is found -/

namespace Scopes

variable {α : Type}

/-- The parent of a scope. -/
def parent? (scopes : Scopes α) (id : ScopeId) : Option ScopeId :=
  scopes[id.index]?.bind Scope.parent

/-- Bindings do not change parents. -/
theorem parent?_set (scopes : Scopes α) (id other : ScopeId) (name : String) (value : Option α) :
    (scopes.set other name value).parent? id = scopes.parent? id := by
  change (Array.modify scopes other.index _)[id.index]?.bind Scope.parent = _
  rw [Array.getElem?_modify, parent?]
  split
  · cases scopes[id.index]? <;> rfl
  · rfl

theorem parent?_push (scopes : Scopes α) (id : ScopeId) (parent : Option ScopeId) :
    (scopes.push parent).2.parent? id =
      if id.index = scopes.size then parent else scopes.parent? id := by
  change (Array.push scopes ⟨parent, []⟩)[id.index]?.bind Scope.parent = _
  rw [Array.getElem?_push, parent?]
  split <;> rfl

theorem lt_of_parent? {scopes : Scopes α} {id parent : ScopeId}
    (above : scopes.parent? id = some parent) : id.index < scopes.size := by
  obtain ⟨scope, here, _⟩ := Option.bind_eq_some_iff.mp above
  exact (Array.getElem?_eq_some_iff.mp here).1

/-- The scopes from one up to the root, at most so many. -/
def lineageWithin (scopes : Scopes α) : Nat → ScopeId → List ScopeId
  | 0, _ => []
  | fuel + 1, id =>
      match scopes.parent? id with
      | none => [id]
      | some parent => id :: lineageWithin scopes fuel parent

theorem mem_lineageWithin_self {scopes : Scopes α} {fuel : Nat} {id : ScopeId}
    (enough : id.index < fuel) : id ∈ lineageWithin scopes fuel id := by
  cases fuel with
  | zero => exact absurd enough (Nat.not_lt_zero _)
  | succ fuel =>
      unfold lineageWithin
      split <;> exact List.mem_cons_self

/-- A lineage goes back in time and is closed under parents. -/
theorem of_mem_lineageWithin {scopes : Scopes α}
    (older : ∀ id parent, scopes.parent? id = some parent → parent.index < id.index)
    {fuel : Nat} {id x : ScopeId} (enough : id.index < fuel)
    (member : x ∈ lineageWithin scopes fuel id) :
    x.index ≤ id.index ∧
      ∀ parent, scopes.parent? x = some parent → parent ∈ lineageWithin scopes fuel id := by
  induction fuel generalizing id with
  | zero => exact absurd enough (Nat.not_lt_zero _)
  | succ fuel ih =>
      unfold lineageWithin at member ⊢
      cases above : scopes.parent? id with
      | none =>
          rw [above] at member
          cases List.mem_singleton.mp member
          refine ⟨Nat.le_refl _, fun parent isParent => ?_⟩
          rw [above] at isParent
          cases isParent
      | some next =>
          have less := older id next above
          have left : next.index < fuel := by omega
          rw [above] at member
          obtain rfl | later := List.mem_cons.mp member
          · refine ⟨Nat.le_refl _, fun parent isParent => ?_⟩
            rw [above] at isParent
            cases isParent
            exact List.mem_cons_of_mem _ (mem_lineageWithin_self left)
          · obtain ⟨before, closed⟩ := ih left later
            refine ⟨by omega, fun parent isParent => ?_⟩
            exact List.mem_cons_of_mem _ (closed parent isParent)

/-- A scope and its ancestors, but for the main program. -/
def locals (scopes : Scopes α) (id : ScopeId) : List ScopeId :=
  (lineageWithin scopes scopes.size id).filter (· ≠ Store.globalScope)

theorem main_or_mem_locals {scopes : Scopes α} {id x : ScopeId}
    (member : x ∈ lineageWithin scopes scopes.size id) :
    x = Store.globalScope ∨ x ∈ scopes.locals id := by
  by_cases main : x = Store.globalScope
  · exact .inl main
  · right
    rw [locals, List.mem_filter]
    exact ⟨member, by simpa using main⟩

/-- The scope in which a name is found, after a look into at most `fuel` scopes. -/
def binderWithin (scopes : Scopes α) (name : String) : Nat → ScopeId → Option ScopeId
  | 0, _ => none
  | fuel + 1, id =>
      match scopes[id.index]? with
      | none => none
      | some scope =>
          match scope.bindings.get? name with
          | some _ => some id
          | none => scope.parent.bind (binderWithin scopes name fuel)

/-- The scope in which a name is found. -/
def binder? (scopes : Scopes α) (id : ScopeId) (name : String) : Option ScopeId :=
  binderWithin scopes name scopes.size id

end Scopes

/-- A name is read that one of the given scopes binds. -/
def captured (scopes : List ScopeId) (node : Node) (frame : Frame) (w : World) : Bool :=
  match node with
  | .access name => (w.store.scopes.binder? frame.scope name.text).any scopes.contains
  | _ => false

/-! ## Stores that differ in the caller -/

section

variable (inner : ScopeId) (own : List ScopeId)

/-- The same scope, or the main program on one side and the caller on the other. -/
def Views (a b : ScopeId) : Prop :=
  a = b ∨ a = Store.globalScope ∧ b = inner

/-- The same scope, or the main program on one side and one of the caller's own scopes on the
other. -/
def Sides (a b : ScopeId) : Prop :=
  a = b ∨ a = Store.globalScope ∧ b ∈ own

/-- Activations with such scopes, among the first so many. -/
structure ViewFrames (link : Nat) (f g : Frame) : Prop where
  views : Views inner f.scope g.scope
  left : f.scope.index < link
  right : g.scope.index < link

/-- Objects that are the same but for the activation they belong to. -/
structure ViewObjects (link : Nat) (o p : Object) : Prop where
  data : o.datum = p.datum
  spans : o.span = p.span
  frames : Option.Rel (ViewFrames inner link) o.frame p.frame

/-- Scopes that are the same but for their parent. -/
structure ViewScopes (a b : Scope Ref) : Prop where
  bindings : a.bindings = b.bindings
  parents : Option.Rel (Views inner) a.parent b.parent

/-- Stores that are the same, but for the activations of objects and the parents of scopes.  The
caller's own scopes lead from its scope to the main program. -/
structure ViewStores (link : Nat) (s t : Store) : Prop where
  objects : Pairing.Lists (ViewObjects inner link) s.objects t.objects
  storages : s.storages = t.storages
  scopes : Pairing.Lists (ViewScopes inner) s.scopes t.scopes
  left : s.scopes.size = link
  right : t.scopes.size = link
  main : 0 < link
  left_older : ∀ id parent, s.scopes.parent? id = some parent → parent.index < id.index
  right_older : ∀ id parent, t.scopes.parent? id = some parent → parent.index < id.index
  /-- The way from the caller begins with its own scopes, -/
  inner : inner = Store.globalScope ∨ inner ∈ own
  /-- and it does not leave them before it comes to the main program. -/
  own : ∀ id ∈ own, ∃ parent, t.scopes.parent? id = some parent ∧
    (parent = Store.globalScope ∨ parent ∈ own)

end

theorem ViewFrames.mono {inner : ScopeId} {link later : Nat} {f g : Frame}
    (further : link ≤ later) (frames : ViewFrames inner link f g) : ViewFrames inner later f g :=
  ⟨frames.views, Nat.lt_of_lt_of_le frames.left further, Nat.lt_of_lt_of_le frames.right further⟩

namespace ViewStores

variable {inner : ScopeId} {own : List ScopeId} {link : Nat} {s t : Store}

theorem sides_of_next {id : ScopeId} (next : id = Store.globalScope ∨ id ∈ own) :
    Sides own Store.globalScope id := by
  obtain same | member := next
  · exact .inl same.symm
  · exact .inr ⟨rfl, member⟩

theorem sides (stores : ViewStores inner own link s t) {a b : ScopeId} (views : Views inner a b) :
    Sides own a b := by
  obtain same | ⟨rfl, rfl⟩ := views
  · exact .inl same
  · exact sides_of_next stores.inner

/-- Two scopes at the same place: both are missing, or they bind the same and their parents, if they
have any, are older and again a pair of sides. -/
theorem scope_cases (stores : ViewStores inner own link s t) (id : ScopeId) :
    s.scopes[id.index]? = none ∧ t.scopes[id.index]? = none ∨
      ∃ x y, s.scopes[id.index]? = some x ∧ t.scopes[id.index]? = some y ∧
        x.bindings = y.bindings ∧
        (x.parent = none ∧ y.parent = none ∨
          ∃ p q, x.parent = some p ∧ y.parent = some q ∧ Sides own p q ∧
            p.index < id.index ∧ q.index < id.index) := by
  have scopes := stores.scopes.getElem? id.index
  cases left : s.scopes[id.index]? with
  | none =>
      rw [left] at scopes
      cases right : t.scopes[id.index]? with
      | none => exact .inl ⟨rfl, rfl⟩
      | some y =>
          rw [right] at scopes
          cases scopes
  | some x =>
      rw [left] at scopes
      cases right : t.scopes[id.index]? with
      | none =>
          rw [right] at scopes
          cases scopes
      | some y =>
          rw [right] at scopes
          cases scopes with
          | some same =>
              refine .inr ⟨x, y, rfl, rfl, same.bindings, ?_⟩
              have leftOlder := stores.left_older id
              have rightOlder := stores.right_older id
              rw [Scopes.parent?, left] at leftOlder
              rw [Scopes.parent?, right] at rightOlder
              dsimp only [Option.bind_some] at leftOlder rightOlder
              have parents := same.parents
              generalize x.parent = p at parents leftOlder ⊢
              generalize y.parent = q at parents rightOlder ⊢
              cases parents with
              | none => exact .inl ⟨rfl, rfl⟩
              | some views =>
                  exact .inr ⟨_, _, rfl, rfl, stores.sides views, leftOlder _ rfl,
                    rightOlder _ rfl⟩

/-- Looking up a name from two sides.  The second way is longer, by the caller's own scopes; the
induction is on its bound. -/
theorem findWithin (stores : ViewStores inner own link s t) {name : String} {fuel fuel' : Nat}
    {a b : ScopeId} (sides : Sides own a b) (left : a.index < fuel) (right : b.index < fuel')
    (free : (t.scopes.binderWithin name fuel' b).any own.contains = false) :
    s.scopes.findWithin name fuel a = t.scopes.findWithin name fuel' b := by
  induction fuel' generalizing fuel a b with
  | zero => exact absurd right (Nat.not_lt_zero _)
  | succ fuel' ih =>
      rw [Scopes.binderWithin] at free
      rw [Scopes.findWithin]
      obtain rfl | ⟨rfl, member⟩ := sides
      · -- The same scope: both ways go on to a pair of parents.
        obtain ⟨fuel, rfl⟩ : ∃ less, fuel = less + 1 := ⟨fuel - 1, by omega⟩
        rw [Scopes.findWithin]
        obtain ⟨left, right⟩ | ⟨x, y, here, there, bindings, parents⟩ := stores.scope_cases a
        · rw [left, right]
        · rw [there] at free
          rw [here, there]
          dsimp only at free ⊢
          rw [bindings]
          cases bound : y.bindings.get? name with
          | some value => rfl
          | none =>
              rw [bound] at free
              obtain ⟨noneLeft, noneRight⟩ | ⟨p, q, above, above', sides, less, less'⟩ := parents
              · rw [noneLeft, noneRight]
                rfl
              · rw [above'] at free
                rw [above, above']
                exact ih sides (by omega) (by omega) free
      · -- One of the caller's own scopes: only the second way goes on, since it finds nothing here.
        obtain ⟨parent, above, next⟩ := stores.own b member
        have less := stores.right_older b parent above
        obtain ⟨scope, here, above⟩ := Option.bind_eq_some_iff.mp above
        rw [here] at free ⊢
        dsimp only at free ⊢
        cases bound : scope.bindings.get? name with
        | some value =>
            rw [bound] at free
            simp [member] at free
        | none =>
            rw [bound, above] at free
            rw [above]
            exact ih (sides_of_next next) left (by omega) free

theorem object (stores : ViewStores inner own link s t) (ref : Ref) :
    ViewObjects inner link (s.object ref) (t.object ref) := by
  have related := stores.objects.getElem? ref.index
  rw [Store.object, Store.object, Array.getD_eq_getD_getElem?, Array.getD_eq_getD_getElem?]
  generalize s.objects[ref.index]? = x at related ⊢
  generalize t.objects[ref.index]? = y at related ⊢
  cases related with
  | none => exact ⟨rfl, rfl, .none⟩
  | some same => exact same

theorem elements (stores : ViewStores inner own link s t) (storage : StorageId) :
    s.elements storage = t.elements storage := by
  rw [Store.elements, Store.elements, stores.storages]

theorem snapshot (stores : ViewStores inner own link s t) (ref : Ref) :
    s.snapshot ref = t.snapshot ref := by
  have deep (fuel : Nat) : ∀ (path : List StorageId) (ref : Ref),
      s.snapshotWithin fuel path ref = t.snapshotWithin fuel path ref := by
    induction fuel with
    | zero =>
        intro path ref
        rfl
    | succ fuel ih =>
        intro path ref
        have data : s.datum ref = t.datum ref := (stores.object ref).data
        rw [Store.snapshotWithin, Store.snapshotWithin, data]
        split
        all_goals try rfl
        rw [stores.elements, funext (ih _)]
  rw [Store.snapshot, Store.snapshot, stores.storages, deep]

theorem alloc (stores : ViewStores inner own link s t) {o p : Object}
    (objects : ViewObjects inner link o p) :
    ViewStores inner own link (s.alloc o).2 (t.alloc p).2 :=
  { stores with objects := stores.objects.push objects }

theorem modifyObject (stores : ViewStores inner own link s t) {f g : Object → Object}
    (changes : ∀ o p, ViewObjects inner link o p → ViewObjects inner link (f o) (g p))
    (place : Nat) :
    ViewStores inner own link { s with objects := s.objects.modify place f }
      { t with objects := t.objects.modify place g } :=
  { stores with objects := stores.objects.modify changes place }

theorem changeStorages (stores : ViewStores inner own link s t)
    (change : Array (Array Ref) → Array (Array Ref)) :
    ViewStores inner own link { s with storages := change s.storages }
      { t with storages := change t.storages } :=
  { stores with storages := by rw [stores.storages] }

theorem bind (stores : ViewStores inner own link s t) (id : ScopeId) (name : String) (ref : Ref) :
    ViewStores inner own link (s.bind id name ref) (t.bind id name ref) := by
  have scopes : Pairing.Lists (ViewScopes inner) (s.bind id name ref).scopes
      (t.bind id name ref).scopes := by
    apply stores.scopes.modify
    intro a b same
    exact ⟨by rw [same.bindings], same.parents⟩
  refine { stores with scopes := scopes, left := ?_, right := ?_, left_older := ?_,
                       right_older := ?_, own := ?_ }
  · exact Array.size_modify.trans stores.left
  · exact Array.size_modify.trans stores.right
  · intro other parent above
    rw [Store.bind, Scopes.parent?_set] at above
    exact stores.left_older other parent above
  · intro other parent above
    rw [Store.bind, Scopes.parent?_set] at above
    exact stores.right_older other parent above
  · intro other member
    rw [Store.bind, Scopes.parent?_set]
    exact stores.own other member

theorem pushScope (stores : ViewStores inner own link s t) {f g : Frame}
    (frames : ViewFrames inner link f g) :
    ViewStores inner own (link + 1) (s.pushScope f.scope).2 (t.pushScope g.scope).2 := by
  have objects : Pairing.Lists (ViewObjects inner (link + 1)) s.objects t.objects := by
    refine List.Forall₂.imp ?_ stores.objects
    intro o p same
    refine ⟨same.data, same.spans, ?_⟩
    have frames := same.frames
    generalize o.frame = x at frames ⊢
    generalize p.frame = y at frames ⊢
    cases frames with
    | none => exact .none
    | some frames => exact .some (frames.mono (Nat.le_succ link))
  refine { stores with objects := objects, scopes := ?_, left := ?_, right := ?_,
                       main := Nat.succ_pos link, left_older := ?_, right_older := ?_, own := ?_ }
  · exact stores.scopes.push ⟨rfl, .some frames.views⟩
  · exact (Array.size_push _).trans (by rw [stores.left])
  · exact (Array.size_push _).trans (by rw [stores.right])
  · intro id parent above
    rw [Store.pushScope, Scopes.parent?_push] at above
    split at above
    · cases above
      have inside := frames.left
      have size := stores.left
      omega
    · exact stores.left_older id parent above
  · intro id parent above
    rw [Store.pushScope, Scopes.parent?_push] at above
    split at above
    · cases above
      have inside := frames.right
      have size := stores.right
      omega
    · exact stores.right_older id parent above
  · intro id member
    obtain ⟨parent, above, next⟩ := stores.own id member
    have inside := Scopes.lt_of_parent? above
    refine ⟨parent, ?_, next⟩
    rw [Store.pushScope, Scopes.parent?_push, if_neg (Nat.ne_of_lt inside), above]

end ViewStores

/-! ## The coupling -/

/-- Causes that are the same but for the activation, and for the report on a script that failed. -/
inductive Problem.Alike : Problem → Problem → Prop
  | same (problem : Problem) : Alike problem problem
  | runtime (what : RuntimeProblem) (f g : Option Frame) : Alike (.runtime what f) (.runtime what g)
  | script (name report report' : String) (f g : Option Frame) :
      Alike (.runtime (.scriptFailed name report) f) (.runtime (.scriptFailed name report') g)

/-- Errors at the same place and with causes that are alike. -/
structure Diagnostic.Alike (d e : Diagnostic) : Prop where
  spans : d.span = e.span
  problems : d.problem.Alike e.problem

/-- A run of a call from inside a procedure, beside one of the same call from the main program. -/
def nesting (inner : ScopeId) (own : List ScopeId) : Coupling where
  Link := Nat
  Extends := (· ≤ ·)
  Nodes := Eq
  Spans := Eq
  Refs _ := Eq
  Storages _ := Eq
  Owners := ViewFrames inner
  Entries link f g := f.scope = g.scope ∧ g.scope.index < link
  Frames link f g := f.scope = g.scope ∧ g.scope.index < link
  Stores := ViewStores inner own
  Errors := Diagnostic.Alike
  barred := captured own
  extends_refl := Nat.le_refl
  extends_trans := Nat.le_trans
  refs_mono _ refs := refs
  storages_mono _ storages := storages
  owners_mono further owners := owners.mono further
  frames_mono further frames := ⟨frames.1, Nat.lt_of_lt_of_le frames.2 further⟩
  owners_of_frames := by
    rintro link f g ⟨same, inside⟩
    exact ⟨.inl same, by rw [same]; exact inside, inside⟩
  entries_of_frames frames := frames
  frames_of_entries entries _ := entries
  entries_program := by
    intro link s t stores
    exact ⟨rfl, stores.main⟩
  nodes_refl _ := rfl
  nodes_span nodes := by cases nodes; rfl
  shapes_of_nodes := by
    rintro n _ rfl
    exact .refl (fun _ => rfl) (fun _ => rfl) n
  object := by
    rintro link s t r _ stores rfl
    have same := stores.object r
    constructor
    case data =>
      rw [same.data]
      exact .refl (fun _ => rfl) fun _ _ => rfl
    case spans =>
      rw [same.spans]
      exact Pairing.rel_refl fun _ _ => rfl
    case frames => exact same.frames
  elements := by
    rintro link s t a _ stores rfl
    rw [stores.elements]
    exact List.forall₂_same.mpr fun _ _ => rfl
  snapshot := by
    rintro link s t r _ stores rfl
    exact stores.snapshot r
  find := by
    rintro link f g w v x stores ⟨same, inside⟩ free
    rw [same, Store.find?, Store.find?, Scopes.find?, Scopes.find?]
    rw [stores.findWithin (.inl rfl) (stores.left ▸ inside) (stores.right ▸ inside) free]
    exact Pairing.rel_refl fun _ _ => rfl
  null _ := rfl
  alloc := by
    rintro link s t ⟨d, p, f⟩ ⟨d', p', f'⟩ stores ⟨data, spans, frames⟩
    have same := data.eq (fun _ _ => id) fun _ _ => id
    have place := Pairing.rel_eq spans fun _ _ => id
    refine ⟨link, Nat.le_refl link, stores.alloc ⟨same, place, frames⟩, ?_⟩
    exact congrArg Ref.mk stores.objects.size_eq
  allocStorage := by
    rintro link s t xs ys stores lists
    cases lists.eq fun _ _ => id
    refine ⟨link, Nat.le_refl link, stores.changeStorages (·.push xs), ?_⟩
    exact congrArg (fun storages => StorageId.mk storages.size) stores.storages
  updateElements := by
    rintro link s t a _ f g stores rfl changes
    have same : f = g := by
      funext xs
      exact (changes (List.forall₂_same.mpr fun _ _ => rfl)).eq fun _ _ => id
    subst same
    exact stores.changeStorages (·.modify a.index f)
  setSpan := by
    rintro link s t r _ p _ stores rfl rfl
    apply stores.modifyObject
    intro o o' same
    exact ⟨same.data, rfl, same.frames⟩
  setFrame := by
    rintro link s t r _ f g stores rfl frames
    apply stores.modifyObject
    intro o o' same
    exact ⟨same.data, same.spans, .some frames⟩
  bind := by
    rintro link s t f g r _ name stores ⟨same, _⟩ rfl
    rw [same]
    exact stores.bind g.scope name r
  pushScope := by
    rintro link s t f g stores frames
    refine ⟨link + 1, Nat.le_succ link, stores.pushScope frames, ?_⟩
    rintro name p _ rfl
    refine ⟨congrArg ScopeId.mk (stores.left.trans stores.right.symm), ?_⟩
    exact Nat.lt_succ_of_le (Nat.le_of_eq stores.right)
  errors_refl d := ⟨rfl, .same _⟩
  errors_runtime what frames spans := ⟨Pairing.rel_eq spans fun _ _ => id, .runtime what _ _⟩
  errors_grid what spans := ⟨Pairing.rel_eq spans fun _ _ => id, .same _⟩
  errors_report := by
    rintro link d e f g p _ name ⟨spans, _⟩ _ rfl
    obtain ⟨left, failed⟩ | ⟨span, report, left, made⟩ := d.render_cases
    · obtain ⟨_, failed'⟩ | ⟨span', _, right, _⟩ := e.render_cases
      · exact .inl ⟨_, failed, failed'⟩
      · rw [left, right] at spans
        cases spans
    · obtain ⟨right, _⟩ | ⟨span', report', _, made'⟩ := e.render_cases
      · rw [left, right] at spans
        cases spans
      · exact .inr ⟨report, report', made, made', rfl, .script name report report' _ _⟩

/-! ## Calls -/

theorem Store.WellFormed.older {s : Store} (wellFormed : s.WellFormed) {id parent : ScopeId}
    (above : s.scopes.parent? id = some parent) : parent.index < id.index := by
  obtain ⟨scope, here, isParent⟩ := Option.bind_eq_some_iff.mp above
  exact wellFormed.parent id.index scope parent here isParent

/-- A store beside itself, seen from the main program and from a caller. -/
theorem Store.WellFormed.views {s : Store} (wellFormed : s.WellFormed) {inner : ScopeId}
    (inside : inner.index < s.scopes.size) :
    ViewStores inner (s.scopes.locals inner) s.scopes.size s s := by
  have older (id parent : ScopeId) (above : s.scopes.parent? id = some parent) :
      parent.index < id.index := wellFormed.older above
  constructor
  case objects =>
    apply List.forall₂_same.mpr
    intro object member
    obtain ⟨index, here⟩ := List.getElem?_of_mem member
    rw [Array.getElem?_toList] at here
    refine ⟨rfl, rfl, Pairing.rel_refl fun f owned => ?_⟩
    have known := wellFormed.owner index object f here owned
    exact ⟨.inl rfl, known, known⟩
  case storages => rfl
  case scopes =>
    apply List.forall₂_same.mpr
    intro scope _
    exact ⟨rfl, Pairing.rel_refl fun _ _ => .inl rfl⟩
  case left => rfl
  case right => rfl
  case main => exact wellFormed.scopes
  case left_older => exact older
  case right_older => exact older
  case inner => exact Scopes.main_or_mem_locals (Scopes.mem_lineageWithin_self inside)
  case own =>
    intro id member
    obtain ⟨member, other⟩ := List.mem_filter.mp member
    have other : id ≠ globalScope := by simpa using other
    obtain ⟨before, closed⟩ := Scopes.of_mem_lineageWithin older inside member
    have here : id.index < s.scopes.size := Nat.lt_of_le_of_lt before inside
    cases above : s.scopes.parent? id with
    | none =>
        rw [Scopes.parent?, Array.getElem?_eq_getElem here] at above
        have root := wellFormed.root id.index _ (Array.getElem?_eq_getElem here) above
        exact absurd (congrArg ScopeId.mk root) other
    | some parent => exact ⟨parent, rfl, Scopes.main_or_mem_locals (closed parent above)⟩

/-- A call of the procedure that a name means, with given values. -/
def Evaluator.callNamed (self : Evaluator) (name : Name) (arguments : List Ref) (span : Span)
    (frame : Frame) : Eval Ref := do
  let callee ← self (.access name) frame
  self.callObject callee (pure arguments) span frame

/-- Endings with the same value, the same signal, the same fault or errors that are alike. -/
inductive Ending.Alike : Ending Ref → Ending Ref → Prop
  | value (result : Ref) : Alike (.value result) (.value result)
  | signal (signal : Signal) : Alike (.signal signal) (.signal signal)
  | error {d e : Diagnostic} (errors : d.Alike e) : Alike (.error d) (.error e)
  | fault (fault : Fault) : Alike (.fault fault) (.fault fault)

/-- Two runs that cannot be told apart by what they print, by the values they leave in the main
program or by their result. -/
structure SameEffect (o p : Ending Ref × World) : Prop where
  endings : o.1.Alike p.1
  input : o.2.input = p.2.input
  output : o.2.output = p.2.output
  robot : o.2.robot = p.2.robot
  scripts : o.2.scripts = p.2.scripts
  generator : o.2.generator = p.2.generator
  globals : o.2.store.scopes.own Store.globalScope = p.2.store.scopes.own Store.globalScope
  values : ∀ ref, o.2.store.snapshot ref = p.2.store.snapshot ref

section

variable {inner : ScopeId} {own : List ScopeId} {link : Nat}

theorem sameEffect_of_outcomes {o p : Ending Ref × World}
    (outcomes : (nesting inner own).Outcomes link (nesting inner own).Refs o p)
    (ends : p.1 ≠ .fault .exhausted) : SameEffect o p := by
  obtain gaveUp | ⟨later, _, worlds, endings⟩ := outcomes
  · exact absurd gaveUp ends
  · obtain ⟨a, w⟩ := o
    obtain ⟨b, v⟩ := p
    have stores : ViewStores inner own later w.store v.store := worlds.stores
    constructor
    case endings =>
      cases endings with
      | value results =>
          cases results
          exact .value _
      | signal signals =>
          cases signals with
          | returning refs =>
              cases refs
              exact .signal _
          | breaking | continuing => exact .signal _
      | error errors => exact .error errors
      | fault fault => exact .fault fault
    case input => exact worlds.input
    case output => exact worlds.output
    case robot => exact worlds.robot
    case scripts => exact worlds.scripts
    case generator => exact worlds.generator
    case globals =>
      dsimp only
      rw [Scopes.own, Scopes.own]
      obtain ⟨left, right⟩ | ⟨x, y, left, right, bindings, _⟩ :=
        stores.scope_cases Store.globalScope
      · rw [left, right]
      · rw [left, right]
        exact bindings
    case values => exact stores.snapshot

/-- A name that the caller does not capture means the same in the main program and in the caller. -/
theorem couples_callee (fuel : Nat) (name : Name) {caller : Frame} (isInner : caller.scope = inner)
    (inside : inner.index < link) :
    (nesting inner own).Couples link (nesting inner own).Refs
      (eval fuel (.access name) (.program Store.globalScope))
      (evalUnless (captured own) fuel (.access name) caller) := by
  intro w v worlds
  have stores : ViewStores inner own link w.store v.store := worlds.stores
  cases fuel with
  | zero => exact .inl rfl
  | succ fuel =>
      rw [eval, evalUnless]
      cases free : captured own (.access name) caller v with
      | true => exact .inl rfl
      | false =>
          have sides : Sides own Store.globalScope caller.scope :=
            stores.sides (.inr ⟨rfl, isInner⟩)
          have found : w.store.find? Store.globalScope name.text =
              v.store.find? caller.scope name.text :=
            stores.findWithin sides (stores.left ▸ stores.main)
              (isInner ▸ stores.right ▸ inside) free
          apply Coupling.outcomes_found rfl (by rfl) _ worlds
          · change Option.Rel Eq (w.store.find? Store.globalScope name.text) _
            rw [found]
            exact Pairing.rel_refl fun _ _ => rfl
          · exact ⟨.inr ⟨rfl, isInner⟩, stores.main, isInner ▸ inside⟩

end

/-- A call that does not give up is the call that cannot. -/
theorem callNamed_evalUnless {barred : Node → Frame → World → Bool} {fuel : Nat} {name : Name}
    {arguments : List Ref} {span : Span} {frame : Frame} {w : World}
    (ends : (Evaluator.callNamed (evalUnless barred fuel) name arguments span frame w).1 ≠
      .fault .exhausted) :
    Evaluator.callNamed (eval fuel) name arguments span frame w =
      Evaluator.callNamed (evalUnless barred fuel) name arguments span frame w := by
  let i := Invariant.nothing barred
  have lockstep := i.coupling.lockstep_eval (Nat.le_refl fuel)
  have worlds : i.coupling.Worlds () w w := Invariant.worlds_refl trivial
  have frames : i.coupling.Frames () frame frame := ⟨rfl, trivial⟩
  have spans : i.coupling.Spans span span := rfl
  have called : i.coupling.Couples () i.coupling.Refs
      (Evaluator.callNamed (eval fuel) name arguments span frame)
      (Evaluator.callNamed (evalUnless barred fuel) name arguments span frame) := by
    apply Coupling.couples_bind (lockstep.run (b := false) rfl frames)
    intro later r r' _ refs
    apply Coupling.couples_callObject lockstep refs _ spans ⟨rfl, trivial⟩
    intro last _
    exact Coupling.couples_pure (List.forall₂_same.mpr fun _ _ => ⟨rfl, trivial⟩)
  exact (Invariant.eq_of_outcomes (called w w worlds) (fun _ _ _ refs => refs.1) ends).1

/-- A call from inside a procedure does the same as one from the main program, if it ends without
reading a name that one of the caller's own scopes binds. -/
theorem callNamed_nested {w : World} (wellFormed : w.store.WellFormed) {caller : Frame}
    (inside : caller.scope.index < w.store.scopes.size) (fuel : Nat) (name : Name)
    (arguments : List Ref) (span : Span)
    (free : (Evaluator.callNamed (evalUnless (captured (w.store.scopes.locals caller.scope)) fuel)
      name arguments span caller w).1 ≠ .fault .exhausted) :
    SameEffect
      (Evaluator.callNamed (eval fuel) name arguments span (.program Store.globalScope) w)
      (Evaluator.callNamed (eval fuel) name arguments span caller w) := by
  let own := w.store.scopes.locals caller.scope
  let c := nesting caller.scope own
  have worlds : c.Worlds w.store.scopes.size w w :=
    ⟨wellFormed.views inside, rfl, rfl, rfl, rfl, rfl⟩
  have nested : c.Couples w.store.scopes.size c.Refs
      (Evaluator.callNamed (eval fuel) name arguments span (.program Store.globalScope))
      (Evaluator.callNamed (evalUnless (captured own) fuel) name arguments span caller) := by
    apply Coupling.couples_bind (couples_callee fuel name rfl inside)
    intro later r r' further refs
    have spans : c.Spans span span := rfl
    have owners : c.Owners later (.program Store.globalScope) caller :=
      ViewFrames.mono further ⟨.inr ⟨rfl, rfl⟩, wellFormed.scopes, inside⟩
    apply Coupling.couples_callObject (c.lockstep_eval (Nat.le_refl fuel)) refs _ spans owners
    intro last _
    exact Coupling.couples_pure (List.forall₂_same.mpr fun _ _ => rfl)
  rw [callNamed_evalUnless free]
  exact sameEffect_of_outcomes (nested w w worlds) free

/-- Bind a name in a scope to a new object, which is no list and belongs to the main program. -/
def Store.define (s : Store) (scope : ScopeId) (name : String) (datum : Datum) : Store :=
  (s.alloc ⟨datum, none, some (.program globalScope)⟩).2.bind scope name ⟨s.objects.size⟩

theorem Store.WellFormed.define {s : Store} (wellFormed : s.WellFormed) (scope : ScopeId)
    (name : String) {datum : Datum} (noList : datum.isList = false) :
    (s.define scope name datum).WellFormed := by
  apply Store.WellFormed.bind
  · apply wellFormed.alloc
    · intro t isList
      dsimp only at isList
      rw [isList] at noList
      cases noList
    · intro f owned
      cases owned
      exact wellFormed.scopes
  · change s.objects.size < (s.objects.push _).size
    rw [Array.size_push]
    exact Nat.lt_succ_self _

/-- A session in the middle of a call: the main program binds `x` to one and `f` to a procedure that
returns `x`, and the caller binds a name to two. -/
def midCall (name : String) : World :=
  let body : Node := .returning (some (.access ⟨"x", default⟩)) default
  let main := (Store.start.define Store.globalScope "x" (.number (.whole 1))).define
    Store.globalScope "f" (.procedure ⟨"f", [], body⟩)
  { World.start {} [] (mkStdGen 0) with
    store := (main.pushScope Store.globalScope).2.define ⟨1⟩ name (.number (.whole 2)) }

/-- The caller in such a session. -/
def midCaller : Frame := .call "g" default (.program Store.globalScope) ⟨1⟩

theorem wellFormed_midCall (name : String) : (midCall name).store.WellFormed := by
  apply Store.WellFormed.define _ _ _ rfl
  apply Store.WellFormed.pushScope
  · apply Store.WellFormed.define _ _ _ rfl
    exact Store.WellFormed.start.define _ _ rfl
  · decide

/-- The caller binds another name than the procedure reads. -/
theorem callNamed_nested_other : SameEffect
    (Evaluator.callNamed (eval 10) ⟨"f", default⟩ [] default (.program Store.globalScope)
      (midCall "y"))
    (Evaluator.callNamed (eval 10) ⟨"f", default⟩ [] default midCaller (midCall "y")) := by
  have free : (Evaluator.callNamed
      (evalUnless (captured ((midCall "y").store.scopes.locals midCaller.scope)) 10)
      ⟨"f", default⟩ [] default midCaller (midCall "y")).1.isExhausted = false := by decide +kernel
  exact callNamed_nested (wellFormed_midCall "y") (by decide) 10 _ [] default
    (Ending.ne_exhausted free)

/-- The text of the value that a run ends with. -/
def answerText : Ending Ref × World → Option String
  | (.value result, w) => (w.store.snapshot result).resultText.toOption
  | _ => none

theorem SameEffect.answerText_eq {o p : Ending Ref × World} (same : SameEffect o p) :
    answerText o = answerText p := by
  obtain ⟨a, w⟩ := o
  obtain ⟨b, v⟩ := p
  have values := same.values
  cases same.endings with
  | value result => rw [answerText, answerText, values]
  | signal | error | fault => rfl

/-- The caller binds the name that the procedure reads, so the procedure returns the caller's
value. -/
theorem callNamed_captured : ¬SameEffect
    (Evaluator.callNamed (eval 10) ⟨"f", default⟩ [] default (.program Store.globalScope)
      (midCall "x"))
    (Evaluator.callNamed (eval 10) ⟨"f", default⟩ [] default midCaller (midCall "x")) := by
  intro same
  have top : answerText (Evaluator.callNamed (eval 10) ⟨"f", default⟩ [] default
      (.program Store.globalScope) (midCall "x")) = some "1" := by decide +kernel
  have nested : answerText (Evaluator.callNamed (eval 10) ⟨"f", default⟩ [] default midCaller
      (midCall "x")) = some "2" := by decide +kernel
  have equal := same.answerText_eq
  rw [top, nested] at equal
  exact absurd equal (by decide)

end Pseudocode
