import Pseudocode.Proofs.Evaluation.WellFormed
import Pseudocode.Proofs.Tree.Shape

/-!
# Stores up to numbers

Two stores may hold the same values under different numbers, and each may hold values besides that
nobody can reach.  A matching says which objects and storages of the two answer to each other, one
to one.  Programs that are the same up to places do the same in stores that agree along a matching.
-/

namespace Pseudocode

/-! ## What an operation does at one number -/

namespace Store

variable {s : Store}

theorem object_modify {ref : Ref} (inside : ref.index < s.objects.size) (place : Nat)
    (change : Object → Object) :
    Store.object { s with objects := s.objects.modify place change } ref =
      if place = ref.index then change (s.object ref) else s.object ref := by
  have here := object_eq_of_lt inside
  rw [Store.object, Array.getD_eq_getD_getElem?, Array.getElem?_modify, here]
  split <;> rfl

theorem elements_update {storage : StorageId} (inside : storage.index < s.storages.size)
    (other : StorageId) (change : Array Ref → Array Ref) :
    (s.updateElements other change).elements storage =
      if other = storage then change (s.elements storage) else s.elements storage := by
  have here := elements_eq_of_lt inside
  have same : other = storage ↔ other.index = storage.index :=
    ⟨congrArg StorageId.index, congrArg StorageId.mk⟩
  rw [Store.elements, Array.getD_eq_getD_getElem?, Store.updateElements, Array.getElem?_modify,
    here]
  simp only [same]
  split <;> rfl

theorem object_alloc {ref : Ref} (inside : ref.index < s.objects.size) (object : Object) :
    (s.alloc object).2.object ref = s.object ref := by
  have kept : (s.alloc object).2.objects[ref.index]? = s.objects[ref.index]? := by
    rw [Store.alloc, Array.getElem?_push, if_neg (Nat.ne_of_lt inside)]
  rw [Store.object, Array.getD_eq_getD_getElem?, kept, Store.object, Array.getD_eq_getD_getElem?]

theorem elements_allocStorage_of_lt {storage : StorageId} (inside : storage.index < s.storages.size)
    (elements : Array Ref) : (s.allocStorage elements).2.elements storage = s.elements storage := by
  have kept :
      (s.allocStorage elements).2.storages[storage.index]? = s.storages[storage.index]? := by
    rw [Store.allocStorage, Array.getElem?_push, if_neg (Nat.ne_of_lt inside)]
  rw [Store.elements, Array.getD_eq_getD_getElem?, kept, Store.elements,
    Array.getD_eq_getD_getElem?]

end Store

/-- Binding a name adds it to the names, unless it is there. -/
theorem Bindings.names_set {α : Type} (bindings : Bindings α) (name : String) (value : Option α) :
    (bindings.set name value).map (·.1) =
      if name ∈ bindings.map (·.1) then bindings.map (·.1) else bindings.map (·.1) ++ [name] := by
  induction bindings with
  | nil => rfl
  | cons binding rest ih =>
      obtain ⟨other, old⟩ := binding
      by_cases same : other = name
      · simp [Bindings.set, same]
      · have others : ¬ name = other := fun h => same h.symm
        rw [Bindings.set, if_neg same, List.map_cons, ih]
        by_cases known : name ∈ rest.map (·.1) <;> simp [known, others]

/-! ## Matchings -/

/-- Which objects and storages of two stores answer to each other. -/
structure Matching where
  /-- The objects. -/
  Refs : Ref → Ref → Prop
  /-- The storages. -/
  Storages : StorageId → StorageId → Prop

namespace Matching

/-- More answers to each other. -/
structure Extends (m n : Matching) : Prop where
  refs : ∀ {r r'}, m.Refs r r' → n.Refs r r'
  storages : ∀ {a b}, m.Storages a b → n.Storages a b

/-- What runs in matching stores have in common, but for the stores. -/
def parts : Likeness where
  Link := Matching
  Extends := Extends
  Nodes n m := n.erase = m.erase
  Spans _ _ := True
  Refs := Refs
  Storages := Storages
  Owners _ f g := f.scope = g.scope
  Entries _ f g := f.scope = g.scope
  Frames _ f g := f.scope = g.scope
  Stores _ _ _ := True
  Errors d e := d.span.isSome = e.span.isSome
  barred _ _ _ := false

/-- Scopes with the same parent that bind the same names to what answers to each other. -/
structure Scopes (m : Matching) (a b : Scope Ref) : Prop where
  parents : a.parent = b.parent
  names : a.bindings.map (·.1) = b.bindings.map (·.1)
  values : ∀ name, Option.Rel m.Refs (a.bindings.get? name) (b.bindings.get? name)

/-- Stores that agree along a matching. -/
structure Stores (m : Matching) (s t : Store) : Prop where
  /-- What answers to each other is there, -/
  refs : ∀ {r r'}, m.Refs r r' → r.index < s.objects.size ∧ r'.index < t.objects.size
  storages : ∀ {a b}, m.Storages a b → a.index < s.storages.size ∧ b.index < t.storages.size
  /-- one to one, -/
  refs_iff : ∀ {r r' q q'}, m.Refs r r' → m.Refs q q' → (r = q ↔ r' = q')
  storages_iff : ∀ {a a' b b'}, m.Storages a a' → m.Storages b b' → (a = b ↔ a' = b')
  /-- and is alike. -/
  objects : ∀ {r r'}, m.Refs r r' → parts.Objects m (s.object r) (t.object r')
  elements : ∀ {a b}, m.Storages a b → Pairing.Lists m.Refs (s.elements a) (t.elements b)
  scopes : Pairing.Lists m.Scopes s.scopes t.scopes
  null : m.Refs Store.nullRef Store.nullRef

section

variable {m n : Matching}

theorem Extends.objects (further : m.Extends n) {o p : Object} (objects : parts.Objects m o p) :
    parts.Objects n o p :=
  objects.imp (fun _ _ => id) (fun _ _ => id) (fun _ _ => further.storages) fun _ _ => id

theorem Extends.lists (further : m.Extends n) {xs ys : Array Ref}
    (lists : Pairing.Lists m.Refs xs ys) : Pairing.Lists n.Refs xs ys :=
  List.Forall₂.imp (fun _ _ => further.refs) lists

theorem Extends.scopes (further : m.Extends n) {xs ys : Array (Scope Ref)}
    (scopes : Pairing.Lists m.Scopes xs ys) : Pairing.Lists n.Scopes xs ys := by
  refine List.Forall₂.imp ?_ scopes
  intro a b same
  exact ⟨same.parents, same.names, fun name =>
    Pairing.rel_imp (same.values name) fun _ _ => further.refs⟩

/-- The matching with one more pair of objects. -/
def withRef (m : Matching) (r r' : Ref) : Matching where
  Refs q q' := m.Refs q q' ∨ q = r ∧ q' = r'
  Storages := m.Storages

/-- The matching with one more pair of storages. -/
def withStorage (m : Matching) (a b : StorageId) : Matching where
  Refs := m.Refs
  Storages c d := m.Storages c d ∨ c = a ∧ d = b

theorem extends_withRef (m : Matching) (r r' : Ref) : m.Extends (m.withRef r r') where
  refs := Or.inl
  storages := id

theorem extends_withStorage (m : Matching) (a b : StorageId) : m.Extends (m.withStorage a b) where
  refs := id
  storages := Or.inl

end

/-! ## Operations -/

namespace Stores

variable {m : Matching} {s t : Store} {r r' : Ref} {a b : StorageId}

/-- The second store may hold more. -/
theorem alloc_right (stores : m.Stores s t) (object : Object) : m.Stores s (t.alloc object).2 := by
  have size : (t.alloc object).2.objects.size = t.objects.size + 1 := Array.size_push _
  refine { stores with refs := ?_, objects := ?_ }
  · intro q q' refs
    have inside := stores.refs refs
    exact ⟨inside.1, by omega⟩
  · intro q q' refs
    rw [Store.object_alloc (stores.refs refs).2]
    exact stores.objects refs

theorem allocStorage_right (stores : m.Stores s t) (elements : Array Ref) :
    m.Stores s (t.allocStorage elements).2 := by
  have size : (t.allocStorage elements).2.storages.size = t.storages.size + 1 := Array.size_push _
  refine { stores with storages := ?_, elements := ?_ }
  · intro c d storages
    have inside := stores.storages storages
    exact ⟨inside.1, by omega⟩
  · intro c d storages
    rw [Store.elements_allocStorage_of_lt (stores.storages storages).2]
    exact stores.elements storages

/-- So may the first. -/
theorem alloc_left (stores : m.Stores s t) (object : Object) : m.Stores (s.alloc object).2 t := by
  have size : (s.alloc object).2.objects.size = s.objects.size + 1 := Array.size_push _
  refine { stores with refs := ?_, objects := ?_ }
  · intro q q' refs
    have inside := stores.refs refs
    exact ⟨by omega, inside.2⟩
  · intro q q' refs
    rw [Store.object_alloc (stores.refs refs).1]
    exact stores.objects refs

theorem allocStorage_left (stores : m.Stores s t) (elements : Array Ref) :
    m.Stores (s.allocStorage elements).2 t := by
  have size : (s.allocStorage elements).2.storages.size = s.storages.size + 1 := Array.size_push _
  refine { stores with storages := ?_, elements := ?_ }
  · intro c d storages
    have inside := stores.storages storages
    exact ⟨by omega, inside.2⟩
  · intro c d storages
    rw [Store.elements_allocStorage_of_lt (stores.storages storages).1]
    exact stores.elements storages

/-- Two objects that were there already, and answer to no others, may be matched. -/
theorem withRef (stores : m.Stores s t) (inside : r.index < s.objects.size)
    (inside' : r'.index < t.objects.size) (fresh : ∀ q q', m.Refs q q' → q ≠ r ∧ q' ≠ r')
    (objects : parts.Objects m (s.object r) (t.object r')) : (m.withRef r r').Stores s t where
  refs := by
    rintro q q' (refs | ⟨rfl, rfl⟩)
    · exact stores.refs refs
    · exact ⟨inside, inside'⟩
  storages := stores.storages
  refs_iff := by
    rintro p p' q q' (first | ⟨rfl, rfl⟩) (second | ⟨rfl, rfl⟩)
    · exact stores.refs_iff first second
    · exact iff_of_false (fresh p p' first).1 (fresh p p' first).2
    · exact iff_of_false (fresh q q' second).1.symm (fresh q q' second).2.symm
    · exact iff_of_true rfl rfl
  storages_iff := stores.storages_iff
  objects := by
    rintro q q' (refs | ⟨rfl, rfl⟩)
    · exact (extends_withRef m r r').objects (stores.objects refs)
    · exact (extends_withRef m q q').objects objects
  elements storages := (extends_withRef m r r').lists (stores.elements storages)
  scopes := (extends_withRef m r r').scopes stores.scopes
  null := Or.inl stores.null

theorem withStorage (stores : m.Stores s t) (inside : a.index < s.storages.size)
    (inside' : b.index < t.storages.size) (fresh : ∀ c d, m.Storages c d → c ≠ a ∧ d ≠ b)
    (elements : Pairing.Lists m.Refs (s.elements a) (t.elements b)) :
    (m.withStorage a b).Stores s t where
  refs := stores.refs
  storages := by
    rintro c d (storages | ⟨rfl, rfl⟩)
    · exact stores.storages storages
    · exact ⟨inside, inside'⟩
  refs_iff := stores.refs_iff
  storages_iff := by
    rintro c c' d d' (first | ⟨rfl, rfl⟩) (second | ⟨rfl, rfl⟩)
    · exact stores.storages_iff first second
    · exact iff_of_false (fresh c c' first).1 (fresh c c' first).2
    · exact iff_of_false (fresh d d' second).1.symm (fresh d d' second).2.symm
    · exact iff_of_true rfl rfl
  objects refs := (extends_withStorage m a b).objects (stores.objects refs)
  elements := by
    rintro c d (storages | ⟨rfl, rfl⟩)
    · exact (extends_withStorage m a b).lists (stores.elements storages)
    · exact (extends_withStorage m c d).lists elements
  scopes := (extends_withStorage m a b).scopes stores.scopes
  null := stores.null

/-- New objects that are alike answer to each other. -/
theorem alloc (stores : m.Stores s t) {o p : Object} (objects : parts.Objects m o p) :
    (m.withRef (s.alloc o).1 (t.alloc p).1).Stores (s.alloc o).2 (t.alloc p).2 := by
  have first := Store.holds_alloc s o
  have second := Store.holds_alloc t p
  refine ((stores.alloc_left o).alloc_right p).withRef first.index_lt second.index_lt ?_ ?_
  · intro q q' refs
    have inside := stores.refs refs
    refine ⟨?_, ?_⟩ <;> rintro rfl
    · exact Nat.lt_irrefl _ inside.1
    · exact Nat.lt_irrefl _ inside.2
  · rwa [first.object_eq, second.object_eq]

theorem allocStorage (stores : m.Stores s t) {xs ys : Array Ref}
    (lists : Pairing.Lists m.Refs xs ys) :
    (m.withStorage (s.allocStorage xs).1 (t.allocStorage ys).1).Stores (s.allocStorage xs).2
      (t.allocStorage ys).2 := by
  have inside : s.storages.size < (s.storages.push xs).size := by rw [Array.size_push]; omega
  have inside' : t.storages.size < (t.storages.push ys).size := by rw [Array.size_push]; omega
  refine ((stores.allocStorage_left xs).allocStorage_right ys).withStorage inside inside' ?_ ?_
  · intro c d storages
    have inside := stores.storages storages
    refine ⟨?_, ?_⟩ <;> rintro rfl
    · exact Nat.lt_irrefl _ inside.1
    · exact Nat.lt_irrefl _ inside.2
  · rwa [Store.elements_allocStorage, Store.elements_allocStorage]

/-- Objects that answer to each other may be changed alike. -/
theorem modifyObject (stores : m.Stores s t) (refs : m.Refs r r') {f g : Object → Object}
    (changes : ∀ o p, parts.Objects m o p → parts.Objects m (f o) (g p)) :
    m.Stores { s with objects := s.objects.modify r.index f }
      { t with objects := t.objects.modify r'.index g } := by
  refine { stores with refs := ?_, objects := ?_ }
  · intro q q' others
    simpa [Array.size_modify] using stores.refs others
  · intro q q' others
    have inside := stores.refs others
    have same : r.index = q.index ↔ r'.index = q'.index := by
      have iff := stores.refs_iff refs others
      obtain ⟨i⟩ := r
      obtain ⟨i'⟩ := r'
      obtain ⟨j⟩ := q
      obtain ⟨j'⟩ := q'
      simpa using iff
    have objects := stores.objects others
    rw [Store.object_modify inside.1, Store.object_modify inside.2]
    by_cases here : r.index = q.index
    · rw [if_pos here, if_pos (same.mp here)]
      exact changes _ _ objects
    · rw [if_neg here, if_neg (mt same.mpr here)]
      exact objects

theorem updateElements (stores : m.Stores s t) (storages : m.Storages a b)
    {f g : Array Ref → Array Ref}
    (changes : ∀ {xs ys}, Pairing.Lists m.Refs xs ys → Pairing.Lists m.Refs (f xs) (g ys)) :
    m.Stores (s.updateElements a f) (t.updateElements b g) := by
  refine { stores with storages := ?_, elements := ?_ }
  · intro c d others
    simpa [Store.updateElements, Array.size_modify] using stores.storages others
  · intro c d others
    have inside := stores.storages others
    have same := stores.storages_iff storages others
    have lists := stores.elements others
    rw [Store.elements_update inside.1, Store.elements_update inside.2]
    by_cases here : a = c
    · rw [if_pos here, if_pos (same.mp here)]
      exact changes lists
    · rw [if_neg here, if_neg (mt same.mpr here)]
      exact lists

theorem bind (stores : m.Stores s t) (id : ScopeId) (name : String) (refs : m.Refs r r') :
    m.Stores (s.bind id name r) (t.bind id name r') := by
  refine { stores with scopes := ?_ }
  refine stores.scopes.modify (fun x y same => ?_) id.index
  refine ⟨same.parents, ?_, fun other => ?_⟩
  · simp only [Bindings.names_set, same.names]
  · by_cases here : other = name
    · subst here
      rw [Bindings.get?_set_self, Bindings.get?_set_self]
      exact .some refs
    · rw [Bindings.get?_set_of_ne _ _ here, Bindings.get?_set_of_ne _ _ here]
      exact same.values other

theorem pushScope (stores : m.Stores s t) (parent : ScopeId) :
    m.Stores (s.pushScope parent).2 (t.pushScope parent).2 :=
  { stores with scopes := stores.scopes.push ⟨rfl, rfl, fun _ => .none⟩ }

/-! ## What is found -/

theorem findWithin (stores : m.Stores s t) (name : String) (fuel : Nat) (id : ScopeId) :
    Option.Rel m.Refs (s.scopes.findWithin name fuel id) (t.scopes.findWithin name fuel id) := by
  induction fuel generalizing id with
  | zero => exact .none
  | succ fuel ih =>
      have found := stores.scopes.getElem? id.index
      rw [Pseudocode.Scopes.findWithin, Pseudocode.Scopes.findWithin]
      generalize s.scopes[id.index]? = x at found ⊢
      generalize t.scopes[id.index]? = y at found ⊢
      cases found with
      | none => exact .none
      | @some x y same =>
          have values := same.values name
          dsimp only
          generalize x.bindings.get? name = u at values ⊢
          generalize y.bindings.get? name = v at values ⊢
          cases values with
          | some refs => exact .some refs
          | none =>
              dsimp only
              rw [same.parents]
              cases y.parent with
              | none => exact .none
              | some parent => exact ih parent

theorem find (stores : m.Stores s t) (id : ScopeId) (name : String) :
    Option.Rel m.Refs (s.find? id name) (t.find? id name) := by
  rw [Store.find?, Store.find?, Pseudocode.Scopes.find?, Pseudocode.Scopes.find?,
    stores.scopes.size_eq]
  exact stores.findWithin name _ id

/-- A list is on one path exactly if the list that answers to it is on the other. -/
theorem mem_iff (stores : m.Stores s t) {path path' : List StorageId}
    (paths : List.Forall₂ m.Storages path path') (storages : m.Storages a b) :
    a ∈ path ↔ b ∈ path' := by
  induction paths with
  | nil => simp
  | cons first _ ih =>
      rw [List.mem_cons, List.mem_cons, stores.storages_iff storages first, ih]

theorem path_inside (stores : m.Stores s t) {path path' : List StorageId}
    (paths : List.Forall₂ m.Storages path path') :
    (∀ c ∈ path, c.index < s.storages.size) ∧ ∀ d ∈ path', d.index < t.storages.size := by
  induction paths with
  | nil => simp
  | cons first _ ih =>
      have inside := stores.storages first
      exact ⟨List.forall_mem_cons.mpr ⟨inside.1, ih.1⟩,
        List.forall_mem_cons.mpr ⟨inside.2, ih.2⟩⟩

/-- What answers to each other is the same at every depth.  The bounds on the depth may differ,
because the lists on a path are different ones. -/
theorem snapshotWithin (stores : m.Stores s t) {fuel fuel' : Nat} {path path' : List StorageId}
    {r r' : Ref} (refs : m.Refs r r') (paths : List.Forall₂ m.Storages path path')
    (different : path.Nodup) (different' : path'.Nodup)
    (enough : s.storages.size < fuel + path.length)
    (enough' : t.storages.size < fuel' + path'.length) :
    s.snapshotWithin fuel path r = t.snapshotWithin fuel' path' r' := by
  induction fuel generalizing fuel' path path' r r' with
  | zero =>
      have short := length_le_of_nodup different (stores.path_inside paths).1
      omega
  | succ fuel ih =>
      have short := length_le_of_nodup different' (stores.path_inside paths).2
      obtain ⟨fuel', rfl⟩ : ∃ less, fuel' = less + 1 := ⟨fuel' - 1, by omega⟩
      have data : parts.Data m (s.datum r) (t.datum r') := (stores.objects refs).data
      rw [Store.snapshotWithin, Store.snapshotWithin]
      generalize s.datum r = d at data ⊢
      generalize t.datum r' = d' at data ⊢
      cases data with
      | number | truth | text | procedure | builtin | bare => rfl
      | @list a b storages =>
          have on : a ∈ path ↔ b ∈ path' := stores.mem_iff paths storages
          dsimp only
          by_cases again : a ∈ path
          · rw [if_pos (by simpa using again), if_pos (by simpa using on.mp again)]
          · rw [if_neg (by simpa using again), if_neg (by simpa using mt on.mpr again)]
            congr 1
            rw [← List.forall₂_eq_eq_eq]
            refine List.forall₂_map_left_iff.mpr (List.forall₂_map_right_iff.mpr ?_)
            refine List.Forall₂.imp ?_ (stores.elements storages)
            intro q q' others
            apply ih others (.cons storages paths)
            · exact List.nodup_cons.mpr ⟨again, different⟩
            · exact List.nodup_cons.mpr ⟨mt on.mpr again, different'⟩
            · rw [List.length_cons]
              omega
            · rw [List.length_cons]
              omega

theorem snapshot (stores : m.Stores s t) (refs : m.Refs r r') : s.snapshot r = t.snapshot r' := by
  apply stores.snapshotWithin refs .nil List.nodup_nil List.nodup_nil
  · rw [List.length_nil]
    omega
  · rw [List.length_nil]
    omega

end Stores

/-- What runs in matching stores have in common. -/
def alike : Likeness :=
  { parts with Stores := Stores }

/-! ## Trees up to places -/

theorem text_of_erase {x y : Name} (same : x.erase = y.erase) : x.text = y.text :=
  (Name.mk.inj same).1

theorem forall₂_of_eraseAll : ∀ {ns ms : List Node}, eraseAll ns = eraseAll ms →
    List.Forall₂ alike.Nodes ns ms
  | [], [], _ => .nil
  | _ :: _, _ :: _, same =>
      .cons (List.cons.inj same).1 (forall₂_of_eraseAll (List.cons.inj same).2)
  | [], _ :: _, same => nomatch same
  | _ :: _, [], same => nomatch same

theorem forall₂_of_eraseGuards : ∀ {cs ds : List (Node × Node)}, eraseGuards cs = eraseGuards ds →
    List.Forall₂ (fun c d => alike.Nodes c.1 d.1 ∧ alike.Nodes c.2 d.2) cs ds
  | [], [], _ => .nil
  | (_, _) :: _, (_, _) :: _, same =>
      .cons (Prod.mk.inj (List.cons.inj same).1) (forall₂_of_eraseGuards (List.cons.inj same).2)
  | [], _ :: _, same => nomatch same
  | _ :: _, [], same => nomatch same

theorem rel_of_eraseOption {n m : Option Node} (same : eraseOption n = eraseOption m) :
    Option.Rel alike.Nodes n m := by
  cases n with
  | none =>
      cases m with
      | none => exact .none
      | some m => cases same
  | some n =>
      cases m with
      | none => cases same
      | some m => exact .some (Option.some.inj same)

theorem rel_of_eraseName {x y : Option Name} (same : x.map Name.erase = y.map Name.erase) :
    Option.Rel (fun a b => a.text = b.text) x y := by
  cases x with
  | none =>
      cases y with
      | none => exact .none
      | some y => cases same
  | some x =>
      cases y with
      | none => cases same
      | some y =>
          have names : x.erase = y.erase := by simpa using same
          exact .some (text_of_erase names)

theorem texts_of_erase {ps qs : List Name} (same : ps.map Name.erase = qs.map Name.erase) :
    ps.map Name.text = qs.map Name.text := by
  have texts := congrArg (List.map Name.text) same
  rwa [List.map_map, List.map_map] at texts

/-- Trees that are the same up to places are of one kind. -/
theorem shapes_of_erase {n m : Node} (same : n.erase = m.erase) : alike.Shapes n m := by
  cases n with
  | number value span =>
      obtain ⟨_, rfl⟩ := Node.exists_number_of_erase same.symm
      exact .number value trivial
  | truth value span =>
      obtain ⟨_, rfl⟩ := Node.exists_truth_of_erase same.symm
      exact .truth value trivial
  | text value span =>
      cases m with
      | text other place =>
          obtain ⟨rfl, -⟩ := Node.text.inj same
          exact .text _ trivial
      | _ => cases same
  | list elements span =>
      cases m with
      | list others place => exact .list (forall₂_of_eraseAll (Node.list.inj same).1) trivial
      | _ => cases same
  | access name =>
      cases m with
      | access other =>
          have names : name.erase = other.erase := by injection same
          exact .access (text_of_erase names) trivial
      | _ => cases same
  | assign name value span =>
      cases m with
      | assign other value' place =>
          obtain ⟨names, values, -⟩ := Node.assign.inj same
          exact .assign (text_of_erase names) values
      | _ => cases same
  | binary left op mark right span =>
      obtain ⟨_, _, _, _, rfl, lefts, rights⟩ := Node.exists_binary_of_erase same.symm
      exact .binary op lefts.symm rights.symm trivial
  | unary op mark operand span =>
      obtain ⟨_, _, _, rfl, operands⟩ := Node.exists_unary_of_erase same.symm
      exact .unary op operands.symm trivial
  | branch condition body others otherwise span =>
      cases m with
      | branch condition' body' others' otherwise' place =>
          obtain ⟨conditions, bodies, guards, rest, -⟩ := Node.branch.inj same
          exact .branch conditions bodies (forall₂_of_eraseGuards guards) (rel_of_eraseOption rest)
      | _ => cases same
  | forEach name list body span =>
      cases m with
      | forEach other list' body' place =>
          obtain ⟨names, lists, bodies, -⟩ := Node.forEach.inj same
          exact .forEach (text_of_erase names) lists bodies
      | _ => cases same
  | whileLoop condition body span =>
      cases m with
      | whileLoop condition' body' place =>
          obtain ⟨conditions, bodies, -⟩ := Node.whileLoop.inj same
          exact .whileLoop conditions bodies
      | _ => cases same
  | untilLoop condition body span =>
      cases m with
      | untilLoop condition' body' place =>
          obtain ⟨conditions, bodies, -⟩ := Node.untilLoop.inj same
          exact .untilLoop conditions bodies
      | _ => cases same
  | repeatFixed count mark body span =>
      cases m with
      | repeatFixed count' mark' body' place =>
          obtain ⟨rfl, -, bodies, -⟩ := Node.repeatFixed.inj same
          exact .repeatFixed _ bodies
      | _ => cases same
  | repeatBy count body span =>
      cases m with
      | repeatBy count' body' place =>
          obtain ⟨counts, bodies, -⟩ := Node.repeatBy.inj same
          exact .repeatBy counts bodies
      | _ => cases same
  | procedure name parameters body span =>
      cases m with
      | procedure other others body' place =>
          obtain ⟨names, texts, bodies, -⟩ := Node.procedure.inj same
          exact .procedure (rel_of_eraseName names) (texts_of_erase texts) bodies trivial
      | _ => cases same
  | call callee arguments span =>
      cases m with
      | call callee' arguments' place =>
          obtain ⟨callees, others, -⟩ := Node.call.inj same
          exact .call callees (forall₂_of_eraseAll others) trivial
      | _ => cases same
  | returning value span =>
      cases m with
      | returning value' place =>
          exact .returning (rel_of_eraseOption (Node.returning.inj same).1)
      | _ => cases same
  | continuing span =>
      cases m with
      | continuing place => exact .continuing
      | _ => cases same
  | breaking span =>
      cases m with
      | breaking place => exact .breaking
      | _ => cases same

/-! ## Two runs -/

theorem isSome_eq_of_rel {x y : Option Span} (related : Option.Rel alike.Spans x y) :
    x.isSome = y.isSome := by
  cases related <;> rfl

/-- Runs of programs that are the same up to places, in stores that agree along a matching. -/
def coupling : Coupling where
  toLikeness := alike
  extends_refl _ := ⟨id, id⟩
  extends_trans first second := ⟨second.refs ∘ first.refs, second.storages ∘ first.storages⟩
  refs_mono further refs := further.refs refs
  storages_mono further storages := further.storages storages
  owners_mono _ owners := owners
  frames_mono _ frames := frames
  owners_of_frames frames := frames
  entries_of_frames frames := frames
  frames_of_entries entries _ := entries
  entries_program _ := rfl
  nodes_refl _ := rfl
  nodes_span _ := trivial
  shapes_of_nodes := shapes_of_erase
  object stores refs :=
    (stores.objects refs).imp (fun _ _ => id) (fun _ _ => id) (fun _ _ => id) fun _ _ => id
  elements stores storages := stores.elements storages
  snapshot stores refs := stores.snapshot refs
  find := by
    intro link f g w v x stores same _
    change f.scope = g.scope at same
    rw [same]
    exact stores.find g.scope x.text
  null stores := stores.null
  alloc := by
    intro m s t o p stores objects
    refine ⟨_, extends_withRef m _ _, stores.alloc (objects.imp ?_ ?_ ?_ ?_), Or.inr ⟨rfl, rfl⟩⟩
    all_goals exact fun _ _ => id
  allocStorage := by
    intro m s t xs ys stores lists
    exact ⟨_, extends_withStorage m _ _, stores.allocStorage lists, Or.inr ⟨rfl, rfl⟩⟩
  updateElements stores storages changes := stores.updateElements storages changes
  setSpan := by
    intro m s t r r' p q stores refs _
    exact stores.modifyObject refs fun _ _ same => ⟨same.data, .some trivial, same.frames⟩
  setFrame := by
    intro m s t r r' f g stores refs owners
    exact stores.modifyObject refs fun _ _ same => ⟨same.data, same.spans, .some owners⟩
  bind := by
    intro m s t f g r r' name stores same refs
    change f.scope = g.scope at same
    rw [same]
    exact stores.bind g.scope name refs
  pushScope := by
    intro m s t f g stores same
    change f.scope = g.scope at same
    rw [same]
    refine ⟨m, ⟨id, id⟩, stores.pushScope g.scope, fun name p q _ => ?_⟩
    exact congrArg ScopeId.mk stores.scopes.size_eq
  errors_refl _ := rfl
  errors_runtime _ _ spans := isSome_eq_of_rel spans
  errors_grid _ spans := isSome_eq_of_rel spans
  errors_report := by
    intro link d e f g p q name spans _ _
    change d.span.isSome = e.span.isSome at spans
    obtain ⟨left, failed⟩ | ⟨span, report, left, made⟩ := d.render_cases
    · obtain ⟨_, failed'⟩ | ⟨span', _, right, _⟩ := e.render_cases
      · exact .inl ⟨_, failed, failed'⟩
      · rw [left, right] at spans
        cases spans
    · obtain ⟨right, _⟩ | ⟨span', report', _, made'⟩ := e.render_cases
      · rw [left, right] at spans
        cases spans
      · exact .inr ⟨report, report', made, made', rfl⟩

/-! ## A store beside itself -/

/-- Everything in a store answers to itself. -/
def identity (s : Store) : Matching where
  Refs r r' := r = r' ∧ r.index < s.objects.size
  Storages a b := a = b ∧ a.index < s.storages.size

theorem stores_identity {s : Store} (wellFormed : s.WellFormed) : (identity s).Stores s s where
  refs := by
    rintro r _ ⟨rfl, inside⟩
    exact ⟨inside, inside⟩
  storages := by
    rintro a _ ⟨rfl, inside⟩
    exact ⟨inside, inside⟩
  refs_iff := by
    rintro r _ q _ ⟨rfl, -⟩ ⟨rfl, -⟩
    exact Iff.rfl
  storages_iff := by
    rintro a _ b _ ⟨rfl, -⟩ ⟨rfl, -⟩
    exact Iff.rfl
  objects := by
    rintro r _ ⟨rfl, inside⟩
    have held := Store.object_eq_of_lt inside
    refine ⟨.refl (fun _ => rfl) fun t isList => ?_, Pairing.rel_refl fun _ _ => trivial,
      Pairing.rel_refl fun _ _ => rfl⟩
    exact ⟨rfl, wellFormed.storage r.index _ t held isList⟩
  elements := by
    rintro a _ ⟨rfl, inside⟩
    have held := Store.elements_eq_of_lt inside
    refine List.forall₂_same.mpr fun r member => ⟨rfl, ?_⟩
    exact wellFormed.element a.index _ r held (Array.mem_toList_iff.mp member)
  scopes := by
    refine List.forall₂_same.mpr fun scope member => ⟨rfl, rfl, fun name => ?_⟩
    obtain ⟨index, here⟩ := List.getElem?_of_mem member
    rw [Array.getElem?_toList] at here
    exact Pairing.rel_refl fun r bound =>
      ⟨rfl, wellFormed.bound index scope name r here bound⟩
  null := ⟨rfl, wellFormed.objects⟩

end Matching
end Pseudocode
