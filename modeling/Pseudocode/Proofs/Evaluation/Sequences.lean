import Pseudocode.Proofs.Evaluation.BuiltinCalls

/-!
# Lists as sequences

The built-in procedures for lists work on the elements in a storage as on a sequence.  All that
share the storage see the same new elements, and nothing else changes.
-/

namespace Pseudocode

/-! ## What the procedures do -/

namespace Site

variable {site : Site} {w : World} {ref : Ref}

theorem listArgument_of_list {storage : StorageId} (isList : w.store.datum ref = .list storage)
    (problem : RuntimeProblem) : site.listArgument ref problem w = (.value storage, w) := by
  have found : Eval.object ref w = (.value (w.store.object ref), w) := rfl
  change (w.store.object ref).datum = _ at isList
  rw [listArgument, Eval.bind_of_value found, isList]
  rfl

theorem listArgument_of_ne (other : ∀ storage, w.store.datum ref ≠ .list storage)
    (problem : RuntimeProblem) : site.listArgument ref problem w = site.fail problem w := by
  have found : Eval.object ref w = (.value (w.store.object ref), w) := rfl
  rw [listArgument, Eval.bind_of_value found]
  cases datum : (w.store.object ref).datum with
  | list storage => exact absurd datum (other storage)
  | number | truth | text | procedure | builtin | bare => rfl

theorem numberArgument_of_number {value : Number} (isNumber : w.store.datum ref = .number value)
    (problem : RuntimeProblem) : site.numberArgument ref problem w = (.value value, w) := by
  have found : Eval.object ref w = (.value (w.store.object ref), w) := rfl
  change (w.store.object ref).datum = _ at isNumber
  rw [numberArgument, Eval.bind_of_value found, isNumber]
  rfl

theorem numberArgument_of_ne (other : ∀ value, w.store.datum ref ≠ .number value)
    (problem : RuntimeProblem) : site.numberArgument ref problem w = site.fail problem w := by
  have found : Eval.object ref w = (.value (w.store.object ref), w) := rfl
  rw [numberArgument, Eval.bind_of_value found]
  cases datum : (w.store.object ref).datum with
  | number value => exact absurd datum (other value)
  | list | truth | text | procedure | builtin | bare => rfl

end Site

/-- The place in a list of a length that an index stands for: negative ones count from the end, and
beyond an end it is that end. -/
def clamped (length : Nat) (index : Int) : Nat :=
  let place := if index < 0 then length + index else index
  if place < 0 then 0 else if length < place then length else place.toNat

theorem clamped_le (length : Nat) (index : Int) : clamped length index ≤ length := by
  unfold clamped
  dsimp only
  repeat' split
  all_goals omega

theorem clamped_lt {length : Nat} {index : Int} (lower : -length ≤ index)
    (upper : index < length) : clamped length index < length := by
  unfold clamped
  grind

theorem clamped_of_nonneg {length : Nat} {index : Int} (lower : 0 ≤ index)
    (upper : index ≤ length) : clamped length index = index.toNat := by
  unfold clamped
  grind

theorem insertionPlace_eq_clamped (length : Nat) (index : Int) :
    Builtin.insertionPlace length index = clamped length index := by
  unfold Builtin.insertionPlace clamped
  dsimp only
  repeat' split
  all_goals omega

theorem listIndex?_of_inside {length : Nat} {index : Int} (lower : -length ≤ index)
    (upper : index < length) : listIndex? length (.whole index) = some (clamped length index) := by
  unfold listIndex? clamped
  grind

theorem listIndex?_of_outside {length : Nat} {index : Int}
    (outside : index < -length ∨ length ≤ index) : listIndex? length (.whole index) = none := by
  unfold listIndex?
  dsimp only
  split <;> simp <;> omega

theorem insertIdx_eq_take_drop {α : Type} {xs : List α} {place : Nat} (inside : place ≤ xs.length)
    (x : α) : xs.insertIdx place x = xs.take place ++ x :: xs.drop place := by
  induction xs generalizing place with
  | nil =>
      cases Nat.le_zero.mp inside
      rfl
  | cons y ys ih =>
      cases place with
      | zero => rfl
      | succ place => simp [ih (Nat.le_of_succ_le_succ inside)]

/-- To insert at an index is to put a value between what stands before its place and the rest. -/
theorem toList_insertAt (elements : Array Ref) (index : Int) (value : Ref) :
    (Builtin.insertAt elements (Builtin.insertionPlace elements.size index) value).toList =
      elements.toList.take (clamped elements.toList.length index) ++ [value] ++
        elements.toList.drop (clamped elements.toList.length index) := by
  have inside := clamped_le elements.size index
  rw [insertionPlace_eq_clamped, Builtin.insertAt, Array.insertIdxIfInBounds, dif_pos inside,
    Array.toList_insertIdx, insertIdx_eq_take_drop (by simpa using inside), Array.length_toList,
    List.append_assoc]
  rfl

theorem fitsIndex_of_natAbs {index : Int} (fits : index.natAbs < Nat.pow 2 63) :
    Datum.fitsIndex index = true := by
  have bound : Nat.pow 2 63 = 9223372036854775808 := by decide
  rw [Datum.fitsIndex, Datum.greatestIndex, Bool.and_eq_true, decide_eq_true_eq, decide_eq_true_eq]
  omega

namespace Builtin

open Eval Site

variable {runSource : Source → Eval Unit} {site : Site} {w : World} {list index value : Ref}
  {storage : StorageId} {i : Int}

theorem perform_append (isList : w.store.datum list = .list storage) :
    append.perform runSource site [list, value] w =
      (.value Store.nullRef,
        { w with store := w.store.updateElements storage (·.push value) }) :=
  bind_of_value (listArgument_of_list isList _)

theorem perform_insert (isList : w.store.datum list = .list storage)
    (isIndex : w.store.datum index = .number (.whole i)) (fits : Datum.fitsIndex i = true) :
    insert.perform runSource site [list, index, value] w =
      (.value Store.nullRef,
        { w with store := w.store.updateElements storage fun elements =>
            insertAt elements (insertionPlace elements.size i) value }) := by
  have read : ofExcept (insertionIndex (.whole i)) w = (.value i, w) := by
    rw [insertionIndex, if_pos fits]
    rfl
  rw [perform, bind_of_value (listArgument_of_list isList _),
    bind_of_value (numberArgument_of_number isIndex _), bind_of_value read]
  rfl

theorem perform_remove (isList : w.store.datum list = .list storage)
    (isIndex : w.store.datum index = .number (.whole i)) {place : Nat} {element : Ref}
    (inside : listIndex? (w.store.elements storage).size (.whole i) = some place)
    (found : (w.store.elements storage)[place]? = some element) :
    remove.perform runSource site [list, index] w =
      (.value element,
        { w with store := w.store.updateElements storage (·.eraseIdxIfInBounds place) }) := by
  have read : fromStore (fun store => store.elements storage) w =
      (.value (w.store.elements storage), w) := rfl
  rw [perform, bind_of_value (listArgument_of_list isList _),
    bind_of_value (numberArgument_of_number isIndex _), bind_of_value read, inside]
  dsimp only
  rw [found]
  rfl

theorem perform_remove_outside (isList : w.store.datum list = .list storage)
    (isIndex : w.store.datum index = .number (.whole i))
    (outside : listIndex? (w.store.elements storage).size (.whole i) = none) :
    remove.perform runSource site [list, index] w = site.fail .removeOutOfBounds w := by
  have read : fromStore (fun store => store.elements storage) w =
      (.value (w.store.elements storage), w) := rfl
  rw [perform, bind_of_value (listArgument_of_list isList _),
    bind_of_value (numberArgument_of_number isIndex _), bind_of_value read, outside]

theorem perform_length (isList : w.store.datum list = .list storage) :
    length.perform runSource site [list] w =
      fresh (Datum.number (.whole (w.store.elements storage).size)).object w :=
  bind_of_value (listArgument_of_list isList _)

/-- The procedures for lists. -/
def isForLists : Builtin → Bool
  | append => true
  | insert => true
  | remove => true
  | length => true
  | _ => false

/-- What is wrong if the first argument is no list. -/
def noList : Builtin → RuntimeProblem
  | length => .notList
  | _ => .firstNotList

theorem perform_of_not_list {procedure : Builtin} (forLists : procedure.isForLists = true)
    {rest : List Ref} (fits : (list :: rest).length = procedure.parameters.length)
    (other : ∀ storage, w.store.datum list ≠ .list storage) :
    procedure.perform runSource site (list :: rest) w = site.fail procedure.noList w := by
  have stopped (problem : RuntimeProblem) : site.listArgument list problem w =
      (.error ⟨.runtime problem (some site.frame), some site.span⟩, w) :=
    listArgument_of_ne other problem
  cases procedure with
  | append =>
      obtain ⟨value, rfl⟩ := List.length_eq_one_iff.mp (Nat.succ.inj fits)
      exact bind_of_error (stopped _)
  | insert =>
      obtain ⟨index, value, rfl⟩ := List.length_eq_two.mp (Nat.succ.inj fits)
      exact bind_of_error (stopped _)
  | remove =>
      obtain ⟨index, rfl⟩ := List.length_eq_one_iff.mp (Nat.succ.inj fits)
      exact bind_of_error (stopped _)
  | length =>
      cases List.length_eq_zero_iff.mp (Nat.succ.inj fits)
      exact bind_of_error (stopped _)
  | _ => cases forLists

/-- The procedures that take an index. -/
def isIndexed : Builtin → Bool
  | insert => true
  | remove => true
  | _ => false

theorem perform_of_not_number {procedure : Builtin} (indexed : procedure.isIndexed = true)
    {rest : List Ref} (fits : (list :: index :: rest).length = procedure.parameters.length)
    (isList : w.store.datum list = .list storage)
    (other : ∀ value, w.store.datum index ≠ .number value) :
    procedure.perform runSource site (list :: index :: rest) w = site.fail .secondNotNumber w := by
  have stopped : site.numberArgument index .secondNotNumber w =
      (.error ⟨.runtime .secondNotNumber (some site.frame), some site.span⟩, w) :=
    numberArgument_of_ne other _
  cases procedure with
  | insert =>
      obtain ⟨value, rfl⟩ := List.length_eq_one_iff.mp (Nat.succ.inj (Nat.succ.inj fits))
      rw [perform, bind_of_value (listArgument_of_list isList _), bind_of_error stopped]
      rfl
  | remove =>
      cases List.length_eq_zero_iff.mp (Nat.succ.inj (Nat.succ.inj fits))
      rw [perform, bind_of_value (listArgument_of_list isList _), bind_of_error stopped]
      rfl
  | _ => cases indexed

end Builtin

/-! ## What calls of them do -/

/-- In a world without gaps, a reference to a list with a storage and what this holds. -/
structure World.HasList (w : World) (list : Ref) (storage : StorageId) (xs : List Ref) : Prop where
  wellFormed : w.store.WellFormed
  sound : w.store.Sound
  isList : w.store.datum list = .list storage
  contents : w.store.contents storage = xs

namespace World.HasList

variable {w : World} {list : Ref} {storage : StorageId} {xs : List Ref} {t : Store}

theorem inside (has : w.HasList list storage xs) : storage.index < w.store.storages.size :=
  has.wellFormed.storage_lt has.isList

theorem size_elements (has : w.HasList list storage xs) (same : t.storages = w.store.storages) :
    (t.elements storage).size = xs.length := by
  rw [Store.elements_congr same, ← has.contents, Store.contents, Array.length_toList]

theorem element_eq (has : w.HasList list storage xs) (same : t.storages = w.store.storages)
    (place : Nat) : (t.elements storage)[place]? = xs[place]? := by
  rw [Store.elements_congr same, ← has.contents, Store.contents, Array.getElem?_toList]

/-- The value that stands for none, when nothing but lists has changed. -/
theorem datum_null (has : w.HasList list storage xs) (keeps : w.store.Keeps t) :
    t.datum Store.nullRef = .number (.whole 0) :=
  keeps.datum_eq has.sound.null nofun

end World.HasList

namespace Call

variable {c : Call} {fuel : Nat} {frame : Frame} {w v : World} {refs xs : List Ref}
  {l : Name} {storage : StorageId} {list index value : Ref} {i : Int}

/-- A variable that means a list is handed over as such. -/
theorem Starts.hasList (starts : c.Starts fuel frame w (list :: refs) v) (takes : c.Takes l)
    (wellFormed : w.store.WellFormed) (sound : w.store.Sound)
    (bound : w.store.ListAt frame.scope l.text storage) (holds : v.store.contents storage = xs) :
    v.HasList list storage xs where
  wellFormed := starts.wellFormed wellFormed
  sound := (starts.leads sound).1.sound
  isList := starts.isList takes sound bound
  contents := holds

theorem Starts.append (starts : c.Starts fuel frame w [list, value] v)
    (append : c.procedure = .append) (has : v.HasList list storage xs) :
    c.Gives fuel frame w v (.number (.whole 0))
      (Function.update v.store.contents storage (xs ++ [value])) := by
  apply starts.gives (by rw [append]; rfl)
  · exact nofun
  intro runSource site t keeps storages
  rw [append]
  refine ⟨_, _, Builtin.perform_append (keeps.datum_eq has.isList nofun),
    has.datum_null (keeps.trans (.updateElements t storage _)), ?_⟩
  apply World.becomes_update storages has.inside
  rw [Array.toList_push, ← has.contents]
  rfl

theorem Starts.insert (starts : c.Starts fuel frame w [list, index, value] v)
    (insert : c.procedure = .insert) (has : v.HasList list storage xs)
    (isIndex : v.store.datum index = .number (.whole i)) (fits : Datum.fitsIndex i = true) :
    c.Gives fuel frame w v (.number (.whole 0))
      (Function.update v.store.contents storage
        (xs.take (clamped xs.length i) ++ [value] ++ xs.drop (clamped xs.length i))) := by
  apply starts.gives (by rw [insert]; rfl)
  · exact nofun
  intro runSource site t keeps storages
  rw [insert]
  refine ⟨_, _, Builtin.perform_insert (keeps.datum_eq has.isList nofun)
    (keeps.datum_eq isIndex nofun) fits,
    has.datum_null (keeps.trans (.updateElements t storage _)), ?_⟩
  apply World.becomes_update storages has.inside
  rw [← has.contents]
  exact toList_insertAt _ i value

theorem Starts.remove (starts : c.Starts fuel frame w [list, index] v)
    (remove : c.procedure = .remove) (has : v.HasList list storage xs)
    (isIndex : v.store.datum index = .number (.whole i)) (lower : -(xs.length : Int) ≤ i)
    (upper : i < xs.length) {element : Ref} (found : xs[clamped xs.length i]? = some element) :
    c.Gives fuel frame w v (v.store.datum element)
      (Function.update v.store.contents storage (xs.eraseIdx (clamped xs.length i))) := by
  have held : element.index < v.store.objects.size := by
    rw [← has.element_eq rfl] at found
    exact has.sound.inside (Array.mem_of_getElem? found)
  apply starts.gives (by rw [remove]; rfl) (has.sound.datum_ne_bare held)
  intro runSource site t keeps storages
  rw [remove]
  have inside : listIndex? (t.elements storage).size (.whole i) =
      some (clamped xs.length i) := by
    rw [has.size_elements storages]
    exact listIndex?_of_inside lower upper
  rw [← has.element_eq storages] at found
  refine ⟨_, _, Builtin.perform_remove (keeps.datum_eq has.isList nofun)
    (keeps.datum_eq isIndex nofun) inside found, keeps.data element held, ?_⟩
  apply World.becomes_update storages has.inside
  rw [Array.toList_eraseIdxIfInBounds, ← has.contents]
  rfl

theorem Starts.remove_outside (starts : c.Starts fuel frame w [list, index] v)
    (remove : c.procedure = .remove) (has : v.HasList list storage xs)
    (isIndex : v.store.datum index = .number (.whole i))
    (outside : i < -(xs.length : Int) ∨ xs.length ≤ i) :
    c.Refuses fuel frame w v .removeOutOfBounds := by
  apply starts.refuses (by rw [remove]; rfl)
  intro runSource site t keeps storages
  rw [remove]
  have missing := listIndex?_of_outside outside
  rw [← has.size_elements storages] at missing
  exact Builtin.perform_remove_outside (keeps.datum_eq has.isList nofun)
    (keeps.datum_eq isIndex nofun) missing

theorem Starts.length (starts : c.Starts fuel frame w [list] v) (length : c.procedure = .length)
    (has : v.HasList list storage xs) :
    c.Gives fuel frame w v (.number (.whole xs.length)) v.store.contents := by
  apply starts.gives (by rw [length]; rfl)
  · exact nofun
  intro runSource site t keeps storages
  rw [length]
  let number := (Datum.number (.whole (t.elements storage).size)).object
  refine ⟨(t.alloc number).1, { v with store := (t.alloc number).2 },
    Builtin.perform_length (keeps.datum_eq has.isList nofun), ?_, ?_⟩
  · rw [(Store.holds_alloc t number).datum_eq, ← has.size_elements storages]
    rfl
  · rw [← Store.contents_congr storages]
    exact World.becomes_of_keeps ((Store.Keeps.refl t).alloc number)

theorem Starts.not_list {first : Ref} (starts : c.Starts fuel frame w (first :: refs) v)
    (forLists : c.procedure.isForLists = true)
    (fits : (first :: refs).length = c.procedure.parameters.length) (sound : w.store.Sound)
    (other : ∀ storage, v.store.datum first ≠ .list storage) :
    c.Refuses fuel frame w v c.procedure.noList := by
  have inside := (starts.leads sound).2 first List.mem_cons_self
  apply starts.refuses fits
  intro runSource site t keeps _
  apply Builtin.perform_of_not_list forLists fits
  intro storage
  rw [keeps.data first inside]
  exact other storage

theorem Starts.not_number (starts : c.Starts fuel frame w (list :: index :: refs) v)
    (indexed : c.procedure.isIndexed = true)
    (fits : (list :: index :: refs).length = c.procedure.parameters.length)
    (sound : w.store.Sound) (isList : v.store.datum list = .list storage)
    (other : ∀ value, v.store.datum index ≠ .number value) :
    c.Refuses fuel frame w v .secondNotNumber := by
  have inside := (starts.leads sound).2 index (List.mem_cons_of_mem _ List.mem_cons_self)
  apply starts.refuses fits
  intro runSource site t keeps _
  apply Builtin.perform_of_not_number indexed fits (keeps.datum_eq isList nofun)
  intro value
  rw [keeps.data index inside]
  exact other value

/-- What has been put between others is found there, and they are left when it is taken out. -/
theorem Starts.remove_inserted (starts : c.Starts fuel frame w [list, index] v)
    (remove : c.procedure = .remove)
    (has : v.HasList list storage
      (xs.take (clamped xs.length i) ++ [value] ++ xs.drop (clamped xs.length i)))
    (isIndex : v.store.datum index = .number (.whole i)) (lower : 0 ≤ i) (upper : i ≤ xs.length) :
    c.Gives fuel frame w v (v.store.datum value)
      (Function.update v.store.contents storage xs) := by
  have place := clamped_of_nonneg lower upper
  have inside : i.toNat ≤ xs.length := by omega
  rw [place, List.append_assoc, List.singleton_append, ← insertIdx_eq_take_drop inside] at has
  have longer : (xs.insertIdx i.toNat value).length = xs.length + 1 :=
    List.length_insertIdx_of_le_length inside value
  have here : clamped (xs.insertIdx i.toNat value).length i = i.toNat :=
    clamped_of_nonneg lower (by omega)
  have found : (xs.insertIdx i.toNat value)[clamped (xs.insertIdx i.toNat value).length i]? =
      some value := by rw [here, List.getElem?_insertIdx_self, if_pos inside]
  have removed := starts.remove remove has isIndex (by omega) (by omega) found
  rwa [here, List.eraseIdx_insertIdx_self] at removed

end Call

/-- What calls do in an activation with a variable that means a list, as operations on the sequence
in its storage. -/
structure ListLaws (w : World) (frame : Frame) (l : Name) (storage : StorageId) : Prop where
  /-- Nothing changes before a procedure starts, where its arguments are names and constants. -/
  start {c : Call} {fuel : Nat} {refs : List Ref} {v : World} :
    (∀ node ∈ c.arguments, node.isPlain = true) → c.Starts fuel frame w refs v →
    w.Becomes v w.store.contents
  /-- A value is put behind all others. -/
  append {c : Call} {fuel : Nat} {list value : Ref} {v : World} {xs : List Ref} :
    c.procedure = .append → c.Takes l → c.Starts fuel frame w [list, value] v →
    v.store.contents storage = xs →
    c.Gives fuel frame w v (.number (.whole 0))
      (Function.update v.store.contents storage (xs ++ [value]))
  /-- A value is put at a place, which is clamped to the list. -/
  insert {c : Call} {fuel : Nat} {list index value : Ref} {v : World} {xs : List Ref} {i : Int} :
    c.procedure = .insert → c.Takes l → c.Starts fuel frame w [list, index, value] v →
    v.store.contents storage = xs → v.store.datum index = .number (.whole i) →
    i.natAbs < Nat.pow 2 63 →
    c.Gives fuel frame w v (.number (.whole 0))
      (Function.update v.store.contents storage
        (xs.take (clamped xs.length i) ++ [value] ++ xs.drop (clamped xs.length i)))
  /-- The element at a place of the list is taken out and is the value. -/
  remove {c : Call} {fuel : Nat} {list index : Ref} {v : World} {xs : List Ref} {i : Int} :
    c.procedure = .remove → c.Takes l → c.Starts fuel frame w [list, index] v →
    v.store.contents storage = xs → v.store.datum index = .number (.whole i) →
    -(xs.length : Int) ≤ i → i < xs.length →
    ∃ element, xs[clamped xs.length i]? = some element ∧
      c.Gives fuel frame w v (v.store.datum element)
        (Function.update v.store.contents storage (xs.eraseIdx (clamped xs.length i)))
  /-- Nothing is taken out anywhere else. -/
  removeOutside {c : Call} {fuel : Nat} {list index : Ref} {v : World} {xs : List Ref} {i : Int} :
    c.procedure = .remove → c.Takes l → c.Starts fuel frame w [list, index] v →
    v.store.contents storage = xs → v.store.datum index = .number (.whole i) →
    i < -(xs.length : Int) ∨ xs.length ≤ i → c.Refuses fuel frame w v .removeOutOfBounds
  /-- The elements are counted. -/
  length {c : Call} {fuel : Nat} {list : Ref} {v : World} {xs : List Ref} :
    c.procedure = .length → c.Takes l → c.Starts fuel frame w [list] v →
    v.store.contents storage = xs →
    c.Gives fuel frame w v (.number (.whole xs.length)) v.store.contents
  /-- Whatever is no list is refused in its place. -/
  noList {c : Call} {fuel : Nat} {first : Ref} {rest : List Ref} {v : World} :
    c.procedure.isForLists = true → c.Starts fuel frame w (first :: rest) v →
    (first :: rest).length = c.procedure.parameters.length →
    (∀ storage, v.store.datum first ≠ .list storage) →
    c.Refuses fuel frame w v c.procedure.noList
  /-- Whatever is no number is refused as an index. -/
  noNumber {c : Call} {fuel : Nat} {list index : Ref} {rest : List Ref} {v : World} :
    c.procedure.isIndexed = true → c.Takes l → c.Starts fuel frame w (list :: index :: rest) v →
    (list :: index :: rest).length = c.procedure.parameters.length →
    (∀ value, v.store.datum index ≠ .number value) →
    c.Refuses fuel frame w v .secondNotNumber
  /-- A value that is inserted is given back when it is removed, and the list is as before. -/
  restore {c d : Call} {fuel fuel' : Nat} {list index value list' index' result : Ref}
    {v after v' : World} {xs : List Ref} {i : Int} :
    c.procedure = .insert → c.Takes l → c.Starts fuel frame w [list, index, value] v →
    v.store.contents storage = xs → v.store.datum index = .number (.whole i) →
    i.natAbs < Nat.pow 2 63 → 0 ≤ i → i ≤ xs.length →
    eval (fuel + 1) c.node frame w = (.value result, after) →
    d.procedure = .remove → d.Takes l → after.store.ListAt frame.scope l.text storage →
    d.Starts fuel' frame after [list', index'] v' →
    v'.store.datum index' = .number (.whole i) →
    v'.store.contents storage = after.store.contents storage →
    d.Gives fuel' frame after v' (v.store.datum value)
      (Function.update v'.store.contents storage xs)

/-- In every world without gaps, wherever a variable means a list, the built-in procedures for lists
work on the sequence in its storage. -/
theorem listLaws_of_listAt {w : World} {frame : Frame} {l : Name} {storage : StorageId}
    (wellFormed : w.store.WellFormed) (sound : w.store.Sound)
    (bound : w.store.ListAt frame.scope l.text storage) : ListLaws w frame l storage where
  start plain starts := starts.becomes plain
  append append takes starts holds :=
    starts.append append (starts.hasList takes wellFormed sound bound holds)
  insert insert takes starts holds isIndex fits :=
    starts.insert insert (starts.hasList takes wellFormed sound bound holds) isIndex
      (fitsIndex_of_natAbs fits)
  remove {c fuel list index v xs i} remove takes starts holds isIndex lower upper := by
    have found := List.getElem?_eq_getElem (clamped_lt lower upper)
    exact ⟨_, found, starts.remove remove (starts.hasList takes wellFormed sound bound holds)
      isIndex lower upper found⟩
  removeOutside remove takes starts holds isIndex outside :=
    starts.remove_outside remove (starts.hasList takes wellFormed sound bound holds) isIndex outside
  length length takes starts holds :=
    starts.length length (starts.hasList takes wellFormed sound bound holds)
  noList forLists starts fits other := starts.not_list forLists fits sound other
  noNumber indexed takes starts fits other :=
    starts.not_number indexed fits sound (starts.isList takes sound bound) other
  restore {c d fuel fuel' list index value list' index' result v after v' xs i} insert takes starts
      holds isIndex fits lower upper run remove takes' bound' starts' isIndex' untouched := by
    obtain ⟨_, _, ran, -, becomes⟩ :=
      starts.insert insert (starts.hasList takes wellFormed sound bound holds) isIndex
        (fitsIndex_of_natAbs fits)
    cases run.symm.trans ran
    -- The world between the calls is again one that the laws speak about.
    obtain ⟨builtin, named, -⟩ := starts.means
    have row : Evaluator.all (eval (fuel + 1)) frame [c.node] w = (.value [result], after) :=
      Eval.bind_of_value run
    have wellFormed' : after.store.WellFormed :=
      Evaluator.wellFormed_all wellFormed (Store.scope_lt_of_find? named) row
    have sound' : after.store.Sound := (Evaluator.leads_all sound row).1.sound
    have held : value.index < v.store.objects.size := (starts.leads sound).2 value (by simp)
    have same : v'.store.datum value = v.store.datum value := by
      rw [(starts'.leads sound').1.data value (Nat.lt_of_lt_of_le held becomes.keeps.objects),
        becomes.keeps.data value held]
    rw [becomes.contents, Function.update_self] at untouched
    rw [← same]
    exact starts'.remove_inserted remove
      (starts'.hasList takes' wellFormed' sound' bound' untouched) isIndex' lower upper

/-- The world at start-up with a list of one element, bound to a name. -/
def World.single : World :=
  { World.start {} [] (mkStdGen 0) with
    store := ((Store.start.allocStorage #[Store.nullRef]).2.alloc (Datum.list ⟨0⟩).object).2.bind
      Store.globalScope "l" ⟨Store.start.objects.size⟩ }

theorem World.wellFormed_single : World.single.store.WellFormed := by
  have stored : (Store.start.allocStorage #[Store.nullRef]).2.WellFormed := by
    apply Store.WellFormed.start.allocStorage
    intro ref member
    cases Array.mem_singleton.mp member
    exact Store.WellFormed.start.objects
  have made : ((Store.start.allocStorage #[Store.nullRef]).2.alloc
      (Datum.list ⟨0⟩).object).2.WellFormed := by
    apply stored.alloc
    · intro storage isList
      cases isList
      exact Nat.zero_lt_one
    · exact nofun
  exact made.bind (Store.holds_alloc _ _).index_lt Store.globalScope "l"

theorem World.sound_single : World.single.store.Sound := by
  have stored : (Store.start.allocStorage #[Store.nullRef]).2.Sound := by
    apply Store.Sound.start.allocStorage
    intro ref member
    cases Array.mem_singleton.mp member
    exact Store.WellFormed.start.objects
  have made : ((Store.start.allocStorage #[Store.nullRef]).2.alloc
      (Datum.list ⟨0⟩).object).2.Sound := stored.alloc nofun
  exact { made with }

/-- A whole number. -/
def Datum.isWhole (n : Int) : Datum → Bool
  | .number (.whole m) => m = n
  | _ => false

theorem Datum.eq_of_isWhole {n : Int} {datum : Datum} (whole : datum.isWhole n = true) :
    datum = .number (.whole n) := by
  unfold isWhole at whole
  split at whole
  · rw [of_decide_eq_true whole]
  · cases whole

/-- `INSERT(l, 1, l)`, which puts the list into itself. -/
def insertSelf : Call :=
  ⟨.insert, default, [.access ⟨"l", default⟩, .number (.whole 1) default, .access ⟨"l", default⟩],
    default⟩

/-- `REMOVE(l, 1)`. -/
def removeSecond : Call :=
  ⟨.remove, default, [.access ⟨"l", default⟩, .number (.whole 1) default], default⟩

theorem listLaws_of_listAt_single :
    ∃ v result after v',
      insertSelf.Starts 1 (.program Store.globalScope) World.single [⟨18⟩, ⟨19⟩, ⟨20⟩] v ∧
      eval 2 insertSelf.node (.program Store.globalScope) World.single = (.value result, after) ∧
      removeSecond.Starts 1 (.program Store.globalScope) after [⟨23⟩, ⟨24⟩] v' ∧
      v.store.seen? ⟨20⟩ = some [Store.nullRef] ∧
      removeSecond.Gives 1 (.program Store.globalScope) after v' (v.store.datum ⟨20⟩)
        (Function.update v'.store.contents ⟨0⟩ [Store.nullRef]) := by
  let frame : Frame := .program Store.globalScope
  have bound : World.single.store.ListAt frame.scope "l" ⟨0⟩ := ⟨⟨16⟩, by decide +kernel, rfl⟩
  have ready : Ending.valueSatisfies
      (fun refs v => refs = [⟨17⟩, ⟨18⟩, ⟨19⟩, ⟨20⟩] && (v.store.datum ⟨19⟩).isWhole 1 &&
        v.store.seen? ⟨20⟩ = some [Store.nullRef] && v.store.contents ⟨0⟩ = [Store.nullRef])
      (Evaluator.all (eval 1) frame (.access insertSelf.name :: insertSelf.arguments)
        World.single) = true := by decide +kernel
  have again : Ending.valueSatisfies
      (fun _ after => after.store.find? frame.scope "l" = some ⟨16⟩ &&
        after.store.find? frame.scope "REMOVE" = some ⟨7⟩ &&
        Ending.valueSatisfies
          (fun refs v' => refs = [⟨22⟩, ⟨23⟩, ⟨24⟩] && (v'.store.datum ⟨24⟩).isWhole 1 &&
            v'.store.contents ⟨0⟩ = after.store.contents ⟨0⟩)
          (Evaluator.all (eval 1) frame (.access removeSecond.name :: removeSecond.arguments)
            after))
      (eval 2 insertSelf.node frame World.single) = true := by decide +kernel
  obtain ⟨refs, v, values, passed⟩ := Ending.exists_of_valueSatisfies ready
  simp only [Bool.and_eq_true, decide_eq_true_eq] at passed
  obtain ⟨⟨⟨rfl, isIndex⟩, seen⟩, holds⟩ := passed
  obtain ⟨result, after, run, passed⟩ := Ending.exists_of_valueSatisfies again
  simp only [Bool.and_eq_true, decide_eq_true_eq] at passed
  obtain ⟨⟨found, named⟩, passed⟩ := passed
  obtain ⟨refs, v', values', passed⟩ := Ending.exists_of_valueSatisfies passed
  simp only [Bool.and_eq_true, decide_eq_true_eq] at passed
  obtain ⟨⟨rfl, isIndex'⟩, untouched⟩ := passed
  have leads := (watches_eval (Nat.le_refl 2)).leads World.sound_single insertSelf.node frame
  rw [run] at leads
  have starts : insertSelf.Starts 1 frame World.single [⟨18⟩, ⟨19⟩, ⟨20⟩] v :=
    ⟨⟨⟨6⟩, by decide +kernel, rfl⟩, _, values⟩
  have starts' : removeSecond.Starts 1 frame after [⟨23⟩, ⟨24⟩] v' :=
    ⟨⟨⟨7⟩, named, (leads.data ⟨7⟩ (by decide)).trans rfl⟩, _, values'⟩
  have bound' : after.store.ListAt frame.scope "l" ⟨0⟩ :=
    ⟨⟨16⟩, found, (leads.data ⟨16⟩ (by decide)).trans rfl⟩
  have laws : ListLaws World.single frame ⟨"l", default⟩ ⟨0⟩ :=
    listLaws_of_listAt World.wellFormed_single World.sound_single bound
  have restored := laws.restore rfl ⟨_, rfl⟩ starts holds (Datum.eq_of_isWhole isIndex) (by decide)
    (by decide) (by decide) run rfl ⟨_, rfl⟩ bound' starts' (Datum.eq_of_isWhole isIndex') untouched
  exact ⟨v, result, after, v', starts, run, starts', seen, restored⟩

end Pseudocode
