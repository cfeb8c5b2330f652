import Pseudocode.Proofs.Evaluation.Growth
import Pseudocode.Proofs.Evaluation.Scalars
import Pseudocode.Proofs.Parsing.Placement

/-!
# The places of values

An object that has a place keeps one, and an operation that is refused is reported at the place of
one of its operands.  Among the values of expressions only the one object that stands for the
absence of a value may lack a place.
-/

namespace Pseudocode
namespace Store

/-- The object at a reference has a place. -/
def Places (s : Store) (ref : Ref) : Prop :=
  (s.object ref).span.isSome = true

/-- No object is lost, none gets another datum and none loses its place. -/
structure Retains (before after : Store) : Prop where
  size : before.objects.size ≤ after.objects.size
  data : ∀ ref : Ref, ref.index < before.objects.size → after.datum ref = before.datum ref
  places : ∀ ref : Ref, before.Places ref → after.Places ref

/-- The object that stands for the absence of a value is a zero, every object is something in
particular, and the elements of lists are objects of the store. -/
structure Sound (s : Store) : Prop where
  nonempty : 0 < s.objects.size
  null : s.datum nullRef = .number (.whole 0)
  solid : ∀ object ∈ s.objects, object.datum ≠ .bare
  elements : ∀ elements ∈ s.storages, ∀ ref ∈ elements, ref.index < s.objects.size

/-- What an expression may have for its value: an object with a place or the absence of a value. -/
def Valued (s : Store) (ref : Ref) : Prop :=
  ref = nullRef ∨ s.Places ref

variable {s t u : Store} {ref : Ref} {object : Object}

theorem Places.inside (places : s.Places ref) : ref.index < s.objects.size := by
  apply Decidable.byContradiction
  intro outside
  rw [Places, Store.object, Array.getD_eq_getD_getElem?,
    Array.getElem?_eq_none (Nat.le_of_not_lt outside)] at places
  cases places

/-! ## Keeping what there is -/

namespace Retains

theorem refl (s : Store) : s.Retains s :=
  ⟨Nat.le_refl _, fun _ _ => rfl, fun _ places => places⟩

theorem trans (first : s.Retains t) (second : t.Retains u) : s.Retains u where
  size := Nat.le_trans first.size second.size
  data ref inside := by
    rw [second.data ref (Nat.lt_of_lt_of_le inside first.size), first.data ref inside]
  places ref placed := second.places ref (first.places ref placed)

/-- The objects are the same. -/
theorem of_objects (same : t.objects = s.objects) : s.Retains t where
  size := Nat.le_of_eq (congrArg Array.size same).symm
  data ref _ := by rw [Store.datum, Store.datum, Store.object, Store.object, same]
  places ref placed := by rwa [Places, Store.object, same]

theorem alloc (s : Store) (object : Object) : s.Retains (s.alloc object).2 where
  size := by
    change s.objects.size ≤ (s.objects.push object).size
    rw [Array.size_push]
    exact Nat.le_succ _
  data ref inside := datum_alloc inside
  places ref placed := by
    have kept : (s.objects.push object)[ref.index]? = s.objects[ref.index]? := by
      rw [Array.getElem?_push, if_neg (Nat.ne_of_lt placed.inside)]
    change ((s.objects.push object).getD ref.index default).span.isSome = true
    rw [Array.getD_eq_getD_getElem?, kept, ← Array.getD_eq_getD_getElem?]
    exact placed

/-- Objects are changed in place and keep their data and their places. -/
theorem modify (s : Store) {change : Object → Object} (data : ∀ o, (change o).datum = o.datum)
    (spans : ∀ o, o.span.isSome = true → (change o).span.isSome = true) (index : Nat) :
    s.Retains { s with objects := s.objects.modify index change } where
  size := Nat.le_of_eq Array.size_modify.symm
  data ref _ := datum_modify data index ref
  places ref placed := by
    have inside := placed.inside
    change ((s.objects.modify index change).getD ref.index default).span.isSome = true
    rw [Places, Store.object, Array.getD_eq_getD_getElem?,
      Array.getElem?_eq_getElem inside] at placed
    rw [Array.getD_eq_getD_getElem?, Array.getElem?_modify, Array.getElem?_eq_getElem inside]
    split
    · exact spans _ placed
    · exact placed

theorem setSpan (s : Store) (ref : Ref) (span : Span) : s.Retains (s.setSpan ref span) := by
  apply modify s
  · exact fun _ => rfl
  · exact fun _ _ => rfl

theorem setFrame (s : Store) (ref : Ref) (frame : Frame) : s.Retains (s.setFrame ref frame) := by
  apply modify s
  · exact fun _ => rfl
  · exact fun _ placed => placed

end Retains

theorem places_alloc (s : Store) (placed : object.span.isSome = true) :
    (s.alloc object).2.Places (s.alloc object).1 := by
  rw [Places, (holds_alloc s object).object_eq]
  exact placed

theorem places_setSpan (inside : ref.index < s.objects.size) (span : Span) :
    (s.setSpan ref span).Places ref := by
  have holds : s.Holds ref s.objects[ref.index] := Array.getElem?_eq_getElem inside
  rw [Places, (holds_setSpan holds span).object_eq]
  rfl

theorem Valued.mono (valued : s.Valued ref) (retains : s.Retains t) : t.Valued ref :=
  valued.imp_right (retains.places ref)

theorem Valued.inside (valued : s.Valued ref) (sound : s.Sound) :
    ref.index < s.objects.size := by
  obtain rfl | places := valued
  · exact sound.nonempty
  · exact places.inside

/-! ## Sound stores -/

namespace Sound

theorem alloc (sound : s.Sound) (new : object.datum ≠ .bare) : (s.alloc object).2.Sound where
  nonempty := Nat.lt_of_lt_of_le sound.nonempty (Retains.alloc s object).size
  null := (datum_alloc sound.nonempty).trans sound.null
  solid other member := by
    obtain old | rfl := Array.mem_push.mp member
    · exact sound.solid other old
    · exact new
  elements elements member ref inside :=
    Nat.lt_of_lt_of_le (sound.elements elements member ref inside) (Retains.alloc s object).size

theorem modify (sound : s.Sound) {change : Object → Object}
    (data : ∀ o, (change o).datum = o.datum) (index : Nat) :
    Store.Sound { s with objects := s.objects.modify index change } where
  nonempty := by simpa using sound.nonempty
  null := by rw [datum_modify data, sound.null]
  solid object member := by
    obtain ⟨place, found⟩ := Array.getElem?_of_mem member
    rw [Array.getElem?_modify] at found
    split at found
    · obtain ⟨old, here, rfl⟩ := Option.map_eq_some_iff.mp found
      rw [data]
      exact sound.solid old (Array.mem_of_getElem? here)
    · exact sound.solid object (Array.mem_of_getElem? found)
  elements := by simpa using sound.elements

theorem setSpan (sound : s.Sound) (ref : Ref) (span : Span) : (s.setSpan ref span).Sound := by
  apply sound.modify
  exact fun _ => rfl

theorem setFrame (sound : s.Sound) (ref : Ref) (frame : Frame) : (s.setFrame ref frame).Sound := by
  apply sound.modify
  exact fun _ => rfl

theorem allocStorage (sound : s.Sound) {elements : Array Ref}
    (inside : ∀ ref ∈ elements, ref.index < s.objects.size) :
    (s.allocStorage elements).2.Sound where
  nonempty := sound.nonempty
  null := sound.null
  solid := sound.solid
  elements others member := by
    obtain old | rfl := Array.mem_push.mp member
    · exact sound.elements others old
    · exact inside

theorem updateElements (sound : s.Sound) (storage : StorageId) {change : Array Ref → Array Ref}
    (inside : ∀ elements : Array Ref, (∀ ref ∈ elements, ref.index < s.objects.size) →
      ∀ ref ∈ change elements, ref.index < s.objects.size) :
    (s.updateElements storage change).Sound where
  nonempty := sound.nonempty
  null := sound.null
  solid := sound.solid
  elements elements member := by
    obtain ⟨index, found⟩ := Array.getElem?_of_mem member
    rw [Store.updateElements, Array.getElem?_modify] at found
    split at found
    · obtain ⟨old, here, rfl⟩ := Option.map_eq_some_iff.mp found
      exact inside old (sound.elements old (Array.mem_of_getElem? here))
    · exact sound.elements elements (Array.mem_of_getElem? found)

theorem inside (sound : s.Sound) {storage : StorageId} (member : ref ∈ s.elements storage) :
    ref.index < s.objects.size := by
  rw [Store.elements, Array.getD_eq_getD_getElem?] at member
  cases found : s.storages[storage.index]? with
  | none =>
      rw [found] at member
      cases Array.not_mem_empty ref member
  | some elements =>
      rw [found] at member
      exact sound.elements elements (Array.mem_of_getElem? found) ref member

end Sound

/-- A step from a store to a sound one that retains what there is. -/
structure Leads (before after : Store) : Prop extends before.Retains after where
  sound : after.Sound

theorem Leads.refl (sound : s.Sound) : s.Leads s :=
  ⟨.refl s, sound⟩

theorem Leads.trans (first : s.Leads t) (second : t.Leads u) : s.Leads u :=
  ⟨first.toRetains.trans second.toRetains, second.sound⟩

/-! ## Operations -/

/-- A step whose result, if there is one, is an object of the store that it leads to. -/
structure Yields {ε : Type} (s : Store) (outcome : Except ε Ref × Store) : Prop where
  leads : s.Leads outcome.2
  inside : ∀ result, outcome.1 = .ok result → result.index < outcome.2.objects.size

theorem Yields.refused {ε : Type} (sound : s.Sound) (why : ε) :
    s.Yields ((.error why, s) : Except ε Ref × Store) :=
  ⟨.refl sound, fun _ absent => by cases absent⟩

theorem Yields.made {ε : Type} (leads : s.Leads t) (new : object.datum ≠ .bare) :
    s.Yields ((.ok (t.alloc object).1, (t.alloc object).2) : Except ε Ref × Store) where
  leads := leads.trans ⟨.alloc t object, leads.sound.alloc new⟩
  inside result made := by
    cases made
    exact (holds_alloc t object).index_lt

theorem Sound.updates (sound : s.Sound) (storage : StorageId) {change : Array Ref → Array Ref}
    (inside : ∀ elements : Array Ref, (∀ ref ∈ elements, ref.index < s.objects.size) →
      ∀ ref ∈ change elements, ref.index < s.objects.size) :
    s.Leads (s.updateElements storage change) :=
  ⟨.of_objects rfl, sound.updateElements storage inside⟩

theorem Sound.push (sound : s.Sound) (storage : StorageId) (held : ref.index < s.objects.size) :
    s.Leads (s.updateElements storage (·.push ref)) := by
  apply sound.updates storage
  intro elements inside other member
  obtain old | rfl := Array.mem_push.mp member
  · exact inside other old
  · exact held

theorem Sound.erase (sound : s.Sound) (storage : StorageId) (place : Nat) :
    s.Leads (s.updateElements storage (·.eraseIdxIfInBounds place)) := by
  apply sound.updates storage
  intro elements inside other member
  rw [Array.eraseIdxIfInBounds] at member
  split at member
  · exact inside other (Array.mem_of_mem_eraseIdx member)
  · exact inside other member

theorem Sound.copy (sound : s.Sound) (ref : Ref) : s.Yields (s.copy ref) := by
  unfold Store.copy
  dsimp only
  split
  · exact .refused sound _
  · next solid => exact .made (.refl sound) solid

theorem Sound.listOperation (sound : s.Sound) (op : BinaryOp) {left : Object}
    (solid : left.datum ≠ .bare) (storage : StorageId) {right : Ref}
    (inside : right.index < s.objects.size) :
    s.Yields (s.listOperation op left storage right) := by
  unfold Store.listOperation
  split
  · exact .made (sound.push storage inside) solid
  · split
    · exact .made (sound.erase storage _) solid
    · exact .refused sound _
  · next other _ =>
      apply Yields.made (sound.updates storage _) solid
      intro elements old ref member
      obtain here | appended := Array.mem_append.mp member
      · exact old ref here
      · exact sound.inside appended
  · split
    · next element found =>
        obtain ⟨place, _, here⟩ := Option.bind_eq_some_iff.mp found
        refine ⟨.refl sound, fun result same => ?_⟩
        cases same
        exact sound.inside (Array.mem_of_getElem? here)
    · exact .refused sound _
  · exact .refused sound _

theorem Sound.operate (sound : s.Sound) (op : BinaryOp) (left : Object) {right : Ref}
    (inside : right.index < s.objects.size) : s.Yields (s.operate op left right) := by
  unfold Store.operate
  split
  · next isList => exact sound.listOperation op (by rw [isList]; exact nofun) _ inside
  · split
    · next run => exact .made (.refl sound) (Datum.ne_bare_of_isScalar
        (Datum.isScalar_scalarOperation run))
    · exact .refused sound _

theorem Sound.binary (sound : s.Sound) (op : BinaryOp) (left : Ref) {right : Ref}
    (inside : right.index < s.objects.size) : s.Yields (s.binary op left right) := by
  have operated := sound.operate op (s.object left) inside
  refine ⟨operated.leads, fun result same => operated.inside result ?_⟩
  change (s.operate op (s.object left) right).1.mapError _ = .ok result at same
  cases run : (s.operate op (s.object left) right).1 with
  | ok found =>
      rw [run] at same
      cases same
      rfl
  | error refusal =>
      rw [run] at same
      cases same

theorem Sound.negate (sound : s.Sound) (ref : Ref) : s.Yields (s.negate ref) := by
  unfold Store.negate
  dsimp only
  split
  · exact .made (.refl sound) nofun
  · exact .refused sound _

end Store

/-! ## Where a refusal is reported -/

/-- The operand at whose place a refusal is reported. -/
def Refusal.culprit? (left right : Ref) : Refusal → Option Ref
  | .illegal => some left
  | .divisionByZero => some right
  | .outOfBounds => some right
  | .fault _ => none

namespace Store

variable {s : Store} {op : BinaryOp} {left right ref : Ref}

/-- Whether an operation is refused on account of the absence of a value while this has no place. -/
def blamesNull (s : Store) (op : BinaryOp) (left right : Ref) : Bool :=
  match (s.operate op (s.object left) right).1 with
  | .ok _ => false
  | .error refusal =>
      refusal.culprit? left right = some nullRef && (s.object nullRef).span.isNone

theorem span_refuse {refusal : Refusal} {diagnostic : Diagnostic}
    (reported : refuse (s.object left) (s.object right) refusal = .error diagnostic) :
    ∃ culprit, refusal.culprit? left right = some culprit ∧
      diagnostic.span = (s.object culprit).span := by
  cases refusal with
  | illegal =>
      cases reported
      exact ⟨left, rfl, rfl⟩
  | divisionByZero | outOfBounds =>
      cases reported
      exact ⟨right, rfl, rfl⟩
  | fault fault => cases reported

theorem culprit?_mem {refusal : Refusal} {culprit : Ref}
    (blamed : refusal.culprit? left right = some culprit) : culprit = left ∨ culprit = right := by
  cases refusal with
  | illegal => exact .inl (Option.some.inj blamed).symm
  | divisionByZero | outOfBounds => exact .inr (Option.some.inj blamed).symm
  | fault fault => cases blamed

theorem binary_of_refused {refusal : Refusal}
    (refused : (s.operate op (s.object left) right).1 = .error refusal) :
    (s.binary op left right).1 = .error (refuse (s.object left) (s.object right) refusal) := by
  change (s.operate op (s.object left) right).1.mapError _ = _
  rw [refused]
  rfl

theorem refused_of_binary {stop : Stop} (stopped : (s.binary op left right).1 = .error stop) :
    ∃ refusal, (s.operate op (s.object left) right).1 = .error refusal ∧
      refuse (s.object left) (s.object right) refusal = stop := by
  change (s.operate op (s.object left) right).1.mapError _ = _ at stopped
  cases run : (s.operate op (s.object left) right).1 with
  | ok result =>
      rw [run] at stopped
      cases stopped
  | error refusal =>
      rw [run] at stopped
      exact ⟨refusal, rfl, Except.error.inj stopped⟩

/-- An operation on values is reported at a place, unless it blames the absence of a value. -/
theorem placed_binary (first : s.Valued left) (second : s.Valued right)
    (free : s.blamesNull op left right = false) {stop : Stop}
    (stopped : (s.binary op left right).1 = .error stop) : stop.Placed := by
  obtain ⟨refusal, refused, rfl⟩ := refused_of_binary stopped
  cases reported : refuse (s.object left) (s.object right) refusal with
  | fault fault => trivial
  | error diagnostic =>
      obtain ⟨culprit, blamed, span⟩ := span_refuse reported
      have valued : s.Valued culprit := by
        obtain rfl | rfl := culprit?_mem blamed
        · exact first
        · exact second
      change diagnostic.span.isSome = true
      rw [span]
      obtain rfl | placed := valued
      · rw [blamesNull, refused] at free
        simpa [blamed, Option.isNone_eq_false_iff] using free
      · exact placed

theorem binary_of_blamesNull (blames : s.blamesNull op left right = true) :
    ∃ diagnostic, (s.binary op left right).1 = .error (.error diagnostic) ∧
      diagnostic.span = none := by
  rw [blamesNull] at blames
  split at blames
  · cases blames
  · next refusal refused =>
      rw [Bool.and_eq_true, decide_eq_true_eq] at blames
      cases reported : refuse (s.object left) (s.object right) refusal with
      | fault fault =>
          cases refusal with
          | fault _ => cases blames.1
          | illegal | divisionByZero | outOfBounds => cases reported
      | error diagnostic =>
          obtain ⟨culprit, blamed, span⟩ := span_refuse reported
          rw [blames.1] at blamed
          cases blamed
          refine ⟨diagnostic, ?_, span.trans (Option.isNone_iff_eq_none.mp blames.2)⟩
          rw [binary_of_refused refused, reported]

theorem fault_of_repeatText {value : String} {times : Number} {refusal : Refusal}
    (refused : Datum.repeatText value times = .error refusal) :
    ∃ fault, refusal = .fault fault := by
  unfold Datum.repeatText at refused
  split at refused
  · split at refused
    · cases refused
      exact ⟨_, rfl⟩
    · split at refused
      · cases refused
      · split at refused
        · cases refused
          exact ⟨_, rfl⟩
        · cases refused
  · cases refused
    exact ⟨_, rfl⟩

/-- A product with a number on the right is refused at the left operand, which is no number then, or
it is a fault. -/
theorem refusal_of_product {factor : Number} (number : s.datum right = .number factor)
    {object : Object} {refusal : Refusal}
    (refused : (s.operate .mul object right).1 = .error refusal) :
    (refusal = .illegal ∧ ∀ value, object.datum ≠ .number value) ∨
      ∃ fault, refusal = .fault fault := by
  obtain ⟨datum, place, owner⟩ := object
  rw [operate, number] at refused
  cases datum with
  | number value =>
      dsimp only [Datum.scalarOperation, Datum.numberOperation] at refused
      cases product : value.mul factor with
      | ok result =>
          rw [product] at refused
          cases refused
      | error fault =>
          rw [product] at refused
          cases refused
          exact .inr ⟨fault, rfl⟩
  | text value =>
      dsimp only [Datum.scalarOperation] at refused
      rw [if_pos rfl] at refused
      cases repeated : Datum.repeatText value factor with
      | ok result =>
          rw [repeated] at refused
          cases refused
      | error why =>
          rw [repeated] at refused
          cases refused
          exact .inr (fault_of_repeatText repeated)
  | list storage =>
      dsimp only at refused
      unfold listOperation at refused
      rw [number] at refused
      cases refused
      exact .inl ⟨rfl, fun _ same => by cases same⟩
  | truth | procedure | builtin | bare =>
      cases refused
      exact .inl ⟨rfl, fun _ same => by cases same⟩

/-- The absence of a value is a number, so that a product never blames it. -/
theorem placed_product (sound : s.Sound) (valued : s.Valued left) {factor : Number}
    (number : s.datum right = .number factor) {stop : Stop}
    (stopped : (s.binary .mul left right).1 = .error stop) : stop.Placed := by
  obtain ⟨refusal, refused, rfl⟩ := refused_of_binary stopped
  obtain ⟨rfl, noNumber⟩ | ⟨fault, rfl⟩ := refusal_of_product number refused
  · obtain rfl | places := valued
    · exact absurd sound.null (noNumber _)
    · exact places
  · trivial

/-- The negation of a value is reported at a place, unless it is the absence of one without any. -/
theorem placed_negate (places : s.Places ref) {stop : Stop}
    (stopped : (s.negate ref).1 = .error stop) : stop.Placed := by
  unfold negate at stopped
  dsimp only at stopped
  split at stopped
  · cases stopped
  · cases stopped
    exact places

theorem negate_null (sound : s.Sound) (placeless : (s.object nullRef).span = none) :
    ∃ diagnostic, (s.negate nullRef).1 = .error (.error diagnostic) ∧ diagnostic.span = none := by
  have zero : (s.object nullRef).datum = .number (.whole 0) := sound.null
  refine ⟨⟨.runtime .illegalOperation (s.object nullRef).frame, (s.object nullRef).span⟩, ?_,
    placeless⟩
  rw [negate, zero]
  rfl

end Store
end Pseudocode
