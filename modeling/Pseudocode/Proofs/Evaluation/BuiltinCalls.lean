import Mathlib.Logic.Function.Basic
import Pseudocode.Proofs.Evaluation.Matching
import Pseudocode.Proofs.Evaluation.Reporting
import Pseudocode.Proofs.Evaluation.Scoping

/-!
# Calls of built-in procedures

A call reads the name of the procedure, evaluates the arguments, binds the parameters in a scope of
their own and copies the result.  None of this touches the elements of a list: what a call changes
is what the procedure changes.
-/

namespace Pseudocode

/-! ## What is seen of lists -/

namespace Store

variable {s t : Store} {ref : Ref} {storage : StorageId}

/-- The elements in a storage, in their order. -/
def contents (s : Store) (storage : StorageId) : List Ref :=
  (s.elements storage).toList

/-- The elements that are seen through a reference to a list. -/
def seen? (s : Store) (ref : Ref) : Option (List Ref) :=
  match s.datum ref with
  | .list storage => some (s.contents storage)
  | _ => none

/-- A name means a list with the given storage. -/
def ListAt (s : Store) (scope : ScopeId) (name : String) (storage : StorageId) : Prop :=
  ∃ ref, s.find? scope name = some ref ∧ s.datum ref = .list storage

theorem seen?_of_list (isList : s.datum ref = .list storage) :
    s.seen? ref = some (s.contents storage) := by
  rw [seen?, isList]

theorem index_lt_of_solid (solid : s.datum ref ≠ .bare) : ref.index < s.objects.size := by
  apply Decidable.byContradiction
  intro outside
  apply solid
  rw [datum, object, Array.getD_eq_getD_getElem?,
    Array.getElem?_eq_none (Nat.le_of_not_lt outside)]
  rfl

theorem Sound.datum_ne_bare (sound : s.Sound) (inside : ref.index < s.objects.size) :
    s.datum ref ≠ .bare :=
  sound.solid _ (Array.mem_of_getElem? (object_eq_of_lt inside))

theorem WellFormed.storage_lt (wellFormed : s.WellFormed) (isList : s.datum ref = .list storage) :
    storage.index < s.storages.size := by
  have inside : ref.index < s.objects.size := index_lt_of_solid (by rw [isList]; exact nofun)
  exact wellFormed.storage _ _ storage (object_eq_of_lt inside) isList

theorem Keeps.datum_eq {datum : Datum} (keeps : s.Keeps t) (isDatum : s.datum ref = datum)
    (solid : datum ≠ .bare) : t.datum ref = datum := by
  subst isDatum
  exact keeps.data ref (index_lt_of_solid solid)

theorem Keeps.updateElements (s : Store) (storage : StorageId) (change : Array Ref → Array Ref) :
    s.Keeps (s.updateElements storage change) :=
  { Keeps.refl s with }

/-- A change in one storage is a change of its elements only. -/
theorem contents_updateElements (inside : storage.index < s.storages.size)
    (change : Array Ref → Array Ref) :
    (s.updateElements storage change).contents =
      Function.update s.contents storage (change (s.elements storage)).toList := by
  funext other
  by_cases same : other = storage
  · subst same
    rw [Function.update_self, contents, elements_update inside, if_pos rfl]
  · have differs : storage.index ≠ other.index :=
      fun equal => same (congrArg StorageId.mk equal).symm
    rw [Function.update_of_ne same, contents, contents, elements, elements,
      Array.getD_eq_getD_getElem?, Array.getD_eq_getD_getElem?, Store.updateElements,
      Array.getElem?_modify, if_neg differs]

theorem elements_congr (same : t.storages = s.storages) : t.elements = s.elements := by
  funext storage
  rw [elements, elements, same]

theorem contents_congr (same : t.storages = s.storages) : t.contents = s.contents := by
  funext storage
  rw [contents, contents, elements_congr same]

/-- A name is only looked up in scopes that are there. -/
theorem scope_lt_of_find? {scope : ScopeId} {name : String}
    (found : s.find? scope name = some ref) : scope.index < s.scopes.size := by
  apply Decidable.byContradiction
  intro outside
  rw [find?, Scopes.find?] at found
  cases size : s.scopes.size with
  | zero =>
      rw [size] at found
      cases found
  | succ fuel =>
      rw [size, Scopes.findWithin, Array.getElem?_eq_none (Nat.le_of_not_lt outside)] at found
      cases found

end Store

namespace World

variable {u v w : World} {f g : StorageId → List Ref}

/-- A world after which all objects have the data that they had, all scopes bind what they bound,
and the storages have the given contents.  These are seen through every reference to a list. -/
structure Becomes (before after : World) (now : StorageId → List Ref) : Prop where
  keeps : before.store.Keeps after.store
  contents : after.store.contents = now
  seen : ∀ ref storage, before.store.datum ref = .list storage →
    after.store.seen? ref = some (now storage)
  rest : after = { before with store := after.store }

theorem becomes_of_keeps {t : Store} (keeps : w.store.Keeps t) :
    w.Becomes { w with store := t } t.contents where
  keeps := keeps
  contents := rfl
  seen _ _ isList := Store.seen?_of_list (keeps.datum_eq isList nofun)
  rest := rfl

/-- The elements in one storage are changed. -/
theorem becomes_update {t : Store} (same : t.storages = w.store.storages) {storage : StorageId}
    (inside : storage.index < w.store.storages.size) {change : Array Ref → Array Ref}
    {now : List Ref} (changed : (change (w.store.elements storage)).toList = now) :
    World.Becomes { w with store := t } { w with store := t.updateElements storage change }
      (Function.update w.store.contents storage now) := by
  have becomes : World.Becomes { w with store := t } _ _ :=
    becomes_of_keeps (Store.Keeps.updateElements t storage change)
  rw [Store.contents_updateElements (same ▸ inside), Store.contents_congr same,
    Store.elements_congr same, changed] at becomes
  exact becomes

theorem Becomes.trans (first : u.Becomes v f) (second : v.Becomes w g) : u.Becomes w g where
  keeps := first.keeps.trans second.keeps
  contents := second.contents
  seen ref storage isList := second.seen ref storage (first.keeps.datum_eq isList nofun)
  rest := by
    calc w = { v with store := w.store } := second.rest
      _ = { u with store := w.store } :=
        congrArg (fun x : World => { x with store := w.store }) first.rest

end World

/-! ## Copies, rows of nodes and activations -/

namespace Eval

variable {w : World} {ref : Ref}

/-- To take an object over is to make a new one. -/
theorem takenOver_eq (solid : w.store.datum ref ≠ .bare) (span : Span) (frame : Frame) :
    takenOver ref span frame w =
      fresh { w.store.object ref with span := some span, frame := some frame } w := by
  have made : copied ref w = fresh (w.store.object ref) w := by
    have copy : w.store.copy ref =
        (.ok (w.store.alloc (w.store.object ref)).1, (w.store.alloc (w.store.object ref)).2) := by
      unfold Store.copy
      dsimp only
      split
      · next bare => exact absurd bare solid
      · rfl
    have worked : withStore (fun store => store.copy ref) w =
        (.value (.ok (w.store.alloc (w.store.object ref)).1),
          { w with store := (w.store.alloc (w.store.object ref)).2 }) := by
      rw [withStore, copy]
    exact bind_of_value worked
  have marked := Store.setSpan_alloc w.store (w.store.object ref) span
  have framed :=
    Store.setFrame_alloc w.store { w.store.object ref with span := some span } frame
  have changed : ((w.store.alloc (w.store.object ref)).2.setSpan
      (w.store.alloc (w.store.object ref)).1 span).setFrame
        (w.store.alloc (w.store.object ref)).1 frame =
      (w.store.alloc { w.store.object ref with span := some span, frame := some frame }).2 := by
    rw [marked]
    exact framed
  rw [takenOver, bind_of_value made]
  exact congrArg (fun store => (Ending.value (w.store.alloc (w.store.object ref)).1,
    { w with store := store })) changed

/-- A copy has the datum of what is copied, and making it changes nothing. -/
theorem exists_takenOver (solid : w.store.datum ref ≠ .bare) (span : Span) (frame : Frame) :
    ∃ copy after, takenOver ref span frame w = (.value copy, after) ∧
      after.store.object copy =
        { w.store.object ref with span := some span, frame := some frame } ∧
      w.Becomes after w.store.contents ∧ after.store.scopes = w.store.scopes := by
  rw [takenOver_eq solid]
  exact ⟨_, _, rfl, (Store.holds_alloc w.store _).object_eq,
    World.becomes_of_keeps ((Store.Keeps.refl w.store).alloc _), rfl⟩

/-- What has no datum to copy is not taken over. -/
theorem solid_of_takenOver {span : Span} {frame : Frame} {copy : Ref} {v : World}
    (run : takenOver ref span frame w = (.value copy, v)) : w.store.datum ref ≠ .bare := by
  intro bare
  change (w.store.object ref).datum = .bare at bare
  obtain ⟨_, _, copied, -⟩ := exists_of_bind run
  obtain ⟨_, _, worked, given⟩ := exists_of_bind copied
  have stuck : w.store.copy ref = (.error .noCopy, w.store) := by
    simp only [Store.copy, bare]
  rw [withStore, stuck] at worked
  cases worked
  cases given

end Eval

/-- Whether a node is a name or a constant. -/
def Node.isPlain : Node → Bool
  | .access _ => true
  | .number _ _ => true
  | .truth _ _ => true
  | .text _ _ => true
  | _ => false

namespace Evaluator

open Eval

variable {frame : Frame} {w v : World} {fuel : Nat} {nodes : List Node} {refs : List Ref}

theorem exists_of_all {self : Evaluator} {node : Node}
    (run : self.all frame (node :: nodes) w = (.value refs, v)) :
    ∃ first rest u, refs = first :: rest ∧ self node frame w = (.value first, u) ∧
      self.all frame nodes u = (.value rest, v) := by
  obtain ⟨first, u, one, more⟩ := exists_of_bind run
  obtain ⟨rest, last, others, done⟩ := exists_of_bind more
  cases done
  exact ⟨first, rest, u, rfl, one, others⟩

/-- A call gets its callee first and then its arguments, as nodes in a row. -/
theorem call_of_all {self : Evaluator} {callee : Node} {ref : Ref} (span : Span)
    (run : self.all frame (callee :: nodes) w = (.value (ref :: refs), v)) :
    ∃ u, self callee frame w = (.value ref, u) ∧
      self.all frame nodes u = (.value refs, v) ∧
      self.call callee nodes span frame w =
        (self.invoke (u.store.object ref) refs span >>= fun result =>
          takenOver result span frame) v := by
  obtain ⟨_, _, u, same, first, others⟩ := exists_of_all run
  cases same
  refine ⟨u, first, others, ?_⟩
  have found : object ref u = (.value (u.store.object ref), u) := rfl
  rw [call, bind_of_value first, bind_of_value found, bind_of_value others]

/-- A name that means something is read by copying. -/
theorem exists_of_access {name : Name} {ref copy : Ref}
    (found : w.store.find? frame.scope name.text = some ref) (solid : w.store.datum ref ≠ .bare)
    (run : eval fuel (.access name) frame w = (.value copy, v)) :
    v.store.object copy =
        { w.store.object ref with span := some name.span, frame := some frame } ∧
      w.Becomes v w.store.contents ∧ v.store.scopes = w.store.scopes := by
  cases fuel with
  | zero => cases run
  | succ fuel =>
      change access name frame w = _ at run
      obtain ⟨_, _, copied, object, becomes, scopes⟩ := exists_takenOver solid name.span frame
      rw [access_of_some found, copied] at run
      cases run
      exact ⟨object, becomes, scopes⟩

/-- Names and constants have their values without changing anything. -/
theorem becomes_of_plain {node : Node} {ref : Ref} (plain : node.isPlain = true)
    (run : eval fuel node frame w = (.value ref, v)) : w.Becomes v w.store.contents := by
  cases fuel with
  | zero => cases run
  | succ fuel =>
      cases node with
      | access name =>
          have read : access name frame w = (.value ref, v) := run
          cases found : w.store.find? frame.scope name.text with
          | none =>
              rw [access_of_none found] at read
              cases read
          | some bound =>
              rw [access_of_some found] at read
              exact (exists_of_access found (solid_of_takenOver read) run).2.1
      | number | truth | text =>
          cases run
          exact World.becomes_of_keeps ((Store.Keeps.refl w.store).alloc _)
      | _ => cases plain

theorem becomes_all (plain : ∀ node ∈ nodes, node.isPlain = true)
    (run : all (eval fuel) frame nodes w = (.value refs, v)) : w.Becomes v w.store.contents := by
  induction nodes generalizing w refs with
  | nil =>
      cases run
      exact World.becomes_of_keeps (.refl _)
  | cons node nodes ih =>
      obtain ⟨_, _, u, -, first, others⟩ := exists_of_all run
      have here := becomes_of_plain (plain node List.mem_cons_self) first
      have later := ih (fun other member => plain other (List.mem_cons_of_mem _ member))
        others
      rw [here.contents] at later
      exact here.trans later

theorem keeps_bindArguments {s t : Store} (keeps : s.Keeps t)
    (new : s.scopes.size ≤ frame.scope.index) (names : List String) (refs : List Ref) :
    s.Keeps (bindArguments frame names refs t) := by
  induction names generalizing refs t with
  | nil => exact keeps
  | cons name names ih =>
      cases refs with
      | nil => exact keeps
      | cons ref refs =>
          have framed : s.Keeps (t.setFrame ref frame) := by
            apply keeps.modify
            intro o
            rfl
          exact ih (framed.bind new name ref) refs

theorem storages_bindArguments (names : List String) (refs : List Ref) (t : Store) :
    (bindArguments frame names refs t).storages = t.storages := by
  induction names generalizing refs t with
  | nil => rfl
  | cons name names ih =>
      cases refs with
      | nil => rfl
      | cons ref refs => exact ih refs _

/-- Entering a procedure changes nothing that was there. -/
theorem exists_enter {callee : Object} {caller : Frame} (owned : callee.frame = some caller)
    {parameters : List String} (fits : refs.length = parameters.length) (name : String)
    (span : Span) (w : World) :
    ∃ frame t, enter callee name parameters refs span w = (.value frame, { w with store := t }) ∧
      w.store.Keeps t ∧ t.storages = w.store.storages := by
  obtain ⟨datum, place, owner⟩ := callee
  cases owned
  have pushed : withStore (fun store => store.pushScope caller.scope) w =
      (.value (w.store.pushScope caller.scope).1,
        { w with store := (w.store.pushScope caller.scope).2 }) := rfl
  let frame := Frame.call name span.start caller (w.store.pushScope caller.scope).1
  refine ⟨frame, bindArguments frame parameters refs (w.store.pushScope caller.scope).2, ?_, ?_,
    storages_bindArguments _ _ _⟩
  · unfold enter
    dsimp only
    rw [bind_of_value pushed, if_neg (by omega), if_neg (by omega)]
    rfl
  · exact keeps_bindArguments ((Store.Keeps.refl w.store).pushScope _) (Nat.le_refl _) _ _

/-- The nodes of a row leave a well-formed store. -/
theorem wellFormed_all (wellFormed : w.store.WellFormed)
    (inside : frame.scope.index < w.store.scopes.size)
    (run : all (eval fuel) frame nodes w = (.value refs, v)) : v.store.WellFormed := by
  let i := wellFormedness fun _ _ _ => false
  have lockstep := i.coupling.lockstep_eval (Nat.le_refl fuel)
  rw [show evalUnless i.coupling.barred fuel = eval fuel from evalUnless_never fuel] at lockstep
  have worlds : i.coupling.Worlds w.store.extent w w :=
    Invariant.worlds_refl ⟨rfl, wellFormed⟩
  have alike : List.Forall₂ i.coupling.Nodes nodes nodes := List.forall₂_same.mpr fun _ _ => rfl
  have frames : i.coupling.Frames w.store.extent frame frame := ⟨rfl, inside⟩
  have outcomes := Accord.rel_all lockstep (b := false) alike frames w w worlds
  rw [run] at outcomes
  have equal : ∀ later rs rs', i.coupling.accord.RefLists later rs rs' → rs = rs' := by
    intro later rs rs' lists
    exact List.forall₂_eq_eq_eq ▸ lists.imp fun _ _ refs => refs.1
  obtain ⟨_, later, _, _, after⟩ := Invariant.eq_of_outcomes outcomes equal nofun
  exact after

/-- The nodes of a row lead to a sound store, of which their values are objects. -/
theorem leads_all (sound : w.store.Sound)
    (run : all (eval fuel) frame nodes w = (.value refs, v)) :
    w.store.Leads v.store ∧ ∀ ref ∈ refs, ref.index < v.store.objects.size := by
  have watched := (watches_eval (Nat.le_refl fuel)).all sound nodes frame
  rw [run] at watched
  obtain ⟨refs', lists⟩ := watched.value
  cases Pairing.eq_of_forall₂ lists fun _ _ within => within.1
  exact ⟨watched.leads, fun ref member => (List.forall₂_same.mp lists ref member).2⟩

end Evaluator

/-! ## Calls -/

/-- A call of a built-in procedure by its name. -/
structure Call where
  procedure : Builtin
  /-- The place of the name. -/
  mark : Span
  arguments : List Node
  /-- The place of the call. -/
  span : Span

namespace Call

open Evaluator

variable {c : Call} {fuel : Nat} {frame : Frame} {w v : World} {refs : List Ref} {l : Name}
  {storage : StorageId} {list : Ref}

/-- The name that is called. -/
def name (c : Call) : Name :=
  ⟨c.procedure.globalName, c.mark⟩

/-- The call in a program. -/
def node (c : Call) : Node :=
  .call (.access c.name) c.arguments c.span

/-- The first argument is a variable. -/
def Takes (c : Call) (l : Name) : Prop :=
  ∃ others, c.arguments = .access l :: others

/-- In the first world the name of the procedure means the procedure.  When the name and the
arguments have been evaluated in order, the procedure starts with these values in the second. -/
structure Starts (c : Call) (fuel : Nat) (frame : Frame) (w : World) (refs : List Ref)
    (v : World) : Prop where
  means : ∃ ref, w.store.find? frame.scope c.procedure.globalName = some ref ∧
    w.store.datum ref = .builtin c.procedure
  values : ∃ callee, all (eval fuel) frame (.access c.name :: c.arguments) w =
    (.value (callee :: refs), v)

/-- The call has a value with the given datum, and the storages then have the given contents. -/
def Gives (c : Call) (fuel : Nat) (frame : Frame) (w v : World) (datum : Datum)
    (now : StorageId → List Ref) : Prop :=
  ∃ result after, eval (fuel + 1) c.node frame w = (.value result, after) ∧
    after.store.datum result = datum ∧ v.Becomes after now

/-- The call ends in an error of the running program, at the call, and nothing changes. -/
def Refuses (c : Call) (fuel : Nat) (frame : Frame) (w v : World) (problem : RuntimeProblem) :
    Prop :=
  ∃ activation after, eval (fuel + 1) c.node frame w =
      (.error ⟨.runtime problem activation, some c.span⟩, after) ∧
    v.Becomes after v.store.contents

theorem Starts.wellFormed (starts : c.Starts fuel frame w refs v)
    (wellFormed : w.store.WellFormed) : v.store.WellFormed := by
  obtain ⟨ref, found, -⟩ := starts.means
  obtain ⟨callee, run⟩ := starts.values
  exact wellFormed_all wellFormed (Store.scope_lt_of_find? found) run

theorem Starts.leads (starts : c.Starts fuel frame w refs v) (sound : w.store.Sound) :
    w.store.Leads v.store ∧ ∀ ref ∈ refs, ref.index < v.store.objects.size := by
  obtain ⟨callee, run⟩ := starts.values
  obtain ⟨leads, inside⟩ := leads_all sound run
  exact ⟨leads, fun ref member => inside ref (List.mem_cons_of_mem _ member)⟩

/-- Where the arguments are names and constants, nothing changes before the procedure starts. -/
theorem Starts.becomes (starts : c.Starts fuel frame w refs v)
    (plain : ∀ node ∈ c.arguments, node.isPlain = true) : w.Becomes v w.store.contents := by
  obtain ⟨callee, run⟩ := starts.values
  exact becomes_all (List.forall_mem_cons.mpr ⟨rfl, plain⟩) run

/-- A variable that means a list is handed over as a list with the same storage. -/
theorem Starts.isList (starts : c.Starts fuel frame w (list :: refs) v) (takes : c.Takes l)
    (sound : w.store.Sound) (bound : w.store.ListAt frame.scope l.text storage) :
    v.store.datum list = .list storage := by
  obtain ⟨builtin, named, isBuiltin⟩ := starts.means
  obtain ⟨callee, run⟩ := starts.values
  obtain ⟨others, arguments⟩ := takes
  obtain ⟨ref, found, isList⟩ := bound
  rw [arguments] at run
  obtain ⟨_, _, u, same, first, run⟩ := exists_of_all run
  cases same
  obtain ⟨_, _, t, same, second, run⟩ := exists_of_all run
  cases same
  have solid : w.store.datum builtin ≠ .bare := by
    rw [isBuiltin]
    exact nofun
  obtain ⟨-, becomes, scopes⟩ := exists_of_access named solid first
  have isList : u.store.datum ref = .list storage := becomes.keeps.datum_eq isList nofun
  have found : u.store.find? frame.scope l.text = some ref := by
    rw [Store.find?, scopes]
    exact found
  have solid : u.store.datum ref ≠ .bare := by
    rw [isList]
    exact nofun
  obtain ⟨copied, -, -⟩ := exists_of_access found solid second
  have isList : t.store.datum list = .list storage := by
    rw [Store.datum, copied]
    exact isList
  -- The other arguments come after the copy and may do anything, but no object changes its datum.
  have watches := watches_eval (Nat.le_refl fuel)
  have toU := watches.leads sound (.access c.name) frame
  rw [first] at toU
  have toT := watches.leads toU.sound (.access l) frame
  rw [second] at toT
  have inside : list.index < t.store.objects.size :=
    Store.index_lt_of_solid (by rw [isList]; exact nofun)
  rw [(leads_all toT.sound run).1.data list inside, isList]

/-- When a procedure starts, nothing has been changed by entering it. -/
theorem Starts.exists_perform (starts : c.Starts fuel frame w refs v)
    (fits : refs.length = c.procedure.parameters.length) :
    ∃ runSource site t, site.span = c.span ∧ v.store.Keeps t ∧ t.storages = v.store.storages ∧
      eval (fuel + 1) c.node frame w =
        (c.procedure.perform runSource site refs >>= fun result =>
          Eval.takenOver result c.span frame) { v with store := t } := by
  obtain ⟨builtin, named, isBuiltin⟩ := starts.means
  obtain ⟨callee, run⟩ := starts.values
  obtain ⟨u, first, -, called⟩ := call_of_all c.span run
  have solid : w.store.datum builtin ≠ .bare := by
    rw [isBuiltin]
    exact nofun
  obtain ⟨copied, -, -⟩ := exists_of_access named solid first
  -- Reading the name has given the procedure the activation of the call to look for names in.
  have owned : (u.store.object callee).frame = some frame := by rw [copied]
  have datum : (u.store.object callee).datum = .builtin c.procedure := by
    rw [copied]
    exact isBuiltin
  obtain ⟨activation, t, entered, keeps, storages⟩ :=
    exists_enter owned fits c.procedure.name c.span v
  refine ⟨fun source => discard (runSource (eval fuel) source), ⟨c.span, activation⟩, t, rfl,
    keeps, storages, called.trans ?_⟩
  unfold invoke
  rw [datum]
  dsimp only
  rw [bind_assoc, Eval.bind_of_value entered]

/-- A call has the value that the procedure gives, copied. -/
theorem Starts.gives (starts : c.Starts fuel frame w refs v)
    (fits : refs.length = c.procedure.parameters.length) {datum : Datum} (solid : datum ≠ .bare)
    {now : StorageId → List Ref}
    (performs : ∀ runSource site t, v.store.Keeps t → t.storages = v.store.storages →
      ∃ result u, c.procedure.perform runSource site refs { v with store := t } =
          (.value result, u) ∧
        u.store.datum result = datum ∧ World.Becomes { v with store := t } u now) :
    c.Gives fuel frame w v datum now := by
  obtain ⟨runSource, site, t, -, keeps, storages, same⟩ := starts.exists_perform fits
  obtain ⟨result, u, performed, isDatum, becomes⟩ := performs runSource site t keeps storages
  have copyable : u.store.datum result ≠ .bare := by rwa [isDatum]
  obtain ⟨copy, after, copied, object, unchanged, -⟩ :=
    Eval.exists_takenOver copyable c.span frame
  rw [becomes.contents] at unchanged
  refine ⟨copy, after, ?_, ?_, ((World.becomes_of_keeps keeps).trans becomes).trans unchanged⟩
  · rw [same, Eval.bind_of_value performed, copied]
  · rw [Store.datum, object]
    exact isDatum

/-- A call is refused if the procedure is. -/
theorem Starts.refuses (starts : c.Starts fuel frame w refs v)
    (fits : refs.length = c.procedure.parameters.length) {problem : RuntimeProblem}
    (performs : ∀ runSource site t, v.store.Keeps t → t.storages = v.store.storages →
      c.procedure.perform runSource site refs { v with store := t } =
        Site.fail site problem { v with store := t }) :
    c.Refuses fuel frame w v problem := by
  obtain ⟨runSource, site, t, place, keeps, storages, same⟩ := starts.exists_perform fits
  have failed : c.procedure.perform runSource site refs { v with store := t } =
      (.error ⟨.runtime problem (some site.frame), some c.span⟩, { v with store := t }) := by
    rw [performs runSource site t keeps storages, ← place]
    rfl
  refine ⟨some site.frame, { v with store := t }, ?_, ?_⟩
  · rw [same, Eval.bind_of_error failed]
  · rw [← Store.contents_congr storages]
    exact World.becomes_of_keeps keeps

end Call
end Pseudocode
