import Mathlib.Data.List.Forall2
import Pseudocode.Eval.Node

/-!
# Things that answer to each other

Two runs of an evaluator are compared by saying which nodes, storages, activations and objects of
the one answer to which of the other.  Relations between these are carried over here to what is made
of them: to trees, data, objects and endings, and to lists.
-/

namespace Pseudocode

/-! ## Things of one kind -/

/-- Nodes of one kind whose parts answer to each other.  What answers to what may be something else
for the bodies of loops and for those of procedures than for other parts. -/
inductive Node.Paired (Parts Rounds Bodies : Node → Node → Prop) (Spans : Span → Span → Prop) :
    Node → Node → Prop
  | number {s t : Span} (value : Number) (spans : Spans s t) :
      Paired Parts Rounds Bodies Spans (.number value s) (.number value t)
  | truth {s t : Span} (value : Bool) (spans : Spans s t) :
      Paired Parts Rounds Bodies Spans (.truth value s) (.truth value t)
  | text {s t : Span} (value : String) (spans : Spans s t) :
      Paired Parts Rounds Bodies Spans (.text value s) (.text value t)
  | list {ns ms : List Node} {s t : Span} (elements : List.Forall₂ Parts ns ms)
      (spans : Spans s t) : Paired Parts Rounds Bodies Spans (.list ns s) (.list ms t)
  | access {x y : Name} (texts : x.text = y.text) (spans : Spans x.span y.span) :
      Paired Parts Rounds Bodies Spans (.access x) (.access y)
  | assign {x y : Name} {n m : Node} {s t : Span} (texts : x.text = y.text) (values : Parts n m) :
      Paired Parts Rounds Bodies Spans (.assign x n s) (.assign y m t)
  | binary {l l' r r' : Node} {s s' t t' : Span} (op : BinaryOp) (lefts : Parts l l')
      (rights : Parts r r') (spans : Spans t t') :
      Paired Parts Rounds Bodies Spans (.binary l op s r t) (.binary l' op s' r' t')
  | unary {n m : Node} {s s' t t' : Span} (op : UnaryOp) (operands : Parts n m)
      (spans : Spans t t') :
      Paired Parts Rounds Bodies Spans (.unary op s n t) (.unary op s' m t')
  | branch {n n' b b' : Node} {cs ds : List (Node × Node)} {e e' : Option Node} {s t : Span}
      (conditions : Parts n n') (bodies : Parts b b')
      (others : List.Forall₂ (fun c d => Parts c.1 d.1 ∧ Parts c.2 d.2) cs ds)
      (otherwise : Option.Rel Parts e e') :
      Paired Parts Rounds Bodies Spans (.branch n b cs e s) (.branch n' b' ds e' t)
  | forEach {x y : Name} {l l' b b' : Node} {s t : Span} (texts : x.text = y.text)
      (lists : Parts l l') (bodies : Rounds b b') :
      Paired Parts Rounds Bodies Spans (.forEach x l b s) (.forEach y l' b' t)
  | whileLoop {n n' b b' : Node} {s t : Span} (conditions : Parts n n') (bodies : Rounds b b') :
      Paired Parts Rounds Bodies Spans (.whileLoop n b s) (.whileLoop n' b' t)
  | untilLoop {n n' b b' : Node} {s t : Span} (conditions : Parts n n') (bodies : Rounds b b') :
      Paired Parts Rounds Bodies Spans (.untilLoop n b s) (.untilLoop n' b' t)
  | repeatFixed {b b' : Node} {s s' t t' : Span} (count : Nat) (bodies : Rounds b b') :
      Paired Parts Rounds Bodies Spans (.repeatFixed count s b t) (.repeatFixed count s' b' t')
  | repeatBy {n n' b b' : Node} {s t : Span} (counts : Parts n n') (bodies : Rounds b b') :
      Paired Parts Rounds Bodies Spans (.repeatBy n b s) (.repeatBy n' b' t)
  | procedure {x y : Option Name} {ps qs : List Name} {b b' : Node} {s t : Span}
      (names : Option.Rel (fun a b => a.text = b.text) x y)
      (parameters : ps.map Name.text = qs.map Name.text) (bodies : Bodies b b')
      (spans : Spans s t) :
      Paired Parts Rounds Bodies Spans (.procedure x ps b s) (.procedure y qs b' t)
  | call {n m : Node} {ns ms : List Node} {s t : Span} (callees : Parts n m)
      (arguments : List.Forall₂ Parts ns ms) (spans : Spans s t) :
      Paired Parts Rounds Bodies Spans (.call n ns s) (.call m ms t)
  | returning {n m : Option Node} {s t : Span} (values : Option.Rel Parts n m) :
      Paired Parts Rounds Bodies Spans (.returning n s) (.returning m t)
  | continuing {s t : Span} : Paired Parts Rounds Bodies Spans (.continuing s) (.continuing t)
  | breaking {s t : Span} : Paired Parts Rounds Bodies Spans (.breaking s) (.breaking t)

/-- Data of one kind whose parts answer to each other. -/
inductive Datum.Paired (Bodies : Node → Node → Prop) (Storages : StorageId → StorageId → Prop) :
    Datum → Datum → Prop
  | number (value : Number) : Paired Bodies Storages (.number value) (.number value)
  | truth (value : Bool) : Paired Bodies Storages (.truth value) (.truth value)
  | text (value : String) : Paired Bodies Storages (.text value) (.text value)
  | list {t u : StorageId} (storages : Storages t u) : Paired Bodies Storages (.list t) (.list u)
  | procedure {n m : Node} (name : String) (parameters : List String) (bodies : Bodies n m) :
      Paired Bodies Storages (.procedure ⟨name, parameters, n⟩) (.procedure ⟨name, parameters, m⟩)
  | builtin (value : Builtin) : Paired Bodies Storages (.builtin value) (.builtin value)
  | bare : Paired Bodies Storages .bare .bare

/-- Objects whose parts answer to each other. -/
structure Object.Paired (Data : Datum → Datum → Prop) (Spans : Span → Span → Prop)
    (Owners : Frame → Frame → Prop) (o p : Object) : Prop where
  data : Data o.datum p.datum
  spans : Option.Rel Spans o.span p.span
  frames : Option.Rel Owners o.frame p.frame

/-- Signals that answer to each other. -/
inductive Signal.Paired (Refs : Ref → Ref → Prop) : Signal → Signal → Prop
  | returning {r r' : Ref} (refs : Refs r r') : Paired Refs (.returning r) (.returning r')
  | breaking : Paired Refs .breaking .breaking
  | continuing : Paired Refs .continuing .continuing

/-- Endings that answer to each other. -/
inductive Ending.Paired {α : Type} (Results : α → α → Prop) (Signals : Signal → Signal → Prop)
    (Errors : Diagnostic → Diagnostic → Prop) : Ending α → Ending α → Prop
  | value {a b : α} (results : Results a b) : Paired Results Signals Errors (.value a) (.value b)
  | signal {s t : Signal} (signals : Signals s t) :
      Paired Results Signals Errors (.signal s) (.signal t)
  | error {d e : Diagnostic} (errors : Errors d e) :
      Paired Results Signals Errors (.error d) (.error e)
  | fault (fault : Fault) : Paired Results Signals Errors (.fault fault) (.fault fault)

/-! ## What endings are handled by -/

/-- What handles endings so that errors and faults stay what they are. -/
structure Ending.Passes {α β : Type} (handle : Ending α × World → Ending β × World) : Prop where
  error : ∀ diagnostic after, handle (.error diagnostic, after) = (.error diagnostic, after)
  fault : ∀ fault after, handle (.fault fault, after) = (.fault fault, after)

namespace Eval

variable {α β : Type} (w : World)

theorem passes_bind (next : α → Eval β) :
    Ending.Passes fun o : Ending α × World => Eval.bind (fun _ => o) next w :=
  ⟨fun _ _ => rfl, fun _ _ => rfl⟩

theorem passes_callBody : Ending.Passes fun o : Ending α × World => callBody (fun _ => o) w :=
  ⟨fun _ _ => rfl, fun _ _ => rfl⟩

theorem passes_round : Ending.Passes fun o : Ending α × World => round (fun _ => o) w :=
  ⟨fun _ _ => rfl, fun _ _ => rfl⟩

theorem passes_program : Ending.Passes fun o : Ending α × World => program (fun _ => o) w :=
  ⟨fun _ _ => rfl, fun _ _ => rfl⟩

end Eval

namespace Pairing

/-! ## Options -/

section

variable {α : Type} {R S : α → α → Prop} {x y : Option α}

theorem rel_imp (related : Option.Rel R x y) (imp : ∀ a b, R a b → S a b) : Option.Rel S x y := by
  cases related with
  | none => exact .none
  | some holds => exact .some (imp _ _ holds)

theorem rel_refl (refl : ∀ a, x = some a → R a a) : Option.Rel R x x := by
  cases x with
  | none => exact .none
  | some a => exact .some (refl a rfl)

theorem rel_eq (related : Option.Rel R x y) (same : ∀ a b, R a b → a = b) : x = y := by
  cases related with
  | none => rfl
  | some holds => rw [same _ _ holds]

end

/-! ## Lists -/

section

variable {α : Type}

/-- Lists of things that answer to each other. -/
def Lists (R : α → α → Prop) (xs ys : Array α) : Prop :=
  List.Forall₂ R xs.toList ys.toList

variable {R : α → α → Prop} {xs ys us vs : Array α}

theorem Lists.size_eq (lists : Lists R xs ys) : xs.size = ys.size :=
  lists.length_eq

/-- Lists answer to each other only if they are the same, if that is so for their members. -/
theorem eq_of_forall₂ {xs ys : List α} (lists : List.Forall₂ R xs ys)
    (same : ∀ a b, R a b → a = b) : xs = ys := by
  rw [← List.forall₂_eq_eq_eq]
  exact lists.imp same

theorem Lists.eq (lists : Lists R xs ys) (same : ∀ a b, R a b → a = b) : xs = ys :=
  Array.toList_inj.mp (eq_of_forall₂ lists same)

theorem Lists.getElem? (lists : Lists R xs ys) (i : Nat) : Option.Rel R xs[i]? ys[i]? := by
  obtain ⟨xs⟩ := xs
  obtain ⟨ys⟩ := ys
  change List.Forall₂ R xs ys at lists
  rw [List.getElem?_toArray, List.getElem?_toArray]
  induction lists generalizing i with
  | nil => exact .none
  | cons first _ ih =>
      cases i with
      | zero => exact .some first
      | succ i => simpa using ih i

theorem lists_of_getElem? (related : ∀ i : Nat, Option.Rel R xs[i]? ys[i]?) : Lists R xs ys := by
  obtain ⟨xs⟩ := xs
  obtain ⟨ys⟩ := ys
  change List.Forall₂ R xs ys
  simp only [List.getElem?_toArray] at related
  induction xs generalizing ys with
  | nil =>
      cases ys with
      | nil => exact .nil
      | cons y ys => cases related 0
  | cons x xs ih =>
      cases ys with
      | nil => cases related 0
      | cons y ys =>
          cases related 0 with
          | some first => exact .cons first (ih ys fun i => by simpa using related (i + 1))

theorem Lists.modify {f g : α → α} (lists : Lists R xs ys)
    (changes : ∀ a b, R a b → R (f a) (g b)) (place : Nat) :
    Lists R (xs.modify place f) (ys.modify place g) := by
  apply lists_of_getElem?
  intro i
  rw [Array.getElem?_modify, Array.getElem?_modify]
  have related := lists.getElem? i
  split
  · generalize xs[i]? = x at related ⊢
    generalize ys[i]? = y at related ⊢
    cases related with
    | none => exact .none
    | some holds => exact .some (changes _ _ holds)
  · exact related

theorem Lists.append (first : Lists R xs ys) (second : Lists R us vs) :
    Lists R (xs ++ us) (ys ++ vs) := by
  rw [Lists, Array.toList_append, Array.toList_append]
  exact List.rel_append first second

theorem Lists.push {a b : α} (lists : Lists R xs ys) (last : R a b) :
    Lists R (xs.push a) (ys.push b) := by
  rw [Lists, Array.toList_push, Array.toList_push]
  exact List.rel_append lists (.cons last .nil)

theorem Lists.erase (lists : Lists R xs ys) (place : Nat) :
    Lists R (xs.eraseIdxIfInBounds place) (ys.eraseIdxIfInBounds place) := by
  rw [Lists, Array.toList_eraseIdxIfInBounds, Array.toList_eraseIdxIfInBounds,
    List.eraseIdx_eq_take_drop_succ, List.eraseIdx_eq_take_drop_succ]
  exact List.rel_append (List.forall₂_take place lists) (List.forall₂_drop (place + 1) lists)

theorem forall₂_insertIdx {xs ys : List α} {a b : α} (lists : List.Forall₂ R xs ys)
    (new : R a b) (place : Nat) : List.Forall₂ R (xs.insertIdx place a) (ys.insertIdx place b) := by
  induction lists generalizing place with
  | nil =>
      cases place with
      | zero => exact .cons new .nil
      | succ place => exact .nil
  | cons first rest ih =>
      cases place with
      | zero => exact .cons new (.cons first rest)
      | succ place => exact .cons first (ih place)

end

theorem Lists.insert {R : Ref → Ref → Prop} {xs ys : Array Ref} {a b : Ref}
    (lists : Lists R xs ys) (new : R a b) (place : Nat) :
    Lists R (Builtin.insertAt xs place a) (Builtin.insertAt ys place b) := by
  obtain ⟨xs⟩ := xs
  obtain ⟨ys⟩ := ys
  rw [Builtin.insertAt, Builtin.insertAt, List.insertIdxIfInBounds_toArray,
    List.insertIdxIfInBounds_toArray]
  exact forall₂_insertIdx lists new place

end Pairing

/-! ## Things that answer to themselves -/

section

variable {Nodes Nodes' : Node → Node → Prop} {Spans Spans' : Span → Span → Prop}
variable {Storages Storages' : StorageId → StorageId → Prop}
variable {Owners Owners' : Frame → Frame → Prop}

theorem Node.Paired.refl (nodes : ∀ n, Nodes n n) (spans : ∀ s, Spans s s) (n : Node) :
    Node.Paired Nodes Nodes Nodes Spans n n := by
  have all (ns : List Node) : List.Forall₂ Nodes ns ns :=
    List.forall₂_same.mpr fun n _ => nodes n
  have any (n : Option Node) : Option.Rel Nodes n n := Pairing.rel_refl fun n _ => nodes n
  cases n with
  | number value span => exact .number value (spans span)
  | truth value span => exact .truth value (spans span)
  | text value span => exact .text value (spans span)
  | list elements span => exact .list (all elements) (spans span)
  | access name => exact .access rfl (spans name.span)
  | assign name value span => exact .assign rfl (nodes value)
  | binary left op mark right span => exact .binary op (nodes left) (nodes right) (spans span)
  | unary op mark operand span => exact .unary op (nodes operand) (spans span)
  | branch condition body others otherwise span =>
      have guards : List.Forall₂ (fun c d => Nodes c.1 d.1 ∧ Nodes c.2 d.2) others others :=
        List.forall₂_same.mpr fun c _ => ⟨nodes c.1, nodes c.2⟩
      exact .branch (nodes condition) (nodes body) guards (any otherwise)
  | forEach name list body span => exact .forEach rfl (nodes list) (nodes body)
  | whileLoop condition body span => exact .whileLoop (nodes condition) (nodes body)
  | untilLoop condition body span => exact .untilLoop (nodes condition) (nodes body)
  | repeatFixed count mark body span => exact .repeatFixed count (nodes body)
  | repeatBy count body span => exact .repeatBy (nodes count) (nodes body)
  | procedure name parameters body span =>
      exact .procedure (Pairing.rel_refl fun _ _ => rfl) rfl (nodes body) (spans span)
  | call callee arguments span => exact .call (nodes callee) (all arguments) (spans span)
  | returning value span => exact .returning (any value)
  | continuing span => exact .continuing
  | breaking span => exact .breaking

theorem Datum.Paired.refl {d : Datum} (nodes : ∀ n, Nodes n n)
    (storages : ∀ t, d = .list t → Storages t t) : Datum.Paired Nodes Storages d d := by
  cases d with
  | list t => exact .list (storages t rfl)
  | procedure value => exact .procedure value.name value.parameters (nodes value.body)
  | number | truth | text | builtin | bare => constructor

theorem Datum.Paired.eq {d d' : Datum} (data : Datum.Paired Nodes Storages d d')
    (nodes : ∀ n m, Nodes n m → n = m) (storages : ∀ t u, Storages t u → t = u) : d = d' := by
  cases data with
  | list related => rw [storages _ _ related]
  | procedure name parameters bodies => rw [nodes _ _ bodies]
  | number | truth | text | builtin | bare => rfl

theorem Datum.Paired.imp {d d' : Datum} (data : Datum.Paired Nodes Storages d d')
    (nodes : ∀ n m, Nodes n m → Nodes' n m) (storages : ∀ t u, Storages t u → Storages' t u) :
    Datum.Paired Nodes' Storages' d d' := by
  cases data with
  | list related => exact .list (storages _ _ related)
  | procedure name parameters bodies => exact .procedure name parameters (nodes _ _ bodies)
  | number | truth | text | builtin | bare => constructor

theorem Object.Paired.imp {o p : Object}
    (objects : Object.Paired (Datum.Paired Nodes Storages) Spans Owners o p)
    (nodes : ∀ n m, Nodes n m → Nodes' n m) (spans : ∀ s t, Spans s t → Spans' s t)
    (storages : ∀ t u, Storages t u → Storages' t u) (owners : ∀ f g, Owners f g → Owners' f g) :
    Object.Paired (Datum.Paired Nodes' Storages') Spans' Owners' o p :=
  ⟨objects.data.imp nodes storages, Pairing.rel_imp objects.spans spans,
    Pairing.rel_imp objects.frames owners⟩

theorem Ending.Paired.refl {α : Type} {R : α → α → Prop} {ending : Ending α}
    (results : ∀ a, ending = .value a → R a a) : Ending.Paired R Eq Eq ending ending := by
  cases ending with
  | value a => exact .value (results a rfl)
  | signal signal => exact .signal rfl
  | error diagnostic => exact .error rfl
  | fault fault => exact .fault fault

theorem Object.Paired.refl {Data : Datum → Datum → Prop} {o : Object} (data : Data o.datum o.datum)
    (spans : ∀ s, Spans s s) (owners : ∀ f, Owners f f) : Object.Paired Data Spans Owners o o :=
  ⟨data, Pairing.rel_refl fun s _ => spans s, Pairing.rel_refl fun f _ => owners f⟩

theorem Object.Paired.eq {o p : Object} (objects : Object.Paired (Datum.Paired Eq Eq) Eq Eq o p) :
    o = p := by
  obtain ⟨datum, span, frame⟩ := o
  obtain ⟨datum', span', frame'⟩ := p
  obtain rfl : datum = datum' := objects.data.eq (fun _ _ => id) fun _ _ => id
  obtain rfl : span = span' := Pairing.rel_eq objects.spans fun _ _ => id
  obtain rfl : frame = frame' := Pairing.rel_eq objects.frames fun _ _ => id
  rfl

end

end Pseudocode
