import Pseudocode.Proofs.Parsing.Soundness
import Pseudocode.Proofs.Scanning.Ordering

/-!
# Nodes inside nodes

The stretch of source that a node is reported at holds the stretches of its parts, with one
exception: a branch without `ELSE` ends with its last condition, and its last body lies behind it.

The stretches of lists, of statement sequences and of `RETURN`, `CONTINUE` and `BREAK` reach to the
end of the token behind them, so a node may overlap with the sign that follows it, but never with
the next part.  Whatever the symbol, a reading gives a row of nodes that stand one behind the other.
-/

namespace Pseudocode

/-! ## The parts of a node -/

namespace Node

/-- The nodes that a node is made of, in the order in which they stand. -/
def parts : Node → List Node
  | number _ _ => []
  | truth _ _ => []
  | text _ _ => []
  | list elements _ => elements
  | access _ => []
  | assign _ value _ => [value]
  | binary left _ _ right _ => [left, right]
  | unary _ _ operand _ => [operand]
  | branch condition body others otherwise _ =>
      condition :: body :: (others.flatMap fun guard => [guard.1, guard.2]) ++ otherwise.toList
  | forEach _ items body _ => [items, body]
  | whileLoop condition body _ => [condition, body]
  | untilLoop condition body _ => [condition, body]
  | repeatFixed _ _ body _ => [body]
  | repeatBy count body _ => [count, body]
  | procedure _ _ body _ => [body]
  | call callee arguments _ => callee :: arguments
  | returning value _ => value.toList
  | continuing _ => []
  | breaking _ => []

/-- The last body of a branch without `ELSE`. -/
def lastBody? : Node → Option Node
  | branch _ body others none _ => some ((others.getLast?.map Prod.snd).getD body)
  | _ => none

/-- The nodes of a tree: the tree itself and the parts of its nodes. -/
inductive Holds (tree : Node) : Node → Prop where
  | self : Holds tree tree
  | part {n part : Node} (holds : Holds tree n) (isPart : part ∈ n.parts) : Holds tree part

/-- The stretch of a node lies in that of another one. -/
def Inside (part whole : Node) : Prop :=
  whole.start.index ≤ part.start.index ∧ part.stop.index ≤ whole.stop.index

instance (part whole : Node) : Decidable (part.Inside whole) :=
  inferInstanceAs (Decidable (_ ∧ _))

/-- A node that starts before it stops and has its parts inside, all but the last body of a branch
without `ELSE`. -/
structure Spans (n : Node) : Prop where
  ordered : n.start.index < n.stop.index
  inside : ∀ part ∈ n.parts, part.Inside n ∨ n.lastBody? = some part
  outside : ∀ part, n.lastBody? = some part → ¬ part.Inside n

/-- A tree all nodes of which have their parts inside. -/
inductive Sound : Node → Prop where
  | intro {n : Node} (spans : n.Spans) (parts : ∀ part ∈ n.parts, part.Sound) : Sound n

theorem Sound.spans {tree n : Node} (sound : tree.Sound) (holds : tree.Holds n) : n.Spans := by
  have inner : n.Sound := by
    induction holds with
    | self => exact sound
    | part _ isPart ih =>
        cases ih with
        | intro _ parts => exact parts _ isPart
  cases inner with
  | intro spans _ => exact spans

/-- The conditions and bodies of a branch without `ELSE` end with its last condition, which the
branch is taken to end with, and its last body. -/
theorem exists_lastBody? (condition body : Node) (others : List (Node × Node)) :
    ∃ front test last, (mkBranch condition body others none).parts = front ++ [test] ++ [last] ∧
      (mkBranch condition body others none).stop = test.stop ∧
      (mkBranch condition body others none).lastBody? = some last := by
  obtain rfl | ⟨front, guard, rfl⟩ := List.eq_nil_or_concat others
  · exact ⟨[], condition, body, rfl, rfl, rfl⟩
  · refine ⟨condition :: body :: (front.flatMap fun guard => [guard.1, guard.2]), guard.1, guard.2,
      ?_, ?_, ?_⟩
    · simp [mkBranch, parts]
    · simp [mkBranch, stop, span]
    · simp [mkBranch, lastBody?]

theorem mem_parts_of_lastBody? {n body : Node} (isLast : n.lastBody? = some body) :
    body ∈ n.parts := by
  cases n with
  | branch condition first others otherwise span =>
      cases otherwise with
      | some other => cases isLast
      | none =>
          obtain ⟨front, test, last, divided, -, found⟩ := exists_lastBody? condition first others
          obtain rfl : last = body := Option.some.inj (found.symm.trans isLast)
          change last ∈ (mkBranch condition first others none).parts
          rw [divided]
          simp
  | _ => cases isLast

end Node

/-! ## Rows of nodes -/

/-- Nodes one behind the other, between two places. -/
def Row : Nat → Nat → List Node → Prop
  | _, _, [] => True
  | low, high, n :: ns =>
      low ≤ n.start.index ∧ n.start.index < n.stop.index ∧ n.stop.index ≤ high ∧ n.Sound ∧
        Row n.stop.index high ns

namespace Row

variable {low mid high : Nat} {n m last : Node} {ns ms : List Node}

theorem mono {low' high' : Nat} (row : Row low high ns) (lower : low' ≤ low)
    (higher : high ≤ high') : Row low' high' ns := by
  induction ns generalizing low low' with
  | nil => trivial
  | cons n ns ih =>
      obtain ⟨first, ordered, stop, sound, rest⟩ := row
      exact ⟨by omega, ordered, by omega, sound, ih rest (Nat.le_refl _)⟩

theorem cons (first : Row low mid [n]) (others : Row mid high ns) (le : mid ≤ high) :
    Row low high (n :: ns) := by
  obtain ⟨start, ordered, stop, sound, -⟩ := first
  exact ⟨start, ordered, by omega, sound, others.mono stop (Nat.le_refl _)⟩

theorem of_append (row : Row low high (ns ++ ms)) : Row low high ns := by
  induction ns generalizing low with
  | nil => trivial
  | cons n ns ih =>
      obtain ⟨start, ordered, stop, sound, rest⟩ := row
      exact ⟨start, ordered, stop, sound, ih rest⟩

theorem mem (row : Row low high ns) (member : n ∈ ns) :
    low ≤ n.start.index ∧ n.start.index < n.stop.index ∧ n.stop.index ≤ high ∧ n.Sound := by
  induction ns generalizing low with
  | nil => cases member
  | cons m ns ih =>
      obtain ⟨start, ordered, stop, sound, rest⟩ := row
      obtain rfl | later := List.mem_cons.mp member
      · exact ⟨start, ordered, stop, sound⟩
      · obtain ⟨start', ordered', stop', sound'⟩ := ih rest later
        exact ⟨by omega, ordered', stop', sound'⟩

/-- A row goes no further than its last node. -/
theorem cut (row : Row low high (ns ++ [last])) : Row low last.stop.index (ns ++ [last]) := by
  induction ns generalizing low with
  | nil =>
      obtain ⟨start, ordered, -, sound, -⟩ := row
      exact ⟨start, ordered, Nat.le_refl _, sound, trivial⟩
  | cons n ns ih =>
      obtain ⟨start, ordered, -, sound, rest⟩ := row
      have behind := rest.mem (n := last) (by simp)
      exact ⟨start, ordered, by omega, sound, ih rest⟩

theorem stop_le (row : Row low high (ns ++ [m] ++ [last])) : m.stop.index ≤ last.start.index := by
  induction ns generalizing low with
  | nil => exact row.2.2.2.2.1
  | cons n ns ih => exact ih row.2.2.2.2

/-- A node around a row of parts. -/
theorem around (parts : Row n.start.index n.stop.index n.parts) (first : low ≤ n.start.index)
    (ordered : n.start.index < n.stop.index) (stop : n.stop.index ≤ high)
    (closed : n.lastBody? = none) : Row low high [n] := by
  refine ⟨first, ordered, stop, .intro ⟨ordered, ?_, ?_⟩ ?_, trivial⟩
  · intro part isPart
    obtain ⟨start, -, stop, -⟩ := parts.mem isPart
    exact .inl ⟨start, stop⟩
  · intro part isLast
    rw [closed] at isLast
    cases isLast
  · intro part isPart
    exact (parts.mem isPart).2.2.2

/-- A node that ends with the last one of its parts. -/
theorem upTo (ns : List Node) (row : Row mid high (ns ++ [last])) (parts : n.parts = ns ++ [last])
    (stop : n.stop = last.stop) (start : n.start.index ≤ mid) (first : low ≤ n.start.index)
    (closed : n.lastBody? = none) : Row low high [n] := by
  obtain ⟨behind, ordered, within, -⟩ := row.mem (n := last) (by simp)
  refine around ?_ first (by rw [stop]; omega) (stop ▸ within) closed
  rw [parts, stop]
  exact row.cut.mono start (Nat.le_refl _)

theorem trim (row : Row low high (n :: ns)) : Row n.start.index high (n :: ns) :=
  ⟨Nat.le_refl _, row.2⟩

/-- A node from the first to the last one of its parts. -/
theorem fromTo (ns : List Node) (row : Row low high (m :: ns ++ [last]))
    (parts : n.parts = m :: ns ++ [last]) (start : n.start = m.start) (stop : n.stop = last.stop)
    (closed : n.lastBody? = none) : Row low high [n] :=
  row.trim.upTo (m :: ns) parts stop (Nat.le_of_eq (congrArg Position.index start))
    (start ▸ row.1) closed

/-- Operations, each from the left operand to its own right operand. -/
theorem applyAll {operations : List Grammar.Operation} (row : Row low high
    (n :: operations.map Grammar.Operation.operand)) :
    Row low high [Grammar.applyAll n operations] := by
  induction operations generalizing n with
  | nil => exact row
  | cons o operations ih =>
      obtain ⟨start, ordered, stop, sound, start', ordered', stop', sound', rest⟩ := row
      have operands : Row low o.operand.stop.index [n, o.operand] :=
        ⟨start, ordered, by omega, sound, start', ordered', Nat.le_refl _, sound', trivial⟩
      have operation : Row low o.operand.stop.index [.mkBinary n o.op o.mark o.operand] :=
        operands.fromTo [] rfl rfl rfl rfl
      exact ih (operation.cons rest stop')

theorem call {arguments : List Node} (row : Row low high (n :: arguments)) :
    Row low high [.mkCall n arguments] := by
  obtain rfl | ⟨front, last, rfl⟩ := List.eq_nil_or_concat arguments
  · exact row.trim.upTo [] rfl rfl (Nat.le_refl _) row.1 rfl
  · rw [List.concat_eq_append] at row ⊢
    refine row.fromTo front rfl rfl ?_ rfl
    simp [Node.mkCall, Node.stop, Node.span]

theorem procedure {name : Option Name} {parameters : List Name} (row : Row mid high [n])
    (le : low ≤ mid) (named : ∀ first, name.or parameters.head? = some first →
      low ≤ first.span.start.index ∧ first.span.start.index ≤ mid) :
    Row low high [.mkProcedure name parameters n] := by
  cases found : name.or parameters.head? with
  | none =>
      have start : (Node.mkProcedure name parameters n).start = n.start := by
        simp [Node.mkProcedure, Node.start, Node.span, found]
      exact row.trim.upTo [] rfl rfl (Nat.le_of_eq (congrArg Position.index start))
        (start ▸ Nat.le_trans le row.1) rfl
  | some first =>
      have start : (Node.mkProcedure name parameters n).start = first.span.start := by
        simp [Node.mkProcedure, Node.start, Node.span, found]
      obtain ⟨lower, upper⟩ := named first found
      exact row.upTo [] rfl rfl (start ▸ upper) (start ▸ lower) rfl

/-- A branch without `ELSE` stops before its last body starts. -/
theorem upToTest {front : List Node} {test : Node} (row : Row low high (front ++ [test] ++ [last]))
    (parts : n.parts = front ++ [test] ++ [last]) (start : n.start.index = low)
    (stop : n.stop = test.stop) (isLast : n.lastBody? = some last) : Row low high [n] := by
  have inside := row.of_append.cut
  obtain ⟨after, -, within, -⟩ := row.of_append.mem (n := test) (by simp)
  have behind := row.stop_le
  have proper := (row.mem (n := last) (by simp)).2.1
  have ordered : n.start.index < n.stop.index := by
    rw [start, stop]
    exact Nat.lt_of_le_of_lt after (inside.mem (n := test) (by simp)).2.1
  refine ⟨Nat.le_of_eq start.symm, ordered, stop ▸ within, .intro ⟨ordered, ?_, ?_⟩ ?_, trivial⟩
  · intro part isPart
    rw [parts] at isPart
    obtain early | late := List.mem_append.mp isPart
    · obtain ⟨first, -, last, -⟩ := inside.mem early
      exact .inl ⟨start ▸ first, stop ▸ last⟩
    · rw [List.mem_singleton.mp late]
      exact .inr isLast
  · intro part isPart contained
    obtain rfl : last = part := Option.some.inj (isLast.symm.trans isPart)
    have stops := contained.2
    rw [stop] at stops
    omega
  · intro part isPart
    rw [parts] at isPart
    exact (row.mem isPart).2.2.2

theorem branch (parts : Grammar.Cases) (row : Row low high parts.branch.parts) :
    Row low high [parts.branch] := by
  obtain ⟨condition, body, others, otherwise⟩ := parts
  cases otherwise with
  | some other => exact row.fromTo (body :: _) rfl rfl rfl rfl
  | none =>
      obtain ⟨front, test, last, divided, stop, isLast⟩ :=
        Node.exists_lastBody? condition body others
      have trimmed : Row condition.start.index high (front ++ [test] ++ [last]) := by
        rw [← divided]
        exact row.trim
      exact (trimmed.upToTest divided rfl stop isLast).mono row.1 (Nat.le_refl _)

end Row

/-! ## Rows of tokens -/

/-- How far a node that stands before the tokens may go: to the end of the next one. -/
def reach (first : Nat) : List Token → Nat
  | [] => first
  | token :: _ => token.span.stop.index

/-- From one place among the tokens to a later one. -/
structure Passes (first : Nat) (a : List Token) (last : Nat) (b : List Token) : Prop where
  ordered : Ordered last b
  le : first ≤ last
  further : reach first a ≤ reach last b

section

variable {first mid last : Nat} {token : Token} {a b c : List Token}

theorem Ordered.le_reach (ordered : Ordered first a) : first ≤ reach first a := by
  cases a with
  | nil => exact Nat.le_refl first
  | cons token a => exact Nat.le_of_lt (Nat.lt_of_le_of_lt ordered.1 ordered.2.1)

theorem Ordered.passes (ordered : Ordered first a) : Passes first a first a :=
  ⟨ordered, Nat.le_refl _, Nat.le_refl _⟩

theorem Passes.trans (one : Passes first a mid b) (two : Passes mid b last c) :
    Passes first a last c :=
  ⟨two.ordered, Nat.le_trans one.le two.le, Nat.le_trans one.further two.further⟩

theorem Ordered.tail (ordered : Ordered first (token :: a)) :
    Ordered token.span.stop.index a :=
  ordered.2.2

theorem Ordered.skip (ordered : Ordered first (token :: a)) :
    Passes first (token :: a) token.span.stop.index a :=
  ⟨ordered.tail, ordered.le_reach, ordered.tail.le_reach⟩

theorem Ordered.skipLines (ordered : Ordered first a) (lines : Grammar.pastNewlines a = b) :
    ∃ last, Passes first a last b := by
  subst lines
  induction a generalizing first with
  | nil => exact ⟨first, ordered.passes⟩
  | cons token a ih =>
      by_cases isLine : token.lexeme = .newline
      · rw [Grammar.pastNewlines_line isLine]
        obtain ⟨last, passes⟩ := ih ordered.tail
        exact ⟨last, ordered.skip.trans passes⟩
      · rw [Grammar.pastNewlines_cons isLine]
        exact ⟨first, ordered.passes⟩

end

/-! ## Rows that are read -/

namespace Grammar

/-- The nodes of a phrase. -/
def Phrase.row : Phrase → List Node
  | .node n => [n]
  | .nodes ns => ns
  | .operations os => os.map Operation.operand
  | .cases parts => parts.branch.parts

/-- Where the nodes of a symbol may start.  A symbol that starts with a sign or a word has none
before the end of that. -/
def Symbol.low (first : Nat) (a : List Token) : Symbol → Nat
  | .operations _ => reach first a
  | .moreItems => reach first a
  | .condition => reach first a
  | .braces => reach first a
  | .cases _ => reach first a
  | .moreStatements => reach first a
  | _ => first

theorem low_operand (first : Nat) (a : List Token) (level : Level) :
    level.operand.low first a = first := by
  cases level <;> rfl

theorem ReadsNames.passes {a b : List Token} {names : List Name} (reading : ReadsNames a names b)
    {first : Nat} (ordered : Ordered first a) : ∃ last, Passes first a last b := by
  induction reading generalizing first with
  | last closing after => exact ⟨_, ordered.skip⟩
  | next comma span text others ih =>
      obtain ⟨last, passes⟩ := ih ordered.tail.tail
      exact ⟨last, ordered.skip.trans (ordered.tail.skip.trans passes)⟩

theorem ReadsParameters.passes {a b : List Token} {names : List Name}
    (reading : ReadsParameters a names b) {first : Nat} (ordered : Ordered first a) :
    ∃ last, Passes first a last b ∧ ∀ name ∈ names.head?,
      first ≤ name.span.start.index ∧ name.span.start.index ≤ last := by
  cases reading with
  | none closing after => exact ⟨_, ordered.skip, nofun⟩
  | some span text others =>
      obtain ⟨last, passes⟩ := others.passes ordered.tail
      refine ⟨last, ordered.skip.trans passes, fun name isFirst => ?_⟩
      obtain rfl := Option.mem_some.mp isFirst
      exact ⟨ordered.1, Nat.le_trans (Nat.le_of_lt ordered.2.1) passes.le⟩

/-- What is read stands in a row, behind the place where the reader starts and before the end of the
token where it stops. -/
theorem Reads.row {s : Symbol} {a b : List Token} {x : Phrase} (reading : Reads s a x b)
    {first : Nat} (ordered : Ordered first a) :
    ∃ last, Passes first a last b ∧ Row (s.low first a) (reach last b) x.row := by
  induction reading generalizing first with
  | assign text span sign right ih =>
      have skipped := ordered.skip.trans ordered.tail.skip
      obtain ⟨last, passes, row⟩ := ih skipped.ordered
      have start := Nat.le_trans (Nat.le_of_lt ordered.2.1) ordered.tail.skip.le
      exact ⟨last, skipped.trans passes, row.upTo [] rfl rfl start ordered.1 rfl⟩
  | logical plain whole ih => exact ih ordered
  | negation word operand ih =>
      obtain ⟨last, passes, row⟩ := ih ordered.tail
      exact ⟨last, ordered.skip.trans passes,
        row.upTo [] rfl rfl (Nat.le_of_lt ordered.2.1) ordered.1 rfl⟩
  | comparing whole ih => exact ih ordered
  | @chain level a b c left operations head others head_ih others_ih =>
      obtain ⟨mid, passes, operand⟩ := head_ih ordered
      obtain ⟨last, further, row⟩ := others_ih passes.ordered
      rw [low_operand] at operand
      exact ⟨last, passes.trans further, (operand.cons row further.further).applyAll⟩
  | noOperation next a ends => exact ⟨first, ordered.passes, trivial⟩
  | @operation level sign op a b c right operations isOperator operand others operand_ih
      others_ih =>
      obtain ⟨mid, passes, operand⟩ := operand_ih ordered.tail
      obtain ⟨last, further, row⟩ := others_ih passes.ordered
      rw [low_operand] at operand
      exact ⟨last, ordered.skip.trans (passes.trans further), operand.cons row further.further⟩
  | sign sign isSign operand ih =>
      obtain ⟨last, passes, row⟩ := ih ordered.tail
      exact ⟨last, ordered.skip.trans passes,
        row.upTo [] rfl rfl (Nat.le_of_lt ordered.2.1) ordered.1 rfl⟩
  | unsigned whole ih => exact ih ordered
  | base next whole ends ih => exact ih ordered
  | raised sign base isPower exponent base_ih exponent_ih =>
      obtain ⟨mid, passes, base⟩ := base_ih ordered
      obtain ⟨last, further, row⟩ := exponent_ih passes.ordered.tail
      exact ⟨last, passes.trans (passes.ordered.skip.trans further),
        (base.cons row (Nat.le_trans passes.ordered.skip.further further.further)).fromTo []
          rfl rfl rfl rfl⟩
  | bare next whole ends ih => exact ih ordered
  | callEmpty opening closing called ih =>
      obtain ⟨mid, passes, callee⟩ := ih ordered
      have skipped := passes.ordered.skip.trans passes.ordered.tail.skip
      exact ⟨_, passes.trans skipped, (callee.mono (Nat.le_refl _) skipped.further).call⟩
  | call opening closing called given called_ih given_ih =>
      obtain ⟨mid, passes, callee⟩ := called_ih ordered
      obtain ⟨last, further, row⟩ := given_ih passes.ordered.tail
      have skipped := passes.ordered.skip.trans further
      have closed := further.ordered.skip
      exact ⟨_, (passes.trans skipped).trans closed,
        (callee.cons row skipped.further).call.mono (Nat.le_refl _) closed.further⟩
  | items head tail head_ih tail_ih =>
      obtain ⟨mid, passes, item⟩ := head_ih ordered
      obtain ⟨last, further, row⟩ := tail_ih passes.ordered
      exact ⟨last, passes.trans further, item.cons row further.further⟩
  | lastItem next a ends => exact ⟨first, ordered.passes, trivial⟩
  | nextItem comma head tail head_ih tail_ih =>
      obtain ⟨mid, passes, item⟩ := head_ih ordered.tail
      obtain ⟨last, further, row⟩ := tail_ih passes.ordered
      exact ⟨last, ordered.skip.trans (passes.trans further), item.cons row further.further⟩
  | int | float | string | trueWord | falseWord | name =>
      exact ⟨_, ordered.skip, .around trivial ordered.1 ordered.2.1 ordered.tail.le_reach rfl⟩
  | parenthesised opening closing inside ih =>
      obtain ⟨last, passes, row⟩ := ih ordered.tail
      have closed := passes.ordered.skip
      exact ⟨_, (ordered.skip.trans passes).trans closed, row.mono ordered.skip.le closed.further⟩
  | emptyList opening closing next a =>
      have skipped := ordered.skip.trans ordered.tail.skip
      exact ⟨_, skipped, .around trivial ordered.1 (Nat.lt_of_lt_of_le ordered.2.1 skipped.further)
        (Nat.le_refl _) rfl⟩
  | list opening closing next inside ih =>
      obtain ⟨last, passes, row⟩ := ih ordered.tail
      have closed := passes.ordered.skip
      have skipped := (ordered.skip.trans passes).trans closed
      exact ⟨_, skipped, .around (row.mono (Nat.le_of_lt ordered.2.1) closed.further) ordered.1
        (Nat.lt_of_lt_of_le ordered.2.1 skipped.further) (Nat.le_refl _) rfl⟩
  | branch whole ih =>
      obtain ⟨last, passes, row⟩ := ih ordered
      exact ⟨last, passes, (Row.branch _ row).mono ordered.le_reach (Nat.le_refl _)⟩
  | @forEach forWord eachWord inWord span listSpan text list a b body inside ih =>
      have words := ordered.skip.trans ordered.tail.skip
      have named := words.ordered
      have listed := named.tail.tail
      obtain ⟨last, passes, row⟩ := ih listed.tail
      have items : Row inWord.stop.index (reach listSpan.stop.index a) [.access ⟨list, listSpan⟩] :=
        .around trivial listed.1 listed.2.1 listed.tail.le_reach rfl
      have start := Nat.le_trans (Nat.le_of_lt named.2.1) named.tail.skip.le
      have skipped := (named.skip.trans named.tail.skip).trans listed.skip
      exact ⟨last, (words.trans skipped).trans passes,
        (items.cons row passes.further).upTo [_] rfl rfl start (Nat.le_trans words.le named.1) rfl⟩
  | whileLoop word guard inside guard_ih inside_ih =>
      obtain ⟨mid, passes, test⟩ := guard_ih ordered.tail
      obtain ⟨last, further, row⟩ := inside_ih passes.ordered
      have low := Nat.le_trans ordered.skip.le ordered.tail.le_reach
      have parts := (test.cons row further.further).mono low (Nat.le_refl _)
      exact ⟨last, ordered.skip.trans (passes.trans further), parts.fromTo [] rfl rfl rfl rfl⟩
  | untilLoop word untilWord guard inside guard_ih inside_ih =>
      have words := ordered.skip.trans ordered.tail.skip
      obtain ⟨mid, passes, test⟩ := guard_ih words.ordered
      obtain ⟨last, further, row⟩ := inside_ih passes.ordered
      have low := Nat.le_trans words.le words.ordered.le_reach
      have parts := (test.cons row further.further).mono low (Nat.le_refl _)
      exact ⟨last, words.trans (passes.trans further), parts.fromTo [] rfl rfl rfl rfl⟩
  | repeatFixed word span timesWord count inside ih =>
      have counted := ordered.tail
      have skipped := counted.skip.trans counted.tail.skip
      obtain ⟨last, passes, row⟩ := ih skipped.ordered
      have start := Nat.le_trans (Nat.le_of_lt counted.2.1) counted.tail.skip.le
      exact ⟨last, (ordered.skip.trans skipped).trans passes,
        row.upTo [] rfl rfl (Nat.le_trans start skipped.ordered.le_reach)
          (Nat.le_trans ordered.skip.le counted.1) rfl⟩
  | @repeatBy word span timesWord text a b body inside ih =>
      have counted := ordered.tail
      have skipped := counted.skip.trans counted.tail.skip
      obtain ⟨last, passes, row⟩ := ih skipped.ordered
      have count : Row word.stop.index (reach timesWord.stop.index a) [.access ⟨text, span⟩] :=
        .around trivial counted.1 counted.2.1
          (Nat.le_trans counted.tail.skip.le skipped.ordered.le_reach) rfl
      have parts := (count.cons row passes.further).mono ordered.skip.le (Nat.le_refl _)
      exact ⟨last, (ordered.skip.trans skipped).trans passes, parts.fromTo [] rfl rfl rfl rfl⟩
  | procedure word span opening text listed inside ih =>
      have named := ordered.tail
      have opened := named.skip.trans named.tail.skip
      obtain ⟨mid, passes, -⟩ := listed.passes opened.ordered
      obtain ⟨last, further, row⟩ := ih passes.ordered
      have header := (ordered.skip.trans opened).trans passes
      have start := Nat.le_trans (Nat.le_of_lt named.2.1) (named.tail.skip.trans passes).le
      have inside := passes.ordered.le_reach
      refine ⟨last, header.trans further,
        row.procedure (Nat.le_trans header.le inside) fun name isFirst => ?_⟩
      obtain rfl := Option.some.inj isFirst
      exact ⟨Nat.le_trans ordered.skip.le named.1, Nat.le_trans start inside⟩
  | anonymous word opening listed inside ih =>
      have opened := ordered.skip.trans ordered.tail.skip
      obtain ⟨mid, passes, named⟩ := listed.passes opened.ordered
      obtain ⟨last, further, row⟩ := ih passes.ordered
      have header := opened.trans passes
      have inside := passes.ordered.le_reach
      refine ⟨last, header.trans further,
        row.procedure (Nat.le_trans header.le inside) fun name isFirst => ?_⟩
      obtain ⟨start, before⟩ := named name isFirst
      exact ⟨Nat.le_trans opened.le start, Nat.le_trans before inside⟩
  | condition opening closing inside ih =>
      obtain ⟨last, passes, row⟩ := ih ordered.tail
      have closed := passes.ordered.skip
      exact ⟨_, (ordered.skip.trans passes).trans closed,
        row.mono (Nat.le_refl _) closed.further⟩
  | braces opening closing lines inside ih =>
      obtain ⟨mid, skipped⟩ := ordered.skipLines lines
      obtain ⟨last, passes, row⟩ := ih skipped.ordered.tail
      have closed := passes.ordered.skip
      exact ⟨_, (skipped.trans (skipped.ordered.skip.trans passes)).trans closed,
        row.mono skipped.further closed.further⟩
  | lastCase span next guard inside lines noElif noElse guard_ih inside_ih =>
      obtain ⟨mid, passes, test⟩ := guard_ih ordered.tail
      obtain ⟨last, further, body⟩ := inside_ih passes.ordered
      obtain ⟨rest, skipped⟩ := further.ordered.skipLines lines
      exact ⟨rest, ordered.skip.trans (passes.trans (further.trans skipped)),
        (test.cons body further.further).mono ordered.skip.further skipped.further⟩
  | elifCase span guard inside lines others guard_ih inside_ih others_ih =>
      obtain ⟨mid, passes, test⟩ := guard_ih ordered.tail
      obtain ⟨last, further, body⟩ := inside_ih passes.ordered
      obtain ⟨rest, skipped⟩ := further.ordered.skipLines lines
      obtain ⟨final, others, row⟩ := others_ih skipped.ordered
      have body := (body.mono (Nat.le_refl _) skipped.further).cons row others.further
      have later := (further.trans skipped).trans others
      exact ⟨final, ordered.skip.trans (passes.trans later),
        (test.cons body later.further).mono ordered.skip.further (Nat.le_refl _)⟩
  | elseCase span elseWord guard inside lines otherwise guard_ih inside_ih
      otherwise_ih =>
      obtain ⟨mid, passes, test⟩ := guard_ih ordered.tail
      obtain ⟨last, further, body⟩ := inside_ih passes.ordered
      obtain ⟨rest, skipped⟩ := further.ordered.skipLines lines
      obtain ⟨final, others, row⟩ := otherwise_ih skipped.ordered.tail
      have word := skipped.trans skipped.ordered.skip
      have body := (body.mono (Nat.le_refl _) word.further).cons row others.further
      have later := (further.trans word).trans others
      exact ⟨final, ordered.skip.trans (passes.trans later),
        (test.cons body later.further).mono ordered.skip.further (Nat.le_refl _)⟩
  | returnNothing | continuing | breaking =>
      exact ⟨_, ordered.skip, .around trivial ordered.1
        (Nat.lt_of_lt_of_le ordered.2.1 ordered.skip.further) (Nat.le_refl _) rfl⟩
  | returnValue word next result ih =>
      obtain ⟨last, passes, row⟩ := ih ordered.tail
      have skipped := ordered.skip.trans passes
      exact ⟨last, skipped, .around (row.mono (Nat.le_of_lt ordered.2.1) (Nat.le_refl _)) ordered.1
        (Nat.lt_of_lt_of_le ordered.2.1 skipped.further) (Nat.le_refl _) rfl⟩
  | evaluated whole ih => exact ih ordered
  | block start next lines head tail head_ih tail_ih =>
      have own : Ordered start.span.start.index (start :: _) := ⟨Nat.le_refl _, ordered.2⟩
      obtain ⟨mid, skipped⟩ := own.skipLines lines
      obtain ⟨last, passes, statement⟩ := head_ih skipped.ordered
      obtain ⟨final, further, row⟩ := tail_ih passes.ordered
      have whole := skipped.trans (passes.trans further)
      exact ⟨final, ⟨whole.ordered, Nat.le_trans ordered.1 whole.le, whole.further⟩,
        .around ((statement.cons row further.further).mono skipped.le (Nat.le_refl _)) ordered.1
          (Nat.lt_of_lt_of_le ordered.2.1 whole.further) (Nat.le_refl _) rfl⟩
  | lastStatement next a ends => exact ⟨first, ordered.passes, trivial⟩
  | trailing line next isLine lines ends noEnd =>
      obtain ⟨last, passes⟩ := ordered.tail.skipLines lines
      exact ⟨last, ordered.skip.trans passes, trivial⟩
  | nextStatement line isLine lines head tail head_ih tail_ih =>
      obtain ⟨mid, skipped⟩ := ordered.tail.skipLines lines
      obtain ⟨last, passes, statement⟩ := head_ih skipped.ordered
      obtain ⟨final, further, row⟩ := tail_ih passes.ordered
      exact ⟨final, ordered.skip.trans (skipped.trans (passes.trans further)),
        (statement.cons row further.further).mono skipped.le (Nat.le_refl _)⟩

theorem ReadsFurther.row {a : List Token} {nodes : List Node} {eof : Token}
    (reading : ReadsFurther a nodes eof) {first : Nat} (ordered : Ordered first a) :
    reach first a ≤ eof.span.stop.index ∧ Row (reach first a) eof.span.stop.index nodes := by
  induction reading generalizing first with
  | last eof isEnd => exact ⟨Nat.le_refl _, trivial⟩
  | trailing line eof isLine lines isEnd =>
      obtain ⟨last, passes⟩ := ordered.tail.skipLines lines
      exact ⟨(ordered.skip.trans passes).further, trivial⟩
  | next line isLine lines head tail ih =>
      obtain ⟨mid, skipped⟩ := ordered.tail.skipLines lines
      obtain ⟨last, passes, statement⟩ := head.row skipped.ordered
      obtain ⟨further, row⟩ := ih passes.ordered
      have whole := ordered.skip.trans (skipped.trans passes)
      exact ⟨Nat.le_trans whole.further further,
        (statement.cons row further).mono skipped.le (Nat.le_refl _)⟩

/-- The tree of a program has the parts of its nodes inside. -/
theorem ReadsProgram.sound {tokens : List Token} {tree : Node} (reading : ReadsProgram tokens tree)
    (ordered : Ordered 0 tokens) : tree.Sound := by
  cases reading with
  | empty start eof lines isEnd =>
      obtain ⟨last, passes⟩ := ordered.skipLines lines
      have row : Row 0 eof.span.stop.index [.list [] ⟨start.span.start, eof.span.stop⟩] :=
        .around trivial ordered.1 (Nat.lt_of_lt_of_le ordered.2.1 passes.further)
          (Nat.le_refl _) rfl
      exact row.2.2.2.1
  | @statements start a b c node others eof lines head tail =>
      have own : Ordered start.span.start.index (start :: a) := ⟨Nat.le_refl _, ordered.2⟩
      obtain ⟨mid, skipped⟩ := own.skipLines lines
      obtain ⟨last, passes, statement⟩ := head.row skipped.ordered
      obtain ⟨further, row⟩ := tail.row passes.ordered
      have whole := Nat.le_trans (skipped.trans passes).further further
      have row : Row 0 eof.span.stop.index
          [.list (node :: others) ⟨start.span.start, eof.span.stop⟩] :=
        .around ((statement.cons row further).mono skipped.le (Nat.le_refl _)) ordered.1
          (Nat.lt_of_lt_of_le ordered.2.1 whole) (Nat.le_refl _) rfl
      exact row.2.2.2.1

end Grammar

/-! ## Trees of programs -/

namespace Source

theorem sound_of_parse {name text : String} {tree : Node}
    (parsed : Source.parse ⟨name, text⟩ = .ok tree) : tree.Sound := by
  cases scanned : Source.tokens ⟨name, text⟩ with
  | error stop =>
      rw [Source.parse, scanned] at parsed
      cases parsed
  | ok tokens =>
      rw [Source.parse, scanned] at parsed
      have reading := Grammar.readsProgram_of_parseProgram (Source.ended_tokens scanned) parsed
      exact reading.sound (ordered_tokens scanned)

/-- Every node of a program starts before it stops, and a part of a node lies inside it exactly
unless it is the last body of a branch without `ELSE`.  So all parts lie inside if and only if
every branch has an `ELSE`. -/
theorem parts_inside_iff {name text : String} {tree : Node}
    (parsed : Source.parse ⟨name, text⟩ = .ok tree) :
    (∀ n, tree.Holds n → n.start.index < n.stop.index ∧
      ∀ part ∈ n.parts, part.Inside n ↔ n.lastBody? ≠ some part) ∧
    ((∀ n, tree.Holds n → ∀ part ∈ n.parts, part.Inside n) ↔
      ∀ n, tree.Holds n → n.lastBody? = none) := by
  have sound := sound_of_parse parsed
  have exactly {n part : Node} (holds : tree.Holds n) (isPart : part ∈ n.parts) :
      part.Inside n ↔ n.lastBody? ≠ some part := by
    obtain ⟨-, inside, outside⟩ := sound.spans holds
    exact ⟨fun contained isLast => outside part isLast contained,
      fun other => (inside part isPart).resolve_right other⟩
  refine ⟨fun n holds => ⟨(sound.spans holds).ordered, fun part => exactly holds⟩, ?_, ?_⟩
  · intro nested n holds
    cases isLast : n.lastBody? with
    | none => rfl
    | some body =>
        have isPart := Node.mem_parts_of_lastBody? isLast
        exact absurd isLast ((exactly holds isPart).mp (nested n holds body isPart))
  · intro closed n holds part isPart
    refine (exactly holds isPart).mpr ?_
    rw [closed n holds]
    nofun

/-- A branch with further conditions, lists and calls, and a branch without `ELSE` in it. -/
def branches : String :=
  "IF (a) \x7b x <- [f(1, -2), []] \x7d ELIF (b)\n\x7b RETURN\n\x7d ELSE " ++
    "\x7b\nIF (NOT c) \x7b g() \x7d\n\x7d"

theorem parts_inside_iff_branches : ∃ tree, Source.parse ⟨"", branches⟩ = .ok tree ∧
    (∀ n, tree.Holds n → n.start.index < n.stop.index ∧
      ∀ part ∈ n.parts, part.Inside n ↔ n.lastBody? ≠ some part) ∧
    ((∀ n, tree.Holds n → ∀ part ∈ n.parts, part.Inside n) ↔
      ∀ n, tree.Holds n → n.lastBody? = none) := by
  obtain ⟨tree, parsed⟩ := Grammar.exists_of_isOk (Source.parse ⟨"", branches⟩) (by decide +kernel)
  exact ⟨tree, parsed, parts_inside_iff parsed⟩

/-- A branch without `ELSE`. -/
def lone : String :=
  "IF (1) \x7b1\x7d"

/-- The body of a branch without `ELSE` does not lie inside the branch. -/
theorem body_outside_branch : ∃ tree, Source.parse ⟨"", lone⟩ = .ok tree ∧
    ∃ n, tree.Holds n ∧ ∃ part ∈ n.parts, ¬ part.Inside n := by
  obtain ⟨tree, parsed⟩ := Grammar.exists_of_isOk (Source.parse ⟨"", lone⟩) (by decide +kernel)
  have found : (Source.parse ⟨"", lone⟩).toOption.any (fun tree =>
      tree.parts.any fun n => n.parts.any fun part => !decide (part.Inside n)) = true := by
    decide +kernel
  simp only [parsed, Except.toOption, Option.any_some, List.any_eq_true, Bool.not_eq_true',
    decide_eq_false_iff_not] at found
  obtain ⟨n, isPart, part, isInner, outside⟩ := found
  exact ⟨tree, parsed, n, .part .self isPart, part, isInner, outside⟩

end Source
end Pseudocode
