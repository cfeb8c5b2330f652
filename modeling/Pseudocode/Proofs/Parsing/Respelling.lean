import Pseudocode.Proofs.Parsing.Sequencing
import Pseudocode.Proofs.Scanning.Ending
import Pseudocode.Proofs.Scanning.Pieces

/-!
# Places do not matter

What is read depends on the lexemes of the tokens only: tokens with the same lexemes, wherever they
stand, are read as the same tree up to places.  So the statements of two programs on consecutive
lines are those of the first and those of the second, unless the first ends with a branch without
`ELSE`.
-/

namespace Pseudocode
namespace Grammar

/-- Tokens with the same lexemes. -/
def Alike (a b : List Token) : Prop :=
  a.map (·.lexeme) = b.map (·.lexeme)

section

variable {a a' b : List Token} {t : Token} {l : Lexeme} {span : Span}

theorem Alike.next (alike : Alike (t :: a) a') :
    ∃ u rest, a' = u :: rest ∧ u.lexeme = t.lexeme ∧ Alike a rest := by
  cases a' with
  | nil => cases alike
  | cons u rest =>
      obtain ⟨same, others⟩ := List.cons.inj alike
      exact ⟨u, rest, rfl, same.symm, others⟩

theorem Alike.known (alike : Alike (⟨l, span⟩ :: a) a') :
    ∃ place rest, a' = ⟨l, place⟩ :: rest ∧ Alike a rest := by
  obtain ⟨⟨l', place⟩, rest, rfl, same, others⟩ := alike.next
  cases same
  exact ⟨place, rest, rfl, others⟩

theorem Alike.pastNewlines (alike : Alike a a') :
    Alike (pastNewlines a) (pastNewlines a') := by
  induction a generalizing a' with
  | nil =>
      obtain rfl := List.map_eq_nil_iff.mp alike.symm
      exact alike
  | cons t a ih =>
      obtain ⟨u, rest, rfl, same, others⟩ := alike.next
      by_cases line : t.lexeme = .newline
      · rw [pastNewlines_line line, pastNewlines_line (same.trans line)]
        exact ih others
      · rw [pastNewlines_cons line, pastNewlines_cons (same ▸ line)]
        exact alike

theorem Alike.assigns (alike : Alike a a') : assigns a' = assigns a := by
  cases a with
  | nil =>
      obtain rfl := List.map_eq_nil_iff.mp alike.symm
      rfl
  | cons t a =>
      obtain ⟨t', rest, rfl, same, others⟩ := alike.next
      cases a with
      | nil =>
          obtain rfl := List.map_eq_nil_iff.mp others.symm
          rfl
      | cons u a =>
          obtain ⟨u', rest, rfl, same', -⟩ := others.next
          rw [Grammar.assigns, Grammar.assigns, same, same']

end

/-! ## Phrases -/

/-- What is read is also read from tokens with the same lexemes, up to places. -/
def Respells (s : Symbol) (a : List Token) (x : Phrase) (b : List Token) : Prop :=
  ∀ a', Alike a a' → ∃ x' b', Reads s a' x' b' ∧ Alike b b' ∧ x'.erase = x.erase

namespace Respells

variable {s : Symbol} {a a' b : List Token} {tree : Node} {trees : List Node}
  {list : List Operation} {parts : Cases}

theorem node (part : Respells s a (.node tree) b) (alike : Alike a a') :
    ∃ node' b', Reads s a' (.node node') b' ∧ Alike b b' ∧ node'.erase = tree.erase := by
  obtain ⟨x', b', reading, rest, same⟩ := part a' alike
  obtain ⟨node', rfl, erased⟩ := Phrase.erase_eq_node same
  exact ⟨node', b', reading, rest, erased⟩

theorem nodes (part : Respells s a (.nodes trees) b) (alike : Alike a a') :
    ∃ nodes' b', Reads s a' (.nodes nodes') b' ∧ Alike b b' ∧
      eraseAll nodes' = eraseAll trees := by
  obtain ⟨x', b', reading, rest, same⟩ := part a' alike
  obtain ⟨nodes', rfl, erased⟩ := Phrase.erase_eq_nodes same
  exact ⟨nodes', b', reading, rest, erased⟩

theorem operations (part : Respells s a (.operations list) b) (alike : Alike a a') :
    ∃ operations' b', Reads s a' (.operations operations') b' ∧ Alike b b' ∧
      operations'.map Operation.erase = list.map Operation.erase := by
  obtain ⟨x', b', reading, rest, same⟩ := part a' alike
  obtain ⟨operations', rfl, erased⟩ := Phrase.erase_eq_operations same
  exact ⟨operations', b', reading, rest, erased⟩

theorem cases (part : Respells s a (.cases parts) b) (alike : Alike a a') :
    ∃ parts' b', Reads s a' (.cases parts') b' ∧ Alike b b' ∧ parts'.erase = parts.erase := by
  obtain ⟨x', b', reading, rest, same⟩ := part a' alike
  obtain ⟨parts', rfl, erased⟩ := Phrase.erase_eq_cases same
  exact ⟨parts', b', reading, rest, erased⟩

/-- A part that is the whole phrase. -/
theorem whole {s' : Symbol} (part : Respells s' a (.node tree) b)
    (rule : ∀ {a' node' b'}, Alike a a' → Alike b b' → Reads s' a' (.node node') b' →
      Reads s a' (.node node') b') : Respells s a (.node tree) b := by
  intro a' alike
  obtain ⟨node', b', reading, rest, same⟩ := part.node alike
  exact ⟨.node node', b', rule alike rest reading, rest, congrArg Phrase.node same⟩

/-- A phrase of one token. -/
theorem single {l : Lexeme} {x : Span → Phrase}
    (rule : ∀ span a, Reads s (⟨l, span⟩ :: a) (x span) a)
    (same : ∀ span span', (x span').erase = (x span).erase) (span : Span) (a : List Token) :
    Respells s (⟨l, span⟩ :: a) (x span) a := by
  intro a' alike
  obtain ⟨span', rest, rfl, alike₁⟩ := alike.known
  exact ⟨x span', rest, rule span' rest, alike₁, same span span'⟩

/-- A phrase of no tokens, which only the next token decides on. -/
theorem empty {x : Phrase} {next : Token}
    (rule : ∀ next' a, next'.lexeme = next.lexeme → Reads s (next' :: a) x (next' :: a)) :
    Respells s (next :: a) x (next :: a) := by
  intro a' alike
  obtain ⟨next', rest, rfl, same, -⟩ := alike.next
  exact ⟨x, next' :: rest, rule next' rest same, alike, rfl⟩

end Respells

section

variable {a a' b c : List Token} {names : List Name} {test body : Node}

theorem ReadsNames.alike (reading : ReadsNames a names b) (alike : Alike a a') :
    ∃ names' b', ReadsNames a' names' b' ∧ Alike b b' ∧
      names'.map Name.erase = names.map Name.erase := by
  induction reading generalizing a' with
  | last closing after =>
      obtain ⟨closing', rest, rfl, alike₁⟩ := alike.known
      exact ⟨[], rest, .last closing' rest, alike₁, rfl⟩
  | next comma span text others ih =>
      obtain ⟨comma', _, rfl, alike₁⟩ := alike.known
      obtain ⟨span', rest, rfl, alike₂⟩ := alike₁.known
      obtain ⟨names', b', reading, alike₃, same⟩ := ih alike₂
      exact ⟨_, b', .next comma' span' text reading, alike₃, by simp [Name.erase, same]⟩

theorem ReadsParameters.alike (reading : ReadsParameters a names b) (alike : Alike a a') :
    ∃ names' b', ReadsParameters a' names' b' ∧ Alike b b' ∧
      names'.map Name.erase = names.map Name.erase := by
  cases reading with
  | none closing after =>
      obtain ⟨closing', rest, rfl, alike₁⟩ := alike.known
      exact ⟨[], rest, .none closing' rest, alike₁, rfl⟩
  | some span text others =>
      obtain ⟨span', rest, rfl, alike₁⟩ := alike.known
      obtain ⟨names', b', reading, alike₂, same⟩ := others.alike alike₁
      exact ⟨_, b', .some span' text reading, alike₂, by simp [Name.erase, same]⟩

/-- A condition and the block behind it. -/
theorem Respells.guarded (guard : Respells .condition a (.node test) b)
    (inside : Respells .braces b (.node body) c) (alike : Alike a a') :
    ∃ test' body' b' c', Reads .condition a' (.node test') b' ∧
      Reads .braces b' (.node body') c' ∧ Alike c c' ∧ test'.erase = test.erase ∧
      body'.erase = body.erase := by
  obtain ⟨test', b', reading, alike₁, same⟩ := guard.node alike
  obtain ⟨body', c', reading', alike₂, same'⟩ := inside.node alike₁
  exact ⟨test', body', b', c', reading, reading', alike₂, same, same'⟩

/-- A first part and those behind it. -/
theorem Respells.sequence {s s' : Symbol} {first : Node} {others : List Node}
    (head : Respells s a (.node first) b) (tail : Respells s' b (.nodes others) c)
    (alike : Alike a a') :
    ∃ first' others' b' c', Reads s a' (.node first') b' ∧ Reads s' b' (.nodes others') c' ∧
      Alike c c' ∧ eraseAll (first' :: others') = eraseAll (first :: others) := by
  obtain ⟨first', b', reading, alike₁, same⟩ := head.node alike
  obtain ⟨others', c', reading', alike₂, same'⟩ := tail.nodes alike₁
  exact ⟨first', others', b', c', reading, reading', alike₂, by simp [eraseAll, same, same']⟩

end

/-- The lexemes alone decide what is read, up to places. -/
theorem Reads.respells {s : Symbol} {a b : List Token} {x : Phrase} (reading : Reads s a x b) :
    Respells s a x b := by
  induction reading with
  | assign text span sign right ih =>
      intro a' alike
      obtain ⟨span', _, rfl, alike₁⟩ := alike.known
      obtain ⟨sign', _, rfl, alike₂⟩ := alike₁.known
      obtain ⟨value', b', reading, alike₃, same⟩ := ih.node alike₂
      exact ⟨_, b', .assign text span' sign' reading, alike₃, by
        simp [Phrase.erase, Node.mkAssign, Node.erase, Name.erase, same]⟩
  | logical plain whole ih =>
      exact ih.whole fun alike _ reading => .logical (alike.assigns.trans plain) reading
  | negation word operand ih =>
      intro a' alike
      obtain ⟨word', _, rfl, alike₁⟩ := alike.known
      obtain ⟨node', b', reading, alike₂, same⟩ := ih.node alike₁
      exact ⟨_, b', .negation word' reading, alike₂, by
        simp [Phrase.erase, Node.mkUnary, Node.erase, same]⟩
  | comparing whole ih => exact ih.whole fun _ _ reading => .comparing reading
  | chain first others first_ih others_ih =>
      intro a' alike
      obtain ⟨left', b', reading, alike₁, same⟩ := first_ih.node alike
      obtain ⟨operations', c', reading', alike₂, same'⟩ := others_ih.operations alike₁
      exact ⟨_, c', .chain reading reading', alike₂,
        congrArg Phrase.node (erase_applyAll same same')⟩
  | noOperation next a ends =>
      exact .empty fun next' rest same => .noOperation next' rest (same ▸ ends)
  | operation sign isOperator operand others operand_ih others_ih =>
      intro a' alike
      obtain ⟨sign', _, rfl, sameSign, alike₁⟩ := alike.next
      obtain ⟨right', b', reading, alike₂, same⟩ := operand_ih.node alike₁
      obtain ⟨operations', c', reading', alike₃, same'⟩ := others_ih.operations alike₂
      exact ⟨_, c', .operation sign' (sameSign ▸ isOperator) reading reading', alike₃, by
        simp [Phrase.erase, Operation.erase, same, same']⟩
  | sign sign isSign operand ih =>
      intro a' alike
      obtain ⟨sign', _, rfl, sameSign, alike₁⟩ := alike.next
      obtain ⟨node', b', reading, alike₂, same⟩ := ih.node alike₁
      exact ⟨_, b', .sign sign' (sameSign ▸ isSign) reading, alike₂, by
        simp [Phrase.erase, Node.mkUnary, Node.erase, same]⟩
  | unsigned whole ih => exact ih.whole fun _ _ reading => .unsigned reading
  | base next whole ends ih =>
      refine ih.whole fun _ rest reading => ?_
      obtain ⟨next', b', rfl, same, -⟩ := rest.next
      exact .base next' reading (same ▸ ends)
  | raised sign base isPower exponent base_ih exponent_ih =>
      intro a' alike
      obtain ⟨left', _, reading, alike₁, same⟩ := base_ih.node alike
      obtain ⟨sign', _, rfl, sameSign, alike₂⟩ := alike₁.next
      obtain ⟨right', c', reading', alike₃, same'⟩ := exponent_ih.node alike₂
      exact ⟨_, c', .raised sign' reading (sameSign ▸ isPower) reading', alike₃, by
        simp [Phrase.erase, Node.mkBinary, Node.erase, same, same']⟩
  | bare next whole ends ih =>
      refine ih.whole fun _ rest reading => ?_
      obtain ⟨next', b', rfl, same, -⟩ := rest.next
      exact .bare next' reading (same ▸ ends)
  | callEmpty opening closing called ih =>
      intro a' alike
      obtain ⟨callee', _, reading, alike₁, same⟩ := ih.node alike
      obtain ⟨opening', _, rfl, alike₂⟩ := alike₁.known
      obtain ⟨closing', b', rfl, alike₃⟩ := alike₂.known
      exact ⟨_, b', .callEmpty opening' closing' reading, alike₃, by
        simp [Phrase.erase, Node.mkCall, Node.erase, same]⟩
  | call opening closing called given called_ih given_ih =>
      intro a' alike
      obtain ⟨callee', _, reading, alike₁, same⟩ := called_ih.node alike
      obtain ⟨opening', _, rfl, alike₂⟩ := alike₁.known
      obtain ⟨arguments', _, reading', alike₃, same'⟩ := given_ih.nodes alike₂
      obtain ⟨closing', c', rfl, alike₄⟩ := alike₃.known
      exact ⟨_, c', .call opening' closing' reading reading', alike₄, by
        simp [Phrase.erase, Node.mkCall, Node.erase, same, same']⟩
  | items head tail head_ih tail_ih =>
      intro a' alike
      obtain ⟨first', others', b', c', reading, reading', alike₁, same⟩ :=
        head_ih.sequence tail_ih alike
      exact ⟨_, c', .items reading reading', alike₁, congrArg Phrase.nodes same⟩
  | lastItem next a ends =>
      exact .empty fun next' rest same => .lastItem next' rest (same ▸ ends)
  | nextItem comma head tail head_ih tail_ih =>
      intro a' alike
      obtain ⟨comma', _, rfl, alike₁⟩ := alike.known
      obtain ⟨first', others', b', c', reading, reading', alike₂, same⟩ :=
        head_ih.sequence tail_ih alike₁
      exact ⟨_, c', .nextItem comma' reading reading', alike₂, congrArg Phrase.nodes same⟩
  | int n span a => exact .single (.int n) (fun _ _ => rfl) span a
  | float x span a => exact .single (.float x) (fun _ _ => rfl) span a
  | string s span a => exact .single (.string s) (fun _ _ => rfl) span a
  | trueWord span a => exact .single .trueWord (fun _ _ => rfl) span a
  | falseWord span a => exact .single .falseWord (fun _ _ => rfl) span a
  | name text span a => exact .single (.name text) (fun _ _ => rfl) span a
  | parenthesised opening closing inside ih =>
      intro a' alike
      obtain ⟨opening', _, rfl, alike₁⟩ := alike.known
      obtain ⟨node', _, reading, alike₂, same⟩ := ih.node alike₁
      obtain ⟨closing', b', rfl, alike₃⟩ := alike₂.known
      exact ⟨_, b', .parenthesised opening' closing' reading, alike₃, congrArg Phrase.node same⟩
  | emptyList opening closing next a =>
      intro a' alike
      obtain ⟨opening', _, rfl, alike₁⟩ := alike.known
      obtain ⟨closing', _, rfl, alike₂⟩ := alike₁.known
      obtain ⟨next', rest, rfl, -, -⟩ := alike₂.next
      exact ⟨_, _, .emptyList opening' closing' next' rest, alike₂, rfl⟩
  | list opening closing next inside ih =>
      intro a' alike
      obtain ⟨opening', _, rfl, alike₁⟩ := alike.known
      obtain ⟨elements', _, reading, alike₂, same⟩ := ih.nodes alike₁
      obtain ⟨closing', _, rfl, alike₃⟩ := alike₂.known
      obtain ⟨next', b', rfl, -, -⟩ := alike₃.next
      exact ⟨_, _, .list opening' closing' next' reading, alike₃, by
        simp [Phrase.erase, Node.erase, same]⟩
  | branch whole ih =>
      intro a' alike
      obtain ⟨parts', b', reading, alike₁, same⟩ := ih.cases alike
      simp only [Cases.erase, Cases.mk.injEq] at same
      exact ⟨_, b', .branch reading, alike₁, by
        simp [Phrase.erase, Cases.branch, Node.mkBranch, Node.erase, same]⟩
  | forEach forWord eachWord inWord span listSpan text list inside ih =>
      intro a' alike
      obtain ⟨forWord', _, rfl, alike₁⟩ := alike.known
      obtain ⟨eachWord', _, rfl, alike₂⟩ := alike₁.known
      obtain ⟨span', _, rfl, alike₃⟩ := alike₂.known
      obtain ⟨inWord', _, rfl, alike₄⟩ := alike₃.known
      obtain ⟨listSpan', _, rfl, alike₅⟩ := alike₄.known
      obtain ⟨body', b', reading, alike₆, same⟩ := ih.node alike₅
      exact ⟨_, b', .forEach forWord' eachWord' inWord' span' listSpan' text list reading, alike₆,
        by simp [Phrase.erase, Node.mkForEach, Node.erase, Name.erase, same]⟩
  | whileLoop word guard inside guard_ih inside_ih =>
      intro a' alike
      obtain ⟨word', _, rfl, alike₁⟩ := alike.known
      obtain ⟨test', body', b', c', reading, reading', alike₂, same, same'⟩ :=
        guard_ih.guarded inside_ih alike₁
      exact ⟨_, c', .whileLoop word' reading reading', alike₂, by
        simp [Phrase.erase, Node.mkWhile, Node.erase, same, same']⟩
  | untilLoop word untilWord guard inside guard_ih inside_ih =>
      intro a' alike
      obtain ⟨word', _, rfl, alike₁⟩ := alike.known
      obtain ⟨untilWord', _, rfl, alike₂⟩ := alike₁.known
      obtain ⟨test', body', b', c', reading, reading', alike₃, same, same'⟩ :=
        guard_ih.guarded inside_ih alike₂
      exact ⟨_, c', .untilLoop word' untilWord' reading reading', alike₃, by
        simp [Phrase.erase, Node.mkUntil, Node.erase, same, same']⟩
  | repeatFixed word span timesWord count inside ih =>
      intro a' alike
      obtain ⟨word', _, rfl, alike₁⟩ := alike.known
      obtain ⟨span', _, rfl, alike₂⟩ := alike₁.known
      obtain ⟨timesWord', _, rfl, alike₃⟩ := alike₂.known
      obtain ⟨body', b', reading, alike₄, same⟩ := ih.node alike₃
      exact ⟨_, b', .repeatFixed word' span' timesWord' count reading, alike₄, by
        simp [Phrase.erase, Node.mkRepeatFixed, Node.erase, same]⟩
  | repeatBy word span timesWord text inside ih =>
      intro a' alike
      obtain ⟨word', _, rfl, alike₁⟩ := alike.known
      obtain ⟨span', _, rfl, alike₂⟩ := alike₁.known
      obtain ⟨timesWord', _, rfl, alike₃⟩ := alike₂.known
      obtain ⟨body', b', reading, alike₄, same⟩ := ih.node alike₃
      exact ⟨_, b', .repeatBy word' span' timesWord' text reading, alike₄, by
        simp [Phrase.erase, Node.mkRepeatBy, Node.erase, Name.erase, same]⟩
  | procedure word span opening text listed inside ih =>
      intro a' alike
      obtain ⟨word', _, rfl, alike₁⟩ := alike.known
      obtain ⟨span', _, rfl, alike₂⟩ := alike₁.known
      obtain ⟨opening', _, rfl, alike₃⟩ := alike₂.known
      obtain ⟨names', _, listed', alike₄, sameNames⟩ := listed.alike alike₃
      obtain ⟨body', c', reading, alike₅, same⟩ := ih.node alike₄
      exact ⟨_, c', .procedure word' span' opening' text listed' reading, alike₅, by
        simp [Phrase.erase, Node.mkProcedure, Node.erase, Name.erase, sameNames, same]⟩
  | anonymous word opening listed inside ih =>
      intro a' alike
      obtain ⟨word', _, rfl, alike₁⟩ := alike.known
      obtain ⟨opening', _, rfl, alike₂⟩ := alike₁.known
      obtain ⟨names', _, listed', alike₃, sameNames⟩ := listed.alike alike₂
      obtain ⟨body', c', reading, alike₄, same⟩ := ih.node alike₃
      exact ⟨_, c', .anonymous word' opening' listed' reading, alike₄, by
        simp [Phrase.erase, Node.mkProcedure, Node.erase, sameNames, same]⟩
  | condition opening closing inside ih =>
      intro a' alike
      obtain ⟨opening', _, rfl, alike₁⟩ := alike.known
      obtain ⟨node', _, reading, alike₂, same⟩ := ih.node alike₁
      obtain ⟨closing', b', rfl, alike₃⟩ := alike₂.known
      exact ⟨_, b', .condition opening' closing' reading, alike₃, congrArg Phrase.node same⟩
  | braces opening closing lines inside ih =>
      intro a' alike
      obtain ⟨opening', _, lines', alike₁⟩ := (lines ▸ alike.pastNewlines).known
      obtain ⟨node', _, reading, alike₂, same⟩ := ih.node alike₁
      obtain ⟨closing', c', rfl, alike₃⟩ := alike₂.known
      exact ⟨_, c', .braces opening' closing' lines' reading, alike₃, congrArg Phrase.node same⟩
  | lastCase span next guard inside lines noElif noElse guard_ih inside_ih =>
      intro a' alike
      obtain ⟨span', _, rfl, alike₁⟩ := alike.known
      obtain ⟨test', body', b', c', reading, reading', alike₂, same, same'⟩ :=
        guard_ih.guarded inside_ih alike₁
      have alike₃ := lines ▸ alike₂.pastNewlines
      obtain ⟨next', d', lines', sameNext, -⟩ := alike₃.next
      exact ⟨_, _, .lastCase span' next' reading reading' lines' (sameNext ▸ noElif)
        (sameNext ▸ noElse), lines' ▸ alike₃, by simp [Phrase.erase, Cases.erase, same, same']⟩
  | elifCase span guard inside lines others guard_ih inside_ih others_ih =>
      intro a' alike
      obtain ⟨span', _, rfl, alike₁⟩ := alike.known
      obtain ⟨test', body', b', c', reading, reading', alike₂, same, same'⟩ :=
        guard_ih.guarded inside_ih alike₁
      obtain ⟨parts', e', reading'', alike₃, same''⟩ :=
        others_ih.cases (lines ▸ alike₂.pastNewlines)
      simp only [Cases.erase, Cases.mk.injEq] at same''
      exact ⟨_, e', .elifCase span' reading reading' rfl reading'', alike₃, by
        simp [Phrase.erase, Cases.erase, Cases.guard, eraseGuards, eraseGuard, same, same',
          same'']⟩
  | elseCase span elseWord guard inside lines otherwise guard_ih inside_ih
      otherwise_ih =>
      intro a' alike
      obtain ⟨span', _, rfl, alike₁⟩ := alike.known
      obtain ⟨test', body', b', c', reading, reading', alike₂, same, same'⟩ :=
        guard_ih.guarded inside_ih alike₁
      obtain ⟨elseWord', _, lines', alike₃⟩ := (lines ▸ alike₂.pastNewlines).known
      obtain ⟨other', e', reading'', alike₄, same''⟩ := otherwise_ih.node alike₃
      exact ⟨_, e', .elseCase span' elseWord' reading reading' lines' reading'', alike₄, by
        simp [Phrase.erase, Cases.erase, eraseOption, same, same', same'']⟩
  | returnNothing word next a noValue noEnd =>
      intro a' alike
      obtain ⟨word', _, rfl, alike₁⟩ := alike.known
      obtain ⟨next', rest, rfl, same, -⟩ := alike₁.next
      exact ⟨_, _, .returnNothing word' next' rest (same ▸ noValue) (same ▸ noEnd), alike₁, rfl⟩
  | returnValue word next result ih =>
      intro a' alike
      obtain ⟨word', _, rfl, alike₁⟩ := alike.known
      obtain ⟨value', _, reading, alike₂, same⟩ := ih.node alike₁
      obtain ⟨next', b', rfl, -, -⟩ := alike₂.next
      exact ⟨_, _, .returnValue word' next' reading, alike₂, by
        simp [Phrase.erase, Node.erase, eraseOption, same]⟩
  | continuing word next a =>
      intro a' alike
      obtain ⟨word', _, rfl, alike₁⟩ := alike.known
      obtain ⟨next', rest, rfl, -, -⟩ := alike₁.next
      exact ⟨_, _, .continuing word' next' rest, alike₁, rfl⟩
  | breaking word next a =>
      intro a' alike
      obtain ⟨word', _, rfl, alike₁⟩ := alike.known
      obtain ⟨next', rest, rfl, -, -⟩ := alike₁.next
      exact ⟨_, _, .breaking word' next' rest, alike₁, rfl⟩
  | evaluated whole ih => exact ih.whole fun _ _ reading => .evaluated reading
  | block first next lines head tail head_ih tail_ih =>
      intro a' alike
      obtain ⟨first', a', rfl, -, -⟩ := alike.next
      obtain ⟨node', others', c', d', reading, reading', alike₁, same⟩ :=
        head_ih.sequence tail_ih (lines ▸ alike.pastNewlines)
      obtain ⟨next', d', rfl, -, -⟩ := alike₁.next
      exact ⟨_, _, .block first' next' rfl reading reading', alike₁, by
        simp [Phrase.erase, Node.erase, same]⟩
  | lastStatement next a ends =>
      exact .empty fun next' rest same => .lastStatement next' rest (same ▸ ends)
  | trailing line next isLine lines ends noEnd =>
      intro a' alike
      obtain ⟨line', a', rfl, sameLine, alike₁⟩ := alike.next
      have alike₂ := lines ▸ alike₁.pastNewlines
      obtain ⟨next', b', lines', same, -⟩ := alike₂.next
      exact ⟨_, _, .trailing line' next' (sameLine.trans isLine) lines' (same ▸ ends)
        (same ▸ noEnd), lines' ▸ alike₂, rfl⟩
  | nextStatement line isLine lines head tail head_ih tail_ih =>
      intro a' alike
      obtain ⟨line', a', rfl, sameLine, alike₁⟩ := alike.next
      obtain ⟨node', others', c', d', reading, reading', alike₂, same⟩ :=
        head_ih.sequence tail_ih (lines ▸ alike₁.pastNewlines)
      exact ⟨_, d', .nextStatement line' (sameLine.trans isLine) rfl reading reading', alike₂,
        congrArg Phrase.nodes same⟩

/-! ## Programs -/

theorem ReadsFurther.alike {a a' : List Token} {nodes : List Node} {e : Token}
    (reading : ReadsFurther a nodes e) (alike : Alike a a') :
    ∃ nodes' e', ReadsFurther a' nodes' e' ∧ eraseAll nodes' = eraseAll nodes := by
  induction reading generalizing a' with
  | last eof isEnd =>
      obtain ⟨eof', rest, rfl, same, others⟩ := alike.next
      obtain rfl := List.map_eq_nil_iff.mp others.symm
      exact ⟨[], eof', .last eof' (same.trans isEnd), rfl⟩
  | trailing line eof isLine lines isEnd =>
      obtain ⟨line', rest, rfl, sameLine, others⟩ := alike.next
      obtain ⟨eof', tail, lines', same, none⟩ := (lines ▸ others.pastNewlines).next
      obtain rfl := List.map_eq_nil_iff.mp none.symm
      exact ⟨[], eof', .trailing line' eof' (sameLine.trans isLine) lines' (same.trans isEnd), rfl⟩
  | next line isLine lines head tail ih =>
      obtain ⟨line', rest, rfl, sameLine, others⟩ := alike.next
      obtain ⟨node', c', reading, behind, same⟩ := head.respells.node (lines ▸ others.pastNewlines)
      obtain ⟨others', e', reading', same'⟩ := ih behind
      exact ⟨node' :: others', e', .next line' (sameLine.trans isLine) rfl reading reading', by
        simp [eraseAll, same, same']⟩

/-- The mark for the end of a program, without its place. -/
def unplacedEnd : Token :=
  ⟨.eof, default⟩

open Scanner (Lexes lexemes lexemes_place lineEnd)

/-- A text that is read as statements, up to places. -/
def ReadAs (text : String) (nodes : List Node) : Prop :=
  ∃ pieces nodes', Lexes text.toList pieces ∧
    ReadsFurther (unplaced (.newline :: lexemes pieces) ++ [unplacedEnd]) nodes' unplacedEnd ∧
    eraseAll nodes' = eraseAll nodes

theorem map_lexeme_unplaced (list : List Lexeme) : (unplaced list).map (·.lexeme) = list :=
  List.map_map.trans (List.map_id list)

theorem ReadsFurther.end_eq {a : List Token} {nodes : List Node} {e e' : Token}
    (reading : ReadsFurther (a ++ [e]) nodes e') : e' = e := by
  obtain ⟨front, divided⟩ := reading.endsIn
  exact (List.cons.inj (List.append_inj' divided rfl).2).1.symm

/-- The statements of a text that is accepted. -/
theorem readAs_of_parse {name text : String} {node : Node} (settled : Settled text.toList)
    (parsed : Source.parse ⟨name, text⟩ = .ok node) :
    ∃ nodes span, node = .list nodes span ∧ ReadAs text nodes := by
  cases scanned : Source.tokens ⟨name, text⟩ with
  | error stop =>
      rw [Source.parse, scanned] at parsed
      cases parsed
  | ok tokens =>
      rw [Source.parse, scanned] at parsed
      obtain ⟨pieces, lexes, same⟩ := Source.exists_lexes settled scanned
      have reading := readsProgram_of_parseProgram (Source.ended_tokens scanned) parsed
      obtain ⟨nodes, span, rfl⟩ := reading.exists_list
      obtain ⟨front, last, rfl⟩ : ∃ front last, tokens = front ++ [last] := by
        rcases List.eq_nil_or_concat tokens with rfl | ⟨front, last, rfl⟩
        · cases reading
        · exact ⟨front, last, List.concat_eq_append⟩
      have further : ReadsFurther (⟨.newline, default⟩ :: front ++ [last]) nodes last :=
        reading.further rfl
      have alike : Alike (⟨.newline, default⟩ :: front ++ [last])
          (unplaced (.newline :: lexemes pieces) ++ [unplacedEnd]) := by
        rw [Alike, List.cons_append, List.map_cons, same, List.map_append, map_lexeme_unplaced]
        rfl
      obtain ⟨nodes', e', reading', erased⟩ := further.alike alike
      obtain rfl := reading'.end_eq
      exact ⟨nodes, span, rfl, pieces, nodes', lexes, reading', erased⟩

/-- A text is accepted as its statements, whatever its name. -/
theorem ReadAs.parse {text : String} {nodes : List Node} (readAs : ReadAs text nodes)
    (name : String) :
    ∃ nodes' span, Source.parse ⟨name, text⟩ = .ok (.list nodes' span) ∧
      eraseAll nodes' = eraseAll nodes := by
  obtain ⟨pieces, nodes', lexes, reading, same⟩ := readAs
  have scanned := Source.tokens_of_lexes lexes name
  have kept := lexemes_place pieces (.start ⟨name, text⟩)
  generalize Scanner.place (.start ⟨name, text⟩) pieces = tokens at scanned kept
  have alike : Alike (unplaced (.newline :: lexemes pieces) ++ [unplacedEnd])
      (⟨.newline, default⟩ :: tokens) := by
    rw [Alike, List.map_append, map_lexeme_unplaced]
    exact congrArg (Lexeme.newline :: ·) kept.symm
  obtain ⟨nodes'', e', reading', same'⟩ := reading.alike alike
  have nonempty : tokens ≠ [] := by
    rintro rfl
    simp at kept
  obtain ⟨span, program⟩ := reading'.program nonempty
  refine ⟨nodes'', span, ?_, same'.trans same⟩
  rw [Source.parse, scanned]
  exact program.parses

/-- Two texts on consecutive lines. -/
theorem ReadAs.append {first second : String} {nodes others : List Node}
    (readAs : ReadAs first nodes) (more : ReadAs second others) (shut : lastOpen nodes = false) :
    ReadAs (first ++ "\n" ++ second) (nodes ++ others) := by
  obtain ⟨pieces, nodes', lexes, reading, same⟩ := readAs
  obtain ⟨pieces', others', lexes', reading', same'⟩ := more
  have shut' : lastOpen nodes' = false := by
    rw [← lastOpen_eraseAll, same, lastOpen_eraseAll, shut]
  have reading' : ReadsFurther
      (⟨.newline, default⟩ :: unplaced (lexemes pieces') ++ [unplacedEnd]) others' unplacedEnd :=
    reading'
  obtain ⟨statements, both, sames⟩ := ReadsFurther.sequence rfl rfl rfl reading reading'
    fun isOpen => by
      rw [isOpen.1] at shut'
      cases shut'
  refine ⟨pieces ++ lineEnd :: pieces', statements, ?_, ?_, ?_⟩
  · simpa using lexes.append lexes'
  · simpa [unplaced, lexemes, lineEnd] using both
  · rw [sames, eraseAll_append, same, same', eraseAll_append]

/-! ## Programs without branches -/

theorem ifWord_mem_lexemes : ∀ node : Node, node.endsOpen = true →
    .keyword .ifWord ∈ node.lexemes
  | .branch .., _ => by simp [Node.lexemes]
  | .assign _ value _, isOpen => by
      simpa [Node.lexemes] using ifWord_mem_lexemes value isOpen
  | .binary _ op _ right _, isOpen => by
      simp [Node.lexemes, ifWord_mem_lexemes right isOpen]
  | .unary op _ operand _, isOpen => by
      simp [Node.lexemes, ifWord_mem_lexemes operand isOpen]
  | .returning (some value) _, isOpen => by
      simpa [Node.lexemes, valueLexemes] using ifWord_mem_lexemes value isOpen

theorem mem_statementLexemes {nodes : List Node} {node : Node} {l : Lexeme} (member : node ∈ nodes)
    (inside : l ∈ node.lexemes) : l ∈ statementLexemes nodes := by
  induction nodes with
  | nil => cases member
  | cons first nodes ih =>
      rw [statementLexemes]
      rcases List.mem_cons.mp member with rfl | later
      · exact List.mem_append_left _ inside
      · exact List.mem_append_right _ (ih later)

/-- Without the word `IF` no program ends with a branch. -/
theorem ReadAs.lastOpen {text : String} {nodes : List Node} (readAs : ReadAs text nodes)
    {name : String} {tokens : List Token} (scanned : Source.tokens ⟨name, text⟩ = .ok tokens)
    (noBranch : ∀ t ∈ tokens, t.isKeyword .ifWord = false) : Grammar.lastOpen nodes = false := by
  obtain ⟨pieces, nodes', lexes, reading, same⟩ := readAs
  rw [← lastOpen_eraseAll, ← same, lastOpen_eraseAll]
  refine Bool.eq_false_iff.mpr fun isOpen => ?_
  obtain ⟨node, isLast, isOpen⟩ : ∃ node, nodes'.getLast? = some node ∧ node.endsOpen = true := by
    simpa [Grammar.lastOpen, Option.any_eq_true] using isOpen
  have member := mem_statementLexemes (List.mem_of_getLast? isLast) (ifWord_mem_lexemes node isOpen)
  rw [← reading.tokens.1] at member
  obtain ⟨t, kept, isIf⟩ := List.mem_map.mp member
  have found : Lexeme.keyword .ifWord ∈ tokens.map (·.lexeme) := by
    have read := Source.tokens_of_lexes lexes name
    obtain rfl := Except.ok.inj (scanned.symm.trans read)
    have inside : t.lexeme ∈ (unplaced (.newline :: lexemes pieces)).map (·.lexeme) :=
      List.mem_map_of_mem (List.mem_filter.mp kept).1
    rw [map_lexeme_unplaced, isIf] at inside
    rw [lexemes_place]
    simpa using inside
  obtain ⟨u, member, isIf⟩ := List.mem_map.mp found
  have none := noBranch u member
  rw [Token.isKeyword, isIf] at none
  cases none

end Grammar
end Pseudocode
