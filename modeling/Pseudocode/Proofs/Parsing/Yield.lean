import Pseudocode.Proofs.Parsing.Derivation
import Pseudocode.Proofs.Tree.Shape

/-!
# The tokens of a derivation

A tree determines the tokens that it is derived from, up to parentheses and line ends.  The
parentheses are balanced, and a phrase opens with parentheses and something that is none.
-/

namespace Pseudocode
namespace Grammar

/-- Whether a token is neither a parenthesis nor a line end. -/
def isSolid (t : Token) : Bool :=
  match t.lexeme with
  | .leftParen => false
  | .rightParen => false
  | .newline => false
  | _ => true

/-- The lexemes of tokens, without parentheses and line ends. -/
def solid (tokens : List Token) : List Lexeme :=
  (tokens.filter isSolid).map (·.lexeme)

@[simp]
theorem solid_nil : solid [] = [] := rfl

@[simp]
theorem solid_append (ts us : List Token) : solid (ts ++ us) = solid ts ++ solid us := by
  simp [solid]

theorem solid_cons (t : Token) (ts : List Token) :
    solid (t :: ts) = if isSolid t then t.lexeme :: solid ts else solid ts := by
  by_cases kept : isSolid t = true <;> simp [solid, kept]

theorem solid_newlines {lines : List Token} (ends : Newlines lines) : solid lines = [] := by
  rw [solid, List.map_eq_nil_iff, List.filter_eq_nil_iff]
  intro t member
  simp [isSolid, ends t member]

theorem lexeme_of_operator {level : Level} {l : Lexeme} {op : BinaryOp}
    (isOperator : level.operator? l = some op) : l = op.lexeme := by
  cases level <;>
    simp only [Level.operator?, logicalOp?, comparisonOp?, sumOp?, termOp?] at isOperator <;>
    split at isOperator <;> cases isOperator <;> rfl

theorem lexeme_of_power {l : Lexeme} {op : BinaryOp} (isPower : powerOp? l = some op) :
    l = op.lexeme := by
  cases l <;> cases isPower
  rfl

theorem lexeme_of_sign {l : Lexeme} {op : UnaryOp} (isSign : signOp? l = some op) :
    l = op.lexeme := by
  cases l <;> cases isSign <;> rfl

@[simp]
theorem solid_binary (op : BinaryOp) (span : Span) (ts : List Token) :
    solid (⟨op.lexeme, span⟩ :: ts) = op.lexeme :: solid ts := by
  cases op <;> rfl

@[simp]
theorem solid_unary (op : UnaryOp) (span : Span) (ts : List Token) :
    solid (⟨op.lexeme, span⟩ :: ts) = op.lexeme :: solid ts := by
  cases op <;> rfl

/-- The lexemes of a phrase, without parentheses and line ends. -/
def phraseLexemes : Symbol → Phrase → List Lexeme
  | .braces, .node node => node.blockLexemes
  | .block, .node (.list nodes _) => statementLexemes nodes
  | .operations _, .operations operations =>
      operations.flatMap fun o => o.op.lexeme :: o.operand.lexemes
  | .items, .nodes nodes => itemLexemes nodes
  | .moreItems, .nodes nodes => moreItemLexemes nodes
  | .moreStatements, .nodes nodes => statementLexemes nodes
  | .cases word, .cases parts =>
      .keyword word :: parts.condition.lexemes ++ parts.body.blockLexemes ++
        guardLexemes parts.others ++ elseLexemes parts.otherwise
  | _, .node node => node.lexemes
  | _, _ => []

theorem lexemes_applyAll (left : Node) (operations : List Operation) :
    (applyAll left operations).lexemes =
      left.lexemes ++ operations.flatMap fun o => o.op.lexeme :: o.operand.lexemes := by
  induction operations generalizing left with
  | nil => simp
  | cons o operations ih => simp [ih, Node.mkBinary, Node.lexemes]

theorem lexemes_operand (level : Level) (node : Node) :
    phraseLexemes level.operand (.node node) = node.lexemes := by
  cases level <;> rfl

theorem Names.solid {ts : List Token} {names : List Name} (listed : Names ts names) :
    solid ts = parameterLexemes names := by
  induction listed with
  | one text span => rfl
  | more text span comma others ih =>
      cases others <;> simp_all [solid_cons, isSolid, parameterLexemes]

theorem Parameters.solid {ts : List Token} {names : List Name} (listed : Parameters ts names) :
    solid ts = parameterLexemes names := by
  cases listed with
  | none => rfl
  | some listed => exact listed.solid

theorem Derives.exists_list {ts : List Token} {node : Node}
    (derived : Derives .block ts (.node node)) : ∃ nodes span, node = .list nodes span := by
  cases derived
  exact ⟨_, _, rfl⟩

/-- A tree determines the tokens it is derived from, up to parentheses and line ends. -/
theorem Derives.solid {s : Symbol} {ts : List Token} {x : Phrase} (derived : Derives s ts x) :
    solid ts = phraseLexemes s x := by
  induction derived with
  | assign text span sign right ih =>
      simp [solid_cons, isSolid, ih, phraseLexemes, Node.mkAssign, Node.lexemes]
  | logical whole ih => exact ih
  | negation word operand ih =>
      simp [solid_cons, isSolid, ih, phraseLexemes, Node.mkUnary, Node.lexemes,
        UnaryOp.lexeme]
  | comparing whole ih => exact ih
  | chain first others first_ih others_ih =>
      rw [lexemes_operand] at first_ih
      simp [first_ih, others_ih, phraseLexemes, lexemes_applyAll]
  | noOperation => rfl
  | operation sign isOperator operand others operand_ih others_ih =>
      obtain ⟨lexeme, span⟩ := sign
      obtain rfl := lexeme_of_operator isOperator
      rw [lexemes_operand] at operand_ih
      simp [operand_ih, others_ih, phraseLexemes]
  | sign sign isSign operand ih =>
      obtain ⟨lexeme, span⟩ := sign
      obtain rfl := lexeme_of_sign isSign
      simp [ih, phraseLexemes, Node.mkUnary, Node.lexemes]
  | unsigned whole ih => exact ih
  | base whole ih => exact ih
  | raised sign base isPower exponent base_ih exponent_ih =>
      obtain ⟨lexeme, span⟩ := sign
      obtain rfl := lexeme_of_power isPower
      simp [base_ih, exponent_ih, phraseLexemes, Node.mkBinary, Node.lexemes]
  | bare whole ih => exact ih
  | callEmpty opening closing called ih =>
      simp [solid_cons, isSolid, ih, phraseLexemes, Node.mkCall, Node.lexemes, itemLexemes]
  | call opening closing called given called_ih given_ih =>
      simp [solid_cons, isSolid, called_ih, given_ih, phraseLexemes, Node.mkCall,
        Node.lexemes]
  | items head tail head_ih tail_ih =>
      simp [head_ih, tail_ih, phraseLexemes, itemLexemes]
  | lastItem => rfl
  | nextItem comma head tail head_ih tail_ih =>
      simp [solid_cons, isSolid, head_ih, tail_ih, phraseLexemes, moreItemLexemes]
  | parenthesised opening closing inside ih =>
      simpa [solid_cons, isSolid, phraseLexemes] using ih
  | list opening closing span inside ih =>
      simp [solid_cons, isSolid, ih, phraseLexemes, Node.lexemes]
  | branch whole ih =>
      simp [ih, phraseLexemes, Cases.branch, Node.mkBranch, Node.lexemes]
  | forEach forWord eachWord inWord span listSpan text list inside ih =>
      simp [solid_cons, isSolid, ih, phraseLexemes, Node.mkForEach, Node.lexemes]
  | whileLoop word guard inside guard_ih inside_ih =>
      simp [solid_cons, isSolid, guard_ih, inside_ih, phraseLexemes, Node.mkWhile,
        Node.lexemes]
  | untilLoop word untilWord guard inside guard_ih inside_ih =>
      simp [solid_cons, isSolid, guard_ih, inside_ih, phraseLexemes, Node.mkUntil,
        Node.lexemes]
  | repeatFixed word span timesWord count inside ih =>
      simp [solid_cons, isSolid, ih, phraseLexemes, Node.mkRepeatFixed, Node.lexemes]
  | repeatBy word span timesWord text inside ih =>
      simp [solid_cons, isSolid, ih, phraseLexemes, Node.mkRepeatBy, Node.lexemes]
  | procedure word span opening closing text listed inside ih =>
      simp [solid_cons, isSolid, listed.solid, ih, phraseLexemes, Node.mkProcedure,
        Node.lexemes]
  | anonymous word opening closing listed inside ih =>
      simp [solid_cons, isSolid, listed.solid, ih, phraseLexemes, Node.mkProcedure,
        Node.lexemes]
  | condition opening closing inside ih =>
      simpa [solid_cons, isSolid, phraseLexemes] using ih
  | braces opening closing ends inside ih =>
      obtain ⟨nodes, span, rfl⟩ := inside.exists_list
      simp [solid_cons, isSolid, ih, solid_newlines ends, phraseLexemes, Node.blockLexemes]
  | lastCase span guard inside ends guard_ih inside_ih =>
      simp [solid_cons, isSolid, guard_ih, inside_ih, solid_newlines ends,
        phraseLexemes, guardLexemes, elseLexemes]
  | elifCase span guard inside ends others guard_ih inside_ih others_ih =>
      simp [solid_cons, isSolid, guard_ih, inside_ih, others_ih,
        solid_newlines ends, phraseLexemes, Cases.guard, guardLexemes, guardLexeme]
  | elseCase span elseWord guard inside ends otherwise guard_ih inside_ih
      otherwise_ih =>
      simp [solid_cons, isSolid, guard_ih, inside_ih, otherwise_ih,
        solid_newlines ends, phraseLexemes, guardLexemes, elseLexemes]
  | returnValue word span result ih =>
      simp [solid_cons, isSolid, ih, phraseLexemes, Node.lexemes, valueLexemes]
  | evaluated whole ih => exact ih
  | block span ends head tail head_ih tail_ih =>
      simp [solid_newlines ends, head_ih, tail_ih, phraseLexemes, statementLexemes]
  | lastStatement ends => exact solid_newlines ends
  | nextStatement nonempty ends head tail head_ih tail_ih =>
      simp [solid_newlines ends, head_ih, tail_ih, phraseLexemes, statementLexemes]
  | _ => rfl

/-! ## Parentheses -/

/-- How much a lexeme adds to the parentheses that are open. -/
def opens : Lexeme → Int
  | .leftParen => 1
  | .rightParen => -1
  | _ => 0

/-- How many parentheses tokens leave open. -/
def openParens : List Token → Int
  | [] => 0
  | t :: ts => opens t.lexeme + openParens ts

@[simp]
theorem openParens_nil : openParens [] = 0 := rfl

@[simp]
theorem openParens_cons (t : Token) (ts : List Token) :
    openParens (t :: ts) = opens t.lexeme + openParens ts := rfl

@[simp]
theorem openParens_append (ts us : List Token) :
    openParens (ts ++ us) = openParens ts + openParens us := by
  induction ts with
  | nil => simp
  | cons t ts ih =>
      rw [List.cons_append, openParens_cons, ih, openParens_cons, Int.add_assoc]

theorem openParens_newlines {lines : List Token} (ends : Newlines lines) :
    openParens lines = 0 := by
  induction lines with
  | nil => rfl
  | cons line lines ih =>
      have rest := ih fun t member => ends t (List.mem_cons_of_mem line member)
      simp [ends line List.mem_cons_self, opens, rest]

@[simp]
theorem opens_binary (op : BinaryOp) : opens op.lexeme = 0 := by
  cases op <;> rfl

@[simp]
theorem opens_unary (op : UnaryOp) : opens op.lexeme = 0 := by
  cases op <;> rfl

theorem Names.openParens {ts : List Token} {names : List Name} (listed : Names ts names) :
    openParens ts = 0 := by
  induction listed with
  | one text span => rfl
  | more text span comma others ih => simp [opens, ih]

theorem Parameters.openParens {ts : List Token} {names : List Name} (listed : Parameters ts names) :
    openParens ts = 0 := by
  cases listed with
  | none => rfl
  | some listed => exact listed.openParens

/-- Parentheses are balanced in a derivation. -/
theorem Derives.openParens {s : Symbol} {ts : List Token} {x : Phrase} (derived : Derives s ts x) :
    openParens ts = 0 := by
  induction derived with
  | operation sign isOperator operand others operand_ih others_ih =>
      simp [lexeme_of_operator isOperator, operand_ih, others_ih]
  | sign sign isSign operand ih => simp [lexeme_of_sign isSign, ih]
  | raised sign base isPower exponent base_ih exponent_ih =>
      simp [lexeme_of_power isPower, base_ih, exponent_ih]
  | procedure word span opening closing text listed inside ih =>
      simp [opens, listed.openParens, ih]
  | anonymous word opening closing listed inside ih =>
      simp [opens, listed.openParens, ih]
  | braces opening closing ends inside ih =>
      simp [opens, openParens_newlines ends, ih]
  | lastCase span guard inside ends guard_ih inside_ih =>
      simp [opens, openParens_newlines ends, guard_ih, inside_ih]
  | elifCase span guard inside ends others guard_ih inside_ih others_ih =>
      simp [opens, openParens_newlines ends, guard_ih, inside_ih, others_ih]
  | elseCase span elseWord guard inside ends otherwise guard_ih inside_ih
      otherwise_ih =>
      simp [opens, openParens_newlines ends, guard_ih, inside_ih, otherwise_ih]
  | block span ends head tail head_ih tail_ih =>
      simp [openParens_newlines ends, head_ih, tail_ih]
  | lastStatement ends => exact openParens_newlines ends
  | nextStatement nonempty ends head tail head_ih tail_ih =>
      simp [openParens_newlines ends, head_ih, tail_ih]
  | _ => simp_all [opens]

/-! ## First and last tokens -/

/-- Symbols whose phrases start right away, without line ends in front. -/
def Symbol.direct : Symbol → Bool
  | .operations _ => false
  | .moreItems => false
  | .braces => false
  | .block => false
  | .moreStatements => false
  | _ => true

/-- Opening parentheses and then something else. -/
def OpensWith (tokens : List Token) : Prop :=
  ∃ opened t rest, tokens = opened ++ t :: rest ∧ (∀ o ∈ opened, o.lexeme = .leftParen) ∧
    isSolid t = true

theorem OpensWith.cons {t : Token} (kept : isSolid t = true) (ts : List Token) :
    OpensWith (t :: ts) :=
  ⟨[], t, ts, rfl, by simp, kept⟩

theorem OpensWith.append {ts : List Token} (opens : OpensWith ts) (us : List Token) :
    OpensWith (ts ++ us) := by
  obtain ⟨opened, t, rest, rfl, areOpen, kept⟩ := opens
  exact ⟨opened, t, rest ++ us, by simp, areOpen, kept⟩

theorem OpensWith.parenthesised {ts : List Token} (opens : OpensWith ts) (span : Span) :
    OpensWith (⟨.leftParen, span⟩ :: ts) := by
  obtain ⟨opened, t, rest, rfl, areOpen, kept⟩ := opens
  exact ⟨⟨.leftParen, span⟩ :: opened, t, rest, rfl, by simpa using areOpen, kept⟩

theorem OpensWith.exists_cons {ts : List Token} (opens : OpensWith ts) :
    ∃ t rest, ts = t :: rest ∧ t.lexeme ≠ .newline := by
  obtain ⟨_ | ⟨o, opened⟩, t, rest, rfl, areOpen, kept⟩ := opens
  · refine ⟨t, rest, rfl, fun line => ?_⟩
    simp [isSolid, line] at kept
  · refine ⟨o, opened ++ t :: rest, rfl, ?_⟩
    rw [areOpen o List.mem_cons_self]
    exact Lexeme.noConfusion

theorem isSolid_of_lexeme {t : Token} {l : Lexeme} (same : t.lexeme = l)
    (kept : isSolid ⟨l, t.span⟩ = true) : isSolid t = true := by
  obtain ⟨lexeme, span⟩ := t
  obtain rfl : lexeme = l := same
  exact kept

/-- In front of the first solid token of a phrase there are only opening parentheses. -/
theorem Derives.opensWith {s : Symbol} {ts : List Token} {x : Phrase} (derived : Derives s ts x)
    (direct : s.direct = true) : OpensWith ts := by
  induction derived with
  | logical whole ih => exact ih rfl
  | comparing whole ih => exact ih rfl
  | @chain level ts us left operations first others first_ih others_ih =>
      exact (first_ih (by cases level <;> rfl)).append us
  | @sign sign op ts node isSign operand ih =>
      exact .cons (isSolid_of_lexeme (lexeme_of_sign isSign) (by cases op <;> rfl)) ts
  | unsigned whole ih => exact ih rfl
  | base whole ih => exact ih rfl
  | raised sign base isPower exponent base_ih exponent_ih =>
      exact (base_ih rfl).append _
  | bare whole ih => exact ih rfl
  | callEmpty opening closing called ih => exact (ih rfl).append _
  | call opening closing called given called_ih given_ih =>
      exact ((called_ih rfl).append _).append _
  | items head tail head_ih tail_ih => exact (head_ih rfl).append _
  | parenthesised opening closing inside ih =>
      exact ((ih rfl).parenthesised opening).append _
  | branch whole ih => exact ih rfl
  | condition opening closing inside ih =>
      exact ((ih rfl).parenthesised opening).append _
  | evaluated whole ih => exact ih rfl
  | noOperation => cases direct
  | operation => cases direct
  | lastItem => cases direct
  | nextItem => cases direct
  | braces => cases direct
  | block => cases direct
  | lastStatement => cases direct
  | nextStatement => cases direct
  | _ => exact .cons rfl _

end Grammar
end Pseudocode
