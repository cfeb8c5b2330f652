import Pseudocode.Proofs.Parsing.Printing
import Pseudocode.Proofs.Scanning.Spelling
import Pseudocode.Tree.Parse

/-!
# Formulas

A formula is an expression over numerals and truth values without names, texts, lists, quotients and
powers.  It has a value of its own, in exact arithmetic, and a text, in which every compound part
stands in parentheses.  The text of a formula is a program that consists of the formula.
-/

namespace Pseudocode

/-- A decimal numeral of a length that can be read. -/
structure Numeral where
  /-- The digits, from the first to the last. -/
  digits : List (Fin 10)
  nonempty : digits ≠ []
  short : digits.length ≤ 4300

/-- The number that a numeral denotes. -/
def Numeral.value (n : Numeral) : Nat :=
  n.digits.foldl (fun value d => 10 * value + d.val) 0

/-- The digits of a numeral as a word. -/
def Numeral.word (n : Numeral) : String :=
  String.ofList (n.digits.map Scanner.digitChar)

/-- Whether a binary operator stays within the whole numbers and the truth values. -/
def isExact : BinaryOp → Bool
  | .div => false
  | .pow _ => false
  | _ => true

/-- Closed expressions over numerals and truth values. -/
inductive Formula where
  | numeral (n : Numeral)
  | truth (value : Bool)
  | unary (op : UnaryOp) (operand : Formula)
  | binary (left : Formula) (op : BinaryOp) (exactOp : isExact op = true) (right : Formula)

/-! ## Values -/

/-- The value of a formula. -/
inductive Value where
  | whole (n : Int)
  | truth (value : Bool)
  deriving DecidableEq, Repr

/-- Why a formula has no value. -/
inductive Mishap where
  /-- An operation on values that it is not made for. -/
  | illTyped
  /-- A remainder by zero. -/
  | zeroDivisor
  deriving DecidableEq, Repr

/-- The wording of a mishap. -/
def Mishap.message : Mishap → String
  | illTyped => "Illegal operation"
  | zeroDivisor => "Division by zero"

/-- A unary operation.  A plus changes nothing. -/
def Value.unary : UnaryOp → Value → Except Mishap Value
  | .plus, value => .ok value
  | .minus, .whole n => .ok (.whole (-n))
  | .not, .truth b => .ok (.truth !b)
  | _, _ => .error .illTyped

/-- The remainder of a division that has the sign of the divisor. -/
def Value.remainder (a b : Int) : Int :=
  if b < 0 then -(-a % b) else a % b

/-- A binary operation.  Sums, differences and products take truth values for one and zero. -/
def Value.binary : BinaryOp → Value → Value → Except Mishap Value
  | .add, .whole a, .whole b => .ok (.whole (a + b))
  | .sub, .whole a, .whole b => .ok (.whole (a - b))
  | .mul, .whole a, .whole b => .ok (.whole (a * b))
  | .mod, .whole a, .whole b =>
      if b = 0 then .error .zeroDivisor else .ok (.whole (remainder a b))
  | .equal, .whole a, .whole b => .ok (.truth (a = b))
  | .notEqual, .whole a, .whole b => .ok (.truth (a ≠ b))
  | .less, .whole a, .whole b => .ok (.truth (a < b))
  | .greater, .whole a, .whole b => .ok (.truth (b < a))
  | .lessEqual, .whole a, .whole b => .ok (.truth (a ≤ b))
  | .greaterEqual, .whole a, .whole b => .ok (.truth (b ≤ a))
  | .add, .truth a, .truth b => .ok (.whole (a.toInt + b.toInt))
  | .sub, .truth a, .truth b => .ok (.whole (a.toInt - b.toInt))
  | .mul, .truth a, .truth b => .ok (.whole (a.toInt * b.toInt))
  | .equal, .truth a, .truth b => .ok (.truth (a = b))
  | .notEqual, .truth a, .truth b => .ok (.truth (a ≠ b))
  | .and, .truth a, .truth b => .ok (.truth (a && b))
  | .or, .truth a, .truth b => .ok (.truth (a || b))
  | _, _, _ => .error .illTyped

namespace Formula

/-- The value of a formula: operands from left to right, then the operator. -/
def value : Formula → Except Mishap Value
  | numeral n => .ok (.whole n.value)
  | truth b => .ok (.truth b)
  | unary op operand => do
      let a ← operand.value
      Value.unary op a
  | binary left op _ right => do
      let a ← left.value
      let b ← right.value
      Value.binary op a b

/-! ## Texts -/

/-- Whether a formula has parts. -/
def isCompound : Formula → Bool
  | numeral _ => false
  | truth _ => false
  | unary _ _ => true
  | binary _ _ _ _ => true

/-- Put something around a list if asked to. -/
def wrap {α : Type} (opening closing : α) (wanted : Bool) (inside : List α) : List α :=
  if wanted then opening :: inside ++ [closing] else inside

/-- The words of a formula, with parentheses around every compound part. -/
def words : Formula → List String
  | numeral n => [n.word]
  | truth b => [if b then "TRUE" else "FALSE"]
  | unary op operand =>
      Scanner.unaryWord op :: wrap "(" ")" operand.isCompound operand.words
  | binary left op _ right =>
      wrap "(" ")" left.isCompound left.words ++
        Scanner.binaryWord op :: wrap "(" ")" right.isCompound right.words

/-- The text of a formula, with or without parentheses around all of it. -/
def text (f : Formula) (outer : Bool) : String :=
  Scanner.spaced (wrap "(" ")" (outer && f.isCompound) f.words)

/-! ## Reading the text -/

/-- The lexemes of a formula, with parentheses around every compound part. -/
def lexemes : Formula → List Lexeme
  | numeral n => [.int n.value]
  | truth b => [.keyword (if b then .trueWord else .falseWord)]
  | unary op operand =>
      op.lexeme :: wrap .leftParen .rightParen operand.isCompound operand.lexemes
  | binary left op _ right =>
      wrap .leftParen .rightParen left.isCompound left.lexemes ++
        op.lexeme :: wrap .leftParen .rightParen right.isCompound right.lexemes

/-- The tree of a formula, without places. -/
def node : Formula → Node
  | numeral n => .number (.whole n.value) default
  | truth b => .truth b default
  | unary op operand => .unary op default operand.node default
  | binary left op _ right => .binary left.node op default right.node default

end Formula

open Scanner Grammar

theorem Numeral.spelled (n : Numeral) : Spelled n.word (.int n.value) := by
  have digits := spelled_digits n.nonempty n.short
  rw [Number.ofDigits, List.foldl_map] at digits
  exact digits

namespace Formula

theorem spelled_wrap {words : List String} {lexemes : List Lexeme}
    (spelled : SpelledAll words lexemes) (wanted : Bool) :
    SpelledAll (wrap "(" ")" wanted words) (wrap .leftParen .rightParen wanted lexemes) := by
  cases wanted with
  | false => exact spelled
  | true => exact .cons spelled_leftParen (spelled.append spelled_rightParen.all)

theorem spelled (f : Formula) : SpelledAll f.words f.lexemes := by
  induction f with
  | numeral n => exact n.spelled.all
  | truth b =>
      cases b with
      | true => exact (spelled_keyword .trueWord).all
      | false => exact (spelled_keyword .falseWord).all
  | unary op operand ih =>
      exact .cons (spelled_unary op) (spelled_wrap ih operand.isCompound)
  | binary left op exactOp right left_ih right_ih =>
      exact (spelled_wrap left_ih left.isCompound).append
        (.cons (spelled_binary op) (spelled_wrap right_ih right.isCompound))

/-- Where a formula stands in parentheses if it has parts, it is an atom. -/
def Closed (f : Formula) : Prop :=
  ∀ ts, Spells ts (wrap .leftParen .rightParen f.isCompound f.lexemes) → Writes .atom ts f.node

/-- In parentheses, a formula of any precedence is an atom. -/
theorem writes_wrapped {f : Formula} {p : Precedence} {ts : List Token}
    (writes : ∀ ts, Spells ts f.lexemes → Writes p ts f.node)
    (spells : Spells ts (wrap .leftParen .rightParen true f.lexemes)) : Writes .atom ts f.node := by
  obtain ⟨opening, us, rfl, rest⟩ := Spells.exists_cons spells
  obtain ⟨vs, ws, rfl, inside, last⟩ := rest.exists_append
  obtain ⟨closing, rfl⟩ := last.exists_singleton
  exact (writes vs inside).parenthesised opening closing

theorem writes_unary {op : UnaryOp} {operand : Formula} (closed : operand.Closed) {ts : List Token}
    (spells : Spells ts (unary op operand).lexemes) :
    Writes (unaryPrecedence op) ts (unary op operand).node := by
  obtain ⟨span, us, rfl, rest⟩ := Spells.exists_cons spells
  have writes : Writes (unaryPrecedence op) us operand.node :=
    (closed us rest).loosen (by cases op <;> decide)
  cases op with
  | plus => exact writes.signed rfl
  | minus => exact writes.signed rfl
  | not => exact writes.negated span

theorem exists_level {op : BinaryOp} (exactOp : isExact op = true) :
    ∃ level, level? op = some level := by
  cases op with
  | pow doubled => cases exactOp
  | _ => exact ⟨_, rfl⟩

theorem writes_binary {left right : Formula} {op : BinaryOp} {exactOp : isExact op = true}
    {level : Level} (found : level? op = some level) (leftClosed : left.Closed)
    (rightClosed : right.Closed) {ts : List Token}
    (spells : Spells ts (binary left op exactOp right).lexemes) :
    Writes level.precedence ts (binary left op exactOp right).node := by
  obtain ⟨us, vs, rfl, leftSpells, rest⟩ := Spells.exists_append spells
  obtain ⟨span, ws, rfl, rightSpells⟩ := rest.exists_cons
  have tight : level.tighter.rank ≤ Precedence.atom.rank := by cases level <;> decide
  have chains : Chains level us left.node := ((leftClosed us leftSpells).loosen tight).chains
  have both : Chains level (us ++ ⟨op.lexeme, span⟩ :: ws) (binary left op exactOp right).node :=
    chains.operation ((rightClosed ws rightSpells).loosen tight) (operator?_of_level? found)
  exact both.writes

theorem closed (f : Formula) : f.Closed := by
  induction f with
  | numeral n =>
      intro ts spells
      obtain ⟨span, rfl⟩ := spells.exists_singleton
      exact writes_token (Reads.int n.value span)
  | truth b =>
      intro ts spells
      obtain ⟨span, rfl⟩ := spells.exists_singleton
      cases b with
      | true => exact writes_token (Reads.trueWord span)
      | false => exact writes_token (Reads.falseWord span)
  | unary op operand ih =>
      intro ts spells
      exact writes_wrapped (fun _ inside => writes_unary ih inside) spells
  | binary left op exactOp right left_ih right_ih =>
      intro ts spells
      obtain ⟨level, found⟩ := exists_level exactOp
      exact writes_wrapped
        (fun _ inside => writes_binary found left_ih right_ih inside) spells

/-- A formula may also stand without parentheses around all of it. -/
theorem writes (f : Formula) (outer : Bool) {ts : List Token}
    (spells : Spells ts (wrap .leftParen .rightParen (outer && f.isCompound) f.lexemes)) :
    Writes .assignment ts f.node := by
  cases outer with
  | true => exact (f.closed ts spells).loosen (Nat.zero_le _)
  | false =>
      cases f with
      | numeral n => exact ((numeral n).closed ts spells).loosen (Nat.zero_le _)
      | truth b => exact ((truth b).closed ts spells).loosen (Nat.zero_le _)
      | unary op operand => exact (writes_unary operand.closed spells).loosen (Nat.zero_le _)
      | binary left op exactOp right =>
          obtain ⟨level, found⟩ := exists_level exactOp
          exact (writes_binary found left.closed right.closed spells).loosen (Nat.zero_le _)

/-- The text of a formula is a program that consists of the formula. -/
theorem parse_text (f : Formula) (outer : Bool) (name : String) :
    ∃ tree span, Source.parse ⟨name, f.text outer⟩ = .ok (.list [tree] span) ∧
      tree.erase = f.node := by
  obtain ⟨tokens, scanned, same⟩ :=
    tokens_spaced (spelled_wrap f.spelled (outer && f.isCompound)) name
  obtain ⟨ts, us, rfl, spells, last⟩ := List.map_eq_append_iff.mp same
  obtain ⟨span, rfl⟩ := Spells.exists_singleton last
  obtain ⟨tree, reading, shape⟩ :=
    f.writes outer spells ⟨.eof, span⟩ [] (endsBefore_of_none _ rfl)
  obtain ⟨place, parsed⟩ := parseProgram_of_statement (.evaluated reading) rfl
  refine ⟨tree, place, ?_, shape⟩
  change (Source.tokens ⟨name, f.text outer⟩ >>= parseProgram) = _
  rw [text, scanned]
  exact parsed

/-! ## Depth -/

/-- How deeply a formula is nested. -/
def depth : Formula → Nat
  | numeral _ => 1
  | truth _ => 1
  | unary _ operand => operand.depth + 1
  | binary left _ _ right => max left.depth right.depth + 1

theorem length_le_wrap {α : Type} (opening closing : α) (wanted : Bool) (inside : List α) :
    inside.length ≤ (wrap opening closing wanted inside).length := by
  cases wanted <;> simp [wrap]
  omega

theorem depth_le_words (f : Formula) : f.depth ≤ f.words.length := by
  induction f with
  | numeral n => exact Nat.le_refl 1
  | truth b => exact Nat.le_refl 1
  | unary op operand ih =>
      have longer := length_le_wrap "(" ")" operand.isCompound operand.words
      simp only [depth, words, List.length_cons]
      omega
  | binary left op exactOp right left_ih right_ih =>
      have longer := length_le_wrap "(" ")" left.isCompound left.words
      have longer' := length_le_wrap "(" ")" right.isCompound right.words
      simp only [depth, words, List.length_append, List.length_cons]
      omega

/-- A formula is not nested more deeply than its text is long. -/
theorem depth_le_text (f : Formula) (outer : Bool) : f.depth ≤ (f.text outer).length := by
  have words := f.depth_le_words
  have wrapped := length_le_wrap "(" ")" (outer && f.isCompound) f.words
  have long := (spelled_wrap f.spelled (outer && f.isCompound)).length_le
  rw [text]
  omega

end Formula
end Pseudocode
