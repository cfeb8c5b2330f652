import Pseudocode.Tree

/-!
# Trees up to places

`Node.erase` forgets all places in a tree, so two trees are the same up to places if what is left of
them is equal.
-/

namespace Pseudocode

/-- A name without its place. -/
def Name.erase (name : Name) : Name :=
  ⟨name.text, default⟩

mutual

/-- A tree without places. -/
def Node.erase : Node → Node
  | .number value _ => .number value default
  | .truth value _ => .truth value default
  | .text value _ => .text value default
  | .list elements _ => .list (eraseAll elements) default
  | .access name => .access name.erase
  | .assign name value _ => .assign name.erase value.erase default
  | .binary left op _ right _ => .binary left.erase op default right.erase default
  | .unary op _ operand _ => .unary op default operand.erase default
  | .branch condition body others otherwise _ =>
      .branch condition.erase body.erase (eraseGuards others) (eraseOption otherwise) default
  | .forEach name list body _ => .forEach name.erase list.erase body.erase default
  | .whileLoop condition body _ => .whileLoop condition.erase body.erase default
  | .untilLoop condition body _ => .untilLoop condition.erase body.erase default
  | .repeatFixed count _ body _ => .repeatFixed count default body.erase default
  | .repeatBy count body _ => .repeatBy count.erase body.erase default
  | .procedure name parameters body _ =>
      .procedure (name.map Name.erase) (parameters.map Name.erase) body.erase default
  | .call callee arguments _ => .call callee.erase (eraseAll arguments) default
  | .returning value _ => .returning (eraseOption value) default
  | .continuing _ => .continuing default
  | .breaking _ => .breaking default

/-- Trees without places. -/
def eraseAll : List Node → List Node
  | [] => []
  | node :: nodes => node.erase :: eraseAll nodes

/-- A condition and its body without places. -/
def eraseGuard : Node × Node → Node × Node
  | (condition, body) => (condition.erase, body.erase)

/-- Conditions and their bodies without places. -/
def eraseGuards : List (Node × Node) → List (Node × Node)
  | [] => []
  | guard :: guards => eraseGuard guard :: eraseGuards guards

/-- A tree without places, if there is one. -/
def eraseOption : Option Node → Option Node
  | none => none
  | some node => some node.erase

end

theorem eraseAll_append (nodes others : List Node) :
    eraseAll (nodes ++ others) = eraseAll nodes ++ eraseAll others := by
  induction nodes with
  | nil => rfl
  | cons node nodes ih => simp [eraseAll, ih]

/-- Whether the right edge of a tree is a branch without `ELSE`, which one might still follow. -/
def Node.endsOpen : Node → Bool
  | .branch _ _ _ otherwise _ => otherwise.isNone
  | .assign _ value _ => value.endsOpen
  | .binary _ _ _ right _ => right.endsOpen
  | .unary _ _ operand _ => operand.endsOpen
  | .returning (some value) _ => value.endsOpen
  | _ => false
termination_by structural node => node

@[simp]
theorem Node.endsOpen_erase : ∀ node : Node, node.erase.endsOpen = node.endsOpen
  | .branch _ _ _ otherwise _ => by cases otherwise <;> rfl
  | .assign _ value _ => value.endsOpen_erase
  | .binary _ _ _ right _ => right.endsOpen_erase
  | .unary _ _ operand _ => operand.endsOpen_erase
  | .returning (some value) _ => value.endsOpen_erase
  | .returning none _ => rfl
  | .number .. => rfl
  | .truth .. => rfl
  | .text .. => rfl
  | .list .. => rfl
  | .access .. => rfl
  | .forEach .. => rfl
  | .whileLoop .. => rfl
  | .untilLoop .. => rfl
  | .repeatFixed .. => rfl
  | .repeatBy .. => rfl
  | .procedure .. => rfl
  | .call .. => rfl
  | .continuing .. => rfl
  | .breaking .. => rfl

/-! ## Trees with a given shape -/

namespace Node

variable {node : Node}

theorem exists_number_of_erase {value : Number} {place : Span}
    (shape : node.erase = .number value place) : ∃ span, node = .number value span := by
  cases node with
  | number other span =>
      obtain ⟨rfl, _⟩ := Node.number.inj shape
      exact ⟨span, rfl⟩
  | _ => cases shape

theorem exists_truth_of_erase {value : Bool} {place : Span}
    (shape : node.erase = .truth value place) : ∃ span, node = .truth value span := by
  cases node with
  | truth other span =>
      obtain ⟨rfl, _⟩ := Node.truth.inj shape
      exact ⟨span, rfl⟩
  | _ => cases shape

theorem exists_unary_of_erase {op : UnaryOp} {inner : Node} {sign place : Span}
    (shape : node.erase = .unary op sign inner place) :
    ∃ sign operand span, node = .unary op sign operand span ∧ operand.erase = inner := by
  cases node with
  | unary other mark operand span =>
      obtain ⟨rfl, _, same, _⟩ := Node.unary.inj shape
      exact ⟨mark, operand, span, rfl, same⟩
  | _ => cases shape

theorem exists_binary_of_erase {op : BinaryOp} {first second : Node} {sign place : Span}
    (shape : node.erase = .binary first op sign second place) :
    ∃ left sign right span, node = .binary left op sign right span ∧
      left.erase = first ∧ right.erase = second := by
  cases node with
  | binary left other mark right span =>
      obtain ⟨same, rfl, _, same', _⟩ := Node.binary.inj shape
      exact ⟨left, mark, right, span, rfl, same, same'⟩
  | _ => cases shape

end Node

/-! ## The lexemes of a tree -/

/-- Parameters with commas between them. -/
def parameterLexemes : List Name → List Lexeme
  | [] => []
  | [name] => [.name name.text]
  | name :: names => .name name.text :: .comma :: parameterLexemes names

mutual

/-- The lexemes that a tree is written with, but for parentheses and line ends. -/
def Node.lexemes : Node → List Lexeme
  | .number (.whole n) _ => [.int n.toNat]
  | .number (.real x) _ => [.float x]
  | .number (.complex _ _) _ => []
  | .truth value _ => [.keyword (if value then .trueWord else .falseWord)]
  | .text value _ => [.string value]
  | .list elements _ => .leftBracket :: itemLexemes elements ++ [.rightBracket]
  | .access name => [.name name.text]
  | .assign name value _ => .name name.text :: .assign :: value.lexemes
  | .binary left op _ right _ => left.lexemes ++ op.lexeme :: right.lexemes
  | .unary op _ operand _ => op.lexeme :: operand.lexemes
  | .branch condition body others otherwise _ =>
      .keyword .ifWord :: condition.lexemes ++ body.blockLexemes ++ guardLexemes others ++
        elseLexemes otherwise
  | .forEach name list body _ =>
      .keyword .forWord :: .keyword .eachWord :: .name name.text :: .keyword .inWord ::
        list.lexemes ++ body.blockLexemes
  | .whileLoop condition body _ =>
      .keyword .whileWord :: condition.lexemes ++ body.blockLexemes
  | .untilLoop condition body _ =>
      .keyword .repeatWord :: .keyword .untilWord :: condition.lexemes ++ body.blockLexemes
  | .repeatFixed count _ body _ =>
      .keyword .repeatWord :: .int count :: .keyword .timesWord :: body.blockLexemes
  | .repeatBy count body _ =>
      .keyword .repeatWord :: count.lexemes ++ .keyword .timesWord :: body.blockLexemes
  | .procedure name parameters body _ =>
      .keyword .procedureWord :: (name.map fun n => Lexeme.name n.text).toList ++
        parameterLexemes parameters ++ body.blockLexemes
  | .call callee arguments _ => callee.lexemes ++ itemLexemes arguments
  | .returning value _ => .keyword .returnWord :: valueLexemes value
  | .continuing _ => [.keyword .continueWord]
  | .breaking _ => [.keyword .breakWord]

/-- The lexemes of a sequence of statements in braces. -/
def Node.blockLexemes : Node → List Lexeme
  | .list statements _ => .leftBrace :: statementLexemes statements ++ [.rightBrace]
  | _ => []

/-- The lexemes of a sequence of statements. -/
def statementLexemes : List Node → List Lexeme
  | [] => []
  | node :: nodes => node.lexemes ++ statementLexemes nodes

/-- The lexemes of expressions with commas between them. -/
def itemLexemes : List Node → List Lexeme
  | [] => []
  | node :: nodes => node.lexemes ++ moreItemLexemes nodes

/-- The lexemes of expressions behind commas. -/
def moreItemLexemes : List Node → List Lexeme
  | [] => []
  | node :: nodes => .comma :: node.lexemes ++ moreItemLexemes nodes

/-- The lexemes of a further condition with its body. -/
def guardLexeme : Node × Node → List Lexeme
  | (condition, body) => .keyword .elifWord :: condition.lexemes ++ body.blockLexemes

/-- The lexemes of further conditions with their bodies. -/
def guardLexemes : List (Node × Node) → List Lexeme
  | [] => []
  | guard :: guards => guardLexeme guard ++ guardLexemes guards

/-- The lexemes of what else to do. -/
def elseLexemes : Option Node → List Lexeme
  | none => []
  | some body => .keyword .elseWord :: body.blockLexemes

/-- The lexemes of a value, if there is one. -/
def valueLexemes : Option Node → List Lexeme
  | none => []
  | some value => value.lexemes

end

theorem parameterLexemes_erase (names : List Name) :
    parameterLexemes (names.map Name.erase) = parameterLexemes names := by
  induction names with
  | nil => rfl
  | cons name names ih =>
      cases names with
      | nil => rfl
      | cons other names => simpa [parameterLexemes, Name.erase] using ih

mutual

/-- The lexemes of a tree do not depend on places. -/
@[simp]
theorem Node.lexemes_erase (node : Node) : node.erase.lexemes = node.lexemes := by
  cases node with
  | number value span => cases value <;> rfl
  | list elements span => simp [Node.erase, Node.lexemes, itemLexemes_erase elements]
  | assign name value span => simp [Node.erase, Node.lexemes, Name.erase, value.lexemes_erase]
  | binary left op mark right span =>
      simp [Node.erase, Node.lexemes, left.lexemes_erase, right.lexemes_erase]
  | unary op mark operand span => simp [Node.erase, Node.lexemes, operand.lexemes_erase]
  | branch condition body others otherwise span =>
      simp [Node.erase, Node.lexemes, condition.lexemes_erase, body.blockLexemes_erase,
        guardLexemes_erase others, elseLexemes_erase otherwise]
  | forEach name list body span =>
      simp [Node.erase, Node.lexemes, Name.erase, list.lexemes_erase, body.blockLexemes_erase]
  | whileLoop condition body span =>
      simp [Node.erase, Node.lexemes, condition.lexemes_erase, body.blockLexemes_erase]
  | untilLoop condition body span =>
      simp [Node.erase, Node.lexemes, condition.lexemes_erase, body.blockLexemes_erase]
  | repeatFixed count mark body span => simp [Node.erase, Node.lexemes, body.blockLexemes_erase]
  | repeatBy count body span =>
      simp [Node.erase, Node.lexemes, count.lexemes_erase, body.blockLexemes_erase]
  | procedure name parameters body span =>
      cases name <;>
        simp [Node.erase, Node.lexemes, Name.erase, parameterLexemes_erase, body.blockLexemes_erase]
  | call callee arguments span =>
      simp [Node.erase, Node.lexemes, callee.lexemes_erase, itemLexemes_erase arguments]
  | returning value span => simp [Node.erase, Node.lexemes, valueLexemes_erase value]
  | _ => rfl

theorem Node.blockLexemes_erase (node : Node) : node.erase.blockLexemes = node.blockLexemes := by
  cases node with
  | list statements span => simp [Node.erase, Node.blockLexemes, statementLexemes_erase statements]
  | _ => rfl

theorem statementLexemes_erase (nodes : List Node) :
    statementLexemes (eraseAll nodes) = statementLexemes nodes := by
  cases nodes with
  | nil => rfl
  | cons node nodes =>
      simp [eraseAll, statementLexemes, node.lexemes_erase, statementLexemes_erase nodes]

theorem itemLexemes_erase (nodes : List Node) :
    itemLexemes (eraseAll nodes) = itemLexemes nodes := by
  cases nodes with
  | nil => rfl
  | cons node nodes => simp [eraseAll, itemLexemes, node.lexemes_erase, moreItemLexemes_erase nodes]

theorem moreItemLexemes_erase (nodes : List Node) :
    moreItemLexemes (eraseAll nodes) = moreItemLexemes nodes := by
  cases nodes with
  | nil => rfl
  | cons node nodes =>
      simp [eraseAll, moreItemLexemes, node.lexemes_erase, moreItemLexemes_erase nodes]

theorem guardLexeme_erase (guard : Node × Node) :
    guardLexeme (eraseGuard guard) = guardLexeme guard := by
  cases guard with
  | mk condition body =>
      simp [eraseGuard, guardLexeme, condition.lexemes_erase, body.blockLexemes_erase]

theorem guardLexemes_erase (guards : List (Node × Node)) :
    guardLexemes (eraseGuards guards) = guardLexemes guards := by
  cases guards with
  | nil => rfl
  | cons guard guards =>
      simp [eraseGuards, guardLexemes, guardLexeme_erase guard, guardLexemes_erase guards]

theorem elseLexemes_erase (otherwise : Option Node) :
    elseLexemes (eraseOption otherwise) = elseLexemes otherwise := by
  cases otherwise with
  | none => rfl
  | some body => simp [eraseOption, elseLexemes, body.blockLexemes_erase]

theorem valueLexemes_erase (value : Option Node) :
    valueLexemes (eraseOption value) = valueLexemes value := by
  cases value with
  | none => rfl
  | some value => simp [eraseOption, valueLexemes, value.lexemes_erase]

end

end Pseudocode
