import Pseudocode.Proofs.Json.Escapes

/-!
# Documents that are read back

What is written of a document is read as the same document again.  This is so for documents without
objects whose whole numbers are not too long, whose doubles are read back each on its own, and in
whose texts no two halves of a pair stand side by side.
-/

namespace Pseudocode
namespace Json

/-- What may follow a written document: a comma, a line end or nothing. -/
def Closes (rest : List Char) : Prop :=
  ∀ c ∈ rest.head?, c = ',' ∨ c = '\n'

/-- A double whose text is read back as the same double. -/
structure Legible (x : Float) : Prop where
  starts : ∃ c written, (writeReal x).toList = c :: written ∧ isSpace c = false ∧ c ≠ ']'
  written : (writeReal x).toList.all isWritten = true
  again : ∀ (fuel : Nat) (rest : List Char), Closes rest →
    value (fuel + 1) ((writeReal x).toList ++ rest) = .ok (.real x, rest)

/-- Documents that are read back. -/
inductive Plain : Json → Prop
  | null : Plain .null
  | bool (value : Bool) : Plain (.bool value)
  | int {value : Int} (short : (Nat.toDigits 10 value.natAbs).length ≤ Number.digitLimit) :
      Plain (.int value)
  | real {value : Float} (legible : Legible value) : Plain (.real value)
  | text {points : List Nat} (plain : isPlainText points = true) : Plain (.text points)
  | array {items : List Json} (each : ∀ item ∈ items, Plain item) : Plain (.array items)

/-! ## Whole numbers -/

theorem closes_cases {rest : List Char} (closes : Closes rest) :
    rest = [] ∨ (∃ more, rest = ',' :: more) ∨ ∃ more, rest = '\n' :: more := by
  cases rest with
  | nil => exact .inl rfl
  | cons c more =>
      obtain rfl | rfl := closes c rfl
      · exact .inr (.inl ⟨more, rfl⟩)
      · exact .inr (.inr ⟨more, rfl⟩)

theorem fractionPart_closes {rest : List Char} (closes : Closes rest) :
    fractionPart rest = ([], rest) := by
  obtain rfl | ⟨more, rfl⟩ | ⟨more, rfl⟩ := closes_cases closes <;> rfl

theorem exponentPart_closes {rest : List Char} (closes : Closes rest) :
    exponentPart rest = (none, rest) := by
  obtain rfl | ⟨more, rfl⟩ | ⟨more, rfl⟩ := closes_cases closes <;> rfl

theorem takeWhile_digits {digits rest : List Char} (all : ∀ c ∈ digits, c.isDigit = true)
    (closes : Closes rest) : (digits ++ rest).takeWhile Char.isDigit = digits := by
  rw [List.takeWhile_append_of_pos all]
  obtain rfl | ⟨more, rfl⟩ | ⟨more, rfl⟩ := closes_cases closes <;> exact List.append_nil digits

theorem dropWhile_digits {digits rest : List Char} (all : ∀ c ∈ digits, c.isDigit = true)
    (closes : Closes rest) : (digits ++ rest).dropWhile Char.isDigit = rest := by
  rw [List.dropWhile_append_of_pos all]
  obtain rfl | ⟨more, rfl⟩ | ⟨more, rfl⟩ := closes_cases closes <;> rfl

theorem isDigit_digitChar : ∀ d < 10, (Nat.digitChar d).isDigit = true := by
  decide

/-- The digits of a positive number do not start with a zero. -/
theorem exists_toDigits (n : Nat) :
    ∃ d digits, Nat.toDigits 10 n = Nat.digitChar d :: digits ∧ d < 10 ∧ (0 < n → 0 < d) := by
  induction n using Nat.strongRecOn with
  | ind n ih =>
      obtain small | large := Nat.lt_or_ge n 10
      · exact ⟨n, [], Nat.toDigits_of_lt_base small, small, id⟩
      · obtain ⟨d, digits, same, less, positive⟩ := ih (n / 10) (by omega)
        refine ⟨d, digits ++ [(n % 10).digitChar], ?_, less, fun _ => positive (by omega)⟩
        rw [Nat.toDigits_of_base_le (by decide) large, same, List.cons_append]

theorem wholePart_toDigits (n : Nat) {rest : List Char} (closes : Closes rest) :
    wholePart (Nat.toDigits 10 n ++ rest) = some (Nat.toDigits 10 n, rest) := by
  cases n with
  | zero => rfl
  | succ n =>
      obtain ⟨d, digits, same, less, positive⟩ := exists_toDigits (n + 1)
      have nonzero : ∀ d < 10, 0 < d → Nat.digitChar d ≠ '0' := by decide
      have all : ∀ c ∈ digits, c.isDigit = true := by
        intro c member
        have inside : c ∈ Nat.toDigits 10 (n + 1) := same ▸ List.mem_cons_of_mem _ member
        exact Nat.isDigit_of_mem_toDigits (by decide) (by decide) inside
      rw [same, List.cons_append, wholePart, if_pos (isDigit_digitChar d less),
        takeWhile_digits all closes, dropWhile_digits all closes]
      exact nonzero d less (positive (Nat.succ_pos n))

/-- The digits of a number with its sign. -/
theorem toList_toString (n : Int) :
    (toString n).toList = Nat.toDigits 10 n.natAbs ∧ 0 ≤ n ∨
      (toString n).toList = '-' :: Nat.toDigits 10 n.natAbs ∧ n < 0 := by
  cases n with
  | ofNat m => exact .inl ⟨Nat.toList_repr, Int.natCast_nonneg m⟩
  | negSucc m =>
      have digits : ("-" ++ (m + 1).repr).toList = '-' :: Nat.toDigits 10 (m + 1) := by
        rw [String.toList_append, Nat.toList_repr]
        rfl
      exact .inr ⟨digits, Int.negSucc_lt_zero m⟩

/-- A number is read where there is a digit, or a sign and a digit. -/
theorem value_eq_number {d : Nat} (less : d < 10) (fuel : Nat) (rest : List Char) :
    value (fuel + 1) (d.digitChar :: rest) = number (d.digitChar :: rest) ∧
      value (fuel + 1) ('-' :: d.digitChar :: rest) = number ('-' :: d.digitChar :: rest) := by
  have digit : d = 0 ∨ d = 1 ∨ d = 2 ∨ d = 3 ∨ d = 4 ∨ d = 5 ∨ d = 6 ∨ d = 7 ∨ d = 8 ∨ d = 9 := by
    omega
  obtain rfl | rfl | rfl | rfl | rfl | rfl | rfl | rfl | rfl | rfl := digit <;> exact ⟨rfl, rfl⟩

theorem value_int {n : Int} (short : (Nat.toDigits 10 n.natAbs).length ≤ Number.digitLimit)
    (fuel : Nat) {rest : List Char} (closes : Closes rest) :
    value (fuel + 1) ((toString n).toList ++ rest) = .ok (.int n, rest) := by
  obtain ⟨d, digits, same, less, _⟩ := exists_toDigits n.natAbs
  have whole := wholePart_toDigits n.natAbs closes
  have total : digitsValue (Nat.toDigits 10 n.natAbs) = n.natAbs := Number.ofDigits_toDigits _
  rw [same] at whole total short
  rw [List.cons_append] at whole
  obtain ⟨spelled, sign⟩ | ⟨spelled, sign⟩ := toList_toString n
  · have value : Number.signed false n.natAbs = n := Int.natAbs_of_nonneg sign
    rw [spelled, same, List.cons_append, (value_eq_number less fuel _).1]
    unfold number
    split
    rename_i negative body signs
    split at signs
    · rename_i isSign
      have digit := isDigit_digitChar d less
      rw [(List.cons.inj isSign).1] at digit
      cases digit
    · cases signs
      simp only [whole, fractionPart_closes closes, exponentPart_closes closes, List.isEmpty_nil,
        Option.isNone_none, Bool.and_self, if_true, if_neg (Nat.not_lt.mpr short), total, value]
  · have value : Number.signed true n.natAbs = n := by
      rw [Number.signed, if_pos rfl]
      omega
    rw [spelled, same, List.cons_append, List.cons_append, (value_eq_number less fuel _).2]
    unfold number
    simp only [whole, fractionPart_closes closes, exponentPart_closes closes, List.isEmpty_nil,
      Option.isNone_none, Bool.and_self, if_true, if_neg (Nat.not_lt.mpr short), total, value]

theorem value_text {points : List Nat} (plain : isPlainText points = true) (fuel : Nat)
    (rest : List Char) :
    value (fuel + 1) ((writeText points).toList ++ rest) = .ok (.text points, rest) := by
  have enough : points.length < (writtenPoints points ++ '"' :: rest).length + 1 := by
    have longer := length_le_writtenPoints plain
    rw [List.length_append]
    omega
  rw [toList_writeText, value, quoted, textBody_writtenPoints plain _ enough]
  rfl

/-! ## Arrays -/

theorem toList_lineBreak (depth : Nat) :
    (lineBreak depth).toList = '\n' :: List.replicate (2 * depth) ' ' := by
  rw [lineBreak, String.toList_append]
  exact congrArg (['\n'] ++ ·) String.toList_ofList

theorem skipSpace_lineBreak (depth : Nat) {c : Char} (solid : isSpace c = false)
    (rest : List Char) : skipSpace ((lineBreak depth).toList ++ c :: rest) = c :: rest := by
  have blanks : ∀ c' ∈ (lineBreak depth).toList, isSpace c' = true := by
    rw [toList_lineBreak, List.forall_mem_cons]
    refine ⟨rfl, fun c' member => ?_⟩
    obtain rfl := List.eq_of_mem_replicate member
    rfl
  rw [skipSpace, List.dropWhile_append_of_pos blanks, List.dropWhile_cons_of_neg]
  rw [solid]
  decide

theorem toList_writeAt_array (depth : Nat) (first : Json) (others : List Json)
    (rest : List Char) :
    (writeAt depth (.array (first :: others))).toList ++ rest =
      '[' :: ((lineBreak (depth + 1)).toList ++ ((writeAt (depth + 1) first).toList ++
        ((writeItems (depth + 1) others).toList ++
          ((lineBreak depth).toList ++ ']' :: rest)))) := by
  simp [writeAt, String.toList_append]

theorem toList_writeItems_cons (depth : Nat) (first : Json) (others : List Json)
    (rest : List Char) :
    (writeItems depth (first :: others)).toList ++ rest =
      ',' :: ((lineBreak depth).toList ++ ((writeAt depth first).toList ++
        ((writeItems depth others).toList ++ rest))) := by
  simp [writeItems, String.toList_append]

/-- A written document starts with a character that neither is blank nor closes an array. -/
theorem exists_writeAt {j : Json} (plain : j.Plain) (depth : Nat) :
    ∃ c written, (writeAt depth j).toList = c :: written ∧ isSpace c = false ∧ c ≠ ']' := by
  cases plain with
  | null => exact ⟨'n', ['u', 'l', 'l'], by rw [writeAt]; rfl, rfl, by decide⟩
  | bool value =>
      cases value with
      | true => exact ⟨'t', ['r', 'u', 'e'], by rw [writeAt]; rfl, rfl, by decide⟩
      | false => exact ⟨'f', ['a', 'l', 's', 'e'], by rw [writeAt]; rfl, rfl, by decide⟩
  | @int n short =>
      obtain ⟨d, digits, same, less, _⟩ := exists_toDigits n.natAbs
      have solid : ∀ d < 10, isSpace (Nat.digitChar d) = false ∧ Nat.digitChar d ≠ ']' := by decide
      rw [writeAt]
      obtain ⟨spelled, _⟩ | ⟨spelled, _⟩ := toList_toString n
      · exact ⟨d.digitChar, digits, spelled.trans same, solid d less⟩
      · exact ⟨'-', _, spelled, rfl, by decide⟩
  | real legible =>
      rw [writeAt]
      exact legible.starts
  | @text points plain =>
      rw [writeAt, ← List.append_nil (writeText points).toList, toList_writeText]
      exact ⟨'"', _, rfl, rfl, by decide⟩
  | @array items each =>
      cases items with
      | nil => exact ⟨'[', [']'], by rw [writeAt]; rfl, rfl, by decide⟩
      | cons first others =>
          rw [← List.append_nil (writeAt depth (.array (first :: others))).toList,
            toList_writeAt_array]
          exact ⟨'[', _, rfl, rfl, by decide⟩

/-- What reading does with a document that was written at any depth. -/
def Rereads (j : Json) : Prop :=
  ∀ (depth fuel : Nat) (rest : List Char), Closes rest →
    ((writeAt depth j).toList ++ rest).length ≤ fuel →
    value fuel ((writeAt depth j).toList ++ rest) = .ok (j, rest)

theorem skipSpace_writeAt {j : Json} (plain : j.Plain) (depth : Nat) (rest : List Char) :
    skipSpace ((lineBreak depth).toList ++ ((writeAt depth j).toList ++ rest)) =
      (writeAt depth j).toList ++ rest := by
  obtain ⟨c, written, same, solid, _⟩ := exists_writeAt plain depth
  rw [same, List.cons_append]
  exact skipSpace_lineBreak depth solid _

theorem length_lineBreak (depth : Nat) : 0 < (lineBreak depth).toList.length := by
  rw [toList_lineBreak]
  exact Nat.succ_pos _

theorem closes_lineBreak (depth : Nat) (rest : List Char) :
    Closes ((lineBreak depth).toList ++ rest) := by
  rw [toList_lineBreak]
  intro c isHead
  cases isHead
  exact .inr rfl

theorem items_last {fuel : Nat} {read : List Json} {start after rest : List Char} {first : Json}
    (got : value fuel start = .ok (first, after)) (ends : skipSpace after = ']' :: rest) :
    items (fuel + 1) read start = .ok (.array (first :: read).reverse, rest) := by
  rw [items, got]
  simp only [bind, Except.bind, ends]

theorem items_next {fuel : Nat} {read : List Json} {start after rest : List Char} {first : Json}
    (got : value fuel start = .ok (first, after)) (goesOn : skipSpace after = ',' :: rest) :
    items (fuel + 1) read start = items fuel (first :: read) (skipSpace rest) := by
  rw [items, got]
  simp only [bind, Except.bind, goesOn]

theorem items_writeItems {first : Json} {others : List Json}
    (each : ∀ item ∈ first :: others, Plain item ∧ Rereads item) (depth outer : Nat)
    (read : List Json) (rest : List Char) {fuel : Nat}
    (enough : ((writeAt depth first).toList ++ ((writeItems depth others).toList ++
      ((lineBreak outer).toList ++ ']' :: rest))).length < fuel) :
    items fuel read ((writeAt depth first).toList ++ ((writeItems depth others).toList ++
      ((lineBreak outer).toList ++ ']' :: rest))) =
      .ok (.array (read.reverse ++ first :: others), rest) := by
  induction others generalizing first read fuel with
  | nil =>
      obtain ⟨fuel, rfl⟩ : ∃ less, fuel = less + 1 := ⟨fuel - 1, by omega⟩
      rw [writeItems, String.toList_empty, List.nil_append] at enough ⊢
      have again := (each first List.mem_cons_self).2 depth fuel _ (closes_lineBreak outer _)
        (Nat.le_of_lt_succ enough)
      rw [items_last again (skipSpace_lineBreak outer rfl rest), List.reverse_cons]
  | cons second others ih =>
      obtain ⟨fuel, rfl⟩ : ∃ less, fuel = less + 1 := ⟨fuel - 1, by omega⟩
      rw [toList_writeItems_cons] at enough ⊢
      have closes : Closes (',' :: ((lineBreak depth).toList ++ ((writeAt depth second).toList ++
          ((writeItems depth others).toList ++ ((lineBreak outer).toList ++ ']' :: rest))))) := by
        intro c isHead
        cases isHead
        exact .inl rfl
      obtain ⟨_, firstRereads⟩ := each first List.mem_cons_self
      have later : ∀ item ∈ second :: others, Plain item ∧ Rereads item :=
        fun item member => each item (List.mem_cons_of_mem _ member)
      have again := firstRereads depth fuel _ closes (Nat.le_of_lt_succ enough)
      rw [items_next again rfl, skipSpace_writeAt (later second List.mem_cons_self).1,
        ih later (first :: read) (by simp at enough ⊢; omega), List.reverse_cons,
        List.append_assoc]
      rfl

theorem value_array {fuel : Nat} {rest more : List Char} {c : Char}
    (opens : skipSpace rest = c :: more) (notClosing : c ≠ ']') :
    value (fuel + 1) ('[' :: rest) = items fuel [] (c :: more) := by
  rw [value, opens]
  split
  · rename_i same
    exact absurd (List.cons.inj same).1 notClosing
  · rfl

theorem rereads_of_succ {j : Json} (plain : j.Plain)
    (reads : ∀ (depth fuel : Nat) (rest : List Char), Closes rest →
      ((writeAt depth j).toList ++ rest).length ≤ fuel + 1 →
      value (fuel + 1) ((writeAt depth j).toList ++ rest) = .ok (j, rest)) : j.Rereads := by
  intro depth fuel rest closes enough
  obtain ⟨c, written, same, _⟩ := exists_writeAt plain depth
  cases fuel with
  | zero =>
      rw [same] at enough
      cases enough
  | succ fuel => exact reads depth fuel rest closes enough

theorem Plain.rereads {j : Json} (plain : j.Plain) : j.Rereads := by
  induction plain with
  | null =>
      apply rereads_of_succ .null
      intro depth fuel rest closes enough
      rw [writeAt]
      rfl
  | bool value =>
      apply rereads_of_succ (.bool value)
      intro depth fuel rest closes enough
      rw [writeAt]
      cases value <;> rfl
  | int short =>
      apply rereads_of_succ (.int short)
      intro depth fuel rest closes enough
      rw [writeAt]
      exact value_int short fuel closes
  | real legible =>
      apply rereads_of_succ (.real legible)
      intro depth fuel rest closes enough
      rw [writeAt]
      exact legible.again fuel rest closes
  | text plain =>
      apply rereads_of_succ (.text plain)
      intro depth fuel rest closes enough
      rw [writeAt]
      exact value_text plain fuel rest
  | @array items each ih =>
      apply rereads_of_succ (.array each)
      intro depth fuel rest closes enough
      cases items with
      | nil =>
          rw [writeAt]
          rfl
      | cons first others =>
          obtain ⟨c, written, same, solid, notClosing⟩ :=
            exists_writeAt (each first List.mem_cons_self) (depth + 1)
          rw [toList_writeAt_array] at enough ⊢
          have both : ∀ item ∈ first :: others, Plain item ∧ Rereads item :=
            fun item member => ⟨each item member, ih item member⟩
          have broken := length_lineBreak (depth + 1)
          have less : ((writeAt (depth + 1) first).toList ++
              ((writeItems (depth + 1) others).toList ++
                ((lineBreak depth).toList ++ ']' :: rest))).length < fuel := by
            simp at enough ⊢
            omega
          have read := items_writeItems both (depth + 1) depth [] rest less
          have opens := skipSpace_writeAt (each first List.mem_cons_self) (depth + 1)
            ((writeItems (depth + 1) others).toList ++ ((lineBreak depth).toList ++ ']' :: rest))
          rw [same, List.cons_append] at opens read
          rw [same, List.cons_append, value_array opens notClosing, read]
          rfl

/-! ## Files -/

theorem all_lineBreak (depth : Nat) : (lineBreak depth).toList.all isWritten = true := by
  rw [toList_lineBreak, List.all_cons, List.all_replicate]
  cases 2 * depth <;> rfl

/-- Every character of a written document is printable or a line end. -/
theorem Plain.all_writeAt {j : Json} (plain : j.Plain) (depth : Nat) :
    (writeAt depth j).toList.all isWritten = true := by
  induction plain generalizing depth with
  | null =>
      rw [writeAt]
      rfl
  | bool value =>
      rw [writeAt]
      cases value <;> rfl
  | @int n short =>
      have digits : (Nat.toDigits 10 n.natAbs).all isWritten = true := by
        rw [List.all_eq_true]
        intro c member
        exact isWritten_of_isDigit (Nat.isDigit_of_mem_toDigits (by decide) (by decide) member)
      rw [writeAt]
      obtain ⟨spelled, _⟩ | ⟨spelled, _⟩ := toList_toString n
      · rw [spelled, digits]
      · rw [spelled, List.all_cons, digits]
        rfl
  | real legible =>
      rw [writeAt]
      exact legible.written
  | text plain =>
      rw [writeAt]
      exact all_writeText plain
  | @array items each ih =>
      have others (rest : List Json) (inside : ∀ item ∈ rest, item ∈ items) (depth : Nat) :
          (writeItems depth rest).toList.all isWritten = true := by
        induction rest with
        | nil => rfl
        | cons first rest further =>
            obtain ⟨here, there⟩ := List.forall_mem_cons.mp inside
            rw [← List.append_nil (writeItems depth (first :: rest)).toList, toList_writeItems_cons]
            simp only [List.all_cons, List.all_append, all_lineBreak, ih first here depth,
              further there, List.all_nil, Bool.and_true]
            rfl
      cases items with
      | nil =>
          rw [writeAt]
          rfl
      | cons first rest =>
          have here := ih first List.mem_cons_self (depth + 1)
          have there := others rest (fun item => List.mem_cons_of_mem first) (depth + 1)
          rw [← List.append_nil (writeAt depth (.array (first :: rest))).toList,
            toList_writeAt_array]
          simp only [List.all_cons, List.all_append, all_lineBreak, here, there, List.all_nil,
            Bool.and_true]
          rfl

theorem normalizeLines_eq_self {text : List Char} (written : text.all isWritten = true) :
    Text.normalizeLines text = text := by
  induction text with
  | nil => rfl
  | cons c rest ih =>
      rw [List.all_cons, Bool.and_eq_true] at written
      obtain ⟨first, others⟩ := written
      rw [Text.normalizeLines, ih others]
      · rintro more rfl
        cases first
      · rintro rfl
        cases first

theorem readDocument_of_value {text : List Char} {c : Char} {rest : List Char} {j : Json}
    (starts : text = c :: rest) (written : isWritten c = true) (solid : isSpace c = false)
    (got : value (3 * text.length + 3) text = .ok (j, [])) : readDocument text = .ok j := by
  have noSpace : skipSpace text = text := by
    rw [starts, skipSpace, List.dropWhile_cons_of_neg]
    rw [solid]
    decide
  unfold readDocument
  split
  · cases starts
    cases written
  · rw [noSpace, got]
    rfl

/-- Reading undoes writing. -/
theorem Plain.read_write {j : Json} (plain : j.Plain) : read j.write = .ok j := by
  have written := plain.all_writeAt 0
  have closes : Closes [] := fun _ isHead => by cases isHead
  have reread := plain.rereads 0 (3 * (writeAt 0 j).toList.length + 3) [] closes (by simp; omega)
  obtain ⟨c, rest, starts, solid, _⟩ := exists_writeAt plain 0
  have first : isWritten c = true := by
    rw [starts, List.all_cons, Bool.and_eq_true] at written
    exact written.1
  rw [List.append_nil] at reread
  rw [read, write, normalizeLines_eq_self written, readDocument_of_value starts first solid reread]

end Json
end Pseudocode
