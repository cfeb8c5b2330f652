import Pseudocode.Json.Reader
import Pseudocode.Json.Writer

/-!
# Texts that are read back

A code point is written as it is, by a letter or by the escapes of one or two code units.  The
reader takes each of these for the same code point again, except that an escaped second half that
follows an escaped first half makes a pair with it.
-/

namespace Pseudocode
namespace Json

/-- Whether a text is read back: its code points are those of Unicode, and no second half of a pair
follows a first half. -/
def isPlainText : List Nat → Bool
  | [] => true
  | point :: rest =>
      decide (point < 0x110000) && !(isHighSurrogate point && rest.head?.any isLowSurrogate) &&
        isPlainText rest

/-! ## Escapes -/

theorem hexValue?_digitChar : ∀ d < 16, hexValue? (Nat.digitChar d) = some d := by
  decide

/-- The hexadecimal digits of a code unit, filled up with zeros. -/
theorem toList_hexUnit {unit : Nat} (small : unit < 0x10000) :
    (hexUnit unit).toList = [(unit / 4096).digitChar, (unit / 256 % 16).digitChar,
      (unit / 16 % 16).digitChar, (unit % 16).digitChar] := by
  have filled (digits : List Char) (same : Nat.toDigits 16 unit = digits) :
      (hexUnit unit).toList = List.replicate (4 - digits.length) '0' ++ digits := by
    simp [hexUnit, Number.zeros, same]
  have step (n : Nat) (large : 16 ≤ n) :
      Nat.toDigits 16 n = Nat.toDigits 16 (n / 16) ++ [(n % 16).digitChar] :=
    Nat.toDigits_of_base_le (by decide) large
  have last (n : Nat) (less : n < 16) : Nat.toDigits 16 n = [(n % 16).digitChar] := by
    rw [Nat.toDigits_of_lt_base less, Nat.mod_eq_of_lt less]
  have second : unit / 16 / 16 = unit / 256 := by omega
  have third : unit / 256 / 16 = unit / 4096 := by omega
  have top : unit / 4096 % 16 = unit / 4096 := by omega
  obtain one | more := Nat.lt_or_ge unit 16
  · have zeros : unit / 4096 = 0 ∧ unit / 256 % 16 = 0 ∧ unit / 16 % 16 = 0 := by omega
    rw [filled _ (last unit one), zeros.1, zeros.2.1, zeros.2.2]
    rfl
  obtain two | more' := Nat.lt_or_ge (unit / 16) 16
  · have zeros : unit / 4096 = 0 ∧ unit / 256 % 16 = 0 := by omega
    rw [filled _ (step unit more), last _ two, zeros.1, zeros.2]
    rfl
  obtain three | four := Nat.lt_or_ge (unit / 256) 16
  · have zeros : unit / 4096 = 0 := by omega
    rw [filled _ (step unit more), step _ more', second, last _ three, zeros]
    rfl
  · rw [filled _ (step unit more), step _ more', second, step _ four, third, last _ (by omega), top]
    rfl

theorem length_hexUnit {unit : Nat} (small : unit < 0x10000) :
    (hexUnit unit).toList.length = 4 := by
  rw [toList_hexUnit small]
  rfl

theorem unit?_hexUnit {unit : Nat} (small : unit < 0x10000) :
    unit? (hexUnit unit).toList = some unit := by
  have total : 16 * (16 * (16 * (16 * 0 + unit / 4096) + unit / 256 % 16) + unit / 16 % 16) +
      unit % 16 = unit := by omega
  have first : unit / 4096 < 16 := by omega
  have other (n : Nat) : hexValue? (n % 16).digitChar = some (n % 16) :=
    hexValue?_digitChar _ (Nat.mod_lt n (by decide))
  simp only [toList_hexUnit small, unit?, List.mapM_cons, List.mapM_nil,
    hexValue?_digitChar _ first, other]
  exact congrArg some total

/-- An escape is read if something follows it. -/
theorem unitEscape_hexUnit {unit : Nat} (small : unit < 0x10000) {more : List Char}
    (nonempty : more ≠ []) : unitEscape ((hexUnit unit).toList ++ more) = .ok (unit, more) := by
  have four := length_hexUnit small
  have long : ¬ ((hexUnit unit).toList ++ more).length ≤ 4 := by
    have positive : 0 < more.length := List.length_pos_iff.mpr nonempty
    rw [List.length_append]
    omega
  unfold unitEscape
  dsimp only
  rw [if_neg long, List.take_left' four, unit?_hexUnit small, List.drop_left' four]

/-- The ways in which a code point is written. -/
inductive WrittenAs (point : Nat) : List Char → Prop
  | letter {letter : Char} (stands : letterEscape? letter = some point) (notUnit : letter ≠ 'u')
      (printable : 32 ≤ letter.toNat ∧ letter.toNat < 127) : WrittenAs point ['\\', letter]
  | direct {c : Char} (same : c.toNat = point) (printable : 32 ≤ c.toNat ∧ c.toNat < 127)
      (notQuote : c ≠ '"') (notEscape : c ≠ '\\') : WrittenAs point [c]
  | unit (small : point < 0x10000) : WrittenAs point ('\\' :: 'u' :: (hexUnit point).toList)
  | pair {high low : Nat} (isHigh : 0xD800 ≤ high ∧ high ≤ 0xDBFF)
      (isLow : 0xDC00 ≤ low ∧ low ≤ 0xDFFF) (same : joinSurrogates high low = point) :
      WrittenAs point
        ('\\' :: 'u' :: ((hexUnit high).toList ++ '\\' :: 'u' :: (hexUnit low).toList))

theorem toList_writeUnit (unit : Nat) :
    (writeUnit unit).toList = '\\' :: 'u' :: (hexUnit unit).toList := by
  rw [writeUnit, String.toList_append]
  rfl

theorem writtenAs_writePoint {point : Nat} (inside : point < 0x110000) :
    WrittenAs point (writePoint point).toList := by
  unfold writePoint
  iterate 7
    split
    · subst point
      exact .letter rfl (by decide) (by decide)
  rename_i notQuote notEscape _ _ _ _ _
  split
  · rename_i printable
    rw [Bool.and_eq_true, decide_eq_true_iff, decide_eq_true_iff] at printable
    have valid : point.isValidChar := .inl (by omega)
    have same : (Char.ofNat point).toNat = point := by
      rw [Char.ofNat, dif_pos valid]
      rfl
    rw [String.toList_singleton]
    refine .direct same (by omega) ?_ ?_
    · intro isQuote
      rw [isQuote] at same
      exact notQuote same.symm
    · intro isEscape
      rw [isEscape] at same
      exact notEscape same.symm
  split
  · rename_i small
    rw [toList_writeUnit]
    exact .unit small
  · dsimp only
    rw [String.toList_append, toList_writeUnit, toList_writeUnit, List.cons_append,
      List.cons_append]
    exact .pair (by omega) (by omega) (by unfold joinSurrogates; omega)

/-- The first half of a pair is read as a code point of its own. -/
def Lone (point : Nat) (more : List Char) : Prop :=
  isHighSurrogate point = true → pairEscape point more = .ok (point, more)

theorem pairEscape_of_ne {high : Nat} {c : Char} {rest : List Char}
    (notUnit : ∀ more, c :: rest ≠ '\\' :: 'u' :: more) :
    pairEscape high (c :: rest) = .ok (high, c :: rest) := by
  unfold pairEscape
  split
  · rename_i same
    exact absurd same (notUnit _)
  · rfl

theorem pairEscape_hexUnit {high unit : Nat} (small : unit < 0x10000) {more : List Char}
    (nonempty : more ≠ []) :
    pairEscape high ('\\' :: 'u' :: ((hexUnit unit).toList ++ more)) =
      if isLowSurrogate unit then .ok (joinSurrogates high unit, more)
      else .ok (high, '\\' :: 'u' :: ((hexUnit unit).toList ++ more)) := by
  have long : ¬ ((hexUnit unit).toList ++ more).length ≤ 4 := by
    have positive : 0 < more.length := List.length_pos_iff.mpr nonempty
    rw [List.length_append, length_hexUnit small]
    omega
  rw [pairEscape, if_neg long, unitEscape_hexUnit small nonempty]
  rfl

theorem isLowSurrogate_iff {unit : Nat} :
    isLowSurrogate unit = true ↔ 0xDC00 ≤ unit ∧ unit ≤ 0xDFFF := by
  rw [isLowSurrogate, Bool.and_eq_true, decide_eq_true_iff, decide_eq_true_iff]

theorem isHighSurrogate_iff {unit : Nat} :
    isHighSurrogate unit = true ↔ 0xD800 ≤ unit ∧ unit ≤ 0xDBFF := by
  rw [isHighSurrogate, Bool.and_eq_true, decide_eq_true_iff, decide_eq_true_iff]

theorem lone_writtenAs {point other : Nat} {written more : List Char}
    (as : WrittenAs other written) (nonempty : more ≠ [])
    (apart : (isHighSurrogate point && isLowSurrogate other) = false) :
    Lone point (written ++ more) := by
  intro isHigh
  rw [isHigh, Bool.true_and] at apart
  cases as with
  | letter stands notUnit printable =>
      apply pairEscape_of_ne
      intro rest same
      exact notUnit (List.cons.inj (List.cons.inj same).2).1
  | direct same printable notQuote notEscape =>
      apply pairEscape_of_ne
      intro rest same
      exact notEscape (List.cons.inj same).1
  | unit small =>
      rw [List.cons_append, List.cons_append, pairEscape_hexUnit small nonempty, apart]
      rfl
  | @pair high low highs lows same =>
      have notLow : isLowSurrogate high = false := by
        rw [← Bool.not_eq_true, isLowSurrogate_iff]
        omega
      rw [List.cons_append, List.cons_append, List.append_assoc,
        pairEscape_hexUnit (by omega) (by simp), notLow]
      rfl

theorem textBody_writtenAs {point : Nat} {written more : List Char} (as : WrittenAs point written)
    (nonempty : more ≠ []) (lone : Lone point more) (opening fuel : Nat) (read : List Nat) :
    textBody opening (fuel + 1) read (written ++ more) =
      textBody opening fuel (point :: read) more := by
  cases as with
  | @letter letter stands notUnit printable =>
      change textBody opening (fuel + 1) read ('\\' :: letter :: more) = _
      rw [textBody, if_neg (by decide), if_pos rfl, stands]
      exact notUnit
  | direct same printable notQuote notEscape =>
      rw [List.singleton_append]
      conv => lhs; unfold textBody
      dsimp only
      rw [if_neg notQuote, if_neg notEscape, if_neg (Nat.not_lt.mpr printable.1), same]
  | unit small =>
      rw [List.cons_append, List.cons_append, textBody, if_neg (by decide), if_pos rfl,
        unitEscape_hexUnit small nonempty]
      change (if isHighSurrogate point = true then _ else _) = _
      split
      · rename_i isHigh
        rw [lone isHigh]
        rfl
      · rfl
  | @pair high low highs lows same =>
      rw [List.cons_append, List.cons_append, List.append_assoc, textBody, if_neg (by decide),
        if_pos rfl, unitEscape_hexUnit (by omega) (by simp)]
      change (if isHighSurrogate high = true then _ else _) = _
      rw [if_pos (isHighSurrogate_iff.mpr highs), List.cons_append, List.cons_append,
        pairEscape_hexUnit (by omega) nonempty, if_pos (isLowSurrogate_iff.mpr lows), same]
      rfl

/-- The characters of a text between its quotes. -/
def writtenPoints (points : List Nat) : List Char :=
  points.flatMap fun point => (writePoint point).toList

theorem writtenPoints_cons (point : Nat) (points : List Nat) :
    writtenPoints (point :: points) = (writePoint point).toList ++ writtenPoints points :=
  List.flatMap_cons

theorem toList_writeText (points : List Nat) (rest : List Char) :
    (writeText points).toList ++ rest = '"' :: (writtenPoints points ++ '"' :: rest) := by
  have chars : (String.join (points.map writePoint)).toList = writtenPoints points := by
    rw [String.toList_join, List.flatMap_map]
    rfl
  rw [writeText, String.toList_append, String.toList_append, chars, List.append_assoc,
    List.append_assoc]
  rfl

theorem WrittenAs.ne_nil {point : Nat} {written : List Char} (as : WrittenAs point written) :
    written ≠ [] := by
  cases as <;> simp

theorem isPlainText_cons {point : Nat} {points : List Nat}
    (plain : isPlainText (point :: points) = true) :
    point < 0x110000 ∧ isPlainText points = true ∧
      ∀ next ∈ points.head?, (isHighSurrogate point && isLowSurrogate next) = false := by
  rw [isPlainText, Bool.and_eq_true, Bool.and_eq_true, decide_eq_true_iff,
    Bool.not_eq_true'] at plain
  obtain ⟨⟨inside, apart⟩, later⟩ := plain
  refine ⟨inside, later, fun next isNext => ?_⟩
  rw [Option.mem_def.mp isNext] at apart
  exact apart

theorem lone_writtenPoints {point : Nat} {points : List Nat}
    (plain : isPlainText (point :: points) = true) (rest : List Char) :
    Lone point (writtenPoints points ++ '"' :: rest) := by
  obtain ⟨_, later, apart⟩ := isPlainText_cons plain
  cases points with
  | nil => exact fun _ => rfl
  | cons next points =>
      rw [writtenPoints_cons, List.append_assoc]
      exact lone_writtenAs (writtenAs_writePoint (isPlainText_cons later).1) (by simp)
        (apart next rfl)

theorem length_le_writtenPoints {points : List Nat} (plain : isPlainText points = true) :
    points.length ≤ (writtenPoints points).length := by
  induction points with
  | nil => exact Nat.le_refl 0
  | cons point points ih =>
      obtain ⟨inside, later, _⟩ := isPlainText_cons plain
      have longer := List.length_pos_iff.mpr (writtenAs_writePoint inside).ne_nil
      have others := ih later
      rw [writtenPoints_cons, List.length_append, List.length_cons]
      omega

/-- A text is read one code point after the other. -/
theorem textBody_writtenPoints {points : List Nat} (plain : isPlainText points = true)
    (opening : Nat) {fuel : Nat} (enough : points.length < fuel) (read : List Nat)
    (rest : List Char) :
    textBody opening fuel read (writtenPoints points ++ '"' :: rest) =
      .ok (read.reverse ++ points, rest) := by
  induction points generalizing fuel read with
  | nil =>
      obtain ⟨fuel, rfl⟩ : ∃ less, fuel = less + 1 := ⟨fuel - 1, by omega⟩
      rw [List.append_nil]
      rfl
  | cons point points ih =>
      obtain ⟨fuel, rfl⟩ : ∃ less, fuel = less + 1 := ⟨fuel - 1, by omega⟩
      obtain ⟨inside, later, _⟩ := isPlainText_cons plain
      have lone := lone_writtenPoints plain rest
      rw [writtenPoints_cons, List.append_assoc,
        textBody_writtenAs (writtenAs_writePoint inside) (by simp) lone]
      rw [List.length_cons] at enough
      have others := ih later (Nat.lt_of_succ_lt_succ enough) (point :: read)
      rw [List.reverse_cons, List.append_assoc] at others
      exact others

/-! ## The characters of a file -/

/-- The characters of a written document: printable ones of ASCII and line ends. -/
def isWritten (c : Char) : Bool :=
  c = '\n' || (32 ≤ c.toNat && c.toNat < 127)

theorem isWritten_digitChar : ∀ d < 16, isWritten (Nat.digitChar d) = true := by
  decide

theorem isWritten_of_printable {c : Char} (printable : 32 ≤ c.toNat ∧ c.toNat < 127) :
    isWritten c = true := by
  simp [isWritten, printable]

theorem isWritten_of_isDigit {c : Char} (digit : c.isDigit = true) : isWritten c = true := by
  rw [Char.isDigit, Bool.and_eq_true, decide_eq_true_iff, decide_eq_true_iff] at digit
  have low : 48 ≤ c.toNat := UInt32.le_iff_toNat_le.mp digit.1
  have high : c.toNat ≤ 57 := UInt32.le_iff_toNat_le.mp digit.2
  exact isWritten_of_printable (by omega)

theorem all_hexUnit {unit : Nat} (small : unit < 0x10000) :
    (hexUnit unit).toList.all isWritten = true := by
  have first : unit / 4096 < 16 := by omega
  have other (n : Nat) : isWritten (n % 16).digitChar = true :=
    isWritten_digitChar _ (Nat.mod_lt n (by decide))
  simp only [toList_hexUnit small, List.all_cons, List.all_nil, isWritten_digitChar _ first, other,
    Bool.and_self]

theorem WrittenAs.all {point : Nat} {written : List Char} (as : WrittenAs point written) :
    written.all isWritten = true := by
  have mark : isWritten '\\' = true := rfl
  have unitMark : isWritten 'u' = true := rfl
  cases as with
  | letter stands notUnit printable => simp [mark, isWritten_of_printable printable]
  | direct same printable notQuote notEscape => simp [isWritten_of_printable printable]
  | unit small => rw [List.all_cons, List.all_cons, all_hexUnit small, mark, unitMark]; rfl
  | @pair high low highs lows same =>
      have first : (hexUnit high).toList.all isWritten = true := all_hexUnit (by omega)
      have second : (hexUnit low).toList.all isWritten = true := all_hexUnit (by omega)
      simp only [List.all_cons, List.all_append, first, second, mark, unitMark, Bool.and_self]

theorem all_writeText {points : List Nat} (plain : isPlainText points = true) :
    (writeText points).toList.all isWritten = true := by
  have each : (writtenPoints points).all isWritten = true := by
    induction points with
    | nil => rfl
    | cons point points ih =>
        obtain ⟨inside, later, _⟩ := isPlainText_cons plain
        rw [writtenPoints_cons, List.all_append, ih later, (writtenAs_writePoint inside).all]
        rfl
  have quote : isWritten '"' = true := rfl
  rw [← List.append_nil (writeText points).toList, toList_writeText]
  simp only [List.all_cons, List.all_append, each, quote, List.all_nil, Bool.and_self]

end Json
end Pseudocode
