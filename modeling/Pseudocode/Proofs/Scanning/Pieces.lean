import Pseudocode.Proofs.Scanning.Spelling

/-!
# Pieces of a text

The scanner cuts a text into pieces: blanks, comments and the characters of one token each.  No
piece depends on where the text stands or on what starts anew behind it, so the pieces of two texts
with a line end between them are those of the first, the line end and those of the second.  Only a
text or a comment that is still open at the end of the first would reach into the second.  Where the
scanner stops with an error or a fault, it does so whatever starts anew behind the text.
-/

namespace Pseudocode

/-! ## What a character belongs to -/

/-- What the next character of a program belongs to. -/
inductive Mode where
  | code
  | text
  /-- A text, behind a backslash. -/
  | escape
  | comment
  deriving DecidableEq, Repr

namespace Mode

/-- What the character after a character belongs to. -/
def next : Mode → Char → Mode
  | code, c => if c = '"' then text else if c = '#' then comment else code
  | text, c => if c = '"' then code else if c = '\\' then escape else text
  | escape, _ => text
  | comment, c => if c = '\n' then code else comment

/-- What the character after some characters belongs to. -/
def after (mode : Mode) (chars : List Char) : Mode :=
  chars.foldl next mode

@[simp]
theorem after_nil (mode : Mode) : mode.after [] = mode := rfl

@[simp]
theorem after_cons (mode : Mode) (c : Char) (chars : List Char) :
    mode.after (c :: chars) = (mode.next c).after chars := rfl

@[simp]
theorem after_append (mode : Mode) (chars others : List Char) :
    mode.after (chars ++ others) = (mode.after chars).after others :=
  List.foldl_append

end Mode

/-- No text and no comment is open at the end of a program. -/
def Settled (chars : List Char) : Prop :=
  Mode.code.after chars = .code

instance (chars : List Char) : Decidable (Settled chars) :=
  inferInstanceAs (Decidable (Mode.code.after chars = .code))

theorem settled_of_plain {chars : List Char} (plain : ∀ c ∈ chars, c ≠ '"' ∧ c ≠ '#') :
    Settled chars := by
  induction chars with
  | nil => rfl
  | cons c chars ih =>
      obtain ⟨noQuote, noHash⟩ := plain c List.mem_cons_self
      have rest := ih fun d member => plain d (List.mem_cons_of_mem c member)
      simpa [Settled, Mode.next, noQuote, noHash] using rest

theorem Settled.of_append {chars others : List Char} (settled : Settled chars)
    (whole : Settled (chars ++ others)) : Settled others := by
  rwa [Settled, Mode.after_append, settled] at whole

namespace Text

theorem inRanges_of_within {ranges wider : List Range} {code : Nat}
    (within : ranges.all (fun r => wider.any fun w => w.1 ≤ r.1 && r.2 ≤ w.2) = true)
    (found : inRanges ranges code = true) : inRanges wider code = true := by
  obtain ⟨r, member, low, high⟩ : ∃ r ∈ ranges, r.1 ≤ code ∧ code ≤ r.2 := by
    simpa [inRanges] using found
  obtain ⟨w, member', low', high'⟩ : ∃ w ∈ wider, w.1 ≤ r.1 ∧ r.2 ≤ w.2 := by
    simpa using List.all_eq_true.mp within r member
  have inside : w.1 ≤ code ∧ code ≤ w.2 := ⟨by omega, by omega⟩
  simpa [inRanges] using ⟨w.1, w.2, member', inside⟩

theorem isWordChar_of_isDigit {c : Char} (isDigit : Text.isDigit c = true) :
    isWordChar c = true := by
  rw [isWordChar, classify]
  by_cases ascii : c.toNat < 128
  · rw [Text.isDigit, classify_of_lt ascii] at isDigit
    simp [ascii, Char.isAlphanum, isDigit]
  · rw [Text.isDigit, classify, if_neg ascii] at isDigit
    have numeral : inRanges numeralRanges c.toNat = true :=
      inRanges_of_within (by decide +kernel) isDigit
    rw [if_neg ascii, inRanges, List.any_append, Bool.or_eq_true]
    exact Or.inr numeral

theorem isWordChar_of_isLetter {c : Char} (isLetter : Text.isLetter c = true) :
    isWordChar c = true := by
  rw [isWordChar, classify]
  by_cases ascii : c.toNat < 128
  · rw [Text.isLetter, classify_of_lt ascii] at isLetter
    simp [ascii, Char.isAlphanum, isLetter]
  · rw [Text.isLetter, classify, if_neg ascii] at isLetter
    rw [if_neg ascii, inRanges, List.any_append, Bool.or_eq_true]
    exact Or.inl isLetter

end Text

/-- A reason to stop, without its place. -/
def Stop.unplaced : Stop → Stop
  | .error diagnostic => .error { diagnostic with span := none }
  | .fault cause => .fault cause

namespace Scanner

/-! ## Pieces -/

/-- A piece of a program, with its lexeme unless it is skipped. -/
structure Piece where
  /-- The characters. -/
  chars : List Char
  /-- The lexeme. -/
  lexeme? : Option Lexeme

namespace Piece

/-- The token of a piece that starts at a place.  A line end reaches to the next column. -/
def token? (piece : Piece) (p : Position) : Option Token :=
  piece.lexeme?.map fun lexeme =>
    ⟨lexeme, ⟨p, if piece.chars = ['\n'] then p.bump else p.advanceAll piece.chars⟩⟩

end Piece

/-- What the scanner skips: blanks, and comments with the line ends that close them. -/
inductive Skipped : List Char → Prop where
  | nil : Skipped []
  | blank {c : Char} {rest : List Char} (isBlank : c = ' ' ∨ c = '\t') (others : Skipped rest) :
      Skipped (c :: rest)
  | comment {body rest : List Char} (inLine : '\n' ∉ body) (others : Skipped rest) :
      Skipped ('#' :: (body ++ '\n' :: rest))

/-- Nothing at the front of a text satisfies a condition. -/
def Stops (condition : Char → Bool) (rest : List Char) : Prop :=
  ∀ c, rest.head? = some c → condition c = false

/-- Whether a character can go on with a word, a number or a sign.  A text starts anew behind
another one if its first character cannot. -/
def joins (c : Char) : Bool :=
  continuesWord c || c = '.' || c = '=' || c = '-' || c = '*'

/-- What reads the next token or steps over a blank. -/
abbrev Reader := Scanner → Except Stop (Option Token × Scanner)

/-- A piece that a reader takes off the front of a text, wherever the text stands and whatever
starts anew behind it. -/
structure Begins (read : Reader) (chars : List Char) (piece : Piece) (rest : List Char) :
    Prop where
  parts : chars = piece.chars ++ rest
  nonempty : piece.chars ≠ []
  settled : Settled piece.chars
  skips : piece.lexeme? = none → Skipped piece.chars
  takes : ∀ next p, Stops joins next → read ⟨piece.chars ++ (rest ++ next), p⟩ =
    .ok (piece.token? p, ⟨rest ++ next, p.advanceAll piece.chars⟩)

/-- A reader that stops in front of a text for one cause, wherever the text stands and whatever
starts anew behind it. -/
def Balks (read : Reader) (chars : List Char) (cause : Stop) : Prop :=
  ∀ next p, Stops joins next →
    ∃ stop, read ⟨chars ++ next, p⟩ = .error stop ∧ stop.unplaced = cause

/-- A reader that takes a piece off the front of a text or stops there. -/
def Cuts (read : Reader) (chars : List Char) : Prop :=
  (∃ piece rest, Begins read chars piece rest) ∨ ∃ cause, Balks read chars cause

theorem cuts_ite {condition : Prop} [Decidable condition] {first second : Reader}
    {chars : List Char} (holds : condition → Cuts first chars)
    (fails : ¬ condition → Cuts second chars) :
    Cuts (fun s => if condition then first s else second s) chars := by
  split
  · next h => exact holds h
  · next h => exact fails h

theorem cuts_error (problem : Problem) (place : Scanner → Span) (chars : List Char) :
    Cuts (fun s => .error (.error ⟨problem, some (place s)⟩)) chars :=
  .inr ⟨.error ⟨problem, none⟩, fun _ _ _ => ⟨_, rfl, rfl⟩⟩

/-! ## Runs of characters -/

theorem joins_of_continuesWord {c : Char} (continues : continuesWord c = true) :
    joins c = true := by
  simp [joins, continues]

theorem joins_of_isDigit {c : Char} (isDigit : Text.isDigit c = true) : joins c = true :=
  joins_of_continuesWord (by simp [continuesWord, Text.isWordChar_of_isDigit isDigit])

theorem joins_of_isLetter {c : Char} (isLetter : Text.isLetter c = true) : joins c = true :=
  joins_of_continuesWord (by simp [continuesWord, Text.isWordChar_of_isLetter isLetter])

/-- What starts anew satisfies no condition that only joining characters satisfy. -/
theorem Stops.weaken {condition : Char → Bool} {next : List Char} (anew : Stops joins next)
    (weaker : ∀ {c}, condition c = true → joins c = true) : Stops condition next := by
  intro c first
  cases holds : condition c with
  | false => rfl
  | true => exact (weaker holds).symm.trans (anew c first)

theorem Stops.append {condition : Char → Bool} {rest next : List Char}
    (stops : Stops condition rest) (weaker : ∀ {c}, condition c = true → joins c = true)
    (anew : Stops joins next) : Stops condition (rest ++ next) := by
  cases rest with
  | cons c rest => exact stops
  | nil => exact anew.weaken weaker

theorem Begins.append {read : Reader} {chars rest more : List Char} {piece : Piece}
    (begins : Begins read chars piece rest) (anew : Stops joins more) :
    Begins read (chars ++ more) piece (rest ++ more) where
  parts := by rw [begins.parts, List.append_assoc]
  nonempty := begins.nonempty
  settled := begins.settled
  skips := begins.skips
  takes := by
    intro next p further
    rw [List.append_assoc]
    exact begins.takes _ p (anew.append id further)

theorem stops_dropWhile (condition : Char → Bool) (chars : List Char) :
    Stops condition (chars.dropWhile condition) := by
  intro c first
  have kept := List.head?_dropWhile_not condition chars
  rw [first] at kept
  simpa using kept

/-- Steps over exactly the characters before a text that stops there. -/
theorem skipWhile_of_stops {condition : Char → Bool} {word rest : List Char}
    (all : ∀ c ∈ word, condition c = true) (stops : Stops condition rest) (p : Position) :
    skipWhile condition ⟨word ++ rest, p⟩ = ⟨rest, p.advanceAll word⟩ ∧
      (word ++ rest).takeWhile condition = word := by
  have nothing : rest.takeWhile condition = [] ∧ rest.dropWhile condition = rest := by
    cases rest with
    | nil => exact ⟨rfl, rfl⟩
    | cons c rest => simp [stops c rfl]
  rw [skipWhile, List.takeWhile_append_of_pos all, List.dropWhile_append_of_pos all, nothing.1,
    nothing.2, List.append_nil]
  exact ⟨rfl, rfl⟩

theorem plain_of_continuesWord {c : Char} (continues : continuesWord c = true) :
    c ≠ '"' ∧ c ≠ '#' ∧ c ≠ '\n' := by
  refine ⟨?_, ?_, ?_⟩ <;> rintro rfl <;> cases continues

theorem begins_word {c : Char} (starts : continuesWord c = true) (cs : List Char) :
    ∃ piece rest, Begins (fun s => found s.word) (c :: cs) piece rest := by
  have all := List.all_eq_true.mp (List.all_takeWhile (p := continuesWord) (l := c :: cs))
  have stops := stops_dropWhile continuesWord (c :: cs)
  have nonempty : (c :: cs).takeWhile continuesWord ≠ [] := by simp [starts]
  have parts := (List.takeWhile_append_dropWhile (p := continuesWord) (l := c :: cs)).symm
  generalize (c :: cs).takeWhile continuesWord = word at *
  generalize (c :: cs).dropWhile continuesWord = rest at *
  refine ⟨⟨word, some (wordLexeme (String.ofList word))⟩, rest, parts, nonempty, ?_, nofun, ?_⟩
  · exact settled_of_plain fun d member =>
      ⟨(plain_of_continuesWord (all d member)).1, (plain_of_continuesWord (all d member)).2.1⟩
  · intro next p anew
    obtain ⟨skips, takes⟩ := skipWhile_of_stops all (stops.append joins_of_continuesWord anew) p
    have noLine : word ≠ ['\n'] := by
      rintro rfl
      cases all '\n' List.mem_cons_self
    simp only [Scanner.word, skips, takes, found, tokenTo, Piece.token?, noLine]
    rfl

/-! ## Numbers -/

theorem plain_of_isDigit {c : Char} (isDigit : Text.isDigit c = true) :
    c ≠ '"' ∧ c ≠ '#' ∧ c ≠ '\n' :=
  plain_of_continuesWord (by simp [continuesWord, Text.isWordChar_of_isDigit isDigit])

/-- The characters that may be part of a number. -/
def InNumber (c : Char) : Prop :=
  Text.isDigit c = true ∨ c = '.'

/-- Digits, a point and the digits behind it. -/
theorem skipNumber_pointed {digits decimals rest : List Char}
    (all : ∀ d ∈ digits, Text.isDigit d = true) (others : ∀ d ∈ decimals, Text.isDigit d = true)
    (stops : Stops Text.isDigit rest) (p : Position) :
    skipNumber ⟨(digits ++ '.' :: decimals) ++ rest, p⟩ =
      (⟨rest, p.advanceAll (digits ++ '.' :: decimals)⟩, true) := by
  have point : Stops Text.isDigit ('.' :: (decimals ++ rest)) := fun c first => by cases first; rfl
  have first := (skipWhile_of_stops all point p).1
  have second := (skipWhile_of_stops others stops ((p.advanceAll digits).advance '.')).1
  rw [skipNumber, List.append_assoc, List.cons_append, first]
  simp only [advance, second]
  simp [Position.advanceAll, List.foldl_append]

/-- Digits without a point behind them. -/
theorem skipNumber_whole {digits rest : List Char} (all : ∀ d ∈ digits, Text.isDigit d = true)
    (stops : Stops Text.isDigit rest) (noPoint : ∀ more, rest ≠ '.' :: more) (p : Position) :
    skipNumber ⟨digits ++ rest, p⟩ = (⟨rest, p.advanceAll digits⟩, false) := by
  rw [skipNumber, (skipWhile_of_stops all stops p).1]
  split
  · next more same => exact absurd same (noPoint more)
  · rfl

/-- The digits in front of a text and those behind their point. -/
theorem exists_skipNumber {c : Char} (starts : Text.isDigit c = true) (cs : List Char) :
    ∃ literal rest pointed, c :: cs = literal ++ rest ∧ literal ≠ [] ∧ (∀ d ∈ literal, InNumber d) ∧
      ∀ next p, Stops joins next → skipNumber ⟨literal ++ (rest ++ next), p⟩ =
        (⟨rest ++ next, p.advanceAll literal⟩, pointed) := by
  have all := List.all_eq_true.mp (List.all_takeWhile (p := Text.isDigit) (l := c :: cs))
  have stops := stops_dropWhile Text.isDigit (c :: cs)
  have nonempty : (c :: cs).takeWhile Text.isDigit ≠ [] := by simp [starts]
  rw [← List.takeWhile_append_dropWhile (p := Text.isDigit) (l := c :: cs)]
  generalize (c :: cs).takeWhile Text.isDigit = digits at *
  generalize (c :: cs).dropWhile Text.isDigit = rest at *
  by_cases pointed : ∃ more, rest = '.' :: more
  · obtain ⟨more, rfl⟩ := pointed
    have others := List.all_eq_true.mp (List.all_takeWhile (p := Text.isDigit) (l := more))
    have ends := stops_dropWhile Text.isDigit more
    rw [← List.takeWhile_append_dropWhile (p := Text.isDigit) (l := more)]
    generalize more.takeWhile Text.isDigit = decimals at *
    generalize more.dropWhile Text.isDigit = rest at *
    refine ⟨digits ++ '.' :: decimals, rest, true, by simp, by simp, ?_, fun next p anew =>
      skipNumber_pointed all others (ends.append joins_of_isDigit anew) p⟩
    intro d member
    rcases List.mem_append.mp member with first | later
    · exact Or.inl (all d first)
    · exact (List.mem_cons.mp later).symm.imp_left (others d)
  · refine ⟨digits, rest, false, rfl, nonempty, fun d member => Or.inl (all d member), ?_⟩
    intro next p anew
    apply skipNumber_whole all (stops.append joins_of_isDigit anew)
    intro more same
    cases rest with
    | cons d rest =>
        rw [(List.cons.inj same).1] at pointed
        exact pointed ⟨rest, rfl⟩
    | nil => cases anew '.' (congrArg List.head? same)

theorem any_head?_append {condition : Char → Bool}
    (weaker : ∀ {c}, condition c = true → joins c = true) (rest : List Char) {next : List Char}
    (anew : Stops joins next) :
    ((rest ++ next).head?).any condition = (rest.head?).any condition := by
  cases rest with
  | cons c rest => rfl
  | nil =>
      cases next with
      | nil => rfl
      | cons d next => exact anew.weaken weaker d rfl

theorem plain_of_inNumber {c : Char} (inNumber : InNumber c) : c ≠ '"' ∧ c ≠ '#' ∧ c ≠ '\n' := by
  rcases inNumber with isDigit | rfl
  · exact plain_of_isDigit isDigit
  · decide

/-- The lexeme of the characters of a number. -/
def numberLexeme (literal : List Char) (pointed : Bool) : Except Fault Lexeme :=
  if pointed then .float <$> Number.realLiteral literal else .int <$> Number.wholeLiteral literal

theorem number_of_skipNumber {literal rest : List Char} {pointed : Bool} {p : Position}
    (skips : skipNumber ⟨literal ++ rest, p⟩ = (⟨rest, p.advanceAll literal⟩, pointed)) :
    number ⟨literal ++ rest, p⟩ = if (rest.head?).any Text.isLetter then
        .ok (word ⟨literal ++ rest, p⟩)
      else (fun lexeme => (⟨lexeme, ⟨p, p.advanceAll literal⟩⟩, ⟨rest, p.advanceAll literal⟩)) <$>
        numberLexeme literal pointed := by
  have taken : (literal ++ rest).take ((literal ++ rest).length - rest.length) = literal := by simp
  rw [number, skips]
  simp only [taken, numberLexeme]
  congr 1
  cases pointed with
  | true => cases Number.realLiteral literal <;> rfl
  | false => cases Number.wholeLiteral literal <;> rfl

theorem cuts_number {read : Reader} {c : Char} (starts : Text.isDigit c = true) (cs : List Char)
    (reads : ∀ s result, s.number = .ok result → read s = found result)
    (fails : ∀ s fault, s.number = .error fault → read s = .error (.fault fault)) :
    Cuts read (c :: cs) := by
  obtain ⟨literal, rest, pointed, parts, nonempty, plain, skips⟩ := exists_skipNumber starts cs
  by_cases isWord : (rest.head?).any Text.isLetter = true
  · left
    have continues : continuesWord c = true := by
      simp [continuesWord, Text.isWordChar_of_isDigit starts]
    obtain ⟨piece, more, begins⟩ := begins_word continues cs
    refine ⟨piece, more, { begins with takes := fun next p anew => ?_ }⟩
    have same : piece.chars ++ (more ++ next) = literal ++ (rest ++ next) := by
      rw [← List.append_assoc, ← begins.parts, parts, List.append_assoc]
    rw [← begins.takes next p anew, same]
    refine reads _ _ ?_
    rw [number_of_skipNumber (skips next p anew), if_pos]
    rwa [any_head?_append joins_of_isLetter rest anew]
  · have reading (next : List Char) (p : Position) (anew : Stops joins next) :=
      number_of_skipNumber (skips next p anew)
    cases value : numberLexeme literal pointed with
    | ok lexeme =>
        left
        refine ⟨⟨literal, some lexeme⟩, rest, parts, nonempty, settled_of_plain fun d member =>
          ⟨(plain_of_inNumber (plain d member)).1, (plain_of_inNumber (plain d member)).2.1⟩,
          nofun, fun next p anew => ?_⟩
        have reading := reading next p anew
        rw [any_head?_append joins_of_isLetter rest anew, if_neg isWord, value] at reading
        rw [reads _ _ reading]
        have noLine : literal ≠ ['\n'] := by
          rintro rfl
          exact (plain_of_inNumber (plain '\n' List.mem_cons_self)).2.2 rfl
        simp [found, Piece.token?, noLine]
    | error fault =>
        right
        refine ⟨.fault fault, fun next p anew => ⟨.fault fault, fails _ fault ?_, rfl⟩⟩
        have reading := reading next p anew
        rw [any_head?_append joins_of_isLetter rest anew, if_neg isWord, value] at reading
        rw [parts, List.append_assoc]
        exact reading

/-! ## Texts and comments -/

/-- The characters of a text up to its closing quote. -/
theorem exists_textBody (escaped : Bool) (chars : List Char) {cs : List Char}
    (closes : Mode.after (if escaped then .escape else .text) cs = .code) :
    ∃ body rest read, cs = body ++ '"' :: rest ∧
      Mode.after (if escaped then .escape else .text) body = .text ∧
      ∀ next p, textBody escaped chars (body ++ '"' :: (rest ++ next)) p =
        (read, ⟨'"' :: (rest ++ next), p.advanceAll body⟩) := by
  induction cs generalizing escaped chars with
  | nil => cases escaped <;> cases closes
  | cons c cs ih =>
      cases escaped with
      | true =>
          obtain ⟨body, rest, read, rfl, inside, reads⟩ :=
            ih false (unescape c :: chars) closes
          exact ⟨c :: body, rest, read, rfl, inside, fun next p => reads next (p.advance c)⟩
      | false =>
          rw [Mode.after_cons] at closes
          by_cases quote : c = '"'
          · subst quote
            exact ⟨[], cs, chars.reverse, rfl, rfl, fun next p => rfl⟩
          · by_cases backslash : c = '\\'
            · subst backslash
              obtain ⟨body, rest, read, rfl, inside, reads⟩ := ih true chars closes
              exact ⟨_ :: body, rest, read, rfl, inside, fun next p => reads next (p.advance _)⟩
            · have mode : Mode.next .text c = .text := by simp [Mode.next, quote, backslash]
              obtain ⟨body, rest, read, rfl, inside, reads⟩ :=
                ih false (c :: chars) (mode ▸ closes)
              refine ⟨c :: body, rest, read, rfl, ?_, fun next p => ?_⟩
              · simpa [mode] using inside
              · simpa [textBody, quote, backslash] using reads next (p.advance c)

theorem cuts_text {cs : List Char} (settled : Settled ('"' :: cs)) :
    Cuts (fun s => found s.text) ('"' :: cs) := by
  left
  obtain ⟨body, rest, read, rfl, inside, reads⟩ := exists_textBody false [] settled
  refine ⟨⟨'"' :: (body ++ ['"']), some (.string (String.ofList read))⟩, rest, by simp, by simp, ?_,
    nofun, ?_⟩
  · change Mode.after .text (body ++ ['"']) = .code
    rw [Mode.after_append, show Mode.after .text body = .text from inside]
    rfl
  · intro next p _
    have reads := reads next (p.advance '"')
    have longer : '"' :: (body ++ ['"']) ≠ ['\n'] := by simp
    simp only [List.cons_append, List.append_assoc, List.nil_append, text, advance, reads, found,
      tokenTo, Piece.token?, longer, if_false]
    simp [Position.advanceAll, List.foldl_append]

/-- A comment that ends has a line end. -/
theorem exists_of_comment {cs : List Char} (closes : Mode.after .comment cs ≠ .comment) :
    ∃ body rest, cs = body ++ '\n' :: rest ∧ '\n' ∉ body := by
  induction cs with
  | nil => exact absurd rfl closes
  | cons c cs ih =>
      by_cases line : c = '\n'
      · subst line
        exact ⟨[], cs, rfl, List.not_mem_nil⟩
      · have mode : Mode.next .comment c = .comment := by simp [Mode.next, line]
        rw [Mode.after_cons, mode] at closes
        obtain ⟨body, rest, rfl, others⟩ := ih closes
        exact ⟨c :: body, rest, rfl,
          List.not_mem_cons_of_ne_of_not_mem (Ne.symm line) others⟩

theorem after_comment {body : List Char} (inLine : '\n' ∉ body) :
    Mode.after .comment body = .comment := by
  induction body with
  | nil => rfl
  | cons c body ih =>
      rw [List.mem_cons, not_or] at inLine
      have mode : Mode.next .comment c = .comment := by simp [Mode.next, Ne.symm inLine.1]
      rw [Mode.after_cons, mode, ih inLine.2]

theorem begins_comment {body : List Char} (inLine : '\n' ∉ body) (rest : List Char) :
    Begins (fun s => .ok (none, s.skipComment)) ('#' :: (body ++ '\n' :: rest))
      ⟨'#' :: (body ++ ['\n']), none⟩ rest := by
  refine ⟨by simp, by simp, ?_, fun _ => .comment inLine .nil, ?_⟩
  · change Mode.after .comment (body ++ ['\n']) = .code
    rw [Mode.after_append, after_comment inLine]
    rfl
  · intro next p _
    have all : ∀ c ∈ '#' :: body, decide (c ≠ '\n') = true := by
      intro c member
      rw [decide_eq_true_iff]
      rintro rfl
      exact inLine (by simpa using member)
    have lineEnd : Stops (· ≠ '\n') ('\n' :: (rest ++ next)) := fun c first => by cases first; rfl
    have skips := (skipWhile_of_stops all lineEnd p).1
    simp only [List.cons_append, List.append_assoc, List.nil_append] at skips ⊢
    simp only [skipComment, skips, advance, Piece.token?]
    simp [Position.advanceAll, List.foldl_append]

theorem cuts_comment {cs : List Char} (settled : Settled ('#' :: cs)) :
    Cuts (fun s => .ok (none, s.skipComment)) ('#' :: cs) := by
  have closes : Mode.after .comment cs = .code := settled
  obtain ⟨body, rest, rfl, inLine⟩ := exists_of_comment (by rw [closes]; nofun)
  exact .inl ⟨_, rest, begins_comment inLine rest⟩

/-! ## Signs -/

/-- A sign of one character that some second characters make another sign. -/
theorem cuts_sign {read : Scanner → Token × Scanner} {c : Char} (alone : Lexeme)
    (pairs : List (Char × Lexeme)) (settled : Settled [c]) (noLine : c ≠ '\n')
    (closed : ∀ pair ∈ pairs, Settled [pair.1] ∧ joins pair.1 = true)
    (short : ∀ rest p, (∀ pair ∈ pairs, rest.head? ≠ some pair.1) →
      read ⟨c :: rest, p⟩ = (⟨alone, ⟨p, p.advance c⟩⟩, ⟨rest, p.advance c⟩))
    (long : ∀ pair ∈ pairs, ∀ rest p, read ⟨c :: pair.1 :: rest, p⟩ =
      (⟨pair.2, ⟨p, (p.advance c).advance pair.1⟩⟩, ⟨rest, (p.advance c).advance pair.1⟩))
    (cs : List Char) : Cuts (fun s => found (read s)) (c :: cs) := by
  left
  by_cases double : ∃ pair ∈ pairs, cs.head? = some pair.1
  · obtain ⟨pair, member, first⟩ := double
    obtain ⟨cs, rfl⟩ := List.head?_eq_some_iff.mp first
    refine ⟨⟨[c, pair.1], some pair.2⟩, cs, rfl, by simp, ?_, nofun, fun next p _ => ?_⟩
    · have second := (closed pair member).1
      rw [Settled, Mode.after_cons, Mode.after_nil] at settled second
      simp [Settled, settled, second]
    · simp only [List.cons_append, List.nil_append, long pair member, found, Piece.token?]
      simp
  · refine ⟨⟨[c], some alone⟩, cs, rfl, by simp, settled, nofun, fun next p anew => ?_⟩
    have single : ∀ pair ∈ pairs, (cs ++ next).head? ≠ some pair.1 := by
      intro pair member first
      cases cs with
      | cons d cs => exact double ⟨pair, member, first⟩
      | nil => cases (closed pair member).2.symm.trans (anew pair.1 first)
    simp only [List.cons_append, List.nil_append, short _ _ single, found, Piece.token?]
    simp [noLine]

theorem cuts_star (cs : List Char) : Cuts (fun s => found s.star) ('*' :: cs) := by
  refine cuts_sign .star [('*', .power true)] (by decide) (by decide) (by decide) ?_
    (by simp [star, advance, tokenTo]) cs
  intro rest p single
  simp only [star, advance]
  split
  · next more => simp at single
  · rfl

theorem cuts_equals (cs : List Char) : Cuts (fun s => found s.equals) ('=' :: cs) := by
  refine cuts_sign .assign [('=', .equal)] (by decide) (by decide) (by decide) ?_
    (by simp [equals, advance, tokenTo]) cs
  intro rest p single
  simp only [equals, advance]
  split
  · next more => simp at single
  · rfl

theorem cuts_lessThan (cs : List Char) : Cuts (fun s => found s.lessThan) ('<' :: cs) := by
  refine cuts_sign .less [('=', .lessEqual), ('-', .assign)] (by decide) (by decide) (by decide) ?_
    (by simp [lessThan, advance, tokenTo]) cs
  intro rest p single
  simp only [lessThan, advance]
  split
  · next more => simp at single
  · next more => simp at single
  · rfl

theorem cuts_greaterThan (cs : List Char) : Cuts (fun s => found s.greaterThan) ('>' :: cs) := by
  refine cuts_sign .greater [('=', .greaterEqual)] (by decide) (by decide) (by decide) ?_
    (by simp [greaterThan, advance, tokenTo]) cs
  intro rest p single
  simp only [greaterThan, advance]
  split
  · next more => simp at single
  · rfl

theorem cuts_notEqual {read : Reader} {cs : List Char}
    (reads : ∀ s token after, s.notEqual = (.ok token, after) → read s = found (token, after))
    (fails : ∀ s diagnostic after, s.notEqual = (.error diagnostic, after) →
      read s = .error (.error diagnostic)) : Cuts read ('!' :: cs) := by
  by_cases equals : ∃ rest, cs = '=' :: rest
  · obtain ⟨rest, rfl⟩ := equals
    exact .inl ⟨⟨['!', '='], some .notEqual⟩, rest, rfl, by simp, rfl, nofun,
      fun next p _ => reads _ _ _ rfl⟩
  · refine .inr ⟨.error ⟨.loneExclamation, none⟩, fun next p anew => ?_⟩
    have lone : notEqual ⟨'!' :: cs ++ next, p⟩ = (.error ⟨.loneExclamation,
        some ⟨p, (advance ⟨cs ++ next, p.advance '!'⟩).position⟩⟩,
        advance ⟨cs ++ next, p.advance '!'⟩) := by
      simp only [notEqual, advance, List.cons_append]
      split
      · next more same =>
          cases cs with
          | nil => cases anew '=' (congrArg List.head? same)
          | cons d cs => exact absurd ⟨cs, by rw [(List.cons.inj same).1]⟩ equals
      · rfl
    exact ⟨_, fails _ _ _ lone, rfl⟩

theorem cuts_single {read : Reader} {c : Char} {lexeme : Lexeme} (settled : Settled [c])
    (reads : ∀ s, read s = found (.single lexeme s.position, s.advance)) (cs : List Char) :
    Cuts read (c :: cs) := by
  refine .inl ⟨⟨[c], some lexeme⟩, cs, rfl, by simp, settled, nofun, fun next p _ => ?_⟩
  rw [reads]
  by_cases line : c = '\n'
  · subst line
    rfl
  · simp [found, Piece.token?, Token.single, advance, Position.advance, line]

theorem cuts_blank {c : Char} (blank : c = ' ' ∨ c = '\t') (cs : List Char) :
    Cuts (fun s => .ok (none, s.advance)) (c :: cs) := by
  refine .inl ⟨⟨[c], none⟩, cs, rfl, by simp, ?_, fun _ => .blank blank .nil, fun _ _ _ => rfl⟩
  rcases blank with rfl | rfl <;> rfl

/-! ## Steps -/

/-- Every step of the scanner takes a piece or stops. -/
theorem cuts_step {c : Char} {cs : List Char} (settled : Settled (c :: cs)) :
    Cuts (fun s => s.step c) (c :: cs) := by
  refine cuts_ite (fun blank => cuts_blank (by simpa using blank) cs) fun _ =>
    cuts_ite ?comment fun noHash => cuts_ite ?number fun _ => cuts_ite ?word fun _ =>
    cuts_ite ?text fun noQuote => cuts_ite ?star fun _ => cuts_ite ?exclamation fun _ =>
    cuts_ite ?equals fun _ => cuts_ite ?less fun _ => cuts_ite ?greater fun _ => ?single
  case comment =>
    rintro rfl
    exact cuts_comment settled
  case number =>
    intro isDigit
    exact cuts_number isDigit cs (fun s result read => by simp only [read])
      (fun s fault read => by simp only [read])
  case word =>
    intro starts
    refine .inl (begins_word ?_ cs)
    rcases Bool.or_eq_true_iff.mp starts with isLetter | isUnderscore
    · simp [continuesWord, Text.isWordChar_of_isLetter isLetter]
    · simp [continuesWord, isUnderscore]
  case text =>
    rintro rfl
    exact cuts_text settled
  case star =>
    rintro rfl
    exact cuts_star cs
  case exclamation =>
    rintro rfl
    exact cuts_notEqual (fun s token after read => by simp only [read])
      (fun s diagnostic after read => by simp only [read])
  case equals =>
    rintro rfl
    exact cuts_equals cs
  case less =>
    rintro rfl
    exact cuts_lessThan cs
  case greater =>
    rintro rfl
    exact cuts_greaterThan cs
  case single =>
    have plain : Settled [c] := by simp [Settled, Mode.next, noHash, noQuote]
    cases known : single? c with
    | none => exact cuts_error _ (fun s => ⟨s.position, s.advance.position⟩) _
    | some lexeme => exact cuts_single plain (fun s => rfl) cs

/-- A program as its pieces. -/
inductive Lexes : List Char → List Piece → Prop where
  | done : Lexes [] []
  | piece {c : Char} {cs rest : List Char} {first : Piece} {pieces : List Piece}
      (begins : Begins (fun s => s.step c) (c :: cs) first rest) (others : Lexes rest pieces) :
      Lexes (c :: cs) (first :: pieces)

/-- The tokens of pieces, the first of which starts at a place. -/
def placed (p : Position) : List Piece → List Token
  | [] => []
  | piece :: pieces =>
      (piece.token? p).toList ++ placed (p.advanceAll piece.chars) pieces

/-- The tokens of a program of pieces, with the mark for its end. -/
def place (p : Position) (pieces : List Piece) : List Token :=
  placed p pieces ++ [.single .eof (p.advanceAll (pieces.flatMap (·.chars)))]

theorem Begins.shorter {read : Reader} {chars rest : List Char} {piece : Piece}
    (begins : Begins read chars piece rest) : rest.length < chars.length := by
  have positive := List.length_pos_iff.mpr begins.nonempty
  rw [begins.parts, List.length_append]
  omega

theorem Begins.run {c : Char} {cs rest next : List Char} {piece : Piece}
    (begins : Begins (fun s => s.step c) (c :: cs) piece rest) (anew : Stops joins next)
    (p : Position) : step ⟨c :: (cs ++ next), p⟩ c =
      .ok (piece.token? p, ⟨rest ++ next, p.advanceAll piece.chars⟩) := by
  rw [← begins.takes next p anew, ← List.append_assoc, ← begins.parts]
  rfl

theorem Lexes.chars_eq {chars : List Char} {pieces : List Piece} (lexes : Lexes chars pieces) :
    pieces.flatMap (·.chars) = chars := by
  induction lexes with
  | done => rfl
  | piece begins _ ih => rw [List.flatMap_cons, ih, ← begins.parts]

theorem tokensWithin_of_ok {fuel : Nat} {s after : Scanner} {c : Char} {cs : List Char}
    {token? : Option Token} (rest : s.rest = c :: cs) (run : s.step c = .ok (token?, after)) :
    tokensWithin (fuel + 1) s = (token?.toList ++ ·) <$> tokensWithin fuel after := by
  rw [tokensWithin]
  simp only [rest, run]
  change (tokensWithin fuel after >>= fun tokens => .ok (token?.toList ++ tokens)) = _
  cases tokensWithin fuel after <;> rfl

theorem tokensWithin_of_error {fuel : Nat} {s : Scanner} {c : Char} {cs : List Char} {stop : Stop}
    (rest : s.rest = c :: cs) (run : s.step c = .error stop) :
    tokensWithin (fuel + 1) s = .error stop := by
  rw [tokensWithin]
  simp only [rest, run]
  rfl

/-- The scanner reads the tokens of the pieces and goes on with what starts anew behind them. -/
theorem Lexes.tokensWithin_append {chars next : List Char} {pieces : List Piece}
    (lexes : Lexes chars pieces) (anew : Stops joins next) {fuel : Nat}
    (enough : (chars ++ next).length ≤ fuel) (p : Position) :
    ∃ less, next.length ≤ less ∧ Scanner.tokensWithin fuel ⟨chars ++ next, p⟩ =
      (placed p pieces ++ ·) <$> Scanner.tokensWithin less ⟨next, p.advanceAll chars⟩ := by
  induction lexes generalizing fuel p with
  | done =>
      refine ⟨fuel, enough, ?_⟩
      simp only [placed, List.nil_append, id_map']
      rfl
  | @piece c cs rest first pieces begins others ih =>
      cases fuel with
      | zero => cases enough
      | succ fuel =>
          have shorter := begins.shorter
          have left : (rest ++ next).length ≤ fuel := by
            rw [List.length_append] at enough ⊢
            omega
          obtain ⟨less, enough, same⟩ := ih left (p.advanceAll first.chars)
          refine ⟨less, enough, ?_⟩
          rw [List.cons_append, tokensWithin_of_ok rfl (begins.run anew p), same, begins.parts]
          simp [placed, Position.advanceAll, List.foldl_append]

theorem stops_nil (condition : Char → Bool) : Stops condition [] :=
  nofun

/-- The scanner reads the tokens of the pieces. -/
theorem Lexes.tokensWithin {chars : List Char} {pieces : List Piece} (lexes : Lexes chars pieces)
    {fuel : Nat} (enough : chars.length ≤ fuel) (p : Position) :
    Scanner.tokensWithin fuel ⟨chars, p⟩ = .ok (place p pieces) := by
  have whole : (chars ++ []).length ≤ fuel := by rwa [List.append_nil]
  obtain ⟨less, -, same⟩ := lexes.tokensWithin_append (stops_nil joins) whole p
  rw [List.append_nil] at same
  rw [same, place, lexes.chars_eq]
  cases less <;> rfl

/-- A text that cannot be read to its end for one cause, wherever it stands and whatever starts anew
behind it. -/
def Fails (chars : List Char) (cause : Stop) : Prop :=
  ∀ next fuel p, Stops joins next → (chars ++ next).length ≤ fuel →
    ∃ stop, tokensWithin fuel ⟨chars ++ next, p⟩ = .error stop ∧ stop.unplaced = cause

theorem Balks.fails {c : Char} {cs : List Char} {cause : Stop}
    (balks : Balks (fun s => s.step c) (c :: cs) cause) : Fails (c :: cs) cause := by
  intro next fuel p anew enough
  cases fuel with
  | zero => cases enough
  | succ fuel =>
      obtain ⟨stop, run, same⟩ := balks next p anew
      exact ⟨stop, tokensWithin_of_error rfl run, same⟩

theorem Begins.fails {c : Char} {cs rest : List Char} {piece : Piece} {cause : Stop}
    (begins : Begins (fun s => s.step c) (c :: cs) piece rest) (later : Fails rest cause) :
    Fails (c :: cs) cause := by
  intro next fuel p anew enough
  cases fuel with
  | zero => cases enough
  | succ fuel =>
      have shorter := begins.shorter
      have left : (rest ++ next).length ≤ fuel := by
        rw [List.length_append] at enough ⊢
        omega
      obtain ⟨stop, run, same⟩ := later next fuel (p.advanceAll piece.chars) anew left
      refine ⟨stop, ?_, same⟩
      rw [List.cons_append, tokensWithin_of_ok rfl (begins.run anew p), run]
      rfl

/-- A text that leaves nothing open consists of pieces or cannot be read. -/
theorem lexes_or_fails {chars : List Char} (settled : Settled chars) :
    (∃ pieces, Lexes chars pieces) ∨ ∃ cause, Fails chars cause := by
  cases chars with
  | nil => exact .inl ⟨[], .done⟩
  | cons c cs =>
      obtain ⟨piece, rest, begins⟩ | ⟨cause, balks⟩ := cuts_step settled
      · have shorter := begins.shorter
        have others := begins.settled.of_append (begins.parts ▸ settled)
        obtain ⟨pieces, lexes⟩ | ⟨cause, fails⟩ := lexes_or_fails others
        · exact .inl ⟨piece :: pieces, .piece begins lexes⟩
        · exact .inr ⟨cause, begins.fails fails⟩
      · exact .inr ⟨cause, balks.fails⟩
  termination_by chars.length

/-- What the scanner reads consists of pieces. -/
theorem exists_lexes {fuel : Nat} {chars : List Char} {p : Position} {tokens : List Token}
    (settled : Settled chars) (enough : chars.length ≤ fuel)
    (scanned : tokensWithin fuel ⟨chars, p⟩ = .ok tokens) : ∃ pieces, Lexes chars pieces := by
  obtain lexes | ⟨cause, fails⟩ := lexes_or_fails settled
  · exact lexes
  · obtain ⟨stop, run, -⟩ := fails [] fuel p (stops_nil joins) (by rwa [List.append_nil])
    rw [List.append_nil, scanned] at run
    cases run

/-- The piece of a line end. -/
def lineEnd : Piece :=
  ⟨['\n'], some .newline⟩

theorem begins_lineEnd (rest : List Char) :
    Begins (fun s => s.step '\n') ('\n' :: rest) lineEnd rest :=
  ⟨rfl, List.cons_ne_nil _ _, rfl, nofun, fun _ _ _ => rfl⟩

theorem stops_cons {condition : Char → Bool} {c : Char} (fails : condition c = false)
    (rest : List Char) : Stops condition (c :: rest) := by
  intro d first
  cases first
  exact fails

/-- The pieces of two programs with a line end between them. -/
theorem Lexes.append {chars others : List Char} {pieces more : List Piece}
    (first : Lexes chars pieces) (second : Lexes others more) :
    Lexes (chars ++ '\n' :: others) (pieces ++ lineEnd :: more) := by
  induction first with
  | done => exact .piece (begins_lineEnd others) second
  | piece begins _ ih => exact .piece (begins.append (stops_cons rfl others)) ih

/-- The lexemes of pieces. -/
def lexemes (pieces : List Piece) : List Lexeme :=
  pieces.filterMap (·.lexeme?)

theorem lexemes_placed (pieces : List Piece) (p : Position) :
    (placed p pieces).map (·.lexeme) = lexemes pieces := by
  induction pieces generalizing p with
  | nil => rfl
  | cons piece pieces ih =>
      rw [placed, List.map_append, ih, lexemes, lexemes]
      cases found : piece.lexeme? <;> simp [Piece.token?, found]

theorem lexemes_place (pieces : List Piece) (p : Position) :
    (place p pieces).map (·.lexeme) = lexemes pieces ++ [.eof] := by
  rw [place, List.map_append, lexemes_placed]
  rfl

end Scanner

open Scanner in
/-- A text that can be scanned consists of pieces. -/
theorem Source.exists_lexes {name text : String} {tokens : List Token}
    (settled : Settled text.toList) (scanned : Source.tokens ⟨name, text⟩ = .ok tokens) :
    ∃ pieces, Lexes text.toList pieces ∧ tokens.map (·.lexeme) = lexemes pieces ++ [.eof] := by
  obtain ⟨pieces, lexes⟩ := Scanner.exists_lexes settled (Nat.le_refl _) scanned
  refine ⟨pieces, lexes, ?_⟩
  have read := lexes.tokensWithin (Nat.le_refl _) (.start ⟨name, text⟩)
  obtain rfl := Except.ok.inj (scanned.symm.trans read)
  exact lexemes_place pieces _

open Scanner in
theorem Source.tokens_of_lexes {text : String} {pieces : List Piece}
    (lexes : Lexes text.toList pieces) (name : String) :
    Source.tokens ⟨name, text⟩ = .ok (place (.start ⟨name, text⟩) pieces) :=
  lexes.tokensWithin (Nat.le_refl _) (.start ⟨name, text⟩)

end Pseudocode
