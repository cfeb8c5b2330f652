import Pseudocode.Json.Problem

/-!
# Faults

A fault ends a run at once.  It differs from an error of the program, which is a value that carries
a place in the source and can be shown to the user: a fault has a cause and nothing else.
-/

namespace Pseudocode

/-- The kinds of data that a document can hold, as they are named in messages. -/
inductive DataKind where
  | null
  | boolean
  | whole
  | real
  | text
  | array
  | object
  deriving DecidableEq, Repr

/-- The name of a kind of data. -/
def DataKind.name : DataKind → String
  | .null => "NoneType"
  | .boolean => "bool"
  | .whole => "int"
  | .real => "float"
  | .text => "str"
  | .array => "list"
  | .object => "dict"

/-- The causes that end a run. -/
inductive Fault where
  /-- A value that is not a procedure was called. -/
  | notCallable
  /-- The first argument of a call could not be parsed. -/
  | unreadableArgument
  /-- A repetition count that is neither a whole number nor a truth value. -/
  | countNotWhole
  /-- A repetition count that is a list or a procedure. -/
  | countMissing
  /-- A text multiplied by a number that is not whole. -/
  | textTimesFraction
  /-- An insertion at an index that is not whole. -/
  | indexNotWhole
  /-- An index or a repetition beyond 64 bits. -/
  | indexTooLarge
  /-- A text with more characters than can be counted in 64 bits. -/
  | textTooLong
  /-- Complex numbers have no order. -/
  | complexOrder
  /-- Complex numbers have no remainder. -/
  | complexRemainder
  /-- A complex number as the bound of a random draw. -/
  | complexBound
  /-- Zero raised to a negative or a complex power. -/
  | zeroToNegative
  /-- A whole number that no double can hold. -/
  | wholeTooLarge
  /-- A power that no double can hold. -/
  | powerTooLarge
  /-- Not a number where a whole number is needed. -/
  | nanToWhole
  /-- An infinity where a whole number is needed. -/
  | infinityToWhole
  /-- A digit that is no decimal digit, or no digit at all. -/
  | notANumeral
  /-- A whole number with more digits than are read or written. -/
  | tooManyDigits (digits : Nat)
  /-- A random draw between bounds in the wrong order. -/
  | emptyRange
  /-- A random draw with a bound that is not whole. -/
  | fractionalBound
  /-- A line of input was asked for and there is none. -/
  | endOfInput
  /-- An error without a place in the source was to be shown. -/
  | noPosition
  /-- A procedure without a surrounding scope was called. -/
  | noScope
  /-- A bare value was to be copied. -/
  | noCopy
  /-- A value was called with the wrong number of arguments inside the interpreter. -/
  | wrongArity
  /-- The text of a grid is no document. -/
  | malformed (complaint : Json.Complaint)
  /-- There is no grid file. -/
  | noGridFile
  /-- The grid maker has left no result. -/
  | noGridResult
  /-- A list index out of range. -/
  | listIndex
  /-- An index out of range in a text. -/
  | textIndex
  /-- A key that an object does not have. -/
  | missingKey (key : String)
  /-- Data of this kind has no length. -/
  | noLength (kind : DataKind)
  /-- Data of this kind has no items. -/
  | noItems (kind : DataKind)
  /-- Data of this kind has no items that can be replaced. -/
  | noItemAssignment (kind : DataKind)
  /-- Data of this kind is not a whole number. -/
  | notWhole (kind : DataKind)
  /-- Data of this kind cannot be compared with a number. -/
  | notComparable (kind : DataKind)
  /-- Data of this kind is not the name of a direction. -/
  | directionNotText (kind : DataKind)
  /-- A direction that the robot does not know. -/
  | unknownDirection (direction : String)
  /-- A name that is not bound in a scope was to be removed. -/
  | unboundName (name : String)
  /-- The bound on nesting or on repetition is used up. -/
  | exhausted
  deriving DecidableEq, Repr

/-- The words for a fault. -/
def Fault.message : Fault → String
  | .notCallable => "the value cannot be called"
  | .unreadableArgument => "the first argument of a call cannot be read"
  | .countNotWhole => "the count of a repetition must be a whole number"
  | .countMissing => "the count of a repetition must be a number"
  | .textTimesFraction => "a text can only be repeated a whole number of times"
  | .indexNotWhole => "an index must be a whole number"
  | .indexTooLarge => "the number is too large for an index"
  | .textTooLong => "the repeated text is too long"
  | .complexOrder => "complex numbers have no order"
  | .complexRemainder => "complex numbers have no remainder"
  | .complexBound => "a bound must be a whole number"
  | .zeroToNegative => "zero cannot be raised to a negative power"
  | .wholeTooLarge => "the whole number is too large for a double"
  | .powerTooLarge => "the power is too large for a double"
  | .nanToWhole => "cannot convert float NaN to integer"
  | .infinityToWhole => "cannot convert float infinity to integer"
  | .notANumeral => "not a decimal numeral"
  | .tooManyDigits digits =>
      "Exceeds the limit (4300 digits) for integer string conversion: " ++
        s!"value has {digits} digits; use sys.set_int_max_str_digits() to increase the limit"
  | .emptyRange => "empty range for a random draw"
  | .fractionalBound => "a bound must be a whole number"
  | .endOfInput => "there is no further line of input"
  | .noPosition => "the error has no place in the source"
  | .noScope => "the procedure has no surrounding scope"
  | .noCopy => "the value cannot be copied"
  | .wrongArity => "wrong number of arguments"
  | .malformed complaint => complaint.message
  | .noGridFile => "[Errno 2] No such file or directory: '<grid>'"
  | .noGridResult => "the grid maker has left no result"
  | .listIndex => "list index out of range"
  | .textIndex => "string index out of range"
  | .missingKey key => key
  | .noLength kind => s!"object of type '{kind.name}' has no len()"
  | .noItems kind => s!"'{kind.name}' object is not subscriptable"
  | .noItemAssignment kind => s!"'{kind.name}' object does not support item assignment"
  | .notWhole kind => s!"'{kind.name}' object cannot be interpreted as an integer"
  | .notComparable kind => s!"'>' not supported between instances of '{kind.name}' and 'int'"
  | .directionNotText _ => "a direction must be a text"
  | .unknownDirection direction => s!"Unknown direction: {direction}"
  | .unboundName name => name
  | .exhausted => "the bound on nesting or repetition is used up"

end Pseudocode
