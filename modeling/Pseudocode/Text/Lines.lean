/-!
# Line ends

Files may end their lines with a line feed, a carriage return or both; a text has line feeds only.
-/

namespace Pseudocode
namespace Text

/-- Line ends of any kind become line feeds. -/
def normalizeLines : List Char → List Char
  | '\r' :: '\n' :: rest => '\n' :: normalizeLines rest
  | '\r' :: rest => '\n' :: normalizeLines rest
  | c :: rest => c :: normalizeLines rest
  | [] => []

end Text
end Pseudocode
