/-
A reading position in a text.

A cursor holds what is left to read and the position of its first character.  Every
reading step is one of three moves: skip a number of characters, take the longest
run of a class, or require something and say what was missing.  The position is
recomputed from the characters passed over, so the two fields never drift apart.
-/
import UrlReservations.Xml.Character
import UrlReservations.Xml.Error

namespace UrlReservations.Xml

/-- What is left of a text, and where its first character stands. -/
structure Cursor where
  rest : List Char
  pos : Position

namespace Cursor

/-- The beginning of a text. -/
def ofText (text : List Char) : Cursor := ⟨text, .start⟩

/-- Whether nothing is left. -/
def atEnd (cursor : Cursor) : Bool := cursor.rest.isEmpty

/-- Whether what is left begins with a given run of characters. -/
def startsWith (cursor : Cursor) (expected : String) : Bool :=
  expected.toList.isPrefixOf cursor.rest

/-- Pass over a number of characters. -/
def skip (cursor : Cursor) (count : Nat) : Cursor :=
  ⟨cursor.rest.drop count, (cursor.rest.take count).foldl Position.advance cursor.pos⟩

/-- The longest run of a class, and the cursor after it. -/
def takeWhile (cursor : Cursor) (p : Char → Bool) : List Char × Cursor :=
  let taken := cursor.rest.takeWhile p
  (taken, cursor.skip taken.length)

/-- Pass over blanks. -/
def skipSpaces (cursor : Cursor) : Cursor := (cursor.takeWhile isSpace).2

/-- Whether what is left begins with a blank. -/
def startsWithSpace (cursor : Cursor) : Bool := cursor.rest.head?.any isSpace

/-- Require one particular character. -/
def expect (cursor : Cursor) (expected : Char) : Except Error Cursor :=
  match cursor.rest with
  | [] => .error .endOfText
  | c :: _ =>
    if c = expected then .ok (cursor.skip 1) else .error (.expectedCharacter expected c cursor.pos)

/-- Require a fixed run of characters. -/
def expectText (cursor : Cursor) (expected : String) : Except Error Cursor :=
  if cursor.startsWith expected then .ok (cursor.skip expected.length)
  else .error (.expectedText expected cursor.pos)

/-- Require a quotation mark of either kind, and say which it is. -/
def expectQuote (cursor : Cursor) : Except Error (Char × Cursor) :=
  match cursor.rest with
  | [] => .error .endOfText
  | c :: _ =>
    if c = '"' || c = '\'' then .ok (c, cursor.skip 1) else .error (.expectedQuote c cursor.pos)

/-! ### Runs up to a mark

Comments, instructions, sections, character data and attribute values all extend to
the first occurrence of a mark.  Up to the mark, or to the end of the text if there
is none, every character must be one a document may hold.
-/

/-- The characters before the first place where `stop` holds of what is left. -/
def before (stop : List Char → Bool) : List Char → List Char
  | [] => []
  | c :: rest => if stop (c :: rest) then [] else c :: before stop rest

/--
Read up to the first place where `stop` holds, or to the end; a character that no document may
hold is an error there.
-/
def takeUntil (cursor : Cursor) (stop : List Char → Bool) : Except Error (List Char × Cursor) :=
  let run := before stop cursor.rest
  let allowed := run.takeWhile isAllowed
  let after := cursor.skip allowed.length
  match run.drop allowed.length with
  | [] => .ok (run, after)
  | c :: _ => .error (.forbiddenCharacter c after.pos)

/-- Read up to a mark and pass over the mark; a text without the mark is an error at its end. -/
def takeThrough (cursor : Cursor) (mark : String) : Except Error (List Char × Cursor) := do
  let (run, after) ← cursor.takeUntil fun rest => mark.toList.isPrefixOf rest
  return (run, ← after.expectText mark)

end Cursor

end UrlReservations.Xml
