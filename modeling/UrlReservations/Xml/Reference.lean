/-
Character data and attribute values, decoded.

Two things happen to written text before it becomes a value.  Line ends and, in
attributes, blanks are unified; and references are replaced by the character they
name.  A character that a reference names is taken literally: it is not unified, and
it begins no other reference.

`decode` walks the text once.  Between an ampersand and the next semicolon it only
collects; what was collected is resolved at the semicolon, and anything wrong with
it is an error at the ampersand.
-/
import UrlReservations.Numeral
import UrlReservations.Xml.Cursor

namespace UrlReservations.Xml

/-- The entities every document may refer to. -/
def predefinedEntities : List (String × Char) :=
  [("lt", '<'), ("gt", '>'), ("amp", '&'), ("apos", '\''), ("quot", '"')]

/--
The character of a code point; a number that is no Unicode scalar value stands for the
replacement character.
-/
def scalarOrReplacement (n : Nat) : Char :=
  if h : n.isValidChar then Char.ofNatAux n h else '\ufffd'

/-- The character a number names in a reference, if it fits 32 bits and a document may hold it. -/
def namedScalar? (n : Nat) : Option Char :=
  if n < 1 <<< 32 then some (scalarOrReplacement n) |>.filter isAllowed else none

/-- Whether some text is a name, the colon being a name character like any other. -/
def isName : List Char → Bool
  | [] => false
  | c :: rest => isNameStart c && rest.all isNameChar

/--
The character named by what stands between the ampersand and the semicolon of a reference that
begins at `pos`.
-/
def resolveReference (pos : Position) (body : List Char) : Except Error Char :=
  let named? : Option Char :=
    match body with
    | '#' :: 'x' :: digits => (Numeral.read? 16 digits).bind namedScalar?
    | '#' :: digits => (Numeral.read? 10 digits).bind namedScalar?
    | _ => predefinedEntities.lookup (String.ofList body)
  match named? with
  | some c => .ok c
  | none =>
    .error (if isName body then .unknownReference (String.ofList body) pos
      else .malformedReference pos)

/-- How unreferenced characters of an attribute value are unified: every blank is a space. -/
def blankToSpace (c : Char) : Char := if isSpace c then ' ' else c

/-- How unreferenced characters of character data are unified: a carriage return is a line feed. -/
def returnToLineFeed (c : Char) : Char := if c = '\r' then '\n' else c

/--
A reference whose semicolon has not been reached: where it began, and what it holds so far,
latest first.
-/
structure OpenReference where
  pos : Position
  body : List Char

/--
Decode text that begins at `pos`, unifying unreferenced characters.

A carriage return before a line feed is dropped, so that the pair counts once.
-/
def decode (unify : Char → Char) :
    Option OpenReference → Position → List Char → Except Error (List Char)
  | none, _, [] => .ok []
  | some reference, _, [] => .error (.malformedReference reference.pos)
  | some reference, pos, c :: rest =>
    if c = ';' then do
      let named ← resolveReference reference.pos reference.body.reverse
      return named :: (← decode unify none (pos.advance c) rest)
    else decode unify (some { reference with body := c :: reference.body }) (pos.advance c) rest
  | none, pos, c :: rest =>
    if c = '&' then decode unify (some ⟨pos, []⟩) (pos.advance c) rest
    else if c = '\r' && rest.head? = some '\n' then decode unify none (pos.advance c) rest
    else do return unify c :: (← decode unify none (pos.advance c) rest)

/--
The value of an attribute as the document means it, from the text between its quotation marks.
-/
def decodeAttribute (value : Cursor) : Except Error String := do
  return String.ofList (← decode blankToSpace none value.pos value.rest)

/-- Character data as the document means it. -/
def decodeText (text : Cursor) : Except Error String := do
  return String.ofList (← decode returnToLineFeed none text.pos text.rest)

end UrlReservations.Xml
