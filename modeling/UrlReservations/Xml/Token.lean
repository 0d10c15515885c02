/-
The tokens of a document.

`Token.scan` cuts a text into tags, attributes, character data, comments and
instructions.  It keeps no more of the structure than the number of open elements,
because that number alone decides whether the next character belongs to the root
element's content or to what surrounds it.  Whether end tags match and prefixes are
declared is for the reader that consumes the tokens.

A scan yields the tokens before the first lexical error together with that error,
so a consumer that works through the tokens first reports whichever error stands
earlier in the text.
-/
import UrlReservations.Xml.Reference

namespace UrlReservations.Xml

/-- A name as written in a tag: its namespace prefix, empty if there is none, and its local part. -/
structure QName where
  qualifier : String
  name : String
  deriving DecidableEq

/-- A name as it is written. -/
def QName.text (qname : QName) : String :=
  if qname.qualifier.isEmpty then qname.name else qname.qualifier ++ ":" ++ qname.name

/-- The pieces a text is cut into. -/
inductive Token where
  /-- The beginning of a start tag, at its `<`. -/
  | tagStart (qname : QName) (pos : Position)
  /-- An attribute or namespace declaration of the start tag; the value is still undecoded. -/
  | attr (qname : QName) (pos : Position) (value : Cursor)
  /-- The end of a start tag, which for an empty element also ends the element. -/
  | tagEnd (empty : Bool)
  /-- An end tag, at its `<`. -/
  | endTag (qname : QName) (pos : Position)
  /-- A run of character data, still undecoded. -/
  | text (run : Cursor)
  /-- The content of a CDATA section. -/
  | cdata (text : String)
  | comment (text : String)
  | instruction (target text : String)

namespace Token

/-- Where in a document the next token stands. -/
inductive Mode where
  /-- Outside the root element, before or after it. -/
  | outside (rooted : Bool)
  /-- In a start tag below `depth` open elements. -/
  | inTag (depth : Nat)
  /-- In the content of the innermost of `depth + 1` open elements. -/
  | inContent (depth : Nat)

/-- The mode after an element with `depth` elements around it has ended. -/
def Mode.afterElement : Nat → Mode
  | 0 => .outside true
  | depth + 1 => .inContent depth

/-! ### Names -/

/-- Whether a name part begins as a name must. -/
private def startsAsName (part : List Char) : Bool := part.head?.any isNameStart

/--
The length of the qualified name at the beginning of a text, which runs over name characters up
to a second colon.
-/
private def qnameRun (rest : List Char) : List Char := rest.takeWhile isNameChar

/--
Read a qualified name: a prefix that is empty or starts as a name, and a local part that starts
as a name.
-/
def readQName (cursor : Cursor) : Except Error (QName × Cursor) :=
  let run := qnameRun cursor.rest
  let after := cursor.skip run.length
  let first := run.takeWhile (· ≠ ':')
  match run.drop first.length with
  | [] =>
    if startsAsName run then .ok (⟨"", String.ofList run⟩, after)
    else .error (.invalidName cursor.pos)
  | _ :: second =>
    if (first.isEmpty || startsAsName first) && startsAsName second && !second.contains ':' then
      .ok (⟨String.ofList first, String.ofList second⟩, after)
    else .error (.invalidName cursor.pos)

/-- The local part of a name that was read consists of name characters. -/
theorem isNameChar_of_readQName {cursor after : Cursor} {qname : QName}
    (h : readQName cursor = .ok (qname, after)) : ∀ c ∈ qname.name.toList, isNameChar c = true := by
  have hrun : ∀ c ∈ qnameRun cursor.rest, isNameChar c = true :=
    List.all_eq_true.mp List.all_takeWhile
  intro c hc
  simp only [readQName] at h
  split at h
  · split at h
    · cases h
      exact hrun c (by simpa using hc)
    · cases h
  · split at h
    · rename_i colon second hsecond _
      cases h
      have hmem : c ∈ colon :: second := List.mem_cons_of_mem _ (by simpa using hc)
      rw [← hsecond] at hmem
      exact hrun c (List.mem_of_mem_drop hmem)
    · cases h

/-! ### Comments, instructions and sections -/

/-- Whether two dashes stand next to each other or one stands at the end. -/
private def hasLooseDash : List Char → Bool
  | [] => false
  | ['-'] => true
  | '-' :: '-' :: _ => true
  | _ :: rest => hasLooseDash rest

/-- Read a comment from its opening mark on. -/
def readComment (cursor : Cursor) : Except Error (Token × Cursor) := do
  let (run, after) ← (cursor.skip 4).takeThrough "-->"
  if hasLooseDash run then throw (.dashesInComment cursor.pos)
  return (.comment (String.ofList run), after)

/-- Read a processing instruction from its opening mark on. -/
def readInstruction (cursor : Cursor) : Except Error (Token × Cursor) := do
  if cursor.startsWith "<?xml " then throw (.misplacedDeclaration cursor.pos)
  let atTarget := cursor.skip 2
  if !startsAsName atTarget.rest then throw (.invalidName atTarget.pos)
  let (target, afterTarget) := atTarget.takeWhile isNameChar
  let (run, after) ← afterTarget.skipSpaces.takeThrough "?>"
  return (.instruction (String.ofList target) (String.ofList run), after)

/-- Read a CDATA section from its opening mark on. -/
def readCdata (cursor : Cursor) : Except Error (Token × Cursor) := do
  let (run, after) ← (cursor.skip 9).takeThrough "]]>"
  return (.cdata (String.ofList run), after)

/-- Whether the end mark of a CDATA section stands somewhere in a text. -/
private def holdsSectionEnd : List Char → Bool
  | [] => false
  | ']' :: ']' :: '>' :: _ => true
  | _ :: rest => holdsSectionEnd rest

/-- Read character data up to the next tag. -/
def readText (cursor : Cursor) : Except Error (Token × Cursor) := do
  let (run, after) ← cursor.takeUntil (·.head? = some '<')
  if holdsSectionEnd run then throw (.sectionEndInText after.pos)
  return (.text ⟨run, cursor.pos⟩, after)

/-! ### Tags -/

/-- Read an attribute: a name, an equals sign and a quoted value that holds no `<`. -/
def readAttribute (cursor : Cursor) : Except Error (Token × Cursor) := do
  let (qname, afterName) ← readQName cursor
  let afterSign ← afterName.skipSpaces.expect '='
  let (quote, value) ← afterSign.skipSpaces.expectQuote
  if !value.rest.any fun c => c = quote || c = '<' then throw .endOfText
  let (run, afterRun) ← value.takeUntil (·.head?.any fun c => c = quote || c = '<')
  return (.attr qname cursor.pos ⟨run, value.pos⟩, ← afterRun.expect quote)

/-- Read the beginning of a start tag from its `<` on. -/
def readTagStart (cursor : Cursor) : Except Error (Token × Cursor) := do
  let (qname, after) ← readQName (cursor.skip 1)
  return (.tagStart qname cursor.pos, after)

/-- Read an end tag from its `<` on. -/
def readEndTag (cursor : Cursor) : Except Error (Token × Cursor) := do
  let (qname, afterName) ← readQName (cursor.skip 2)
  return (.endTag qname cursor.pos, ← afterName.skipSpaces.expect '>')

/-! ### The next token

Each function below reads the next token of one mode, with the mode that follows;
the answer is `none` where the text ends.  A text may end anywhere between two
tokens: a start tag that is cut off is no lexical error.
-/

/-- A token, the mode after it, and what is left. -/
abbrev Next := Option (Token × Mode × Cursor)

/-- Attach the mode that follows a token. -/
private def andThen (mode : Mode) (read : Except Error (Token × Cursor)) : Except Error Next :=
  read.map fun (token, after) => some (token, mode, after)

theorem eq_ok_of_andThen {mode mode' : Mode} {read : Except Error (Token × Cursor)} {token : Token}
    {after : Cursor} (h : andThen mode read = .ok (some (token, mode', after))) :
    read = .ok (token, after) := by
  cases read with
  | error error => cases h
  | ok found =>
    cases h
    rfl

/-- The next token outside the root element. -/
def nextOutside (rooted : Bool) (cursor : Cursor) : Except Error Next :=
  let cursor := cursor.skipSpaces
  if cursor.startsWith "<!--" then andThen (.outside rooted) (readComment cursor)
  else if cursor.startsWith "<?" then andThen (.outside rooted) (readInstruction cursor)
  else if !rooted && cursor.startsWith "<!DOCTYPE" then .error .doctype
  else if !rooted && cursor.startsWith "<" then andThen (.inTag 0) (readTagStart cursor)
  else if cursor.atEnd then .ok none
  else .error (.unknownToken cursor.pos)

/-- The next token inside a start tag. -/
def nextInTag (depth : Nat) (cursor : Cursor) : Except Error Next :=
  if cursor.atEnd then .ok none else
  let spaced := cursor.startsWithSpace
  let cursor := cursor.skipSpaces
  match cursor.rest with
  | [] => .error .endOfText
  | '/' :: _ => do return some (.tagEnd true, .afterElement depth, ← (cursor.skip 1).expect '>')
  | '>' :: _ => .ok (some (.tagEnd false, .inContent depth, cursor.skip 1))
  | c :: _ =>
    if spaced then andThen (.inTag depth) (readAttribute cursor)
    else .error (.expectedSpace c cursor.pos)

/-- The next token in the content of an element. -/
def nextInContent (depth : Nat) (cursor : Cursor) : Except Error Next :=
  if cursor.atEnd then .ok none
  else if !cursor.startsWith "<" then andThen (.inContent depth) (readText cursor)
  else if cursor.startsWith "<!--" then andThen (.inContent depth) (readComment cursor)
  else if cursor.startsWith "<![CDATA[" then andThen (.inContent depth) (readCdata cursor)
  else if cursor.startsWith "<?" then andThen (.inContent depth) (readInstruction cursor)
  else if cursor.startsWith "</" then andThen (.afterElement depth) (readEndTag cursor)
  else if cursor.startsWith "<!" || (cursor.skip 1).atEnd then .error (.unknownToken cursor.pos)
  else andThen (.inTag (depth + 1)) (readTagStart cursor)

/-- The next token in any mode. -/
def next : Mode → Cursor → Except Error Next
  | .outside rooted => nextOutside rooted
  | .inTag depth => nextInTag depth
  | .inContent depth => nextInContent depth

/-! ### Whole texts -/

/-- The tokens of a text up to its first lexical error, if it has one. -/
structure Scan where
  tokens : List Token
  error? : Option Error

/-- Scan with a bound on the number of tokens. -/
def scanFrom : Nat → Mode → Cursor → Scan
  | 0, _, _ => ⟨[], none⟩
  | fuel + 1, mode, cursor =>
    match next mode cursor with
    | .error error => ⟨[], some error⟩
    | .ok none => ⟨[], none⟩
    | .ok (some (token, mode, after)) =>
      let later := scanFrom fuel mode after
      ⟨token :: later.tokens, later.error?⟩

/-- Require a blank, unless the declaration or the text ends here. -/
private def endOfItem (cursor : Cursor) : Except Error Cursor :=
  match cursor.rest with
  | [] => .ok cursor
  | c :: _ =>
    if isSpace c || cursor.startsWith "?>" then .ok cursor.skipSpaces
    else .error (.expectedSpace c cursor.pos)

/-- Read an item of the XML declaration, if it is the one named. -/
private def optionalItem (name : String) (cursor : Cursor) : Except Error Cursor :=
  if cursor.startsWith name then do return (← readAttribute cursor).2 else .ok cursor

/--
Pass over the XML declaration from its opening mark on: a version, and optionally an encoding
and a standalone flag, in this order.
-/
def skipDeclaration (cursor : Cursor) : Except Error Cursor := do
  let atVersion := (cursor.skip 5).skipSpaces
  if !atVersion.startsWith "version" then throw (.expectedText "version" atVersion.pos)
  let afterVersion ← endOfItem (← readAttribute atVersion).2
  let afterEncoding ←
    if afterVersion.startsWith "encoding" then do endOfItem (← readAttribute afterVersion).2
    else pure afterVersion
  let afterStandalone ← optionalItem "standalone" afterEncoding
  afterStandalone.skipSpaces.expectText "?>"

/--
Cut a whole text into tokens.

A byte order mark and an XML declaration at the very beginning are passed over.
Every token takes at least one character, so the length of the text bounds their
number and the bound on `scanFrom` is never met.
-/
def scan (text : List Char) : Scan :=
  let start := Cursor.ofText text
  let start := if text.head? = some '\ufeff' then start.skip 1 else start
  let afterDeclaration := if start.startsWith "<?xml " then skipDeclaration start else .ok start
  match afterDeclaration with
  | .error error => ⟨[], some error⟩
  | .ok cursor => scanFrom (text.length + 1) (.outside false) cursor

end Token

end UrlReservations.Xml
