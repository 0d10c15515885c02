/-
Values chosen by a token.

Some attributes take one of a few words.  A choice lists its words once, in the order
messages list them, each with the value it stands for; words are matched exactly.
-/

namespace UrlReservations

/-- A type whose values are written as words. -/
class Choice (α : Type) where
  /-- Every legal word with the value it stands for. -/
  words : List (String × α)

namespace Choice

variable (α : Type) [Choice α]

/-- Every legal word. -/
def tokens : List String := (words (α := α)).map (·.1)

variable {α}

/-- The value a word stands for. -/
def ofToken? (token : String) : Option α := words.lookup token

end Choice

end UrlReservations
