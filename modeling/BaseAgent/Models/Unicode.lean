import BaseAgent.Models.Python

/-!
# The tables of Unicode

`str` reads the category and the case folding of a character from tables.  A model that asks for
them takes the tables as a parameter, of which it knows the ASCII part.
-/

namespace BaseAgent

structure Unicode where
  isalpha : Char → Bool
  isalnum : Char → Bool
  casefold : Char → List Char
  isalpha_ascii : ∀ c : Char, c.toNat < 128 → isalpha c = c.isAlpha
  isalnum_ascii : ∀ c : Char, c.toNat < 128 → isalnum c = c.isAlphanum
  casefold_ascii : ∀ c : Char, c.toNat < 128 → casefold c = [c.toLower]

namespace Unicode

def ascii : Unicode where
  isalpha c := c.isAlpha
  isalnum c := c.isAlphanum
  casefold c := [c.toLower]
  isalpha_ascii _ _ := rfl
  isalnum_ascii _ _ := rfl
  casefold_ascii _ _ := rfl

/-- `text.casefold()`. -/
def fold (tables : Unicode) (text : List Char) : List Char := text.flatMap tables.casefold

end Unicode

end BaseAgent
