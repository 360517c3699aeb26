import StrategyDesk.Text.Blank

set_option autoImplicit false

namespace StrategyDesk.Generation
open Text

def fence : List Char := "```".toList

def fenceTag : List Char := "json".toList

/-- What follows a list of characters where the text starts with it, else the whole text. -/
def dropLeading (lead cs : List Char) : List Char := (dropPrefix? cs lead).getD cs

/-- The text before a list of characters where the text ends with it, and the blanks before that
dropped; else the whole text. -/
def dropClosing (close cs : List Char) : List Char :=
  match dropPrefix? cs.reverse close.reverse with
  | some rest => (rest.dropWhile blank).reverse
  | none => cs

def afterOpening (cs : List Char) : List Char := trimStart blank (dropLeading fenceTag cs)

def stripFences (raw : List Char) : List Char :=
  let cs := trim blank raw
  match dropPrefix? cs fence with
  | some rest => trim blank (dropClosing fence (afterOpening rest))
  | none => trim blank cs

end StrategyDesk.Generation
