/-! # Columns of text

Widths count characters. Cells are filled with blanks and never cut by filling.
-/

namespace NextOffer.Text

def fill (width : Nat) (cell : String) : String :=
  String.ofList (List.replicate (width - cell.length) ' ')

def left (width : Nat) (cell : String) : String := cell ++ fill width cell

def right (width : Nat) (cell : String) : String := fill width cell ++ cell

def cut (width : Nat) (cell : String) : String := String.ofList (cell.toList.take width)

def unlines (lines : List String) : String := "\n".intercalate lines

def occursIn (part : List Char) : List Char → Bool
  | [] => part.isEmpty
  | c :: rest => part.isPrefixOf (c :: rest) || occursIn part rest

/-- Replace every pair of carriage return and line feed, and every other carriage
    return, by a line feed. -/
def lineFeeds : List Char → List Char
  | [] => []
  | c :: rest =>
      if c = '\r' then
        if rest.head? = some '\n' then lineFeeds rest else '\n' :: lineFeeds rest
      else c :: lineFeeds rest

/-- Replace every pair of carriage return and line feed by a line feed. -/
def joinLineEnds : List Char → List Char
  | [] => []
  | c :: rest =>
      if c = '\r' ∧ rest.head? = some '\n' then joinLineEnds rest else c :: joinLineEnds rest

end NextOffer.Text
