/-! Cutting character lists at single characters. -/

namespace LogDispatch.Text

/-- The pieces between the occurrences of `sep`: always one more piece than there are occurrences. -/
def splitAll (sep : Char) : List Char → List (List Char)
  | [] => [[]]
  | c :: cs =>
    if c = sep then [] :: splitAll sep cs
    else match splitAll sep cs with
      | [] => [[c]]
      | p :: ps => (c :: p) :: ps

/-- What stands before and after the first `sep`, when there is one. -/
def splitFirst? (sep : Char) : List Char → Option (List Char × List Char)
  | [] => none
  | c :: cs => if c = sep then some ([], cs) else (splitFirst? sep cs).map fun (a, b) => (c :: a, b)

/-- Each `a` directly followed by `b` becomes the one character `b`, from left to right. -/
def dropBefore (a b : Char) : List Char → List Char
  | x :: y :: cs => if x = a ∧ y = b then b :: dropBefore a b cs else x :: dropBefore a b (y :: cs)
  | cs => cs

/-- The texts one after the other, with `sep` between neighbours. -/
def join (sep : String) : List String → String
  | [] => ""
  | [s] => s
  | s :: ss => s ++ sep ++ join sep ss

end LogDispatch.Text
