import LogDispatch.Text.Fold

/-! Wildcard patterns: `*` stands for any run of characters within a line, `?` for one character of a line,
    and every other character for itself in either case. -/

namespace LogDispatch.Glob

inductive Token where
  | run
  | one
  | char (c : Char)
  deriving DecidableEq, Repr

def Token.ofChar (c : Char) : Token :=
  if c = '*' then .run else if c = '?' then .one else .char c

def tokens (pattern : String) : List Token := pattern.toList.map Token.ofChar

/-- The pattern has a wildcard. -/
def isWild (pattern : String) : Bool := pattern.toList.any fun c => c == '*' || c == '?'

/-- Wildcards do not cross the end of a line. -/
def inLine (c : Char) : Bool := c != '\n'

/-- One token for all suffixes of a text at once: `after` tells for each suffix, the empty one last, whether
    the tokens that follow match it; the result tells the same with the token in front. -/
def extend (t : Token) : List Char → List Bool → List Bool
  | c :: cs, b :: bs =>
    let rest := extend t cs bs
    let here := match t with
      | .run => b || (inLine c && rest.headD false)
      | .one => inLine c && bs.headD false
      | .char x => Text.sameFold x c && bs.headD false
    here :: rest
  | _, b :: _ => [t == .run && b]
  | _, [] => []

/-- For each suffix of the text whether the tokens match the whole of it. -/
def table (ts : List Token) (cs : List Char) : List Bool :=
  ts.foldr (extend · cs) (List.replicate cs.length false ++ [true])

def matchesTokens (ts : List Token) (cs : List Char) : Bool := (table ts cs).headD false

def fits (pattern text : String) : Bool := matchesTokens (tokens pattern) text.toList

end LogDispatch.Glob
