import LogDispatch.Formatter
import LogDispatch.Text.Split

/-! Templates: literal text with references to variables.

    A reference `${name(args)|stage(args)|…}` names a variable and the stages its value passes through. In
    literal text a backslash keeps `${`, `{` and `,` from being read, inside a reference `,` and `}`. -/

namespace LogDispatch

/-- One stage of a reference. A stage whose formatter is not known renders empty. -/
structure Stage where
  name : String
  args : Args
  formatter : Option Formatter

structure Reference where
  name : String
  /-- What the variable is called with when it is callable. -/
  callArgs : List String
  stages : List Stage

inductive Segment where
  | literal (text : String)
  | reference (r : Reference)

structure Template where
  source : String
  segments : List Segment

namespace Template

/-- What makes a template unreadable. -/
inductive Fault where
  | unterminated
  | noClosing (pipe : String)
  | strayClosing (pipe : String)
  | noName
  deriving DecidableEq, Repr

def Fault.message : Fault → String
  | .unterminated => "unterminated '$\x7b'"
  | .noClosing pipe => "missing ')' in '" ++ pipe ++ "'"
  | .strayClosing pipe => "unexpected ')' in '" ++ pipe ++ "'"
  | .noName => "empty name in variable reference"

/-- A template text cut at its references. -/
inductive Chunk where
  | literal (cs : List Char)
  | body (cs : List Char)
  /-- A reference that is never closed. -/
  | unclosed
  deriving DecidableEq, Repr

/-- One more literal character in front of the chunks that follow. -/
def consLiteral (c : Char) : List Chunk → List Chunk
  | .literal cs :: chunks => .literal (c :: cs) :: chunks
  | chunks => .literal [c] :: chunks

/-- The reader stands in literal text, or inside a reference with the body read so far, nearest character
    first. -/
inductive Place where
  | outside
  | inside (body : List Char)

/-- Cuts a text into literals and the bodies of references, escapes in bodies kept. -/
def chunks : Place → List Char → List Chunk
  | .outside, '\\' :: '$' :: '\x7b' :: cs => consLiteral '$' (consLiteral '\x7b' (chunks .outside cs))
  | .outside, '\\' :: '\x7b' :: cs => consLiteral '\x7b' (chunks .outside cs)
  | .outside, '\\' :: ',' :: cs => consLiteral ',' (chunks .outside cs)
  | .outside, '$' :: '\x7b' :: cs => chunks (.inside []) cs
  | .outside, c :: cs => consLiteral c (chunks .outside cs)
  | .outside, [] => []
  | .inside body, '\\' :: '\x7d' :: cs => chunks (.inside ('\x7d' :: '\\' :: body)) cs
  | .inside body, '\x7d' :: cs => .body body.reverse :: chunks .outside cs
  | .inside body, c :: cs => chunks (.inside (c :: body)) cs
  | .inside _, [] => [.unclosed]

/-- An argument as it is meant: commas and braces without the backslash before them. -/
def unescape (cs : List Char) : List Char := Text.dropBefore '\\' '\x7d' (Text.dropBefore '\\' ',' cs)

/-- The arguments between parentheses, cut at the commas that have no backslash before them. -/
def splitArgs : List Char → List (List Char)
  | [] => [[]]
  | '\\' :: ',' :: cs =>
    match splitArgs cs with
    | [] => [['\\', ',']]
    | p :: ps => ('\\' :: ',' :: p) :: ps
  | ',' :: cs => [] :: splitArgs cs
  | c :: cs =>
    match splitArgs cs with
    | [] => [[c]]
    | p :: ps => (c :: p) :: ps

/-- One argument: `key=value`, or a value under its position. -/
def argEntry (index : Nat) (piece : List Char) : String × String :=
  match Text.splitFirst? '=' piece with
  | some (key, value) =>
    (String.ofList (Text.trimChars key), String.ofList (unescape (Text.trimChars value)))
  | none => (toString index, String.ofList (unescape (Text.trimChars piece)))

/-- The arguments of a list, blank pieces left out. -/
def readArgs (cs : List Char) : Args :=
  let pieces := (splitArgs cs).filter fun p => !p.all Text.isBlank
  Dict.ofList (pieces.mapIdx argEntry)

/-- The name and arguments of a pipe: `name` or `name(arg, key=value)`. -/
def readPipe (pipe : List Char) : Except Fault (String × Args) :=
  let pipe := Text.trimChars pipe
  let shown := String.ofList pipe
  let named (name : List Char) (args : Args) : Except Fault (String × Args) :=
    let name := Text.trimChars name
    if name.isEmpty then .error .noName else .ok (String.ofList name, args)
  match Text.splitFirst? '(' pipe with
  | some (name, rest) =>
    if rest.getLast? = some ')' then named name (readArgs rest.dropLast) else .error (.noClosing shown)
  | none => if ')' ∈ pipe then .error (.strayClosing shown) else named pipe .empty

/-- An unreadable template, with its whole source. -/
def refuse (source : String) (fault : Fault) : LogError := .compile "template" source fault.message

/-- A stage with its formatter looked up and its arguments readied. -/
def readStage (source : String) (formatters : Formatters) (pipe : List Char) : Except LogError Stage := do
  let (name, args) ← (readPipe pipe).mapError (refuse source)
  match formatters.get? name with
  | some f => pure ⟨name, ← f.prepare args, some f⟩
  | none => pure ⟨name, args, none⟩

def readReference (source : String) (formatters : Formatters) (body : List Char) :
    Except LogError Reference := do
  match Text.splitAll '|' (Text.trimChars body) with
  | [] => throw (refuse source .noName)
  | subject :: pipes =>
    let (name, args) ← (readPipe subject).mapError (refuse source)
    let stages ← pipes.mapM (readStage source formatters)
    pure ⟨name, args.values, stages⟩

def readChunks (source : String) (formatters : Formatters) : List Chunk → Except LogError (List Segment)
  | [] => .ok []
  | .literal cs :: chunks => do
    let rest ← readChunks source formatters chunks
    pure (.literal (String.ofList cs) :: rest)
  | .body cs :: chunks => do
    let r ← readReference source formatters cs
    let rest ← readChunks source formatters chunks
    pure (.reference r :: rest)
  | .unclosed :: _ => .error (refuse source .unterminated)

/-- Reads a template. Of several faults the first one in the text is reported. -/
def compile (source : String) (formatters : Formatters) : Except LogError Template := do
  let segments ← readChunks source formatters (chunks .outside source.toList)
  pure ⟨source, segments⟩

def isConstant (t : Template) : Bool := t.segments.all fun
  | .literal _ => true
  | .reference _ => false

def variableNames (t : Template) : List String := t.segments.filterMap fun
  | .literal _ => none
  | .reference r => some r.name

end Template

/-- A value through one stage; nothing when the formatter is not known. -/
def Stage.apply (s : Stage) (v : Value) : Except Panic (Option Value) :=
  match s.formatter with
  | some f => f.apply v s.args
  | none => .ok none

/-- A value through stages, as long as there is one. -/
def Stage.applyAll : List Stage → Value → Except Panic (Option Value)
  | [], v => .ok (some v)
  | s :: ss, v => do
    match ← s.apply v with
    | some w => applyAll ss w
    | none => pure none

/-- The value a reference has in a scope. -/
def Reference.evaluate (r : Reference) (scope : Scope) : Except Panic (Option Value) :=
  match scope.resolve? r.name with
  | none => .ok none
  | some v => do
    match ← v.call r.callArgs with
    | some w => Stage.applyAll r.stages w
    | none => pure none

def Segment.render (scope : Scope) : Segment → Except Panic String
  | .literal s => .ok s
  | .reference r => do
    match ← r.evaluate scope with
    | some v => pure v.display
    | none => pure ""

/-- The text of a template in a scope; references without a value are empty. -/
def Template.render (t : Template) (scope : Scope) : Except Panic String := do
  let texts ← t.segments.mapM (Segment.render scope)
  pure (String.join texts)

/-- A named format: a template, or a function that makes the text itself. -/
inductive Format where
  | template (t : Template)
  | function (f : Scope → Except Panic String)

namespace Format

def render (f : Format) (scope : Scope) : Except Panic String :=
  match f with
  | .template t => t.render scope
  | .function f => f scope

/-- The name of the format used when none is named. -/
def defaultName : String := "text"

def textSource : String :=
  "$\x7bdate|format(f=yyyy-mm-dd HH:MM:ss.l)\x7d | [$\x7blevel|align(s=right,w=5)\x7d] $\x7bmsg\x7d"

/-- The format `json`: the message as a JSON value. -/
def json : Format := .function fun scope =>
  .ok (match scope.resolve? "msg" with
    | some v => v.toJson.text
    | none => Json.null.text)

end Format

end LogDispatch
