import Pocl.Grammar

/-!
# Located diagnostics

A byte offset that stands between two characters of a source has a line and a column, both counted
from one. Columns count characters, and an offset past the end stands for the end. Parse errors and
doubtful tokens are reported at the place where the token begins. There is no such place when a
token's start falls inside a character of the source, which can only be where the token was not
scanned from it.

## Main definitions

* `charactersBefore? offset cs`: the characters before a byte offset
* `Location.after cs`: the place just after the characters `cs`
* `Location.ofOffset? source offset`: the location of a byte offset
* `ParseError.diagnostic? source e`: a parse error with its location
* `TokenKind.complaint?`: what is wrong with the tokens of a class
* `warnings? source ts`: the doubtful tokens of a list, each with its location
-/

namespace Pocl

/-! ## Locations -/

/-- The characters of `cs` before a byte offset, or `none` where the offset falls inside one. -/
def charactersBefore? : Nat → List Char → Option (List Char)
  | _, [] => some []
  | 0, _ :: _ => some []
  | offset + 1, c :: cs =>
    if c.utf8Size ≤ offset + 1 then
      (charactersBefore? (offset + 1 - c.utf8Size) cs).map (c :: ·)
    else none

/-- A line and a column, counted from one. -/
structure Location where
  line : Nat
  column : Nat
  deriving DecidableEq, Repr

namespace Location

/-- The place just after the characters `cs`: its line counts the line feeds among them, its column
the characters after the last of those. -/
def after (cs : List Char) : Location where
  line := cs.count '\n' + 1
  column := (cs.reverse.takeWhile (· ≠ '\n')).length + 1

/-- The location of a byte offset, or `none` where the offset falls inside a character. -/
def ofOffset? (source : String) (offset : Nat) : Option Location :=
  (charactersBefore? offset source.toList).map after

end Location

/-! ## Diagnostics -/

/-- A parse error with the location of the token at which parsing stopped. -/
def ParseError.diagnostic? (source : String) (e : ParseError) : Option String :=
  match e.found with
  | none => some ("error at end of input: " ++ e.message)
  | some t => do
    let place ← Location.ofOffset? source t.start
    some ("error at line " ++ toString place.line ++ ", col " ++ toString place.column ++ ": " ++
      e.message)

/-- What is wrong with the tokens of a class, where scanning doubts them. -/
def TokenKind.complaint? : TokenKind → Option String
  | .unknown => some "unrecognized character"
  | .error => some "malformed range operator"
  | _ => none

/-- A complaint about a token at a place. -/
def warning (place : Location) (complaint : String) (t : Token) : String :=
  "warning at line " ++ toString place.line ++ ", col " ++ toString place.column ++ ": " ++
    complaint ++ " '" ++ t.lexeme ++ "'"

/-- A warning for each doubtful token, in order. -/
def warnings? (source : String) : List Token → Option (List String)
  | [] => some []
  | t :: ts =>
    match t.kind.complaint? with
    | none => warnings? source ts
    | some complaint => do
      let place ← Location.ofOffset? source t.start
      let others ← warnings? source ts
      some (warning place complaint t :: others)

end Pocl
