/-
The target in the first line of a request: a path, which a query may follow, the same behind a
scheme and an authority, an authority alone, or an asterisk. A number sign and what follows it are
not part of it. `path?` answers the path as it is written, percent signs included, and nothing for
a text that is no target.
-/
import Zonecast.Text.Letter

namespace Zonecast.Http

open Zonecast.Text

/-! ### Paths -/

/-- A character that may stand in a path: no blank, no control character below the last, and none
of five marks. -/
def isPathChar (c : Char) : Bool :=
  '!' ≤ c && ['#', '<', '>', '?', '\x60'].all (· != c)

/-- A character that may stand in a query. -/
def isQueryChar (c : Char) : Bool :=
  '!' ≤ c && ['"', '#', '<', '>'].all (· != c)

/-- The path of a target that starts at its path; an empty one is the root. -/
def readPath (text : List Char) : Option String :=
  let whole := text.takeWhile (· != '#')
  let path := whole.takeWhile (· != '?')
  let query := (whole.drop path.length).drop 1
  if path.all isPathChar && query.all isQueryChar then
    some (if path.isEmpty then "/" else String.ofList path)
  else none

/-! ### Authorities -/

/-- A character that may stand anywhere in an authority. -/
def isAuthorityChar (c : Char) : Bool :=
  isLetter c || isDigit c ||
    ['!', '$', '&', '\'', '(', ')', '*', '+', ',', '-', '.', ';', '=', '_', '~'].contains c

/-- What was seen of an authority, from the left. -/
structure AuthorityMarks where
  /-- The colons since the last bracket or at sign. -/
  colons : Nat
  opened : Bool
  closed : Bool
  /-- Whether there was a percent sign since the last bracket or at sign. -/
  escaped : Bool
  deriving DecidableEq, Repr

/-- Sees one more character, unless it may not stand where it does. An escape may stand before an
at sign or in brackets, and there is one pair of brackets at most. -/
def AuthorityMarks.see (marks : AuthorityMarks) (c : Char) : Option AuthorityMarks :=
  match c with
  | ':' => if marks.colons < 8 then some { marks with colons := marks.colons + 1 } else none
  | '[' => if marks.escaped || marks.opened then none else some { marks with opened := true }
  | ']' =>
    if marks.opened && !marks.closed then some ⟨0, true, true, false⟩ else none
  | '@' => some { marks with colons := 0, escaped := false }
  | '%' => some { marks with escaped := true }
  | c => if isAuthorityChar c then some marks else none

/-- Whether a text can stand as an authority: a host, which may be an address in brackets, a user
before it and a port after it. -/
def isAuthority (text : List Char) : Bool :=
  match text.foldlM AuthorityMarks.see ⟨0, false, false, false⟩ with
  | some marks =>
    marks.opened == marks.closed && marks.colons ≤ 1 && !marks.escaped &&
      text.getLast? != some '@'
  | none => false

/-! ### Targets -/

/-- A character of a scheme. -/
def isSchemeChar (c : Char) : Bool :=
  isLetter c || isDigit c || c == '+' || c == '-' || c == '.' || c == '~'

/-- The longest target, in bytes. -/
def maxTargetSize : Nat := 65534

/-- The path of a target that starts at its authority. With a scheme before it, the authority may
be followed by a path; without one, it is all there is, and the path is empty. -/
def readAuthority (hasScheme : Bool) (text : List Char) : Option String :=
  let authority := text.takeWhile fun c => c != '/' && c != '?' && c != '#'
  let rest := text.drop authority.length
  if !isAuthority authority || authority.isEmpty then none
  else if hasScheme then readPath rest
  else if rest.isEmpty then some "" else none

/-- The path of a target. -/
def path? (target : String) : Option String :=
  if maxTargetSize < target.utf8ByteSize then none
  else
    match target.toList with
    | ['*'] => some "*"
    | '/' :: rest => readPath ('/' :: rest)
    | text =>
      let scheme := text.takeWhile isSchemeChar
      match text.drop scheme.length with
      | ':' :: '/' :: '/' :: rest => if scheme.length ≤ 64 then readAuthority true rest else none
      | _ => readAuthority false text

/-! ### Tokens -/

/-- Whether a text can be a method or the name of a header. -/
def isToken (text : String) : Bool :=
  !text.isEmpty && text.toList.all fun c =>
    isLetter c || isDigit c || ['!', '#', '$', '%', '&', '\'', '*', '+', '-', '.', '^', '_', '\x60',
      '|', '~'].contains c

end Zonecast.Http
