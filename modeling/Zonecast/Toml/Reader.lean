/-
Reading TOML. A document is a list of lines, each of which is blank, heads a table, or gives a key
a value. Values nest, and keys have parts, fewer than eighty deep.
-/
import Zonecast.Toml.Lexeme
import Zonecast.Toml.Scalar
import Zonecast.Toml.Table

namespace Zonecast.Toml

/-- The depth that is refused. -/
def depthLimit : Nat := 80

/-- Takes a key: the parts before the last, and the last. -/
def takePath (text : List Char) : Option ((List String × String) × List Char) := do
  let (parts, rest) ← takeKey (depthLimit - 1) text
  let last ← parts.getLast?
  return ((parts.dropLast, last), rest)

/-! ### Values -/

mutual

/-- Takes a value. The number bounds the nesting below it and the values beside it. -/
def takeValue : Nat → Nat → List Char → Option (Toml × List Char)
  | 0, _, _ => none
  | left + 1, depth, text =>
    match text with
    | '[' :: rest => if depth = 0 then none else takeItems left (depth - 1) [] rest
    | '\x7b' :: rest =>
      if depth = 0 then none
      else
        match Toml.skipSpace rest with
        | '\x7d' :: rest => some (.table [], rest)
        | rest => takeMembers left (depth - 1) [] rest
    | '"' :: _ | '\'' :: _ => do
      let (value, rest) ← takeString text
      return (.string value, rest)
    | text => takeScalar text

/-- Takes the rest of an array; the items read are in reverse. -/
def takeItems : Nat → Nat → List Toml → List Char → Option (Toml × List Char)
  | 0, _, _, _ => none
  | left + 1, depth, read, text => do
    match ← skipLines text.length text with
    | ']' :: rest => return (.array read.reverse, rest)
    | rest => do
      let (item, rest) ← takeValue left depth rest
      match ← skipLines rest.length rest with
      | ',' :: rest => takeItems left depth (item :: read) rest
      | ']' :: rest => return (.array (item :: read).reverse, rest)
      | _ => none

/-- Takes the rest of a table on one line, of which at least one member is left. -/
def takeMembers : Nat → Nat → Members → List Char → Option (Toml × List Char)
  | 0, _, _, _ => none
  | left + 1, depth, members, text => do
    let ((path, name), rest) ← takePath text
    match rest with
    | '=' :: rest => do
      let (value, rest) ← takeValue left depth (Toml.skipSpace rest)
      let members ← members.assign path name value .headed
      match Toml.skipSpace rest with
      | ',' :: rest => takeMembers left depth members rest
      | '\x7d' :: rest => return (.table (finishMembers members), rest)
      | _ => none
    | _ => none

end

/-! ### Documents -/

/-- A document under construction: the header that lines now add to, and the root table. -/
structure Document where
  header : List String
  root : Members

/-- Takes one line. -/
def takeLine (document : Document) (text : List Char) : Option (Document × List Char) :=
  match text with
  | '[' :: '[' :: rest => do
    let ((path, name), rest) ← takePath rest
    match rest with
    | ']' :: ']' :: rest => do
      let root ← document.root.atHeader path fun _ members => members.headItem name
      return (⟨path ++ [name], root⟩, ← takeLineRest rest)
    | _ => none
  | '[' :: rest => do
    let ((path, name), rest) ← takePath rest
    match rest with
    | ']' :: rest => do
      let root ← document.root.atHeader path fun _ members => members.head name
      return (⟨path ++ [name], root⟩, ← takeLineRest rest)
    | _ => none
  | text => do
    let ((path, name), rest) ← takePath text
    match rest with
    | '=' :: rest => do
      let (value, rest) ← takeValue (text.length + 1) (depthLimit - 1) (skipSpace rest)
      let root ← document.root.atHeader document.header fun origin members =>
        members.assign path name value origin
      return (⟨document.header, root⟩, ← takeLineRest rest)
    | _ => none

/-- Takes the lines of a document, for so many at most. -/
def takeDocument : Nat → Document → List Char → Option Document
  | _, document, [] => some document
  | 0, _, _ :: _ => none
  | left + 1, document, text =>
    match takeLineRest text with
    | some rest => takeDocument left document rest
    | none => do
      let (document, rest) ← takeLine document (skipSpace text)
      takeDocument left document rest

/-- Reads a document. A byte order mark in front is skipped. -/
def read? (text : String) : Option Toml := do
  let text :=
    match text.toList with
    | '\ufeff' :: rest => rest
    | text => text
  let document ← takeDocument (text.length + 1) ⟨[], []⟩ text
  return .table (finishMembers document.root)

end Zonecast.Toml
