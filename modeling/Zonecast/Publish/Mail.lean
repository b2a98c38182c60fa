/-
The mail about an item that could not be published. It goes to the contact addresses of the
item's registrar that can be written to, with the operations mailbox in copy; where there is none,
to the operations mailbox alone. The body is a template whose placeholders are replaced one after
the other, so a placeholder that an earlier value brings in is replaced by the later ones.
-/
import Zonecast.Registry.Basic
import Zonecast.Text.Blank
import Zonecast.Text.Letter
import Zonecast.Text.Pieces
import Zonecast.Text.Replace

namespace Zonecast.Publish

open Zonecast.Text

/-! ### Addresses -/

/-- A character that may stand before the at sign. -/
def isLocalChar (c : Char) : Bool :=
  !(c == '@' || isBlank c || c == '<' || c == '>' || c == ',' || c == ';')

/-- A character of a label of the mail domain. -/
def isMailLabelChar (c : Char) : Bool :=
  isLetter c || isDigit c || c == '-'

/-- Whether a text is a mail domain: two or more labels between dots. -/
def isMailDomain (text : List Char) : Bool :=
  let labels := pieces '.' text
  2 ≤ labels.length && labels.all fun label => !label.isEmpty && label.all isMailLabelChar

/-- Whether a trimmed text can be written to: a local part, an at sign and a mail domain. -/
def isMailbox (text : List Char) : Bool :=
  match text.span (· != '@') with
  | (part, _ :: domain) => !part.isEmpty && part.all isLocalChar && isMailDomain domain
  | (_, []) => false

/-- Whether an address, trimmed, can be written to. -/
def isValidAddress (address : String) : Bool :=
  isMailbox (trimChars address.toList)

/-! ### Messages -/

/-- A mail. -/
structure Mail where
  subject : String
  body : String
  recipients : List String
  copies : List String
  deriving DecidableEq, Repr

/-- What failure mails are made of. -/
structure MailSettings where
  subject : String
  bodyTemplate : String
  registryName : String
  supportAddress : String
  operationsAddress : String
  deriving DecidableEq, Repr

/-- What kind of item could not be published. -/
inductive ItemKind
  | domain
  | host
  deriving DecidableEq, Repr

/-- The word for a kind of item. -/
def ItemKind.word : ItemKind → String
  | .domain => "domain"
  | .host => "host"

namespace Mail

/-- The placeholders of the template with their values, in the order in which they are
replaced. -/
def substitutions (settings : MailSettings) (registrar name : String) (kind : ItemKind) :
    List (String × String) :=
  [("\x7bregistrar\x7d", registrar), ("\x7bname\x7d", name), ("\x7bkind\x7d", kind.word),
    ("\x7bsupport_email\x7d", settings.supportAddress),
    ("\x7bregistry_name\x7d", settings.registryName)]

/-- The body for an item. -/
def renderBody (settings : MailSettings) (registrar name : String) (kind : ItemKind) : String :=
  (substitutions settings registrar name kind).foldl
    (fun text substitution => replace substitution.1 substitution.2 text) settings.bodyTemplate

/-- The addresses of a registrar that can be written to, trimmed. -/
def mailboxes (registrar : Registrar) : List String :=
  (registrar.emails.filter isValidAddress).map trim

/-- The mail to a registrar about an item. -/
def compose (settings : MailSettings) (registrar : Registrar) (kind : ItemKind) (name : String) :
    Mail :=
  let mailboxes := mailboxes registrar
  { subject := settings.subject
    body := renderBody settings registrar.name name kind
    recipients := if mailboxes.isEmpty then [settings.operationsAddress] else mailboxes
    copies := if mailboxes.isEmpty then [] else [settings.operationsAddress] }

end Mail

end Zonecast.Publish
