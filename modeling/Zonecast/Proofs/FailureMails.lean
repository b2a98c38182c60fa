/-
Who is told about an item that could not be published. The address test is said as a form: a local
part, an at sign and two or more labels between dots, none of them empty, with no character in them
that could end the address or begin another one. A contact address is used if it has this form once
it is trimmed.

Whatever the registry answers, the item is looked up, then its registrar if the item is there. One
mail is sent if both are, and none otherwise. The mail goes to those contact addresses that have the
form, in their order, with the operations mailbox in copy; where none has it, to the operations
mailbox. So somebody is always told, and nobody else than these.
-/
import Mathlib.Data.List.TakeDrop
import Zonecast.Proofs.Deeds
import Zonecast.Proofs.Pieces

namespace Zonecast

namespace Text

/-- Pieces after the first are joined with a separator before each. -/
theorem joinPieces_cons_eq_flatMap (separator : Char) (first : List Char)
    (others : List (List Char)) :
    joinPieces separator (first :: others) =
      first ++ others.flatMap fun piece => separator :: piece := by
  induction others generalizing first with
  | nil => exact (List.append_nil first).symm
  | cons second rest inductionHypothesis =>
    rw [joinPieces, inductionHypothesis, List.flatMap_cons, List.cons_append]
    exact fun empty => by cases empty

end Text

namespace Publish

open Process Text

/-! ### The form of an address -/

/-- A text reads as a local part, an at sign and the labels of a mail domain, a dot before each
label but the first. -/
structure ReadsAs (text part first : List Char) (others : List (List Char)) : Prop where
  whole : text = part ++ '@' :: (first ++ others.flatMap fun label => '.' :: label)
  filled : part ≠ []
  plain : ∀ c ∈ part, c ≠ '@' ∧ isBlank c = false ∧ c ≠ '<' ∧ c ≠ '>' ∧ c ≠ ',' ∧ c ≠ ';'
  several : others ≠ []
  labels : ∀ label ∈ first :: others, label ≠ [] ∧
    ∀ c ∈ label, isLetter c = true ∨ isDigit c = true ∨ c = '-'

/-- A text is an address that can be written to. -/
def HasMailForm (text : List Char) : Prop :=
  ∃ part first others, ReadsAs text part first others

theorem isLocalChar_iff (c : Char) :
    isLocalChar c = true ↔
      c ≠ '@' ∧ isBlank c = false ∧ c ≠ '<' ∧ c ≠ '>' ∧ c ≠ ',' ∧ c ≠ ';' := by
  simp only [isLocalChar, Bool.not_eq_true', Bool.or_eq_false_iff, beq_eq_false_iff_ne, and_assoc]

theorem isMailLabelChar_iff (c : Char) :
    isMailLabelChar c = true ↔ isLetter c = true ∨ isDigit c = true ∨ c = '-' := by
  simp only [isMailLabelChar, Bool.or_eq_true, beq_iff_eq, or_assoc]

/-- The characters of labels are no separators. -/
theorem isMailLabelChar_dot : isMailLabelChar '.' = false := by decide

theorem isMailDomain_iff (domain : List Char) :
    isMailDomain domain = true ↔ ∃ first others,
      domain = first ++ (others.flatMap fun label => '.' :: label) ∧ others ≠ [] ∧
        ∀ label ∈ first :: others, label ≠ [] ∧ ∀ c ∈ label, isMailLabelChar c = true := by
  simp only [isMailDomain, Bool.and_eq_true, decide_eq_true_eq, List.all_eq_true,
    Bool.not_eq_true', List.isEmpty_eq_false_iff]
  constructor
  · rintro ⟨several, labels⟩
    obtain ⟨first, others, cut⟩ := List.exists_cons_of_ne_nil (pieces_ne_nil '.' domain)
    have whole := joinPieces_pieces '.' domain
    rw [cut, joinPieces_cons_eq_flatMap] at whole
    rw [cut] at several labels
    refine ⟨first, others, whole.symm, ?_, labels⟩
    rintro rfl
    rw [List.length_singleton] at several
    omega
  · rintro ⟨first, others, rfl, several, labels⟩
    have clean : ∀ label ∈ first :: others, '.' ∉ label := by
      intro label member held
      have dot := (labels label member).2 '.' held
      rw [isMailLabelChar_dot] at dot
      cases dot
    have cut := pieces_joinPieces '.' (first :: others) (List.cons_ne_nil _ _) clean
    rw [joinPieces_cons_eq_flatMap] at cut
    rw [cut]
    refine ⟨?_, labels⟩
    have more : 0 < others.length := List.length_pos_iff.mpr several
    rw [List.length_cons]
    omega

/-- The test cuts a text at its first at sign. -/
theorem isMailbox_iff (text : List Char) :
    isMailbox text = true ↔ ∃ part domain, text = part ++ '@' :: domain ∧ part ≠ [] ∧
      (∀ c ∈ part, isLocalChar c = true) ∧ isMailDomain domain = true := by
  rw [isMailbox, List.span_eq_takeWhile_dropWhile]
  constructor
  · intro accepted
    split at accepted
    · rename_i part c domain cut
      injection cut with front rest
      have whole := List.takeWhile_append_dropWhile (p := (· != '@')) (l := text)
      have sign : c = '@' := by
        have fails := List.head?_dropWhile_not (· != '@') text
        rw [rest] at fails
        simpa using fails
      rw [front, rest, sign] at whole
      simp only [Bool.and_eq_true, Bool.not_eq_true', List.isEmpty_eq_false_iff,
        List.all_eq_true] at accepted
      exact ⟨part, domain, whole.symm, accepted.1.1, accepted.1.2, accepted.2⟩
    · cases accepted
  · rintro ⟨part, domain, rfl, filled, plain, mailDomain⟩
    have before : ∀ c ∈ part, (c != '@') = true := fun c member =>
      bne_iff_ne.mpr ((isLocalChar_iff c).mp (plain c member)).1
    rw [List.takeWhile_append_of_pos before, List.dropWhile_append_of_pos before,
      List.takeWhile_cons_of_neg (by decide), List.dropWhile_cons_of_neg (by decide),
      List.append_nil]
    simp only [Bool.and_eq_true, Bool.not_eq_true', List.isEmpty_eq_false_iff, List.all_eq_true]
    exact ⟨⟨filled, plain⟩, mailDomain⟩

/-- The test accepts what has the form. -/
theorem isMailbox_iff_hasMailForm (text : List Char) :
    isMailbox text = true ↔ HasMailForm text := by
  rw [isMailbox_iff]
  constructor
  · rintro ⟨part, domain, rfl, filled, plain, mailDomain⟩
    obtain ⟨first, others, rfl, several, labels⟩ := (isMailDomain_iff domain).mp mailDomain
    exact ⟨part, first, others, rfl, filled,
      fun c member => (isLocalChar_iff c).mp (plain c member), several,
      fun label member => ⟨(labels label member).1,
        fun c held => (isMailLabelChar_iff c).mp ((labels label member).2 c held)⟩⟩
  · rintro ⟨part, first, others, reads⟩
    refine ⟨part, _, reads.whole, reads.filled,
      fun c member => (isLocalChar_iff c).mpr (reads.plain c member), ?_⟩
    exact (isMailDomain_iff _).mpr ⟨first, others, rfl, reads.several,
      fun label member => ⟨(reads.labels label member).1,
        fun c held => (isMailLabelChar_iff c).mpr ((reads.labels label member).2 c held)⟩⟩

instance (text : List Char) : Decidable (HasMailForm text) :=
  decidable_of_iff _ (isMailbox_iff_hasMailForm text)

theorem isValidAddress_iff (address : String) :
    isValidAddress address = true ↔ HasMailForm (trim address).toList := by
  rw [isValidAddress, isMailbox_iff_hasMailForm, trim, String.toList_ofList]

/-! ### Recipients -/

/-- The contact addresses of a registrar that have the form when they are trimmed, in order. -/
def usableContacts (registrar : Registrar) : List String :=
  (registrar.emails.map trim).filter fun address => HasMailForm address.toList

theorem mailboxes_eq (registrar : Registrar) :
    Mail.mailboxes registrar = usableContacts registrar := by
  rw [Mail.mailboxes, usableContacts, List.filter_map]
  refine congrArg (List.map trim) (List.filter_congr fun address _ => ?_)
  rw [Bool.eq_iff_iff, isValidAddress_iff, Function.comp_apply, decide_eq_true_iff]

/-- A mail goes to these addresses, or else to the operations mailbox, which otherwise is alone in
copy. -/
def Addressed (settings : MailSettings) (registrar : Registrar) (mail : Mail) : Prop :=
  (usableContacts registrar ≠ [] ∧ mail.recipients = usableContacts registrar ∧
      mail.copies = [settings.operationsAddress]) ∨
    (usableContacts registrar = [] ∧ mail.recipients = [settings.operationsAddress] ∧
      mail.copies = [])

theorem addressed_compose (settings : MailSettings) (registrar : Registrar) (kind : ItemKind)
    (name : String) : Addressed settings registrar (Mail.compose settings registrar kind name) := by
  unfold Addressed Mail.compose
  dsimp only
  rw [mailboxes_eq]
  cases usableContacts registrar with
  | nil => exact Or.inr ⟨rfl, rfl, rfl⟩
  | cons first rest => exact Or.inl ⟨List.cons_ne_nil _ _, rfl, rfl⟩

theorem Addressed.recipients_ne_nil {settings : MailSettings} {registrar : Registrar} {mail : Mail}
    (addressed : Addressed settings registrar mail) : mail.recipients ≠ [] := by
  rcases addressed with ⟨some, same, _⟩ | ⟨_, same, _⟩
  · exact same ▸ some
  · exact same ▸ List.cons_ne_nil _ _

/-! ### What is looked up and what is sent -/

/-- The first domain of a batch, or else its first host. -/
def Batch.item? (batch : Batch) : Option (ItemKind × String) :=
  match batch.domains, batch.hosts with
  | domain :: _, _ => some (.domain, domain)
  | [], host :: _ => some (.host, host)
  | [], [] => none

/-- The lookup of an item. -/
def ItemKind.lookup : ItemKind → String → Registry.Call
  | .domain => .domain
  | .host => .host

/-- The id of the registrar of an item that was looked up. -/
def ItemKind.registrarId? (kind : ItemKind) (name : String) :
    Registry.Value (kind.lookup name) → Option String :=
  match kind with
  | .domain => fun found : Option Domain => found.map (·.registrarId)
  | .host => fun found : Option Host => found.map (·.registrarId)

/-- A call to the registry with its reply. -/
def looked (request : Registry.Call) (reply : Except Registry.Error (Registry.Value request)) :
    Exchange Delivery :=
  ⟨.registry request, reply⟩

/-- The registry has the item, and has this registrar for it. -/
def Sponsors (registry : (request : Registry.Call) → Except Registry.Error (Registry.Value request))
    (kind : ItemKind) (name : String) (registrar : Registrar) : Prop :=
  ∃ item id, registry (kind.lookup name) = .ok item ∧ kind.registrarId? name item = some id ∧
    registry (.registrar id) = .ok (some registrar : Option Registrar)

/-- All lookups among some calls are answered by the registry. -/
def AnsweredBy
    (registry : (request : Registry.Call) → Except Registry.Error (Registry.Value request))
    (exchanges : List (Exchange Delivery)) : Prop :=
  ∀ request reply, looked request reply ∈ exchanges → reply = registry request

/-- The mails among some calls, whatever came of them. -/
def mailsOf (exchanges : List (Exchange Delivery)) : List Mail :=
  exchanges.filterMap fun exchange =>
    match exchange.request with
    | .send mail => some mail
    | _ => none

/-! ### Paths -/

section Paths

variable {kind : ItemKind} {name : String}
  {registry : (request : Registry.Call) → Except Registry.Error (Registry.Value request)}

/-- An item is looked up, and then its registrar, if there is one. -/
theorem sponsor_eq (kind : ItemKind) (name : String) :
    Delivery.sponsor kind name = (Delivery.registry (kind.lookup name)).bind fun reply =>
      match reply with
      | .error error => .done (.error error)
      | .ok item =>
        match kind.registrarId? name item with
        | none => .done (.ok none)
        | some id => Delivery.registry (.registrar id) := by
  cases kind <;>
    refine congrArg (Process.call (I := Delivery) _) (funext fun reply => ?_) <;>
    rcases reply with error | (_ | item) <;> rfl

/-- The ways that looking for the registrar of an item can go. -/
inductive Sought (kind : ItemKind) (name : String) :
    List (Exchange Delivery) → Except Registry.Error (Option Registrar) → Prop
  | failed (error : Registry.Error) :
    Sought kind name [looked (kind.lookup name) (.error error)] (.error error)
  | missing (item : Registry.Value (kind.lookup name))
      (unsponsored : kind.registrarId? name item = none) :
    Sought kind name [looked (kind.lookup name) (.ok item)] (.ok none)
  | asked (item : Registry.Value (kind.lookup name)) (id : String)
      (sponsored : kind.registrarId? name item = some id)
      (found : Except Registry.Error (Option Registrar)) :
    Sought kind name [looked (kind.lookup name) (.ok item), looked (.registrar id) found] found

theorem sought_of_runs {exchanges : List (Exchange Delivery)}
    {found : Except Registry.Error (Option Registrar)}
    (run : Runs (Delivery.sponsor kind name) exchanges found) :
    Sought kind name exchanges found := by
  rw [sponsor_eq] at run
  obtain ⟨reply, rest, rfl, following⟩ := runs_call.mp run
  rcases reply with error | item
  · obtain ⟨rfl, rfl⟩ := runs_done.mp following
    exact .failed error
  · dsimp only [Process.bind] at following
    split at following
    · rename_i unsponsored
      obtain ⟨rfl, rfl⟩ := runs_done.mp following
      exact .missing item unsponsored
    · rename_i id sponsored
      obtain ⟨answer, last, rfl, ended⟩ := runs_call.mp following
      obtain ⟨rfl, rfl⟩ := runs_done.mp ended
      exact .asked item id sponsored found

/-- A registrar is found exactly if the registry has it for the item. -/
theorem Sought.sponsors_iff {exchanges : List (Exchange Delivery)}
    {found : Except Registry.Error (Option Registrar)} (sought : Sought kind name exchanges found)
    (answered : AnsweredBy registry exchanges) (registrar : Registrar) :
    Sponsors registry kind name registrar ↔ found = .ok (some registrar) := by
  unfold Sponsors
  cases sought with
  | failed error =>
    rw [← answered _ _ (List.mem_singleton_self _)]
    simp only [reduceCtorEq, false_and, exists_false]
  | missing item unsponsored =>
    rw [← answered _ _ (List.mem_singleton_self _)]
    simp only [Except.ok.injEq, reduceCtorEq, iff_false]
    rintro ⟨_, id, rfl, sponsored, _⟩
    cases unsponsored.symm.trans sponsored
  | asked item id sponsored found =>
    rw [← answered _ _ List.mem_cons_self]
    have reply := answered _ _ (List.mem_cons_of_mem _ (List.mem_singleton_self _))
    constructor
    · rintro ⟨_, another, same, own, there⟩
      obtain rfl := Except.ok.inj same
      obtain rfl : id = another := Option.some.inj (sponsored.symm.trans own)
      exact reply.trans there
    · intro there
      exact ⟨item, id, rfl, sponsored, reply.symm.trans there⟩

/-- The item is looked up, and so is its registrar if the registry has the item. -/
theorem Sought.asks {exchanges : List (Exchange Delivery)}
    {found : Except Registry.Error (Option Registrar)} (sought : Sought kind name exchanges found)
    (answered : AnsweredBy registry exchanges) :
    looked (kind.lookup name) (registry (kind.lookup name)) ∈ exchanges ∧
      ∀ item id, registry (kind.lookup name) = .ok item → kind.registrarId? name item = some id →
        looked (.registrar id) (registry (.registrar id)) ∈ exchanges := by
  cases sought with
  | failed error =>
    rw [← answered _ _ (List.mem_singleton_self _)]
    exact ⟨List.mem_singleton_self _, fun _ _ same => by cases same⟩
  | missing item unsponsored =>
    rw [← answered _ _ (List.mem_singleton_self _)]
    refine ⟨List.mem_singleton_self _, fun other id same sponsored => ?_⟩
    obtain rfl := Except.ok.inj same
    cases unsponsored.symm.trans sponsored
  | asked item id sponsored found =>
    have last : looked (.registrar id) found ∈
        [looked (kind.lookup name) (.ok item), looked (.registrar id) found] :=
      List.mem_cons_of_mem _ (List.mem_singleton_self _)
    rw [← answered _ _ List.mem_cons_self]
    refine ⟨List.mem_cons_self, fun other another same own => ?_⟩
    obtain rfl := Except.ok.inj same
    obtain rfl : id = another := Option.some.inj (sponsored.symm.trans own)
    rwa [← answered _ _ last]

/-- Looking for a registrar sends no mail. -/
theorem Sought.mailsOf_eq {exchanges : List (Exchange Delivery)}
    {found : Except Registry.Error (Option Registrar)}
    (sought : Sought kind name exchanges found) : mailsOf exchanges = [] := by
  cases sought <;> rfl

/-- Telling the registrar of an item looks both up and sends one mail if both are there. -/
theorem runs_notifyAbout {settings : MailSettings} {exchanges : List (Exchange Delivery)}
    (run : Runs (Delivery.notifyAbout settings kind name) exchanges ())
    (answered : AnsweredBy registry exchanges) :
    (∃ before after found, exchanges = before ++ after ∧ Sought kind name before found) ∧
    ((∃ registrar, Sponsors registry kind name registrar ∧
      mailsOf exchanges = [Mail.compose settings registrar kind name]) ∨
    ((∀ registrar, ¬ Sponsors registry kind name registrar) ∧ mailsOf exchanges = [])) := by
  obtain ⟨before, found, after, rfl, seeking, following⟩ := runs_bind.mp run
  have sought := sought_of_runs seeking
  refine ⟨⟨before, after, found, rfl, sought⟩, ?_⟩
  have sponsors := sought.sponsors_iff fun request reply member =>
    answered request reply (List.mem_append_left _ member)
  rcases found with error | (_ | registrar)
  · obtain ⟨rfl, _⟩ := runs_done.mp following
    rw [List.append_nil]
    refine Or.inr ⟨fun registrar there => ?_, sought.mailsOf_eq⟩
    cases (sponsors registrar).mp there
  · obtain ⟨rfl, _⟩ := runs_done.mp following
    rw [List.append_nil]
    refine Or.inr ⟨fun registrar there => ?_, sought.mailsOf_eq⟩
    cases (sponsors registrar).mp there
  · obtain ⟨reply, rest, rfl, ended⟩ := runs_call.mp following
    obtain ⟨rfl, _⟩ := runs_done.mp ended
    refine Or.inl ⟨registrar, (sponsors registrar).mpr rfl, ?_⟩
    rw [mailsOf, List.filterMap_append]
    exact congrArg (· ++ _) sought.mailsOf_eq

/-- Telling about a batch is telling about its item, if it has one. -/
theorem notify_eq (settings : MailSettings) (batch : Batch) :
    Delivery.notify settings batch =
      match batch.item? with
      | some (kind, name) => Delivery.notifyAbout settings kind name
      | none => .done () := by
  unfold Delivery.notify Batch.item?
  cases batch.domains with
  | cons domain rest => rfl
  | nil => cases batch.hosts <;> rfl

end Paths

/-! ### Failure mails -/

/-- Who is told of a batch, by what the registry answers. The item is looked up, and its registrar
if the item is there. One mail is sent if both are there, and none otherwise: to the registrar's
contact addresses that have the form of an address, trimmed and in order, with the operations
mailbox alone in copy, and to the operations mailbox alone if there are none. -/
structure Told (settings : MailSettings) (batch : Batch)
    (registry : (request : Registry.Call) → Except Registry.Error (Registry.Value request))
    (exchanges : List (Exchange Delivery)) : Prop where
  item : ∀ kind name, batch.item? = some (kind, name) →
    looked (kind.lookup name) (registry (kind.lookup name)) ∈ exchanges
  registrar : ∀ kind name item id, batch.item? = some (kind, name) →
    registry (kind.lookup name) = .ok item → kind.registrarId? name item = some id →
      looked (.registrar id) (registry (.registrar id)) ∈ exchanges
  once : (mailsOf exchanges).length ≤ 1
  sent : mailsOf exchanges ≠ [] ↔ ∃ kind name registrar, batch.item? = some (kind, name) ∧
    Sponsors registry kind name registrar
  addressed : ∀ mail ∈ mailsOf exchanges, mail.recipients ≠ [] ∧ ∃ kind name registrar,
    batch.item? = some (kind, name) ∧ Sponsors registry kind name registrar ∧
    mail = Mail.compose settings registrar kind name ∧ Addressed settings registrar mail

theorem told_of_runs {settings : MailSettings} {batch : Batch}
    {registry : (request : Registry.Call) → Except Registry.Error (Registry.Value request)}
    {exchanges : List (Exchange Delivery)}
    (run : Runs (Delivery.notify settings batch) exchanges ())
    (answered : AnsweredBy registry exchanges) : Told settings batch registry exchanges := by
  rw [notify_eq] at run
  cases item : batch.item? with
  | none =>
    rw [item] at run
    obtain ⟨rfl, _⟩ := runs_done.mp run
    constructor <;> simp [mailsOf, item]
  | some pair =>
    obtain ⟨kind, name⟩ := pair
    rw [item] at run
    obtain ⟨⟨before, after, found, rfl, sought⟩, either⟩ := runs_notifyAbout run answered
    have asks := sought.asks fun request reply member =>
      answered request reply (List.mem_append_left _ member)
    refine ⟨?_, ?_, ?_, ?_, ?_⟩
    · rintro _ _ same
      cases item.symm.trans same
      exact List.mem_append_left _ asks.1
    · rintro _ _ value id same there sponsored
      cases item.symm.trans same
      exact List.mem_append_left _ (asks.2 value id there sponsored)
    · rcases either with ⟨registrar, _, mailed⟩ | ⟨_, silent⟩
      · rw [mailed]
        exact Nat.le_refl 1
      · rw [silent]
        exact Nat.zero_le 1
    · rcases either with ⟨registrar, sponsors, mailed⟩ | ⟨unsponsored, silent⟩
      · rw [mailed]
        exact iff_of_true (List.cons_ne_nil _ _) ⟨kind, name, registrar, item, sponsors⟩
      · rw [silent]
        refine iff_of_false (absurd rfl) ?_
        rintro ⟨_, _, registrar, same, sponsors⟩
        cases item.symm.trans same
        exact unsponsored registrar sponsors
    · rcases either with ⟨registrar, sponsors, mailed⟩ | ⟨_, silent⟩
      · have addressed := addressed_compose settings registrar kind name
        intro mail member
        rw [mailed] at member
        obtain rfl := List.mem_singleton.mp member
        exact ⟨addressed.recipients_ne_nil, kind, name, registrar, item, sponsors, rfl, addressed⟩
      · rw [silent]
        exact List.forall_mem_nil _

/-- The answers of a registry and a mail relay; other calls are answered in some way. -/
def collaborators
    (registry : (request : Registry.Call) → Except Registry.Error (Registry.Value request))
    (relay : Mail → Except Refusal Unit) : (request : DeliveryCall) → Delivery.Reply request
  | .registry request => registry request
  | .send mail => relay mail
  | request => Climate.reply ⟨1, true, none, none⟩ request

/-- Telling of a batch ends, whatever the registry and the mail relay answer. -/
theorem exists_told (settings : MailSettings) (batch : Batch)
    (registry : (request : Registry.Call) → Except Registry.Error (Registry.Value request))
    (relay : Mail → Except Refusal Unit) :
    ∃ exchanges, Runs (Delivery.notify settings batch) exchanges () ∧
      AnsweredBy registry exchanges ∧
      ∀ mail reply, (⟨.send mail, reply⟩ : Exchange Delivery) ∈ exchanges → reply = relay mail := by
  let answer := collaborators registry relay
  refine ⟨_, runs_trace answer (Delivery.notify settings batch), fun request reply member => ?_,
    fun mail reply member => ?_⟩
  · exact reply_of_mem_trace (I := Delivery) member
  · exact reply_of_mem_trace (I := Delivery) member

/-- A failure mail reaches usable recipients only, and somebody always: whatever the registry and
the mail relay answer, telling of a batch ends, and who is told follows from the answers of the
registry. An address is usable exactly if it trims to the form of an address. -/
theorem failure_mail_reaches (settings : MailSettings) (batch : Batch)
    (registry : (request : Registry.Call) → Except Registry.Error (Registry.Value request)) :
    (∀ relay : Mail → Except Refusal Unit, ∃ exchanges,
      Runs (Delivery.notify settings batch) exchanges () ∧ AnsweredBy registry exchanges ∧
        ∀ mail reply, (⟨.send mail, reply⟩ : Exchange Delivery) ∈ exchanges → reply = relay mail) ∧
    (∀ exchanges, Runs (Delivery.notify settings batch) exchanges () →
      AnsweredBy registry exchanges → Told settings batch registry exchanges) ∧
    ∀ address, isValidAddress address = true ↔ HasMailForm (trim address).toList :=
  ⟨exists_told settings batch registry, fun _ => told_of_runs, isValidAddress_iff⟩

/-! ### A registrar with one usable contact -/

/-- A registrar whose contact addresses are padded, not addresses, or without a second label. -/
def examplePaddedContacts : Registrar where
  id := "registrar-1"
  name := "The Registrar"
  emails := ["not an address", " admin@registrar.test\n", "x@localhost", "a,b@registrar.test"]

/-- A registry that has one domain of that registrar. -/
def exampleSponsors : (request : Registry.Call) → Except Registry.Error (Registry.Value request)
  | .domain "d1.test" => .ok (some ⟨"d1.test", "registrar-1", true, [], [], ["ns1.d1.test"]⟩)
  | .registrar "registrar-1" => .ok (some examplePaddedContacts)
  | _ => .error (.store .other)

/-- A batch that holds the domain and a host. -/
def exampleFailedBatch : Batch where
  tld := "test"
  writer := "PowerDnsWriter"
  lockIndex := 1
  lockCount := 1
  domains := ["d1.test"]
  hosts := ["ns1.d1.test"]
  enqueuedAt := ⟨0, 0⟩
  itemsCreatedAt := ⟨0, 0⟩

/-- What failure mails are made of. -/
def exampleMailSettings : MailSettings where
  subject := "DNS update failed"
  bodyTemplate := ""
  registryName := "Example Registry"
  supportAddress := "support@registry.test"
  operationsAddress := "ops@registry.test"

/-- The mail relay cannot be reached. The mail goes to the one contact that can be used, and is not
sent again. -/
theorem mailed_exampleFailedBatch :
    ∃ exchanges, Runs (Delivery.notify exampleMailSettings exampleFailedBatch) exchanges () ∧
      AnsweredBy exampleSponsors exchanges ∧
      looked (.domain "d1.test") (exampleSponsors (.domain "d1.test")) ∈ exchanges ∧
      (mailsOf exchanges).length = 1 ∧
      ∀ mail ∈ mailsOf exchanges, mail.recipients = ["admin@registrar.test"] ∧
        mail.copies = ["ops@registry.test"] := by
  obtain ⟨possible, always, _⟩ :=
    failure_mail_reaches exampleMailSettings exampleFailedBatch exampleSponsors
  obtain ⟨exchanges, run, answered, _⟩ := possible fun _ => .error .transport
  have told := always exchanges run answered
  have sponsors : Sponsors exampleSponsors .domain "d1.test" examplePaddedContacts :=
    ⟨some ⟨"d1.test", "registrar-1", true, [], [], ["ns1.d1.test"]⟩, "registrar-1", rfl, rfl, rfl⟩
  have sent : mailsOf exchanges ≠ [] := told.sent.mpr ⟨_, _, _, rfl, sponsors⟩
  refine ⟨exchanges, run, answered, told.item .domain "d1.test" rfl,
    Nat.le_antisymm told.once (List.length_pos_iff.mpr sent), fun mail member => ?_⟩
  obtain ⟨_, kind, name, registrar, same, ⟨item, id, there, sponsored, found⟩, rfl, _⟩ :=
    told.addressed mail member
  cases same
  obtain rfl := Except.ok.inj there
  obtain rfl := Option.some.inj sponsored
  obtain rfl := Option.some.inj (Except.ok.inj found)
  decide +kernel

end Publish

end Zonecast
