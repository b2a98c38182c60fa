/-
Batches, forms and mails as JSON records. Times are written in the fewest fraction digits that
lose nothing.
-/
import Zonecast.Json.Basic
import Zonecast.Publish.Form
import Zonecast.Publish.Mail

namespace Zonecast.Publish

def Form.toJson (form : Form) : Json :=
  .object [("tld", .string form.tld), ("dnsWriter", .string form.dnsWriter),
    ("lockIndex", .integer form.lockIndex.toInt),
    ("numPublishLocks", .integer form.numPublishLocks.toInt), ("domains", .string form.domains),
    ("hosts", .string form.hosts), ("itemsCreated", .string form.itemsCreated),
    ("enqueued", .string form.enqueued)]

def Batch.toJson (batch : Batch) : Json :=
  .object [("tld", .string batch.tld), ("writer", .string batch.writer),
    ("lock_index", .integer batch.lockIndex.toInt), ("num_locks", .integer batch.lockCount.toInt),
    ("domains", .strings batch.domains), ("hosts", .strings batch.hosts),
    ("enqueued_at", .string (Time.timestamp .shortest batch.enqueuedAt)),
    ("items_created_at", .string (Time.timestamp .shortest batch.itemsCreatedAt))]

def Mail.toJson (mail : Mail) : Json :=
  .object [("subject", .string mail.subject), ("body", .string mail.body),
    ("to", .strings mail.recipients), ("bcc", .strings mail.copies)]

end Zonecast.Publish
