/-
The configuration of a rehearsal that brings none of its own.
-/
namespace Zonecast.Rehearsal

/-- A small configuration with signing and transfer keys. The queue's password is `s3cret`. -/
def sampleConfiguration : String := String.intercalate "\n" [
  "[powerdns]", "base_url = \"http://127.0.0.1:8081/api/v1\"", "api_key = \"secret\"",
  "dnssec_enabled = true", "tsig_enabled = true",
  "root_nameservers = [\"A.NIC.test\", \"b.nic.test.\"]",
  "soa_contact = \"hostmaster.nic.test\"", "[publish]",
  "task_queue_url = \"http://queue.internal/tasks/dns-publish\"", "[email]",
  "relay_url = \"http://mail.internal/send\"", "subject = \"DNS update failed\"",
  "body_template = \"Dear \x7bregistrar\x7d, publishing \x7bkind\x7d \x7bname\x7d failed. " ++
    "Contact \x7bsupport_email\x7d. \x7bregistry_name\x7d\"",
  "registry_name = \"Example Registry\"", "support_email = \"support@registry.test\"",
  "bcc_email = \"ops@registry.test\"", "[queue_auth]", "username = \"queue\"",
  "password_hash = \"$argon2id$v=19$m=8,t=1,p=1$c29tZXNhbHQ$" ++
    "TZ2FYnZYwjJ4jJ048ZXy17zdyhLkCzyTjO7hbBmHTs0\""]

end Zonecast.Rehearsal
