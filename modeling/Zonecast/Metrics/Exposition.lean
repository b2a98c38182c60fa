/-
The metrics as text, in the OpenMetrics form: for each family its help, its type and, for
durations, its unit, then its samples. A family without samples is left out. Samples stand in the
order of their label texts. Label values are written as they are, so a value with a line feed breaks
its lines.
-/
import Zonecast.Decimal.Scientific
import Zonecast.Metrics.Basic
import Zonecast.Text.Pieces

namespace Zonecast.Metrics

open Zonecast.Text

/-! ### Samples -/

/-- The text between the braces. -/
def labelText (labels : Labels) : String :=
  join ',' (labels.map fun label => label.1 ++ "=\"" ++ label.2 ++ "\"")

/-- Labels in braces, if there are any. -/
def braced (text : String) : String :=
  if text.isEmpty then "" else "\x7b" ++ text ++ "\x7d"

/-- The samples of a family in the order of their label texts. -/
def sorted {α : Type} (family : Family α) : Family α :=
  family.mergeSort fun first second => decide (labelText first.1 ≤ labelText second.1)

/-- The sample of a counter. -/
def counterLine (name : String) (labels : Labels) (count : UInt64) : String :=
  name ++ "_total" ++ braced (labelText labels) ++ " " ++ toString count.toNat

/-- Milliseconds as seconds: a bound of a bucket. -/
def boundText (millis : Nat) : String :=
  let thousandths := (toString (1000 + millis % 1000)).toList.drop 1
  let places := (thousandths.reverse.dropWhile (· == '0')).reverse
  toString (millis / 1000) ++ "." ++ (if places.isEmpty then "0" else String.ofList places)

/-- The sample of a bucket. -/
def bucketLine (name : String) (labels : Labels) (bound : String) (count : UInt64) : String :=
  name ++ "_bucket" ++ braced (labelText (("le", bound) :: labels)) ++ " " ++ toString count.toNat

/-- The samples of a histogram: sum, count and buckets. -/
def histogramLines (name : String) (labels : Labels) (histogram : Histogram) : List String :=
  let written := braced (labelText labels)
  [name ++ "_sum" ++ written ++ " " ++ Decimal.text histogram.seconds,
    name ++ "_count" ++ written ++ " " ++ toString histogram.count.toNat] ++
    (histogram.bounds.zip histogram.counts).map (fun bucket =>
      bucketLine name labels (boundText bucket.1) bucket.2) ++
    [bucketLine name labels "+Inf" histogram.count]

/-! ### Families -/

/-- The lines that open a family. -/
def opening (name help type : String) : List String :=
  ["# HELP " ++ name ++ " " ++ help ++ ".", "# TYPE " ++ name ++ " " ++ type]

/-- A family of counters. -/
def counterFamily (name help : String) (family : Family UInt64) : List String :=
  if family.isEmpty then []
  else opening name help "counter" ++
    (sorted family).map fun sample => counterLine name sample.1 sample.2

/-- A family of histograms of seconds. -/
def histogramFamily (name help : String) (family : Family Histogram) : List String :=
  if family.isEmpty then []
  else opening name help "histogram" ++ ["# UNIT " ++ name ++ " seconds"] ++
    (sorted family).flatMap fun sample => histogramLines name sample.1 sample.2

/-- The samples of all families. -/
def expositionLines (metrics : Metrics) : List String :=
  counterFamily "tldpush_publish_domain_requests"
      "Domains staged for publishing, by whether they belong to the batch TLD" metrics.domains ++
    counterFamily "tldpush_publish_host_requests"
      "Hosts staged for publishing, by whether they belong to the batch TLD" metrics.hosts ++
    counterFamily "tldpush_publish_actions" "Outcomes of publish batch deliveries"
      metrics.deliveries ++
    counterFamily "tldpush_publish_commits" "Writer commit attempts" metrics.commits ++
    histogramFamily "tldpush_publish_commit_duration_seconds"
      "Time spent staging and committing a batch" metrics.commitDuration ++
    histogramFamily "tldpush_publish_item_age_seconds"
      "Time since the underlying refresh requests were created" metrics.itemAge ++
    histogramFamily "tldpush_publish_queue_delay_seconds" "Time since the batch was enqueued"
      metrics.queueDelay ++
    counterFamily "tldpush_zone_maintenance_failures" "Failed best-effort zone maintenance checks"
      metrics.failedChecks ++
    counterFamily "tldpush_dnssec_rectify_failures"
      "Failed zone rectifications after enabling DNSSEC" [([], metrics.failedRectifies)] ++
    ["# EOF"]

/-- The text of the exposition. -/
def exposition (metrics : Metrics) : String :=
  String.join (metrics.expositionLines.map (· ++ "\n"))

end Zonecast.Metrics
