/-
What the queue may rely on. A batch that is acknowledged can be accounted for, in exactly one way;
a batch that was taken but cannot be accounted for is asked for again; and a request that is
turned away was turned away before anybody else was asked. This holds whatever the registry, the
locks, the writer, the queue and the mail relay answer, and wherever the deadline comes.
-/
import Mathlib.Logic.ExistsUnique
import Zonecast.Api.Respond
import Zonecast.Proofs.Accounting
import Zonecast.Proofs.Passwords

namespace Zonecast.Api

open Process Zonecast.Publish

/-! ### Deliveries among requests -/

/-- The call of a delivery that a call of answering a request is. -/
def deliveryExchange? : Exchange Api → Option (Exchange Delivery)
  | ⟨.delivery request, reply⟩ => some ⟨request, reply⟩
  | ⟨.exposition, _⟩ => none

/-- The deeds of the delivery that a request led to. -/
def deedsOf (exchanges : List (Exchange Api)) : List Deed :=
  ledger (exchanges.filterMap deliveryExchange?)

/-- The answer to a delivery. -/
def ofResult : Except Publish.Error Outcome → Response
  | .ok outcome => ofOutcome outcome
  | .error error => ofError error

theorem deedsOf_outer (path : List (Carried delivering)) :
    deedsOf (path.map Carried.outer) = ledger (path.map Carried.inner) := by
  have same : (deliveryExchange? ∘ fun carried : Carried delivering => carried.outer) =
      fun carried => some carried.inner := rfl
  rw [deedsOf, List.filterMap_map, same, List.filterMap_eq_map']

/-- A request that carries a batch leads to one delivery, whose result it is answered by. -/
theorem publish_of_carried {configuration : Configuration} {request : Request} {batch : Batch}
    {attempt : Nat} (authorized : isAuthorized configuration.queue request = some true)
    (carried : readDelivery request = .ok (batch, attempt)) :
    publish configuration request =
      ((Delivery.publish configuration.delivery batch attempt).embed delivering).bind
        fun result => .done (ofResult result) := by
  rw [publish, authorized]
  dsimp only
  rw [carried]
  refine congrArg (Process.bind _) (funext fun result => ?_)
  cases result <;> rfl

/-- A request is turned away at once, or leads to one delivery, whose result it is answered by. -/
theorem publish_cases {configuration : Configuration} {request : Request} {response : Response}
    {exchanges : List (Exchange Api)}
    (run : Runs (publish configuration request) exchanges response) :
    (exchanges = [] ∧ response = .internalError ∧ isAuthorized configuration.queue request = none) ∨
      (exchanges = [] ∧ response = .unauthorized ∧
        isAuthorized configuration.queue request = some false) ∨
      (∃ message, exchanges = [] ∧ response = .failure 400 message ∧
        readDelivery request = .error message) ∨
      ∃ batch attempt result, isAuthorized configuration.queue request = some true ∧
        readDelivery request = .ok (batch, attempt) ∧ response = ofResult result ∧
        Delivered configuration.delivery batch attempt (deedsOf exchanges) result := by
  rcases authorized : isAuthorized configuration.queue request with _ | (_ | _)
  · rw [publish, authorized] at run
    exact Or.inl ⟨(runs_done.mp run).1, (runs_done.mp run).2, rfl⟩
  · rw [publish, authorized] at run
    exact Or.inr (Or.inl ⟨(runs_done.mp run).1, (runs_done.mp run).2, rfl⟩)
  · rcases carried : readDelivery request with message | ⟨batch, attempt⟩
    · rw [publish, authorized] at run
      dsimp only at run
      rw [carried] at run
      exact Or.inr (Or.inr (Or.inl ⟨message, (runs_done.mp run).1, (runs_done.mp run).2, rfl⟩))
    · rw [publish_of_carried authorized carried] at run
      obtain ⟨before, result, after, rfl, delivering, answering⟩ := runs_bind.mp run
      obtain ⟨path, rfl, inner⟩ := runs_embed.mp delivering
      obtain ⟨rfl, rfl⟩ := runs_done.mp answering
      refine Or.inr (Or.inr (Or.inr ⟨batch, attempt, result, rfl, rfl, rfl, ?_⟩))
      rw [List.append_nil, deedsOf_outer]
      exact delivered_of_does ⟨_, inner, rfl⟩

theorem respond_of_posted (configuration : Configuration) (request : Request)
    (posted : request.method = "POST") (path : request.path = publishPath) :
    respond configuration request = publish configuration request := by
  rw [respond, if_pos path, if_pos posted]

/-- A batch that was taken is answered by the result of one delivery. -/
theorem delivered_of_runs {configuration : Configuration} {request : Request} {response : Response}
    {exchanges : List (Exchange Api)} {batch : Batch} {attempt : Nat}
    (authorized : isAuthorized configuration.queue request = some true)
    (carried : readDelivery request = .ok (batch, attempt))
    (run : Runs (publish configuration request) exchanges response) :
    ∃ result, response = ofResult result ∧
      Delivered configuration.delivery batch attempt (deedsOf exchanges) result := by
  rcases publish_cases run with ⟨_, _, denied⟩ | ⟨_, _, denied⟩ | ⟨_, _, _, unread⟩ |
    ⟨found, tries, result, _, read, answered, delivered⟩
  · rw [authorized] at denied
    cases denied
  · rw [authorized] at denied
    cases denied
  · rw [carried] at unread
    cases unread
  · rw [carried] at read
    cases read
    exact ⟨result, answered, delivered⟩

/-! ### Statuses -/

theorem status_ofOutcome (outcome : Outcome) :
    (ofOutcome outcome).status = if outcome = .permanentlyFailed then 202 else 200 := by
  cases outcome <;> rfl

theorem status_ofError (error : Publish.Error) :
    (ofError error).status = 500 ∨ (ofError error).status = 503 := by
  cases error with
  | lockUnavailable => exact Or.inr rfl
  | lock | commit | requeue | registry => exact Or.inl rfl

/-- Only what is given up is answered with 202. -/
theorem status_eq_202_iff (result : Except Publish.Error Outcome) :
    (ofResult result).status = 202 ↔ result = .ok .permanentlyFailed := by
  rcases result with error | outcome
  · refine ⟨fun same => ?_, fun same => by cases same⟩
    rcases status_ofError error with other | other <;>
      exact absurd (other.symm.trans same) (by decide)
  · show (ofOutcome outcome).status = 202 ↔ _
    rw [status_ofOutcome, Except.ok.injEq]
    by_cases givenUp : outcome = .permanentlyFailed
    · rw [if_pos givenUp]
      exact ⟨fun _ => givenUp, fun _ => rfl⟩
    · rw [if_neg givenUp]
      exact ⟨fun same => absurd same (by decide), fun same => absurd same givenUp⟩

/-- No delivery is acknowledged with names lost. An answer that acknowledges a batch means that
its names can be accounted for in exactly one way; a batch that was taken and cannot be accounted
for is answered with 500 or 503, so the queue delivers it again; and nobody was asked for anything
before an answer of 400 or 401. -/
theorem acknowledged_iff_accounted (configuration : Configuration) (request : Request)
    (response : Response) (exchanges : List (Exchange Api)) (posted : request.method = "POST")
    (path : request.path = publishPath)
    (run : Runs (respond configuration request) exchanges response) :
    (200 ≤ response.status ∧ response.status < 300 →
      ∃ batch attempt, isAuthorized configuration.queue request = some true ∧
        readDelivery request = .ok (batch, attempt) ∧
        ∃! way : Way, way.Holds configuration.delivery batch attempt response.status
          (deedsOf exchanges)) ∧
    (∀ batch attempt, isAuthorized configuration.queue request = some true →
      readDelivery request = .ok (batch, attempt) →
      (¬ ∃ way : Way, way.Holds configuration.delivery batch attempt response.status
        (deedsOf exchanges)) →
      response.status = 500 ∨ response.status = 503) ∧
    (response.status = 400 ∨ response.status = 401 → exchanges = []) := by
  rw [respond_of_posted configuration request posted path] at run
  rcases publish_cases run with ⟨rfl, rfl, denied⟩ | ⟨rfl, rfl, denied⟩ |
    ⟨message, rfl, rfl, unread⟩ | ⟨batch, attempt, result, authorized, carried, rfl, delivered⟩
  · refine ⟨fun acknowledged => absurd acknowledged.2 (by decide), ?_, fun _ => rfl⟩
    exact fun _ _ _ _ _ => Or.inl rfl
  · refine ⟨fun acknowledged => absurd acknowledged.2 (by decide), ?_, fun _ => rfl⟩
    intro _ _ authorized
    rw [denied] at authorized
    cases authorized
  · refine ⟨fun acknowledged => ?_, ?_, fun _ => rfl⟩
    · have status : (400 : Nat) < 300 := acknowledged.2
      exact absurd status (by decide)
    · intro _ _ _ read
      rw [unread] at read
      cases read
  · have accounts := holds_iff delivered (status_eq_202_iff result)
    rcases result with error | outcome
    · have status := status_ofError error
      refine ⟨fun acknowledged => ?_, fun _ _ _ _ _ => status, fun refused => ?_⟩
      · have low : (ofError error).status < 300 := acknowledged.2
        omega
      · have low : (ofError error).status = 400 ∨ (ofError error).status = 401 := refused
        omega
    · refine ⟨fun _ => ⟨batch, attempt, authorized, carried, outcome.way, ?_, ?_⟩, ?_, ?_⟩
      · exact (accounts outcome.way).mpr ⟨outcome, rfl, rfl⟩
      · intro other holds
        obtain ⟨found, same, way⟩ := (accounts other).mp holds
        cases same
        exact way.symm
      · intro other tries _ read lost
        rw [carried] at read
        cases read
        exact absurd ⟨outcome.way, (accounts outcome.way).mpr ⟨outcome, rfl, rfl⟩⟩ lost
      · intro refused
        have status : (ofOutcome outcome).status = 400 ∨ (ofOutcome outcome).status = 401 := refused
        rw [status_ofOutcome] at status
        split at status <;> omega

/-! ### A request as the queue sends it -/

/-- A configuration with the queue's credentials. -/
def exampleConfiguration : Configuration where
  backend := ⟨"http://127.0.0.1:8081/api/v1", "secret", "localhost", true, true, ["a.nic.test."],
    "hostmaster.nic.test.", 3600, 3600⟩
  ttls := ⟨3600, 10800, 3600⟩
  publish := ⟨180, 3, 20, "http://queue.internal/tasks/dns-publish", none⟩
  mail := ⟨"http://mail.internal/send", none, "DNS update failed", "", "Example Registry",
    "support@registry.test", "ops@registry.test"⟩
  queue := ⟨"queue", Password.hash (List.replicate 16 0) "s3cret"⟩

/-- The twenty-first delivery of a batch of one domain. -/
def exampleRequest : Request where
  method := "POST"
  path := publishPath
  headers := [("authorization", "Basic cXVldWU6czNjcmV0"),
    ("content-type", "application/x-www-form-urlencoded"), ("x-cloudtasks-taskretrycount", "20")]
  body := "tld=test&dnsWriter=Nope&lockIndex=1&numPublishLocks=1&domains=d1.test&hosts=&" ++
    "itemsCreated=2025-06-01T11:58:00Z&enqueued=2025-06-01T11:59:30Z"

/-- The batch that the request carries. -/
def exampleBatch : Batch where
  tld := "test"
  writer := "Nope"
  lockIndex := 1
  lockCount := 1
  domains := ["d1.test"]
  hosts := []
  enqueuedAt := ⟨1748779170, 0⟩
  itemsCreatedAt := ⟨1748779080, 0⟩

theorem isAuthorized_exampleRequest :
    isAuthorized exampleConfiguration.queue exampleRequest = some true := by
  have shown : exampleRequest.credentials? = some ("queue", "s3cret") := by decide +kernel
  rw [isAuthorized, shown]
  dsimp only
  rw [if_pos (show "queue" = exampleConfiguration.queue.username from rfl)]
  exact Password.verify_hash _ _ (by decide) (by decide)

theorem toOption_readDelivery_exampleRequest :
    (readDelivery exampleRequest).toOption = some (exampleBatch, 20) := by
  decide +kernel

theorem readDelivery_exampleRequest :
    readDelivery exampleRequest = .ok (exampleBatch, 20) := by
  have carried := toOption_readDelivery_exampleRequest
  cases read : readDelivery exampleRequest with
  | error message =>
    rw [read] at carried
    cases carried
  | ok delivery =>
    rw [read] at carried
    exact congrArg Except.ok (Option.some.inj carried)

/-- The writer may be known. A known writer's commit succeeds; a refresh request under the lease is
not answered before the deadline. -/
def exampleClimate (known : Bool) : Climate := ⟨1, known, some (.ok ()), none⟩

/-- The answers of that climate while a request is answered. -/
def exampleAnswer (known : Bool) : (request : ApiCall) → Zonecast.Api.Reply request
  | .delivery request => (exampleClimate known).reply request
  | .exposition => ""

/-- The delivery that the request leads to, with its answer. -/
def exampleProcess : Process Api Response :=
  ((Delivery.publish exampleConfiguration.delivery exampleBatch 20).embed delivering).bind
    fun result => .done (ofResult result)

theorem respond_exampleRequest :
    respond exampleConfiguration exampleRequest = exampleProcess := by
  rw [respond_of_posted _ _ rfl rfl,
    publish_of_carried isAuthorized_exampleRequest readDelivery_exampleRequest]
  rfl

theorem runs_exampleRequest (known : Bool) :
    Runs (respond exampleConfiguration exampleRequest)
      (exampleProcess.trace (exampleAnswer known))
      (exampleProcess.answered (exampleAnswer known)) := by
  rw [respond_exampleRequest]
  exact runs_trace _ _

/-- With a writer, the request is answered with 200 and has been published. -/
theorem published_exampleRequest :
    ∃ response exchanges, Runs (respond exampleConfiguration exampleRequest) exchanges response ∧
      response.status = 200 ∧
      ∃! way : Way, way.Holds exampleConfiguration.delivery exampleBatch 20 response.status
        (deedsOf exchanges) := by
  refine ⟨_, _, runs_exampleRequest true, by decide +kernel, ?_⟩
  obtain ⟨batch, attempt, _, carried, accounted⟩ :=
    (acknowledged_iff_accounted exampleConfiguration exampleRequest _ _ rfl rfl
      (runs_exampleRequest true)).1 ⟨by decide +kernel, by decide +kernel⟩
  rw [readDelivery_exampleRequest] at carried
  cases carried
  exact accounted

/-- Without a writer, and with the refresh request abandoned at the deadline, the same request is
acknowledged with 202. Its name was not published, handed back or enqueued, and no commit of it
failed, for there was none. -/
theorem givenUp_without_commit :
    ∃ response exchanges, Runs (respond exampleConfiguration exampleRequest) exchanges response ∧
      response.status = 202 ∧ readDelivery exampleRequest = .ok (exampleBatch, 20) ∧
      (∀ way : Way, way ≠ .givenUp → ¬ way.Holds exampleConfiguration.delivery exampleBatch 20
        response.status (deedsOf exchanges)) ∧
      ∀ reply?, .committed reply? ∉ deedsOf exchanges := by
  have status : (exampleProcess.answered (exampleAnswer false)).status = 202 := by decide +kernel
  have uncommitted : (deedsOf (exampleProcess.trace (exampleAnswer false))).all
      (fun deed => !deed.isCommit) = true := by decide +kernel
  refine ⟨_, _, runs_exampleRequest false, status, readDelivery_exampleRequest, ?_, ?_⟩
  · intro way other holds
    have run := runs_exampleRequest false
    rw [respond_of_posted _ _ rfl rfl] at run
    obtain ⟨result, response, delivered⟩ := delivered_of_runs isAuthorized_exampleRequest
      readDelivery_exampleRequest run
    rw [response] at status
    have givenUp := (status_eq_202_iff result).mp status
    obtain ⟨outcome, same, way⟩ :=
      (holds_iff delivered (response ▸ status_eq_202_iff result) way).mp holds
    rw [givenUp] at same
    cases same
    exact other way.symm
  · intro reply? committed
    have none := List.all_eq_true.mp uncommitted _ committed
    cases none

end Zonecast.Api
