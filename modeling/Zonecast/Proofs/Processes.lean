/-
How processes are followed in proofs. Two views are used: the value of a process whose calls are
all answered by one function, and the paths that a process can take. For each there is a lemma for
a single call, one for a sequence, and one for a process that is carried over to a larger
interface, so that a process is taken apart along the way it is written.
-/
import Zonecast.Process

namespace Zonecast.Process

variable {I J : Interface} {α β ε : Type}

/-! ### Fixed answers -/

/-- A sequence under fixed answers is its first part and then what follows. -/
theorem answered_bind (answer : (request : I.Call) → I.Reply request) (process : Process I α)
    (next : α → Process I β) :
    (process.bind next).answered answer = (next (process.answered answer)).answered answer := by
  induction process with
  | done value => rfl
  | call request rest inductionHypothesis => exact inductionHypothesis (answer request)

/-- A sequence of parts that may fail goes on with what its first part found, or ends with it. -/
theorem run_bind (step : ExceptT ε (Process I) α) (next : α → ExceptT ε (Process I) β) :
    (step >>= next).run = step.run.bind fun
      | .ok value => (next value).run
      | .error error => .done (.error error) := by
  show Process.bind step.run _ = Process.bind step.run _
  congr 1
  funext result
  cases result <;> rfl

/-- A sequence of parts that may fail, under fixed answers, fails with its first part or goes on
with what that part found. -/
theorem answered_run_bind (answer : (request : I.Call) → I.Reply request)
    (step : ExceptT ε (Process I) α) (next : α → ExceptT ε (Process I) β) :
    (step >>= next).run.answered answer =
      match step.run.answered answer with
      | .ok value => (next value).run.answered answer
      | .error error => .error error := by
  rw [run_bind, answered_bind]
  cases step.run.answered answer <;> rfl

/-! ### Paths -/

theorem runs_done {value result : α} {exchanges : List (Exchange I)} :
    Runs (.done value) exchanges result ↔ exchanges = [] ∧ result = value := by
  constructor
  · intro run
    cases run
    exact ⟨rfl, rfl⟩
  · rintro ⟨rfl, rfl⟩
    exact .done _

theorem runs_call {request : I.Call} {next : I.Reply request → Process I α} {result : α}
    {exchanges : List (Exchange I)} :
    Runs (.call request next) exchanges result ↔
      ∃ reply rest, exchanges = ⟨request, reply⟩ :: rest ∧ Runs (next reply) rest result := by
  constructor
  · intro run
    cases run with
    | call rest => exact ⟨_, _, rfl, rest⟩
  · rintro ⟨reply, rest, rfl, run⟩
    exact .call run

/-- The calls of a process whose every call is answered in the same way throughout. -/
def trace (answer : (request : I.Call) → I.Reply request) : Process I α → List (Exchange I)
  | done _ => []
  | call request next => ⟨request, answer request⟩ :: (next (answer request)).trace answer

/-- Fixed answers lead along a path. -/
theorem runs_trace (answer : (request : I.Call) → I.Reply request) (process : Process I α) :
    Runs process (process.trace answer) (process.answered answer) := by
  induction process with
  | done value => exact .done value
  | call request next inductionHypothesis => exact .call (inductionHypothesis (answer request))

/-- Every call along that path is answered in the one way. -/
theorem reply_of_mem_trace {answer : (request : I.Call) → I.Reply request} {process : Process I α}
    {exchange : Exchange I} (member : exchange ∈ process.trace answer) :
    exchange.reply = answer exchange.request := by
  induction process with
  | done value => cases member
  | call request next inductionHypothesis =>
    rcases List.mem_cons.mp member with rfl | later
    · rfl
    · exact inductionHypothesis _ later

/-- A call of the smaller interface with the reply that the larger one gave to it. -/
structure Carried (inclusion : Inclusion I J) where
  request : I.Call
  reply : J.Reply (inclusion.call request)

namespace Carried

variable {inclusion : Inclusion I J}

/-- The exchange as the smaller interface sees it. -/
def inner (carried : Carried inclusion) : Exchange I :=
  ⟨carried.request, inclusion.reply carried.request carried.reply⟩

/-- The exchange as the larger interface sees it. -/
def outer (carried : Carried inclusion) : Exchange J :=
  ⟨inclusion.call carried.request, carried.reply⟩

end Carried

/-- The paths of a process that is carried over are its own paths, carried over. -/
theorem runs_embed {inclusion : Inclusion I J} {process : Process I α} {result : α}
    {exchanges : List (Exchange J)} :
    Runs (process.embed inclusion) exchanges result ↔
      ∃ path : List (Carried inclusion), exchanges = path.map Carried.outer ∧
        Runs process (path.map Carried.inner) result := by
  induction process generalizing exchanges with
  | done value =>
    rw [embed, runs_done]
    constructor
    · rintro ⟨rfl, rfl⟩
      exact ⟨[], rfl, .done _⟩
    · rintro ⟨path, rfl, run⟩
      cases path with
      | nil => exact ⟨rfl, (runs_done.mp run).2⟩
      | cons first rest => cases run
  | call request next inductionHypothesis =>
    rw [embed, runs_call]
    constructor
    · rintro ⟨reply, rest, rfl, run⟩
      obtain ⟨path, rfl, inner⟩ := (inductionHypothesis _).mp run
      exact ⟨⟨request, reply⟩ :: path, rfl, .call inner⟩
    · rintro ⟨path, rfl, run⟩
      cases path with
      | nil => cases run
      | cons first rest =>
        obtain ⟨reply, others, equal, inner⟩ := runs_call.mp run
        obtain ⟨request', reply'⟩ := first
        injection equal with head tail
        cases head
        subst tail
        exact ⟨reply', rest.map Carried.outer, rfl, (inductionHypothesis _).mpr ⟨rest, rfl, inner⟩⟩

/-- A sequence is carried over part by part. -/
theorem embed_bind (inclusion : Inclusion I J) (process : Process I α) (next : α → Process I β) :
    (process.bind next).embed inclusion =
      (process.embed inclusion).bind fun value => (next value).embed inclusion := by
  induction process with
  | done value => rfl
  | call request more inductionHypothesis =>
    exact congrArg (Process.call (I := J) (inclusion.call request))
      (funext fun reply => inductionHypothesis (inclusion.reply request reply))

/-- Two paths part at a reply: up to there they make the same calls and are given the same
replies, and there the same call is answered differently. -/
def PartAtReply (first second : List (Exchange I)) : Prop :=
  ∃ before request reply other rest others, first = before ++ ⟨request, reply⟩ :: rest ∧
    second = before ++ ⟨request, other⟩ :: others ∧ reply ≠ other

/-- Two paths of one process are the same unless they part at a reply. -/
theorem Runs.eq_or_part {process : Process I α} {first second : List (Exchange I)}
    {result other : α} (run : Runs process first result) (again : Runs process second other) :
    (first = second ∧ result = other) ∨ PartAtReply first second := by
  induction run generalizing second with
  | done value =>
    cases again
    exact .inl ⟨rfl, rfl⟩
  | @call request next reply exchanges value rest inductionHypothesis =>
    obtain ⟨given, others, rfl, tail⟩ := runs_call.mp again
    by_cases same : reply = given
    · subst same
      rcases inductionHypothesis tail with ⟨rfl, rfl⟩ | parting
      · exact .inl ⟨rfl, rfl⟩
      · obtain ⟨before, call, one, two, after, more, rfl, rfl, different⟩ := parting
        exact .inr ⟨_ :: before, call, one, two, after, more, rfl, rfl, different⟩
    · exact .inr ⟨[], request, reply, given, exchanges, others, rfl, rfl, same⟩

/-- A path ends with one value only. -/
theorem Runs.unique {process : Process I α} {path : List (Exchange I)} {result other : α}
    (run : Runs process path result) (again : Runs process path other) : result = other := by
  induction run with
  | done value => exact (runs_done.mp again).2.symm
  | call rest inductionHypothesis =>
    cases again with
    | call again => exact inductionHypothesis again

/-- A path whose replies are those of one function ends where that function leads. -/
theorem eq_answered_of_runs {answer : (request : I.Call) → I.Reply request}
    {process : Process I α} {path : List (Exchange I)} {result : α} (run : Runs process path result)
    (agrees : ∀ exchange ∈ path, exchange.reply = answer exchange.request) :
    result = process.answered answer := by
  induction run with
  | done value => rfl
  | call rest inductionHypothesis =>
    have first := agrees _ List.mem_cons_self
    dsimp only at first
    subst first
    exact inductionHypothesis fun exchange member => agrees exchange (List.mem_cons_of_mem _ member)

/-! ### Kinds of calls -/

/-- Whatever it is answered, the process only makes calls of a kind. -/
def Only (kind : I.Call → Prop) : Process I α → Prop
  | done _ => True
  | call request next => kind request ∧ ∀ reply, (next reply).Only kind

theorem only_bind {kind : I.Call → Prop} {process : Process I α} {next : α → Process I β}
    (first : process.Only kind) (rest : ∀ value, (next value).Only kind) :
    (process.bind next).Only kind := by
  induction process with
  | done value => exact rest value
  | call request more inductionHypothesis =>
    exact ⟨first.1, fun reply => inductionHypothesis reply (first.2 reply)⟩

theorem only_mono {kind other : I.Call → Prop} {process : Process I α} (only : process.Only kind)
    (weaker : ∀ request, kind request → other request) : process.Only other := by
  induction process with
  | done value => trivial
  | call request next inductionHypothesis =>
    exact ⟨weaker request only.1, fun reply => inductionHypothesis reply (only.2 reply)⟩

theorem only_run_bind {kind : I.Call → Prop} {step : ExceptT ε (Process I) α}
    {next : α → ExceptT ε (Process I) β} (first : step.run.Only kind)
    (rest : ∀ value, (next value).run.Only kind) : (step >>= next).run.Only kind := by
  rw [run_bind]
  refine only_bind first fun result => ?_
  cases result with
  | ok value => exact rest value
  | error error => trivial

theorem only_embed (inclusion : Inclusion I J) (process : Process I α) :
    (process.embed inclusion).Only fun request => ∃ inner, request = inclusion.call inner := by
  induction process with
  | done value => trivial
  | call request next inductionHypothesis =>
    exact ⟨⟨request, rfl⟩, fun reply => inductionHypothesis (inclusion.reply request reply)⟩

/-- What is carried over only makes calls of a kind if it did so before, where that kind lies. -/
theorem only_embed_of {kind : I.Call → Prop} {other : J.Call → Prop} {inclusion : Inclusion I J}
    {process : Process I α} (only : process.Only kind)
    (lies : ∀ request, kind request → other (inclusion.call request)) :
    (process.embed inclusion).Only other := by
  induction process with
  | done value => trivial
  | call request next inductionHypothesis =>
    exact ⟨lies request only.1, fun reply => inductionHypothesis _ (only.2 _)⟩

theorem kind_of_mem {kind : I.Call → Prop} {process : Process I α} {path : List (Exchange I)}
    {result : α} (only : process.Only kind) (run : Runs process path result)
    (exchange : Exchange I) (member : exchange ∈ path) : kind exchange.request := by
  induction run with
  | done value => cases member
  | call rest inductionHypothesis =>
    rcases List.mem_cons.mp member with rfl | later
    · exact only.1
    · exact inductionHypothesis (only.2 _) later

end Zonecast.Process
