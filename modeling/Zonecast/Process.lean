/-
Work that talks to collaborators, as data. An interface lists the calls that can be made and the
kind of reply to each. A process over it is a finite tree: either it is done, or it makes one call
and goes on in a way that depends on the reply. Nothing else happens in a process, so who answers
is left open: a store in memory, a schedule that interleaves many processes call by call, or an
adversary that lets calls fail. Statements about every collaborator are statements about every
path through the tree.

`Runs` is the view in which paths are said: the calls with their replies, in order, and the value
the process ends with.
-/

namespace Zonecast

/-- The calls of a collaborator and the kind of reply to each. -/
structure Interface where
  Call : Type
  Reply : Call → Type

/-- A finite tree of calls. -/
inductive Process (I : Interface) (α : Type) : Type where
  | done (value : α)
  | call (request : I.Call) (next : I.Reply request → Process I α)

namespace Process

variable {I J : Interface} {α β γ : Type}

/-! ### Sequencing -/

/-- Goes on with the value that a process ends with. -/
def bind : Process I α → (α → Process I β) → Process I β
  | done value, next => next value
  | call request rest, next => call request fun reply => (rest reply).bind next

instance : Monad (Process I) where
  pure := done
  bind := bind

@[simp] theorem pure_eq (value : α) : (pure value : Process I α) = done value := rfl

@[simp] theorem bind_eq (process : Process I α) (next : α → Process I β) :
    (process >>= next) = process.bind next := rfl

@[simp] theorem bind_done (process : Process I α) : process.bind done = process := by
  induction process with
  | done value => rfl
  | call request rest inductionHypothesis =>
    simp only [bind]
    congr
    funext reply
    exact inductionHypothesis reply

theorem bind_assoc (process : Process I α) (first : α → Process I β) (second : β → Process I γ) :
    (process.bind first).bind second = process.bind fun value => (first value).bind second := by
  induction process with
  | done value => rfl
  | call request rest inductionHypothesis =>
    simp only [bind]
    congr
    funext reply
    exact inductionHypothesis reply

instance : LawfulMonad (Process I) :=
  LawfulMonad.mk' (Process I) bind_done (fun _ _ => rfl) bind_assoc

/-- One call, whose reply is the value. -/
def perform (request : I.Call) : Process I (I.Reply request) :=
  call request done

/-! ### Larger interfaces -/

/-- How the calls of one interface are made through another. -/
structure Inclusion (I J : Interface) where
  call : I.Call → J.Call
  reply : (request : I.Call) → J.Reply (call request) → I.Reply request

/-- The same process over the larger interface. -/
def embed (inclusion : Inclusion I J) : Process I α → Process J α
  | done value => done value
  | call request next =>
    call (inclusion.call request) fun reply =>
      (next (inclusion.reply request reply)).embed inclusion

/-! ### Answering -/

/-- Follows a process whose calls are answered from a state, as far as answers go. -/
def follow {σ : Type} (answer : (request : I.Call) → σ → Option (I.Reply request) × σ) :
    Process I α → σ → Option α × σ
  | done value, state => (some value, state)
  | call request next, state =>
    match answer request state with
    | (some reply, state) => (next reply).follow answer state
    | (none, state) => (none, state)

/-- The value of a process whose every call is answered in the same way throughout. -/
def answered (answer : (request : I.Call) → I.Reply request) : Process I α → α
  | done value => value
  | call request next => (next (answer request)).answered answer

/-! ### Paths -/

/-- A call and the reply it was given. -/
structure Exchange (I : Interface) where
  request : I.Call
  reply : I.Reply request

/-- The process makes these calls, is given these replies, and ends with this value. -/
inductive Runs : Process I α → List (Exchange I) → α → Prop where
  | done (value : α) : Runs (.done value) [] value
  | call {request : I.Call} {next : I.Reply request → Process I α} {reply : I.Reply request}
      {exchanges : List (Exchange I)} {value : α} (rest : Runs (next reply) exchanges value) :
      Runs (.call request next) (⟨request, reply⟩ :: exchanges) value

/-- A path through a sequence is a path through its first part and one through what follows. -/
theorem runs_bind {process : Process I α} {next : α → Process I β}
    {exchanges : List (Exchange I)} {result : β} :
    Runs (process.bind next) exchanges result ↔
      ∃ before value after, exchanges = before ++ after ∧ Runs process before value ∧
        Runs (next value) after result := by
  induction process generalizing exchanges with
  | done value =>
    constructor
    · intro run
      exact ⟨[], value, exchanges, rfl, .done value, run⟩
    · rintro ⟨before, value, after, rfl, first, second⟩
      cases first
      exact second
  | call request rest inductionHypothesis =>
    constructor
    · intro run
      cases run with
      | call run =>
        obtain ⟨before, value, after, equal, first, second⟩ := (inductionHypothesis _).mp run
        exact ⟨_ :: before, value, after, by rw [equal]; rfl, .call first, second⟩
    · rintro ⟨before, value, after, rfl, first, second⟩
      cases first with
      | call first =>
        exact .call ((inductionHypothesis _).mpr ⟨_, value, after, rfl, first, second⟩)

end Process

end Zonecast
