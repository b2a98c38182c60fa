/-
Processes that are followed for a while. A process may be left before it is done: because one asks
what holds halfway, or because it is abandoned for good. What it has called for by then, and what
came of it, is again a path, only that its end is open.

A statement about every such moment is carried along the process itself. At each call it is said
what the state is like and that the call is permitted there, and the rest is said of what follows,
for every reply that the call may be met with. A statement about the end alone is carried along in
the same way; it holds of the paths that lead there.
-/
import Zonecast.Proofs.SigningPasses

namespace Zonecast.Process

variable {I : Interface} {σ τ α β : Type}

/-! ### Moments of a process -/

/-- The process makes these calls first, each met in the state that the one before it left. -/
inductive Proceeds (meets : (request : I.Call) → I.Reply request → σ → σ → Prop) :
    Process I α → σ → List (Exchange I) → σ → Prop
  | left (process : Process I α) (state : σ) : Proceeds meets process state [] state
  | call {request : I.Call} {next : I.Reply request → Process I α} {reply : I.Reply request}
      {before middle after : σ} {exchanges : List (Exchange I)}
      (met : meets request reply before middle)
      (rest : Proceeds meets (next reply) middle exchanges after) :
    Proceeds meets (.call request next) before (⟨request, reply⟩ :: exchanges) after

/-- However its calls are met, the process calls for what is permitted only, and all states that it
passes through are good. -/
def Upholds (meets : (request : I.Call) → I.Reply request → σ → σ → Prop) (permits : I.Call → Prop)
    (good : σ → Prop) : Process I α → σ → Prop
  | .done _, state => good state
  | .call request next, state => good state ∧ permits request ∧
    ∀ reply after, meets request reply state after → (next reply).Upholds meets permits good after

section Moments

variable {meets : (request : I.Call) → I.Reply request → σ → σ → Prop} {permits : I.Call → Prop}
  {good : σ → Prop} {process : Process I α} {before after : σ} {exchanges : List (Exchange I)}

theorem Upholds.at_start (upholds : process.Upholds meets permits good before) : good before := by
  cases process with
  | done value => exact upholds
  | call request next => exact upholds.1

/-- At every moment the state is good, and what was called for was permitted. -/
theorem Upholds.of_proceeds (upholds : process.Upholds meets permits good before)
    (proceeds : Proceeds meets process before exchanges after) :
    good after ∧ ∀ exchange ∈ exchanges, permits exchange.request := by
  induction proceeds with
  | left process state => exact ⟨upholds.at_start, List.forall_mem_nil _⟩
  | call met rest inductionHypothesis =>
    obtain ⟨whole, permitted⟩ := inductionHypothesis (upholds.2.2 _ _ met)
    exact ⟨whole, List.forall_mem_cons.mpr ⟨upholds.2.1, permitted⟩⟩

/-- What a process comes to is seen in the same way in a coarser state. -/
theorem Proceeds.map {coarser : (request : I.Call) → I.Reply request → τ → τ → Prop} (view : σ → τ)
    (carries : ∀ request reply before after, meets request reply before after →
      coarser request reply (view before) (view after))
    (proceeds : Proceeds meets process before exchanges after) :
    Proceeds coarser process (view before) exchanges (view after) := by
  induction proceeds with
  | left process state => exact .left process (view state)
  | call met rest inductionHypothesis => exact .call (carries _ _ _ _ met) inductionHypothesis

/-- A sequence upholds what its first part does, and then what follows. -/
theorem Upholds.bind {next : α → Process I β} (first : process.Upholds meets permits good before)
    (rest : ∀ value after, good after → (next value).Upholds meets permits good after) :
    (process.bind next).Upholds meets permits good before := by
  induction process generalizing before with
  | done value => exact rest value before first
  | call request more inductionHypothesis =>
    exact ⟨first.1, first.2.1, fun reply after met =>
      inductionHypothesis reply (first.2.2 reply after met)⟩

/-- How calls are met if those of them that are made are among these. -/
def Within (whole : List (Exchange I))
    (meets : (request : I.Call) → I.Reply request → σ → σ → Prop) (request : I.Call)
    (reply : I.Reply request) (before after : σ) : Prop :=
  ⟨request, reply⟩ ∈ whole ∧ meets request reply before after

/-- The calls that a process comes to make are among themselves. -/
theorem Proceeds.within (proceeds : Proceeds meets process before exchanges after) :
    Proceeds (Within exchanges meets) process before exchanges after := by
  have among : ∀ whole, exchanges ⊆ whole →
      Proceeds (Within whole meets) process before exchanges after := by
    induction proceeds with
    | left process state => exact fun _ _ => .left process state
    | call met rest inductionHypothesis =>
      intro whole more
      obtain ⟨member, others⟩ := List.cons_subset.mp more
      exact .call ⟨member, met⟩ (inductionHypothesis whole others)
  exact among exchanges (List.Subset.refl _)

end Moments

/-! ### The end of a process -/

/-- However its calls are met, a process ends with a value and in a state that are good. -/
def Yields (meets : (request : I.Call) → I.Reply request → σ → σ → Prop) (good : α → σ → Prop) :
    Process I α → σ → Prop
  | .done value, state => good value state
  | .call request next, state =>
    ∀ reply after, meets request reply state after → (next reply).Yields meets good after

section Ends

variable {meets : (request : I.Call) → I.Reply request → σ → σ → Prop} {process : Process I α}
  {good : α → σ → Prop} {before after : σ} {exchanges : List (Exchange I)}

theorem Yields.of_runs {value : α} (yields : process.Yields meets good before)
    (runs : Runs process exchanges value)
    (proceeds : Proceeds meets process before exchanges after) : good value after := by
  induction runs generalizing before with
  | done value =>
    cases proceeds
    exact yields
  | call rest inductionHypothesis =>
    cases proceeds with
    | call met onwards => exact inductionHypothesis (yields _ _ met) onwards

theorem Yields.mono {other : α → σ → Prop} (yields : process.Yields meets good before)
    (weaker : ∀ value after, good value after → other value after) :
    process.Yields meets other before := by
  induction process generalizing before with
  | done value => exact weaker value before yields
  | call request next inductionHypothesis =>
    exact fun reply after met => inductionHypothesis reply (yields reply after met)

/-- A sequence ends well if its first part ends where the rest does. -/
theorem yields_bind {next : α → Process I β} {good : β → σ → Prop} :
    (process.bind next).Yields meets good before ↔
      process.Yields meets (fun value after => (next value).Yields meets good after) before := by
  induction process generalizing before with
  | done value => exact Iff.rfl
  | call request more inductionHypothesis =>
    exact forall_congr' fun reply => forall₂_congr fun _ _ => inductionHypothesis reply

/-- What every call of a process keeps is kept to its end. -/
theorem Yields.keep {kind : I.Call → Prop} {invariant : σ → Prop}
    (yields : process.Yields meets good before) (only : process.Only kind)
    (keeps : ∀ request reply before after, kind request → meets request reply before after →
      invariant before → invariant after) (start : invariant before) :
    process.Yields meets (fun value after => good value after ∧ invariant after) before := by
  induction process generalizing before with
  | done value => exact ⟨yields, start⟩
  | call request next inductionHypothesis =>
    exact fun reply after met => inductionHypothesis reply (yields reply after met) (only.2 reply)
      (keeps _ _ _ _ only.1 met start)

end Ends

end Zonecast.Process

namespace Zonecast.Upkeep

open Process Zone

/-! ### Moments of a pass -/

section Rules

variable {σ α : Type}
  {meets : (request : Call) → Zonecast.Upkeep.Reply request → σ → σ → Prop}
  {permits : Call → Prop} {good : σ → Prop} {state : σ}

/-- A backend call may fail, and that is the end, or succeed, and the process goes on. -/
theorem upholds_ask_bind {request : Backend.Call} {next : Backend.Value request → Step α}
    (holds : good state) (permitted : permits (.backend request))
    (fails : ∀ error after, meets (.backend request) (.error error) state after → good after)
    (rest : ∀ value after, meets (.backend request) (.ok value) state after →
      (next value).run.Upholds (I := Upkeep) meets permits good after) :
    (ask request >>= next).run.Upholds (I := Upkeep) meets permits good state := by
  rw [run_ask_bind]
  refine ⟨holds, permitted, fun reply after met => ?_⟩
  cases reply with
  | ok value => exact rest value after met
  | error error => exact fails error after met

/-- A backend call that is the last of a process. -/
theorem upholds_ask {request : Backend.Call} (holds : good state)
    (permitted : permits (.backend request))
    (met : ∀ reply after, meets (.backend request) reply state after → good after) :
    (ask request).run.Upholds (I := Upkeep) meets permits good state :=
  ⟨holds, permitted, met⟩

end Rules

/-- A path of a process to its end is one to a moment of it. -/
theorem Path.proceeds {zone : String} {instant : Instant} {α : Type} {process : Process Upkeep α}
    {before after : Holding} {exchanges : List (Exchange Upkeep)} {result : α}
    (path : Path zone instant process before exchanges after result) :
    Proceeds (Replies zone instant) process before exchanges after := by
  induction process generalizing before exchanges with
  | done value =>
    obtain ⟨rfl, rfl, rfl⟩ := path_done.mp path
    exact .left _ _
  | call request next inductionHypothesis =>
    obtain ⟨reply, middle, rest, rfl, replies, onwards⟩ := path_call.mp path
    exact .call replies (inductionHypothesis reply onwards)

end Zonecast.Upkeep
