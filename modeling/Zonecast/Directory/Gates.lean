/-
Gates before the memory of zone ids. A gate is a lock that is handed on in the order in which it was
asked for. The table has one under each name for which calls are under way, and every such call
holds a clone of the table's reference to it. A call that has had its turn counts the references to
its gate: if only the table and the call itself refer to it, the call takes it out of the table.
A call that is abandoned drops its clone without a look at the table.
-/

namespace Zonecast.Directory

/-- A gate, told from others by when it was made. -/
structure Gate where
  serial : Nat
  deriving DecidableEq, Repr

/-- The clone of a reference to a gate that a call for a name holds, with the number of the process
that makes the call. -/
structure Clone where
  process : Nat
  name : String
  gate : Gate
  deriving DecidableEq, Repr

/-- Whether the clone is held by the call of a process for a name. -/
def Clone.isOf (clone : Clone) (name : String) (process : Nat) : Bool :=
  clone.name == name && clone.process == process

/-- The table of gates, the clones that calls hold, the lines before all gates, each place with its
gate and its process, and how many gates were made so far. -/
structure Gates where
  table : List (String × Gate)
  clones : List Clone
  lines : List (Gate × Nat)
  made : Nat
  deriving Repr

namespace Gates

def empty : Gates := ⟨[], [], [], 0⟩

/-- The gate in the table under a name. -/
def gate? (gates : Gates) (name : String) : Option Gate :=
  (gates.table.find? fun entry => entry.1 == name).map (·.2)

/-- The gate that the call of a process for a name holds a clone of. -/
def held? (gates : Gates) (name : String) (process : Nat) : Option Gate :=
  (gates.clones.find? fun clone => clone.isOf name process).map (·.gate)

/-- How many refer to a gate: the table, and every call that holds a clone. -/
def references (gates : Gates) (gate : Gate) : Nat :=
  gates.table.countP (fun entry => entry.2 == gate) +
    gates.clones.countP fun clone => clone.gate == gate

/-- The processes that stand before a gate, in order of arrival; the first of them has its turn. -/
def line (gates : Gates) (gate : Gate) : List Nat :=
  (gates.lines.filter fun place => place.1 == gate).map (·.2)

/-- The gate in the table under a name, where a new one is put if there is none. -/
def ensure (gates : Gates) (name : String) : Gate × Gates :=
  match gates.gate? name with
  | some gate => (gate, gates)
  | none =>
    let gate : Gate := ⟨gates.made⟩
    (gate, { gates with table := (name, gate) :: gates.table, made := gates.made + 1 })

/-- A call takes a clone of the gate of its name and goes to the end of the line. -/
def enter (gates : Gates) (name : String) (process : Nat) : Gates :=
  let (gate, gates) := gates.ensure name
  { gates with
    clones := gates.clones ++ [⟨process, name, gate⟩]
    lines := gates.lines ++ [(gate, process)] }

/-- Whether the call of a process for a name has its turn at the gate that it holds a clone of. -/
def hasTurn (gates : Gates) (name : String) (process : Nat) : Bool :=
  (gates.held? name process).any fun gate => (gates.line gate).head? == some process

/-- A call gives up its turn. The gate is taken out of the table if nobody else refers to it, and
the clone is dropped. -/
def leave (gates : Gates) (name : String) (process : Nat) : Gates :=
  match gates.held? name process with
  | none => gates
  | some gate =>
    { gates with
      table :=
        if gates.references gate == 2 then gates.table.filter fun entry => entry.1 != name
        else gates.table
      clones := gates.clones.filter fun clone => !clone.isOf name process
      lines := gates.lines.filter fun place => place != (gate, process) }

/-- Who has the turn once a call has given it up. -/
def successor? (gates : Gates) (name : String) (process : Nat) : Option Nat :=
  (gates.held? name process).bind fun gate => ((gates.leave name process).line gate).head?

/-- A process that is abandoned drops its clones and leaves all lines; the table stays. -/
def abandon (gates : Gates) (process : Nat) : Gates :=
  { gates with
    clones := gates.clones.filter fun clone => clone.process != process
    lines := gates.lines.filter fun place => place.2 != process }

end Gates

end Zonecast.Directory
