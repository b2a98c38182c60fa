/-
No successor takes over before resolvers can know it. A zone has one tag for all of its keys, and a
pass activates whichever inactive zone signing key is listed first, which after failed calls need
not be the one that the tag was written for. Still no key is activated too early. Passes ask for a
successor only as long as the account names no time of a successor, and the time that they tag then
lies a whole window after their own reading of the clock, hence after that of every earlier pass.
So whenever the account names the time of a successor, the windows of all keys published so far end
by that time.

Nothing about the keys is needed for this. The backend may list any keys, may do what it was asked
or not, and may answer either way; a pass may be abandoned at any call. Only the account is taken to
be written by nobody else.
-/
import Zonecast.Proofs.SpareKeys

namespace Zonecast

namespace Instant

theorem toMillis_addMillis (millis delay : Int) :
    ((ofMillis millis).addMillis delay).toMillis = millis + delay := by
  simp only [ofMillis, addMillis, toMillis]
  omega

theorem ofMillis_le_iff (first second : Int) :
    (ofMillis first).le (ofMillis second) = true ↔ first ≤ second := by
  rw [le_iff]
  simp only [ofMillis]
  omega

end Instant

namespace Upkeep

open Process Zone

/-! ### The account -/

/-- What a call can make of the account of a zone. However it is answered, it leaves the account as
it is, or it has stored what it was asked to store. The clock shows one time throughout a pass. -/
inductive Touches (zone : String) (instant : Instant) :
    (request : Call) → Zonecast.Upkeep.Reply request → Option String → Option String → Prop
  | unchanged (request : Backend.Call) (reply : Except Backend.Error (Backend.Value request))
      (account : Option String) :
    Touches zone instant (.backend request) reply account account
  | stored (settings : Settings) (reply : Except Backend.Error Unit) (account : Option String) :
    Touches zone instant (.backend (.updateZone zone settings)) reply account
      (settings.account.or account)
  | read (account : Option String) : Touches zone instant .now instant account account
  | countedFailure (check : Check) (account : Option String) :
    Touches zone instant (.countFailure check) () account account
  | countedRectifyFailure (account : Option String) :
    Touches zone instant .countRectifyFailure () account account

/-- A pass that may have been abandoned: the milliseconds that its clock shows and the calls that
were made with their replies. -/
structure Attempt where
  millis : Int
  exchanges : List (Exchange Upkeep)

namespace Attempt

/-- The reading of the clock. -/
def instant (attempt : Attempt) : Instant :=
  .ofMillis attempt.millis

/-- The pass asks for an inactive zone signing key, whatever comes of it. -/
def Publishes (zone : String) (attempt : Attempt) : Prop :=
  ∃ key reply, key.role = .zoneSigning ∧ key.active = false ∧
    ⟨.backend (.createKey zone key), reply⟩ ∈ attempt.exchanges

/-- The pass asks to activate the key of this number, whatever comes of it. -/
def Activates (zone : String) (number : UInt32) (attempt : Attempt) : Prop :=
  ∃ reply, ⟨.backend (.setKeyActive zone number true), reply⟩ ∈ attempt.exchanges

end Attempt

/-- Passes one after the other, each from the account that the one before it left. How the zone is
read otherwise is left open. -/
inductive Attempted (defaults : Defaults) (zone : String) :
    Option String → List Attempt → Option String → Prop
  | nil (account : Option String) : Attempted defaults zone account [] account
  | cons {before middle after : Option String} {attempt : Attempt} {attempts : List Attempt}
      (reading : Detail) (id : reading.id = zone) (fresh : reading.account = before)
      (proceeds : Proceeds (Touches zone attempt.instant) (checkSigning defaults reading).run
        before attempt.exchanges middle)
      (rest : Attempted defaults zone middle attempts after) :
    Attempted defaults zone before (attempt :: attempts) after

/-! ### One pass -/

/-- A pass that read this account asks for a successor only if none is awaited, and activates one
only if its time has come. -/
def Timely (account : Option String) (instant : Instant) : Call → Prop
  | .backend (.createKey _ key) => key.role = .zoneSigning → key.active = false →
    ∃ since, Rotation.ofAccount account = .expiring since
  | .backend (.setKeyActive _ _ _) =>
    ∃ since, Rotation.ofAccount account = .activating since ∧ since.le instant = true
  | _ => True

/-- The account is as it was, or the only time of a successor that it can name is a window later. -/
def Rewritten (defaults : Defaults) (instant : Instant) (before after : Option String) : Prop :=
  after = before ∨ ∀ since, Rotation.ofAccount after = .activating since →
    since = .ofMillis (instant.addMillis (activationDelay defaults)).toMillis

section Pass

variable {defaults : Defaults} {instant : Instant} {zone : String} {account : Option String}

theorem rewritten_expiring (since : Instant) :
    Rewritten defaults instant account (some (Rotation.expiring since).toAccount) :=
  Or.inr fun other state =>
    absurd state (Rotation.ofAccount_expiring_ne_activating since other)

theorem rewritten_activating :
    Rewritten defaults instant account
      (some (Rotation.activating (instant.addMillis (activationDelay defaults))).toAccount) :=
  Or.inr fun _ state => Rotation.eq_of_ofAccount_activating state

/-- Only an update of the zone touches the account. -/
theorem eq_of_touches {request : Backend.Call}
    {reply : Except Backend.Error (Backend.Value request)} {after : Option String}
    (other : ∀ settings, request ≠ .updateZone zone settings)
    (touches : Touches zone instant (.backend request) reply account after) : after = account := by
  cases touches with
  | unchanged => rfl
  | stored settings => exact absurd rfl (other settings)

/-- A call that leaves the account alone. -/
theorem upholds_aside_bind {α : Type} {request : Backend.Call}
    {next : Backend.Value request → Step α} {permits : Call → Prop} {good : Option String → Prop}
    (holds : good account) (permitted : permits (.backend request))
    (other : ∀ settings, request ≠ .updateZone zone settings)
    (rest : ∀ value,
      (next value).run.Upholds (I := Upkeep) (Touches zone instant) permits good account) :
    (ask request >>= next).run.Upholds (I := Upkeep) (Touches zone instant) permits good
      account := by
  refine upholds_ask_bind holds permitted (fun error after touches => ?_)
    fun value after touches => ?_
  · exact eq_of_touches other touches ▸ holds
  · exact eq_of_touches other touches ▸ rest value

/-- A rotation state is recorded, or not. -/
theorem rewritten_of_touches {state : Rotation} {rectify : Option Bool}
    {before after : Option String} {reply : Except Backend.Error Unit}
    (stored : Rewritten defaults instant before (some state.toAccount))
    (touches : Touches zone instant
      (.backend (.updateZone zone ⟨some state.toAccount, rectify⟩)) reply before after) :
    Rewritten defaults instant before after := by
  cases touches with
  | unchanged => exact Or.inl rfl
  | stored => exact stored

theorem upholds_recordRotation {reading : Detail} {state : Rotation} {rectify : Option Bool}
    {before : Option String} (stored : Rewritten defaults instant before (some state.toAccount)) :
    (recordRotation reading state rectify).run.Upholds (I := Upkeep) (Touches reading.id instant)
      (Timely before instant) (Rewritten defaults instant before) before :=
  upholds_ask (Or.inl rfl) trivial fun _ _ touches => rewritten_of_touches stored touches

theorem upholds_enableSigning {reading : Detail} :
    (enableSigning reading).run.Upholds (I := Upkeep) (Touches reading.id instant)
      (Timely account instant) (Rewritten defaults instant account) account := by
  have same : Rewritten defaults instant account account := Or.inl rfl
  refine upholds_aside_bind same (fun role => nomatch role) nofun fun _ => ?_
  refine upholds_aside_bind same (fun _ inactive => nomatch inactive) nofun fun _ => ?_
  refine upholds_aside_bind same trivial nofun fun _ => ?_
  refine ⟨same, trivial, fun now before timed => ?_⟩
  cases timed
  refine upholds_ask_bind same trivial (fun error after touches => ?_) fun _ after touches => ?_
  · exact rewritten_of_touches (rewritten_expiring _) touches
  have whole : Rewritten defaults instant account after :=
    rewritten_of_touches (rewritten_expiring _) touches
  refine ⟨whole, trivial, fun reply after rectified => ?_⟩
  cases rectified with
  | unchanged =>
    cases reply with
    | ok value => exact whole
    | error error =>
      refine ⟨whole, trivial, fun _ after counted => ?_⟩
      cases counted
      exact whole

theorem upholds_rotate {reading : Detail} {keys : List SigningKey} {active : SigningKey}
    (fresh : reading.account = account) :
    (rotate defaults reading keys active instant).run.Upholds (I := Upkeep)
      (Touches reading.id instant) (Timely account instant) (Rewritten defaults instant account)
      account := by
  have same : Rewritten defaults instant account account := Or.inl rfl
  unfold rotate
  rw [fresh]
  split
  · exact upholds_recordRotation (rewritten_expiring _)
  · rename_i since state
    split
    · refine upholds_aside_bind same (fun _ _ => ⟨since, state⟩) nofun fun _ => ?_
      exact upholds_recordRotation rewritten_activating
    · exact same
  · rename_i since state
    split
    · rename_i due
      unfold finishRollover
      dsimp only
      split
      · refine upholds_aside_bind same ⟨since, state, due⟩ nofun fun _ => ?_
        refine upholds_aside_bind same trivial nofun fun _ => ?_
        exact upholds_recordRotation (rewritten_expiring _)
      · exact same
    · exact same

/-- A pass makes timely calls only, and at every moment the account is as it was or rewritten. -/
theorem upholds_checkSigning {reading : Detail} (fresh : reading.account = account) :
    (checkSigning defaults reading).run.Upholds (I := Upkeep) (Touches reading.id instant)
      (Timely account instant) (Rewritten defaults instant account) account := by
  have same : Rewritten defaults instant account account := Or.inl rfl
  unfold checkSigning
  split
  · exact upholds_enableSigning
  · refine upholds_aside_bind same trivial nofun fun keys => ?_
    dsimp only
    split
    · refine ⟨same, trivial, fun now after timed => ?_⟩
      cases timed
      exact upholds_rotate fresh
    · exact same

end Pass

/-! ### Many passes -/

/-- If the account names the time of a successor, it is not before this one. -/
def Awaits (account : Option String) (millis : Int) : Prop :=
  ∀ since, Rotation.ofAccount account = .activating since →
    (Instant.ofMillis millis).le since = true

section Attempts

variable {defaults : Defaults} {zone : String} {before middle after : Option String}
  {attempt : Attempt} {attempts : List Attempt} {reading : Detail}

theorem timely_of_proceeds (id : reading.id = zone) (fresh : reading.account = before)
    (proceeds : Proceeds (Touches zone attempt.instant) (checkSigning defaults reading).run before
      attempt.exchanges middle) :
    Rewritten defaults attempt.instant before middle ∧
      ∀ exchange ∈ attempt.exchanges, Timely before attempt.instant exchange.request := by
  subst id
  exact (upholds_checkSigning fresh).of_proceeds proceeds

theorem Awaits.of_rewritten {time : Int} (awaits : Awaits before time)
    (within : time ≤ attempt.millis + activationDelay defaults)
    (rewritten : Rewritten defaults attempt.instant before after) : Awaits after time := by
  rcases rewritten with rfl | window
  · exact awaits
  · intro since state
    rw [window since state, Attempt.instant, Instant.toMillis_addMillis, Instant.ofMillis_le_iff]
    exact within

/-- A pass that asks for a successor found none awaited, so all it can name is the end of a window
that begins with it. -/
theorem awaits_of_publishes (publishes : attempt.Publishes zone)
    (timely : ∀ exchange ∈ attempt.exchanges, Timely before attempt.instant exchange.request)
    (rewritten : Rewritten defaults attempt.instant before after) :
    Awaits after (attempt.millis + activationDelay defaults) := by
  obtain ⟨key, reply, role, inactive, called⟩ := publishes
  obtain ⟨since, expires⟩ := timely _ called role inactive
  refine Awaits.of_rewritten (fun other state => ?_) (Int.le_refl _) rewritten
  cases expires.symm.trans state

/-- No key is activated before the time that is awaited. -/
theorem le_of_activates {time : Int} {number : UInt32} (awaits : Awaits before time)
    (timely : ∀ exchange ∈ attempt.exchanges, Timely before attempt.instant exchange.request)
    (activates : attempt.Activates zone number) : time ≤ attempt.millis := by
  obtain ⟨reply, called⟩ := activates
  obtain ⟨since, state, due⟩ := timely _ called
  exact (Instant.ofMillis_le_iff _ _).mp (Instant.le_trans (awaits since state) due)

/-- Nor does any later pass activate one, if its own window would end no earlier. -/
theorem Attempted.le_of_activates {time : Int} (awaits : Awaits before time)
    (attempted : Attempted defaults zone before attempts after)
    (within : ∀ attempt ∈ attempts, time ≤ attempt.millis + activationDelay defaults) :
    ∀ attempt ∈ attempts, ∀ number, attempt.Activates zone number → time ≤ attempt.millis := by
  induction attempted with
  | nil => exact List.forall_mem_nil _
  | cons reading id fresh proceeds rest inductionHypothesis =>
    obtain ⟨soon, later⟩ := List.forall_mem_cons.mp within
    obtain ⟨rewritten, timely⟩ := timely_of_proceeds id fresh proceeds
    exact List.forall_mem_cons.mpr
      ⟨fun number activates => Upkeep.le_of_activates awaits timely activates,
        inductionHypothesis (awaits.of_rewritten soon rewritten) later⟩

/-- A successor is not activated before its window of publication is over. Whatever the account of
a zone, the calls of many passes and their replies, and wherever passes are abandoned: between the
reading of a pass that asks for a zone signing key that does not sign yet and that of a later pass
that asks to activate a key, whichever it is, lie two TTLs. -/
theorem activated_after_window (defaults : Defaults) (zone : String) (before after : Option String)
    (attempts : List Attempt) (attempted : Attempted defaults zone before attempts after)
    (ordered : attempts.Pairwise fun earlier later => earlier.millis ≤ later.millis) :
    attempts.Pairwise fun earlier later : Attempt => earlier.Publishes zone →
      ∀ number, later.Activates zone number →
        earlier.millis + 2 * (defaults.ttl.toNat : Int) * 1000 ≤ later.millis := by
  induction attempted with
  | nil => exact .nil
  | cons reading id fresh proceeds rest inductionHypothesis =>
    obtain ⟨soonest, orderedRest⟩ := List.pairwise_cons.mp ordered
    refine .cons (fun later member publishes => ?_) (inductionHypothesis orderedRest)
    obtain ⟨rewritten, timely⟩ := timely_of_proceeds id fresh proceeds
    exact rest.le_of_activates (awaits_of_publishes publishes timely rewritten)
      (fun attempt among => Int.add_le_add_right (soonest attempt among) _) later member

end Attempts

/-! ### Passes to their end -/

section Checks

variable {defaults : Defaults} {zone : String} {before middle : Holding} {pass : Pass}

/-- What a call makes of the account, if it does what it was asked or fails. -/
theorem touches_of_replies {instant : Instant} {request : Call}
    {reply : Zonecast.Upkeep.Reply request} {before after : Holding}
    (replies : Replies zone instant request reply before after) :
    Touches zone instant request reply before.account after.account := by
  cases replies with
  | @served request value before after serves =>
    rw [serves.account]
    unfold accountAfter
    split
    · rename_i other settings
      split
      · rename_i same
        obtain rfl := eq_of_beq same
        exact .stored settings _ _
      · exact .unchanged _ _ _
    · exact .unchanged _ _ _
  | refused => exact .unchanged _ _ _
  | read => exact .read _
  | countedFailure => exact .countedFailure _ _
  | countedRectifyFailure => exact .countedRectifyFailure _

/-- A pass to its end is one that was not abandoned. -/
theorem Attempted.cons_checks (millis : Int) {attempts : List Attempt} {after : Option String}
    (checks : Checks defaults zone before pass middle) (reading : pass.instant = .ofMillis millis)
    (rest : Attempted defaults zone middle.account attempts after) :
    Attempted defaults zone before.account (⟨millis, pass.exchanges⟩ :: attempts) after := by
  obtain ⟨detail, fresh, path⟩ := checks
  refine .cons detail fresh.id fresh.account ?_ rest
  have proceeds := path.proceeds
  rw [reading] at proceeds
  exact proceeds.map Holding.account fun _ _ _ _ => touches_of_replies

end Checks

/-! ### A tag and an older key -/

/-- The time of the second successor has come. The first one is activated, and that is as far as the
pass gets. -/
def exampleTakenOver : Pass :=
  examplePass (.ofMillis 7201000) examplePiled
    [served (.setKeyActive "test." 3 true) (),
      refused (.deleteKey "test." 2) (.transport "delete_cryptokey")]
    (.error (.backend (.transport "delete_cryptokey")))

theorem checks_exampleTakenOver :
    Checks exampleDefaults "test." examplePiled exampleTakenOver
      { examplePiled with ring := examplePiled.ring.switching 3 true } := by
  have marked := marked_of_checks
    (marked_of_checks expiring_exampleHeld.toMarked checks_exampleUntagged) checks_exampleRetagged
  refine (checks_iff marked).mpr (Or.inr ⟨examplePiled.ring.keys,
    exampleKey 2 .zoneSigning true, _, ⟨.refl _, rfl⟩, rfl, ?_⟩)
  exact .undeleted _ (Rotation.ofAccount_activating (by decide)) (by decide) rfl rfl rfl _

/-- The window of a key that is activated by the tag of another. -/
theorem windows_exampleHeld :
    ∃ first second third : Attempt,
      Attempted exampleDefaults "test." exampleHeld.account [first, second, third]
        examplePiled.account ∧
      first.Publishes "test." ∧ second.Publishes "test." ∧ third.Activates "test." 3 ∧
      first.millis + 7200000 ≤ third.millis ∧ second.millis + 7200000 = third.millis := by
  have attempted := Attempted.cons_checks 0 checks_exampleUntagged rfl
    (Attempted.cons_checks 1000 checks_exampleRetagged rfl
      (Attempted.cons_checks 7201000 checks_exampleTakenOver rfl (.nil _)))
  have published : ∀ {stored : SigningKey} {millis : Int} {held : Holding}
      {rest : List (Exchange Upkeep)} {result : Except Error Unit}, Attempt.Publishes "test."
      ⟨millis, (examplePass (.ofMillis millis) held
        (served (.createKey "test." successorKey) stored :: rest) result).exchanges⟩ :=
    ⟨_, _, rfl, rfl, List.mem_append_right _ List.mem_cons_self⟩
  have activated : Attempt.Activates "test." 3 ⟨7201000, exampleTakenOver.exchanges⟩ :=
    ⟨_, List.mem_append_right _ List.mem_cons_self⟩
  have windows := activated_after_window exampleDefaults "test." _ _ _ attempted (by decide)
  obtain ⟨fromFirst, _⟩ := List.pairwise_cons.mp windows
  exact ⟨_, _, _, attempted, published, published, activated,
    fromFirst _ (List.mem_cons_of_mem _ List.mem_cons_self) published 3 activated, rfl⟩

end Upkeep

end Zonecast
