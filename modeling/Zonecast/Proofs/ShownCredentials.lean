/-
What those who show no credentials learn. A request shows a user name and a password if its header
is `Basic`, a space and the base64 of the two with a colon between, where spaces and tabs may stand
around the base64. Every other header, and every header whose user name or password is not the
configured one, is answered in one way, whatever else the request holds and whatever the service
has been through, and nobody is asked for anything before that answer.

The blanks are the only freedom. Base64 is read only in its one form, a text from its own bytes
only, and the user name ends at the first colon, so the password may hold colons and the user name
may not.
-/
import Mathlib.Data.List.TakeWhile
import Zonecast.Proofs.Acknowledgement
import Zonecast.Proofs.DecodedBytes

namespace Zonecast

namespace Text

/-! ### Blanks around a text -/

/-- A text is what trimming leaves of it, between blanks. -/
theorem exists_padded (text : List Char) :
    ∃ before after, (∀ c ∈ before ++ after, isBlank c = true) ∧
      text = before ++ (trimChars text ++ after) := by
  let rest := text.dropWhile isBlank
  refine ⟨text.takeWhile isBlank, (rest.reverse.takeWhile isBlank).reverse, ?_, ?_⟩
  · intro c member
    rcases List.mem_append.mp member with front | back
    · exact List.mem_takeWhile_imp front
    · exact List.mem_takeWhile_imp (List.mem_reverse.mp back)
  · have back : trimChars text ++ (rest.reverse.takeWhile isBlank).reverse = rest := by
      rw [trimChars, dropEnd, ← List.reverse_append, List.takeWhile_append_dropWhile,
        List.reverse_reverse]
    rw [back, List.takeWhile_append_dropWhile]

/-- Trimming takes the blanks away from around a text that starts and ends with none. -/
theorem trimChars_padded {before text after : List Char}
    (blank : ∀ c ∈ before ++ after, isBlank c = true) (some : text ≠ [])
    (plain : ∀ c ∈ text, isBlank c = false) :
    trimChars (before ++ (text ++ after)) = text := by
  have front : (before ++ (text ++ after)).dropWhile isBlank = text ++ after := by
    rw [List.dropWhile_append_of_pos fun c member => blank c (List.mem_append_left _ member)]
    refine dropWhile_append_of_head isBlank text after fun c head => ?_
    obtain ⟨first, rest, rfl⟩ := List.exists_cons_of_ne_nil some
    exact plain c (List.mem_of_head? head)
  have back : (text ++ after).reverse.dropWhile isBlank = text.reverse := by
    rw [List.reverse_append, List.dropWhile_append_of_pos fun c member =>
      blank c (List.mem_append_right _ (List.mem_reverse.mp member))]
    have unmoved := dropWhile_append_of_head isBlank text.reverse [] fun c head => by
      rw [List.append_nil, List.head?_reverse] at head
      exact plain c (List.mem_of_getLast? head)
    rwa [List.append_nil] at unmoved
  rw [trimChars, front, dropEnd, back, List.reverse_reverse]

end Text

namespace Api

open Process Text

/-! ### Header values -/

/-- A header value shows a user name and a password. -/
structure Shows (value : List Char) (username password : String) : Prop where
  named : ':' ∉ username.toList
  written : ∃ before after, (∀ c ∈ before ++ after, c = ' ' ∨ c = '\t') ∧
    value = "Basic ".toList ++
      (before ++ (Base64.encodePadded (utf8 (username ++ ":" ++ password)) ++ after))

/-- The characters of base64 can be seen and are not blank. -/
theorem visible_of_mem_encodePadded (bytes : List UInt8) :
    ∀ c ∈ Base64.encodePadded bytes, '!' ≤ c ∧ c ≤ '~' := by
  intro c member
  rcases List.mem_append.mp member with written | sign
  · exact Base64.forall_mem_encode (fun c => '!' ≤ c ∧ c ≤ '~') (by decide) bytes c written
  · rw [List.eq_of_mem_replicate sign]
    decide

/-- The base64 of a text is empty only if the text is. -/
theorem encodePadded_utf8_ne_nil {text : String} (some : text.toList ≠ []) :
    Base64.encodePadded (utf8 text) ≠ [] := by
  intro none
  have read := (Base64.decodePadded?_eq_some_iff [] (utf8 text)).mpr none.symm
  have bytes : [] = utf8 (String.ofList text.toList) := by
    rw [String.ofList_toList]
    exact Option.some.inj read
  have empty : ofUtf8? [] = Option.some [] := by
    rw [ofUtf8?, utf8Chars]
    rfl
  have same := (ofUtf8?_eq_some_iff [] text.toList).mpr bytes
  rw [empty] at same
  exact some (Option.some.inj same).symm

/-- What stands before the first colon of a text and what stands after it, if it has one. -/
def cutAtColon? (text : List Char) : Option (String × String) :=
  let username := text.takeWhile (· != ':')
  match text.drop username.length with
  | _ :: password => some (String.ofList username, String.ofList password)
  | [] => none

theorem cutAtColon?_eq_some_iff (text : List Char) (username password : String) :
    cutAtColon? text = some (username, password) ↔
      ':' ∉ username.toList ∧ text = username.toList ++ ':' :: password.toList := by
  have whole := List.takeWhile_append_dropWhile (p := (· != ':')) (l := text)
  have rest : text.drop (text.takeWhile (· != ':')).length = text.dropWhile (· != ':') :=
    (congrArg (List.drop _) whole.symm).trans List.drop_left
  unfold cutAtColon?
  dsimp only
  rw [rest]
  constructor
  · intro cut
    split at cut
    · rename_i c password' following
      have colon : c = ':' := by
        have fails := List.head?_dropWhile_not (· != ':') text
        rw [following] at fails
        simpa using fails
      rw [Option.some.injEq, Prod.mk.injEq] at cut
      obtain ⟨rfl, rfl⟩ := cut
      rw [String.toList_ofList, String.toList_ofList]
      refine ⟨fun member => ?_, ?_⟩
      · exact absurd (List.mem_takeWhile_imp member) (by decide)
      · rw [following, colon] at whole
        exact whole.symm
    · cases cut
  · rintro ⟨named, rfl⟩
    have front : ∀ c ∈ username.toList, (c != ':') = true := by
      intro c member
      rw [bne_iff_ne]
      rintro rfl
      exact named member
    rw [List.takeWhile_append_of_pos front, List.dropWhile_append_of_pos front,
      List.takeWhile_cons_of_neg (by decide), List.dropWhile_cons_of_neg (by decide),
      List.append_nil, String.ofList_toList]
    dsimp only
    rw [String.ofList_toList]

/-- A header value after `Basic` and a space. -/
theorem credentials?_basic (written : List Char) :
    credentials? ("Basic ".toList ++ written) =
      (Base64.decodePadded? (trimChars written)).bind fun bytes =>
        (ofUtf8? bytes).bind cutAtColon? := by
  rfl

/-- A header value is read as the user name and the password whose base64 it holds, blanks around
that aside. -/
theorem credentials?_eq_some_iff (value : List Char) (username password : String) :
    credentials? value = some (username, password) ↔ ':' ∉ username.toList ∧
      ∃ written, value = "Basic ".toList ++ written ∧
        trimChars written = Base64.encodePadded (utf8 (username ++ ":" ++ password)) := by
  have joined : username ++ ":" ++ password =
      String.ofList (username.toList ++ ':' :: password.toList) := by
    apply String.toList_injective
    simp only [String.toList_append, String.toList_ofList, List.append_assoc]
    rfl
  have readAs : ∀ written, credentials? ("Basic ".toList ++ written) = some (username, password) ↔
      ':' ∉ username.toList ∧
        trimChars written = Base64.encodePadded (utf8 (username ++ ":" ++ password)) := by
    intro written
    rw [credentials?_basic, joined]
    simp only [Option.bind_eq_some_iff, Base64.decodePadded?_eq_some_iff, ofUtf8?_eq_some_iff,
      cutAtColon?_eq_some_iff]
    constructor
    · rintro ⟨bytes, trimmed, text, rfl, named, rfl⟩
      exact ⟨named, trimmed⟩
    · rintro ⟨named, trimmed⟩
      exact ⟨_, trimmed, _, rfl, named, rfl⟩
  constructor
  · intro read
    have basic : ∃ written, value = "Basic ".toList ++ written := by
      unfold credentials? at read
      split at read
      · exact ⟨_, rfl⟩
      · cases read
    obtain ⟨written, rfl⟩ := basic
    obtain ⟨named, trimmed⟩ := (readAs written).mp read
    exact ⟨named, written, rfl, trimmed⟩
  · rintro ⟨named, written, rfl, trimmed⟩
    exact (readAs written).mpr ⟨named, trimmed⟩

/-! ### Requests -/

theorem isVisible_iff (value : List Char) :
    Request.isVisible value = true ↔ ∀ c ∈ value, c = '\t' ∨ (' ' ≤ c ∧ c ≤ '~') := by
  simp only [Request.isVisible, List.all_eq_true, Bool.or_eq_true, beq_iff_eq, Bool.and_eq_true,
    decide_eq_true_eq]

/-- A blank that can be seen is a space or a tab. -/
theorem space_or_tab {c : Char} (visible : c = '\t' ∨ (' ' ≤ c ∧ c ≤ '~'))
    (blank : isBlank c = true) : c = ' ' ∨ c = '\t' := by
  rcases visible with tab | ⟨low, high⟩
  · exact Or.inr tab
  · by_cases space : c = ' '
    · exact Or.inl space
    · have above : '!' ≤ c := by
        have least : 32 ≤ c.toNat := low
        have apart : c.toNat ≠ 32 := fun same => space (Char.toNat_inj.mp same)
        show 33 ≤ c.toNat
        omega
      rw [isBlank_of_visible c above high] at blank
      cases blank

/-- What a header value shows is what is read from it. -/
theorem credentials?_of_shows {value : List Char} {username password : String}
    (shows : Shows value username password) :
    credentials? value = some (username, password) := by
  obtain ⟨before, after, spaces, whole⟩ := shows.written
  have filled : (username ++ ":" ++ password).toList ≠ [] := by
    simp only [String.toList_append]
    exact List.append_ne_nil_of_left_ne_nil
      (List.append_ne_nil_of_right_ne_nil _ (by decide)) _
  refine (credentials?_eq_some_iff value username password).mpr ⟨shows.named, _, whole, ?_⟩
  refine trimChars_padded (fun c member => ?_) (encodePadded_utf8_ne_nil filled) fun c member => ?_
  · rcases spaces c member with rfl | rfl <;> decide
  · have seen := visible_of_mem_encodePadded _ c member
    exact isBlank_of_visible c seen.1 seen.2

/-- A header value that shows something can be seen. -/
theorem isVisible_of_shows {value : List Char} {username password : String}
    (shows : Shows value username password) : Request.isVisible value = true := by
  obtain ⟨before, after, spaces, rfl⟩ := shows.written
  have blanks : ∀ c ∈ before ++ after, c = '\t' ∨ (' ' ≤ c ∧ c ≤ '~') := by
    intro c member
    rcases spaces c member with rfl | rfl <;> decide
  have basic := (isVisible_iff "Basic ".toList).mp rfl
  refine (isVisible_iff _).mpr fun c member => ?_
  rcases List.mem_append.mp member with front | rest
  · exact basic c front
  · rcases List.mem_append.mp rest with blank | rest
    · exact blanks c (List.mem_append_left _ blank)
    · rcases List.mem_append.mp rest with written | blank
      · have seen := visible_of_mem_encodePadded _ c written
        exact Or.inr ⟨Char.le_trans (by decide) seen.1, seen.2⟩
      · exact blanks c (List.mem_append_right _ blank)

/-- A request shows the credentials that its first header of that name holds. -/
theorem Request.credentials?_eq_some_iff (request : Request) (username password : String) :
    request.credentials? = some (username, password) ↔
      ∃ value, request.header? "authorization" = some value ∧
        Shows value.toList username password := by
  simp only [Request.credentials?, Request.visibleHeader?, Option.bind_eq_some_iff,
    Option.filter_eq_some_iff, Option.map_eq_some_iff]
  constructor
  · rintro ⟨_, ⟨⟨value, header, rfl⟩, visible⟩, read⟩
    obtain ⟨named, written, whole, trimmed⟩ := (Api.credentials?_eq_some_iff _ _ _).mp read
    obtain ⟨before, after, blank, padded⟩ := exists_padded written
    rw [trimmed] at padded
    rw [isVisible_iff, whole, padded] at visible
    refine ⟨value, header, named, before, after, fun c member => ?_, whole.trans (padded ▸ rfl)⟩
    refine space_or_tab (visible c (List.mem_append_right _ ?_)) (blank c member)
    rcases List.mem_append.mp member with front | back
    · exact List.mem_append_left _ front
    · exact List.mem_append_right _ (List.mem_append_right _ back)
  · rintro ⟨value, header, shows⟩
    exact ⟨value.toList, ⟨⟨value, header, rfl⟩, isVisible_of_shows shows⟩,
      credentials?_of_shows shows⟩

/-- The header value made of a user name and a password shows the two. -/
theorem shows_credentialsHeader {username : String} (password : String)
    (named : ':' ∉ username.toList) :
    Shows (credentialsHeader username password) username password := by
  refine ⟨named, [], [], List.forall_mem_nil _, ?_⟩
  rw [List.nil_append, List.append_nil]
  rfl

/-! ### Authorization -/

/-- A request shows the credentials that a queue is configured with. -/
def Request.ShowsOwn (request : Request) (queue : Configuration.Credentials) : Prop :=
  ∃ value password, request.header? "authorization" = some value ∧
    Shows value.toList queue.username password ∧
    Password.verify queue.passwordHash password = some true

/-- A request is authorized if it shows the configured credentials, and only then. -/
theorem isAuthorized_eq_some_true_iff (queue : Configuration.Credentials) (request : Request) :
    isAuthorized queue request = some true ↔ request.ShowsOwn queue := by
  unfold isAuthorized Request.ShowsOwn
  constructor
  · intro authorized
    split at authorized
    · rename_i username password shown
      split at authorized
      · rename_i same
        subst same
        obtain ⟨value, header, shows⟩ :=
          (Request.credentials?_eq_some_iff request _ password).mp shown
        exact ⟨value, password, header, shows, authorized⟩
      · cases authorized
    · cases authorized
  · rintro ⟨value, password, header, shows, verified⟩
    rw [(Request.credentials?_eq_some_iff request queue.username password).mpr
      ⟨value, header, shows⟩]
    dsimp only
    rw [if_pos rfl, verified]

/-- Whether a request is authorized is known if the configured password record is one. -/
theorem isAuthorized_ne_none {queue : Configuration.Credentials}
    (recorded : (Password.Record.read? queue.passwordHash).isSome) (request : Request) :
    isAuthorized queue request ≠ none := by
  obtain ⟨record, read⟩ := Option.isSome_iff_exists.mp recorded
  unfold isAuthorized
  split
  · split
    · rw [Password.verify, read]
      exact Option.some_ne_none _
    · exact Option.some_ne_none _
  · exact Option.some_ne_none _

/-- A request posts a batch without the credentials of a queue that is configured with a password
record. -/
structure Unauthenticated (configuration : Configuration) (request : Request) : Prop where
  posted : request.method = "POST"
  path : request.path = publishPath
  recorded : (Password.Record.read? configuration.queue.passwordHash).isSome
  unshown : ¬ request.ShowsOwn configuration.queue

/-- It is turned away before any call. -/
theorem respond_of_unauthenticated {configuration : Configuration} {request : Request}
    (unauthenticated : Unauthenticated configuration request) :
    respond configuration request = .done .unauthorized := by
  have known := isAuthorized_ne_none unauthenticated.recorded request
  have denied := unauthenticated.unshown
  rw [← isAuthorized_eq_some_true_iff] at denied
  rw [respond_of_posted _ _ unauthenticated.posted unauthenticated.path, publish]
  rcases authorized : isAuthorized configuration.queue request with _ | (_ | _)
  · exact absurd authorized known
  · rfl
  · exact absurd authorized denied

/-- Those who show no credentials learn nothing and change nothing. Two such requests, to services
that are configured in any way and have been through anything, are answered alike, with 401, before
any call; what the services hold, metrics included, stays as it is. Those who hold credentials can
show them: what is made of a user name without colons and a password is read back as the two. -/
theorem unauthenticated_learn_nothing (configuration other : Configuration)
    (first second : Request) (one : Unauthenticated configuration first)
    (two : Unauthenticated other second) :
    respond configuration first = .done .unauthorized ∧
    respond other second = .done .unauthorized ∧
    Response.unauthorized.status = 401 ∧
    (∀ {σ τ : Type} (answer : (request : ApiCall) → σ → Option (Zonecast.Api.Reply request) × σ)
      (reply : (request : ApiCall) → τ → Option (Zonecast.Api.Reply request) × τ)
      (state : σ) (elsewhere : τ),
      (respond configuration first).follow answer state = (some .unauthorized, state) ∧
      (respond other second).follow reply elsewhere = (some .unauthorized, elsewhere)) ∧
    ∀ username password, ':' ∉ username.toList →
      credentials? (credentialsHeader username password) = some (username, password) ∧
      ∀ request : Request, request.header? "authorization" =
          some (String.ofList (credentialsHeader username password)) →
        request.credentials? = some (username, password) := by
  rw [respond_of_unauthenticated one, respond_of_unauthenticated two]
  refine ⟨rfl, rfl, rfl, fun _ _ _ _ => ⟨rfl, rfl⟩, fun username password named => ?_⟩
  have shows := shows_credentialsHeader password named
  have carried : ∀ request : Request, request.header? "authorization" =
      some (String.ofList (credentialsHeader username password)) →
      request.credentials? = some (username, password) := by
    intro request header
    refine (Request.credentials?_eq_some_iff request username password).mpr ⟨_, header, ?_⟩
    rwa [String.toList_ofList]
  exact ⟨credentials?_of_shows shows, carried⟩

/-! ### Requests that are turned away, and one that is not -/

/-- The record of the password in a configuration is one. -/
theorem recorded_exampleConfiguration :
    (Password.Record.read? exampleConfiguration.queue.passwordHash).isSome := by
  have verified : Password.verify exampleConfiguration.queue.passwordHash "s3cret" = some true :=
    Password.verify_hash _ _ (by decide) (by decide)
  rw [Password.verify, Option.map_eq_some_iff] at verified
  obtain ⟨record, read, _⟩ := verified
  rw [read]
  rfl

/-- A configuration whose queue goes by another name. -/
def renamedConfiguration : Configuration :=
  { exampleConfiguration with queue := { exampleConfiguration.queue with username := "tasks" } }

/-- A request without headers. -/
def bareRequest : Request := ⟨"POST", publishPath, [], "tld=test"⟩

theorem unauthenticated_bareRequest : Unauthenticated exampleConfiguration bareRequest := by
  refine ⟨rfl, rfl, recorded_exampleConfiguration, ?_⟩
  rintro ⟨value, password, header, _⟩
  cases header

theorem unauthenticated_exampleRequest : Unauthenticated renamedConfiguration exampleRequest := by
  refine ⟨rfl, rfl, recorded_exampleConfiguration, ?_⟩
  rintro ⟨value, password, header, shows, _⟩
  have shown : exampleRequest.credentials? = some ("queue", "s3cret") := by decide +kernel
  rw [(Request.credentials?_eq_some_iff exampleRequest _ password).mpr ⟨value, header, shows⟩,
    Option.some.injEq, Prod.mk.injEq] at shown
  exact absurd shown.1 (by decide)

/-- No header and a header for another name are answered alike, and a password with colons is read
back. -/
theorem turnedAway_exampleRequests :
    Unauthenticated exampleConfiguration bareRequest ∧
    Unauthenticated renamedConfiguration exampleRequest ∧
    respond exampleConfiguration bareRequest = .done .unauthorized ∧
    respond renamedConfiguration exampleRequest = .done .unauthorized ∧
    credentials? (credentialsHeader "queue" "s3cret:with:colons") =
      some ("queue", "s3cret:with:colons") := by
  obtain ⟨first, second, _, _, shown⟩ := unauthenticated_learn_nothing exampleConfiguration
    renamedConfiguration bareRequest exampleRequest unauthenticated_bareRequest
    unauthenticated_exampleRequest
  exact ⟨unauthenticated_bareRequest, unauthenticated_exampleRequest, first, second,
    (shown "queue" "s3cret:with:colons" (by decide)).1⟩

/-- A request with one space more than it needs before its base64. -/
def spacedRequest : Request :=
  ⟨"POST", publishPath, [("authorization", "Basic  cXVldWU6czNjcmV0")], ""⟩

/-- A second space before the base64 does not matter, though no base64 begins with one: the
credentials are accepted and the request is turned away for its missing type. -/
theorem spaced_credentials_accepted :
    (Password.Record.read? exampleConfiguration.queue.passwordHash).isSome ∧
    spacedRequest.method = "POST" ∧ spacedRequest.path = publishPath ∧
    (∀ header ∈ spacedRequest.headers, ∀ bytes,
      header.2.toList ≠ "Basic ".toList ++ Base64.encodePadded bytes) ∧
    respond exampleConfiguration spacedRequest = .done (.failure 400
      "Form requests must have \x60Content-Type: application/x-www-form-urlencoded\x60") := by
  refine ⟨recorded_exampleConfiguration, rfl, rfl, fun header member bytes same => ?_, ?_⟩
  · rw [List.mem_singleton.mp member] at same
    have whole : "Basic ".toList ++ " cXVldWU6czNjcmV0".toList =
        "Basic ".toList ++ Base64.encodePadded bytes := same
    have rest := List.append_cancel_left whole
    have space : ' ' ∈ Base64.encodePadded bytes := rest ▸ List.mem_cons_self
    exact absurd (visible_of_mem_encodePadded bytes ' ' space).1 (by decide)
  · have shown : spacedRequest.credentials? = some ("queue", "s3cret") := by decide +kernel
    have authorized : isAuthorized exampleConfiguration.queue spacedRequest = some true := by
      rw [isAuthorized, shown]
      exact Password.verify_hash _ _ (by decide) (by decide)
    rw [respond_of_posted _ _ rfl rfl, publish, authorized]
    rfl

end Api

end Zonecast
