import Xoxproxy.Api.Routes

/-!
# Who reaches a handler

Behind the guards stands a session that a successful login has minted and
that nothing has revoked, and behind a mutation its CSRF token, whatever
else goes on at the service meanwhile.
-/

namespace Xoxproxy.Api

open RoutePatterns EffectPrograms Auth

/-- The token that `withSession` has validated for a request. -/
def Request.validates (request : Request) : Option String :=
  match spaRouter request with
  | .endpoint endpoint =>
      if endpoint.session then
        request.sender.cookie.filter fun token => token ≠ ""
      else none
  | _ => none

/-- What becomes of a request whose token was validated. -/
def Request.conclude (wiring : Wiring) (request : Request)
    (validated : Except GoError (AdminSession × AdminAccount)) : Outcome :=
  match spaRouter request with
  | .endpoint endpoint =>
      request.checkSession validated fun found =>
        requireService wiring endpoint.requires
          (.handled endpoint.handler (some found))
  | answer => .unrouted answer

theorem requireService_handled {wiring : Wiring}
    {requires : Option Dependency} {handler reached : Handler}
    {session found : Option (AdminSession × AdminAccount)}
    (passes : requireService wiring requires (.handled handler session) =
      .handled reached found) : reached = handler ∧ found = session := by
  have same : Outcome.handled handler session = .handled reached found := by
    cases requires with
    | none => exact passes
    | some dependency =>
        cases dependency with
        | analytics =>
            by_cases wired : wiring.analytics = true
            · rw [requireService, if_pos wired] at passes
              exact passes
            · rw [requireService, if_neg wired] at passes
              cases passes
        | system =>
            by_cases wired : wiring.system = true
            · rw [requireService, if_pos wired] at passes
              exact passes
            · rw [requireService, if_neg wired] at passes
              cases passes
  obtain ⟨rfl, rfl⟩ := Outcome.handled.inj same
  exact ⟨rfl, rfl⟩

/-- Whoever is admitted holds a session, and its CSRF token where one is
asked for. -/
theorem admit_handled {request : Request} {wiring : Wiring}
    {endpoint : Endpoint} {handler : Handler}
    {validated : Except GoError (AdminSession × AdminAccount)}
    {session : Option (AdminSession × AdminAccount)}
    (admitted : request.checkSession validated (fun found =>
      requireService wiring endpoint.requires
        (.handled endpoint.handler (some found))) =
          .handled handler session) :
    ∃ found, validated = .ok found ∧ handler = endpoint.handler ∧
      session = some found ∧
      (isSafe request.method = false →
        request.sender.csrfToken ≠ "" ∧
          request.sender.csrfToken = found.1.csrfToken) := by
  cases validated with
  | error error => cases admitted
  | ok found =>
      rw [Request.checkSession] at admitted
      split at admitted
      · cases admitted
      · rename_i passes
        obtain ⟨rfl, rfl⟩ := requireService_handled admitted
        refine ⟨found, rfl, rfl, rfl, fun asked => ?_⟩
        simpa [asked] using passes

/-- Every handler that is not public is registered behind a session. -/
theorem registered_guarded :
    ∀ entry ∈ routes, entry.2.session = false →
      entry.2.handler.isPublic = true := by
  decide +kernel

theorem spaRouter_guarded {request : Request} {endpoint : Endpoint}
    (routed : spaRouter request = .endpoint endpoint)
    (unguarded : endpoint.session = false) :
    endpoint.handler.isPublic = true := by
  rw [spaRouter] at routed
  split at routed
  · obtain rfl := Routed.endpoint.inj routed
    rfl
  · obtain ⟨pattern, listed, -⟩ := route_of_endpoint routed
    exact registered_guarded _ listed unguarded

/-- A mutation is not reached by GET or HEAD. -/
theorem not_safe_of_mutates {request : Request} {endpoint : Endpoint}
    (routed : spaRouter request = .endpoint endpoint)
    (mutates : endpoint.handler.mutates = true) :
    isSafe request.method = false := by
  rw [spaRouter] at routed
  split at routed
  · obtain rfl := Routed.endpoint.inj routed
    cases mutates
  · apply Bool.eq_false_of_not_eq_true
    intro safe
    rw [reading_of_safe routed safe] at mutates
    cases mutates

theorem cookie_of_validates {request : Request} {endpoint : Endpoint}
    {token : String}
    (asks : (if endpoint.session then
      request.sender.cookie.filter fun token => token ≠ "" else none) =
        some token) : request.sender.cookie = some token := by
  split at asks
  · exact (Option.filter_eq_some_iff.mp asks).1
  · cases asks

section Serving

variable [Build] (options : AuthOptions) (wiring : Wiring)

/-- A request asks the service for one validation, and goes by its
answer. -/
theorem serve_of_validates {request : Request} {token : String}
    (asks : request.validates = some token) :
    request.serve options wiring =
      (validateSession options token).bind fun validated =>
        pure (request.conclude wiring validated) := by
  unfold Request.validates at asks
  unfold Request.serve Request.conclude
  cases routed : spaRouter request with
  | endpoint endpoint =>
      rw [routed] at asks
      by_cases guarded : endpoint.session = true
      · simp only [if_pos guarded] at asks ⊢
        obtain ⟨cookie, present⟩ := Option.filter_eq_some_iff.mp asks
        rw [decide_eq_true_iff] at present
        rw [Request.withSession, cookie]
        exact if_neg present
      · simp only [if_neg guarded] at asks
        cases asks
  | redirect | methodNotAllowed | notFound =>
      rw [routed] at asks
      cases asks

/-- Only a public handler is reached without a validation. -/
theorem public_of_unvalidated {request : Request}
    (asks : request.validates = none) {handler : Handler}
    {session : Option (AdminSession × AdminAccount)}
    (served : request.serve options wiring =
      pure (.handled handler session)) : handler.isPublic = true := by
  unfold Request.validates at asks
  unfold Request.serve at served
  cases routed : spaRouter request with
  | endpoint endpoint =>
      rw [routed] at asks served
      by_cases guarded : endpoint.session = true
      · simp only [if_pos guarded] at asks served
        rw [Request.withSession] at served
        cases cookie : request.sender.cookie with
        | none =>
            rw [cookie] at served
            cases Program.ret.inj served
        | some token =>
            rw [cookie] at asks served
            by_cases empty : token = ""
            · simp only [if_pos empty] at served
              cases Program.ret.inj served
            · simp [empty] at asks
      · simp only [if_neg guarded] at served
        obtain ⟨rfl, -⟩ := requireService_handled (Program.ret.inj served)
        exact spaRouter_guarded routed
          (Bool.eq_false_of_not_eq_true guarded)
  | redirect | methodNotAllowed | notFound =>
      rw [routed] at served
      cases Program.ret.inj served

/-- A request gets to a handler: at once, or by what the validation that it
asks for has returned. -/
inductive Reaches (pool : AuthPool) (request : Request)
    (handler : Handler) : Prop where
  | alone (session : Option (AdminSession × AdminAccount))
      (asks : request.validates = none)
      (served : request.serve options wiring =
        pure (.handled handler session))
  | validated (call : AuthCall) (past : AuthPast) (token : String)
      (value : Except GoError (AdminSession × AdminAccount))
      (session : Option (AdminSession × AdminAccount))
      (asks : request.validates = some token)
      (presented : call.request = .validateSession token)
      (returned : ⟨call, past, .ret (.validated value)⟩ ∈ pool.threads)
      (concluded : request.conclude wiring value =
        .handled handler session)

variable [PasswordHashing]

/-- The request carries a token whose acceptance is sound, and behind a
mutation the CSRF token that the login has stored with the session. -/
structure Authorized (pool : AuthPool) (request : Request)
    (handler : Handler) : Prop where
  backed : ∃ token call id now,
    request.sender.cookie = some token ∧
    SoundAcceptance options pool call token id now ∧
    (handler.mutates = true → isSafe request.method = false ∧
      request.sender.csrfToken ≠ "" ∧
      ∃ login, ∃ minting : Minting,
        (⟨login, ⟨.insertSession (minting.row options), none⟩⟩ :
          AuthPerformed) ∈ pool.world.history ∧
        minting.id = id ∧ request.sender.csrfToken = minting.csrf)

end Serving

section Runs

variable [Build] {options : AuthOptions} {wiring : Wiring}
variable {pool : AuthPool}

theorem scanSession_csrf {row : SessionRow} {session : AdminSession}
    (scanned : scanSession row = .ok session) :
    session.csrfToken = row.csrfToken := by
  simp only [scanSession, bind, Except.bind, pure, Except.pure] at scanned
  split at scanned
  · cases scanned
  · split at scanned
    · cases scanned
    · split at scanned
      · cases scanned
      · rw [← Except.ok.inj scanned]

variable [PasswordHashing]

/-- The CSRF token of a session that was read is that of its login. -/
theorem csrf_of_presents (traced : Traced options pool.world)
    {call : AuthCall} {token : String} {row : SessionRow}
    {session : AdminSession} {now : Time}
    (presents : Presents options call (ownEvents call pool.world.history)
      token row session now) :
    ∃ login, ∃ minting : Minting,
      (⟨login, ⟨.insertSession (minting.row options), none⟩⟩ :
        AuthPerformed) ∈ pool.world.history ∧
      minting.id = session.id ∧ session.csrfToken = minting.csrf := by
  obtain ⟨before, after, reading, read⟩ :=
    traced.reads.of_mem (mem_ownEvents.mp presents.lookup)
  obtain ⟨⟨login, minting, seen, minted, rfl⟩, -⟩ := read _ row rfl
  refine ⟨login, minting, ?_, (scanSession_ok presents.scanned).1.symm,
    scanSession_csrf presents.scanned⟩
  rw [reading]
  exact List.mem_append_left _ minted.insert

/-- Whatever else goes on at the service, a handler that is not public is
reached only by a request whose token a successful login has handed out, within
the lifetime of the session and before anything revoked it; and a handler that
changes something only by a method other than GET and HEAD, with the CSRF token
of that login. -/
theorem reached_handler_authorized (options : AuthOptions) (start : Time)
    (moves : List (Action AuthRequest AuthChoice Unit)) (wiring : Wiring)
    {request : Request} {handler : Handler}
    (reaches : Reaches options.applyDefaults wiring
      (authRun options start moves) request handler) :
    handler.isPublic = true ∨
      Authorized options.applyDefaults (authRun options start moves) request
        handler := by
  cases reaches with
  | alone session asks served =>
      exact .inl (public_of_unvalidated _ _ asks served)
  | validated call past token value session asks presented returned
      concluded =>
      right
      obtain ⟨accounted, traced⟩ := authRun_traced options start moves
      unfold Request.validates at asks
      unfold Request.conclude at concluded
      cases routed : spaRouter request with
      | redirect | methodNotAllowed | notFound =>
          rw [routed] at asks
          cases asks
      | endpoint endpoint =>
          rw [routed] at asks concluded
          obtain ⟨⟨found, account⟩, rfl, rfl, -, guarded⟩ :=
            admit_handled concluded
          have ends : returns options.applyDefaults call past
              (.validated (.ok (found, account))) :=
            accounted.licensed _ returned
          have own : past = ownEvents call
              (authRun options start moves).world.history :=
            accounted.past _ returned
          obtain ⟨number, asked⟩ := call
          obtain rfl : asked = .validateSession token := presented
          obtain ⟨row, now, answer, presents, touched⟩ := ends _ _ rfl
          rw [own] at touched presents
          have accepts : Accepts (authRun options start moves).world.history
              ⟨number, .validateSession token⟩ token found.id now :=
            ⟨presents.request, answer, mem_ownEvents.mp touched⟩
          refine ⟨token, ⟨number, .validateSession token⟩, found.id, now,
            cookie_of_validates asks,
            soundAcceptance accounted traced accepts, fun mutates => ?_⟩
          have asksToken := not_safe_of_mutates routed mutates
          obtain ⟨present, same⟩ := guarded asksToken
          obtain ⟨login, minting, minted, sameID, csrf⟩ :=
            csrf_of_presents traced presents
          exact ⟨asksToken, present, login, minting, minted, sameID,
            same.trans csrf⟩

end Runs

/-- The deletion of a user with the token and the CSRF token of a login. -/
def deletion : Request where
  method := "DELETE"
  escapedPath := bytesOf "/api/v1/users/7"
  sender := ⟨some "token", "csrf", "", "", ""⟩

def fullWiring : Wiring := ⟨true, true⟩

theorem deletion_routed :
    spaRouter deletion = .endpoint (guarded .handleUserDelete) := by
  decide +kernel

theorem deletion_authorized :
    Handler.handleUserDelete.isPublic = true ∨
      @Authorized (AuthOptions.applyDefaults {}) .plain
        (@authRun Build.dev .plain {} 0 sampleMoves) deletion
        .handleUserDelete := by
  obtain ⟨⟨call, session⟩, found, same⟩ :=
    Option.map_eq_some_iff.mp sample_validated
  simp only [Prod.mk.injEq] at same
  obtain ⟨rfl, -, token⟩ := same
  obtain ⟨past, account, returned⟩ := validatedBy_mem found
  have asks : deletion.validates = some "token" := by
    rw [Request.validates, deletion_routed]
    rfl
  have concluded : deletion.conclude fullWiring (.ok (session, account)) =
      .handled .handleUserDelete (some (session, account)) := by
    rw [Request.conclude, deletion_routed]
    dsimp only
    rw [Request.checkSession, token]
    rfl
  exact @reached_handler_authorized Build.dev .plain {} 0 sampleMoves
    fullWiring deletion .handleUserDelete
    (@Reaches.validated Build.dev _ _ _ _ _ _ past "token" _ _ asks rfl
      returned concluded)

end Xoxproxy.Api
