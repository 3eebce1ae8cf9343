import Xoxproxy.Api.UserPages
import Xoxproxy.Users.Secrets

/-!
# Errors that stay inside

What the user handlers of `internal/api/user_handlers.go` answer.  The
errors of the store reach a client as one and the same answer, so that
nothing of their texts crosses the boundary.
-/

namespace Xoxproxy.Api

open EffectPrograms Transactions

/-- `writeUserError`. -/
def writeUserError (error : GoError) : Reply :=
  if error.is .storeNotFound then
    writeError 404 "USER_NOT_FOUND" "user not found"
  else if error.is .usernameTaken then
    writeError 409 "USERNAME_TAKEN" "username already taken"
  else if error.is .versionConflict then
    writeError 409 "VERSION_CONFLICT"
      "user was modified concurrently; reload and retry"
  else if error.is .userExpired then
    writeError 400 "USER_EXPIRED"
      "user's expiry has passed; extend expires_at first"
  else if error.is .invalidInput || error.is .weakPassword then
    writeError 400 "INVALID_REQUEST" error.text
  else writeError 500 "INTERNAL" "internal error"

/-- The answer to a call that was successful: a user, with the one-time
password if there is one. -/
structure UserAnswer where
  status : Nat
  user : Option UserResponse
  password : Option String
  deriving DecidableEq

/-- The status of a successful answer. -/
def successStatus : UserRequest → Nat
  | .create _ => 201
  | _ => 200

/-- What the handler of a request makes of the service's outcome. -/
def answerTo (request : UserRequest) (outcome : Except GoError UserReply) :
    Except Reply UserAnswer :=
  match outcome with
  | .error error => .error (writeUserError error)
  | .ok reply =>
      .ok {
        status := successStatus request
        user := reply.user.map toUserResponse
        password := reply.password }

/-- The answer without the password that it hands out. -/
def UserAnswer.redact (answer : UserAnswer) : UserAnswer :=
  { answer with password := answer.password.map fun _ => "" }

/-- What the clients of a run are answered, without the passwords. -/
def answers (pool : ReplyPool) : List (Option (Except Reply UserAnswer)) :=
  pool.threads.map fun thread =>
    thread.result.map fun outcome =>
      (answerTo thread.label.request outcome).map UserAnswer.redact

/-- The sentinels that are tested for on the way to a client. -/
def answeredFor : List Sentinel :=
  [.storeNotFound, .storeConflict, .usernameTaken, .versionConflict,
    .userExpired, .invalidInput, .weakPassword]

def Internal (error : GoError) : Prop :=
  ∀ sentinel ∈ answeredFor, error.is sentinel = false

/-- The same error, or two that no sentinel tells apart. -/
def InternalsAlike (first second : GoError) : Prop :=
  first = second ∨ Internal first ∧ Internal second

theorem treatedAlike_internals : TreatedAlike InternalsAlike where
  refl := fun _ => Or.inl rfl
  wrap := by
    rintro before behind error other (rfl | ⟨first, second⟩)
    · exact Or.inl rfl
    · exact Or.inr ⟨first, second⟩
  conflict := by
    rintro error other (rfl | ⟨first, second⟩)
    · rfl
    · rw [first .storeConflict (by decide), second .storeConflict (by decide)]

theorem writeUserError_internal {error : GoError} (internal : Internal error) :
    writeUserError error = writeError 500 "INTERNAL" "internal error" := by
  unfold writeUserError
  simp only [internal .storeNotFound (by decide),
    internal .usernameTaken (by decide),
    internal .versionConflict (by decide),
    internal .userExpired (by decide), internal .invalidInput (by decide),
    internal .weakPassword (by decide), Bool.false_eq_true, if_false,
    Bool.or_self]

theorem writeUserError_alike {first second : GoError}
    (alike : InternalsAlike first second) :
    writeUserError first = writeUserError second := by
  rcases alike with rfl | ⟨internal, also⟩
  · rfl
  · rw [writeUserError_internal internal, writeUserError_internal also]

theorem successStatus_alike [Build] {names : String → Prop}
    {first second : UserRequest}
    (alike : RequestsAlike names first second) :
    successStatus first = successStatus second := by
  cases alike <;> rfl

theorem answerTo_alike [Build] {names : String → Prop}
    {first second : UserRequest} (requests : RequestsAlike names first second)
    {outcome other : Except GoError UserReply}
    (alike : RepliesAlike InternalsAlike outcome other) :
    (answerTo first outcome).map UserAnswer.redact =
      (answerTo second other).map UserAnswer.redact := by
  rcases alike.eqs with
    ⟨error, also, rfl, rfl, same⟩ | ⟨reply, another, rfl, rfl, same⟩
  · exact congrArg Except.error (writeUserError_alike same)
  · have user : reply.redact.user = another.redact.user := by rw [same]
    have password : reply.redact.password = another.redact.password := by
      rw [same]
    simp only [UserReply.redact] at user password
    simp only [answerTo, Except.map, UserAnswer.redact, user, password,
      successStatus_alike requests]

/-- Two schedules that differ in passwords, salts, hashes and the texts of
internal errors give every client the same answers but for the passwords,
and leave the same audit trail, reported changes and tables but for the
hashes. -/
theorem internals_unseen [Build] [Blake2b] {names : String → Prop}
    {moves others : List UserMove}
    (alike : List.Forall₂ (MovesAlike names InternalsAlike) moves others) :
    answers (replyPool moves) = answers (replyPool others) ∧
      trails (replyPool moves) = trails (replyPool others) := by
  refine ⟨?_, trails_alike treatedAlike_internals alike⟩
  refine map_eq_of_forall₂
    (replyPool_alike treatedAlike_internals alike).threads
    fun thread also (pair :
      ThreadsAlike (secrecy names InternalsAlike) thread also) => ?_
  rcases rel_cases (result_alike pair) with
    ⟨running, working⟩ | ⟨reply, other, returned, done, same⟩
  · rw [running, working]
    rfl
  · rw [returned, done]
    exact congrArg some (answerTo_alike pair.label.request same)

/-- A choice in which the store fails. -/
def failing (text : String) : UserChoice :=
  { sampleChoice with failure := some (0, .plain text) }

theorem failing_alike {first second : String}
    (unlike : contains first "UNIQUE" = false)
    (also : contains second "UNIQUE" = false) :
    ChoicesAlike InternalsAlike (failing first) (failing second) := by
  have internal (text : String) : Internal (.plain text) :=
    fun sentinel _ => GoError.plain_is text sentinel
  refine ⟨fun index => ?_, rfl, rfl⟩
  unfold failing Failure.at
  by_cases here : 0 = index
  · simp only [here, if_true]
    exact .some ⟨Or.inr ⟨internal first, internal second⟩,
      unlike.trans also.symm⟩
  · simp only [here, if_false]
    exact .none

/-- The texts are in the errors of the service, and not in the answers. -/
theorem internals_unseen_failing :
    let pool := fun text =>
      @replyPool Build.dev Blake2b.upstream
        (aliceMoves "correct horse battery" "staple battery horse"
          (failing text))
    let one := pool "disk I/O error"
    let other := pool "database is locked"
    answers one = answers other ∧ trails one = trails other ∧
      answers one =
        List.replicate 2 (some (.error
          (writeError 500 "INTERNAL" "internal error"))) ∧
      replies one ≠ replies other := by
  intro pool one other
  let _ := Build.dev
  have same (password : String) :
      PasswordsAlike (· = "alice") password password :=
    ⟨Iff.rfl, fun _ _ => rfl⟩
  have failures : ChoicesAlike InternalsAlike (failing "disk I/O error")
      (failing "database is locked") :=
    failing_alike (by decide +kernel) (by decide +kernel)
  have unseen := @internals_unseen Build.dev Blake2b.upstream
    (· = "alice") _ _
    (@aliceMoves_alike Build.dev (· = "alice") InternalsAlike rfl _ _ _ _ _ _
      (same "correct horse battery") (same "staple battery horse") failures)
  exact ⟨unseen.1, unseen.2, by decide +kernel, by decide +kernel⟩

end Xoxproxy.Api
