import Xoxproxy.Engine.ConfigFidelity

/-!
# The lines of a rendered configuration

The template fixes the sequence of lines.  Validation and quoting keep
every value on its line, except for the user and group ids.
-/

namespace Xoxproxy

open TextLines

/-- What the template says about one line: its text, or the directive it
begins with. -/
inductive LinePattern where
  | whole (text : String)
  | directive (word : String)
  deriving DecidableEq, Repr

def LinePattern.Fits : LinePattern → List Char → Prop
  | .whole text, line => line = text.toList
  | .directive word, line => word.toList ++ [' '] <+: line

/-- The optional fields that are set, the directives of the users'
limits, and the numbers of what is listed. -/
structure Shape where
  gidSet : Bool
  uidSet : Bool
  maxConnsSet : Bool
  rotateSet : Bool
  nameservers : Nat
  users : Nat
  limits : List String
  allowedHTTP : Nat
  allowedSOCKS5 : Nat
  deriving DecidableEq, Repr

/-- The patterns of lines that are written when a field is set. -/
def optionalLines (set : Bool) (patterns : List LinePattern) :
    List LinePattern :=
  if set then patterns else []

def openingTemplate : List LinePattern :=
  [.whole "# Managed by xoxproxy — DO NOT EDIT.",
    .whole ("# Regenerated and deployed by the control plane; " ++
      "manual changes are lost."),
    .directive "# generated by",
    .directive "config",
    .directive "pidfile"]

def idTemplate (shape : Shape) : List LinePattern :=
  optionalLines shape.gidSet [.directive "setgid"] ++
    optionalLines shape.uidSet [.directive "setuid"]

def remainingTemplate (shape : Shape) : List LinePattern :=
  (List.replicate shape.nameservers (.directive "nserver") :
      List LinePattern) ++
    optionalLines (shape.nameservers > 0)
      [.directive "nscache", .directive "nscache6"] ++
    optionalLines shape.maxConnsSet [.directive "maxconn"] ++
    ([.directive "log"] : List LinePattern) ++
    optionalLines shape.rotateSet [.directive "rotate"] ++
    ([.directive "logformat"] : List LinePattern) ++
    ([.directive "counter"] : List LinePattern)

def serviceTemplate (name directive : String) (allowed : Nat) :
    List LinePattern :=
  .whole "" :: .whole ("# --- " ++ name ++ " ---") :: .whole "flush" ::
    ((List.replicate allowed (.directive "allow") : List LinePattern) ++
      [.directive directive])

/-- The lines of a configuration, by its shape alone. -/
def Shape.template (shape : Shape) : List LinePattern :=
  openingTemplate ++ idTemplate shape ++ remainingTemplate shape ++
    ((.whole "" :: .whole "# --- accounts ---" :: .whole "auth strong" ::
        List.replicate shape.users (.directive "users") :
          List LinePattern) ++
      (.whole "" :: .whole "# --- limits ---" ::
        shape.limits.map .directive : List LinePattern) ++
      serviceTemplate "HTTP proxy" "proxy" shape.allowedHTTP ++
      serviceTemplate "SOCKS5 proxy" "socks" shape.allowedSOCKS5)

/-- The directives of one user's limits. -/
def limitDirectives (user : User) : List String :=
  (if user.downloadBPS > 0 then ["bandlimin"] else []) ++
  (if user.uploadBPS > 0 then ["bandlimout"] else []) ++
  match user.quota with
  | none => []
  | some quota => ["count" ++ quota.direction.name]

def allowedUsers (users : List User) (protocol : Protocol) : List User :=
  users.filter fun user => hasProtocol user protocol

/-- The shape of a configuration. -/
def shapeOf (settings : Settings) (users : List User) : Shape where
  gidSet := decide (settings.setGID ≠ "")
  uidSet := decide (settings.setUID ≠ "")
  maxConnsSet := decide (settings.maxConns > 0)
  rotateSet := decide (settings.rotate > 0)
  nameservers := settings.nameservers.length
  users := users.length
  limits := users.flatMap limitDirectives
  allowedHTTP := (allowedUsers users protoHTTP).length
  allowedSOCKS5 := (allowedUsers users protoSOCKS5).length

/-- The lines fit the patterns one by one. -/
def Follows (patterns : List LinePattern) (lines : List (List Char)) :
    Prop :=
  List.Forall₂ LinePattern.Fits patterns lines

namespace Follows

theorem append {first second : List LinePattern}
    {lines others : List (List Char)}
    (left : Follows first lines) (right : Follows second others) :
    Follows (first ++ second) (lines ++ others) :=
  List.rel_append left right

theorem whole {text : String} {line : List Char}
    (same : line = text.toList) : Follows [.whole text] [line] :=
  .cons same .nil

theorem directive (word : String) (value : List Char) :
    Follows [.directive word] [word.toList ++ ' ' :: value] := by
  have front : word.toList ++ [' '] <+: word.toList ++ ' ' :: value :=
    ⟨value, by simp⟩
  exact .cons front .nil

theorem optional {condition : Prop} [Decidable condition]
    {patterns : List LinePattern} {lines : List (List Char)}
    (follows : Follows patterns lines) :
    Follows (optionalLines (decide condition) patterns)
      (if condition then lines else []) := by
  unfold optionalLines
  by_cases holds : condition
  · rw [if_pos holds, if_pos (decide_eq_true holds)]
    exact follows
  · rw [if_neg holds, decide_eq_false holds]
    exact .nil

/-- The lines of a list of values have one directive. -/
theorem map {Value : Type} (word : String) (line : Value → List Char)
    (directed : ∀ value, ∃ rest, line value = word.toList ++ ' ' :: rest)
    (values : List Value) :
    Follows (List.replicate values.length (.directive word))
      (values.map line) := by
  induction values with
  | nil => exact .nil
  | cons value values inductionHypothesis =>
      obtain ⟨rest, shape⟩ := directed value
      rw [List.length_cons, List.replicate_succ, List.map_cons, shape]
      exact (directive word rest).append inductionHypothesis

/-- Written lines are read back as lines that follow the patterns exactly
when none of them contains a newline. -/
theorem joined_iff {patterns : List LinePattern}
    {lines : List (List Char)} (follows : Follows patterns lines) :
    Follows patterns (allLines (joinLines lines)) ↔
      ∀ line ∈ lines, '\n' ∉ line := by
  rw [← length_allLines_joinLines_iff]
  constructor
  · intro read
    rw [← List.Forall₂.length_eq read, List.Forall₂.length_eq follows]
  · intro sameLength
    rw [allLines_joinLines ((length_allLines_joinLines_iff _).mp sameLength)]
    exact follows

end Follows

/-! ## Every line follows the template -/

theorem limitLines_follow (user : User) :
    Follows ((limitDirectives user).map .directive) (limitLines user) := by
  have counted : Follows
      ((match user.quota with
        | none => []
        | some quota => ["count" ++ quota.direction.name]).map .directive)
      (match user.quota with
        | none => []
        | some quota => [quotaLine user quota]) := by
    cases user.quota with
    | none => exact .nil
    | some quota => exact .directive _ _
  have download : Follows
      ((if user.downloadBPS > 0 then ["bandlimin"] else []).map .directive)
      (if user.downloadBPS > 0 then
        [bandwidthLine "bandlimin" user.downloadBPS user] else []) := by
    split
    · exact .directive _ _
    · exact .nil
  have upload : Follows
      ((if user.uploadBPS > 0 then ["bandlimout"] else []).map .directive)
      (if user.uploadBPS > 0 then
        [bandwidthLine "bandlimout" user.uploadBPS user] else []) := by
    split
    · exact .directive _ _
    · exact .nil
  unfold limitDirectives limitLines
  rw [List.map_append, List.map_append]
  exact (download.append upload).append counted

theorem limits_follow (users : List User) :
    Follows ((users.flatMap limitDirectives).map .directive)
      (users.flatMap limitLines) := by
  induction users with
  | nil => exact .nil
  | cons user users inductionHypothesis =>
      rw [List.flatMap_cons, List.flatMap_cons, List.map_append]
      exact (limitLines_follow user).append inductionHypothesis

theorem serviceLines_follow (users : List User) (name directive : String)
    (port : Int) (protocol : Protocol) :
    Follows
      (serviceTemplate name directive (allowedUsers users protocol).length)
      (serviceLines users name directive port protocol) := by
  have title : serviceTitle name = ("# --- " ++ name ++ " ---").toList := by
    unfold serviceTitle
    rw [String.toList_append, String.toList_append]
  have allows : Follows
      (List.replicate (allowedUsers users protocol).length
        (.directive "allow"))
      ((allowedUsers users protocol).map allowLine) :=
    .map "allow" allowLine (fun user => ⟨user.username.toList, rfl⟩) _
  have started : Follows [.directive directive]
      [serviceLine directive port] := .directive _ _
  exact .cons rfl (.cons title (.cons rfl (allows.append started)))

section Header

variable [Build]

theorem openingLines_follow (settings : Settings) :
    Follows openingTemplate (openingLines settings) := by
  have managed : directiveLine "#" "Managed by xoxproxy — DO NOT EDIT." =
      "# Managed by xoxproxy — DO NOT EDIT.".toList := by
    decide +kernel
  have regenerated :
      directiveLine "#" ("Regenerated and deployed by the control plane; " ++
        "manual changes are lost.") =
      ("# Regenerated and deployed by the control plane; " ++
        "manual changes are lost.").toList := by
    decide +kernel
  have generated : directiveLine "#" ("generated by " ++ banner) =
      "# generated by".toList ++ ' ' :: banner.toList := by
    unfold directiveLine
    rw [String.toList_append]
    rfl
  have banner := Follows.directive "# generated by" banner.toList
  rw [← generated] at banner
  exact ((((Follows.whole managed).append (.whole regenerated)).append
    banner).append (.directive _ _)).append (.directive _ _)

theorem remainingLines_follow (settings : Settings) (users : List User) :
    Follows (remainingTemplate (shapeOf settings users))
      (remainingLines settings) := by
  have servers : Follows
      (List.replicate settings.nameservers.length (.directive "nserver"))
      (settings.nameservers.map (directiveLine "nserver")) :=
    .map "nserver" _ (fun server => ⟨String.toList server, rfl⟩) _
  have caches : Follows
      (optionalLines (decide (settings.nameservers.length > 0))
        [.directive "nscache", .directive "nscache6"])
      (if settings.nameservers.length > 0 then
        [directiveLine "nscache" (toString nscacheSize),
          directiveLine "nscache6" (toString nscacheSize)]
        else []) :=
    ((Follows.directive "nscache" _).append (.directive "nscache6" _)).optional
  have conns : Follows
      (optionalLines (decide (settings.maxConns > 0))
        [.directive "maxconn"])
      (if settings.maxConns > 0 then
        [directiveLine "maxconn" (toString settings.maxConns)] else []) :=
    (Follows.directive "maxconn" _).optional
  have rotate : Follows
      (optionalLines (decide (settings.rotate > 0)) [.directive "rotate"])
      (if settings.rotate > 0 then
        [directiveLine "rotate" (toString settings.rotate)] else []) :=
    (Follows.directive "rotate" _).optional
  exact (((((servers.append caches).append conns).append
    (.directive "log" _)).append rotate).append
      (.directive "logformat" _)).append (.directive "counter" _)

end Header

theorem idLines_follow (settings : Settings) (users : List User) :
    Follows (idTemplate (shapeOf settings users)) (idLines settings) := by
  have gid : Follows
      (optionalLines (decide (settings.setGID ≠ ""))
        [.directive "setgid"])
      (if settings.setGID ≠ "" then
        [directiveLine "setgid" settings.setGID] else []) :=
    (Follows.directive "setgid" _).optional
  have uid : Follows
      (optionalLines (decide (settings.setUID ≠ ""))
        [.directive "setuid"])
      (if settings.setUID ≠ "" then
        [directiveLine "setuid" settings.setUID] else []) :=
    (Follows.directive "setuid" _).optional
  exact gid.append uid

/-- No id is written on more than one line. -/
structure IdsOnTheirLines (settings : Settings) : Prop where
  setGID : '\n' ∉ settings.setGID.toList
  setUID : '\n' ∉ settings.setUID.toList

theorem idLine_free_iff {directive : String}
    (directiveFree : '\n' ∉ directive.toList) (value : String) :
    (∀ line ∈ if value ≠ "" then [directiveLine directive value] else [],
      '\n' ∉ line) ↔ '\n' ∉ value.toList := by
  by_cases empty : value = ""
  · subst empty
    simp
  · have blank : '\n' ∉ [' '] := by decide
    have front : '\n' ∉ directive.toList ++ [' '] := by
      rw [List.mem_append, not_or]
      exact ⟨directiveFree, blank⟩
    have shape : directiveLine directive value =
        (directive.toList ++ [' ']) ++ value.toList := by
      simp [directiveLine]
    rw [if_pos empty, List.forall_mem_singleton, shape, List.mem_append,
      not_or]
    exact and_iff_right front

theorem idLines_free_iff (settings : Settings) :
    (∀ line ∈ idLines settings, '\n' ∉ line) ↔
      IdsOnTheirLines settings := by
  unfold idLines
  rw [List.forall_mem_append, idLine_free_iff (by decide),
    idLine_free_iff (by decide)]
  constructor
  · rintro ⟨gid, uid⟩
    exact ⟨gid, uid⟩
  · rintro ⟨gid, uid⟩
    exact ⟨gid, uid⟩

section Rendered

variable [Build]

/-- The lines that the template is filled with. -/
def filledLines (settings : Settings) (users : List User) :
    List (List Char) :=
  openingLines settings ++ idLines settings ++ remainingLines settings ++
    sectionLines settings users

theorem filledLines_follow (settings : Settings) (users : List User) :
    Follows (shapeOf settings users).template
      (filledLines settings users) := by
  have accounts : Follows
      (.whole "" :: .whole "# --- accounts ---" ::
        .whole "auth strong" ::
          List.replicate users.length (.directive "users"))
      ([] :: "# --- accounts ---".toList :: "auth strong".toList ::
        users.map accountLine) := by
    have listed : Follows
        (List.replicate users.length (.directive "users"))
        (users.map accountLine) :=
      .map "users" accountLine (fun user => ⟨_, rfl⟩) users
    exact .cons rfl (.cons rfl (.cons rfl listed))
  have limits : Follows
      (.whole "" :: .whole "# --- limits ---" ::
        (users.flatMap limitDirectives).map .directive)
      ([] :: "# --- limits ---".toList :: users.flatMap limitLines) :=
    .cons rfl (.cons rfl (limits_follow users))
  have header := ((openingLines_follow settings).append
    (idLines_follow settings users)).append
      (remainingLines_follow settings users)
  have http := serviceLines_follow users "HTTP proxy" "proxy"
    settings.httpPort protoHTTP
  have socks := serviceLines_follow users "SOCKS5 proxy" "socks"
    settings.socks5Port protoSOCKS5
  exact header.append
    (((accounts.append limits).append http).append socks)

theorem renderText_filledLines (settings : Settings) (users : List User) :
    (renderText settings users).toList =
      joinLines (filledLines settings users) := by
  rw [renderText_sections, renderHeader_parts, ← joinLines_append]
  rfl

theorem fixedLines_free {settings : Settings}
    (settingsValid : settings.validate = none) :
    ∀ line ∈ openingLines settings ++ remainingLines settings,
      '\n' ∉ line := by
  intro line member
  exact (headerLines_inoffensive settingsValid line member).free

/-- Only the ids can bring newlines into a line. -/
theorem filledLines_free_iff {settings : Settings} {users : List User}
    (settingsValid : settings.validate = none)
    (valid : ∀ user ∈ users, ValidUser user) :
    (∀ line ∈ filledLines settings users, '\n' ∉ line) ↔
      IdsOnTheirLines settings := by
  have header := fixedLines_free settingsValid
  have sections := sectionLines_newline_free valid settings
  rw [← idLines_free_iff]
  constructor
  · intro free line member
    apply free
    simp only [filledLines, List.mem_append, member, true_or, or_true]
  · intro free line member
    simp only [filledLines, List.mem_append] at member
    rcases member with ((opening | inIds) | remaining) | inSections
    · exact header line (List.mem_append_left _ opening)
    · exact free line inIds
    · exact header line (List.mem_append_right _ remaining)
    · exact sections line inSections

/-- Rendering follows the template exactly when neither id contains a
newline. -/
theorem render_follows_template_iff
    {state : State} {settings : Settings} {text : String}
    (rendered : render state settings = .ok text) :
    Follows (shapeOf settings (sortUsers state.users)).template
        (allLines text.toList) ↔
      IdsOnTheirLines settings := by
  obtain ⟨renderable, rfl⟩ :=
    (render_eq_ok_iff state settings text).mp rendered
  have valid : ∀ user ∈ sortUsers state.users, ValidUser user :=
    fun user member => renderable.stateValid.users user
      ((mem_sortUsers state.users user).mp member)
  rw [renderText_filledLines, (filledLines_follow settings _).joined_iff,
    filledLines_free_iff renderable.settingsValid valid]

end Rendered

/-- The sample settings with a user id. -/
def settingsWithUID (setUID : String) : Settings :=
  { sampleSettings with setUID := setUID }

/-- Validation does not look at the user id. -/
theorem validate_setUID [Build] (settings : Settings) (setUID : String) :
    { settings with setUID := setUID }.validate = settings.validate := by
  cases settings
  rfl

theorem settingsWithUID_valid [Build] (setUID : String) :
    (settingsWithUID setUID).validate = none :=
  (validate_setUID sampleSettings setUID).trans sampleSettings_valid

theorem settingsWithUID_rendered [Build] (setUID : String) :
    render (sampleState [protoHTTP, protoSOCKS5]) (settingsWithUID setUID) =
      .ok (renderText (settingsWithUID setUID)
        (sortUsers (sampleState [protoHTTP, protoSOCKS5]).users)) := by
  obtain ⟨renderable, -⟩ := (render_eq_ok_iff _ _ _).mp
    (sampleState_rendered [protoHTTP, protoSOCKS5] sampleState_both_valid)
  exact (render_eq_ok_iff _ _ _).mpr ⟨⟨settingsWithUID_valid setUID,
    renderable.stateValid, renderable.hashes⟩, rfl⟩

/-- The lines of a file without users whose user id is `65535` and, on a
line of its own, `allow *`. -/
theorem lines_with_second_id [Build] :
    allLines (renderText (settingsWithUID "65535\nallow *") []).toList =
      openingLines (settingsWithUID "65535\nallow *") ++
        ["setuid 65535".toList, "allow *".toList] ++
        remainingLines (settingsWithUID "65535\nallow *") ++
        sectionLines (settingsWithUID "65535\nallow *") [] := by
  have split : joinLines (idLines (settingsWithUID "65535\nallow *")) =
      joinLines ["setuid 65535".toList, "allow *".toList] := by
    decide
  have fixed := fixedLines_free (settingsWithUID_valid "65535\nallow *")
  have free : ∀ user ∈ ([] : List User), ValidUser user := by simp
  have sections := sectionLines_newline_free free
    (settingsWithUID "65535\nallow *")
  rw [renderText_filledLines, filledLines, joinLines_append,
    joinLines_append, joinLines_append, split, ← joinLines_append,
    ← joinLines_append, ← joinLines_append, allLines_joinLines]
  intro line member
  simp only [List.mem_append] at member
  rcases member with ((opening | inIds) | remaining) | inSections
  · exact fixed line (List.mem_append_left _ opening)
  · revert line
    decide
  · exact fixed line (List.mem_append_right _ remaining)
  · exact sections line inSections

/-- The user id `65535` with `allow *` on a line of its own is accepted,
and the second line reaches the configuration. -/
theorem setuid_adds_allow :
    ∃ text,
      @render Build.dev ⟨[]⟩ (settingsWithUID "65535\nallow *") =
          .ok text ∧
        "allow *".toList ∈ allLines text.toList ∧
        ¬ Follows
          (shapeOf (settingsWithUID "65535\nallow *") []).template
          (allLines text.toList) := by
  let _ := Build.dev
  have renderable : Renderable ⟨[]⟩ (settingsWithUID "65535\nallow *") :=
    ⟨settingsWithUID_valid _, ⟨by simp, by simp, by simp⟩, by simp⟩
  refine ⟨_, (render_eq_ok_iff _ _ _).mpr ⟨renderable, rfl⟩, ?_, ?_⟩
  · have listed : "allow *".toList ∈
        ["setuid 65535".toList, "allow *".toList] := by
      simp
    change "allow *".toList ∈ allLines
      (renderText (settingsWithUID "65535\nallow *") []).toList
    rw [lines_with_second_id]
    simp only [List.mem_append, listed, true_or, or_true]
  · change ¬ Follows _ (allLines
      (renderText (settingsWithUID "65535\nallow *") []).toList)
    rw [renderText_filledLines, (filledLines_follow _ _).joined_iff]
    intro free
    have ids := (idLines_free_iff (settingsWithUID "65535\nallow *")).mp
      fun line member => free line (by
        simp only [filledLines, List.mem_append, member, true_or, or_true])
    exact absurd ids.setUID (by decide)

/-- A user id without a newline. -/
theorem setuid_follows_template :
    ∃ text,
      @render Build.dev (sampleState [protoHTTP, protoSOCKS5])
          (settingsWithUID "65535") = .ok text ∧
        Follows
          (shapeOf (settingsWithUID "65535")
            (sortUsers (sampleState [protoHTTP, protoSOCKS5]).users)).template
          (allLines text.toList) := by
  let _ := Build.dev
  have rendered := settingsWithUID_rendered "65535"
  refine ⟨_, rendered, (render_follows_template_iff rendered).mpr ?_⟩
  exact ⟨by decide, by decide⟩

end Xoxproxy
