import Xoxproxy.Engine.ConfigReading

/-!
# Access control in the rendered configuration

Who may use which service of a rendered configuration: a user must be in
the password table and pass the service's access list, and an empty list
lets every authenticated user through.
-/

namespace Xoxproxy

open TextLines

/-- The access list of a service; of several entries with one directive
the last written counts. -/
def serviceAcl (config : EngineConfig) (service : Service) :
    Option (List (List Char)) :=
  (config.services.reverse.find? fun entry =>
    entry.directive = service.directive).map ServiceEntry.acl

/-- An authenticated user passes a service iff its list is empty or names
the user. -/
def mayUse (text : String) (service : Service) (username : String) :
    Bool :=
  let config := engineConfig text
  decide (username.toList ∈ config.table) &&
    match serviceAcl config service with
    | none => false
    | some acl => decide (acl = [] ∨ username.toList ∈ acl)

theorem serviceAcl_renderText
    [Build] {users : List User} (valid : ∀ user ∈ users, ValidUser user)
    (hashes : ∀ user ∈ users, engineHashRe user.engineHash = true)
    (settings : Settings) (service : Service) :
    serviceAcl (engineConfig (renderText settings users)) service =
      some (allowedNames users service.protocol) := by
  have different : Service.socks5.directive ≠ Service.http.directive := by
    decide
  rw [engineConfig_renderText valid hashes, serviceAcl, List.reverse_append,
    List.reverse_cons, List.reverse_singleton, List.singleton_append,
    List.cons_append]
  cases service with
  | http =>
      rw [List.find?_cons_of_neg (by simpa using different),
        List.singleton_append,
        List.find?_cons_of_pos (by exact decide_eq_true rfl)]
      rfl
  | socks5 =>
      rw [List.find?_cons_of_pos (by exact decide_eq_true rfl)]
      rfl

/-- A rendered user may use a service iff the user has its protocol or no
rendered user has it. -/
theorem mayUse_iff
    [Build] {state : State} {settings : Settings} {text : String}
    (rendered : render state settings = .ok text)
    {user : User} (listed : user ∈ state.users) (service : Service) :
    mayUse text service user.username = true ↔
      service.protocol ∈ user.protocols ∨
        ∀ other ∈ state.users, service.protocol ∉ other.protocols := by
  obtain ⟨renderable, rfl⟩ :=
    (render_eq_ok_iff state settings text).mp rendered
  have valid : ∀ other ∈ sortUsers state.users, ValidUser other :=
    fun other member => renderable.stateValid.users other
      ((mem_sortUsers state.users other).mp member)
  have hashes : ∀ other ∈ sortUsers state.users,
      engineHashRe other.engineHash = true :=
    fun other member => renderable.hashes other
      ((mem_sortUsers state.users other).mp member)
  have authenticated :
      user.username.toList ∈
        (engineConfig
          (renderText settings (sortUsers state.users))).table := by
    rw [engineConfig_renderText valid hashes]
    exact List.mem_append_right _ (List.mem_map.mpr
      ⟨user, (mem_sortUsers state.users user).mpr listed, rfl⟩)
  have noneListed :
      allowedNames (sortUsers state.users) service.protocol = [] ↔
        ∀ other ∈ state.users, service.protocol ∉ other.protocols := by
    simp [allowedNames, hasProtocol, mem_sortUsers]
  have named :
      user.username.toList ∈
          allowedNames (sortUsers state.users) service.protocol ↔
        service.protocol ∈ user.protocols := by
    constructor
    · intro member
      obtain ⟨other, kept, sameName⟩ := List.mem_map.mp member
      obtain ⟨otherSorted, otherHas⟩ := List.mem_filter.mp kept
      have otherListed := (mem_sortUsers state.users other).mp otherSorted
      have same : other = user :=
        List.inj_on_of_nodup_map renderable.stateValid.names otherListed
          listed (String.toList_inj.mp sameName)
      subst same
      simpa [hasProtocol] using otherHas
    · intro has
      refine List.mem_map.mpr ⟨user, List.mem_filter.mpr ⟨?_, ?_⟩, rfl⟩
      · exact (mem_sortUsers state.users user).mpr listed
      · simpa [hasProtocol] using has
  simp only [mayUse, authenticated, decide_true, Bool.true_and,
    serviceAcl_renderText valid hashes, decide_eq_true_eq, noneListed,
    named]
  exact or_comm

/-- Access to a service is exact when every rendered user may use it iff
the user's protocols contain the service's. -/
def AccessExact (state : State) (text : String)
    (service : Service) : Prop :=
  ∀ user ∈ state.users,
    mayUse text service user.username = true ↔
      service.protocol ∈ user.protocols

/-- Access is exact for a service precisely when there are no users or
some user has its protocol.  Otherwise the service's section writes no
`allow` line, and its empty list lets every authenticated user
through. -/
theorem accessExact_iff
    [Build] {state : State} {settings : Settings} {text : String}
    (rendered : render state settings = .ok text) (service : Service) :
    AccessExact state text service ↔
      state.users = [] ∨
        ∃ user ∈ state.users, service.protocol ∈ user.protocols := by
  constructor
  · intro exact_access
    cases users : state.users with
    | nil => exact Or.inl rfl
    | cons user others =>
        right
        by_contra missing
        have listed : user ∈ state.users := by simp [users]
        have nobody : ∀ other ∈ state.users,
            service.protocol ∉ other.protocols := by
          intro other member has
          exact missing ⟨other, users ▸ member, has⟩
        have admitted := (mayUse_iff rendered listed service).mpr
          (Or.inr nobody)
        exact nobody user listed ((exact_access user listed).mp admitted)
  · rintro (empty | ⟨holder, holderListed, has⟩) user listed
    · simp [empty] at listed
    · rw [mayUse_iff rendered listed service]
      constructor
      · rintro (own | nobody)
        · exact own
        · exact absurd has (nobody holder holderListed)
      · exact Or.inl

/-- Per-protocol access is exact in both services precisely when there are
no users or each protocol has a user. -/
theorem render_access_exact_iff
    [Build] {state : State} {settings : Settings} {text : String}
    (rendered : render state settings = .ok text) :
    (∀ service, AccessExact state text service) ↔
      state.users = [] ∨
        ∀ service : Service,
          ∃ user ∈ state.users, service.protocol ∈ user.protocols := by
  simp only [accessExact_iff rendered]
  by_cases empty : state.users = []
  · simp [empty]
  · simp [empty]

/-- A rendered configuration determines the names of its accounts. -/
theorem usernames_of_render_eq
    [Build] {first second : State} {settings : Settings} {text : String}
    (firstRendered : render first settings = .ok text)
    (secondRendered : render second settings = .ok text) :
    (sortUsers first.users).map User.username =
      (sortUsers second.users).map User.username := by
  have table : ∀ {state : State}, render state settings = .ok text →
      (engineConfig text).table = (headerConfig settings).table ++
        (sortUsers state.users).map fun user => user.username.toList := by
    intro state rendered
    obtain ⟨renderable, rfl⟩ :=
      (render_eq_ok_iff state settings text).mp rendered
    rw [engineConfig_renderText]
    · intro user member
      exact renderable.stateValid.users user
        ((mem_sortUsers state.users user).mp member)
    · intro user member
      exact renderable.hashes user
        ((mem_sortUsers state.users user).mp member)
  have same := (table firstRendered).symm.trans (table secondRendered)
  have names := List.append_cancel_left same
  have lists :
      ((sortUsers first.users).map User.username).map String.toList =
        ((sortUsers second.users).map User.username).map
          String.toList := by
    simpa only [List.map_map, Function.comp_def] using names
  exact List.map_injective_iff.mpr
    (fun _ _ equal => String.toList_inj.mp equal) lists

/-- The settings the control plane derives for the configuration
directory `/etc/xoxproxy`. -/
def sampleSettings : Settings where
  configFile := "/etc/xoxproxy/3proxy.cfg"
  pidFile := "/etc/xoxproxy/3proxy.pid"
  counterFile := "/etc/xoxproxy/3proxy.3cf"
  logFile := "/etc/xoxproxy/traffic.log"
  httpPort := 3128
  socks5Port := 1080
  maxConns := 0
  rotate := 0
  nameservers := []
  setUID := ""
  setGID := ""

/-- One account, with the given protocols. -/
def sampleState (protocols : List Protocol) : State where
  users := [{
    username := "alice"
    engineHash := "$3$salt$./0123456789ABCDEFGHIJ"
    recordNumber := 1
    protocols := protocols
    downloadBPS := 0
    uploadBPS := 0
    quota := none }]

theorem sampleSettings_valid [Build] :
    sampleSettings.validate = none := rfl

theorem sampleState_both_valid [Build] :
    (sampleState [protoHTTP, protoSOCKS5]).validate = none := rfl

theorem sampleState_rendered
    [Build] (protocols : List Protocol)
    (valid : (sampleState protocols).validate = none) :
    render (sampleState protocols) sampleSettings =
      .ok (renderText sampleSettings
        (sortUsers (sampleState protocols).users)) := by
  refine (render_eq_ok_iff _ _ _).mpr ⟨⟨sampleSettings_valid,
    (State.validate_eq_none_iff _).mp valid, ?_⟩, rfl⟩
  intro user member
  obtain rfl := List.mem_singleton.mp member
  have accepted :
      engineHashRe "$3$salt$./0123456789ABCDEFGHIJ" = true := by decide
  exact accepted

/-- An account for HTTP alone is let through by the SOCKS service. -/
theorem http_account_uses_socks :
    ∃ text,
      @render Build.dev (sampleState [protoHTTP]) sampleSettings =
          .ok text ∧
        mayUse text .socks5 "alice" = true ∧
        ¬ AccessExact (sampleState [protoHTTP]) text .socks5 := by
  let _ := Build.dev
  have rendered := sampleState_rendered [protoHTTP] (by decide)
  refine ⟨_, rendered, ?_, ?_⟩
  · have listed :
        (sampleState [protoHTTP]).users.head (by decide) ∈
          (sampleState [protoHTTP]).users := by
      decide
    exact (mayUse_iff rendered listed .socks5).mpr (Or.inr (by decide))
  · rw [accessExact_iff rendered]
    decide

/-- With one account that has both protocols, access is exact. -/
theorem render_access_exact_both_protocols :
    ∃ text,
      @render Build.dev (sampleState [protoHTTP, protoSOCKS5])
          sampleSettings = .ok text ∧
        ∀ service,
          AccessExact (sampleState [protoHTTP, protoSOCKS5]) text
            service := by
  let _ := Build.dev
  have rendered :=
    sampleState_rendered [protoHTTP, protoSOCKS5] (by decide)
  refine ⟨_, rendered, (render_access_exact_iff rendered).mpr (Or.inr ?_)⟩
  intro service
  cases service <;> decide

end Xoxproxy
