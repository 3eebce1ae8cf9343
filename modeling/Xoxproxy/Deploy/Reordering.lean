import Xoxproxy.Deploy.Status

/-!
# Rendering the same accounts in another order

The text depends on the accounts as a set and on each account's
protocols as a set, so a deployment of a reordered state finds the file
as it would write it.
-/

namespace Xoxproxy

open EffectPrograms

/-- Two accounts that list the same protocols, in any order, and agree
otherwise. -/
structure SameAccount (first second : User) : Prop where
  protocols : first.protocols.Perm second.protocols
  others : { first with protocols := second.protocols } = second

/-- The second state lists the accounts of the first in any order. -/
def Reordered (first second : State) : Prop :=
  ∃ users, first.users.Perm users ∧
    List.Forall₂ SameAccount users second.users

section Alike

variable {users others : List User}

theorem exists_sameAccount
    (alike : List.Forall₂ SameAccount users others)
    {user : User} (member : user ∈ others) :
    ∃ original ∈ users, SameAccount original user := by
  induction alike with
  | nil => cases member
  | cons account rest inductionHypothesis =>
      rcases List.mem_cons.mp member with rfl | later
      · exact ⟨_, List.mem_cons_self, account⟩
      · obtain ⟨original, listed, same⟩ := inductionHypothesis later
        exact ⟨original, List.mem_cons_of_mem _ listed, same⟩

theorem map_eq_of_alike
    {Value : Type} {part : User → Value}
    (kept : ∀ left right, SameAccount left right → part left = part right)
    (alike : List.Forall₂ SameAccount users others) :
    users.map part = others.map part := by
  induction alike with
  | nil => rfl
  | cons account rest inductionHypothesis =>
      rw [List.map_cons, List.map_cons, kept _ _ account,
        inductionHypothesis]

end Alike

namespace SameAccount

theorem username {first second : User} (same : SameAccount first second) :
    first.username = second.username := by
  rw [← same.others]

theorem recordNumber
    {first second : User} (same : SameAccount first second) :
    first.recordNumber = second.recordNumber := by
  rw [← same.others]

theorem engineHash {first second : User} (same : SameAccount first second) :
    first.engineHash = second.engineHash := by
  rw [← same.others]

theorem validUser {first second : User} (same : SameAccount first second)
    (valid : ValidUser first) : ValidUser second := by
  rw [← same.others]
  refine { valid with protocols := ?_, distinct := ?_ }
  · intro protocol member
    exact valid.protocols protocol (same.protocols.mem_iff.mpr member)
  · exact same.protocols.nodup_iff.mp valid.distinct

end SameAccount

namespace Reordered

variable {first second : State}

theorem counterpart (same : Reordered first second)
    {user : User} (member : user ∈ second.users) :
    ∃ original ∈ first.users, SameAccount original user := by
  obtain ⟨users, shuffled, alike⟩ := same
  obtain ⟨original, listed, account⟩ := exists_sameAccount alike member
  exact ⟨original, shuffled.mem_iff.mpr listed, account⟩

/-- What the order of an account's protocols leaves alone is only listed
in another order. -/
theorem map_perm (same : Reordered first second)
    {Value : Type} {part : User → Value}
    (kept :
      ∀ left right, SameAccount left right → part left = part right) :
    (first.users.map part).Perm (second.users.map part) := by
  obtain ⟨users, shuffled, alike⟩ := same
  rw [← map_eq_of_alike kept alike]
  exact shuffled.map part

theorem validState (same : Reordered first second)
    (valid : ValidState first) : ValidState second where
  users := by
    intro user member
    obtain ⟨original, listed, account⟩ := same.counterpart member
    exact account.validUser (valid.users original listed)
  names := by
    have shuffled := same.map_perm fun _ _ => SameAccount.username
    exact shuffled.nodup_iff.mp valid.names
  records := by
    have shuffled := same.map_perm fun _ _ => SameAccount.recordNumber
    exact shuffled.nodup_iff.mp valid.records

end Reordered

theorem sortUsers_pairwise (users : List User) :
    (sortUsers users).Pairwise
      fun left right => left.username ≤ right.username := by
  have total : Std.Total fun left right : User =>
      left.username ≤ right.username :=
    ⟨fun left right => String.le_total left.username right.username⟩
  have transitive : IsTrans User fun left right =>
      left.username ≤ right.username :=
    ⟨fun _ _ _ => String.le_trans⟩
  exact List.pairwise_insertionSort _ users

/-- `sort.Slice` is not stable and compares names only, but names that
differ leave it one result. -/
theorem eq_sortUsers {users sorted : List User}
    (names : (users.map User.username).Nodup)
    (shuffled : sorted.Perm users)
    (ascending : sorted.Pairwise
      fun left right => left.username ≤ right.username) :
    sorted = sortUsers users := by
  have arranged : (sortUsers users).Perm users :=
    List.perm_insertionSort _ users
  apply (shuffled.trans arranged.symm).eq_of_pairwise _ ascending
    (sortUsers_pairwise users)
  intro left right leftListed rightListed below above
  exact List.inj_on_of_nodup_map names (shuffled.mem_iff.mp leftListed)
    (arranged.mem_iff.mp rightListed) (String.le_antisymm below above)

/-- An account with its protocols in the order in which the services are
rendered. -/
def User.canonical (user : User) : User :=
  { user with
    protocols := [protoHTTP, protoSOCKS5].filter (hasProtocol user) }

theorem SameAccount.canonical {first second : User}
    (same : SameAccount first second) :
    first.canonical = second.canonical := by
  have services : hasProtocol first = hasProtocol second := by
    funext protocol
    exact same.protocols.any_eq
  rw [User.canonical, services, ← same.others]
  rfl

theorem sortUsers_canonical (users : List User) :
    (sortUsers users).map User.canonical =
      sortUsers (users.map User.canonical) := by
  apply List.map_insertionSort
  intro left _ right _
  exact Iff.rfl

/-- Sorting forgets the order of the accounts. -/
theorem Reordered.sortUsers_eq {first second : State}
    (same : Reordered first second) (valid : ValidState first) :
    (sortUsers first.users).map User.canonical =
      (sortUsers second.users).map User.canonical := by
  have shuffled := same.map_perm fun _ _ => SameAccount.canonical
  have names :
      ((second.users.map User.canonical).map User.username).Nodup := by
    rw [List.map_map]
    exact (same.validState valid).names
  rw [sortUsers_canonical, sortUsers_canonical]
  apply eq_sortUsers names _ (sortUsers_pairwise _)
  exact (List.perm_insertionSort _ _).trans shuffled

theorem hasProtocol_canonical (user : User) {protocol : Protocol}
    (known : protocol = protoHTTP ∨ protocol = protoSOCKS5) :
    hasProtocol user.canonical protocol = hasProtocol user protocol := by
  have listed : (hasProtocol user.canonical protocol = true) ↔
      hasProtocol user protocol = true := by
    rw [hasProtocol, List.any_eq_true]
    simp only [User.canonical, List.mem_filter, decide_eq_true_eq]
    constructor
    · rintro ⟨_, ⟨_, served⟩, rfl⟩
      exact served
    · intro served
      exact ⟨protocol, ⟨by simpa using known, served⟩, rfl⟩
  exact Bool.eq_iff_iff.mpr listed

theorem renderService_canonical (users : List User)
    (name directive : String) (port : Int) {protocol : Protocol}
    (known : protocol = protoHTTP ∨ protocol = protoSOCKS5) :
    renderService (users.map User.canonical) name directive port protocol =
      renderService users name directive port protocol := by
  have served : (users.map User.canonical).filter
        (fun user => hasProtocol user protocol) =
      (users.filter fun user => hasProtocol user protocol).map
        User.canonical := by
    rw [List.filter_map]
    congr 2
    funext user
    exact hasProtocol_canonical user known
  unfold renderService
  rw [served, List.map_map]
  rfl

theorem renderUserLimits_canonical (user : User) :
    renderUserLimits user.canonical = renderUserLimits user := rfl

section Rendering

variable [Build]

theorem renderAccount_canonical (user : User) :
    renderAccount user.canonical = renderAccount user := rfl

/-- Nothing in the text depends on the order of the protocols. -/
theorem renderText_canonical (settings : Settings) (users : List User) :
    renderText settings (users.map User.canonical) =
      renderText settings users := by
  have account : renderAccount ∘ User.canonical = renderAccount :=
    funext renderAccount_canonical
  have limit : renderUserLimits ∘ User.canonical = renderUserLimits :=
    funext renderUserLimits_canonical
  have accounts : renderAccounts (users.map User.canonical) =
      renderAccounts users := by
    unfold renderAccounts
    rw [List.map_map, account]
  have limits : renderLimits (users.map User.canonical) =
      renderLimits users := by
    unfold renderLimits
    rw [List.map_map, limit]
  have http := renderService_canonical users "HTTP proxy" "proxy"
    settings.httpPort (.inl rfl)
  have socks := renderService_canonical users "SOCKS5 proxy" "socks"
    settings.socks5Port (.inr rfl)
  unfold renderText
  rw [accounts, limits, http, socks]

theorem Reordered.render_eq {first second : State} {settings : Settings}
    {text : String} (same : Reordered first second)
    (rendered : render first settings = .ok text) :
    render second settings = .ok text := by
  obtain ⟨renderable, written⟩ :=
    (render_eq_ok_iff first settings text).mp rendered
  apply (render_eq_ok_iff second settings text).mpr
  refine ⟨⟨renderable.settingsValid,
    same.validState renderable.stateValid, ?_⟩, ?_⟩
  · intro user member
    obtain ⟨original, listed, account⟩ := same.counterpart member
    rw [← account.engineHash]
    exact renderable.hashes original listed
  · rw [written, ← renderText_canonical, ← renderText_canonical _
      (sortUsers second.users), same.sortUsers_eq renderable.stateValid]

/-- A deployment that reads the text it renders stops there. -/
theorem deploy_unchanged {deployer : Deployer} {state : State}
    {text : String} (rendered : render state deployer.settings = .ok text)
    {World : Type} (handle : (op : DeployOp) → World → op.Answer × World)
    {world : World}
    (found : handle .readConfigFile world = (.ok (bytesOf text), world)) :
    (deploy deployer state).run handle world =
      (({ changed := false, checksum := checksum text }, none), world) := by
  unfold deploy
  simp [rendered, found]

/-- Every order of the accounts, and of each account's protocols, renders
to the same text, and deploying it over that text only reads the
file. -/
theorem render_any_order (deployer : Deployer) {first second : State}
    {text : String} (same : Reordered first second)
    (rendered : render first deployer.settings = .ok text) :
    render second deployer.settings = .ok text ∧
      ∀ (World : Type)
        (handle : (op : DeployOp) → World → op.Answer × World)
        (world : World),
        handle .readConfigFile world = (.ok (bytesOf text), world) →
        (deploy deployer second).run handle world =
          (({ changed := false, checksum := checksum text }, none),
            world) := by
  have again := same.render_eq rendered
  refine ⟨again, ?_⟩
  intro World handle world found
  exact deploy_unchanged again handle found

end Rendering

def sampleAccount
    (username : String) (recordNumber : Int) (protocols : List Protocol) :
    User where
  username := username
  engineHash := "$3$salt$./0123456789ABCDEFGHIJ"
  recordNumber := recordNumber
  protocols := protocols
  downloadBPS := 0
  uploadBPS := 0
  quota := none

def aliceAndBob : State where
  users := [sampleAccount "alice" 1 [protoHTTP, protoSOCKS5],
    sampleAccount "bob" 2 [protoHTTP]]

def bobAndAlice : State where
  users := [sampleAccount "bob" 2 [protoHTTP],
    sampleAccount "alice" 1 [protoSOCKS5, protoHTTP]]

theorem aliceAndBob_reordered : Reordered aliceAndBob bobAndAlice := by
  refine ⟨aliceAndBob.users.reverse, (List.reverse_perm _).symm, ?_⟩
  have protocols : [protoHTTP, protoSOCKS5].Perm [protoSOCKS5, protoHTTP] :=
    List.Perm.swap _ _ _
  exact .cons ⟨List.Perm.refl _, rfl⟩ (.cons ⟨protocols, rfl⟩ .nil)

theorem aliceAndBob_rendered [Build] :
    render aliceAndBob sampleSettings =
      .ok (renderText sampleSettings (sortUsers aliceAndBob.users)) := by
  have valid : aliceAndBob.validate = none := rfl
  have hash :
      engineHashRe "$3$salt$./0123456789ABCDEFGHIJ" = true := by decide
  refine (render_eq_ok_iff _ _ _).mpr ⟨⟨sampleSettings_valid,
    (State.validate_eq_none_iff _).mp valid, ?_⟩, rfl⟩
  intro user member
  simp only [aliceAndBob, sampleAccount, List.mem_cons, List.not_mem_nil,
    or_false] at member
  rcases member with rfl | rfl <;> exact hash

/-- Two accounts in the other order, one with its protocols swapped. -/
theorem bobAndAlice_unchanged :
    ∃ text,
      @render Build.dev bobAndAlice sampleSettings = .ok text ∧
      (@deploy Build.dev (@sampleDeployer Build.dev) bobAndAlice).run
          (sampleSurroundings none).handle
          (.start ⟨some (bytesOf text), none⟩) =
        (({ changed := false, checksum := checksum text }, none),
          .start ⟨some (bytesOf text), none⟩) := by
  let _ := Build.dev
  obtain ⟨rendered, unchanged⟩ := render_any_order sampleDeployer
    aliceAndBob_reordered aliceAndBob_rendered
  exact ⟨_, rendered, unchanged _ _ _ rfl⟩

end Xoxproxy
