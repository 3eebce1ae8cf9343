import Xoxproxy.Config.Validation

/-!
# What an accepted configuration boots with

`config validate` accepts a file by its own rules; the server then needs a
port to listen on and engine settings that the deployer accepts.
-/

namespace Xoxproxy.Configuration

/-- The listen address ends with a port in decimal digits. -/
def DecimalPort (listen : String) : Prop :=
  ∃ host port number, netSplitHostPort listen = some (host, port) ∧
    decimal port = some number ∧ 1 ≤ number ∧ number ≤ 65535

section Property

variable [Build]

/-- The server can listen, and `NewDeployer` accepts the settings. -/
structure Boots (config : Config) : Prop where
  port : DecimalPort config.server.listen
  deployer : ∃ deployer,
    newDeployer (engineSettingsFrom config) = .ok deployer

/-- What `Validate` leaves unchecked. -/
structure Unambiguous (config : Config) : Prop where
  digits : ∀ host port,
    netSplitHostPort config.server.listen = some (host, port) →
      port.all Char.isDigit = true
  range : ∀ host port number,
    netSplitHostPort config.server.listen = some (host, port) →
      parsePort port = .ok number → number ≤ 65535
  untraversed : hasTraversal config.engine.configDir = false
  printable : config.engine.configDir.toList.any isControl = false

end Property

section Ports

variable {text : List Char} {number : Nat}

theorem digit_ne {char other : Char} (digit : char.isDigit = true)
    (letter : other.isDigit = false) : char ≠ other := by
  rintro rfl
  rw [letter] at digit
  cases digit

/-- A text of digits is scanned as a whole. -/
theorem sscanInt_digits (digits : text.all Char.isDigit = true) :
    sscanInt text = (decimal text).bind fun number : Nat =>
      if -2 ^ 63 ≤ (number : Int) ∧ (number : Int) < 2 ^ 63 then
        some (number : Int)
      else none := by
  cases text with
  | nil => rfl
  | cons first rest =>
      have all := List.all_eq_true.mp digits
      have digit := all first List.mem_cons_self
      have skipped : scanSkipSpace (first :: rest) = some (first :: rest) := by
        rw [scanSkipSpace, if_neg (digit_ne digit (by decide)),
          isSpace_of_isDigit digit]
        rfl
      have unsigned : signed (first :: rest) = (false, first :: rest) := by
        unfold signed
        split
        · rename_i same
          exact absurd (List.cons.inj same).1 (digit_ne digit (by decide))
        · rename_i same
          exact absurd (List.cons.inj same).1 (digit_ne digit (by decide))
        · rfl
      have taken : scanDigits (first :: rest) = first :: rest := by
        rw [scanDigits, unsigned]
        exact List.takeWhile_eq_self_iff.mpr all
      change (scanSkipSpace (first :: rest)).bind (fun rest =>
        (decimal (scanDigits rest)).bind fun magnitude => _) = _
      rw [skipped, Option.bind_some, taken, unsigned]
      rfl

theorem sscanInt_number (digits : text.all Char.isDigit = true)
    (read : decimal text = some number) (fits : number < 2 ^ 63) :
    sscanInt text = some (number : Int) := by
  rw [sscanInt_digits digits, read, Option.bind_some]
  exact if_pos ⟨by omega, by omega⟩

/-- The number that is scanned from digits is their value. -/
theorem decimal_of_sscanInt {value : Int}
    (digits : text.all Char.isDigit = true)
    (scanned : sscanInt text = some value) :
    ∃ number, decimal text = some number ∧ value = number := by
  rw [sscanInt_digits digits] at scanned
  obtain ⟨number, read, kept⟩ := Option.bind_eq_some_iff.mp scanned
  split at kept
  · exact ⟨number, read, (Option.some.inj kept).symm⟩
  · cases kept

theorem decimalPort_iff {listen : String} {host port : List Char}
    {number : Int} (parts : netSplitHostPort listen = some (host, port))
    (scanned : sscanInt port = some number) (positive : 1 ≤ number) :
    DecimalPort listen ↔
      port.all Char.isDigit = true ∧ number ≤ 65535 := by
  constructor
  · rintro ⟨otherHost, otherPort, magnitude, otherParts, read, low, high⟩
    rw [parts] at otherParts
    cases otherParts
    have digits : port.all Char.isDigit = true := by
      unfold decimal at read
      split at read
      · rename_i decimals
        exact decimals.2
      · cases read
    have whole := sscanInt_number digits read (by omega)
    rw [scanned] at whole
    have same : number = magnitude := Option.some.inj whole
    exact ⟨digits, by omega⟩
  · rintro ⟨digits, high⟩
    obtain ⟨magnitude, read, rfl⟩ := decimal_of_sscanInt digits scanned
    exact ⟨host, port, magnitude, parts, read, by omega, by omega⟩

end Ports

section Paths

/-- A directory and a file below it are traversed apart. -/
theorem hasTraversal_below (dir file : String) :
    hasTraversal (dir ++ "/" ++ file) =
      (hasTraversal dir || hasTraversal file) := by
  have text : (dir ++ "/" ++ file).toList =
      dir.toList ++ '/' :: file.toList := by simp
  rw [hasTraversal, text, List.splitOnP_append_cons _ _ (by decide),
    List.any_append]
  rfl

theorem pathErrors_below_iff [Build] {dir file : String} (name : String)
    (absolute : isAbsPOSIX dir = true)
    (plain : hasTraversal file = false)
    (printable : file.toList.any isControl = false) :
    pathErrors name (dir ++ "/" ++ file) = [] ↔
      hasTraversal dir = false ∧ dir.toList.any isControl = false := by
  have head : isAbs (dir ++ "/" ++ file) = true := by
    have start : dir.toList.head? = some '/' := by
      simpa [isAbsPOSIX] using absolute
    rw [isAbs, decide_eq_true_iff, String.append_assoc]
    exact head_append start _
  have controls : (dir ++ "/" ++ file).toList.any isControl =
      dir.toList.any isControl := by
    have slash : "/".toList.any isControl = false := by decide
    rw [String.toList_append, String.toList_append, List.any_append,
      List.any_append, slash, printable, Bool.or_false, Bool.or_false]
  rw [pathErrors, head, hasTraversal_below, plain, controls]
  cases hasTraversal dir <;> cases dir.toList.any isControl <;> simp

end Paths

section Accepted

theorem validateEnginePort_spec {name : String} {port : Int}
    (accepted : validateEnginePort name port = []) :
    1 ≤ port ∧ port ≤ 65535 := by
  rw [validateEnginePort] at accepted
  split at accepted
  · cases accepted
  · omega

variable [Build]

theorem newDeployer_ok_iff (settings : Settings) :
    (∃ deployer, newDeployer settings = .ok deployer) ↔
      settings.errors = [] := by
  have clean : settings.validate = none ↔ settings.errors = [] := by
    rw [Settings.validate]
    split <;> simp_all
  rw [← clean]
  constructor
  · rintro ⟨deployer, accepted⟩
    unfold newDeployer at accepted
    split at accepted
    · cases accepted
    · assumption
  · intro valid
    unfold newDeployer
    split
    · rename_i error found
      rw [valid] at found
      cases found
    · exact ⟨_, rfl⟩

theorem listenErrors_spec {listen : String}
    (accepted : listenErrors listen = []) :
    ∃ host port number, netSplitHostPort listen = some (host, port) ∧
      sscanInt port = some number ∧ 1 ≤ number := by
  rw [listenErrors] at accepted
  split at accepted
  · cases accepted
  · split at accepted
    · cases accepted
    · rename_i host port split'
      refine ⟨host, port, ?_⟩
      split at accepted
      · cases accepted
      · unfold parsePort at accepted
        cases scanned : sscanInt port with
        | none =>
            rw [scanned] at accepted
            cases accepted
        | some number =>
            rw [scanned] at accepted
            dsimp only at accepted
            split at accepted
            · cases accepted
            · exact ⟨number, split', rfl, by omega⟩

/-- What an accepted configuration is known to be. -/
structure Accepted (config : Config) : Prop where
  listen : listenErrors config.server.listen = []
  directory : isAbsPOSIX config.engine.configDir = true
  http : 1 ≤ config.proxy.httpPort ∧ config.proxy.httpPort ≤ 65535
  socks5 : 1 ≤ config.proxy.socks5Port ∧ config.proxy.socks5Port ≤ 65535
  different : config.proxy.httpPort ≠ config.proxy.socks5Port

/-- The deployer accepts the settings of an accepted configuration where
the directory is neither traversed nor holds control characters. -/
theorem engineSettings_errors_iff {config : Config}
    (accepted : Accepted config) :
    (engineSettingsFrom config).errors = [] ↔
      hasTraversal config.engine.configDir = false ∧
        config.engine.configDir.toList.any isControl = false := by
  have file : ∀ name file, hasTraversal file = false →
      file.toList.any isControl = false →
      (pathErrors name (config.engine.configDir ++ ("/" ++ file)) = [] ↔
        hasTraversal config.engine.configDir = false ∧
          config.engine.configDir.toList.any isControl = false) := by
    intro name file plain printable
    rw [← String.append_assoc]
    exact pathErrors_below_iff name accepted.directory plain printable
  have port : ∀ name number, 1 ≤ number ∧ number ≤ 65535 →
      validatePort name number = [] := by
    intro name number range
    exact if_neg (by omega)
  have configFile := file "config_file" "3proxy.cfg" (by decide) (by decide)
  have pidFile := file "pid_file" "3proxy.pid" (by decide) (by decide)
  have counterFile :=
    file "counter_file" "3proxy.3cf" (by decide) (by decide)
  have logFile := file "log_file" "traffic.log" (by decide) (by decide)
  change pathErrors "config_file" (_ ++ ("/" ++ "3proxy.cfg")) ++
    pathErrors "pid_file" (_ ++ ("/" ++ "3proxy.pid")) ++
    pathErrors "counter_file" (_ ++ ("/" ++ "3proxy.3cf")) ++
    pathErrors "log_file" (_ ++ ("/" ++ "traffic.log")) ++
    validatePort "http" config.proxy.httpPort ++
    validatePort "socks5" config.proxy.socks5Port ++
    (if config.proxy.httpPort = config.proxy.socks5Port then _ else []) ++
    [] ++ [] ++ [] = [] ↔ _
  rw [port _ _ accepted.http, port _ _ accepted.socks5,
    if_neg accepted.different]
  simp only [List.append_nil, List.append_eq_nil_iff]
  rw [configFile, pidFile, counterFile, logFile]
  simp only [and_self]

variable [ConfigReaders]

theorem accepted_of_validate {config : Config}
    (accepted : config.validate = none) : Accepted config := by
  have clean := (Config.validate_eq_none_iff config).mp accepted
  simp only [Config.errors, List.append_eq_nil_iff, proxyErrors] at clean
  obtain ⟨⟨⟨⟨⟨⟨⟨⟨listen, -⟩, -⟩, -⟩, -⟩, directory⟩, ⟨http, socks5⟩,
    different⟩, -⟩, -⟩ := clean
  refine ⟨listen, ?_, validateEnginePort_spec http,
    validateEnginePort_spec socks5, ?_⟩
  · by_contra relative
    rw [absoluteErrors, if_pos (by simpa using relative)] at directory
    cases directory
  · intro same
    rw [if_pos same] at different
    cases different

/-- An accepted configuration boots exactly where its port is written in
digits and in range, and its directory is plain. -/
theorem accepted_boots_iff (config : Config)
    (accepted : config.validate = none) :
    Boots config ↔ Unambiguous config := by
  have known := accepted_of_validate accepted
  obtain ⟨host, port, number, parts, scanned, positive⟩ :=
    listenErrors_spec known.listen
  have listening := decimalPort_iff parts scanned positive
  have settings := (newDeployer_ok_iff (engineSettingsFrom config)).trans
    (engineSettings_errors_iff known)
  constructor
  · rintro ⟨decimal, deployed⟩
    obtain ⟨digits, range⟩ := listening.mp decimal
    obtain ⟨untraversed, printable⟩ := settings.mp deployed
    refine ⟨?_, ?_, untraversed, printable⟩
    · intro otherHost otherPort otherParts
      rw [parts] at otherParts
      cases otherParts
      exact digits
    · intro otherHost otherPort other otherParts read
      rw [parts] at otherParts
      cases otherParts
      rw [parsePort, scanned] at read
      cases read
      exact range
  · intro plain
    refine ⟨listening.mpr ⟨plain.digits _ _ parts, ?_⟩,
      settings.mpr ⟨plain.untraversed, plain.printable⟩⟩
    apply plain.range _ _ _ parts
    rw [parsePort, scanned]

end Accepted

/-- Readers that know one duration, and URLs of a scheme and a host. -/
@[reducible] def ConfigReaders.plain : ConfigReaders where
  parseURL := fun text =>
    let scheme := text.toList.takeWhile (· ≠ ':')
    match text.toList.drop scheme.length with
    | ':' :: '/' :: '/' :: host =>
        .ok {
          scheme := String.ofList (scheme.map Char.toLower)
          host := String.ofList (host.takeWhile (· ≠ '/'))
          path := String.ofList (host.dropWhile (· ≠ '/')) }
    | _ => .error (.plain "no authority")
  parseDuration := fun text =>
    if text = "30s" then .ok (30 * 10 ^ 9)
    else .error (.plain ("time: invalid duration " ++ text))

/-- The built-in configuration boots. -/
theorem defaults_boot : @Boots Build.dev Config.defaults := by
  apply (@accepted_boots_iff Build.dev .plain Config.defaults
    (by decide +kernel)).mpr
  have parts : netSplitHostPort Config.defaults.server.listen =
      some ("127.0.0.1".toList, "8080".toList) := by decide +kernel
  have scanned : @parsePort Build.dev "8080".toList = .ok 8080 := rfl
  refine @Unambiguous.mk Build.dev _ ?_ ?_ (by decide +kernel)
    (by decide +kernel)
  · intro host port other
    rw [parts] at other
    cases other
    decide
  · intro host port number other read
    rw [parts] at other
    cases other
    rw [scanned] at read
    cases read
    decide

/-- Text behind the number of the port is accepted. -/
def trailingPort : Config :=
  { Config.defaults with
    server := { listen := "127.0.0.1:8080http", publicBaseURL := "" } }

theorem trailing_port_accepted :
    @Config.validate Build.dev .plain trailingPort = none ∧
      ¬@Boots Build.dev trailingPort := by
  have accepted : @Config.validate Build.dev .plain trailingPort = none := by
    decide +kernel
  refine ⟨accepted, fun boots => ?_⟩
  obtain ⟨host, port, number, parts, read, -, -⟩ :=
    @Boots.port Build.dev _ boots
  have known : netSplitHostPort trailingPort.server.listen =
      some ("127.0.0.1".toList, "8080http".toList) := by decide +kernel
  rw [known] at parts
  cases parts
  have unread : decimal "8080http".toList = none := by decide
  rw [unread] at read
  cases read

end Xoxproxy.Configuration
