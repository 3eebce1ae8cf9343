import Mathlib.Data.Bool.AllAny
import Mathlib.Data.List.GetD
import Xoxproxy.Library.GenericUris
import Xoxproxy.Users.Validation

/-!
# Proxy URLs to copy

`CredentialModal` of `src/pages/Users.tsx` shows a new credential once, as
URLs for both protocols.
-/

namespace Xoxproxy.Web

open GenericUris

/-- `NewCredential`. -/
structure NewCredential where
  username : String
  password : String

/-- A template of the dialog, for `location.hostname`. -/
def credentialUrl (scheme port : String) (cred : NewCredential)
    (hostname : String) : String :=
  scheme ++ "://" ++ cred.username ++ ":" ++ cred.password ++ "@" ++
    hostname ++ ":" ++ port

def httpUrl (cred : NewCredential) (hostname : String) : String :=
  credentialUrl "http" "3128" cred hostname

def socksUrl (cred : NewCredential) (hostname : String) : String :=
  credentialUrl "socks5" "1080" cred hostname

/-- The URL is one of the generic syntax that names the credential, the host
and the port. -/
def Carries (url : String) (cred : NewCredential) (hostname : String)
    (port : Nat) : Prop :=
  ∃ uri, parse url.toList = some uri ∧
    uri.credentials = some ⟨octets cred.username.toList,
      some (octets cred.password.toList)⟩ ∧
    uri.host = hostname.toList ∧ uri.port = some port

theorem credentialUrl_toList (scheme port : String) (cred : NewCredential)
    (hostname : String) :
    (credentialUrl scheme port cred hostname).toList =
      withCredentials scheme.toList cred.username.toList
        cred.password.toList hostname.toList port.toList := by
  simp [credentialUrl, withCredentials]

/-- The characters of a username need no escape. -/
theorem isRegName_of_validUsername {name : String}
    (valid : ValidUsername name) :
    ∀ char ∈ name.toList, isRegName char = true := by
  intro char member
  rw [isRegName, Bool.or_eq_true, isUnreserved, Bool.or_eq_true]
  left
  rcases valid.chars char member with alphanumeric | mark
  · left
    simp only [isAlphanumeric, Bool.or_eq_true, Bool.and_eq_true,
      decide_eq_true_eq] at alphanumeric
    unfold Char.isAlphanum Char.isAlpha Char.isUpper Char.isLower Char.isDigit
    simp only [Bool.or_eq_true, Bool.and_eq_true, decide_eq_true_eq]
    rcases alphanumeric with (lower | upper) | digit
    · exact Or.inl (Or.inr lower)
    · exact Or.inl (Or.inl upper)
    · exact Or.inr digit
  · right
    simp only [isUsernamePunctuation, Bool.or_eq_true, decide_eq_true_eq]
      at mark
    rcases mark with (rfl | rfl) | rfl <;> decide

variable {cred : NewCredential} {hostname : String}

theorem carries_iff {scheme port : String} (known : isScheme scheme.toList = true)
    (present : port.toList ≠ [])
    (digits : ∀ char ∈ port.toList, char.isDigit = true)
    (username : ValidUsername cred.username) (host : UriHost hostname.toList) :
    Carries (credentialUrl scheme port cred hostname) cred hostname
        (Nat.ofDigitChars 10 port.toList 0) ↔
      ∀ char ∈ cred.password.toList, isUserinfo char = true := by
  rw [Carries, credentialUrl_toList]
  exact reads_credentials_iff
    ⟨known, isRegName_of_validUsername username, host, present, digits⟩

/-- The schemes and the ports of the two templates. -/
theorem templates_read :
    (isScheme "http".toList = true ∧ isScheme "socks5".toList = true) ∧
      ("3128".toList.all Char.isDigit = true ∧
        "1080".toList.all Char.isDigit = true) ∧
      Nat.ofDigitChars 10 "3128".toList 0 = 3128 ∧
      Nat.ofDigitChars 10 "1080".toList 0 = 1080 := by
  decide +kernel

/-- Both URLs carry the credential exactly when no character of the password
would have to be escaped. -/
theorem urls_carry_iff (username : ValidUsername cred.username)
    (host : UriHost hostname.toList) :
    (Carries (httpUrl cred hostname) cred hostname 3128 ∧
      Carries (socksUrl cred hostname) cred hostname 1080) ↔
      ∀ char ∈ cred.password.toList, isUserinfo char = true := by
  obtain ⟨schemes, digits, httpPort, socksPort⟩ := templates_read
  have http := @carries_iff cred hostname "http" "3128" schemes.1
    (by decide) (List.all_iff_forall_prop.mp digits.1) username host
  have socks := @carries_iff cred hostname "socks5" "1080" schemes.2
    (by decide) (List.all_iff_forall_prop.mp digits.2) username host
  rw [httpPort] at http
  rw [socksPort] at socks
  rw [httpUrl, socksUrl, http, socks, and_self]

def passwordAlphabet : String :=
  "abcdefghijkmnopqrstuvwxyzABCDEFGHJKLMNPQRSTUVWXYZ23456789"

/-- `GeneratePassword` of `internal/auth/password.go`, for the bytes of the
random source. -/
def generatePassword (random : List UInt8) : String :=
  String.ofList (random.map fun byte =>
    passwordAlphabet.toList.getD
      (byte.toNat % passwordAlphabet.toList.length) 'a')

theorem isUserinfo_generatePassword (random : List UInt8) :
    ∀ char ∈ (generatePassword random).toList, isUserinfo char = true := by
  have plain : ∀ char ∈ passwordAlphabet.toList, isUserinfo char = true :=
    List.all_iff_forall_prop.mp (by decide +kernel)
  intro char member
  rw [generatePassword, String.toList_ofList] at member
  obtain ⟨byte, _, rfl⟩ := List.mem_map.mp member
  have bound : byte.toNat % passwordAlphabet.toList.length <
      passwordAlphabet.toList.length := Nat.mod_lt _ (by decide)
  rw [List.getD_eq_getElem _ _ bound]
  exact plain _ (List.getElem_mem bound)

theorem sample_names :
    @validateUsername Build.dev "alice" = none ∧
      "proxy.example".toList.all isRegName = true := by
  decide +kernel

theorem validUsername_alice : ValidUsername "alice" :=
  (@validateUsername_eq_none_iff Build.dev "alice").mp sample_names.1

theorem host_example : UriHost "proxy.example".toList :=
  .name (List.all_iff_forall_prop.mp sample_names.2)

theorem urls_carry_generated :
    let cred : NewCredential :=
      ⟨"alice", generatePassword (List.replicate 20 200)⟩
    Carries (httpUrl cred "proxy.example") cred "proxy.example" 3128 ∧
      Carries (socksUrl cred "proxy.example") cred "proxy.example" 1080 :=
  (urls_carry_iff validUsername_alice host_example).mpr
    (isUserinfo_generatePassword _)

/-- An `@` in the password ends the user information too early. -/
theorem urls_not_carry :
    ¬ ∀ (cred : NewCredential) (hostname : String),
      ValidUsername cred.username →
      @validatePassword Build.dev cred.password cred.username = none →
      UriHost hostname.toList →
      Carries (httpUrl cred hostname) cred hostname 3128 ∧
        Carries (socksUrl cred hostname) cred hostname 1080 := by
  intro carry
  obtain ⟨accepted, unread⟩ :
      @validatePassword Build.dev "p@ss-word-2024" "alice" = none ∧
        parse (httpUrl ⟨"alice", "p@ss-word-2024"⟩
          "proxy.example").toList = none := by
    decide +kernel
  obtain ⟨⟨uri, read, _⟩, _⟩ := carry ⟨"alice", "p@ss-word-2024"⟩
    "proxy.example" validUsername_alice accepted host_example
  rw [unread] at read
  cases read

end Xoxproxy.Web
