import Mathlib.Data.Bool.AllAny
import Xoxproxy.Config.Validation
import Xoxproxy.Library.InternetAddresses
import Xoxproxy.Library.TrimmedTexts

/-!
# The address of a client

`clientIP` of `internal/api/middleware.go` keys the rate limiter and the
login throttle.  Behind a proxy on the same host it goes by a header.
-/

namespace Xoxproxy.Api

open InternetAddresses TrimmedTexts Xoxproxy.Configuration

/-- The host of a remote address; the whole of it without a port. -/
def remoteHost (remoteAddr : String) : String :=
  match netSplitHostPort remoteAddr with
  | some (host, _) => String.ofList host
  | none => remoteAddr

/-- Whether the direct peer is on the same host. -/
def fromLoopback (remoteAddr : String) : Bool :=
  match readAddress (remoteHost remoteAddr).toList with
  | some address => isLoopback address
  | none => false

/-- `clientIP`, for the remote address of a request and its
`X-Forwarded-For`, empty without one. -/
def clientIP (remoteAddr forwarded : String) : String :=
  if fromLoopback remoteAddr ∧ forwarded ≠ "" then
    match Engine.cut ',' forwarded.toList with
    | some (first, _) => trimSpace (String.ofList first)
    | none => trimSpace forwarded
  else remoteHost remoteAddr

/-- What a proxy sends on: the address of its peer behind the value that
the client sent, if it sent one. -/
def appendForwarded (peer : String) : Option String → String
  | none => peer
  | some value => value ++ ", " ++ peer

/-- The text of an address. -/
structure AddressText (peer : String) : Prop where
  nonempty : peer ≠ ""
  plain : ∀ char ∈ peer.toList, char ≠ ',' ∧ isSpace char = false

/-- A header value begins with an item, between blanks and up to the first
comma. -/
def Names (value : String) (item : List Char) : Prop :=
  ∃ first rest, value.toList = first ++ rest ∧ ',' ∉ first ∧
    (rest = [] ∨ rest.head? = some ',') ∧
    Between isSpace first item ∧ Trimmed isSpace item

/-- The item that a client names, the peer itself without a header. -/
def ClientNames (peer : String) (item : List Char) : Option String → Prop
  | none => item = peer.toList
  | some value => Names value item

theorem trimSpace_toList (text : String) :
    (trimSpace text).toList = trim isSpace text.toList := by
  rw [trimSpace, String.toList_ofList, trim]

/-- What precedes the first comma, with or without one. -/
theorem names_iff {value : String} {item : List Char} :
    Names value item ↔
      trim isSpace (value.toList.takeWhile (· ≠ ',')) = item := by
  rw [trim_eq_iff]
  constructor
  · rintro ⟨first, rest, split, free, ends, between⟩
    have taken : value.toList.takeWhile (· ≠ ',') = first := by
      have kept : ∀ char ∈ first, decide (char ≠ ',') = true := by
        intro char member
        exact decide_eq_true (ne_of_mem_of_not_mem member free)
      rw [split, List.takeWhile_append_of_pos kept]
      rcases ends with rfl | comma
      · simp
      · obtain ⟨tail, rfl⟩ := List.head?_eq_some_iff.mp comma
        simp
    rw [taken]
    exact between
  · intro between
    refine ⟨value.toList.takeWhile (· ≠ ','), value.toList.dropWhile (· ≠ ','),
      List.takeWhile_append_dropWhile.symm, ?_, ?_, between⟩
    · intro member
      simpa using List.mem_takeWhile_imp member
    · cases rest : value.toList.dropWhile (· ≠ ',') with
      | nil => exact Or.inl rfl
      | cons char tail =>
          have stopped := dropWhile_head value.toList char
            (by rw [rest]; rfl)
          have comma : char = ',' := by simpa using stopped
          exact Or.inr (by rw [comma]; rfl)

/-- An address has nothing to trim. -/
theorem AddressText.trimSpace {peer : String} (address : AddressText peer) :
    trimSpace peer = peer := by
  rw [← String.toList_inj, trimSpace_toList, trim_eq_iff]
  refine ⟨⟨[], [], by simp, by simp, by simp⟩, ⟨?_, ?_⟩⟩
  · intro char first
    exact (address.plain char (List.mem_of_head? first)).2
  · intro char last
    exact (address.plain char (List.mem_of_getLast? last)).2

section Proxied

variable {remoteAddr peer : String}

/-- Behind the proxy a request is keyed by what its client names. -/
theorem clientIP_eq_iff (proxied : fromLoopback remoteAddr = true)
    (address : AddressText peer) (client : Option String)
    (item : List Char) :
    (clientIP remoteAddr (appendForwarded peer client)).toList = item ↔
      ClientNames peer item client := by
  cases client with
  | none =>
      have uncut : Engine.cut ',' peer.toList = none :=
        if_neg fun member => (address.plain ',' member).1 rfl
      rw [appendForwarded, clientIP, if_pos ⟨proxied, address.nonempty⟩, uncut]
      dsimp only
      rw [address.trimSpace, ClientNames]
      exact eq_comm
  | some value =>
      have header : (appendForwarded peer (some value)).toList =
          value.toList ++ ',' :: ' ' :: peer.toList := by
        rw [appendForwarded, String.toList_append, String.toList_append,
          List.append_assoc]
        rfl
      have comma : ',' ∈ (appendForwarded peer (some value)).toList := by
        rw [header]
        simp
      have present : appendForwarded peer (some value) ≠ "" := by
        intro empty
        rw [empty] at comma
        cases comma
      have first : (appendForwarded peer (some value)).toList.takeWhile
          (· ≠ ',') = value.toList.takeWhile (· ≠ ',') := by
        rw [header, List.takeWhile_append]
        split
        · rename_i whole
          have same := (List.takeWhile_prefix (· ≠ ',')).eq_of_length whole
          have comma : (',' :: ' ' :: peer.toList).takeWhile (· ≠ ',') = [] :=
            List.takeWhile_cons_of_neg (by simp)
          rw [comma, List.append_nil, same]
        · rfl
      rw [clientIP, if_pos ⟨proxied, present⟩, Engine.cut, if_pos comma]
      dsimp only
      rw [trimSpace_toList, String.toList_ofList, first, ClientNames,
        names_iff]

/-- Two headers of one peer are keyed alike exactly if they name the same
item. -/
theorem clientIP_same_iff (remoteAddr peer : String)
    (proxied : fromLoopback remoteAddr = true) (address : AddressText peer)
    (first second : Option String) :
    (clientIP remoteAddr (appendForwarded peer first) =
        clientIP remoteAddr (appendForwarded peer second) ∧
      clientIP remoteAddr (appendForwarded peer first) ≠ "") ↔
      ∃ item, item ≠ [] ∧ ClientNames peer item first ∧
        ClientNames peer item second := by
  constructor
  · rintro ⟨same, nonempty⟩
    refine ⟨_, ?_, (clientIP_eq_iff proxied address first _).mp rfl,
      (clientIP_eq_iff proxied address second _).mp (by rw [same])⟩
    intro empty
    exact nonempty (String.toList_inj.mp empty)
  · rintro ⟨item, nonempty, named, also⟩
    have left := (clientIP_eq_iff proxied address first item).mpr named
    have right := (clientIP_eq_iff proxied address second item).mpr also
    refine ⟨String.toList_inj.mp (left.trans right.symm), ?_⟩
    intro empty
    rw [empty] at left
    exact nonempty left.symm

end Proxied

/-- Two headers with the same first item, between blanks in one of
them. -/
theorem clientIP_same_first :
    clientIP "127.0.0.1:40000"
          (appendForwarded "192.0.2.1" (some " 198.51.100.7 ,203.0.113.9")) =
        clientIP "127.0.0.1:40000"
          (appendForwarded "192.0.2.1" (some "198.51.100.7")) ∧
      clientIP "127.0.0.1:40000"
        (appendForwarded "192.0.2.1"
          (some " 198.51.100.7 ,203.0.113.9")) ≠ "" := by
  have address : AddressText "192.0.2.1" :=
    ⟨by decide, List.all_iff_forall_prop.mp (by decide +kernel)⟩
  exact (clientIP_same_iff "127.0.0.1:40000" "192.0.2.1" (by decide) address
    _ _).mpr ⟨"198.51.100.7".toList, by decide,
      names_iff.mpr (by decide +kernel), names_iff.mpr (by decide +kernel)⟩

/-- A client names its own key. -/
theorem clientIP_forged :
    ¬ ∀ (remoteAddr peer : String) (first second : Option String),
      fromLoopback remoteAddr = true → AddressText peer →
        clientIP remoteAddr (appendForwarded peer first) =
            clientIP remoteAddr (appendForwarded peer second) ∧
          clientIP remoteAddr (appendForwarded peer first) ≠ "" := by
  intro always
  have address : AddressText "192.0.2.1" :=
    ⟨by decide, List.all_iff_forall_prop.mp (by decide +kernel)⟩
  have same := (always "127.0.0.1:40000" "192.0.2.1" none (some "203.0.113.9")
    (by decide) address).1
  exact absurd same (by decide)

end Xoxproxy.Api
