import Mathlib.Data.Bool.AllAny
import Mathlib.Data.List.Infix
import Mathlib.Data.List.TakeWhile
import Xoxproxy.Library.TrimmedTexts

/-!
# Generic URIs

The generic syntax `scheme://userinfo@host:port` and what follows it, as a
parser.  The user information ends at the first `@`; a name and a password
are separated by the first colon and percent-decoded.
-/

namespace GenericUris

open TrimmedTexts

def isUnreserved (char : Char) : Bool :=
  char.isAlphanum || decide (char ∈ "-._~".toList)

def isSubDelim (char : Char) : Bool := decide (char ∈ "!$&'()*+,;=".toList)

/-- The characters of a registered name. -/
def isRegName (char : Char) : Bool := isUnreserved char || isSubDelim char

/-- The characters of user information, and of an address in brackets. -/
def isUserinfo (char : Char) : Bool := isRegName char || char == ':'

/-- The characters of a path and a query. -/
def isQuery (char : Char) : Bool :=
  isUserinfo char || decide (char ∈ "@/?".toList)

/-- The characters of an authority: it ends before the path, the query and
the fragment. -/
def isAuthority (char : Char) : Bool := !decide (char ∈ "/?#".toList)

/-- The UTF-8 octets of a text. -/
def octets (text : List Char) : List UInt8 :=
  text.flatMap String.utf8EncodeChar

def hexValue (char : Char) : Option Nat :=
  if char.isDigit then some (char.toNat - 48)
  else if 65 ≤ char.toNat ∧ char.toNat ≤ 70 then some (char.toNat - 55)
  else if 97 ≤ char.toNat ∧ char.toNat ≤ 102 then some (char.toNat - 87)
  else none

/-- The octets of a text of allowed characters and percent-encoded octets. -/
def decode (allowed : Char → Bool) : List Char → Option (List UInt8)
  | [] => some []
  | '%' :: high :: low :: rest =>
      (hexValue high).bind fun first =>
        (hexValue low).bind fun second =>
          (decode allowed rest).map fun bytes =>
            .ofNat (16 * first + second) :: bytes
  | char :: rest =>
      if char ≠ '%' ∧ allowed char then
        (decode allowed rest).map fun bytes =>
          String.utf8EncodeChar char ++ bytes
      else none

structure Credentials where
  username : List UInt8
  password : Option (List UInt8)
  deriving DecidableEq, Repr

structure Uri where
  scheme : List Char
  credentials : Option Credentials
  host : List Char
  port : Option Nat
  tail : List Char
  deriving DecidableEq, Repr

def readCredentials (userinfo : List Char) : Option Credentials :=
  (decode isUserinfo (userinfo.takeWhile (· ≠ ':'))).bind fun username =>
    match userinfo.dropWhile (· ≠ ':') with
    | [] => some ⟨username, none⟩
    | _ :: rest =>
        (decode isUserinfo rest).map fun password =>
          ⟨username, some password⟩

def readPort : List Char → Option (Option Nat)
  | [] => some none
  | char :: digits =>
      if char = ':' ∧ digits.all Char.isDigit then
        some (if digits = [] then none
          else some (Nat.ofDigitChars 10 digits 0))
      else none

/-- A host, by the brackets an address in brackets, and the port. -/
def readHost (text : List Char) : Option (List Char × Option Nat) :=
  if text.head? = some '[' then
    match text.dropWhile (· ≠ ']') with
    | [] => none
    | close :: port =>
        if (text.tail.takeWhile (· ≠ ']')).all isUserinfo then
          (readPort port).map fun port =>
            (text.takeWhile (· ≠ ']') ++ [close], port)
        else none
  else
    (decode isRegName (text.takeWhile (· ≠ ':'))).bind fun _ =>
      (readPort (text.dropWhile (· ≠ ':'))).map fun port =>
        (text.takeWhile (· ≠ ':'), port)

def readAuthority (text : List Char) :
    Option (Option Credentials × List Char × Option Nat) :=
  match text.dropWhile (· ≠ '@') with
  | [] => (readHost text).map fun host => (none, host)
  | _ :: rest =>
      (readCredentials (text.takeWhile (· ≠ '@'))).bind fun credentials =>
        (readHost rest).map fun host => (some credentials, host)

def isScheme : List Char → Bool
  | [] => false
  | first :: rest =>
      first.isAlpha &&
        rest.all fun char => char.isAlphanum || decide (char ∈ "+-.".toList)

/-- A path, a query and a fragment. -/
def isTail (text : List Char) : Bool :=
  (decode isQuery (text.takeWhile (· ≠ '#'))).isSome &&
    (decode isQuery (text.dropWhile (· ≠ '#')).tail).isSome

def parse (text : List Char) : Option Uri :=
  match text.dropWhile (· ≠ ':') with
  | ':' :: '/' :: '/' :: rest =>
      if isScheme (text.takeWhile (· ≠ ':')) ∧
          isTail (rest.dropWhile isAuthority) then
        (readAuthority (rest.takeWhile isAuthority)).map
          fun (credentials, host, port) =>
            ⟨text.takeWhile (· ≠ ':'), credentials, host, port,
              rest.dropWhile isAuthority⟩
      else none
  | _ => none

variable {allowed : Char → Bool}

theorem ne_of_allowed {char other : Char} (plain : allowed char = true)
    (outside : allowed other = false) : char ≠ other := by
  rintro rfl
  exact Bool.false_ne_true (outside.symm.trans plain)

theorem decode_cons {char : Char} (letter : char ≠ '%') (rest : List Char) :
    decode allowed (char :: rest) =
      if allowed char then
        (decode allowed rest).map fun bytes =>
          String.utf8EncodeChar char ++ bytes
      else none := by
  rw [decode]
  · simp [letter]
  · intro high low rest percent
    exact absurd percent letter

theorem decode_of_allowed (escapes : allowed '%' = false) {text : List Char}
    (all : ∀ char ∈ text, allowed char = true) :
    decode allowed text = some (octets text) := by
  induction text with
  | nil => rfl
  | cons char text inductionHypothesis =>
      obtain ⟨first, others⟩ := List.forall_mem_cons.mp all
      rw [decode_cons (ne_of_allowed first escapes), if_pos first, inductionHypothesis others]
      rfl

theorem length_le_octets (text : List Char) :
    text.length ≤ (octets text).length := by
  induction text with
  | nil => simp [octets]
  | cons char text inductionHypothesis =>
      have one := char.utf8Size_pos
      rw [octets, List.flatMap_cons, List.length_append,
        String.length_utf8EncodeChar, List.length_cons]
      rw [octets] at inductionHypothesis
      omega

/-- A text decodes to fewer octets than characters when it escapes any. -/
theorem length_decode (ascii : ∀ char, allowed char = true → char.utf8Size = 1)
    {text : List Char} {bytes : List UInt8}
    (read : decode allowed text = some bytes) :
    bytes.length < text.length ∨
      bytes.length = text.length ∧ ∀ char ∈ text, allowed char = true := by
  fun_induction decode allowed text generalizing bytes with
  | case1 =>
      obtain rfl := Option.some.inj read
      exact Or.inr ⟨rfl, by simp⟩
  | case2 high low rest inductionHypothesis =>
      obtain ⟨first, _, read⟩ := Option.bind_eq_some_iff.mp read
      obtain ⟨second, _, read⟩ := Option.bind_eq_some_iff.mp read
      obtain ⟨more, decoded, rfl⟩ := Option.map_eq_some_iff.mp read
      simp only [List.length_cons]
      rcases inductionHypothesis decoded with fewer | ⟨same, _⟩
      · exact Or.inl (by omega)
      · exact Or.inl (by omega)
  | case3 char rest _ kept inductionHypothesis =>
      obtain ⟨more, decoded, rfl⟩ := Option.map_eq_some_iff.mp read
      have one := ascii char kept.2
      rw [List.length_append, String.length_utf8EncodeChar, one,
        List.length_cons]
      rcases inductionHypothesis decoded with fewer | ⟨same, others⟩
      · exact Or.inl (by omega)
      · exact Or.inr ⟨by omega, List.forall_mem_cons.mpr ⟨kept.2, others⟩⟩
  | case4 => cases read

/-- A part of a text that decodes to the whole of it is the whole, and
escapes nothing. -/
theorem allowed_of_decode
    (ascii : ∀ char, allowed char = true → char.utf8Size = 1)
    {part text : List Char} (prefixed : part <+: text)
    (read : decode allowed part = some (octets text)) :
    ∀ char ∈ text, allowed char = true := by
  have long := length_le_octets text
  have short := prefixed.length_le
  rcases length_decode ascii read with fewer | ⟨same, all⟩
  · omega
  · have whole : part = text := prefixed.eq_of_length (by omega)
    rwa [whole] at all

/-! ## A URI with a user name and a password -/

def withCredentials (scheme username password host port : List Char) :
    List Char :=
  scheme ++ ':' :: '/' :: '/' ::
    (username ++ ':' :: (password ++ '@' :: (host ++ ':' :: port)))

/-- A registered name without escapes or an address in brackets. -/
inductive UriHost : List Char → Prop where
  | name {text : List Char} (plain : ∀ char ∈ text, isRegName char = true) :
      UriHost text
  | literal {address : List Char}
      (plain : ∀ char ∈ address, isUserinfo char = true) :
      UriHost ('[' :: (address ++ [']']))

theorem utf8Size_of_le {char : Char} (small : char.toNat ≤ 127) :
    char.utf8Size = 1 := by
  rw [Char.utf8Size, if_pos]
  exact small

theorem isUserinfo_ascii (char : Char) (plain : isUserinfo char = true) :
    char.utf8Size = 1 := by
  apply utf8Size_of_le
  have listed : ∀ char ∈ "-._~!$&'()*+,;=:".toList, char.toNat ≤ 127 :=
    List.all_iff_forall_prop.mp (by decide +kernel)
  simp only [isUserinfo, isRegName, isUnreserved, isSubDelim,
    Bool.or_eq_true, decide_eq_true_eq, beq_iff_eq] at plain
  rcases plain with ((alphanumeric | mark) | mark) | rfl
  · unfold Char.isAlphanum Char.isAlpha Char.isUpper Char.isLower
      at alphanumeric
    simp only [Bool.or_eq_true, Bool.and_eq_true, decide_eq_true_eq]
      at alphanumeric
    rcases alphanumeric with (upper | lower) | digit
    · exact Nat.le_trans upper.2 (by decide)
    · exact Nat.le_trans lower.2 (by decide)
    · exact Nat.le_trans (Char.isDigit_iff_toNat.mp digit).2 (by decide)
  · exact listed char (by revert mark; simp; grind)
  · exact listed char (by revert mark; simp; grind)
  · decide

/-- A run of characters up to a separator. -/
theorem run_separator {keeps : Char → Bool} {run rest : List Char}
    {separator : Char} (kept : ∀ char ∈ run, keeps char = true)
    (stops : keeps separator = false) :
    (run ++ separator :: rest).takeWhile keeps = run ∧
      (run ++ separator :: rest).dropWhile keeps = separator :: rest := by
  apply takeWhile_dropWhile_iff.mpr
  refine ⟨rfl, kept, ?_⟩
  intro char first
  rwa [← Option.some.inj first]

theorem readPort_digits {port : List Char} (present : port ≠ [])
    (digits : ∀ char ∈ port, char.isDigit = true) :
    readPort (':' :: port) = some (some (Nat.ofDigitChars 10 port 0)) := by
  rw [readPort, if_pos ⟨rfl, List.all_eq_true.mpr digits⟩, if_neg present]

theorem readHost_host {host port : List Char} (valid : UriHost host)
    (present : port ≠ []) (digits : ∀ char ∈ port, char.isDigit = true) :
    readHost (host ++ ':' :: port) =
      some (host, some (Nat.ofDigitChars 10 port 0)) := by
  have ports := readPort_digits present digits
  cases valid with
  | name plain =>
      have inside : ∀ char ∈ host, decide (char ≠ ':') = true :=
        fun char member => decide_eq_true (ne_of_allowed (plain char member) rfl)
      have unbracketed : (host ++ ':' :: port).head? ≠ some '[' := by
        cases host with
        | nil => simp
        | cons first rest =>
            intro bracket
            exact ne_of_allowed (plain first List.mem_cons_self) rfl
              (Option.some.inj bracket)
      obtain ⟨front, behind⟩ :=
        @run_separator (· ≠ ':') host port ':' inside (by decide)
      rw [readHost, if_neg unbracketed, front, behind,
        decode_of_allowed (by decide) plain, ports]
      rfl
  | @literal address plain =>
      have inside : ∀ char ∈ '[' :: address, decide (char ≠ ']') = true := by
        refine List.forall_mem_cons.mpr ⟨by decide, ?_⟩
        rintro char member
        refine decide_eq_true ?_
        rintro rfl
        exact absurd (plain ']' member) (by decide)
      obtain ⟨front, behind⟩ :=
        @run_separator (· ≠ ']') ('[' :: address) (':' :: port) ']' inside
          (by decide)
      obtain ⟨within, _⟩ := @run_separator (· ≠ ']') address (':' :: port)
        ']' (List.forall_mem_cons.mp inside).2 (by decide)
      have text : '[' :: (address ++ [']']) ++ ':' :: port =
          ('[' :: address) ++ ']' :: ':' :: port := by simp
      rw [text, readHost, if_pos (by simp), front, behind, List.cons_append,
        List.tail_cons, within]
      simp only
      rw [if_pos (List.all_eq_true.mpr plain), ports]
      rfl

/-- What the parser needs of the parts around a password. -/
structure Parts (scheme username host port : List Char) : Prop where
  scheme : isScheme scheme = true
  username : ∀ char ∈ username, isRegName char = true
  host : UriHost host
  present : port ≠ []
  digits : ∀ char ∈ port, char.isDigit = true

variable {scheme username password host port : List Char}

theorem isScheme_ne_colon (valid : isScheme scheme = true) :
    ∀ char ∈ scheme, decide (char ≠ ':') = true := by
  intro char member
  refine decide_eq_true ?_
  rintro rfl
  cases scheme with
  | nil => cases valid
  | cons first rest =>
      rw [isScheme, Bool.and_eq_true, List.all_eq_true] at valid
      rcases List.mem_cons.mp member with rfl | later
      · exact absurd valid.1 (by decide)
      · exact absurd (valid.2 ':' later) (by decide)

theorem isAuthority_of_isUserinfo {char : Char}
    (plain : isUserinfo char = true) : isAuthority char = true := by
  have outside : ∀ char ∈ "/?#".toList, isUserinfo char = false :=
    List.all_iff_forall_prop.mp (by decide +kernel)
  rw [isAuthority, Bool.not_eq_true', decide_eq_false_iff_not]
  intro delimiter
  exact ne_of_allowed plain (outside char delimiter) rfl

theorem isUserinfo_of_isRegName {char : Char}
    (plain : isRegName char = true) : isUserinfo char = true := by
  rw [isUserinfo, plain, Bool.true_or]

theorem UriHost.isAuthority (valid : UriHost host) :
    ∀ char ∈ host, isAuthority char = true := by
  cases valid with
  | name plain =>
      intro char member
      exact isAuthority_of_isUserinfo
        (isUserinfo_of_isRegName (plain char member))
  | literal plain =>
      simp only [List.forall_mem_cons, List.forall_mem_append]
      refine ⟨by decide +kernel, ?_, by decide +kernel,
        fun _ member => absurd member List.not_mem_nil⟩
      intro char member
      exact isAuthority_of_isUserinfo (plain char member)

/-- The authority begins with the user name and a colon; the parser goes by
what it reads in it. -/
theorem parse_withCredentials (parts : Parts scheme username host port) :
    parse (withCredentials scheme username password host port) =
      let behind := password ++ '@' :: (host ++ ':' :: port)
      if isTail (behind.dropWhile isAuthority) then
        (readAuthority (username ++ ':' :: behind.takeWhile isAuthority)).map
          fun (credentials, host, port) =>
            ⟨scheme, credentials, host, port, behind.dropWhile isAuthority⟩
      else none := by
  have inside : ∀ char ∈ username ++ [':'], isAuthority char = true := by
    intro char member
    rcases List.mem_append.mp member with named | colon
    · exact isAuthority_of_isUserinfo
        (isUserinfo_of_isRegName (parts.username char named))
    · rw [List.mem_singleton.mp colon]
      decide
  obtain ⟨front, rest⟩ := @run_separator (· ≠ ':') scheme
    ('/' :: '/' :: (username ++ ':' :: (password ++ '@' ::
      (host ++ ':' :: port)))) ':' (isScheme_ne_colon parts.scheme) (by decide)
  have text : username ++ ':' :: (password ++ '@' :: (host ++ ':' :: port)) =
      (username ++ [':']) ++ (password ++ '@' :: (host ++ ':' :: port)) := by
    simp
  rw [parse, withCredentials, front, rest]
  simp only [parts.scheme, true_and]
  rw [text, List.dropWhile_append_of_pos inside,
    List.takeWhile_append_of_pos inside, List.append_assoc]
  rfl

theorem readCredentials_pair
    (plain : ∀ char ∈ username, isRegName char = true)
    (text : List Char) :
    readCredentials (username ++ ':' :: text) =
      (decode isUserinfo text).map fun password =>
        ⟨octets username, some password⟩ := by
  have inside : ∀ char ∈ username, decide (char ≠ ':') = true :=
    fun char member => decide_eq_true (ne_of_allowed (plain char member) rfl)
  have allowed : ∀ char ∈ username, isUserinfo char = true :=
    fun char member => isUserinfo_of_isRegName (plain char member)
  obtain ⟨front, behind⟩ :=
    @run_separator (· ≠ ':') username text ':' inside (by decide)
  rw [readCredentials, front, behind, decode_of_allowed (by decide) allowed]
  rfl

/-- Where there is user information, the password in it is read up to the
first `@`. -/
theorem readAuthority_pair
    (plain : ∀ char ∈ username, isRegName char = true)
    (text : List Char) :
    readAuthority (username ++ ':' :: text) =
      match text.dropWhile (· ≠ '@') with
      | [] => (readHost (username ++ ':' :: text)).map fun host => (none, host)
      | _ :: rest =>
          (decode isUserinfo (text.takeWhile (· ≠ '@'))).bind fun password =>
            (readHost rest).map fun host =>
              (some ⟨octets username, some password⟩, host) := by
  have inside : ∀ char ∈ username ++ [':'], decide (char ≠ '@') = true := by
    intro char member
    rcases List.mem_append.mp member with named | colon
    · exact decide_eq_true (ne_of_allowed (plain char named) rfl)
    · rw [List.mem_singleton.mp colon]
      decide
  have joined (text : List Char) :
      username ++ ':' :: text = (username ++ [':']) ++ text := by simp
  rw [readAuthority, joined, List.dropWhile_append_of_pos inside,
    List.takeWhile_append_of_pos inside, ← joined, ← joined,
    readCredentials_pair plain]
  cases text.dropWhile (· ≠ '@') with
  | nil => rfl
  | cons separator rest =>
      simp only [Option.bind_map]
      rfl

theorem taken_isPrefix (password rest : List Char) :
    ((password ++ '@' :: rest).takeWhile isAuthority).takeWhile (· ≠ '@')
      <+: password := by
  induction password with
  | nil =>
      rw [List.nil_append, List.takeWhile_cons_of_pos (by decide),
        List.takeWhile_cons_of_neg (by decide)]
  | cons char password inductionHypothesis =>
      rw [List.cons_append]
      by_cases kept : isAuthority char = true
      · rw [List.takeWhile_cons_of_pos kept]
        by_cases separator : char = '@'
        · rw [List.takeWhile_cons_of_neg (by simpa using separator)]
          exact List.nil_prefix
        · rw [List.takeWhile_cons_of_pos (by simpa using separator)]
          exact List.prefix_cons_inj char |>.mpr inductionHypothesis
      · rw [List.takeWhile_cons_of_neg kept, List.takeWhile_nil]
        exact List.nil_prefix

/-- A password is read back from between the name and the host exactly when
all its characters may stand in user information. -/
theorem reads_credentials_iff (parts : Parts scheme username host port) :
    (∃ uri, parse (withCredentials scheme username password host port) =
        some uri ∧
      uri.credentials = some ⟨octets username, some (octets password)⟩ ∧
      uri.host = host ∧ uri.port = some (Nat.ofDigitChars 10 port 0)) ↔
      ∀ char ∈ password, isUserinfo char = true := by
  rw [parse_withCredentials parts]
  simp only [readAuthority_pair parts.username]
  constructor
  · rintro ⟨uri, read, credentials, _⟩
    split at read
    · obtain ⟨⟨found, place⟩, authority, rfl⟩ :=
        Option.map_eq_some_iff.mp read
      subst credentials
      split at authority
      · obtain ⟨_, _, same⟩ := Option.map_eq_some_iff.mp authority
        cases same
      · obtain ⟨bytes, decoded, placed⟩ :=
          Option.bind_eq_some_iff.mp authority
        obtain ⟨_, _, same⟩ := Option.map_eq_some_iff.mp placed
        simp only [Prod.mk.injEq, Option.some.injEq,
          Credentials.mk.injEq, true_and] at same
        rw [same.1] at decoded
        exact allowed_of_decode isUserinfo_ascii (taken_isPrefix _ _) decoded
    · cases read
  · intro plain
    have whole : ∀ char ∈ password ++ '@' :: (host ++ ':' :: port),
        isAuthority char = true := by
      simp only [List.forall_mem_append, List.forall_mem_cons]
      refine ⟨fun char member => isAuthority_of_isUserinfo (plain char member),
        by decide, parts.host.isAuthority, by decide, ?_⟩
      intro char member
      apply isAuthority_of_isUserinfo
      have alphanumeric : char.isAlphanum = true := by
        unfold Char.isAlphanum
        rw [parts.digits char member, Bool.or_true]
      simp [isUserinfo, isRegName, isUnreserved, alphanumeric]
    have inside : ∀ char ∈ password, decide (char ≠ '@') = true :=
      fun char member => decide_eq_true (ne_of_allowed (plain char member) rfl)
    obtain ⟨front, behind⟩ := @run_separator (· ≠ '@') password
      (host ++ ':' :: port) '@' inside (by decide)
    rw [List.dropWhile_eq_nil_iff.mpr whole,
      List.takeWhile_eq_self_iff.mpr whole, if_pos (by decide), front, behind]
    simp only
    rw [decode_of_allowed (by decide) plain,
      readHost_host parts.host parts.present parts.digits]
    exact ⟨_, rfl, rfl, rfl, rfl⟩

end GenericUris
