import Mathlib.Data.List.TakeDrop
import Xoxproxy.Config.Validation
import Xoxproxy.Library.Base64
import Xoxproxy.Library.TrimmedTexts

/-!
# Stored password hashes

`internal/auth/password.go`.  A stored hash names the parameters it was made
with, and `VerifyPassword` runs `argon2.IDKey` with the ones it finds.
-/

namespace Xoxproxy.Auth.PasswordHashes

open TrimmedTexts Xoxproxy.Configuration

/-- `argon2.IDKey`; without a key it panics. -/
structure Argon2 where
  idKey : (password salt : Bytes) → (time memory : UInt32) →
    (threads : UInt8) → (keyLen : UInt32) → Option Bytes
  panics_iff : ∀ password salt time memory threads keyLen,
    idKey password salt time memory threads keyLen = none ↔
      time < 1 ∨ threads < 1 ∨ keyLen = 0
  length_eq : ∀ password salt time memory threads keyLen key,
    idKey password salt time memory threads keyLen = some key →
      key.length = keyLen.toNat

/-- `argon2Params`. -/
structure Argon2Params where
  memory : UInt32
  time : UInt32
  threads : UInt8
  deriving DecidableEq, Repr

def hashParams : Argon2Params := ⟨64 * 1024, 3, 2⟩

def argon2KeyLen : UInt32 := 32

/-- `argon2.Version`. -/
def version : Nat := 19

/-- The text of a hash, as `HashPassword` formats it. -/
def phcText (params : Argon2Params) (salt key : Bytes) : String :=
  "$argon2id$v=" ++ toString version ++ "$m=" ++
    toString params.memory.toNat ++ ",t=" ++ toString params.time.toNat ++
    ",p=" ++ toString params.threads.toNat ++ "$" ++
    String.ofList (Base64.encode salt) ++ "$" ++
    String.ofList (Base64.encode key)

/-- `HashPassword`, for the outcome of the random source. -/
def hashPassword (argon : Argon2) (salt : Except GoError Bytes)
    (password : String) : Option (Except GoError String) :=
  match salt with
  | .error error => some (.error (error.wrap "auth: salt: " ""))
  | .ok salt =>
      (argon.idKey (bytesOf password) salt hashParams.time
        hashParams.memory hashParams.threads argon2KeyLen).map fun key =>
          .ok (phcText hashParams salt key)

/-- The literal characters of a format. -/
def scanLiteral : List Char → List Char → Option (List Char)
  | [], text => some text
  | _ :: _, [] => none
  | char :: literal, first :: text =>
      if char = first then scanLiteral literal text else none

/-- The verb `%d` for an unsigned integer of some bits: the number and the
text behind it. -/
def scanUint (bits : Nat) (text : List Char) : Option (Nat × List Char) :=
  (scanSkipSpace text).bind fun rest =>
    (decimal (rest.takeWhile Char.isDigit)).bind fun value =>
      if value < 2 ^ bits then some (value, rest.dropWhile Char.isDigit)
      else none

def scanField (literal : String) (bits : Nat) (text : List Char) :
    Option (Nat × List Char) :=
  (scanLiteral literal.toList text).bind (scanUint bits)

/-- `fmt.Sscanf` with the format `m=%d,t=%d,p=%d`; it ignores what follows
the last number. -/
def scanParams (text : List Char) : Option Argon2Params :=
  (scanField "m=" 32 text).bind fun memory =>
    (scanField ",t=" 32 memory.2).bind fun time =>
      (scanField ",p=" 8 time.2).map fun threads =>
        ⟨.ofNat memory.1, .ofNat time.1, .ofNat threads.1⟩

/-- The checks that a text can fail, in the order in which they are made. -/
inductive DecodeError where
  | notPHC
  | badParams
  | badSalt
  | badKey
  deriving DecidableEq, Repr

def orError {α : Type} (error : DecodeError) :
    Option α → Except DecodeError α
  | some value => .ok value
  | none => .error error

/-- `decodeArgon2id`.  The first and the third part are not looked at. -/
def decodeArgon2id (encoded : String) :
    Except DecodeError (Argon2Params × Bytes × Bytes) :=
  match encoded.toList.splitOn '$' with
  | [_, name, _, parameters, saltText, keyText] =>
      if name ≠ "argon2id".toList then .error .notPHC
      else do
        let params ← orError .badParams (scanParams parameters)
        let salt ← orError .badSalt (Base64.decode saltText)
        let key ← orError .badKey (Base64.decode keyText)
        .ok (params, salt, key)
  | _ => .error .notPHC

/-- `VerifyPassword`; no answer is a panic. -/
def verifyPassword (argon : Argon2) (password encoded : String) :
    Option (Bool × Option GoError) :=
  match decodeArgon2id encoded with
  | .error _ => some (false, none)
  | .ok (params, salt, want) =>
      (argon.idKey (bytesOf password) salt params.time params.memory
        params.threads (.ofNat want.length)).map fun got =>
          (decide (got = want), none)

/-- Blanks without a line feed and then digits. -/
def NumberText (text : List Char) (value : Nat) : Prop :=
  ∃ blanks digits, text = blanks ++ digits ∧
    (∀ char ∈ blanks, isSpace char = true) ∧ '\n' ∉ blanks ∧
    decimal digits = some value

/-- No digit comes first. -/
def NoDigit (text : List Char) : Prop :=
  ∀ char, text.head? = some char → char.isDigit = false

def ParamsText (text : List Char) (params : Argon2Params) : Prop :=
  ∃ memory time threads tail,
    text = "m=".toList ++ (memory ++ (",t=".toList ++
      (time ++ (",p=".toList ++ (threads ++ tail))))) ∧
    NumberText memory params.memory.toNat ∧
    NumberText time params.time.toNat ∧
    NumberText threads params.threads.toNat ∧ NoDigit tail

/-- A text of six parts between dollar signs that carries parameters, a salt
and a key. -/
def ReadsAs (encoded : String) (params : Argon2Params) (salt key : Bytes) :
    Prop :=
  ∃ lead label parameters saltText keyText : List Char,
    encoded.toList = ['$'].intercalate
      [lead, "argon2id".toList, label, parameters, saltText, keyText] ∧
    (∀ part ∈ [lead, label, parameters, saltText, keyText], '$' ∉ part) ∧
    ParamsText parameters params ∧
    Base64.decode saltText = some salt ∧ Base64.decode keyText = some key

/-- A hash in the format of `HashPassword`, with parameters that
`argon2.IDKey` accepts. -/
def ValidPHC (encoded : String) : Prop :=
  ∃ params salt key, encoded = phcText params salt key ∧
    1 ≤ params.time ∧ 1 ≤ params.threads ∧ key ≠ []

theorem scanLiteral_eq_some {literal text rest : List Char} :
    scanLiteral literal text = some rest ↔ text = literal ++ rest := by
  induction literal generalizing text with
  | nil => simp [scanLiteral]
  | cons char literal inductionHypothesis =>
      cases text with
      | nil => simp [scanLiteral]
      | cons first text =>
          rw [scanLiteral, List.cons_append, List.cons.injEq]
          split
          · rename_i same
            rw [inductionHypothesis, same]
            simp
          · rename_i different
            simp [Ne.symm different]

theorem scanSkipSpace_eq (text : List Char) :
    scanSkipSpace text =
      if '\n' ∈ text.takeWhile isSpace then none
      else some (text.dropWhile isSpace) := by
  induction text with
  | nil => rfl
  | cons char text inductionHypothesis =>
      rw [scanSkipSpace]
      split
      · rename_i feed
        have space : isSpace char = true := by rw [feed]; decide
        rw [List.takeWhile_cons_of_pos space, feed,
          if_pos List.mem_cons_self]
      · rename_i letter
        split
        · rename_i space
          rw [inductionHypothesis, List.takeWhile_cons_of_pos space,
            List.dropWhile_cons_of_pos space]
          simp [Ne.symm letter]
        · rename_i solid
          rw [List.takeWhile_cons_of_neg solid,
            List.dropWhile_cons_of_neg solid, if_neg List.not_mem_nil]

theorem scanSkipSpace_eq_some {text rest : List Char} :
    scanSkipSpace text = some rest ↔
      ∃ blanks, text = blanks ++ rest ∧
        (∀ char ∈ blanks, isSpace char = true) ∧ '\n' ∉ blanks ∧
        ∀ char, rest.head? = some char → isSpace char = false := by
  rw [scanSkipSpace_eq]
  constructor
  · intro read
    split at read
    · cases read
    · rename_i line
      obtain ⟨parts, run, stops⟩ :=
        takeWhile_dropWhile_iff.mp ⟨rfl, Option.some.inj read⟩
      exact ⟨text.takeWhile isSpace, parts, run, line, stops⟩
  · rintro ⟨blanks, parts, run, line, stops⟩
    obtain ⟨front, behind⟩ := takeWhile_dropWhile_iff.mpr ⟨parts, run, stops⟩
    rw [front, behind, if_neg line]

/-- A number is read from its text up to the first character that is no
digit. -/
theorem scanUint_eq_some {bits value : Nat} {text rest : List Char} :
    scanUint bits text = some (value, rest) ↔
      ∃ number, text = number ++ rest ∧ NumberText number value ∧
        NoDigit rest ∧ value < 2 ^ bits := by
  rw [scanUint]
  constructor
  · intro read
    obtain ⟨solid, skipped, scanned⟩ := Option.bind_eq_some_iff.mp read
    obtain ⟨found, digits, bounded⟩ := Option.bind_eq_some_iff.mp scanned
    split at bounded
    · rename_i small
      obtain ⟨rfl, behind⟩ := Prod.mk.inj (Option.some.inj bounded)
      obtain ⟨blanks, parts, run, line, _⟩ :=
        scanSkipSpace_eq_some.mp skipped
      obtain ⟨halves, _, stops⟩ := takeWhile_dropWhile_iff.mp ⟨rfl, behind⟩
      refine ⟨blanks ++ solid.takeWhile Char.isDigit, ?_,
        ⟨blanks, _, rfl, run, line, digits⟩, stops, small⟩
      rw [parts, List.append_assoc, ← halves]
    · cases bounded
  · rintro ⟨_, rfl, ⟨blanks, digits, rfl, run, line, number⟩, stops, small⟩
    obtain ⟨present, numeric, _⟩ := decimal_eq_some number
    obtain ⟨front, behind⟩ :=
      takeWhile_dropWhile_iff.mpr ⟨rfl, numeric, stops⟩
    have skipped : scanSkipSpace (blanks ++ digits ++ rest) =
        some (digits ++ rest) := by
      refine scanSkipSpace_eq_some.mpr
        ⟨blanks, by rw [List.append_assoc], run, line, ?_⟩
      intro char first
      cases digits with
      | nil => exact absurd rfl present
      | cons digit digits =>
          obtain rfl := Option.some.inj first
          exact isSpace_of_isDigit (numeric _ List.mem_cons_self)
    rw [skipped, Option.bind_some, front, number, Option.bind_some, behind,
      if_pos small]

theorem scanField_eq_some {literal : String} {bits value : Nat}
    {text rest : List Char} :
    scanField literal bits text = some (value, rest) ↔
      ∃ number, text = literal.toList ++ (number ++ rest) ∧
        NumberText number value ∧ NoDigit rest ∧ value < 2 ^ bits := by
  rw [scanField, Option.bind_eq_some_iff]
  constructor
  · rintro ⟨behind, matched, read⟩
    obtain ⟨number, parts, reads⟩ := scanUint_eq_some.mp read
    refine ⟨number, ?_, reads⟩
    rw [← parts]
    exact scanLiteral_eq_some.mp matched
  · rintro ⟨number, parts, reads⟩
    exact ⟨number ++ rest, scanLiteral_eq_some.mpr parts,
      scanUint_eq_some.mpr ⟨number, rfl, reads⟩⟩

theorem scanField_text (literal : String) {bits value : Nat}
    {number rest : List Char} (reads : NumberText number value)
    (stops : NoDigit rest) (small : value < 2 ^ bits) :
    scanField literal bits (literal.toList ++ (number ++ rest)) =
      some (value, rest) :=
  scanField_eq_some.mpr ⟨number, rfl, reads, stops, small⟩

theorem scanParams_eq_some {text : List Char} {params : Argon2Params} :
    scanParams text = some params ↔ ParamsText text params := by
  rw [scanParams]
  constructor
  · intro read
    obtain ⟨⟨memory, behindMemory⟩, first, read⟩ :=
      Option.bind_eq_some_iff.mp read
    obtain ⟨⟨time, behindTime⟩, second, read⟩ :=
      Option.bind_eq_some_iff.mp read
    obtain ⟨⟨threads, tail⟩, third, rfl⟩ := Option.map_eq_some_iff.mp read
    obtain ⟨memoryText, rfl, memoryNumber, _, memorySmall⟩ :=
      scanField_eq_some.mp first
    obtain ⟨timeText, rfl, timeNumber, _, timeSmall⟩ :=
      scanField_eq_some.mp second
    obtain ⟨threadsText, rfl, threadsNumber, stops, threadsSmall⟩ :=
      scanField_eq_some.mp third
    refine ⟨memoryText, timeText, threadsText, tail, rfl, ?_, ?_, ?_, stops⟩
    · rwa [UInt32.toNat_ofNat_of_lt' memorySmall]
    · rwa [UInt32.toNat_ofNat_of_lt' timeSmall]
    · rwa [UInt8.toNat_ofNat_of_lt' threadsSmall]
  · rintro ⟨memory, time, threads, tail, rfl, memoryNumber, timeNumber,
      threadsNumber, stops⟩
    have comma (literal : String) (text : List Char)
        (start : literal.toList.head? = some ',') :
        NoDigit (literal.toList ++ text) := by
      intro char first
      rw [List.head?_append, start, Option.some_or, Option.some.injEq]
        at first
      rw [← first]
      decide
    have third := scanField_text ",p=" threadsNumber stops
      params.threads.toNat_lt
    have second := scanField_text ",t=" timeNumber
      (comma ",p=" (threads ++ tail) rfl) params.time.toNat_lt
    have first := scanField_text "m=" memoryNumber
      (comma ",t=" (time ++ (",p=".toList ++ (threads ++ tail))) rfl)
      params.memory.toNat_lt
    rw [first, Option.bind_some, second, Option.bind_some, third,
      Option.map_some]
    simp

theorem not_mem_of_mem_splitOn (separator : Char) (text : List Char) :
    ∀ part ∈ text.splitOn separator, separator ∉ part := by
  induction text with
  | nil => simp
  | cons char text inductionHypothesis =>
      rw [List.splitOn_cons_eq_if_modifyHead]
      split
      · exact List.forall_mem_cons.mpr ⟨List.not_mem_nil, inductionHypothesis⟩
      · rename_i different
        cases parts : text.splitOn separator with
        | nil => exact absurd parts (List.splitOn_ne_nil separator text)
        | cons part parts =>
            rw [parts] at inductionHypothesis
            obtain ⟨free, others⟩ :=
              List.forall_mem_cons.mp inductionHypothesis
            refine List.forall_mem_cons.mpr ⟨?_, others⟩
            intro member
            rcases List.mem_cons.mp member with same | listed
            · exact different (by simp [same])
            · exact free listed

theorem orError_eq_ok {α : Type} {error : DecodeError} {value : α}
    {read : Option α} : orError error read = .ok value ↔ read = some value := by
  cases read <;> simp [orError]

/-- The texts that are read are those of the grammar. -/
theorem decodeArgon2id_eq_ok {encoded : String} {params : Argon2Params}
    {salt key : Bytes} :
    decodeArgon2id encoded = .ok (params, salt, key) ↔
      ReadsAs encoded params salt key := by
  constructor
  · intro read
    unfold decodeArgon2id at read
    split at read
    · rename_i lead name label parameters saltText keyText parts
      split at read
      · cases read
      · rename_i named
        simp only [bind_eq_ok_iff, orError_eq_ok, Except.ok.injEq] at read
        obtain ⟨_, scanned, _, saltRead, _, keyRead, same⟩ := read
        rw [Prod.mk.injEq, Prod.mk.injEq] at same
        obtain ⟨rfl, rfl, rfl⟩ := same
        have whole : ['$'].intercalate (encoded.toList.splitOn '$') =
            encoded.toList := List.intercalate_splitOn '$'
        have free := not_mem_of_mem_splitOn '$' encoded.toList
        rw [parts] at whole free
        rw [not_not.mp named] at whole
        simp only [List.forall_mem_cons] at free
        obtain ⟨freeLead, _, rest⟩ := free
        refine ⟨lead, label, parameters, saltText, keyText, whole.symm, ?_,
          scanParams_eq_some.mp scanned, saltRead, keyRead⟩
        simp only [List.forall_mem_cons]
        exact ⟨freeLead, rest⟩
    · cases read
  · rintro ⟨lead, label, parameters, saltText, keyText, text, free, scanned,
      saltRead, keyRead⟩
    have parts : encoded.toList.splitOn '$' =
        [lead, "argon2id".toList, label, parameters, saltText, keyText] := by
      rw [text]
      apply List.splitOn_intercalate
      · simp only [List.forall_mem_cons] at free ⊢
        obtain ⟨lead, label, rest⟩ := free
        exact ⟨lead, by decide, label, rest⟩
      · simp
    rw [decodeArgon2id, parts]
    simp only
    rw [if_neg (by simp), scanParams_eq_some.mpr scanned, saltRead, keyRead]
    rfl

theorem not_mem_encode (bytes : Bytes) : '$' ∉ Base64.encode bytes := by
  intro member
  exact absurd (Base64.encode_mem bytes '$' member) (by decide)

theorem numberText_toString (value : Nat) :
    NumberText (toString value).toList value :=
  ⟨[], (toString value).toList, rfl, by simp, by simp,
    decimal_natText value⟩

theorem not_mem_toString (value : Nat) : '$' ∉ (toString value).toList := by
  intro member
  obtain ⟨_, numeric, _⟩ := decimal_eq_some (decimal_natText value)
  exact absurd (numeric '$' member) (by decide)

/-- The parameters as `phcText` writes them. -/
def paramsText (params : Argon2Params) : List Char :=
  "m=".toList ++ ((toString params.memory.toNat).toList ++
    (",t=".toList ++ ((toString params.time.toNat).toList ++
      (",p=".toList ++ ((toString params.threads.toNat).toList ++ [])))))

theorem not_mem_paramsText (params : Argon2Params) :
    '$' ∉ paramsText params := by
  have numbers := not_mem_toString
  simp only [paramsText, List.mem_append, not_or]
  exact ⟨by decide, numbers _, by decide, numbers _, by decide, numbers _,
    List.not_mem_nil⟩

theorem phcText_toList (params : Argon2Params) (salt key : Bytes) :
    (phcText params salt key).toList = ['$'].intercalate
      [[], "argon2id".toList, "v=19".toList, paramsText params,
        Base64.encode salt, Base64.encode key] := by
  have number : (toString version).toList = "19".toList := by decide
  unfold phcText
  simp only [String.toList_append, String.toList_ofList, number]
  have lead : "$argon2id$v=".toList ++ "19".toList ++ "$m=".toList =
      '$' :: ("argon2id".toList ++ '$' :: ("v=19".toList ++
        '$' :: "m=".toList)) := by decide
  have dollar : "$".toList = ['$'] := rfl
  rw [lead, dollar]
  simp [paramsText, List.intercalate]

theorem readsAs_phcText (params : Argon2Params) (salt key : Bytes) :
    ReadsAs (phcText params salt key) params salt key := by
  refine ⟨[], "v=19".toList, paramsText params, Base64.encode salt,
    Base64.encode key, phcText_toList params salt key, ?_, ?_,
    Base64.decode_encode salt, Base64.decode_encode key⟩
  · simp only [List.forall_mem_cons]
    exact ⟨List.not_mem_nil, by decide, not_mem_paramsText params,
      not_mem_encode salt, not_mem_encode key, by simp⟩
  · exact ⟨_, _, _, [], rfl, numberText_toString _, numberText_toString _,
      numberText_toString _, by simp [NoDigit]⟩

/-- A password passes against the hash that was made of it. -/
theorem verifyPassword_hashPassword {argon : Argon2}
    {salt : Except GoError Bytes} {password encoded : String}
    (made : hashPassword argon salt password = some (.ok encoded)) :
    verifyPassword argon password encoded = some (true, none) := by
  cases salt with
  | error error => simp [hashPassword] at made
  | ok salt =>
      obtain ⟨key, derived, text⟩ := Option.map_eq_some_iff.mp made
      obtain rfl := Except.ok.inj text
      have length := argon.length_eq _ _ _ _ _ _ _ derived
      have read := decodeArgon2id_eq_ok.mpr
        (readsAs_phcText hashParams salt key)
      have keyLen : UInt32.ofNat key.length = argon2KeyLen := by
        rw [length]
        rfl
      rw [verifyPassword, read]
      simp only
      rw [keyLen, derived, Option.map_some, decide_eq_true rfl]

/-! ## Any stored text -/

/-- A derivation that yields one key, cut or filled up to the length. -/
def Argon2.fixed (key : Bytes) : Argon2 where
  idKey := fun _ _ time _ threads keyLen =>
    if time < 1 ∨ threads < 1 ∨ keyLen = 0 then none
    else some (key.takeD keyLen.toNat 0)
  panics_iff := by
    intro password salt time memory threads keyLen
    split <;> simp_all
  length_eq := by
    intro password salt time memory threads keyLen derived read
    split at read
    · cases read
    · obtain rfl := Option.some.inj read
      exact List.takeD_length _ _ _

theorem Argon2.fixed_idKey {key got password salt : Bytes}
    {time memory : UInt32} {threads : UInt8} (short : key.length < 2 ^ 32)
    (derived : (Argon2.fixed key).idKey password salt time memory threads
      (.ofNat key.length) = some got) : got = key := by
  simp only [fixed] at derived
  split at derived
  · cases derived
  · rw [UInt32.toNat_ofNat_of_lt' short, List.takeD_eq_take _ le_rfl,
      List.take_length] at derived
    exact (Option.some.inj derived).symm

/-- The call returns, and accepts no text that is not a valid hash. -/
def Survives (argon : Argon2) (password encoded : String) : Prop :=
  ∃ answer, verifyPassword argon password encoded = some (answer, none) ∧
    (¬ ValidPHC encoded → answer = false)

theorem survives_of_unread {argon : Argon2} {password encoded : String}
    (unread : ∀ params salt key, ¬ ReadsAs encoded params salt key) :
    Survives argon password encoded := by
  cases read : decodeArgon2id encoded with
  | error error =>
      refine ⟨false, ?_, fun _ => rfl⟩
      rw [verifyPassword, read]
  | ok parts =>
      obtain ⟨params, salt, key⟩ := parts
      exact absurd (decodeArgon2id_eq_ok.mp read) (unread params salt key)

theorem survives_iff_of_readsAs {argon : Argon2} {password encoded : String}
    {params : Argon2Params} {salt key : Bytes}
    (reads : ReadsAs encoded params salt key) :
    Survives argon password encoded ↔
      ∃ got, argon.idKey (bytesOf password) salt params.time params.memory
          params.threads (.ofNat key.length) = some got ∧
        (¬ ValidPHC encoded → got ≠ key) := by
  rw [Survives, verifyPassword, decodeArgon2id_eq_ok.mpr reads]
  simp only [Option.map_eq_some_iff, Prod.mk.injEq, and_true]
  constructor
  · rintro ⟨_, ⟨got, derived, rfl⟩, rejects⟩
    exact ⟨got, derived, fun invalid => of_decide_eq_false (rejects invalid)⟩
  · rintro ⟨got, derived, rejects⟩
    exact ⟨_, ⟨got, derived, rfl⟩,
      fun invalid => decide_eq_false (rejects invalid)⟩

/-- Which texts the call survives, whatever `argon2` derives.  What is read
without being a valid hash is safe only with a key that no derivation has
the length of. -/
theorem verifyPassword_survives_iff (encoded : String) :
    (∀ argon password, Survives argon password encoded) ↔
      ∀ params salt key, ReadsAs encoded params salt key →
        1 ≤ params.time ∧ 1 ≤ params.threads ∧ key.length % 2 ^ 32 ≠ 0 ∧
          (ValidPHC encoded ∨ 2 ^ 32 ≤ key.length) := by
  constructor
  · intro survives params salt key reads
    have derives := survives (.fixed key) ""
    rw [survives_iff_of_readsAs reads] at derives
    obtain ⟨got, derived, rejects⟩ := derives
    have normal : ¬ (params.time < 1 ∨ params.threads < 1 ∨
        UInt32.ofNat key.length = 0) := by
      rw [← (Argon2.fixed key).panics_iff (bytesOf "") salt params.time
        params.memory, derived]
      simp
    simp only [not_or] at normal
    obtain ⟨time, threads, length⟩ := normal
    refine ⟨UInt32.not_lt.mp time, UInt8.not_lt.mp threads, ?_, ?_⟩
    · intro whole
      exact length (UInt32.toNat_inj.mp (by simpa using whole))
    · by_contra! escapes
      obtain ⟨invalid, short⟩ := escapes
      exact rejects invalid (Argon2.fixed_idKey short derived)
  · intro accepted argon password
    by_cases read : ∃ params salt key, ReadsAs encoded params salt key
    · obtain ⟨params, salt, key, reads⟩ := read
      obtain ⟨time, threads, length, shape⟩ :=
        accepted params salt key reads
      rw [survives_iff_of_readsAs reads]
      have normal : ¬ (params.time < 1 ∨ params.threads < 1 ∨
          UInt32.ofNat key.length = 0) := by
        rintro (low | low | zero)
        · exact UInt32.not_lt.mpr time low
        · exact UInt8.not_lt.mpr threads low
        · exact length (by simpa using congrArg UInt32.toNat zero)
      rw [← argon.panics_iff (bytesOf password) salt params.time
        params.memory] at normal
      obtain ⟨got, derived⟩ := Option.ne_none_iff_exists'.mp normal
      refine ⟨got, derived, ?_⟩
      rintro invalid rfl
      -- A key of 4 GiB or more is longer than the one that is asked for.
      have asked := argon.length_eq _ _ _ _ _ _ _ derived
      have long := shape.resolve_left invalid
      have cut : got.length = got.length % 2 ^ 32 := asked.trans (by simp)
      omega
    · apply survives_of_unread
      intro params salt key reads
      exact read ⟨params, salt, key, reads⟩

/-- A corrupt time cost is read and reaches `argon2.IDKey`. -/
theorem verifyPassword_panics :
    ¬ ∀ argon password encoded, Survives argon password encoded := by
  intro survives
  obtain ⟨answer, returned, _⟩ := survives (.fixed []) "hunter2"
    "$argon2id$v=19$m=65536,t=0,p=2$AAAA$AAAA"
  have panics : verifyPassword (.fixed []) "hunter2"
      "$argon2id$v=19$m=65536,t=0,p=2$AAAA$AAAA" = none := by
    decide
  rw [panics] at returned
  cases returned

end Xoxproxy.Auth.PasswordHashes
