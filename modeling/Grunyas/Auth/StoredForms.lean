import Grunyas.Auth.Authentication
import Grunyas.Go.Base64
import Grunyas.Go.Strconv

/-!
# The stored forms of the configured password

The configuration documents three forms of the password: plain text, an md5 hash, and a SCRAM secret as
PostgreSQL stores it. The md5 method hashes whatever is configured as if it were plain text, so a stored
hash stands for another password than the one it was made of (`md5_stored_form_iff`). The parser of
SCRAM secrets decodes the two keys and keeps the salt as it is written (`parseStoredSCRAM_secret_iff`).
-/

namespace Grunyas.Auth

open GoText

/-! ### Stored md5 hashes -/

/-- The stored form of a password under the md5 method. -/
def md5StoredForm (md5Hex : Text → Text) (user password : Text) : Text :=
  text "md5" ++ md5Hex (password ++ user)

namespace Authenticator

variable {Stored : Type*}

/-- The `AuthenticateMD5` check of a client's hash. -/
def authenticateMD5 (a : Authenticator Stored) (md5Hex : Text → Text) (user clientHash : Text)
    (salt : Vector UInt8 4) : Except Text Unit :=
  if user ≠ a.cred.username then .error (text "role \"" ++ user ++ text "\" does not exist")
  else if clientHash ≠ computeMD5Password md5Hex user a.cred.password salt.toList then
    .error (text "invalid password")
  else .ok ()

variable {a : Authenticator Stored} {md5Hex : Text → Text} {user clientHash : Text}
  {salt : Vector UInt8 4}

/-- The check accepts the configured user with the hash of the configured password. -/
theorem authenticateMD5_eq_ok : a.authenticateMD5 md5Hex user clientHash salt = .ok () ↔
    user = a.cred.username ∧
      clientHash = computeMD5Password md5Hex user a.cred.password salt.toList := by
  unfold authenticateMD5
  split_ifs with huser hhash
  · simp [huser]
  · simp [hhash]
  · simp [not_not.mp huser, not_not.mp hhash]

end Authenticator

/-- An authenticator for a user with a configured password. -/
def configured {Stored : Type*} (user password method : Text) (scramCred : Option Stored) :
    Authenticator Stored := ⟨⟨user, password, method⟩, scramCred⟩

/-- The stored form of a password is accepted like the password exactly if the hash does not tell them
apart: hashed again as if it were a password, the stored form gives the same answer to the salt. -/
theorem md5_stored_form_iff {Stored : Type*} (md5Hex : Text → Text) (user password method : Text)
    (scramCred : Option Stored) (salt : Vector UInt8 4) :
    (∀ clientHash : Text,
      ((configured user (md5StoredForm md5Hex user password) method scramCred).authenticateMD5 md5Hex
          user clientHash salt = .ok () ↔
        (configured user password method scramCred).authenticateMD5 md5Hex user clientHash salt
          = .ok ()) ∧
      ((configured user password method scramCred).authenticateMD5 md5Hex user clientHash salt
          = .ok () ↔
        clientHash = computeMD5Password md5Hex user password salt.toList)) ↔
    md5Hex (md5Hex (text "md5" ++ md5Hex (password ++ user) ++ user) ++ salt.toList) =
      md5Hex (md5Hex (password ++ user) ++ salt.toList) := by
  simp only [Authenticator.authenticateMD5_eq_ok, configured, true_and, iff_self, and_true]
  have hsame : (∀ clientHash : Text,
      (clientHash = computeMD5Password md5Hex user (md5StoredForm md5Hex user password) salt.toList ↔
        clientHash = computeMD5Password md5Hex user password salt.toList)) ↔
      computeMD5Password md5Hex user (md5StoredForm md5Hex user password) salt.toList =
        computeMD5Password md5Hex user password salt.toList := by
    constructor
    · intro h
      exact (h _).mp rfl
    · intro h clientHash
      rw [h]
  rw [hsame, computeMD5Password, computeMD5Password, List.append_cancel_left_eq, md5StoredForm]

/-- A hash without collisions tells them apart unless the password is its own stored form. -/
theorem md5_coincides_iff_of_injective {md5Hex : Text → Text} (h : Function.Injective md5Hex)
    (user password : Text) (salt : Vector UInt8 4) :
    md5Hex (md5Hex (text "md5" ++ md5Hex (password ++ user) ++ user) ++ salt.toList) =
      md5Hex (md5Hex (password ++ user) ++ salt.toList) ↔
    md5StoredForm md5Hex user password = password := by
  rw [h.eq_iff, List.append_cancel_right_eq, h.eq_iff, List.append_cancel_right_eq, md5StoredForm]

/-- The user `u` with the password `pw` is configured by the stored form of the password: the answer
that a client computes from the password is refused, although it is accepted with the password itself.
The hash here is the text itself. -/
theorem md5_stored_form_refused :
    (configured (text "u") (md5StoredForm id (text "u") (text "pw")) (text "md5")
        (none : Option Text)).authenticateMD5 id (text "u")
        (computeMD5Password id (text "u") (text "pw") [1, 2, 3, 4]) (Vector.mk #[1, 2, 3, 4] rfl) =
      .error (text "invalid password") ∧
    (configured (text "u") (text "pw") (text "md5") (none : Option Text)).authenticateMD5 id (text "u")
        (computeMD5Password id (text "u") (text "pw") [1, 2, 3, 4]) (Vector.mk #[1, 2, 3, 4] rfl) =
      .ok () := by
  decide

/-! ### Stored SCRAM secrets -/

/-- The salt, as raw bytes, and the number of iterations that a client derives its keys with. -/
structure KeyFactors where
  salt : Text
  iters : ℤ
  deriving DecidableEq, Repr

/-- The credentials that the SCRAM server stores. -/
structure StoredCredentials where
  keyFactors : KeyFactors
  storedKey : Text
  serverKey : Text
  deriving DecidableEq, Repr

/-- What is wrong with a secret. -/
inductive SecretError where
  | format
  | iterSalt
  | iterations (cause : NumError)
  | keys
  | storedKey (offset : ℕ)
  | serverKey (offset : ℕ)
  deriving DecidableEq, Repr

/-- The text of an error of the base64 decoder. -/
def corruptInput (offset : ℕ) : Text := text "illegal base64 data at input byte " ++ decimal offset

/-- The text of an error, given how a text is quoted. -/
def SecretError.message (quote : Text → Text) : SecretError → Text
  | .format => text "invalid SCRAM secret format"
  | .iterSalt => text "invalid SCRAM secret iter/salt"
  | .iterations cause => text "invalid SCRAM iterations: strconv.Atoi: parsing " ++ quote cause.num ++
      match cause.kind with
      | .errSyntax => text ": invalid syntax"
      | .errRange => text ": value out of range"
  | .keys => text "invalid SCRAM secret keys"
  | .storedKey offset => text "invalid SCRAM stored key: " ++ corruptInput offset
  | .serverKey offset => text "invalid SCRAM server key: " ++ corruptInput offset

/-- The `parseStoredSCRAM` parser of a secret as PostgreSQL stores it. -/
def parseStoredSCRAM (secret : Text) : Except SecretError StoredCredentials :=
  match splitByte 0x24 secret with
  | [_, iterSalt, keyParts] =>
    match splitByte 0x3A iterSalt with
    | [iterations, salt] =>
      match atoi iterations with
      | .error cause => .error (.iterations cause)
      | .ok iters =>
        match splitByte 0x3A keyParts with
        | [first, second] =>
          match decodeString first with
          | .error offset => .error (.storedKey offset)
          | .ok storedKey =>
            match decodeString second with
            | .error offset => .error (.serverKey offset)
            | .ok serverKey => .ok ⟨⟨salt, iters⟩, storedKey, serverKey⟩
        | _ => .error .keys
    | _ => .error .iterSalt
  | _ => .error .format

/-- The secret that PostgreSQL stores. -/
def scramSecret (iters : ℕ) (salt storedKey serverKey : Text) : Text :=
  text "SCRAM-SHA-256" ++ 0x24 :: ((decimal iters ++ 0x3A :: encodeToString salt) ++
    0x24 :: (encodeToString storedKey ++ 0x3A :: encodeToString serverKey))

/-- A secret is parsed into its iterations and keys, with the salt as it is written. -/
theorem parseStoredSCRAM_secret (iters : ℕ) (salt storedKey serverKey : Text) :
    parseStoredSCRAM (scramSecret iters salt storedKey serverKey) =
      if iters < 2 ^ 63 then .ok ⟨⟨encodeToString salt, iters⟩, storedKey, serverKey⟩
      else .error (.iterations ⟨decimal iters, .errRange⟩) := by
  have hdollar : ∀ s, (0x24 : UInt8) ∉ encodeToString s := not_mem_encodeToString (by decide) (by decide)
  have hcolon : ∀ s, (0x3A : UInt8) ∉ encodeToString s := not_mem_encodeToString (by decide) (by decide)
  have hdollarDecimal : (0x24 : UInt8) ∉ decimal iters := not_mem_decimal (Or.inl (by decide)) iters
  have hcolonDecimal : (0x3A : UInt8) ∉ decimal iters := not_mem_decimal (Or.inr (by decide)) iters
  have hfields : splitByte 0x24 (scramSecret iters salt storedKey serverKey) =
      [text "SCRAM-SHA-256", decimal iters ++ 0x3A :: encodeToString salt,
        encodeToString storedKey ++ 0x3A :: encodeToString serverKey] := by
    rw [scramSecret, splitByte_append (by decide), splitByte_append, splitByte_of_not_mem]
    · simp [hdollar]
    · simp [hdollar, hdollarDecimal]
  rw [parseStoredSCRAM, hfields]
  dsimp only
  rw [splitByte_append hcolonDecimal, splitByte_of_not_mem (hcolon salt), splitByte_append (hcolon storedKey),
    splitByte_of_not_mem (hcolon serverKey)]
  dsimp only
  rw [decodeString_encodeToString, decodeString_encodeToString, atoi_decimal]
  by_cases hiters : iters < 2 ^ 63
  · rw [if_pos hiters, if_pos hiters]
  · rw [if_neg hiters, if_neg hiters]

/-- Only the empty text is its own encoding. -/
theorem encodeToString_eq_self_iff (s : Text) : encodeToString s = s ↔ s = [] := by
  constructor
  · intro h
    have hlength := length_encodeToString s
    rw [h] at hlength
    exact List.length_eq_zero_iff.mp (by omega)
  · rintro rfl
    rfl

/-- A secret is parsed into what was encoded exactly if its salt is empty and its iterations fit the
integer type. -/
theorem parseStoredSCRAM_secret_iff (iters : ℕ) (salt storedKey serverKey : Text) :
    parseStoredSCRAM (scramSecret iters salt storedKey serverKey) =
      .ok ⟨⟨salt, iters⟩, storedKey, serverKey⟩ ↔
    salt = [] ∧ iters < 2 ^ 63 := by
  rw [parseStoredSCRAM_secret, ← encodeToString_eq_self_iff]
  split_ifs with hiters
  · simp only [Except.ok.injEq, StoredCredentials.mk.injEq, KeyFactors.mk.injEq, and_true]
    rw [and_iff_left hiters]
  · exact iff_of_false (by simp) fun h => hiters h.2

/-- The salt of a secret is kept in base64. -/
theorem parseStoredSCRAM_keeps_base64 :
    scramSecret 4096 (text "salt") (text "k") (text "s") =
      text "SCRAM-SHA-256$4096:c2FsdA==$aw==:cw==" ∧
    parseStoredSCRAM (text "SCRAM-SHA-256$4096:c2FsdA==$aw==:cw==") =
      .ok ⟨⟨text "c2FsdA==", 4096⟩, text "k", text "s"⟩ ∧
    text "c2FsdA==" ≠ text "salt" := by
  decide

end Grunyas.Auth
