/-
This file models the rules on emails and passwords that registration and login
share, and the values they work on. An email is trimmed and folded, a password
is brought to Unicode normal form and trimmed. The tables that these rules take
from the interpreter and the password hasher are parameters. Folding settles, so
normalizing an email twice is normalizing it once, and a user can only be built
with a normalized email.
-/

import Trutina.Folding
import Trutina.Errors

namespace Trutina

/-! ### Emails and passwords -/

/-- What the interpreter's Unicode tables say: the NFKC form of a text, and whether the category of
a character is one of control, format and unassigned characters. -/
structure Unicode where
  nfkc : String → String
  isOther : Char → Bool

/-- The longest email that is accepted, once normalized. -/
def maxEmailLength : Nat := 254

/-- The longest password that is accepted, as typed and once normalized. -/
def maxPasswordLength : Nat := 128

/-- The shortest password that registration accepts, once normalized. -/
def minPasswordLength : Nat := 8

/-- The canonical form of an email. -/
def normalizeEmail (email : String) : String := casefold (strip email)

/-- The text that is hashed and verified for a password. -/
def normalizePassword (unicode : Unicode) (password : String) : String :=
  strip (unicode.nfkc password)

/-- Whether a normalized email has text on both sides of its one `@`, and no white space or
control characters. -/
def isWellFormedEmail (unicode : Unicode) (email : String) : Bool :=
  if email = "" ∨ maxEmailLength < email.length then false
  else if email.toList.any fun character => isSpace character || unicode.isOther character then
    false
  else
    match email.toList.dropWhile (· != '@') with
    | [] => false
    | _ :: domain =>
      !(email.toList.takeWhile (· != '@')).isEmpty && !domain.isEmpty && !domain.contains '@'

/-- Normalizing is idempotent. -/
theorem normalizeEmail_idempotent (email : String) :
    normalizeEmail (normalizeEmail email) = normalizeEmail email := by
  rw [normalizeEmail, normalizeEmail, strip_of_trimmed (strip_trimmed email).casefold,
    casefold_casefold]

theorem length_of_isWellFormedEmail {unicode : Unicode} {email : String}
    (wellFormed : isWellFormedEmail unicode email = true) : email.length ≤ maxEmailLength := by
  unfold isWellFormedEmail at wellFormed
  split at wellFormed
  · cases wellFormed
  · rename_i bounds
    exact not_lt.mp (not_or.mp bounds).2

theorem at_of_isWellFormedEmail {unicode : Unicode} {email : String}
    (wellFormed : isWellFormedEmail unicode email = true) : '@' ∈ email.toList := by
  by_contra absent
  have whole : email.toList.dropWhile (· != '@') = [] := by
    rw [List.dropWhile_eq_nil_iff]
    intro character member
    rw [bne_iff_ne]
    rintro rfl
    exact absent member
  unfold isWellFormedEmail at wellFormed
  simp only [whole] at wellFormed
  split at wellFormed
  · cases wellFormed
  · split at wellFormed <;> cases wellFormed

/-- Normalizing puts no `@` where there is none. -/
theorem at_of_normalizeEmail {email : String} (present : '@' ∈ (normalizeEmail email).toList) :
    '@' ∈ email.toList := by
  rw [normalizeEmail, casefold, String.toList_ofList] at present
  obtain ⟨character, member, folded⟩ := List.mem_flatMap.mp present
  have same : character = '@' := by
    rcases foldCharacter_cases character with alone | produced
    · rw [alone, List.mem_singleton] at folded
      exact folded.symm
    · have unproduced : Char.toNat '@' ∉ foldedCodes := by decide +kernel
      exact absurd (produced _ folded) unproduced
  rw [strip, String.toList_ofList] at member
  exact same ▸ (List.dropWhile_sublist _).mem ((List.rdropWhile_prefix _ _).mem member)

/-! ### Values -/

/-- The text of a UUID. -/
abbrev Uuid := String

/-- The authenticated principal. -/
structure Identity where
  subjectId : Uuid
  deriving DecidableEq, Repr

/-- A person who can authenticate. -/
structure User where
  id : Uuid
  email : String
  passwordHash : String
  isActive : Bool
  createdAt : Timestamp
  email_normalized : normalizeEmail email = email

/-- Build a user. The email is normalized. -/
def User.validate (id : Uuid) (email passwordHash : String) (isActive : Bool)
    (createdAt : Timestamp) : User where
  id := id
  email := normalizeEmail email
  passwordHash := passwordHash
  isActive := isActive
  createdAt := createdAt
  email_normalized := normalizeEmail_idempotent email

/-- What a caller presents to log in. -/
structure Credentials where
  email : String
  password : String
  clientIp : Option String
  deriving DecidableEq, Repr

/-- A record of something that happened. -/
structure AuthEvent where
  name : String
  context : List (String × String)
  deriving DecidableEq, Repr

/-- The password hasher: a hash depends on a salt, and a password is checked against a hash. -/
structure Hasher where
  hash : (salt password : String) → String
  verify : (password passwordHash : String) → Bool
  needsRehash : (passwordHash : String) → Bool

/-- A hash is matched by the password it was made from and by no other. -/
def Hasher.Sound (hasher : Hasher) : Prop :=
  ∀ salt password other, hasher.verify other (hasher.hash salt password) = true ↔ other = password

/-- Tables for plain ASCII, where every text is in normal form. -/
def Unicode.ascii : Unicode where
  nfkc := id
  isOther := fun character => decide (character.toNat < 32 ∨ character.toNat = 127)

/-- A hasher that keeps the password as it is. -/
def Hasher.plain : Hasher where
  hash := fun _ password => password
  verify := fun password passwordHash => decide (password = passwordHash)
  needsRehash := fun _ => false

theorem Hasher.plain_sound : Hasher.plain.Sound :=
  fun _ _ _ => decide_eq_true_iff

/-! ### Errors -/

/-- The code an error of the contract carries. -/
def Raised.code? : Raised → Option ErrorCode
  | .appError code _ => some code
  | .validationAppError code _ => some code
  | _ => none

/-- What an error of the contract tells its reader. -/
def Raised.context : Raised → List (String × String)
  | .appError _ context => context
  | _ => []

/-- Whether the context of an error has a text in it. -/
def Raised.Mentions (error : Raised) (text : String) : Prop :=
  ∃ entry ∈ error.context,
    text.toList <:+: entry.1.toList ∨ text.toList <:+: entry.2.toList

/-- The one failure that every bad login reports. -/
def invalidCredentials : Raised := .appError .authInvalidCredentials []

namespace AppError

/-- Too many failures. A negative delay is clamped. -/
def throttled (retryAfterSeconds : Int) : Raised :=
  .appError .authThrottled [("retry_after_seconds", toString (max retryAfterSeconds 0))]

/-- The email is taken. The context never has the email itself. -/
def duplicateUserEmail : Raised :=
  .appError .duplicateUserEmail [("resource", "user"), ("field", "email")]

theorem duplicateUserEmail_mentions {email : String} (wellFormed : '@' ∈ email.toList) :
    ¬duplicateUserEmail.Mentions email := by
  have plain : ∀ entry ∈ duplicateUserEmail.context,
      '@' ∉ entry.1.toList ∧ '@' ∉ entry.2.toList := by decide +kernel
  rintro ⟨entry, member, within | within⟩
  · exact (plain entry member).1 (within.subset wellFormed)
  · exact (plain entry member).2 (within.subset wellFormed)

end AppError

end Trutina
