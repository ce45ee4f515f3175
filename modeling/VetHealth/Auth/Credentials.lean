import VetHealth.Auth.Calls

/-!
# VetHealth.Auth.Credentials

**What a stored password is.** The entity's hooks hash a password exactly when it differs from the
one that was loaded, so that a payload's plaintext is hashed once and a loaded row can be saved
again without being hashed a second time. `lastSet` reads off the history of a run which plaintext
was set last for a user, and under which salt; `stored_credentials` says that the stored password is
the hash of that plaintext, in every interleaving, and that a call that sets no password leaves
every stored one as it is.
-/

namespace VetHealth

open Js Store Resumption Transition

/-! ### The hooks of the entity -/

/-- A user in memory, by the two properties that the hooks read and write. -/
structure UserObject where
  password : Option String
  previousPassword : Option String

namespace UserObject

/-- `usersRepository.create(payload)`: nothing has loaded the object. -/
def create (password : Option String) : UserObject := ⟨password, none⟩

/-- `loadPreviousPassword`, the `AfterLoad` hook. -/
def loadPreviousPassword (user : UserObject) : UserObject :=
  { user with previousPassword := user.password }

/-- `setPassword`, the `BeforeInsert` and `BeforeUpdate` hook. -/
def setPassword [Scrypt] (salt : Vector UInt8 16) (user : UserObject) : UserObject :=
  match user.password with
  | some password =>
      if user.previousPassword ≠ some password ∧ password ≠ "" then
        { user with password := some (hashPassword password salt) }
      else user
  | none => user

/-- On a payload the hook hashes every password but the empty one. -/
theorem setPassword_create [Scrypt] (salt : Vector UInt8 16) (patch : UserPatch) :
    ((create patch.password.value?).setPassword salt).password =
      (patch.setPassword salt).password.value? := by
  unfold UserPatch.setPassword
  cases hpassword : patch.password with
  | keep | clear => simp only [hpassword, Column.value?, create, setPassword]
  | set password =>
      simp only [Column.value?, create, setPassword]
      by_cases hempty : password = ""
      · simp [hempty]
      · simp [hempty]

/-- A loaded user that is saved with the password it has keeps it. -/
theorem setPassword_loadPreviousPassword [Scrypt] (salt : Vector UInt8 16) (user : UserObject) :
    (user.loadPreviousPassword.setPassword salt).password = user.password := by
  unfold setPassword loadPreviousPassword
  cases user.password with
  | none => rfl
  | some password => simp

end UserObject

/-! ### `PASSWORD_REGEX` -/

namespace PASSWORD_REGEX

def lowercase (c : Char) : Bool :=
  ('a' ≤ c && c ≤ 'z') || ('а' ≤ c && c ≤ 'щ') || "ьюяїієґ".toList.contains c

def uppercase (c : Char) : Bool :=
  ('A' ≤ c && c ≤ 'Z') || ('А' ≤ c && c ≤ 'Щ') || "ЬЮЯЇІЄҐ".toList.contains c

def special (c : Char) : Bool :=
  "!@#$%^&*()_+-=[]\x7b\x7d;':\"\\|,.<>/?`".toList.contains c

/-- `PASSWORD_REGEX.test(password)`, the check of both DTOs that carry a new password. -/
def test (password : String) : Bool :=
  let cs := password.toList
  cs.any lowercase && cs.any uppercase && cs.any Char.isDigit && cs.any special &&
    cs.all (fun c => lowercase c || uppercase c || c.isDigit || special c) &&
    8 ≤ cs.length && cs.length ≤ 64

end PASSWORD_REGEX

section

variable [Scrypt]

/-- A stored password has 32 digits for the salt, the point, and 64 digits for the key. -/
theorem length_hashPassword (password : String) (salt : Vector UInt8 16) :
    (hashPassword password salt).toList.length = 97 := by
  have hhex : ∀ bytes : List UInt8, (toHex bytes).length = 2 * bytes.length := by
    intro bytes
    simp [toHex, hexOfByte, List.length_flatMap, Nat.mul_comm]
  simp [hashPassword, hhex]

/-- No password that a DTO accepts is a stored one, so the ORM finds every new password to be a
change and runs the hook: what is stored is longer than any accepted password. -/
theorem ne_hashPassword_of_accepted {password : String} (h : PASSWORD_REGEX.test password = true)
    (stored : String) (salt : Vector UInt8 16) : password ≠ hashPassword stored salt := by
  intro heq
  have hlength := length_hashPassword stored salt
  rw [← heq] at hlength
  simp [PASSWORD_REGEX.test, hlength] at h

/-! ### The plaintext set last -/

omit [Scrypt] in
/-- A plaintext that was set for a user, and the salt that was drawn for it. -/
structure Credential where
  plaintext : String
  salt : Vector UInt8 16
  deriving DecidableEq

namespace Credential

/-- What is stored for it: the hash with its salt. The empty text is the exception; the hook passes
it over. -/
def stored (c : Credential) : String :=
  if c.plaintext ≠ "" then hashPassword c.plaintext c.salt else c.plaintext

/-- The key that `scrypt` derives from a password with the salt of the credential. -/
def key (c : Credential) (password : String) : Vector UInt8 32 :=
  Scrypt.scrypt password (String.ofList (toHex c.salt.toList))

end Credential

/-- The stored password fits the plaintext set last: nothing was set and nothing is stored, or the
empty text was set and is stored, or the plaintext has been hashed once, and a password compares
with what is stored as its derived key does with the plaintext's. -/
inductive Credential.Fits : Option Credential → Option String → Prop
  | unset : Fits none none
  | empty (c : Credential) : c.plaintext = "" → Fits (some c) (some "")
  | hashed (c : Credential) (stored : String) :
      stored = hashPassword c.plaintext c.salt →
      comparePassword c.plaintext (some stored) = .ok true →
      (∀ p, comparePassword p (some stored) = .ok true ↔ c.key p = c.key c.plaintext) →
      Fits (some c) (some stored)

theorem Credential.fits_stored (last : Option Credential) :
    Fits last (last.map Credential.stored) := by
  cases last with
  | none => exact .unset
  | some c =>
      rw [Option.map_some, Credential.stored]
      by_cases hempty : c.plaintext = ""
      · rw [if_neg (by simpa using hempty), hempty]
        exact .empty c hempty
      · rw [if_pos hempty]
        refine .hashed c _ rfl ?_ fun p => ?_
        · rw [comparePassword_hashPassword, decide_eq_true rfl]
        · rw [comparePassword_hashPassword, Except.ok.injEq, decide_eq_true_eq]
          exact eq_comm

variable {ι : Type} [DecidableEq ι] [Mysql] [EmailSyntax] [Typeorm]

/-- The credential that a call sets, and the user it sets it for. -/
def credentialSet (e : TaskEntry ι) : Option (Uuid × Credential) :=
  match (e.before.place e.request).hasWritten,
      ((interleaving.after e).place e.request).hasWritten with
  | none, some (u, password) => some (u, ⟨password, (e.before.at_ e.request).1.salt⟩)
  | _, _ => none

/-- The credential set last for a user; `initial` is the one from before the run. The run is read
from its last call backwards. -/
def lastSet (initial : Uuid → Option Credential) : List (TaskEntry ι) → Uuid → Option Credential
  | [], u => initial u
  | e :: past, u =>
      match credentialSet e with
      | some (v, c) => if v = u then some c else lastSet initial past u
      | none => lastSet initial past u

/-! ### One call -/

omit [DecidableEq ι] [Mysql] [EmailSyntax] [Scrypt] [Typeorm] in
theorem passwordOf_updateUser {db : Database} {users : UsersTable} {id : Uuid} {patch : UserPatch}
    (hpassword : patch.password = .keep) (h : UsersRepository.save db.users id patch = .ok users)
    (k : Uuid) : passwordOf users k = passwordOf db.users k := by
  refine UsersRepository.bind_get_save (fun user => ?_) h
  rw [UserPatch.applyTo, hpassword]
  rfl

/-- A registered user has no password: the column is left out of the insert, and the user sets one
by the link of the mail. -/
theorem passwordOf_register (a : Ambient) (db : Database) (caller : JwtPayload)
    (dto : AuthRegisterDto) (k : Uuid) :
    passwordOf (Place.step a db (.registerAccepted caller dto)).2.users k =
      passwordOf db.users k := by
  rw [Place.step]
  split
  · rfl
  · next user hentity =>
      split
      · next db' hins =>
          obtain ⟨hfree, -, -, hrows⟩ := Database.insertUser_eq_ok hins
          rw [passwordOf, passwordOf, hrows]
          split
          · next hk =>
              rw [← hk, hfree]
              exact (AuthRegisterDto.toEntity_eq_some hentity).2.2.1
          · rfl
      · rfl

/-- **A call that does not get to have written a password leaves every stored one alone.**
Registrations are no exception, since their row is new. -/
theorem passwordOf_step {a : Ambient} {db : Database} {place : Place}
    (h : (place.step a db).1.hasWritten = place.hasWritten) (k : Uuid) :
    passwordOf (place.step a db).2.users k = passwordOf db.users k := by
  have hsame : ∀ {db' : Database}, db'.users = db.users →
      passwordOf db'.users k = passwordOf db.users k := fun h => by rw [h]
  by_cases hregister : ∃ caller dto, place = .registerAccepted caller dto
  · obtain ⟨caller, dto, rfl⟩ := hregister
    exact passwordOf_register a db caller dto k
  · have hstep := Place.steps a db place
    generalize place.step a db = out at hstep h ⊢
    cases hstep with
    | started hstart =>
        cases hstart with
        | updated hupdate =>
            obtain ⟨_, _, patch, -, -, -, -, -, hpatch, hsave⟩ :=
              UsersController.update_eq_ok.1 hupdate
            exact passwordOf_updateUser (UpdateUserDto.toPatch_eq_some hpatch).2.2 hsave k
        | deleted => exact UsersRepository.bind_get_softDelete fun _ => rfl
        | _ => exact hsame rfl
    | @created caller dto => exact absurd ⟨caller, dto, rfl⟩ hregister
    -- these calls write a password, which `h` denies
    | activated | changed => cases h
    | opened hins => exact hsame (Database.insertSession_eq_ok hins).2.1
    | resetIssued hins => exact hsame (Database.insertConfirm_eq_ok hins).2.1
    | registrationIssued hins => exact hsame (Database.insertConfirm_eq_ok hins).2.1
    | refused | mismatched | rotated | expired | revoked | confirmed | changeRevoked | answered =>
        exact hsame rfl

/-- A call that gets to have written a password has stored it, and no other one. -/
theorem passwordOf_written {a : Ambient} {db : Database} {place : Place} {u : Uuid}
    {password : String} (hbefore : place.hasWritten = none)
    (h : (place.step a db).1.hasWritten = some (u, password)) (k : Uuid) :
    passwordOf (place.step a db).2.users k =
      if u = k then some (storedPassword a password) else passwordOf db.users k := by
  cases passwordsCall_step a db place with
  | written _ hafter hstored hothers =>
      obtain ⟨rfl, rfl⟩ := Prod.mk.inj (Option.some.inj (h.symm.trans hafter))
      split
      · next hk => rw [← hk, hstored]
      · next hk => rw [passwordOf, hothers k (Ne.symm hk), passwordOf]
  | kept _ hsame =>
      rw [hsame, hbefore] at h
      cases h

/-! ### Runs -/

variable {db₀ : Database} {calls : ι → Ambient × Request} {past : List (TaskEntry ι)}
  {N : Tasks ι}

/-- A request that has written a password goes on having written it, until it is answered and after.
-/
theorem hasWritten_step {a : Ambient} {db : Database} {place : Place} {written : Uuid × String}
    (h : place.hasWritten = some written) : (place.step a db).1.hasWritten = some written := by
  cases passwordsCall_step a db place with
  | written hnone => rw [h] at hnone; cases hnone
  | kept _ hsame => rw [hsame, h]

/-- What a call leaves of the stored passwords, by what it sets: the one lemma that the invariant
needs of a step. -/
theorem passwordOf_after (N : Tasks ι) (m : ι) (k : Uuid) :
    passwordOf (interleaving.next N m).shared.users k =
      match credentialSet (interleaving.entry N m) with
      | some (u, c) => if u = k then some c.stored else passwordOf N.shared.users k
      | none => passwordOf N.shared.users k := by
  have hself : ((interleaving.next N m).place m).hasWritten =
      ((N.place m).step (N.at_ m).1 N.shared).1.hasWritten := by
    rw [place_next_self]
  have hsets : credentialSet (interleaving.entry N m) =
      match (N.place m).hasWritten, ((N.place m).step (N.at_ m).1 N.shared).1.hasWritten with
      | none, some (u, password) => some (u, ⟨password, (N.at_ m).1.salt⟩)
      | _, _ => none := by
    rw [credentialSet, Machine.after_entry, Machine.entry_before, Machine.entry_request, hself]
  have hshared : (interleaving.next N m).shared =
      ((N.place m).step (N.at_ m).1 N.shared).2 := rfl
  rw [hsets, hshared]
  -- a call sets a password when it is the one after which the request has written it
  cases hbefore : (N.place m).hasWritten with
  | some written =>
      exact passwordOf_step ((hasWritten_step hbefore).trans hbefore.symm) k
  | none =>
      cases hafter : ((N.place m).step (N.at_ m).1 N.shared).1.hasWritten with
      | none => exact passwordOf_step (hafter.trans hbefore.symm) k
      | some written => exact passwordOf_written hbefore hafter k

/-- **The invariant**: what is stored is what was set last, hashed. The induction is on the run,
with one call a step. -/
theorem passwordOf_of_reach {initial : Uuid → Option Credential}
    (hinitial : ∀ k, passwordOf db₀.users k = (initial k).map Credential.stored)
    (h : interleaving.Reach (launch db₀ calls) past N) (k : Uuid) :
    passwordOf N.shared.users k = (lastSet initial past k).map Credential.stored := by
  induction h with
  | init => exact hinitial k
  | @step past N m _ ih =>
      rw [passwordOf_after, lastSet]
      cases credentialSet (interleaving.entry N m) with
      | none => exact ih
      | some set =>
          obtain ⟨u, c⟩ := set
          dsimp only
          by_cases hu : u = k
          · rw [if_pos hu, if_pos hu, Option.map_some]
          · rw [if_neg hu, if_neg hu, ih]

/-- **Stored credentials.** In every interleaving of requests, a user's stored password fits the
plaintext that was set last for the user, and a call that sets no password of a user leaves the
stored one as it is. -/
theorem stored_credentials {initial : Uuid → Option Credential}
    (hinitial : ∀ k, passwordOf db₀.users k = (initial k).map Credential.stored)
    (h : interleaving.Reach (launch db₀ calls) past N) :
    (∀ k, Credential.Fits (lastSet initial past k) (passwordOf N.shared.users k)) ∧
      ∀ e ∈ past, ∀ k, (∀ c, credentialSet e ≠ some (k, c)) →
        passwordOf (interleaving.after e).shared.users k = passwordOf e.before.shared.users k := by
  refine ⟨fun k => ?_, fun e he k hnot => ?_⟩
  · rw [passwordOf_of_reach hinitial h k]
    exact Credential.fits_stored _
  · rw [h.eq_entry he] at hnot ⊢
    rw [Machine.after_entry, passwordOf_after]
    cases hsets : credentialSet (interleaving.entry e.before e.request) with
    | none => rfl
    | some set =>
        obtain ⟨u, c⟩ := set
        have hu : u ≠ k := fun hu => hnot c (hu ▸ hsets)
        exact if_neg hu

end

/-! ### The author changes the password -/

section

attribute [local instance] spelledKey Mysql.strict atSign Typeorm.comparing

/-- The passwords of `desk`: the author's was set, the owner has none. -/
def deskCredentials (k : Uuid) : Option Credential :=
  if k = author.id then some ⟨"Secret-1", noSalt⟩ else none

theorem passwordOf_desk (k : Uuid) :
    passwordOf desk.users k = (deskCredentials k).map Credential.stored := by
  unfold deskCredentials
  by_cases hk : k = author.id
  · rw [if_pos hk, hk]
    rfl
  · rw [if_neg hk]
    by_cases howner : k = owner.id
    · rw [howner]
      rfl
    · have hnone : desk.users.get k = none := by
        rw [Table.get_eq_none]
        intro user huser
        rcases List.mem_cons.1 (Table.mem_def.1 huser) with rfl | huser
        · exact Ne.symm howner
        · rw [List.mem_singleton.1 huser]
          exact Ne.symm hk
      rw [passwordOf, hnone]
      rfl

/-- A request of the author's to change the password. -/
def changingPassword (_ : Unit) : Ambient × Request :=
  (drawing "change" change_nonempty,
    .changePassword ⟨author.id, author.role, ⟨"phone", phone_nonempty⟩⟩ ⟨"Secret-2", "Secret-1"⟩)

/-- After the change the stored password fits the new plaintext. -/
theorem changed_credentials :
    let changed := interleaving.run (launch desk changingPassword) [(), (), ()]
    lastSet deskCredentials changed.1 author.id = some ⟨"Secret-2", noSalt⟩ ∧
      ∀ k, Credential.Fits (lastSet deskCredentials changed.1 k)
        (passwordOf changed.2.shared.users k) := by
  intro changed
  exact ⟨by decide +kernel,
    (stored_credentials passwordOf_desk (Machine.reach_run _ _ [(), (), ()])).1⟩

end

end VetHealth
