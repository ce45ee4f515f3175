import VetHealth.Auth.Credentials
import VetHealth.Auth.SingleUse

/-!
# VetHealth.Auth.Outsiders

**What requests without a user's credentials do to the user.** A crowd of requests stays outside of
a user's account when each of them presents only tokens that the crowd was answered with, gives no
password that is the user's and no confirmation token that was issued for the user. Each of these is
a condition on the first call of a request; the crowd may schedule its calls as it likes, and among
those of everybody else.

`outsiders_stay_out` says that nothing more is needed: no request of the crowd is answered with a
token of the user, and no call of the crowd touches a session or the password of the user, nor,
unless an administrator makes it, anything else in the user's row. A refresh of an old token ends the
session that the token names, and a password change all sessions of its caller, so the invariant
`Outside` has to follow whose session and whose confirmation every suspended request carries.
-/

namespace VetHealth

open Js Store Resumption Transition

/-! ### Tokens in answers -/

def Response.tokens : Response → Option Tokens
  | .loggedIn response => some response.toTokens
  | .refreshed tokens => some tokens
  | _ => none

/-- The access token that came with the request. -/
def Request.caller : Request → Option JwtPayload
  | .logout caller | .register caller _ | .changePassword caller _ | .currentUser caller
  | .updateUser caller _ | .deleteUser caller _ => some caller
  | _ => none

namespace Place

/-- The tokens that the request was answered with. -/
def received (place : Place) : Option Tokens :=
  match place.answer with
  | some (.ok response) => response.tokens
  | _ => none

variable [Scrypt] [Mysql] [EmailSyntax] [Typeorm]

/-- The first call of a request brings no tokens: a login and a refresh first look something up. -/
theorem received_start (a : Ambient) (db : Database) (request : Request) :
    (start a db request).1.received = none := by
  cases request with
  | login authDto =>
      rw [start]
      split <;> rfl
  | refresh data =>
      rw [start]
      split
      · rfl
      · split <;> rfl
  | confirm confirmDto =>
      rw [start]
      split
      · rfl
      · split
        · rfl
        · split <;> rfl
  | changePassword caller dto =>
      rw [start]
      split <;> rfl
  | forgotPassword email =>
      rw [start]
      split <;> rfl
  | register caller dto =>
      rw [start]
      split
      · rfl
      · split <;> rfl
  | logout caller => rfl
  | currentUser caller => rfl
  | getPendingUser hash =>
      show (finished _ ((handle a (.getPendingUser hash)).run db).1).received = none
      rw [handle, Prog.run_map, AuthService.run_getPendingUser]
      rcases db.confirm hash with _ | ⟨confirm, _ | user⟩ <;> rfl
  | updateUser caller dto =>
      show (finished _ ((handle a (.updateUser caller dto)).run db).1).received = none
      rw [handle, Prog.run_map, run_attempt]
      cases UsersController.update db.topicIds db.users caller dto <;> rfl
  | deleteUser caller id =>
      show (finished _ ((handle a (.deleteUser caller id)).run db).1).received = none
      rw [handle, Prog.run_map, run_attempt]
      cases UsersController.delete db.users caller id <;> rfl

/-- Tokens name the user and the session that they were signed for, the access token and the refresh
token alike. -/
def signedFor (tokens : Tokens) (user : UserEntity) (sessionId : Uuid) : Prop :=
  tokens.token.id = user.id ∧ tokens.token.sessionId = sessionId ∧
    tokens.refreshToken.sessionId = sessionId

omit [Scrypt] [Mysql] [EmailSyntax] [Typeorm] in
theorem signedFor_of_getTokensData {a : Ambient} {user : UserEntity} {sessionId : Uuid}
    {tokens : Tokens}
    (h : AuthService.getTokensData a user.id user.role sessionId a.hash = .ok tokens) :
    signedFor tokens user sessionId := by
  rw [AuthService.getTokensData] at h
  split at h
  · obtain rfl := Except.ok.inj h
    exact ⟨rfl, rfl, rfl⟩
  · cases h

/-- **Where tokens come from**: a call that brings tokens opens a session for the user whose
password was verified, or writes the session whose hash was compared. -/
theorem received_step {a : Ambient} {db : Database} {place : Place} {tokens : Tokens}
    (h : (place.step a db).1.received = some tokens) :
    place.received = some tokens ∨
      (∃ authDto user, place = .loginVerified authDto user ∧ signedFor tokens user a.rowId ∧
        db.insertSession ⟨a.rowId, user.id, a.hash, false⟩ = .ok (place.step a db).2) ∨
      ∃ data session user, place = .refreshMatched data session (some user) ∧
        signedFor tokens user session.id := by
  cases place with
  -- No first call brings tokens. Of the later ones only those of a login and a refresh may.
  | ready request =>
      rw [step, received_start] at h
      cases h
  | loginVerified authDto user =>
      refine Or.inr (Or.inl ⟨authDto, user, rfl, ?_⟩)
      rw [step] at h ⊢
      cases hins : db.insertSession ⟨a.rowId, user.id, a.hash, false⟩ with
      | error e =>
          rw [hins] at h
          cases h
      | ok db' =>
          rw [hins] at h
          refine ⟨?_, rfl⟩
          cases htokens : AuthService.getTokensData a user.id user.role a.rowId a.hash with
          | error e =>
              simp only [htokens] at h
              cases h
          | ok issued =>
              simp only [htokens] at h
              obtain rfl := Option.some.inj h
              exact signedFor_of_getTokensData htokens
  | refreshMatched data session user =>
      cases user with
      | none => cases h
      | some user =>
          refine Or.inr (Or.inr ⟨data, session, user, rfl, ?_⟩)
          rw [step] at h
          cases htokens : AuthService.getTokensData a user.id user.role session.id a.hash with
          | error e =>
              simp only [htokens] at h
              cases h
          | ok issued =>
              simp only [htokens] at h
              obtain rfl := Option.some.inj h
              exact signedFor_of_getTokensData htokens
  -- The rest are answered with a message, a user or a failure.
  | confirmRevoked confirmDto confirm user =>
      rw [step] at h
      split at h <;> cases h
  | changeVerified caller dto =>
      rw [step] at h
      split at h <;> cases h
  | forgotFound email user =>
      rw [step] at h
      split at h
      · cases hmailed : a.mailed with
        | false => simp only [hmailed] at h; cases h
        | true => simp only [hmailed] at h; cases h
      · cases h
  | registerAccepted caller dto =>
      rw [step] at h
      split at h
      · cases h
      · split at h <;> cases h
  | registerCreated caller dto user =>
      rw [step] at h
      split at h
      · cases hmailed : a.mailed with
        | false => simp only [hmailed] at h; cases h
        | true => simp only [hmailed] at h; cases h
      · cases h
  | refreshMismatched | confirmExpired | confirmAccepted | confirmWritten | changeWritten => cases h
  | loginOpened | refreshRotated | confirmed | passwordChanged | tokenIssued | finished =>
      exact Or.inl h

end Place

/-! ### What a call can reach

The rows that the call made at a place may write. -/

namespace Place

/-- The call writes the session: it deletes it, or rotates its hash. A session that is opened is a
new one. -/
def reaches : Place → SessionEntity → Prop
  | .ready (.logout caller), row => row.id = caller.sessionId
  | .refreshMismatched _ session, row | .refreshMatched _ session _, row => row.id = session.id
  | .confirmAccepted _ _ user, row => row.userId = user.id
  | .changeWritten caller _, row => row.userId = caller.id
  | _, _ => False

/-- The call writes the user's password. Only a confirmation and a change do. -/
def writesPassword (u : Uuid) : Place → Prop
  | .confirmRevoked _ _ user => user.id = u
  | .changeVerified caller _ => caller.id = u
  | _ => False

/-- The call writes the user's row, or is an administrator's. -/
def writesUser (u : Uuid) : Place → Prop
  | .confirmRevoked _ _ user => user.id = u
  | .changeVerified caller _ => caller.id = u
  | .ready (.updateUser caller _) => caller.id = u ∨ isAdminRole caller.role = true
  | .ready (.deleteUser caller _) => isAdminRole caller.role = true
  | .registerAccepted caller _ => isAdminRole caller.role = true
  | _ => False

variable [Scrypt] [Mysql] [EmailSyntax] [Typeorm] {a : Ambient} {db : Database} {place : Place}

/-- No call gives a session to another user. So whose a session is can be said without saying when.
-/
theorem owner_step {k : Uuid} {row : SessionEntity} (h : db.sessions.get k = some row) :
    ∃ row', (place.step a db).2.sessions.get k = some row' ∧ row'.userId = row.userId := by
  have hcall := sessionsCall_step a db place
  generalize (place.step a db).2 = db' at hcall ⊢
  generalize (place.step a db).1 = place' at hcall
  cases hcall with
  | opened hins =>
      obtain ⟨hfree, -, -, hget⟩ := Database.insertSession_eq_ok hins
      refine ⟨row, ?_, rfl⟩
      rw [hget, if_neg fun heq => ?_, h]
      rw [heq, h] at hfree
      cases hfree
  | matched _ hsame => exact ⟨row, hsame ▸ h, rfl⟩
  | @rotated _ session _ _ hupdate =>
      refine ⟨_, by rw [hupdate, Database.get_updateSession, h, Option.map_some], ?_⟩
      split <;> rfl
  | revoked hrevokes =>
      obtain ⟨⟨p, hget⟩, -⟩ := hrevokes
      refine ⟨_, by rw [hget, h, Option.map_some], ?_⟩
      split <;> rfl

omit [Scrypt] [Mysql] [EmailSyntax] in
/-- A deletion by criteria spares the rows that do not meet them. -/
theorem get_spared {id user excludeId : Option Uuid} {k : Uuid} {row : SessionEntity}
    (h : db.sessions.get k = some row)
    (hspared : Database.sessionCriteria id user excludeId row = false) :
    (db.softDeleteSessions id user excludeId).sessions.get k = some row := by
  rw [Database.get_softDeleteSessions, h, Option.map_some, hspared, if_neg Bool.false_ne_true]

/-- A session that the call does not reach stays as it is. The cases are those of the inversion of a
call. -/
theorem get_session_step {k : Uuid} {row : SessionEntity} (h : db.sessions.get k = some row)
    (hreaches : ¬ place.reaches row) : (place.step a db).2.sessions.get k = some row := by
  have hkept : ∀ {db' : Database}, db'.sessions = db.sessions → db'.sessions.get k = some row :=
    fun heq => heq ▸ h
  have hstep := Place.steps a db place
  generalize place.step a db = out at hstep ⊢
  cases hstep with
  -- Of the first calls only a logout writes a session, that of its token.
  | started hstart =>
      cases hstart with
      | loggedOut => exact get_spared h ((Database.sessionCriteria_id _).2 hreaches)
      | _ => exact h
  | opened hins =>
      obtain ⟨hfree, -, -, hget⟩ := Database.insertSession_eq_ok hins
      dsimp only
      rw [hget, if_neg fun heq => ?_, h]
      rw [heq, h] at hfree
      cases hfree
  | mismatched => exact get_spared h ((Database.sessionCriteria_id _).2 hreaches)
  | rotated =>
      have hother : row.id ≠ _ := hreaches
      dsimp only
      rw [Database.get_updateSession, h, Option.map_some, if_neg hother]
  -- A confirmation's criteria name the user, and a change's name the user and the session to spare.
  | revoked => exact get_spared h ((Database.sessionCriteria_user _).2 fun _ => hreaches)
  | changeRevoked =>
      exact get_spared h ((Database.sessionCriteria_user_except _ _).2 (Or.inl hreaches))
  | activated hupdate => exact hkept (Database.updateUser_eq_ok hupdate).1
  | changed hupdate => exact hkept (Database.updateUser_eq_ok hupdate).1
  | resetIssued hins => exact hkept (Database.insertConfirm_eq_ok hins).2.2.1
  | registrationIssued hins => exact hkept (Database.insertConfirm_eq_ok hins).2.2.1
  | created hins => exact hkept (Database.insertUser_eq_ok hins).2.1
  | refused | expired | confirmed | answered => exact h

/-- A request that gets to have written a password has just written it: this ties the place after
the call to the call. -/
theorem writesPassword_of_hasWritten {u : Uuid} {password : String} (hnone : place.hasWritten = none)
    (h : (place.step a db).1.hasWritten = some (u, password)) : place.writesPassword u := by
  have hstep := Place.steps a db place
  generalize place.step a db = out at hstep h
  cases hstep with
  | started hstart => cases hstart <;> cases h
  | activated | changed => exact (Prod.mk.inj (Option.some.inj h)).1
  | confirmed | changeRevoked => cases hnone
  | answered => rw [hnone] at h; cases h
  | _ => cases h

/-- A password that the call does not write stays as it is. -/
theorem passwordOf_kept {u : Uuid} (hwrites : ¬ place.writesPassword u) :
    passwordOf (place.step a db).2.users u = passwordOf db.users u := by
  cases passwordsCall_step a db place with
  | written hnone hafter =>
      rw [passwordOf_written hnone hafter, if_neg]
      rintro rfl
      exact hwrites (writesPassword_of_hasWritten hnone hafter)
  | kept _ hsame => exact passwordOf_step hsame u

/-- Only an administrator deletes a user. -/
theorem users_deleteUser {caller : JwtPayload} {id : String} (h : isAdminRole caller.role ≠ true) :
    ((ready (.deleteUser caller id)).step a db).2 = db := by
  have hrefused : UsersController.delete db.users caller id = .error .forbiddenResource := by
    rw [← rolesGuardAdmin_eq, ne_eq, Bool.not_eq_true] at h
    rw [UsersController.delete, h]
    rfl
  show ((handle a (.deleteUser caller id)).run db).2 = db
  rw [handle, Prog.run_map, run_attempt, hrefused]
  rfl

/-- A row that the call does not write stays as it is. -/
theorem get_user_step {u : Uuid} (hwrites : ¬ place.writesUser u)
    (hregister : ∀ caller dto, place = .registerAccepted caller dto →
      isAdminRole caller.role = true) :
    (place.step a db).2.users.get u = db.users.get u := by
  by_cases hdelete : ∃ caller id, place = .ready (.deleteUser caller id)
  · obtain ⟨caller, id, rfl⟩ := hdelete
    rw [users_deleteUser hwrites]
  have hkept : ∀ {db' : Database}, db'.users = db.users →
      db'.users.get u = db.users.get u := fun heq => by rw [heq]
  have hstep := Place.steps a db place
  generalize place.step a db = out at hstep ⊢
  cases hstep with
  | started hstart =>
      cases hstart with
      | @updated caller dto users _ hupdate =>
          obtain ⟨target, role, patch, hpasses, -, hid, -, -, -, hsave⟩ :=
            UsersController.update_eq_ok.1 hupdate
          have hwrites : ¬(caller.id = u ∨ isAdminRole caller.role = true) := hwrites
          rw [not_or, Bool.not_eq_true] at hwrites
          -- the guard lets a caller without the role update nobody else
          have hown := hpasses.own hwrites.2
          rw [hid] at hown
          have htarget : target.id = caller.id := Uuid.ext (Json.str.inj (Option.some.inj hown))
          exact UsersRepository.get_save_ne hsave fun heq => hwrites.1 (htarget.symm.trans heq.symm)
      | @deleted caller id _ => exact absurd ⟨caller, id, rfl⟩ hdelete
      | _ => rfl
  | activated hupdate =>
      obtain ⟨-, -, hsave⟩ := Database.updateUser_eq_ok hupdate
      exact UsersRepository.get_save_ne hsave (Ne.symm hwrites)
  | changed hupdate =>
      obtain ⟨-, -, hsave⟩ := Database.updateUser_eq_ok hupdate
      exact UsersRepository.get_save_ne hsave (Ne.symm hwrites)
  | @created caller dto _ _ _ => exact absurd (hregister caller dto rfl) hwrites
  | opened hins => exact hkept (Database.insertSession_eq_ok hins).2.1
  | resetIssued hins => exact hkept (Database.insertConfirm_eq_ok hins).2.1
  | registrationIssued hins => exact hkept (Database.insertConfirm_eq_ok hins).2.1
  | _ => rfl

/-- A registration goes on only for an administrator: the guard is part of its first call. -/
theorem registerAccepted_step
    (h : ∀ caller dto, place = .registerAccepted caller dto → isAdminRole caller.role = true)
    (caller : JwtPayload) (dto : AuthRegisterDto)
    (hplace : (place.step a db).1 = .registerAccepted caller dto) :
    isAdminRole caller.role = true := by
  -- The place before is the start of a registration, with its guard, or one that stays as it is.
  have hrequest := request_step a db place
  rw [hplace] at hrequest
  by_cases hready : place = .ready (.register caller dto)
  · rw [hready, step, start] at hplace
    cases hguard : rolesGuardAdmin caller with
    | true => rwa [← rolesGuardAdmin_eq]
    | false =>
        rw [hguard, Bool.not_false, if_pos rfl] at hplace
        cases hplace
  · have hstep := Place.steps a db place
    rw [Prod.eta (place.step a db) |>.symm, hplace] at hstep
    generalize (place.step a db).2 = db' at hstep
    cases hstep with
    | started hstart => cases hstart with
      | registerAccepted => exact absurd rfl hready
    | answered => exact h caller dto rfl

end Place

/-! ### The crowd -/

/-- The session is stored, and belongs to another user. No step ends that, as the owner of a session
never changes. -/
def Foreign (u : Uuid) (db : Database) (sessionId : Uuid) : Prop :=
  ∃ session, db.sessions.get sessionId = some session ∧ session.userId ≠ u

/-- The tokens of another user than `u`: they name another user, and a session of another user's. -/
structure Elsewhere (u : Uuid) (db : Database) (tokens : Tokens) : Prop where
  user : tokens.token.id ≠ u
  session : Foreign u db tokens.token.sessionId
  refresh : tokens.refreshToken.sessionId = tokens.token.sessionId

section

variable {ι : Type} {u : Uuid} {crowd : ι → Prop} {purse : Tokens → Prop}

/-- The crowd had the tokens at the start, or one of its requests was answered with them. Tokens are
passed around in the crowd as it likes. -/
def Held (crowd : ι → Prop) (purse : Tokens → Prop) (N : Tasks ι) (tokens : Tokens) : Prop :=
  purse tokens ∨ ∃ i, crowd i ∧ (N.place i).received = some tokens

/-- The request presents nothing that is the user's: it is no login with the user's password and no
confirmation with a hash of the user's, and a token that comes with it is one that the crowd has. -/
def Presents [Scrypt] (u : Uuid) (crowd : ι → Prop) (purse : Tokens → Prop) (N : Tasks ι) :
    Request → Prop
  | .login authDto => ∀ user, N.shared.userByEmail authDto.email = some user → user.id = u →
      comparePassword authDto.password user.password ≠ .ok true
  | .refresh data => ∃ tokens, Held crowd purse N tokens ∧ tokens.refreshToken = data
  | .confirm confirmDto => ∀ confirm ∈ N.shared.confirms, confirm.hash = confirmDto.hash →
      confirm.userId ≠ u
  | .logout caller | .register caller _ | .changePassword caller _ | .currentUser caller
  | .updateUser caller _ | .deleteUser caller _ =>
      ∃ tokens, Held crowd purse N tokens ∧ tokens.token = caller
  | .forgotPassword _ | .getPendingUser _ => True

/-- A request of the crowd that makes its first call presents nothing that is the user's. -/
def actsOutside [Scrypt] (u : Uuid) (crowd : ι → Prop) (purse : Tokens → Prop) (e : TaskEntry ι) :
    Prop :=
  crowd e.request → ∀ request, e.before.place e.request = .ready request →
    Presents u crowd purse e.before request

theorem actsOutside_of_ready [Scrypt] {e : TaskEntry ι} (request : Request)
    (hplace : e.before.place e.request = .ready request)
    (h : Presents u crowd purse e.before request) : actsOutside u crowd purse e :=
  fun _ _ heq => Place.ready.inj (hplace.symm.trans heq) ▸ h

/-- What a suspended request carries is not the user's. A request goes on with what it has loaded,
so this is about what it carries and not about the rows as they are now. -/
def Place.apart (u : Uuid) (db : Database) : Place → Prop
  | .loginVerified _ user | .confirmAccepted _ _ user | .confirmRevoked _ _ user
  | .confirmWritten _ _ user => user.id ≠ u
  | .refreshMismatched _ session => Foreign u db session.id
  | .refreshMatched _ session user =>
      Foreign u db session.id ∧ ∀ loaded, user = some loaded → loaded.id ≠ u
  | .changeVerified caller _ | .changeWritten caller _ => caller.id ≠ u
  | _ => True

/-- **The invariant.** The crowd has tokens of others only, and what its requests carry from call
to call belongs to others. -/
structure Outside (u : Uuid) (crowd : ι → Prop) (purse : Tokens → Prop) (N : Tasks ι) : Prop where
  held : ∀ tokens, Held crowd purse N tokens → Elsewhere u N.shared tokens
  apart : ∀ i, crowd i → (N.place i).apart u N.shared

/-! ### One call -/

/-- The sessions keep their owners from one state to the other. `Elsewhere` and `apart` are kept
along with them. -/
def KeepsOwners (db db' : Database) : Prop :=
  ∀ k row, db.sessions.get k = some row →
    ∃ row', db'.sessions.get k = some row' ∧ row'.userId = row.userId

theorem Foreign.mono {db db' : Database} (h : KeepsOwners db db') {sessionId : Uuid}
    (hforeign : Foreign u db sessionId) : Foreign u db' sessionId := by
  obtain ⟨row, hrow, hne⟩ := hforeign
  obtain ⟨row', hrow', howner⟩ := h sessionId row hrow
  exact ⟨row', hrow', howner ▸ hne⟩

theorem Elsewhere.mono {db db' : Database} (h : KeepsOwners db db') {tokens : Tokens}
    (helse : Elsewhere u db tokens) : Elsewhere u db' tokens :=
  ⟨helse.user, helse.session.mono h, helse.refresh⟩

theorem Place.apart_mono {db db' : Database} (h : KeepsOwners db db') {place : Place}
    (hapart : place.apart u db) : place.apart u db' := by
  cases place with
  | refreshMismatched data session => exact hapart.mono h
  | refreshMatched data session user => exact ⟨hapart.1.mono h, hapart.2⟩
  | _ => exact hapart

variable [Scrypt] [Mysql] [EmailSyntax] [Typeorm] {N : Tasks ι}

/-- The first call finds nothing that is the user's. There is a case for each kind of thing that a
request can present. -/
theorem apart_start (a : Ambient) (h : Outside u crowd purse N) {request : Request}
    (hpresents : Presents u crowd purse N request) :
    (Place.start a N.shared request).1.apart u N.shared := by
  cases request with
  | login authDto =>
      rw [Place.start]
      split
      · next user hcheck =>
          obtain ⟨hfound, hcompare, -⟩ := checkLogin_eq_ok.1 hcheck
          exact fun heq => hpresents user hfound heq hcompare
      · trivial
  | refresh data =>
      -- A refresh token is held: then its session is stored and another user's, who is the one that
      -- is loaded with it.
      obtain ⟨tokens, hheld, rfl⟩ := hpresents
      have helse := h.held tokens hheld
      rw [Place.start]
      split
      · trivial
      · next session user hsession =>
          obtain ⟨hget, hid, -, hload⟩ := Database.session_eq_some.1 hsession
          have hforeign : Foreign u N.shared session.id := by
            rw [hid, helse.refresh]
            exact helse.session
          split
          · exact hforeign
          · refine ⟨hforeign, fun loaded hloaded => ?_⟩
            obtain ⟨row, hrow, hne⟩ := hforeign
            rw [hid, hget] at hrow
            obtain rfl := Option.some.inj hrow
            rw [hloaded] at hload
            exact (Database.get_of_loadUser hload).2 ▸ hne
  | confirm confirmDto =>
      rw [Place.start]
      split
      · trivial
      · next confirm user hconfirm =>
          split
          · trivial
          · cases user with
            | none => trivial
            | some user =>
                -- The confirmation is stored, and what is presented is no hash of a confirmation of
                -- the user's.
                obtain ⟨hstored, hhash, hload⟩ := Database.confirm_eq_some hconfirm
                show user.id ≠ u
                rw [(Database.get_of_loadUser hload).2]
                exact hpresents confirm hstored hhash
  | changePassword caller dto =>
      obtain ⟨tokens, hheld, rfl⟩ := hpresents
      rw [Place.start]
      split
      · exact (h.held tokens hheld).user
      · trivial
  | forgotPassword email =>
      rw [Place.start]
      split <;> trivial
  | register caller dto =>
      rw [Place.start]
      split
      · trivial
      · split <;> trivial
  | logout | getPendingUser | currentUser | updateUser | deleteUser => trivial

/-- A later call carries on with what the request carries; it loads nothing else. -/
theorem apart_step (a : Ambient) (h : Outside u crowd purse N) {place : Place}
    (hready : ∀ request, place = .ready request → Presents u crowd purse N request)
    (hapart : place.apart u N.shared) : (place.step a N.shared).1.apart u N.shared := by
  cases place with
  | ready request => exact apart_start a h (hready request rfl)
  | loginVerified authDto user =>
      rw [Place.step]
      split <;> trivial
  | confirmRevoked confirmDto confirm user =>
      rw [Place.step]
      split
      · exact hapart
      · trivial
  | changeVerified caller dto =>
      rw [Place.step]
      split
      · exact hapart
      · trivial
  | forgotFound email user =>
      rw [Place.step]
      split <;> trivial
  | registerAccepted caller dto =>
      rw [Place.step]
      split
      · trivial
      · split <;> trivial
  | registerCreated caller dto user =>
      rw [Place.step]
      split <;> trivial
  | confirmAccepted => exact hapart
  | _ => trivial

/-- Tokens that a call brings are not the user's, as they are signed for the user that the request
carries. -/
theorem elsewhere_step {a : Ambient} {place : Place} (hapart : place.apart u N.shared) {tokens : Tokens}
    (hreceived : (place.step a N.shared).1.received = some tokens) :
    place.received = some tokens ∨ Elsewhere u (place.step a N.shared).2 tokens := by
  rcases Place.received_step hreceived with hbefore | ⟨dto, user, rfl, hsigned, hins⟩ |
    ⟨data, session, user, rfl, hsigned⟩
  · exact Or.inl hbefore
  · obtain ⟨huser, hsession, hrefresh⟩ := hsigned
    refine Or.inr ⟨huser ▸ hapart, ?_, hrefresh.trans hsession.symm⟩
    have hrow := (Database.insertSession_eq_ok hins).2.2.2 a.rowId
    rw [if_pos rfl] at hrow
    refine ⟨_, hsession ▸ hrow, ?_⟩
    exact hapart
  · obtain ⟨huser, hsession, hrefresh⟩ := hsigned
    have howners : KeepsOwners N.shared
        (Place.step a N.shared (.refreshMatched data session (some user))).2 :=
      fun k row hrow => Place.owner_step hrow
    have hforeign := hapart.1.mono howners
    exact Or.inr ⟨huser ▸ hapart.2 user rfl, hsession ▸ hforeign, hrefresh.trans hsession.symm⟩

variable [DecidableEq ι] {m : ι}

/-- **The step lemma.** Requests outside the crowd may do anything; of the crowd only the request
that moves is concerned. -/
theorem outside_next (h : Outside u crowd purse N)
    (hacts : actsOutside u crowd purse (interleaving.entry N m)) :
    Outside u crowd purse (interleaving.next N m) := by
  have howners : KeepsOwners N.shared (interleaving.next N m).shared :=
    fun k row hrow => Place.owner_step hrow
  have hself := place_next_self N m
  constructor
  · intro tokens hheld
    rcases hheld with hpurse | ⟨i, hi, hreceived⟩
    · exact (h.held tokens (Or.inl hpurse)).mono howners
    -- Tokens that the request had before are as they were; new ones come with the call.
    · by_cases him : i = m
      · subst him
        rw [hself] at hreceived
        rcases elsewhere_step (h.apart i hi) hreceived with hbefore | helse
        · exact (h.held tokens (Or.inr ⟨i, hi, hbefore⟩)).mono howners
        · exact helse
      · rw [place_next_ne N him] at hreceived
        exact (h.held tokens (Or.inr ⟨i, hi, hreceived⟩)).mono howners
  · intro i hi
    by_cases him : i = m
    · subst him
      rw [hself]
      exact Place.apart_mono howners (apart_step _ h (hacts hi) (h.apart i hi))
    · rw [place_next_ne N him]
      exact Place.apart_mono howners (h.apart i hi)

/-! ### Runs -/

variable {db₀ : Database} {calls : ι → Ambient × Request} {past : List (TaskEntry ι)}

omit [DecidableEq ι] [Scrypt] [Mysql] [EmailSyntax] [Typeorm] in
theorem outside_launch (hpurse : ∀ tokens, purse tokens → Elsewhere u db₀ tokens) :
    Outside u crowd purse (launch db₀ calls) := by
  constructor
  · intro tokens hheld
    rcases hheld with hheld | ⟨i, -, hreceived⟩
    · exact hpurse tokens hheld
    · cases hreceived
  · intro i hi
    trivial

theorem outside_of_reach (hpurse : ∀ tokens, purse tokens → Elsewhere u db₀ tokens)
    (h : interleaving.Reach (launch db₀ calls) past N)
    (hacts : ∀ e ∈ past, actsOutside u crowd purse e) : Outside u crowd purse N := by
  refine h.invariant (P := fun _ N => Outside u crowd purse N) (outside_launch hpurse) ?_
    (Machine.along_of_forall hacts)
  intro past N m hreach houtside hacts
  exact outside_next houtside hacts

theorem registerAccepted_of_reach (h : interleaving.Reach (launch db₀ calls) past N) (i : ι)
    (caller : JwtPayload) (dto : AuthRegisterDto) (hplace : N.place i = .registerAccepted caller dto) :
    isAdminRole caller.role = true :=
  Points.at_of_step (P := fun p => ∀ caller dto, p.2 = .registerAccepted caller dto →
    isAdminRole caller.role = true) (fun p db hp => Place.registerAccepted_step hp) h
    (fun _ _ hnone => by cases hnone) caller dto hplace

omit [DecidableEq ι] [Mysql] [EmailSyntax] [Typeorm] in
/-- A call of the crowd reaches no session of the user: it would have to carry it, or the user. -/
theorem not_reaches (h : Outside u crowd purse N) {i : ι} (hi : crowd i)
    (hready : ∀ request, N.place i = .ready request → Presents u crowd purse N request)
    {k : Uuid} {row : SessionEntity} (hrow : N.shared.sessions.get k = some row)
    (hrowner : row.userId = u) : ¬ (N.place i).reaches row := by
  have hapart := h.apart i hi
  -- A session of the user is not one that the request may present.
  have hforeign : ∀ {sessionId}, Foreign u N.shared sessionId → row.id ≠ sessionId := by
    intro sessionId hforeign heq
    obtain ⟨other, hother, hne⟩ := hforeign
    rw [← heq, (Table.get_eq_some.1 hrow).2, hrow] at hother
    obtain rfl := Option.some.inj hother
    exact hne hrowner
  generalize N.place i = place at hready hapart ⊢
  cases place with
  | ready request =>
      cases request with
      | logout caller =>
          obtain ⟨tokens, hheld, rfl⟩ := hready _ rfl
          exact hforeign (h.held tokens hheld).session
      | _ => exact id
  | refreshMismatched data session => exact hforeign hapart
  | refreshMatched data session user => exact hforeign hapart.1
  | confirmAccepted dto confirm user => exact fun heq => hapart (heq.symm.trans hrowner)
  | changeWritten caller dto => exact fun heq => hapart (heq.symm.trans hrowner)
  | _ => exact id

omit [DecidableEq ι] [Scrypt] [Mysql] [EmailSyntax] [Typeorm] in
theorem not_writesPassword (h : Outside u crowd purse N) {i : ι} (hi : crowd i) :
    ¬ (N.place i).writesPassword u := by
  have hapart := h.apart i hi
  generalize N.place i = place at hapart ⊢
  cases place with
  | confirmRevoked | changeVerified => exact hapart
  | _ => exact id

/-- Unless the caller is an administrator, a call of the crowd does not write the user's row. -/
theorem not_writesUser (h : Outside u crowd purse N)
    (hreach : interleaving.Reach (launch db₀ calls) past N) {i : ι} (hi : crowd i)
    (hready : ∀ request, N.place i = .ready request → Presents u crowd purse N request)
    (hcaller : ∀ caller, (calls i).2.caller = some caller → isAdminRole caller.role ≠ true) :
    ¬ (N.place i).writesUser u := by
  have hapart := h.apart i hi
  have hrequest := request_of_reach hreach i
  generalize N.place i = place at hready hapart hrequest ⊢
  cases place with
  | confirmRevoked | changeVerified => exact hapart
  | registerAccepted caller dto => exact hcaller caller (hrequest ▸ rfl)
  | ready request =>
      cases request with
      | updateUser caller dto =>
          obtain ⟨tokens, hheld, rfl⟩ := hready _ rfl
          exact not_or.2 ⟨(h.held tokens hheld).user, hcaller _ (hrequest ▸ rfl)⟩
      | deleteUser caller id => exact hcaller caller (hrequest ▸ rfl)
      | _ => exact id
  | _ => exact id

/-- **Outsiders stay out**, in every interleaving: a crowd whose requests present nothing that is
the user's is never answered with a token of the user, its calls leave the user's sessions and
password as they are, and the whole row of the user, if no administrator makes them. -/
theorem outsiders_stay_out (u : Uuid) (crowd : ι → Prop) (purse : Tokens → Prop)
    (hpurse : ∀ tokens, purse tokens → Elsewhere u db₀ tokens)
    (h : interleaving.Reach (launch db₀ calls) past N)
    (hacts : ∀ e ∈ past, actsOutside u crowd purse e) :
    (∀ i, crowd i → ∀ tokens, (N.place i).received = some tokens → tokens.token.id ≠ u) ∧
    ∀ e ∈ past, crowd e.request →
      let before := e.before.shared
      let after := (interleaving.after e).shared
      (∀ k session, before.sessions.get k = some session → session.userId = u →
        after.sessions.get k = some session) ∧
      passwordOf after.users u = passwordOf before.users u ∧
      ((∀ caller, (calls e.request).2.caller = some caller → isAdminRole caller.role ≠ true) →
        after.users.get u = before.users.get u) := by
  refine ⟨fun i hi tokens hreceived =>
    ((outside_of_reach hpurse h hacts).held tokens (Or.inr ⟨i, hi, hreceived⟩)).user, ?_⟩
  intro e he hi before after
  obtain ⟨earlier, hreach, hsub⟩ := h.before he
  -- The run up to the call keeps to the same conditions, so that the invariant holds before it.
  have houtside := outside_of_reach hpurse hreach fun f hf => hacts f (hsub f hf)
  have hready := hacts e he hi
  refine ⟨fun k session hget howner => ?_, ?_, fun hcaller => ?_⟩
  · exact Place.get_session_step hget (not_reaches houtside hi hready hget howner)
  · exact Place.passwordOf_kept (not_writesPassword houtside hi)
  · exact Place.get_user_step (not_writesUser houtside hreach hi hready hcaller)
      (registerAccepted_of_reach hreach e.request)

end

section

attribute [local instance] spelledKey Mysql.strict atSign Typeorm.comparing

/-- The author signs in, refreshes the tokens and signs out, and tries the own password at the
owner's address. -/
def authorsRequests : Fin 4 → Ambient × Request
  | 0 => (drawing "one" one_nonempty, .login ⟨author.email, "Secret-1"⟩)
  | 1 => (drawing "two" two_nonempty, .refresh ⟨⟨"one", one_nonempty⟩, "one"⟩)
  | 2 => (drawing "three" three_nonempty,
      .logout ⟨author.id, author.role, ⟨"one", one_nonempty⟩⟩)
  | 3 => (drawing "new" new_nonempty, .login ⟨owner.email, "Secret-1"⟩)

/-- The author gets no token of the owner's. -/
theorem author_stays_out :
    ¬ ∃ i tokens,
      ((interleaving.run (launch desk authorsRequests) [0, 0, 1, 1, 2, 3]).2.place i).received =
        some tokens ∧ tokens.token.id = owner.id := by
  rintro ⟨i, tokens, hreceived, howner⟩
  have hstay := outsiders_stay_out owner.id (fun _ => True) (fun _ => False)
    (fun _ hpurse => hpurse.elim)
    (Machine.reach_run interleaving (launch desk authorsRequests) [0, 0, 1, 1, 2, 3]) ?_
  · exact hstay.1 i trivial tokens hreceived howner
  · refine List.forall_mem_cons.2 ⟨?_, List.forall_mem_cons.2 ⟨?_, List.forall_mem_cons.2 ⟨?_,
      List.forall_mem_cons.2 ⟨?_, List.forall_mem_cons.2 ⟨?_, List.forall_mem_cons.2 ⟨?_,
        fun e he => by cases he⟩⟩⟩⟩⟩⟩
    -- The login at the owner's address: the owner has no password that `Secret-1` could be.
    · refine actsOutside_of_ready (.login ⟨owner.email, "Secret-1"⟩) rfl ?_
      intro user hfound _ hcompare
      have howner : (interleaving.run (launch desk authorsRequests)
          [0, 0, 1, 1, 2]).2.shared.userByEmail owner.email = some owner := by decide +kernel
      obtain rfl := Option.some.inj (howner.symm.trans hfound)
      cases hcompare
    · exact actsOutside_of_ready (.logout ⟨author.id, author.role, ⟨"one", one_nonempty⟩⟩) rfl
        ⟨_, Or.inr ⟨0, trivial, rfl⟩, rfl⟩
    · intro _ request hrequest
      cases hrequest
    · exact actsOutside_of_ready (.refresh ⟨⟨"one", one_nonempty⟩, "one"⟩) rfl
        ⟨_, Or.inr ⟨0, trivial, rfl⟩, rfl⟩
    · intro _ request hrequest
      cases hrequest
    · refine actsOutside_of_ready (.login ⟨author.email, "Secret-1"⟩) rfl ?_
      intro user hfound hid _
      have hauthor : desk.userByEmail author.email = some authorWithPassword := by decide +kernel
      obtain rfl := Option.some.inj (hauthor.symm.trans hfound)
      exact absurd hid (by decide)

end

end VetHealth
