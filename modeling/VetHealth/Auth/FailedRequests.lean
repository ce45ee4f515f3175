import VetHealth.Auth.Escalation

/-!
# VetHealth.Auth.FailedRequests

**What a failed request leaves behind.** No service function opens a transaction, so whatever was
stored before the step that fails stays stored. `register` has stored the user before it stores the
confirmation and sends the mail, and `refreshTokens` has drawn a new hash for the session before it
looks at the user and signs the tokens. `register_failure_iff` and `refresh_failure_iff` say when
that does no harm.
-/

namespace VetHealth

open Js Store Resumption Transition

/-- Whenever the request fails, the database that it leaves behind is as `P` says. Nothing is rolled
back: what was written before the failure stays. -/
def OnFailure {α : Type} (request : Action α) (db : Database) (P : Database → Prop) : Prop :=
  ∀ e db', request.run db = (.error e, db') → P db'

theorem onFailure_of_run {α : Type} {request : Action α} {db db' : Database} {P : Database → Prop}
    {r : Except Failure α} (h : request.run db = (r, db')) :
    OnFailure request db P ↔ ∀ e, r = .error e → P db' := by
  unfold OnFailure
  rw [h]
  constructor
  · intro hP e he
    exact hP e db' (by rw [he])
  · intro hP e db'' heq
    obtain ⟨hr, rfl⟩ := Prod.mk.inj heq
    exact hP e hr

/-! ### `register` -/

section

variable [Mysql] [EmailSyntax] {a : Ambient} {db : Database} {dto : AuthRegisterDto}

/-- The users and the confirmations are as before, and a body that passed the checks still passes
them. -/
def NothingRegistered (db : Database) (dto : AuthRegisterDto) (db' : Database) : Prop :=
  db'.users = db.users ∧ db'.confirms = db.confirms ∧
    (validate (AuthRegisterDto.properties db.users db.topicIds dto) = [] →
      validate (AuthRegisterDto.properties db'.users db'.topicIds dto) = [])

theorem nothingRegistered_self : NothingRegistered db dto db := ⟨rfl, rfl, id⟩

/-- The database does not store the user of the body. -/
def UserRefused (a : Ambient) (db : Database) (dto : AuthRegisterDto) : Prop :=
  ∀ user db', dto.toEntity db.topicIds a.userId = some user → db.insertUser user ≠ .ok db'

omit [EmailSyntax] in
/-- A registration that fails before the user is stored changes nothing, and the form can be sent
again. -/
theorem register_of_userRefused (h : UserRefused a db dto) :
    ∃ e, (AuthService.register a dto).run db = (.error e, db) := by
  rw [AuthService.run_register]
  cases hentity : dto.toEntity db.topicIds a.userId with
  | none => exact ⟨_, rfl⟩
  | some user =>
      dsimp only
      cases hins : db.insertUser user with
      | error e => exact ⟨e, rfl⟩
      | ok db' => exact absurd hins (h user db' hentity)

omit [EmailSyntax] in
/-- Once the user is stored, the rest of the registration does not take it back: neither a failing
insert of the confirmation nor a mail that is not sent. -/
theorem register_of_inserted {user : UserEntity} {db₁ : Database}
    (hentity : dto.toEntity db.topicIds a.userId = some user) (hins : db.insertUser user = .ok db₁) :
    ∃ r db', (AuthService.register a dto).run db = (r, db') ∧ db'.users = db₁.users ∧
      ((∃ registered, r = .ok registered) ↔ db.confirms.get a.rowId = none ∧ a.mailed = true) := by
  have hconfirms : db₁.confirms = db.confirms := (Database.insertUser_users hins).2.2
  rw [AuthService.run_register, hentity]
  dsimp only
  rw [hins]
  dsimp only
  have hfree : (∃ db₂, db₁.insertConfirm ⟨a.rowId, user.id, a.hash, a.now + 86400000⟩ = .ok db₂) ↔
      db.confirms.get a.rowId = none := by
    rw [Database.exists_insertConfirm, hconfirms]
  rw [← hfree]
  cases hconfirm : db₁.insertConfirm ⟨a.rowId, user.id, a.hash, a.now + 86400000⟩ with
  | error e => exact ⟨_, _, rfl, rfl, by simp⟩
  | ok db₂ =>
      refine ⟨_, _, rfl, (Database.insertConfirm_eq_ok hconfirm).2.1, ?_⟩
      cases a.mailed <;> simp

/-- **When a registration is all or nothing**: the user is refused, or neither of the later steps
fails. -/
theorem register_failure_iff :
    OnFailure (AuthService.register a dto) db (NothingRegistered db dto) ↔
      UserRefused a db dto ∨ (db.confirms.get a.rowId = none ∧ a.mailed = true) := by
  by_cases hrefused : UserRefused a db dto
  · obtain ⟨e, hrun⟩ := register_of_userRefused hrefused
    rw [onFailure_of_run hrun]
    exact ⟨fun _ => Or.inl hrefused, fun _ _ _ => nothingRegistered_self⟩
  · have hstored := hrefused
    unfold UserRefused at hstored
    push Not at hstored
    obtain ⟨user, db₁, hentity, hins⟩ := hstored
    obtain ⟨r, db', hrun, husers, hok⟩ := register_of_inserted (a := a) hentity hins
    rw [onFailure_of_run hrun, or_iff_right hrefused, ← hok]
    constructor
    · intro h
      cases r with
      | ok registered => exact ⟨registered, rfl⟩
      | error e =>
          -- the stored user was not there before
          obtain ⟨hfree, -, -, hget⟩ := Database.insertUser_eq_ok hins
          have hsame := (h e rfl).1
          rw [husers] at hsame
          have hrow := hget user.id
          rw [hsame, hfree, if_pos rfl] at hrow
          cases hrow
    · rintro ⟨registered, rfl⟩ e he
      cases he

end

/-! ### `refreshTokens` -/

section

variable {a : Ambient} {db : Database} {data : JwtRefreshPayload}

/-- The session has the hash that the client's token carries, so that the client can try again. -/
def StillValid (data : JwtRefreshPayload) (db : Database) : Prop :=
  ∃ session, db.sessions.get data.sessionId = some session ∧ session.hash = data.hash

/-- **When a failed refresh leaves the session usable**: the refresh does not fail, since the user
loads and the token is signed, or the new hash is the old one. -/
theorem refresh_failure_iff [Typeorm] {session : SessionEntity} {user : Option UserEntity}
    (hsession : db.session data.sessionId = some (session, user)) (hhash : session.hash = data.hash) :
    OnFailure (AuthService.refreshTokens a data) db (StillValid data) ↔
      (user ≠ none ∧ a.signed = true) ∨ a.hash = data.hash := by
  obtain ⟨hget, hid, -, -⟩ := Database.session_eq_some.1 hsession
  have hrow : (db.updateSession session.id a.hash).sessions.get data.sessionId =
      some { session with hash := a.hash } := by
    rw [Database.get_updateSession, hget, Option.map_some, if_pos rfl]
  -- The new hash is written before anything may fail: what the client has is valid only if it was
  -- drawn again.
  have hvalid : StillValid data (db.updateSession session.id a.hash) ↔ a.hash = data.hash := by
    unfold StillValid
    rw [hrow]
    simp
  have hrun := AuthService.run_refreshTokens a db data
  rw [hsession] at hrun
  dsimp only at hrun
  rw [if_neg (not_not_intro hhash)] at hrun
  rw [onFailure_of_run hrun, hvalid]
  cases user with
  | none => simp
  | some user =>
      dsimp only
      rw [AuthService.getTokensData]
      cases a.signed <;> simp

end

/-! ### A mail that is not sent, and a token that is not signed -/

section

attribute [local instance] Mysql.strict atSign Typeorm.comparing

def ivansForm : AuthRegisterDto where
  firstname := some (.str "Ivan")
  email := some (.str "ivan@vethealth.test")
  role := some (.obj [("id", .str "4")])

/-- A registration whose mail is not sent. -/
def unmailed : Ambient := { drawing "new" new_nonempty with mailed := false }

/-- The user stays registered, and the address is taken from then on. -/
theorem user_outlives_mail :
    ¬ OnFailure (AuthService.register unmailed ivansForm) desk (NothingRegistered desk ivansForm) := by
  intro h
  have hafter := (h (.serviceUnavailable ErrorMessage.EMAIL_SEND_FAILED)
    ((AuthService.register unmailed ivansForm).run desk).2 rfl).1
  have hlength : ((AuthService.register unmailed ivansForm).run desk).2.users.rows.length = 3 := by
    decide +kernel
  rw [hafter] at hlength
  cases hlength

/-- The session of `desk` that the author refreshes. -/
def phonesToken : JwtRefreshPayload := ⟨⟨"phone", phone_nonempty⟩, "h1"⟩

theorem signed_refresh :
    OnFailure (AuthService.refreshTokens (drawing "next" (by decide)) phonesToken) desk
      (StillValid phonesToken) := by
  have hsession : desk.session phonesToken.sessionId =
      some (⟨⟨"phone", phone_nonempty⟩, author.id, "h1", false⟩, some authorWithPassword) := rfl
  exact (refresh_failure_iff hsession rfl).2 (Or.inl ⟨Option.some_ne_none _, rfl⟩)

/-- The hash of the session is the new one, which nobody has been given. -/
theorem unsigned_refresh :
    ¬ OnFailure (AuthService.refreshTokens { drawing "next" (by decide) with signed := false }
      phonesToken) desk (StillValid phonesToken) := by
  intro h
  obtain ⟨session, hget, hhash⟩ := h (.internal .signingFailed) _ rfl
  have hnext : session.hash = "next" := by
    have hrow : (desk.updateSession ⟨"phone", phone_nonempty⟩ "next").sessions.get phonesToken.sessionId =
        some session := hget
    rw [Database.get_updateSession] at hrow
    obtain ⟨old, hold, rfl⟩ := Option.map_eq_some_iff.1 hrow
    rw [(Table.get_eq_some.1 hold).2]
    rfl
  rw [hnext] at hhash
  revert hhash
  decide

end

end VetHealth
