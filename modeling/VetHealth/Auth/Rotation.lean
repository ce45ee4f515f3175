import VetHealth.Auth.Runs

/-!
# VetHealth.Auth.Rotation

**Refresh-token rotation.** A session stores one hash, and a refresh token is accepted when it
carries that hash. In a run that starts without sessions and in which drawn hashes never
repeat, the only token of a session that can be accepted is the one issued last, an earlier one
revokes the session, and a revoked session stays revoked.

Everything follows from `sessions_step`: whatever a request does, it opens one session under
the drawn id and hash, or gives one live session the drawn hash, or marks sessions as deleted.
-/

namespace VetHealth

open Js Store Resumption Transition

/-- A step of the server. -/
abbrev ServerEntry := Entry Database (Ambient × Request) (Except Failure Response)

/-- The refresh token that a response carries. -/
def refreshTokenOf : Except Failure Response → Option JwtRefreshPayload
  | .ok (.loggedIn response) => some response.refreshToken
  | .ok (.refreshed tokens) => some tokens.refreshToken
  | _ => none

/-- The refresh tokens issued so far, the last one first. A run is read from its last step
backwards. -/
def issuedTokens (past : List ServerEntry) : List JwtRefreshPayload :=
  past.filterMap fun e => refreshTokenOf e.response

/-- The last token issued for a session: the one that a client ought to hold. -/
def lastIssued (past : List ServerEntry) (sessionId : Uuid) : Option JwtRefreshPayload :=
  (issuedTokens past).find? fun token => token.sessionId = sessionId

/-- The hashes drawn so far. A step draws one whether it uses it or not. -/
def draws (past : List ServerEntry) : List String := past.map fun e => e.request.1.hash

/-- The states that a run has been in, the present one first. -/
def visited (past : List ServerEntry) (db : Database) : List Database := db :: past.map Entry.before

namespace Database

/-- The session is stored and deleted. -/
def revoked (db : Database) (id : Uuid) : Prop :=
  ∃ session, db.sessions.get id = some session ∧ session.deletedAt = true

/-! ### What a request can do to the sessions -/

/-- A session was opened under the drawn id and hash, and the token, if any, is its first. -/
def opens (a : Ambient) (db db' : Database) (token : Option JwtRefreshPayload) : Prop :=
  db.sessions.get a.rowId = none ∧
    (∃ userId, ∀ k, db'.sessions.get k =
      if a.rowId = k then some ⟨a.rowId, userId, a.hash, false⟩ else db.sessions.get k) ∧
    ∀ t, token = some t → t = ⟨a.rowId, a.hash⟩

/-- A stored session was given the drawn hash, and the token, if any, carries it. -/
def rotates (a : Ambient) (db db' : Database) (token : Option JwtRefreshPayload) : Prop :=
  ∃ session, db.sessions.get session.id = some session ∧
    (∀ k, db'.sessions.get k = (db.sessions.get k).map fun row =>
      if row.id = session.id then { row with hash := a.hash } else row) ∧
    ∀ t, token = some t → t = ⟨session.id, a.hash⟩

/-- Some sessions, perhaps none, were marked as deleted, and no token was issued. -/
def revokes (db db' : Database) (token : Option JwtRefreshPayload) : Prop :=
  (∃ p : SessionEntity → Bool, ∀ k, db'.sessions.get k = (db.sessions.get k).map fun row =>
    if p row then { row with deletedAt := true } else row) ∧ token = none

theorem revokes_of_sessions_eq {db db' : Database} (h : db'.sessions = db.sessions) :
    db.revokes db' none := by
  refine ⟨⟨fun _ => false, fun k => ?_⟩, rfl⟩
  rw [h]
  cases db.sessions.get k <;> rfl

theorem revokes_softDelete [Typeorm] (db : Database) (id user excludeId : Option Uuid) :
    db.revokes (db.softDeleteSessions id user excludeId) none :=
  ⟨⟨_, get_softDeleteSessions db id user excludeId⟩, rfl⟩

end Database

section Step

variable [Scrypt] (a : Ambient) (db : Database)

omit [Scrypt] in
/-- A response that is no token carries none. -/
theorem refreshTokenOf_map {α : Type} {f : α → Response}
    (hf : ∀ x, refreshTokenOf (.ok (f x)) = none) (r : Except Failure α) :
    refreshTokenOf (r.map f) = none := by
  cases r with
  | error e => rfl
  | ok x => exact hf x

theorem login_opens (authDto : AuthLoginDto) :
    let out := (AuthService.validateLogin a authDto).run db
    let token := refreshTokenOf (out.1.map .loggedIn)
    db.opens a out.2 token ∨ db.revokes out.2 token := by
  rw [AuthService.run_validateLogin]
  cases AuthService.checkLogin authDto (db.userByEmail authDto.email) with
  | error e => exact Or.inr (Database.revokes_of_sessions_eq rfl)
  | ok user =>
      dsimp only
      cases hins : db.insertSession ⟨a.rowId, user.id, a.hash, false⟩ with
      | error e => exact Or.inr (Database.revokes_of_sessions_eq rfl)
      | ok db' =>
          obtain ⟨hfresh, -, -, hget⟩ := Database.insertSession_eq_ok hins
          refine Or.inl ⟨hfresh, ⟨user.id, hget⟩, fun t ht => ?_⟩
          dsimp only at ht
          unfold AuthService.getTokensData at ht
          split at ht
          · exact (Option.some.inj ht).symm
          · cases ht

omit [Scrypt] in
theorem refresh_rotates [Typeorm] (data : JwtRefreshPayload) :
    let out := (AuthService.refreshTokens a data).run db
    let token := refreshTokenOf (out.1.map .refreshed)
    db.rotates a out.2 token ∨ db.revokes out.2 token := by
  rw [AuthService.run_refreshTokens]
  rcases hsession : db.session data.sessionId with _ | ⟨session, user⟩
  · exact Or.inr (Database.revokes_of_sessions_eq rfl)
  · dsimp only
    by_cases hhash : session.hash ≠ data.hash
    · rw [if_pos hhash]
      exact Or.inr (Database.revokes_softDelete _ _ _ _)
    · rw [if_neg hhash]
      obtain ⟨hget, hid, -, -⟩ := Database.session_eq_some.1 hsession
      rw [← hid] at hget
      -- The write comes before the user is looked at, so that the hash is rotated even if no token
      -- is issued.
      refine Or.inl ⟨session, hget, Database.get_updateSession _ _ _, fun t ht => ?_⟩
      cases user with
      | none => cases ht
      | some user =>
          dsimp only at ht
          unfold AuthService.getTokensData at ht
          split at ht
          · exact (Option.some.inj ht).symm
          · cases ht

theorem confirm_revokesSessions [Typeorm] (confirmDto : AuthConfirmDto) :
    db.revokes ((AuthService.confirm a confirmDto).run db).2 none := by
  rw [AuthService.run_confirm]
  rcases db.confirm confirmDto.hash with _ | ⟨confirm, user⟩
  · exact Database.revokes_of_sessions_eq rfl
  · dsimp only
    by_cases hexpired : confirm.expiresIn < a.now
    · rw [if_pos hexpired]
      exact Database.revokes_of_sessions_eq rfl
    · rw [if_neg hexpired]
      cases user with
      | none => exact Database.revokes_of_sessions_eq rfl
      | some user =>
          dsimp only
          -- A failing update leaves the sessions deleted.
          cases hupdate : (db.softDeleteSessions none (some user.id) none).updateUser user.id
              (AuthService.confirmPatch a confirmDto.password) with
          | error e => exact Database.revokes_softDelete _ _ _ _
          | ok written =>
              obtain ⟨hsessions, -, -⟩ := Database.updateUser_eq_ok hupdate
              obtain ⟨⟨p, hp⟩, -⟩ := Database.revokes_softDelete db none (some user.id) none
              refine ⟨⟨p, fun k => ?_⟩, rfl⟩
              rw [← hp k, ← hsessions]
              rfl

theorem changePassword_revokesSessions [Typeorm] (caller : JwtPayload) (dto : AuthChangePasswordDto) :
    db.revokes ((AuthService.changePassword a caller dto).run db).2 none := by
  rw [AuthService.run_changePassword]
  cases AuthService.checkChange dto (db.loadUser caller.id) with
  | error e => exact Database.revokes_of_sessions_eq rfl
  | ok user =>
      dsimp only
      cases hupdate : db.updateUser caller.id (AuthService.changePatch a dto.password) with
      | error e => exact Database.revokes_of_sessions_eq rfl
      | ok written =>
          obtain ⟨hsessions, -, -⟩ := Database.updateUser_eq_ok hupdate
          obtain ⟨⟨p, hp⟩, -⟩ := Database.revokes_softDelete written none (some caller.id)
            (some caller.sessionId)
          exact ⟨⟨p, fun k => hsessions ▸ hp k⟩, rfl⟩

omit [Scrypt] in
theorem forgotPassword_sessions (email : String) :
    ((AuthService.forgotPassword a email).run db).2.sessions = db.sessions := by
  rw [AuthService.run_forgotPassword]
  split
  · rfl
  · split
    · rfl
    · next db' hconfirm => exact (Database.insertConfirm_eq_ok hconfirm).2.2.1

omit [Scrypt] in
/-- A statement on the users keeps the sessions. -/
theorem attempt_users_sessions (f : Database → Except Failure UsersTable) :
    ((attempt fun db => (f db).map fun users => { db with users }).run db).2.sessions =
      db.sessions := by
  rw [run_attempt]
  cases f db <;> rfl

variable [Mysql] [EmailSyntax]

omit [Scrypt] in
theorem register_sessions (caller : JwtPayload) (dto : AuthRegisterDto) :
    ((AuthController.register a caller dto).run db).2.sessions = db.sessions := by
  rw [run_registerEndpoint]
  split
  · rfl
  · split
    · rfl
    · rw [AuthService.run_register]
      split
      · rfl
      · split
        · rfl
        · next db' hins =>
            have husers := (Database.insertUser_eq_ok hins).2.1
            split
            · exact husers
            · next db'' hconfirm =>
                exact (Database.insertConfirm_eq_ok hconfirm).2.2.1.trans husers

/-- **What a request can do to the sessions.** -/
theorem sessions_step [Typeorm] (request : Request) :
    let out := (handle a request).run db
    db.opens a out.2 (refreshTokenOf out.1) ∨ db.rotates a out.2 (refreshTokenOf out.1) ∨
      db.revokes out.2 (refreshTokenOf out.1) := by
  -- all requests but a login and a refresh answer without a token
  have hnone : ∀ {α : Type} {f : α → Response} (p : Action α),
      (∀ x, refreshTokenOf (.ok (f x)) = none) → db.revokes (p.run db).2 none →
      db.revokes ((f <$> p).run db).2 (refreshTokenOf ((f <$> p).run db).1) := by
    intro α f p hf hrevokes
    rw [Prog.run_map, refreshTokenOf_map hf]
    exact hrevokes
  have hsame : ∀ {α : Type} {f : α → Response} (p : Action α),
      (∀ x, refreshTokenOf (.ok (f x)) = none) → (p.run db).2.sessions = db.sessions →
      db.revokes ((f <$> p).run db).2 (refreshTokenOf ((f <$> p).run db).1) :=
    fun p hf hp => hnone p hf (Database.revokes_of_sessions_eq hp)
  cases request with
  | login authDto =>
      simp only [handle, Prog.run_map]
      exact (login_opens a db authDto).imp_right Or.inr
  | refresh data =>
      simp only [handle, Prog.run_map]
      exact Or.inr (refresh_rotates a db data)
  | logout caller =>
      exact Or.inr (Or.inr (hnone _ (fun _ => rfl) (Database.revokes_softDelete _ _ _ _)))
  | confirm dto =>
      exact Or.inr (Or.inr (hnone _ (fun _ => rfl) (confirm_revokesSessions a db dto)))
  | changePassword caller dto =>
      exact Or.inr (Or.inr (hnone _ (fun _ => rfl) (changePassword_revokesSessions a db caller dto)))
  | register caller dto =>
      exact Or.inr (Or.inr (hsame _ (fun _ => rfl) (register_sessions a db caller dto)))
  | getPendingUser hash =>
      have hdb : ((AuthService.getPendingUser hash).run db).2.sessions = db.sessions := by
        rw [AuthService.run_getPendingUser]
      exact Or.inr (Or.inr (hsame _ (fun _ => rfl) hdb))
  | forgotPassword email =>
      exact Or.inr (Or.inr (hsame _ (fun _ => rfl) (forgotPassword_sessions a db email)))
  | currentUser caller =>
      exact Or.inr (Or.inr (hsame _ (fun _ => rfl) rfl))
  | updateUser caller dto =>
      exact Or.inr (Or.inr (hsame _ (fun _ => rfl) (attempt_users_sessions db _)))
  | deleteUser caller id =>
      exact Or.inr (Or.inr (hsame _ (fun _ => rfl) (attempt_users_sessions db _)))

end Step

/-! ### Runs -/

section Runs

variable {db₀ db db' : Database} {past : List ServerEntry} {e : ServerEntry}

/-- What the stored hashes have to do with the tokens issued so far: this is the invariant of the
rotation. -/
structure Tracks (past : List ServerEntry) (db : Database) : Prop where
  stored : ∀ t ∈ issuedTokens past, ∃ session, db.sessions.get t.sessionId = some session
  drawn : ∀ t ∈ issuedTokens past, t.hash ∈ draws past
  drawnRow : ∀ k session, db.sessions.get k = some session → session.hash ∈ draws past
  last : ∀ t ∈ issuedTokens past, ∀ session, db.sessions.get t.sessionId = some session →
    session.hash = t.hash → lastIssued past t.sessionId = some t

theorem mem_issuedTokens_cons {t : JwtRefreshPayload} :
    t ∈ issuedTokens (e :: past) ↔ refreshTokenOf e.response = some t ∨ t ∈ issuedTokens past := by
  cases h : refreshTokenOf e.response <;> simp [issuedTokens, h, eq_comm]

theorem lastIssued_cons_self {t : JwtRefreshPayload} (h : refreshTokenOf e.response = some t) :
    lastIssued (e :: past) t.sessionId = some t := by
  simp [lastIssued, issuedTokens, h]

theorem lastIssued_cons_of_ne {sessionId : Uuid}
    (h : ∀ t, refreshTokenOf e.response = some t → t.sessionId ≠ sessionId) :
    lastIssued (e :: past) sessionId = lastIssued past sessionId := by
  cases ht : refreshTokenOf e.response with
  | none => simp [lastIssued, issuedTokens, ht]
  | some t => simp [lastIssued, issuedTokens, ht, h t ht]

theorem draws_cons_self : e.request.1.hash ∈ draws (e :: past) := List.mem_cons_self

theorem draws_cons_of_mem {hash : String} (h : hash ∈ draws past) : hash ∈ draws (e :: past) :=
  List.mem_cons_of_mem _ h

namespace Tracks

/-- Every token carries a drawn hash, also if a step issues one with the hash that it draws. -/
theorem drawn_cons (h : Tracks past db)
    (htoken : ∀ t, refreshTokenOf e.response = some t → t.hash = e.request.1.hash) :
    ∀ t ∈ issuedTokens (e :: past), t.hash ∈ draws (e :: past) := by
  intro t ht
  rcases mem_issuedTokens_cons.1 ht with hnew | ht
  · rw [htoken t hnew]
    exact draws_cons_self
  · exact draws_cons_of_mem (h.drawn t ht)

/-- A new session takes the drawn hash and no earlier token. -/
theorem opens (h : Tracks past db)
    (hstep : db.opens e.request.1 db' (refreshTokenOf e.response)) : Tracks (e :: past) db' := by
  obtain ⟨hnew, ⟨userId, hget⟩, htoken⟩ := hstep
  -- every earlier token has a stored session, and the new id was free
  have hne : ∀ t ∈ issuedTokens past, e.request.1.rowId ≠ t.sessionId := by
    intro t ht heq
    obtain ⟨session, hsession⟩ := h.stored t ht
    rw [← heq, hnew] at hsession
    cases hsession
  have hold : ∀ t ∈ issuedTokens past, db'.sessions.get t.sessionId = db.sessions.get t.sessionId := by
    intro t ht
    rw [hget, if_neg (hne t ht)]
  constructor
  · intro t ht
    rcases mem_issuedTokens_cons.1 ht with hnewToken | ht
    · rw [htoken t hnewToken, hget, if_pos rfl]
      exact ⟨_, rfl⟩
    · rw [hold t ht]
      exact h.stored t ht
  · exact h.drawn_cons fun t ht => congrArg JwtRefreshPayload.hash (htoken t ht)
  · intro k session hsession
    rw [hget] at hsession
    by_cases hk : e.request.1.rowId = k
    · rw [if_pos hk] at hsession
      rw [← Option.some.inj hsession]
      exact draws_cons_self
    · rw [if_neg hk] at hsession
      exact draws_cons_of_mem (h.drawnRow k session hsession)
  · intro t ht session hsession hhash
    rcases mem_issuedTokens_cons.1 ht with hnewToken | ht
    · exact lastIssued_cons_self hnewToken
    · rw [hold t ht] at hsession
      rw [lastIssued_cons_of_ne fun t' ht' => htoken t' ht' ▸ hne t ht]
      exact h.last t ht session hsession hhash

/-- A rotated session takes the drawn hash, which no earlier token carries. -/
theorem rotates (h : Tracks past db) (hfresh : e.request.1.hash ∉ draws past)
    (hstep : db.rotates e.request.1 db' (refreshTokenOf e.response)) : Tracks (e :: past) db' := by
  obtain ⟨rotated, hrotated, hget, htoken⟩ := hstep
  constructor
  · intro t ht
    rcases mem_issuedTokens_cons.1 ht with hnewToken | ht
    · rw [htoken t hnewToken, hget, hrotated]
      exact ⟨_, rfl⟩
    · obtain ⟨session, hsession⟩ := h.stored t ht
      rw [hget, hsession]
      exact ⟨_, rfl⟩
  · exact h.drawn_cons fun t ht => congrArg JwtRefreshPayload.hash (htoken t ht)
  · intro k session hsession
    rw [hget, Option.map_eq_some_iff] at hsession
    obtain ⟨row, hrow, rfl⟩ := hsession
    by_cases hk : row.id = rotated.id
    · rw [if_pos hk]
      exact draws_cons_self
    · rw [if_neg hk]
      exact draws_cons_of_mem (h.drawnRow k row hrow)
  · intro t ht session hsession hhash
    rcases mem_issuedTokens_cons.1 ht with hnewToken | ht
    · exact lastIssued_cons_self hnewToken
    · rw [hget, Option.map_eq_some_iff] at hsession
      obtain ⟨row, hrow, rfl⟩ := hsession
      have hid : row.id = t.sessionId := (Table.get_eq_some.1 hrow).2
      by_cases hk : row.id = rotated.id
      · -- an earlier token with the drawn hash would have had it drawn before
        rw [if_pos hk] at hhash
        dsimp only at hhash
        rw [hhash] at hfresh
        exact absurd (h.drawn t ht) hfresh
      · rw [if_neg hk] at hhash
        have hne : rotated.id ≠ t.sessionId := fun heq => hk (hid.trans heq.symm)
        rw [lastIssued_cons_of_ne fun t' ht' => htoken t' ht' ▸ hne]
        exact h.last t ht row hrow hhash

/-- A deletion changes no hash and issues no token. -/
theorem revokes (h : Tracks past db)
    (hstep : db.revokes db' (refreshTokenOf e.response)) : Tracks (e :: past) db' := by
  obtain ⟨⟨p, hget⟩, hnone⟩ := hstep
  have hrow : ∀ k session, db'.sessions.get k = some session →
      ∃ row, db.sessions.get k = some row ∧ session.hash = row.hash := by
    intro k session hsession
    rw [hget, Option.map_eq_some_iff] at hsession
    obtain ⟨row, hrow, rfl⟩ := hsession
    refine ⟨row, hrow, ?_⟩
    split <;> rfl
  have hold : ∀ t ∈ issuedTokens (e :: past), t ∈ issuedTokens past := by
    intro t ht
    rcases mem_issuedTokens_cons.1 ht with hnewToken | ht
    · rw [hnone] at hnewToken
      cases hnewToken
    · exact ht
  constructor
  · intro t ht
    obtain ⟨session, hsession⟩ := h.stored t (hold t ht)
    rw [hget, hsession]
    exact ⟨_, rfl⟩
  · exact fun t ht => draws_cons_of_mem (h.drawn t (hold t ht))
  · intro k session hsession
    obtain ⟨row, hrow, hhash⟩ := hrow k session hsession
    rw [hhash]
    exact draws_cons_of_mem (h.drawnRow k row hrow)
  · intro t ht session hsession hhash
    obtain ⟨row, hrow, hsame⟩ := hrow _ session hsession
    rw [lastIssued_cons_of_ne fun t' ht' => by rw [hnone] at ht'; cases ht']
    exact h.last t (hold t ht) row hrow (hsame ▸ hhash)

end Tracks

/-- A revoked session stays revoked: no step takes a mark back. -/
theorem revoked_step {a : Ambient} {token : Option JwtRefreshPayload} {id : Uuid}
    (hstep : db.opens a db' token ∨ db.rotates a db' token ∨ db.revokes db' token)
    (h : db.revoked id) : db'.revoked id := by
  obtain ⟨session, hsession, hdeleted⟩ := h
  rcases hstep with ⟨hnew, ⟨userId, hget⟩, -⟩ | ⟨rotated, -, hget, -⟩ | ⟨⟨p, hget⟩, -⟩
  · have hne : a.rowId ≠ id := by
      intro heq
      rw [← heq, hnew] at hsession
      cases hsession
    exact ⟨session, by rw [hget, if_neg hne, hsession], hdeleted⟩
  · refine ⟨_, by rw [hget, hsession]; rfl, ?_⟩
    dsimp only
    split
    · exact hdeleted
    · exact hdeleted
  · refine ⟨_, by rw [hget, hsession]; rfl, ?_⟩
    dsimp only
    split
    · rfl
    · exact hdeleted

/-- What `refreshTokens` needs to accept a token. -/
theorem accepted_session [Typeorm] {a : Ambient} {t : JwtRefreshPayload} {tokens : Tokens}
    (h : (AuthService.refreshTokens a t).run db = (.ok tokens, db')) :
    ∃ session, db.sessions.get t.sessionId = some session ∧ session.deletedAt = false ∧
      session.hash = t.hash := by
  rw [AuthService.run_refreshTokens] at h
  rcases hsession : db.session t.sessionId with _ | ⟨session, user⟩
  · rw [hsession] at h
    cases h
  · rw [hsession] at h
    dsimp only at h
    obtain ⟨hget, -, hlive, -⟩ := Database.session_eq_some.1 hsession
    by_cases hhash : session.hash ≠ t.hash
    · rw [if_pos hhash] at h
      cases h
    · exact ⟨session, hget, hlive, not_not.1 hhash⟩

/-- A token that does not carry the stored hash revokes its session, whoever presents it. A stolen
token that is used twice costs the thief the session, too. -/
theorem revoked_of_ne [Typeorm] {a : Ambient} {t : JwtRefreshPayload} {session : SessionEntity}
    (hget : db.sessions.get t.sessionId = some session) (hhash : session.hash ≠ t.hash) :
    ((AuthService.refreshTokens a t).run db).2.revoked t.sessionId := by
  have hid : session.id = t.sessionId := (Table.get_eq_some.1 hget).2
  rw [AuthService.run_refreshTokens]
  rcases hsession : db.session t.sessionId with _ | ⟨loaded, user⟩
  · -- the lookup misses a stored session only when it is deleted already
    cases hdeleted : session.deletedAt with
    | true => exact ⟨session, hget, hdeleted⟩
    | false =>
        have hsome := Database.session_eq_some.2 ⟨hget, hid, hdeleted, rfl⟩
        rw [hsession] at hsome
        cases hsome
  · obtain ⟨hloaded, -, -, -⟩ := Database.session_eq_some.1 hsession
    obtain rfl := Option.some.inj (hget.symm.trans hloaded)
    dsimp only
    rw [if_pos hhash, hid]
    have hselected : Database.sessionCriteria (some t.sessionId) none none session = true := by
      rw [← Bool.not_eq_false, Database.sessionCriteria_id, not_not, hid]
    exact ⟨_, by rw [Database.get_softDeleteSessions, hget, Option.map_some, if_pos hselected], rfl⟩

variable [Scrypt] [Mysql] [EmailSyntax] [Typeorm]

/-- The stored hashes track the issued tokens in every run without repeated draws. -/
theorem tracks_of_reach (h : server.Reach db₀ past db) (hstart : db₀.sessions = Table.empty)
    (hdraws : (draws past).Nodup) : Tracks past db := by
  refine h.invariant (P := Tracks) ?_ ?_ (Machine.along_of_nodup hdraws)
  · refine ⟨by simp [issuedTokens], by simp [issuedTokens], ?_, by simp [issuedTokens]⟩
    intro k session hsession
    rw [hstart] at hsession
    exact absurd (Table.get_eq_some.1 hsession).1 (Table.not_mem_empty _)
  · intro past db call _ htracks hfresh
    rcases sessions_step call.1 db call.2 with hopens | hrotates | hrevokes
    · exact htracks.opens hopens
    · exact htracks.rotates hfresh hrotates
    · exact htracks.revokes hrevokes

/-- A session that was revoked in some state of a run is revoked at its end. -/
theorem revoked_of_visited (h : server.Reach db₀ past db) {earlier : Database}
    (hvisited : earlier ∈ visited past db) {id : Uuid} (hrevoked : earlier.revoked id) :
    db.revoked id := by
  induction h with
  | init =>
      rw [visited, List.map_nil, List.mem_singleton] at hvisited
      exact hvisited ▸ hrevoked
  | @step past before call _ ih =>
      -- the states but the last are those that the run without its last step has visited
      rcases List.mem_cons.1 hvisited with rfl | hvisited
      · exact hrevoked
      · exact revoked_step (sessions_step call.1 before call.2) (ih hvisited)

/-- **Refresh-token rotation.** In a run that starts without sessions and never draws a hash
twice: an issued token that is accepted is the last one of its session; presenting any other
revokes the session; and once a session is revoked, none of its tokens is accepted. -/
theorem rotation (h : server.Reach db₀ past db) (hstart : db₀.sessions = Table.empty)
    (hdraws : (draws past).Nodup) :
    (∀ t ∈ issuedTokens past, ∀ a tokens db',
      (AuthService.refreshTokens a t).run db = (.ok tokens, db') →
        lastIssued past t.sessionId = some t) ∧
    (∀ t ∈ issuedTokens past, lastIssued past t.sessionId ≠ some t →
      ∀ a, ((AuthService.refreshTokens a t).run db).2.revoked t.sessionId) ∧
    (∀ earlier ∈ visited past db, ∀ t : JwtRefreshPayload, earlier.revoked t.sessionId →
      ∀ a tokens db', (AuthService.refreshTokens a t).run db ≠ (.ok tokens, db')) := by
  have htracks := tracks_of_reach h hstart hdraws
  refine ⟨fun t ht a tokens db' hok => ?_, fun t ht hne a => ?_,
    fun earlier hvisited t hrevoked a tokens db' hok => ?_⟩
  · obtain ⟨session, hget, -, hhash⟩ := accepted_session hok
    exact htracks.last t ht session hget hhash
  · obtain ⟨session, hget⟩ := htracks.stored t ht
    exact revoked_of_ne hget fun hhash => hne (htracks.last t ht session hget hhash)
  · obtain ⟨session, hget, hlive, -⟩ := accepted_session hok
    obtain ⟨row, hrow, hdeleted⟩ := revoked_of_visited h hvisited hrevoked
    obtain rfl := Option.some.inj (hrow.symm.trans hget)
    rw [hlive] at hdeleted
    cases hdeleted

end Runs

section

attribute [local instance] spelledKey Mysql.strict atSign Typeorm.comparing

/-- The author signs in and refreshes once. -/
def signInAndRefresh : List (Ambient × Request) :=
  [(drawing "one" one_nonempty, .login ⟨author.email, "Secret-1"⟩),
    (drawing "two" two_nonempty, .refresh ⟨⟨"one", one_nonempty⟩, "one"⟩)]

def emptyDesk : Database := { desk with sessions := Table.empty }

/-- The token of the sign-in is spent: presenting it again revokes the session. -/
theorem spent_token_revokes :
    let final := (server.run emptyDesk signInAndRefresh).2
    let t : JwtRefreshPayload := ⟨⟨"one", one_nonempty⟩, "one"⟩
    ((AuthService.refreshTokens (drawing "three" three_nonempty) t).run final).2.revoked t.sessionId :=
  (rotation (server.reach_run emptyDesk signInAndRefresh) rfl (by decide +kernel)).2.1
    ⟨⟨"one", one_nonempty⟩, "one"⟩ (by decide +kernel) (by decide +kernel) _

end

end VetHealth
