import VetHealth.Auth.Calls

/-!
# VetHealth.Auth.Confirmations

**What a password reset leaves of the confirmation tokens.** `confirm` finds the token in its
first call and deletes the one row in its last, so two things survive a reset: the user's other
tokens, and every request that has found a token before it was deleted. `reset_consumes_tokens`
says that there is nothing else: if confirmations of a user take turns, and the user has no
other token when one completes, then no token issued before is accepted again, and each sets a
password at most once, in every interleaving.

Tokens are told apart by their hash, and `Ledger` says where every hash comes from; a token is
`Dead` when neither a row nor a request carries it any more.
-/

namespace VetHealth

open Js Store Resumption Transition

variable {ι : Type}

/-- No two requests draw the same hash, and the tokens stored at the start are distinct and not
drawn again. -/
structure FreshTokens (db₀ : Database) (calls : ι → Ambient × Request) : Prop where
  injective : ∀ i j, (calls i).1.hash = (calls j).1.hash → i = j
  unused : ∀ i, ∀ confirm ∈ db₀.confirms, confirm.hash ≠ (calls i).1.hash
  distinct : ∀ confirm ∈ db₀.confirms, ∀ other ∈ db₀.confirms, confirm.hash = other.hash →
    confirm = other

/-- A confirmation starts when no other one of its user is under way, and completes when the
user has no other token. -/
def takesTurn (e : TaskEntry ι) : Prop :=
  match e.before.place e.request with
  | .ready (.confirm dto) => ∀ confirm user,
      e.before.shared.confirm dto.hash = some (confirm, some user) →
        (e.before.at_ e.request).1.now ≤ confirm.expiresIn →
          ∀ i held, (e.before.place i).holds = some held → held.2.id ≠ user.id
  | .confirmWritten _ confirm user =>
      ∀ other ∈ e.before.shared.confirms, other.userId = user.id → other.id = confirm.id
  | _ => True

section

variable {db₀ : Database} {calls : ι → Ambient × Request} {N N' : Tasks ι} {m : ι} {token : String}

/-- The row was stored at the start, or a request has issued it. A deleted row keeps its origin. -/
def Origin (db₀ : Database) (N : Tasks ι) (confirm : ConfirmEntity) : Prop :=
  confirm ∈ db₀.confirms ∨ ∃ i, (N.place i).hasIssued = some confirm

/-- **The invariant.** Every token, stored or held, has an origin; a request holds the token that
it presents, with its user, and no two requests hold tokens of one user. -/
structure Ledger (db₀ : Database) (calls : ι → Ambient × Request) (N : Tasks ι) : Prop where
  stored : ∀ confirm ∈ N.shared.confirms, Origin db₀ N confirm
  held : ∀ i held, (N.place i).holds = some held →
    Origin db₀ N held.1 ∧ held.1.userId = held.2.id
  presented : ∀ i held, (N.place i).holds = some held →
    ∃ dto, (N.place i).request = .confirm dto ∧ dto.hash = held.1.hash
  drawn : ∀ i confirm, (N.place i).hasIssued = some confirm → confirm.hash = (calls i).1.hash
  alone : ∀ i j held held', (N.place i).holds = some held → (N.place j).holds = some held' →
    held.2.id = held'.2.id → i = j

/-- The token was issued, and nothing carries it any more: no row, and no request that has accepted
it and is still at work. -/
structure Dead (db₀ : Database) (N : Tasks ι) (token : String) : Prop where
  issued : ∃ confirm, Origin db₀ N confirm ∧ confirm.hash = token
  row : ∀ confirm ∈ N.shared.confirms, confirm.hash ≠ token
  held : ∀ i held, (N.place i).holds = some held → held.1.hash ≠ token

namespace Ledger

/-- A hash has one origin. This is where the drawn hashes being distinct comes in. -/
theorem unique (h : Ledger db₀ calls N) (hfresh : FreshTokens db₀ calls)
    {confirm other : ConfirmEntity} (hconfirm : Origin db₀ N confirm) (hother : Origin db₀ N other)
    (heq : confirm.hash = other.hash) : confirm = other := by
  rcases hconfirm with hconfirm | ⟨i, hi⟩
  · rcases hother with hother | ⟨j, hj⟩
    · exact hfresh.distinct confirm hconfirm other hother heq
    · exact absurd (heq.trans (h.drawn j other hj)) (hfresh.unused j confirm hconfirm)
  · have hdrawn := h.drawn i confirm hi
    rcases hother with hother | ⟨j, hj⟩
    · exact absurd (heq.symm.trans hdrawn) (hfresh.unused i other hother)
    · obtain rfl := hfresh.injective i j (hdrawn.symm.trans (heq.trans (h.drawn j other hj)))
      exact Option.some.inj (hi.symm.trans hj)

/-- A request that has issued nothing draws a hash without origin, so that what it issues is new. -/
theorem ne_of_origin (h : Ledger db₀ calls N) (hfresh : FreshTokens db₀ calls)
    {confirm : ConfirmEntity} (hconfirm : Origin db₀ N confirm)
    (hnone : (N.place m).hasIssued = none) : confirm.hash ≠ (calls m).1.hash := by
  intro heq
  rcases hconfirm with hconfirm | ⟨i, hi⟩
  · exact hfresh.unused m confirm hconfirm heq
  · obtain rfl := hfresh.injective i m ((h.drawn i confirm hi).symm.trans heq)
    rw [hnone] at hi
    cases hi

end Ledger

/-! ### One call -/

/-- What the ledger notices of a call by `m`: at most one row is new, and the hash of it was
drawn by `m`; a token that `m` starts to hold is a stored one of its user, of whom nobody
held a token. -/
structure LedgerCall (calls : ι → Ambient × Request) (N N' : Tasks ι) (m : ι) : Prop where
  others : ∀ j, j ≠ m → N'.place j = N.place j
  request : (N'.place m).request = (N.place m).request
  keeps : ∀ confirm, (N.place m).hasIssued = some confirm → (N'.place m).hasIssued = some confirm
  rows : ∀ confirm ∈ N'.shared.confirms, confirm ∈ N.shared.confirms ∨
    ((N'.place m).hasIssued = some confirm ∧ (N.place m).hasIssued = none)
  drawn : ∀ confirm, (N'.place m).hasIssued = some confirm →
    (N.place m).hasIssued = some confirm ∨ confirm.hash = (calls m).1.hash
  held : ∀ held, (N'.place m).holds = some held → (N.place m).holds = some held ∨
    (held.1 ∈ N.shared.confirms ∧ held.1.userId = held.2.id ∧
      (∃ dto, (N.place m).request = .confirm dto ∧ dto.hash = held.1.hash) ∧
      ∀ i other, (N.place i).holds = some other → other.2.id ≠ held.2.id)

namespace LedgerCall

theorem origin (h : LedgerCall calls N N' m) {confirm : ConfirmEntity}
    (hconfirm : Origin db₀ N confirm) : Origin db₀ N' confirm := by
  rcases hconfirm with hstart | ⟨i, hi⟩
  · exact Or.inl hstart
  · refine Or.inr ⟨i, ?_⟩
    by_cases him : i = m
    · subst him
      exact h.keeps confirm hi
    · rw [h.others i him]
      exact hi

theorem ledger (hcall : LedgerCall calls N N' m) (h : Ledger db₀ calls N) :
    Ledger db₀ calls N' := by
  -- a token of which `m` takes hold belongs to a user of whom nobody holds one
  have halone : ∀ {j held held'}, j ≠ m → (N'.place m).holds = some held →
      (N.place j).holds = some held' → held'.2.id = held.2.id → j = m := by
    intro j held held' hj hm hother heq
    rcases hcall.held held hm with hbefore | ⟨-, -, -, hnobody⟩
    · exact h.alone j m held' held hother hbefore heq
    · exact absurd heq (hnobody j held' hother)
  constructor
  · intro confirm hconfirm
    rcases hcall.rows confirm hconfirm with hbefore | ⟨hnew, -⟩
    · exact hcall.origin (h.stored confirm hbefore)
    · exact Or.inr ⟨m, hnew⟩
  · intro i held hi
    by_cases him : i = m
    · subst him
      rcases hcall.held held hi with hbefore | ⟨hstored, huser, -, -⟩
      · obtain ⟨horigin, huser⟩ := h.held i held hbefore
        exact ⟨hcall.origin horigin, huser⟩
      · exact ⟨hcall.origin (h.stored _ hstored), huser⟩
    · rw [hcall.others i him] at hi
      obtain ⟨horigin, huser⟩ := h.held i held hi
      exact ⟨hcall.origin horigin, huser⟩
  · intro i held hi
    by_cases him : i = m
    · subst him
      rw [hcall.request]
      rcases hcall.held held hi with hbefore | ⟨-, -, hpresented, -⟩
      · exact h.presented i held hbefore
      · exact hpresented
    · rw [hcall.others i him] at hi ⊢
      exact h.presented i held hi
  · intro i confirm hi
    by_cases him : i = m
    · subst him
      rcases hcall.drawn confirm hi with hbefore | hdrawn
      · exact h.drawn i confirm hbefore
      · exact hdrawn
    · rw [hcall.others i him] at hi
      exact h.drawn i confirm hi
  · intro i j held held' hi hj heq
    by_cases him : i = m
    · by_cases hjm : j = m
      · exact him.trans hjm.symm
      · rw [hcall.others j hjm] at hj
        exact (halone hjm (him ▸ hi) hj heq.symm ▸ him)
    · rw [hcall.others i him] at hi
      by_cases hjm : j = m
      · exact (halone him (hjm ▸ hj) hi heq).trans hjm.symm
      · rw [hcall.others j hjm] at hj
        exact h.alone i j held held' hi hj heq

/-- A dead token stays dead: a new row has a hash of its own, and only stored rows are accepted. -/
theorem dead (hcall : LedgerCall calls N N' m) (h : Ledger db₀ calls N)
    (hfresh : FreshTokens db₀ calls) (hdead : Dead db₀ N token) : Dead db₀ N' token := by
  obtain ⟨confirm, horigin, htoken⟩ := hdead.issued
  refine ⟨⟨confirm, hcall.origin horigin, htoken⟩, ?_, ?_⟩
  · intro other hother heq
    rcases hcall.rows other hother with hbefore | ⟨hnew, hnone⟩
    · exact hdead.row other hbefore heq
    · rcases hcall.drawn other hnew with hissued | hdrawn
      · rw [hnone] at hissued
        cases hissued
      · exact h.ne_of_origin hfresh horigin hnone (htoken.trans (heq.symm.trans hdrawn))
  · intro i held hi heq
    by_cases him : i = m
    · subst him
      rcases hcall.held held hi with hbefore | ⟨hstored, -, -, -⟩
      · exact hdead.held i held hbefore heq
      · exact hdead.row held.1 hstored heq
    · rw [hcall.others i him] at hi
      exact hdead.held i held hi heq

end LedgerCall

/-- The deletion of a row kills its token, and every other one of its user that no row carries any
more. -/
theorem dead_of_deleted (h : Ledger db₀ calls N) (hfresh : FreshTokens db₀ calls)
    (hcall : LedgerCall calls N N' m) {held : ConfirmEntity × UserEntity}
    (hm : (N.place m).holds = some held) (hnone : (N'.place m).holds = none)
    (hdeleted : N'.shared = N.shared.deleteConfirm held.1.id) {confirm : ConfirmEntity}
    (hconfirm : Origin db₀ N confirm) (huser : confirm.userId = held.2.id)
    (halone : confirm ∈ N.shared.confirms → confirm.id = held.1.id) :
    Dead db₀ N' confirm.hash := by
  refine ⟨⟨confirm, hcall.origin hconfirm, rfl⟩, ?_, ?_⟩
  · intro other hother heq
    rw [hdeleted] at hother
    obtain ⟨hstored, hkept⟩ := Table.mem_erase.1 hother
    -- the row with the hash is the one token there is, and that has been deleted
    obtain rfl := h.unique hfresh (h.stored other hstored) hconfirm heq
    exact of_decide_eq_false hkept (halone hstored)
  · intro i other hi heq
    by_cases him : i = m
    · rw [him, hnone] at hi
      cases hi
    · rw [hcall.others i him] at hi
      obtain ⟨horigin, hother⟩ := h.held i other hi
      have hsame := h.unique hfresh horigin hconfirm heq
      exact him (h.alone i m other held hi hm (by rw [← hother, hsame, huser]))

variable [DecidableEq ι] [Scrypt] [Mysql] [EmailSyntax] [Typeorm]

/-- **The step lemma.** A call of a confirmation that takes its turn is a `LedgerCall`. -/
theorem ledgerCall_next (hambient : (N.at_ m).1 = (calls m).1)
    (hturn : takesTurn (interleaving.entry N m)) :
    LedgerCall calls N (interleaving.next N m) m := by
  have hothers : ∀ j, j ≠ m → (interleaving.next N m).place j = N.place j :=
    fun j hj => place_next_ne N hj
  have hself := place_next_self N m
  have hshared : (interleaving.next N m).shared = ((N.place m).step (N.at_ m).1 N.shared).2 := rfl
  have hcall := confirmsCall_step (N.at_ m).1 N.shared (N.place m)
  have hrequest : ((interleaving.next N m).place m).request = (N.place m).request := by
    rw [hself, Place.request_step]
  rw [← hself, ← hshared, hambient] at hcall
  rw [takesTurn, Machine.entry_before, Machine.entry_request, hambient] at hturn
  generalize interleaving.next N m = N' at hothers hcall hrequest
  generalize hplace : N.place m = place at hcall hturn
  generalize hplace' : N'.place m = place' at hcall
  cases hcall with
  | @issued _ request user r hholds hissued hins =>
      obtain ⟨-, -, -, hget⟩ := Database.insertConfirm_eq_ok hins
      rw [← hplace] at hissued
      refine ⟨hothers, hrequest, ?_, ?_, ?_, ?_⟩
      · intro confirm hm
        rw [hissued] at hm
        cases hm
      · -- the only new row is the issued one, and its hash is the drawn one
        intro confirm hconfirm
        have hrow := hget confirm.id
        rw [Table.get_eq_some.2 ⟨hconfirm, rfl⟩] at hrow
        split at hrow
        · exact Or.inr ⟨by rw [hplace']; exact hrow.symm, hissued⟩
        · exact Or.inl (Table.get_eq_some.1 hrow.symm).1
      · intro confirm hm
        rw [hplace'] at hm
        rw [← Option.some.inj hm]
        exact Or.inr rfl
      · intro held hm
        rw [hplace'] at hm
        cases hm
  | @accepted dto confirm user hconfirm hvalid hsame =>
      obtain ⟨hstored, hhash, hload⟩ := Database.confirm_eq_some hconfirm
      refine ⟨hothers, hrequest, ?_, ?_, ?_, ?_⟩
      · intro other hm
        rw [hplace] at hm
        cases hm
      · exact fun other hother => Or.inl (hsame ▸ hother)
      · intro other hm
        rw [hplace'] at hm
        cases hm
      · intro held hm
        rw [hplace'] at hm
        obtain rfl := Option.some.inj hm
        refine Or.inr ⟨hstored, (Database.get_of_loadUser hload).2.symm, ⟨dto, ?_, hhash.symm⟩, ?_⟩
        · rw [hplace]
          rfl
        · exact hturn confirm user hconfirm hvalid
  | @deleted _ _ confirm hissued hholds' hissued' hdeleted =>
      refine ⟨hothers, hrequest, ?_, ?_, ?_, ?_⟩
      · intro other hm
        rw [hplace, hissued] at hm
        cases hm
      · intro other hother
        rw [hdeleted] at hother
        exact Or.inl (Table.mem_erase.1 hother).1
      · intro other hm
        rw [hplace', hissued'] at hm
        cases hm
      · intro held hm
        rw [hplace', hholds'] at hm
        cases hm
  | kept hconfirms hholds' hissued' =>
      refine ⟨hothers, hrequest, ?_, ?_, ?_, ?_⟩
      · intro other hm
        rw [hplace', hissued', ← hplace]
        exact hm
      · exact fun other hother => Or.inl (hconfirms ▸ hother)
      · intro other hm
        rw [hplace', hissued', ← hplace] at hm
        exact Or.inl hm
      · intro held hm
        rw [hplace'] at hm
        rcases hholds' with heq | hnone
        · rw [heq, ← hplace] at hm
          exact Or.inl hm
        · rw [hnone] at hm
          cases hm

/-! ### Runs -/

variable {past : List (TaskEntry ι)}

omit [DecidableEq ι] [Scrypt] [Mysql] [EmailSyntax] [Typeorm] in
theorem ledger_launch (db₀ : Database) (calls : ι → Ambient × Request) :
    Ledger db₀ calls (launch db₀ calls) := by
  constructor
  · exact fun confirm hconfirm => Or.inl hconfirm
  · intro i held hi
    cases hi
  · intro i held hi
    cases hi
  · intro i confirm hi
    cases hi
  · intro i j held held' hi
    cases hi

theorem ledger_of_reach (h : interleaving.Reach (launch db₀ calls) past N)
    (hturns : Machine.Along (fun _ e => takesTurn e) past) : Ledger db₀ calls N := by
  refine h.invariant (P := fun _ N => Ledger db₀ calls N) (ledger_launch db₀ calls) ?_ hturns
  intro past N m hreach hledger hturn
  exact (ledgerCall_next (ambient_of_reach hreach m) hturn).ledger hledger

/-- The call finds the token that the request presents, and accepts it. -/
def acceptsToken (e : TaskEntry ι) (token : String) : Prop :=
  ∃ dto confirm user, e.before.place e.request = .ready (.confirm dto) ∧ dto.hash = token ∧
    (interleaving.after e).place e.request = .confirmAccepted dto confirm user

/-- The call writes the password that the request gives with the token. -/
def setsPassword (e : TaskEntry ι) (token : String) : Prop :=
  ∃ dto confirm user, e.before.place e.request = .confirmRevoked dto confirm user ∧
    dto.hash = token ∧ (interleaving.after e).place e.request = .confirmWritten dto confirm user

omit [DecidableEq ι] [Scrypt] [Mysql] [EmailSyntax] [Typeorm] in
/-- The call is the last one of a reset of the user's password: it deletes the token, and the
request is answered. -/
def completesReset (e : TaskEntry ι) (u : Uuid) : Prop :=
  ∃ dto confirm user, e.before.place e.request = .confirmWritten dto confirm user ∧ user.id = u

omit [DecidableEq ι] [Scrypt] [Mysql] [EmailSyntax] [Typeorm] in
/-- The token was stored for the user before one of these calls. -/
def issuedFor (past : List (TaskEntry ι)) (u : Uuid) (token : String) : Prop :=
  ∃ e ∈ past, ∃ confirm ∈ e.before.shared.confirms, confirm.userId = u ∧ confirm.hash = token

/-- **A password reset consumes the user's tokens**: after a reset of a user completes, no token
that was issued for the user before is accepted or sets a password, and no token sets a password
twice. -/
def ConsumesTokens (past : List (TaskEntry ι)) : Prop :=
  (∀ later e earlier u token, past = later ++ e :: earlier → completesReset e u →
    issuedFor (e :: earlier) u token →
      ∀ f ∈ later, ¬ acceptsToken f token ∧ ¬ setsPassword f token) ∧
  ∀ later e earlier token, past = later ++ e :: earlier → setsPassword e token →
    ∀ f ∈ later, ¬ setsPassword f token

theorem origin_of_reach (h : interleaving.Reach (launch db₀ calls) past N)
    (hturns : Machine.Along (fun _ e => takesTurn e) past) :
    ∀ e ∈ past, ∀ confirm ∈ e.before.shared.confirms, Origin db₀ N confirm := by
  induction h with
  | init => exact fun e he => by cases he
  | @step past N m h ih =>
      have hcall := ledgerCall_next (ambient_of_reach h m) hturns.1
      intro e he confirm hconfirm
      rcases List.mem_cons.1 he with rfl | he
      · exact hcall.origin ((ledger_of_reach h hturns.2).stored confirm hconfirm)
      · exact hcall.origin (ih hturns.2 e he confirm hconfirm)

theorem Dead.not_accepts {e : TaskEntry ι} (h : Dead db₀ e.before token) :
    ¬ acceptsToken e token := by
  intro ⟨dto, confirm, user, hplace, hhash, hafter⟩
  have hcall := confirmsCall_step (e.before.at_ e.request).1 e.before.shared
    (e.before.place e.request)
  rw [← place_next_self] at hcall
  rw [Machine.after] at hafter
  rw [hplace, hafter] at hcall
  cases hcall with
  | accepted hconfirm =>
      obtain ⟨hstored, hsame, -⟩ := Database.confirm_eq_some hconfirm
      exact h.row confirm hstored (hsame.trans hhash)
  | deleted _ hholds => cases hholds
  | kept _ hholds => rcases hholds with hholds | hholds <;> cases hholds

/-- A request that writes a password holds the token that it presents: the invariant says so of its
place. -/
theorem holds_of_setsPassword {e : TaskEntry ι} (h : Ledger db₀ calls e.before)
    (hsets : setsPassword e token) :
    ∃ dto confirm user, e.before.place e.request = .confirmRevoked dto confirm user ∧
      (e.before.place e.request).holds = some (confirm, user) ∧ confirm.hash = token := by
  obtain ⟨dto, confirm, user, hplace, rfl, -⟩ := hsets
  have hholds : (e.before.place e.request).holds = some (confirm, user) := by rw [hplace]; rfl
  obtain ⟨presented, hrequest, hhash⟩ := h.presented e.request _ hholds
  rw [hplace] at hrequest
  cases hrequest
  exact ⟨dto, confirm, user, hplace, hholds, hhash.symm⟩

/-- The last call of a confirmation deletes the token that it holds, and no other row. -/
theorem next_of_confirmWritten {dto : AuthConfirmDto} {confirm : ConfirmEntity} {user : UserEntity}
    (h : N.place m = .confirmWritten dto confirm user) :
    (N.place m).holds = some (confirm, user) ∧ ((interleaving.next N m).place m).holds = none ∧
      (interleaving.next N m).shared = N.shared.deleteConfirm confirm.id := by
  refine ⟨by rw [h]; rfl, by rw [place_next_self, h]; rfl, ?_⟩
  show ((N.place m).step (N.at_ m).1 N.shared).2 = _
  rw [h]
  rfl

/-- **After a reset**: a completed reset kills every token that was issued for the user. -/
theorem dead_after_reset (hfresh : FreshTokens db₀ calls)
    (h : interleaving.Reach (launch db₀ calls) past N)
    (hturns : Machine.Along (fun _ e => takesTurn e) past) {later earlier : List (TaskEntry ι)}
    {e : TaskEntry ι} {u : Uuid} (hpast : past = later ++ e :: earlier)
    (hcompletes : completesReset e u) (hissued : issuedFor (e :: earlier) u token) :
    ∀ f ∈ later, Ledger db₀ calls f.before ∧ Dead db₀ f.before token := by
  refine (h.since (P := fun N => Ledger db₀ calls N ∧ Dead db₀ N token)
    (Q := fun past e => completesReset e u ∧ issuedFor (e :: past) u token) ?_ ?_ hturns hpast
    ⟨hcompletes, hissued⟩).2
  · intro past N m hreach hbefore hturn ⟨hcompletes, hissued⟩
    have hledger := ledger_of_reach hreach hbefore
    have hcall := ledgerCall_next (ambient_of_reach hreach m) hturn
    refine ⟨hcall.ledger hledger, ?_⟩
    obtain ⟨dto, confirm, user, hplace, rfl⟩ := hcompletes
    obtain ⟨e, he, row, hrow, huser, rfl⟩ := hissued
    rw [Machine.entry_before, Machine.entry_request] at hplace
    -- the token was stored now or earlier: either way its row has an origin
    have horigin : Origin db₀ N row := by
      rcases List.mem_cons.1 he with rfl | he
      · exact hledger.stored row hrow
      · exact origin_of_reach hreach hbefore e he row hrow
    rw [takesTurn, Machine.entry_before, Machine.entry_request, hplace] at hturn
    obtain ⟨hholds, hnone, hdeleted⟩ := next_of_confirmWritten hplace
    exact dead_of_deleted hledger hfresh hcall hholds hnone hdeleted horigin huser
      fun hstored => hturn row hstored huser
  · intro past N m hreach _ hturn ⟨hledger, hdead⟩
    have hcall := ledgerCall_next (ambient_of_reach hreach m) hturn
    exact ⟨hcall.ledger hledger, hcall.dead hledger hfresh hdead⟩

/-- The token has set a password: the request that used it is about to delete it, or it is
dead. -/
def Used (db₀ : Database) (N : Tasks ι) (token : String) : Prop :=
  (∃ i dto confirm user, N.place i = .confirmWritten dto confirm user ∧ confirm.hash = token) ∨
    Dead db₀ N token

theorem used_next (hfresh : FreshTokens db₀ calls) (h : Ledger db₀ calls N)
    (hcall : LedgerCall calls N (interleaving.next N m) m) (hused : Used db₀ N token) :
    Used db₀ (interleaving.next N m) token := by
  rcases hused with ⟨i, dto, confirm, user, hi, rfl⟩ | hdead
  · by_cases him : i = m
    · subst him
      obtain ⟨hholds, hnone, hdeleted⟩ := next_of_confirmWritten hi
      obtain ⟨horigin, huser⟩ := h.held i _ hholds
      exact Or.inr (dead_of_deleted h hfresh hcall hholds hnone hdeleted horigin huser
        fun _ => rfl)
    · exact Or.inl ⟨i, dto, confirm, user, by rw [hcall.others i him, hi], rfl⟩
  · exact Or.inr (hcall.dead h hfresh hdead)

/-- A used token sets no password: the request that used it is past that, and nobody else holds it.
-/
theorem Used.not_setsPassword (hfresh : FreshTokens db₀ calls) {e : TaskEntry ι}
    (h : Ledger db₀ calls e.before) (hused : Used db₀ e.before token) :
    ¬ setsPassword e token := by
  intro hsets
  obtain ⟨dto, confirm, user, hplace, hholds, hhash⟩ := holds_of_setsPassword h hsets
  rcases hused with ⟨i, dto', confirm', user', hi, hsame⟩ | hdead
  · have hholds' : (e.before.place i).holds = some (confirm', user') := by rw [hi]; rfl
    obtain ⟨horigin, huser⟩ := h.held _ _ hholds
    obtain ⟨horigin', huser'⟩ := h.held _ _ hholds'
    -- one hash, so one row and one user, of whom only one request holds a token
    have hrow := h.unique hfresh horigin horigin' (hhash.trans hsame.symm)
    have hsameUser : user.id = user'.id := by
      rw [← huser, ← huser']
      exact congrArg ConfirmEntity.userId hrow
    obtain rfl := h.alone _ _ _ _ hholds hholds' hsameUser
    rw [hplace] at hi
    cases hi
  · exact hdead.held _ _ hholds hhash

/-- **After a password is set**: the token is used, in every later state of the run. -/
theorem used_after_set (hfresh : FreshTokens db₀ calls)
    (h : interleaving.Reach (launch db₀ calls) past N)
    (hturns : Machine.Along (fun _ e => takesTurn e) past) {later earlier : List (TaskEntry ι)}
    {e : TaskEntry ι} (hpast : past = later ++ e :: earlier) (hsets : setsPassword e token) :
    ∀ f ∈ later, Ledger db₀ calls f.before ∧ Used db₀ f.before token := by
  refine (h.since (P := fun N => Ledger db₀ calls N ∧ Used db₀ N token)
    (Q := fun _ e => setsPassword e token) ?_ ?_ hturns hpast hsets).2
  -- The call that sets the password: its request holds the token, and goes on to the place before
  -- the deletion.
  · intro past N m hreach hbefore hturn hsets
    have hledger := ledger_of_reach hreach hbefore
    have hcall := ledgerCall_next (ambient_of_reach hreach m) hturn
    refine ⟨hcall.ledger hledger, Or.inl ?_⟩
    obtain ⟨dto, confirm, user, hplace, hafter⟩ := hsets
    obtain ⟨dto', confirm', user', hplace', -, hhash⟩ :=
      @holds_of_setsPassword _ _ _ _ _ _ _ _ _ (interleaving.entry N m) hledger
        ⟨dto, confirm, user, hplace, hafter⟩
    rw [hplace] at hplace'
    cases hplace'
    exact ⟨m, dto, confirm, user, hafter.2, hhash⟩
  · intro past N m hreach _ hturn ⟨hledger, hused⟩
    have hcall := ledgerCall_next (ambient_of_reach hreach m) hturn
    exact ⟨hcall.ledger hledger, used_next hfresh hledger hcall hused⟩

/-- **A password reset consumes the user's tokens**, in every interleaving in which
confirmations take their turns. -/
theorem reset_consumes_tokens (hfresh : FreshTokens db₀ calls)
    (h : interleaving.Reach (launch db₀ calls) past N) (hturns : ∀ e ∈ past, takesTurn e) :
    ConsumesTokens past := by
  have halong := Machine.along_of_forall hturns
  constructor
  · intro later e earlier u token hpast hcompletes hissued f hf
    obtain ⟨hledger, hdead⟩ := dead_after_reset hfresh h halong hpast hcompletes hissued f hf
    refine ⟨hdead.not_accepts, fun hsets => ?_⟩
    obtain ⟨_, _, _, -, hholds, hhash⟩ := holds_of_setsPassword hledger hsets
    exact hdead.held _ _ hholds hhash
  · intro later e earlier token hpast hsets f hf
    obtain ⟨hledger, hused⟩ := used_after_set hfresh h halong hpast hsets f hf
    exact hused.not_setsPassword hfresh hledger

end

section

attribute [local instance] spelledKey Mysql.strict atSign Typeorm.comparing

/-- The author asks for a second token, and three requests reset the password: two with the
token `c1` and one with the second token. -/
def resettingTwice : Fin 4 → Ambient × Request
  | 0 => (drawing "one" one_nonempty, .forgotPassword author.email)
  | 1 => (drawing "two" two_nonempty, .confirm ⟨"c1", "Secret-2"⟩)
  | 2 => (drawing "three" three_nonempty, .confirm ⟨"one", "Secret-3"⟩)
  | 3 => (drawing "four" (by decide), .confirm ⟨"c1", "Secret-4"⟩)

theorem resettingTwice_fresh : FreshTokens desk resettingTwice := by
  constructor
  · decide
  · intro i confirm hconfirm
    have hall : ∀ confirm ∈ desk.confirms.rows, ∀ i, confirm.hash ≠ (resettingTwice i).1.hash := by
      decide
    exact hall confirm hconfirm i
  · have hall : ∀ confirm ∈ desk.confirms.rows, ∀ other ∈ desk.confirms.rows,
        confirm.hash = other.hash → confirm = other := by
      decide
    exact hall

/-- Two runs. The second token is accepted after the reset with the first one; and two requests
with one token both set a password when they find it before either deletes it. -/
theorem author_resets_twice :
    FreshTokens desk resettingTwice ∧
      (∃ past N, interleaving.Reach (launch desk resettingTwice) past N ∧
        ∃ later e earlier, past = later ++ e :: earlier ∧ completesReset e author.id ∧
          issuedFor (e :: earlier) author.id "one" ∧ ∃ f ∈ later, acceptsToken f "one") ∧
      ∃ past N, interleaving.Reach (launch desk resettingTwice) past N ∧
        ∃ later e earlier, past = later ++ e :: earlier ∧ setsPassword e "c1" ∧
          ∃ f ∈ later, setsPassword f "c1" := by
  have hreach := fun schedule => interleaving.reach_run (launch desk resettingTwice) schedule
  refine ⟨resettingTwice_fresh, ?_, ?_⟩
  -- The second token is stored when the first one is used up, and accepted afterwards.
  · let N := (interleaving.run (launch desk resettingTwice) [0, 0, 1, 1, 1]).2
    refine ⟨_, _, .step 2 (.step 1 (hreach [0, 0, 1, 1, 1])),
      [interleaving.entry (interleaving.next N 1) 2], interleaving.entry N 1, _, rfl,
      ⟨_, _, _, rfl, rfl⟩, ?_, _, List.mem_singleton_self _, _, _, _, rfl, rfl, rfl⟩
    refine ⟨interleaving.entry N 1, List.mem_cons_self,
      ⟨⟨"one", one_nonempty⟩, author.id, "one", 86400000⟩, ?_, rfl, rfl⟩
    exact Table.mem_def.2 (by decide +kernel)
  -- Both requests accept the token before either deletes it.
  · let N := (interleaving.run (launch desk resettingTwice) [1, 3, 1, 3]).2
    exact ⟨_, _, .step 3 (.step 1 (hreach [1, 3, 1, 3])),
      [interleaving.entry (interleaving.next N 1) 3], interleaving.entry N 1, _, rfl,
      ⟨_, _, _, rfl, rfl, rfl⟩, _, List.mem_singleton_self _, _, _, _, rfl, rfl, rfl⟩

/-- One after the other, the second request with the token is refused. -/
theorem author_resets_once :
    ConsumesTokens (interleaving.run (launch desk resettingTwice) [1, 1, 1, 1, 3]).1 := by
  refine reset_consumes_tokens resettingTwice_fresh (Machine.reach_run _ _ _) ?_
  have halone : ∀ other ∈ desk.confirms.rows, other.userId = author.id →
      other.id = ⟨"reset", reset_nonempty⟩ := by
    decide +kernel
  refine List.forall_mem_cons.2 ⟨?_, List.forall_mem_cons.2 ⟨?_, List.forall_mem_cons.2 ⟨trivial,
    List.forall_mem_cons.2 ⟨trivial, List.forall_mem_cons.2 ⟨?_, fun e he => by cases he⟩⟩⟩⟩⟩
  · intro confirm user hnone
    have hcontra : none = some (confirm, some user) := hnone
    cases hcontra
  · exact halone
  · intro confirm user _ _ i held hi
    have hcontra : none = some held := hi
    cases hcontra

end

end VetHealth
