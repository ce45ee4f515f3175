import Mathlib.Logic.Basic

/-!
# VetHealth.Common.Domain

The vocabulary that the modules of the backend share: row ids, the seeded role
and status rows, the payload of an access token, and the ways a request fails.

The `roles` and `*-statuses` tables are seeded once and no endpoint writes them,
so a row of one of them is a constructor here. `RoleEnum` has text ids and the
status enumerations have number ids; comparing one with a value of the other
kind is what several guards of this backend get wrong.
-/

namespace VetHealth

/-- The id of a row with a generated `uuid` key: a non-empty text. That it is not empty is a field,
because ids are tested for truth. -/
@[ext] structure Uuid where
  text : String
  nonempty : text ≠ ""
  deriving DecidableEq

/-- The condition of `id ? … : …` on an id that may be `undefined`. A row's own id is never empty,
so only a missing id is falsy. -/
def truthyId : Option Uuid → Bool
  | none => false
  | some id => id.text ≠ ""

@[simp] theorem truthyId_none : truthyId none = false := rfl

@[simp] theorem truthyId_some (id : Uuid) : truthyId (some id) = true := by
  simp [truthyId, id.nonempty]

/-! ### Seeded rows -/

inductive RoleEnum
  | superAdmin
  | admin
  | moder
  | writer
  deriving DecidableEq, Repr

namespace RoleEnum

/-- The `roles.id` column, a text. -/
def id : RoleEnum → String
  | superAdmin => "1"
  | admin => "2"
  | moder => "3"
  | writer => "4"

/-- The seeded rows, in insertion order. A lookup by id in this list is what the database answers
after the seeds have run. -/
def rows : List RoleEnum := [superAdmin, admin, moder, writer]

theorem mem_rows (r : RoleEnum) : r ∈ rows := by cases r <;> decide

theorem id_injective : Function.Injective id := by
  intro r s h
  revert h
  cases r <;> cases s <;> decide

end RoleEnum

inductive UserStatusEnum
  | active
  | pending
  | blocked
  deriving DecidableEq, Repr

namespace UserStatusEnum

/-- The `user-statuses.id` column, a number. -/
def id : UserStatusEnum → Int
  | active => 1
  | pending => 2
  | blocked => 3

def rows : List UserStatusEnum := [active, pending, blocked]

end UserStatusEnum

inductive PostStatusEnum
  | published
  | draft
  | onReview
  deriving DecidableEq, Repr

namespace PostStatusEnum

/-- The `post-statuses.id` column, a number. -/
def id : PostStatusEnum → Int
  | published => 1
  | draft => 2
  | onReview => 3

/-- The `post-statuses.name` column. -/
def name : PostStatusEnum → String
  | published => "Published"
  | draft => "Draft"
  | onReview => "OnReview"

def rows : List PostStatusEnum := [published, draft, onReview]

theorem name_eq_published {s : PostStatusEnum} : s.name = "Published" ↔ s = published := by
  cases s <;> decide

end PostStatusEnum

/-! ### The caller of a request -/

/-- The payload of an access token, which `request.user` holds after `AuthDataGuard`. The role is
the one the user had when the token was signed, and the checks of a request go by it. -/
structure JwtPayload where
  id : Uuid
  role : Option RoleEnum
  sessionId : Uuid
  deriving DecidableEq

/-- `role?.id === RoleEnum.SuperAdmin || role?.id === RoleEnum.Admin`. -/
def isAdminRole (role : Option RoleEnum) : Bool :=
  role = some .superAdmin || role = some .admin

theorem isAdminRole_eq_true {role : Option RoleEnum} :
    isAdminRole role = true ↔ role = some .superAdmin ∨ role = some .admin := by
  simp [isAdminRole]

/-- `RolesGuard` under `@Roles(SuperAdmin, Admin)`. It looks at the token and not at the database.
-/
def rolesGuardAdmin (caller : JwtPayload) : Bool :=
  [RoleEnum.superAdmin, RoleEnum.admin].any fun role => caller.role = some role

theorem rolesGuardAdmin_eq (caller : JwtPayload) :
    rolesGuardAdmin caller = isAdminRole caller.role := by
  simp [rolesGuardAdmin, isAdminRole]

/-! ### Failures -/

/-- One failed check of a request body: the property and its message. -/
structure ValidationError where
  property : String
  message : String
  deriving DecidableEq, Repr

/-- An exception that is not an `HttpException`: it is answered with status 500. -/
inductive InternalError
  | error (message : String)
  | typeError
  | rangeError
  | queryFailed
  | signingFailed
  | mailFailed
  deriving DecidableEq, Repr

/-- How a request is refused: the status and what the body of the answer says. An exception that is
none of Nest's is answered with 500 and kept apart. -/
inductive Failure
  | badRequest (errors : List ValidationError)
  | rejected (message : String)
  | unauthorized
  | forbidden (message : String)
  | notFound
  | unprocessable (message : String)
  | serviceUnavailable (message : String)
  | internal (error : InternalError)
  deriving DecidableEq, Repr

/-- `new ForbiddenException()`. -/
def Failure.forbidden' : Failure := .forbidden "Forbidden"

/-- What Nest answers when a guard returns `false`. -/
def Failure.forbiddenResource : Failure := .forbidden "Forbidden resource"

/-- A check before the rest of a request lets it succeed when it does not fire. -/
theorem ite_error_eq_ok {α : Type} {c : Prop} [Decidable c] {e : Failure} {r : Except Failure α}
    {a : α} : (if c then .error e else r) = .ok a ↔ ¬c ∧ r = .ok a := by
  by_cases hc : c
  · simp [hc]
  · simp [hc]

/-- A request of two parts succeeds when both do. -/
theorem bind_eq_ok {α β : Type} {r : Except Failure α} {f : α → Except Failure β} {b : β} :
    (r >>= f) = .ok b ↔ ∃ a, r = .ok a ∧ f a = .ok b := by
  cases r with
  | error e => exact ⟨fun h => (by cases h), fun ⟨_, h, _⟩ => (by cases h)⟩
  | ok a => exact ⟨fun h => ⟨a, rfl, h⟩, fun ⟨_, h, hf⟩ => Except.ok.inj h ▸ hf⟩

/-- `bind_eq_ok` for a first part that only checks. -/
theorem seq_eq_ok {α : Type} {r : Except Failure Unit} {f : Unit → Except Failure α} {a : α} :
    (r >>= f) = .ok a ↔ r = .ok () ∧ f () = .ok a :=
  bind_eq_ok.trans ⟨fun ⟨_, h⟩ => h, fun h => ⟨(), h⟩⟩

/-! ### `ERROR_MESSAGE` -/

namespace ErrorMessage

def EMAIL_ALREADY_EXIST := "emailAlreadyExist"
def EMAIL_SEND_FAILED := "emailSendFailed"
def IMAGE_IS_NOT_VALID := "imageIsNotValid"
def TOPIC_IS_NOT_VALID := "topicIsNotValid"
def POST_IS_NOT_VALID := "postIsNotValid"
def PAGE_IS_NOT_VALID := "pageIsNotValid"
def CATEGORY_IS_NOT_VALID := "categoryIsNotValid"
def PARENT_IS_NOT_VALID := "parentIsNotValid"
def CHILD_IS_NOT_VALID := "childIsNotValid"
def STATUS_IS_NOT_VALID := "statusIsNotValid"
def FEATURED_IMAGE_NOT_VALID := "featuredImageIsNotValid"
def ROLE_IS_NOT_VALID := "roleIsNotValid"
def SUPERADMIN_IS_NOT_ALLOWED := "superAdminIsNotAllowed"
def TITLE_MUST_BE_UNIQUE := "titleMustBeUnique"
def SLUG_MUST_BE_UNIQUE := "slugMustBeUnique"
def CONFIRMATION_TOKEN_HAS_EXPIRED := "confirmationTokenHasExpired"
def USER_IS_NOT_EXIST := "userIsNotExist"
def OLD_PASSWORD_IS_NOT_MATCH := "oldPasswordIsNotMatch"
def INCORRECT_EMAIL_OR_PASSWORD := "incorrectEmailOrPassword"

end ErrorMessage

end VetHealth
