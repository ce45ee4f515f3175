import VetHealth.Posts.Reading

/-!
# VetHealth.Categories.Reading

Reading categories: one by its id or slug, or a page of a list, of all topics or of one. As for
topics, the relations that a request includes are loaded whole.
-/

namespace VetHealth

/-! ### The query -/

/-- The columns that `orderBy` may name: all but the parent. -/
inductive CategoryColumn
  | id
  | name
  | slug
  | createdAt
  | updatedAt
  | deletedAt
  | metadata
  deriving DecidableEq, Repr

/-- The relations that `include` may name. -/
inductive CategoryRelation
  | children
  | posts
  | topics
  | parent
  deriving DecidableEq, Repr

/-- An accepted query. -/
structure CategoryQueryDto extends PaginationQueryDto where
  name : Option String := none
  slug : Option String := none
  «include» : List CategoryRelation := []
  topic : Option String := none
  orderBy : CategoryColumn := .createdAt
  sort : OrderValue := .ASC
  showAll : Bool := false

structure CategoryOrder where
  column : CategoryColumn
  sort : OrderValue
  deriving DecidableEq, Repr

/-- The ORM orders by columns, not by relations: an order by the metadata makes the query fail. -/
def CategoryOrder.isOrderable (order : CategoryOrder) : Bool := order.column ≠ .metadata

/-- A category with the relations of the request; a relation that was not asked for is `none`. -/
structure LoadedCategory where
  category : CategoryRow
  parent : Option (Option CategoryRow)
  children : Option (List CategoryRow)
  posts : Option (List LoadedPost)
  topics : Option (List TopicRow)
  deriving DecidableEq

section

variable [Collation]

namespace Content

variable (content : Content)

def topicsOfCategory (category : CategoryRow) : List TopicRow :=
  content.liveTopics.filter fun topic => category.id ∈ topic.categories

/-- Load a category with some relations. -/
def loadCategory (relations : List CategoryRelation) (category : CategoryRow) : LoadedCategory where
  category := category
  parent := if .parent ∈ relations then some (content.categoryOf category.parent) else none
  children :=
    if .children ∈ relations then
      some (content.liveCategories.filter fun child => child.parent = some category.id)
    else none
  posts :=
    if .posts ∈ relations then some ((content.postsOfCategory category).map (content.loadPost []))
    else none
  topics := if .topics ∈ relations then some (content.topicsOfCategory category) else none

/-- `topics: { slug: topic }`. -/
def isOfTopic (topic : Option String) (category : CategoryRow) : Bool :=
  topic.all fun slug =>
    (content.topicsOfCategory category).any fun topic => Collation.eq topic.slug slug

end Content

/-! ### `CategoriesService` -/

namespace CategoriesService

variable (content : Content)

/-- The category that `findOne` selects: the first live one that fits the fields of the address and
the filters of the query. -/
def found (fields : RowKey) (queryDto : CategoryQueryDto) : Option CategoryRow :=
  content.liveCategories.find? fun category =>
    fields.names category.id category.slug && content.isOfTopic queryDto.topic category

def findOne (fields : RowKey) (queryDto : CategoryQueryDto) : Except Failure LoadedCategory :=
  findOrFail (found content fields queryDto) (content.loadCategory queryDto.include)

/-- The categories that `findManyWithPagination` selects, before they are ordered and cut into
pages. -/
def selected (queryDto : CategoryQueryDto) : List CategoryRow :=
  content.liveCategories.filter fun category =>
    (queryDto.name.all fun name => looksFor name category.name) &&
      (queryDto.showAll || category.parent = none) && content.isOfTopic queryDto.topic category

def findManyWithPagination (listing : Listing CategoryOrder CategoryRow CategoryOrder.isOrderable)
    (queryDto : CategoryQueryDto) : Except Failure (PaginationType LoadedCategory) :=
  findAndCount listing ⟨queryDto.orderBy, queryDto.sort⟩ (selected content queryDto)
    queryDto.toPaginationQueryDto (content.loadCategory queryDto.include)

end CategoriesService

end

end VetHealth
