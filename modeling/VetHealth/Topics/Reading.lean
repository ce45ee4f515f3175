import VetHealth.Posts.Reading

/-!
# VetHealth.Topics.Reading

Reading topics: one by its id or slug, or a page of a list. A topic is selected by its own columns
alone, and the relations that a request includes are loaded whole: the posts of a topic whatever
their status is.
-/

namespace VetHealth

/-! ### The query -/

/-- The columns of the entity. -/
inductive TopicColumn
  | id
  | title
  | image
  | description
  | status
  | metadata
  | slug
  | contentType
  | createdAt
  | updatedAt
  | deletedAt
  | page
  | parent
  deriving DecidableEq, Repr

/-- The relations that `include` may name. -/
inductive TopicRelation
  | posts
  | categories
  | page
  | parent
  | children
  | users
  | metadata
  deriving DecidableEq, Repr

/-- The values that `status` may have. -/
inductive TopicStatusFilter
  | active
  | inactive
  deriving DecidableEq, Repr

def TopicStatusFilter.text : TopicStatusFilter → String
  | active => "active"
  | inactive => "inactive"

/-- An accepted query. -/
structure TopicQueryDto extends PaginationQueryDto where
  title : Option String := none
  status : TopicStatusFilter := .active
  slug : Option String := none
  showAll : Bool := false
  «include» : List TopicRelation := []
  orderBy : TopicColumn := .createdAt
  sort : OrderValue := .ASC

/-- What rows are ordered by: a column, or the name of the status, which the service reaches through
the relation. -/
inductive TopicPath
  | column (column : TopicColumn)
  | statusName
  deriving DecidableEq, Repr

structure TopicOrder where
  path : TopicPath
  sort : OrderValue
  deriving DecidableEq, Repr

def topicOrder (orderBy : TopicColumn) (sort : OrderValue) : TopicOrder :=
  match orderBy with
  | .status => ⟨.statusName, sort⟩
  | column => ⟨.column column, sort⟩

/-- The ORM orders by columns, not by relations: an order that names one makes the query fail, so it
is not part of what is accepted here. -/
def TopicOrder.isOrderable (order : TopicOrder) : Bool :=
  match order.path with
  -- columns that hold a relation
  | .column .image | .column .status | .column .metadata | .column .page | .column .parent => false
  | .column _ | .statusName => true

/-- `GetTopicsGuard`: only an administrator may ask for inactive topics. -/
def GetTopicsGuard.canActivate (queryDto : TopicQueryDto) (user : Option JwtPayload) :
    Except Failure Unit :=
  if queryDto.status = .inactive ∧ !(user.any fun user => isAdminRole user.role) then
    .error .forbidden'
  else .ok ()

/-- A topic with its eager relations and the relations of the request; a relation that was not
asked for is `none`. -/
structure LoadedTopic where
  topic : TopicRow
  image : Option FileRow
  metadata : Option (Option MetadataRow)
  posts : Option (List LoadedPost)
  categories : Option (List CategoryRow)
  page : Option (Option PageRow)
  parent : Option (Option TopicRow)
  children : Option (List TopicRow)
  users : Option (List UserEntity)
  deriving DecidableEq

section

variable [Collation]

namespace Content

variable (content : Content)

/-- Load a topic with some relations. -/
def loadTopic (relations : List TopicRelation) (topic : TopicRow) : LoadedTopic where
  topic := topic
  image := content.fileOf topic.image
  metadata := if .metadata ∈ relations then some (content.metadataOf topic.metadata) else none
  posts :=
    if .posts ∈ relations then some ((content.postsOfTopic topic).map (content.loadPost []))
    else none
  categories :=
    if .categories ∈ relations then
      some (content.liveCategories.filter fun category => category.id ∈ topic.categories)
    else none
  page := if .page ∈ relations then some (content.pageOf topic.page) else none
  parent := if .parent ∈ relations then some (content.topicOf topic.parent) else none
  children :=
    if .children ∈ relations then
      some (content.liveTopics.filter fun child => child.parent = some topic.id)
    else none
  users :=
    if .users ∈ relations then some (content.liveUsers.filter fun user => topic.id ∈ user.topics)
    else none

end Content

/-- `status: { name: status }`. -/
def TopicRow.hasStatus (topic : TopicRow) (status : TopicStatusFilter) : Bool :=
  topic.status.any fun s => Collation.eq s.name status.text

/-! ### `TopicsService` -/

namespace TopicsService

variable (content : Content)

/-- The topic that `findOne` selects: the first live one that fits the fields of the address and the
filters of the query. -/
def found (fields : RowKey) (queryDto : TopicQueryDto) : Option TopicRow :=
  content.liveTopics.find? fun topic =>
    fields.names topic.id topic.slug && topic.hasStatus queryDto.status

def findOne (fields : RowKey) (queryDto : TopicQueryDto) : Except Failure LoadedTopic :=
  findOrFail (found content fields queryDto) (content.loadTopic queryDto.include)

/-- The topics that `findManyWithPagination` selects, before they are ordered and cut into pages. -/
def selected (queryDto : TopicQueryDto) : List TopicRow :=
  content.liveTopics.filter fun topic =>
    (queryDto.title.all fun title => looksFor title topic.title) &&
      (queryDto.slug.all fun slug => Collation.eq topic.slug slug) &&
      (queryDto.showAll || topic.parent = none) && topic.hasStatus queryDto.status

def findManyWithPagination (listing : Listing TopicOrder TopicRow TopicOrder.isOrderable)
    (queryDto : TopicQueryDto) : Except Failure (PaginationType LoadedTopic) :=
  findAndCount listing (topicOrder queryDto.orderBy queryDto.sort) (selected content queryDto)
    queryDto.toPaginationQueryDto (content.loadTopic queryDto.include)

end TopicsService

end

end VetHealth
