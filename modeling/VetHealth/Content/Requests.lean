import VetHealth.Categories.Reading
import VetHealth.Search.Service
import VetHealth.Topics.Reading

/-!
# VetHealth.Content.Requests

**The public read requests.** What an anonymous caller may ask of posts, topics, categories and the
search, and what the answer shows. `RolesSerializerInterceptor` leaves the answer to an anonymous
caller alone, so that `ClassSerializerInterceptor` serialises it without groups: columns that are
exposed to groups are dropped, the status of a post is shown by its name and its author by the first
name.
-/

namespace VetHealth

/-! ### What is shown -/

structure TopicView where
  id : Uuid
  title : String
  image : Option FileRow
  description : Option String
  status : Option TopicStatusEnum
  slug : String
  contentType : TopicContentTypeEnum
  deriving DecidableEq

structure CategoryView where
  id : Uuid
  name : String
  slug : String
  deriving DecidableEq

structure PageView where
  id : Uuid
  title : String
  content : String
  slug : String
  status : Option String
  deriving DecidableEq

structure UserView where
  id : Uuid
  firstname : String
  lastname : Option String
  role : Option RoleEnum
  status : Option UserStatusEnum
  deriving DecidableEq

/-- A post; a relation that was not loaded is `none`, and one that was loaded and is not there is
`some none`. -/
structure PostView where
  id : Uuid
  title : String
  content : String
  slug : String
  featuredImageFile : Option FileRow
  featuredImageUrl : Option String
  createdAt : Int
  updatedAt : Int
  status : Option String
  author : Option String
  topics : Option (List TopicView)
  categories : Option (List CategoryView)
  metadata : Option (Option MetadataRow)
  deriving DecidableEq

/-- A topic with its relations. -/
structure TopicResponse extends TopicView where
  metadata : Option (Option MetadataRow)
  posts : Option (List PostView)
  categories : Option (List CategoryView)
  page : Option (Option PageView)
  parent : Option (Option TopicView)
  children : Option (List TopicView)
  users : Option (List UserView)
  deriving DecidableEq

/-- A category with its relations. -/
structure CategoryResponse extends CategoryView where
  parent : Option (Option CategoryView)
  children : Option (List CategoryView)
  posts : Option (List PostView)
  topics : Option (List TopicView)
  deriving DecidableEq

def CategoryRow.view (category : CategoryRow) : CategoryView :=
  ⟨category.id, category.name, category.slug⟩

def PageRow.view (page : PageRow) : PageView :=
  ⟨page.id, page.title, page.content, page.slug, page.status.map PostStatusEnum.name⟩

def UserEntity.view (user : UserEntity) : UserView :=
  ⟨user.id, user.firstname, user.lastname, user.role, user.status⟩

section

variable [Collation]

namespace Content

variable (content : Content)

/-- A topic with its eager relations. -/
def topicView (topic : TopicRow) : TopicView where
  id := topic.id
  title := topic.title
  image := content.fileOf topic.image
  description := topic.description
  status := topic.status
  slug := topic.slug
  contentType := topic.contentType

def postView (loaded : LoadedPost) : PostView where
  id := loaded.post.id
  title := loaded.post.title
  content := loaded.post.content
  slug := loaded.post.slug
  featuredImageFile := loaded.featuredImageFile
  featuredImageUrl := loaded.post.featuredImageUrl
  createdAt := loaded.post.createdAt
  updatedAt := loaded.post.updatedAt
  status := loaded.post.status.map PostStatusEnum.name
  author := loaded.author.join.map UserEntity.firstname
  topics := loaded.topics.map (List.map content.topicView)
  categories := loaded.categories.map (List.map CategoryRow.view)
  metadata := loaded.metadata

def topicResponse (loaded : LoadedTopic) : TopicResponse where
  toTopicView := content.topicView loaded.topic
  metadata := loaded.metadata
  posts := loaded.posts.map (List.map content.postView)
  categories := loaded.categories.map (List.map CategoryRow.view)
  page := loaded.page.map (Option.map PageRow.view)
  parent := loaded.parent.map (Option.map content.topicView)
  children := loaded.children.map (List.map content.topicView)
  users := loaded.users.map (List.map UserEntity.view)

def categoryResponse (loaded : LoadedCategory) : CategoryResponse where
  toCategoryView := loaded.category.view
  parent := loaded.parent.map (Option.map CategoryRow.view)
  children := loaded.children.map (List.map CategoryRow.view)
  posts := loaded.posts.map (List.map content.postView)
  topics := loaded.topics.map (List.map content.topicView)

end Content

/-! ### Requests -/

/-- A `GET` request with an accepted query, of any of the lists and details that anybody may read.
-/
inductive PublicRequest
  | posts (queryDto : PostQueryDto)
  | post (id : Uuid) (queryDto : PostQueryDto)
  | search (queryDto : SearchQueryDto)
  | topics (queryDto : TopicQueryDto)
  | topic (id : Uuid) (queryDto : TopicQueryDto)
  | categories (queryDto : CategoryQueryDto)
  | category (id : Uuid) (queryDto : CategoryQueryDto)

inductive PublicResponse
  | posts (found : PaginationType PostView)
  | post (found : PostView)
  | topics (found : PaginationType TopicResponse)
  | topic (found : TopicResponse)
  | categories (found : PaginationType CategoryResponse)
  | category (found : CategoryResponse)
  deriving DecidableEq

/-- How the database lists rows. -/
structure Listings where
  posts : Listing PostOrder PostRow PostOrder.isOrderable
  newest : List PostRow → List PostRow
  topics : Listing TopicOrder TopicRow TopicOrder.isOrderable
  categories : Listing CategoryOrder CategoryRow CategoryOrder.isOrderable

/-- `queryDto?.slug`, where it is not empty. -/
def givenSlug (slug : Option String) : Option String := slug.filter fun slug => slug ≠ ""

/-- `AuthorOrderValidationPipe`: a list by author has to include the authors. -/
def AuthorOrderValidationPipe.transform (queryDto : PostQueryDto) : Except Failure Unit :=
  if queryDto.orderBy = .author ∧ .author ∉ queryDto.include then
    .error (.rejected "relationIsNotSet")
  else .ok ()

section

variable (listings : Listings) (content : Content)

def PostsController.getOne (id : Uuid) (queryDto : PostQueryDto) : Except Failure PublicResponse :=
  (PostsService.findOne content (.id id.text) queryDto.include none).map fun loaded =>
    .post (content.postView loaded)

def PostsController.getMany (queryDto : PostQueryDto) : Except Failure PublicResponse := do
  AuthorOrderValidationPipe.transform queryDto
  match givenSlug queryDto.slug with
  | some slug =>
      (PostsService.findOne content (.slug slug) queryDto.include none).map fun loaded =>
        .post (content.postView loaded)
  | none =>
      (PostsService.findManyWithPagination content listings.posts.list queryDto none).map fun found =>
        .posts (found.map content.postView)

def SearchController.getSearchedPosts [Collation.LowerCase] (queryDto : SearchQueryDto) :
    PublicResponse :=
  .posts
    ((SearchService.findManyWithPagination content listings.newest queryDto).map content.postView)

def TopicsController.getOne (id : Uuid) (queryDto : TopicQueryDto) :
    Except Failure PublicResponse := do
  GetTopicsGuard.canActivate queryDto none
  (TopicsService.findOne content (.id id.text) queryDto).map fun loaded =>
    .topic (content.topicResponse loaded)

def TopicsController.getMany (queryDto : TopicQueryDto) : Except Failure PublicResponse := do
  GetTopicsGuard.canActivate queryDto none
  match givenSlug queryDto.slug with
  | some slug =>
      (TopicsService.findOne content (.slug slug) queryDto).map fun loaded =>
        .topic (content.topicResponse loaded)
  | none =>
      (TopicsService.findManyWithPagination content listings.topics queryDto).map fun found =>
        .topics (found.map content.topicResponse)

def CategoriesController.getOne (id : Uuid) (queryDto : CategoryQueryDto) :
    Except Failure PublicResponse :=
  (CategoriesService.findOne content (.id id.text) queryDto).map fun loaded =>
    .category (content.categoryResponse loaded)

def CategoriesController.getMany (queryDto : CategoryQueryDto) : Except Failure PublicResponse :=
  match givenSlug queryDto.slug with
  | some slug =>
      (CategoriesService.findOne content (.slug slug) queryDto).map fun loaded =>
        .category (content.categoryResponse loaded)
  | none =>
      (CategoriesService.findManyWithPagination content listings.categories queryDto).map fun found =>
        .categories (found.map content.categoryResponse)

/-- The response to an anonymous request. Nobody is signed in, so what is shown of unpublished rows
here is shown to everybody. -/
def respond [Collation.LowerCase] : PublicRequest → Except Failure PublicResponse
  | .posts queryDto => PostsController.getMany listings content queryDto
  | .post id queryDto => PostsController.getOne content id queryDto
  | .search queryDto => .ok (SearchController.getSearchedPosts listings content queryDto)
  | .topics queryDto => TopicsController.getMany listings content queryDto
  | .topic id queryDto => TopicsController.getOne content id queryDto
  | .categories queryDto => CategoriesController.getMany listings content queryDto
  | .category id queryDto => CategoriesController.getOne content id queryDto

end

end

end VetHealth
