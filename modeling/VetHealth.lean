import VetHealth.Ai.Aborts
import VetHealth.Ai.Dispatch
import VetHealth.Auth.Blocked
import VetHealth.Auth.Confirmations
import VetHealth.Auth.FailedRequests
import VetHealth.Auth.PasswordChange
import VetHealth.Auth.Provenance
import VetHealth.Auth.Throttling
import VetHealth.Content.Existence
import VetHealth.Content.Formatting
import VetHealth.Content.Hierarchies
import VetHealth.Content.PartialUpdates
import VetHealth.Content.Unpublished
import VetHealth.Content.UrlKeys
import VetHealth.Database.Installation
import VetHealth.Files.Losses
import VetHealth.Files.PresignedKeys
import VetHealth.Pages.Slugs
import VetHealth.Posts.AssignedTopics
import VetHealth.Posts.FeaturedImage
import VetHealth.Posts.Filters
import VetHealth.Posts.Lifecycle
import VetHealth.Posts.Ownership
import VetHealth.Posts.Paging
import VetHealth.Posts.ParentExpansion
import VetHealth.Scripts.DbRefsMigration
import VetHealth.Scripts.MigratedUploads
import VetHealth.Seo.BulkEditing
import VetHealth.Seo.Drafts
import VetHealth.Users.Protection
