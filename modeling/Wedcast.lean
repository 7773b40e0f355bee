import Wedcast.Lib.Runs
import Wedcast.Lib.Unwinding
import Wedcast.Lib.Keyed
import Wedcast.Lib.Indexed
import Wedcast.Lib.Delayed
import Wedcast.Lib.History
import Wedcast.Lib.PathTree
import Wedcast.Lib.Interleave
import Wedcast.Lib.Outbox
import Wedcast.Text
import Wedcast.Database
import Wedcast.CreateFeed
import Wedcast.CreateFeedFields
import Wedcast.CreateFeedId
import Wedcast.CreateFeedAvailability
import Wedcast.CreateFeedClients
import Wedcast.CreateFeedPages
import Wedcast.CreateFeedOnce
import Wedcast.CreateFeedFinish
import Wedcast.LoginPhone
import Wedcast.PhoneLink
import Wedcast.PhoneSignIn
import Wedcast.TextFields
import Wedcast.CreateFeedButton
import Wedcast.CastKey
import Wedcast.WeddingDetails
import Wedcast.WeddingDetailsPassword
import Wedcast.Menu
import Wedcast.MenuLists
import Wedcast.MenuTree
import Wedcast.MenuUsers
import Wedcast.MenuRefresh
import Wedcast.CurrentUser
import Wedcast.Membership
import Wedcast.FeedUsers
import Wedcast.MemberRecords
import Wedcast.LoginAvatar
import Wedcast.Passwords
import Wedcast.Navigation
import Wedcast.App
import Wedcast.CameraRoll
import Wedcast.Feed
import Wedcast.FeedSelection
import Wedcast.FeedOverlay
import Wedcast.Camera
import Wedcast.CameraUpload
import Wedcast.CameraText
import Wedcast.CameraReset
import Wedcast.Permissions
import Wedcast.Online
import Wedcast.Store
import Wedcast.StoreNodes
import Wedcast.StoreOperations
import Wedcast.StoreRuns
import Wedcast.OnlineUsers
import Wedcast.StoreDirectory
import Wedcast.GuestMenu
import Wedcast.MenuSearch
import Wedcast.StoreModels
import Wedcast.Uploads
