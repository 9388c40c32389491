import QOrder.Interleaving
import QOrder.ReadCommitted
import QOrder.LockOrder
import QOrder.StaleAnswer
import QOrder.OpenRace
import QOrder.RestoreRace
import QOrder.CustomerSteps
import QOrder.CallRace
import QOrder.EventOrder
import QOrder.Resync
import QOrder.Serial
import QOrder.Settlement
import QOrder.Abandoned
import QOrder.Tenancy
import QOrder.Messages
import QOrder.Finality
import QOrder.Refusals
import QOrder.ChannelNames
import QOrder.RealtimeGateway
import QOrder.Effects
import QOrder.KitchenReplica
import QOrder.MenuPage
import QOrder.OwnOrder
import QOrder.SessionReplica
import QOrder.ExpiringStore
import QOrder.JobLock
import QOrder.KitchenTickets
import QOrder.KitchenSocket
import QOrder.Quiet
import QOrder.SweepTimeouts
import QOrder.ServiceStatements
import QOrder.Snapshots
import QOrder.MenuEdits
import QOrder.ObjectStorage
import QOrder.AdminMenu
import QOrder.BucketIsolation
import QOrder.KeyedParts
import QOrder.Atlas
import QOrder.RegionStatements
import QOrder.RegionCommands
import QOrder.Locality
import QOrder.RegionHandlers
import QOrder.Serving
import QOrder.TableRegions
import QOrder.TableOperations
import QOrder.RestaurantRegions
import QOrder.MenuTenancy
import QOrder.AckRace
import QOrder.Solo
import QOrder.SoloCustomer
import QOrder.Carts
import QOrder.Rejections
import QOrder.Endings
import QOrder.Dues
import QOrder.SweepFaults
import QOrder.Baselines
import QOrder.OfficeSchema
import QOrder.Office
import QOrder.OfficeLaws
import QOrder.House
import QOrder.TokenAnswers
import QOrder.BodyChecks
import QOrder.BodyAnswers
import QOrder.CustomerMenu
import QOrder.TokenSessions
import QOrder.TokenRuns
import QOrder.PublicUrls
import QOrder.PhotoObjects
import QOrder.QrRace
import QOrder.Logins
import QOrder.PyDecimal
import QOrder.Printing
import QOrder.BillFiles
import QOrder.BillTotals
import QOrder.SortEngine
import QOrder.OrderRounds
import QOrder.RoundsShown
import QOrder.SocketHooks
import QOrder.HookRuns
import QOrder.Binary64
import QOrder.DailyReport
import QOrder.SessionAnswers
import QOrder.AdminAnswers
import QOrder.SiteCalls
import QOrder.SwitchedOff
import QOrder.OfficeRows
import QOrder.OfficeTwins
import QOrder.AdminRegions
import QOrder.Coherence
import QOrder.RestaurantIsolation
import QOrder.Refinement
import QOrder.TabLedger
import QOrder.Tabs
import QOrder.TabRuns
import QOrder.Sheets
import QOrder.ReportSync
import QOrder.ReportRuns
import QOrder.TopItems
import QOrder.UseCart
import QOrder.CartOrders
import QOrder.Rounding
import QOrder.Overdue
import QOrder.Records
import QOrder.Credentials
import QOrder.Entitlement
import QOrder.ScreenCalls
import QOrder.CallEffects
import QOrder.CallScreen
import QOrder.Announcing
import QOrder.AnnouncingHandlers
import QOrder.Confined
import QOrder.Announced
