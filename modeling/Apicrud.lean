import Apicrud.Machine
import Apicrud.Expiring
import Apicrud.Regex
import Apicrud.Checks
import Apicrud.Models
import Apicrud.Context
import Apicrud.SessionManager
import Apicrud.AccessControl
import Apicrud.Rbac
import Apicrud.BasicCrud
import Apicrud.World
import Apicrud.Confirmation
import Apicrud.SessionAuth
import Apicrud.Login
import Apicrud.LocalUser
import Apicrud.ApiKey
import Apicrud.Controllers
import Apicrud.Accepted
import Apicrud.Bodies
import Apicrud.Commits
import Apicrud.Seed
import Apicrud.KeyAccess
import Apicrud.Sessions
import Apicrud.Tokens
import Apicrud.SecondFactor
import Apicrud.Find
import Apicrud.Words
import Apicrud.Listing
import Apicrud.SessionStore
import Apicrud.Credentials
import Apicrud.DisabledAccounts
import Apicrud.OneTimePasswords
import Apicrud.BackupCodes
import Apicrud.Isolation
import Apicrud.Memberships
import Apicrud.ListAccess
import Apicrud.RateLimit
import Apicrud.Lockout
import Apicrud.Guesses
import Apicrud.Updates
import Apicrud.Clients
import Apicrud.Keyspace
import Apicrud.Metrics
import Apicrud.Quotas
import Apicrud.QuotaRaces
import Apicrud.Mutex
import Apicrud.Alternating
import Apicrud.RateWindows
import Apicrud.LockoutTime
import Apicrud.Paging
import Apicrud.TrashFind
import Apicrud.TrashPaging
import Apicrud.ReadThrough
import Apicrud.Grants
import Apicrud.GrantCache
import Apicrud.Promotion
import Apicrud.ContactUpdates
import Apicrud.ResetTokens
import Apicrud.BulkDelete
import Apicrud.Creates
import Apicrud.RecordQuotas
import Apicrud.Referrals
import Apicrud.TrashItems
import Apicrud.NewestTokens
import Apicrud.Media
import Apicrud.ZeroGrants
import Apicrud.AlbumLinks
import Apicrud.Relations
import Apicrud.Roles
import Apicrud.KeyReaders
import Apicrud.Messaging
import Apicrud.Charges
import Apicrud.MethodSelection
import Apicrud.Locations
import Apicrud.LoginNames
import Apicrud.Identities
import Apicrud.Base64
import Apicrud.FindPaging
import Apicrud.Loop
import Apicrud.Migration
import Apicrud.SessionUpdates
import Apicrud.AesEncrypt
import Apicrud.UsageWarnings
import Apicrud.MetricListing
import Apicrud.Exposition
import Apicrud.RegexSteps
import Apicrud.ExpiryDates
import Apicrud.Base64Url
import Apicrud.UploadNames
import Apicrud.ContactRanks
import Apicrud.GrantListing
import Apicrud.KeyStamps
import Apicrud.Numerals
import Apicrud.GenIds
import Apicrud.DailyUploads
import Apicrud.PermissionChanges
import Apicrud.FindsReadable
import Apicrud.TtlCache
import Apicrud.GrantLookups
import Apicrud.Json
import Apicrud.ServiceRegistry
import Apicrud.Interruptible
import Apicrud.ServiceConfig
import Apicrud.ConfigPrecedence
import Apicrud.RejectedConfigs
import Apicrud.AccountSettings
import Apicrud.SettingsCache
import Apicrud.MembershipRoles
import Apicrud.TokenAddresses
import Apicrud.ActiveContacts
import Apicrud.Owners
import Apicrud.RecordIds
import Apicrud.FindsOnlyReadable
import Apicrud.Registrations
import Apicrud.GrantStaleness
import Apicrud.HiddenUnseen
import Apicrud.Privileges
import Apicrud.Logouts
import Apicrud.Secrets
