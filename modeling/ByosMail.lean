import ByosMail.Machine
import ByosMail.Table
import ByosMail.Checks
import ByosMail.Bytes
import ByosMail.Base64
import ByosMail.Envelope
import ByosMail.EnvelopeAad
import ByosMail.OutboundQueue
import ByosMail.OutboundDelivery
import ByosMail.ScheduledMessages
import ByosMail.ScheduledCancel
import ByosMail.OutboundReservations
import ByosMail.ReservationDelivery
import ByosMail.GoText
import ByosMail.MailRouter
import ByosMail.MailPlacement
import ByosMail.MailDelivery
import ByosMail.StorageWorker
import ByosMail.StoragePlacement
import ByosMail.AuthHandlers
import ByosMail.AuthSessions
import ByosMail.MailboxKeys
import ByosMail.KeyArchive
import ByosMail.MailboxRoots
import ByosMail.KeyWriters
import ByosMail.KeyVersions
import ByosMail.WrappedKeys
import ByosMail.KeyAuthority
import ByosMail.OrgWraps
import ByosMail.OrgRecovery
import ByosMail.Utf8
import ByosMail.Json
import ByosMail.JsonWriter
import ByosMail.EnvelopeJson
import ByosMail.EnvelopeReading
import ByosMail.EnvelopeAgreement
import ByosMail.EnvelopeCanonical
import ByosMail.Primitives
import ByosMail.Hpke
import ByosMail.HpkeOpen
import ByosMail.HpkeSeal
import ByosMail.NetMail
import ByosMail.Recipients
import ByosMail.MessageCrypto
import ByosMail.OutboundEnvelope
import ByosMail.Hex
import ByosMail.WebmailCrypto
import ByosMail.DkimRelaxed
import ByosMail.Dkim
import ByosMail.StorageProviders
import ByosMail.StorageMigration
import ByosMail.MigrationCutover
import ByosMail.Uuid
import ByosMail.MemberAccounts
import ByosMail.Transactions
import ByosMail.RootRotation
import ByosMail.RootTransactions
import ByosMail.RootLineage
import ByosMail.DeviceGrants
import ByosMail.Impersonation
import ByosMail.SignIns
import ByosMail.Termination
import ByosMail.StorageConnections
import ByosMail.ConnectionStatus
import ByosMail.RateLimits
import ByosMail.RateWindows
import ByosMail.DeliveryAttempts
import ByosMail.RateCharges
import ByosMail.MessageCharges
import ByosMail.TenantRows
import ByosMail.AuthAnswers
import ByosMail.AccountEnumeration
import ByosMail.CodeSecrecy
import ByosMail.CurrentSession
import ByosMail.OneTimeGrants
import ByosMail.OneTimeUse
import ByosMail.ChallengeUse
import ByosMail.ChallengeOnce
import ByosMail.DeliveryIdentity
import ByosMail.Drafts
import ByosMail.FolderViews
import ByosMail.AttachmentLinks
import ByosMail.AliasRouting
import ByosMail.MailboxPlans
import ByosMail.AddressQuotas
import ByosMail.DkimKeys
import ByosMail.SmtpEnvelopes
import ByosMail.ImapSession
import ByosMail.BackupRoundTrip
import ByosMail.GoogleDrive
import ByosMail.CutoverOnce
import ByosMail.MigrationSettled
import ByosMail.StorageVerdicts
import ByosMail.AddressReuse
import ByosMail.DkimBody
import ByosMail.SmtpData
import ByosMail.ImapViews
import ByosMail.ImapSearch
import ByosMail.ImapFetch
import ByosMail.DeliveryLog
import ByosMail.SmtpReplies
import ByosMail.DeliveryRetries
import ByosMail.AttachmentKeys
import ByosMail.MockDrive
import ByosMail.BackupSequences
import ByosMail.BackupReferences
import ByosMail.DeviceRevocation
import ByosMail.AutoReplies
import ByosMail.PasswordAttempts
import ByosMail.DriveRefresh
import ByosMail.MessageImport
import ByosMail.MigrationCompleteness
import ByosMail.UserRates
import ByosMail.MailboxExport
import ByosMail.PassphraseKeys
import ByosMail.Pricing
import ByosMail.Totp
import ByosMail.BundleHash
import ByosMail.RecoveryMasks
import ByosMail.Mnemonics
import ByosMail.Base64Text
import ByosMail.ConnectedAccounts
import ByosMail.MboxImport
import ByosMail.SearchTokens
import ByosMail.InboundBridge
import ByosMail.MailboxEnvelopes
import ByosMail.ContactBook
import ByosMail.XWingMessages
import ByosMail.DeliveredMail
import ByosMail.ActivationKeys
