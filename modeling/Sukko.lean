import Sukko.Server.SendSafety
import Sukko.Server.LeaseIsolation
import Sukko.ProvApi.KeyStreams
import Sukko.ProvApi.TenantConfigStream
import Sukko.Gateway.ReconnectScope
import Sukko.Broadcast.Convergence
import Sukko.Broadcast.Wakeups
import Sukko.Gateway.RevocationState
import Sukko.Gateway.RevocationRace
import Sukko.Gateway.RefreshScope
import Sukko.Gateway.SseDelivery
import Sukko.Orchestration.SharedTopics
import Sukko.Orchestration.DedicatedTopics
import Sukko.Orchestration.BlockedTopics
import Sukko.Server.GapAnchors
import Sukko.Server.IndexSnapshots
import Sukko.Server.SequenceOrder
import Sukko.Orchestration.ShardBalance
import Sukko.Kafka.Fanout
import Sukko.History.WriterExclusion
import Sukko.Kafka.ProducePlan
import Sukko.Provisioning.WatchStreams
import Sukko.Gateway.RevocationRename
import Sukko.Push.RevocationScope
import Sukko.Push.DeviceScope
import Sukko.Webhook.Ssrf
import Sukko.Provisioning.LicenseReload
import Sukko.Provisioning.ListingRuns
import Sukko.Webhook.StatusRuns
import Sukko.Kafka.BatchEquivalence
import Sukko.Server.ReplayStarts
import Sukko.Server.LiveReplay
import Sukko.Gateway.PlaceholderScope
import Sukko.Gateway.SubscribeRewrite
import Sukko.Server.Subjects
import Sukko.Kafka.DeadLetters
import Sukko.Server.ClientBuckets
import Sukko.Server.BroadcastFrames
import Sukko.Shared.LicenseOrder
import Sukko.Server.LimiterCleanup
import Sukko.Broadcast.HoldWindow
import Sukko.Provisioning.TopicReferences
import Sukko.Server.RegistryLosses
import Sukko.Kafka.DeadLetterQueue
import Sukko.Provisioning.AdminListing
import Sukko.Server.RegistryMirror
import Sukko.Provisioning.TenantSagas
import Sukko.Webhook.Dispatch
import Sukko.Webhook.StatusQueue
import Sukko.Webhook.Cache
import Sukko.Push.ConfigClient
import Sukko.Analytics.Rollups
import Sukko.Analytics.Partitions
import Sukko.Gateway.TenantConnections
