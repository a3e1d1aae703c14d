import AraNotification.FailedDrain
import AraNotification.PostgresRace
import AraNotification.RedisRace
import AraNotification.QueueRace
import AraNotification.QueueLog
import AraNotification.ChannelTenants
import AraNotification.ChannelAgreement
import AraNotification.ConnectionRace
import AraNotification.TenantIsolation
import AraNotification.OfflineDelivery
import AraNotification.ReplayCapacity
import AraNotification.Stranded
import AraNotification.OpenSocket
import AraNotification.Expiry
import AraNotification.QueueIdentity
import AraNotification.DeliveryOrder
import AraNotification.StoreLog
import AraNotification.SharedTable
import AraNotification.EventualDelivery
import AraNotification.ApiStatistics
import AraNotification.ConcurrentTable
import AraNotification.LimitRace
import AraNotification.NoLoss
import AraNotification.AckDelivery
import AraNotification.AtMostOnce
import AraNotification.DeliveryCounts
import AraNotification.SteadyRecipients
import AraNotification.OutboundChannel
import AraNotification.SubscriptionView
import AraNotification.BreakerRace
import AraNotification.RedisPool
import AraNotification.DispatchRecipients
import AraNotification.AckAccounting
import AraNotification.ForeignAck
import AraNotification.RedisAckRace
import AraNotification.AckEquivalence
import AraNotification.PoolHealth
import AraNotification.SubscriberLoop
import AraNotification.SubscriberShutdown
import AraNotification.SubscriberRecovery
import AraNotification.Lib.ExpiringMap
import AraNotification.SessionStore
import AraNotification.ChannelServers
import AraNotification.SessionRace
import AraNotification.RefreshLock
import AraNotification.ClusterQueries
import AraNotification.ClusterRouting
import AraNotification.RoutingCalls
import AraNotification.RoutedSubscriber
import AraNotification.ClusterDispatch
import AraNotification.TenantQuotas
import AraNotification.IpAddr
import AraNotification.RateLimiter
import AraNotification.RateLimitPrincipals
import AraNotification.RequestBound
import AraNotification.DistributedLimit
import AraNotification.Templates
import AraNotification.TemplateIsolation
import AraNotification.Lib.Linearization
import AraNotification.TemplateRace
import AraNotification.ChannelQueries
import AraNotification.Directory
import AraNotification.RunnableConfig
import AraNotification.SseLifetime
import AraNotification.TenantStats
import AraNotification.ExpiredState
import AraNotification.BucketBound
import AraNotification.BucketLimits
import AraNotification.ConformingClient
import AraNotification.BucketRace
import AraNotification.BatchResults
import AraNotification.BatchDedup
import AraNotification.AudienceFilter
import AraNotification.UserBatches
import AraNotification.ConcurrentSend
import AraNotification.Lib.Fields
import AraNotification.WireFormat
import AraNotification.ConnectionRate
import AraNotification.BucketCleanup
import AraNotification.Backoff
import AraNotification.Shutdown
import AraNotification.Lib.CappedSet
import AraNotification.Resubscription
import AraNotification.SseFrames
import AraNotification.UserQueue
import AraNotification.TemplatePatch
import AraNotification.TemplateScope
import AraNotification.Lib.Scan
import AraNotification.Substitution
import AraNotification.DatabaseUrl
