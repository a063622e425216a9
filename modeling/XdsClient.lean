import XdsClient.Library.Fuel
import XdsClient.Library.History
import XdsClient.Library.OrderedSet
import XdsClient.Library.Unwinding
import XdsClient.Library.Codec
import XdsClient.Library.FlaggedList
import XdsClient.Library.Outstanding
import XdsClient.Library.Dependency
import XdsClient.Ads.Messages
import XdsClient.Ads.Session
import XdsClient.Ads.Client
import XdsClient.Ads.Effects
import XdsClient.Ads.Settlement
import XdsClient.Ads.Fuel
import XdsClient.Ads.Perform
import XdsClient.Ads.Quiet
import XdsClient.Ads.Phases
import XdsClient.Ads.Runs
import XdsClient.Ads.Subscriptions
import XdsClient.Ads.Invariants
import XdsClient.Ads.Turns
import XdsClient.Ads.Tracking
import XdsClient.Ads.Nonce
import XdsClient.Ads.Version
import XdsClient.Ads.Addressing
import XdsClient.Ads.Registry
import XdsClient.Ads.Registration
import XdsClient.Ads.WatchUpdate
import XdsClient.Ads.Updates
import XdsClient.Ads.Identity
import XdsClient.Ads.NodeOnce
import XdsClient.Ads.Answers
import XdsClient.Ads.Resubscription
import XdsClient.Ads.Fifo
import XdsClient.Ads.Nesting
import XdsClient.Ads.Observation
import XdsClient.Ads.Isolation
import XdsClient.Ads.Chat
import XdsClient.Ads.Lifecycle
import XdsClient.Ads.Discipline
import XdsClient.Resources.DecodedResource
import XdsClient.Resources.Wire
import XdsClient.Resources.Decoding
import XdsClient.Manager.AdsManager
import XdsClient.Manager.Startup
import XdsClient.AsyncAds.Chatter
import XdsClient.AsyncAds.Reactions
import XdsClient.Descriptors.Loader
import XdsClient.Descriptors.Pool
import XdsClient.Descriptors.Loading
import XdsClient.Ads.Mux
import XdsClient.Ads.Acceptance
import XdsClient.Ads.Wire
import XdsClient.Ads.Conversation
import XdsClient.Ads.Traffic
import XdsClient.Ads.Acknowledgement
import XdsClient.Ads.Iterators
import XdsClient.Library.Schedule
import XdsClient.ThreadedAds.AdsClient
import XdsClient.Ads.Program
import XdsClient.Ads.SharedStream
import XdsClient.AsyncAds.Completion
import XdsClient.Descriptors.Sequences
import XdsClient.Manager.Link
import XdsClient.Ads.Depth
import XdsClient.Resources.Responses
import XdsClient.Ads.Renaming
import XdsClient.Ads.Replacement
import XdsClient.Ads.Separation
