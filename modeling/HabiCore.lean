import HabiCore.LabelledRuns
import HabiCore.TokenCirculation
import HabiCore.PerLinkSpecification
import HabiCore.BarrierSpecification
import HabiCore.GlobalNetworkSpecification
import HabiCore.IndependentComponents
import HabiCore.BearerLifecycle
import HabiCore.PolicyGate
import HabiCore.FinmapFolds
import HabiCore.Node
import HabiCore.UnprintableCharacters
import HabiCore.DebugFormat
import HabiCore.Network
import HabiCore.NetworkCalls
import HabiCore.SpentBy
import HabiCore.ConversionDay
import HabiCore.NetworkRuns
import HabiCore.PairwiseSync
import HabiCore.NetworkRefinement
import HabiCore.SettlementFinality
import HabiCore.DoubleSpendCausality
import HabiCore.SettlementQuorum
import HabiCore.Wire
import HabiCore.EscapedText
import HabiCore.WireFormat
import HabiCore.RelayedMessages
import HabiCore.TextLines
import HabiCore.Persistence
import HabiCore.SharedState
import HabiCore.PeerProtocol
import HabiCore.HostilePeers
import HabiCore.ConversionDayCoordinator
import HabiCore.SettlementAgreement
import HabiCore.SettlementEffects
import HabiCore.LockedProcesses
import HabiCore.HandlerContracts
import HabiCore.HabiNode
import HabiCore.Deployment
import HabiCore.EffectHistory
import HabiCore.LinkWrites
import HabiCore.ThreadConduct
import HabiCore.HandlerConduct
import HabiCore.LinkSymmetry
import HabiCore.SavedImages
import HabiCore.BurnRestarts
import HabiCore.RestartableProcess
import HabiCore.DurableSpends
import HabiCore.Conservation
import HabiCore.LiveLinks
import HabiCore.QuiescentConsistency
import HabiCore.CrossingSpends
import HabiCore.LinkUpHandshake
import HabiCore.GatheredSettlement
import HabiCore.IsolatedRuns
import HabiCore.SequentialRuns
import HabiCore.SequentialCommands
import HabiCore.CentralizedSimulation
import HabiCore.FileSystem
import HabiCore.ConcurrentSaves
import HabiCore.MissedRevocations
import HabiCore.OpenPrograms
import HabiCore.ThreadEffects
import HabiCore.SoleThreads
import HabiCore.ConversionDayOutcomes
import HabiCore.FailedLinkUps
import HabiCore.BurnBroadcasts
import HabiCore.EncodedMessages
import HabiCore.NodeContents
import HabiCore.ExtinctBearers
import HabiCore.SocketLines
import HabiCore.TextDeployment
import HabiCore.FairBehaviours
import HabiCore.PolicyGateProgress
import HabiCore.PeersFile
import HabiCore.AdminClient
import HabiCore.SystemRestarts
import HabiCore.RestartedDeployments
import HabiCore.RestartedText
import HabiCore.PossibleRuns
import HabiCore.QuorumSettlement
import HabiCore.BarrierProgress
import HabiCore.NetworkSettlement
import HabiCore.Gossip
import HabiCore.PropagationConvergence
import HabiCore.WrittenRuns
import HabiCore.ObservedText
import HabiCore.PrefixCodes
import HabiCore.DebugText
import HabiCore.Journals
import HabiCore.AuditTrail
import HabiCore.HabiSafety
import HabiCore.SafeReconnects
