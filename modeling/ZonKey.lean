import ZonKey.RecoveryCodec
import ZonKey.KeyedQueue
import ZonKey.Runs
import ZonKey.RecoveryCodecCanonical
import ZonKey.RecoveryCodecCorruption
import ZonKey.PipeRecoveryCommands
import ZonKey.PipeRecoverySafety
import ZonKey.PipeDialogue
import ZonKey.PipeWire
import ZonKey.PipeClientDecoder
import ZonKey.RecoveryRegistryBinding
import ZonKey.RecoveryRegistryFailures
import ZonKey.RecoveryRegistryListing
import ZonKey.RecoveryRestart
import ZonKey.RecoveryStoreBound
import ZonKey.RecoveryStoreCrash
import ZonKey.RecoveryStorePreflight
import ZonKey.RecoveryStorePromotion
import ZonKey.NativeBridge
import ZonKey.PipeClientCalls
import ZonKey.TelexEngine
import ZonKey.TelexLetters
import ZonKey.HandoffPayload
import ZonKey.BoundaryValidation
import ZonKey.TypedWords
import ZonKey.HostCapture
import ZonKey.HostOverlap
import ZonKey.HostRetry
import ZonKey.CanonicalJson
import ZonKey.ShortcutFlags
import ZonKey.CompositionGate
import ZonKey.DiscoveryLifecycle
import ZonKey.GateRecovery
import ZonKey.JsonWire
import ZonKey.RealBinding
import ZonKey.ProbeCommand
import ZonKey.OperatorHandoff
import ZonKey.OperatorChecks
import ZonKey.WordBuffer
import ZonKey.HeardKeys
import ZonKey.LiveEndpoint
import ZonKey.ValidationEndpoint
import ZonKey.DurableReplace
import ZonKey.SharedStores
import ZonKey.RecoveryCli
import ZonKey.EditorConnection
import ZonKey.Workplace
