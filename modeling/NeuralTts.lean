import NeuralTts.Library.Transition
import NeuralTts.Library.FifoLock
import NeuralTts.Library.FirstClaim
import NeuralTts.Daemon.VoiceIndex
import NeuralTts.Daemon.VoiceIndexHistory
import NeuralTts.Daemon.ProviderProcess
import NeuralTts.Daemon.ExchangeOrder
import NeuralTts.Provider.HandleSynthesize
import NeuralTts.Daemon.Residue
import NeuralTts.Daemon.Curation
import NeuralTts.Daemon.Teardown
import NeuralTts.Daemon.Supervisor
import NeuralTts.Daemon.Lifecycle
import NeuralTts.Daemon.OneChild
import NeuralTts.Daemon.Undisturbed
import NeuralTts.Daemon.Aim
import NeuralTts.Daemon.Routing
import NeuralTts.Daemon.Enumeration
import NeuralTts.Clients.SynthSegment
import NeuralTts.Clients.SplitSegments
import NeuralTts.Daemon.Resample
import NeuralTts.Daemon.Proxy
import NeuralTts.Daemon.Rendering
import NeuralTts.Speechd.Module
import NeuralTts.Speechd.VoiceNames
import NeuralTts.Daemon.EnumerationRun
import NeuralTts.Provider.Framing
import NeuralTts.Qwen3.Bridge
import NeuralTts.Qwen3.Playback
import NeuralTts.Qwen3.Chunker
import NeuralTts.Speechd.Advertised
import NeuralTts.Provider.Chunker
import NeuralTts.Provider.ChunkCuts
import NeuralTts.Daemon.EagerStartup
import NeuralTts.Daemon.Outage
import NeuralTts.Daemon.PcmRate
import NeuralTts.Daemon.Allowlist
import NeuralTts.Cloning.VoiceScan
import NeuralTts.Cloning.VoiceRegistry
import NeuralTts.Daemon.Fnmatch
import NeuralTts.Cloning.Globbing
import NeuralTts.Cloning.PromptCache
import NeuralTts.Cloning.StateCache
import NeuralTts.Speechd.Worker
import NeuralTts.Speechd.Dialogue
import NeuralTts.Daemon.CompleteReply
import NeuralTts.Daemon.RefusedTarget
import NeuralTts.Daemon.Actors
import NeuralTts.Daemon.FinalShutdown
import NeuralTts.Daemon.OneEnumeration
import NeuralTts.MossTtsNano.StreamingChunk
import NeuralTts.Library.File
import NeuralTts.Clients.WavSink
import NeuralTts.Clients.CmdSay
import NeuralTts.Library.PyLines
import NeuralTts.Scripts.Install
import NeuralTts.Qwen3.Request
import NeuralTts.Cloning.CacheSweep
import NeuralTts.Scripts.Uninstall
import NeuralTts.Provider.Serve
import NeuralTts.Library.Handoff
import NeuralTts.Provider.Streams
import NeuralTts.Clients.EndToEnd
import NeuralTts.Speechd.Ssml
import NeuralTts.Speechd.Session
import NeuralTts.Library.LockLine
import NeuralTts.Daemon.Fairness
import NeuralTts.Library.Simulation
import NeuralTts.Speechd.Utterances
import NeuralTts.Speechd.EndToEnd
import NeuralTts.Scripts.DownloadModels
import NeuralTts.Library.Json
import NeuralTts.Daemon.Control
import NeuralTts.Clients.VoiceChoice
import NeuralTts.Daemon.Configuration
