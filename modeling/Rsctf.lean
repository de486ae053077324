import Rsctf.Data.Fallible
import Rsctf.Data.Keyed
import Rsctf.AttackDefense.SplitInvariance
import Rsctf.AttackDefense.SlaGolden
import Rsctf.AttackDefense.SlaSealing
import Rsctf.AttackDefense.Conservation
import Rsctf.AttackDefense.Normalization
import Rsctf.KingOfTheHill.SplitInvariance
import Rsctf.KingOfTheHill.Claims
import Rsctf.Agent.FlagInstallation
import Rsctf.Engine.RaceRepair
import Rsctf.KingOfTheHill.Normalization
import Rsctf.KingOfTheHill.WaveWindow
import Rsctf.Jeopardy.FrozenBoard
import Rsctf.Jeopardy.Attainable
import Rsctf.Leaderboard.AppliedOnce
import Rsctf.AttackDefense.FrozenEvidence
import Rsctf.AttackDefense.PublicBoard
import Rsctf.AttackDefense.FrozenBoard
import Rsctf.Byoc.EndpointSafety
import Rsctf.Worker.Capacity
import Rsctf.KingOfTheHill.CapabilityFence
import Rsctf.Agent.DeletionFence
import Rsctf.AttackDefense.CaptureMonotone
import Rsctf.Engine.PipelineOwnership
import Rsctf.Worker.InventoryAdoption
import Rsctf.Vpn.CoordinationSafety
import Rsctf.Suspicion.OneScore
import Rsctf.Vpn.Admission
import Rsctf.Vpn.CooldownCoverage
import Rsctf.Vpn.AddressSharing
import Rsctf.Engine.RoundWindows
import Rsctf.Vpn.TransitionQuarantine
import Rsctf.Vpn.CapturePolicy
import Rsctf.Worker.InventoryCollection
import Rsctf.Worker.InventoryRegistry
import Rsctf.Data.Indexed
import Rsctf.Worker.CommandTracker
import Rsctf.Utils.SingleFlight
import Rsctf.Agent.InventoryPages
import Rsctf.Leaderboard.InputDigest
import Rsctf.KingOfTheHill.AdmissionRelease
import Rsctf.Scoring.CombinedRanking
import Rsctf.Suspicion.QuarantineInert
import Rsctf.Utils.FlagGenerator
import Rsctf.Data.Delimited
import Rsctf.Worker.RegistryRepository
import Rsctf.Worker.RepositoryGrammar
import Rsctf.Vpn.PolicyFingerprint
import Rsctf.AttackDefense.RollupSafety
import Rsctf.KingOfTheHill.RollupSafety
import Rsctf.ControlJobs.Passes
import Rsctf.Blobs.Guarantees
import Rsctf.FlagSubmission.Guarantees
import Rsctf.Data.StreamReader
import Rsctf.Worker.ControlAdmission
import Rsctf.Worker.Framing
