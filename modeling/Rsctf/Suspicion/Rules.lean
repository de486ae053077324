import Mathlib.Algebra.Order.Ring.Int
import Mathlib.Data.List.Sort

/-!
# The suspicion rules

Every rule has a code, a persisted number, a tier, a cap on its incidents and a default
weight.  The tier says how strongly a rule implicates a team, and how much all its rules
may add together.
-/

namespace Rsctf

namespace Suspicion

/-- The tiers of evidence, from context on. -/
inductive SuspicionTier
  | context
  | behavioral
  | strong
  | hard
deriving DecidableEq, Repr

/-- The rules. -/
inductive SuspicionType
  | stolenFlag
  | sharedIp
  | sharedFingerprint
  | fingerprintChurn
  | ipChurn
  | unknownIp
  | crossTeamIp
  | tokenAbuse
  | hoarding
  | burst
  | noDownload
  | noContainer
  | fastSolveOpen
  | fastSolveDownload
  | fastSolveContainer
  | sequenceSimilarity
  | collusionGroup
  | zeroWrongAttempts
  | wrongFlagLeakage
  | solutionRelay
  | adaptiveFastSolve
  | directedSolving
  | clusteredRegistration
  | subnetOverlap
  | highWrongRate
  | automatedPattern
  | sessionConcurrency
  | firstBloodAnomaly
  | honeypotHit
  | honeypotProtocolHit
  | honeypotCanaryFlag
  | honeypotChain
  | flagEgress
  | crossTeamContainerAccess
  | delayedSolveSubmission
  | instantSubmitAfterAccess
  | submitterNeverAccessedContainer
  | accessIpMismatchAtSubmission
  | agentArtifact
  | aiDeclarationContradiction
deriving DecidableEq, Repr

namespace SuspicionType

def code : SuspicionType → String
  | stolenFlag => "StolenFlag"
  | sharedIp => "SharedIP"
  | sharedFingerprint => "SharedFingerprint"
  | fingerprintChurn => "FingerprintChurn"
  | ipChurn => "IpChurn"
  | unknownIp => "UnknownIP"
  | crossTeamIp => "CrossTeamIP"
  | tokenAbuse => "TokenAbuse"
  | hoarding => "Hoarding"
  | burst => "Burst"
  | noDownload => "NoDownload"
  | noContainer => "NoContainer"
  | fastSolveOpen => "FastSolve-Open"
  | fastSolveDownload => "FastSolve-Download"
  | fastSolveContainer => "FastSolve-Container"
  | sequenceSimilarity => "SequenceSimilarity"
  | collusionGroup => "CollusionGroup"
  | zeroWrongAttempts => "ZeroWrongAttempts"
  | wrongFlagLeakage => "WrongFlagLeakage"
  | solutionRelay => "SolutionRelay"
  | adaptiveFastSolve => "AdaptiveFastSolve"
  | directedSolving => "DirectedSolving"
  | clusteredRegistration => "ClusteredRegistration"
  | subnetOverlap => "SubnetOverlap"
  | highWrongRate => "HighWrongRate"
  | automatedPattern => "AutomatedPattern"
  | sessionConcurrency => "SessionConcurrency"
  | firstBloodAnomaly => "FirstBloodAnomaly"
  | honeypotHit => "HoneypotHit"
  | honeypotProtocolHit => "HoneypotProtocolHit"
  | honeypotCanaryFlag => "HoneypotCanaryFlag"
  | honeypotChain => "HoneypotChain"
  | flagEgress => "FlagEgress"
  | crossTeamContainerAccess => "CrossTeamContainerAccess"
  | delayedSolveSubmission => "DelayedSolveSubmission"
  | instantSubmitAfterAccess => "InstantSubmitAfterAccess"
  | submitterNeverAccessedContainer => "SubmitterNeverAccessedContainer"
  | accessIpMismatchAtSubmission => "AccessIpMismatchAtSubmission"
  | agentArtifact => "AgentArtifact"
  | aiDeclarationContradiction => "AiDeclarationContradiction"

/-- The number of a rule in the ledger. -/
def kind : SuspicionType → ℤ
  | stolenFlag => 0
  | sharedIp => 1
  | sharedFingerprint => 2
  | fingerprintChurn => 3
  | ipChurn => 4
  | unknownIp => 5
  | crossTeamIp => 6
  | tokenAbuse => 7
  | hoarding => 8
  | burst => 9
  | noDownload => 10
  | noContainer => 11
  | fastSolveOpen => 12
  | fastSolveDownload => 13
  | fastSolveContainer => 14
  | sequenceSimilarity => 15
  | collusionGroup => 16
  | zeroWrongAttempts => 17
  | wrongFlagLeakage => 18
  | solutionRelay => 19
  | adaptiveFastSolve => 20
  | directedSolving => 21
  | clusteredRegistration => 22
  | subnetOverlap => 23
  | highWrongRate => 24
  | automatedPattern => 25
  | sessionConcurrency => 26
  | firstBloodAnomaly => 27
  | honeypotHit => 28
  | honeypotProtocolHit => 29
  | honeypotCanaryFlag => 30
  | honeypotChain => 31
  | flagEgress => 32
  | crossTeamContainerAccess => 33
  | delayedSolveSubmission => 34
  | instantSubmitAfterAccess => 35
  | submitterNeverAccessedContainer => 36
  | accessIpMismatchAtSubmission => 37
  | agentArtifact => 38
  | aiDeclarationContradiction => 39

def fromKind (kind : ℤ) : Option SuspicionType :=
  match kind with
  | 0 => some stolenFlag
  | 1 => some sharedIp
  | 2 => some sharedFingerprint
  | 3 => some fingerprintChurn
  | 4 => some ipChurn
  | 5 => some unknownIp
  | 6 => some crossTeamIp
  | 7 => some tokenAbuse
  | 8 => some hoarding
  | 9 => some burst
  | 10 => some noDownload
  | 11 => some noContainer
  | 12 => some fastSolveOpen
  | 13 => some fastSolveDownload
  | 14 => some fastSolveContainer
  | 15 => some sequenceSimilarity
  | 16 => some collusionGroup
  | 17 => some zeroWrongAttempts
  | 18 => some wrongFlagLeakage
  | 19 => some solutionRelay
  | 20 => some adaptiveFastSolve
  | 21 => some directedSolving
  | 22 => some clusteredRegistration
  | 23 => some subnetOverlap
  | 24 => some highWrongRate
  | 25 => some automatedPattern
  | 26 => some sessionConcurrency
  | 27 => some firstBloodAnomaly
  | 28 => some honeypotHit
  | 29 => some honeypotProtocolHit
  | 30 => some honeypotCanaryFlag
  | 31 => some honeypotChain
  | 32 => some flagEgress
  | 33 => some crossTeamContainerAccess
  | 34 => some delayedSolveSubmission
  | 35 => some instantSubmitAfterAccess
  | 36 => some submitterNeverAccessedContainer
  | 37 => some accessIpMismatchAtSubmission
  | 38 => some agentArtifact
  | 39 => some aiDeclarationContradiction
  | _ => none

/-- The tier of a rule. -/
def tier : SuspicionType → SuspicionTier
  | stolenFlag | crossTeamContainerAccess | wrongFlagLeakage | tokenAbuse
  | honeypotCanaryFlag => .hard
  | automatedPattern | highWrongRate | solutionRelay | aiDeclarationContradiction => .strong
  | sharedIp | crossTeamIp | unknownIp | ipChurn | subnetOverlap | sessionConcurrency
  | fastSolveOpen | fastSolveDownload | fastSolveContainer | directedSolving
  | clusteredRegistration | honeypotHit | honeypotProtocolHit | honeypotChain
  | fingerprintChurn | sharedFingerprint | accessIpMismatchAtSubmission | flagEgress
  | noDownload | noContainer | submitterNeverAccessedContainer => .context
  | _ => .behavioral

/-- How many incidents of a rule may count. -/
def maxIncidents : SuspicionType → ℕ
  | stolenFlag | crossTeamContainerAccess | wrongFlagLeakage => 10
  | tokenAbuse => 5
  | honeypotCanaryFlag => 3
  | automatedPattern | highWrongRate => 3
  | solutionRelay => 2
  | honeypotChain => 1
  | honeypotProtocolHit => 3
  | fastSolveOpen | fastSolveDownload | fastSolveContainer => 3
  | zeroWrongAttempts | burst | hoarding | sequenceSimilarity => 3
  | collusionGroup => 1
  | adaptiveFastSolve => 3
  | directedSolving => 1
  | firstBloodAnomaly => 4
  | delayedSolveSubmission => 5
  | instantSubmitAfterAccess => 3
  | submitterNeverAccessedContainer => 3
  | honeypotHit => 5
  | noDownload | noContainer => 3
  | agentArtifact | aiDeclarationContradiction => 3
  | _ => 3

/-- What a rule of context adds to hard evidence. -/
def corroborationUnit : SuspicionType → ℤ
  | noDownload | noContainer | fastSolveOpen | fastSolveDownload | fastSolveContainer
  | directedSolving | clusteredRegistration | honeypotHit | honeypotProtocolHit
  | honeypotChain | flagEgress | submitterNeverAccessedContainer => 0
  | sharedFingerprint => 20
  | crossTeamIp => 10
  | sessionConcurrency => 10
  | _ => 5

end SuspicionType

/-- The greatest value of `i64`. -/
def i64Max : ℤ := 9223372036854775807

/-- What the rules of a tier may add together. -/
def tierCeiling : SuspicionTier → ℤ
  | .strong => 60
  | .behavioral => 25
  | .context => 0
  | .hard => i64Max

/-- The rules with their default weights and descriptions. -/
def defaults : List (SuspicionType × ℤ × String) :=
  [(.stolenFlag, 100, "Flag stolen from another team"),
   (.sharedIp, 10, "Multiple team members using same IP"),
   (.sharedFingerprint, 60, "Multiple users with same browser fingerprint"),
   (.fingerprintChurn, 30, "Single user using many different browser fingerprints"),
   (.ipChurn, 20, "Single user using many different IP addresses"),
   (.unknownIp, 10, "Using IP not seen in game before"),
   (.crossTeamIp, 20, "IP used by members from multiple teams"),
   (.tokenAbuse, 80, "Multiple people using same submission token"),
   (.hoarding, 30, "Solved challenge long after container destroy"),
   (.burst, 30, "Multiple challenges solved in a very short time"),
   (.noDownload, 80, "Solved without downloading attachment"),
   (.noContainer, 80, "Solved without starting container"),
   (.fastSolveOpen, 50, "Solved very quickly after opening challenge"),
   (.fastSolveDownload, 50, "Solved very quickly after downloading attachment"),
   (.fastSolveContainer, 50, "Solved very quickly after starting container"),
   (.sequenceSimilarity, 40, "High similarity in solve order and timing"),
   (.collusionGroup, 10, "Member of a detected collusion group"),
   (.zeroWrongAttempts, 50,
      "Solved dynamic challenge on first attempt with no wrong submissions"),
   (.wrongFlagLeakage, 80, "Submitted another team's valid dynamic flag as a wrong answer"),
   (.solutionRelay, 60,
      "Consistently solves challenges shortly after another team with constant lag"),
   (.adaptiveFastSolve, 60, "Solved far faster than the community median solve time"),
   (.directedSolving, 30, "Only opened challenges they solved — no exploratory browsing"),
   (.clusteredRegistration, 40,
      "Multiple team accounts registered from the same IP within 48h"),
   (.subnetOverlap, 5, "Teams share the same /24 subnet"),
   (.highWrongRate, 40, "Burst of wrong flag submissions — possible brute force"),
   (.automatedPattern, 50, "Machine-speed flag submission intervals — likely scripted"),
   (.sessionConcurrency, 30,
      "Same user account active from two different IPs within 10 minutes"),
   (.firstBloodAnomaly, 20,
      "First blood on a hard challenge not solved by others for 2+ hours"),
   (.honeypotHit, 70, "Hit a platform honeypot HTTP route — automated reconnaissance"),
   (.honeypotProtocolHit, 90,
      "Connected to a platform honeypot protocol service (SSH, Redis, etc.) — broad infra scan"),
   (.honeypotCanaryFlag, 100,
      "Submitted a canary flag exposed only via honeypot — automated scrape pipeline"),
   (.honeypotChain, 150,
     "Followed multiple cross-referenced honeypot baits — automated link-following scanner or agent"),
   (.flagEgress, 80,
      "Team flag observed in proxied container traffic — exfil pipeline or automated solver"),
   (.crossTeamContainerAccess, 120,
      "A non-admin user from a different team opened the proxy WebSocket on this team's container"),
   (.delayedSolveSubmission, 40,
      "Submitter personally opened the container long before they submitted the flag"),
   (.instantSubmitAfterAccess, 50,
     "Submission within seconds of the submitter's first proxy access — automated solver pipeline"),
   (.submitterNeverAccessedContainer, 30,
      "Submitter never personally opened the container; a teammate did"),
   (.accessIpMismatchAtSubmission, 30,
      "Submitter's IP at submission time does not match any IP they used to access the container"),
   (.agentArtifact, 40, "Uploaded solver or writeup contains a trace left by AI agent tooling"),
   (.aiDeclarationContradiction, 60,
      "Declared \"No AI used\" for a challenge whose solver upload contains an AI agent trace")]

namespace SuspicionType

def fromCode (code : String) : Option SuspicionType :=
  (defaults.find? fun entry => entry.1.code = code).map (·.1)

def defaultEntry (ty : SuspicionType) : ℤ × String :=
  ((defaults.find? fun entry => entry.1 = ty).map (·.2)).getD (10, "")

theorem fromCode_code (ty : SuspicionType) : fromCode ty.code = some ty := by
  cases ty <;> decide +kernel

theorem fromKind_kind (ty : SuspicionType) : fromKind ty.kind = some ty := by
  cases ty <;> rfl

theorem code_injective : Function.Injective code := by
  intro ty ty' heq
  have hsome : some ty = some ty' := by rw [← fromCode_code, ← fromCode_code, heq]
  exact Option.some.inj hsome

end SuspicionType

/-- The default weight of a rule, by its code. -/
def defaultWeight (ruleCode : String) : ℤ :=
  ((SuspicionType.fromCode ruleCode).map fun ty => ty.defaultEntry.1).getD 10

end Suspicion

end Rsctf
