import Mathlib.Data.Prod.Lex
import Mathlib.Data.String.Basic
import Rsctf.Data.Keyed
import Rsctf.Jeopardy.Scoring

/-!
# The Jeopardy scoreboard

The board is folded from the first solves of the accepted participations.  The
permissions of the division of a team decide for every solve whether it scores,
whether it decays the challenge and whether it may be a blood; the solves are then
listed in time order, the first three eligible ones of a challenge are its bloods,
and the teams are ranked by the sum of their cells.  During the freeze the public
board leaves out every solve from the freeze on.

Times are in microseconds.  A hash map hands out its entries in an order of its own,
which is a parameter here.
-/

namespace Rsctf

namespace Jeopardy

/-- Permission bits of a division. -/
abbrev GamePermission := BitVec 32

namespace GamePermission

def rankOverall : GamePermission := 1#32 <<< 1

def getScore : GamePermission := 1#32 <<< 10

def getBlood : GamePermission := 1#32 <<< 11

def affectDynamicScore : GamePermission := 1#32 <<< 12

def all : GamePermission := 0x7fffffff#32

def contains (p flag : GamePermission) : Bool := p &&& flag == flag

end GamePermission

/-- The kind of a challenge. -/
inductive ChallengeType where
  | staticAttachment
  | staticContainer
  | dynamicAttachment
  | dynamicContainer
  | attackDefense
  | kingOfTheHill
  deriving DecidableEq

/-- The challenges an engine scores live. -/
def ChallengeType.isEngine (type : ChallengeType) : Bool :=
  type == .attackDefense || type == .kingOfTheHill

/-- The category of a challenge. -/
inductive ChallengeCategory where
  | misc
  | crypto
  | pwn
  | web
  | reverse
  | blockchain
  | forensics
  | hardware
  | mobile
  | ppc
  | ai
  | pentest
  | osint
  deriving DecidableEq

/-- The wire name of a category, by which the columns of the board are keyed. -/
def ChallengeCategory.wire : ChallengeCategory → String
  | .misc => "Misc"
  | .crypto => "Crypto"
  | .pwn => "Pwn"
  | .web => "Web"
  | .reverse => "Reverse"
  | .blockchain => "Blockchain"
  | .forensics => "Forensics"
  | .hardware => "Hardware"
  | .mobile => "Mobile"
  | .ppc => "PPC"
  | .ai => "AI"
  | .pentest => "Pentest"
  | .osint => "OSINT"

structure Game where
  id : ℤ
  startTime : ℤ
  endTime : ℤ
  freezeTime : Option ℤ
  bloodBonusValue : ℤ

structure Challenge where
  id : ℤ
  title : String
  category : ChallengeCategory
  challengeType : ChallengeType
  originalScore : ℤ
  minScoreRate : Double
  difficulty : Double
  scoreCurve : ScoreCurve
  acceptedCount : ℤ
  deadline : Option ℤ
  disableBloodBonus : Bool

structure Division where
  id : ℤ
  name : String
  defaultPermissions : GamePermission

/-- The permissions of a division on one challenge, in place of its default. -/
structure DivisionChallengeConfig where
  divisionId : ℤ
  challengeId : ℤ
  permissions : GamePermission

structure Team where
  id : ℤ
  name : String
  avatar : Option String

structure User where
  id : ℕ
  userName : Option String

structure Participation where
  id : ℤ
  teamId : ℤ
  divisionId : Option ℤ

structure FirstSolve where
  participationId : ℤ
  challengeId : ℤ
  submissionId : ℤ

structure Submission where
  id : ℤ
  gameId : ℤ
  participationId : ℤ
  challengeId : ℤ
  accepted : Bool
  submitTime : ℤ
  userId : Option ℕ

/-- What the board reads about a game besides its teams and their solves: its
enabled and approved challenges in column order, its divisions, and the names. -/
structure GameTables where
  game : Game
  challenges : List Challenge
  divisions : List Division
  configs : List DivisionChallengeConfig
  teams : List Team
  users : List User
  challengeKey : (challenges.map Challenge.id).Nodup
  divisionKey : (divisions.map Division.id).Nodup
  configKey : (configs.map fun c => (c.divisionId, c.challengeId)).Nodup

/-- The accepted participations of the game.  A team joins a game once: the join
looks for the participation of the team before it inserts one. -/
structure Roster where
  parts : List Participation
  partKey : (parts.map Participation.id).Nodup
  teamKey : (parts.map Participation.teamId).Nodup

/-- The solves: one first solve for a participation and a challenge. -/
structure SolveTables where
  firstSolves : List FirstSolve
  submissions : List Submission
  firstSolveKey : (firstSolves.map fun s => (s.participationId, s.challengeId)).Nodup
  submissionKey : (submissions.map Submission.id).Nodup

/-- The order in which a hash map hands out its entries. -/
structure HashOrder (α : Type) where
  order : List α → List α
  perm : ∀ l, (order l).Perm l

/-- A row of the scoreboard query. -/
structure SolveRow where
  participationId : ℤ
  challengeId : ℤ
  submitTime : ℤ
  userId : Option ℕ
  deriving DecidableEq

def SolveRow.key (row : SolveRow) : ℤ × ℤ := (row.participationId, row.challengeId)

variable (t : GameTables)

/-- The scoring metadata of a challenge on the board. -/
def metaOf (challengeId : ℤ) : Option Challenge :=
  Keyed.get Challenge.id challengeId t.challenges

/-- The row of the scoreboard query for a first solve and its submission. -/
def solveRow (solve : FirstSolve) (submission : Submission) : Option SolveRow :=
  if submission.id = solve.submissionId ∧ submission.participationId = solve.participationId ∧
      submission.challengeId = solve.challengeId ∧ submission.gameId = t.game.id ∧
      t.game.startTime ≤ submission.submitTime ∧ submission.submitTime < t.game.endTime ∧
      submission.challengeId ∈ t.challenges.map Challenge.id ∧ submission.accepted = true then
    some
      { participationId := submission.participationId
        challengeId := submission.challengeId
        submitTime := submission.submitTime
        userId := submission.userId }
  else none

/-- The scoreboard query: the first solves joined with their submissions, inside
the official window and on the challenges of the board. -/
def firstSolveRows (s : SolveTables) : List SolveRow :=
  s.firstSolves.flatMap fun solve => s.submissions.filterMap (solveRow t solve)

/-- Collect a row: the earliest one of a participation and a challenge is kept. -/
def recordSolve (solved : List SolveRow) (row : SolveRow) : List SolveRow :=
  if ∃ kept ∈ solved, kept.key = row.key then
    solved.map fun kept =>
      if kept.key = row.key ∧ row.submitTime < kept.submitTime then row else kept
  else solved ++ [row]

def solvedByParticipation (subs : List SolveRow) : List SolveRow :=
  subs.foldl recordSolve []

/-- The names of some users. -/
def userNameMap (ids : List ℕ) : List (ℕ × String) :=
  (t.users.filter fun user => user.id ∈ ids).map fun user => (user.id, user.userName.getD "")

def userName (names : List (ℕ × String)) (userId : Option ℕ) : Option String :=
  userId.bind fun id => (Keyed.get Prod.fst id names).map Prod.snd

/-- The names of some teams. -/
def teamNameMap (ids : List ℤ) : List (ℤ × String) :=
  (t.teams.filter fun team => team.id ∈ ids).map fun team => (team.id, team.name)

/-- The avatars of some teams. -/
def teamAvatarMap (ids : List ℤ) : List (ℤ × Option String) :=
  (t.teams.filter fun team => team.id ∈ ids).map fun team => (team.id, team.avatar)

def defaultPerms (divisionId : ℤ) : Option GamePermission :=
  (Keyed.get Division.id divisionId t.divisions).map Division.defaultPermissions

def divChallengePerms (divisionId challengeId : ℤ) : Option GamePermission :=
  (Keyed.get (fun c => (c.divisionId, c.challengeId)) (divisionId, challengeId)
    (t.configs.filter fun c => c.divisionId ∈ t.divisions.map Division.id)).map
      DivisionChallengeConfig.permissions

/-- The permissions of a participation on a challenge.  A division that does not
exist grants nothing. -/
def permOf (divisionId : Option ℤ) (challengeId : ℤ) : GamePermission :=
  match divisionId with
  | none => GamePermission.all
  | some divisionId =>
      match divChallengePerms t divisionId challengeId with
      | some p => p
      | none =>
          match defaultPerms t divisionId with
          | some p => p
          | none => 0

/-- Whether the public board hides what happened after the freeze. -/
def publicScoreboardFrozen (freeze : Option ℤ) (finish now : ℤ) (isMonitor : Bool) : Bool :=
  !isMonitor && freeze.any fun freeze => freeze ≤ now ∧ now < finish

def scoreboardCutoff (now : ℤ) (isMonitor : Bool) : Option ℤ :=
  if publicScoreboardFrozen t.game.freezeTime t.game.endTime now isMonitor then
    t.game.freezeTime
  else none

/-- A solve with what the permissions of its team let it do. -/
structure EligibleSolve where
  time : ℤ
  participationId : ℤ
  challengeId : ℤ
  scoreEligible : Bool
  bloodEligible : Bool
  affectDynamic : Bool
  userId : Option ℕ

/-- What a collected solve of a participation counts for; a solve from the cutoff
on is invisible. -/
def eligibleSolve (cutoff : Option ℤ) (p : Participation) (row : SolveRow) :
    Option EligibleSolve :=
  match metaOf t row.challengeId with
  | none => none
  | some challenge =>
      if cutoff.any (· ≤ row.submitTime) then none
      else
        let withinWindow : Bool :=
          t.game.startTime ≤ row.submitTime ∧ row.submitTime < t.game.endTime
        let withinDeadline : Bool := challenge.deadline.all (row.submitTime ≤ ·)
        let withinValid := withinWindow && withinDeadline
        let perm := permOf t p.divisionId row.challengeId
        some
          { time := row.submitTime
            participationId := p.id
            challengeId := row.challengeId
            scoreEligible := withinValid && perm.contains GamePermission.getScore
            bloodEligible := withinValid && perm.contains GamePermission.getBlood
            affectDynamic := withinValid && perm.contains GamePermission.affectDynamicScore
            userId := row.userId }

/-- The visible solves, as the loop over participations and their maps meets them. -/
def solveList (hash : HashOrder SolveRow) (cutoff : Option ℤ) (parts : List Participation)
    (subs : List SolveRow) : List EligibleSolve :=
  parts.flatMap fun p =>
    (hash.order (Keyed.rows SolveRow.participationId p.id (solvedByParticipation subs))).filterMap
      (eligibleSolve t cutoff p)

/-- The solves that decay a challenge. -/
def acceptedCount (solves : List EligibleSolve) (challengeId : ℤ) : ℤ :=
  (solves.filter fun s => s.affectDynamic && s.challengeId == challengeId).length

/-- The current worth of a challenge; an engine scores its own ones. -/
def challengeScore (libm : Libm) (solves : List EligibleSolve) (c : Challenge) : ℤ :=
  if c.challengeType.isEngine then 0
  else
    calculateChallengeScore libm c.originalScore c.minScoreRate c.difficulty
      (acceptedCount solves c.id) c.scoreCurve

def currentScore (libm : Libm) (solves : List EligibleSolve) (challengeId : ℤ) : Option ℤ :=
  (metaOf t challengeId).map (challengeScore libm solves)

/-- Submission time, then participation, then challenge. -/
def EligibleSolve.sortKey (s : EligibleSolve) : ℤ ×ₗ ℤ ×ₗ ℤ :=
  toLex (s.time, toLex (s.participationId, s.challengeId))

def sortSolves (solves : List EligibleSolve) : List EligibleSolve :=
  solves.insertionSort fun a b => a.sortKey ≤ b.sortKey

structure ChallengeItem where
  id : ℤ
  score : ℤ
  submissionType : SubmissionType
  userName : Option String
  time : ℤ
  deriving DecidableEq

structure Blood where
  id : ℤ
  name : String
  avatar : Option String
  submitTime : ℤ
  deriving DecidableEq

/-- What the pass over the sorted solves builds up. -/
structure Assignment where
  perPartItems : ℤ → List ChallengeItem
  lastSolve : ℤ → Option ℤ
  bloodCount : ℤ → ℕ
  challengeBloods : ℤ → List Blood

def Assignment.empty : Assignment where
  perPartItems _ := []
  lastSolve _ := none
  bloodCount _ := 0
  challengeBloods _ := []

/-- The blood of a slot. -/
def bloodTier : ℕ → SubmissionType
  | 0 => .firstBlood
  | 1 => .secondBlood
  | _ => .thirdBlood

/-- A solve competes for a blood only when it scores. -/
def EligibleSolve.earnsBlood (s : EligibleSolve) : Bool := s.bloodEligible && s.scoreEligible

/-- What the pass looks up: the worth of the challenges and the names. -/
structure BoardLookup where
  score : ℤ → ℤ
  disableBlood : ℤ → Bool
  bonus : ℤ
  userName : Option ℕ → Option String
  partTeam : ℤ → Option ℤ
  teamName : ℤ → String
  teamAvatar : ℤ → Option String

def BoardLookup.blood (look : BoardLookup) (s : EligibleSolve) (teamId : ℤ) : Blood where
  id := teamId
  name := look.teamName teamId
  avatar := look.teamAvatar teamId
  submitTime := s.time

/-- The cell of a solve that is listed as the given type. -/
def BoardLookup.cell (look : BoardLookup) (s : EligibleSolve) (subType : SubmissionType) :
    ChallengeItem where
  id := s.challengeId
  score :=
    if s.scoreEligible then
      solveContribution (look.score s.challengeId) look.bonus subType
        (look.disableBlood s.challengeId)
    else 0
  submissionType := subType
  userName := look.userName s.userId
  time := s.time

/-- One solve of the pass, in submission order. -/
def assignSolve (look : BoardLookup) (a : Assignment) (s : EligibleSolve) : Assignment :=
  let count := a.bloodCount s.challengeId
  let claims : Bool := s.earnsBlood && decide (count < 3)
  let subType := if claims then bloodTier count else .normal
  { perPartItems := Function.update a.perPartItems s.participationId
      (a.perPartItems s.participationId ++ [look.cell s subType])
    lastSolve :=
      if s.scoreEligible then Function.update a.lastSolve s.participationId (some s.time)
      else a.lastSolve
    bloodCount :=
      if claims then Function.update a.bloodCount s.challengeId (count + 1) else a.bloodCount
    challengeBloods :=
      if claims then
        Function.update a.challengeBloods s.challengeId
          (a.challengeBloods s.challengeId ++
            ((look.partTeam s.participationId).map (look.blood s)).toList)
      else a.challengeBloods }

def assignSolves (look : BoardLookup) (solves : List EligibleSolve) : Assignment :=
  solves.foldl (assignSolve look) Assignment.empty

end Jeopardy

end Rsctf
