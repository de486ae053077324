import Rsctf.Jeopardy.Board

/-!
# Standings, timelines and columns

The cells of the pass over the solves become the rows of the standings, ranked by
score and then by the earlier last scoring solve.  The columns carry the current
worth, the solve count and the bloods of every challenge.
-/

namespace Rsctf

namespace Jeopardy

structure ScoreboardItem where
  id : ℤ
  name : String
  bio : Option String
  divisionId : Option ℤ
  avatar : Option String
  score : ℤ
  rank : ℤ
  divisionRank : Option ℤ
  lastSubmissionTime : ℤ
  solvedChallenges : List ChallengeItem
  solvedCount : ℕ
  deriving DecidableEq

structure ChallengeInfo where
  id : ℤ
  title : String
  category : ChallengeCategory
  challengeType : ChallengeType
  score : ℤ
  solved : ℤ
  deadline : Option ℤ
  bloods : List Blood
  disableBloodBonus : Bool
  deriving DecidableEq

structure TimelineSeries where
  id : ℤ
  name : String
  items : List (ℤ × ℤ)
  deriving DecidableEq

structure TimeLine where
  divisionId : ℤ
  teams : List TimelineSeries
  deriving DecidableEq

structure ScoreboardModel where
  updateTime : ℤ
  bloodBonus : ℤ
  timelines : List TimeLine
  items : List ScoreboardItem
  divisions : List (ℤ × String)
  challenges : List (String × List ChallengeInfo)
  challengeCount : ℤ
  freeze : Option ℤ
  isFrozenView : Bool
  deriving DecidableEq

/-- The column of a challenge before the solves are folded in. -/
def challengeInfo (c : Challenge) : ChallengeInfo where
  id := c.id
  title := c.title
  category := c.category
  challengeType := c.challengeType
  score := c.originalScore
  solved := c.acceptedCount
  deadline := c.deadline
  bloods := []
  disableBloodBonus := c.disableBloodBonus

/-- The columns by the wire name of their category, in the order of these names. -/
def buildChallengesMap (challenges : List Challenge) : List (String × List ChallengeInfo) :=
  (Keyed.sortedKeys (challenges.map fun c => c.category.wire)).map fun key =>
    (key, (Keyed.rows (fun c : Challenge => c.category.wire) key challenges).map challengeInfo)

/-- Fold worth, solve count and bloods into a column. -/
def backfill (score : ℤ → Option ℤ) (accepted : ℤ → ℤ) (bloods : ℤ → List Blood)
    (info : ChallengeInfo) : ChallengeInfo :=
  { info with
    score := (score info.id).getD info.score
    solved := accepted info.id
    bloods := bloods info.id }

/-- The least time of the calendar, -262143-01-01. -/
def minUtc : ℤ := -8334601228800000000

variable (t : GameTables)

/-- The unranked row of a participation. -/
def scoreboardItem (look : BoardLookup) (a : Assignment) (p : Participation) :
    ScoreboardItem where
  id := p.teamId
  name := look.teamName p.teamId
  bio := none
  divisionId := p.divisionId
  avatar := look.teamAvatar p.teamId
  score := ((a.perPartItems p.id).map ChallengeItem.score).sum
  rank := 0
  divisionRank := none
  lastSubmissionTime := (a.lastSolve p.id).getD minUtc
  solvedChallenges := a.perPartItems p.id
  solvedCount := (a.perPartItems p.id).length

/-- Score first, then the earlier last solve, then the team. -/
def ScoreboardItem.sortKey (item : ScoreboardItem) : ℤ ×ₗ ℤ ×ₗ ℤ :=
  toLex (-item.score, toLex (item.lastSubmissionTime, item.id))

def sortItems (items : List ScoreboardItem) : List ScoreboardItem :=
  items.insertionSort fun a b => a.sortKey ≤ b.sortKey

def mayRankOverall (divisionId : Option ℤ) : Bool :=
  match divisionId with
  | none => true
  | some id => (defaultPerms t id).any fun p => p.contains GamePermission.rankOverall

/-- Number the sorted rows, overall and within their divisions. -/
def rankItems (overallCount : ℤ) (divisionCounts : ℤ → ℤ) :
    List ScoreboardItem → List ScoreboardItem
  | [] => []
  | item :: items =>
      let ranked := mayRankOverall t item.divisionId
      let overall := if ranked then overallCount + 1 else overallCount
      let rank := if ranked then overall else item.rank
      match item.divisionId.filter fun id => (defaultPerms t id).isSome with
      | some id =>
          { item with rank := rank, divisionRank := some (divisionCounts id + 1) } ::
            rankItems overall (Function.update divisionCounts id (divisionCounts id + 1)) items
      | none => { item with rank := rank } :: rankItems overall divisionCounts items

/-- The running total of a team after each of its cells. -/
def runningScores (acc : ℤ) : List ChallengeItem → List (ℤ × ℤ)
  | [] => []
  | c :: cs => (c.time / 1000, acc + c.score) :: runningScores (acc + c.score) cs

def buildTimelineSeries (item : ScoreboardItem) : TimelineSeries where
  id := item.id
  name := item.name
  items := runningScores 0 item.solvedChallenges

/-- Whether a row is among the first ten of a division. -/
def inDivisionTop (divisionId : ℤ) (item : ScoreboardItem) : Bool :=
  item.divisionId == some divisionId && item.divisionRank.any (· ≤ 10)

/-- The series of the first ten teams, overall and of every division. -/
def buildTimelines (ranked : List ScoreboardItem) : List TimeLine :=
  let overall := (ranked.filter fun item => 1 ≤ item.rank ∧ item.rank ≤ 10).map buildTimelineSeries
  let top := ranked.filter fun item => item.divisionRank.any (· ≤ 10)
  let byDiv := (Keyed.sortedKeys (top.filterMap ScoreboardItem.divisionId)).map fun id =>
    { divisionId := id, teams := (ranked.filter (inDivisionTop id)).map buildTimelineSeries }
  { divisionId := 0, teams := overall } :: byDiv

/-- What the pass over the visible solves of a board looks up. -/
def boardLookup (libm : Libm) (roster : Roster) (subs : List SolveRow)
    (solves : List EligibleSolve) : BoardLookup where
  score id := (currentScore t libm solves id).getD 0
  disableBlood id := ((metaOf t id).map Challenge.disableBloodBonus).getD false
  bonus := t.game.bloodBonusValue
  userName :=
    userName (userNameMap t ((solvedByParticipation subs).filterMap SolveRow.userId))
  partTeam id := (Keyed.get Participation.id id roster.parts).map Participation.teamId
  teamName id :=
    ((Keyed.get Prod.fst id (teamNameMap t (roster.parts.map Participation.teamId))).map
      Prod.snd).getD ""
  teamAvatar id :=
    ((Keyed.get Prod.fst id (teamAvatarMap t (roster.parts.map Participation.teamId))).map
      Prod.snd).getD none

/-- The board of the visible solves. -/
def boardOf (libm : Libm) (roster : Roster) (subs : List SolveRow) (solves : List EligibleSolve)
    (updateTime : ℤ) (isFrozenView : Bool) : ScoreboardModel :=
  let look := boardLookup t libm roster subs solves
  let a := assignSolves look (sortSolves solves)
  let ranked := rankItems t 0 (fun _ => 0) (sortItems (roster.parts.map (scoreboardItem look a)))
  { updateTime := updateTime
    bloodBonus := t.game.bloodBonusValue
    timelines := buildTimelines ranked
    items := ranked
    divisions := t.divisions.map fun d => (d.id, d.name)
    challenges := (buildChallengesMap t.challenges).map fun column =>
      (column.1, column.2.map
        (backfill (currentScore t libm solves) (acceptedCount solves) a.challengeBloods))
    challengeCount := t.challenges.length
    freeze := t.game.freezeTime
    isFrozenView := isFrozenView }

/-- The scoreboard at a moment, from the rows of the scoreboard query. -/
def scoreboardFromRows (libm : Libm) (hash : HashOrder SolveRow) (roster : Roster)
    (subs : List SolveRow) (now updateTime : ℤ) (isMonitor : Bool) : ScoreboardModel :=
  let cutoff := scoreboardCutoff t now isMonitor
  boardOf t libm roster subs (solveList t hash cutoff roster.parts subs) updateTime cutoff.isSome

/-- Compute the scoreboard at a moment, for a monitor or for the public. -/
def buildScoreboard (libm : Libm) (hash : HashOrder SolveRow) (roster : Roster) (s : SolveTables)
    (now updateTime : ℤ) (isMonitor : Bool) : ScoreboardModel :=
  scoreboardFromRows t libm hash roster (firstSolveRows t s) now updateTime isMonitor

end Jeopardy

end Rsctf
