import Rsctf.Jeopardy.Scoreboard

/-!
# The board does not see the order of its rows

Neither the order in which the database returns participations and solves nor the
order in which the maps hand out their entries reaches the board: the visible
solves are sorted by keys without repetitions before they are folded, and so are
the rows of the standings.
-/

namespace Rsctf

namespace Jeopardy

variable (t : GameTables)

theorem solveRow_eq_some {solve : FirstSolve} {submission : Submission} {row : SolveRow}
    (h : solveRow t solve submission = some row) :
    submission.id = solve.submissionId ∧
      row.key = (solve.participationId, solve.challengeId) := by
  unfold solveRow at h
  split at h
  case isTrue hjoin =>
    obtain rfl := Option.some.inj h
    exact ⟨hjoin.1, Prod.ext hjoin.2.1 hjoin.2.2.1⟩
  case isFalse => exact absurd h (by simp)

/-- A first solve joins the one submission it names. -/
theorem filterMap_solveRow (s : SolveTables) (solve : FirstSolve) :
    s.submissions.filterMap (solveRow t solve) =
      (Keyed.rows Submission.id solve.submissionId s.submissions).filterMap
        (solveRow t solve) := by
  rw [Keyed.rows, List.filterMap_filter]
  apply List.filterMap_congr
  intro submission _
  split
  case isTrue => rfl
  case isFalse hne =>
    cases hrow : solveRow t solve submission with
    | none => rfl
    | some row => exact absurd (decide_eq_true (solveRow_eq_some t hrow).1) hne

/-- The query returns one row for a participation and a challenge. -/
theorem nodup_firstSolveRows (s : SolveTables) :
    ((firstSolveRows t s).map SolveRow.key).Nodup := by
  apply Keyed.nodup_flatMap_of_tag id _ s.firstSolveKey
  · intro solve _
    rw [filterMap_solveRow]
    rcases Keyed.rows_eq_nil_or_singleton s.submissionKey solve.submissionId with
      hnil | ⟨submission, -, -, hone⟩
    · simp [hnil]
    · cases hrow : solveRow t solve submission <;> simp [hone, hrow]
  · intro solve _ row hrow
    obtain ⟨submission, -, hrow⟩ := List.mem_filterMap.mp hrow
    exact (solveRow_eq_some t hrow).2

/-- A new key is collected at the end. -/
theorem recordSolve_of_fresh {solved : List SolveRow} {row : SolveRow}
    (h : ∀ kept ∈ solved, kept.key ≠ row.key) : recordSolve solved row = solved ++ [row] := by
  apply if_neg
  rintro ⟨kept, hkept, hkey⟩
  exact h kept hkept hkey

/-- Collecting rows without repeated keys keeps them all. -/
theorem solvedByParticipation_eq {subs : List SolveRow}
    (hnd : (subs.map SolveRow.key).Nodup) : solvedByParticipation subs = subs := by
  induction subs using List.reverseRecOn with
  | nil => rfl
  | append_singleton subs row ih =>
      rw [List.map_append, List.nodup_append] at hnd
      have hfresh : ∀ kept ∈ subs, kept.key ≠ row.key := fun kept hkept =>
        hnd.2.2 _ (List.mem_map_of_mem hkept) _ (by simp)
      rw [solvedByParticipation, List.foldl_append, ← solvedByParticipation, ih hnd.1]
      exact recordSolve_of_fresh hfresh

section Visible

variable {hash hash' : HashOrder SolveRow} {cutoff : Option ℤ} {parts parts' : List Participation}
  {subs subs' : List SolveRow}

theorem eligibleSolve_eq_some {p : Participation} {row : SolveRow} {s : EligibleSolve}
    (h : eligibleSolve t cutoff p row = some s) :
    s.time = row.submitTime ∧ s.participationId = p.id ∧ s.challengeId = row.challengeId ∧
      s.userId = row.userId ∧ (metaOf t s.challengeId).isSome := by
  unfold eligibleSolve at h
  split at h
  case h_1 => exact absurd h (by simp)
  case h_2 challenge hmeta =>
    split at h
    case isTrue => exact absurd h (by simp)
    case isFalse =>
      obtain rfl := Option.some.inj h
      exact ⟨rfl, rfl, rfl, rfl, by simp [hmeta]⟩

/-- The visible solves, up to the order of the loops. -/
theorem solveList_perm (hnd : (subs.map SolveRow.key).Nodup) (hparts : parts.Perm parts')
    (hsubs : subs.Perm subs') :
    (solveList t hash cutoff parts subs).Perm (solveList t hash' cutoff parts' subs') := by
  have hnd' : (subs'.map SolveRow.key).Nodup := (hsubs.map _).nodup_iff.mp hnd
  apply hparts.flatMap
  intro p _
  rw [solvedByParticipation_eq hnd, solvedByParticipation_eq hnd']
  apply List.Perm.filterMap
  exact (hash.perm _).trans ((hsubs.filter _).trans (hash'.perm _).symm)

theorem mem_solveList (hnd : (subs.map SolveRow.key).Nodup) {s : EligibleSolve} :
    s ∈ solveList t hash cutoff parts subs ↔
      ∃ p ∈ parts, ∃ row ∈ subs, row.participationId = p.id ∧
        eligibleSolve t cutoff p row = some s := by
  rw [solveList, solvedByParticipation_eq hnd]
  simp only [List.mem_flatMap, List.mem_filterMap, (hash.perm _).mem_iff, Keyed.mem_rows,
    and_assoc]

/-- A participation solves a challenge once. -/
theorem nodup_solveList (hnd : (subs.map SolveRow.key).Nodup)
    (hparts : (parts.map Participation.id).Nodup) :
    ((solveList t hash cutoff parts subs).map fun s => (s.participationId, s.challengeId)).Nodup := by
  rw [solveList, solvedByParticipation_eq hnd]
  apply Keyed.nodup_flatMap_of_tag Prod.fst _ hparts
  · intro p _
    have hperm := hash.perm (Keyed.rows SolveRow.participationId p.id subs)
    have hrows : ((hash.order (Keyed.rows SolveRow.participationId p.id subs)).map
        SolveRow.key).Nodup :=
      ((hperm.map _).nodup_iff).mpr (hnd.sublist (List.filter_sublist.map _))
    have hkey : (hash.order (Keyed.rows SolveRow.participationId p.id subs)).map SolveRow.key =
        (hash.order (Keyed.rows SolveRow.participationId p.id subs)).map
          fun row => (p.id, row.challengeId) := by
      apply List.map_congr_left
      intro row hrow
      exact Prod.ext (Keyed.mem_rows.mp (hperm.mem_iff.mp hrow)).2 rfl
    rw [hkey] at hrows
    apply Keyed.nodup_filterMap hrows
    intro row s hs
    obtain ⟨-, hpart, hchallenge, -⟩ := eligibleSolve_eq_some t hs
    exact Prod.ext hpart hchallenge
  · intro p _ s hs
    obtain ⟨row, -, hrow⟩ := List.mem_filterMap.mp hs
    exact (eligibleSolve_eq_some t hrow).2.1

end Visible

section Sorting

theorem acceptedCount_perm {solves solves' : List EligibleSolve} (h : solves.Perm solves') :
    acceptedCount solves = acceptedCount solves' := by
  funext challengeId
  exact congrArg Nat.cast (h.filter _).length_eq

theorem currentScore_perm (libm : Libm) {solves solves' : List EligibleSolve}
    (h : solves.Perm solves') : currentScore t libm solves = currentScore t libm solves' := by
  have hscore : challengeScore libm solves = challengeScore libm solves' := by
    funext c
    rw [challengeScore, challengeScore, acceptedCount_perm h]
  funext challengeId
  rw [currentScore, currentScore, hscore]

theorem nodup_sortKey {solves : List EligibleSolve}
    (hnd : (solves.map fun s => (s.participationId, s.challengeId)).Nodup) :
    (solves.map EligibleSolve.sortKey).Nodup := by
  apply List.Nodup.of_map (fun key : ℤ ×ₗ ℤ ×ₗ ℤ => ((ofLex (ofLex key).2).1, (ofLex (ofLex key).2).2))
  simpa [List.map_map, Function.comp_def, EligibleSolve.sortKey] using hnd

theorem sortSolves_perm {solves solves' : List EligibleSolve} (h : solves.Perm solves')
    (hnd : (solves.map fun s => (s.participationId, s.challengeId)).Nodup) :
    sortSolves solves = sortSolves solves' :=
  Keyed.insertionSort_key_eq h (nodup_sortKey hnd)

theorem sortItems_perm {items items' : List ScoreboardItem} (h : items.Perm items')
    (hnd : (items.map ScoreboardItem.id).Nodup) : sortItems items = sortItems items' := by
  apply Keyed.insertionSort_key_eq h
  apply List.Nodup.of_map (fun key : ℤ ×ₗ ℤ ×ₗ ℤ => (ofLex (ofLex key).2).2)
  simpa [List.map_map, Function.comp_def, ScoreboardItem.sortKey] using hnd

end Sorting

section Board

theorem userName_userNameMap {ids : List ℕ} {userId : Option ℕ} (h : ∀ id, userId = some id → id ∈ ids) :
    userName (userNameMap t ids) userId =
      userId.bind fun id => (Keyed.get User.id id t.users).map fun user => user.userName.getD "" := by
  cases userId with
  | none => rfl
  | some id =>
      rw [userName, userNameMap, Option.bind_some, Option.bind_some, Keyed.get_map, Option.map_map]
      rw [Keyed.get_filter fun user _ hkey => ?_]
      · rfl
      · have hid : user.id = id := hkey
        simpa [hid] using h id rfl

/-- The pass reads from the lookup only what its cells and bloods show. -/
theorem assignSolves_congr {look look' : BoardLookup} {solves : List EligibleSolve}
    (hcell : ∀ s ∈ solves, look.cell s = look'.cell s) (hblood : look.blood = look'.blood)
    (hteam : look.partTeam = look'.partTeam) :
    assignSolves look solves = assignSolves look' solves := by
  apply List.foldl_ext
  intro a s hs
  simp only [assignSolve, hcell s hs, hblood, hteam]

theorem scoreboardItem_congr {look look' : BoardLookup} (hname : look.teamName = look'.teamName)
    (havatar : look.teamAvatar = look'.teamAvatar) :
    scoreboardItem look = scoreboardItem look' := by
  funext a p
  simp only [scoreboardItem, hname, havatar]

variable {roster roster' : Roster} {subs subs' : List SolveRow} {solves solves' : List EligibleSolve}

variable (subs subs') in
theorem boardLookup_perm (libm : Libm) (hroster : roster.parts.Perm roster'.parts)
    (hsolves : solves.Perm solves') :
    boardLookup t libm roster' subs' solves' =
      { boardLookup t libm roster subs solves with
        userName :=
          userName (userNameMap t ((solvedByParticipation subs').filterMap SolveRow.userId)) } := by
  have hteam : ∀ id, id ∈ roster'.parts.map Participation.teamId ↔
      id ∈ roster.parts.map Participation.teamId := fun id =>
    ((hroster.map _).mem_iff).symm
  simp only [boardLookup, currentScore_perm t libm hsolves, teamNameMap, teamAvatarMap, hteam,
    Keyed.get_perm hroster roster.partKey]

/-- The board depends on the solves and the teams as sets, and on the collected
rows through the names of the users behind the solves alone. -/
theorem boardOf_congr (libm : Libm) (hroster : roster.parts.Perm roster'.parts)
    (hsolves : solves.Perm solves')
    (hnd : (solves.map fun s => (s.participationId, s.challengeId)).Nodup)
    (hnames : ∀ s ∈ solves, (boardLookup t libm roster subs solves).userName s.userId =
      (boardLookup t libm roster' subs' solves').userName s.userId)
    (updateTime : ℤ) (frozen : Bool) :
    boardOf t libm roster subs solves updateTime frozen =
      boardOf t libm roster' subs' solves' updateTime frozen := by
  have hlook := boardLookup_perm t subs subs' libm hroster hsolves
  have hassign : assignSolves (boardLookup t libm roster subs solves) (sortSolves solves) =
      assignSolves (boardLookup t libm roster' subs' solves') (sortSolves solves') := by
    rw [← sortSolves_perm hsolves hnd]
    apply assignSolves_congr
    · intro s hs
      have hs : s ∈ solves := (List.mem_insertionSort _).mp hs
      funext subType
      have hname := hnames s hs
      rw [hlook] at hname ⊢
      simp only [BoardLookup.cell]
      rw [hname]
    · rw [hlook]
      rfl
    · rw [hlook]
  have hitem : scoreboardItem (boardLookup t libm roster subs solves) =
      scoreboardItem (boardLookup t libm roster' subs' solves') := by
    apply scoreboardItem_congr <;> rw [hlook]
  have hitems : ∀ a, sortItems (roster.parts.map
        (scoreboardItem (boardLookup t libm roster subs solves) a)) =
      sortItems (roster'.parts.map
        (scoreboardItem (boardLookup t libm roster' subs' solves') a)) := by
    intro a
    rw [hitem]
    apply sortItems_perm (hroster.map _)
    simpa [List.map_map, Function.comp_def, scoreboardItem] using roster.teamKey
  simp only [boardOf, hassign, hitems, currentScore_perm t libm hsolves,
    acceptedCount_perm hsolves]

/-- The user behind a collected row is named whatever else was collected. -/
theorem userName_boardLookup (libm : Libm) (hnd : (subs.map SolveRow.key).Nodup) {row : SolveRow}
    (hrow : row ∈ subs) :
    (boardLookup t libm roster subs solves).userName row.userId =
      row.userId.bind fun id =>
        (Keyed.get User.id id t.users).map fun user => user.userName.getD "" := by
  apply userName_userNameMap
  intro id hid
  rw [solvedByParticipation_eq hnd]
  exact List.mem_filterMap.mpr ⟨row, hrow, hid⟩

/-- Boards over the same visible solves are the same when every visible solve was
collected for both. -/
theorem boardOf_eq (libm : Libm) (hroster : roster.parts.Perm roster'.parts)
    (hsolves : solves.Perm solves')
    (hnd : (solves.map fun s => (s.participationId, s.challengeId)).Nodup)
    (hsubs : (subs.map SolveRow.key).Nodup) (hsubs' : (subs'.map SolveRow.key).Nodup)
    (hrows : ∀ s ∈ solves, ∃ row ∈ subs, row ∈ subs' ∧ s.userId = row.userId)
    (updateTime : ℤ) (frozen : Bool) :
    boardOf t libm roster subs solves updateTime frozen =
      boardOf t libm roster' subs' solves' updateTime frozen := by
  apply boardOf_congr t libm hroster hsolves hnd
  intro s hs
  obtain ⟨row, hrow, hrow', huser⟩ := hrows s hs
  rw [huser, userName_boardLookup t libm hsubs hrow, userName_boardLookup t libm hsubs' hrow']

/-- Reading participations and rows in another order gives the same board. -/
theorem scoreboardFromRows_perm (libm : Libm) {hash hash' : HashOrder SolveRow}
    (hroster : roster.parts.Perm roster'.parts) (hsubs : subs.Perm subs')
    (hnd : (subs.map SolveRow.key).Nodup) (now updateTime : ℤ) (isMonitor : Bool) :
    scoreboardFromRows t libm hash roster subs now updateTime isMonitor =
      scoreboardFromRows t libm hash' roster' subs' now updateTime isMonitor := by
  have hnd' : (subs'.map SolveRow.key).Nodup := (hsubs.map _).nodup_iff.mp hnd
  apply boardOf_eq t libm hroster (solveList_perm t hnd hroster hsubs)
    (nodup_solveList t hnd roster.partKey) hnd hnd'
  intro s hs
  obtain ⟨p, -, row, hrow, -, hsome⟩ := (mem_solveList t hnd).mp hs
  exact ⟨row, hrow, hsubs.mem_iff.mp hrow, (eligibleSolve_eq_some t hsome).2.2.2.1⟩

end Board

end Jeopardy

end Rsctf
