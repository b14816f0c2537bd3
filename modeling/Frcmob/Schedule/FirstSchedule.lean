import Frcmob.Lib.Grouping
import Frcmob.Lib.Table
import Frcmob.Text
import Mathlib.Data.List.Infix

/-!
Schedules from FRC Events: `_refresh_event_schedule_from_first` of `api/routes_matches.py` and
`write_match_lineups` of `services/events/match_lineups.py`. The rows of teams and event teams
that a refresh adds are left out.
-/

namespace Frcmob.Schedule

structure FirstTeam where
  teamNumber : Option Int
  station : Option String
deriving DecidableEq

/-- A row of an answer: `series` as `_as_int` and `startTime` as `_first_start_time_to_unix` give
them, `teams` where they are a list. -/
structure FirstRow where
  tournamentLevel : Option String
  description : Option String
  matchNumber : Option Int
  series : Option Int
  startTime : Option Int
  teams : Option (List FirstTeam)
deriving DecidableEq

/-! ### Keys -/

/-- `_trailing_int` -/
def trailingInt (value : String) : Option Int :=
  let digits := (value.toList.reverse.takeWhile Char.isDigit).reverse
  if digits.isEmpty then none else some (Nat.ofDigitChars 10 digits 0)

/-- `series_number` -/
def seriesNumber : Option Int → Int
  | some hint => if 0 < hint then max 1 hint else 1
  | none => 1

/-- Python's `word in text`. -/
def textContains (text word : String) : Bool :=
  decide (word.toList <:+: text.toList)

/-- Python's `text.startswith(word)`. -/
def startsWith (text word : String) : Bool :=
  word.toList.isPrefixOf text.toList

/-- `_first_level_to_comp`: the level, set and number of a match. -/
def firstLevelToComp (tournamentLevel description : Option String) (fallbackMatchNumber : Int)
    (seriesNumberHint : Option Int) : String × Int × Int :=
  let level := normalizeKey (tournamentLevel.getD "")
  let descriptionValue := strip (description.getD "")
  let descLower := lower descriptionValue
  let series := seriesNumber seriesNumberHint
  if level = "practice" then ("qm", 0, max 1 fallbackMatchNumber)
  else if level = "qualification" then ("qm", series, max 1 fallbackMatchNumber)
  else
    let trailingMatch := (trailingInt descriptionValue).getD fallbackMatchNumber
    if textContains descLower "quarterfinal" then
      ("qf", (max 1 trailingMatch - 1) / 2 + 1, (max 1 trailingMatch - 1) % 2 + 1)
    else if textContains descLower "semifinal" then
      ("sf", (max 1 trailingMatch - 1) / 2 + 1, (max 1 trailingMatch - 1) % 2 + 1)
    else if startsWith descLower "final" then ("f", max 1 series, max 1 trailingMatch)
    else if level = "playoff" then ("playoff", max 1 series, max 1 trailingMatch)
    else ("qm", 1, max 1 fallbackMatchNumber)

def baseKey (eventKey compLevel : String) (setNumber matchNumber : Int) : String :=
  if compLevel = "qm" then eventKey ++ "_qm" ++ toString matchNumber
  else eventKey ++ "_" ++ compLevel ++ toString setNumber ++ "m" ++ toString matchNumber

/-- `_canonical_match_key`; the key it returns is the one it adds to `seen`. -/
def canonicalMatchKey (eventKey compLevel : String) (setNumber matchNumber : Int)
    (seen : List String) (fallbackIndex : Nat) : String :=
  let base := baseKey eventKey compLevel setNumber matchNumber
  if base ∉ seen then base else base ++ "_x" ++ toString fallbackIndex

structure KeyedRow where
  matchKey : String
  compLevel : String
  setNumber : Int
  matchNumber : Int
  row : FirstRow
deriving DecidableEq

/-- The keys that the loop over the rows gives them. -/
def keyedRows (eventKey : String) : Nat → List String → List FirstRow → List KeyedRow
  | _, _, [] => []
  | idx, seen, row :: rest =>
      let place := firstLevelToComp row.tournamentLevel row.description
        (row.matchNumber.getD idx) row.series
      let key := canonicalMatchKey eventKey place.1 place.2.1 place.2.2 seen idx
      ⟨key, place.1, place.2.1, place.2.2, row⟩ :: keyedRows eventKey (idx + 1) (key :: seen) rest

/-! ### Line-ups -/

inductive Alliance
  | red
  | blue
deriving DecidableEq

/-- `alliance[0]` -/
def Alliance.letter : Alliance → String
  | .red => "r"
  | .blue => "b"

structure MatchTeam where
  matchKey : String
  teamKey : String
  eventKey : String
  alliance : Alliance
  station : String
deriving DecidableEq

def MatchTeam.slot (row : MatchTeam) : String × String :=
  (row.matchKey, row.teamKey)

/-- `fallback_station_index` -/
structure StationIndex where
  red : Int
  blue : Int

def StationIndex.of (stations : StationIndex) : Alliance → Int
  | .red => stations.red
  | .blue => stations.blue

def StationIndex.next (stations : StationIndex) : Alliance → StationIndex
  | .red => { stations with red := stations.red + 1 }
  | .blue => { stations with blue := stations.blue + 1 }

/-- `station`, where there is one that is not empty. -/
def namedStation (team : FirstTeam) : Option String :=
  team.station.filter (· ≠ "")

def allianceOf (stations : StationIndex) (team : FirstTeam) : Alliance :=
  let station := lower (team.station.getD "")
  if startsWith station "red" then .red
  else if startsWith station "blue" then .blue
  else if stations.red ≤ 3 then .red else .blue

/-- The loop over a match's teams. -/
def teamLinks (eventKey matchKey : String) : StationIndex → List FirstTeam → List MatchTeam
  | _, [] => []
  | stations, team :: rest =>
      match team.teamNumber with
      | none => teamLinks eventKey matchKey stations rest
      | some number =>
          if number ≤ 0 then teamLinks eventKey matchKey stations rest
          else
            let alliance := allianceOf stations team
            let link (index : Int) : MatchTeam :=
              { matchKey := matchKey
                teamKey := "frc" ++ toString number
                eventKey := eventKey
                alliance := alliance
                station := (namedStation team).getD (alliance.letter ++ toString index) }
            match (namedStation team).bind trailingInt with
            | some index => link index :: teamLinks eventKey matchKey stations rest
            | none =>
                link (stations.of alliance) ::
                  teamLinks eventKey matchKey (stations.next alliance) rest

def KeyedRow.links (eventKey : String) (keyed : KeyedRow) : List MatchTeam :=
  match keyed.row.teams with
  | none => []
  | some teams => teamLinks eventKey keyed.matchKey ⟨1, 1⟩ teams

local instance lawfulBEq_slot : LawfulBEq (String × String) := inferInstance

/-- The first link of each robot of a match. -/
def firstLinks (links : List MatchTeam) : List MatchTeam :=
  links.foldl (fun kept link => if link.slot ∈ kept.map (·.slot) then kept else kept ++ [link]) []

abbrev Lineups := Table MatchTeam.slot

/-- One match's line-up; one without an alliance only adds. -/
def writeLineup (table : Lineups) (lineup : String × List MatchTeam) : Lineups :=
  let cleared :=
    if Alliance.red ∈ lineup.2.map (·.alliance) ∧ Alliance.blue ∈ lineup.2.map (·.alliance) then
      table.filter fun row =>
        row.matchKey ≠ lineup.1 ∨ row.teamKey ∈ lineup.2.map (·.teamKey)
    else table
  cleared.putAll lineup.2

/-- `write_match_lineups` -/
def writeMatchLineups (table : Lineups) (links : List MatchTeam) : Lineups :=
  (Grouping.group (·.matchKey) id (firstLinks links)).foldl writeLineup table

/-! ### A refresh -/

structure Match where
  matchKey : String
  eventKey : String
  compLevel : String
  setNumber : Int
  matchNumber : Int
  time : Option Int
deriving DecidableEq

structure ScheduleDb where
  matches' : Table Match.matchKey
  matchTeams : Lineups

def KeyedRow.toMatch (eventKey : String) (keyed : KeyedRow) : Match where
  matchKey := keyed.matchKey
  eventKey := eventKey
  compLevel := keyed.compLevel
  setNumber := keyed.setNumber
  matchNumber := keyed.matchNumber
  time := keyed.row.startTime

/-- `_refresh_event_schedule_from_first` with the levels' answers, none where not modified. -/
def refreshEventSchedule (eventKey : String) (answers : List (Option (List FirstRow)))
    (db : ScheduleDb) : ScheduleDb :=
  if answers.all Option.isNone then db
  else
    let keyed := keyedRows eventKey 1 [] (answers.flatMap (·.getD []))
    { matches' := db.matches'.putAll (keyed.map (·.toMatch eventKey))
      matchTeams := writeMatchLineups db.matchTeams (keyed.flatMap (·.links eventKey)) }

end Frcmob.Schedule
