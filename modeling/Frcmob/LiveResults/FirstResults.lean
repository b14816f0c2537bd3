import Mathlib.Data.Finset.Card
import Mathlib.Data.Finset.Lattice.Basic
import Mathlib.Data.List.Sort
import Mathlib.Data.Prod.Lex
import Frcmob.Lib.Grouping
import Frcmob.LiveResults.Ticks

/-!
Results from FRC Events for the matches TBA has none for: `first_live_results.py`. The rows
FRC Events last answered are an input, as are the event's record and the reading of its
local times.
-/

namespace Frcmob.FirstResults

open LiveResults (Color)

/-- In the order of their names, which is the order the levels are gone through. -/
inductive Level
  | playoff
  | qualification
deriving DecidableEq

structure TeamRow where
  teamNumber : Option Int
  station : Option String
deriving DecidableEq

/-- A row of FRC Events. -/
structure FirstMatch where
  matchNumber : Option Int
  scoreRedFinal : Option Int
  scoreBlueFinal : Option Int
  actualStartTime : Option String
  postResultTime : Option String
  teams : List TeamRow
deriving DecidableEq

/-- A match of TBA; an alliance without `team_keys` lists none. -/
structure TbaMatch where
  key : Option String
  compLevel : Option String
  setNumber : Option Int
  matchNumber : Option Int
  actualTime : Option Int
  predictedTime : Option Int
  time : Option Int
  redTeamKeys : List String
  blueTeamKeys : List String
deriving DecidableEq

/-- `value or default` -/
def orText (value : Option String) (default : String) : String :=
  (value.filter (· ≠ "")).getD default

def TbaMatch.lowerKey (m : TbaMatch) : String :=
  lower (orText m.key "")

def tbaLevel (m : TbaMatch) : Level :=
  if lower (orText m.compLevel "qm") = "qm" then .qualification else .playoff

def startTime (m : TbaMatch) : Option Int :=
  [m.actualTime, m.predictedTime, m.time].findSome? fun t => t.filter (0 < ·)

/-! ### Which levels wait for a result -/

def waitingSinceSec : Int := 45 * 60
def waitingAheadSec : Int := 10 * 60

/-- The results shown so far, by lower-case match key. -/
structure Snapshot where
  isCompleted : Bool
deriving DecidableEq

def completed (results : String → Option Snapshot) (key : String) : Bool :=
  (results key).any Snapshot.isCompleted

def waiting (results : String → Option Snapshot) (now : Int) (m : TbaMatch) : Bool :=
  m.lowerKey ≠ "" && !completed results m.lowerKey &&
    (startTime m).any fun start =>
      decide (now - waitingSinceSec ≤ start) && decide (start ≤ now + waitingAheadSec)

def levelsWaiting (tbaMatches : List TbaMatch) (results : String → Option Snapshot)
    (now : Int) : List Level :=
  [Level.playoff, .qualification].filter fun level =>
    tbaMatches.any fun m => waiting results now m && tbaLevel m == level

/-! ### Alliances -/

/-- The teams of each colour, as sets of team keys. -/
structure Sides where
  red : Finset String
  blue : Finset String
deriving DecidableEq

/-- `(red, blue) if red and blue else None` -/
def sides? (side : Color → Finset String) : Option Sides :=
  if side .red ≠ ∅ ∧ side .blue ≠ ∅ then some ⟨side .red, side .blue⟩ else none

def stationColor (station : Option String) : Option Color :=
  let name := (lower (orText station "")).toList
  if "red".toList.isPrefixOf name then some .red
  else if "blue".toList.isPrefixOf name then some .blue
  else none

/-- The numbers of the teams a row lists at the stations of a colour. -/
def FirstMatch.numbers (first : FirstMatch) (c : Color) : Finset Int :=
  ((first.teams.filter fun t => stationColor t.station = some c).filterMap
    TeamRow.teamNumber).toFinset

def teamKey (number : Int) : String :=
  "frc" ++ toString number

def FirstMatch.robots (first : FirstMatch) (c : Color) : Finset Int :=
  (first.numbers c).filter (0 < ·)

def FirstMatch.side (first : FirstMatch) (c : Color) : Finset String :=
  (first.robots c).image teamKey

def firstAlliances (first : FirstMatch) : Option Sides :=
  sides? first.side

def TbaMatch.teamKeys (m : TbaMatch) (c : Color) : List String :=
  match c with
  | .red => m.redTeamKeys.map lower
  | .blue => m.blueTeamKeys.map lower

def TbaMatch.side (m : TbaMatch) (c : Color) : Finset String :=
  (m.teamKeys c).toFinset

def tbaAlliances (m : TbaMatch) : Option Sides :=
  sides? m.side

/-- `int(k[3:]) if k[3:].isdigit()` -/
def keyNumber (key : String) : Option Int :=
  let digits := key.toList.drop 3
  if digits ≠ [] ∧ digits.all Char.isDigit then some (Nat.ofDigitChars 10 digits 0) else none

/-- The numbers of the teams a match lists; an off-season `frc973b` has none. -/
def TbaMatch.numbers (m : TbaMatch) (c : Color) : Finset Int :=
  ((m.teamKeys c).filterMap keyNumber).toFinset

def matched (m : TbaMatch) (first : FirstMatch) (c : Color) : Finset Int :=
  first.numbers c ∩ m.numbers c

def differing (m : TbaMatch) (first : FirstMatch) (c : Color) : Finset Int :=
  m.numbers c \ first.numbers c

def allowed : Level → Nat
  | .playoff => 2
  | .qualification => 0

/-- The same alliances, but for what TBA cannot know before its own result. -/
def sameLineup (m : TbaMatch) (first : FirstMatch) (level : Level) : Bool :=
  let lists (c : Color) := m.teamKeys c ≠ [] ∧ first.numbers c ≠ ∅
  decide (lists .red ∧ lists .blue) &&
  decide (first.numbers .red ∩ m.numbers .blue = ∅ ∧ first.numbers .blue ∩ m.numbers .red = ∅) &&
  decide (1 ≤ min (matched m first .red).card (matched m first .blue).card) &&
  decide (3 ≤ (matched m first .red).card + (matched m first .blue).card) &&
  decide ((differing m first .red).card + (differing m first .blue).card ≤ allowed level)

/-! ### Pairing -/

def levelRank (compLevel : String) : Nat :=
  match compLevel with
  | "qm" => 0
  | "ef" => 1
  | "qf" => 2
  | "sf" => 3
  | "f" => 4
  | _ => 9

/-- The order TBA's matches are played in. -/
def tbaOrder (m : TbaMatch) : Nat ×ₗ Int ×ₗ Int :=
  toLex (levelRank (lower (orText m.compLevel "qm")),
    toLex (m.setNumber.getD 0, m.matchNumber.getD 0))

/-- FRC Events numbers playoffs from 1; TBA's keys are those of a double elimination. -/
def expectedTbaKey (eventKey : String) (level : Level) (number : Int) : String :=
  match level with
  | .qualification => eventKey ++ "_qm" ++ toString number
  | .playoff =>
      if number ≤ 13 then eventKey ++ "_sf" ++ toString number ++ "m1"
      else eventKey ++ "_f1m" ++ toString (number - 13)

/-- A match of the list and where it stands there, which tells it from an equal one. -/
structure Listed where
  tbaMatch : TbaMatch
  index : Nat
deriving DecidableEq

def listed (tbaMatches : List TbaMatch) : List Listed :=
  tbaMatches.zipIdx.map fun p => ⟨p.1, p.2⟩

/-- `tba_by_key.get(key)`; the last match of a key wins. -/
def tbaByKey (tbaMatches : List TbaMatch) (key : String) : Option Listed :=
  (listed tbaMatches).reverse.find? fun m => m.tbaMatch.lowerKey = key

/-- `tba_by_alliances[(level, *sides)]` -/
def tbaByAlliances (tbaMatches : List TbaMatch) (level : Level) (sides : Sides) : List Listed :=
  let playing (a b : Listed) := tbaOrder a.tbaMatch ≤ tbaOrder b.tbaMatch
  ((listed tbaMatches).insertionSort playing).filter fun m =>
    tbaLevel m.tbaMatch = level ∧ tbaAlliances m.tbaMatch = some sides

/-- A row with both scores and both sides. -/
structure Row where
  first : FirstMatch
  red : Int
  blue : Int
  sides : Sides
deriving DecidableEq

def FirstMatch.number (first : FirstMatch) : Int :=
  first.matchNumber.getD 0

def FirstMatch.row? (first : FirstMatch) : Option Row :=
  first.scoreRedFinal.bind fun red =>
    first.scoreBlueFinal.bind fun blue =>
      (firstAlliances first).map fun sides => ⟨first, red, blue, sides⟩

/-- One row for each match number, the last one posted, in the order of the numbers. -/
def byNumber (posted : List FirstMatch) : List FirstMatch :=
  let table : Table FirstMatch.number := Table.empty.putAll posted
  table.rows.insertionSort fun a b => a.number ≤ b.number

def postedRows (posted : List FirstMatch) : List Row :=
  (byNumber posted).filterMap FirstMatch.row?

structure Pair where
  level : Level
  row : Row
  tbaMatch : Listed
deriving DecidableEq

/-- The two lists: TBA's matches, and the rows posted under each level. -/
structure Lists where
  eventKey : String
  tbaMatches : List TbaMatch
  posted : Level → List FirstMatch

namespace Lists

variable (lists : Lists) (level : Level)

/-- The usual numbering, accepted only if the lineup agrees. -/
def expected (row : Row) : Option Listed :=
  (tbaByKey lists.tbaMatches
    (expectedTbaKey lists.eventKey level row.first.number)).filter fun m =>
      sameLineup m.tbaMatch row.first level

def numbered : List Pair :=
  (postedRows (lists.posted level)).filterMap fun row =>
    (lists.expected level row).map fun m => ⟨level, row, m⟩

def leftovers : List (Sides × List Row) :=
  Grouping.group Row.sides id ((postedRows (lists.posted level)).filter fun row =>
    (lists.expected level row).isNone)

/-- Other bracket formats: same-alliance matches in playing order. -/
def pairGroup (pairs : List Pair) (group : Sides × List Row) : List Pair :=
  let taken := pairs.map fun p => p.tbaMatch.index
  let candidates := (tbaByAlliances lists.tbaMatches level group.1).filter fun m =>
    m.index ∉ taken
  pairs ++ (group.2.zip candidates).map fun p => ⟨level, p.1, p.2⟩

def pairLevel (pairs : List Pair) (level : Level) : List Pair :=
  (lists.leftovers level).foldl (lists.pairGroup level) (pairs ++ lists.numbered level)

def pairRows (levels : List Level) : List Pair :=
  levels.foldl lists.pairLevel []

end Lists

/-! ### What is filled in -/

structure Payload where
  key : Option String
  redScore : Int
  blueScore : Int
  winningAlliance : Option Color
  actualTime : Option Int
  predictedTime : Option Int
  postResultTime : Option Int
deriving DecidableEq

structure EventMeta where
  season : Int
  code : String
  timezone : Option String
deriving DecidableEq

/-- What is asked outside: the switch, the event's record, the rows FRC Events last
answered, and the reading of a local time. -/
structure World where
  firstLiveResultsEnabled : Bool
  eventMeta : String → Option EventMeta
  playedMatches : Int → String → Level → List FirstMatch
  localToUnix : Option String → Option String → Option Int

def winner (red blue : Int) : Option Color :=
  if red > blue then some .red else if blue > red then some .blue else none

def asTbaPayload (w : World) (row : Row) (m : TbaMatch) (timezone : Option String) : Payload where
  key := m.key
  redScore := row.red
  blueScore := row.blue
  winningAlliance := winner row.red row.blue
  actualTime := (w.localToUnix row.first.actualStartTime timezone).or m.actualTime
  predictedTime := m.predictedTime
  postResultTime := w.localToUnix row.first.postResultTime timezone

/-- An entry of the dictionary returned. -/
structure Filled where
  key : String
  payload : Payload
deriving DecidableEq

abbrev FilledTable := Table Filled.key

def fill (w : World) (timezone : Option String) (results : String → Option Snapshot)
    (filled : FilledTable) (p : Pair) : FilledTable :=
  let key := p.tbaMatch.tbaMatch.lowerKey
  if key ≠ "" ∧ completed results key = false then
    filled.put ⟨key, asTbaPayload w p.row p.tbaMatch.tbaMatch timezone⟩
  else filled

/-- The pairs of a call; none when switched off, nothing waits or the event is unknown. -/
def World.pairs (w : World) (eventKey : String) (tbaMatches : List TbaMatch)
    (results : String → Option Snapshot) (now : Int) : List Pair :=
  if w.firstLiveResultsEnabled then
    match w.eventMeta eventKey with
    | none => []
    | some info =>
        Lists.pairRows ⟨eventKey, tbaMatches, w.playedMatches info.season info.code⟩
          (levelsWaiting tbaMatches results now)
  else []

def firstResultsForWaitingMatches (w : World) (eventKey : String) (tbaMatches : List TbaMatch)
    (results : String → Option Snapshot) (now : Int) : FilledTable :=
  (w.pairs eventKey tbaMatches results now).foldl
    (fill w ((w.eventMeta eventKey).bind EventMeta.timezone) results) Table.empty

/-! ### Keys and places are told apart -/

theorem expectedTbaKey_inj {eventKey : String} {level level' : Level} {a b : Int}
    (h : expectedTbaKey eventKey level a = expectedTbaKey eventKey level' b) :
    level = level' ∧ a = b := by
  have hlist := congrArg String.toList h
  have hqm : "_qm".toList = ['_', 'q', 'm'] := rfl
  have hsf : "_sf".toList = ['_', 's', 'f'] := rfl
  have hf : "_f1m".toList = ['_', 'f', '1', 'm'] := rfl
  cases level with
  | qualification =>
      cases level' with
      | qualification =>
          simp only [expectedTbaKey, String.toList_append, List.append_assoc,
            List.append_cancel_left_eq] at hlist
          exact ⟨rfl, toString_int_inj (String.toList_inj.mp hlist)⟩
      | playoff =>
          simp only [expectedTbaKey] at hlist
          split at hlist <;> simp [String.toList_append, hqm, hsf, hf] at hlist
  | playoff =>
      cases level' with
      | qualification =>
          simp only [expectedTbaKey] at hlist
          split at hlist <;> simp [String.toList_append, hqm, hsf, hf] at hlist
      | playoff =>
          refine ⟨rfl, ?_⟩
          simp only [expectedTbaKey] at hlist
          split at hlist <;> split at hlist
          · simp only [String.toList_append, List.append_assoc,
              List.append_cancel_left_eq] at hlist
            exact toString_int_inj (String.toList_inj.mp (List.append_cancel_right hlist))
          · simp [String.toList_append, hsf, hf] at hlist
          · simp [String.toList_append, hsf, hf] at hlist
          · simp only [String.toList_append, List.append_assoc,
              List.append_cancel_left_eq] at hlist
            have hsame := toString_int_inj (String.toList_inj.mp hlist)
            omega

theorem index_nodup (tbaMatches : List TbaMatch) :
    ((listed tbaMatches).map Listed.index).Nodup := by
  have hmap : (listed tbaMatches).map Listed.index = tbaMatches.zipIdx.map Prod.snd := by
    rw [listed, List.map_map]
    rfl
  rw [hmap, List.zipIdx_map_snd]
  exact List.nodup_range'

theorem listed_getElem {tbaMatches : List TbaMatch} {m : Listed} (h : m ∈ listed tbaMatches) :
    tbaMatches[m.index]? = some m.tbaMatch := by
  obtain ⟨⟨x, i⟩, hin, rfl⟩ := List.mem_map.mp h
  exact List.mem_zipIdx_iff_getElem?.mp hin

theorem listed_eq {tbaMatches : List TbaMatch} {m m' : Listed} (hm : m ∈ listed tbaMatches)
    (hm' : m' ∈ listed tbaMatches) (h : m.index = m'.index) : m = m' :=
  List.inj_on_of_nodup_map (index_nodup tbaMatches) hm hm' h

theorem tbaByKey_some {tbaMatches : List TbaMatch} {key : String} {m : Listed}
    (h : tbaByKey tbaMatches key = some m) :
    m ∈ listed tbaMatches ∧ m.tbaMatch.lowerKey = key := by
  constructor
  · exact List.mem_reverse.mp (List.mem_of_find?_eq_some h)
  · simpa using List.find?_some h

theorem mem_tbaByAlliances {tbaMatches : List TbaMatch} {level : Level} {sides : Sides}
    {m : Listed} : m ∈ tbaByAlliances tbaMatches level sides ↔
      m ∈ listed tbaMatches ∧ tbaLevel m.tbaMatch = level ∧
        tbaAlliances m.tbaMatch = some sides := by
  rw [tbaByAlliances, List.mem_filter, List.mem_insertionSort, decide_eq_true_eq]

theorem tbaByAlliances_index_nodup (tbaMatches : List TbaMatch) (level : Level) (sides : Sides) :
    ((tbaByAlliances tbaMatches level sides).map Listed.index).Nodup := by
  apply (List.filter_sublist.map Listed.index).nodup
  rw [((List.perm_insertionSort _ _).map Listed.index).nodup_iff]
  exact index_nodup tbaMatches

/-! ### The rows of a level -/

theorem row?_some {first : FirstMatch} {row : Row} (h : first.row? = some row) :
    row.first = first ∧ firstAlliances first = some row.sides ∧
      first.scoreRedFinal = some row.red ∧ first.scoreBlueFinal = some row.blue := by
  simp only [FirstMatch.row?, Option.bind_eq_some_iff, Option.map_eq_some_iff] at h
  obtain ⟨red, hred, blue, hblue, sides, hsides, rfl⟩ := h
  exact ⟨rfl, hsides, hred, hblue⟩

theorem byNumber_nodup (posted : List FirstMatch) :
    ((byNumber posted).map FirstMatch.number).Nodup := by
  rw [byNumber, ((List.perm_insertionSort _ _).map FirstMatch.number).nodup_iff]
  exact Table.unique _

theorem mem_byNumber {posted : List FirstMatch} {first : FirstMatch}
    (h : first ∈ byNumber posted) : first ∈ posted := by
  rw [byNumber, List.mem_insertionSort] at h
  rcases Table.mem_putAll h with hempty | hposted
  · exact absurd hempty (Table.notMem_empty first)
  · exact hposted

/-- No two rows of a level have the same number. -/
theorem postedRows_number (posted : List FirstMatch) :
    (postedRows posted).Pairwise fun a b => a.first.number ≠ b.first.number := by
  have hrows := List.pairwise_map.mp (byNumber_nodup posted)
  apply hrows.filterMap
  intro a b hne row hrow row' hrow'
  rw [(row?_some hrow).1, (row?_some hrow').1]
  exact hne

theorem postedRows_nodup (posted : List FirstMatch) : (postedRows posted).Nodup :=
  (postedRows_number posted).imp fun hne heq => hne (congrArg (fun r => r.first.number) heq)

theorem mem_postedRows {posted : List FirstMatch} {row : Row} (h : row ∈ postedRows posted) :
    row.first ∈ posted ∧ row.first.row? = some row := by
  obtain ⟨first, hin, hrow⟩ := List.mem_filterMap.mp h
  rw [(row?_some hrow).1]
  exact ⟨mem_byNumber hin, hrow⟩

/-! ### Who is paired with what -/

/-- A match whose key is numbered for a level its `comp_level` is not of. -/
def Mislabelled (eventKey : String) (m : TbaMatch) : Prop :=
  ∃ level number, m.lowerKey = expectedTbaKey eventKey level number ∧ tbaLevel m ≠ level

private theorem zip_pairwise {α β : Type} {R : α → α → Prop} {S : β → β → Prop} {xs : List α}
    {ys : List β} (hx : xs.Pairwise R) (hy : ys.Pairwise S) :
    (xs.zip ys).Pairwise fun a b => R a.1 b.1 ∧ S a.2 b.2 := by
  induction xs generalizing ys with
  | nil => exact .nil
  | cons x xs ih =>
      cases ys with
      | nil => exact .nil
      | cons y ys =>
          rw [List.pairwise_cons] at hx hy
          rw [List.zip_cons_cons, List.pairwise_cons]
          refine ⟨?_, ih hx.2 hy.2⟩
          rintro ⟨a, b⟩ hab
          exact ⟨hx.1 a (List.of_mem_zip hab).1, hy.1 b (List.of_mem_zip hab).2⟩

namespace Lists

variable {lists : Lists}

/-- Where a pair comes from: the usual numbering, or two lists of the same alliances. -/
structure Sourced (lists : Lists) (p : Pair) : Prop where
  row : p.row ∈ postedRows (lists.posted p.level)
  tbaMatch : p.tbaMatch ∈ listed lists.tbaMatches
  how : lists.expected p.level p.row = some p.tbaMatch ∨
    lists.expected p.level p.row = none ∧
      p.tbaMatch ∈ tbaByAlliances lists.tbaMatches p.level p.row.sides

/-- A later pair has another row, and another match unless it is numbered for its own
level's match. -/
structure Apart (lists : Lists) (p q : Pair) : Prop where
  rows : p.level = q.level → p.row ≠ q.row
  matches_ : p.tbaMatch.index = q.tbaMatch.index →
    p.level ≠ q.level ∧ lists.expected q.level q.row = some q.tbaMatch

structure Sound (lists : Lists) (pairs : List Pair) : Prop where
  sourced : ∀ p ∈ pairs, lists.Sourced p
  apart : pairs.Pairwise lists.Apart

theorem expected_some {level : Level} {row : Row} {m : Listed}
    (h : lists.expected level row = some m) :
    m ∈ listed lists.tbaMatches ∧
      m.tbaMatch.lowerKey = expectedTbaKey lists.eventKey level row.first.number ∧
      sameLineup m.tbaMatch row.first level = true := by
  rw [expected, Option.filter_eq_some_iff] at h
  have hkey := tbaByKey_some h.1
  exact ⟨hkey.1, hkey.2, h.2⟩

theorem mem_numbered {level : Level} {p : Pair} (h : p ∈ lists.numbered level) :
    p.level = level ∧ p.row ∈ postedRows (lists.posted level) ∧
      lists.expected level p.row = some p.tbaMatch := by
  obtain ⟨row, hrow, hp⟩ := List.mem_filterMap.mp h
  obtain ⟨m, hm, rfl⟩ := Option.map_eq_some_iff.mp hp
  exact ⟨rfl, hrow, hm⟩

theorem numbered_sourced {level : Level} {p : Pair} (h : p ∈ lists.numbered level) :
    lists.Sourced p := by
  obtain ⟨rfl, hrow, hm⟩ := mem_numbered h
  exact ⟨hrow, (expected_some hm).1, .inl hm⟩

/-- Different numbers are expected under different keys. -/
theorem numbered_apart (level : Level) : (lists.numbered level).Pairwise lists.Apart := by
  apply (postedRows_number (lists.posted level)).filterMap
  intro a b hne p hp q hq
  obtain ⟨m, hm, rfl⟩ := Option.map_eq_some_iff.mp hp
  obtain ⟨m', hm', rfl⟩ := Option.map_eq_some_iff.mp hq
  constructor
  case rows => exact fun _ heq => hne (congrArg (fun r : Row => r.first.number) heq)
  case matches_ =>
    intro hindex
    obtain ⟨hin, hkey, -⟩ := expected_some hm
    obtain ⟨hin', hkey', -⟩ := expected_some hm'
    have hsame : m = m' := listed_eq hin hin' hindex
    rw [hsame, hkey'] at hkey
    exact absurd (expectedTbaKey_inj hkey).2.symm hne

theorem sound_numbered {pairs : List Pair} {level : Level} (hpairs : lists.Sound pairs)
    (hnew : ∀ p ∈ pairs, p.level ≠ level) : lists.Sound (pairs ++ lists.numbered level) := by
  constructor
  case sourced =>
    intro p hp
    rcases List.mem_append.mp hp with hold | hnum
    · exact hpairs.sourced p hold
    · exact numbered_sourced hnum
  case apart =>
    rw [List.pairwise_append]
    refine ⟨hpairs.apart, numbered_apart level, ?_⟩
    intro p hp q hq
    obtain ⟨rfl, -, hexp⟩ := mem_numbered hq
    exact ⟨fun heq => absurd heq (hnew p hp), fun _ => ⟨hnew p hp, hexp⟩⟩

theorem mem_leftovers {level : Level} {group : Sides × List Row}
    (h : group ∈ lists.leftovers level) : group.2.Nodup ∧ ∀ row ∈ group.2,
      row ∈ postedRows (lists.posted level) ∧ lists.expected level row = none ∧
        row.sides = group.1 := by
  have hgroup := Grouping.mem_group h
  rw [List.map_id] at hgroup
  rw [hgroup]
  constructor
  · exact ((postedRows_nodup _).filter _).filter _
  · intro row hrow
    rw [List.mem_filter, List.mem_filter, Option.isNone_iff_eq_none] at hrow
    exact ⟨hrow.1.1, hrow.1.2, of_decide_eq_true hrow.2⟩

/-- What the pairs of a level look like after some groups. -/
def Placed (lists : Lists) (level : Level) (groups : List (Sides × List Row)) (p : Pair) : Prop :=
  p.level = level →
    lists.expected level p.row ≠ none ∨ p.row.sides ∈ groups.map Prod.fst

theorem sound_pairGroup {level : Level} {pairs : List Pair} {groups : List (Sides × List Row)}
    {group : Sides × List Row} (hgroup : group ∈ lists.leftovers level)
    (hlater : group.1 ∉ groups.map Prod.fst) (hpairs : lists.Sound pairs)
    (hplaced : ∀ p ∈ pairs, lists.Placed level groups p) :
    lists.Sound (lists.pairGroup level pairs group) := by
  obtain ⟨hnodup, hrows⟩ := mem_leftovers hgroup
  simp only [pairGroup]
  constructor
  case sourced =>
    intro p hp
    rcases List.mem_append.mp hp with hold | hnew
    · exact hpairs.sourced p hold
    · obtain ⟨⟨row, m⟩, hin, rfl⟩ := List.mem_map.mp hnew
      obtain ⟨hrow, hnone, hsides⟩ := hrows row (List.of_mem_zip hin).1
      have hm := (List.mem_filter.mp (List.of_mem_zip hin).2).1
      exact ⟨hrow, (mem_tbaByAlliances.mp hm).1, .inr ⟨hnone, hsides ▸ hm⟩⟩
  case apart =>
    rw [List.pairwise_append]
    refine ⟨hpairs.apart, ?_, ?_⟩
    · rw [List.pairwise_map]
      have hindex := List.pairwise_map.mp
        (tbaByAlliances_index_nodup lists.tbaMatches level group.1)
      apply (zip_pairwise hnodup (hindex.filter _)).imp
      intro a b hab
      exact ⟨fun _ => hab.1, fun heq => absurd heq hab.2⟩
    · intro p hp q hq
      obtain ⟨⟨row, m⟩, hin, rfl⟩ := List.mem_map.mp hq
      obtain ⟨hrow, hnone, hsides⟩ := hrows row (List.of_mem_zip hin).1
      have hfree := of_decide_eq_true (List.mem_filter.mp (List.of_mem_zip hin).2).2
      constructor
      case rows =>
        intro hlevel heq
        have heq' : p.row = row := heq
        rcases hplaced p hp hlevel with hsome | hdone
        · exact hsome (heq' ▸ hnone)
        · rw [heq', hsides] at hdone
          exact hlater hdone
      case matches_ =>
        intro heq
        exact absurd (List.mem_map.mpr ⟨p, hp, heq⟩) hfree

theorem placed_pairGroup {level : Level} {pairs : List Pair} {groups : List (Sides × List Row)}
    {group : Sides × List Row} (hgroup : group ∈ lists.leftovers level)
    (hplaced : ∀ p ∈ pairs, lists.Placed level groups p) :
    ∀ p ∈ lists.pairGroup level pairs group, lists.Placed level (groups ++ [group]) p := by
  intro p hp hlevel
  rw [List.map_append, List.mem_append]
  rcases List.mem_append.mp hp with hold | hnew
  · rcases hplaced p hold hlevel with hsome | hdone
    · exact .inl hsome
    · exact .inr (.inl hdone)
  · obtain ⟨⟨row, m⟩, hin, rfl⟩ := List.mem_map.mp hnew
    have hsides := ((mem_leftovers hgroup).2 row (List.of_mem_zip hin).1).2.2
    exact .inr (.inr (List.mem_singleton.mpr hsides))

theorem level_pairGroup {level : Level} {pairs : List Pair} {group : Sides × List Row} {p : Pair}
    (h : p ∈ lists.pairGroup level pairs group) : p ∈ pairs ∨ p.level = level := by
  rcases List.mem_append.mp h with hold | hnew
  · exact .inl hold
  · obtain ⟨_, -, rfl⟩ := List.mem_map.mp hnew
    exact .inr rfl

theorem sound_pairLevel {pairs : List Pair} {level : Level} (hpairs : lists.Sound pairs)
    (hnew : ∀ p ∈ pairs, p.level ≠ level) : lists.Sound (lists.pairLevel pairs level) := by
  have hstart : ∀ p ∈ pairs ++ lists.numbered level, lists.Placed level [] p := by
    intro p hp hlevel
    rcases List.mem_append.mp hp with hold | hnum
    · exact absurd hlevel (hnew p hold)
    · rw [(mem_numbered hnum).2.2]
      exact .inl (Option.some_ne_none _)
  have hkeys : ((lists.leftovers level).map Prod.fst).Nodup :=
    Grouping.nodup_keys_group _ _ _
  have hround : ∀ before group after pairs, lists.leftovers level = before ++ group :: after →
      (lists.Sound pairs ∧ ∀ p ∈ pairs, lists.Placed level before p) →
      lists.Sound (lists.pairGroup level pairs group) ∧
        ∀ p ∈ lists.pairGroup level pairs group, lists.Placed level (before ++ [group]) p := by
    intro before group after pairs heq hinv
    have hin : group ∈ lists.leftovers level := by
      rw [heq]
      exact List.mem_append_right _ List.mem_cons_self
    have hlater : group.1 ∉ before.map Prod.fst := by
      rw [heq, List.map_append, List.map_cons, List.nodup_append] at hkeys
      exact fun hmem => hkeys.2.2 _ hmem _ List.mem_cons_self rfl
    exact ⟨sound_pairGroup hin hlater hinv.1 hinv.2, placed_pairGroup hin hinv.2⟩
  exact (@Transition.foldl_rounds _ _ _
    (fun groups pairs => lists.Sound pairs ∧ ∀ p ∈ pairs, lists.Placed level groups p) _ _
    ⟨sound_numbered hpairs hnew, hstart⟩ hround).1

theorem level_pairLevel {pairs : List Pair} {level : Level} :
    ∀ p ∈ lists.pairLevel pairs level, p ∈ pairs ∨ p.level = level := by
  have hstart : ∀ p ∈ pairs ++ lists.numbered level, p ∈ pairs ∨ p.level = level := by
    intro p hp
    rcases List.mem_append.mp hp with hold | hnum
    · exact .inl hold
    · exact .inr (mem_numbered hnum).1
  have hround : ∀ (pairs' : List Pair) (group : Sides × List Row),
      (∀ p ∈ pairs', p ∈ pairs ∨ p.level = level) →
      ∀ p ∈ lists.pairGroup level pairs' group, p ∈ pairs ∨ p.level = level := by
    intro pairs' group hold p hp
    rcases level_pairGroup hp with hin | hlevel
    · exact hold p hin
    · exact .inr hlevel
  exact @Transition.foldl_keeps _ _ _
    (fun pairs' : List Pair => ∀ p ∈ pairs', p ∈ pairs ∨ p.level = level) hround _ _ hstart

/-- Over the levels, each gone through once. -/
theorem sound_pairRows {levels : List Level} (hlevels : levels.Nodup) :
    lists.Sound (lists.pairRows levels) := by
  have hround : ∀ before level after pairs, levels = before ++ level :: after →
      (lists.Sound pairs ∧ ∀ p ∈ pairs, p.level ∈ before) →
      lists.Sound (lists.pairLevel pairs level) ∧
        ∀ p ∈ lists.pairLevel pairs level, p.level ∈ before ++ [level] := by
    intro before level after pairs heq hinv
    have hfirst : level ∉ before := by
      rw [heq, List.nodup_append] at hlevels
      exact fun hmem => hlevels.2.2 _ hmem _ List.mem_cons_self rfl
    constructor
    · apply sound_pairLevel hinv.1
      exact fun p hp hlevel => hfirst (hlevel ▸ hinv.2 p hp)
    · intro p hp
      rw [List.mem_append, List.mem_singleton]
      exact (level_pairLevel p hp).imp (hinv.2 p) id
  have hstart : lists.Sound [] := ⟨fun _ h => (List.not_mem_nil h).elim, .nil⟩
  exact (@Transition.foldl_rounds _ _ _
    (fun before pairs => lists.Sound pairs ∧ ∀ p ∈ pairs, p.level ∈ before) _ _
    ⟨hstart, fun _ h => (List.not_mem_nil h).elim⟩ hround).1

theorem Apart.mislabelled {p q : Pair} (hp : lists.Sourced p) (hapart : lists.Apart p q)
    (h : p.tbaMatch = q.tbaMatch) : Mislabelled lists.eventKey p.tbaMatch.tbaMatch := by
  obtain ⟨hlevel, hexp⟩ := hapart.matches_ (congrArg Listed.index h)
  have hkey := (expected_some hexp).2.1
  rw [← h] at hkey
  refine ⟨q.level, q.row.first.number, hkey, ?_⟩
  rcases hp.how with hnum | ⟨-, hgroup⟩
  · have hkey' := (expected_some hnum).2.1
    rw [hkey] at hkey'
    exact absurd (expectedTbaKey_inj hkey').1.symm hlevel
  · rw [(mem_tbaByAlliances.mp hgroup).2.1]
    exact hlevel

theorem Sound.once {pairs : List Pair} (h : lists.Sound pairs) {p q : Pair} (hp : p ∈ pairs)
    (hq : q ∈ pairs) : p.tbaMatch = q.tbaMatch →
      p = q ∨ Mislabelled lists.eventKey p.tbaMatch.tbaMatch := by
  have hlater : pairs.Pairwise fun a b => a.tbaMatch = b.tbaMatch →
      a = b ∨ Mislabelled lists.eventKey a.tbaMatch.tbaMatch := by
    apply h.apart.imp_of_mem
    intro a b ha _ hab heq
    exact .inr (hab.mislabelled (h.sourced a ha) heq)
  apply List.Pairwise.forall_of_forall_of_flip (fun _ _ _ => .inl rfl) hlater ?_ hp hq
  apply hlater.imp
  intro a b hab heq
  rw [heq]
  exact (hab heq.symm).imp Eq.symm id

/-- No row is used twice. -/
theorem Sound.rows_nodup {pairs : List Pair} (h : lists.Sound pairs) :
    (pairs.map fun p => (p.level, p.row.first)).Nodup := by
  rw [List.nodup_iff_pairwise_ne, List.pairwise_map]
  apply h.apart.imp_of_mem
  intro p q hp hq hapart heq
  have hlevel : p.level = q.level := congrArg Prod.fst heq
  have hfirst : p.row.first = q.row.first := congrArg Prod.snd heq
  have hrow := (mem_postedRows (h.sourced p hp).row).2
  rw [hfirst, (mem_postedRows (h.sourced q hq).row).2] at hrow
  exact hapart.rows hlevel (Option.some.inj hrow).symm

end Lists

/-! ### Which robots stand where -/

def other : Color → Color
  | .red => .blue
  | .blue => .red

/-- Every robot the row lists on the side stands there in the match. -/
def Pair.RobotsStand (p : Pair) (c : Color) : Prop :=
  p.row.first.robots c ⊆ p.tbaMatch.tbaMatch.numbers c

instance (p : Pair) (c : Color) : Decidable (p.RobotsStand c) :=
  inferInstanceAs (Decidable (p.row.first.robots c ⊆ p.tbaMatch.tbaMatch.numbers c))

/-- What a lineup accepted under the usual number agrees in. -/
structure Agrees (level : Level) (first : FirstMatch) (m : TbaMatch) : Prop where
  apart : ∀ c, ∀ n ∈ first.robots c, n ∉ m.numbers (other c)
  shared : ∀ c, (matched m first c).Nonempty
  three : 3 ≤ (matched m first .red).card + (matched m first .blue).card
  missing : (differing m first .red).card + (differing m first .blue).card ≤ allowed level
  fixed : level = .qualification → ∀ c, (first.numbers c).card ≤ (m.numbers c).card →
    first.robots c ⊆ m.numbers c

theorem robots_subset (first : FirstMatch) (c : Color) : first.robots c ⊆ first.numbers c :=
  Finset.filter_subset _ _

theorem agrees_of_sameLineup {level : Level} {first : FirstMatch} {m : TbaMatch}
    (h : sameLineup m first level = true) : Agrees level first m := by
  simp only [sameLineup, Bool.and_eq_true, decide_eq_true_eq] at h
  obtain ⟨⟨⟨⟨-, hred, hblue⟩, hone⟩, hthree⟩, hmissing⟩ := h
  constructor
  case apart =>
    intro c n hn hother
    have hin := Finset.mem_inter.mpr ⟨robots_subset first c hn, hother⟩
    cases c with
    | red => exact Finset.notMem_empty n (hred ▸ hin)
    | blue => exact Finset.notMem_empty n (hblue ▸ hin)
  case shared =>
    intro c
    rw [← Finset.card_pos]
    cases c with
    | red => exact hone.trans (Nat.min_le_left _ _)
    | blue => exact hone.trans (Nat.min_le_right _ _)
  case three => exact hthree
  case missing => exact hmissing
  case fixed =>
    intro hlevel c hcard
    rw [hlevel, allowed, Nat.le_zero, Nat.add_eq_zero_iff, Finset.card_eq_zero,
      Finset.card_eq_zero] at hmissing
    have hlisted : m.numbers c ⊆ first.numbers c := by
      rw [← Finset.sdiff_eq_empty_iff_subset]
      cases c with
      | red => exact hmissing.1
      | blue => exact hmissing.2
    rw [Finset.eq_of_subset_of_card_le hlisted hcard]
    exact robots_subset first c

theorem keyNumber_teamKey {n : Int} (h : 0 < n) : keyNumber (teamKey n) = some n := by
  obtain ⟨k, rfl⟩ := Int.eq_ofNat_of_zero_le h.le
  have hdigits : (teamKey k).toList.drop 3 = Nat.toDigits 10 k := by
    have hnat : (toString (k : Int)).toList = Nat.toDigits 10 k := Nat.toList_repr
    rw [teamKey, String.toList_append, hnat]
    rfl
  have hall : (Nat.toDigits 10 k).all Char.isDigit := by
    rw [List.all_eq_true]
    exact fun c hc => Nat.isDigit_of_mem_toDigits (by omega) (by omega) hc
  rw [keyNumber, hdigits, if_pos ⟨Nat.toDigits_ne_nil, hall⟩, Nat.ofDigitChars_ten_toDigits]

theorem sides?_some {side : Color → Finset String} {s : Sides} (h : sides? side = some s) :
    side .red = s.red ∧ side .blue = s.blue := by
  rw [sides?] at h
  split at h
  · cases h
    exact ⟨rfl, rfl⟩
  · cases h

/-- Matches of the same alliances have the same teams on each side. -/
theorem side_eq {first : FirstMatch} {m : TbaMatch} {s : Sides}
    (hfirst : firstAlliances first = some s) (hm : tbaAlliances m = some s) (c : Color) :
    first.side c = m.side c := by
  have hs := sides?_some hfirst
  have hs' := sides?_some hm
  cases c with
  | red => exact hs.1.trans hs'.1.symm
  | blue => exact hs.2.trans hs'.2.symm

theorem robots_stand {first : FirstMatch} {m : TbaMatch} {c : Color}
    (h : first.side c = m.side c) : first.robots c ⊆ m.numbers c := by
  intro n hn
  have hpos : 0 < n := (Finset.mem_filter.mp hn).2
  have hkey : teamKey n ∈ m.side c := h ▸ Finset.mem_image_of_mem teamKey hn
  rw [TbaMatch.numbers, List.mem_toFinset, List.mem_filterMap]
  exact ⟨teamKey n, List.mem_toFinset.mp hkey, keyNumber_teamKey hpos⟩

/-- A pair of the same alliances, or one the usual numbering made. -/
def Pair.LinedUp (p : Pair) : Prop :=
  (∀ c, p.row.first.side c = p.tbaMatch.tbaMatch.side c ∧ p.RobotsStand c) ∨
    Agrees p.level p.row.first p.tbaMatch.tbaMatch

theorem Lists.Sourced.linedUp {lists : Lists} {p : Pair} (h : lists.Sourced p) : p.LinedUp := by
  rcases h.how with hnum | ⟨-, hgroup⟩
  · exact .inr (agrees_of_sameLineup (Lists.expected_some hnum).2.2)
  · left
    intro c
    have hrow := (row?_some (mem_postedRows h.row).2).2.1
    have hside := side_eq hrow (mem_tbaByAlliances.mp hgroup).2.2 c
    exact ⟨hside, robots_stand hside⟩

/-! ### What a call returns -/

theorem levelsWaiting_nodup (tbaMatches : List TbaMatch) (results : String → Option Snapshot)
    (now : Int) : (levelsWaiting tbaMatches results now).Nodup :=
  List.filter_sublist.nodup (by decide)

/-- TBA has no result for the entry's match, and a pair has filled it. -/
structure FilledFrom (w : World) (timezone : Option String) (results : String → Option Snapshot)
    (pairs : List Pair) (e : Filled) : Prop where
  waiting : completed results e.key = false
  filledBy : ∃ p ∈ pairs, p.tbaMatch.tbaMatch.lowerKey = e.key ∧
    e.payload = asTbaPayload w p.row p.tbaMatch.tbaMatch timezone

theorem FilledFrom.mono {w : World} {timezone : Option String}
    {results : String → Option Snapshot} {pairs pairs' : List Pair} {e : Filled}
    (hsub : pairs ⊆ pairs') (h : FilledFrom w timezone results pairs e) :
    FilledFrom w timezone results pairs' e := by
  obtain ⟨hwaiting, p, hp, hmade⟩ := h
  exact ⟨hwaiting, p, hsub hp, hmade⟩

theorem mem_fill {w : World} {timezone : Option String} {results : String → Option Snapshot}
    (pairs : List Pair) : ∀ e ∈ pairs.foldl (fill w timezone results) Table.empty,
      FilledFrom w timezone results pairs e := by
  have hround : ∀ (before : List Pair) (p : Pair) (after : List Pair) (filled : FilledTable),
      pairs = before ++ p :: after →
      (∀ e ∈ filled, FilledFrom w timezone results before e) →
      ∀ e ∈ fill w timezone results filled p,
        FilledFrom w timezone results (before ++ [p]) e := by
    intro before p after filled _ hold e he
    simp only [fill] at he
    split at he
    · rename_i hopen
      rcases Table.mem_put.mp he with rfl | ⟨hin, -⟩
      · exact ⟨hopen.2, p, by simp, rfl, rfl⟩
      · exact (hold e hin).mono (List.subset_append_left _ _)
    · exact (hold e he).mono (List.subset_append_left _ _)
  exact @Transition.foldl_rounds _ _ (fill w timezone results)
    (fun before filled => ∀ e ∈ filled, FilledFrom w timezone results before e) _ _
    (fun e hin => absurd hin (Table.notMem_empty e)) hround

/-- The two lists of a call. -/
def World.lists (w : World) (eventKey : String) (tbaMatches : List TbaMatch) : Lists where
  eventKey := eventKey
  tbaMatches := tbaMatches
  posted level :=
    match w.eventMeta eventKey with
    | none => []
    | some info => w.playedMatches info.season info.code level

theorem World.sound_pairs (w : World) (eventKey : String) (tbaMatches : List TbaMatch)
    (results : String → Option Snapshot) (now : Int) :
    (w.lists eventKey tbaMatches).Sound (w.pairs eventKey tbaMatches results now) := by
  have hnone : (w.lists eventKey tbaMatches).Sound [] :=
    ⟨fun _ h => (List.not_mem_nil h).elim, .nil⟩
  rw [World.pairs]
  split
  · split
    · exact hnone
    · rename_i info hmeta
      have hlists : w.lists eventKey tbaMatches =
          ⟨eventKey, tbaMatches, w.playedMatches info.season info.code⟩ := by
        simp only [World.lists, hmeta]
      rw [hlists]
      exact Lists.sound_pairRows (levelsWaiting_nodup tbaMatches results now)
  · exact hnone

/-- Each row is used once and each match of the list filled once, unless its key belies its
level; no match TBA has completed is filled, each colour gets its own score, and the robots of
a row stand on the match's same side but for those the lineup check lets differ. -/
theorem first_results_sound (w : World) (eventKey : String) (tbaMatches : List TbaMatch)
    (results : String → Option Snapshot) (now : Int) :
    let pairs := w.pairs eventKey tbaMatches results now
    let filled := firstResultsForWaitingMatches w eventKey tbaMatches results now
    (pairs.map fun p => (p.level, p.row.first)).Nodup ∧
    (∀ p ∈ pairs, ∀ q ∈ pairs, p.tbaMatch = q.tbaMatch →
      p = q ∨ Mislabelled eventKey p.tbaMatch.tbaMatch) ∧
    (∀ p ∈ pairs, p.row.first ∈ (w.lists eventKey tbaMatches).posted p.level ∧
      tbaMatches[p.tbaMatch.index]? = some p.tbaMatch.tbaMatch ∧ p.LinedUp) ∧
    (filled.rows.map Filled.key).Nodup ∧
    ∀ e ∈ filled, completed results e.key = false ∧
      ∃ p ∈ pairs, p.tbaMatch.tbaMatch.lowerKey = e.key ∧
        p.row.first.scoreRedFinal = some e.payload.redScore ∧
        p.row.first.scoreBlueFinal = some e.payload.blueScore := by
  intro pairs filled
  have hsound : (w.lists eventKey tbaMatches).Sound pairs :=
    w.sound_pairs eventKey tbaMatches results now
  refine ⟨hsound.rows_nodup, fun p hp q hq => hsound.once hp hq, ?_, filled.unique, ?_⟩
  · intro p hp
    have hsourced := hsound.sourced p hp
    exact ⟨(mem_postedRows hsourced.row).1, listed_getElem hsourced.tbaMatch, hsourced.linedUp⟩
  · intro e he
    obtain ⟨hwaiting, p, hp, hkey, hpayload⟩ := mem_fill pairs e he
    have hrow := row?_some (mem_postedRows (hsound.sourced p hp).row).2
    rw [hpayload]
    exact ⟨hwaiting, p, hp, hkey, hrow.2.2⟩

/-- The field's eighth playoff match, in which 599 plays for 3925. -/
def rotatedRow : FirstMatch where
  matchNumber := some 8
  scoreRedFinal := some 358
  scoreBlueFinal := some 350
  actualStartTime := none
  postResultTime := none
  teams := [⟨some 5012, some "Red1"⟩, ⟨some 7415, some "Red2"⟩, ⟨some 4322, some "Red3"⟩,
    ⟨some 599, some "Blue1"⟩, ⟨some 973, some "Blue2"⟩, ⟨some 8005, some "Blue3"⟩]

def playoffMatch (key : String) (predictedTime : Int) : TbaMatch where
  key := some key
  compLevel := some "sf"
  setNumber := some 8
  matchNumber := some 1
  actualTime := none
  predictedTime := some predictedTime
  time := none
  redTeamKeys := ["frc5012", "frc7415", "frc4322"]
  blueTeamKeys := ["frc973", "frc3925", "frc8005"]

def playedRow (number : Int) : FirstMatch :=
  { rotatedRow with
    matchNumber := some number
    teams := [⟨some 5012, some "Red1"⟩, ⟨some 7415, some "Red2"⟩, ⟨some 4322, some "Red3"⟩,
      ⟨some 973, some "Blue1"⟩, ⟨some 3925, some "Blue2"⟩, ⟨some 8005, some "Blue3"⟩] }

def worldOf (posted : Level → List FirstMatch) : World where
  firstLiveResultsEnabled := true
  eventMeta _ := some ⟨2026, "catt", none⟩
  playedMatches _ _ := posted
  localToUnix _ _ := none

def rotatedWorld : World :=
  worldOf fun
    | .playoff => [rotatedRow]
    | .qualification => []

/-- The field's own numbers for one lineup, in the playoffs and among the qualifications. -/
def mislabelledWorld : World :=
  worldOf fun
    | .playoff => [playedRow 3]
    | .qualification => [playedRow 1]

/-- The match filled lists 3925 where the row lists 599; and a playoff match under a
qualification's key is paired with two rows. -/
theorem rotated_robot_filled :
    (∃ e ∈ firstResultsForWaitingMatches rotatedWorld "2026catt"
        [playoffMatch "2026catt_sf8m1" 100] (fun _ => none) 100,
      e.payload.blueScore = 350 ∧
      ∃ p ∈ rotatedWorld.pairs "2026catt" [playoffMatch "2026catt_sf8m1" 100]
        (fun _ => none) 100, p.tbaMatch.tbaMatch.lowerKey = e.key ∧ ¬ p.RobotsStand .blue) ∧
    ∃ p ∈ mislabelledWorld.pairs "2026catt"
        [playoffMatch "2026catt_qm1" 100,
          { playoffMatch "2026catt_qm2" 100 with compLevel := some "qm" }] (fun _ => none) 100,
      ∃ q ∈ mislabelledWorld.pairs "2026catt"
        [playoffMatch "2026catt_qm1" 100,
          { playoffMatch "2026catt_qm2" 100 with compLevel := some "qm" }] (fun _ => none) 100,
        p ≠ q ∧ p.tbaMatch = q.tbaMatch := by
  decide +kernel

end Frcmob.FirstResults
