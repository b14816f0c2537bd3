import Frcmob.Schedule.OneKey
import Mathlib.Data.List.Find

/-!
What a run of line-up writes stores: for each match the last full line-up, with the partial ones
after it laid over. Each write is committed before the next.
-/

namespace Frcmob.Schedule

variable {table : Lineups} {links : List MatchTeam} {k : String}

/-! ### What is meant -/

abbrev Lineup := String → Option MatchTeam

/-- The line-up that a write names for a match: the first listing of each robot. -/
def listed (k : String) (links : List MatchTeam) : Lineup := fun team =>
  links.find? fun row => row.slot = (k, team)

/-- It has both alliances. -/
def Full (k : String) (links : List MatchTeam) : Prop :=
  ∀ alliance, ∃ team row, listed k links team = some row ∧ row.alliance = alliance

def overlay (k : String) (base : Lineup) (links : List MatchTeam) : Lineup := fun team =>
  (listed k links team).or (base team)

/-- What the database stores for a match. -/
def stored (k : String) (table : Lineups) : Lineup := fun team =>
  table.get? (k, team)

/-! ### One write -/

theorem find?_firstLinks (links : List MatchTeam) (slot : String × String) :
    (firstLinks links).find? (fun row => row.slot = slot) =
      links.find? fun row => row.slot = slot := by
  induction links using List.reverseRecOn with
  | nil => rfl
  | append_singleton links link ih =>
      rw [firstLinks_concat, List.find?_append, ← ih]
      split
      · rename_i hseen
        obtain ⟨row, hrow, hslot⟩ := List.mem_map.mp hseen
        by_cases hlink : link.slot = slot
        · have hsome : ((firstLinks links).find? fun row => row.slot = slot).isSome :=
            List.find?_isSome.mpr ⟨row, hrow, decide_eq_true (hslot.trans hlink)⟩
          rw [Option.or_of_isSome hsome]
        · rw [List.find?_cons_of_neg (by simpa using hlink), List.find?_nil, Option.or_none]
      · rw [List.find?_append]

theorem slot_and_matchKey (row : MatchTeam) (team : String) :
    decide (decide (row.matchKey = k) = true ∧ decide (row.slot = (k, team)) = true) =
      decide (row.slot = (k, team)) := by
  rw [decide_eq_decide, decide_eq_true_eq, decide_eq_true_eq, and_iff_right_iff_imp]
  exact fun hslot => (Prod.mk.inj hslot).1

theorem nodup_firstLinks (links : List MatchTeam) : ((firstLinks links).map (·.slot)).Nodup := by
  induction links using List.reverseRecOn with
  | nil => exact List.nodup_nil
  | append_singleton links link ih =>
      rw [firstLinks_concat]
      split
      · exact ih
      · rename_i hnew
        rw [List.map_append, List.nodup_append]
        refine ⟨ih, List.nodup_singleton _, fun slot hslot other hother heq => ?_⟩
        rw [List.map_singleton, List.mem_singleton] at hother
        exact hnew (hother ▸ heq ▸ hslot)

theorem find?_eq_some_iff {rows : List MatchTeam} (hnodup : (rows.map (·.slot)).Nodup)
    {slot : String × String} {row : MatchTeam} :
    rows.find? (fun row => row.slot = slot) = some row ↔ row ∈ rows ∧ row.slot = slot :=
  @Table.get?_eq_some _ _ _ _ ⟨rows, hnodup⟩ slot row

theorem mem_firstLinks {row : MatchTeam} :
    row ∈ firstLinks links ↔ listed row.matchKey links row.teamKey = some row := by
  rw [listed, ← find?_firstLinks, find?_eq_some_iff (nodup_firstLinks links)]
  exact (and_iff_left rfl).symm

/-- The rows of a write for one match. -/
def rowsFor (k : String) (links : List MatchTeam) : List MatchTeam :=
  (firstLinks links).filter fun row => row.matchKey = k

theorem matchKey_of_mem_rowsFor {row : MatchTeam} (h : row ∈ rowsFor k links) :
    row.matchKey = k :=
  of_decide_eq_true (List.mem_filter.mp h).2

theorem find?_rowsFor (k : String) (links : List MatchTeam) (team : String) :
    (rowsFor k links).find? (fun row => row.slot = (k, team)) = listed k links team := by
  rw [rowsFor, List.find?_filter, listed, ← find?_firstLinks]
  exact List.find?_congr fun row _ => slot_and_matchKey row team

theorem alliance_mem_iff {alliance : Alliance} :
    alliance ∈ (rowsFor k links).map (·.alliance) ↔
      ∃ team row, listed k links team = some row ∧ row.alliance = alliance := by
  rw [List.mem_map]
  constructor
  · rintro ⟨row, hrow, rfl⟩
    obtain rfl := matchKey_of_mem_rowsFor hrow
    exact ⟨row.teamKey, row, mem_firstLinks.mp (List.mem_filter.mp hrow).1, rfl⟩
  · rintro ⟨team, row, hrow, rfl⟩
    rw [← find?_rowsFor] at hrow
    exact ⟨row, List.mem_of_find?_eq_some hrow, rfl⟩

theorem full_iff : Full k links ↔ Alliance.red ∈ (rowsFor k links).map (·.alliance) ∧
    Alliance.blue ∈ (rowsFor k links).map (·.alliance) := by
  rw [alliance_mem_iff, alliance_mem_iff]
  exact ⟨fun h => ⟨h .red, h .blue⟩, fun h alliance => by cases alliance; exacts [h.1, h.2]⟩

instance : Decidable (Full k links) :=
  decidable_of_iff _ full_iff.symm

/-- The line-up after a write, from the one before it. -/
def written (k : String) (base : Lineup) (links : List MatchTeam) : Lineup :=
  if Full k links then listed k links else overlay k base links

theorem stored_congr {table' : Lineups} (h : table.under k = table'.under k) :
    stored k table = stored k table' := by
  have hfind (t : Lineups) (team : String) :
      stored k t team = (t.under k).find? fun row => row.slot = (k, team) := by
    rw [Lineups.under, List.find?_filter]
    exact (List.find?_congr fun row _ => (slot_and_matchKey row team).symm)
  funext team
  rw [hfind, hfind, h]

theorem stored_writeLineup {rows : List MatchTeam} (hnodup : (rows.map (·.slot)).Nodup)
    (hrows : ∀ row ∈ rows, row.matchKey = k) (table : Lineups) (team : String) :
    stored k (writeLineup table (k, rows)) team =
      (rows.find? fun row => row.slot = (k, team)).or
        (if Alliance.red ∈ rows.map (·.alliance) ∧ Alliance.blue ∈ rows.map (·.alliance) then none
          else stored k table team) := by
  have hreverse : rows.reverse.find? (fun row => row.slot = (k, team)) =
      rows.find? fun row => row.slot = (k, team) := by
    have hnodup' : (rows.reverse.map (·.slot)).Nodup := by
      rwa [List.map_reverse, List.nodup_reverse]
    ext row
    rw [find?_eq_some_iff hnodup', find?_eq_some_iff hnodup, List.mem_reverse]
  rw [stored, writeLineup, Table.get?_putAll, hreverse]
  split
  · cases hfind : rows.find? fun row => row.slot = (k, team) with
    | some row => rfl
    | none =>
        rw [Option.none_or, Option.none_or, Table.get?_eq_none]
        rintro row hrow hslot
        obtain ⟨hk, hteam⟩ := Prod.mk.inj hslot
        rcases of_decide_eq_true (Table.mem_filter.mp hrow).2 with hne | hkept
        · exact hne hk
        · obtain ⟨other, hother, hsame⟩ := List.mem_map.mp hkept
          refine List.find?_eq_none.mp hfind other hother (decide_eq_true ?_)
          exact Prod.ext (hrows other hother) (hsame.trans hteam)
  · rfl

theorem stored_writeMatchLineups (table : Lineups) (links : List MatchTeam) (k : String) :
    stored k (writeMatchLineups table links) = written k (stored k table) links := by
  have hunder : (writeMatchLineups table links).under k =
      ((Grouping.group (·.matchKey) id (rowsFor k links)).foldl writeLineup table).under k := by
    rw [writeMatchLineups, under_foldl_writeLineup _ rfl, Grouping.filter_group]
    · rfl
    intro lineup hlineup row hrow
    rw [Grouping.mem_group hlineup, List.map_id, List.mem_filter] at hrow
    exact of_decide_eq_true hrow.2
  rw [stored_congr hunder]
  funext team
  by_cases hnone : rowsFor k links = []
  · have hlisted : listed k links = fun _ => none := by
      funext team
      rw [← find?_rowsFor, hnone]
      rfl
    have hpart : ¬ Full k links := by
      rw [full_iff, hnone]
      exact fun h => List.not_mem_nil h.1
    rw [hnone, written, if_neg hpart, overlay, hlisted, Option.none_or]
    rfl
  · have hnodup : ((rowsFor k links).map (·.slot)).Nodup :=
      (nodup_firstLinks links).sublist (List.filter_sublist.map _)
    rw [Grouping.group_eq_singleton hnone fun row => matchKey_of_mem_rowsFor, List.map_id,
      List.foldl_cons, List.foldl_nil, stored_writeLineup hnodup
        (fun row => matchKey_of_mem_rowsFor), find?_rowsFor, written]
    by_cases hfull : Full k links
    · rw [if_pos hfull, if_pos (full_iff.mp hfull), Option.or_none]
    · rw [if_neg hfull, if_neg (fun h => hfull (full_iff.mpr h)), overlay]

/-! ### Runs -/

def writeAll (table : Lineups) (writes : List (List MatchTeam)) : Lineups :=
  writes.foldl writeMatchLineups table

theorem stored_writeAll (table : Lineups) (writes : List (List MatchTeam)) (k : String) :
    stored k (writeAll table writes) = writes.foldl (written k) (stored k table) := by
  induction writes generalizing table with
  | nil => rfl
  | cons links writes ih =>
      rw [writeAll, List.foldl_cons, List.foldl_cons, ← stored_writeMatchLineups]
      exact ih _

theorem foldl_written_part {writes : List (List MatchTeam)}
    (hpart : ∀ links ∈ writes, ¬ Full k links) (base : Lineup) :
    writes.foldl (written k) base = writes.foldl (overlay k) base := by
  induction writes generalizing base with
  | nil => rfl
  | cons links writes ih =>
      rw [List.foldl_cons, List.foldl_cons, written, if_neg (hpart links List.mem_cons_self)]
      exact ih (fun l hl => hpart l (List.mem_cons_of_mem _ hl)) _

theorem written_of_unnamed (h : ∀ row ∈ links, row.matchKey ≠ k) (base : Lineup) :
    written k base links = base := by
  have hlisted : listed k links = fun _ => none := by
    funext team
    rw [listed, List.find?_eq_none]
    intro row hrow hslot
    exact h row hrow (Prod.mk.inj (of_decide_eq_true hslot)).1
  have hpart : ¬ Full k links := fun hfull => by
    obtain ⟨team, row, hrow, -⟩ := hfull .red
    rw [hlisted] at hrow
    exact absurd hrow (by simp)
  rw [written, if_neg hpart]
  funext team
  rw [overlay, hlisted, Option.none_or]

theorem written_written (base : Lineup) (links : List MatchTeam) :
    written k (written k base links) links = written k base links := by
  rw [written, written]
  split
  · rfl
  · funext team
    rw [overlay, overlay, ← Option.or_assoc, Option.or_self]

/-- A match's line-up is its last full one with the partial ones after it laid over, those of the
start where none is full. A match that is not named keeps its line-up, and a write repeated changes
none. -/
theorem stored_lineups (table : Lineups) (writes : List (List MatchTeam)) (k : String) :
    (∀ before last after, writes = before ++ last :: after → Full k last →
      (∀ links ∈ after, ¬ Full k links) →
      stored k (writeAll table writes) = after.foldl (overlay k) (listed k last)) ∧
    ((∀ links ∈ writes, ¬ Full k links) →
      stored k (writeAll table writes) = writes.foldl (overlay k) (stored k table)) ∧
    ((∀ links ∈ writes, ∀ row ∈ links, row.matchKey ≠ k) →
      stored k (writeAll table writes) = stored k table) ∧
    ∀ last, stored k (writeAll table (writes ++ [last, last])) =
      stored k (writeAll table (writes ++ [last])) := by
  refine ⟨?_, fun hpart => ?_, fun hunnamed => ?_, fun last => ?_⟩
  · rintro before last after rfl hfull hpart
    rw [stored_writeAll, List.foldl_append, List.foldl_cons, foldl_written_part hpart,
      written, if_pos hfull]
  · rw [stored_writeAll, foldl_written_part hpart]
  · rw [stored_writeAll]
    refine List.foldlRecOn (motive := fun base => base = stored k table) writes (written k) rfl ?_
    intro base hbase links hlinks
    rw [written_of_unnamed (hunnamed links hlinks), hbase]
  · rw [stored_writeAll, stored_writeAll, List.foldl_append, List.foldl_append]
    exact written_written _ last

end Frcmob.Schedule
