import Frcmob.Schedule.Places

/-!
When the keys of FRC Events' matches name one match each: where no two matches have one place.
Then what is stored under a match's key is what its own rows store. Matches of one place take
each other's key from refresh to refresh.
-/

namespace Frcmob.Schedule

/-! ### Line-ups -/

def Lineups.under (k : String) (table : Lineups) : List MatchTeam :=
  table.rows.filter fun row => row.matchKey = k

theorem matchKey_of_slot {k : String} {x : MatchTeam} (h : x.matchKey = k) {y : MatchTeam}
    (hslot : y.slot = x.slot) : y.matchKey = k :=
  (Prod.mk.inj hslot).1.trans h

theorem firstLinks_concat (links : List MatchTeam) (link : MatchTeam) :
    firstLinks (links ++ [link]) =
      if link.slot ∈ (firstLinks links).map (·.slot) then firstLinks links
      else firstLinks links ++ [link] := by
  rw [firstLinks, List.foldl_append]
  rfl

theorem slot_mem_filter {links : List MatchTeam} {link : MatchTeam} :
    link.slot ∈ (links.filter fun row => row.matchKey = link.matchKey).map (·.slot) ↔
      link.slot ∈ links.map (·.slot) := by
  simp only [List.mem_map, List.mem_filter, decide_eq_true_eq]
  constructor
  · rintro ⟨row, ⟨hrow, -⟩, hslot⟩
    exact ⟨row, hrow, hslot⟩
  · rintro ⟨row, hrow, hslot⟩
    exact ⟨row, ⟨hrow, matchKey_of_slot rfl hslot⟩, hslot⟩

theorem filter_firstLinks (links : List MatchTeam) (k : String) :
    (firstLinks links).filter (fun row => row.matchKey = k) =
      firstLinks (links.filter fun row => row.matchKey = k) := by
  induction links using List.reverseRecOn with
  | nil => rfl
  | append_singleton links link ih =>
      rw [firstLinks_concat, List.filter_append, List.filter_singleton]
      by_cases hk : link.matchKey = k
      · subst hk
        rw [decide_eq_true rfl, cond_true, firstLinks_concat, ← ih]
        simp only [slot_mem_filter]
        split
        · rfl
        · rw [List.filter_append, List.filter_singleton, decide_eq_true rfl, cond_true]
      · rw [decide_eq_false hk, cond_false, List.append_nil, ← ih]
        split
        · rfl
        · rw [List.filter_append, List.filter_singleton, decide_eq_false hk, cond_false,
            List.append_nil]

/-- One match's line-up, seen from its own rows. -/
theorem under_writeLineup {table table' : Lineups} {lineup : String × List MatchTeam}
    (hrows : ∀ row ∈ lineup.2, row.matchKey = lineup.1)
    (h : table.under lineup.1 = table'.under lineup.1) :
    (writeLineup table lineup).under lineup.1 = (writeLineup table' lineup).under lineup.1 := by
  apply Table.filter_rows_putAll_congr
  · intro row hrow y hy
    exact decide_eq_true (matchKey_of_slot (hrows row hrow) hy)
  · split
    · change (table.rows.filter _).filter _ = (table'.rows.filter _).filter _
      rw [List.filter_comm, List.filter_comm _ _ table'.rows]
      exact congrArg _ h
    · exact h

/-- Other matches' line-ups stay. -/
theorem under_writeLineup_of_ne {table : Lineups} {lineup : String × List MatchTeam} {k : String}
    (hrows : ∀ row ∈ lineup.2, row.matchKey = lineup.1) (hne : lineup.1 ≠ k) :
    (writeLineup table lineup).under k = table.under k := by
  refine (Table.filter_rows_putAll _ ?_).trans ?_
  · intro row hrow y hy
    exact decide_eq_false fun hk =>
      hne ((hrows row hrow).symm.trans (matchKey_of_slot hk hy.symm))
  · split
    · change (table.rows.filter _).filter _ = _
      rw [List.filter_filter]
      apply List.filter_congr
      intro row _
      by_cases hk : row.matchKey = k
      · simp [hk, hne.symm]
      · simp [hk]
    · rfl

theorem under_foldl_writeLineup {lineups : List (String × List MatchTeam)} {k : String}
    (hrows : ∀ lineup ∈ lineups, ∀ row ∈ lineup.2, row.matchKey = lineup.1)
    {table table' : Lineups} (h : table.under k = table'.under k) :
    (lineups.foldl writeLineup table).under k =
      ((lineups.filter fun lineup => lineup.1 = k).foldl writeLineup table').under k := by
  induction lineups generalizing table table' with
  | nil => exact h
  | cons lineup rest ih =>
      have hrest := fun l hl => hrows l (List.mem_cons_of_mem _ hl)
      have hhead := hrows lineup List.mem_cons_self
      by_cases hk : lineup.1 = k
      · subst hk
        rw [List.filter_cons_of_pos (by simp), List.foldl_cons, List.foldl_cons]
        exact ih hrest (under_writeLineup hhead h)
      · rw [List.filter_cons_of_neg (by simpa using hk), List.foldl_cons]
        exact ih hrest ((under_writeLineup_of_ne hhead hk).trans h)

/-- What is written under a key are the links of that key. -/
theorem under_writeMatchLineups {table table' : Lineups} {links links' : List MatchTeam}
    {k : String} (h : table.under k = table'.under k)
    (hlinks : links.filter (fun row => row.matchKey = k) =
      links'.filter fun row => row.matchKey = k) :
    (writeMatchLineups table links).under k = (writeMatchLineups table' links').under k := by
  have hrows : ∀ links : List MatchTeam,
      ∀ lineup ∈ Grouping.group (·.matchKey) id (firstLinks links),
        ∀ row ∈ lineup.2, row.matchKey = lineup.1 := by
    intro links lineup hlineup row hrow
    rw [Grouping.mem_group hlineup, List.map_id, List.mem_filter] at hrow
    exact of_decide_eq_true hrow.2
  rw [writeMatchLineups, under_foldl_writeLineup (hrows links) h, Grouping.filter_group,
    filter_firstLinks, hlinks, writeMatchLineups, under_foldl_writeLineup (hrows links') rfl,
    Grouping.filter_group, filter_firstLinks]

/-! ### Rows -/

/-- What an answer brings of a match. -/
structure Brought where
  of : FirstMatch
  startTime : Option Int
  teams : Option (List FirstTeam)
deriving DecidableEq

def Brought.toRow (b : Brought) : FirstRow where
  tournamentLevel := b.of.tournamentLevel
  description := b.of.description
  matchNumber := some b.of.matchNumber
  series := b.of.series
  startTime := b.startTime
  teams := b.teams

/-- The row of a match stored under the key of its place. -/
def Brought.keyed (eventKey : String) (b : Brought) : KeyedRow :=
  ⟨(placeOf b.of).key eventKey, b.of.comp.1, b.of.comp.2.1, b.of.comp.2.2, b.toRow⟩

theorem Brought.keyed_matchKey (eventKey : String) (b : Brought) :
    (b.keyed eventKey).matchKey = (placeOf b.of).key eventKey := by
  simp only [Brought.keyed]

theorem keyedRows_cons (eventKey : String) (idx : Nat) (seen : List String) (b : Brought)
    (rest : List Brought) (h : (placeOf b.of).key eventKey ∉ seen) :
    keyedRows eventKey idx seen ((b :: rest).map Brought.toRow) =
      b.keyed eventKey ::
        keyedRows eventKey (idx + 1) ((placeOf b.of).key eventKey :: seen)
          (rest.map Brought.toRow) := by
  have hkey : canonicalMatchKey eventKey b.of.comp.1 b.of.comp.2.1 b.of.comp.2.2 seen idx =
      (placeOf b.of).key eventKey := by
    rw [canonicalMatchKey, baseKey_eq]
    exact if_pos h
  have hcomp : firstLevelToComp b.toRow.tournamentLevel b.toRow.description
      (b.toRow.matchNumber.getD idx) b.toRow.series = b.of.comp := rfl
  rw [List.map_cons, keyedRows, hcomp, hkey, Brought.keyed]

/-- Where places differ every row of an answer gets the key of its place. -/
theorem keyedRows_eq (eventKey : String) {rows : List Brought}
    (hplaces : (rows.map fun b => placeOf b.of).Nodup) (idx : Nat) (seen : List String)
    (hseen : ∀ b ∈ rows, (placeOf b.of).key eventKey ∉ seen) :
    keyedRows eventKey idx seen (rows.map Brought.toRow) = rows.map (·.keyed eventKey) := by
  induction rows generalizing idx seen with
  | nil => rfl
  | cons b rest ih =>
      rw [List.map_cons, List.nodup_cons] at hplaces
      rw [keyedRows_cons _ _ _ _ _ (hseen b List.mem_cons_self), List.map_cons]
      congr 1
      apply ih hplaces.2
      intro c hc hmem
      rcases List.mem_cons.mp hmem with hkey | hmem
      · exact hplaces.1 (Place.key_inj hkey ▸ List.mem_map_of_mem hc)
      · exact hseen c (List.mem_cons_of_mem _ hc) hmem

theorem matchKey_of_mem_teamLinks {eventKey matchKey : String} {teams : List FirstTeam}
    {stations : StationIndex} {link : MatchTeam}
    (h : link ∈ teamLinks eventKey matchKey stations teams) : link.matchKey = matchKey := by
  induction teams generalizing stations with
  | nil => cases h
  | cons team rest ih =>
      rw [teamLinks] at h
      split at h
      · exact ih h
      · split at h
        · exact ih h
        · dsimp only at h
          split at h
          · rcases List.mem_cons.mp h with rfl | hrest
            · rfl
            · exact ih hrest
          · rcases List.mem_cons.mp h with rfl | hrest
            · rfl
            · exact ih hrest

theorem matchKey_of_mem_links {eventKey : String} {keyed : KeyedRow} {link : MatchTeam}
    (h : link ∈ keyed.links eventKey) : link.matchKey = keyed.matchKey := by
  rw [KeyedRow.links] at h
  split at h
  · cases h
  · exact matchKey_of_mem_teamLinks h

/-- The links under a match's key come from its own rows. -/
theorem filter_links (eventKey : String) {rows : List Brought} {m : FirstMatch}
    (hplace : ∀ b ∈ rows, placeOf b.of = placeOf m → b.of = m) :
    ((rows.map (·.keyed eventKey)).flatMap (·.links eventKey)).filter
        (fun link => link.matchKey = (placeOf m).key eventKey) =
      ((rows.filter fun b => b.of = m).map (·.keyed eventKey)).flatMap (·.links eventKey) := by
  induction rows with
  | nil => rfl
  | cons b rest ih =>
      have hrest := ih fun c hc => hplace c (List.mem_cons_of_mem _ hc)
      rw [List.map_cons, List.flatMap_cons, List.filter_append, hrest]
      by_cases hb : b.of = m
      · have hall : ∀ link ∈ (b.keyed eventKey).links eventKey,
            decide (link.matchKey = (placeOf m).key eventKey) = true := by
          intro link hlink
          rw [decide_eq_true_eq, matchKey_of_mem_links hlink, Brought.keyed_matchKey, hb]
        rw [List.filter_eq_self.mpr hall, List.filter_cons_of_pos (by simpa using hb),
          List.map_cons, List.flatMap_cons]
      · have hnone : ∀ link ∈ (b.keyed eventKey).links eventKey,
            ¬decide (link.matchKey = (placeOf m).key eventKey) = true := by
          intro link hlink
          rw [decide_eq_true_eq, matchKey_of_mem_links hlink, Brought.keyed_matchKey]
          exact fun hkey => hb (hplace b List.mem_cons_self (Place.key_inj hkey))
        rw [List.filter_eq_nil_iff.mpr hnone, List.filter_cons_of_neg (by simpa using hb),
          List.nil_append]

theorem KeyedRow.toMatch_matchKey (eventKey : String) (keyed : KeyedRow) :
    (keyed.toMatch eventKey).matchKey = keyed.matchKey := rfl

theorem find?_toMatch (eventKey : String) {rows : List Brought} {m : FirstMatch}
    (hplace : ∀ b ∈ rows, placeOf b.of = placeOf m → b.of = m) :
    (((rows.map (·.keyed eventKey)).map (·.toMatch eventKey)).find?
        fun row => row.matchKey = (placeOf m).key eventKey) =
      ((((rows.filter fun b => b.of = m).map (·.keyed eventKey)).map
        (·.toMatch eventKey)).find? fun row => row.matchKey = (placeOf m).key eventKey) := by
  induction rows with
  | nil => rfl
  | cons b rest ih =>
      have hrest := ih fun c hc => hplace c (List.mem_cons_of_mem _ hc)
      rw [List.map_cons, List.map_cons]
      by_cases hb : b.of = m
      · have hkey : ((b.keyed eventKey).toMatch eventKey).matchKey =
            (placeOf m).key eventKey := by
          rw [← hb, KeyedRow.toMatch_matchKey, Brought.keyed_matchKey]
        rw [List.filter_cons_of_pos (by simpa using hb), List.map_cons, List.map_cons,
          List.find?_cons_of_pos (by simpa using hkey),
          List.find?_cons_of_pos (by simpa using hkey)]
      · have hkey : ((b.keyed eventKey).toMatch eventKey).matchKey ≠
            (placeOf m).key eventKey := by
          rw [KeyedRow.toMatch_matchKey, Brought.keyed_matchKey]
          exact fun hkey => hb (hplace b List.mem_cons_self (Place.key_inj hkey))
        rw [List.filter_cons_of_neg (by simpa using hb),
          List.find?_cons_of_neg (by simpa using hkey), hrest]

/-! ### Refreshes -/

/-- The answers of a refresh, level by level. -/
abbrev Refresh := List (Option (List Brought))

namespace Refresh

def rows (refresh : Refresh) : List Brought :=
  refresh.flatMap (·.getD [])

structure Brings (refresh : Refresh) (M : Set FirstMatch) : Prop where
  distinct : (refresh.rows.map (·.of)).Nodup
  mem : ∀ b ∈ refresh.rows, b.of ∈ M

def apply (eventKey : String) (db : ScheduleDb) (refresh : Refresh) : ScheduleDb :=
  refreshEventSchedule eventKey (refresh.map (·.map (·.map Brought.toRow))) db

/-- The matches that a refresh stores, with their keys. -/
def stored (eventKey : String) (refresh : Refresh) : List (FirstMatch × String) :=
  (refresh.rows.map (·.of)).zip
    ((keyedRows eventKey 1 [] (refresh.rows.map Brought.toRow)).map (·.matchKey))

/-- The refresh had it brought one match. -/
def only (m : FirstMatch) (refresh : Refresh) : Refresh :=
  refresh.map (·.map (·.filter fun b => b.of = m))

end Refresh

/-- What is stored under a key. -/
def ScheduleDb.under (k : String) (db : ScheduleDb) : Option Match × List MatchTeam :=
  (db.matches'.get? k, db.matchTeams.under k)

/-- Every match has a key of its own in every refresh of a run, and under that key the run stores
what its rows of that match alone store. -/
def OneKeyEach (eventKey : String) (M : Set FirstMatch) : Prop :=
  ∃ keyOf : FirstMatch → String, Set.InjOn keyOf M ∧
    ∀ run : List Refresh, (∀ refresh ∈ run, refresh.Brings M) →
      (∀ refresh ∈ run, ∀ row ∈ refresh.stored eventKey, row.2 = keyOf row.1) ∧
      ∀ m ∈ M, ∀ db : ScheduleDb,
        (run.foldl (Refresh.apply eventKey) db).under (keyOf m) =
          ((run.map (Refresh.only m)).foldl (Refresh.apply eventKey) db).under (keyOf m)

/-! ### Runs -/

variable {eventKey : String} {M : Set FirstMatch}

theorem Refresh.rows_only (m : FirstMatch) (refresh : Refresh) :
    (refresh.only m).rows = refresh.rows.filter fun b => b.of = m := by
  induction refresh with
  | nil => rfl
  | cons answer rest ih =>
      cases answer with
      | none => exact ih
      | some rows =>
          change rows.filter _ ++ (Refresh.only m rest).rows = (rows ++ Refresh.rows rest).filter _
          rw [ih, List.filter_append]

theorem Refresh.all_isNone_only (m : FirstMatch) (refresh : Refresh) :
    (refresh.only m).all Option.isNone = refresh.all Option.isNone := by
  induction refresh with
  | nil => rfl
  | cons answer rest ih =>
      rw [List.all_cons, ← ih]
      cases answer with
      | none => rfl
      | some rows => rfl

theorem Refresh.apply_eq (db : ScheduleDb) (refresh : Refresh) :
    refresh.apply eventKey db =
      if refresh.all Option.isNone then db
      else
        let keyed := keyedRows eventKey 1 [] (refresh.rows.map Brought.toRow)
        { matches' := db.matches'.putAll (keyed.map (·.toMatch eventKey))
          matchTeams := writeMatchLineups db.matchTeams (keyed.flatMap (·.links eventKey)) } := by
  have hall : (refresh.map (Option.map (List.map Brought.toRow))).all Option.isNone =
      refresh.all Option.isNone := by
    rw [List.all_map]
    congr 1
    funext answer
    exact Option.isNone_map
  have hrows : (refresh.map (Option.map (List.map Brought.toRow))).flatMap (·.getD []) =
      refresh.rows.map Brought.toRow := by
    rw [Refresh.rows, List.flatMap_map, List.map_flatMap]
    congr 1
    funext answer
    cases answer with
    | none => rfl
    | some rows => rfl
  rw [Refresh.apply, refreshEventSchedule, hall, hrows]

theorem Refresh.Brings.only {refresh : Refresh} (h : refresh.Brings M) (m : FirstMatch) :
    (refresh.only m).Brings M where
  distinct := by
    rw [Refresh.rows_only]
    exact (List.filter_sublist.map _).nodup h.distinct
  mem b hb := by
    rw [Refresh.rows_only] at hb
    exact h.mem b (List.mem_of_mem_filter hb)

section
variable (hplaces : Set.InjOn placeOf M)
include hplaces

/-- Each row of a refresh is stored under the key of its place. -/
theorem Refresh.Brings.keyedRows_eq {refresh : Refresh} (h : refresh.Brings M) :
    keyedRows eventKey 1 [] (refresh.rows.map Brought.toRow) =
      refresh.rows.map (·.keyed eventKey) := by
  apply Schedule.keyedRows_eq
  · have hmap : refresh.rows.map (fun b => placeOf b.of) = (refresh.rows.map (·.of)).map placeOf :=
      List.map_map.symm
    rw [hmap]
    apply List.Nodup.map_on _ h.distinct
    simp only [List.mem_map]
    rintro _ ⟨b, hb, rfl⟩ _ ⟨c, hc, rfl⟩ heq
    exact hplaces (h.mem b hb) (h.mem c hc) heq
  · exact fun _ _ => List.not_mem_nil

theorem Refresh.Brings.key_eq {refresh : Refresh} (h : refresh.Brings M)
    {row : FirstMatch × String} (hrow : row ∈ refresh.stored eventKey) :
    row.2 = (placeOf row.1).key eventKey := by
  rw [Refresh.stored, h.keyedRows_eq hplaces, List.map_map, List.zip_map', List.mem_map] at hrow
  obtain ⟨b, -, rfl⟩ := hrow
  exact b.keyed_matchKey eventKey

/-- Under a match's key a refresh stores what its row of that match stores. -/
theorem Refresh.Brings.under_apply {refresh : Refresh} (h : refresh.Brings M) {m : FirstMatch}
    (hm : m ∈ M) {db db' : ScheduleDb}
    (hdb : db.under ((placeOf m).key eventKey) = db'.under ((placeOf m).key eventKey)) :
    (refresh.apply eventKey db).under ((placeOf m).key eventKey) =
      ((refresh.only m).apply eventKey db').under ((placeOf m).key eventKey) := by
  have hplace : ∀ b ∈ refresh.rows, placeOf b.of = placeOf m → b.of = m :=
    fun b hb heq => hplaces (h.mem b hb) hm heq
  obtain ⟨hmatch, hteams⟩ := Prod.mk.inj hdb
  rw [Refresh.apply_eq, Refresh.apply_eq, Refresh.all_isNone_only, h.keyedRows_eq hplaces,
    (h.only m).keyedRows_eq hplaces, Refresh.rows_only]
  split
  · exact hdb
  · refine Prod.ext ?_ ?_
    · change Table.get? (Table.putAll _ _) _ = Table.get? (Table.putAll _ _) _
      rw [Table.get?_putAll, Table.get?_putAll, hmatch, ← List.map_reverse, ← List.map_reverse,
        ← List.map_reverse, ← List.map_reverse, ← List.filter_reverse, find?_toMatch]
      exact fun b hb => hplace b (List.mem_reverse.mp hb)
    · apply under_writeMatchLineups hteams
      rw [filter_links eventKey hplace, filter_links eventKey, List.filter_filter]
      · simp only [Bool.and_self]
      · exact fun b hb => hplace b (List.mem_of_mem_filter hb)

theorem under_run {run : List Refresh} (hrun : ∀ refresh ∈ run, refresh.Brings M)
    {m : FirstMatch} (hm : m ∈ M) {db db' : ScheduleDb}
    (hdb : db.under ((placeOf m).key eventKey) = db'.under ((placeOf m).key eventKey)) :
    (run.foldl (Refresh.apply eventKey) db).under ((placeOf m).key eventKey) =
      ((run.map (Refresh.only m)).foldl (Refresh.apply eventKey) db').under
        ((placeOf m).key eventKey) := by
  induction run generalizing db db' with
  | nil => exact hdb
  | cons refresh rest ih =>
      have hhead := hrun refresh List.mem_cons_self
      exact ih (fun r hr => hrun r (List.mem_cons_of_mem _ hr)) (hhead.under_apply hplaces hm hdb)

end

theorem stored_single (eventKey : String) (b : Brought) :
    Refresh.stored eventKey [some [b]] = [(b.of, (placeOf b.of).key eventKey)] := by
  have hkeyed := keyedRows_cons eventKey 1 [] b [] List.not_mem_nil
  have hstored : Refresh.stored eventKey [some [b]] =
      [b.of].zip ((keyedRows eventKey 1 [] ([b].map Brought.toRow)).map (·.matchKey)) := rfl
  rw [hstored, hkeyed, List.map_cons, Brought.keyed_matchKey]
  rfl

/-- A refresh of one match tells its key. -/
theorem OneKeyEach.stored_eq {keyOf : FirstMatch → String}
    (h : ∀ run : List Refresh, (∀ refresh ∈ run, refresh.Brings M) →
      ∀ refresh ∈ run, ∀ row ∈ refresh.stored eventKey, row.2 = keyOf row.1)
    {b : Brought} (hb : b.of ∈ M) : (placeOf b.of).key eventKey = keyOf b.of := by
  have hbrings : Refresh.Brings [some [b]] M :=
    ⟨List.nodup_singleton _, fun c hc => List.mem_singleton.mp hc ▸ hb⟩
  have hrow := h [[some [b]]] (by simpa using hbrings) _ List.mem_cons_self
  rw [stored_single] at hrow
  exact hrow _ List.mem_cons_self

/-- The keys name one match each where no two matches have one place, and only there. -/
theorem oneKeyEach_iff (eventKey : String) (M : Set FirstMatch) :
    OneKeyEach eventKey M ↔ ∀ a ∈ M, ∀ b ∈ M, placeOf a = placeOf b → a = b := by
  constructor
  · rintro ⟨keyOf, hinj, hrun⟩ a ha b hb heq
    have hkey : ∀ m ∈ M, (placeOf m).key eventKey = keyOf m := fun m hm =>
      OneKeyEach.stored_eq (b := ⟨m, none, none⟩) (fun run hr => (hrun run hr).1) hm
    apply hinj ha hb
    rw [← hkey a ha, ← hkey b hb, heq]
  · intro h
    have hplaces : Set.InjOn placeOf M := fun a ha b hb => h a ha b hb
    refine ⟨fun m => (placeOf m).key eventKey, ?_, fun run hrun => ⟨?_, ?_⟩⟩
    · exact fun a ha b hb hkey => hplaces ha hb (Place.key_inj hkey)
    · exact fun refresh hrefresh row hrow => (hrun refresh hrefresh).key_eq hplaces hrow
    · exact fun m hm db => under_run hplaces hrun hm rfl

/-- The practice match is gone when the qualification match of its number comes. -/
theorem practice_overwritten :
    let practice : Brought :=
      ⟨⟨some "Practice", some "Practice 1", 1, none⟩, some 100, some [⟨some 1, some "Red1"⟩]⟩
    let qualification : Brought :=
      ⟨⟨some "Qualification", some "Qualification 1", 1, none⟩, some 200,
        some [⟨some 2, some "Red1"⟩]⟩
    let first := Refresh.apply "2026abc" ⟨.empty, .empty⟩ [some [practice]]
    let second := Refresh.apply "2026abc" first [some [qualification]]
    practice.of ≠ qualification.of ∧
      first.under "2026abc_qm1" =
        (some ⟨"2026abc_qm1", "2026abc", "qm", 0, 1, some 100⟩,
          [⟨"2026abc_qm1", "frc1", "2026abc", .red, "Red1"⟩]) ∧
      second.under "2026abc_qm1" =
        (some ⟨"2026abc_qm1", "2026abc", "qm", 1, 1, some 200⟩,
          [⟨"2026abc_qm1", "frc1", "2026abc", .red, "Red1"⟩,
            ⟨"2026abc_qm1", "frc2", "2026abc", .red, "Red1"⟩]) ∧
      ¬OneKeyEach "2026abc" {practice.of, qualification.of} := by
  refine ⟨by decide, by decide +kernel, by decide +kernel, ?_⟩
  rintro ⟨keyOf, hinj, hrun⟩
  have hkeys := fun run hr => (hrun run hr).1
  have hplace : placeOf ⟨some "Practice", some "Practice 1", 1, none⟩ =
      placeOf ⟨some "Qualification", some "Qualification 1", 1, none⟩ := by decide +kernel
  have hpractice := OneKeyEach.stored_eq hkeys
    (b := ⟨⟨some "Practice", some "Practice 1", 1, none⟩, none, none⟩) (.inl rfl)
  have hqualification := OneKeyEach.stored_eq hkeys
    (b := ⟨⟨some "Qualification", some "Qualification 1", 1, none⟩, none, none⟩) (.inr rfl)
  dsimp only at hpractice hqualification
  rw [hplace] at hpractice
  have hsame := hinj (.inl rfl) (.inr rfl) (hpractice.symm.trans hqualification)
  exact absurd hsame (by decide)

end Frcmob.Schedule
