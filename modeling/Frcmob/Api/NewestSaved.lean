import Frcmob.Api.ResponseStore

/-!
The newest saved answer. A put that goes into one store leaves what the other one has, and a get
asks Cache Storage first, so the copy that is found need not be the last that was put.
-/

namespace Frcmob.ResponseStore
open Transition

/-- Copies of one put. -/
def Row.Same (row row' : Row) : Prop :=
  row.body = row'.body ∧ row.retainUntil = row'.retainUntil

/-- The copies of a key that are not over are those of the last put of it that reported success,
and one is there unless that has expired or been dropped. -/
structure Held (now : Nat) (last : Option Saved) (cache database : Option Row) : Prop where
  cached : ∀ row, cache = some row → row.over now = false →
    ∃ saved, last = some saved ∧ row.Same saved.row ∧ saved.inCache = true
  kept : ∀ row, database = some row → now < row.retainUntil →
    ∃ saved, last = some saved ∧ row.Same saved.row ∧ saved.inDatabase = true
  there : ∀ saved, last = some saved → now < saved.row.retainUntil → saved.dropped = false →
    (∃ row, cache = some row ∧ row.over now = false) ∨
      ∃ row, database = some row ∧ now < row.retainUntil

/-- What the put that is being checked has written is there unless a prune has dropped it, and
the database has no copy that is not over. -/
structure Checking (s : Store) (saved : Saved) : Prop where
  own : ∀ row, s.cache.get? saved.row.key = some row → row.Same saved.row
  inCache : saved.inCache = true
  dropped : saved.dropped = (s.cache.get? saved.row.key).isNone
  other : ∀ row, s.database.get? saved.row.key = some row → row.retainUntil ≤ s.now

def Store.Held (s : Store) (key : String) : Prop :=
  ResponseStore.Held s.now (s.last key) (s.cache.get? key) (s.database.get? key)

structure Inv (s : Store) : Prop where
  held : ∀ key, (∀ saved, s.checking = some saved → saved.row.key ≠ key) → s.Held key
  checking : ∀ saved, s.checking = some saved → Checking s saved
  answers : ∀ answer ∈ s.answers, answer.Newest

/-! ### One key -/

theorem not_over {row : Row} {now : Nat} (h : now < row.retainUntil) : row.over now = false := by
  simp [Row.over, h]

section Key
variable {now : Nat} {last : Option Saved} {cache database : Option Row}

theorem Held.tick (h : Held now last cache database) (ms : Nat) :
    Held (now + ms) last cache database := by
  refine ⟨fun row hrow hlive => ?_, fun row hrow hlive => ?_, fun saved hsaved hlive hdropped => ?_⟩
  · refine h.cached row hrow ?_
    simp only [Row.over, Bool.and_eq_false_iff, decide_eq_false_iff_not] at hlive ⊢
    exact hlive.imp_right fun hle => by omega
  · exact h.kept row hrow (by omega)
  · cases h.there saved hsaved (by omega) hdropped with
    | inl hcache =>
        obtain ⟨row, hrow, hover⟩ := hcache
        obtain ⟨saved', hsaved', hsame, -⟩ := h.cached row hrow hover
        obtain rfl : saved' = saved := Option.some_inj.mp (hsaved'.symm.trans hsaved)
        exact .inl ⟨row, hrow, not_over (hsame.2 ▸ hlive)⟩
    | inr hdatabase =>
        obtain ⟨row, hrow, hover⟩ := hdatabase
        obtain ⟨saved', hsaved', hsame, -⟩ := h.kept row hrow hover
        obtain rfl : saved' = saved := Option.some_inj.mp (hsaved'.symm.trans hsaved)
        exact .inr ⟨row, hrow, hsame.2 ▸ hlive⟩

/-- A prune takes the copy in Cache Storage. -/
theorem Held.dropCache (h : Held now last cache database) :
    Held now (last.map fun saved => { saved with dropped := saved.dropped || saved.inCache })
      none database := by
  refine ⟨nofun, fun row hrow hlive => ?_, fun saved hsaved hlive hdropped => ?_⟩
  · obtain ⟨saved, hsaved, hsame, hin⟩ := h.kept row hrow hlive
    exact ⟨_, congrArg _ hsaved, hsame, hin⟩
  · obtain ⟨before, hbefore, rfl⟩ := Option.map_eq_some_iff.mp hsaved
    obtain ⟨hkept, hout⟩ := Bool.or_eq_false_iff.mp hdropped
    refine .inr ((h.there before hbefore hlive hkept).resolve_left ?_)
    rintro ⟨row, hrow, hover⟩
    obtain ⟨saved', hsaved', -, hin⟩ := h.cached row hrow hover
    obtain rfl : saved' = before := Option.some_inj.mp (hsaved'.symm.trans hbefore)
    exact Bool.false_ne_true (hout.symm.trans hin)

/-- A prune takes the row in the database. -/
theorem Held.dropDatabase (h : Held now last cache database) :
    Held now (last.map fun saved => { saved with dropped := saved.dropped || saved.inDatabase })
      cache none := by
  refine ⟨fun row hrow hlive => ?_, nofun, fun saved hsaved hlive hdropped => ?_⟩
  · obtain ⟨saved, hsaved, hsame, hin⟩ := h.cached row hrow hlive
    exact ⟨_, congrArg _ hsaved, hsame, hin⟩
  · obtain ⟨before, hbefore, rfl⟩ := Option.map_eq_some_iff.mp hsaved
    obtain ⟨hkept, hout⟩ := Bool.or_eq_false_iff.mp hdropped
    refine .inl ((h.there before hbefore hlive hkept).resolve_right ?_)
    rintro ⟨row, hrow, hover⟩
    obtain ⟨saved', hsaved', -, hin⟩ := h.kept row hrow hover
    obtain rfl : saved' = before := Option.some_inj.mp (hsaved'.symm.trans hbefore)
    exact Bool.false_ne_true (hout.symm.trans hin)

/-- A copy that is over is taken out of Cache Storage. -/
theorem Held.clearCache (h : Held now last cache database)
    (hover : ∀ row, cache = some row → row.over now = true) : Held now last none database := by
  refine ⟨nofun, h.kept, fun saved hsaved hlive hdropped => ?_⟩
  refine .inr ((h.there saved hsaved hlive hdropped).resolve_left ?_)
  rintro ⟨row, hrow, hnot⟩
  exact Bool.false_ne_true (hnot.symm.trans (hover row hrow))

/-- A row that is over is taken out of the database. -/
theorem Held.clearDatabase (h : Held now last cache database)
    (hover : ∀ row, database = some row → row.retainUntil ≤ now) : Held now last cache none := by
  refine ⟨h.cached, nofun, fun saved hsaved hlive hdropped => ?_⟩
  refine .inl ((h.there saved hsaved hlive hdropped).resolve_right ?_)
  rintro ⟨row, hrow, hnot⟩
  exact absurd (hover row hrow) (Nat.not_le.mpr hnot)

/-- A put that has gone into the database. -/
theorem held_database {saved : Saved} {row : Row} (hsame : row.Same saved.row)
    (hdatabase : saved.inDatabase = true)
    (hcache : ∀ row, cache = some row → row.over now = false →
      row.Same saved.row ∧ saved.inCache = true) :
    Held now (some saved) cache (some row) := by
  refine ⟨fun other hother hlive => ⟨saved, rfl, hcache other hother hlive⟩,
    fun other hother _ => ⟨saved, rfl, Option.some_inj.mp hother ▸ hsame, hdatabase⟩,
    fun other hother hlive _ => .inr ⟨row, rfl, ?_⟩⟩
  obtain rfl := Option.some_inj.mp hother
  exact hsame.2 ▸ hlive

end Key

/-! ### Both stores -/

section Stores
variable {s : Store}

/-- A key whose put is not being checked. -/
def Store.Idle (s : Store) (key : String) : Prop :=
  ∀ saved, s.checking = some saved → saved.row.key ≠ key

theorem idle_of_none (h : s.checking = none) (key : String) : s.Idle key := by
  intro saved hsaved
  rw [h] at hsaved
  cases hsaved

theorem Inv.setPrune (h : Inv s) (i : Nat) (stage : Option PruneStage) :
    Inv (s.setPrune i stage) := by
  cases stage with
  | none => exact ⟨h.held, fun saved hsaved => let c := h.checking saved hsaved
      ⟨c.own, c.inCache, c.dropped, c.other⟩, h.answers⟩
  | some stage => exact ⟨h.held, fun saved hsaved => let c := h.checking saved hsaved
      ⟨c.own, c.inCache, c.dropped, c.other⟩, h.answers⟩

theorem Inv.tick (h : Inv s) (ms : Nat) : Inv { s with now := s.now + ms } := by
  refine ⟨fun key hidle => (h.held key hidle).tick ms, fun saved hsaved => ?_, h.answers⟩
  obtain ⟨hown, hin, hdropped, hother⟩ := h.checking saved hsaved
  exact ⟨hown, hin, hdropped, fun row hrow => Nat.le_add_right_of_le (hother row hrow)⟩

/-- A prune takes a key from Cache Storage, also while the put of that key is being checked. -/
theorem Inv.dropCached (h : Inv s) (key : String) : Inv (s.dropCached key) := by
  have hother : ∀ other, other ≠ key → (s.cache.erase key).get? other = s.cache.get? other :=
    fun other hne => Table.get?_erase_of_ne hne
  rw [Store.dropCached]
  split
  · exact h
  · split
    · rename_i hchecked
      obtain ⟨saved, hsaved, hkey⟩ := (Option.any_eq_true _ _).mp hchecked
      obtain rfl : saved.row.key = key := of_decide_eq_true hkey
      obtain ⟨-, hin, -, hover⟩ := h.checking saved hsaved
      refine ⟨fun other hidle => ?_, fun dropped hdropped => ?_, h.answers⟩
      · have hne : saved.row.key ≠ other :=
          hidle { saved with dropped := true } (congrArg (Option.map _) hsaved)
        have hheld := h.held other fun saved' hsaved' => by
          obtain rfl : saved' = saved := Option.some_inj.mp (hsaved'.symm.trans hsaved)
          exact hne
        rw [Store.Held, ← hother other hne.symm] at hheld
        exact hheld
      · obtain ⟨before, hbefore, rfl⟩ := Option.map_eq_some_iff.mp hdropped
        obtain rfl : before = saved := Option.some_inj.mp (hbefore.symm.trans hsaved)
        have hgone : (s.cache.erase before.row.key).get? before.row.key = none :=
          Table.get?_erase_self _ _
        refine ⟨fun row hrow => ?_, hin, ?_, hover⟩
        · exact absurd (hgone.symm.trans hrow) nofun
        · exact (congrArg Option.isNone hgone).symm
    · rename_i hnot
      have hidleKey : s.Idle key := by
        intro saved hsaved heq
        exact hnot ((Option.any_eq_true _ _).mpr ⟨saved, hsaved, decide_eq_true heq⟩)
      refine ⟨fun other hidle => ?_, fun saved hsaved => ?_, h.answers⟩
      · by_cases heq : other = key
        · subst heq
          have hheld := (h.held other hidleKey).dropCache
          rw [Store.Held]
          dsimp only
          rw [Function.update_self, Table.get?_erase_self]
          exact hheld
        · have hheld := h.held other hidle
          rw [Store.Held]
          dsimp only
          rw [Function.update_of_ne heq, hother other heq]
          exact hheld
      · have hne := hidleKey saved hsaved
        obtain ⟨hown, hin, hdropped, hover⟩ := h.checking saved hsaved
        rw [← hother _ hne] at hown hdropped
        exact ⟨hown, hin, hdropped, hover⟩

theorem get?_pruneDatabase {rows : Rows} {now : Nat} {key : String} {row : Row}
    (h : (pruneDatabaseResponses rows now).get? key = some row) : rows.get? key = some row := by
  rw [pruneDatabaseResponses, Table.get?_filter, Table.get?_filter] at h
  exact (Option.filter_eq_some_iff.mp (Option.filter_eq_some_iff.mp h).1).1

theorem Inv.pruneDatabase (h : Inv s) : Inv s.pruneDatabase := by
  refine ⟨fun key hidle => ?_, fun saved hsaved => ?_, h.answers⟩
  · have hheld := h.held key hidle
    rw [Store.Held] at hheld ⊢
    rw [Store.pruneDatabase]
    dsimp only
    cases hpruned : (pruneDatabaseResponses s.database s.now).get? key with
    | some row =>
        rw [get?_pruneDatabase hpruned] at hheld ⊢
        exact hheld
    | none =>
        cases hrow : s.database.get? key with
        | none =>
            rw [hrow] at hheld
            exact hheld
        | some row => exact hheld.dropDatabase
  · obtain ⟨hown, hin, hdropped, hover⟩ := h.checking saved hsaved
    exact ⟨hown, hin, hdropped, fun row hrow => hover row (get?_pruneDatabase hrow)⟩

theorem Inv.pruneStep (h : Inv s) (i : Nat) (works : Bool) (stage : PruneStage) :
    Inv (s.pruneStep i works stage) := by
  unfold Store.pruneStep
  split
  · exact h.pruneDatabase.setPrune _ _
  · exact h.setPrune _ _
  · exact h.setPrune _ _
  · split
    · split
      · exact h.setPrune _ _
      · split <;> exact h.setPrune _ _
    · exact h.setPrune _ _
  · split
    · exact (h.dropCached _).setPrune _ _
    · exact h.setPrune _ _
  · exact h.setPrune _ _
  · split
    · exact (h.dropCached _).setPrune _ _
    · exact h.setPrune _ _

/-- A put has gone into the database, and Cache Storage has no copy of another one. -/
theorem Inv.putDatabase {saved : Saved} (hnone : s.checking = none)
    (hanswers : ∀ answer ∈ s.answers, answer.Newest)
    (hkeys : ∀ key, key ≠ saved.row.key → s.Held key)
    (hcache : ∀ row, s.cache.get? saved.row.key = some row → row.over s.now = false →
      row.Same saved.row ∧ saved.inCache = true) : Inv (s.putDatabase saved) := by
  refine ⟨fun key _ => ?_, fun saved' hsaved' => ?_, hanswers⟩
  · by_cases heq : key = saved.row.key
    · have hlast : (s.putDatabase saved).last key = some { saved with inDatabase := true } := by
        rw [heq]
        exact Function.update_self ..
      have hrow : (s.putDatabase saved).database.get? key =
          some { saved.row with storedAt := s.now } := by
        rw [heq]
        exact Table.get?_put_self s.database { saved.row with storedAt := s.now }
      rw [Store.Held, hlast, hrow, heq]
      exact held_database ⟨rfl, rfl⟩ rfl hcache
    · have hlast : (s.putDatabase saved).last key = s.last key := Function.update_of_ne heq ..
      have hne : key ≠ ({ saved.row with storedAt := s.now } : Row).key := heq
      have hrow : (s.putDatabase saved).database.get? key = s.database.get? key :=
        Table.get?_put_of_ne hne
      rw [Store.Held, hlast, hrow]
      exact hkeys key heq
  · have hchecking : s.checking = some saved' := hsaved'
    rw [hnone] at hchecking
    cases hchecking

theorem Inv.put (h : Inv s) (hnone : s.checking = none) {requestKey bodyText : String}
    {info : Meta} {opens puts : Bool}
    (hother : s.other requestKey (s.native || !opens || !puts) = none) :
    Inv (s.putStoredResponse requestKey bodyText info opens puts) := by
  have hkeys : ∀ key, s.Held key := fun key => h.held key (idle_of_none hnone key)
  unfold Store.putStoredResponse
  extract_lets row
  split
  · rename_i hfallback
    rw [Store.other, if_pos hfallback, Store.cached, Option.filter_eq_none_iff] at hother
    refine Inv.putDatabase hnone h.answers (fun key _ => hkeys key) fun copy hcopy hlive => ?_
    exact absurd (congrArg (! ·) hlive) (hother copy hcopy)
  · rename_i hcache
    rw [Store.other, if_neg hcache, Store.kept, Option.filter_eq_none_iff] at hother
    have hput : ((s.cache.erase requestKey).put row).get? requestKey = some row :=
      Table.get?_put_self _ row
    refine ⟨fun key hidle => ?_, fun saved hsaved => ?_, h.answers⟩
    · have hne : key ≠ requestKey := (hidle _ rfl).symm
      have hsame : ((s.cache.erase requestKey).put row).get? key = s.cache.get? key :=
        (Table.get?_put_of_ne hne).trans (Table.get?_erase_of_ne hne)
      have hheld := hkeys key
      rw [Store.Held, ← hsame] at hheld
      exact hheld
    · obtain rfl := Option.some_inj.mp hsaved
      refine ⟨fun copy hcopy => ?_, rfl, ?_, fun copy hcopy => ?_⟩
      · obtain rfl := Option.some_inj.mp (hput.symm.trans hcopy)
        exact ⟨rfl, rfl⟩
      · exact (congrArg Option.isNone hput).symm
      · have hnot := hother copy hcopy
        rw [decide_eq_true_eq] at hnot
        exact Nat.not_lt.mp hnot

theorem Inv.check (h : Inv s) {saved : Saved} (hsaved : s.checking = some saved)
    {matches' : Bool} (hthere : matches' = true →
      (s.cache.get? saved.row.key).isSome ∨ s.gone saved.row.key = true) :
    Inv (s.check saved matches') := by
  obtain ⟨hown, hin, hdropped, hover⟩ := h.checking saved hsaved
  have hkeys : ∀ key, key ≠ saved.row.key → s.Held key := by
    intro key hne
    refine h.held key fun other hother => ?_
    obtain rfl := Option.some_inj.mp (hsaved.symm.trans hother)
    exact hne.symm
  unfold Store.check
  extract_lets s'
  split
  · refine Inv.putDatabase rfl h.answers hkeys fun row hrow hlive => ⟨hown row hrow, ?_⟩
    have hcopy : s.cache.get? saved.row.key = some row := hrow
    rw [hdropped, hcopy]
    rfl
  · rename_i hmatches
    have hmatches' : matches' = true := by simpa using hmatches
    have hdead : ∀ row, s.database.get? saved.row.key = some row →
        ¬ s.now < row.retainUntil := fun row hrow => Nat.not_lt.mpr (hover row hrow)
    split
    · rename_i hsome
      refine ⟨fun key _ => ?_, nofun, h.answers⟩
      by_cases heq : key = saved.row.key
      · have hlast : (s'.succeeded saved).last key = some saved := by
          rw [heq]
          exact Function.update_self ..
        rw [Store.Held, hlast, heq]
        refine ⟨fun row hrow _ => ⟨saved, rfl, hown row hrow, hin⟩,
          fun row hrow hlive => absurd hlive (hdead row hrow), fun other hother hlive _ => .inl ?_⟩
        obtain rfl := Option.some_inj.mp hother
        obtain ⟨row, hrow⟩ := Option.isSome_iff_exists.mp hsome
        exact ⟨row, hrow, not_over ((hown row hrow).2 ▸ hlive)⟩
      · have hlast : (s'.succeeded saved).last key = s.last key := Function.update_of_ne heq ..
        rw [Store.Held, hlast]
        exact hkeys key heq
    · rename_i hnone
      have hgone := (hthere hmatches').resolve_left hnone
      refine ⟨fun key _ => ?_, nofun, h.answers⟩
      by_cases heq : key = saved.row.key
      · subst heq
        refine ⟨fun row hrow _ => ?_, fun row hrow hlive => absurd hlive (hdead row hrow),
          fun before hbefore hlive hkept => ?_⟩
        · have hcopy : s.cache.get? saved.row.key = some row := hrow
          exact absurd (by rw [hcopy]; rfl) hnone
        · have hlast : s.last saved.row.key = some before := hbefore
          rw [Store.gone, hlast] at hgone
          simp only [Option.all_some, Bool.or_eq_true, decide_eq_true_eq] at hgone
          cases hgone with
          | inl hexpired => exact absurd hlive (Nat.not_lt.mpr hexpired)
          | inr hdrop => exact absurd (hkept.symm.trans hdrop) Bool.false_ne_true
      · exact hkeys key heq

/-- What the database has, and what it keeps. -/
theorem getDatabaseResponse_spec (rows : Rows) (key : String) (now : Nat) :
    (getDatabaseResponse rows key now).2 =
        (rows.get? key).filter (fun row => now < row.retainUntil) ∧
      (∀ other, other ≠ key → (getDatabaseResponse rows key now).1.get? other = rows.get? other) ∧
      ((getDatabaseResponse rows key now).1.get? key = rows.get? key ∨
        (getDatabaseResponse rows key now).1.get? key = none ∧
          ∀ row, rows.get? key = some row → row.retainUntil ≤ now) := by
  rw [getDatabaseResponse]
  cases hrow : rows.get? key with
  | none => exact ⟨rfl, fun _ _ => rfl, .inl hrow⟩
  | some row =>
      dsimp only
      split
      · rename_i hover
        refine ⟨?_, fun other hne => Table.get?_erase_of_ne hne, .inr ⟨Table.get?_erase_self _ _, ?_⟩⟩
        · exact (Option.filter_eq_none_iff.mpr fun found hfound => by
            obtain rfl := Option.some_inj.mp hfound
            simpa using hover).symm
        · intro found hfound
          obtain rfl := Option.some_inj.mp hfound
          exact hover
      · rename_i hlive
        refine ⟨?_, fun _ _ => rfl, .inl hrow⟩
        rw [Option.filter_some, if_pos (decide_eq_true (Nat.not_le.mp hlive))]

theorem Inv.clearCache (h : Inv s) (hnone : s.checking = none) {requestKey : String}
    (hover : ∀ row, s.cache.get? requestKey = some row → row.over s.now = true) :
    Inv { s with cache := s.cache.erase requestKey } := by
  refine ⟨fun key _ => ?_, fun saved hsaved => ?_, h.answers⟩
  · have hheld := h.held key (idle_of_none hnone key)
    rw [Store.Held] at hheld ⊢
    dsimp only
    by_cases heq : key = requestKey
    · subst heq
      rw [Table.get?_erase_self]
      exact hheld.clearCache hover
    · rw [Table.get?_erase_of_ne heq]
      exact hheld
  · exact absurd (hnone.symm.trans hsaved) nofun

theorem Inv.getFallback (h : Inv s) (hnone : s.checking = none) (requestKey : String) :
    Inv (s.getFallback requestKey).1 := by
  obtain ⟨-, hothers, hown⟩ := getDatabaseResponse_spec s.database requestKey s.now
  refine ⟨fun key _ => ?_, fun saved hsaved => ?_, h.answers⟩
  · have hheld := h.held key (idle_of_none hnone key)
    rw [Store.Held] at hheld ⊢
    rw [Store.getFallback]
    dsimp only
    by_cases heq : key = requestKey
    · subst heq
      cases hown with
      | inl hsame =>
          rw [hsame]
          exact hheld
      | inr hcleared =>
          rw [hcleared.1]
          exact hheld.clearDatabase hcleared.2
    · rw [hothers key heq]
      exact hheld
  · have hchecking : s.checking = some saved := hsaved
    exact absurd (hnone.symm.trans hchecking) nofun

/-- What a get finds in the database is right if Cache Storage has no copy that is not over or
the database has one. -/
theorem Held.newest_fallback {now : Nat} {last : Option Saved} {cache database : Option Row}
    (h : Held now last cache database)
    (hneeds : (∀ row, cache = some row → row.over now = true) ∨
      ∃ row, database = some row ∧ now < row.retainUntil) :
    Answer.Newest {
      atMs := now
      last := last
      found := (database.filter fun row => now < row.retainUntil).map Row.stored } := by
  refine ⟨fun response hresponse => ?_, fun saved hsaved hlive hdropped => ?_⟩
  · obtain ⟨row, hrow, rfl⟩ := Option.map_eq_some_iff.mp hresponse
    obtain ⟨hdatabase, hrowLive⟩ := Option.filter_eq_some_iff.mp hrow
    obtain ⟨saved, hsaved, hsame, -⟩ := h.kept row hdatabase (of_decide_eq_true hrowLive)
    exact ⟨saved, hsaved, hsame.1⟩
  · have hthere : ∃ row, database = some row ∧ now < row.retainUntil := by
      cases hneeds with
      | inr hkept => exact hkept
      | inl hover =>
          refine (h.there saved hsaved hlive hdropped).resolve_left ?_
          rintro ⟨row, hrow, hnot⟩
          exact Bool.false_ne_true (hnot.symm.trans (hover row hrow))
    obtain ⟨row, hdatabase, hrowLive⟩ := hthere
    have hkept : database.filter (fun row => now < row.retainUntil) = some row :=
      Option.filter_eq_some_iff.mpr ⟨hdatabase, decide_eq_true hrowLive⟩
    exact ⟨row.stored, congrArg (Option.map Row.stored) hkept⟩

theorem Held.newest_hit {now : Nat} {last : Option Saved} {hit : Row} {database : Option Row}
    (h : Held now last (some hit) database) (hlive : hit.over now = false) :
    Answer.Newest { atMs := now, last := last, found := some hit.stored } := by
  obtain ⟨saved, hsaved, hsame, -⟩ := h.cached hit rfl hlive
  refine ⟨fun response hresponse => ⟨saved, hsaved, ?_⟩, fun _ _ _ _ => ⟨_, rfl⟩⟩
  obtain rfl := Option.some_inj.mp hresponse
  exact hsame.1

theorem Inv.answered (h : Inv s) {answer : Answer} (hanswer : answer.Newest) :
    Inv { s with answers := answer :: s.answers } := by
  refine ⟨h.held, fun saved hsaved => ?_, fun other hother => ?_⟩
  · obtain ⟨hown, hin, hdropped, hover⟩ := h.checking saved hsaved
    exact ⟨hown, hin, hdropped, hover⟩
  · cases List.mem_cons.mp hother with
    | inl heq => exact heq ▸ hanswer
    | inr hold => exact h.answers other hold

theorem getFallback_found (s : Store) (requestKey : String) : (s.getFallback requestKey).2 =
    ((s.database.get? requestKey).filter fun row => s.now < row.retainUntil).map Row.stored :=
  congrArg (Option.map Row.stored) (getDatabaseResponse_spec s.database requestKey s.now).1

theorem Inv.get (h : Inv s) (hnone : s.checking = none) {requestKey : String}
    {opens matches' deletes : Bool} (hneeds : (s.native || !opens || !matches') = true →
      s.cached requestKey = none ∨ s.kept requestKey ≠ none) :
    Inv (s.get requestKey opens matches' deletes) := by
  have hheld : s.Held requestKey := h.held requestKey (idle_of_none hnone requestKey)
  -- a get that ends in the database
  have hfallback : ∀ t : Store, Inv t → t.checking = none → t.now = s.now →
      t.database = s.database → t.answers = s.answers →
      ((∀ row, s.cache.get? requestKey = some row → row.over s.now = true) ∨
        ∃ row, s.database.get? requestKey = some row ∧ s.now < row.retainUntil) →
      Inv { (t.getFallback requestKey).1 with answers := {
        atMs := s.now
        last := s.last requestKey
        found := (t.getFallback requestKey).2 } :: s.answers } := by
    intro t ht htnone hnow hdatabase hanswers hright
    have hfound := getFallback_found t requestKey
    rw [hnow, hdatabase] at hfound
    rw [hfound, ← hanswers]
    exact (ht.getFallback htnone requestKey).answered (hheld.newest_fallback hright)
  rw [Store.get, Store.getStoredResponse]
  split
  · rename_i hfails
    refine hfallback s h hnone rfl rfl rfl ((hneeds hfails).imp (fun hcached => ?_) fun hkept => ?_)
    · intro row hrow
      have hnot := Option.filter_eq_none_iff.mp hcached row hrow
      simpa using hnot
    · obtain ⟨row, hrow⟩ := Option.ne_none_iff_exists'.mp hkept
      obtain ⟨hin, hlive⟩ := Option.filter_eq_some_iff.mp hrow
      exact ⟨row, hin, of_decide_eq_true hlive⟩
  · split
    · rename_i hmiss
      refine hfallback s h hnone rfl rfl rfl (.inl fun row hrow => ?_)
      exact absurd (hmiss.symm.trans hrow) nofun
    · rename_i hit hhit
      have hown : ∀ row, s.cache.get? requestKey = some row → row = hit :=
        fun row hrow => Option.some_inj.mp (hrow.symm.trans hhit)
      split
      · rename_i hover
        have hdead : ∀ row, s.cache.get? requestKey = some row → row.over s.now = true :=
          fun row hrow => hown row hrow ▸ hover
        cases deletes with
        | true =>
            exact hfallback { s with cache := s.cache.erase requestKey }
              (h.clearCache hnone hdead) hnone rfl rfl rfl (.inl hdead)
        | false => exact hfallback s h hnone rfl rfl rfl (.inl hdead)
      · rename_i hlive
        rw [Store.Held, hhit] at hheld
        exact h.answered (hheld.newest_hit (Bool.eq_false_iff.mpr hlive))

end Stores

/-! ### Every run -/

theorem inv_step (s : Store) (a : StoreAction) (t : Store) (h : Inv s) (hok : OneStore s a)
    (hstep : storeStep s a = some t) : Inv t := by
  cases a with
  | tick ms =>
      obtain rfl := Option.some_inj.mp hstep
      exact h.tick ms
  | put requestKey bodyText info opens puts =>
      rw [storeStep, Option.ite_none_right_eq_some] at hstep
      obtain rfl := Option.some_inj.mp hstep.2
      exact h.put hstep.1 hok
  | check matches' =>
      obtain ⟨saved, hsaved, rfl⟩ := Option.map_eq_some_iff.mp hstep
      exact h.check hsaved fun hmatches => hok hmatches saved hsaved
  | get requestKey opens matches' deletes =>
      rw [storeStep, Option.ite_none_right_eq_some] at hstep
      obtain rfl := Option.some_inj.mp hstep.2
      exact h.get hstep.1 hok
  | prune =>
      obtain rfl := Option.some_inj.mp hstep
      rw [Store.pruneStoredResponses]
      split
      · exact h
      · exact ⟨h.held, fun saved hsaved => let c := h.checking saved hsaved
          ⟨c.own, c.inCache, c.dropped, c.other⟩, h.answers⟩
  | pruneStep i works =>
      obtain ⟨stage, -, rfl⟩ := Option.map_eq_some_iff.mp hstep
      exact h.pruneStep i works stage

theorem inv_start {s : Store} (h : storeSystem.start s) : Inv s := by
  rw [show s = _ from h]
  exact ⟨fun key _ => ⟨nofun, nofun, nofun⟩, nofun, nofun⟩

theorem newest_wins {s : Store} (h : ReachableWhen storeSystem OneStore s) :
    ∀ answer ∈ s.answers, answer.Newest :=
  (h.invariant (fun _ => inv_start) inv_step).answers

/-! Ratings are saved twice. -/

def putRatings (bodyText : String) (puts : Bool) : StoreAction :=
  .put "GET:w0:/api/ratings" bodyText { retainUntilMs := 400000 } true puts

def getRatings : StoreAction :=
  .get "GET:w0:/api/ratings" true true true

theorem emptyStore_start : storeSystem.start {} :=
  rfl

/-- Both times in Cache Storage, with a prune in between. -/
def savedRun : List StoreAction :=
  [.tick 60000, putRatings "first" true, .check true, .prune, putRatings "second" true,
    .pruneStep 0 true, .check true, getRatings]

theorem newest_wins_saved : ∃ s, storeSystem.run {} savedRun = some s ∧
    s.answers.map (·.found.map (·.body)) = [some "second"] ∧ ∀ answer ∈ s.answers, answer.Newest :=
  ⟨_, rfl, by decide +kernel, newest_wins (reachableWhen_of_run savedRun (.start emptyStore_start)
    (by decide +kernel) rfl)⟩

/-- The second time Cache Storage has no room. -/
def fullRun : List StoreAction :=
  [putRatings "first" true, .check true, putRatings "second" false, getRatings]

theorem older_copy_first : ∃ s, Reachable storeSystem s ∧ ∃ answer ∈ s.answers,
    answer.last.map (·.row.body) = some "second" ∧ answer.found.map (·.body) = some "first" ∧
      ¬ answer.Newest := by
  refine ⟨_, reachable_of_run fullRun emptyStore_start rfl, _, List.mem_cons_self, rfl, rfl, ?_⟩
  intro hnewest
  obtain ⟨saved, hsaved, hbody⟩ := hnewest.found _ rfl
  obtain rfl := Option.some_inj.mp hsaved
  exact absurd hbody (by decide)

end Frcmob.ResponseStore
