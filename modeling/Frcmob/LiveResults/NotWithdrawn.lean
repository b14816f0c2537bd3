import Frcmob.LiveResults.Answers

/-!
When a published result is not withdrawn: where no fetch from TBA fails, answers are stored in the
order of their fetches, and what only FRC Events had is still there. Then each stored answer has
the results of all before it.
-/

namespace Frcmob.LiveAnswers

open FirstResults

/-! ### The results of a rebuild -/

/-- The matches with scores in one are among those in the other. -/
def Results.Within (before after : Results) : Prop :=
  ∀ matchKey, (before.scoresAt matchKey).isSome → (after.scoresAt matchKey).isSome

theorem Results.Within.refl (results : Results) : results.Within results :=
  fun _ h => h

theorem Results.Within.trans {a b c : Results} (hab : a.Within b) (hbc : b.Within c) :
    a.Within c :=
  fun k h => hbc k (hab k h)

theorem completed_of_scores {results : Results} {matchKey : String}
    (h : (results.scoresAt matchKey).isSome) : completed (shown results) matchKey = true := by
  rw [Results.scoresAt] at h
  rw [completed, shown]
  cases hget : results.get? matchKey with
  | none =>
      rw [hget] at h
      cases h
  | some row =>
      rw [hget, Option.bind_some, Snapshot.scores] at h
      split at h
      · assumption
      · cases h

theorem scoresAt_overlay_of_notMem {results : Results} {waiting : List Filled} {matchKey : String}
    (h : ∀ e ∈ waiting, e.key ≠ matchKey) :
    (overlay results waiting).scoresAt matchKey = results.scoresAt matchKey := by
  have hnone : ((waiting.map fun e => (⟨e.key, matchResultSnapshot (ofFirst e.payload)⟩ :
      ResultRow)).reverse.find? fun row => row.matchKey = matchKey) = none := by
    rw [List.find?_eq_none]
    intro row hrow
    obtain ⟨e, he, rfl⟩ := List.mem_map.mp (List.mem_reverse.mp hrow)
    simpa using h e he
  rw [Results.scoresAt, overlay, Table.get?_putAll, hnone, Option.none_or]
  rfl

/-- TBA's own result stays. -/
theorem scoresAt_results_of_tba {eventKey : String} {rebuild : Rebuild} {fetch : Fetch}
    (hfetch : rebuild.fetch = some fetch) {matchKey : String}
    (h : ((tbaResults fetch.tbaMatches).scoresAt matchKey).isSome) :
    (rebuild.results eventKey).scoresAt matchKey =
      (tbaResults fetch.tbaMatches).scoresAt matchKey := by
  rw [Rebuild.results, hfetch]
  cases hasked : rebuild.asked with
  | none => rfl
  | some asked =>
      apply scoresAt_overlay_of_notMem
      rintro e he rfl
      have hwaiting := (mem_fill _ e he).waiting
      rw [completed_of_scores h] at hwaiting
      cases hwaiting

/-- The overlay has a scored row for a match that TBA has none for. -/
def Rebuild.Paired (eventKey : String) (rebuild : Rebuild) (matchKey : String) : Prop :=
  match rebuild.fetch, rebuild.asked with
  | some fetch, some asked =>
      matchKey ≠ "" ∧ completed (shown (tbaResults fetch.tbaMatches)) matchKey = false ∧
        (∃ p ∈ fetch.pairs eventKey asked, p.tbaMatch.tbaMatch.lowerKey = matchKey) ∧
        ∀ p ∈ fetch.pairs eventKey asked, p.tbaMatch.tbaMatch.lowerKey = matchKey →
          0 ≤ p.row.red ∧ 0 ≤ p.row.blue
  | _, _ => False

instance (eventKey : String) (rebuild : Rebuild) (matchKey : String) :
    Decidable (rebuild.Paired eventKey matchKey) := by
  unfold Rebuild.Paired
  split <;> infer_instance

theorem exists_fill {w : World} {timezone : Option String}
    {results : String → Option FirstResults.Snapshot} {filled : FilledTable} {matchKey : String}
    (p : Pair) (h : ∃ e ∈ filled, e.key = matchKey) :
    ∃ e ∈ fill w timezone results filled p, e.key = matchKey := by
  obtain ⟨e, he, rfl⟩ := h
  rw [fill]
  split
  · by_cases hsame : p.tbaMatch.tbaMatch.lowerKey = e.key
    · exact ⟨_, Table.mem_put_self _ _, hsame⟩
    · exact ⟨e, Table.mem_put_of_ne he (Ne.symm hsame), rfl⟩
  · exact ⟨e, he, rfl⟩

theorem exists_filled {w : World} {timezone : Option String}
    {results : String → Option FirstResults.Snapshot} {pairs : List Pair} {filled : FilledTable}
    {matchKey : String} (hkey : matchKey ≠ "") (hopen : completed results matchKey = false)
    (h : (∃ e ∈ filled, e.key = matchKey) ∨
      ∃ p ∈ pairs, p.tbaMatch.tbaMatch.lowerKey = matchKey) :
    ∃ e ∈ pairs.foldl (fill w timezone results) filled, e.key = matchKey := by
  induction pairs generalizing filled with
  | nil =>
      rcases h with h | ⟨p, hp, -⟩
      · exact h
      · exact absurd hp List.not_mem_nil
  | cons p rest ih =>
      rw [List.foldl_cons]
      apply ih
      rcases h with h | ⟨q, hq, hqkey⟩
      · exact .inl (exists_fill p h)
      · rcases List.mem_cons.mp hq with rfl | hrest
        · left
          rw [fill, if_pos ⟨hqkey.trans_ne hkey, hqkey ▸ hopen⟩]
          exact ⟨_, Table.mem_put_self _ _, hqkey⟩
        · exact .inr ⟨q, hrest, hqkey⟩

theorem scores_of_nonneg {p : MatchPayload} {red blue : Int} (hred : p.redScore = some red)
    (hblue : p.blueScore = some blue) (hred' : 0 ≤ red) (hblue' : 0 ≤ blue) :
    (matchResultSnapshot p).scores = some (red, blue) := by
  have hredScore : matchScore p.redScore = some red := by simp [matchScore, hred, hred']
  have hblueScore : matchScore p.blueScore = some blue := by simp [matchScore, hblue, hblue']
  have hcompleted : isMatchCompleted p = true := by
    simp [isMatchCompleted, hredScore, hblueScore]
  rw [Snapshot.scores, matchResultSnapshot, if_pos hcompleted, hredScore, hblueScore,
    Option.bind_some, Option.map_some]

/-- What is paired is filled. -/
theorem scoresAt_results_of_paired {eventKey : String} {rebuild : Rebuild} {matchKey : String}
    (h : rebuild.Paired eventKey matchKey) :
    ((rebuild.results eventKey).scoresAt matchKey).isSome := by
  rw [Rebuild.Paired] at h
  split at h
  · rename_i fetch asked hfetch hasked
    obtain ⟨hkey, hopen, hpair, hscored⟩ := h
    have hfilled : ∃ e ∈ fetch.waiting eventKey asked, e.key = matchKey :=
      exists_filled hkey hopen (.inr hpair)
    obtain ⟨e, he, hekey⟩ := hfilled
    rw [Rebuild.results, hfetch, hasked]
    dsimp only
    rw [Results.scoresAt, overlay, Table.get?_putAll]
    cases hfind : ((fetch.waiting eventKey asked).rows.map fun e => (⟨e.key,
        matchResultSnapshot (ofFirst e.payload)⟩ : ResultRow)).reverse.find?
          fun row => row.matchKey = matchKey with
    | none =>
        rw [List.find?_eq_none] at hfind
        have hmem := List.mem_reverse.mpr (List.mem_map_of_mem (f := fun e : Filled =>
          (⟨e.key, matchResultSnapshot (ofFirst e.payload)⟩ : ResultRow)) he)
        exact absurd (decide_eq_true hekey) (hfind _ hmem)
    | some row =>
        have hrow := List.mem_reverse.mp (List.mem_of_find?_eq_some hfind)
        have hrowkey : row.matchKey = matchKey := by simpa using List.find?_some hfind
        obtain ⟨d, hd, rfl⟩ := List.mem_map.mp hrow
        obtain ⟨-, p, hp, hpkey, hpayload⟩ := mem_fill _ d hd
        obtain ⟨hred, hblue⟩ := hscored p hp (hpkey.trans hrowkey)
        rw [Option.some_or, Option.bind_some, hpayload, scores_of_nonneg rfl rfl hred hblue]
        rfl
  · exact h.elim

/-! ### The condition -/

/-- TBA's part of an answer. -/
def Rebuild.tba (rebuild : Rebuild) : Results :=
  match rebuild.fetch with
  | none => .empty
  | some fetch => tbaResults fetch.tbaMatches

/-- Fetched no earlier than the answers stored before, and with what these had from FRC Events
alone. -/
structure Covers (eventKey : String) (answers : List Rebuild) (rebuild : Rebuild) : Prop where
  inOrder : ∀ a ∈ answers, ∀ before ∈ a.fetch, ∀ fetch ∈ rebuild.fetch,
    before.place ≤ fetch.place
  held : ∀ a ∈ answers, ∀ row ∈ (a.results eventKey).rows, row.result.scores.isSome →
    (a.tba.scoresAt row.matchKey).isNone →
      (rebuild.tba.scoresAt row.matchKey).isSome ∨ rebuild.Paired eventKey row.matchKey

instance (eventKey : String) (answers : List Rebuild) (rebuild : Rebuild) :
    Decidable (Covers eventKey answers rebuild) :=
  decidable_of_iff
    ((∀ a ∈ answers, ∀ before ∈ a.fetch, ∀ fetch ∈ rebuild.fetch, before.place ≤ fetch.place) ∧
      ∀ a ∈ answers, ∀ row ∈ (a.results eventKey).rows, row.result.scores.isSome →
        (a.tba.scoresAt row.matchKey).isNone →
          (rebuild.tba.scoresAt row.matchKey).isSome ∨ rebuild.Paired eventKey row.matchKey)
    ⟨fun h => ⟨h.1, h.2⟩, fun h => ⟨h.inOrder, h.held⟩⟩

def MayStore (eventKey : String) (answers : List Rebuild) : Option Phase → Prop
  | some (.rebuilt rebuild) => Covers eventKey answers rebuild
  | _ => True

instance (eventKey : String) (answers : List Rebuild) :
    ∀ phase, Decidable (MayStore eventKey answers phase)
  | some (.rebuilt rebuild) => inferInstanceAs (Decidable (Covers eventKey answers rebuild))
  | none | some .begun | some .missed | some (.fetched _) | some (.answered _) => isTrue trivial

def Orderly (eventKey : String) (s : State) : Action → Prop
  | .fetchTba _ answer => answer.isSome
  | .store id _ => MayStore eventKey s.answers ((s.calls id).map Call.phase)
  | _ => True

instance (eventKey : String) (s : State) : ∀ action, Decidable (Orderly eventKey s action)
  | .fetchTba _ answer => inferInstanceAs (Decidable (answer.isSome = true))
  | .store id _ =>
      inferInstanceAs (Decidable (MayStore eventKey s.answers ((s.calls id).map Call.phase)))
  | .start _ | .readCache _ | .overlay _ _ | .finish _ | .expire => isTrue trivial

/-- Once a call has returned a match as completed with scores, so does every call that begins
afterwards. -/
def NeverWithdrawn (s : State) : Prop :=
  ∀ later ∈ s.returned, ∀ earlier ∈ s.returned.take later.startedAfter,
    earlier.results.Within later.results

/-! ### What holds in every run -/

/-- The fetch succeeded and is among those made. -/
def Fetched (s : State) (fetch : Option Fetch) : Prop :=
  ∃ f, fetch = some f ∧ s.fetched[f.place]? = some f.tbaMatches

def Made (eventKey : String) (s : State) (results : Results) : Prop :=
  ∃ a ∈ s.answers, results = a.results eventKey

/-- An answer has what was returned before its call began. -/
def Call.Fits (eventKey : String) (s : State) (call : Call) : Prop :=
  call.startedAfter ≤ s.returned.length ∧
    match call.phase with
    | .begun | .missed => True
    | .fetched fetch => Fetched s fetch
    | .rebuilt rebuild => Fetched s rebuild.fetch
    | .answered results => Made eventKey s results ∧
        ∀ r ∈ s.returned.take call.startedAfter, r.results.Within results

structure Inv (eventKey : String) (s : State) : Prop where
  chain : s.fetched.Pairwise Keeps
  calls : ∀ id call, s.calls id = some call → call.Fits eventKey s
  answers : ∀ a ∈ s.answers, Fetched s a.fetch
  cache : ∀ stored, s.cache = some stored → Made eventKey s stored.results ∧
    ∀ a ∈ s.answers, (a.results eventKey).Within stored.results
  returned : ∀ r ∈ s.returned, r.startedAfter ≤ s.returned.length ∧ Made eventKey s r.results
  sound : NeverWithdrawn s

structure Grows (s t : State) : Prop where
  fetched : s.fetched <+: t.fetched
  answers : s.answers ⊆ t.answers
  returned : s.returned <+: t.returned

variable {eventKey : String} {s t : State} {id : Nat} {call : Call}

theorem Fetched.grow {fetch : Option Fetch} (hgrow : Grows s t) (h : Fetched s fetch) :
    Fetched t fetch := by
  obtain ⟨f, rfl, hget⟩ := h
  obtain ⟨rest, hfetched⟩ := hgrow.fetched
  have hlt := (List.getElem?_eq_some_iff.mp hget).1
  exact ⟨f, rfl, by rw [← hfetched, List.getElem?_append_left hlt, hget]⟩

theorem Made.grow {results : Results} (hgrow : Grows s t) (h : Made eventKey s results) :
    Made eventKey t results := by
  obtain ⟨a, ha, rfl⟩ := h
  exact ⟨a, hgrow.answers ha, rfl⟩

theorem take_of_grown {α : Type*} {xs ys : List α} {n : Nat} (h : xs <+: ys)
    (hn : n ≤ xs.length) : ys.take n = xs.take n := by
  obtain ⟨rest, rfl⟩ := h
  exact List.take_append_of_le_length hn

theorem Call.Fits.grow (hgrow : Grows s t) (h : call.Fits eventKey s) : call.Fits eventKey t := by
  obtain ⟨hstart, hphase⟩ := h
  refine ⟨hstart.trans hgrow.returned.length_le, ?_⟩
  split
  · trivial
  · trivial
  · rename_i hp
    rw [hp] at hphase
    exact hphase.grow hgrow
  · rename_i hp
    rw [hp] at hphase
    exact Fetched.grow hgrow hphase
  · rename_i hp
    rw [hp] at hphase
    rw [take_of_grown hgrow.returned hstart]
    exact ⟨hphase.1.grow hgrow, hphase.2⟩

/-! ### Steps -/

theorem exists_row {results : Results} {matchKey : String}
    (h : (results.scoresAt matchKey).isSome) :
    ∃ row ∈ results.rows, row.result.scores.isSome ∧ row.matchKey = matchKey := by
  rw [Results.scoresAt] at h
  cases hget : results.get? matchKey with
  | none =>
      rw [hget] at h
      cases h
  | some row =>
      obtain ⟨hrow, hkey⟩ := Table.get?_eq_some.mp hget
      rw [hget] at h
      exact ⟨row, hrow, h, hkey⟩

theorem Keeps.isSome {before after : List TbaPayload} (h : Keeps before after) {matchKey : String}
    (hscores : ((tbaResults before).scoresAt matchKey).isSome) :
    ((tbaResults after).scoresAt matchKey).isSome := by
  rw [Results.scoresAt] at hscores
  cases hget : (tbaResults before).get? matchKey with
  | none =>
      rw [hget] at hscores
      cases hscores
  | some row =>
      obtain ⟨hrow, rfl⟩ := Table.get?_eq_some.mp hget
      rw [hget, Option.bind_some] at hscores
      rw [h row hrow hscores]
      exact hscores

theorem isSome_of_le {lists : List (List TbaPayload)} (hchain : lists.Pairwise Keeps) {i j : Nat}
    {before after : List TbaPayload} (hi : lists[i]? = some before) (hj : lists[j]? = some after)
    (hle : i ≤ j) {matchKey : String} (h : ((tbaResults before).scoresAt matchKey).isSome) :
    ((tbaResults after).scoresAt matchKey).isSome := by
  rcases Nat.eq_or_lt_of_le hle with rfl | hlt
  · rw [hi] at hj
    cases hj
    exact h
  · obtain ⟨hi', rfl⟩ := List.getElem?_eq_some_iff.mp hi
    obtain ⟨hj', rfl⟩ := List.getElem?_eq_some_iff.mp hj
    exact (List.pairwise_iff_getElem.mp hchain i j hi' hj' hlt).isSome h

/-- A covering answer has the results of those stored before. -/
theorem Covers.within (hinv : Inv eventKey s) {rebuild : Rebuild}
    (hcovers : Covers eventKey s.answers rebuild) (hfetch : Fetched s rebuild.fetch) {a : Rebuild}
    (ha : a ∈ s.answers) : (a.results eventKey).Within (rebuild.results eventKey) := by
  intro matchKey hscores
  obtain ⟨fetch, hfetch, hget⟩ := hfetch
  obtain ⟨before, hbefore, hgetBefore⟩ := hinv.answers a ha
  have htba : ((tbaResults fetch.tbaMatches).scoresAt matchKey).isSome →
      ((rebuild.results eventKey).scoresAt matchKey).isSome := by
    intro h
    rw [scoresAt_results_of_tba hfetch h]
    exact h
  cases hown : (tbaResults before.tbaMatches).scoresAt matchKey with
  | some scores =>
      have hle := hcovers.inOrder a ha before hbefore fetch hfetch
      exact htba (isSome_of_le hinv.chain hgetBefore hget hle (hown ▸ rfl))
  | none =>
      have hfirst : (a.tba.scoresAt matchKey).isNone := by
        rw [Rebuild.tba, hbefore]
        exact hown ▸ rfl
      obtain ⟨row, hrow, hscored, rfl⟩ := exists_row hscores
      rcases hcovers.held a ha row hrow hscored hfirst with h | hpaired
      · rw [Rebuild.tba, hfetch] at h
        exact htba h
      · exact scoresAt_results_of_paired hpaired

theorem fits_update {phase : Option Call} (hgrow : Grows s t)
    (hcalls : ∀ j other, s.calls j = some other → other.Fits eventKey s)
    (hnew : ∀ next, phase = some next → next.Fits eventKey t)
    (hupdate : t.calls = Function.update s.calls id phase) :
    ∀ j other, t.calls j = some other → other.Fits eventKey t := by
  intro j other hj
  rw [hupdate] at hj
  by_cases hid : j = id
  · subst hid
    rw [Function.update_self] at hj
    exact hnew other hj
  · rw [Function.update_of_ne hid] at hj
    exact (hcalls j other hj).grow hgrow

/-- A step that only moves a call on. -/
theorem Inv.put (h : Inv eventKey s) {phase : Phase}
    (hfits : ({ call with phase } : Call).Fits eventKey s) : Inv eventKey (s.put id call phase) where
  chain := h.chain
  calls := by
    refine fits_update (s := s) ⟨List.prefix_rfl, fun _ ha => ha, List.prefix_rfl⟩ h.calls ?_ rfl
    rintro next hnext
    cases hnext
    exact hfits
  answers := h.answers
  cache := h.cache
  returned := h.returned
  sound := h.sound

theorem inv_start (h : Inv eventKey s) : Inv eventKey
    { s with calls := Function.update s.calls id (some ⟨s.returned.length, .begun⟩) } where
  chain := h.chain
  calls := by
    refine fits_update (s := s) ⟨List.prefix_rfl, fun _ ha => ha, List.prefix_rfl⟩ h.calls ?_ rfl
    rintro next hnext
    cases hnext
    exact ⟨le_rfl, trivial⟩
  answers := h.answers
  cache := h.cache
  returned := h.returned
  sound := h.sound

theorem inv_readCache (h : Inv eventKey s) (hcall : s.calls id = some call)
    (hstep : readCache s id call = some t) : Inv eventKey t := by
  obtain ⟨hstart, -⟩ := h.calls id call hcall
  rw [readCache] at hstep
  split at hstep
  · split at hstep
    · rename_i stored hcache
      cases hstep
      obtain ⟨hmade, hlatest⟩ := h.cache stored hcache
      refine h.put ⟨hstart, hmade, fun r hr => ?_⟩
      obtain ⟨a, ha, hresults⟩ := (h.returned r (List.mem_of_mem_take hr)).2
      rw [hresults]
      exact hlatest a ha
    · cases hstep
      exact h.put ⟨hstart, trivial⟩
  · cases hstep

theorem inv_fetchTba (h : Inv eventKey s) (hcall : s.calls id = some call)
    {answer : Option (List TbaPayload)} (hanswer : answer.isSome)
    (hstep : fetchTba s id answer call = some t) : Inv eventKey t := by
  obtain ⟨hstart, -⟩ := h.calls id call hcall
  rw [fetchTba.eq_def] at hstep
  split at hstep
  · split at hstep
    · cases hanswer
    · rename_i list
      split at hstep
      · rename_i hkeeps
        cases hstep
        have hgrow : Grows s { s with fetched := s.fetched ++ [list] } :=
          ⟨List.prefix_append _ _, fun _ ha => ha, List.prefix_rfl⟩
        have hinv : Inv eventKey { s with fetched := s.fetched ++ [list] } := by
          constructor
          case chain =>
            rw [List.pairwise_append]
            refine ⟨h.chain, List.pairwise_singleton _ _, ?_⟩
            intro before hbefore after hafter
            rw [List.mem_singleton.mp hafter]
            exact hkeeps before hbefore
          case calls => exact fun j other hj => (h.calls j other hj).grow hgrow
          case answers => exact fun a ha => (h.answers a ha).grow hgrow
          case cache => exact h.cache
          case returned => exact h.returned
          case sound => exact h.sound
        refine hinv.put ⟨hstart, _, rfl, ?_⟩
        exact List.getElem?_concat_length
      · cases hstep
  · cases hstep

theorem inv_askFirst (h : Inv eventKey s) (hcall : s.calls id = some call)
    {asked : Option Asked} (hstep : askFirst s id asked call = some t) : Inv eventKey t := by
  obtain ⟨hstart, hphase⟩ := h.calls id call hcall
  rw [askFirst] at hstep
  split at hstep
  · rename_i fetch hfetched
    cases hstep
    rw [hfetched] at hphase
    exact h.put ⟨hstart, hphase⟩
  · cases hstep

/-- A covering answer takes the place of the one stored before. -/
theorem inv_store (h : Inv eventKey s) (hcall : s.calls id = some call) {ttl : Option Int}
    {now : Int} (hcovers : ∀ rebuild, call.phase = .rebuilt rebuild →
      Covers eventKey s.answers rebuild)
    (hstep : store eventKey ttl s id now call = some t) : Inv eventKey t := by
  obtain ⟨hstart, hphase⟩ := h.calls id call hcall
  rw [store] at hstep
  split at hstep
  · rename_i rebuild hrebuilt
    cases hstep
    rw [hrebuilt] at hphase
    have hwithin : ∀ a ∈ s.answers ++ [rebuild],
        (a.results eventKey).Within (rebuild.results eventKey) := by
      intro a ha
      rcases List.mem_append.mp ha with ha | ha
      · exact (hcovers rebuild hrebuilt).within h hphase ha
      · rw [List.mem_singleton.mp ha]
        exact .refl _
    have hmem : rebuild ∈ s.answers ++ [rebuild] := List.mem_append_right _ List.mem_cons_self
    let u : State := { s with
      cache := some ⟨rebuild.results eventKey, ttlSec ttl (rebuild.results eventKey) now⟩
      answers := s.answers ++ [rebuild] }
    have hgrow : Grows s u := ⟨List.prefix_rfl, List.subset_append_left _ _, List.prefix_rfl⟩
    have hinv : Inv eventKey u := by
      constructor
      case chain => exact h.chain
      case calls => exact fun j other hj => (h.calls j other hj).grow hgrow
      case answers =>
        intro a ha
        rcases List.mem_append.mp ha with ha | ha
        · exact (h.answers a ha).grow hgrow
        · rw [List.mem_singleton.mp ha]
          exact Fetched.grow hgrow hphase
      case cache =>
        rintro stored hstored
        cases hstored
        exact ⟨⟨rebuild, hmem, rfl⟩, hwithin⟩
      case returned => exact fun r hr => ⟨(h.returned r hr).1, (h.returned r hr).2.grow hgrow⟩
      case sound => exact h.sound
    refine hinv.put ⟨hstart, ⟨rebuild, hmem, rfl⟩, fun r hr => ?_⟩
    obtain ⟨a, ha, hresults⟩ := (h.returned r (List.mem_of_mem_take hr)).2
    rw [hresults]
    exact hwithin a (List.mem_append_left _ ha)
  · cases hstep

theorem inv_finish (h : Inv eventKey s) (hcall : s.calls id = some call)
    (hstep : finish s id call = some t) : Inv eventKey t := by
  obtain ⟨hstart, hphase⟩ := h.calls id call hcall
  rw [finish] at hstep
  split at hstep
  · rename_i results hanswered
    cases hstep
    rw [hanswered] at hphase
    obtain ⟨hmade, hfloor⟩ := hphase
    have hgrow : Grows s { s with
        calls := Function.update s.calls id none
        returned := s.returned ++ [⟨call.startedAfter, results⟩] } :=
      ⟨List.prefix_rfl, fun _ ha => ha, List.prefix_append _ _⟩
    have hlength := hgrow.returned.length_le
    constructor
    case chain => exact h.chain
    case calls =>
      refine @fits_update eventKey s _ id none hgrow h.calls ?_ rfl
      intro next hnext
      cases hnext
    case answers => exact h.answers
    case cache => exact h.cache
    case returned =>
      intro r hr
      rcases List.mem_append.mp hr with hr | hr
      · exact ⟨(h.returned r hr).1.trans hlength, (h.returned r hr).2⟩
      · rw [List.mem_singleton.mp hr]
        exact ⟨hstart.trans hlength, hmade⟩
    case sound =>
      intro later hlater earlier hearlier
      rcases List.mem_append.mp hlater with hlater | hlater
      · rw [take_of_grown hgrow.returned (h.returned later hlater).1] at hearlier
        exact h.sound later hlater earlier hearlier
      · rw [List.mem_singleton.mp hlater] at hearlier ⊢
        rw [take_of_grown hgrow.returned hstart] at hearlier
        exact hfloor earlier hearlier
  · cases hstep

theorem inv_step {ttl : Option Int} {action : Action} (h : Inv eventKey s)
    (horderly : Orderly eventKey s action) (hstep : step eventKey ttl s action = some t) :
    Inv eventKey t := by
  cases action with
  | start id =>
      rw [step] at hstep
      split at hstep
      · cases hstep
        exact inv_start h
      · cases hstep
  | readCache id =>
      obtain ⟨call, hcall, hstep⟩ := Option.bind_eq_some_iff.mp hstep
      exact inv_readCache h hcall hstep
  | fetchTba id answer =>
      obtain ⟨call, hcall, hstep⟩ := Option.bind_eq_some_iff.mp hstep
      exact inv_fetchTba h hcall horderly hstep
  | overlay id asked =>
      obtain ⟨call, hcall, hstep⟩ := Option.bind_eq_some_iff.mp hstep
      exact inv_askFirst h hcall hstep
  | store id now =>
      obtain ⟨call, hcall, hstep⟩ := Option.bind_eq_some_iff.mp hstep
      refine inv_store h hcall (fun rebuild hphase => ?_) hstep
      rw [Orderly, hcall, Option.map_some, hphase] at horderly
      exact horderly
  | finish id =>
      obtain ⟨call, hcall, hstep⟩ := Option.bind_eq_some_iff.mp hstep
      exact inv_finish h hcall hstep
  | expire =>
      cases hstep
      exact { h with cache := fun stored hstored => nomatch hstored }

theorem inv_empty (eventKey : String) : Inv eventKey .empty where
  chain := .nil
  calls _ _ h := nomatch h
  answers _ h := absurd h List.not_mem_nil
  cache _ h := nomatch h
  returned _ h := absurd h List.not_mem_nil
  sound _ h := absurd h List.not_mem_nil

/-- In a run of orderly steps no published result is withdrawn. -/
theorem never_withdrawn {eventKey : String} {liveTtlSec : Option Int} {s : State}
    (h : Transition.ReachableWhen (system eventKey liveTtlSec) (Orderly eventKey) s) :
    NeverWithdrawn s := by
  have hinv : Inv eventKey s := by
    refine h.invariant ?_ fun s action t hs horderly hstep => inv_step hs horderly hstep
    rintro _ rfl
    exact inv_empty eventKey
  exact hinv.sound

/-! ### Runs -/

def listedQm1 : TbaMatch where
  key := some "2026abc_qm1"
  compLevel := some "qm"
  setNumber := some 1
  matchNumber := some 1
  actualTime := none
  predictedTime := some 1000
  time := some 1000
  redTeamKeys := ["frc1", "frc2", "frc3"]
  blueTeamKeys := ["frc4", "frc5", "frc6"]

def waitingQm1 : TbaPayload := ⟨listedQm1, some (-1), some (-1), some ""⟩
def playedQm1 : TbaPayload := ⟨listedQm1, some 100, some 90, some "red"⟩

/-- Two calls of which the second finds the answer of the first. -/
def keptRun : List Action :=
  [.start 0, .readCache 0, .fetchTba 0 (some [playedQm1]), .overlay 0 none, .store 0 2000,
    .finish 0, .start 1, .readCache 1, .finish 1]

theorem never_withdrawn_keptRun :
    ∃ s, (system "2026abc" none).run .empty keptRun = some s ∧ s.returned.length = 2 ∧
      NeverWithdrawn s :=
  ⟨_, rfl, rfl, never_withdrawn (Transition.reachableWhen_of_run keptRun
    (.start (S := system "2026abc" none) rfl) (by decide +kernel) rfl)⟩

/-- TBA fails when the entry has expired. -/
def outageRun : List Action :=
  [.start 0, .readCache 0, .fetchTba 0 (some [playedQm1]), .overlay 0 none, .store 0 2000,
    .finish 0, .expire, .start 1, .readCache 1, .fetchTba 1 none, .overlay 1 none, .store 1 2010,
    .finish 1]

/-- A slower worker stores the answer that it fetched first. -/
def slowerRun : List Action :=
  [.start 0, .readCache 0, .fetchTba 0 (some [waitingQm1]), .start 1, .readCache 1,
    .fetchTba 1 (some [playedQm1]), .overlay 1 none, .store 1 2000, .finish 1, .overlay 0 none,
    .store 0 2001, .start 2, .readCache 2, .finish 2]

theorem published_withdrawn :
    (∃ s, (system "2026abc" none).run .empty outageRun = some s ∧ ¬NeverWithdrawn s) ∧
      ∃ s, (system "2026abc" none).run .empty slowerRun = some s ∧ ¬NeverWithdrawn s := by
  constructor
  · refine ⟨_, rfl, fun h => ?_⟩
    have hlost := h _ (List.mem_cons_of_mem _ List.mem_cons_self) _ List.mem_cons_self
      "2026abc_qm1" (by decide +kernel)
    exact absurd hlost (by decide +kernel)
  · refine ⟨_, rfl, fun h => ?_⟩
    have hlost := h _ (List.mem_cons_of_mem _ List.mem_cons_self) _ List.mem_cons_self
      "2026abc_qm1" (by decide +kernel)
    exact absurd hlost (by decide +kernel)

end Frcmob.LiveAnswers
