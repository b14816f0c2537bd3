import Frcmob.Lib.Successors
import Frcmob.OnDevice.PathSuggestions

/-!
The chains of paths hold each path with points once and run forward in time, and the paths that
are offered for a team are unassigned and leave it in one place at a time. A path's successor
starts after its end and has it as the only predecessor.
-/

namespace Frcmob.OnDevice.Suggestions

/-! ### The points of a path -/

section
variable {ι K : Type} [LinearOrder K] {a b p : SuggestPath ι K} {first last : PathPoint K}

namespace SuggestPath

theorem head_le (hfirst : p.points.head? = some first) {q : PathPoint K} (hq : q ∈ p.points) :
    first.timeSec ≤ q.timeSec := by
  cases hpoints : p.points with
  | nil =>
      rw [hpoints] at hq
      exact absurd hq List.not_mem_nil
  | cons a rest =>
      have hordered := p.ordered
      rw [hpoints] at hfirst hq hordered
      obtain rfl := Option.some_inj.mp hfirst
      rcases List.mem_cons.mp hq with rfl | hq
      · exact le_rfl
      · exact List.rel_of_pairwise_cons hordered hq

theorem le_last (hlast : p.points.getLast? = some last) {q : PathPoint K} (hq : q ∈ p.points) :
    q.timeSec ≤ last.timeSec := by
  obtain ⟨before, hpoints⟩ := List.getLast?_eq_some_iff.mp hlast
  have hordered := p.ordered
  rw [hpoints] at hq hordered
  rcases List.mem_append.mp hq with hq | hq
  · exact (List.pairwise_append.mp hordered).2.2 q hq last List.mem_cons_self
  · rw [List.mem_singleton.mp hq]

/-- The path is followed at this time. -/
def Present (p : SuggestPath ι K) (t : K) : Prop :=
  ∃ first last, p.points.head? = some first ∧ p.points.getLast? = some last ∧
    first.timeSec ≤ t ∧ t ≤ last.timeSec

/-- The first path ends before the second starts. -/
def Before (a b : SuggestPath ι K) : Prop :=
  ∃ last start, a.points.getLast? = some last ∧ b.points.head? = some start ∧
    last.timeSec < start.timeSec

theorem Before.trans {c : SuggestPath ι K} (hab : a.Before b) (hbc : b.Before c) : a.Before c := by
  obtain ⟨last, start, hlast, hstart, hlt⟩ := hab
  obtain ⟨last', start', hlast', hstart', hlt'⟩ := hbc
  have hle : start.timeSec ≤ last'.timeSec := head_le hstart (List.mem_of_getLast? hlast')
  exact ⟨last, start', hlast, hstart', hlt.trans (hle.trans_lt hlt')⟩

theorem Before.irrefl (a : SuggestPath ι K) : ¬ a.Before a := by
  rintro ⟨last, start, hlast, hstart, hlt⟩
  exact hlt.not_ge (head_le hstart (List.mem_of_getLast? hlast))

theorem Before.le (h : a.Before b) {p q : PathPoint K} (hp : p ∈ a.points) (hq : q ∈ b.points) :
    p.timeSec ≤ q.timeSec := by
  obtain ⟨last, start, hlast, hstart, hlt⟩ := h
  exact (le_last hlast hp).trans (hlt.le.trans (head_le hstart hq))

end SuggestPath

end

variable {ι K : Type} [LinearOrder ι] [Field K] [LinearOrder K]

/-! ### Successors -/

section
variable {hypot : K → K → K} {o : Limits K} {a b : SuggestPath ι K} {ps : SuggestPaths ι K}
  {x y : ι}

omit [LinearOrder ι] in
theorem before_of_cost [IsStrictOrderedRing K] {c : K} (h : cost hypot a b o = some c) :
    a.Before b := by
  obtain ⟨last, hlast, h⟩ := Option.bind_eq_some_iff.mp h
  obtain ⟨start, hstart, h⟩ := Option.bind_eq_some_iff.mp h
  refine ⟨last, start, hlast, hstart, ?_⟩
  by_contra hle
  rw [if_pos (.inl (sub_nonpos.mpr (not_lt.mp hle)))] at h
  cases h

theorem clearBest_mem {costs : List (Candidate ι K)} {margin : K} {id : ι}
    (h : clearBest costs margin = some id) : ∃ c ∈ costs, c.id = id := by
  have hsorted : ∀ c, c ∈ costs.insertionSort Candidate.before → c ∈ costs :=
    fun c => (List.mem_insertionSort _).mp
  unfold clearBest at h
  split at h
  · cases h
  · rename_i best heq
    exact ⟨best, hsorted best (heq ▸ List.mem_cons_self), Option.some_inj.mp h⟩
  · rename_i best rival rest heq
    split at h
    · cases h
    · exact ⟨best, hsorted best (heq ▸ List.mem_cons_self), Option.some_inj.mp h⟩

namespace SuggestPaths

/-- The entry of `next` is the clear best successor, and its clear best predecessor is the path. -/
theorem next_eq_some (h : ps.next hypot o x = some y) :
    ∃ a ∈ ps.usable, ∃ b ∈ ps.usable, a.pathId = x ∧ b.pathId = y ∧
      clearBest (ps.succ hypot o a) o.ambiguityMarginM = some y ∧
      clearBest (ps.pred hypot o b) o.ambiguityMarginM = some x := by
  obtain ⟨a, ha, hlink⟩ := Option.bind_eq_some_iff.mp h
  obtain ⟨id, hbest, hlink⟩ := Option.bind_eq_some_iff.mp hlink
  obtain ⟨b, hb, hlink⟩ := Option.bind_eq_some_iff.mp hlink
  rw [Option.ite_none_right_eq_some] at hlink
  obtain ⟨hpred, hid⟩ := hlink
  obtain rfl := Option.some_inj.mp hid
  obtain ⟨hmem, rfl⟩ := Table.get?_eq_some.mp ha
  obtain ⟨hmem', rfl⟩ := Table.get?_eq_some.mp hb
  exact ⟨a, hmem, b, hmem', rfl, rfl, hbest, hpred⟩

/-- The paths of these ids, the first over before the second starts. -/
def Earlier (ps : SuggestPaths ι K) (x y : ι) : Prop :=
  ∃ a ∈ ps.usable, ∃ b ∈ ps.usable, a.pathId = x ∧ b.pathId = y ∧ a.Before b

theorem earlier_of_next [IsStrictOrderedRing K] (h : ps.next hypot o x = some y) :
    ps.Earlier x y := by
  obtain ⟨a, ha, -, -, rfl, -, hbest, -⟩ := next_eq_some h
  obtain ⟨c, hc, rfl⟩ := clearBest_mem hbest
  obtain ⟨b, hb, hcost⟩ := List.mem_filterMap.mp hc
  rw [Option.ite_none_left_eq_some] at hcost
  obtain ⟨value, hvalue, rfl⟩ := Option.map_eq_some_iff.mp hcost.2
  exact ⟨a, ha, b, hb, rfl, rfl, before_of_cost hvalue⟩

variable (hypot o) in
theorem forward [IsStrictOrderedRing K] (ps : SuggestPaths ι K) :
    Successors.Forward (ps.usable.rows.map (·.pathId)) (ps.next hypot o) ps.Earlier where
  nodup := ps.usable.unique
  trans := by
    rintro x y z ⟨a, ha, b, hb, rfl, rfl, hab⟩ ⟨b', hb', c, hc, hbb', rfl, hbc⟩
    obtain rfl := Table.eq_of_key hb' hb hbb'
    exact ⟨a, ha, c, hc, rfl, rfl, hab.trans hbc⟩
  irrefl := by
    rintro x ⟨a, ha, b, hb, rfl, hab, hbefore⟩
    obtain rfl := Table.eq_of_key hb ha hab
    exact SuggestPath.Before.irrefl b hbefore
  step := earlier_of_next
  mem := by
    intro x y h
    obtain ⟨a, ha, b, hb, rfl, rfl, -⟩ := next_eq_some h
    exact ⟨List.mem_map_of_mem ha, List.mem_map_of_mem hb⟩
  injective := by
    intro x x' y h h'
    obtain ⟨-, -, b, hb, -, rfl, -, hpred⟩ := next_eq_some h
    obtain ⟨-, -, b', hb', -, hbb', -, hpred'⟩ := next_eq_some h'
    obtain rfl := Table.eq_of_key hb' hb hbb'
    exact Option.some_inj.mp (hpred.symm.trans hpred')

theorem hasPrev_iff (id : ι) : ps.hasPrev hypot o id = true ↔ ∃ x, ps.next hypot o x = some id := by
  rw [hasPrev, List.any_eq_true]
  constructor
  · rintro ⟨a, ha, hlink⟩
    refine ⟨a.pathId, ?_⟩
    rw [next, Table.get?_eq_some.mpr ⟨ha, rfl⟩]
    exact of_decide_eq_true hlink
  · rintro ⟨x, hx⟩
    obtain ⟨a, ha, hlink⟩ := Option.bind_eq_some_iff.mp hx
    exact ⟨a, (Table.get?_eq_some.mp ha).1, decide_eq_true hlink⟩

end SuggestPaths

end

/-! ### Chains -/

omit [Field K] [LinearOrder K] in
/-- The loop never meets its chain again. -/
theorem grow_eq {ids : List ι} {next : ι → Option ι} {lt : ι → ι → Prop}
    (h : Successors.Forward ids next lt) (n : Nat) (chain : List ι) (cur : Option ι)
    (hchain : ∀ a ∈ chain, ∀ b ∈ cur, lt a b) :
    grow next n chain cur = chain ++ Successors.follow next n cur := by
  induction n generalizing chain cur with
  | zero => simp [grow, Successors.follow]
  | succ n ih =>
      cases cur with
      | none => simp [grow, Successors.follow]
      | some x =>
          have hnot : x ∉ chain := fun hx => h.irrefl x (hchain x hx x rfl)
          rw [grow, if_neg hnot, ih, Successors.follow, List.append_assoc, List.singleton_append]
          intro a ha b hb
          have hxb : lt x b := h.step hb
          rcases List.mem_append.mp ha with ha | ha
          · exact h.trans (hchain a ha x rfl) hxb
          · rwa [List.mem_singleton.mp ha]

namespace SuggestPaths

variable [IsStrictOrderedRing K] (hypot : K → K → K) (ps : SuggestPaths ι K)
  (opts : SuggestOptions K)

theorem suggestionGroups_eq : ps.suggestionGroups hypot opts =
    (((ps.usable.rows.map (·.pathId)).filter fun id => !ps.hasPrev hypot opts.limits id).map
      fun id => Successors.follow (ps.next hypot opts.limits) (ps.usable.rows.length + 1) (some id)) := by
  unfold suggestionGroups
  extract_lets o
  rw [List.filter_map, List.map_map]
  apply List.map_congr_left
  intro p _
  rw [grow_eq (ps.forward hypot o)]
  · rfl
  · intro a ha b hb
    rw [List.mem_singleton.mp ha]
    exact earlier_of_next hb

theorem suggestionGroups_perm :
    (ps.suggestionGroups hypot opts).flatten.Perm (ps.usable.rows.map (·.pathId)) := by
  rw [suggestionGroups_eq]
  apply (ps.forward hypot opts.limits).flatten_perm
  · intro id
    rw [Bool.not_eq_true', ← Bool.not_eq_true, hasPrev_iff, not_exists]
  · rw [List.length_map]
    exact Nat.le_succ _

/-- The points of the paths, one path after the other. -/
def pointsOf (group : List ι) : List (PathPoint K) :=
  group.flatMap fun id => ((ps.get? id).map (·.points)).getD []

omit [IsStrictOrderedRing K] [Field K] in
theorem pointsOf_ordered {group : List ι} (hgroup : group.Pairwise ps.Earlier) :
    (ps.pointsOf group).Pairwise fun p q => p.timeSec ≤ q.timeSec := by
  rw [pointsOf, List.pairwise_flatMap]
  constructor
  · intro id _
    cases ps.get? id with
    | none => exact .nil
    | some p => exact p.ordered
  · apply hgroup.imp
    rintro x y ⟨a, ha, b, hb, rfl, rfl, hbefore⟩ p hp q hq
    rw [Table.get?_eq_some.mpr ⟨(Table.mem_filter.mp ha).1, rfl⟩] at hp
    rw [Table.get?_eq_some.mpr ⟨(Table.mem_filter.mp hb).1, rfl⟩] at hq
    exact hbefore.le hp hq

theorem suggestionGroups_ordered {group : List ι} (hgroup : group ∈ ps.suggestionGroups hypot opts) :
    (ps.pointsOf group).Pairwise fun p q => p.timeSec ≤ q.timeSec := by
  rw [suggestionGroups_eq] at hgroup
  obtain ⟨id, -, rfl⟩ := List.mem_map.mp hgroup
  exact ps.pointsOf_ordered ((ps.forward hypot opts.limits).pairwise_follow _ _)

end SuggestPaths

/-! ### The offer -/

section
variable {ps : SuggestPaths ι K} {identities : Identities ι} {seedId x y : ι} {teamKey : String}

/-- The path is with the team or is the seed. -/
def Held (identities : Identities ι) (seedId : ι) (teamKey : String) (x : ι) : Prop :=
  (x, teamKey) ∈ identities ∨ x = seedId

namespace SuggestPaths

omit [LinearOrder ι] [Field K] in
theorem meets_comm (p q : K × K) : meets p q = meets q p :=
  Bool.and_comm ..

/-- Two paths are followed at the same time only where their spans meet. -/
theorem meets_of_present {p q : SuggestPath ι K} {t : K} (hp : ps.get? x = some p)
    (hq : ps.get? y = some q) (htp : p.Present t) (htq : q.Present t) :
    meets (ps.span x) (ps.span y) = true := by
  obtain ⟨first, last, hfirst, hlast, hle, hge⟩ := htp
  obtain ⟨first', last', hfirst', hlast', hle', hge'⟩ := htq
  have hx : ps.span x = (first.timeSec, last.timeSec) := by
    simp [span, hp, hfirst, hlast]
  have hy : ps.span y = (first'.timeSec, last'.timeSec) := by
    simp [span, hq, hfirst', hlast']
  rw [hx, hy, meets, Bool.and_eq_true]
  exact ⟨decide_eq_true (hle.trans hge'), decide_eq_true (hle'.trans hge)⟩

/-- What is offered so far is free, and its spans meet no other span of the team. -/
structure Fits (ps : SuggestPaths ι K) (identities : Identities ι) (seedId : ι) (teamKey : String)
    (s : Offer ι K) : Prop where
  free : ∀ x ∈ s.out, identities.taken x = false
  spans : ∀ x, x ∈ s.out ∨ Held identities seedId teamKey x → ps.span x ∈ s.teamSpans
  apart : ∀ x ∈ s.out, ∀ y, y ∈ s.out ∨ Held identities seedId teamKey y → x ≠ y →
    meets (ps.span x) (ps.span y) = false

theorem fits_start : ps.Fits identities seedId teamKey
    { teamSpans := ps.teamSpans seedId teamKey identities } where
  free _ hx := absurd hx List.not_mem_nil
  spans := by
    intro x hx
    rcases hx with hx | hx
    · exact absurd hx List.not_mem_nil
    · by_cases hseed : x = seedId
      · exact List.mem_append_right _ (List.mem_singleton.mpr (congrArg ps.span hseed))
      · have hteam : (x, teamKey) ∈ identities := hx.resolve_right hseed
        have hkept : (x, teamKey) ∈ identities.rows.filter
            fun entry => entry.2 = teamKey ∧ entry.1 ≠ seedId :=
          List.mem_filter.mpr ⟨hteam, decide_eq_true ⟨rfl, hseed⟩⟩
        exact List.mem_append_left _ (List.mem_map_of_mem hkept)
  apart _ hx := absurd hx List.not_mem_nil

theorem Fits.offer {s : Offer ι K} (h : ps.Fits identities seedId teamKey s) (id : ι) :
    ps.Fits identities seedId teamKey (ps.offer seedId identities s id) := by
  unfold SuggestPaths.offer
  split
  · exact h
  · rename_i hfree
    rw [not_or, Bool.not_eq_true] at hfree
    split
    · exact h
    · rename_i hmeets
      rw [List.any_eq_true, not_exists] at hmeets
      have hnew : ∀ y, y ∈ s.out ∨ Held identities seedId teamKey y →
          meets (ps.span id) (ps.span y) = false := by
        intro y hy
        exact Bool.eq_false_iff.mpr fun htrue => hmeets _ ⟨h.spans y hy, htrue⟩
      constructor
      · intro x hx
        rcases List.mem_append.mp hx with hx | hx
        · exact h.free x hx
        · rw [List.mem_singleton.mp hx]
          exact hfree.2
      · intro x hx
        rw [List.mem_append, List.mem_singleton, or_assoc, or_comm (a := x = id), ← or_assoc] at hx
        rcases hx with hx | hx
        · exact List.mem_append_left _ (h.spans x hx)
        · rw [hx]
          exact List.mem_append_right _ List.mem_cons_self
      · intro x hx y hy hne
        rw [List.mem_append, List.mem_singleton, or_assoc, or_comm (a := y = id), ← or_assoc] at hy
        rcases List.mem_append.mp hx with hx | hx
        · rcases hy with hy | hy
          · exact h.apart x hx y hy hne
          · rw [hy, meets_comm]
            exact hnew x (.inl hx)
        · rw [List.mem_singleton.mp hx] at hne ⊢
          rcases hy with hy | hy
          · exact hnew y hy
          · exact absurd hy.symm hne

theorem Fits.offers {s : Offer ι K} (h : ps.Fits identities seedId teamKey s) (group : List ι) :
    ps.Fits identities seedId teamKey (group.foldl (ps.offer seedId identities) s) := by
  induction group generalizing s with
  | nil => exact h
  | cons id rest ih => exact ih (h.offer id)

/-- No two of the paths are followed at the same time. -/
def OnePlace (ps : SuggestPaths ι K) (held : ι → Prop) : Prop :=
  ∀ x y, held x → held y → x ≠ y → ∀ p q, ps.get? x = some p → ps.get? y = some q →
    ∀ t, ¬ (p.Present t ∧ q.Present t)

theorem suggestionsFor_fits (ps : SuggestPaths ι K) (groups : List (List ι)) (seedId : ι)
    (teamKey : String) (identities : Identities ι) :
    ps.suggestionsFor groups seedId teamKey identities = [] ∨ teamKey ≠ "" ∧
      ∃ s, ps.suggestionsFor groups seedId teamKey identities = s.out ∧
        ps.Fits identities seedId teamKey s := by
  unfold suggestionsFor
  split
  · exact .inl rfl
  · rename_i group _
    split
    · exact .inl rfl
    · rename_i hteam
      exact .inr ⟨hteam, _, rfl, fits_start.offers group⟩

end SuggestPaths

end

/-- The team's paths and those that are offered for it. -/
def Offered (identities : Identities ι) (teamKey : String) (out : List ι) (x : ι) : Prop :=
  (x, teamKey) ∈ identities ∨ x ∈ out

theorem suggestions_onePlace {ps : SuggestPaths ι K} {identities : Identities ι} {teamKey : String}
    (hplace : ps.OnePlace fun x => (x, teamKey) ∈ identities) (groups : List (List ι)) (seedId : ι) :
    (∀ x ∈ ps.suggestionsFor groups seedId teamKey identities, identities.taken x = false) ∧
      ps.OnePlace (Offered identities teamKey
        (ps.suggestionsFor groups seedId teamKey identities)) := by
  rcases ps.suggestionsFor_fits groups seedId teamKey identities with
    hnone | ⟨hteam, s, hout, hfits⟩
  · rw [hnone]
    refine ⟨fun x hx => absurd hx List.not_mem_nil, fun x y hx hy => ?_⟩
    exact hplace x y (hx.resolve_right List.not_mem_nil) (hy.resolve_right List.not_mem_nil)
  · rw [hout]
    refine ⟨hfits.free, ?_⟩
    intro x y hx hy hne p q hp hq t ⟨htp, htq⟩
    have hmeets := SuggestPaths.meets_of_present hp hq htp htq
    rcases hx with hx | hx
    · rcases hy with hy | hy
      · exact hplace x y hx hy hne p q hp hq t ⟨htp, htq⟩
      · rw [SuggestPaths.meets_comm, hfits.apart y hy x (.inr (.inl hx)) hne.symm] at hmeets
        cases hmeets
    · rw [hfits.apart x hx y (hy.symm.imp_right .inl) hne] at hmeets
      cases hmeets

theorem suggestions_consistent [IsStrictOrderedRing K] (hypot : K → K → K)
    (ps : SuggestPaths ι K) (opts : SuggestOptions K) :
    (ps.suggestionGroups hypot opts).flatten.Perm (ps.usable.rows.map (·.pathId)) ∧
    (∀ group ∈ ps.suggestionGroups hypot opts,
      (ps.pointsOf group).Pairwise fun p q => p.timeSec ≤ q.timeSec) ∧
    ∀ (groups : List (List ι)) (seedId : ι) (teamKey : String) (identities : Identities ι),
      (ps.OnePlace fun x => (x, teamKey) ∈ identities) →
        (∀ x ∈ ps.suggestionsFor groups seedId teamKey identities, identities.taken x = false) ∧
          ps.OnePlace (Offered identities teamKey
            (ps.suggestionsFor groups seedId teamKey identities)) :=
  ⟨ps.suggestionGroups_perm hypot opts, fun _ => ps.suggestionGroups_ordered hypot opts,
    fun groups seedId _ _ hplace => suggestions_onePlace hplace groups seedId⟩

/-! A robot's three paths, and another path that its team has in between. -/

def straight (pathId : Nat) (t₀ t₁ x₀ x₁ : ℚ) (h : t₀ ≤ t₁) : SuggestPath Nat ℚ where
  pathId := pathId
  points := [⟨t₀, x₀, 4⟩, ⟨t₁, x₁, 4⟩]
  alliance := none
  ordered := List.pairwise_pair.mpr h

def fourPaths : SuggestPaths Nat ℚ where
  rows := [straight 1 0 5 2 4 (by decide +kernel), straight 2 9 12 5 7 (by decide +kernel),
    straight 3 15 18 8 9 (by decide +kernel), straight 4 10 11 12 13 (by decide +kernel)]
  unique := by decide

def named : Identities Nat where
  rows := [(1, "frc254"), (4, "frc254")]
  unique := by decide

theorem named_onePlace : fourPaths.OnePlace fun x => (x, "frc254") ∈ named := by
  intro x y hx hy hne p q hp hq t ⟨htp, htq⟩
  have hid : ∀ z, (z, "frc254") ∈ named → z = 1 ∨ z = 4 := by
    intro z hz
    simpa [named, Table.mem_def] using hz
  have hmeets := SuggestPaths.meets_of_present hp hq htp htq
  rcases hid x hx with rfl | rfl
  · rcases hid y hy with rfl | rfl
    · exact hne rfl
    · exact absurd hmeets (by decide +kernel)
  · rcases hid y hy with rfl | rfl
    · exact absurd hmeets (by decide +kernel)
    · exact hne rfl

/-- All points are on one line, where `hypot` is the distance along it. -/
theorem suggestions_consistent_named :
    fourPaths.suggestionGroups (fun x y => max |x| |y|) {} = [[1, 2, 3], [4]] ∧
    fourPaths.suggestionsFor [[1, 2, 3], [4]] 1 "frc254" named = [3] ∧
    fourPaths.OnePlace (Offered named "frc254" [3]) := by
  have hout : fourPaths.suggestionsFor [[1, 2, 3], [4]] 1 "frc254" named = [3] := by
    decide +kernel
  have hconsistent := (suggestions_consistent (fun x y => max |x| |y|) fourPaths {}).2.2
    [[1, 2, 3], [4]] 1 "frc254" named named_onePlace
  rw [hout] at hconsistent
  exact ⟨by decide +kernel, hout, hconsistent.2⟩

end Frcmob.OnDevice.Suggestions
