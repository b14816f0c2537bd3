import Mathlib.Data.List.MinMax
import Frcmob.Picklists.Board

/-!
A draft in which every captain invites the strongest team left and every team accepts: on
the slots of a picklist, and on the draft that the slots show.
-/

namespace Frcmob.Picklists
open Transition

section Strength
variable {α : Type*} [LinearOrder α] {key : String → α} {ranked : List String}

/-- The strongest ranked team that the alliance on the clock may pick. -/
def strongest (key : String → α) (ranked : List String) (slots : List PicklistSlot) :
    Option String :=
  (ranked.filter (canBePicked (draftFromSlots slots))).argmax key

def pickStrongest (key : String → α) (ranked : List String) (slots : List PicklistSlot) :
    List PicklistSlot :=
  match strongest key ranked slots with
  | some team => pickTeam slots team ranked
  | none => slots

namespace Seating

/-- In round one the captains below the one on the clock may be picked too. -/
def IsOpen (d : Seating) (team : String) : Prop :=
  team ∉ d.taken ∨
    d.made.length < allianceCount ∧ team ∈ d.captains.drop (d.made.length + 1)

instance (d : Seating) (team : String) : Decidable (d.IsOpen team) :=
  inferInstanceAs (Decidable (_ ∨ _))

def strongest (key : String → α) (ranked : List String) (d : Seating) : Option String :=
  (ranked.filter (d.IsOpen ·)).argmax key

def pickStrongest (key : String → α) (ranked : List String) (d : Seating) : Seating :=
  match d.strongest key ranked, pickOrder[d.made.length]? with
  | some team, some number => d.pick ranked team number
  | _, _ => d

/-- A draft of ranked teams, so far in pick order. -/
structure Underway (ranked : List String) (d : Seating) : Prop where
  good : d.Good
  order : d.made.map (·.2) = pickOrder.take d.made.length
  ranked : ∀ team ∈ d.taken, team ∈ ranked

namespace Underway
variable {d : Seating}

theorem openSeat (h : d.Underway ranked) : Picklists.openSeat d.count =
    pickOrder.zipIdx[d.made.length]? :=
  openSeat_inOrder h.order (length_le_of_inOrder h.order)

theorem exists_number (h : d.made.length < 16) :
    ∃ number, pickOrder[d.made.length]? = some number := by
  have hlt : d.made.length < pickOrder.length := h
  exact ⟨pickOrder[d.made.length], List.getElem?_eq_getElem hlt⟩

theorem exists_next (h : d.Underway ranked) (hnodup : ranked.Nodup)
    (hlength : 24 ≤ ranked.length) (hmade : d.made.length < 16) :
    ∃ team, d.next ranked = some team := by
  refine Seating.exists_next ?_
  rw [hnodup.dedup, h.good.length_taken]
  omega

theorem exists_strongest (h : d.Underway ranked) (hnodup : ranked.Nodup)
    (hlength : 24 ≤ ranked.length) (hmade : d.made.length < 16) (key : String → α) :
    ∃ team, d.strongest key ranked = some team := by
  obtain ⟨team, hteam⟩ := h.exists_next hnodup hlength hmade
  obtain ⟨hmem, hfresh⟩ := mem_next hteam
  cases hstrongest : d.strongest key ranked with
  | some team => exact ⟨team, rfl⟩
  | none =>
      have hempty := List.argmax_eq_none.mp hstrongest
      have hnot := List.filter_eq_nil_iff.mp hempty team hmem
      exact absurd (decide_eq_true (Or.inl hfresh)) hnot

theorem isOpen_of_strongest {team : String} (h : d.strongest key ranked = some team) :
    team ∈ ranked ∧ d.IsOpen team := by
  obtain ⟨hmem, hopen⟩ := List.mem_filter.mp (List.argmax_mem h)
  exact ⟨hmem, of_decide_eq_true hopen⟩

theorem notMem_made (h : d.Underway ranked) {team : String} (hopen : d.IsOpen team) :
    team ∉ d.made.map (·.1) := by
  cases hopen with
  | inl hfree => exact fun hmade => hfree (List.mem_append_right _ hmade)
  | inr hbelow => exact h.good.notMem_made (List.mem_of_mem_drop hbelow.2)

theorem pick (h : d.Underway ranked) (hnodup : ranked.Nodup) (hlength : 24 ≤ ranked.length)
    {team : String} {number : Nat} (hmem : team ∈ ranked) (hopen : d.IsOpen team)
    (hnumber : pickOrder[d.made.length]? = some number) :
    (d.pick ranked team number).Underway ranked := by
  have hmade : d.made.length < 16 := (List.getElem?_eq_some_iff.mp hnumber).1
  have hplace : pickOrder.zipIdx[d.made.length]? = some (number, d.made.length) := by
    simp [List.getElem?_zipIdx, hnumber]
  obtain ⟨hlow, hhigh, hcount, -⟩ := openSeat_eq_some (h.openSeat.trans hplace)
  have hnext : team ∈ d.captains → ∃ promoted, d.next ranked = some promoted :=
    fun _ => h.exists_next hnodup hlength hmade
  refine ⟨h.good.pick (h.notMem_made hopen) hnext ⟨hlow, hhigh⟩ hcount, ?_, fun t ht => ?_⟩
  · simp [Seating.pick, h.order, List.take_add_one, hnumber]
  · simp only [taken, Seating.pick, List.mem_append, List.map_append, List.map_cons, List.map_nil,
      List.mem_singleton] at ht
    cases ht with
    | inl hcaptain =>
        by_cases hleaves : team ∈ d.captains
        · rw [if_pos hleaves] at hcaptain
          cases List.mem_append.mp hcaptain with
          | inl hstays => exact h.ranked t (List.mem_append_left _ (List.mem_of_mem_erase hstays))
          | inr hjoins => exact (mem_next (Option.mem_toList.mp hjoins)).1
        · rw [if_neg hleaves] at hcaptain
          exact h.ranked t (List.mem_append_left _ hcaptain)
    | inr hpicked =>
        cases hpicked with
        | inl hold => exact h.ranked t (List.mem_append_right _ hold)
        | inr hnew => exact hnew ▸ hmem

/-- Which team is next and which alliance gets it. -/
theorem exists_pick (h : d.Underway ranked) (hnodup : ranked.Nodup)
    (hlength : 24 ≤ ranked.length) (hmade : d.made.length < 16) (key : String → α) :
    ∃ team number, d.strongest key ranked = some team ∧ pickOrder[d.made.length]? = some number ∧
      d.pickStrongest key ranked = d.pick ranked team number ∧ d.IsOpen team ∧
        (d.pick ranked team number).Underway ranked := by
  obtain ⟨team, hteam⟩ := h.exists_strongest hnodup hlength hmade key
  obtain ⟨number, hnumber⟩ := exists_number hmade
  obtain ⟨hmem, hopen⟩ := isOpen_of_strongest hteam
  refine ⟨team, number, hteam, hnumber, ?_, hopen, h.pick hnodup hlength hmem hopen hnumber⟩
  rw [pickStrongest, hteam, hnumber]

end Underway
end Seating

/-! ### The slots -/

def NoneDeclined (slots : List PicklistSlot) : Prop :=
  ∀ slot ∈ slots, slot.status ≠ .declined

theorem PicklistSlot.makeCaptain_not_declined (number : Nat) (slot : PicklistSlot)
    (_ : slot.status ≠ .declined) : (slot.makeCaptain number).status ≠ .declined :=
  nofun

theorem PicklistSlot.pick_not_declined (number : Nat) (slot : PicklistSlot)
    (_ : slot.status ≠ .declined) : (slot.pick number).status ≠ .declined :=
  nofun

namespace NoneDeclined
variable {slots : List PicklistSlot}

theorem setSlot (h : NoneDeclined slots) (team : String) {f : PicklistSlot → PicklistSlot}
    (hf : ∀ slot, slot.status ≠ .declined → (f slot).status ≠ .declined) :
    NoneDeclined (setSlot slots team f) := by
  intro slot hslot
  cases mem_setSlot hslot with
  | inl hold => exact h slot hold
  | inr hnew =>
      obtain ⟨old, hold, -, rfl⟩ := hnew
      exact hf old (h old hold)

theorem withTeams (h : NoneDeclined slots) (teamKeys : List String) :
    NoneDeclined (withTeams slots teamKeys) := by
  refine @foldl_keeps _ _ _ NoneDeclined (fun next key hnext => ?_) teamKeys _ h
  split
  · exact hnext
  · intro slot hslot
    cases List.mem_append.mp hslot with
    | inl hold => exact hnext slot hold
    | inr hblank =>
        rw [List.mem_singleton.mp hblank]
        exact nofun

theorem moveUp (h : NoneDeclined slots) (alliances : List Alliance) (leaving : Nat) :
    NoneDeclined (moveUp alliances leaving slots) := by
  refine @foldl_keeps _ _ _ NoneDeclined (fun next alliance hnext => ?_) alliances _ h
  split
  · split
    · exact hnext
    · exact hnext.setSlot _ fun _ hstatus => hstatus
  · exact hnext

theorem seedCaptains (h : NoneDeclined slots) (ranked : List String) :
    NoneDeclined (seedCaptains slots ranked) := by
  refine @foldl_keeps _ _ _ NoneDeclined
    (fun next p hnext => hnext.setSlot p.1 (PicklistSlot.makeCaptain_not_declined (p.2 + 1))) _ _
    fun slot hslot => ?_
  obtain ⟨old, hold, rfl⟩ := List.mem_map.mp hslot
  rw [PicklistSlot.cleared]
  split
  · intro heq
    cases heq
  · exact h.withTeams _ old hold

theorem pickTeam (h : NoneDeclined slots) (team : String) (ranked : List String) :
    NoneDeclined (pickTeam slots team ranked) := by
  rw [Picklists.pickTeam]
  split
  · exact h
  · split
    · have hnext : ∀ number, NoneDeclined (Picklists.setSlot
          (Picklists.withTeams slots [team]) team (·.pick number)) :=
        fun number => (h.withTeams [team]).setSlot team (PicklistSlot.pick_not_declined number)
      split
      · exact hnext _
      · split
        · exact (hnext _).moveUp _ _
        · exact (((hnext _).moveUp _ _).withTeams _).setSlot _
            (PicklistSlot.makeCaptain_not_declined _)
    · exact h

theorem refused (h : NoneDeclined slots) : (draftFromSlots slots).refused = [] := by
  have hnone : slots.filter (·.status = .declined) = [] :=
    List.filter_eq_nil_iff.mpr fun slot hslot => by simpa using h slot hslot
  simp [draftFromSlots, hnone]

end NoneDeclined

/-- The slots show a draft of ranked teams, and no team has declined. -/
structure Follows (ranked : List String) (slots : List PicklistSlot) (d : Seating) : Prop where
  shown : Shows slots d
  underway : d.Underway ranked
  noneDeclined : NoneDeclined slots

namespace Follows
variable {slots : List PicklistSlot} {d : Seating}

theorem acceptedBy_iff (h : Follows ranked slots d) {team : String} {number : Nat} :
    acceptedBy slots team = some number ↔
      pickOrder[d.made.length]? = some number ∧ d.IsOpen team := by
  have hgood := h.underway.good
  rw [h.shown.acceptedBy_iff hgood, h.underway.openSeat, h.noneDeclined.refused]
  simp only [List.getElem?_zipIdx, Option.map_eq_some_iff, Prod.mk.injEq, List.not_mem_nil,
    not_false_eq_true, true_and, Nat.zero_add]
  have hbelow : ∀ {number}, pickOrder[d.made.length]? = some number →
      d.made.length < allianceCount → ((∃ j, d.captains[j]? = some team ∧ number < j + 1) ↔
        team ∈ d.captains.drop (d.made.length + 1)) := by
    intro number hnumber hround
    have hplace : pickOrder.zipIdx[d.made.length]? = some (number, d.made.length) := by
      simp [List.getElem?_zipIdx, hnumber]
    have hseat : number = d.made.length + 1 :=
      first_seats _ (List.mem_of_getElem? hplace) hround
    constructor
    · intro hcaptain
      obtain ⟨j, hj, hlt⟩ := hcaptain
      exact (mem_drop_of_getElem? hgood.captains_nodup hj).mpr (by omega)
    · intro hdrop
      obtain ⟨j, hj⟩ := List.mem_iff_getElem?.mp (List.mem_of_mem_drop hdrop)
      have hle := (mem_drop_of_getElem? hgood.captains_nodup hj).mp hdrop
      exact ⟨j, hj, by omega⟩
  constructor
  · intro haccepted
    obtain ⟨i, ⟨_, hnumber, rfl, rfl⟩, hteam⟩ := haccepted
    refine ⟨hnumber, hteam.imp_right fun hcaptain => ⟨hcaptain.1, ?_⟩⟩
    exact (hbelow hnumber hcaptain.1).mp hcaptain.2
  · intro hopen
    refine ⟨_, ⟨number, hopen.1, rfl, rfl⟩, hopen.2.imp_right fun hcaptain => ⟨hcaptain.1, ?_⟩⟩
    exact (hbelow hopen.1 hcaptain.1).mpr hcaptain.2

theorem onClock (h : Follows ranked slots d) (hmade : d.made.length < 16) :
    (draftFromSlots slots).onClock ≠ none := by
  obtain ⟨number, hnumber⟩ := Seating.Underway.exists_number hmade
  rw [h.shown.onClock h.underway.good, h.underway.openSeat]
  simp [List.getElem?_zipIdx, hnumber]

theorem canBePicked_iff (h : Follows ranked slots d) (hmade : d.made.length < 16)
    (team : String) : canBePicked (draftFromSlots slots) team = true ↔ d.IsOpen team := by
  obtain ⟨clock, hclock⟩ := Option.ne_none_iff_exists'.mp (h.onClock hmade)
  obtain ⟨number, hnumber⟩ := Seating.Underway.exists_number hmade
  constructor
  · intro hcan
    have haccepted : acceptedBy slots team = some clock.alliance := by
      simp [acceptedBy, hcan, hclock]
    exact (h.acceptedBy_iff.mp haccepted).2
  · intro hopen
    have haccepted := h.acceptedBy_iff.mpr ⟨hnumber, hopen⟩
    by_contra hcan
    simp [acceptedBy, hcan] at haccepted

theorem strongest_eq (h : Follows ranked slots d) (hmade : d.made.length < 16) :
    strongest key ranked slots = d.strongest key ranked := by
  rw [strongest, Seating.strongest]
  congr 1
  refine List.filter_congr fun team _ => ?_
  rw [Bool.eq_iff_iff, h.canBePicked_iff hmade, decide_eq_true_iff]

theorem pickStrongest (h : Follows ranked slots d) (hnodup : ranked.Nodup)
    (hlength : 24 ≤ ranked.length) (hmade : d.made.length < 16) (key : String → α) :
    Follows ranked (pickStrongest key ranked slots) (d.pickStrongest key ranked) := by
  obtain ⟨team, number, hteam, hnumber, hpick, hopen, hunderway⟩ :=
    h.underway.exists_pick hnodup hlength hmade key
  have haccepted := h.acceptedBy_iff.mpr ⟨hnumber, hopen⟩
  have hslots : Picklists.pickStrongest key ranked slots = pickTeam slots team ranked := by
    rw [Picklists.pickStrongest, h.strongest_eq hmade, hteam]
  rw [hpick, hslots]
  refine ⟨?_, hunderway, h.noneDeclined.pickTeam team ranked⟩
  exact h.shown.pickTeam h.underway.good haccepted
    fun _ => h.underway.exists_next hnodup hlength hmade

/-- After each pick the slots show the draft with one pick more. -/
theorem iterate (h : Follows ranked slots d) (hnodup : ranked.Nodup)
    (hlength : 24 ≤ ranked.length) (hstart : d.made = []) (key : String → α) {k : Nat}
    (hk : k ≤ 16) :
    Follows ranked ((Picklists.pickStrongest key ranked)^[k] slots)
        ((Seating.pickStrongest key ranked)^[k] d) ∧
      ((Seating.pickStrongest key ranked)^[k] d).made.length = k := by
  induction k with
  | zero => exact ⟨h, congrArg List.length hstart⟩
  | succ k ih =>
      obtain ⟨hfollows, hmade⟩ := ih (Nat.le_of_succ_le hk)
      rw [Function.iterate_succ_apply', Function.iterate_succ_apply']
      have hbefore : ((Seating.pickStrongest key ranked)^[k] d).made.length < 16 := by omega
      refine ⟨hfollows.pickStrongest hnodup hlength hbefore key, ?_⟩
      obtain ⟨pick, number, -, -, hnext, -, -⟩ :=
        hfollows.underway.exists_pick hnodup hlength hbefore key
      rw [hnext]
      simp [Seating.pick, hmade]

end Follows

end Strength

end Frcmob.Picklists
