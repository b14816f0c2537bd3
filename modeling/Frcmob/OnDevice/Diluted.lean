import Frcmob.OnDevice.PossibleRobots

/-!
When a robot keeps one colour: a link is checked against the averages of its two chains, where
unclear fragments may hide a clear one.
-/

namespace Frcmob.OnDevice

variable {ι K : Type} [LinearOrder ι] [Field K] [LinearOrder K] {hypot : K → K → K}
  {fs : Fragments ι K} {o : Limits K} {opts : StitchOptions K} {s s' : Chains ι K}
  {a b first : Tracklet ι K} {c d : List (Tracklet ι K)} {robots : List (List (Tracklet ι K))}

/-- The colour of a fragment, as the stitcher reads it. -/
def clearColour (opts : StitchOptions K) (t : Tracklet ι K) : Option Alliance :=
  trackletAlliance t.toBumperColour opts

def OneColour (opts : StitchOptions K) (fs : Fragments ι K) (robotOf : ι → Option ι) : Prop :=
  ∀ a ∈ fs.tracklets, ∀ b ∈ fs.tracklets, robotOf a.id = robotOf b.id →
    ¬ (clearColour opts a = some .red ∧ clearColour opts b = some .blue)

/-- Where the link would join a clearly red fragment to a clearly blue one, the averages of the
two chains are clear and differ as well. -/
def Undiluted (opts : StitchOptions K) (fs : Fragments ι K) (s : Chains ι K) (link : Link ι K) :
    Prop :=
  ∀ ra rb, Meets fs s link ra rb →
    (∃ a ∈ fs.usable, ∃ b ∈ fs.usable, s.root fs a.id = some ra ∧ s.root fs b.id = some rb ∧
      opposed (clearColour opts a) (clearColour opts b) = true) →
    Refused opts s ra rb

theorem opposed_iff {x y : Option Alliance} : opposed x y = true ↔
    x = some .red ∧ y = some .blue ∨ x = some .blue ∧ y = some .red := by
  rcases x with _ | _ | _ <;> rcases y with _ | _ | _ <;> decide

theorem opposed_comm (x y : Option Alliance) : opposed x y = opposed y x := by
  rcases x with _ | _ | _ <;> rcases y with _ | _ | _ <;> rfl

/-- A chain with fragments of both colours. -/
def Mixed (opts : StitchOptions K) (c : List (Tracklet ι K)) : Prop :=
  ∃ a ∈ c, ∃ b ∈ c, opposed (clearColour opts a) (clearColour opts b) = true

omit [LinearOrder ι] in
theorem Mixed.mono (h : Mixed opts c) (hsub : c ⊆ d) : Mixed opts d := by
  obtain ⟨a, ha, b, hb, hopposed⟩ := h
  exact ⟨a, hsub ha, b, hsub hb, hopposed⟩

omit [LinearOrder ι] in
theorem not_mixed_append (hc : ¬ Mixed opts c) (hd : ¬ Mixed opts d)
    (hcd : ∀ a ∈ c, ∀ b ∈ d, opposed (clearColour opts a) (clearColour opts b) = false) :
    ¬ Mixed opts (c ++ d) := by
  rintro ⟨a, ha, b, hb, h⟩
  rcases List.mem_append.mp ha with ha | ha <;> rcases List.mem_append.mp hb with hb | hb
  · exact hc ⟨a, ha, b, hb, h⟩
  · exact absurd h (by rw [hcd a ha b hb]; decide)
  · exact absurd h (by rw [opposed_comm, hcd b hb a ha]; decide)
  · exact hd ⟨a, ha, b, hb, h⟩

namespace Robots

theorem root_iff (h : Robots hypot o fs s robots) (hc : c ∈ robots)
    (hr : Robot hypot o s first c) (ha : a ∈ fs.usable) :
    s.root fs a.id = some first.id ↔ a ∈ c := by
  refine ⟨fun hroot => ?_, h.root_eq hc hr⟩
  obtain ⟨d, hd, had, first', hr'⟩ := h.exists_robot ha
  rw [h.root_eq hd hr' had] at hroot
  obtain rfl := h.eq_of_first_id hd hc hr' hr (Option.some_inj.mp hroot)
  rwa [h.eq_of_mem hc hd hr.first_mem hr'.first_mem]

/-- One link: no chain is split, and a mixed one comes up exactly where the averages dilute. -/
theorem follow_colours (h : Robots hypot o fs s robots) {link : Link ι K}
    (hlink : Possible hypot o fs link) :
    ∃ s' robots', s.follow opts fs link = some s' ∧ Robots hypot o fs s' robots' ∧
      (∀ c ∈ robots, ∃ d ∈ robots', c ⊆ d) ∧
      (Undiluted opts fs s link → (∀ c ∈ robots, ¬ Mixed opts c) → ∀ c ∈ robots', ¬ Mixed opts c) ∧
      (¬ Undiluted opts fs s link → ∃ c ∈ robots', Mixed opts c) := by
  obtain ⟨a, ha, b, hb, hfrom, hto, hfollows⟩ := hlink
  obtain ⟨c, hc, hac, firstA, hA⟩ := h.exists_robot ha
  obtain ⟨d, hd, hbd, firstB, hB⟩ := h.exists_robot hb
  have hroots {ra rb : ι} (hmeets : Meets fs s link ra rb) :
      ra = firstA.id ∧ rb = firstB.id := by
    have hra := hmeets.fromRoot
    have hrb := hmeets.toRoot
    rw [hfrom, h.root_eq hc hA hac] at hra
    rw [hto, h.root_eq hd hB hbd] at hrb
    exact ⟨(Option.some_inj.mp hra).symm, (Option.some_inj.mp hrb).symm⟩
  obtain ⟨s', hs', ⟨h', hstays⟩ | ⟨rest, hperm, h', hmeets, hjoined⟩⟩ :=
    @follow_spec _ _ _ _ _ _ _ _ opts _ _ _ _ _ _ h hc hd _ _ hA hB hac hbd hfollows _ hfrom hto
  · refine ⟨s', robots, hs', h', fun c hc => ⟨c, hc, fun _ hx => hx⟩, fun _ hone => hone, ?_⟩
    intro hdiluted
    refine absurd (fun ra rb hmeets _ => ?_) hdiluted
    obtain ⟨rfl, rfl⟩ := hroots hmeets
    exact hstays hmeets
  · refine ⟨s', _, hs', h', fun e he => ?_, fun hundiluted hone => ?_, fun hdiluted => ?_⟩
    · rcases List.mem_cons.mp (hperm.subset he) with rfl | he
      · exact ⟨_, List.mem_cons_self, List.subset_append_left _ _⟩
      rcases List.mem_cons.mp he with rfl | he
      · exact ⟨_, List.mem_cons_self, List.subset_append_right _ _⟩
      · exact ⟨e, List.mem_cons_of_mem _ he, fun _ hx => hx⟩
    · intro e he
      rcases List.mem_cons.mp he with rfl | he
      · refine not_mixed_append (hone c hc) (hone d hd) fun x hx y hy => ?_
        by_contra hopposed
        refine hjoined (hundiluted _ _ hmeets ?_)
        exact ⟨x, h.mem_usable hc hx, y, h.mem_usable hd hy, h.root_eq hc hA hx,
          h.root_eq hd hB hy, by simpa using hopposed⟩
      · refine hone e (hperm.symm.subset ?_)
        exact List.mem_cons_of_mem _ (List.mem_cons_of_mem _ he)
    · refine ⟨_, List.mem_cons_self, ?_⟩
      by_contra hone
      refine hdiluted fun ra rb hmeets' ⟨x, hx, y, hy, hra, hrb, hopposed⟩ => ?_
      obtain ⟨rfl, rfl⟩ := hroots hmeets'
      have hxc := (h.root_iff hc hA hx).mp hra
      have hyd := (h.root_iff hd hB hy).mp hrb
      exact absurd ⟨x, List.mem_append_left _ hxc, y, List.mem_append_right _ hyd, hopposed⟩ hone

end Robots

/-! ### The run over the links -/

/-- Every link is undiluted at the chains it finds. -/
def UndilutedRun (opts : StitchOptions K) (fs : Fragments ι K) (s : Chains ι K)
    (links : List (Link ι K)) : Prop :=
  ∀ before link after s', links = before ++ link :: after →
    before.foldlM (Chains.follow opts fs) s = some s' → Undiluted opts fs s' link

theorem undilutedRun_nil : UndilutedRun opts fs s [] := by
  intro before link after s' h
  exact absurd h.symm (by simp)

theorem undilutedRun_cons {link : Link ι K} {links : List (Link ι K)}
    (hs : s.follow opts fs link = some s') : UndilutedRun opts fs s (link :: links) ↔
      Undiluted opts fs s link ∧ UndilutedRun opts fs s' links := by
  constructor
  · refine fun h => ⟨h [] link links s rfl rfl, fun before l after t heq ht => ?_⟩
    refine h (link :: before) l after t (by rw [heq]; rfl) ?_
    rw [List.foldlM_cons, hs]
    exact ht
  · rintro ⟨hlink, hlinks⟩ before l after t heq ht
    cases before with
    | nil =>
        obtain ⟨rfl, -⟩ := List.cons.inj heq
        obtain rfl : s = t := Option.some_inj.mp ht
        exact hlink
    | cons m before =>
        obtain ⟨rfl, htail⟩ := List.cons.inj heq
        rw [List.foldlM_cons, hs] at ht
        exact hlinks before l after t htail ht

theorem foldlM_colours {links : List (Link ι K)} (h : Robots hypot o fs s robots)
    (hlinks : ∀ link ∈ links, Possible hypot o fs link) :
    ∃ s' robots', links.foldlM (Chains.follow opts fs) s = some s' ∧
      Robots hypot o fs s' robots' ∧ (∀ c ∈ robots, ∃ d ∈ robots', c ⊆ d) ∧
      ((∀ c ∈ robots, ¬ Mixed opts c) →
        ((∀ c ∈ robots', ¬ Mixed opts c) ↔ UndilutedRun opts fs s links)) := by
  induction links generalizing s robots with
  | nil =>
      refine ⟨s, robots, rfl, h, fun c hc => ⟨c, hc, fun _ hx => hx⟩, fun hone => ?_⟩
      exact ⟨fun _ => undilutedRun_nil, fun _ => hone⟩
  | cons link links ih =>
      obtain ⟨s₁, robots₁, hs₁, h₁, hgrow₁, hkeep, hmix⟩ :=
        @Robots.follow_colours _ _ _ _ _ _ _ _ opts _ _ h _ (hlinks link List.mem_cons_self)
      obtain ⟨s', robots', hs', h', hgrow, hrun⟩ :=
        ih h₁ fun l hl => hlinks l (List.mem_cons_of_mem _ hl)
      refine ⟨s', robots', by rw [List.foldlM_cons, hs₁]; exact hs', h', ?_, fun hone => ?_⟩
      · intro c hc
        obtain ⟨d, hd, hcd⟩ := hgrow₁ c hc
        obtain ⟨e, he, hde⟩ := hgrow d hd
        exact ⟨e, he, fun _ hx => hde (hcd hx)⟩
      · rw [undilutedRun_cons hs₁]
        by_cases hlink : Undiluted opts fs s link
        · rw [hrun (hkeep hlink hone), and_iff_right hlink]
        · refine iff_of_false (fun hone' => ?_) fun hall => hlink hall.1
          -- the mixed chain stays within one
          obtain ⟨c, hc, hmixed⟩ := hmix hlink
          obtain ⟨d, hd, hcd⟩ := hgrow c hc
          exact hone' d hd (hmixed.mono hcd)

omit [LinearOrder ι] in
theorem not_mixed_singleton (t : Tracklet ι K) : ¬ Mixed opts [t] := by
  rintro ⟨a, ha, b, hb, h⟩
  rw [List.mem_singleton.mp ha, List.mem_singleton.mp hb, opposed_iff] at h
  rcases h with ⟨hred, hblue⟩ | ⟨hblue, hred⟩
  · exact absurd (hred.symm.trans hblue) (by decide)
  · exact absurd (hred.symm.trans hblue) (by decide)

omit [LinearOrder ι] in
theorem Stitched.oneColour_iff_oneRobot {robotOf : ι → Option ι}
    (h : Stitched hypot o fs robots s robotOf) :
    OneColour opts fs robotOf ↔ ∀ c ∈ robots, ¬ Mixed opts c := by
  constructor
  · rintro hone c hc ⟨a, ha, b, hb, hopposed⟩
    obtain ⟨first, hr⟩ := h.chained.robot c hc
    have ha' := Fragments.mem_tracklets (h.chained.mem_usable hc ha)
    have hb' := Fragments.mem_tracklets (h.chained.mem_usable hc hb)
    have heq := ((h.mem_iff hc hr ha').mpr ha).trans ((h.mem_iff hc hr hb').mpr hb).symm
    rcases opposed_iff.mp hopposed with hcolours | hcolours
    · exact hone a ha' b hb' heq hcolours
    · exact hone b hb' a ha' heq.symm hcolours.symm
  · rintro hmixed a ha b hb heq ⟨hred, hblue⟩
    have hopposed := opposed_iff.mpr (.inl ⟨hred, hblue⟩)
    rcases h.eq_or_mem ha hb heq with rfl | ⟨c, hc, hac, hbc⟩
    · exact absurd (hred.symm.trans hblue) (by decide)
    · exact hmixed c hc ⟨a, hac, b, hbc, hopposed⟩

/-- The robots keep one colour exactly where no link is diluted. -/
theorem oneColour_iff (hypot : K → K → K) (fs : Fragments ι K) (opts : StitchOptions K) :
    (∀ robotOf, stitchTracklets hypot fs opts = some robotOf → OneColour opts fs robotOf) ↔
      UndilutedRun opts fs (Chains.initial fs) (fs.links hypot opts) := by
  obtain ⟨s, robots, hs, h, -, hrun⟩ := @foldlM_colours _ _ _ _ _ _ _ _ opts _ _ _
    (robots_initial fs) fun link hlink => possible_of_mem hlink
  obtain ⟨robotOf, chains, hout, hstitched⟩ := stitched_of_followAll h hs
  have hone : ∀ c ∈ fs.usable.map fun t => [t], ¬ Mixed opts c := by
    intro c hc
    obtain ⟨t, -, rfl⟩ := List.mem_map.mp hc
    exact not_mixed_singleton t
  rw [← hrun hone, ← hstitched.oneColour_iff_oneRobot]
  constructor
  · exact fun hall => hall robotOf hout
  · rintro hcolour robotOf' hout'
    obtain rfl : robotOf = robotOf' := Option.some_inj.mp (hout.symm.trans hout')
    exact hcolour

/-- A red fragment of one point, a neutral one of nine and a blue one. -/
def fadedFragments : Fragments Nat ℚ where
  tracklets := [
    ⟨⟨1 / 5, 0⟩, 1, [⟨0, 3, 4⟩], by decide⟩,
    ⟨⟨0, 0⟩, 2, [⟨1, 3, 4⟩, ⟨2, 3, 4⟩, ⟨3, 3, 4⟩, ⟨4, 3, 4⟩, ⟨5, 3, 4⟩, ⟨6, 3, 4⟩, ⟨7, 3, 4⟩,
      ⟨8, 3, 4⟩, ⟨9, 3, 4⟩], by decide +kernel⟩,
    ⟨⟨0, 1 / 5⟩, 3, [⟨10, 3, 4⟩], by decide⟩]
  distinct := by decide

theorem red_joined_to_blue : ∃ robotOf,
    stitchTracklets (fun x y => |x| + |y|) fadedFragments {} = some robotOf ∧
      ¬ OneColour {} fadedFragments robotOf := by
  have hrobots : (stitchTracklets (fun x y => |x| + |y|) fadedFragments {}).map
      (fun robotOf => (robotOf 1, robotOf 3)) = some (some 1, some 1) := by
    decide +kernel
  obtain ⟨robotOf, hout, hboth⟩ := Option.map_eq_some_iff.mp hrobots
  obtain ⟨hred, hblue⟩ := Prod.mk.inj hboth
  refine ⟨robotOf, hout, fun hone => ?_⟩
  refine hone _ List.mem_cons_self _ (List.mem_cons_of_mem _ (List.mem_cons_of_mem _
    List.mem_cons_self)) (hred.trans hblue.symm) ?_
  decide +kernel

end Frcmob.OnDevice
