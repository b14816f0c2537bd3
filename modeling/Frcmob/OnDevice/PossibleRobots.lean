import Frcmob.OnDevice.TrackStitching
import Mathlib.Data.List.Chain

/-!
The robots of a capture are possible ones: the chains of fragments that the links build.
-/

namespace Frcmob.OnDevice

/-! ### Fragments -/

section Fragments

variable {ι K : Type} [LinearOrder K] {fs : Fragments ι K} {a b : Tracklet ι K}

namespace Tracklet

theorem start_le_finish {x y : K} (hx : x ∈ a.start) (hy : y ∈ a.finish) : x ≤ y := by
  have hordered := a.ordered
  rw [start] at hx
  rw [finish] at hy
  cases hpoints : a.points with
  | nil => simp [hpoints] at hx
  | cons p ps =>
      rw [hpoints] at hx hy hordered
      obtain rfl : p.timeSec = x := by simpa using hx
      obtain ⟨q, hq, rfl⟩ := Option.map_eq_some_iff.mp hy
      rcases List.mem_cons.mp (List.mem_of_getLast? hq) with rfl | hmem
      · exact le_rfl
      · exact List.rel_of_pairwise_cons hordered hmem

/-- The first is over when the second begins. -/
def Before (a b : Tracklet ι K) : Prop :=
  ∃ x ∈ a.finish, ∃ y ∈ b.start, x < y

theorem exists_start (h : a.finish.isSome) : ∃ x, x ∈ a.start := by
  cases hpoints : a.points with
  | nil => simp [finish, hpoints] at h
  | cons p ps => exact ⟨p.timeSec, by simp [start, hpoints]⟩

theorem exists_finish (h : a.start.isSome) : ∃ x, x ∈ a.finish := by
  cases hpoints : a.points with
  | nil => simp [start, hpoints] at h
  | cons p ps =>
      exact ⟨((p :: ps).getLast (by simp)).timeSec, by
        rw [finish, hpoints, List.getLast?_eq_some_getLast (by simp)]
        rfl⟩

theorem Before.trans {e : Tracklet ι K} (hab : a.Before b) (hbe : b.Before e) : a.Before e := by
  obtain ⟨x, hx, y, hy, hxy⟩ := hab
  obtain ⟨z, hz, w, hw, hzw⟩ := hbe
  exact ⟨x, hx, w, hw, hxy.trans_le ((start_le_finish hy hz).trans hzw.le)⟩

instance : Trans (Before : Tracklet ι K → Tracklet ι K → Prop) Before Before :=
  ⟨Before.trans⟩

theorem Before.irrefl : ¬ a.Before a := by
  rintro ⟨x, hx, y, hy, hxy⟩
  exact absurd hxy (not_lt.mpr (start_le_finish hy hx))

end Tracklet

namespace Fragments

theorem mem_tracklets (h : a ∈ fs.usable) : a ∈ fs.tracklets :=
  (List.mem_filter.mp h).1

theorem eq_of_id (ha : a ∈ fs.tracklets) (hb : b ∈ fs.tracklets) (h : a.id = b.id) : a = b :=
  List.inj_on_of_nodup_map fs.distinct ha hb h

theorem byId_eq [LinearOrder ι] (h : a ∈ fs.usable) : fs.byId a.id = some a := by
  cases hfind : fs.byId a.id with
  | none => exact absurd (List.find?_eq_none.mp hfind a h) (by simp)
  | some b =>
      have hb : b ∈ fs.usable := List.mem_of_find?_eq_some hfind
      have hid : b.id = a.id := by simpa using List.find?_some hfind
      rw [eq_of_id (mem_tracklets hb) (mem_tracklets h) hid]

theorem exists_start (h : a ∈ fs.usable) : ∃ x, x ∈ a.start := by
  have hpos : 0 < a.points.length := of_decide_eq_true (List.mem_filter.mp h).2
  exact ⟨(a.points.head (List.ne_nil_of_length_pos hpos)).timeSec, by
    rw [Tracklet.start, List.head?_eq_some_head (List.ne_nil_of_length_pos hpos)]
    rfl⟩

theorem nodup_usable : (fs.usable.map (·.id)).Nodup :=
  fs.distinct.sublist (List.filter_sublist.map _)

end Fragments

end Fragments

variable {ι K : Type} [LinearOrder ι] [Field K] [LinearOrder K] {hypot : K → K → K}
  {fs : Fragments ι K} {o : Limits K} {opts : StitchOptions K} {s s' : Chains ι K}
  {a b first : Tracklet ι K} {c d : List (Tracklet ι K)} {robots : List (List (Tracklet ι K))}

/-- The robot could have gone from the end of the one to the start of the other. -/
def Follows (hypot : K → K → K) (o : Limits K) (a b : Tracklet ι K) : Prop :=
  ∃ p ∈ a.points.getLast?, ∃ q ∈ b.points.head?,
    0 < q.timeSec - p.timeSec ∧ q.timeSec - p.timeSec ≤ o.maxGapSec ∧
    hypot (q.x - p.x) (q.y - p.y) ≤
      o.positionToleranceM + o.maxSpeedMps * (q.timeSec - p.timeSec)

omit [LinearOrder ι] in
theorem follows_of_linkCost {colour : StitchOptions K} {cost : K}
    (h : linkCost hypot a b o colour = some cost) : Follows hypot o a b := by
  rw [linkCost] at h
  obtain ⟨p, hp, h⟩ := Option.bind_eq_some_iff.mp h
  obtain ⟨q, hq, h⟩ := Option.bind_eq_some_iff.mp h
  by_cases hgap : q.timeSec - p.timeSec ≤ 0 ∨ o.maxGapSec < q.timeSec - p.timeSec
  · exact absurd ((if_pos hgap).symm.trans h) (by simp)
  · replace h := (if_neg hgap).symm.trans h
    rw [not_or, not_le, not_lt] at hgap
    by_cases hd : o.positionToleranceM + o.maxSpeedMps * (q.timeSec - p.timeSec) <
        hypot (q.x - p.x) (q.y - p.y)
    · exact absurd ((if_pos hd).symm.trans h) (by simp)
    · exact ⟨p, hp, q, hq, hgap.1, hgap.2, not_lt.mp hd⟩

/-- The ends of a link, as `links` pushes them. -/
def Possible (hypot : K → K → K) (o : Limits K) (fs : Fragments ι K) (link : Link ι K) : Prop :=
  ∃ a ∈ fs.usable, ∃ b ∈ fs.usable, link.fromId = a.id ∧ link.toId = b.id ∧ Follows hypot o a b

theorem possible_of_mem {link : Link ι K} (h : link ∈ fs.links hypot opts) :
    Possible hypot opts.limits fs link := by
  rw [Fragments.links, List.mem_insertionSort, List.mem_flatMap] at h
  obtain ⟨a, ha, h⟩ := h
  obtain ⟨b, hb, h⟩ := List.mem_filterMap.mp h
  split at h
  · exact absurd h (by simp)
  · obtain ⟨cost, hcost, rfl⟩ := Option.map_eq_some_iff.mp h
    exact ⟨a, ha, b, hb, rfl, rfl, follows_of_linkCost hcost⟩

/-! ### Chains of fragments -/

/-- What the maps say of one chain. -/
structure Robot (hypot : K → K → K) (o : Limits K) (s : Chains ι K) (first : Tracklet ι K)
    (c : List (Tracklet ι K)) : Prop where
  head : c.head? = some first
  rooted : Parents.Rooted s.parent first.id (c.map (·.id))
  possible : c.IsChain fun a b => Follows hypot o a b ∧ a.Before b
  chainStart : s.chainStart first.id = first.start
  chainEnd : s.chainEnd first.id = c.getLast?.bind (·.finish)
  colour : (s.colour first.id).isSome

structure Robots (hypot : K → K → K) (o : Limits K) (fs : Fragments ι K) (s : Chains ι K)
    (robots : List (List (Tracklet ι K))) : Prop where
  all : robots.flatten.Perm fs.usable
  robot : ∀ c ∈ robots, ∃ first, Robot hypot o s first c

namespace Robot

omit [LinearOrder ι] in
theorem first_mem (h : Robot hypot o s first c) : first ∈ c :=
  List.mem_of_mem_head? h.head

omit [LinearOrder ι] in
theorem pairwise (h : Robot hypot o s first c) : c.Pairwise Tracklet.Before :=
  List.isChain_iff_pairwise.mp (h.possible.imp fun _ _ hab => hab.2)

omit [LinearOrder ι] in
/-- A fragment that ends with the chain is its last. -/
theorem eq_last (h : Robot hypot o s first c) (ha : a ∈ c)
    (hend : s.chainEnd first.id = a.finish) : c.getLast? = some a := by
  have hpair := h.pairwise
  rw [h.chainEnd] at hend
  rcases List.eq_nil_or_concat c with rfl | ⟨init, last, rfl⟩
  · exact absurd ha List.not_mem_nil
  · rw [List.concat_eq_append] at *
    rw [List.getLast?_concat] at hend ⊢
    rcases List.mem_append.mp ha with hinit | hlast
    · have hbefore := (List.pairwise_append.mp hpair).2.2 a hinit last List.mem_cons_self
      obtain ⟨x, hx, hy⟩ := hbefore
      rw [← hend] at hx
      exact absurd ⟨x, hx, hy⟩ Tracklet.Before.irrefl
    · rw [List.mem_singleton.mp hlast]

omit [LinearOrder ι] in
/-- A fragment that starts with the chain is its first. -/
theorem eq_first (h : Robot hypot o s first c) (ha : a ∈ c)
    (hstart : s.chainStart first.id = a.start) : a = first := by
  have hpair := h.pairwise
  have hhead := h.head
  rw [h.chainStart] at hstart
  cases c with
  | nil => exact absurd ha List.not_mem_nil
  | cons f rest =>
      obtain rfl : f = first := by simpa using hhead
      rcases List.mem_cons.mp ha with rfl | hrest
      · rfl
      · obtain ⟨x, hx, y, hy, hxy⟩ := List.rel_of_pairwise_cons hpair hrest
        rw [← hstart] at hy
        exact absurd ⟨x, hx, y, hy, hxy⟩ Tracklet.Before.irrefl

omit [LinearOrder ι] in
theorem frame (h : Robot hypot o s first c)
    (hparent : ∀ a ∈ c, s'.parent a.id = s.parent a.id)
    (hstart : s'.chainStart first.id = s.chainStart first.id)
    (hend : s'.chainEnd first.id = s.chainEnd first.id)
    (hcolour : s'.colour first.id = s.colour first.id) : Robot hypot o s' first c where
  head := h.head
  rooted := h.rooted.congr fun id hid => by
    obtain ⟨a, ha, rfl⟩ := List.mem_map.mp hid
    exact hparent a ha
  possible := h.possible
  chainStart := hstart.trans h.chainStart
  chainEnd := hend.trans h.chainEnd
  colour := hcolour ▸ h.colour

omit [LinearOrder ι] in
theorem exists_alliance (h : Robot hypot o s first c) (opts : StitchOptions K) :
    ∃ ca, s.chainAlliance opts first.id = some ca := by
  obtain ⟨e, he⟩ := Option.isSome_iff_exists.mp h.colour
  exact ⟨_, by rw [Chains.chainAlliance, he]; rfl⟩

omit [LinearOrder ι] in
theorem start_le_chainEnd (h : Robot hypot o s first c) {x y : K} (hx : x ∈ first.start)
    (hy : y ∈ s.chainEnd first.id) : x ≤ y := by
  have hpair := h.pairwise
  have hhead := h.head
  rw [h.chainEnd] at hy
  obtain ⟨last, hlast, hend⟩ := Option.mem_bind_iff.mp hy
  cases c with
  | nil => simp at hhead
  | cons f rest =>
      obtain rfl : f = first := by simpa using hhead
      rcases List.mem_cons.mp (List.mem_of_getLast? hlast) with rfl | hmem
      · exact Tracklet.start_le_finish hx hend
      · obtain ⟨z, hz, w, hw, hzw⟩ := List.rel_of_pairwise_cons hpair hmem
        exact ((Tracklet.start_le_finish hx hz).trans hzw.le).trans
          (Tracklet.start_le_finish hw hend)

end Robot

namespace Robots

omit [LinearOrder ι] in
theorem perm {robots' : List (List (Tracklet ι K))} (h : Robots hypot o fs s robots)
    (hperm : robots.Perm robots') : Robots hypot o fs s robots' where
  all := hperm.flatten.symm.trans h.all
  robot c hc := h.robot c (hperm.symm.subset hc)

omit [LinearOrder ι] in
theorem mem_usable (h : Robots hypot o fs s robots) (hc : c ∈ robots) (ha : a ∈ c) :
    a ∈ fs.usable :=
  h.all.subset (List.mem_flatten.mpr ⟨c, hc, ha⟩)

omit [LinearOrder ι] in
theorem exists_robot (h : Robots hypot o fs s robots) (ha : a ∈ fs.usable) :
    ∃ c ∈ robots, a ∈ c ∧ ∃ first, Robot hypot o s first c := by
  obtain ⟨c, hc, hac⟩ := List.mem_flatten.mp (h.all.symm.subset ha)
  exact ⟨c, hc, hac, h.robot c hc⟩

theorem root_eq (h : Robots hypot o fs s robots) (hc : c ∈ robots)
    (hr : Robot hypot o s first c) (ha : a ∈ c) : s.root fs a.id = some first.id := by
  have hlen : c.length ≤ fs.usable.length := by
    rw [← h.all.length_eq]
    exact (List.sublist_flatten_of_mem hc).length_le
  have hclimb := hr.rooted.climb_eq (List.mem_map_of_mem ha)
  exact Parents.climb_mono hclimb (by simpa using hlen)

/-- To point a fragment at its root changes no chain. -/
theorem compress_robot (h : Robots hypot o fs s robots) (hc : c ∈ robots)
    (hr : Robot hypot o s first c) (ha : a ∈ c) (hd : d ∈ robots) {first' : Tracklet ι K}
    (hr' : Robot hypot o s first' d) : Robot hypot o (s.compress a.id first.id) first' d := by
  refine { hr' with rooted := hr'.rooted.update a.id fun hmem => ?_ }
  obtain ⟨b, hb, hid⟩ := List.mem_map.mp hmem
  have hroot := h.root_eq hd hr' hb
  rw [hid, h.root_eq hc hr ha] at hroot
  exact Option.some_inj.mp hroot

theorem compress (h : Robots hypot o fs s robots) (hc : c ∈ robots)
    (hr : Robot hypot o s first c) (ha : a ∈ c) :
    Robots hypot o fs (s.compress a.id first.id) robots where
  all := h.all
  robot d hd := by
    obtain ⟨first', hr'⟩ := h.robot d hd
    exact ⟨first', h.compress_robot hc hr ha hd hr'⟩

theorem find_eq (h : Robots hypot o fs s robots) (hc : c ∈ robots)
    (hr : Robot hypot o s first c) (ha : a ∈ c) :
    s.find fs a.id = some (first.id, s.compress a.id first.id) := by
  rw [Chains.find, h.root_eq hc hr ha]
  rfl

omit [LinearOrder ι] in
theorem eq_of_first_id (h : Robots hypot o fs s robots) (hc : c ∈ robots) (hd : d ∈ robots)
    {first' : Tracklet ι K} (hr : Robot hypot o s first c) (hr' : Robot hypot o s first' d)
    (hid : first.id = first'.id) : first = first' :=
  Fragments.eq_of_id (Fragments.mem_tracklets (h.mem_usable hc hr.first_mem))
    (Fragments.mem_tracklets (h.mem_usable hd hr'.first_mem)) hid

omit [LinearOrder ι] in
theorem nodup (h : Robots hypot o fs s robots) (hc : c ∈ robots) : c.Nodup := by
  have hnodup : robots.flatten.Nodup :=
    h.all.nodup_iff.mpr (List.Nodup.of_map _ Fragments.nodup_usable)
  exact (List.nodup_flatten.mp hnodup).1 c hc

omit [LinearOrder ι] in
theorem eq_of_mem (h : Robots hypot o fs s robots) (hc : c ∈ robots) (hd : d ∈ robots)
    (hac : a ∈ c) (had : a ∈ d) : c = d := by
  have hnodup : robots.flatten.Nodup :=
    h.all.nodup_iff.mpr (List.Nodup.of_map _ Fragments.nodup_usable)
  by_contra hne
  have : Std.Symm (List.Disjoint : List (Tracklet ι K) → List (Tracklet ι K) → Prop) :=
    ⟨fun _ _ h _ hd hc => h hc hd⟩
  exact (List.nodup_flatten.mp hnodup).2.forall hc hd hne hac had

omit [LinearOrder ι] in
theorem exists_chainEnd (h : Robots hypot o fs s robots) (hc : c ∈ robots)
    (hr : Robot hypot o s first c) : ∃ z, s.chainEnd first.id = some z := by
  rcases List.eq_nil_or_concat c with rfl | ⟨init, last, rfl⟩
  · exact absurd hr.first_mem List.not_mem_nil
  · rw [List.concat_eq_append] at *
    obtain ⟨x, hx⟩ := Fragments.exists_start (h.mem_usable hc (List.mem_append_right _
      (List.mem_singleton.mpr rfl)))
    obtain ⟨z, hz⟩ := Tracklet.exists_finish (Option.isSome_of_mem hx)
    exact ⟨z, by rw [hr.chainEnd, List.getLast?_concat]; exact hz⟩

/-- The chain that ends where the link begins takes the chain that begins where it ends. -/
theorem join {rest : List (List (Tracklet ι K))} {firstA firstB : Tracklet ι K}
    (h : Robots hypot o fs s (c :: d :: rest)) (hA : Robot hypot o s firstA c)
    (hB : Robot hypot o s firstB d) (hlast : c.getLast? = some a)
    (hfollows : Follows hypot o a firstB) (hbefore : a.Before firstB) (link : Link ι K) :
    ∃ s', s.join fs link firstA.id firstB.id = some s' ∧
      Robots hypot o fs s' ((c ++ d) :: rest) := by
  have hnodup : ((c ++ (d ++ rest.flatten)).map (·.id)).Nodup :=
    (h.all.map (·.id)).nodup_iff.mpr fs.nodup_usable
  rw [List.map_append, List.map_append, List.nodup_append] at hnodup
  obtain ⟨-, hright, hcd⟩ := hnodup
  rw [List.nodup_append] at hright
  have hBmem : firstB.id ∈ d.map (·.id) := List.mem_map_of_mem hB.first_mem
  have hAmem : firstA.id ∈ c.map (·.id) := List.mem_map_of_mem hA.first_mem
  have hne : firstB.id ≠ firstA.id := fun heq =>
    hcd _ hAmem _ (List.mem_append_left _ hBmem) heq.symm
  -- the times of the two chains
  obtain ⟨x, hx⟩ := Fragments.exists_start (h.mem_usable List.mem_cons_self hA.first_mem)
  obtain ⟨e, he, y, hy, hey⟩ := hbefore
  have hAend : s.chainEnd firstA.id = some e := by
    rw [hA.chainEnd, hlast]
    exact he
  obtain ⟨z, hz⟩ := h.exists_chainEnd (List.mem_cons_of_mem _ List.mem_cons_self) hB
  have hxe : x ≤ e := hA.start_le_chainEnd hx hAend
  have hyz : y ≤ z := hB.start_le_chainEnd hy hz
  obtain ⟨ck, hck⟩ := Option.isSome_iff_exists.mp hA.colour
  obtain ⟨cd, hcd'⟩ := Option.isSome_iff_exists.mp hB.colour
  have hbyA := Fragments.byId_eq (h.mem_usable List.mem_cons_self hA.first_mem)
  have hbyB := Fragments.byId_eq
    (h.mem_usable (List.mem_cons_of_mem _ List.mem_cons_self) hB.first_mem)
  have hxy : x ≤ y := (hxe.trans_lt hey).le
  refine ⟨_, by
    simp only [Chains.join, hbyA, hbyB, Option.bind_eq_bind, Option.bind_some, Option.mem_def.mp hx,
      Option.mem_def.mp hy, if_pos hxy, hck, hcd', hA.chainStart, hB.chainStart, hAend, hz]
    rfl, ?_, ?_⟩
  · rw [List.flatten_cons, List.append_assoc]
    exact h.all
  · intro f hf
    rcases List.mem_cons.mp hf with rfl | hf
    · refine ⟨firstA, ?_, ?_, ?_, ?_, ?_, ?_⟩
      · rw [List.head?_append, hA.head, Option.some_or]
      · rw [List.map_append]
        exact hA.rooted.append hB.rooted fun id hc hd =>
          hcd id hc id (List.mem_append_left _ hd) rfl
      · refine List.isChain_append.mpr ⟨hA.possible, hB.possible, ?_⟩
        intro l hl f hf
        obtain rfl : a = l := Option.some_inj.mp (hlast.symm.trans hl)
        obtain rfl : firstB = f := Option.some_inj.mp (hB.head.symm.trans hf)
        exact ⟨hfollows, e, he, y, hy, hey⟩
      · simp only [Function.update_self, min_eq_left hxy]
        exact hx.symm
      · simp only [Function.update_self, max_eq_right (hey.le.trans hyz)]
        have hd : d ≠ [] := List.ne_nil_of_mem hB.first_mem
        rw [← hz, hB.chainEnd, List.getLast?_append_of_ne_nil _ hd]
      · simp only [Function.update_self, Option.isSome_some]
    · obtain ⟨first, hr⟩ := h.robot f (List.mem_cons_of_mem _ (List.mem_cons_of_mem _ hf))
      have hids {a : Tracklet ι K} (ha : a ∈ f) : a.id ∈ rest.flatten.map (·.id) :=
        List.mem_map_of_mem (List.mem_flatten.mpr ⟨f, hf, ha⟩)
      have hA' : first.id ≠ firstA.id := fun heq =>
        hcd _ hAmem _ (List.mem_append_right _ (hids hr.first_mem)) heq.symm
      refine ⟨first, hr.frame (fun a ha => ?_) ?_ ?_ ?_⟩
      · exact Function.update_of_ne
          (fun heq => hright.2.2 _ hBmem _ (hids ha) heq.symm) _ _
      · exact Function.update_of_ne hA' _ _
      · exact Function.update_of_ne hA' _ _
      · exact Function.update_of_ne hA' _ _

end Robots

/-! ### One link -/

/-- The link joins two chains, as far as the times say. -/
structure Meets (fs : Fragments ι K) (s : Chains ι K) (link : Link ι K) (ra rb : ι) : Prop where
  next : link.fromId ∉ s.hasNext
  prev : link.toId ∉ s.hasPrev
  fromRoot : s.root fs link.fromId = some ra
  toRoot : s.root fs link.toId = some rb
  apart : ra ≠ rb
  tail : s.chainEnd ra = (fs.byId link.fromId).bind (·.finish)
  head : s.chainStart rb = (fs.byId link.toId).bind (·.start)
  before : ∃ x ∈ s.chainEnd ra, ∃ y ∈ s.chainStart rb, x < y

/-- The averages of the two chains are clear and differ. -/
def Refused (opts : StitchOptions K) (s : Chains ι K) (ra rb : ι) : Prop :=
  ∃ ca ∈ s.chainAlliance opts ra, ∃ cb ∈ s.chainAlliance opts rb, opposed ca cb = true

namespace Robots

omit [LinearOrder ι] [Field K] in
theorem exists_perm_cons_cons (hc : c ∈ robots) (hd : d ∈ robots) (hne : c ≠ d) :
    ∃ rest, robots.Perm (c :: d :: rest) := by
  classical
  have hd' : d ∈ robots.erase c := (List.mem_erase_of_ne hne.symm).mpr hd
  exact ⟨_, (List.perm_cons_erase hc).trans (.cons c (List.perm_cons_erase hd'))⟩

/-- The link is passed over, or its two chains become one. -/
theorem follow_spec (h : Robots hypot o fs s robots) (hc : c ∈ robots) (hd : d ∈ robots)
    {firstA firstB : Tracklet ι K} (hA : Robot hypot o s firstA c)
    (hB : Robot hypot o s firstB d) (ha : a ∈ c) (hb : b ∈ d) (hfollows : Follows hypot o a b)
    {link : Link ι K} (hfrom : link.fromId = a.id) (hto : link.toId = b.id) :
    ∃ s', s.follow opts fs link = some s' ∧
      (Robots hypot o fs s' robots ∧
          (Meets fs s link firstA.id firstB.id → Refused opts s firstA.id firstB.id) ∨
        ∃ rest, robots.Perm (c :: d :: rest) ∧ Robots hypot o fs s' ((c ++ d) :: rest) ∧
          Meets fs s link firstA.id firstB.id ∧ ¬ Refused opts s firstA.id firstB.id) := by
  have hrootA := h.root_eq hc hA ha
  have hrootB := h.root_eq hd hB hb
  have hbyA := Fragments.byId_eq (h.mem_usable hc ha)
  have hbyB := Fragments.byId_eq (h.mem_usable hd hb)
  by_cases hset : link.fromId ∈ s.hasNext ∨ link.toId ∈ s.hasPrev
  · refine ⟨s, if_pos hset, .inl ⟨h, fun hmeets => ?_⟩⟩
    exact absurd hset (not_or.mpr ⟨hmeets.next, hmeets.prev⟩)
  -- the two finds only move pointers
  have h₁ := h.compress hc hA ha
  have hA₁ := h.compress_robot hc hA ha hc hA
  have hB₁ := h.compress_robot hc hA ha hd hB
  have h₂ := h₁.compress hd hB₁ hb
  have hA₂ := h₁.compress_robot hd hB₁ hb hc hA₁
  have hB₂ := h₁.compress_robot hd hB₁ hb hd hB₁
  rw [Chains.follow, if_neg hset, hfrom, hto, h.find_eq hc hA ha]
  simp only [Option.bind_eq_bind, Option.bind_some, h₁.find_eq hd hB₁ hb, hbyA, hbyB]
  generalize hs₂ : (s.compress a.id firstA.id).compress b.id firstB.id = s₂ at *
  have hend : s₂.chainEnd = s.chainEnd := hs₂ ▸ rfl
  have hstart : s₂.chainStart = s.chainStart := hs₂ ▸ rfl
  have hcolour : ∀ root, s₂.chainAlliance opts root = s.chainAlliance opts root := hs₂ ▸ fun _ => rfl
  by_cases hapart : firstA.id = firstB.id
  · exact ⟨s₂, if_pos hapart, .inl ⟨h₂, fun hmeets => absurd hapart hmeets.apart⟩⟩
  rw [if_neg hapart]
  by_cases htail : s₂.chainEnd firstA.id = a.finish
  swap
  · refine ⟨s₂, if_pos htail, .inl ⟨h₂, fun hmeets => absurd ?_ htail⟩⟩
    rw [hend, hmeets.tail, hfrom, hbyA]
    rfl
  rw [if_neg (not_not.mpr htail)]
  by_cases hhead : s₂.chainStart firstB.id = b.start
  swap
  · refine ⟨s₂, if_pos hhead, .inl ⟨h₂, fun hmeets => absurd ?_ hhead⟩⟩
    rw [hstart, hmeets.head, hto, hbyB]
    rfl
  rw [if_neg (not_not.mpr hhead)]
  have hlast := hA₂.eq_last ha htail
  obtain rfl := hB₂.eq_first hb hhead
  obtain ⟨x, hx⟩ := h₂.exists_chainEnd hc hA₂
  obtain ⟨y, hy⟩ := Fragments.exists_start (h.mem_usable hd hb)
  simp only [hx, hhead, Option.mem_def.mp hy, Option.bind_some]
  by_cases hbefore : y ≤ x
  · refine ⟨s₂, if_pos hbefore, .inl ⟨h₂, fun hmeets => ?_⟩⟩
    obtain ⟨x', hx', y', hy', hlt⟩ := hmeets.before
    obtain rfl : x = x' := Option.some_inj.mp (hx.symm.trans (hend ▸ hx'))
    obtain rfl : y = y' := Option.some_inj.mp ((hhead.trans hy).symm.trans (hstart ▸ hy'))
    exact absurd hlt (not_lt.mpr hbefore)
  rw [if_neg hbefore]
  rw [not_or] at hset
  have hmeets : Meets fs s link firstA.id b.id := {
    next := hset.1
    prev := hset.2
    fromRoot := hfrom ▸ hrootA
    toRoot := hto ▸ hrootB
    apart := hapart
    tail := by rw [← hend, htail, hfrom, hbyA]; rfl
    head := by rw [← hstart, hhead, hto, hbyB]; rfl
    before := ⟨x, hend ▸ hx, y, by rw [← hstart, hhead]; exact hy, not_le.mp hbefore⟩ }
  obtain ⟨ca, hca⟩ := hA₂.exists_alliance opts
  obtain ⟨cb, hcb⟩ := hB₂.exists_alliance opts
  simp only [Chains.joinUnlessOpposed, hca, hcb, Option.bind_eq_bind, Option.bind_some]
  by_cases hopposed : opposed ca cb = true
  · refine ⟨s₂, if_pos hopposed, .inl ⟨h₂, fun _ => ?_⟩⟩
    exact ⟨ca, hcolour _ ▸ hca, cb, hcolour _ ▸ hcb, hopposed⟩
  rw [if_neg hopposed]
  have hne : c ≠ d := by
    rintro rfl
    exact hapart (congrArg _ (Option.some_inj.mp (hA₂.head.symm.trans hB₂.head)))
  obtain ⟨rest, hperm⟩ := exists_perm_cons_cons hc hd hne
  have hab : a.Before b := ⟨x, htail ▸ hx, y, hy, not_le.mp hbefore⟩
  obtain ⟨s', hs', h'⟩ := (h₂.perm hperm).join hA₂ hB₂ hlast hfollows hab link
  refine ⟨s', hs', .inr ⟨rest, hperm, h', hmeets, ?_⟩⟩
  rintro ⟨ca', hca', cb', hcb', hopposed'⟩
  obtain rfl : ca = ca' := Option.some_inj.mp (hca.symm.trans (hcolour _ ▸ hca'))
  obtain rfl : cb = cb' := Option.some_inj.mp (hcb.symm.trans (hcolour _ ▸ hcb'))
  exact hopposed hopposed'

end Robots

/-! ### The whole capture -/

theorem robots_initial (fs : Fragments ι K) :
    Robots hypot o fs (Chains.initial fs) (fs.usable.map fun t => [t]) where
  all := by
    rw [← List.flatMap_def, List.flatMap_singleton']
  robot c hc := by
    obtain ⟨t, ht, rfl⟩ := List.mem_map.mp hc
    have hbyId := Fragments.byId_eq ht
    refine ⟨t, rfl, .root ?_, List.isChain_singleton t, ?_, ?_, ?_⟩
    · simp only [Chains.initial, hbyId, Option.map_some]
    · simp only [Chains.initial, hbyId, Option.bind_some]
    · simp only [Chains.initial, hbyId, Option.bind_some, List.getLast?_singleton]
    · simp only [Chains.initial, hbyId, Option.map_some, Option.isSome_some]

theorem follow_possible (h : Robots hypot o fs s robots) {link : Link ι K}
    (hlink : Possible hypot o fs link) :
    ∃ s' robots', s.follow opts fs link = some s' ∧ Robots hypot o fs s' robots' := by
  obtain ⟨a, ha, b, hb, hfrom, hto, hfollows⟩ := hlink
  obtain ⟨c, hc, hac, firstA, hA⟩ := h.exists_robot ha
  obtain ⟨d, hd, hbd, firstB, hB⟩ := h.exists_robot hb
  obtain ⟨s', hs', ⟨h', -⟩ | ⟨rest, -, h', -⟩⟩ :=
    h.follow_spec hc hd hA hB hac hbd hfollows hfrom hto
  · exact ⟨s', robots, hs', h'⟩
  · exact ⟨s', _, hs', h'⟩

theorem foldlM_follow {links : List (Link ι K)} (h : Robots hypot o fs s robots)
    (hlinks : ∀ link ∈ links, Possible hypot o fs link) :
    ∃ s' robots', links.foldlM (Chains.follow opts fs) s = some s' ∧
      Robots hypot o fs s' robots' := by
  induction links generalizing s robots with
  | nil => exact ⟨s, robots, rfl, h⟩
  | cons link links ih =>
      obtain ⟨s₁, robots₁, hs₁, h₁⟩ := follow_possible h (hlinks link List.mem_cons_self)
      obtain ⟨s', robots', hs', h'⟩ := ih h₁ fun l hl => hlinks l (List.mem_cons_of_mem _ hl)
      exact ⟨s', robots', by rw [List.foldlM_cons, hs₁]; exact hs', h'⟩

/-- What the output says of a fragment: its chain's first, or itself where it has no points. -/
def IsRobotOf (fs : Fragments ι K) (robots : List (List (Tracklet ι K))) (t : Tracklet ι K)
    (robot : ι) : Prop :=
  (∃ c ∈ robots, t ∈ c ∧ ∃ first ∈ c.head?, robot = first.id) ∨ t ∉ fs.usable ∧ robot = t.id

theorem place_eq {placed : Placed ι K} (h : Robots hypot o fs placed.chains robots)
    (ha : a ∈ fs.tracklets) : ∃ robot chains,
      placed.place fs a = some ⟨Function.update placed.robotOf a.id (some robot), chains⟩ ∧
      Robots hypot o fs chains robots ∧ IsRobotOf fs robots a robot := by
  by_cases husable : a ∈ fs.usable
  · obtain ⟨c, hc, hac, first, hr⟩ := h.exists_robot husable
    refine ⟨first.id, _, ?_, h.compress hc hr hac, .inl ⟨c, hc, hac, first, hr.head, rfl⟩⟩
    rw [Placed.place, Fragments.byId_eq husable, if_pos Option.isSome_some, h.find_eq hc hr hac]
    rfl
  · refine ⟨a.id, placed.chains, if_neg fun hsome => husable ?_, h, .inr ⟨husable, rfl⟩⟩
    obtain ⟨b, hb⟩ := Option.isSome_iff_exists.mp hsome
    have hid : b.id = a.id := by simpa using List.find?_some hb
    have hmem := List.mem_of_find?_eq_some hb
    rwa [← Fragments.eq_of_id (Fragments.mem_tracklets hmem) ha hid]

/-- The output loop. -/
theorem foldlM_place {ts : List (Tracklet ι K)} {placed : Placed ι K}
    (h : Robots hypot o fs placed.chains robots) (hts : ∀ t ∈ ts, t ∈ fs.tracklets)
    (hnodup : (ts.map (·.id)).Nodup) :
    ∃ out, ts.foldlM (Placed.place fs) placed = some out ∧
      Robots hypot o fs out.chains robots ∧
      (∀ id, id ∉ ts.map (·.id) → out.robotOf id = placed.robotOf id) ∧
      ∀ t ∈ ts, ∃ robot, out.robotOf t.id = some robot ∧ IsRobotOf fs robots t robot := by
  induction ts generalizing placed with
  | nil => exact ⟨placed, rfl, h, fun _ _ => rfl, fun t ht => absurd ht List.not_mem_nil⟩
  | cons t ts ih =>
      rw [List.map_cons, List.nodup_cons] at hnodup
      obtain ⟨robot, chains, hplace, hchains, hrobot⟩ := place_eq h (hts t List.mem_cons_self)
      obtain ⟨out, hout, hrobots, hframe, hplaced⟩ :=
        @ih ⟨Function.update placed.robotOf t.id (some robot), chains⟩ hchains
          (fun u hu => hts u (List.mem_cons_of_mem _ hu)) hnodup.2
      refine ⟨out, by rw [List.foldlM_cons, hplace]; exact hout, hrobots, ?_, ?_⟩
      · intro id hid
        rw [List.map_cons, List.mem_cons, not_or] at hid
        rw [hframe id hid.2]
        exact Function.update_of_ne hid.1 _ _
      · intro u hu
        rcases List.mem_cons.mp hu with rfl | hu
        · refine ⟨robot, ?_, hrobot⟩
          rw [hframe _ hnodup.1]
          exact Function.update_self _ _ _
        · exact hplaced u hu

/-! ### The robots returned -/

/-- What `stitchTracklets` returns of the chains it ends with. -/
structure Stitched (hypot : K → K → K) (o : Limits K) (fs : Fragments ι K)
    (robots : List (List (Tracklet ι K))) (chains : Chains ι K) (robotOf : ι → Option ι) :
    Prop where
  chained : Robots hypot o fs chains robots
  placed : ∀ t ∈ fs.tracklets, ∃ robot, robotOf t.id = some robot ∧ IsRobotOf fs robots t robot

namespace Stitched

variable {robotOf : ι → Option ι}

omit [LinearOrder ι] in
/-- The fragments of a chain are those its first one's id is returned for. -/
theorem mem_iff (h : Stitched hypot o fs robots s robotOf) (hc : c ∈ robots)
    (hr : Robot hypot o s first c) (ha : a ∈ fs.tracklets) :
    robotOf a.id = some first.id ↔ a ∈ c := by
  obtain ⟨robot, hrobot, ⟨d, hd, had, first', hfirst', rfl⟩ | ⟨hnot, rfl⟩⟩ := h.placed a ha
  · obtain ⟨e, hr'⟩ := h.chained.robot d hd
    obtain rfl : first' = e := Option.some_inj.mp (hfirst'.symm.trans hr'.head)
    rw [hrobot, Option.some_inj]
    constructor
    · intro hid
      obtain rfl := h.chained.eq_of_first_id hd hc hr' hr hid
      rwa [← h.chained.eq_of_mem hd hc hr'.first_mem hr.first_mem]
    · intro hac
      obtain rfl := h.chained.eq_of_mem hc hd hac had
      rw [Option.some_inj.mp (hr.head.symm.trans hr'.head)]
  · rw [hrobot, Option.some_inj]
    constructor
    · intro hid
      have hfirst := h.chained.mem_usable hc hr.first_mem
      exact absurd (Fragments.eq_of_id ha (Fragments.mem_tracklets hfirst) hid ▸ hfirst) hnot
    · exact fun hac => absurd (h.chained.mem_usable hc hac) hnot

omit [LinearOrder ι] in
theorem eq_or_mem (h : Stitched hypot o fs robots s robotOf) (ha : a ∈ fs.tracklets)
    (hb : b ∈ fs.tracklets) (heq : robotOf a.id = robotOf b.id) :
    a = b ∨ ∃ c ∈ robots, a ∈ c ∧ b ∈ c := by
  have hchain {x y : Tracklet ι K} (hy : y ∈ fs.tracklets) (heq : robotOf x.id = robotOf y.id)
      {first} {c : List (Tracklet ι K)} (hc : c ∈ robots) (hx : x ∈ c) (hfirst : first ∈ c.head?)
      (hrobot : robotOf x.id = some first.id) : ∃ c ∈ robots, x ∈ c ∧ y ∈ c := by
    obtain ⟨e, hr⟩ := h.chained.robot c hc
    obtain rfl : first = e := Option.some_inj.mp (hfirst.symm.trans hr.head)
    exact ⟨c, hc, hx, (h.mem_iff hc hr hy).mp (heq ▸ hrobot)⟩
  obtain ⟨_, hrobot, ⟨c, hc, hac, first, hfirst, rfl⟩ | ⟨-, rfl⟩⟩ := h.placed a ha
  · exact .inr (hchain hb heq hc hac hfirst hrobot)
  obtain ⟨_, hrobot', ⟨c, hc, hbc, first, hfirst, rfl⟩ | ⟨-, rfl⟩⟩ := h.placed b hb
  · obtain ⟨c, hc, hbc, hac⟩ := hchain ha heq.symm hc hbc hfirst hrobot'
    exact .inr ⟨c, hc, hac, hbc⟩
  · refine .inl (Fragments.eq_of_id ha hb ?_)
    exact Option.some_inj.mp (hrobot.symm.trans (heq.trans hrobot'))

theorem exists_chain (h : Stitched hypot o fs robots s robotOf) (robot : ι) :
    ∃ c : List (Tracklet ι K),
      c.Perm (fs.tracklets.filter fun t => robotOf t.id = some robot) ∧
      c.IsChain (fun a b => Follows hypot o a b ∧ a.Before b) ∧
      ∀ first ∈ c.head?, robot = first.id := by
  have hnodup : (fs.tracklets.filter fun t => robotOf t.id = some robot).Nodup :=
    (List.Nodup.of_map _ fs.distinct).filter _
  by_cases hnone : fs.tracklets.filter (fun t => robotOf t.id = some robot) = []
  · exact ⟨[], by rw [hnone], .nil, fun _ h => absurd h (by simp)⟩
  obtain ⟨t, hmem⟩ := List.exists_mem_of_ne_nil _ hnone
  obtain ⟨ht, hfound⟩ := List.mem_filter.mp hmem
  have hrobot : robotOf t.id = some robot := of_decide_eq_true hfound
  obtain ⟨_, heq, ⟨c, hc, htc, first, hfirst, rfl⟩ | ⟨hnot, rfl⟩⟩ := h.placed t ht
  · obtain rfl : robot = first.id := Option.some_inj.mp (hrobot.symm.trans heq)
    obtain ⟨e, hr⟩ := h.chained.robot c hc
    obtain rfl : first = e := Option.some_inj.mp (hfirst.symm.trans hr.head)
    refine ⟨c, ?_, hr.possible, fun f hf => by rw [Option.some_inj.mp (hr.head.symm.trans hf)]⟩
    refine (List.perm_ext_iff_of_nodup (h.chained.nodup hc) hnodup).mpr fun a => ?_
    rw [List.mem_filter, decide_eq_true_eq]
    constructor
    · intro hac
      have ha := Fragments.mem_tracklets (h.chained.mem_usable hc hac)
      exact ⟨ha, (h.mem_iff hc hr ha).mpr hac⟩
    · exact fun ⟨ha, hrobot⟩ => (h.mem_iff hc hr ha).mp hrobot
  · obtain rfl : robot = t.id := Option.some_inj.mp (hrobot.symm.trans heq)
    refine ⟨[t], ?_, List.isChain_singleton t, fun f hf => by rw [Option.some_inj.mp hf]⟩
    refine (List.perm_ext_iff_of_nodup (List.nodup_singleton t) hnodup).mpr fun a => ?_
    rw [List.mem_singleton, List.mem_filter, decide_eq_true_eq]
    constructor
    · rintro rfl
      exact ⟨ht, heq⟩
    · rintro ⟨ha, hrobot⟩
      rcases h.eq_or_mem ha ht (hrobot.trans heq.symm) with rfl | ⟨c, hc, -, htc⟩
      · rfl
      · exact absurd (h.chained.mem_usable hc htc) hnot

end Stitched

theorem stitched_of_followAll (h : Robots hypot opts.limits fs s robots)
    (hs : Chains.followAll opts fs (fs.links hypot opts) = some s) :
    ∃ robotOf chains, stitchTracklets hypot fs opts = some robotOf ∧
      Stitched hypot opts.limits fs robots chains robotOf := by
  obtain ⟨out, hout, hrobots, -, hplaced⟩ :=
    @foldlM_place _ _ _ _ _ hypot fs _ _ _ ⟨fun _ => none, s⟩ h (fun t ht => ht) fs.distinct
  refine ⟨out.robotOf, out.chains, ?_, hrobots, hplaced⟩
  simp only [stitchTracklets, hs, Option.bind_eq_bind, Option.bind_some, hout]
  rfl

/-- Every fragment has one robot. The fragments of a robot are a chain: each ends before the next
begins, within the gap and the reach, and the robot is the first one's id. -/
theorem stitchTracklets_spec (hypot : K → K → K) (fs : Fragments ι K) (opts : StitchOptions K) :
    ∃ robotOf, stitchTracklets hypot fs opts = some robotOf ∧
      (∀ t ∈ fs.tracklets, ∃ robot, robotOf t.id = some robot) ∧
      ∀ robot, ∃ c : List (Tracklet ι K),
        c.Perm (fs.tracklets.filter fun t => robotOf t.id = some robot) ∧
        c.IsChain (Follows hypot opts.limits) ∧ c.Pairwise Tracklet.Before ∧
        ∀ first ∈ c.head?, robot = first.id := by
  obtain ⟨s, robots, hs, h⟩ := foldlM_follow (robots_initial fs)
    fun link hlink => possible_of_mem hlink
  obtain ⟨robotOf, chains, hout, hstitched⟩ := stitched_of_followAll h hs
  refine ⟨robotOf, hout, fun t ht => ?_, fun robot => ?_⟩
  · obtain ⟨robot, hrobot, -⟩ := hstitched.placed t ht
    exact ⟨robot, hrobot⟩
  · obtain ⟨c, hperm, hchain, hfirst⟩ := hstitched.exists_chain robot
    refine ⟨c, hperm, hchain.imp fun _ _ hab => hab.1, ?_, hfirst⟩
    exact List.isChain_iff_pairwise.mp (hchain.imp fun _ _ hab => hab.2)

end Frcmob.OnDevice
