import Frcmob.Official.TbaClient

/-!
What every run of the client's threads keeps: an answer is one of TBA's for that very URL, and one
from the cache is younger than the lifetime of what was asked. Nothing is asked three times in one
call, and what is kept is bounded.
-/

namespace Frcmob.TbaClient

open Transition

variable {α : Type} {configured : Int} {s t : State α}

/-! ### One URL, one lifetime -/

/-- No part of the path has a slash of its own. -/
def Endpoint.Plain (e : Endpoint) : Prop :=
  ∀ part ∈ e.path, '/' ∉ part.toList

theorem toList_foldl_url (parts : List String) (url : String) :
    (parts.foldl (fun url part => url ++ "/" ++ part) url).toList =
      url.toList ++ parts.flatMap fun part => '/' :: part.toList := by
  induction parts generalizing url with
  | nil => simp
  | cons part rest ih =>
      rw [List.foldl_cons, ih, String.toList_append, String.toList_append, List.flatMap_cons]
      simp

theorem takeWhile_part {part rest : List Char} (hpart : '/' ∉ part)
    (hrest : rest = [] ∨ ∃ tail, rest = '/' :: tail) :
    (part ++ rest).takeWhile (· ≠ '/') = part := by
  have hall : ∀ c ∈ part, (decide (c ≠ '/')) = true := fun c hc =>
    decide_eq_true fun heq => hpart (heq ▸ hc)
  rw [List.takeWhile_append_of_pos hall]
  rcases hrest with rfl | ⟨tail, rfl⟩ <;> simp

theorem flatMap_parts_inj {parts parts' : List String} (h : ∀ part ∈ parts, '/' ∉ part.toList)
    (h' : ∀ part ∈ parts', '/' ∉ part.toList)
    (heq : parts.flatMap (fun part => '/' :: part.toList) =
      parts'.flatMap fun part => '/' :: part.toList) : parts = parts' := by
  have hstart : ∀ ps : List String, ps.flatMap (fun part => '/' :: part.toList) = [] ∨
      ∃ tail, ps.flatMap (fun part => '/' :: part.toList) = '/' :: tail := by
    intro ps
    cases ps with
    | nil => exact .inl rfl
    | cons part rest => exact .inr ⟨_, rfl⟩
  induction parts generalizing parts' with
  | nil =>
      cases parts' with
      | nil => rfl
      | cons part rest => cases heq
  | cons part rest ih =>
      cases parts' with
      | nil => cases heq
      | cons part' rest' =>
          have htail := (List.cons.inj heq).2
          have hpart : part.toList = part'.toList := by
            rw [← takeWhile_part (h part List.mem_cons_self) (hstart rest),
              ← takeWhile_part (h' part' List.mem_cons_self) (hstart rest')]
            exact congrArg _ htail
          rw [hpart] at htail
          rw [String.toList_inj.mp hpart, ih (fun p hp => h p (List.mem_cons_of_mem _ hp))
            (fun p hp => h' p (List.mem_cons_of_mem _ hp)) (List.append_cancel_left htail)]

/-- What is read as one URL has one lifetime. -/
theorem ttlSec_of_cacheKey {e e' : Endpoint} (h : e.Plain) (h' : e'.Plain)
    (heq : e.cacheKey = e'.cacheKey) : e.ttlSec = e'.ttlSec := by
  have hpath : e.path = e'.path := by
    have hurl := congrArg String.toList heq
    rw [Endpoint.cacheKey, Endpoint.cacheKey, String.toList_append, String.toList_append] at hurl
    have hlist := List.append_cancel_left hurl
    rw [Endpoint.url, Endpoint.url, toList_foldl_url, toList_foldl_url] at hlist
    exact flatMap_parts_inj h h' (List.append_cancel_left hlist)
  cases e <;> cases e' <;> simp_all [Endpoint.path, Endpoint.ttlSec]

/-! ### The invariant -/

/-- What a thread holds between its steps. -/
def PhaseOk (replied : List (String × Option α)) : Phase α → Prop
  | .idle => True
  | .lookup e | .check e => e.Plain
  | .asking e attempt | .storingMissing e attempt => e.Plain ∧ attempt < maxRetries
  | .storing e attempt payload =>
      e.Plain ∧ attempt < maxRetries ∧ (e.cacheKey, payload) ∈ replied

/-- A payload given to a caller: TBA's for that URL, and from the cache only while it is fresh. -/
structure PayloadOk (s : State α) (x : Ended α) (payload : Option α) : Prop where
  replied : (x.endpoint.cacheKey, payload) ∈ s.replied
  fresh : x.asked = 0 → payload ≠ none ∧ ∃ kept ∈ s.stored, kept.key = x.endpoint.cacheKey ∧
    kept.payload = payload ∧ kept.at_ ≤ x.at_ ∧ x.at_ < kept.at_ + x.endpoint.ttlSec

/-- An error raised with no request made: TBA said 404 for that URL not long ago. -/
def ErrorOk (s : State α) (x : Ended α) (error : ClientError) : Prop :=
  x.asked = 0 → error = statusError x.endpoint 404 ∧
    ∃ at_, (x.endpoint.cacheKey, at_) ∈ s.notFound ∧ at_ ≤ x.at_ ∧ x.at_ < at_ + missingTtlSec

structure EndedOk (s : State α) (x : Ended α) : Prop where
  asked : x.asked ≤ maxRetries
  payload : ∀ payload, x.result = .ok payload → PayloadOk s x payload
  error : ∀ error, x.result = .error error → ErrorOk s x error

structure Stored.Ok (s : State α) (kept : Stored α) : Prop where
  replied : (kept.key, kept.payload) ∈ s.replied
  past : kept.at_ ≤ s.now
  lifetime : ∃ e : Endpoint, e.Plain ∧ kept.key = e.cacheKey ∧ kept.ttlSec = e.ttlSec

/-- The caches hold what was put there. -/
structure CachesOk (configured : Int) (s : State α) : Prop where
  row : ∀ row ∈ s.cache, ∃ kept ∈ s.stored, kept.key = row.key ∧ kept.payload = row.payload ∧
    row.expiresAt = kept.at_ + kept.ttlSec
  missing : ∀ row ∈ s.missing, ∃ at_, (row.key, at_) ∈ s.notFound ∧ at_ ≤ s.now ∧
    row.expiresAt = at_ + missingTtlSec
  cacheSize : s.cache.rows.length ≤ maxEntries configured
  missingSize : s.missing.rows.length ≤ cacheMaxEntries

structure Inv (configured : Int) (s : State α) : Prop where
  caches : CachesOk configured s
  stored : ∀ kept ∈ s.stored, kept.Ok s
  threads : ∀ thread, PhaseOk s.replied (s.threads thread)
  ended : ∀ x ∈ s.ended, EndedOk s x

/-! ### More is remembered -/

/-- The clock and the records only go forward. -/
structure Later (s t : State α) : Prop where
  now : s.now ≤ t.now
  replied : s.replied ⊆ t.replied
  notFound : s.notFound ⊆ t.notFound
  stored : s.stored ⊆ t.stored

theorem PhaseOk.mono {replied replied' : List (String × Option α)} (hsub : replied ⊆ replied')
    {phase : Phase α} (h : PhaseOk replied phase) : PhaseOk replied' phase := by
  cases phase with
  | storing e attempt payload => exact ⟨h.1, h.2.1, hsub h.2.2⟩
  | idle | lookup _ | check _ | asking _ _ | storingMissing _ _ => exact h

theorem EndedOk.mono (hlater : Later s t) {x : Ended α} (h : EndedOk s x) : EndedOk t x where
  asked := h.asked
  payload payload hresult :=
    { replied := hlater.replied (h.payload payload hresult).replied
      fresh := fun hasked =>
        let ⟨hnull, kept, hkept, hrest⟩ := (h.payload payload hresult).fresh hasked
        ⟨hnull, kept, hlater.stored hkept, hrest⟩ }
  error error hresult hasked :=
    let ⟨herror, at_, hat, hrest⟩ := h.error error hresult hasked
    ⟨herror, at_, hlater.notFound hat, hrest⟩

theorem Stored.Ok.mono (hlater : Later s t) {kept : Stored α} (h : kept.Ok s) : kept.Ok t :=
  ⟨hlater.replied h.replied, h.past.trans hlater.now, h.lifetime⟩

/-- A step that leaves the threads and what ended alone. -/
theorem Inv.later (h : Inv configured s) (hlater : Later s t) (hcaches : CachesOk configured t)
    (hthreads : t.threads = s.threads) (hended : t.ended = s.ended)
    (hstored : ∀ kept ∈ t.stored, kept ∈ s.stored ∨ kept.Ok t) : Inv configured t where
  caches := hcaches
  stored kept hkept := (hstored kept hkept).elim (fun hold => (h.stored kept hold).mono hlater) id
  threads thread := hthreads ▸ (h.threads thread).mono hlater.replied
  ended x hx := (h.ended x (hended ▸ hx)).mono hlater

theorem CachesOk.later (h : CachesOk configured s) (hlater : Later s t)
    (hcache : ∀ row ∈ t.cache, row ∈ s.cache) (hmissing : ∀ row ∈ t.missing, row ∈ s.missing)
    (hcacheSize : t.cache.rows.length ≤ maxEntries configured)
    (hmissingSize : t.missing.rows.length ≤ cacheMaxEntries) : CachesOk configured t where
  row row hrow :=
    let ⟨kept, hkept, hrest⟩ := h.row row (hcache row hrow)
    ⟨kept, hlater.stored hkept, hrest⟩
  missing row hrow :=
    let ⟨at_, hat, hpast, hrest⟩ := h.missing row (hmissing row hrow)
    ⟨at_, hlater.notFound hat, hpast.trans hlater.now, hrest⟩
  cacheSize := hcacheSize
  missingSize := hmissingSize

theorem Inv.enter (h : Inv configured s) (thread : Nat) {phase : Phase α}
    (hphase : PhaseOk s.replied phase) : Inv configured (s.enter thread phase) where
  caches := ⟨h.caches.row, h.caches.missing, h.caches.cacheSize, h.caches.missingSize⟩
  stored kept hkept := ⟨(h.stored kept hkept).replied, (h.stored kept hkept).past,
    (h.stored kept hkept).lifetime⟩
  threads other := by
    change PhaseOk s.replied (Function.update s.threads thread phase other)
    by_cases hother : other = thread
    · rw [hother, Function.update_self]
      exact hphase
    · rw [Function.update_of_ne hother]
      exact h.threads other
  ended x hx :=
    have hlater : Later s (s.enter thread phase) :=
      ⟨le_rfl, List.Subset.refl _, List.Subset.refl _, List.Subset.refl _⟩
    (h.ended x hx).mono hlater

theorem Inv.finish (h : Inv configured s) (thread : Nat) {e : Endpoint} {asked : Nat}
    {result : Except ClientError (Option α)} (hended : EndedOk s ⟨e, s.now, asked, result⟩) :
    Inv configured (s.finish thread e asked result) := by
  have henter : Inv configured (s.enter thread .idle) := h.enter thread True.intro
  have hlater : Later s (s.finish thread e asked result) :=
    ⟨le_rfl, List.Subset.refl _, List.Subset.refl _, List.Subset.refl _⟩
  refine ⟨⟨henter.caches.row, henter.caches.missing, henter.caches.cacheSize,
    henter.caches.missingSize⟩, fun kept hkept => (h.stored kept hkept).mono hlater,
    henter.threads, fun x hx => ?_⟩
  rcases List.mem_cons.mp hx with rfl | hx
  · exact hended.mono hlater
  · exact (h.ended x hx).mono hlater

/-! ### The steps of a call -/

theorem later_wait {elapsed : ℚ} (helapsed : 0 ≤ elapsed) : Later s (s.wait elapsed) :=
  ⟨le_add_of_nonneg_right helapsed, List.Subset.refl _, List.Subset.refl _, List.Subset.refl _⟩

theorem mem_pruneTbaCache {cache : Table (Cached.key (α := α))} {now : ℚ} {row : Cached α}
    (h : row ∈ pruneTbaCache configured now cache) : row ∈ cache :=
  (Table.mem_filter.mp (Table.mem_of_mem_newest h)).1

theorem Inv.readCache (h : Inv configured s) (e : Endpoint) {elapsed : ℚ}
    (helapsed : 0 ≤ elapsed) {later : State α} {found : Option α}
    (hread : s.readCache configured e elapsed = (later, found)) :
    Inv configured later ∧ ∀ payload, found = some payload → e.Plain →
      PayloadOk later ⟨e, later.now, 0, .ok (some payload)⟩ (some payload) := by
  have hsize := Table.length_newest_le
    (s.cache.filter fun row => ¬ row.expiresAt ≤ s.now) (maxEntries configured)
  have hkeep : ∀ cache : Table (Cached.key (α := α)), (∀ row ∈ cache, row ∈ s.cache) →
      cache.rows.length ≤ maxEntries configured →
      Inv configured { s.wait elapsed with cache } := by
    intro cache hsub hle
    have hlater : Later s { s.wait elapsed with cache } :=
      ⟨(later_wait helapsed).now, List.Subset.refl _, List.Subset.refl _, List.Subset.refl _⟩
    exact h.later hlater (h.caches.later hlater hsub (fun _ hrow => hrow) hle
      h.caches.missingSize) rfl rfl fun _ hkept => .inl hkept
  rw [State.readCache] at hread
  cases hget : (pruneTbaCache configured s.now s.cache).get? e.cacheKey with
  | none =>
      simp only [hget, Prod.mk.injEq] at hread
      obtain ⟨rfl, rfl⟩ := hread
      exact ⟨hkeep _ (fun _ => mem_pruneTbaCache) hsize, fun _ hsome => by cases hsome⟩
  | some row =>
      obtain ⟨hrow, hkey⟩ := Table.get?_eq_some.mp hget
      simp only [hget] at hread
      split at hread
      · rename_i hfresh
        obtain ⟨rfl, rfl⟩ := Prod.mk.injEq .. ▸ hread
        refine ⟨hkeep _ (fun other hother => ?_) ((Table.length_touch_of_mem hrow).trans hsize),
          fun payload hpayload hplain => ?_⟩
        · rcases Table.mem_touch.mp hother with rfl | ⟨hother, -⟩
          · exact mem_pruneTbaCache hrow
          · exact mem_pruneTbaCache hother
        · obtain ⟨kept, hkept, hkeptKey, hkeptPayload, hexpires⟩ :=
            h.caches.row row (mem_pruneTbaCache hrow)
          obtain ⟨hreplied, hpast, e', hplain', hkey', httl⟩ := h.stored kept hkept
          have hcacheKey : kept.key = e.cacheKey := hkeptKey.trans hkey
          have hsame : kept.ttlSec = e.ttlSec :=
            httl.trans (ttlSec_of_cacheKey hplain' hplain (hkey'.symm.trans hcacheKey))
          have hgiven : kept.payload = some payload := hkeptPayload.trans hpayload
          refine ⟨hgiven ▸ hcacheKey ▸ hreplied, fun _ => ⟨by simp, kept, hkept, hcacheKey,
            hgiven, hpast.trans (later_wait helapsed).now, ?_⟩⟩
          rw [hexpires, hsame] at hfresh
          exact hfresh
      · obtain ⟨rfl, rfl⟩ := Prod.mk.injEq .. ▸ hread
        refine ⟨hkeep _ (fun other hother => mem_pruneTbaCache (Table.mem_erase.mp hother).1)
          ((Table.length_filter_le _ _).trans hsize), fun _ hsome => by cases hsome⟩

theorem Inv.knownMissing (h : Inv configured s) (e : Endpoint) {later : State α} {known : Bool}
    (hread : s.knownMissing e = (later, known)) :
    Inv configured later ∧ (known = true →
      ErrorOk later ⟨e, later.now, 0, .error (statusError e 404)⟩ (statusError e 404)) := by
  rw [State.knownMissing] at hread
  cases hget : s.missing.get? e.cacheKey with
  | none =>
      simp only [hget, Prod.mk.injEq] at hread
      obtain ⟨rfl, rfl⟩ := hread
      exact ⟨h, fun hknown => by cases hknown⟩
  | some row =>
      obtain ⟨hrow, hkey⟩ := Table.get?_eq_some.mp hget
      simp only [hget] at hread
      split at hread
      · rename_i hfresh
        obtain ⟨rfl, rfl⟩ := Prod.mk.injEq .. ▸ hread
        obtain ⟨at_, hat, hpast, hexpires⟩ := h.caches.missing row hrow
        exact ⟨h, fun _ _ => ⟨rfl, at_, hkey ▸ hat, hpast, hexpires ▸ hfresh⟩⟩
      · obtain ⟨rfl, rfl⟩ := Prod.mk.injEq .. ▸ hread
        have hlater : Later s { s with missing := s.missing.erase e.cacheKey } :=
          ⟨le_rfl, List.Subset.refl _, List.Subset.refl _, List.Subset.refl _⟩
        refine ⟨h.later hlater (h.caches.later hlater (fun _ hother => hother)
          (fun _ hother => (Table.mem_erase.mp hother).1) h.caches.cacheSize
          ((Table.length_filter_le _ _).trans h.caches.missingSize)) rfl rfl
          fun _ hkept => .inl hkept, fun hknown => by cases hknown⟩

theorem Inv.rememberPayload (h : Inv configured s) {e : Endpoint} {payload : Option α}
    (hplain : e.Plain) (hreplied : (e.cacheKey, payload) ∈ s.replied) {elapsed : ℚ}
    (helapsed : 0 ≤ elapsed) : Inv configured (s.rememberPayload configured e payload elapsed) := by
  have hlater : Later s (s.rememberPayload configured e payload elapsed) :=
    ⟨(later_wait helapsed).now, List.Subset.refl _, List.Subset.refl _,
      List.subset_cons_self _ _⟩
  refine h.later hlater ⟨fun row hrow => ?_, fun row hrow => ?_, Table.length_newest_le _ _,
    h.caches.missingSize⟩ rfl rfl fun kept hkept => ?_
  · rcases Table.mem_touch.mp (mem_pruneTbaCache hrow) with rfl | ⟨hrow, -⟩
    · exact ⟨_, List.mem_cons_self, rfl, rfl, rfl⟩
    · obtain ⟨kept, hkept, hrest⟩ := h.caches.row row hrow
      exact ⟨kept, List.mem_cons_of_mem _ hkept, hrest⟩
  · obtain ⟨at_, hat, hpast, hexpires⟩ := h.caches.missing row hrow
    exact ⟨at_, hat, hpast.trans hlater.now, hexpires⟩
  · rcases List.mem_cons.mp hkept with rfl | hkept
    · exact .inr ⟨hreplied, hlater.now, e, hplain, rfl, rfl⟩
    · exact .inl hkept

theorem Inv.rememberMissing (h : Inv configured s) (e : Endpoint) :
    Inv configured (s.rememberMissing e) := by
  have hlater : Later s (s.rememberMissing e) :=
    ⟨le_rfl, List.Subset.refl _, List.subset_cons_self _ _, List.Subset.refl _⟩
  have hsize := Table.length_newest_le
    (s.missing.touch ⟨e.cacheKey, s.now + missingTtlSec⟩) cacheMaxEntries
  refine h.later hlater ⟨h.caches.row, fun row hrow => ?_, h.caches.cacheSize, hsize⟩ rfl rfl
    fun _ hkept => .inl hkept
  rcases Table.mem_touch.mp (Table.mem_of_mem_newest hrow) with rfl | ⟨hrow, -⟩
  · exact ⟨s.now, List.mem_cons_self, le_rfl, rfl⟩
  · obtain ⟨at_, hat, hpast, hexpires⟩ := h.caches.missing row hrow
    exact ⟨at_, List.mem_cons_of_mem _ hat, hpast, hexpires⟩

/-! ### Runs -/

/-- The keys asked for have no slash in them. -/
def PlainCalls (_ : State α) : Action α → Prop
  | .call _ e => e.Plain
  | _ => True

theorem lt_of_again {attempt : Nat} {error : ClientError}
    (h : (again attempt error : Settled α) = .retry) : attempt + 1 < maxRetries := by
  by_contra hlast
  rw [again, if_neg hlast] at h
  cases h

/-- Only the first attempt is made again. -/
theorem lt_of_settle {e : Endpoint} {attempt : Nat} {reply : Reply α}
    (h : settle e attempt reply = .retry) : attempt + 1 < maxRetries := by
  cases reply with
  | timeout => exact lt_of_again h
  | failed => exact lt_of_again h
  | response status json =>
      simp only [settle] at h
      split at h
      · exact lt_of_again h
      · split at h
        · cases h
        · split at h
          · cases h
          · split at h
            · exact lt_of_again h
            · cases json with
              | none => exact lt_of_again h
              | some payload => cases h

theorem Inv.step (h : Inv configured s) {a : Action α} (hplain : PlainCalls s a)
    (hstep : step configured s a = some t) : Inv configured t := by
  cases a with
  | tick elapsed =>
      simp only [TbaClient.step, Option.ite_none_right_eq_some, Option.some.injEq] at hstep
      obtain ⟨helapsed, rfl⟩ := hstep
      have hlater := later_wait (s := s) helapsed
      exact h.later hlater (h.caches.later hlater (fun _ hrow => hrow) (fun _ hrow => hrow)
        h.caches.cacheSize h.caches.missingSize) rfl rfl fun _ hkept => .inl hkept
  | call thread e =>
      simp only [TbaClient.step] at hstep
      split at hstep
      · cases hstep
        exact h.enter thread hplain
      · cases hstep
  | lookup thread elapsed =>
      simp only [TbaClient.step] at hstep
      split at hstep
      · rename_i e hphase
        have hthread := h.threads thread
        rw [hphase] at hthread
        split at hstep
        · rename_i helapsed
          split at hstep
          · rename_i later payload hread
            cases hstep
            obtain ⟨hinv, hgiven⟩ := h.readCache e helapsed hread
            exact hinv.finish thread ⟨Nat.zero_le _,
              (fun p hp => by cases hp; exact hgiven payload rfl hthread),
              (fun _ hp => by cases hp)⟩
          · rename_i later hread
            cases hstep
            exact (h.readCache e helapsed hread).1.enter thread hthread
        · cases hstep
      · cases hstep
  | check thread =>
      simp only [TbaClient.step] at hstep
      split at hstep
      · rename_i e hphase
        have hthread := h.threads thread
        rw [hphase] at hthread
        split at hstep
        · rename_i later hread
          cases hstep
          obtain ⟨hinv, hgiven⟩ := h.knownMissing e hread
          exact hinv.finish thread ⟨Nat.zero_le _, (fun _ hp => by cases hp),
            (fun error hp => by cases hp; exact hgiven rfl)⟩
        · rename_i later hread
          cases hstep
          exact (h.knownMissing e hread).1.enter thread ⟨hthread, Nat.zero_lt_succ 1⟩
      · cases hstep
  | reply thread reply =>
      simp only [TbaClient.step] at hstep
      split at hstep
      · rename_i e attempt hphase
        have hthread := h.threads thread
        rw [hphase] at hthread
        obtain ⟨hplain, hattempt⟩ := hthread
        split at hstep
        · rename_i hretry
          cases hstep
          exact h.enter thread ⟨hplain, lt_of_settle hretry⟩
        · cases hstep
          exact h.finish thread ⟨hattempt, (fun _ hp => by cases hp),
            (fun _ _ hzero => by cases hzero)⟩
        · cases hstep
          exact h.enter thread ⟨hplain, hattempt⟩
        · rename_i payload _
          cases hstep
          have hlater : Later s { s with replied := (e.cacheKey, payload) :: s.replied } :=
            ⟨le_rfl, List.subset_cons_self _ _, List.Subset.refl _, List.Subset.refl _⟩
          have hmore : Inv configured { s with replied := (e.cacheKey, payload) :: s.replied } :=
            h.later hlater (h.caches.later hlater (fun _ hrow => hrow) (fun _ hrow => hrow)
              h.caches.cacheSize h.caches.missingSize) rfl rfl fun _ hkept => .inl hkept
          exact hmore.enter thread ⟨hplain, hattempt, List.mem_cons_self⟩
      · cases hstep
  | store thread elapsed =>
      simp only [TbaClient.step] at hstep
      split at hstep
      · rename_i e attempt payload hphase
        have hthread := h.threads thread
        rw [hphase] at hthread
        obtain ⟨hplain, hattempt, hreplied⟩ := hthread
        split at hstep
        · rename_i helapsed
          cases hstep
          exact (h.rememberPayload hplain hreplied helapsed).finish thread ⟨hattempt,
            (fun p hp => by cases hp; exact ⟨hreplied, fun hzero => by cases hzero⟩),
            (fun _ hp => by cases hp)⟩
        · cases hstep
      · cases hstep
  | storeMissing thread =>
      simp only [TbaClient.step] at hstep
      split at hstep
      · rename_i e attempt hphase
        have hthread := h.threads thread
        rw [hphase] at hthread
        cases hstep
        exact (h.rememberMissing e).finish thread ⟨hthread.2, (fun _ hp => by cases hp),
          (fun _ _ hzero => by cases hzero)⟩
      · cases hstep

theorem inv_of_started (h : Started s) : Inv configured s where
  caches :=
    { row := fun row hrow => by rw [h.cache] at hrow; exact absurd hrow (Table.notMem_empty row)
      missing := fun row hrow => by
        rw [h.missing] at hrow
        exact absurd hrow (Table.notMem_empty row)
      cacheSize := by rw [h.cache]; exact Nat.zero_le _
      missingSize := by rw [h.missing]; exact Nat.zero_le _ }
  stored kept hkept := by rw [h.stored] at hkept; cases hkept
  threads thread := by rw [h.threads]; exact True.intro
  ended x hx := by rw [h.ended] at hx; cases hx

theorem inv_of_reachable (h : ReachableWhen (client configured) PlainCalls s) : Inv configured s :=
  h.invariant (fun _ hstart => inv_of_started hstart) fun _ _ _ hinv hok hstep =>
    hinv.step hok hstep

/-- Whatever the threads do, a payload that a caller is given is one TBA sent for that URL. One
given with no request made was kept for less than the lifetime of what was asked, and never is
`null`. -/
theorem answers_fresh (h : ReachableWhen (client configured) PlainCalls s) :
    ∀ x ∈ s.ended, ∀ payload, x.result = .ok payload →
      (x.endpoint.cacheKey, payload) ∈ s.replied ∧
      (x.asked = 0 → payload ≠ none ∧ ∃ kept ∈ s.stored, kept.key = x.endpoint.cacheKey ∧
        kept.payload = payload ∧ kept.at_ ≤ x.at_ ∧ x.at_ < kept.at_ + x.endpoint.ttlSec) :=
  fun x hx payload hresult =>
    let hgiven := ((inv_of_reachable h).ended x hx).payload payload hresult
    ⟨hgiven.replied, hgiven.fresh⟩

/-- No call makes more than two requests, an error raised with none is a 404 that TBA gave for
that URL less than `missingTtlSec` before, and neither cache outgrows its bound. -/
theorem requests_bounded (h : ReachableWhen (client configured) PlainCalls s) :
    s.cache.rows.length ≤ maxEntries configured ∧ s.missing.rows.length ≤ cacheMaxEntries ∧
      ∀ x ∈ s.ended, x.asked ≤ 2 ∧ ∀ error, x.result = .error error → x.asked = 0 →
        error = statusError x.endpoint 404 ∧ ∃ at_, (x.endpoint.cacheKey, at_) ∈ s.notFound ∧
          at_ ≤ x.at_ ∧ x.at_ < at_ + missingTtlSec :=
  have hinv := inv_of_reachable h
  ⟨hinv.caches.cacheSize, hinv.caches.missingSize, fun x hx =>
    ⟨(hinv.ended x hx).asked, (hinv.ended x hx).error⟩⟩

instance decidablePlain (e : Endpoint) : Decidable e.Plain :=
  inferInstanceAs (Decidable (∀ part ∈ e.path, '/' ∉ part.toList))

instance decidablePlainCalls (s : State α) : ∀ a : Action α, Decidable (PlainCalls s a)
  | .call _ e => decidablePlain e
  | .tick _ | .lookup _ _ | .check _ | .reply _ _ | .store _ _ | .storeMissing _ =>
      .isTrue True.intro

def idleWorker : State String where
  now := 0
  cache := .empty
  missing := .empty
  threads _ := .idle
  replied := []
  notFound := []
  stored := []
  ended := []

theorem idleWorker_started : Started idleWorker :=
  ⟨rfl, rfl, fun _ => rfl, rfl, rfl, rfl, rfl⟩

/-- Two threads ask for the matches of an event at once, a third a moment later. -/
def askedAtOnce : List (Action String) :=
  [.call 1 (.eventMatches "2026casj"), .call 2 (.eventMatches "2026casj"), .lookup 1 0,
    .lookup 2 0, .check 1, .check 2, .reply 1 .timeout, .reply 2 (.response 200 (some "[]")),
    .store 2 0, .tick 1, .reply 1 (.response 404 none), .storeMissing 1, .tick 10,
    .call 3 (.eventMatches "2026casj"), .lookup 3 0]

theorem asked_of_askedAtOnce :
    ((client 0).run idleWorker askedAtOnce).map (fun s => s.ended.map (·.asked)) =
      some [0, 2, 1] := by
  decide +kernel

theorem answers_fresh_at_once : ∃ s, (client 0).run idleWorker askedAtOnce = some s ∧
    s.ended.map (·.asked) = [0, 2, 1] ∧ ∀ x ∈ s.ended, ∀ payload, x.result = .ok payload →
      (x.endpoint.cacheKey, payload) ∈ s.replied := by
  obtain ⟨s, hrun, hasked⟩ := Option.map_eq_some_iff.mp asked_of_askedAtOnce
  refine ⟨s, hrun, hasked, fun x hx payload hresult => ?_⟩
  exact (answers_fresh (reachableWhen_of_run askedAtOnce (.start idleWorker_started)
    (by decide +kernel) hrun) x hx payload hresult).1

theorem requests_bounded_at_once : ∃ s, (client 0).run idleWorker askedAtOnce = some s ∧
    s.ended.map (·.asked) = [0, 2, 1] ∧ s.cache.rows.length ≤ maxEntries 0 := by
  obtain ⟨s, hrun, hasked⟩ := Option.map_eq_some_iff.mp asked_of_askedAtOnce
  exact ⟨s, hrun, hasked, (requests_bounded (reachableWhen_of_run askedAtOnce
    (.start idleWorker_started) (by decide +kernel) hrun)).1⟩

end Frcmob.TbaClient
