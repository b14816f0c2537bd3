import Frcmob.Reports.Toasts

/-!
A report that a tab holds back is in no other tab's list, no request and no other toast, as
long as no tab reads the stored list while another's toast is up over a report in it. So
Undo finds it in its own tab only, and it has not left the device.
-/

namespace Frcmob.Reports
open Transition

/-- The stored list has no report that another tab holds back. -/
def ReadsSafely (s : UndoState) (tab : Nat) : Prop :=
  ∀ e ∈ s.browser.stored, ∀ toast ∈ s.toasts.rows, toast.tab ≠ tab →
    toast.save.map (·.1.stamp) ≠ some e.stamp

instance (s : UndoState) (tab : Nat) : Decidable (ReadsSafely s tab) :=
  inferInstanceAs (Decidable (∀ e ∈ s.browser.stored, _))

/-- The versions that are or were about. -/
def UndoState.known (s : UndoState) : List (String × Nat) :=
  s.saved ++ s.others

/-- A tab reads the stored list in only while it has no report that another tab holds back;
a save is a version of its own, and the lists have room for it. -/
def UndoSafe (s : UndoState) : UndoAction → Prop
  | .load tab | .deliver tab => ReadsSafely s tab
  | .save tab save => ReadsSafely s tab ∧
      (savedEntry save (previousReport (s.entries tab) save)).stamp ∉ s.known
  | .runToastAction tab _ => ReadsSafely s tab ∧
      (s.entries tab ++ extraReports (s.entries tab) s.browser.stored).length < maxEntries
  | _ => True

instance (s : UndoState) (a : UndoAction) : Decidable (UndoSafe s a) := by
  cases a <;> unfold UndoSafe <;> infer_instance

/-- The tab's toast is up over this version. -/
def HeldBy (s : UndoState) (tab : Nat) (stamp : String × Nat) : Prop :=
  ∃ toast ∈ s.toasts, toast.tab = tab ∧ ∃ save, toast.save = some save ∧ save.1.stamp = stamp

def Undone (s : UndoState) (stamp : String × Nat) : Prop :=
  ∃ v ∈ s.undone, v.stamp = stamp

/-- A version that was not taken back and that no other tab holds back. -/
structure Ours (s : UndoState) (tab : Nat) (stamp : String × Nat) : Prop where
  known : stamp ∈ s.known
  notUndone : ¬ Undone s stamp
  held : ∀ other, HeldBy s other stamp → other = tab

/-- No tab holds it back. -/
def Free (s : UndoState) (stamp : String × Nat) : Prop :=
  ∀ tab, Ours s tab stamp

structure UndoInv (s : UndoState) : Prop where
  shown : ∀ tab, ∀ e ∈ s.entries tab, Ours s tab e.stamp
  finishing : ∀ tab, ∀ e ∈ (s.pages tab).finishing, Free s e.stamp
  sending : ∀ tab, ∀ e ∈ (s.pages tab).sending, Free s e.stamp
  sent : ∀ e ∈ s.sent, Free s e.stamp
  stored : ∀ e ∈ s.browser.stored, e.stamp ∈ s.known ∧ ¬ Undone s e.stamp
  toasts : ∀ toast ∈ s.toasts, ∀ save, toast.save = some save →
    Ours s toast.tab save.1.stamp ∧ save.1.stamp ∈ s.saved ∧
      (s.pages toast.tab).held = some (save.1.id, toast.id)
  replaced : ∀ toast ∈ s.toasts, ∀ save earlier, toast.save = some save →
    save.2 = some earlier → Free s earlier.stamp ∧ earlier.id = save.1.id
  undone : ∀ v ∈ s.undone, v.stamp ∈ s.saved

theorem Free.not_held {s : UndoState} {stamp : String × Nat} (h : Free s stamp) (tab : Nat) :
    ¬ HeldBy s tab stamp := by
  intro hheld
  have hnext := (h (tab + 1)).held tab hheld
  omega

theorem Free.of_not_held {s : UndoState} {stamp : String × Nat} (hknown : stamp ∈ s.known)
    (hundone : ¬ Undone s stamp) (hheld : ∀ tab, ¬ HeldBy s tab stamp) : Free s stamp :=
  fun _ => ⟨hknown, hundone, fun other h => absurd h (hheld other)⟩

/-- What is ours stays ours unless it is taken back, or newly held back. -/
theorem Ours.next {s t : UndoState} {tab : Nat} {stamp : String × Nat} (h : Ours s tab stamp)
    (hknown : ∀ x ∈ s.known, x ∈ t.known) (hundone : Undone t stamp → Undone s stamp)
    (hheld : ∀ other, HeldBy t other stamp → HeldBy s other stamp) : Ours t tab stamp :=
  ⟨hknown _ h.known, fun hu => h.notUndone (hundone hu),
    fun other ho => h.held other (hheld other ho)⟩

/-- Two states with the same toasts and the same taken back. -/
theorem Ours.congr {s t : UndoState} {tab : Nat} {stamp : String × Nat} (h : Ours s tab stamp)
    (htoasts : t.toasts = s.toasts) (hundone : t.undone = s.undone)
    (hknown : ∀ x ∈ s.known, x ∈ t.known) : Ours t tab stamp := by
  refine h.next hknown (fun hu => ?_) fun other ho => ?_
  · rwa [Undone, hundone] at hu
  · rwa [HeldBy, htoasts] at ho

/-! ### What moves between the lists -/

theorem entries_change (b : Browser) (tab : Nat) (entries : List Entry) (u : Nat) :
    ((b.change tab entries).tabs u).entries = if u = tab then entries else (b.tabs u).entries := by
  by_cases hu : u = tab <;> simp [Browser.change, hu]

theorem entries_store (b : Browser) (tab : Nat) (entries : List Entry) (u : Nat) :
    ((b.store tab entries).tabs u).entries = (b.tabs u).entries := by
  rw [Browser.store]
  split
  · rfl
  · by_cases hu : u = tab <;> simp [hu]

/-- The list of one tab and the stored list after a step, the others being as they were. -/
structure ListsAre (b t : Browser) (tab : Nat) (entries stored : List Entry) : Prop where
  own : (t.tabs tab).entries = entries
  others : ∀ u, u ≠ tab → (t.tabs u).entries = (b.tabs u).entries
  stored : t.stored = stored

theorem listsAre_change (b : Browser) (tab : Nat) (entries : List Entry) :
    ListsAre b (b.change tab entries) tab entries b.stored := by
  refine ⟨by rw [entries_change, if_pos rfl], fun u hu => ?_, rfl⟩
  rw [entries_change, if_neg hu]

theorem listsAre_changeRoom (b : Browser) (tab : Nat) (entries : List Entry) :
    ListsAre b (b.changeRoom tab entries) tab entries b.stored :=
  ⟨(listsAre_change b tab entries).own, (listsAre_change b tab entries).others, rfl⟩

theorem listsAre_save (b : Browser) (tab : Nat) (entries : List Entry) :
    ListsAre b ((b.change tab entries).store tab entries) tab entries entries := by
  refine ⟨?_, fun u hu => ?_, Browser.store_stored ..⟩
  · rw [entries_store, entries_change, if_pos rfl]
  · rw [entries_store, entries_change, if_neg hu]

theorem listsAre_saveReport (b : Browser) (tab : Nat) (save : Save) :
    let entries := (b.tabs tab).entries
    let previous := previousReport entries save
    let next := savedEntries entries b.stored (savedEntry save previous) previous
    ListsAre b (b.saveReport tab save) tab next next :=
  ⟨(listsAre_save b tab _).own, (listsAre_save b tab _).others, (listsAre_save b tab _).stored⟩

theorem listsAre_undoReport (b : Browser) (tab : Nat) (entry : Entry) (replaced : Option Entry) :
    let next := undoneEntries (b.tabs tab).entries b.stored entry replaced
    ListsAre b (b.undoReport tab entry replaced) tab next next :=
  ⟨(listsAre_save b tab _).own, (listsAre_save b tab _).others, (listsAre_save b tab _).stored⟩

theorem listsAre_read (b : Browser) (tab : Nat) (due : Bool) (pending : Nat) :
    ListsAre b { b with
      tabs := Function.update b.tabs tab { entries := b.stored, due := due, pending := pending } }
      tab b.stored b.stored := by
  refine ⟨by simp, fun u hu => ?_, rfl⟩
  simp [hu]

theorem listsAre_write (b : Browser) (tab : Nat) (page : Tab)
    (hpage : page.entries = (b.tabs tab).entries) :
    ListsAre b { b.store tab (b.tabs tab).entries with
      tabs := Function.update (b.store tab (b.tabs tab).entries).tabs tab page }
      tab (b.tabs tab).entries (b.tabs tab).entries := by
  refine ⟨by simp [hpage], fun u hu => ?_, Browser.store_stored ..⟩
  simp [hu, entries_store]

/-- A step of the lists: what it puts into a tab's list is the tab's own, and what it stores
was not taken back. -/
theorem UndoInv.lists {s : UndoState} (h : UndoInv s) {b : Browser} {tab : Nat}
    {entries stored : List Entry} (hlists : ListsAre s.browser b tab entries stored)
    (hentries : ∀ e ∈ entries, Ours s tab e.stamp)
    (hstored : ∀ e ∈ stored, e.stamp ∈ s.known ∧ ¬ Undone s e.stamp) :
    UndoInv { s with browser := b } := by
  have hours : ∀ {u stamp}, Ours s u stamp → Ours { s with browser := b } u stamp :=
    fun ho => ho.congr rfl rfl fun _ hx => hx
  refine ⟨fun u e he => hours ?_, fun u e he v => hours (h.finishing u e he v),
    fun u e he v => hours (h.sending u e he v), fun e he v => hours (h.sent e he v),
    fun e he => hstored e (hlists.stored ▸ he), ?_, ?_, h.undone⟩
  · by_cases hu : u = tab
    · subst hu
      exact hentries e (hlists.own ▸ he)
    · rw [UndoState.entries, hlists.others u hu] at he
      exact h.shown u e he
  · intro toast ht save hsave
    obtain ⟨hheld, hrest⟩ := h.toasts toast ht save hsave
    exact ⟨hours hheld, hrest⟩
  · intro toast ht save earlier hsave hreplaced
    obtain ⟨hfree, hid⟩ := h.replaced toast ht save earlier hsave hreplaced
    exact ⟨fun v => hours (hfree v), hid⟩

/-- Copies from elsewhere become known. -/
theorem UndoInv.learn {s : UndoState} (h : UndoInv s) (stamps : List (String × Nat)) :
    UndoInv { s with others := stamps ++ s.others } := by
  have hknown : ∀ x ∈ s.known, x ∈ UndoState.known { s with others := stamps ++ s.others } := by
    intro x hx
    cases List.mem_append.mp hx with
    | inl hsaved => exact List.mem_append_left _ hsaved
    | inr hother => exact List.mem_append_right _ (List.mem_append_right _ hother)
  have hours : ∀ {u stamp}, Ours s u stamp → Ours { s with others := stamps ++ s.others } u stamp :=
    fun ho => ho.congr rfl rfl hknown
  refine ⟨fun u e he => hours (h.shown u e he), fun u e he v => hours (h.finishing u e he v),
    fun u e he v => hours (h.sending u e he v), fun e he v => hours (h.sent e he v),
    fun e he => ⟨hknown _ (h.stored e he).1, (h.stored e he).2⟩, ?_, ?_, h.undone⟩
  · intro toast ht save hsave
    obtain ⟨hheld, hrest⟩ := h.toasts toast ht save hsave
    exact ⟨hours hheld, hrest⟩
  · intro toast ht save earlier hsave hreplaced
    obtain ⟨hfree, hid⟩ := h.replaced toast ht save earlier hsave hreplaced
    exact ⟨fun v => hours (hfree v), hid⟩

/-! ### Pages and toasts -/

theorem UndoInv.setPage {s : UndoState} (h : UndoInv s) (tab : Nat) (page : Page)
    (hfinishing : ∀ e ∈ page.finishing, Free s e.stamp)
    (hsending : ∀ e ∈ page.sending, Free s e.stamp)
    (hheld : ∀ toast ∈ s.toasts, toast.tab = tab → ∀ save, toast.save = some save →
      page.held = some (save.1.id, toast.id)) : UndoInv (s.setPage tab page) := by
  have hours : ∀ {u stamp}, Ours s u stamp → Ours (s.setPage tab page) u stamp :=
    fun ho => ho.congr rfl rfl fun _ hx => hx
  refine ⟨fun u e he => hours (h.shown u e he), fun u e he v => hours ?_,
    fun u e he v => hours ?_, fun e he v => hours (h.sent e he v), h.stored, ?_, ?_, h.undone⟩
  · by_cases hu : u = tab
    · simp only [UndoState.setPage, hu, Function.update_self] at he
      exact hfinishing e he v
    · simp only [UndoState.setPage, Function.update_of_ne hu] at he
      exact h.finishing u e he v
  · by_cases hu : u = tab
    · simp only [UndoState.setPage, hu, Function.update_self] at he
      exact hsending e he v
    · simp only [UndoState.setPage, Function.update_of_ne hu] at he
      exact h.sending u e he v
  · intro toast ht save hsave
    obtain ⟨hown, hsaved, hpage⟩ := h.toasts toast ht save hsave
    refine ⟨hours hown, hsaved, ?_⟩
    by_cases hu : toast.tab = tab
    · simp only [UndoState.setPage, hu, Function.update_self]
      exact hheld toast ht hu save hsave
    · simpa only [UndoState.setPage, Function.update_of_ne hu] using hpage
  · intro toast ht save earlier hsave hreplaced
    obtain ⟨hfree, hid⟩ := h.replaced toast ht save earlier hsave hreplaced
    exact ⟨fun v => hours (hfree v), hid⟩

theorem heldBy_erase {s : UndoState} {tab other : Nat} {stamp : String × Nat} :
    HeldBy { s with toasts := s.toasts.erase tab } other stamp ↔
      HeldBy s other stamp ∧ other ≠ tab := by
  constructor
  · intro ⟨toast, ht, htab, hsave⟩
    obtain ⟨hin, hne⟩ := Table.mem_erase.mp ht
    exact ⟨⟨toast, hin, htab, hsave⟩, htab ▸ hne⟩
  · intro ⟨⟨toast, ht, htab, hsave⟩, hne⟩
    exact ⟨toast, Table.mem_erase.mpr ⟨ht, htab.symm ▸ hne⟩, htab, hsave⟩

theorem Ours.erase {s : UndoState} {tab u : Nat} {stamp : String × Nat} (h : Ours s u stamp) :
    Ours { s with toasts := s.toasts.erase tab } u stamp :=
  h.next (fun _ hx => hx) (fun hu => hu) fun _ ho => (heldBy_erase.mp ho).1

theorem UndoInv.eraseToast {s : UndoState} (h : UndoInv s) (tab : Nat) :
    UndoInv { s with toasts := s.toasts.erase tab } := by
  refine ⟨fun u e he => (h.shown u e he).erase, fun u e he v => (h.finishing u e he v).erase,
    fun u e he v => (h.sending u e he v).erase, fun e he v => (h.sent e he v).erase, h.stored,
    ?_, ?_, h.undone⟩
  · intro toast ht save hsave
    obtain ⟨hheld, hrest⟩ := h.toasts toast (Table.mem_erase.mp ht).1 save hsave
    exact ⟨hheld.erase, hrest⟩
  · intro toast ht save earlier hsave hreplaced
    obtain ⟨hfree, hid⟩ := h.replaced toast (Table.mem_erase.mp ht).1 save earlier hsave hreplaced
    exact ⟨fun v => (hfree v).erase, hid⟩

/-- Once its toast is gone, a report is free. -/
theorem Ours.free {s : UndoState} {tab : Nat} {stamp : String × Nat} (h : Ours s tab stamp) :
    Free { s with toasts := s.toasts.erase tab } stamp := by
  refine .of_not_held h.known h.notUndone fun other ho => ?_
  obtain ⟨hheld, hne⟩ := heldBy_erase.mp ho
  exact hne (h.held other hheld)

/-- Closing a toast sends a held report on its way. -/
theorem UndoInv.close {s : UndoState} (h : UndoInv s) (tab : Nat) (reason : ToastCloseReason) :
    UndoInv (s.close tab reason) := by
  cases hget : s.toasts.get? tab with
  | none =>
      rw [UndoState.close, hget]
      exact h
  | some toast =>
      obtain ⟨ht, rfl⟩ := Table.get?_eq_some.mp hget
      have herased := h.eraseToast toast.tab
      cases hsave : toast.save with
      | none =>
          simp only [UndoState.close, hget, hsave]
          exact herased
      | some save =>
          by_cases haction : reason = .action
          · simp only [UndoState.close, hget, hsave, haction, if_true]
            exact herased
          · simp only [UndoState.close, hget, hsave, haction, if_false]
            refine herased.setPage _ _ ?_ (herased.sending toast.tab) ?_
            · intro e he
              cases List.mem_cons.mp he with
              | inl heq => exact heq ▸ (h.toasts toast ht save hsave).1.free
              | inr hold => exact herased.finishing toast.tab e hold
            · intro other hother htab
              exact absurd htab (Table.mem_erase.mp hother).2

/-- What closing a toast leaves as it is. -/
structure ClosedFrom (s t : UndoState) (tab : Nat) : Prop where
  browser : t.browser = s.browser
  known : t.known = s.known
  saved : t.saved = s.saved
  undone : t.undone = s.undone
  nextId : (t.pages tab).nextId = (s.pages tab).nextId
  toasts : ∀ toast ∈ t.toasts, toast ∈ s.toasts ∧ toast.tab ≠ tab

theorem closedFrom_close (s : UndoState) (tab : Nat) (reason : ToastCloseReason) :
    ClosedFrom s (s.close tab reason) tab := by
  cases hget : s.toasts.get? tab with
  | none =>
      rw [UndoState.close, hget]
      exact ⟨rfl, rfl, rfl, rfl, rfl, fun toast ht => ⟨ht, Table.get?_eq_none.mp hget toast ht⟩⟩
  | some toast =>
      have herase : ∀ other ∈ s.toasts.erase tab, other ∈ s.toasts ∧ other.tab ≠ tab :=
        fun other hother => Table.mem_erase.mp hother
      cases hsave : toast.save with
      | none =>
          simp only [UndoState.close, hget, hsave]
          exact ⟨rfl, rfl, rfl, rfl, rfl, herase⟩
      | some save =>
          by_cases haction : reason = .action
          · simp only [UndoState.close, hget, hsave, haction, if_true]
            exact ⟨rfl, rfl, rfl, rfl, rfl, herase⟩
          · simp only [UndoState.close, hget, hsave, haction, if_false]
            refine ⟨rfl, rfl, rfl, rfl, ?_, herase⟩
            simp [UndoState.release, UndoState.setPage, Page.letGo]

theorem ClosedFrom.ours {s t : UndoState} {tab u : Nat} {stamp : String × Nat}
    (h : ClosedFrom s t tab) (ho : Ours s u stamp) : Ours t u stamp := by
  refine ho.next (fun x hx => h.known ▸ hx) (fun hu => ?_) fun other hother => ?_
  · rwa [Undone, h.undone] at hu
  · obtain ⟨toast, ht, htab, hsave⟩ := hother
    exact ⟨toast, (h.toasts toast ht).1, htab, hsave⟩

theorem ClosedFrom.free {s t : UndoState} {tab : Nat} {stamp : String × Nat}
    (h : ClosedFrom s t tab) (ho : Ours s tab stamp) : Free t stamp := by
  have hown := h.ours ho
  refine .of_not_held hown.known hown.notUndone fun other hother => ?_
  have hsame := hown.held other hother
  obtain ⟨toast, ht, htab, -⟩ := hother
  exact (h.toasts toast ht).2 (htab.trans hsame)

/-- The tab's new toast, and the page's reference to it. -/
def UndoState.putToast (s : UndoState) (toast : Toast) (page : Page) : UndoState :=
  { s with toasts := s.toasts.put toast }.setPage toast.tab page

/-- A toast that holds nothing back. -/
theorem UndoInv.putToast {s : UndoState} (h : UndoInv s) {tab id : Nat} {page : Page}
    (hfinishing : page.finishing = (s.pages tab).finishing)
    (hsending : page.sending = (s.pages tab).sending)
    (hnone : ∀ toast ∈ s.toasts, toast.tab ≠ tab) :
    UndoInv (s.putToast { tab := tab, id := id } page) := by
  have hmem : ∀ toast ∈ s.toasts.put { tab := tab, id := id }, ∀ save,
      toast.save = some save → toast ∈ s.toasts := by
    intro toast ht save hsave
    cases Table.mem_put.mp ht with
    | inl heq =>
        rw [heq] at hsave
        cases hsave
    | inr hold => exact hold.1
  have hours : ∀ {u stamp}, Ours s u stamp →
      Ours { s with toasts := s.toasts.put { tab := tab, id := id } } u stamp := by
    intro u stamp ho
    refine ho.next (fun _ hx => hx) (fun hu => hu)
      fun other ⟨toast, ht, htab, save, hsave, hst⟩ => ?_
    exact ⟨toast, hmem toast ht save hsave, htab, save, hsave, hst⟩
  have hput : UndoInv { s with toasts := s.toasts.put { tab := tab, id := id } } := by
    refine ⟨fun u e he => hours (h.shown u e he), fun u e he v => hours (h.finishing u e he v),
      fun u e he v => hours (h.sending u e he v), fun e he v => hours (h.sent e he v), h.stored,
      ?_, ?_, h.undone⟩
    · intro toast ht save hsave
      obtain ⟨hheld, hrest⟩ := h.toasts toast (hmem toast ht save hsave) save hsave
      exact ⟨hours hheld, hrest⟩
    · intro toast ht save earlier hsave hreplaced
      obtain ⟨hfree, hid⟩ :=
        h.replaced toast (hmem toast ht save hsave) save earlier hsave hreplaced
      exact ⟨fun v => hours (hfree v), hid⟩
  refine hput.setPage _ _ (fun e he => ?_) (fun e he => ?_) fun toast ht htab save hsave => ?_
  · exact hput.finishing tab e (hfinishing ▸ he)
  · exact hput.sending tab e (hsending ▸ he)
  · exact absurd htab (hnone toast (hmem toast ht save hsave))

/-- A toast that holds a new version back. -/
theorem UndoInv.hold {s : UndoState} (h : UndoInv s) {tab id : Nat} (page : Page) {entry : Entry}
    {replaced : Option Entry} (hfinishing : page.finishing = (s.pages tab).finishing)
    (hsending : page.sending = (s.pages tab).sending) (hheld : page.held = some (entry.id, id))
    (hnone : ∀ toast ∈ s.toasts, toast.tab ≠ tab) (hfresh : entry.stamp ∉ s.known)
    (hreplaced : ∀ earlier, replaced = some earlier →
      Free s earlier.stamp ∧ earlier.id = entry.id) :
    (∀ u stamp, Ours s u stamp →
      Ours (UndoState.putToast { s with saved := entry.stamp :: s.saved }
        { tab := tab, id := id, save := some (entry, replaced) } page) u stamp) ∧
    UndoInv (UndoState.putToast { s with saved := entry.stamp :: s.saved }
      { tab := tab, id := id, save := some (entry, replaced) } page) := by
  have hmem : ∀ toast ∈ s.toasts.put { tab := tab, id := id, save := some (entry, replaced) },
      toast = { tab := tab, id := id, save := some (entry, replaced) } ∨ toast ∈ s.toasts :=
    fun toast ht => (Table.mem_put.mp ht).imp_right And.left
  have hknown : ∀ x ∈ s.known, x ∈ entry.stamp :: s.saved ++ s.others :=
    fun x hx => List.mem_cons_of_mem _ hx
  have hours : ∀ {u stamp}, Ours s u stamp → Ours (UndoState.putToast
      { s with saved := entry.stamp :: s.saved }
      { tab := tab, id := id, save := some (entry, replaced) } page) u stamp := by
    intro u stamp ho
    refine ho.next hknown (fun hu => hu) fun other ⟨toast, ht, htab, save, hsave, hst⟩ => ?_
    cases hmem toast ht with
    | inl heq =>
        rw [heq] at hsave
        obtain rfl := Option.some_inj.mp hsave
        exact absurd (hst ▸ ho.known) hfresh
    | inr hold => exact ⟨toast, hold, htab, save, hsave, hst⟩
  refine ⟨fun u stamp => hours, fun u e he => hours (h.shown u e he), fun u e he v => hours ?_,
    fun u e he v => hours ?_, fun e he v => hours (h.sent e he v),
    fun e he => ⟨hknown _ (h.stored e he).1, (h.stored e he).2⟩, ?_, ?_,
    fun v hv => List.mem_cons_of_mem _ (h.undone v hv)⟩
  · by_cases hu : u = tab
    · simp only [UndoState.putToast, UndoState.setPage, hu, Function.update_self, hfinishing] at he
      exact h.finishing tab e he v
    · simp only [UndoState.putToast, UndoState.setPage, Function.update_of_ne hu] at he
      exact h.finishing u e he v
  · by_cases hu : u = tab
    · simp only [UndoState.putToast, UndoState.setPage, hu, Function.update_self, hsending] at he
      exact h.sending tab e he v
    · simp only [UndoState.putToast, UndoState.setPage, Function.update_of_ne hu] at he
      exact h.sending u e he v
  · intro toast ht save hsave
    cases hmem toast ht with
    | inl heq =>
        subst heq
        obtain rfl := Option.some_inj.mp hsave
        refine ⟨⟨List.mem_cons_self, ?_, ?_⟩, List.mem_cons_self, ?_⟩
        · intro ⟨v, hv, heq⟩
          exact hfresh (List.mem_append_left _ (heq ▸ h.undone v hv))
        · intro other ⟨toast, ht, htab, save, hsave, hst⟩
          cases hmem toast ht with
          | inl heq => rw [← htab, heq]
          | inr hold =>
              have hsaved := (h.toasts toast hold save hsave).2.1
              exact absurd (List.mem_append_left _ (hst ▸ hsaved)) hfresh
        · simpa only [UndoState.putToast, UndoState.setPage, Function.update_self] using hheld
    | inr hold =>
        obtain ⟨hown, hsaved, hpage⟩ := h.toasts toast hold save hsave
        refine ⟨hours hown, List.mem_cons_of_mem _ hsaved, ?_⟩
        simpa only [UndoState.putToast, UndoState.setPage,
          Function.update_of_ne (hnone toast hold)] using hpage
  · intro toast ht save earlier hsave hsome
    cases hmem toast ht with
    | inl heq =>
        subst heq
        obtain rfl := Option.some_inj.mp hsave
        obtain ⟨hfree, hid⟩ := hreplaced earlier hsome
        exact ⟨fun v => hours (hfree v), hid⟩
    | inr hold =>
        obtain ⟨hfree, hid⟩ := h.replaced toast hold save earlier hsave hsome
        exact ⟨fun v => hours (hfree v), hid⟩

/-! ### Saving and undoing -/

/-- What a tab may read in. -/
theorem UndoInv.read {s : UndoState} (h : UndoInv s) {tab : Nat} (hsafe : ReadsSafely s tab) :
    ∀ e ∈ s.browser.stored, Ours s tab e.stamp := by
  intro e he
  obtain ⟨hknown, hundone⟩ := h.stored e he
  refine ⟨hknown, hundone, fun other ⟨toast, ht, htab, save, hsave, hst⟩ => ?_⟩
  apply Decidable.byContradiction
  intro hne
  refine hsafe e he toast ht (htab ▸ hne) ?_
  rw [hsave, Option.map_some, hst]

theorem close_with (s : UndoState) (b : Browser) (saved : List (String × Nat)) (tab : Nat)
    (reason : ToastCloseReason) :
    UndoState.close { s with browser := b, saved := saved } tab reason =
      { s.close tab reason with browser := b, saved := saved } := by
  cases hget : s.toasts.get? tab with
  | none => simp only [UndoState.close, hget]
  | some toast =>
      cases hsave : toast.save with
      | none => simp only [UndoState.close, hget, hsave]
      | some save =>
          by_cases haction : reason = .action
          · simp only [UndoState.close, hget, hsave, haction, if_true]
          · simp only [UndoState.close, hget, hsave, haction, if_false]
            rfl

/-- The toast of a save. -/
def UndoState.holdSave (s : UndoState) (tab : Nat) (entry : Entry) (replaced : Option Entry) :
    UndoState :=
  let closed := s.close tab .replaced
  let id := (closed.pages tab).nextId
  UndoState.putToast { closed with saved := entry.stamp :: closed.saved }
    { tab := tab, id := id, save := some (entry, replaced) }
    { closed.pages tab with nextId := id + 1, held := some (entry.id, id) }

/-- A save, as its toast first and then the lists. -/
theorem saveReport_eq (s : UndoState) (tab : Nat) (save : Save) :
    let previous := previousReport (s.entries tab) save
    s.saveReport tab save = { s.holdSave tab (savedEntry save previous) previous with
      browser := s.browser.saveReport tab save } := by
  intro previous
  have hid := (closedFrom_close s tab .replaced).nextId.symm
  have hsaved := (closedFrom_close s tab .replaced).saved
  simp only [UndoState.saveReport, UndoState.showToast, close_with, UndoState.holdSave,
    UndoState.putToast, UndoState.setPage, hid, hsaved, Function.update_self, Function.update_idem]
  rfl

theorem UndoInv.holdSave {s : UndoState} (h : UndoInv s) {tab : Nat} {entry : Entry}
    {replaced : Option Entry} (hfresh : entry.stamp ∉ s.known)
    (hreplaced : ∀ earlier, replaced = some earlier →
      earlier ∈ s.entries tab ∧ earlier.id = entry.id) :
    (∀ u stamp, Ours s u stamp → Ours (s.holdSave tab entry replaced) u stamp) ∧
      Ours (s.holdSave tab entry replaced) tab entry.stamp ∧
        UndoInv (s.holdSave tab entry replaced) := by
  have hclosed := closedFrom_close s tab .replaced
  have hfree : ∀ earlier, replaced = some earlier →
      Free (s.close tab .replaced) earlier.stamp ∧ earlier.id = entry.id := by
    intro earlier hsome
    obtain ⟨hin, hid⟩ := hreplaced earlier hsome
    exact ⟨hclosed.free (h.shown tab earlier hin), hid⟩
  have hnone := fun toast ht => (hclosed.toasts toast ht).2
  obtain ⟨hours, hhold⟩ := (h.close tab .replaced).hold
    { (s.close tab .replaced).pages tab with
      nextId := ((s.close tab .replaced).pages tab).nextId + 1
      held := some (entry.id, ((s.close tab .replaced).pages tab).nextId) }
    rfl rfl rfl hnone (hclosed.known ▸ hfresh) hfree
  exact ⟨fun u stamp ho => hours u stamp (hclosed.ours ho),
    (hhold.toasts _ (Table.mem_put_self ..) _ rfl).1, hhold⟩

theorem holdSave_browser (s : UndoState) (tab : Nat) (entry : Entry) (replaced : Option Entry) :
    (s.holdSave tab entry replaced).browser = s.browser :=
  (closedFrom_close s tab .replaced).browser

/-- A held save with the list it is put into. -/
theorem UndoInv.saved {s : UndoState} (h : UndoInv s) {b : Browser} {tab : Nat} {entry : Entry}
    {replaced : Option Entry} {next : List Entry} (hlists : ListsAre s.browser b tab next next)
    (hfresh : entry.stamp ∉ s.known)
    (hreplaced : ∀ earlier, replaced = some earlier →
      earlier ∈ s.entries tab ∧ earlier.id = entry.id)
    (hnext : ∀ e ∈ next, e = entry ∨ Ours s tab e.stamp) :
    UndoInv { s.holdSave tab entry replaced with browser := b } := by
  obtain ⟨hours, hnew, hhold⟩ := h.holdSave hfresh hreplaced
  have hours : ∀ e ∈ next, Ours (s.holdSave tab entry replaced) tab e.stamp := by
    intro e he
    cases hnext e he with
    | inl heq => exact heq ▸ hnew
    | inr hold => exact hours tab _ hold
  rw [← holdSave_browser s tab entry replaced] at hlists
  exact hhold.lists hlists hours fun e he => ⟨(hours e he).known, (hours e he).notUndone⟩

theorem UndoInv.saveReport {s : UndoState} (h : UndoInv s) {tab : Nat} {save : Save}
    (safe : UndoSafe s (.save tab save)) : UndoInv (s.saveReport tab save) := by
  obtain ⟨hread, hfresh⟩ := safe
  rw [saveReport_eq]
  refine h.saved (listsAre_saveReport s.browser tab save) hfresh ?_ fun e he => ?_
  · intro earlier hprevious
    exact ⟨previousReport_mem hprevious, savedEntry_previous earlier hprevious⟩
  · rcases mem_of_mem_savedEntries he with heq | hin | hin
    · exact .inl heq
    · exact .inr (h.shown tab e hin)
    · exact .inr (h.read hread e hin)

/-- Undo takes back a report that only its own tab has. -/
theorem UndoInv.undoReport {s : UndoState} (h : UndoInv s) {tab : Nat} {toast : Toast}
    {entry : Entry} {replaced : Option Entry} (ht : toast ∈ s.toasts) (htab : toast.tab = tab)
    (hsave : toast.save = some (entry, replaced)) (hread : ReadsSafely s tab) :
    UndoInv (UndoState.undoReport { s with toasts := s.toasts.erase tab } tab toast.id entry
      replaced) := by
  obtain ⟨hown, hsaved, -⟩ := h.toasts toast ht _ hsave
  have hheld : HeldBy s tab entry.stamp := ⟨toast, ht, htab, _, hsave, rfl⟩
  have hours : ∀ {u stamp}, Ours s u stamp → stamp ≠ entry.stamp →
      Ours (UndoState.undoReport { s with toasts := s.toasts.erase tab } tab toast.id entry
        replaced) u stamp := by
    intro u stamp ho hne
    refine ho.next (fun _ hx => hx) (fun ⟨v, hv, heq⟩ => ?_) fun _ ho => (heldBy_erase.mp ho).1
    cases List.mem_cons.mp hv with
    | inl hentry => exact absurd (heq ▸ hentry ▸ rfl) hne
    | inr hold => exact ⟨v, hold, heq⟩
  have hfree : ∀ {stamp}, Free s stamp → Free (UndoState.undoReport
      { s with toasts := s.toasts.erase tab } tab toast.id entry replaced) stamp := by
    intro stamp hs u
    exact hours (hs u) fun heq => hs.not_held tab (heq ▸ hheld)
  have hlists := listsAre_undoReport s.browser tab entry replaced
  have hnext : ∀ e ∈ undoneEntries (s.entries tab) s.browser.stored entry replaced,
      Ours s tab e.stamp ∧ e.stamp ≠ entry.stamp := by
    intro e he
    rcases mem_of_mem_undoneEntries he with hback | ⟨hin | hin, hne⟩
    · have hs := (h.replaced toast ht _ e hsave hback).1
      exact ⟨hs tab, fun heq => hs.not_held tab (heq ▸ hheld)⟩
    · exact ⟨h.shown tab e hin, fun heq => hne (congrArg Prod.fst heq)⟩
    · exact ⟨h.read hread e hin, fun heq => hne (congrArg Prod.fst heq)⟩
  have hpage : ∀ u, (((UndoState.undoReport { s with toasts := s.toasts.erase tab } tab toast.id
      entry replaced).pages u).finishing = (s.pages u).finishing) ∧
      ((UndoState.undoReport { s with toasts := s.toasts.erase tab } tab toast.id
      entry replaced).pages u).sending = (s.pages u).sending := by
    intro u
    by_cases hu : u = tab
    · simp [UndoState.undoReport, UndoState.setPage, Page.letGo, hu]
    · simp [UndoState.undoReport, UndoState.setPage, hu]
  refine ⟨fun u e he => ?_, fun u e he => hfree (h.finishing u e ((hpage u).1 ▸ he)),
    fun u e he => hfree (h.sending u e ((hpage u).2 ▸ he)), fun e he => hfree (h.sent e he),
    fun e he => ?_, fun other hother save hs => ?_, fun other hother save earlier hs hsome => ?_,
    fun v hv => ?_⟩
  · by_cases hu : u = tab
    · subst hu
      have hin := hnext e (hlists.own ▸ he)
      exact hours hin.1 hin.2
    · have hin : e ∈ s.entries u := by
        rw [UndoState.entries, ← hlists.others u hu]
        exact he
      refine hours (h.shown u e hin) fun heq => hu ?_
      exact ((h.shown u e hin).held tab (heq ▸ hheld)).symm
  · have hin := hnext e (hlists.stored ▸ he)
    exact ⟨(hours hin.1 hin.2).known, (hours hin.1 hin.2).notUndone⟩
  · obtain ⟨hin, hne⟩ := Table.mem_erase.mp hother
    obtain ⟨hown', hsaved', hpage'⟩ := h.toasts other hin save hs
    refine ⟨hours hown' fun heq => hne ?_, hsaved', ?_⟩
    · exact (hown'.held tab (heq ▸ hheld)).symm
    · simpa only [UndoState.undoReport, UndoState.setPage, Function.update_of_ne hne] using hpage'
  · obtain ⟨hs', hid⟩ := h.replaced other (Table.mem_erase.mp hother).1 save earlier hs hsome
    exact ⟨hfree hs', hid⟩
  · cases List.mem_cons.mp hv with
    | inl heq => exact heq ▸ hsaved
    | inr hold => exact h.undone v hold

/-- The share loop's candidates leave out the report whose toast is up. -/
theorem UndoInv.candidate {s : UndoState} (h : UndoInv s) {tab : Nat} {eventKey roomKey : String}
    {e : Entry} (he : e ∈ shareCandidates (s.entries tab) ((s.pages tab).held.map (·.1)) eventKey
      roomKey) : Free s e.stamp := by
  obtain ⟨hin, -, -, -, hheld⟩ := mem_shareCandidates.mp he
  have hown := h.shown tab e hin
  refine .of_not_held hown.known hown.notUndone fun other ho => ?_
  have hsame := hown.held other ho
  obtain ⟨toast, ht, htab, save, hsave, hstamp⟩ := ho
  have hpage := (h.toasts toast ht save hsave).2.2
  rw [htab, hsame] at hpage
  refine hheld ?_
  rw [hpage, Option.map_some]
  exact congrArg (fun stamp : String × Nat => some stamp.1) hstamp

/-- While the lists have room nothing is cut. -/
theorem mem_undoneEntries_of_lt {entries stored : List Entry} {entry x : Entry}
    {replaced : Option Entry}
    (hroom : (entries ++ extraReports entries stored).length < maxEntries)
    (hx : x ∈ entries ++ extraReports entries stored) (hid : x.id ≠ entry.id) :
    x ∈ undoneEntries entries stored entry replaced := by
  have hperm : (withReportsFromOtherTabs entries stored).Perm
      (entries ++ extraReports entries stored) := by
    rw [withReportsFromOtherTabs]
    split
    · rename_i hnone
      rw [hnone, List.append_nil]
    · rw [List.take_of_length_le]
      · exact newestFirst_perm _
      · rw [(newestFirst_perm _).length_eq]
        exact hroom.le
  have hin : x ∈ (withReportsFromOtherTabs entries stored).filter fun row => row.id ≠ entry.id :=
    List.mem_filter.mpr ⟨hperm.mem_iff.mpr hx, decide_eq_true hid⟩
  cases replaced with
  | none => exact hin
  | some earlier =>
      have hlen := List.length_filter_le (fun row : Entry => decide (row.id ≠ entry.id))
        (withReportsFromOtherTabs entries stored)
      rw [hperm.length_eq] at hlen
      simp only [undoneEntries]
      rw [List.take_of_length_le]
      · exact List.mem_cons_of_mem _ hin
      · rw [List.length_cons]
        omega

/-- After Undo the stored list is without the report. -/
theorem restored_undoneEntries {entries stored : List Entry} {entry : Entry}
    {replaced : Option Entry}
    (hroom : (entries ++ extraReports entries stored).length < maxEntries) :
    Restored stored (undoneEntries entries stored entry replaced) entry replaced := by
  refine ⟨fun x hx hid => ?_, fun earlier hsome => ?_, fun id hid hne => ?_⟩
  · exact (mem_of_mem_undoneEntries hx).resolve_right fun hold => hold.2 hid
  · rw [hsome]
    exact List.mem_cons_self
  · obtain ⟨e, he, rfl⟩ := mem_ids.mp hid
    have hlist : ∃ x ∈ entries ++ extraReports entries stored, x.id = e.id := by
      by_cases hown : ∃ y ∈ entries, y.id = e.id
      · obtain ⟨y, hy, hyid⟩ := hown
        exact ⟨y, List.mem_append_left _ hy, hyid⟩
      · refine ⟨e, List.mem_append_right _ (mem_extraReports.mpr ⟨he, ?_⟩), rfl⟩
        exact fun y hy hyid => hown ⟨y, hy, hyid⟩
    obtain ⟨x, hx, hxid⟩ := hlist
    refine mem_ids.mpr ⟨x, mem_undoneEntries_of_lt hroom hx (hxid ▸ hne), hxid⟩

/-! ### Runs -/

/-- A step of the lists, by what it makes of them. -/
theorem UndoInv.moveLists {s t : UndoState} {a : TabAction} (h : UndoInv s)
    (hstep : s.moveLists a = some t) (tab : Nat) (entries : List Entry) {stored : List Entry}
    (hlists : ∀ b, tabStep s.browser a = some b → ListsAre s.browser b tab entries stored)
    (hentries : ∀ e ∈ entries, Ours s tab e.stamp)
    (hstored : stored = s.browser.stored ∨ stored = entries) : UndoInv t := by
  obtain ⟨b, hb, rfl⟩ := Option.map_eq_some_iff.mp hstep
  refine h.lists (hlists b hb) hentries fun e he => ?_
  cases hstored with
  | inl heq => exact h.stored e (heq ▸ he)
  | inr heq =>
      have hown := hentries e (heq ▸ he)
      exact ⟨hown.known, hown.notUndone⟩

/-- The stamp of a copy that arrives is nobody's to hold back. -/
theorem UndoInv.arrives {s : UndoState} (h : UndoInv s) {copy : Entry} (harrives : Arrives s copy)
    (hknown : copy.stamp ∈ s.known) : Free s copy.stamp := by
  cases harrives with
  | inl hsent =>
      obtain ⟨e, he, heq⟩ := List.mem_map.mp hsent
      exact heq ▸ h.sent e he
  | inr hother =>
      refine .of_not_held hknown ?_ fun tab => ?_
      · intro ⟨v, hv, heq⟩
        exact hother (heq ▸ h.undone v hv)
      · intro ⟨toast, ht, _, save, hsave, heq⟩
        exact hother (heq ▸ (h.toasts toast ht save hsave).2.1)

theorem stamp_keepLocalAnalytics (e : Entry) (here : Option Entry) :
    (keepLocalAnalytics e here).stamp = e.stamp := by
  cases here <;> rfl

theorem stamp_received (e : Entry) (roomKey : Option String) (serverSynced : Bool) :
    SavedScoutingEntry.stamp { e with roomKey := roomKey, serverSynced := serverSynced } =
      e.stamp :=
  rfl

theorem UndoInv.receive {s t : UndoState} (h : UndoInv s) {tab : Nat} {copy : Entry}
    (harrives : Arrives s copy)
    (hstep : UndoState.moveLists { s with others := copy.stamp :: s.others } (.receive tab copy) =
      some t) : UndoInv t := by
  have hlearn := h.learn [copy.stamp]
  refine hlearn.moveLists hstep tab (mergeEntry (s.entries tab) copy) (fun b hb => ?_)
    (fun e he => ?_) (.inl rfl)
  · obtain rfl := Option.some_inj.mp hb
    exact listsAre_change ..
  · cases mem_of_mem_mergeEntry he with
    | inl hnew =>
        rw [hnew, stamp_keepLocalAnalytics]
        exact hlearn.arrives harrives (List.mem_append_right _ List.mem_cons_self) tab
    | inr hold => exact hlearn.shown tab e hold

theorem UndoInv.snapshot {s t : UndoState} (h : UndoInv s) {tab : Nat} {roomKey : String}
    {records : List RoomEntryRecord} (hids : DistinctIds (records.filterMap (·.entry)))
    (harrives : ∀ copy ∈ records.filterMap (·.entry), Arrives s copy)
    (hstep : UndoState.moveLists { s with
      others := (records.filterMap (·.entry)).map SavedScoutingEntry.stamp ++ s.others }
      (.snapshot tab roomKey records) = some t) : UndoInv t := by
  have hlearn := h.learn ((records.filterMap (·.entry)).map SavedScoutingEntry.stamp)
  refine hlearn.moveLists hstep tab (roomSnapshot (s.entries tab) roomKey records)
    (fun b hb => ?_) (fun e he => ?_) (.inl rfl)
  · obtain rfl := Option.some_inj.mp hb
    exact listsAre_changeRoom ..
  · cases mem_of_mem_replaceRoomEntries (distinct_entriesFromRoomRecords ..) he with
    | inl hold => exact hlearn.shown tab e (mem_stripEntriesForRoom.mp hold).1
    | inr hserver =>
        obtain ⟨server, hin, rfl⟩ := hserver
        obtain ⟨record, hrecord, hentry⟩ := mem_of_mem_entriesFromRoomRecords hids hin
        obtain ⟨copy, hcopy, heq⟩ := Option.map_eq_some_iff.mp hentry
        have hmem := List.mem_filterMap.mpr ⟨record, hrecord, hcopy⟩
        rw [stamp_keepLocalAnalytics, ← heq, stamp_received]
        refine hlearn.arrives (harrives copy hmem) ?_ tab
        exact List.mem_append_right _ (List.mem_append_left _ (List.mem_map_of_mem hmem))

/-- The page's reference is to the toast that is up. -/
theorem UndoInv.page_held {s : UndoState} (h : UndoInv s) (tab : Nat) :
    ∀ toast ∈ s.toasts, toast.tab = tab → ∀ save, toast.save = some save →
      (s.pages tab).held = some (save.1.id, toast.id) := by
  intro toast ht htab save hsave
  exact htab ▸ (h.toasts toast ht save hsave).2.2

theorem UndoInv.fillIn {s : UndoState} (h : UndoInv s) {tab : Nat} {entry : Entry}
    (hentry : entry ∈ (s.pages tab).finishing) (snapshot rating : String) :
    UndoInv { s with
      browser := s.browser.change tab (fillIn (s.entries tab) entry snapshot rating) } := by
  refine h.lists (listsAre_change ..) (fun e he => ?_) h.stored
  cases mem_of_mem_updateEntry he with
  | inl hold => exact h.shown tab e hold
  | inr hnew =>
      obtain ⟨latest, -, -, here, rfl⟩ := hnew
      rw [stamp_keepLocalAnalytics]
      exact h.finishing tab entry hentry tab

theorem UndoInv.queued {s : UndoState} (h : UndoInv s) (tab : Nat) (id roomKey : String) :
    UndoInv { s with
      browser := s.browser.change tab (shareQueued (s.entries tab) id roomKey) } := by
  refine h.lists (listsAre_change ..) (fun e he => ?_) h.stored
  cases mem_of_mem_updateEntry he with
  | inl hold => exact h.shown tab e hold
  | inr hnew =>
      obtain ⟨latest, hlatest, -, here, rfl⟩ := hnew
      rw [stamp_keepLocalAnalytics]
      exact h.shown tab latest hlatest

theorem UndoInv.runToastAction {s t : UndoState} (h : UndoInv s) {tab id : Nat}
    (hread : ReadsSafely s tab) (hstep : s.runToastAction tab id = some t) : UndoInv t := by
  cases hget : s.toasts.get? tab with
  | none => simp [UndoState.runToastAction, hget] at hstep
  | some toast =>
      obtain ⟨ht, htab⟩ := Table.get?_eq_some.mp hget
      simp only [UndoState.runToastAction, hget, Option.ite_none_right_eq_some] at hstep
      obtain ⟨rfl, hstep⟩ := hstep
      cases hsave : toast.save with
      | none =>
          simp only [hsave] at hstep
          exact Option.some_inj.mp hstep ▸ h.close tab .action
      | some save =>
          obtain ⟨entry, replaced⟩ := save
          simp only [hsave, UndoState.close, hget, if_true] at hstep
          exact Option.some_inj.mp hstep ▸ h.undoReport ht htab hsave hread

theorem UndoInv.send {s : UndoState} (h : UndoInv s) {tab : Nat} {entry : Entry}
    (hentry : entry ∈ (s.pages tab).sending) : UndoInv { s with sent := entry :: s.sent } := by
  have hours : ∀ {u stamp}, Ours s u stamp → Ours { s with sent := entry :: s.sent } u stamp :=
    fun ho => ho.congr rfl rfl fun _ hx => hx
  refine ⟨fun u e he => hours (h.shown u e he), fun u e he v => hours (h.finishing u e he v),
    fun u e he v => hours (h.sending u e he v), fun e he v => hours ?_, h.stored, ?_, ?_, h.undone⟩
  · cases List.mem_cons.mp he with
    | inl heq => exact heq ▸ h.sending tab entry hentry v
    | inr hold => exact h.sent e hold v
  · intro toast ht save hsave
    obtain ⟨hheld, hrest⟩ := h.toasts toast ht save hsave
    exact ⟨hours hheld, hrest⟩
  · intro toast ht save earlier hsave hreplaced
    obtain ⟨hfree, hid⟩ := h.replaced toast ht save earlier hsave hreplaced
    exact ⟨fun v => hours (hfree v), hid⟩

theorem UndoInv.step {s t : UndoState} {a : UndoAction} (h : UndoInv s) (safe : UndoSafe s a)
    (hstep : toastStep s a = some t) : UndoInv t := by
  cases a with
  | load tab =>
      have hpage := (h.eraseToast tab).setPage tab
        { sending := (s.pages tab).sending } nofun ((h.eraseToast tab).sending tab)
        fun toast ht htab => absurd htab (Table.mem_erase.mp ht).2
      refine hpage.moveLists hstep tab s.browser.stored (fun b hb => ?_) (fun e he => ?_) (.inl rfl)
      · obtain rfl := Option.some_inj.mp hb
        exact listsAre_read ..
      · exact (h.read safe e he).erase.congr rfl rfl fun _ hx => hx
  | save tab save =>
      simp only [toastStep, Option.ite_none_left_eq_some] at hstep
      obtain ⟨-, hstep⟩ := hstep
      exact Option.some_inj.mp hstep ▸ h.saveReport safe
  | runToastAction tab id => exact h.runToastAction safe.1 hstep
  | closeToast tab id reason =>
      simp only [toastStep, Option.ite_none_right_eq_some] at hstep
      obtain ⟨-, hstep⟩ := hstep
      exact Option.some_inj.mp hstep ▸ h.close tab reason
  | showToast tab =>
      obtain rfl := Option.some_inj.mp hstep
      refine (h.close tab .replaced).putToast rfl rfl ?_
      exact fun toast ht => ((closedFrom_close s tab .replaced).toasts toast ht).2
  | share tab eventKey roomKey =>
      obtain rfl := Option.some_inj.mp hstep
      refine h.setPage _ _ (h.finishing tab) (fun e he => ?_) (h.page_held tab)
      cases List.mem_append.mp he with
      | inl hcandidate => exact h.candidate hcandidate
      | inr hold => exact h.sending tab e hold
  | fillIn tab entry snapshot rating =>
      simp only [toastStep, Option.ite_none_right_eq_some] at hstep
      obtain ⟨hentry, hstep⟩ := hstep
      obtain rfl := Option.some_inj.mp hstep
      have hfilled := h.fillIn hentry snapshot rating
      refine hfilled.setPage _ _ (fun e he => ?_) (hfilled.sending tab) (hfilled.page_held tab)
      cases List.mem_cons.mp he with
      | inl heq => exact heq ▸ hfilled.finishing tab entry hentry
      | inr hold => exact hfilled.finishing tab e (List.mem_of_mem_erase hold)
  | sync tab entry =>
      simp only [toastStep, Option.ite_none_right_eq_some] at hstep
      obtain ⟨hentry, hstep⟩ := hstep
      obtain rfl := Option.some_inj.mp hstep
      refine h.setPage _ _ (fun e he => h.finishing tab e (List.mem_of_mem_erase he))
        (fun e he => ?_) (h.page_held tab)
      by_cases hroom : entry.room = ""
      · exact h.sending tab e (by simpa [hroom] using he)
      · rw [if_neg hroom] at he
        cases List.mem_cons.mp he with
        | inl heq => exact heq ▸ h.finishing tab entry hentry
        | inr hold => exact h.sending tab e hold
  | queued tab id roomKey =>
      obtain rfl := Option.some_inj.mp hstep
      exact h.queued tab id roomKey
  | send tab entry =>
      simp only [toastStep, Option.ite_none_right_eq_some] at hstep
      obtain ⟨hsending, hstep⟩ := hstep
      obtain rfl := Option.some_inj.mp hstep
      exact h.send hsending
  | drop tab entry =>
      obtain rfl := Option.some_inj.mp hstep
      exact h.setPage _ _ (h.finishing tab)
        (fun e he => h.sending tab e (List.mem_of_mem_erase he)) (h.page_held tab)
  | receive tab copy =>
      simp only [toastStep, Option.ite_none_right_eq_some] at hstep
      exact h.receive hstep.1 hstep.2
  | snapshot tab roomKey records =>
      simp only [toastStep, Option.ite_none_right_eq_some] at hstep
      exact h.snapshot hstep.1.1 hstep.1.2 hstep.2
  | leave tab roomKey =>
      refine h.moveLists hstep tab (stripEntriesForRoom (s.entries tab) roomKey) (fun b hb => ?_)
        (fun e he => ?_) (.inl rfl)
      · obtain rfl := Option.some_inj.mp hb
        exact listsAre_changeRoom ..
      · exact h.shown tab e (mem_stripEntriesForRoom.mp he).1
  | write tab =>
      refine h.moveLists hstep tab (s.entries tab) (fun b hb => ?_) (h.shown tab) (.inr rfl)
      simp only [tabStep, Option.ite_none_right_eq_some] at hb
      exact Option.some_inj.mp hb.2 ▸ listsAre_write s.browser tab _ rfl
  | deliver tab =>
      refine h.moveLists hstep tab s.browser.stored (fun b hb => ?_) (h.read safe) (.inl rfl)
      simp only [tabStep, Option.ite_none_right_eq_some] at hb
      exact Option.some_inj.mp hb.2 ▸ listsAre_read ..

theorem restored_runToastAction {s t : UndoState} {tab id : Nat}
    (hroom : (s.entries tab ++ extraReports (s.entries tab) s.browser.stored).length < maxEntries)
    (hstep : s.runToastAction tab id = some t) {toast : Toast} (ht : toast ∈ s.toasts)
    (htab : toast.tab = tab) {save : Entry × Option Entry} (hsave : toast.save = some save) :
    Restored s.browser.stored t.browser.stored save.1 save.2 := by
  have hget : s.toasts.get? tab = some toast := Table.get?_eq_some.mpr ⟨ht, htab⟩
  simp only [UndoState.runToastAction, hget, Option.ite_none_right_eq_some, hsave,
    UndoState.close, if_true] at hstep
  rw [← Option.some_inj.mp hstep.2]
  have hlists := listsAre_undoReport s.browser tab save.1 save.2
  have hstored : (UndoState.undoReport { s with toasts := s.toasts.erase tab } tab id save.1
      save.2).browser.stored = _ := hlists.stored
  rw [hstored]
  exact restored_undoneEntries hroom

theorem undoInv_start {s : UndoState} (h : undoSystem.start s) : UndoInv s := by
  have hours : ∀ stamp ∈ s.browser.stored.map (·.stamp), ∀ tab, Ours
      { browser := { tabs := fun _ => { entries := s.browser.stored }, stored := s.browser.stored }
        others := s.browser.stored.map (·.stamp) } tab stamp := by
    intro stamp hstamp tab
    exact ⟨hstamp, nofun, fun _ ⟨toast, ht, _⟩ => absurd ht (Table.notMem_empty toast)⟩
  rw [show s = _ from h]
  refine ⟨fun tab e he => hours _ (List.mem_map_of_mem he) tab, nofun, nofun, nofun,
    fun e he => ⟨List.mem_map_of_mem he, nofun⟩, ?_, ?_, nofun⟩
  · exact fun toast ht => absurd ht (Table.notMem_empty toast)
  · exact fun toast ht => absurd ht (Table.notMem_empty toast)

/-- Over every interleaving of the tabs in which none reads in a report that another holds
back, what is taken back has not left the device, and Undo restores the stored list. -/
theorem undone_saves_stay {s : UndoState} (h : ReachableWhen undoSystem UndoSafe s) :
    UndoneKept s ∧ ∀ tab id t, UndoSafe s (.runToastAction tab id) →
      toastStep s (.runToastAction tab id) = some t →
        ∀ toast ∈ s.toasts, toast.tab = tab → ∀ save, toast.save = some save →
          Restored s.browser.stored t.browser.stored save.1 save.2 := by
  have hinv : UndoInv s := by
    refine h.invariant ?_ ?_
    · exact fun s hs => undoInv_start hs
    · exact fun s a t hs safe hstep => hs.step safe hstep
  refine ⟨fun v hv => ⟨fun e he heq => ?_, fun e he heq => ?_⟩, ?_⟩
  · exact (hinv.sent e he 0).notUndone ⟨v, hv, heq.symm⟩
  · exact (hinv.stored e he).2 ⟨v, hv, heq.symm⟩
  · intro tab id t safe hstep toast ht htab save hsave
    exact restored_runToastAction safe.2 hstep ht htab hsave

/-! Tab 0 saves a report and takes it back. -/

def undoReport : Save where
  newId := "1000-abc123"
  savedAtMs := 1000
  scoutProfile := "Ada"
  roomKey := some "team-7"
  eventKey := "2026txa"
  matchKey := "2026txa_qm1"
  teamKey := "frc118"
  form := "3 cycles"

def twoTabs : UndoState where
  browser := { tabs := fun _ => { entries := [] }, stored := [] }

theorem twoTabs_start : undoSystem.start twoTabs :=
  rfl

/-- Tab 1 hears of the save and its share loop sends the report. -/
def sharedRun : List UndoAction :=
  [.save 0 undoReport, .deliver 1, .share 1 "2026txa" "team-7",
    .send 1 (savedEntry undoReport none), .runToastAction 0 1]

theorem undone_save_sent : ∃ s, Reachable undoSystem s ∧ ¬ UndoneKept s := by
  refine ⟨_, reachable_of_run sharedRun twoTabs_start rfl, ?_⟩
  decide +kernel

/-- Tab 1 hears of the save after the Undo only. -/
def heldRun : List UndoAction :=
  [.save 0 undoReport, .share 0 "2026txa" "team-7", .share 1 "2026txa" "team-7",
    .runToastAction 0 1, .deliver 1, .share 1 "2026txa" "team-7"]

theorem undone_saves_stay_held : ∃ s, undoSystem.run twoTabs heldRun = some s ∧ UndoneKept s :=
  ⟨_, rfl, (undone_saves_stay (reachableWhen_of_run heldRun (.start twoTabs_start)
    (by decide +kernel) rfl)).1⟩

end Frcmob.Reports
