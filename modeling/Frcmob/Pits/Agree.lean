import Frcmob.Pits.Photos

/-!
Rows and files agree in every run without a mishap: no part of a photo is left by a write that
failed, no photo by a commit that failed, and no deletion fails to commit after the file is gone.
-/

namespace Frcmob.Pits
open Transition

/-! ### What the names are -/

theorem reverse_toList_slash (dir name : String) :
    (dir ++ "/" ++ name).toList.reverse = name.toList.reverse ++ '/' :: dir.toList.reverse := by
  have hslash : "/".toList = ['/'] := rfl
  rw [String.toList_append, String.toList_append, hslash]
  simp

theorem pathName_slash {name : String} (h : '/' ∉ name.toList) (dir : String) :
    pathName (dir ++ "/" ++ name) = name := by
  have hname : ∀ c ∈ name.toList.reverse, decide (c ≠ '/') = true := by
    intro c hc
    rw [List.mem_reverse] at hc
    exact decide_eq_true fun heq => h (heq ▸ hc)
  rw [pathName, reverse_toList_slash, List.takeWhile_append_of_pos hname,
    List.takeWhile_cons_of_neg (by simp), List.append_nil, List.reverse_reverse,
    String.ofList_toList]

theorem pathName_photoPath {name : String} (h : '/' ∉ name.toList) (eventKey teamKey : String) :
    pathName (photoPath eventKey teamKey name) = name :=
  pathName_slash h ("/media/pit_photos/" ++ eventKey ++ "/" ++ teamKey)

theorem slash_notMem_fileName {hex : String} (h : isHex hex = true) (extension : Extension) :
    '/' ∉ (fileName hex extension).toList := by
  rw [isHex, Bool.and_eq_true, List.all_eq_true] at h
  rw [fileName, String.toList_append, List.mem_append, not_or]
  constructor
  · intro hmem
    exact absurd (h.2 _ hmem) (by decide)
  · cases extension <;> decide

theorem take_fileName {hex : String} (h : isHex hex = true) (extension : Extension) :
    takeChars 32 (fileName hex extension) = hex := by
  rw [isHex, Bool.and_eq_true, decide_eq_true_eq] at h
  have hlength : hex.toList.length = 32 := by
    rw [String.length_toList]
    exact h.1
  rw [takeChars, fileName, String.toList_append, ← hlength, List.take_left, String.ofList_toList]

/-- The path of a photo whose name was drawn. -/
def Known (drawn : List String) (path : String) : Prop :=
  ∃ eventKey teamKey hex extension, hex ∈ drawn ∧ isHex hex = true ∧
    path = photoPath eventKey teamKey (fileName hex extension)

theorem Known.cons {drawn : List String} {path : String} (h : Known drawn path) (hex : String) :
    Known (hex :: drawn) path := by
  obtain ⟨eventKey, teamKey, name, extension, hdrawn, hname⟩ := h
  exact ⟨eventKey, teamKey, name, extension, List.mem_cons_of_mem _ hdrawn, hname⟩

theorem not_known_of_fresh {drawn : List String} {hex : String} (hhex : isHex hex = true)
    (hfresh : hex ∉ drawn) (eventKey teamKey : String) (extension : Extension) :
    ¬ Known drawn (photoPath eventKey teamKey (fileName hex extension)) := by
  rintro ⟨event', team', name, extension', hdrawn, hname, hpath⟩
  have heq := congrArg (fun path => takeChars 32 (pathName path)) hpath
  simp only [pathName_photoPath (slash_notMem_fileName hhex extension),
    pathName_photoPath (slash_notMem_fileName hname extension'), take_fileName hhex,
    take_fileName hname] at heq
  exact hfresh (heq ▸ hdrawn)

theorem startsWith_photoPath (eventKey teamKey name : String) :
    startsWith (photoPath eventKey teamKey name) (photoDir eventKey teamKey) = true := by
  rw [startsWith, photoPath, String.toList_append, List.isPrefixOf_iff_prefix]
  exact List.prefix_append _ _

/-! ### The invariant -/

def Storage.HasFile (storage : Storage) (path : String) : Prop :=
  ∃ file ∈ storage.files, file.path = path

def Storage.Lists (storage : Storage) (path : String) : Prop :=
  ∃ row ∈ storage.entries, path ∈ row.photos

structure PhotosAgree (s : PitState) : Prop where
  listed : ∀ path, s.storage.Lists path → s.storage.HasFile path
  failed : ∀ path ∈ s.failed, ¬ s.storage.Lists path ∧ ¬ s.storage.HasFile path

/-- The path is one of the row's own folder. -/
def OwnPath (drawn : List String) (row : PitScoutingEntry) (path : String) : Prop :=
  ∃ hex extension, hex ∈ drawn ∧ isHex hex = true ∧
    path = photoPath row.eventKey row.teamKey (fileName hex extension)

structure PhotosInv (s : PitState) : Prop extends PhotosAgree s where
  own : ∀ row ∈ s.storage.entries, ∀ path ∈ row.photos, OwnPath s.drawn row path
  apart : ∀ row ∈ s.storage.entries, ∀ row' ∈ s.storage.entries, ∀ path ∈ row.photos,
    path ∈ row'.photos → row.key = row'.key
  knownFile : ∀ file ∈ s.storage.files, Known s.drawn file.path
  knownFailed : ∀ path ∈ s.failed, Known s.drawn path

theorem OwnPath.known {drawn : List String} {row : PitScoutingEntry} {path : String}
    (h : OwnPath drawn row path) : Known drawn path := by
  obtain ⟨hex, extension, hdrawn, hhex, rfl⟩ := h
  exact ⟨row.eventKey, row.teamKey, hex, extension, hdrawn, hhex, rfl⟩

theorem OwnPath.cons {drawn : List String} {row : PitScoutingEntry} {path : String}
    (h : OwnPath drawn row path) (hex : String) : OwnPath (hex :: drawn) row path := by
  obtain ⟨name, extension, hdrawn, hname⟩ := h
  exact ⟨name, extension, List.mem_cons_of_mem _ hdrawn, hname⟩

theorem OwnPath.congr {drawn : List String} {row row' : PitScoutingEntry} {path : String}
    (hkey : row.key = row'.key) (h : OwnPath drawn row path) : OwnPath drawn row' path := by
  simp only [PitScoutingEntry.key, Prod.mk.injEq] at hkey
  obtain ⟨name, extension, hdrawn, hname, rfl⟩ := h
  exact ⟨name, extension, hdrawn, hname, by rw [hkey.2.1, hkey.2.2]⟩

variable {s : PitState} {path hex : String} {row : PitScoutingEntry}

/-- A fresh path has no file, no row that lists it and no upload that failed. -/
structure Fresh (s : PitState) (path : String) : Prop where
  listed : ¬ s.storage.Lists path
  file : ¬ s.storage.HasFile path
  failed : path ∉ s.failed

theorem PhotosInv.fresh (h : PhotosInv s) (hpath : ¬ Known s.drawn path) : Fresh s path := by
  constructor
  case listed =>
    rintro ⟨row, hrow, hmem⟩
    exact hpath (h.own row hrow path hmem).known
  case file =>
    rintro ⟨file, hfile, rfl⟩
    exact hpath (h.knownFile file hfile)
  case failed => exact fun hfailed => hpath (h.knownFailed path hfailed)

/-! ### Operations -/

theorem PhotosInv.draw (h : PhotosInv s) (hex : String) :
    PhotosInv { s with drawn := hex :: s.drawn } := by
  constructor
  case toPhotosAgree => exact ⟨h.listed, h.failed⟩
  case own => exact fun row hrow path hpath => (h.own row hrow path hpath).cons hex
  case apart => exact h.apart
  case knownFile => exact fun file hfile => (h.knownFile file hfile).cons hex
  case knownFailed => exact fun path hpath => (h.knownFailed path hpath).cons hex

theorem hasFile_write {storage : Storage} {size : Nat} {other : String} :
    (storage.write path size).HasFile other ↔ other = path ∨ storage.HasFile other := by
  constructor
  · rintro ⟨file, hfile, rfl⟩
    rcases Table.mem_put.mp hfile with rfl | ⟨hfile, -⟩
    · exact .inl rfl
    · exact .inr ⟨file, hfile, rfl⟩
  · rintro (rfl | ⟨file, hfile, rfl⟩)
    · exact ⟨_, Table.mem_put_self _ _, rfl⟩
    · by_cases hsame : file.path = path
      · exact ⟨_, Table.mem_put_self _ _, hsame.symm⟩
      · exact ⟨file, Table.mem_put_of_ne hfile hsame, rfl⟩

theorem hasFile_unlink {storage : Storage} {other : String} :
    (storage.unlink path).HasFile other ↔ storage.HasFile other ∧ other ≠ path := by
  constructor
  · rintro ⟨file, hfile, rfl⟩
    obtain ⟨hfile, hne⟩ := Table.mem_erase.mp hfile
    exact ⟨⟨file, hfile, rfl⟩, hne⟩
  · rintro ⟨⟨file, hfile, rfl⟩, hne⟩
    exact ⟨file, Table.mem_erase.mpr ⟨hfile, hne⟩, rfl⟩

theorem PhotosInv.write (h : PhotosInv s) (hknown : Known s.drawn path)
    (hfailed : path ∉ s.failed) (size : Nat) :
    PhotosInv { s with storage := s.storage.write path size } := by
  constructor
  case toPhotosAgree =>
    constructor
    case listed => exact fun other hother => hasFile_write.mpr (.inr (h.listed other hother))
    case failed =>
      intro other hother
      refine ⟨(h.failed other hother).1, fun hfile => ?_⟩
      rcases hasFile_write.mp hfile with rfl | hfile
      · exact hfailed hother
      · exact (h.failed other hother).2 hfile
  case own => exact h.own
  case apart => exact h.apart
  case knownFile =>
    intro file hfile
    rcases Table.mem_put.mp hfile with rfl | ⟨hfile, -⟩
    · exact hknown
    · exact h.knownFile file hfile
  case knownFailed => exact h.knownFailed

theorem PhotosInv.unlink (h : PhotosInv s) (hlisted : ¬ s.storage.Lists path) :
    PhotosInv { s with storage := s.storage.unlink path } := by
  constructor
  case toPhotosAgree =>
    constructor
    case listed =>
      intro other hother
      refine hasFile_unlink.mpr ⟨h.listed other hother, ?_⟩
      rintro rfl
      exact hlisted hother
    case failed =>
      intro other hother
      exact ⟨(h.failed other hother).1,
        fun hfile => (h.failed other hother).2 (hasFile_unlink.mp hfile).1⟩
  case own => exact h.own
  case apart => exact h.apart
  case knownFile => exact fun file hfile => h.knownFile file (Table.mem_erase.mp hfile).1
  case knownFailed => exact h.knownFailed

theorem PhotosInv.fail (h : PhotosInv s) (hknown : Known s.drawn path)
    (hlisted : ¬ s.storage.Lists path) (hfile : ¬ s.storage.HasFile path) :
    PhotosInv { s with failed := path :: s.failed } := by
  constructor
  case toPhotosAgree =>
    refine ⟨h.listed, fun other hother => ?_⟩
    rcases List.mem_cons.mp hother with rfl | hother
    · exact ⟨hlisted, hfile⟩
    · exact h.failed other hother
  case own => exact h.own
  case apart => exact h.apart
  case knownFile => exact h.knownFile
  case knownFailed =>
    intro other hother
    rcases List.mem_cons.mp hother with rfl | hother
    · exact hknown
    · exact h.knownFailed other hother

def Storage.put (storage : Storage) (row : PitScoutingEntry) : Storage :=
  { storage with entries := storage.entries.put row }

/-- The path was listed under this key before. -/
def Storage.Held (storage : Storage) (row : PitScoutingEntry) (path : String) : Prop :=
  ∃ old ∈ storage.entries, old.key = row.key ∧ path ∈ old.photos

/-- A row may list what it listed before and new photos that are on the disk. -/
theorem PhotosInv.put (h : PhotosInv s)
    (hrow : ∀ path ∈ row.photos, s.storage.Held row path ∨
      OwnPath s.drawn row path ∧ s.storage.HasFile path ∧ ¬ s.storage.Lists path) :
    PhotosInv { s with storage := s.storage.put row } := by
  have hlists : ∀ path ∈ row.photos, s.storage.HasFile path := by
    intro path hpath
    rcases hrow path hpath with ⟨old, hold, -, hmem⟩ | ⟨-, hfile, -⟩
    · exact h.listed path ⟨old, hold, hmem⟩
    · exact hfile
  -- Another row shares none of the paths.
  have happart : ∀ other ∈ s.storage.entries, other.key ≠ row.key →
      ∀ path ∈ row.photos, path ∉ other.photos := by
    intro other hother hne path hpath hmem
    rcases hrow path hpath with ⟨old, hold, hkey, hold'⟩ | ⟨-, -, hnew⟩
    · exact hne ((h.apart other hother old hold path hmem hold').trans hkey)
    · exact hnew ⟨other, hother, hmem⟩
  constructor
  case toPhotosAgree =>
    constructor
    case listed =>
      rintro path ⟨other, hother, hmem⟩
      rcases Table.mem_put.mp hother with rfl | ⟨hother, -⟩
      · exact hlists path hmem
      · exact h.listed path ⟨other, hother, hmem⟩
    case failed =>
      intro path hpath
      refine ⟨?_, (h.failed path hpath).2⟩
      rintro ⟨other, hother, hmem⟩
      rcases Table.mem_put.mp hother with rfl | ⟨hother, -⟩
      · exact (h.failed path hpath).2 (hlists path hmem)
      · exact (h.failed path hpath).1 ⟨other, hother, hmem⟩
  case own =>
    intro other hother path hmem
    rcases Table.mem_put.mp hother with rfl | ⟨hother, -⟩
    · rcases hrow path hmem with ⟨old, hold, hkey, hold'⟩ | ⟨hown, -⟩
      · exact (h.own old hold path hold').congr hkey
      · exact hown
    · exact h.own other hother path hmem
  case apart =>
    intro first hfirst second hsecond path hmem hmem'
    rcases Table.mem_put.mp hfirst with rfl | ⟨hold, hne⟩
    · rcases Table.mem_put.mp hsecond with rfl | ⟨hold', hne'⟩
      · rfl
      · exact absurd hmem' (happart second hold' hne' path hmem)
    · rcases Table.mem_put.mp hsecond with rfl | ⟨hold', -⟩
      · exact absurd hmem (happart first hold hne path hmem')
      · exact h.apart first hold second hold' path hmem hmem'
  case knownFile => exact h.knownFile
  case knownFailed => exact h.knownFailed

theorem PhotosInv.erase (h : PhotosInv s) (key : Nat × String × String) :
    PhotosInv { s with storage := { s.storage with entries := s.storage.entries.erase key } } := by
  have hsub : ∀ path, Storage.Lists { s.storage with entries := s.storage.entries.erase key } path →
      s.storage.Lists path := by
    rintro path ⟨row, hrow, hmem⟩
    exact ⟨row, (Table.mem_erase.mp hrow).1, hmem⟩
  constructor
  case toPhotosAgree =>
    constructor
    case listed => exact fun path hpath => h.listed path (hsub path hpath)
    case failed =>
      exact fun path hpath => ⟨fun hl => (h.failed path hpath).1 (hsub path hl),
        (h.failed path hpath).2⟩
  case own => exact fun row hrow => h.own row (Table.mem_erase.mp hrow).1
  case apart =>
    exact fun row hrow row' hrow' => h.apart row (Table.mem_erase.mp hrow).1 row'
      (Table.mem_erase.mp hrow').1
  case knownFile => exact h.knownFile
  case knownFailed => exact h.knownFailed

/-! ### Requests -/

theorem loadEntry_some {storage : Storage} {workspaceId : Nat} {eventKey teamKey : String}
    (h : loadEntry storage workspaceId eventKey teamKey = some row) :
    row ∈ storage.entries ∧ row.key = (workspaceId, eventKey, teamKey) :=
  Table.get?_eq_some.mp h

theorem exists_of_bind_ok {α β : Type} {x : Except HttpError α} {f : α → Except HttpError β}
    {b : β} (h : (x >>= f) = .ok b) : ∃ a, x = .ok a ∧ f a = .ok b := by
  cases x with
  | error e => cases h
  | ok a => exact ⟨a, rfl, h⟩

theorem held_of_saved {storage : Storage} {actor : Except HttpError Actor}
    {payload : PitEntryUpsertRequest} (h : savedEntry storage actor payload = .ok row) :
    ∀ path ∈ row.photos, storage.Held row path := by
  obtain ⟨actor, -, h⟩ := exists_of_bind_ok h
  obtain ⟨eventKey, -, h⟩ := exists_of_bind_ok h
  obtain ⟨teamKey, -, h⟩ := exists_of_bind_ok h
  cases hload : loadEntry storage actor.workspaceId eventKey teamKey with
  | none =>
      rw [hload] at h
      cases h
      simp
  | some old =>
      rw [hload] at h
      cases h
      intro path hpath
      exact ⟨old, (loadEntry_some hload).1, by simp only [PitScoutingEntry.key], hpath⟩

theorem held_of_accepted {server : Server} {storage : Storage} {actor : Except HttpError Actor}
    {payload : PitPhotoUploadRequest} {free : Int} {up : Accepted}
    (h : acceptUpload server storage actor payload free = .ok up) :
    ∀ path ∈ up.row.photos, storage.Held up.row path := by
  obtain ⟨actor, -, h⟩ := exists_of_bind_ok h
  obtain ⟨eventKey, -, h⟩ := exists_of_bind_ok h
  obtain ⟨teamKey, -, h⟩ := exists_of_bind_ok h
  obtain ⟨⟨data, extension⟩, -, h⟩ := exists_of_bind_ok h
  obtain ⟨-, -, h⟩ := exists_of_bind_ok h
  dsimp only at h
  split at h
  · cases h
  · split at h
    · cases h
    · cases h
      cases hload : loadEntry storage actor.workspaceId eventKey teamKey with
      | none => simp
      | some old => exact fun path hpath => ⟨old, (loadEntry_some hload).1, rfl, hpath⟩

theorem loadPhoto_ok {storage : Storage} {actor : Except HttpError Actor}
    {payload : PitPhotoDeleteRequest} (h : loadPhoto storage actor payload = .ok (row, path)) :
    row ∈ storage.entries ∧ path ∈ row.photos := by
  obtain ⟨actor, -, h⟩ := exists_of_bind_ok h
  obtain ⟨eventKey, -, h⟩ := exists_of_bind_ok h
  obtain ⟨teamKey, -, h⟩ := exists_of_bind_ok h
  split at h
  · cases h
  next old hold =>
    dsimp only at h
    split at h
    next hpath =>
      cases h
      exact ⟨(loadEntry_some hold).1, hpath⟩
    · cases h

/-! ### Steps -/

/-- The deletion's file operation comes to the listed file. -/
theorem PhotosInv.deletedFile (h : PhotosInv s) (hrow : row ∈ s.storage.entries)
    (hpath : path ∈ row.photos) : deletedFile s.storage row path = some path := by
  obtain ⟨hex, extension, -, hhex, rfl⟩ := h.own row hrow path hpath
  have hname := pathName_photoPath (slash_notMem_fileName hhex extension) row.eventKey row.teamKey
  have hfile := h.listed _ ⟨row, hrow, hpath⟩
  rw [Pits.deletedFile, hname]
  exact if_pos ⟨startsWith_photoPath .., Table.get?_isSome.mpr hfile⟩

theorem PhotosInv.save (h : PhotosInv s) (actor : Except HttpError Actor)
    (payload : PitEntryUpsertRequest) (fate : SaveFate) :
    PhotosInv { s with storage := (upsertPitEntry s.storage actor payload fate).1 } := by
  unfold upsertPitEntry
  split
  · exact h
  next row hsaved =>
    split
    · exact h
    · exact h.put fun path hpath => .inl (held_of_saved hsaved path hpath)

/-- A part that a write has left, or a photo that a commit has left. -/
def UploadFate.Leaves : UploadFate → Prop
  | .writeFailed part => part ≠ none
  | .commitFailed unlinks => unlinks = false
  | _ => False

instance (fate : UploadFate) : Decidable fate.Leaves := by
  cases fate <;> unfold UploadFate.Leaves <;> infer_instance

theorem PhotosInv.upload (h : PhotosInv s) {server : Server} {actor : Except HttpError Actor}
    {payload : PitPhotoUploadRequest} {free : Int} {fate : UploadFate} (hhex : isHex hex = true)
    (hfresh : hex ∉ s.drawn)
    (hclean : ∀ up, acceptUpload server s.storage actor payload free = .ok up → ¬ fate.Leaves) :
    PhotosInv {
      storage := (uploadPitPhoto server s.storage actor payload free hex fate).1
      drawn := hex :: s.drawn
      failed := failedPaths server s.storage actor payload free hex fate ++ s.failed } := by
  have hdrawn := h.draw hex
  cases haccept : acceptUpload server s.storage actor payload free with
  | error error => simpa [uploadPitPhoto, failedPaths, haccept] using hdrawn
  | ok up =>
      have hnew := h.fresh (not_known_of_fresh hhex hfresh up.row.eventKey up.row.teamKey
        up.extension)
      have hown : OwnPath (hex :: s.drawn) up.row (up.path hex) :=
        ⟨hex, up.extension, List.mem_cons_self, hhex, rfl⟩
      have hwritten := hdrawn.write hown.known hnew.failed
      have hleaves := hclean up haccept
      simp only [uploadPitPhoto, failedPaths, haccept]
      cases fate with
      | mkdirFailed => exact hdrawn.fail hown.known hnew.listed hnew.file
      | writeFailed part =>
          cases part with
          | none => exact hdrawn.fail hown.known hnew.listed hnew.file
          | some size => exact absurd (Option.some_ne_none size) hleaves
      | commitFailed unlinks =>
          cases unlinks with
          | false => exact absurd rfl hleaves
          | true =>
              have hgone := @PhotosInv.unlink _ (up.path hex) (hwritten up.data.length) hnew.listed
              refine hgone.fail hown.known hnew.listed ?_
              exact fun hfile => (hasFile_unlink.mp hfile).2 rfl
      | committed =>
          refine @PhotosInv.put _ { up.row with photos := up.row.photos ++ [up.path hex] }
            (hwritten up.data.length) ?_
          intro path hpath
          rcases List.mem_append.mp hpath with hpath | hpath
          · exact .inl (held_of_accepted haccept path hpath)
          · cases List.mem_singleton.mp hpath
            exact .inr ⟨hown, hasFile_write.mpr (.inl rfl), hnew.listed⟩

def PitScoutingEntry.without (row : PitScoutingEntry) (path : String) : PitScoutingEntry :=
  { row with photos := row.photos.filter (· ≠ path) }

/-- The row without the path, or no row if nothing is left in it. -/
def Storage.strike (storage : Storage) (row : PitScoutingEntry) (path : String) : Storage :=
  { storage with
    entries := if (row.without path).photos = [] ∧ row.payload = [] then
        storage.entries.erase row.key
      else storage.entries.put (row.without path) }

theorem PhotosInv.strike (h : PhotosInv s) (hrow : row ∈ s.storage.entries) (path : String) :
    PhotosInv { s with storage := s.storage.strike row path } := by
  unfold Storage.strike
  split
  · exact h.erase row.key
  · refine h.put fun other hother => .inl ⟨row, hrow, rfl, ?_⟩
    exact (List.mem_filter.mp hother).1

theorem PhotosInv.not_listed_strike (h : PhotosInv s) (hrow : row ∈ s.storage.entries)
    (hpath : path ∈ row.photos) : ¬ (s.storage.strike row path).Lists path := by
  have hother : ∀ other ∈ s.storage.entries, other.key ≠ row.key → path ∉ other.photos :=
    fun other hother hne hmem => hne (h.apart other hother row hrow path hmem hpath)
  rintro ⟨other, hmem, hlisted⟩
  unfold Storage.strike at hmem
  split at hmem
  · obtain ⟨hmem, hne⟩ := Table.mem_erase.mp hmem
    exact hother other hmem hne hlisted
  · rcases Table.mem_put.mp hmem with rfl | ⟨hmem, hne⟩
    · exact absurd rfl (of_decide_eq_true (List.mem_filter.mp hlisted).2)
    · exact hother other hmem hne hlisted

theorem PhotosInv.delete (h : PhotosInv s) {actor : Except HttpError Actor}
    {payload : PitPhotoDeleteRequest} {fate : DeleteFate}
    (hclean : ∀ found, loadPhoto s.storage actor payload = .ok found →
      fate.commits = true ∨ fate.unlinks = false) :
    PhotosInv { s with storage := (deletePitPhoto s.storage actor payload fate).1 } := by
  cases hload : loadPhoto s.storage actor payload with
  | error error => simpa [deletePitPhoto, hload] using h
  | ok found =>
      obtain ⟨row, path⟩ := found
      obtain ⟨hrow, hpath⟩ := loadPhoto_ok hload
      have hclean := hclean _ hload
      have hstruck := h.strike hrow path
      simp only [deletePitPhoto, hload, h.deletedFile hrow hpath]
      obtain ⟨unlinks, commits⟩ := fate
      cases commits with
      | false =>
          cases unlinks with
          | false => exact h
          | true => simp at hclean
      | true =>
          cases unlinks with
          | false => exact hstruck
          | true => exact hstruck.unlink (h.not_listed_strike hrow hpath)

/-- No mishap: what the request leaves behind is not half done. -/
def NoMishap (server : Server) (s : PitState) : PitRequest → Prop
  | .save .. => True
  | .upload actor payload free _ fate =>
      ∀ up, acceptUpload server s.storage actor payload free = .ok up → ¬ fate.Leaves
  | .delete actor payload fate =>
      ∀ found, loadPhoto s.storage actor payload = .ok found →
        fate.commits = true ∨ fate.unlinks = false

theorem photosInv_step {server : Server} {request : PitRequest} {t : PitState} (h : PhotosInv s)
    (hok : NoMishap server s request) (hstep : (pitSystem server).step s request = some t) :
    PhotosInv t := by
  cases request with
  | save actor payload fate =>
      cases hstep
      exact h.save actor payload fate
  | upload actor payload free hex fate =>
      simp only [pitSystem] at hstep
      split at hstep
      next hnew =>
        cases hstep
        exact h.upload hnew.1 hnew.2 hok
      · cases hstep
  | delete actor payload fate =>
      cases hstep
      exact h.delete hok

theorem photosInv_start : PhotosInv ⟨⟨.empty, .empty⟩, [], []⟩ := by
  have hempty : ∀ row : PitScoutingEntry, row ∉ (Table.empty : Table PitScoutingEntry.key) :=
    fun row => Table.notMem_empty row
  constructor
  case toPhotosAgree =>
    constructor
    case listed => exact fun path ⟨row, hrow, _⟩ => absurd hrow (hempty row)
    case failed => exact fun path hpath => absurd hpath List.not_mem_nil
  case own => exact fun row hrow => absurd hrow (hempty row)
  case apart => exact fun row hrow => absurd hrow (hempty row)
  case knownFile => exact fun file hfile => absurd hfile (Table.notMem_empty file)
  case knownFailed => exact fun path hpath => absurd hpath List.not_mem_nil

theorem photosInv_of_run {server : Server}
    (h : ReachableWhen (pitSystem server) (NoMishap server) s) : PhotosInv s := by
  refine h.invariant ?_ ?_
  · rintro s rfl
    exact photosInv_start
  · intro s request t hs hok hstep
    exact photosInv_step hs hok hstep

theorem photos_agree {server : Server}
    (h : ReachableWhen (pitSystem server) (NoMishap server) s) : PhotosAgree s :=
  (photosInv_of_run h).toPhotosAgree

/-! One photo, and the defaults of the settings. -/

def onePixel : List UInt8 :=
  [0x52, 0x49, 0x46, 0x46, 0x1A, 0x00, 0x00, 0x00, 0x57, 0x45, 0x42, 0x50, 0x56, 0x50, 0x38,
    0x4C, 0x0D, 0x00, 0x00, 0x00, 0x2F, 0x00, 0x00, 0x00, 0x10, 0x07, 0x10, 0x11, 0x11, 0x88,
    0x88, 0xFE, 0x07, 0x00]

def pillowOnePixel : Pillow where
  openImage data := if data = onePixel then some ⟨1, 1, 1, true⟩ else none
  hasMetadata _ := false
  upright data _ := data

def defaultServer : Server where
  settings := {
    pitPhotoMaxFilesPerWorkspace := 2000
    pitPhotoQuotaBytesPerWorkspace := 1024 * 1024 * 1024
    pitPhotoQuotaBytesPerWorkspaceEvent := 500 * 1024 * 1024
    pitPhotoMaxFilesTotal := 10000
    pitPhotoQuotaBytesTotal := 5 * 1024 * 1024 * 1024
    pitPhotoMinimumFreeBytes := 512 * 1024 * 1024 }
  pillow := pillowOnePixel

def scout : Except HttpError Actor :=
  .ok ⟨1, "Scout"⟩

def onePixelUpload : PitPhotoUploadRequest :=
  ⟨"2024casj", "frc254", none, "UklGRhoAAABXRUJQVlA4TA0AAAAvAAAAEAcQERGIiP4HAA=="⟩

def drawnHex : String :=
  "0123456789abcdef0123456789abcdef"

def uploadOnePixel (fate : UploadFate) : PitRequest :=
  .upload scout onePixelUpload (10 ^ 12) drawnHex fate

def onePixelAccepted : Accepted :=
  ⟨⟨1, "2024casj", "frc254", "Scout", [], []⟩, onePixel, .webp⟩

def onePixelPath : String :=
  onePixelAccepted.path drawnHex

def deleteOnePixel (fate : DeleteFate) : PitRequest :=
  .delete scout ⟨"2024casj", "frc254", onePixelPath⟩ fate

def noPhotos : PitState :=
  ⟨⟨.empty, .empty⟩, [], []⟩

theorem accept_onePixel :
    acceptUpload defaultServer noPhotos.storage scout onePixelUpload (10 ^ 12) =
      .ok onePixelAccepted := by
  decide +kernel

def listedRow : PitScoutingEntry :=
  { onePixelAccepted.row with photos := [onePixelPath] }

def uploaded : PitState :=
  ⟨(noPhotos.storage.write onePixelPath 34).put listedRow, [drawnHex], []⟩

theorem step_uploadOnePixel :
    (pitSystem defaultServer).step noPhotos (uploadOnePixel .committed) = some uploaded := by
  have hhex : isHex drawnHex = true := by decide +kernel
  have hnew : isHex drawnHex = true ∧ drawnHex ∉ noPhotos.drawn := ⟨hhex, List.not_mem_nil⟩
  rw [uploadOnePixel, pitSystem]
  simp only [if_pos hnew, uploadPitPhoto, failedPaths, accept_onePixel, storePhoto]
  rfl

theorem uploaded_without_mishap :
    ReachableWhen (pitSystem defaultServer) (NoMishap defaultServer) uploaded := by
  refine .next (.start rfl) ?_ step_uploadOnePixel
  exact fun _ _ => id

theorem photos_agree_uploaded : PhotosAgree uploaded :=
  photos_agree uploaded_without_mishap

/-- The photo is gone from the disk and the commit that takes it off the row fails. -/
theorem failed_delete_breaks_row :
    ¬ ∀ server s, Reachable (pitSystem server) s → PhotosAgree s := by
  intro hall
  have hdeleted : (pitSystem defaultServer).step uploaded (deleteOnePixel ⟨true, false⟩) =
      some { uploaded with storage := uploaded.storage.unlink onePixelPath } := by
    have hload : loadPhoto uploaded.storage scout ⟨"2024casj", "frc254", onePixelPath⟩ =
        .ok (listedRow, onePixelPath) := by
      decide +kernel
    have hfile : deletedFile uploaded.storage listedRow onePixelPath = some onePixelPath :=
      (photosInv_of_run uploaded_without_mishap).deletedFile List.mem_cons_self
        List.mem_cons_self
    rw [deleteOnePixel, pitSystem]
    simp only [deletePitPhoto, hload, hfile]
    rfl
  have huploaded : Reachable (pitSystem defaultServer) uploaded :=
    .next (.start rfl) trivial step_uploadOnePixel
  have hreached := huploaded.next trivial hdeleted
  obtain ⟨hlisted, -⟩ := hall defaultServer _ hreached
  obtain ⟨file, hfile, -⟩ := hlisted onePixelPath
    ⟨listedRow, List.mem_cons_self, List.mem_cons_self⟩
  have hempty : (uploaded.storage.unlink onePixelPath).files.rows = [] := by decide +kernel
  rw [Table.mem_def, hempty] at hfile
  exact List.not_mem_nil hfile

end Frcmob.Pits
