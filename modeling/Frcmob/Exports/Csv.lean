import Frcmob.Lib.Js
import Frcmob.Lib.Rfc4180

/-!
CSV export of a table. A text that a spreadsheet would run as a formula gets a leading
apostrophe; then every cell is quoted where it has to be. Source:
`src/ScoutingApp/src/utils/csvExport.ts`.
-/

namespace Frcmob.Exports
open Js

/-- A cell's value: `null` or `undefined`, a string, or a value that `String` shows as text. -/
inductive Cell
  | nullish
  | text (s : Str)
  | other (shown : Str)
  deriving DecidableEq

def quotationMark : UInt16 := 34
def apostrophe : UInt16 := 39
def comma : UInt16 := 44

/-- `[=+\-@\t\r]` -/
def formulaStarts : List UInt16 :=
  [61, 43, 45, 64, 9, 13]

def FORMULA_START (s : Str) : Bool :=
  s.head?.any formulaStarts.contains

/-- `str.replace(/"/g, '""')` -/
def doubleQuotes (str : Str) : Str :=
  str.flatMap fun u => if u = quotationMark then [quotationMark, quotationMark] else [u]

/-- The text of a cell, before it is quoted. -/
def Cell.shown : Cell → Str
  | .nullish => []
  | .text s => if FORMULA_START s then apostrophe :: s else s
  | .other shown => shown

def escapeCell (value : Cell) : Str :=
  match value with
  | .nullish => []
  | value =>
      let str := value.shown
      if str.contains quotationMark || str.contains comma || str.contains lineFeed ||
          str.contains carriageReturn then
        [quotationMark] ++ doubleQuotes str ++ [quotationMark]
      else str

def buildCsv (headers : List Str) (rows : List (List Cell)) : Str :=
  let lines := [comma].intercalate (headers.map fun header => escapeCell (.text header)) ::
    rows.map fun row => [comma].intercalate (row.map escapeCell)
  [carriageReturn, lineFeed].intercalate lines ++ [carriageReturn, lineFeed]

/-! ### The file as RFC 4180 has it -/

def csvMarks : Rfc4180.Marks UInt16 where
  quote := quotationMark
  comma := comma
  cr := carriageReturn
  lf := lineFeed
  distinct := by decide

theorem contains_special (str : Str) :
    str.any (Rfc4180.special csvMarks) =
      (str.contains quotationMark || str.contains comma || str.contains lineFeed ||
        str.contains carriageReturn) := by
  induction str with
  | nil => rfl
  | cons u str ih =>
      rw [List.any_cons, ih]
      simp only [Rfc4180.special, csvMarks, List.contains_cons, Bool.beq_eq_decide_eq]
      simp only [eq_comm (a := u)]
      ac_rfl

theorem doubleQuotes_eq (str : Str) : doubleQuotes str = Rfc4180.doubled csvMarks str := by
  rw [doubleQuotes, Rfc4180.doubled]
  congr 1
  funext u
  by_cases hu : u = quotationMark
  · simp [hu, csvMarks]
  · simp [hu, csvMarks]

theorem writeField_csv (str : Str) :
    Rfc4180.writeField csvMarks str =
      if str.contains quotationMark || str.contains comma || str.contains lineFeed ||
          str.contains carriageReturn then
        [quotationMark] ++ doubleQuotes str ++ [quotationMark]
      else str := by
  rw [Rfc4180.writeField, contains_special, doubleQuotes_eq]
  rfl

theorem escapeCell_eq (value : Cell) :
    escapeCell value = Rfc4180.writeField csvMarks value.shown := by
  rw [writeField_csv]
  cases value with
  | nullish => rfl
  | text s => rfl
  | other shown => rfl

def shownTable (headers : List Str) (rows : List (List Cell)) : List (List Str) :=
  (headers.map fun header => (Cell.text header).shown) :: rows.map (·.map Cell.shown)

theorem buildCsv_eq (headers : List Str) (rows : List (List Cell)) :
    buildCsv headers rows = Rfc4180.writeFile csvMarks (shownTable headers rows) := by
  have hrecord : ∀ row : List Cell, [comma].intercalate (row.map escapeCell) =
      Rfc4180.writeRecord csvMarks (row.map Cell.shown) := by
    intro row
    rw [Rfc4180.writeRecord, List.map_map]
    congr 1
    apply List.map_congr_left
    intro value _
    exact escapeCell_eq value
  have hheaders := hrecord (headers.map .text)
  simp only [List.map_map, Function.comp_def] at hheaders
  rw [shownTable, Rfc4180.writeFile_eq_intercalate, buildCsv, hheaders]
  simp [hrecord, csvMarks, Function.comp_def]

/-- Whatever the cells hold, the reader finds the texts they show. -/
theorem read_buildCsv (headers : List Str) (rows : List (List Cell)) (hheaders : headers ≠ [])
    (hrows : ∀ row ∈ rows, row ≠ []) :
    Rfc4180.read csvMarks (buildCsv headers rows) = some (shownTable headers rows) := by
  rw [buildCsv_eq]
  apply Rfc4180.read_writeFile
  intro record hrecord
  rcases List.mem_cons.mp hrecord with rfl | hrecord
  · simpa using hheaders
  · obtain ⟨row, hrow, rfl⟩ := List.mem_map.mp hrecord
    simpa using hrows row hrow

/-! ### What became of a text -/

structure ReadBack (s cell : Str) : Prop where
  kept : cell = s ∨ cell = apostrophe :: s
  no_formula : FORMULA_START cell = false
  only_formulas : cell ≠ s → FORMULA_START s = true

theorem readBack_shown (s : Str) : ReadBack s (Cell.text s).shown := by
  cases hstart : FORMULA_START s with
  | true =>
      have hshown : (Cell.text s).shown = apostrophe :: s := by
        simp [Cell.shown, hstart]
      rw [hshown]
      refine ⟨.inr rfl, rfl, ?_⟩
      intro _
      exact hstart
  | false =>
      have hshown : (Cell.text s).shown = s := by
        simp [Cell.shown, hstart]
      rw [hshown]
      exact ⟨.inl rfl, hstart, fun hne => absurd rfl hne⟩

theorem forall₂_readBack (row : List Str) :
    List.Forall₂ ReadBack row (row.map fun s => (Cell.text s).shown) := by
  induction row with
  | nil => exact .nil
  | cons s row ih => exact .cons (readBack_shown s) ih

theorem exported_read_back (headers : List Str) (rows : List (List Str))
    (hheaders : headers ≠ []) (hrows : ∀ row ∈ rows, row ≠ []) :
    ∃ cells, Rfc4180.read csvMarks (buildCsv headers (rows.map (·.map .text))) = some cells ∧
      List.Forall₂ (List.Forall₂ ReadBack) (headers :: rows) cells := by
  refine ⟨_, read_buildCsv headers _ hheaders ?_, ?_⟩
  · intro row hrow
    obtain ⟨texts, htexts, rfl⟩ := List.mem_map.mp hrow
    simpa using hrows texts htexts
  · refine .cons (forall₂_readBack headers) ?_
    clear hrows
    induction rows with
    | nil => exact .nil
    | cons row rows ih =>
        refine .cons ?_ ih
        simpa [Function.comp_def] using forall₂_readBack row

theorem exported_read_back_note :
    ∃ cells, Rfc4180.read csvMarks
        (buildCsv [units "team", units "note"] [[.text (units "9"), .text (units "=1,\"2\"")]]) =
          some cells ∧
      List.Forall₂ (List.Forall₂ ReadBack)
        [[units "team", units "note"], [units "9", units "=1,\"2\""]] cells :=
  exported_read_back [units "team", units "note"] [[units "9", units "=1,\"2\""]]
    (by decide) (by decide)

end Frcmob.Exports
