import Mathlib.Data.List.Basic

/-!
Comma-separated files as RFC 4180 writes and reads them, over any alphabet. A field that holds
a quote, a comma or half a line break is quoted, and its quotes are doubled. A line break ends
a record, also the last one, and an empty line is a record with one empty field.
-/

namespace Rfc4180

universe u

structure Marks (α : Type u) where
  quote : α
  comma : α
  cr : α
  lf : α
  distinct : [quote, comma, cr, lf].Nodup

variable {α : Type u}

theorem Marks.comma_ne_quote (M : Marks α) : M.comma ≠ M.quote := by
  have h := M.distinct
  simp only [List.nodup_cons, List.mem_cons, not_or] at h
  exact fun heq => h.1.1 heq.symm

theorem Marks.cr_ne_quote (M : Marks α) : M.cr ≠ M.quote := by
  have h := M.distinct
  simp only [List.nodup_cons, List.mem_cons, not_or] at h
  exact fun heq => h.1.2.1 heq.symm

theorem Marks.cr_ne_comma (M : Marks α) : M.cr ≠ M.comma := by
  have h := M.distinct
  simp only [List.nodup_cons, List.mem_cons, not_or] at h
  exact fun heq => h.2.1.1 heq.symm

inductive Place
  | start
  | plain
  | quoted
  /-- after a quote in a quoted field, its end or the first of two -/
  | closed
  /-- after the first half of a line break -/
  | broken
  deriving DecidableEq

structure Reading (α : Type u) where
  records : List (List (List α))
  fields : List (List α)
  field : List α
  place : Place
  deriving DecidableEq

namespace Reading

def start : Reading α :=
  ⟨[], [], [], .start⟩

def put (r : Reading α) (c : α) (place : Place) : Reading α :=
  { r with field := r.field ++ [c], place := place }

def endField (r : Reading α) : Reading α :=
  { r with fields := r.fields ++ [r.field], field := [], place := .start }

def endRecord (r : Reading α) : Reading α :=
  ⟨r.records ++ [r.fields ++ [r.field]], [], [], .start⟩

/-- The file may end here; a record that has begun ends with it. -/
def finish (r : Reading α) : Option (List (List (List α))) :=
  match r.place with
  | .start => if r.fields = [] then some r.records else some r.endRecord.records
  | .plain | .closed => some r.endRecord.records
  | .quoted | .broken => none

end Reading

section
variable [DecidableEq α] (M : Marks α)

/-! ### Reading -/

/-- What may follow a field that is complete. -/
def delimiter (r : Reading α) (c : α) : Option (Reading α) :=
  if c = M.comma then some r.endField
  else if c = M.cr then some { r with place := .broken }
  else none

def unquoted (r : Reading α) (c : α) : Option (Reading α) :=
  if c = M.comma ∨ c = M.cr then delimiter M r c
  else if c = M.quote ∨ c = M.lf then none
  else some (r.put c .plain)

def next (r : Reading α) (c : α) : Option (Reading α) :=
  match r.place with
  | .start => if c = M.quote then some { r with place := .quoted } else unquoted M r c
  | .plain => unquoted M r c
  | .quoted => if c = M.quote then some { r with place := .closed } else some (r.put c .quoted)
  | .closed => if c = M.quote then some (r.put c .quoted) else delimiter M r c
  | .broken => if c = M.lf then some r.endRecord else none

def read (text : List α) : Option (List (List (List α))) :=
  (text.foldlM (next M) Reading.start).bind Reading.finish

/-! ### Writing -/

def special (c : α) : Bool :=
  c = M.quote || c = M.comma || c = M.cr || c = M.lf

def doubled (field : List α) : List α :=
  field.flatMap fun c => if c = M.quote then [c, c] else [c]

def writeField (field : List α) : List α :=
  if field.any (special M) then M.quote :: doubled M field ++ [M.quote] else field

def writeRecord (fields : List (List α)) : List α :=
  [M.comma].intercalate (fields.map (writeField M))

/-- Every record with the line break that ends it. -/
def writeFile (records : List (List (List α))) : List α :=
  records.flatMap fun fields => writeRecord M fields ++ [M.cr, M.lf]

/-! ### What one character does -/

/-- A delimiter may follow. -/
def Place.Complete (p : Place) : Prop :=
  p = .start ∨ p = .plain ∨ p = .closed

variable {M} {r : Reading α} {c : α} {p : Place}

theorem next_delimiter (hplace : r.place.Complete) (hc : c = M.comma ∨ c = M.cr) :
    next M r c = delimiter M r c := by
  have hquote : c ≠ M.quote := by
    rcases hc with rfl | rfl
    · exact M.comma_ne_quote
    · exact M.cr_ne_quote
  rcases hplace with h | h | h <;> simp [next, unquoted, h, hc, hquote]

theorem next_comma (hplace : r.place.Complete) : next M r M.comma = some r.endField := by
  rw [next_delimiter hplace (.inl rfl)]
  simp [delimiter]

/-- A line break ends the record. -/
theorem next_break (hplace : r.place.Complete) :
    [M.cr, M.lf].foldlM (next M) r = some r.endRecord := by
  have hcr : next M r M.cr = some { r with place := .broken } := by
    rw [next_delimiter hplace (.inr rfl)]
    simp [delimiter, M.cr_ne_comma]
  have hlf : next M { r with place := .broken } M.lf = some r.endRecord := by
    simp [next, Reading.endRecord]
  rw [List.foldlM_cons, hcr]
  simpa using hlf

theorem next_plain (hplace : r.place = .start ∨ r.place = .plain) (hc : special M c = false) :
    next M r c = some (r.put c .plain) := by
  simp only [special, Bool.or_eq_false_iff, decide_eq_false_iff_not] at hc
  obtain ⟨⟨⟨hquote, hcomma⟩, hcr⟩, hlf⟩ := hc
  rcases hplace with h | h <;> simp [next, unquoted, h, hquote, hcomma, hcr, hlf]

/-! ### What was written is read -/

variable {records : List (List (List α))} {fields : List (List α)}

theorem read_plain (text begun : List α) (hp : p = .start ∨ p = .plain)
    (htext : text.any (special M) = false) :
    ∃ q, q.Complete ∧
      text.foldlM (next M) ⟨records, fields, begun, p⟩ =
        some ⟨records, fields, begun ++ text, q⟩ := by
  induction text generalizing begun p with
  | nil =>
      refine ⟨p, ?_, by simp⟩
      rcases hp with rfl | rfl
      · exact .inl rfl
      · exact .inr (.inl rfl)
  | cons c text ih =>
      rw [List.any_cons, Bool.or_eq_false_iff] at htext
      obtain ⟨q, hq, hrun⟩ := ih (begun ++ [c]) (.inr rfl) htext.2
      refine ⟨q, hq, ?_⟩
      rw [List.foldlM_cons, next_plain hp htext.1]
      simpa [Reading.put] using hrun

/-- A doubled quote is read as one, so the text is back when its closing quote comes. -/
theorem read_doubled (text begun : List α) :
    (doubled M text).foldlM (next M) ⟨records, fields, begun, .quoted⟩ =
      some ⟨records, fields, begun ++ text, .quoted⟩ := by
  induction text generalizing begun with
  | nil => simp [doubled]
  | cons c text ih =>
      have hrest := ih (begun ++ [c])
      rw [doubled] at hrest
      by_cases hc : c = M.quote
      · simpa [doubled, hc, next, Reading.put] using hrest
      · simpa [doubled, hc, next, Reading.put] using hrest

theorem read_field (records : List (List (List α))) (fields : List (List α)) (field : List α) :
    ∃ q, q.Complete ∧
      (writeField M field).foldlM (next M) ⟨records, fields, [], .start⟩ =
        some ⟨records, fields, field, q⟩ := by
  by_cases hfield : field.any (special M) = true
  · refine ⟨.closed, .inr (.inr rfl), ?_⟩
    have hopen : next M ⟨records, fields, [], .start⟩ M.quote =
        some ⟨records, fields, [], .quoted⟩ := by
      simp [next]
    rw [writeField, if_pos hfield, List.cons_append, List.foldlM_cons, hopen]
    simp [List.foldlM_append, read_doubled, next]
  · rw [writeField, if_neg hfield]
    exact read_plain field [] (.inl rfl) (by simpa using hfield)

theorem read_record (records : List (List (List α))) (fields : List (List α)) (field : List α)
    (rest : List (List α)) :
    (writeRecord M (field :: rest) ++ [M.cr, M.lf]).foldlM (next M)
      ⟨records, fields, [], .start⟩ =
        some ⟨records ++ [fields ++ field :: rest], [], [], .start⟩ := by
  induction rest generalizing field fields with
  | nil =>
      obtain ⟨q, hq, hrun⟩ := read_field (M := M) records fields field
      have hbreak := next_break (M := M) (r := ⟨records, fields, field, q⟩) hq
      rw [writeRecord, List.map_singleton, List.intercalate_singleton, List.foldlM_append, hrun]
      exact hbreak
  | cons other rest ih =>
      obtain ⟨q, hq, hrun⟩ := read_field (M := M) records fields field
      have hcomma := next_comma (M := M) (r := ⟨records, fields, field, q⟩) hq
      have hrest := ih (fields ++ [field]) other
      have hsplit : writeRecord M (field :: other :: rest) =
          writeField M field ++ M.comma :: writeRecord M (other :: rest) := by
        simp [writeRecord, List.intercalate_cons_cons]
      rw [hsplit, List.append_assoc, List.foldlM_append, hrun]
      simpa [hcomma, Reading.endField] using hrest

theorem read_records (records written : List (List (List α)))
    (hwritten : ∀ row ∈ written, row ≠ []) :
    (writeFile M written).foldlM (next M) ⟨records, [], [], .start⟩ =
      some ⟨records ++ written, [], [], .start⟩ := by
  induction written generalizing records with
  | nil => simp [writeFile]
  | cons row written ih =>
      obtain ⟨hrow, hrest⟩ := List.forall_mem_cons.mp hwritten
      cases row with
      | nil => exact absurd rfl hrow
      | cons field row =>
          have hrun := ih (records ++ [field :: row]) hrest
          rw [writeFile] at hrun
          rw [writeFile, List.flatMap_cons, List.foldlM_append, read_record]
          simpa using hrun

/-- What is written is read back, record by record and field by field. -/
theorem read_writeFile (written : List (List (List α))) (hwritten : ∀ row ∈ written, row ≠ []) :
    read M (writeFile M written) = some written := by
  rw [read, Reading.start, read_records [] written hwritten]
  simp [Reading.finish]

/-- With the line breaks between the records and one more at the end. -/
theorem writeFile_eq_intercalate (record : List (List α)) (rest : List (List (List α))) :
    writeFile M (record :: rest) =
      [M.cr, M.lf].intercalate ((record :: rest).map (writeRecord M)) ++ [M.cr, M.lf] := by
  induction rest generalizing record with
  | nil => simp [writeFile]
  | cons other rest ih =>
      have hrest := ih other
      rw [writeFile, List.flatMap_cons, ← writeFile, hrest]
      simp [List.intercalate_cons_cons]

end

end Rfc4180
