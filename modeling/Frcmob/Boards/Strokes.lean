import Frcmob.Boards.Board
import Frcmob.Lib.Js
import Frcmob.Lib.Rounding

/-!
How a stroke is drawn (`board.ts`, the pointer handlers of `StrategyBoard.tsx`) and what the
server keeps of it (`_normalize_strokes`). Coordinates are exact thousandths of the field.
-/

namespace Frcmob.Boards

open Js (Str Number Value Record units)

/-! ### The page -/

/-- `fraction`, in thousandths. -/
def fraction (value size : ℚ) : Nat :=
  if size = 0 then 0 else ⌊min 1 (max 0 (value / size)) * 1000 + 1 / 2⌋.toNat

/-- A pointer and the canvas under it. -/
structure Pointer where
  clientX : ℚ
  clientY : ℚ
  left : ℚ
  top : ℚ
  width : ℚ
  height : ℚ

def pointAt (event : Pointer) : Nat × Nat :=
  (fraction (event.clientX - event.left) event.width,
    fraction (event.clientY - event.top) event.height)

/-- The square of `Math.hypot`. -/
def squaredDistance (a b : Nat × Nat) : Int :=
  ((b.1 : Int) - a.1) ^ 2 + ((b.2 : Int) - a.2) ^ 2

/-- `MIN_STEP` -/
def minStep : Int := 4

def startStroke (tool : Tool) (color : StrokeColor) (point : Nat × Nat) : StrategyStroke :=
  ⟨tool, color, if tool = .pen then [point] else [point, point]⟩

def extendStroke (stroke : StrategyStroke) (point : Nat × Nat) : StrategyStroke :=
  if stroke.tool ≠ .pen then { stroke with points := stroke.points.head?.toList ++ [point] }
  else
    match stroke.points.getLast? with
    | some last =>
        if squaredDistance last point < minStep ^ 2 then stroke
        else { stroke with points := stroke.points ++ [point] }
    | none => { stroke with points := stroke.points ++ [point] }

def keepStroke (stroke : StrategyStroke) : Bool :=
  if stroke.tool = .pen then 0 < stroke.points.length
  else
    match stroke.points with
    | a :: b :: _ => 20 ^ 2 ≤ squaredDistance a b
    | _ => false

/-- A stroke as the pointer makes it. -/
inductive Drawn : StrategyStroke → Prop
  | start (tool : Tool) (color : StrokeColor) (event : Pointer) :
      Drawn (startStroke tool color (pointAt event))
  | extend {stroke : StrategyStroke} (event : Pointer) (h : Drawn stroke) :
      Drawn (extendStroke stroke (pointAt event))

/-! ### The request -/

def Tool.name : Tool → Str
  | .pen => units "pen"
  | .arrow => units "arrow"
  | .zone => units "zone"

def StrokeColor.name : StrokeColor → Str
  | .ours => units "ours"
  | .theirs => units "theirs"
  | .note => units "note"

/-- A stroke with its coordinates as fractions of the field. -/
structure FieldStroke where
  tool : Tool
  color : StrokeColor
  points : List (ℚ × ℚ)
deriving DecidableEq

def StrategyStroke.fractions (stroke : StrategyStroke) : FieldStroke :=
  ⟨stroke.tool, stroke.color, stroke.points.map fun p => ((p.1 : ℚ) / 1000, (p.2 : ℚ) / 1000)⟩

def FieldStroke.json (stroke : FieldStroke) : Value :=
  .obj [("tool", .str stroke.tool.name), ("color", .str stroke.color.name),
    ("points", .arr (stroke.points.map fun p =>
      .arr [.num (.finite p.1), .num (.finite p.2)]))]

/-- `strokes` of the body that `saveStrategyBoard` sends. -/
def strokesJson (strokes : List StrategyStroke) : Value :=
  .arr (strokes.map fun stroke => stroke.fractions.json)

/-! ### The server -/

/-- The tool that `str(value or "")` names; the text of another value is none's. -/
def toolOf : Option Value → Option Tool
  | some (.str s) => [Tool.pen, .arrow, .zone].find? fun tool => tool.name = s
  | _ => none

def colorOf : Option Value → Option StrokeColor
  | some (.str s) => [StrokeColor.ours, .theirs, .note].find? fun color => color.name = s
  | _ => none

/-- `float(value)`; `floatText` is what it makes of a text. -/
def floatOf (floatText : Str → Option Number) : Value → Option Number
  | .num n => some n
  | .bool b => some (.finite (if b then 1 else 0))
  | .str s => floatText s
  | _ => none

/-- `round(min(1.0, max(0.0, x)), 3)`, and none for a NaN. -/
def coordinate : Number → Option ℚ
  | .finite q => some (Rounding.roundTo 3 (min 1 (max 0 q)))
  | .nan => none
  | .posInf => some 1
  | .negInf => some 0

def normalizePoint (floatText : Str → Option Number) : Value → Option (ℚ × ℚ)
  | .arr [vx, vy] => do
      let x ← floatOf floatText vx
      let y ← floatOf floatText vy
      return (← coordinate x, ← coordinate y)
  | _ => none

def listOf : Option Value → Option (List Value)
  | some (.arr items) => some items
  | _ => none

/-- A stroke of the points that are left; a shape is its two ends. -/
def strokeOf (tool : Tool) (color : StrokeColor) (points : List (ℚ × ℚ)) : Option FieldStroke :=
  if points.length < (if tool = .pen then 1 else 2) then none
  else if tool = .pen then some ⟨tool, color, points⟩
  else some ⟨tool, color, points.head?.toList ++ points.getLast?.toList⟩

def normalizeItem (floatText : Str → Option Number) : Value → Option FieldStroke
  | .obj item => do
      let tool ← toolOf (Record.get item "tool")
      let color ← colorOf (Record.get item "color")
      let pointsRaw ← listOf (Record.get item "points")
      strokeOf tool color ((pointsRaw.take maxPoints).filterMap (normalizePoint floatText))
  | _ => none

/-- `_normalize_strokes` -/
def normalizeStrokesJson (floatText : Str → Option Number) : Value → List FieldStroke
  | .arr raw => (raw.take maxStrokes).filterMap (normalizeItem floatText)
  | _ => []

/-! ### Drawn strokes -/

theorem fraction_le (value size : ℚ) : fraction value size ≤ 1000 := by
  rw [fraction]
  split
  · exact Nat.zero_le _
  · have hmin : min 1 (max 0 (value / size)) ≤ 1 := min_le_left _ _
    have hfloor : ⌊min 1 (max 0 (value / size)) * 1000 + 1 / 2⌋ < 1001 :=
      Int.floor_lt.mpr (by push_cast; linarith)
    omega

/-- What every drawn stroke has, whatever the pointer did. -/
structure OnField (stroke : StrategyStroke) : Prop where
  points : ∀ p ∈ stroke.points, p.1 ≤ 1000 ∧ p.2 ≤ 1000
  path : stroke.tool = .pen → stroke.points ≠ []
  ends : stroke.tool ≠ .pen → stroke.points.length = 2

theorem pointAt_le (event : Pointer) : (pointAt event).1 ≤ 1000 ∧ (pointAt event).2 ≤ 1000 :=
  ⟨fraction_le _ _, fraction_le _ _⟩

theorem onField_startStroke (tool : Tool) (color : StrokeColor) {p : Nat × Nat}
    (hp : p.1 ≤ 1000 ∧ p.2 ≤ 1000) : OnField (startStroke tool color p) := by
  by_cases hpen : tool = .pen
  · have hpoints : (startStroke tool color p).points = [p] := if_pos hpen
    refine ⟨fun q hq => ?_, fun _ => ?_, fun hne => absurd hpen hne⟩
    · rw [hpoints, List.mem_singleton] at hq
      exact hq ▸ hp
    · rw [hpoints]
      exact List.cons_ne_nil _ _
  · have hpoints : (startStroke tool color p).points = [p, p] := if_neg hpen
    refine ⟨fun q hq => ?_, fun heq => absurd heq hpen, fun _ => by rw [hpoints]; rfl⟩
    rw [hpoints] at hq
    have hq : q = p := by simpa using hq
    exact hq ▸ hp

namespace OnField

variable {stroke : StrategyStroke} {p : Nat × Nat}

theorem append (h : OnField stroke) (hpen : stroke.tool = .pen) (hp : p.1 ≤ 1000 ∧ p.2 ≤ 1000) :
    OnField { stroke with points := stroke.points ++ [p] } where
  points q hq := by
    rcases List.mem_append.mp hq with hq | hq
    · exact h.points q hq
    · exact List.mem_singleton.mp hq ▸ hp
  path _ := by simp
  ends hne := absurd hpen hne

theorem extendStroke (h : OnField stroke) (hp : p.1 ≤ 1000 ∧ p.2 ≤ 1000) :
    OnField (extendStroke stroke p) := by
  rw [Boards.extendStroke]
  split
  · rename_i hne
    obtain ⟨a, b, hab⟩ := List.length_eq_two.mp (h.ends hne)
    have ha := h.points a (hab ▸ List.mem_cons_self)
    refine ⟨fun q hq => ?_, fun heq => absurd heq hne, fun _ => by simp [hab]⟩
    simp only [hab, List.head?_cons, Option.toList_some, List.mem_append,
      List.mem_singleton] at hq
    rcases hq with rfl | rfl
    · exact ha
    · exact hp
  · rename_i hpen
    have hpen := not_not.mp hpen
    split
    · split
      · exact h
      · exact h.append hpen hp
    · exact h.append hpen hp

end OnField

theorem Drawn.onField {stroke : StrategyStroke} (h : Drawn stroke) : OnField stroke := by
  induction h with
  | start tool color event => exact onField_startStroke tool color (pointAt_le event)
  | extend event _ ih => exact ih.extendStroke (pointAt_le event)

/-! ### What the server keeps of a drawn stroke -/

theorem coordinate_thousandths {n : Nat} (h : n ≤ 1000) :
    coordinate (.finite ((n : ℚ) / 1000)) = some ((n : ℚ) / 1000) := by
  have hle : (n : ℚ) / 1000 ≤ 1 := by
    rw [div_le_one (by norm_num)]
    exact_mod_cast h
  have hge : 0 ≤ (n : ℚ) / 1000 := by positivity
  have hround : Rounding.roundTo 3 ((n : ℚ) / 1000) = (n : ℚ) / 1000 := by
    rw [Rounding.roundTo, show (n : ℚ) / 1000 * 10 ^ 3 = ((n : Int) : ℚ) by push_cast; ring,
      Rounding.roundHalfEven_intCast]
    push_cast
    norm_num
  rw [coordinate, max_eq_right hge, min_eq_right hle, hround]

theorem toolOf_name (tool : Tool) : toolOf (some (.str tool.name)) = some tool := by
  cases tool <;> decide

theorem colorOf_name (color : StrokeColor) : colorOf (some (.str color.name)) = some color := by
  cases color <;> decide

variable {stroke : StrategyStroke} {floatText : Str → Option Number}

/-- The server's cut: a path's first points, a shape as it is. -/
def cut (stroke : StrategyStroke) : StrategyStroke :=
  if stroke.tool = .pen then { stroke with points := stroke.points.take maxPoints } else stroke

theorem filterMap_points (floatText : Str → Option Number) {points : List (Nat × Nat)}
    (h : ∀ p ∈ points, p.1 ≤ 1000 ∧ p.2 ≤ 1000) :
    (points.map fun p => Value.arr [.num (.finite ((p.1 : ℚ) / 1000)),
        .num (.finite ((p.2 : ℚ) / 1000))]).filterMap (normalizePoint floatText) =
      points.map fun p => ((p.1 : ℚ) / 1000, (p.2 : ℚ) / 1000) := by
  rw [List.filterMap_map]
  refine List.filterMap_eq_map_iff_forall_eq_some.mpr fun p hp => ?_
  simp only [Function.comp_apply, normalizePoint, floatOf, Option.bind_eq_bind, Option.bind_some,
    coordinate_thousandths (h p hp).1, coordinate_thousandths (h p hp).2]
  rfl

theorem normalizeItem_fields (stroke : StrategyStroke) : normalizeItem floatText
    stroke.fractions.json = strokeOf stroke.tool stroke.color
      (((stroke.points.take maxPoints).map fun p => Value.arr [.num (.finite ((p.1 : ℚ) / 1000)),
        .num (.finite ((p.2 : ℚ) / 1000))]).filterMap (normalizePoint floatText)) := by
  have hget (tool color points : Value) :
      Record.get [("tool", tool), ("color", color), ("points", points)] "tool" = some tool ∧
      Record.get [("tool", tool), ("color", color), ("points", points)] "color" = some color ∧
      Record.get [("tool", tool), ("color", color), ("points", points)] "points" = some points :=
    ⟨rfl, rfl, rfl⟩
  simp only [normalizeItem, FieldStroke.json, StrategyStroke.fractions, hget, toolOf_name,
    colorOf_name, listOf, Option.bind_eq_bind, Option.bind_some, List.map_map, List.map_take]
  rfl

theorem strokeOf_cut (h : OnField stroke) : strokeOf stroke.tool stroke.color
    ((stroke.points.take maxPoints).map fun p => ((p.1 : ℚ) / 1000, (p.2 : ℚ) / 1000)) =
      some (cut stroke).fractions := by
  rw [strokeOf, List.length_map, List.length_take]
  by_cases hpen : stroke.tool = .pen
  · have hpos := List.length_pos_of_ne_nil (h.path hpen)
    rw [if_pos hpen, if_neg (by rw [maxPoints]; omega), if_pos hpen, cut, if_pos hpen]
    rfl
  · have hlen := h.ends hpen
    obtain ⟨a, b, hab⟩ := List.length_eq_two.mp hlen
    rw [if_neg hpen, if_neg (by rw [maxPoints]; omega), if_neg hpen, cut, if_neg hpen,
      StrategyStroke.fractions, hab]
    rfl

theorem normalizeItem_json (h : OnField stroke) :
    normalizeItem floatText stroke.fractions.json = some (cut stroke).fractions := by
  rw [normalizeItem_fields, filterMap_points floatText fun p hp =>
    h.points p (List.mem_of_mem_take hp), strokeOf_cut h]

theorem normalizeStrokesJson_eq (floatText : Str → Option Number) {strokes : List StrategyStroke}
    (hlen : strokes.length ≤ maxStrokes) (h : ∀ stroke ∈ strokes, OnField stroke) :
    normalizeStrokesJson floatText (strokesJson strokes) =
      strokes.map fun stroke => (cut stroke).fractions := by
  rw [strokesJson, normalizeStrokesJson, List.take_of_length_le (by rwa [List.length_map]),
    List.filterMap_map]
  exact List.filterMap_eq_map_iff_forall_eq_some.mpr fun stroke hs => normalizeItem_json (h stroke hs)

theorem normalizeStroke_eq (h : OnField stroke) : normalizeStroke stroke = some (cut stroke) := by
  have hmap : (stroke.points.take maxPoints).map (fun p => (min 1000 p.1, min 1000 p.2)) =
      stroke.points.take maxPoints := by
    conv_rhs => rw [← List.map_id (stroke.points.take maxPoints)]
    refine List.map_congr_left fun p hp => ?_
    have hle := h.points p (List.mem_of_mem_take hp)
    rw [min_eq_right hle.1, min_eq_right hle.2]
    rfl
  rw [normalizeStroke, hmap, List.length_take]
  by_cases hpen : stroke.tool = .pen
  · have hpos := List.length_pos_of_ne_nil (h.path hpen)
    rw [if_pos hpen, if_neg (by rw [maxPoints]; omega), if_pos hpen, cut, if_pos hpen]
  · have hlen := h.ends hpen
    obtain ⟨a, b, hab⟩ := List.length_eq_two.mp hlen
    rw [if_neg hpen, if_neg (by rw [maxPoints]; omega), if_neg hpen, cut, if_neg hpen, hab]
    cases stroke
    cases hab
    rfl

/-- The boards' server is this one, on the strokes that boards send. -/
theorem normalizeStrokesJson_refines (floatText : Str → Option Number)
    {strokes : List StrategyStroke} (h : ∀ stroke ∈ strokes, OnField stroke) :
    normalizeStrokesJson floatText (strokesJson strokes) =
      (normalizeStrokes strokes).map StrategyStroke.fractions := by
  have htake (stroke) (hs : stroke ∈ strokes.take maxStrokes) : OnField stroke :=
    h stroke (List.mem_of_mem_take hs)
  rw [strokesJson, normalizeStrokesJson, normalizeStrokes, ← List.map_take, List.filterMap_map,
    List.map_filterMap]
  refine List.filterMap_congr fun stroke hs => ?_
  rw [Function.comp_apply, normalizeItem_json (htake stroke hs), normalizeStroke_eq (htake stroke hs),
    Option.map_some]

theorem cut_eq_iff : (cut stroke).fractions = stroke.fractions ↔
    (stroke.tool = .pen → stroke.points.length ≤ maxPoints) := by
  by_cases hpen : stroke.tool = .pen
  · rw [cut, if_pos hpen]
    constructor
    · intro heq _
      have hlen := congrArg (fun s => s.points.length) heq
      simp only [StrategyStroke.fractions, List.length_map, List.length_take] at hlen
      omega
    · intro hle
      rw [List.take_of_length_le (hle hpen)]
  · rw [cut, if_neg hpen]
    exact ⟨fun _ heq => absurd heq hpen, fun _ => rfl⟩

/-- Drawn strokes come back as they were drawn exactly where no path has too many points. -/
theorem drawn_stored_iff (floatText : Str → Option Number) {strokes : List StrategyStroke}
    (hlen : strokes.length ≤ maxStrokes)
    (hdrawn : ∀ stroke ∈ strokes, Drawn stroke ∧ keepStroke stroke = true) :
    normalizeStrokesJson floatText (strokesJson strokes) = strokes.map StrategyStroke.fractions ↔
      ∀ stroke ∈ strokes, stroke.tool = .pen → stroke.points.length ≤ maxPoints := by
  rw [normalizeStrokesJson_eq floatText hlen fun stroke hs => (hdrawn stroke hs).1.onField,
    List.map_inj_left]
  exact forall₂_congr fun stroke _ => cut_eq_iff

/-- A point on a canvas of 600 by 300 pixels. -/
def pixel (x y : ℚ) : Pointer :=
  ⟨x, y, 0, 0, 600, 300⟩

/-- A dot and an arrow across the field. -/
def dotAndArrow : List StrategyStroke :=
  [startStroke .pen .note (pointAt (pixel 300 150)),
    extendStroke (startStroke .arrow .ours (pointAt (pixel 0 0))) (pointAt (pixel 600 300))]

theorem drawn_stored_iff_dotAndArrow :
    normalizeStrokesJson (fun _ => none) (strokesJson dotAndArrow) =
        dotAndArrow.map StrategyStroke.fractions ↔
      ∀ stroke ∈ dotAndArrow, stroke.tool = .pen → stroke.points.length ≤ maxPoints := by
  refine drawn_stored_iff _ (by decide) fun stroke hs => ?_
  rcases List.mem_cons.mp hs with rfl | hs
  · exact ⟨.start _ _ _, by decide +kernel⟩
  · rw [List.mem_singleton.mp hs]
    exact ⟨.extend _ (.start _ _ _), by decide +kernel⟩

/-- A path of `n` steps to and fro along an edge. -/
def toAndFro : Nat → StrategyStroke
  | 0 => startStroke .pen .ours (pointAt (pixel 0 0))
  | n + 1 => extendStroke (toAndFro n) (pointAt (pixel (if n % 2 = 0 then 600 else 0) 0))

theorem drawn_toAndFro (n : Nat) : Drawn (toAndFro n) := by
  induction n with
  | zero => exact .start _ _ _
  | succ n ih => exact .extend _ ih

theorem toAndFro_spec (n : Nat) : (toAndFro n).tool = .pen ∧
    (toAndFro n).points.length = n + 1 ∧
    (toAndFro n).points.getLast? = some (pointAt (pixel (if n % 2 = 0 then 0 else 600) 0)) := by
  induction n with
  | zero => exact ⟨rfl, rfl, rfl⟩
  | succ n ih =>
      obtain ⟨htool, hlen, hlast⟩ := ih
      have hstep : toAndFro (n + 1) = { toAndFro n with points := (toAndFro n).points ++
          [pointAt (pixel (if n % 2 = 0 then 600 else 0) 0)] } := by
        rw [toAndFro, extendStroke, if_neg (not_not.mpr htool), hlast]
        refine if_neg ?_
        split <;> decide +kernel
      rw [hstep]
      refine ⟨htool, by simp [hlen], ?_⟩
      rw [List.getLast?_concat]
      rcases Nat.mod_two_eq_zero_or_one n with hn | hn
      · rw [if_pos hn, if_neg (by omega)]
      · rw [if_neg (by omega), if_pos (by omega)]

/-- One point too many. -/
def longPath : StrategyStroke :=
  toAndFro maxPoints

theorem long_path_cut : Drawn longPath ∧ keepStroke longPath = true ∧
    normalizeStrokesJson (fun _ => none) (strokesJson [longPath]) ≠
      [longPath].map StrategyStroke.fractions := by
  have hpath : longPath.tool = .pen ∧ longPath.points.length = 401 :=
    ⟨(toAndFro_spec _).1, (toAndFro_spec _).2.1⟩
  refine ⟨drawn_toAndFro _, ?_, fun heq => ?_⟩
  · rw [keepStroke, if_pos hpath.1, hpath.2]
    rfl
  · have hfield : ∀ stroke ∈ [longPath], OnField stroke := fun stroke hs =>
      List.mem_singleton.mp hs ▸ (drawn_toAndFro maxPoints).onField
    rw [normalizeStrokesJson_eq _ (by decide) hfield] at heq
    have hlen := cut_eq_iff.mp (List.singleton_inj.mp heq) hpath.1
    rw [hpath.2] at hlen
    exact absurd hlen (by decide)

end Frcmob.Boards
