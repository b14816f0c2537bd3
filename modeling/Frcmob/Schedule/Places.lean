import Frcmob.Schedule.FirstSchedule

/-!
The places of FRC Events' matches: the number of a match that is not a knockout match, else its
round with a number and, but for quarterfinals and semifinals, a series. A base key is the key of
a place, and no two places share one.
-/

namespace Frcmob.Schedule

/-- What tells the matches of an event apart. -/
structure FirstMatch where
  tournamentLevel : Option String
  description : Option String
  matchNumber : Int
  series : Option Int
deriving DecidableEq

/-- Level, set and number. -/
def FirstMatch.comp (m : FirstMatch) : String × Int × Int :=
  firstLevelToComp m.tournamentLevel m.description m.matchNumber m.series

/-- Practice and qualification matches have one kind of place, as have all that are not known. -/
inductive Place
  | ranking (number : Int)
  | quarterfinal (number : Int)
  | semifinal (number : Int)
  | final (series number : Int)
  | playoff (series number : Int)
deriving DecidableEq

/-- The number at the end of the description, the match's own where there is none. -/
def FirstMatch.trailing (m : FirstMatch) : Int :=
  max 1 ((trailingInt (strip (m.description.getD ""))).getD m.matchNumber)

@[irreducible] def placeOf (m : FirstMatch) : Place :=
  let level := normalizeKey (m.tournamentLevel.getD "")
  let description := lower (strip (m.description.getD ""))
  if level = "practice" ∨ level = "qualification" then .ranking (max 1 m.matchNumber)
  else if textContains description "quarterfinal" then .quarterfinal m.trailing
  else if textContains description "semifinal" then .semifinal m.trailing
  else if startsWith description "final" then .final (seriesNumber m.series) m.trailing
  else if level = "playoff" then .playoff (seriesNumber m.series) m.trailing
  else .ranking (max 1 m.matchNumber)

def Place.key (eventKey : String) : Place → String
  | .ranking number => baseKey eventKey "qm" 1 number
  | .quarterfinal number => baseKey eventKey "qf" ((number - 1) / 2 + 1) ((number - 1) % 2 + 1)
  | .semifinal number => baseKey eventKey "sf" ((number - 1) / 2 + 1) ((number - 1) % 2 + 1)
  | .final series number => baseKey eventKey "f" series number
  | .playoff series number => baseKey eventKey "playoff" series number

theorem one_le_seriesNumber (hint : Option Int) : 1 ≤ seriesNumber hint := by
  cases hint with
  | none => exact le_rfl
  | some hint =>
      rw [seriesNumber]
      split
      · exact le_max_left _ _
      · exact le_rfl

/-- The base key of a match is the key of its place. -/
theorem baseKey_eq (eventKey : String) (m : FirstMatch) :
    baseKey eventKey m.comp.1 m.comp.2.1 m.comp.2.2 = (placeOf m).key eventKey := by
  have hseries := max_eq_right (one_le_seriesNumber m.series)
  unfold FirstMatch.comp firstLevelToComp placeOf
  dsimp only
  by_cases hpractice : normalizeKey (m.tournamentLevel.getD "") = "practice"
  · rw [if_pos hpractice, if_pos (.inl hpractice)]
    rfl
  by_cases hqualification : normalizeKey (m.tournamentLevel.getD "") = "qualification"
  · rw [if_neg hpractice, if_pos hqualification, if_pos (.inr hqualification)]
    rfl
  rw [if_neg hpractice, if_neg hqualification, if_neg (not_or.mpr ⟨hpractice, hqualification⟩)]
  split_ifs
  · rfl
  · rfl
  · rw [hseries]
    rfl
  · rw [hseries]
    rfl
  · rfl

theorem m_notMem_toString (n : Int) : 'm' ∉ (toString n).toList := by
  have hdigits : ∀ k : Nat, 'm' ∉ Nat.toDigits 10 k := fun k h =>
    absurd (Nat.isDigit_of_mem_toDigits (by omega) (by omega) h) (by decide)
  cases n with
  | ofNat k =>
      have hlist : (toString (Int.ofNat k)).toList = Nat.toDigits 10 k := Nat.toList_repr
      rw [hlist]
      exact hdigits k
  | negSucc k =>
      have hrepr : toString (Int.negSucc k) = "-" ++ Nat.repr (k + 1) := rfl
      rw [hrepr, String.toList_append, Nat.toList_repr]
      intro h
      rcases List.mem_append.mp h with h | h
      · exact absurd h (by decide)
      · exact hdigits _ h

/-- Set and number can be read off what follows the level. -/
theorem numbers_inj {a b c d : Int}
    (h : (toString a).toList ++ 'm' :: (toString b).toList =
      (toString c).toList ++ 'm' :: (toString d).toList) : a = c ∧ b = d := by
  obtain ⟨hset, -, hnumber⟩ :=
    (List.append_cons_inj_of_notMem (m_notMem_toString a) (m_notMem_toString b)).mp h
  exact ⟨toString_int_inj (String.toList_injective hset),
    toString_int_inj (String.toList_injective hnumber)⟩

/-- What follows the event in a key. -/
def Place.suffix : Place → List Char
  | .ranking number => 'q' :: 'm' :: (toString number).toList
  | .quarterfinal number =>
      'q' :: 'f' :: ((toString ((number - 1) / 2 + 1)).toList ++
        'm' :: (toString ((number - 1) % 2 + 1)).toList)
  | .semifinal number =>
      's' :: 'f' :: ((toString ((number - 1) / 2 + 1)).toList ++
        'm' :: (toString ((number - 1) % 2 + 1)).toList)
  | .final series number =>
      'f' :: ((toString series).toList ++ 'm' :: (toString number).toList)
  | .playoff series number =>
      'p' :: 'l' :: 'a' :: 'y' :: 'o' :: 'f' :: 'f' ::
        ((toString series).toList ++ 'm' :: (toString number).toList)

theorem Place.toList_key (eventKey : String) (p : Place) :
    (p.key eventKey).toList = (eventKey ++ "_").toList ++ p.suffix := by
  cases p with
  | ranking number => simp [Place.key, baseKey, Place.suffix]
  | quarterfinal number => simp [Place.key, baseKey, Place.suffix]
  | semifinal number => simp [Place.key, baseKey, Place.suffix]
  | final series number => simp [Place.key, baseKey, Place.suffix]
  | playoff series number => simp [Place.key, baseKey, Place.suffix]

theorem Place.suffix_inj {p q : Place} (h : p.suffix = q.suffix) : p = q := by
  cases p with
  | ranking number =>
      cases q with
      | ranking other =>
          have hnumber := String.toList_injective (congrArg (List.drop 2) h)
          rw [toString_int_inj hnumber]
      | _ => simp [Place.suffix] at h
  | quarterfinal number =>
      cases q with
      | quarterfinal other =>
          obtain ⟨hset, hmatch⟩ := numbers_inj (congrArg (List.drop 2) h)
          have hnumber : number = other := by omega
          rw [hnumber]
      | _ => simp [Place.suffix] at h
  | semifinal number =>
      cases q with
      | semifinal other =>
          obtain ⟨hset, hmatch⟩ := numbers_inj (congrArg (List.drop 2) h)
          have hnumber : number = other := by omega
          rw [hnumber]
      | _ => simp [Place.suffix] at h
  | final series number =>
      cases q with
      | final series' other =>
          obtain ⟨hseries, hnumber⟩ := numbers_inj (congrArg (List.drop 1) h)
          rw [hseries, hnumber]
      | _ => simp [Place.suffix] at h
  | playoff series number =>
      cases q with
      | playoff series' other =>
          obtain ⟨hseries, hnumber⟩ := numbers_inj (congrArg (List.drop 7) h)
          rw [hseries, hnumber]
      | _ => simp [Place.suffix] at h

theorem Place.key_inj {eventKey : String} {p q : Place} (h : p.key eventKey = q.key eventKey) :
    p = q := by
  have hlist := congrArg String.toList h
  rw [Place.toList_key, Place.toList_key] at hlist
  exact Place.suffix_inj (List.append_cancel_left hlist)

end Frcmob.Schedule
