import Mathlib.Data.List.Chain
import Mathlib.Data.List.DropRight
import Frcmob.Text

/-!
Names as the server stores and compares them. A member's display name is unique in the
workspace up to `casefold`; scouting rooms hold rights by scout profile, compared in lower case.
-/

namespace Frcmob

structure HTTPException where
  statusCode : Nat
  detail : String
deriving DecidableEq

namespace Workspaces

/-- The setting that the routes read, and Python's functions on Unicode text and bytes. -/
structure Server where
  publicReadonlyMode : Bool
  isSpace : Char → Bool
  casefold : String → String
  lower : String → String
  lower_eq_empty : ∀ s, lower s = "" ↔ s = ""
  upper : String → String
  sha256 : String → String

/-- A server for names in ASCII. -/
def asciiServer : Server where
  publicReadonlyMode := false
  isSpace := Char.isWhitespace
  casefold := lower
  lower := lower
  lower_eq_empty s := by simp [lower]
  upper s := String.ofList (s.toList.map Char.toUpper)
  sha256 := id

def requireWriteAccess (server : Server) (operation : String) : Except HTTPException Unit :=
  if server.publicReadonlyMode then
    .error ⟨403, operation ++ " is disabled in public mode."⟩
  else .ok ()

/-! ### White space -/

def Server.strip (server : Server) (cs : List Char) : List Char :=
  (cs.dropWhile server.isSpace).rdropWhile server.isSpace

/-- `re.sub(r"\s+", " ", raw)` -/
def Server.squeeze (server : Server) : List Char → List Char
  | [] => []
  | c :: cs =>
      if ¬ server.isSpace c then c :: server.squeeze cs
      else if cs.head?.any server.isSpace then server.squeeze cs
      else ' ' :: server.squeeze cs

def normalizeDisplayName (server : Server) (raw : String) : Except HTTPException String :=
  let name := String.ofList ((server.strip (server.squeeze raw.toList)).take 40)
  if name = "" then .error ⟨422, "Enter your name so your team knows who you are."⟩
  else .ok name

def normalizeWorkspaceName (server : Server) (raw : String) : Except HTTPException String :=
  let name := String.ofList ((server.strip (server.squeeze raw.toList)).take 80)
  if name = "" then .error ⟨422, "Give the workspace a name."⟩ else .ok name

/-! ### Scout profiles -/

def normalizeScoutProfile (server : Server) (raw : String) : String :=
  String.ofList ((server.squeeze (server.strip raw.toList)).take 40)

def normalizeScoutProfileLookup (server : Server) (raw : String) : String :=
  server.lower (normalizeScoutProfile server raw)

theorem normalizeScoutProfileLookup_eq_empty {server : Server} {raw : String} :
    normalizeScoutProfileLookup server raw = "" ↔ normalizeScoutProfile server raw = "" :=
  server.lower_eq_empty _

def scoutProfilesMatch (server : Server) (left right : String) : Bool :=
  let leftNorm := normalizeScoutProfileLookup server left
  let rightNorm := normalizeScoutProfileLookup server right
  leftNorm ≠ "" ∧ rightNorm ≠ "" ∧ leftNorm = rightNorm

/-! ### Normal names -/

/-- No two spaces follow each other, and a space is a blank. -/
structure Squeezed (server : Server) (cs : List Char) : Prop where
  chain : cs.IsChain fun a b => ¬ (server.isSpace a ∧ server.isSpace b)
  blank : ∀ c ∈ cs, server.isSpace c → c = ' '

section Text
variable {server : Server} {cs ds : List Char} {c : Char}

theorem Squeezed.part (h : Squeezed server cs) (hin : ds <:+: cs) : Squeezed server ds :=
  ⟨ List.IsChain.infix h.chain hin, fun c hc => h.blank c (hin.subset hc)⟩

theorem Squeezed.squeeze_eq (h : Squeezed server cs) : server.squeeze cs = cs := by
  induction cs with
  | nil => rfl
  | cons c cs ih =>
      have hrest := ih (h.part (List.suffix_cons c cs).isInfix)
      by_cases hc : server.isSpace c
      · have hblank := h.blank c List.mem_cons_self hc
        have hnext : cs.head?.any server.isSpace = false := by
          cases cs with
          | nil => rfl
          | cons d ds => simpa [hc] using (List.isChain_cons_cons.mp h.chain).1
        rw [hblank] at hc ⊢
        simp [Server.squeeze, hc, hnext, hrest]
      · simp [Server.squeeze, hc, hrest]

theorem squeeze_eq_nil : server.squeeze cs = [] ↔ cs = [] := by
  induction cs with
  | nil => simp [Server.squeeze]
  | cons c cs ih =>
      cases cs with
      | nil => by_cases hc : server.isSpace c <;> simp [Server.squeeze, hc]
      | cons d ds => grind [Server.squeeze]

theorem head_squeeze (hc : (server.squeeze cs).head? = some c) (hspace : server.isSpace c) :
    cs.head?.any server.isSpace := by
  cases cs with
  | nil => simp [Server.squeeze] at hc
  | cons d ds =>
      by_cases hd : server.isSpace d
      · simp [hd]
      · simp only [Server.squeeze, hd, not_false_eq_true, if_true, Bool.false_eq_true,
          List.head?_cons, Option.some.injEq] at hc
        exact absurd (hc ▸ hspace) hd

theorem squeeze_squeezed (cs : List Char) : Squeezed server (server.squeeze cs) := by
  induction cs with
  | nil => exact ⟨.nil, by simp [Server.squeeze]⟩
  | cons c cs ih =>
      by_cases hc : server.isSpace c
      · by_cases hnext : cs.head?.any server.isSpace
        · simpa [Server.squeeze, hc, hnext] using ih
        · have hcons : server.squeeze (c :: cs) = ' ' :: server.squeeze cs := by
            simp [Server.squeeze, hc, hnext]
          rw [hcons]
          refine ⟨List.isChain_cons.mpr ⟨fun d hd hboth => ?_, ih.chain⟩, fun d hd hspace => ?_⟩
          · exact hnext (head_squeeze hd hboth.2)
          · cases List.mem_cons.mp hd with
            | inl heq => exact heq
            | inr hin => exact ih.blank d hin hspace
      · have hcons : server.squeeze (c :: cs) = c :: server.squeeze cs := by
          simp [Server.squeeze, hc]
        rw [hcons]
        refine ⟨List.isChain_cons.mpr ⟨fun d _ hboth => hc hboth.1, ih.chain⟩,
          fun d hd hspace => ?_⟩
        cases List.mem_cons.mp hd with
        | inl heq => exact absurd (heq ▸ hspace) hc
        | inr hin => exact ih.blank d hin hspace

theorem strip_part (cs : List Char) : server.strip cs <:+: cs :=
  (List.rdropWhile_prefix server.isSpace _).isInfix.trans
    (List.dropWhile_suffix server.isSpace).isInfix

/-- What is left of a text without spaces at its ends starts with no space. -/
theorem head_strip (h : (server.strip cs).head? = some c) : server.isSpace c = false := by
  obtain ⟨rest, hrest⟩ := List.rdropWhile_prefix server.isSpace (cs.dropWhile server.isSpace)
  have hhead : (cs.dropWhile server.isSpace).head? = some c := by
    rw [← hrest, ← Server.strip]
    simp [h]
  have hfirst := List.head?_dropWhile_not server.isSpace cs
  simpa [hhead] using hfirst

theorem dropWhile_of_head (h : ∀ c, cs.head? = some c → server.isSpace c = false) :
    cs.dropWhile server.isSpace = cs := by
  cases cs with
  | nil => rfl
  | cons c cs => exact List.dropWhile_cons_of_neg (by simp [h c rfl])

theorem strip_strip (cs : List Char) : server.strip (server.strip cs) = server.strip cs := by
  rw [Server.strip, dropWhile_of_head fun c => head_strip, Server.strip,
    List.rdropWhile_idempotent]

theorem strip_ne_nil (hc : cs.head? = some c) (hspace : server.isSpace c = false) :
    server.strip cs ≠ [] := by
  rw [Server.strip, dropWhile_of_head fun d hd => by rw [hc] at hd; cases hd; exact hspace]
  intro hnil
  exact absurd (List.rdropWhile_eq_nil_iff.mp hnil c (List.mem_of_head? hc)) (by simp [hspace])

/-- A text that is cut off and has no spaces to squeeze keeps what `strip` leaves of it. -/
theorem normalizeScoutProfile_of_squeezed (h : Squeezed server cs) (hlen : cs.length ≤ 40) :
    normalizeScoutProfile server (String.ofList cs) = String.ofList (server.strip cs) := by
  rw [normalizeScoutProfile, String.toList_ofList, (h.part (strip_part cs)).squeeze_eq,
    List.take_of_length_le ((strip_part cs).length_le.trans hlen)]

theorem normalizeScoutProfile_fixed (h : Squeezed server cs) (hlen : cs.length ≤ 40) :
    normalizeScoutProfile server (normalizeScoutProfile server (String.ofList cs)) =
      normalizeScoutProfile server (String.ofList cs) := by
  rw [normalizeScoutProfile_of_squeezed h hlen, normalizeScoutProfile_of_squeezed
    (h.part (strip_part cs)) ((strip_part cs).length_le.trans hlen), strip_strip]

end Text

/-- `server` has accepted `name` as a display name. -/
def IsDisplayName (server : Server) (name : String) : Prop :=
  ∃ raw, normalizeDisplayName server raw = .ok name

section Profiles
variable {server : Server} {name : String}

theorem IsDisplayName.chars (h : IsDisplayName server name) : ∃ raw : String,
    name = String.ofList ((server.strip (server.squeeze raw.toList)).take 40) ∧ name ≠ "" := by
  obtain ⟨raw, hraw⟩ := h
  simp only [normalizeDisplayName] at hraw
  split at hraw
  · cases hraw
  next hne =>
    cases hraw
    exact ⟨raw, rfl, hne⟩

/-- A display name is not empty as a scout profile. -/
theorem IsDisplayName.profile_ne (h : IsDisplayName server name) :
    normalizeScoutProfile server name ≠ "" := by
  obtain ⟨raw, hname, hne⟩ := h.chars
  have htake : (server.strip (server.squeeze raw.toList)).take 40 ≠ [] := by
    intro hnil
    exact hne (by rw [hname, hnil, String.ofList_nil])
  obtain ⟨c, hc⟩ := Option.ne_none_iff_exists'.mp (mt List.head?_eq_none_iff.mp htake)
  have hstrip : (server.strip (server.squeeze raw.toList)).head? = some c := by
    rwa [List.head?_take, if_neg (by decide)] at hc
  have hleft := strip_ne_nil hc (head_strip hstrip)
  rw [hname, normalizeScoutProfile, String.toList_ofList, ne_eq, String.ofList_eq_empty_iff,
    List.take_eq_nil_iff, squeeze_eq_nil]
  simp [hleft]

theorem IsDisplayName.profile_fixed (h : IsDisplayName server name) :
    normalizeScoutProfile server (normalizeScoutProfile server name) =
      normalizeScoutProfile server name := by
  obtain ⟨raw, rfl, _⟩ := h.chars
  refine normalizeScoutProfile_fixed ((squeeze_squeezed raw.toList).part ?_) ?_
  · exact (List.take_prefix _ _).isInfix.trans (strip_part _)
  · exact List.length_take_le _ _

/-- A scout profile can lose a blank at its end when it is normalized again, but only once. -/
theorem normalizeScoutProfile_thrice (raw : String) :
    let profile := normalizeScoutProfile server raw
    normalizeScoutProfile server (normalizeScoutProfile server profile) =
      normalizeScoutProfile server profile := by
  refine normalizeScoutProfile_fixed ((squeeze_squeezed (server.strip raw.toList)).part ?_) ?_
  · exact (List.take_prefix _ _).isInfix
  · exact List.length_take_le _ _

end Profiles

end Workspaces
end Frcmob
