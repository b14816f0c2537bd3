import Mathlib.Data.String.Basic

/-!
The patterns that the routes match keys of teams and events with. `isDecimal` is `\d`, which
takes the decimal digits of every script.
-/

namespace Frcmob

/-- `^frc\d{1,5}$` -/
def isTeamKey (isDecimal : Char → Bool) (token : String) : Bool :=
  match token.toList with
  | 'f' :: 'r' :: 'c' :: digits =>
      digits.all isDecimal && 1 ≤ digits.length && digits.length ≤ 5
  | _ => false

/-- `^\d{4}[a-z0-9]+$` -/
def isEventKey (isDecimal : Char → Bool) (token : String) : Bool :=
  let year := token.toList.take 4
  let code := token.toList.drop 4
  year.length = 4 && year.all isDecimal && !code.isEmpty &&
    code.all fun c => ('a' ≤ c && c ≤ 'z') || ('0' ≤ c && c ≤ '9')

end Frcmob
