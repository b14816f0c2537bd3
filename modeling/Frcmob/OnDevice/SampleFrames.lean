import Frcmob.Lib.Numerals
import Mathlib.Algebra.Order.Field.Basic

/-!
Which frames of a file are sampled: the decoder's output in `webcodecsFrames.ts` and
`advanceSampleTarget` of `samplingRate.ts`, in exact arithmetic. The frames arrive in the order of
their times.
-/

namespace Frcmob.OnDevice.SampleFrames

variable {K : Type} [Field K] [LinearOrder K]

structure SampleOptions (K : Type) [Field K] [LinearOrder K] where
  startSec : K
  endSec : K
  intervalSec : K
  positive : 0 < intervalSec

/-- `none` is minus infinity. -/
def advanceSampleTarget (currentTarget : Option K) (frameTimeSec intervalSec : K) : K :=
  let next := currentTarget.getD frameTimeSec + intervalSec
  if next ≤ frameTimeSec then frameTimeSec + intervalSec else next

def halfFrameSec : K := 1 / 2 / 60

/-- `ready` is every frame that was taken. -/
structure Sampler (K : Type) where
  nextTarget : Option K := none
  pastEnd : Bool := false
  ready : List K := []
deriving DecidableEq

/-- `Math.max` -/
def maxTarget (nextTarget : Option K) (startSec : K) : K :=
  match nextTarget with
  | none => startSec
  | some target => max target startSec

def output (opts : SampleOptions K) (s : Sampler K) (t : K) : Sampler K :=
  if s.pastEnd ∨ t < opts.startSec - halfFrameSec then s
  else if opts.endSec < t then { s with pastEnd := true }
  else if ∀ target ∈ s.nextTarget, target ≤ t + halfFrameSec then
    { s with
      nextTarget :=
        some (advanceSampleTarget (some (maxTarget s.nextTarget opts.startSec)) t opts.intervalSec)
      ready := s.ready ++ [t] }
  else s

def samples (opts : SampleOptions K) (frames : List K) : List K :=
  (frames.foldl (output opts) {}).ready

end Frcmob.OnDevice.SampleFrames
