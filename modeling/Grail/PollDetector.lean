import Grail.Syscall

/-! # Poll loop detection

`PollLoopDetector<SimpleGettimeofdaySelectLoopDetector, ExponentialBackoffStrategy>`: the
detector remembers whether the previous call was one of `gettimeofday`, `select`, `futex`; two
such calls in a row are a poll loop, for which the strategy counts steps and doubles the delay
up to one millisecond. -/

namespace Grail

/-- The state of the detector (`previousCallQualified`) and of the strategy (`pollSteps`). -/
structure PollLoopDetector where
  previousCallQualified : Bool
  pollSteps : ℕ
deriving DecidableEq, Repr

namespace PollLoopDetector

def initial : PollLoopDetector := ⟨false, 0⟩

/-- The calls that a poll loop consists of. -/
def qualifies : Syscall → Bool
  | .gettimeofday _ _ => true
  | .select _ => true
  | .futex _ => true
  | _ => false

/-- The delay in nanoseconds: `2^pollSteps` times 100 ns, at most 1 ms. -/
def getDelay (d : PollLoopDetector) : ℕ :=
  if d.pollSteps = 0 then 0 else max 1 (min (2 ^ d.pollSteps) 10000) * 100

/-- `pollSteps` is a `uint32_t`. -/
def handleSystemCall (d : PollLoopDetector) (syscall : Syscall) : PollLoopDetector :=
  let inLoop := d.previousCallQualified && qualifies syscall
  { previousCallQualified := qualifies syscall
    pollSteps := if inLoop then (d.pollSteps + 1) % 2 ^ 32 else 0 }

end PollLoopDetector

end Grail
