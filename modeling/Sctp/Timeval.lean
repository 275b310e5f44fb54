import Mathlib.Algebra.Order.Ring.Int
import Mathlib.Tactic

/-! The times of day, in seconds and microseconds, and how they are compared and subtracted. -/
namespace Sctp

/-- `struct timeval` -/
structure Timeval where
  tv_sec : ℤ
  tv_usec : ℤ
deriving DecidableEq, Repr

namespace Timeval

def zero : Timeval := ⟨0, 0⟩

def usecs (tv : Timeval) : ℤ := 1000000 * tv.tv_sec + tv.tv_usec

def Normal (tv : Timeval) : Prop := 0 ≤ tv.tv_usec ∧ tv.tv_usec < 1000000

instance (tv : Timeval) : Decidable tv.Normal := inferInstanceAs (Decidable (_ ∧ _))

/-- `timercmp(tv, tv', <)` -/
def before (tv tv' : Timeval) : Bool :=
  tv.tv_sec < tv'.tv_sec ∨ (tv.tv_sec = tv'.tv_sec ∧ tv.tv_usec < tv'.tv_usec)

/-- `timevalsub` -/
def sub (tv tv' : Timeval) : Timeval :=
  if tv.tv_usec - tv'.tv_usec < 0 then ⟨tv.tv_sec - tv'.tv_sec - 1, tv.tv_usec - tv'.tv_usec + 1000000⟩
  else ⟨tv.tv_sec - tv'.tv_sec, tv.tv_usec - tv'.tv_usec⟩

theorem before_iff {tv tv' : Timeval} (h : tv.Normal) (h' : tv'.Normal) :
    tv.before tv' = true ↔ tv.usecs < tv'.usecs := by
  unfold Normal at h h'
  unfold before usecs
  rw [decide_eq_true_iff]
  omega

/-- Up to a whole second that is carried, the difference is that of the microseconds. -/
theorem usecs_sub (tv tv' : Timeval) : (tv.sub tv').usecs = tv.usecs - tv'.usecs := by
  unfold sub usecs
  split
  · dsimp only
    omega
  · dsimp only
    omega

end Timeval

end Sctp
