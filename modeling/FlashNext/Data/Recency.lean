import Mathlib.Data.List.Basic
import Mathlib.Order.Lattice
import Mathlib.Order.MinMax

namespace FlashNext.Data

variable {α : Type*} {holds other : α → Bool} {log : List (Nat × α)}

/-- The latest date of an entry with a property; 0 when there is none. -/
def lastTime (holds : α → Bool) (log : List (Nat × α)) : Nat :=
  ((log.filter fun entry => holds entry.2).map Prod.fst).foldr max 0

theorem lastTime_cons (holds : α → Bool) (entry : Nat × α) (log : List (Nat × α)) :
    lastTime holds (entry :: log) = max (if holds entry.2 then entry.1 else 0) (lastTime holds log) := by
  by_cases here : holds entry.2 <;> simp [lastTime, here]

theorem lastTime_append (holds : α → Bool) (first second : List (Nat × α)) :
    lastTime holds (first ++ second) = max (lastTime holds first) (lastTime holds second) := by
  induction first with
  | nil => simp [lastTime]
  | cons entry rest ih => rw [List.cons_append, lastTime_cons, lastTime_cons, ih, max_assoc]

theorem lastTime_snoc (holds : α → Bool) (log : List (Nat × α)) (time : Nat) (entry : α) :
    lastTime holds (log ++ [(time, entry)]) = max (lastTime holds log) (if holds entry then time else 0) := by
  rw [lastTime_append, lastTime_cons]
  simp [lastTime]

theorem lastTime_le {time : Nat} (bound : ∀ entry ∈ log, entry.1 ≤ time) : lastTime holds log ≤ time := by
  induction log with
  | nil => exact Nat.zero_le time
  | cons entry rest ih =>
      rw [lastTime_cons]
      refine Nat.max_le.mpr ⟨?_, ih fun other member => bound other (by simp [member])⟩
      split
      · exact bound entry (by simp)
      · exact Nat.zero_le time

theorem lastTime_or (holds other : α → Bool) (log : List (Nat × α)) :
    lastTime (fun entry => holds entry || other entry) log = max (lastTime holds log) (lastTime other log) := by
  induction log with
  | nil => rfl
  | cons entry rest ih =>
      simp only [lastTime_cons, ih]
      by_cases left : holds entry.2 <;> by_cases right : other entry.2 <;> simp only [left, right] <;> simp <;> omega

end FlashNext.Data
