/-!
# The gate

Only one caller at a time may use a connection.  The gate admits callers in the order in which they
arrive.  A caller that finds it free is admitted at once; a gate that is given back goes straight to
the caller that has waited longest, which will find out when it resumes.

## Why it is safe

A gate is free, or granted to one caller, or held by one; a free gate has no queue.  So there is
never more than one guard, and no caller is admitted past another that waits.
-/

namespace KvClient

/-- A gate, with the callers that wait for it in order of arrival. -/
inductive Gate (α : Type)
  | free
  /-- The gate belongs to `next`, which has not resumed yet. -/
  | granted (next : α) (queue : List α)
  | held (holder : α) (queue : List α)
  deriving Repr, DecidableEq

namespace Gate

variable {α : Type}

/-! ## Events -/

/-- A gate that nobody holds any more goes to the first caller of the queue. -/
def handOver : List α → Gate α
  | [] => free
  | next :: queue => granted next queue

/-- A caller arrives. -/
def arrive (c : α) : Gate α → Gate α
  | free => held c []
  | granted next queue => granted next (queue ++ [c])
  | held holder queue => held holder (queue ++ [c])

/-- A caller finds that the gate has been granted to it. -/
def resume [DecidableEq α] (c : α) : Gate α → Gate α
  | granted next queue => if next = c then held c queue else granted next queue
  | g => g

/-- A caller gives its guard back. -/
def release [DecidableEq α] (c : α) : Gate α → Gate α
  | held holder queue => if holder = c then handOver queue else held holder queue
  | g => g

/-- A caller gives up, wherever it is. -/
def cancel [DecidableEq α] (c : α) : Gate α → Gate α
  | free => free
  | granted next queue => if next = c then handOver queue else granted next (queue.erase c)
  | held holder queue => if holder = c then handOver queue else held holder (queue.erase c)

/-! ## Views -/

/-- Whether a probe finds the gate taken. -/
def isHeld : Gate α → Bool
  | free => false
  | _ => true

/-- The caller that holds a guard. -/
def holder? : Gate α → Option α
  | held holder _ => some holder
  | _ => none

/-- The callers that wait for a guard, the next one first. -/
def waiting : Gate α → List α
  | free => []
  | granted next queue => next :: queue
  | held _ queue => queue

/-- All callers at the gate. -/
def callers : Gate α → List α
  | free => []
  | granted next queue => next :: queue
  | held holder queue => holder :: queue

/-! ## Laws -/

@[simp] theorem waiting_handOver (queue : List α) : (handOver queue).waiting = queue := by
  cases queue <;> rfl

@[simp] theorem callers_handOver (queue : List α) : (handOver queue).callers = queue := by
  cases queue <;> rfl

theorem callers_arrive (c : α) (g : Gate α) : (g.arrive c).callers = g.callers ++ [c] := by
  cases g <;> rfl

theorem callers_cancel [DecidableEq α] (c : α) (g : Gate α) :
    (g.cancel c).callers = g.callers.erase c := by
  cases g with
  | free => rfl
  | granted next queue =>
    by_cases h : next = c
    · rw [cancel, if_pos h, callers_handOver]
      simp [callers, h]
    · simp [cancel, callers, h]
  | held holder queue =>
    by_cases h : holder = c
    · rw [cancel, if_pos h, callers_handOver]
      simp [callers, h]
    · simp [cancel, callers, h]

end Gate

end KvClient
