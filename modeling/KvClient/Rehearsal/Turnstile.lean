import KvClient.Gate

/-!
# A gate on trial

Callers are sent to a gate around a number, told to give it back, or called off.  Each admission is
logged with the number that the caller finds.  A caller that is told to give the gate back while it
still waits does so as soon as it is admitted.
-/

namespace KvClient.Rehearsal

/-- A gate around a number. -/
structure Turnstile where
  gate : Gate String
  value : Int
  /-- Who was admitted, and what the number was; the last admission first. -/
  log : List (String × Int)
  /-- Who was told to give the gate back, and what to add before. -/
  orders : List (String × Int)

namespace Turnstile

/-- A gate that nobody has come to. -/
def new : Turnstile := ⟨.free, 0, [], []⟩

/-- What a caller was told to add, if it was told to give the gate back. -/
def order? (t : Turnstile) (name : String) : Option Int :=
  (t.orders.find? (·.1 == name)).map (·.2)

/-- The trial without what a caller was told. -/
def forget (t : Turnstile) (name : String) : Turnstile :=
  { t with orders := t.orders.filter (·.1 != name) }

/-- The holder carries out what it was told, `granted` callers resume, and so on as long as there is
something to do; `count` callers at most pass. -/
def settle : Nat → Turnstile → Turnstile
  | 0, t => t
  | count + 1, t =>
    match t.gate with
    | .free => t
    | .granted next _ =>
      settle count { t with gate := t.gate.resume next, log := (next, t.value) :: t.log }
    | .held holder _ =>
      match t.order? holder with
      | none => t
      | some n =>
        settle count
          ({ t with gate := t.gate.release holder, value := t.value + n }.forget holder)

/-- Lets everything happen that can happen. -/
def run (t : Turnstile) : Turnstile := settle (2 * t.gate.callers.length + 1) t

/-- A caller arrives. -/
def acquire (t : Turnstile) (name : String) : Turnstile :=
  let gate := t.gate.arrive name
  let log := if gate.holder? = some name then (name, t.value) :: t.log else t.log
  run { t with gate, log }

/-- A caller is told to add a number and give the gate back. -/
def release (t : Turnstile) (name : String) (n : Int) : Turnstile :=
  if t.gate.callers.contains name ∧ t.order? name = none then
    run { t with orders := (name, n) :: t.orders }
  else t

/-- A caller is called off. -/
def cancel (t : Turnstile) (name : String) : Turnstile :=
  run ({ t with gate := t.gate.cancel name }.forget name)

end Turnstile

end KvClient.Rehearsal
