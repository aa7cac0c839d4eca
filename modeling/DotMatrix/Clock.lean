import DotMatrix.Exec

/-!
# The clock

Time in clock cycles together with the events that wait for their moment.  Events are kept in the
order in which they fire: by the time they are due and, among those due together, in the order in
which they were scheduled.

`Timed.advance` lets time pass.  It fires every event that falls due strictly before the end of the
window, each at the moment it is due, and what firing an event does is up to the machine that owns
the clock: it may schedule more events, which fire in the same window if they fall into it, and it
may fail, which stops the clock at that moment with the remaining events still waiting.
-/

set_option autoImplicit false

namespace DotMatrix

variable {ε σ : Type}

/-- Something that waits for its moment. -/
structure Event (ε : Type) where
  /-- The time it is due. -/
  target : Nat
  /-- How many events were scheduled before it. -/
  sequence : Nat
  action : ε

/-- Whether one event fires before another. -/
def Event.before (x y : Event ε) : Bool :=
  x.target < y.target || (x.target == y.target && x.sequence < y.sequence)

/-- The time and the events that wait, in the order in which they fire. -/
structure Clock (ε : Type) where
  now : Nat := 0
  /-- How many events have been scheduled so far. -/
  sequence : Nat := 0
  queue : List (Event ε) := []

namespace Clock

/-- Put an event in its place among others. -/
def insert (x : Event ε) : List (Event ε) → List (Event ε)
  | [] => [x]
  | y :: rest => if x.before y then x :: y :: rest else y :: insert x rest

theorem insert_perm (x : Event ε) (queue : List (Event ε)) :
    (insert x queue).Perm (x :: queue) := by
  induction queue with
  | nil => exact List.Perm.refl _
  | cons y rest ih =>
    rw [insert]
    split
    · exact List.Perm.refl _
    · exact (ih.cons y).trans (List.Perm.swap x y rest)

/-- Let an action wait for `delay` cycles. -/
def schedule (c : Clock ε) (delay : Nat) (action : ε) : Clock ε :=
  { c with
    sequence := c.sequence + 1
    queue := insert ⟨c.now + delay, c.sequence, action⟩ c.queue }

/-- The number of events that wait. -/
def pending (c : Clock ε) : Nat := c.queue.length

@[simp]
theorem pending_schedule (c : Clock ε) (delay : Nat) (action : ε) :
    (c.schedule delay action).pending = c.pending + 1 :=
  (insert_perm _ c.queue).length_eq

/-- The first event if it is due before `limit`, with the clock at its moment. -/
def popDue? (c : Clock ε) (limit : Nat) : Option (ε × Clock ε) :=
  match c.queue with
  | [] => none
  | event :: rest =>
    if event.target < limit then
      some (event.action, { c with now := event.target, queue := rest })
    else
      none

end Clock

/-- A machine that owns a clock. -/
structure Timed (ε σ : Type) where
  clock : Clock ε
  body : σ

namespace Timed

/-- The time of a machine's clock. -/
def now (m : Timed ε σ) : Nat := m.clock.now

/-- Let an action wait for `delay` cycles. -/
@[inline]
def schedule (delay : Nat) (action : ε) : Exec (Timed ε σ) Unit :=
  Exec.modify fun ⟨clock, body⟩ ↦ ⟨clock.schedule delay action, body⟩

/-- Fire what is due before `limit`, then set the clock to it.  `records` are those reported so
far.  Nothing bounds how many events fire: actions that keep scheduling more of them within the
window keep the loop going for ever. -/
@[specialize]
def drain (fire : ε → Exec (Timed ε σ) Unit) (limit : Nat) (records : Array Record)
    (m : Timed ε σ) : Outcome (Timed ε σ) Unit :=
  match m.clock.popDue? limit with
  | none => ⟨.ok (), { m with clock := { m.clock with now := limit } }, records⟩
  | some (action, clock) =>
    match fire action { m with clock := clock } with
    | ⟨.ok (), m', more⟩ => m' |>.drain fire limit (records ++ more)
    | ⟨.error fault, m', more⟩ => ⟨.error fault, m', records ++ more⟩
partial_fixpoint

/-- Let `duration` cycles pass, firing every event that falls due strictly before their end. -/
@[inline]
def advance (fire : ε → Exec (Timed ε σ) Unit) (duration : Nat) : Exec (Timed ε σ) Unit :=
  fun m ↦ drain fire (m.clock.now + duration) #[] m

end Timed

end DotMatrix
