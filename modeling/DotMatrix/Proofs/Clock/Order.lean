import DotMatrix.Proofs.Clock.Drain

/-!
# The order of events

Events fire by target and, among those with the same target, by the number they were given when
they were scheduled.  `Clock.Sound` is what this rests on: the queue is in that order, nothing in it
is overdue, and every number in it has been given out.  Scheduling keeps it (`Sound.schedule`), and
so do the two things that the drain does to a clock: taking the event that is due (`Sound.taking`)
and setting the time when nothing is (`Sound.atTime`).
-/

set_option autoImplicit false

namespace DotMatrix

variable {ε σ : Type}

namespace Event

theorem before_iff {x y : Event ε} :
    x.before y ↔ x.target < y.target ∨ x.target = y.target ∧ x.sequence < y.sequence := by
  simp [before]

theorem before_trans {x y z : Event ε} (hxy : x.before y) (hyz : y.before z) : x.before z := by
  rw [before_iff] at *
  omega

/-- Two events with different numbers are never level. -/
theorem before_of_not_before {x y : Event ε} (hne : x.sequence ≠ y.sequence)
    (h : ¬ x.before y) : y.before x := by
  rw [before_iff] at *
  omega

theorem target_le_of_before {x y : Event ε} (h : x.before y) : x.target ≤ y.target := by
  rw [before_iff] at h
  omega

end Event

namespace Clock

/-! ## Putting events in their place -/

theorem mem_insert {x y : Event ε} {queue : List (Event ε)} :
    y ∈ insert x queue ↔ y = x ∨ y ∈ queue := by
  rw [(insert_perm x queue).mem_iff, List.mem_cons]

/-- An event with a number of its own goes where the order wants it. -/
theorem pairwise_insert {x : Event ε} {queue : List (Event ε)}
    (h : queue.Pairwise fun x y ↦ x.before y) (hx : ∀ e ∈ queue, e.sequence ≠ x.sequence) :
    (insert x queue).Pairwise fun x y ↦ x.before y := by
  induction queue with
  | nil => simp [insert]
  | cons y rest ih =>
    rw [List.pairwise_cons] at h
    rw [insert]
    split
    · rename_i hxy
      refine List.pairwise_cons.2 ⟨fun e he ↦ ?_, List.pairwise_cons.2 h⟩
      rcases List.mem_cons.1 he with rfl | he
      · exact hxy
      · exact Event.before_trans hxy (h.1 e he)
    · rename_i hxy
      refine List.pairwise_cons.2
        ⟨fun e he ↦ ?_, ih h.2 fun e he ↦ hx e (List.mem_cons_of_mem y he)⟩
      rcases mem_insert.1 he with rfl | he
      · exact Event.before_of_not_before (hx y List.mem_cons_self).symm hxy
      · exact h.1 e he

/-- The event that scheduling an action now puts into the queue. -/
def event (c : Clock ε) (delay : Nat) (action : ε) : Event ε := ⟨c.now + delay, c.sequence, action⟩

@[simp] theorem queue_schedule (c : Clock ε) (delay : Nat) (action : ε) :
    (c.schedule delay action).queue = insert (c.event delay action) c.queue := rfl

@[simp] theorem now_schedule (c : Clock ε) (delay : Nat) (action : ε) :
    (c.schedule delay action).now = c.now := rfl

@[simp] theorem sequence_schedule (c : Clock ε) (delay : Nat) (action : ε) :
    (c.schedule delay action).sequence = c.sequence + 1 := rfl

/-! ## Sound clocks -/

/-- A clock whose queue is in order, with nothing overdue in it and no number still to be given. -/
structure Sound (c : Clock ε) : Prop where
  ordered : c.queue.Pairwise fun x y ↦ x.before y
  onTime : ∀ e ∈ c.queue, c.now ≤ e.target
  numbered : ∀ e ∈ c.queue, e.sequence < c.sequence

theorem sound_empty : ({} : Clock ε).Sound :=
  ⟨List.Pairwise.nil, fun _ h ↦ by simp at h, fun _ h ↦ by simp at h⟩

theorem Sound.schedule {c : Clock ε} (h : c.Sound) (delay : Nat) (action : ε) :
    (c.schedule delay action).Sound where
  ordered := pairwise_insert h.ordered fun e he ↦ Nat.ne_of_lt (h.numbered e he)
  onTime e he := by
    rcases mem_insert.1 he with rfl | he
    · exact Nat.le_add_right _ _
    · exact h.onTime e he
  numbered e he := by
    rcases mem_insert.1 he with rfl | he
    · exact Nat.lt_succ_self _
    · exact Nat.lt_succ_of_lt (h.numbered e he)

/-! ## Several events at once -/

/-- The clock after actions were scheduled one after another, each with its delay. -/
def scheduleAll (c : Clock ε) (plans : List (Nat × ε)) : Clock ε :=
  plans.foldl (fun c plan ↦ c.schedule plan.1 plan.2) c

/-- The events that scheduling actions one after another puts into the queue. -/
def events (c : Clock ε) : List (Nat × ε) → List (Event ε)
  | [] => []
  | plan :: plans => c.event plan.1 plan.2 :: (c.schedule plan.1 plan.2).events plans

@[simp] theorem now_scheduleAll (c : Clock ε) (plans : List (Nat × ε)) :
    (c.scheduleAll plans).now = c.now := by
  induction plans generalizing c with
  | nil => rfl
  | cons plan plans ih => exact ih (c.schedule plan.1 plan.2)

theorem sequence_scheduleAll (c : Clock ε) (plans : List (Nat × ε)) :
    (c.scheduleAll plans).sequence = c.sequence + plans.length := by
  induction plans generalizing c with
  | nil => rfl
  | cons plan plans ih =>
    have h := ih (c.schedule plan.1 plan.2)
    rw [sequence_schedule] at h
    rw [List.length_cons, Nat.add_comm plans.length, ← Nat.add_assoc]
    exact h

theorem Sound.scheduleAll {c : Clock ε} (h : c.Sound) (plans : List (Nat × ε)) :
    (c.scheduleAll plans).Sound := by
  induction plans generalizing c with
  | nil => exact h
  | cons plan plans ih => exact ih (h.schedule plan.1 plan.2)

/-- Scheduling adds its events to those that wait and takes none away. -/
theorem queue_scheduleAll (c : Clock ε) (plans : List (Nat × ε)) :
    (c.scheduleAll plans).queue.Perm (c.queue ++ c.events plans) := by
  induction plans generalizing c with
  | nil => simp [Clock.scheduleAll, events]
  | cons plan plans ih =>
    refine (ih (c.schedule plan.1 plan.2)).trans ?_
    rw [events, queue_schedule]
    exact ((insert_perm _ c.queue).append_right _).trans List.perm_middle.symm

theorem target_events {c : Clock ε} {plans : List (Nat × ε)} {e : Event ε}
    (h : e ∈ c.events plans) : c.now ≤ e.target := by
  induction plans generalizing c with
  | nil => simp [events] at h
  | cons plan plans ih =>
    rcases List.mem_cons.1 h with rfl | h
    · exact Nat.le_add_right _ _
    · exact ih (c := c.schedule plan.1 plan.2) h

theorem sequence_events {c : Clock ε} {plans : List (Nat × ε)} {e : Event ε}
    (h : e ∈ c.events plans) :
    c.sequence ≤ e.sequence ∧ e.sequence < c.sequence + plans.length := by
  induction plans generalizing c with
  | nil => simp [events] at h
  | cons plan plans ih =>
    rw [List.length_cons]
    rcases List.mem_cons.1 h with rfl | h
    · exact ⟨Nat.le_refl _, by show c.sequence < _; omega⟩
    · have h1 := ih h
      rw [sequence_schedule] at h1
      omega

/-- Scheduling gives its events their numbers in turn. -/
theorem pairwise_events (c : Clock ε) (plans : List (Nat × ε)) :
    (c.events plans).Pairwise fun x y ↦ x.sequence < y.sequence := by
  induction plans generalizing c with
  | nil => exact List.Pairwise.nil
  | cons plan plans ih =>
    refine List.pairwise_cons.2 ⟨fun e he ↦ ?_, ih _⟩
    exact (sequence_events he).1

end Clock

namespace Timed

variable {m : Timed ε σ} {limit : Nat}

/-! ## What the drain does to a clock -/

/-- Taking the event that is due. -/
theorem sound_taking (h : m.clock.Sound) {event : Event ε} {rest : List (Event ε)}
    (hd : m.clock.Due limit event rest) : (m.taking event rest).clock.Sound := by
  have ho := h.ordered
  have hn := h.numbered
  rw [hd.1] at ho hn
  exact ⟨(List.pairwise_cons.1 ho).2,
    fun e he ↦ Event.target_le_of_before ((List.pairwise_cons.1 ho).1 e he),
    fun e he ↦ hn e (List.mem_cons_of_mem event he)⟩

/-- When nothing is due before `limit`, nothing that waits has an earlier target. -/
theorem le_target_of_popDue?_eq_none (h : m.clock.Sound) (hn : m.clock.popDue? limit = none) :
    ∀ e ∈ m.clock.queue, limit ≤ e.target := by
  intro e he
  cases hq : m.clock.queue with
  | nil => rw [hq] at he; cases he
  | cons event rest =>
    have hle : limit ≤ event.target := by
      refine Nat.le_of_not_lt fun hlt ↦ ?_
      exact Clock.not_due_of_popDue?_eq_none hn event rest ⟨hq, hlt⟩
    have ho := h.ordered
    rw [hq] at ho he
    rcases List.mem_cons.1 he with rfl | he
    · exact hle
    · exact Nat.le_trans hle (Event.target_le_of_before ((List.pairwise_cons.1 ho).1 e he))

/-- Setting the time when nothing is due before it. -/
theorem sound_atTime (h : m.clock.Sound) (hn : m.clock.popDue? limit = none) :
    (m.atTime limit).clock.Sound :=
  have ht := le_target_of_popDue?_eq_none h hn
  ⟨h.ordered, ht, h.numbered⟩

end Timed

end DotMatrix
