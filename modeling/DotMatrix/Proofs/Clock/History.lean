import DotMatrix.Proofs.Clock.Order

/-!
# The history of a clock

`History fire m fired scheduled` says that `m` can be reached from an empty clock by scheduling and
advancing, any number of times and in any order, and keeps the books: which events have fired so
far, over all the advances, and which have ever been scheduled, from outside or by an action.  An
advance that a failing action stopped is part of a history like any other.

Actions are asked for one thing, `OnlySchedules`: they may schedule events and may fail, and touch
the clock in no other way.  `Ledger` is then the invariant, kept by a single firing
(`Ledger.fires`), hence by an advance (`Ledger.drains`) and by a whole history
(`History.ledger`).  `History.accounted` reads the result off it: events fire in the order of target
and number, at their targets, and each is either pending or has fired once.
-/

set_option autoImplicit false

namespace DotMatrix.Timed

variable {ε σ : Type} {fire : ε → Exec (Timed ε σ) Unit} {limit : Nat} {m : Timed ε σ}
  {fired firings : List (Firing ε σ)} {scheduled : List (Event ε)}

/-- Actions schedule events and do nothing else to the clock, whether they succeed or fail. -/
def OnlySchedules (fire : ε → Exec (Timed ε σ) Unit) : Prop :=
  ∀ (action : ε) (m : Timed ε σ), ∃ plans : List (Nat × ε),
    (fire action m).state.clock = m.clock.scheduleAll plans

/-- What an action leaves of the clock whose event was taken. -/
theorem OnlySchedules.clock_eq (hfire : OnlySchedules fire) {event : Event ε}
    {rest : List (Event ε)} {r : Except Fault Unit} {m' : Timed ε σ} {records : Array Record}
    (hf : fire event.action (m.taking event rest) = ⟨r, m', records⟩) :
    m'.now = event.target ∧
      ∃ plans, m'.clock = (m.taking event rest).clock.scheduleAll plans := by
  obtain ⟨plans, hp⟩ := hfire event.action (m.taking event rest)
  rw [hf] at hp
  exact ⟨(congrArg Clock.now hp).trans (Clock.now_scheduleAll _ plans), plans, hp⟩

/-- The events that an action scheduled: those that wait afterwards with a number that had not been
given out before. -/
def Firing.added (f : Firing ε σ) : List (Event ε) :=
  f.after.clock.queue.filter fun e ↦ f.before.clock.sequence ≤ e.sequence

theorem added_perm {f : Firing ε σ} {plans : List (Nat × ε)} (h : f.before.clock.Sound)
    (ha : f.after.clock = f.before.clock.scheduleAll plans) :
    f.added.Perm (f.before.clock.events plans) := by
  have hp := (Clock.queue_scheduleAll f.before.clock plans).filter
    fun e ↦ f.before.clock.sequence ≤ e.sequence
  have hold : f.before.clock.queue.filter (fun e ↦ f.before.clock.sequence ≤ e.sequence) = [] := by
    refine List.filter_eq_nil_iff.2 fun e he ↦ ?_
    have h1 := h.numbered e he
    simp only [decide_eq_true_eq]
    omega
  have hnew : (f.before.clock.events plans).filter
      (fun e ↦ f.before.clock.sequence ≤ e.sequence) = f.before.clock.events plans := by
    refine List.filter_eq_self.2 fun e he ↦ ?_
    simpa using (Clock.sequence_events he).1
  rw [List.filter_append, hold, hnew, List.nil_append, ← ha] at hp
  exact hp

/-! ## Histories -/

/-- `m` is reached from an empty clock, with these events fired and these ones scheduled on the
way. -/
inductive History (fire : ε → Exec (Timed ε σ) Unit) :
    Timed ε σ → List (Firing ε σ) → List (Event ε) → Prop
  | start (body : σ) : History fire ⟨{}, body⟩ [] []
  /-- An event is scheduled from outside. -/
  | schedule {m : Timed ε σ} {fired : List (Firing ε σ)} {scheduled : List (Event ε)}
      (h : History fire m fired scheduled) (delay : Nat) (action : ε) :
      History fire (Timed.schedule delay action m).state fired
        (scheduled ++ [m.clock.event delay action])
  /-- What does not concern the clock changes. -/
  | touch {m : Timed ε σ} {fired : List (Firing ε σ)} {scheduled : List (Event ε)}
      (h : History fire m fired scheduled) (body : σ) :
      History fire { m with body := body } fired scheduled
  /-- Time passes, until the end of the window or until an action fails. -/
  | advance {m : Timed ε σ} {fired firings : List (Firing ε σ)} {scheduled : List (Event ε)}
      (h : History fire m fired scheduled) (duration : Nat) {o : Outcome (Timed ε σ) Unit}
      (hd : Drains fire (m.now + duration) m firings o) :
      History fire o.state (fired ++ firings) (scheduled ++ firings.flatMap Firing.added)

/-! ## The invariant -/

/-- The books of a clock that has fired and scheduled these events. -/
structure Ledger (m : Timed ε σ) (fired : List (Firing ε σ)) (scheduled : List (Event ε)) :
    Prop where
  sound : m.clock.Sound
  /-- What has fired is in order. -/
  ordered : (fired.map (·.event)).Pairwise fun x y ↦ x.before y
  /-- What has fired comes before everything that still waits. -/
  first : ∀ f ∈ fired, ∀ e ∈ m.clock.queue, f.event.before e
  /-- What has fired was due by now. -/
  past : ∀ f ∈ fired, f.event.target ≤ m.now
  timely : ∀ f ∈ fired, f.before.now = f.event.target
  /-- What was scheduled has fired or waits. -/
  balanced : (fired.map (·.event) ++ m.clock.queue).Perm scheduled
  /-- Numbers are given out once. -/
  distinct : (scheduled.map (·.sequence)).Nodup
  numbered : ∀ e ∈ scheduled, e.sequence < m.clock.sequence

namespace Ledger

theorem empty (body : σ) : Ledger (⟨{}, body⟩ : Timed ε σ) [] [] :=
  ⟨Clock.sound_empty, List.Pairwise.nil, fun _ h ↦ absurd h List.not_mem_nil,
    fun _ h ↦ absurd h List.not_mem_nil, fun _ h ↦ absurd h List.not_mem_nil, List.Perm.refl _,
    List.nodup_nil, fun _ h ↦ absurd h List.not_mem_nil⟩

theorem numbered_fired (h : Ledger m fired scheduled) {f : Firing ε σ} (hf : f ∈ fired) :
    f.event.sequence < m.clock.sequence :=
  h.numbered _ (h.balanced.mem_iff.1
    (List.mem_append_left _ (List.mem_map_of_mem hf)))

/-- Scheduling enters its events into the books, with the numbers that come next. -/
theorem scheduleAll (h : Ledger m fired scheduled) {m' : Timed ε σ} {plans : List (Nat × ε)}
    (hm : m'.clock = m.clock.scheduleAll plans) {new : List (Event ε)}
    (hnew : new.Perm (m.clock.events plans)) : Ledger m' fired (scheduled ++ new) := by
  have hq : m'.clock.queue.Perm (m.clock.queue ++ m.clock.events plans) := by
    rw [hm]; exact Clock.queue_scheduleAll m.clock plans
  have hnow : m'.now = m.now := by
    rw [now, hm]; exact Clock.now_scheduleAll m.clock plans
  have hseq : m'.clock.sequence = m.clock.sequence + plans.length := by
    rw [hm]; exact Clock.sequence_scheduleAll m.clock plans
  refine ⟨by rw [hm]; exact h.sound.scheduleAll plans, h.ordered, fun f hf e he ↦ ?_,
    fun f hf ↦ hnow ▸ h.past f hf, h.timely, ?_, ?_, fun e he ↦ ?_⟩
  · rcases List.mem_append.1 (hq.mem_iff.1 he) with he | he
    · exact h.first f hf e he
    · -- a new event is due now at the earliest, and has a later number than any that fired
      have h1 := h.past f hf
      have h2 : m.now ≤ e.target := Clock.target_events he
      have h3 := (Clock.sequence_events he).1
      have h4 := h.numbered_fired hf
      rw [Event.before_iff]
      omega
  · refine (hq.append_left _).trans ?_
    rw [← List.append_assoc]
    exact h.balanced.append hnew.symm
  · rw [List.map_append]
    refine List.nodup_append.2 ⟨h.distinct, ?_, ?_⟩
    · refine (hnew.map _).nodup_iff.2 ?_
      rw [List.Nodup, List.pairwise_map]
      exact (Clock.pairwise_events m.clock plans).imp Nat.ne_of_lt
    · intro a ha b hb
      obtain ⟨x, hx, rfl⟩ := List.mem_map.1 ha
      obtain ⟨y, hy, rfl⟩ := List.mem_map.1 hb
      have h1 := h.numbered x hx
      have h2 := (Clock.sequence_events (hnew.mem_iff.1 hy)).1
      omega
  · rcases List.mem_append.1 he with he | he
    · exact hseq ▸ Nat.lt_of_lt_of_le (h.numbered e he) (Nat.le_add_right _ _)
    · exact hseq ▸ (Clock.sequence_events (hnew.mem_iff.1 he)).2

/-- Taking the event that is due moves it from those that wait to those that have fired. -/
theorem taking (h : Ledger m fired scheduled) {event : Event ε} {rest : List (Event ε)}
    (hd : m.clock.Due limit event rest) (after : Timed ε σ) :
    Ledger (m.taking event rest) (fired ++ [⟨event, m.taking event rest, after⟩]) scheduled := by
  have hmem : event ∈ m.clock.queue := hd.mem
  have hrest : ∀ e ∈ rest, e ∈ m.clock.queue := fun e ↦ hd.mem_of_rest
  have hord := h.sound.ordered
  rw [hd.1, List.pairwise_cons] at hord
  refine ⟨sound_taking h.sound hd, ?_, ?_, ?_, ?_, ?_, h.distinct, h.numbered⟩
  · rw [List.map_append]
    refine List.pairwise_append.2 ⟨h.ordered, List.pairwise_singleton _ _, ?_⟩
    intro x hx y hy
    obtain ⟨f, hf, rfl⟩ := List.mem_map.1 hx
    rw [List.mem_singleton.1 hy]
    exact h.first f hf event hmem
  · intro f hf e he
    rcases List.mem_append.1 hf with hf | hf
    · exact h.first f hf e (hrest e he)
    · obtain rfl := List.mem_singleton.1 hf
      exact hord.1 e he
  · intro f hf
    rcases List.mem_append.1 hf with hf | hf
    · exact Nat.le_trans (h.past f hf) (h.sound.onTime event hmem)
    · obtain rfl := List.mem_singleton.1 hf
      exact Nat.le_refl _
  · intro f hf
    rcases List.mem_append.1 hf with hf | hf
    · exact h.timely f hf
    · obtain rfl := List.mem_singleton.1 hf
      rfl
  · have hb := h.balanced
    rw [hd.1] at hb
    rw [List.map_append, List.append_assoc]
    exact hb

/-- **A firing keeps the books**, whether the action succeeds or fails. -/
theorem fires (hfire : OnlySchedules fire) (h : Ledger m fired scheduled) {event : Event ε}
    {rest : List (Event ε)} (hd : m.clock.Due limit event rest) {r : Except Fault Unit}
    {m' : Timed ε σ} {records : Array Record}
    (hf : fire event.action (m.taking event rest) = ⟨r, m', records⟩) :
    Ledger m' (fired ++ [⟨event, m.taking event rest, m'⟩])
      (scheduled ++ Firing.added ⟨event, m.taking event rest, m'⟩) := by
  obtain ⟨-, plans, hp⟩ := hfire.clock_eq hf
  exact (h.taking hd m').scheduleAll hp (added_perm (sound_taking h.sound hd) hp)

/-- An advance keeps the books. -/
theorem drains (hfire : OnlySchedules fire) {o : Outcome (Timed ε σ) Unit}
    (hd : Drains fire limit m firings o) (h : Ledger m fired scheduled) (hle : m.now ≤ limit) :
    Ledger o.state (fired ++ firings) (scheduled ++ firings.flatMap Firing.added) := by
  induction hd generalizing fired scheduled with
  | @done m hn =>
    rw [List.append_nil, List.flatMap_nil, List.append_nil]
    exact { h with
      sound := sound_atTime h.sound hn
      past := fun f hf ↦ Nat.le_trans (h.past f hf) hle }
  | stop hd hf =>
    rw [List.flatMap_singleton]
    exact h.fires hfire hd hf
  | @next m m' event rest records firings o hd hf _ ih =>
    have hnow : m'.now ≤ limit := (hfire.clock_eq hf).1 ▸ Nat.le_of_lt hd.2
    have h2 := ih (h.fires hfire hd hf) hnow
    rw [List.append_assoc, List.append_assoc] at h2
    rw [List.flatMap_cons]
    exact h2

end Ledger

/-- **Every history keeps the books.** -/
theorem History.ledger (hfire : OnlySchedules fire) (h : History fire m fired scheduled) :
    Ledger m fired scheduled := by
  induction h with
  | start body => exact .empty body
  | @schedule m fired scheduled _ delay action ih =>
    have hc : (Timed.schedule delay action m).state.clock = m.clock.scheduleAll [(delay, action)] :=
      rfl
    exact ih.scheduleAll hc (List.Perm.refl _)
  | touch _ body ih => exact { ih with }
  | advance _ duration hd ih => exact ih.drains hfire hd (Nat.le_add_right _ _)

/-! ## What an advance does -/

/-- When an action fails, it is the last event that fired; the clock stays at its moment, and
everything that waited behind it still waits. -/
theorem Drains.last_of_error (hfire : OnlySchedules fire) {o : Outcome (Timed ε σ) Unit}
    (hd : Drains fire limit m firings o) {fault : Fault} (he : o.result = .error fault) :
    ∃ f, firings.getLast? = some f ∧ (fire f.event.action f.before).result = .error fault ∧
      f.after = o.state ∧ o.state.now = f.event.target ∧
        ∀ e ∈ f.before.clock.queue, e ∈ o.state.clock.queue := by
  induction hd with
  | done => cases he
  | @stop m m' event rest fault' records hd hf =>
    obtain rfl := Except.error.inj he
    obtain ⟨hnow, plans, hp⟩ := hfire.clock_eq hf
    refine ⟨_, rfl, congrArg Outcome.result hf, rfl, hnow, fun e h ↦ ?_⟩
    show e ∈ m'.clock.queue
    rw [hp]
    exact (Clock.queue_scheduleAll _ plans).mem_iff.2 (List.mem_append_left _ h)
  | @next m m' event rest records firings o _ _ _ ih =>
    obtain ⟨f, hf, h⟩ := ih he
    refine ⟨f, ?_, h⟩
    cases firings with
    | nil => cases hf
    | cons g firings => rwa [List.getLast?_cons_cons]

/-- Every event but the last fires with success. -/
theorem Drains.succeeds_of_dropLast {o : Outcome (Timed ε σ) Unit}
    (hd : Drains fire limit m firings o) :
    ∀ f ∈ firings.dropLast, (fire f.event.action f.before).result = .ok () := by
  induction hd with
  | done => simp
  | stop => simp
  | @next m m' event rest records firings o _ hf _ ih =>
    cases firings with
    | nil => simp
    | cons g firings =>
      intro f h
      rcases List.mem_cons.1 h with rfl | h
      · exact congrArg Outcome.result hf
      · exact ih f h

/-- What fires in a window fires within it, and the time at its end is no earlier. -/
theorem Drains.within (hfire : OnlySchedules fire) {o : Outcome (Timed ε σ) Unit}
    (hd : Drains fire limit m firings o) (hs : m.clock.Sound) (hle : m.now ≤ limit) :
    m.now ≤ o.state.now ∧
      ∀ f ∈ firings, m.now ≤ f.event.target ∧ f.event.target ≤ o.state.now := by
  induction hd with
  | done => exact ⟨hle, fun f hf ↦ absurd hf List.not_mem_nil⟩
  | @stop m m' event rest fault records hd hf =>
    obtain ⟨hnow, -⟩ := hfire.clock_eq hf
    have ht := hs.onTime event hd.mem
    refine ⟨hnow ▸ ht, fun f hf ↦ ?_⟩
    rw [List.mem_singleton.1 hf]
    exact ⟨ht, Nat.le_of_eq hnow.symm⟩
  | @next m m' event rest records firings o hd hf _ ih =>
    obtain ⟨hnow, plans, hp⟩ := hfire.clock_eq hf
    have hs' : m'.clock.Sound := by rw [hp]; exact (sound_taking hs hd).scheduleAll plans
    have ht := hs.onTime event hd.mem
    obtain ⟨h1, h2⟩ := ih hs' (hnow ▸ Nat.le_of_lt hd.2)
    rw [hnow] at h1 h2
    refine ⟨Nat.le_trans ht h1, fun f hf ↦ ?_⟩
    rcases List.mem_cons.1 hf with rfl | hf
    · exact ⟨ht, h1⟩
    · exact ⟨Nat.le_trans ht (h2 f hf).1, (h2 f hf).2⟩

/-- In an advance that succeeds every action does. -/
theorem Drains.succeeds_of_ok {o : Outcome (Timed ε σ) Unit} (hd : Drains fire limit m firings o)
    (hok : o.result = .ok ()) : ∀ f ∈ firings, (fire f.event.action f.before).result = .ok () := by
  induction hd with
  | done => exact fun f hf ↦ absurd hf List.not_mem_nil
  | stop => cases hok
  | next _ hf _ ih =>
    intro f h
    rcases List.mem_cons.1 h with rfl | h
    · exact congrArg Outcome.result hf
    · exact ih hok f h

/-- What an advance by `duration` that fired `firings` and ended with `o` makes of the clock. -/
structure Passes (fire : ε → Exec (Timed ε σ) Unit) (m : Timed ε σ) (duration : Nat)
    (firings : List (Firing ε σ)) (o : Outcome (Timed ε σ) Unit) : Prop where
  outcome : advance fire duration m = o
  /-- The time never goes back, neither over the whole advance nor from one event to the next. -/
  forward : m.now ≤ o.state.now ∧
    ∀ f ∈ firings, m.now ≤ f.event.target ∧ f.event.target ≤ o.state.now
  /-- A success ends at the end of the window, with nothing left that was due in it. -/
  complete : o.result = .ok () → o.state.now = m.now + duration ∧
    (∀ e ∈ o.state.clock.queue, m.now + duration ≤ e.target) ∧
      ∀ f ∈ firings, (fire f.event.action f.before).result = .ok ()
  /-- A failure is that of the last event, which alone is used up by it: the clock stays at its
  moment and what waited behind it still does. -/
  interrupted : ∀ fault, o.result = .error fault → ∃ f, firings.getLast? = some f ∧
    (fire f.event.action f.before).result = .error fault ∧ o.state.now = f.event.target ∧
      (∀ g ∈ firings.dropLast, (fire g.event.action g.before).result = .ok ()) ∧
        ∀ e ∈ f.before.clock.queue, e ∈ o.state.clock.queue

theorem Drains.passes (hfire : OnlySchedules fire) (h : Ledger m fired scheduled)
    {duration : Nat} {o : Outcome (Timed ε σ) Unit}
    (hd : Drains fire (m.now + duration) m firings o) : Passes fire m duration firings o where
  outcome := hd.advance_eq
  forward := hd.within hfire h.sound (Nat.le_add_right _ _)
  complete hok := by
    have hs := (h.drains hfire hd (Nat.le_add_right _ _)).sound.onTime
    have hnow := hd.now_of_ok hok
    exact ⟨hnow, fun e he ↦ hnow ▸ hs e he, hd.succeeds_of_ok hok⟩
  interrupted fault he := by
    obtain ⟨f, hf, hr, -, hnow, hq⟩ := hd.last_of_error hfire he
    exact ⟨f, hf, hr, hnow, hd.succeeds_of_dropLast, hq⟩

/-- **Every event fires once and in order, or still waits.**  After any history of scheduling and
advancing, the events that have fired are in the order of target and number, each fired at its
target, and together with those that wait they are the events ever scheduled, none lost and none
twice.  Any further advance moves the time forward to the end of its window, or to the moment of
the action that failed. -/
theorem History.accounted (hfire : OnlySchedules fire) (h : History fire m fired scheduled) :
    Ledger m fired scheduled ∧
      ∀ (duration : Nat) (firings : List (Firing ε σ)) (o : Outcome (Timed ε σ) Unit),
        Drains fire (m.now + duration) m firings o → Passes fire m duration firings o :=
  ⟨h.ledger hfire, fun _ _ _ hd ↦ hd.passes hfire (h.ledger hfire)⟩

/-! ### A countdown

Action `n + 1` schedules `n` at once, and `0` fails.  Two countdowns that start at the same moment
take turns until the shorter one fails; the longer one then still has an event to fire. -/

/-- Count down to a failure, all at the same moment. -/
def countdown : Nat → Exec (Timed Nat Unit) Unit
  | 0 => Exec.fail .lineOverflow
  | n + 1 => Timed.schedule 0 n

theorem countdown_onlySchedules : OnlySchedules countdown
  | 0, _ => ⟨[], rfl⟩
  | n + 1, _ => ⟨[(0, n)], rfl⟩

/-- Two countdowns after an advance that the first of them stopped. -/
theorem countdown_accounted :
    OnlySchedules countdown ∧ ∃ m fired scheduled, History countdown m fired scheduled ∧
      fired.map (fun f ↦ (f.event.target, f.event.sequence)) = [(3, 0), (3, 1), (3, 2)] ∧
      m.clock.queue.map (fun e ↦ (e.target, e.sequence)) = [(3, 3)] ∧ m.now = 3 ∧
      Ledger m fired scheduled ∧ ∀ duration firings o,
        Drains countdown (m.now + duration) m firings o →
          Passes countdown m duration firings o := by
  have h : History countdown _ _ _ :=
    (((History.start ()).schedule 3 1).schedule 3 2).advance 10
      (.next ⟨rfl, by decide⟩ rfl (.next ⟨rfl, by decide⟩ rfl (.stop ⟨rfl, by decide⟩ rfl)))
  exact ⟨countdown_onlySchedules, _, _, _, h, rfl, rfl, rfl, h.accounted countdown_onlySchedules⟩

end DotMatrix.Timed
