import Mathlib.Tactic.Ring
import Workflow.Proofs.Watches

/-! Entries with an interval keep to their grid.

The times at which such an entry may fire lie on a grid through the first of them.
Whenever the entry fires it moves on to the first point of the grid that lies behind
the time of the tick, so it does not drift, fires at most once for each point, and
makes up for any number of missed points by one firing: `Watch.interval_keeps_grid`.
The arithmetic is that of times which are no leap seconds.
-/

namespace Workflow

namespace Instant

/-- Nanoseconds since the start of 1970. -/
def age (time : Instant) : Int :=
  time.seconds * nanosPerSecond + time.nanos

variable {a b time : Instant}

theorem nanos_lt (ordinary : time.isLeap = false) : time.nanos < nanosPerSecond :=
  Nat.lt_of_not_le (of_decide_eq_false ordinary)

theorem le_iff_age (first : a.isLeap = false) (second : b.isLeap = false) :
    a.le b = true ↔ a.age ≤ b.age := by
  have := nanos_lt first
  have := nanos_lt second
  simp only [le, age, nanosPerSecond, Bool.or_eq_true, Bool.and_eq_true, decide_eq_true_eq,
    beq_iff_eq] at *
  omega

theorem lt_iff_age (first : a.isLeap = false) (second : b.isLeap = false) :
    a.lt b = true ↔ a.age < b.age := by
  rw [lt, Bool.not_eq_true', ← Bool.not_eq_true, le_iff_age second first, Int.not_le]

theorem addSeconds_eq (ordinary : time.isLeap = false) (seconds : Nat) :
    time.addSeconds seconds = ⟨time.seconds + seconds, time.nanos⟩ := by
  simp [addSeconds, ordinary]

theorem isLeap_addSeconds (ordinary : time.isLeap = false) (seconds : Nat) :
    (time.addSeconds seconds).isLeap = false := by
  rw [addSeconds_eq ordinary]
  exact ordinary

theorem age_addSeconds (ordinary : time.isLeap = false) (seconds : Nat) :
    (time.addSeconds seconds).age = time.age + seconds * nanosPerSecond := by
  rw [addSeconds_eq ordinary, age, age]
  simp only [Int.add_mul]
  omega

theorem addSeconds_add (ordinary : time.isLeap = false) (first second : Nat) :
    (time.addSeconds first).addSeconds second = time.addSeconds (first + second) := by
  rw [addSeconds_eq (isLeap_addSeconds ordinary first), addSeconds_eq ordinary,
    addSeconds_eq ordinary, Int.natCast_add, Int.add_assoc]

/-- The points of a grid are distinct. -/
theorem addSeconds_injective (ordinary : time.isLeap = false) {step first second : Nat}
    (positive : 0 < step)
    (same : time.addSeconds (first * step) = time.addSeconds (second * step)) :
    first = second := by
  rw [addSeconds_eq ordinary, addSeconds_eq ordinary] at same
  have seconds := Int.add_left_cancel (congrArg Instant.seconds same)
  exact Nat.eq_of_mul_eq_mul_right positive (Int.ofNat.inj seconds)

theorem secondsBetween_eq (first : a.isLeap = false) (second : b.isLeap = false) :
    secondsBetween a b = (b.age - a.age).tdiv nanosPerSecond := by
  have nanos : nanosBetween a b = b.age - a.age := by
    simp only [nanosBetween, first, second, age, nanosPerSecond]
    simp
    omega
  rw [secondsBetween, nanos]

end Instant

namespace ScheduleEntry

open Instant

/-- An entry that is late moves on to the point of its grid that comes next after the
present. -/
theorem nextOnGrid_of_due {next now : Instant} {step : Nat} (positive : 0 < step)
    (ordinary : next.isLeap = false) (timely : now.isLeap = false) (due : next.le now = true) :
    ∃ steps, 0 < steps ∧ nextOnGrid next now step = next.addSeconds (steps * step) ∧
      now.lt (next.addSeconds (steps * step)) = true ∧
      (next.addSeconds (steps * step)).le (now.addSeconds step) = true := by
  have late := (le_iff_age ordinary timely).mp due
  obtain ⟨delay, same⟩ := Int.eq_ofNat_of_zero_le (Int.sub_nonneg.mpr late)
  have seconds : (secondsBetween next now).toNat = delay / nanosPerSecond := by
    rw [secondsBetween_eq ordinary timely, same, ← Int.ofNat_tdiv, Int.toNat_natCast]
  have whole := Nat.div_add_mod delay (nanosPerSecond * step)
  have part : delay % (nanosPerSecond * step) < nanosPerSecond * step :=
    Nat.mod_lt _ (Nat.mul_pos (by decide) positive)
  -- Whole seconds and whole steps are rounded one after the other, which comes to the same.
  generalize points : delay / (nanosPerSecond * step) = missed at whole
  have distance : (((missed + 1) * step : Nat) : Int) * nanosPerSecond =
      (nanosPerSecond * step * missed + nanosPerSecond * step : Nat) := by
    push_cast
    ring
  have period : (step : Int) * nanosPerSecond = (nanosPerSecond * step : Nat) := by
    push_cast
    ring
  refine ⟨missed + 1, Nat.succ_pos _, ?_, ?_, ?_⟩
  · rw [nextOnGrid, if_pos due, seconds, Nat.div_div_eq_div_mul, points]
  · rw [lt_iff_age timely (isLeap_addSeconds ordinary _), age_addSeconds ordinary, distance]
    omega
  · rw [le_iff_age (isLeap_addSeconds ordinary _) (isLeap_addSeconds timely _),
      age_addSeconds ordinary, age_addSeconds timely, distance, period]
    omega

/-- The entry fires every so many minutes, next at the point of its grid with a number. -/
structure OnGrid (entry : ScheduleEntry) (minutes : Nat) (first : Instant) (slot : Nat) :
    Prop where
  spec : ∃ startAt, entry.spec = .interval minutes startAt
  next : entry.nextRun = some (first.addSeconds (slot * (minutes * 60)))

theorem OnGrid.isDue_iff {entry : ScheduleEntry} {minutes slot : Nat} {first : Instant}
    (onGrid : entry.OnGrid minutes first slot) (now : Instant) :
    entry.isDue now = true ↔
      entry.enabled = true ∧ (first.addSeconds (slot * (minutes * 60))).le now = true := by
  simp [ScheduleEntry.isDue_iff, onGrid.next]

theorem OnGrid.advance {entry : ScheduleEntry} {minutes slot : Nat} {first now : Instant}
    (onGrid : entry.OnGrid minutes first slot) (positive : 0 < minutes)
    (ordinary : first.isLeap = false) (timely : now.isLeap = false)
    (due : (first.addSeconds (slot * (minutes * 60))).le now = true) :
    ∃ later, slot < later ∧ (entry.advance now).OnGrid minutes first later ∧
      now.lt (first.addSeconds (later * (minutes * 60))) = true ∧
      (first.addSeconds (later * (minutes * 60))).le (now.addSeconds (minutes * 60)) = true := by
  obtain ⟨steps, onward, same, past, near⟩ :=
    nextOnGrid_of_due (by omega : 0 < minutes * 60)
      (isLeap_addSeconds ordinary (slot * (minutes * 60))) timely due
  rw [addSeconds_add ordinary, ← Nat.add_mul] at same past near
  obtain ⟨startAt, spec⟩ := onGrid.spec
  refine ⟨slot + steps, by omega, ⟨⟨startAt, (advance_spec entry now).trans spec⟩, ?_⟩, past, near⟩
  simp [ScheduleEntry.advance, spec, onGrid.next, Nat.max_eq_left positive, same]

end ScheduleEntry

namespace Scheduler

/-- The entries with an id. -/
def own (scheduler : Scheduler) (id : Uuid) : List ScheduleEntry :=
  scheduler.entries.filter fun entry => entry.id = id

theorem own_add {entry : ScheduleEntry} {id : Uuid} (different : entry.id ≠ id)
    (scheduler : Scheduler) : (scheduler.add entry).own id = scheduler.own id := by
  simp [own, add, different]

theorem own_remove? {other id : Uuid} (different : other ≠ id) (scheduler : Scheduler) :
    ((scheduler.remove? other).elim scheduler (·.2)).own id = scheduler.own id := by
  have erased (entries : List ScheduleEntry) :
      (entries.eraseP fun entry => entry.id = other).filter (fun entry => entry.id = id) =
        entries.filter fun entry => entry.id = id := by
    induction entries with
    | nil => rfl
    | cons entry rest ih =>
        by_cases same : entry.id = other
        · simp [same, different]
        · simp [List.filter_cons, same, ih]
  unfold remove?
  cases scheduler.entry? other with
  | none => rfl
  | some entry => exact erased scheduler.entries

theorem own_setEnabled (other id : Uuid) (enabled : Bool) (scheduler : Scheduler) :
    ((scheduler.setEnabled other enabled).toOption.getD scheduler).own id =
      if other = id then switch id enabled (scheduler.own id) else scheduler.own id := by
  have switched (entries : List ScheduleEntry) :
      (switch other enabled entries).filter (fun entry => entry.id = id) =
        if other = id then switch id enabled (entries.filter fun entry => entry.id = id)
        else entries.filter fun entry => entry.id = id := by
    induction entries with
    | nil => simp [switch]
    | cons entry rest ih =>
        by_cases same : entry.id = other
        · rw [switch, if_pos same]
          by_cases equal : other = id <;> simp [same, equal, switch]
        · rw [switch, if_neg same, List.filter_cons, List.filter_cons, ih]
          by_cases equal : other = id
          · subst equal
            simp [same]
          · simp [equal]
  rw [own, setEnabled_entries, switched]
  rfl

/-- A look keeps to each entry by itself. -/
theorem own_look (scheduler : Scheduler) (engine : Engine) (now : Instant) (station : Station)
    (id : Uuid) :
    (scheduler.look engine now station).1.own id = (scheduler.own id).map (·.afterLook now) ∧
      ((scheduler.look engine now station).2.2.filter fun firing => firing.entry.id = id).map
        (·.entry) = (scheduler.own id).filter (·.isDue now) := by
  have looks := fireDue_looks engine now station scheduler.entries
  constructor
  · have left : (scheduler.look engine now station).1.entries =
        scheduler.entries.map (·.afterLook now) := looks.left
    simp only [own, left, List.filter_map, Function.comp_def, ScheduleEntry.afterLook_id]
  · have due := congrArg (List.filter fun entry => entry.id = id) looks.due
    rw [List.filter_map, List.filter_filter] at due
    rw [own, List.filter_filter]
    simp only [Bool.and_comm] at due ⊢
    exact due

end Scheduler

namespace Watch

namespace Act

/-- The act adds and removes no entry with the id. -/
def Spares (id : Uuid) : Act → Prop
  | .add entry => entry.id ≠ id
  | .remove other => other ≠ id
  | .setEnabled _ _ | .tick _ => True

/-- What an act that spares an entry leaves of it. -/
def leaves (entry : ScheduleEntry) : Act → ScheduleEntry
  | .setEnabled id enabled => if id = entry.id then { entry with enabled } else entry
  | .tick now => entry.afterLook now
  | .add _ | .remove _ => entry

/-- The act is a tick at which the entry is due. -/
def fires (entry : ScheduleEntry) : Act → Bool
  | .tick now => entry.isDue now
  | .add _ | .remove _ | .setEnabled _ _ => false

theorem leaves_id (act : Act) (entry : ScheduleEntry) : (act.leaves entry).id = entry.id := by
  cases act with
  | add | remove => rfl
  | setEnabled id enabled =>
      rw [leaves]
      split <;> rfl
  | tick now => exact entry.afterLook_id now

/-- Only ticks at which it is due change when an entry fires next. -/
theorem leaves_of_not_fires (act : Act) {entry : ScheduleEntry} (quiet : ¬ act.fires entry = true) :
    (act.leaves entry).spec = entry.spec ∧ (act.leaves entry).nextRun = entry.nextRun := by
  cases act with
  | add | remove => exact ⟨rfl, rfl⟩
  | setEnabled id enabled =>
      rw [leaves]
      split <;> exact ⟨rfl, rfl⟩
  | tick now =>
      have same : (Act.tick now).leaves entry = entry := if_neg quiet
      exact ⟨by rw [same], by rw [same]⟩

end Act

variable {engine : Engine} {watch : Watch} {entry : ScheduleEntry} {act : Act}

/-- An entry is by itself under its id while acts spare it, and fires when it is due. -/
theorem perform_own (engine : Engine) (alone : watch.scheduler.own entry.id = [entry])
    (spared : act.Spares entry.id) :
    (watch.perform engine act).1.scheduler.own entry.id = [act.leaves entry] ∧
      ((watch.perform engine act).2.filter fun firing => firing.entry.id = entry.id).map
        (·.entry) = if act.fires entry then [entry] else [] := by
  cases act with
  | add other => exact ⟨(Scheduler.own_add spared _).trans alone, rfl⟩
  | remove other => exact ⟨(Scheduler.own_remove? spared _).trans alone, rfl⟩
  | setEnabled other enabled =>
      refine ⟨(Scheduler.own_setEnabled other entry.id enabled _).trans ?_, rfl⟩
      rw [alone, Act.leaves]
      split <;> simp [Scheduler.switch]
  | tick now =>
      obtain ⟨left, fired⟩ :=
        watch.scheduler.own_look engine now watch.station entry.id
      rw [alone] at left fired
      rw [List.filter_cons, List.filter_nil] at fired
      exact ⟨left, fired⟩

/-- How an entry with a grid fares in a turn, from one point of the grid to another: its next
time never falls back, it fires just at the ticks at which it is due, and having fired it
waits for the first point behind the tick. -/
structure Turn.KeepsGrid (turn : Turn) (id : Uuid) (first : Instant) (step : Nat)
    (before after : ScheduleEntry) (slot later : Nat) : Prop where
  held : turn.before.scheduler.own id = [before]
  left : turn.after.scheduler.own id = [after]
  next : before.nextRun = some (first.addSeconds (slot * step))
  onward : after.nextRun = some (first.addSeconds (later * step))
  grows : (first.addSeconds (slot * step)).le (first.addSeconds (later * step)) = true
  fires : ∀ now, turn.act = .tick now →
    (turn.fired.filter fun firing => firing.entry.id = id).map (·.entry) =
      if before.enabled = true ∧ (first.addSeconds (slot * step)).le now = true then [before]
      else []
  rests : (∀ now, turn.act ≠ .tick now) → turn.fired = []
  past : ∀ now, turn.act = .tick now → before.enabled = true →
    (first.addSeconds (slot * step)).le now = true →
      now.lt (first.addSeconds (later * step)) = true ∧
      (first.addSeconds (later * step)).le (now.addSeconds step) = true

variable {minutes slot : Nat} {first : Instant}

/-- What a turn does to an entry with a grid. -/
theorem turn_keepsGrid (engine : Engine) (alone : watch.scheduler.own entry.id = [entry])
    (spared : act.Spares entry.id) (onGrid : entry.OnGrid minutes first slot)
    (positive : 0 < minutes) (ordinary : first.isLeap = false)
    (timely : ∀ now, act = .tick now → now.isLeap = false) :
    ∃ later, (act.leaves entry).OnGrid minutes first later ∧
      (slot ≤ later ∧ (act.fires entry = true → slot < later)) ∧
      (watch.turn engine act).KeepsGrid entry.id first (minutes * 60) entry (act.leaves entry) slot
        later := by
  obtain ⟨left, fired⟩ := perform_own engine alone spared
  have grows {later : Nat} (onward : slot ≤ later) :
      (first.addSeconds (slot * (minutes * 60))).le (first.addSeconds (later * (minutes * 60))) =
        true := by
    rw [Instant.le_iff_age (Instant.isLeap_addSeconds ordinary _)
      (Instant.isLeap_addSeconds ordinary _), Instant.age_addSeconds ordinary,
      Instant.age_addSeconds ordinary]
    have steps := Nat.mul_le_mul_right (minutes * 60) onward
    simp only [Instant.nanosPerSecond]
    omega
  by_cases due : act.fires entry = true
  · cases act with
    | tick now =>
        obtain ⟨later, onward, moved, past, near⟩ :=
          onGrid.advance positive ordinary (timely now rfl) ((onGrid.isDue_iff now).mp due).2
        have leaves : (Act.tick now).leaves entry = entry.advance now := if_pos due
        refine ⟨later, leaves ▸ moved, ⟨onward.le, fun _ => onward⟩, ?_⟩
        exact
          { held := alone
            left := left
            next := onGrid.next
            onward := leaves ▸ moved.next
            grows := grows onward.le
            fires := by
              rintro _ ⟨⟩
              rw [if_pos ((onGrid.isDue_iff now).mp due)]
              exact fired.trans (if_pos due)
            rests := fun quiet => absurd rfl (quiet now)
            past := by
              rintro _ ⟨⟩ _ _
              exact ⟨past, near⟩ }
    | add | remove | setEnabled => contradiction
  · -- Whatever else the act is, the entry stays at its point of the grid.
    obtain ⟨spec, next⟩ := act.leaves_of_not_fires due
    have kept : (act.leaves entry).OnGrid minutes first slot :=
      ⟨spec ▸ onGrid.spec, next.trans onGrid.next⟩
    refine ⟨slot, kept, ⟨Nat.le_refl _, fun fires => absurd fires due⟩, ?_⟩
    exact
      { held := alone
        left := left
        next := onGrid.next
        onward := kept.next
        grows := grows (Nat.le_refl _)
        fires := by
          rintro now ticked
          obtain rfl : act = .tick now := ticked
          rw [if_neg fun given => due ((onGrid.isDue_iff now).mpr given)]
          exact fired.trans (if_neg due)
        rests := by
          intro quiet
          cases act with
          | add | remove | setEnabled => rfl
          | tick now => exact absurd rfl (quiet now)
        past := by
          rintro now ticked enabled late
          obtain rfl : act = .tick now := ticked
          exact absurd ((onGrid.isDue_iff now).mpr ⟨enabled, late⟩) due }

/-- The points of the grid for which an entry fires come one after another. -/
theorem firings_slots (engine : Engine) {acts : List Act}
    (alone : watch.scheduler.own entry.id = [entry])
    (spared : ∀ act ∈ acts, act.Spares entry.id) (onGrid : entry.OnGrid minutes first slot)
    (positive : 0 < minutes) (ordinary : first.isLeap = false)
    (timely : ∀ now, .tick now ∈ acts → now.isLeap = false) :
    (∀ turn ∈ watch.turns engine acts, ∃ before after slot later,
      turn.KeepsGrid entry.id first (minutes * 60) before after slot later) ∧
    ∃ slots : List Nat, slots.Pairwise (· < ·) ∧ (∀ later ∈ slots, slot ≤ later) ∧
      (watch.firings engine acts entry.id).map (·.entry.nextRun) =
        slots.map fun later => some (first.addSeconds (later * (minutes * 60))) := by
  induction acts generalizing watch entry slot with
  | nil => exact ⟨by simp, [], .nil, by simp, rfl⟩
  | cons act rest ih =>
      obtain ⟨here, others⟩ := List.forall_mem_cons.mp spared
      obtain ⟨later, moved, ⟨onward, passed⟩, keeps⟩ := turn_keepsGrid engine alone here onGrid
        positive ordinary fun now same => timely now (same ▸ List.mem_cons_self)
      obtain ⟨left, fired⟩ := perform_own engine alone here
      have id : (act.leaves entry).id = entry.id := act.leaves_id entry
      rw [← id] at left others
      obtain ⟨turns, slots, increasing, least, same⟩ := ih left others moved
        fun now member => timely now (List.mem_cons_of_mem _ member)
      rw [id] at turns same
      refine ⟨List.forall_mem_cons.mpr ⟨⟨_, _, _, _, keeps⟩, turns⟩, ?_⟩
      have first := congrArg (List.map (·.nextRun)) fired
      rw [List.map_map] at first
      rw [firings_cons, List.map_append, same]
      -- A firing takes the present point and goes on to a later one, so no later one repeats it.
      by_cases due : act.fires entry = true
      · rw [if_pos due] at first
        refine ⟨slot :: slots, List.pairwise_cons.mpr ⟨?_, increasing⟩, ?_, ?_⟩
        · exact fun other member => Nat.lt_of_lt_of_le (passed due) (least other member)
        · exact List.forall_mem_cons.mpr ⟨Nat.le_refl _, fun other member =>
            Nat.le_trans onward (least other member)⟩
        · rw [List.map_cons, ← onGrid.next]
          exact congrArg (· ++ _) first
      · rw [if_neg due] at first
        refine ⟨slots, increasing, fun other member => Nat.le_trans onward (least other member), ?_⟩
        exact congrArg (· ++ _) first

/-- An entry with an interval of a minute or more keeps to its grid, whatever the ticks and
switches, as long as no leap seconds are involved.  No point of the grid is fired twice. -/
theorem interval_keeps_grid (engine : Engine) {acts : List Act} {startAt : Option Instant}
    (alone : watch.scheduler.own entry.id = [entry])
    (spared : ∀ act ∈ acts, act.Spares entry.id)
    (interval : entry.spec = .interval minutes startAt) (positive : 1 ≤ minutes)
    (next : entry.nextRun = some first) (ordinary : first.isLeap = false)
    (timely : ∀ now, .tick now ∈ acts → now.isLeap = false) :
    (∀ turn ∈ watch.turns engine acts, ∃ before after slot later,
      turn.KeepsGrid entry.id first (minutes * 60) before after slot later) ∧
    ∀ slot : Nat, ((watch.firings engine acts entry.id).filter fun firing =>
      firing.entry.nextRun = some (first.addSeconds (slot * (minutes * 60)))).length ≤ 1 := by
  have onGrid : entry.OnGrid minutes first 0 := by
    refine ⟨⟨startAt, interval⟩, ?_⟩
    rw [next, Nat.zero_mul, Instant.addSeconds_eq ordinary]
    simp
  obtain ⟨turns, slots, increasing, _, same⟩ :=
    firings_slots engine alone spared onGrid positive ordinary timely
  refine ⟨turns, fun slot => ?_⟩
  have distinct : ((watch.firings engine acts entry.id).map (·.entry.nextRun)).Nodup := by
    rw [same]
    refine List.Nodup.map (fun slot other equal => ?_) increasing.nodup
    exact Instant.addSeconds_injective ordinary (by omega) (Option.some.inj equal)
  have single := List.nodup_iff_count_le_one.mp distinct
    (some (first.addSeconds (slot * (minutes * 60))))
  rw [List.count, List.countP_map, List.countP_eq_length_filter] at single
  simpa only [Function.comp_def, beq_eq_decide] using single

/-- An entry that fires every other minute, from the middle of a second on. -/
def chime : ScheduleEntry :=
  ⟨.random 3, .random 0, .interval 2 (some ⟨60, 500⟩), true, none, some ⟨60, 500⟩⟩

def chiming : Watch :=
  ⟨⟨[alarm, chime]⟩, alarmed.station⟩

/-- Ticks that go back in time, one just at a point of the grid, and one while the entry is
switched off. -/
def strokes : List Act :=
  [ .tick ⟨59, 0⟩, .tick ⟨300, 500⟩, .tick ⟨200, 0⟩, .setEnabled chime.id false, .tick ⟨900, 0⟩,
    .setEnabled chime.id true, .tick ⟨901, 0⟩]

theorem strokes_keep_grid :
    ScheduleEntry.new (.random 3) (.random 0) (.interval 2 (some ⟨60, 500⟩)) ⟨7, 1⟩ = .ok chime ∧
    (chiming.firings idleEngine strokes chime.id).map (·.entry.nextRun) =
      [some ⟨60, 500⟩, some ⟨420, 500⟩] ∧
    (∀ turn ∈ chiming.turns idleEngine strokes, ∃ before after slot later,
      turn.KeepsGrid chime.id ⟨60, 500⟩ (2 * 60) before after slot later) ∧
    ∀ slot : Nat, ((chiming.firings idleEngine strokes chime.id).filter fun firing =>
      firing.entry.nextRun =
        some ((⟨60, 500⟩ : Instant).addSeconds (slot * (2 * 60)))).length ≤ 1 := by
  have alone : chiming.scheduler.own chime.id = [chime] := by decide +kernel
  have spared : ∀ act ∈ strokes, act.Spares chime.id := by
    simp [strokes, Act.Spares]
  have timely : ∀ now, .tick now ∈ strokes → now.isLeap = false := by
    intro now member
    simp only [strokes, List.mem_cons, Act.tick.injEq, reduceCtorEq, List.not_mem_nil, or_false,
      false_or] at member
    rcases member with rfl | rfl | rfl | rfl | rfl <;> rfl
  have fired : (chiming.firings idleEngine strokes chime.id).map (·.entry.nextRun) =
      [some ⟨60, 500⟩, some ⟨420, 500⟩] := by
    decide +kernel
  exact ⟨rfl, fired,
    interval_keeps_grid idleEngine alone spared rfl (by decide) rfl rfl timely⟩

end Watch

end Workflow
