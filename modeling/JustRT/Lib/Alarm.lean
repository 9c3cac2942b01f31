import Mathlib.Data.Nat.Basic

/-!
# Alarms in unbounded time

The reference a software timer is measured against: a clock that counts
ticks in `Nat`, and one alarm that is set for once or for every so many
ticks. `rung` counts how often it goes off while the events of a history
happen; `rung_once` and `rung_every` say how often that is for an alarm
nobody touches.
-/

namespace Alarm

/-- What may happen to an alarm. -/
inductive Event where
  | tick
  | once (delay : Nat)
  | every (period : Nat)
  | rearm
  | cancel
  | reset
  | other
deriving Repr, DecidableEq

/-- The event leaves the alarm as it is set. -/
def Event.Keeps (e : Event) : Prop := e = .tick ∨ e = .other

instance (e : Event) : Decidable e.Keeps := inferInstanceAs (Decidable (_ ∨ _))

/-- The clock, when the alarm is due, and how it was set last: `delay` is `0`
if it never was. Time is a natural number, so an alarm is either due or still
to come. -/
structure State where
  now : Nat
  due : Option Nat
  periodic : Bool
  delay : Nat
deriving Repr, DecidableEq

namespace State

/-- An alarm nobody has set yet. -/
def unset (now : Nat) : State := { now, due := none, periodic := false, delay := 0 }

/-- The alarm goes off at the next tick. -/
def ringing (s : State) : Bool := s.due == some (s.now + 1)

def ticked (s : State) : State :=
  { s with
    now := s.now + 1
    due :=
      if s.ringing then (if s.periodic then some (s.now + 1 + s.delay) else none) else s.due }

def step (s : State) : Event → State
  | .tick => s.ticked
  | .once delay => { s with due := some (s.now + delay), periodic := false, delay }
  | .every period => { s with due := some (s.now + period), periodic := true, delay := period }
  | .rearm => if s.delay = 0 then s else { s with due := some (s.now + s.delay) }
  | .cancel => { s with due := none }
  | .reset => unset s.now
  | .other => s

/-- How an event sets the alarm: periodically or for once, and the delay. -/
def armedBy (s : State) : Event → Option (Bool × Nat)
  | .once delay => some (false, delay)
  | .every period => some (true, period)
  | .rearm => if s.delay = 0 then none else some (s.periodic, s.delay)
  | _ => none

/-- How often the alarm goes off in one event. -/
def rings (s : State) (e : Event) : Nat := if e = .tick ∧ s.ringing then 1 else 0

def run (s : State) (es : List Event) : State := es.foldl step s

/-- How often the alarm goes off during a history. -/
def rung : State → List Event → Nat
  | _, [] => 0
  | s, e :: es => s.rings e + rung (s.step e) es

end State

def ticks (es : List Event) : Nat := es.count .tick

namespace State

variable {s : State} {es : List Event} {e : Event} {d j p : Nat}

@[simp] theorem run_nil (s : State) : s.run [] = s := rfl

@[simp] theorem rung_nil (s : State) : s.rung [] = 0 := rfl

theorem run_append (s : State) (es es' : List Event) : s.run (es ++ es') = (s.run es).run es' :=
  List.foldl_append

theorem rung_append (s : State) (es es' : List Event) :
    s.rung (es ++ es') = s.rung es + (s.run es).rung es' := by
  induction es generalizing s with
  | nil => simp
  | cons e es ih =>
      have hrun : s.run (e :: es) = (s.step e).run es := rfl
      rw [List.cons_append, rung, ih, rung, hrun, Nat.add_assoc]

theorem rung_unset (hdue : s.due = none) (hes : ∀ e ∈ es, e.Keeps) : s.rung es = 0 := by
  induction es generalizing s with
  | nil => rfl
  | cons e es ih =>
      have hsilent : s.ringing = false := by simp [ringing, hdue]
      have hstep : (s.step e).due = none := by
        rcases hes e List.mem_cons_self with rfl | rfl
        · simp [step, ticked, hsilent, hdue]
        · exact hdue
      rw [rung, ih hstep fun e' he' => hes e' (List.mem_cons_of_mem _ he')]
      simp [rings, hsilent]

theorem ringing_iff (hdue : s.due = some (s.now + d)) : s.ringing = true ↔ d = 1 := by
  simp [ringing, hdue]

theorem ticked_due (hdue : s.due = some (s.now + (d + 1))) (hd : d ≠ 0) :
    s.ticked.due = some (s.ticked.now + d) := by
  have hsilent : ¬s.ringing = true := by
    rw [ringing_iff hdue]
    omega
  simp only [ticked, hsilent, if_false, hdue, Bool.false_eq_true]
  congr 1
  omega

/-- An alarm set for once goes off once, when its delay is over. -/
theorem rung_once (hdue : s.due = some (s.now + d)) (hperiodic : s.periodic = false) (hd : d ≠ 0)
    (hes : ∀ e ∈ es, e.Keeps) : s.rung es = if d ≤ ticks es then 1 else 0 := by
  induction es generalizing s d with
  | nil =>
      have hnot : ¬d ≤ ticks [] := by
        rw [ticks, List.count_nil]
        omega
      rw [rung_nil, if_neg hnot]
  | cons e es ih =>
      have hrest : ∀ e' ∈ es, e'.Keeps := fun e' he' => hes e' (List.mem_cons_of_mem _ he')
      rcases hes e List.mem_cons_self with rfl | rfl
      · have hticks : ticks (.tick :: es) = ticks es + 1 := List.count_cons_self
        show s.rings .tick + s.ticked.rung es = _
        by_cases hone : d = 1
        · have hring : s.ringing = true := (ringing_iff hdue).mpr hone
          have hgone : s.ticked.due = none := by simp [ticked, hring, hperiodic]
          rw [rung_unset hgone hrest, hticks, if_pos (by omega)]
          simp [rings, hring]
        · obtain ⟨d, rfl⟩ := Nat.exists_eq_succ_of_ne_zero hd
          have hne : d ≠ 0 := fun h => hone (by rw [h])
          have hsilent : ¬s.ringing = true := by
            rw [ringing_iff hdue]
            omega
          rw [ih (ticked_due hdue hne) hperiodic hne hrest, hticks]
          have hzero : s.rings .tick = 0 := by simp [rings, hsilent]
          rw [hzero, Nat.zero_add]
          exact if_congr (by omega) rfl rfl
      · have hticks : ticks (.other :: es) = ticks es := List.count_cons_of_ne (by decide)
        show s.rings .other + s.rung es = _
        rw [ih hdue hperiodic hd hrest, hticks]
        simp [rings]

/-- An alarm set for every `p` ticks, `j` of them away from going off. -/
theorem rung_every_from (hdue : s.due = some (s.now + j)) (hperiodic : s.periodic = true)
    (hdelay : s.delay = p) (hj : j ≠ 0) (hjp : j ≤ p) (hes : ∀ e ∈ es, e.Keeps) :
    s.rung es = (ticks es + (p - j)) / p := by
  induction es generalizing s j with
  | nil =>
      have hnil : ticks [] = 0 := List.count_nil
      rw [rung_nil, hnil, Nat.zero_add, Nat.div_eq_of_lt (by omega)]
  | cons e es ih =>
      have hrest : ∀ e' ∈ es, e'.Keeps := fun e' he' => hes e' (List.mem_cons_of_mem _ he')
      rcases hes e List.mem_cons_self with rfl | rfl
      · have hticks : ticks (.tick :: es) = ticks es + 1 := List.count_cons_self
        show s.rings .tick + s.ticked.rung es = _
        by_cases hone : j = 1
        · have hring : s.ringing = true := (ringing_iff hdue).mpr hone
          have hnext : s.ticked.due = some (s.ticked.now + p) := by
            simp [ticked, hring, hperiodic, hdelay]
          have hpos : 0 < p := by omega
          have hsum : ticks es + 1 + (p - j) = ticks es + (p - p) + p := by omega
          rw [ih hnext hperiodic hdelay (by omega) (Nat.le_refl p) hrest, hticks, hsum,
            Nat.add_div_right _ hpos]
          simp [rings, hring, Nat.add_comm]
        · obtain ⟨j, rfl⟩ := Nat.exists_eq_succ_of_ne_zero hj
          have hne : j ≠ 0 := fun h => hone (by rw [h])
          have hsilent : ¬s.ringing = true := by
            rw [ringing_iff hdue]
            omega
          have hzero : s.rings .tick = 0 := by simp [rings, hsilent]
          have hsum : ticks es + (p - j) = ticks es + 1 + (p - (j + 1)) := by omega
          rw [ih (ticked_due hdue hne) hperiodic hdelay hne (by omega) hrest, hticks, hzero,
            Nat.zero_add, hsum]
      · have hticks : ticks (.other :: es) = ticks es := List.count_cons_of_ne (by decide)
        show s.rings .other + s.rung es = _
        rw [ih hdue hperiodic hdelay hj hjp hrest, hticks]
        simp [rings]

/-- An alarm set for every `p` ticks goes off at each multiple of `p`. -/
theorem rung_every (hdue : s.due = some (s.now + p)) (hperiodic : s.periodic = true)
    (hdelay : s.delay = p) (hp : p ≠ 0) (hes : ∀ e ∈ es, e.Keeps) : s.rung es = ticks es / p := by
  rw [rung_every_from hdue hperiodic hdelay hp (Nat.le_refl p) hes, Nat.sub_self, Nat.add_zero]

/-- What an event that sets the alarm leaves behind. -/
theorem step_armedBy {b : Bool} (h : s.armedBy e = some (b, d)) :
    (s.step e).due = some ((s.step e).now + d) ∧ (s.step e).periodic = b
      ∧ (s.step e).delay = d := by
  cases e with
  | once delay => cases h; exact ⟨rfl, rfl, rfl⟩
  | every period => cases h; exact ⟨rfl, rfl, rfl⟩
  | rearm =>
      rw [armedBy] at h
      by_cases hzero : s.delay = 0
      · rw [if_pos hzero] at h
        cases h
      · rw [if_neg hzero] at h
        cases h
        simp [step, hzero]
  | _ => cases h

/-- An alarm that is set and then left alone goes off when its delay is
over, and each time it is over again if it is periodic. -/
theorem rung_armedBy {b : Bool} (h : s.armedBy e = some (b, d)) (hd : d ≠ 0)
    (hes : ∀ e ∈ es, e.Keeps) :
    (s.step e).rung es = if b then ticks es / d else if d ≤ ticks es then 1 else 0 := by
  obtain ⟨hdue, hperiodic, hdelay⟩ := step_armedBy h
  cases b with
  | true => exact rung_every hdue hperiodic hdelay hd hes
  | false => exact rung_once hdue hperiodic hd hes

end State

end Alarm
