import JustRT.Discipline
import JustRT.Mutex
import JustRT.Refinement

/-!
# Mutual exclusion, as the tasks see it

A task knows that it has a mutex when its lock has returned 1, and has it until
it calls the unlock that matches. `LockView` reads that off what a task has seen of its calls.
In the kernel the mutex is granted ahead of that return, and given up behind that
call, so what a task believes is no more than what the kernel keeps (`Seen`): no
two tasks believe to have the mutex at once, whatever interrupts and switches
come between their instructions.
-/

namespace JustRT

open Interference Critical

/-! ## What a task believes -/

def Event.createsMutex (m : Ptr) : Event → Bool
  | .call made => (Action.call made).createsMutex m
  | _ => false

def Call.unlocks (m : Ptr) : Call → Bool
  | .mutexUnlock a => a == m
  | _ => false

/-- The call a task is in, and how often it has a mutex by the results of its
calls. This is all a task can know of it: the log is read, not the kernel. -/
structure LockView where
  call : Option Call
  held : Nat

namespace LockView

/-- What the return of `call` with `result` makes of the holds on `m`. -/
def returned (m : Ptr) (held : Nat) (result : UInt32) : Option Call → Nat
  | some (.mutexLock a _) => if a = m ∧ result = 1 then held + 1 else held
  | some (.mutexUnlock a) => if a = m ∧ result = 1 then held - 1 else held
  | _ => held

def see (m : Ptr) (v : LockView) : Event → LockView
  | .call call => { v with call := some call }
  | .output _ => v
  | .result result => { call := none, held := returned m v.held result v.call }

def shows (m : Ptr) (v : LockView) : Option UInt32 → LockView
  | some result => v.see m (.result result)
  | none => v

/-- The call the task is in is not about the mutex. -/
def Elsewhere (m : Ptr) (v : LockView) : Prop :=
  ∀ call, v.call = some call → call.uses ≠ some ⟨.mutex, m⟩

end LockView

def lockView (m : Ptr) (log : List Event) : LockView := log.foldl (LockView.see m) ⟨none, 0⟩

/-- The task is between the return of a lock that has succeeded and the call of
the unlock that matches it: in its critical section on `m`. Locks nest, so an
unlock that has been called and has not returned takes one hold away, and the
task is still in the section by the holds that are left. -/
def InSection (m : Ptr) (log : List Event) : Prop :=
  ((lockView m log).call.any (Call.unlocks m)).toNat < (lockView m log).held

instance (m : Ptr) (log : List Event) : Decidable (InSection m log) :=
  inferInstanceAs (Decidable (_ < _))

namespace LockView

variable {m : Ptr} {v : LockView} {log : List Event}

theorem lockView_append (log log' : List Event) :
    lockView m (log ++ log') = log'.foldl (see m) (lockView m log) := by
  rw [lockView, List.foldl_append]
  rfl

theorem returned_lock (m : Ptr) (held : Nat) (timeout result : UInt32) :
    returned m held result (some (.mutexLock m timeout))
      = if result = 1 then held + 1 else held := by
  simp [returned]

theorem returned_unlock (m : Ptr) (held : Nat) (result : UInt32) :
    returned m held result (some (.mutexUnlock m))
      = if result = 1 then held - 1 else held := by
  simp [returned]

theorem returned_elsewhere (h : v.Elsewhere m) (held : Nat) (result : UInt32) :
    returned m held result v.call = held := by
  cases hcall : v.call with
  | none => rfl
  | some call =>
      have hne := h call hcall
      cases call with
      | mutexLock a _ | mutexUnlock a =>
          have ha : a ≠ m := by
            rintro rfl
            exact hne rfl
          simp [returned, ha]
      | _ => rfl

/-- The results of other calls are nothing to the mutex. -/
theorem Elsewhere.shows (h : v.Elsewhere m) (result : Option UInt32) :
    (v.shows m result).Elsewhere m ∧ (v.shows m result).held = v.held := by
  cases result with
  | none => exact ⟨h, rfl⟩
  | some r =>
      refine ⟨fun call hcall => ?_, returned_elsewhere h v.held r⟩
      cases hcall

theorem foldl_shown (v : LockView) (s : Segment) :
    (shown s).foldl (see m) v = v.shows m s.result := by
  unfold shown
  cases s.output with
  | none =>
      cases s.result with
      | none => rfl
      | some result => rfl
  | some output =>
      cases s.result with
      | none => rfl
      | some result => rfl

/-- Behind its last call a task gains one hold at most ... -/
theorem held_le (h : ∀ call, .call call ∉ log) :
    (log.foldl (see m) v).held ≤ v.held + v.call.isSome.toNat := by
  induction log generalizing v with
  | nil => exact Nat.le_add_right _ _
  | cons e log ih =>
      have hrest := ih (v := v.see m e) fun call hmem => h call (List.mem_cons_of_mem _ hmem)
      rw [List.foldl_cons]
      refine hrest.trans ?_
      cases e with
      | call made => exact absurd List.mem_cons_self (h made)
      | output out => exact Nat.le_refl _
      | result r =>
          change returned m v.held r v.call + 0 ≤ _
          cases hcall : v.call with
          | none => exact Nat.le_refl _
          | some made =>
              change _ ≤ v.held + 1
              unfold returned
              split
              · split <;> omega
              · split <;> omega
              · omega

/-- ... and loses none, unless the call is the unlock, and then one. -/
theorem le_held (h : ∀ call, .call call ∉ log) :
    v.held ≤ (log.foldl (see m) v).held + (v.call.any (Call.unlocks m)).toNat := by
  induction log generalizing v with
  | nil => exact Nat.le_add_right _ _
  | cons e log ih =>
      have hrest := ih (v := v.see m e) fun call hmem => h call (List.mem_cons_of_mem _ hmem)
      rw [List.foldl_cons]
      cases e with
      | call made => exact absurd List.mem_cons_self (h made)
      | output out => exact hrest
      | result r =>
          change returned m v.held r v.call ≤ _ + 0 at hrest
          refine Nat.le_trans ?_ (Nat.add_le_add_right hrest _)
          unfold returned
          split
          · split <;> omega
          · next a heq =>
              by_cases ha : a = m
              · simp only [ha, heq, Option.any_some, Call.unlocks, beq_self_eq_true,
                  Bool.toNat_true]
                split <;> omega
              · rw [if_neg fun hand => ha hand.1]
                exact Nat.le_add_right _ _
          · exact Nat.le_add_right _ _

end LockView

/-! ## What the kernel keeps of it -/

/-- How the kernel keeps what task `i` believes: outside a lock of the mutex the
holds are the same; in a lock the kernel may have granted it already. -/
inductive Seen (m : Ptr) (i : Nat) (c : Cfg) (v : LockView) : Prop where
  | outside : (∀ timeout deadline, (c.pc i).waitCall ≠ some (.mutexLock m timeout deadline)) →
      v.Elsewhere m → c.kernel.holds m i = v.held → Seen m i c v
  | inside {timeout : UInt32} {deadline : TaskWaitDeadline} {handed late : Nat} :
      LockPhase (.mutexLock m timeout deadline) i c handed late →
      v.call = some (.mutexLock m timeout) → c.kernel.holds m i = v.held + handed → Seen m i c v

/-- What task `i` has of the mutex and is granted, it gives up or has behind the
step. -/
def Accounted (m : Ptr) (i : Nat) (x : Transition) : Prop :=
  (x.locks m i).toNat + x.pre.kernel.holds m i = (x.unlocks m i).toNat + x.post.kernel.holds m i

section Steps

variable {m : Ptr} {i : Nat} {c c' : Cfg} {a : Action} {o : Observation} {v : LockView}

theorem Sched.locking (hs : Sched c) (hi : i < c.kernel.taskCount)
    (hon : c.kernel.WaitsAt (mutexPlace m) i) :
    ∃ timeout deadline, (c.pc i).waitCall = some (.mutexLock m timeout deadline) := by
  obtain ⟨w, hwithin⟩ := hs.blocked i hi hon.1
  obtain ⟨-, hobject, hkind⟩ := (hs.waiting i w hwithin).on hon.1
  have hat : w.waitsAt i (mutexPlace m) = true :=
    waitsAt_iff.mpr ⟨hobject.symm.trans hon.2.1, hkind.symm.trans hon.2.2⟩
  obtain ⟨timeout, deadline, rfl⟩ := waitsAt_mutexPlace_iff.mp hat
  exact ⟨timeout, deadline, hwithin.waitCall⟩

/-- A grant is a lock that returns at once, or the kernel's to who waits. -/
theorem locks_eq_false (hacquires : Transition.acquires m i ⟨c, a, o, c'⟩ = false)
    (hnot : ¬c.kernel.WaitsAt (mutexPlace m) i) :
    Transition.locks m i ⟨c, a, o, c'⟩ = false := by
  rw [Transition.locks, hacquires, Bool.false_or]
  exact handsTo_eq_false fun _ => .inr hnot

theorem acquires_other (hi : i ≠ c.current) : Transition.acquires m i ⟨c, a, o, c'⟩ = false := by
  unfold Transition.acquires
  cases a with
  | proceed source =>
      cases c.pc c.current with
      | entered w r =>
          cases w with
          | mutexLock b timeout deadline => simp [hi]
          | _ => rfl
      | _ => rfl
  | _ => rfl

theorem acquires_entered {timeout : UInt32} {deadline : TaskWaitDeadline} {r : Bool}
    {source : Nat → UInt8} (hpc : c.pc c.current = .entered (.mutexLock m timeout deadline) r) :
    Transition.acquires m c.current ⟨c, .proceed source, o, c'⟩ = (o.result == some 1) := by
  simp [Transition.acquires, hpc]

theorem acquires_resumed {w : WaitCall} (hpc : c.pc c.current = .resumed w) :
    Transition.acquires m i ⟨c, a, o, c'⟩ = false := by
  refine acquires_eq_false fun _ _ _ _ _ hentered => ?_
  rw [hpc] at hentered
  cases hentered

theorem unlocks_other (hi : i ≠ c.current) : Transition.unlocks m i ⟨c, a, o, c'⟩ = false := by
  unfold Transition.unlocks
  cases a with
  | call made =>
      cases made with
      | mutexUnlock b => simp [hi]
      | _ => rfl
  | _ => rfl

theorem Sched.not_waiting (hs : Sched c) (hp : c.pending = false) (p : WaitPlace)
    (hpc : ∀ w, c.pc c.current ≠ .yielding w) : ¬c.kernel.WaitsAt p c.current := by
  intro hon
  have hrunning := hs.current_running hp hpc
  rw [hon.1] at hrunning
  cases hrunning

/-- The kernel has granted one lock at most that the task does not know of. -/
theorem Seen.nesting (h : Seen m i c v) :
    (Transition.locks m i ⟨c, a, o, c'⟩).toNat + c.kernel.holds m i ≤ v.held + 1 := by
  have hone : ∀ b : Bool, b.toNat ≤ 1 := Bool.toNat_le
  cases h with
  | outside _ _ hholds =>
      rw [hholds]
      have hle := hone (Transition.locks m i ⟨c, a, o, c'⟩)
      omega
  | inside hphase _ hholds =>
      rw [hholds]
      have hle := hone (Transition.locks m i ⟨c, a, o, c'⟩)
      cases hphase with
      | handed hwithin hb _ =>
          have hacquires : Transition.acquires m i ⟨c, a, o, c'⟩ = false := by
            by_cases hic : i = c.current
            · refine acquires_eq_false fun source timeout deadline r _ hpc => ?_
              rw [← hic] at hpc
              rcases hwithin with hw | hw <;> rw [hpc] at hw <;> cases hw
            · exact acquires_other hic
          rw [locks_eq_false hacquires fun hon => hb hon.1]
          simp
      | entered | waiting | late => omega

theorem LockPhase.seen {timeout : UInt32} {deadline : TaskWaitDeadline} {handed late : Nat}
    (h : LockPhase (.mutexLock m timeout deadline) i c handed late) (hs : Sched c)
    (hi : i < c.kernel.taskCount) (hstep : StepCases c a c' o)
    (hcall : v.call = some (.mutexLock m timeout)) (hholds : c.kernel.holds m i = v.held + handed)
    (hacquires : Transition.acquires m i ⟨c, a, o, c'⟩ = false)
    (hunlocks : Transition.unlocks m i ⟨c, a, o, c'⟩ = false)
    (hnone : Transition.lockResult m i ⟨c, a, o, c'⟩ = none)
    (haccount : Accounted m i ⟨c, a, o, c'⟩) : Seen m i c' v := by
  refine .inside (h.step hs hi hstep hnone) hcall ?_
  rw [Accounted, Transition.locks, hacquires, Bool.false_or, hunlocks] at haccount
  change (Transition.handsTo m i ⟨c, a, o, c'⟩).toNat + c.kernel.holds m i
    = 0 + c'.kernel.holds m i at haccount
  omega

theorem Seen.kept (h : Seen m i c v) (hs : Sched c) (hi : i < c.kernel.taskCount)
    (hstep : StepCases c a c' o) (hpc : c'.pc i = c.pc i)
    (hacquires : Transition.acquires m i ⟨c, a, o, c'⟩ = false)
    (hunlocks : Transition.unlocks m i ⟨c, a, o, c'⟩ = false)
    (hnone : Transition.lockResult m i ⟨c, a, o, c'⟩ = none)
    (haccount : Accounted m i ⟨c, a, o, c'⟩) : Seen m i c' v := by
  cases h with
  | outside hout helsewhere hholds =>
      have hnot : ¬c.kernel.WaitsAt (mutexPlace m) i := by
        intro hon
        obtain ⟨timeout, deadline, hw⟩ := hs.locking hi hon
        exact hout timeout deadline hw
      rw [Accounted, hunlocks, locks_eq_false hacquires hnot] at haccount
      refine .outside (fun timeout deadline => ?_) helsewhere ?_
      · rw [hpc]
        exact hout timeout deadline
      · simpa [hholds] using haccount.symm
  | inside hphase hcall hholds =>
      exact hphase.seen hs hi hstep hcall hholds hacquires hunlocks hnone haccount

theorem ThreadSegment.lock_user {timeout : UInt32} {deadline : TaskWaitDeadline}
    {source : Nat → UInt8} {s : Segment} {result : UInt32}
    (h : ThreadSegment c (.proceed source) s)
    (hpc : (c.pc c.current).waitCall = some (.mutexLock m timeout deadline))
    (hresult : s.result = some result) : s.pc = .user := by
  cases h with
  | entered hentered hproceed =>
      rw [hentered] at hpc
      obtain rfl := Option.some.inj hpc
      obtain rfl := Except.ok.inj hproceed
      generalize jrtMutexLock c.kernel m timeout deadline false = flow at hresult
      obtain ⟨_ | _, k⟩ := flow
      · rfl
      · cases hresult
  | yielding => cases hresult
  | resumed hresumed =>
      rw [hresumed] at hpc
      obtain rfl := Option.some.inj hpc
      rfl
  | requestSwitch => rfl
  | inTime => rfl
  | delayed => rfl

theorem Seen.call {made : Call} {s : Segment} (h : Seen m c.current c v) (hs : Sched c)
    (hseg : ThreadSegment c (.call made) s) (hp : c.pending = false)
    (haccount : Accounted m c.current
      ⟨c, .call made, { result := s.result, output := s.output }, c.after s⟩) :
    Seen m c.current (c.after s) ((v.see m (.call made)).shows m s.result) := by
  have huser : c.pc c.current = .user := by
    cases hseg with
    | call hpc => exact hpc
  have hnot : ¬c.kernel.WaitsAt (mutexPlace m) c.current :=
    hs.not_waiting hp _ fun w => by simp [huser]
  have hheld : c.kernel.holds m c.current = v.held := by
    cases h with
    | outside _ _ hholds => exact hholds
    | inside hphase =>
        exfalso
        cases hphase with
        | entered hpc =>
            rw [huser] at hpc
            cases hpc
        | waiting hw | handed hw | late hw =>
            rcases hw with hw | hw
            · rw [huser] at hw
              cases hw
            · rw [huser] at hw
              cases hw
  rw [Accounted, locks_eq_false (by rfl) hnot, Bool.toNat_false, Nat.zero_add] at haccount
  change c.kernel.holds m c.current = _ at haccount
  by_cases hlock : ∃ timeout, made = .mutexLock m timeout
  · -- The lock is ahead of its section.
    obtain ⟨timeout, rfl⟩ := hlock
    cases hseg with
    | call _ _ henter =>
        obtain rfl := Except.ok.inj henter
        exact .inside (.entered (Sched.after_pc_current _)) rfl hheld
  by_cases hunlock : made = .mutexUnlock m
  · -- The unlock returns in its section.
    subst hunlock
    cases hseg with
    | call _ _ henter =>
        obtain rfl := Except.ok.inj henter
        refine .outside (fun _ _ => ?_) (fun call hcall => ?_) ?_
        · rw [Sched.after_pc_current]
          simp [Segment.ret, Pc.waitCall]
        · cases hcall
        · refine Eq.trans ?_ (LockView.returned_unlock m v.held
            (jrtMutexUnlock c.kernel m false).1).symm
          rw [unlocks_eq rfl, hheld, beq_self_eq_true, Bool.true_and] at haccount
          by_cases hone : (jrtMutexUnlock c.kernel m false).1 = 1
          · rw [hone, beq_self_eq_true, Bool.toNat_true] at haccount
            rw [if_pos hone, haccount, Nat.add_sub_cancel_left]
            rfl
          · rw [beq_eq_false_iff_ne.mpr hone, Bool.toNat_false, Nat.zero_add] at haccount
            rw [if_neg hone, haccount]
  · have huses : made.uses ≠ some ⟨.mutex, m⟩ := by
      intro huses
      cases made with
      | mutexLock a timeout =>
          cases huses
          exact hlock ⟨timeout, rfl⟩
      | mutexUnlock a =>
          cases huses
          exact hunlock rfl
      | _ => cases huses
    have helsewhere : (v.see m (.call made)).Elsewhere m := by
      intro call hcall
      obtain rfl := Option.some.inj hcall
      exact huses
    obtain ⟨helsewhere', hkept⟩ := helsewhere.shows s.result
    refine .outside (fun timeout deadline hw => ?_) helsewhere' ?_
    · rw [Sched.after_pc_current] at hw
      rcases hseg.waitCall hw with hold | hentered
      · rw [huser] at hold
        cases hold
      · exact huses hentered.symm
    · rw [unlocks_eq_false fun heq => hunlock (Action.call.inj heq)] at haccount
      rw [hkept]
      change _ = 0 + (c.after s).kernel.holds m c.current at haccount
      rw [Nat.zero_add, hheld] at haccount
      exact haccount.symm

theorem Seen.proceed {source : Nat → UInt8} {s : Segment} (h : Seen m c.current c v)
    (hs : Sched c) (hseg : ThreadSegment c (.proceed source) s)
    (hstep : StepCases c (.proceed source) (c.after s) { result := s.result, output := s.output })
    (hp : c.pending = false)
    (haccount : Accounted m c.current
      ⟨c, .proceed source, { result := s.result, output := s.output }, c.after s⟩) :
    Seen m c.current (c.after s) (v.shows m s.result) := by
  have hunlocks : Transition.unlocks m c.current
      ⟨c, .proceed source, { result := s.result, output := s.output }, c.after s⟩ = false := rfl
  cases h with
  | outside hout helsewhere hholds =>
      have hnot : ¬c.kernel.WaitsAt (mutexPlace m) c.current := by
        intro hon
        obtain ⟨timeout, deadline, hw⟩ := hs.locking hs.current_lt hon
        exact hout timeout deadline hw
      have hacquires : Transition.acquires m c.current
          ⟨c, .proceed source, { result := s.result, output := s.output }, c.after s⟩ = false :=
        acquires_eq_false fun _ timeout deadline _ _ hpc =>
          hout timeout deadline (by rw [hpc]; rfl)
      obtain ⟨helsewhere', hkept⟩ := helsewhere.shows s.result
      refine .outside (fun timeout deadline hw => ?_) helsewhere' ?_
      · rw [Sched.after_pc_current] at hw
        rcases hseg.waitCall hw with hold | hentered
        · exact hout timeout deadline hold
        · cases hentered
      · rw [Accounted, hunlocks, locks_eq_false hacquires hnot] at haccount
        rw [hkept, ← hholds]
        simpa using haccount.symm
  | @inside timeout deadline handed late hphase hcall hholds =>
      have hpc : (c.pc c.current).waitCall = some (.mutexLock m timeout deadline) := by
        cases hphase with
        | entered hpc =>
            rw [hpc]
            rfl
        | waiting hw | handed hw | late hw => exact hw.waitCall
      cases hresult : s.result with
      | none =>
          have hacquires : Transition.acquires m c.current
              ⟨c, .proceed source, { result := s.result, output := s.output }, c.after s⟩
                = false := by
            rw [hresult]
            unfold Transition.acquires
            cases c.pc c.current with
            | entered w r =>
                cases w with
                | mutexLock => simp
                | _ => rfl
            | _ => rfl
          refine hphase.seen hs hs.current_lt hstep hcall hholds hacquires hunlocks ?_ haccount
          rw [lockResult_eq hpc rfl]
          exact hresult
      | some r =>
          have hlocked : Transition.lockResult m c.current
              ⟨c, .proceed source, { result := s.result, output := s.output }, c.after s⟩
                = some r := by
            rw [lockResult_eq hpc rfl]
            exact hresult
          have hreturns := hphase.returns hs hstep hlocked
          have hnot : ¬c.kernel.WaitsAt (mutexPlace m) c.current := by
            refine hs.not_waiting hp _ fun w hyielding => ?_
            rcases hreturns with ⟨⟨_, _, hentered⟩, -⟩ | ⟨⟨_, hresumed⟩, -⟩
            · rw [hyielding] at hentered
              cases hentered
            · rw [hyielding] at hresumed
              cases hresumed
          refine .outside (fun _ _ => ?_) (fun call hcall' => ?_) ?_
          · rw [Sched.after_pc_current, hseg.lock_user hpc hresult]
            simp [Pc.waitCall]
          · cases hcall'
          · refine Eq.trans ?_ (congrArg (LockView.returned m v.held r) hcall).symm
            rw [LockView.returned_lock]
            rw [Accounted, hunlocks, Transition.locks, (quiet_of_not_waitsAt hnot).1,
              Bool.or_false, hholds, Bool.toNat_false, Nat.zero_add] at haccount
            rw [← haccount]
            rcases hreturns with ⟨⟨w, reserved, hentered⟩, rfl, -⟩ |
              ⟨⟨w, hresumed⟩, ⟨rfl, rfl, -⟩ | ⟨rfl, rfl, -⟩⟩
            · rw [hentered] at hpc
              obtain rfl := Option.some.inj hpc
              rw [acquires_entered hentered, hresult]
              by_cases hone : r = 1
              · simp [hone, Nat.add_comm]
              · simp [hone]
            · rw [acquires_resumed hresumed]
              simp
            · rw [acquires_resumed hresumed]
              simp

theorem Seen.step (h : Seen m i c v) (hs : Sched c) (hi : i < c.kernel.taskCount)
    (hstep : StepCases c a c' o) (haccount : Accounted m i ⟨c, a, o, c'⟩) :
    Seen m i c' ((Transition.events i ⟨c, a, o, c'⟩).foldl (LockView.see m) v) := by
  have hcases := hstep
  cases hstep with
  | @thread a s _ hp hseg =>
      by_cases hic : i = c.current
      · subst hic
        rw [hseg.events, if_pos rfl, List.foldl_append, LockView.foldl_shown]
        cases a with
        | call made => exact h.call hs hseg hp haccount
        | proceed source => exact h.proceed hs hseg hcases hp haccount
        | _ => cases hseg
      · have hnone : Transition.lockResult m i
            ⟨c, a, { result := s.result, output := s.output }, c.after s⟩ = none := by
          rw [Option.eq_none_iff_forall_ne_some]
          exact fun r hresult => hic (lockResult_proceed hresult).1
        rw [hseg.events, if_neg fun heq => hic heq.symm]
        exact h.kept hs hi hcases (Sched.after_pc_of_ne s hic) (acquires_other hic)
          (unlocks_other hic) hnone haccount
  | start | tick | isr | pendsv | store | cycles =>
      rw [Transition.events, ite_self]
      exact h.kept hs hi hcases rfl rfl rfl rfl haccount

theorem createsMutex_eq_false {x : Transition}
    (h : ∀ e ∈ x.events x.pre.current, e.createsMutex m = false) :
    x.action.createsMutex m = false := by
  cases ha : x.action with
  | call made => exact h (.call made) (by simp [Transition.events, ha, Action.calls])
  | _ => rfl

end Steps

/-! ## Runs -/

section Runs

variable {img : Image} {m : Ptr} {i : Nat} {c₁ c : Cfg} {tr : List Transition}

/-- A mutex created before `JRT_KernelInit`, where the first task starts. -/
theorem MutexCreated.start {o : Observation} (h : MutexCreated img m c₁)
    (hstart : JustRT.step c₁ .start = some (c, o)) : MutexCreated img m c := by
  obtain ⟨next, hrecord⟩ := step_mutex (step_cases hstart) m
  refine ⟨h.reachable.step hstart, h.unused.start hstart, ?_⟩
  change _ = (c₁.kernel.mutexes m).withNext next at hrecord
  rw [hrecord, h.mutex]
  rfl

/-- The kernel keeps what its tasks believe, over a whole run. -/
theorem Run.seen (hcreated : MutexCreated img m c₁) (hrun : Run c₁ tr c)
    (honce : ∀ i < c₁.kernel.taskCount, ∀ e ∈ taskLog tr i, e.createsMutex m = false)
    (hdepth : ∀ i < c₁.kernel.taskCount, ∀ log, log <+: taskLog tr i →
      (lockView m log).held + 1 < 2 ^ 32) :
    MutexInv m c ∧ ∀ i < c.kernel.taskCount, Seen m i c (lockView m (taskLog tr i)) := by
  induction hrun with
  | nil =>
      refine ⟨hcreated.inv, fun i hi => .outside ?_ ?_ (hcreated.holds i)⟩
      · intro timeout deadline hw
        have helsewhere := hcreated.unused i _ hw
        rw [waitsAt_mutexPlace_iff.mpr ⟨timeout, deadline, rfl⟩] at helsewhere
        cases helsewhere
      · intro call hcall
        cases hcall
  | @snoc tr c c' a o hrun hstep ih =>
      have hcases := step_cases hstep
      have hs : Sched c := (hcreated.reachable.run hrun).sched
      have hn : c.kernel.taskCount = c₁.kernel.taskCount := hrun.taskCount
      have hold : ∀ i, taskLog tr i <+: taskLog (tr ++ [⟨c, a, o, c'⟩]) i := by
        intro i
        rw [taskLog_snoc]
        exact List.prefix_append _ _
      obtain ⟨hinv, hseen⟩ := ih (fun i hi e hmem => honce i hi e ((hold i).subset hmem))
        fun i hi log hlog => hdepth i hi log (hlog.trans (hold i))
      have hmutex : MutexStep m ⟨c, a, o, c'⟩ := by
        refine mutexStep_of_step hs hcases
          (createsMutex_eq_false (x := ⟨c, a, o, c'⟩) fun e hmem => ?_)
        refine honce c.current (hn ▸ hs.current_lt) e ?_
        rw [taskLog_snoc]
        exact List.mem_append_right _ hmem
      have hnesting : ∀ i < c.kernel.taskCount,
          (Transition.locks m i ⟨c, a, o, c'⟩).toNat + c.kernel.holds m i < 2 ^ 32 :=
        fun i hi => Nat.lt_of_le_of_lt (hseen i hi).nesting (hdepth i (hn ▸ hi) _ (hold i))
      refine ⟨hmutex.inv hs hcases.taskCount hinv hnesting, fun i hi => ?_⟩
      have hlt : i < c.kernel.taskCount := hcases.taskCount ▸ hi
      rw [taskLog_snoc, LockView.lockView_append]
      exact (hseen i hlt).step hs hlt hcases (hmutex.holds hinv hlt (hnesting i hlt))

/-- There is nothing a run shows to who is no task. -/
theorem Run.taskLog_eq_nil (hs : Sched c₁) (hrun : Run c₁ tr c) (hi : c.kernel.taskCount ≤ i) :
    taskLog tr i = [] := by
  induction hrun with
  | nil => rfl
  | @snoc tr c c' a o hrun hstep ih =>
      have hcases := step_cases hstep
      have hs' : Sched c := hrun.induction Sched (fun hs hstep => hs.step hstep) hs
      rw [taskLog_snoc, ih (hcases.taskCount ▸ hi), List.nil_append, Transition.events]
      refine if_neg fun heq => ?_
      have hlt := hs'.current_lt
      change c.current = i at heq
      have hn : c'.kernel.taskCount = c.kernel.taskCount := hcases.taskCount
      omega

/-- A call a segment has been taken for is one the task has made. -/
theorem Critical.Label.Sees.mem {l : Critical.Label} {made seen : List Event} {call : Call}
    (h : l.Sees made seen) (hmem : .call call ∈ made) : .call call ∈ seen := by
  rcases h.cases with ⟨last, rfl⟩ | ⟨owed, rfl, hsilent⟩
  · exact List.mem_append_left _ hmem
  · rcases List.mem_append.mp hmem with hseen | howed
    · exact hseen
    · exact absurd howed (hsilent call)

theorem Critical.Label.Sees.depth {l : Critical.Label} {made seen log : List Event} {n : Nat}
    (h : l.Sees made seen) (hdepth : ∀ log, log <+: seen → (lockView m log).held + 2 < n)
    (hlog : log <+: made) : (lockView m log).held + 1 < n := by
  rcases h.cases with ⟨call, rfl⟩ | ⟨owed, rfl, hsilent⟩
  · have hlt := hdepth log (hlog.trans (List.prefix_append _ _))
    omega
  · rcases List.prefix_or_prefix_of_prefix hlog (List.prefix_append seen owed) with hseen | hahead
    · have hlt := hdepth log hseen
      omega
    · obtain ⟨more, rfl⟩ := hahead
      have hmore : more <+: owed := (List.prefix_append_right_inj seen).mp hlog
      have hle : (lockView m (seen ++ more)).held
          ≤ (lockView m seen).held + (lockView m seen).call.isSome.toNat := by
        rw [LockView.lockView_append]
        exact LockView.held_le fun call hmem => hsilent call (hmore.subset hmem)
      have hlt := hdepth seen (List.prefix_refl _)
      have hone := Bool.toNat_le (lockView m seen).call.isSome
      omega

/-- Who is in its section by what it has seen has the mutex by what the segments
have shown. -/
theorem InSection.held {l : Critical.Label} {made seen : List Event} (h : InSection m seen)
    (hsees : l.Sees made seen) : 0 < (lockView m made).held := by
  rw [InSection] at h
  rcases hsees.cases with ⟨call, rfl⟩ | ⟨owed, rfl, hsilent⟩
  · rw [LockView.lockView_append] at h
    exact Nat.zero_lt_of_lt h
  · have hle := LockView.le_held (m := m) (v := lockView m seen) hsilent
    rw [LockView.lockView_append]
    omega

end Runs

section Core

variable {img : Image} {m : Ptr} {c₀ c₁ : Cfg} {o : Observation} {s : Shared} {x : Mask}
  {counters : SvcCounters} {fuel : Nat} {f : Core}

/-- A mutex created before `JRT_KernelInit` excludes the tasks from each other's
critical sections: on the core, whatever interrupts and switches come between
their instructions, no two tasks are between the return of a lock that has
succeeded and the call of the unlock that matches it. Where interrupts are on,
the task that is there owns the mutex. The nesting is asked to leave room for
two, since the segments may be one lock ahead of what the task has seen. -/
theorem mutual_exclusion (hboot : Boot img c₀) (hstart : step c₀ .start = some (c₁, o))
    (hs : s.kernel = c₁.kernel) (hx : x.primask = false)
    (hnesting : x.gCriticalNesting.toNat + 2 < 2 ^ 32)
    (hrun : Core.Run (.started s x counters fuel) f)
    (hmutex : c₀.kernel.mutexes m = (c₀.kernel.mutexes m).unlocked)
    (honce : ∀ i < c₁.kernel.taskCount, ∀ e ∈ f.log i, e.createsMutex m = false)
    (hdepth : ∀ i < c₁.kernel.taskCount, ∀ log, log <+: f.log i →
      (lockView m log).held + 2 < 2 ^ 32) :
    (∀ i j, InSection m (f.log i) → InSection m (f.log j) → i = j)
      ∧ ∀ i, InSection m (f.log i) → f.mask.primask = false →
          (f.shared.kernel.mutexes m).owner = i := by
  obtain ⟨tr, c, labels, active, h⟩ := hrun.sim hboot hstart hs hx hnesting
  have hcreated : MutexCreated img m c₁ := (MutexCreated.of_boot hboot hmutex).start hstart
  have honce' : ∀ i < c₁.kernel.taskCount, ∀ e ∈ taskLog tr i, e.createsMutex m = false := by
    intro i hi e hmem
    cases e with
    | call made => exact honce i hi _ ((h.log i).mem hmem)
    | output out => rfl
    | result r => rfl
  obtain ⟨-, hseen⟩ := h.run.seen hcreated honce'
    fun i hi log hlog => (h.log i).depth (hdepth i hi) hlog
  have howner : ∀ i, InSection m (f.log i) → (c.kernel.mutexes m).owner = i := by
    intro i hin
    have hheld := hin.held (h.log i)
    have hi : i < c.kernel.taskCount := by
      by_contra hge
      rw [h.run.taskLog_eq_nil hcreated.reachable.sched (Nat.not_lt.mp hge)] at hheld
      cases hheld
    have hholds : (lockView m (taskLog tr i)).held ≤ c.kernel.holds m i := by
      cases hseen i hi with
      | outside _ _ hholds => exact hholds.ge
      | inside _ _ hholds => omega
    by_contra hne
    rw [Kernel.holds, if_neg hne] at hholds
    omega
  refine ⟨fun i j hi hj => (howner i hi).symm.trans (howner j hj), fun i hi hopen => ?_⟩
  rw [(h.unmasked hopen).2]
  exact howner i hi

end Core

/-- The sample system, where a mutex has been created ahead of it. -/
def mutexBoot : Option Cfg :=
  match jrtMutexCreateRecursiveStatic (.zero 0) 16 with
  | .error _ => none
  | .ok k =>
      match jrtKernelInit .sample k (some (.sample [2, 1])) with
      | .ok (.ok, k') => some (bootCfg k')
      | _ => none

theorem mutexBoot_boot {c : Cfg} (h : mutexBoot = some c) : Boot .sample c := by
  unfold mutexBoot at h
  split at h
  · cases h
  · split at h
    · next hinit =>
        cases h
        exact ⟨_, _, _, hinit, rfl⟩
    · cases h

/-- The first task locks the mutex and goes to sleep. The second calls the lock,
is interrupted by a tick and a switch, and waits. -/
def contendedLock : List CoreAction :=
  [.call (.mutexLock 16 0) (fun _ => 0) 1] ++ List.replicate 23 .thread
    ++ [.svc 2 5, .exception (.pendsv (sampleSp 0))] ++ List.replicate 12 .handler
    ++ [.call (.mutexLock 16 9) (fun _ => 0) 1, .exception .sysTick] ++ List.replicate 12 .handler
    ++ [.exception (.pendsv (sampleSp 1))] ++ List.replicate 12 .handler
    ++ List.replicate 33 .thread

theorem mutual_exclusion_sample : ∃ c₁ f, Core.Run (sampleCore c₁) f
    ∧ InSection 16 (f.log 0) ∧ ¬InSection 16 (f.log 1) ∧ (f.log 1).length = 1
    ∧ (f.shared.kernel.mutexes 16).owner = 0 := by
  have hsome : (mutexBoot.bind fun c₀ => (step c₀ .start).bind fun r =>
      ((sampleCore r.1).steps contendedLock).filter fun f =>
        c₀.kernel.mutexes 16 == (c₀.kernel.mutexes 16).unlocked
        && r.1.kernel.taskCount == 4 && !f.mask.primask && (f.log 1).length == 1
        && decide (InSection 16 (f.log 0))
        && (List.range 4).all fun i => (f.log i).all (fun e => !e.createsMutex 16)
          && (f.log i).inits.all fun log => (lockView 16 log).held + 2 < 2 ^ 32).isSome
        = true := by
    decide +kernel
  obtain ⟨f, hbind⟩ := Option.isSome_iff_exists.mp hsome
  obtain ⟨c₀, hboot, hbind⟩ := Option.bind_eq_some_iff.mp hbind
  obtain ⟨⟨c₁, o⟩, hstart, hbind⟩ := Option.bind_eq_some_iff.mp hbind
  obtain ⟨hsteps, hchecks⟩ := Option.filter_eq_some_iff.mp hbind
  simp only [Bool.and_eq_true, decide_eq_true_eq, beq_iff_eq, Bool.not_eq_true', List.all_eq_true,
    List.mem_range, List.mem_inits] at hchecks
  obtain ⟨⟨⟨⟨⟨hmutex, hcount⟩, hopen⟩, hlength⟩, hin⟩, hlogs⟩ := hchecks
  have hrun : Core.Run (sampleCore c₁) f := Core.Run.nil.steps hsteps
  obtain ⟨hexcludes, howner⟩ := mutual_exclusion (mutexBoot_boot hboot) hstart rfl rfl (by decide)
    hrun hmutex (fun i hi => (hlogs i (hcount ▸ hi)).1) fun i hi => (hlogs i (hcount ▸ hi)).2
  refine ⟨c₁, f, hrun, hin, fun hother => ?_, hlength, howner 0 hin hopen⟩
  cases hexcludes 0 1 hin hother

end JustRT
