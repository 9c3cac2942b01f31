import JustRT.CallSegments
import JustRT.Scheduler

/-!
# The running system, down to the instruction

Every run of the core of `JustRT.Core` is a run of the system of
`JustRT.System`: wherever interrupts are on, the kernel is the one the segments
leave, and every task has seen of its calls what their segments show.

A task that moves takes segments where a critical section of its code ends, and
one where its code leaves the core. A handler takes its segment where its
section ends; what it is interrupted by has come in before, or comes in after.
A request that came in between the entry of `PendSV` and its section is made
again behind it, by a notification that changes nothing.
-/

namespace JustRT

open Interference Critical

/-! ## What a task sees -/

def Action.calls : Action → List Event
  | .call made => [.call made]
  | _ => []

def Transition.events (i : Nat) (t : Transition) : List Event :=
  if t.pre.current = i then
    match t.action with
    | .call _ | .proceed _ =>
        t.action.calls ++ (t.observation.output.toList.map .output
          ++ t.observation.result.toList.map .result)
    | _ => []
  else []

def taskLog (tr : List Transition) (i : Nat) : List Event := tr.flatMap (Transition.events i)

theorem taskLog_snoc (tr : List Transition) (t : Transition) (i : Nat) :
    taskLog (tr ++ [t]) i = taskLog tr i ++ t.events i := by
  simp [taskLog]

namespace Critical.Label

/-- The call a task has made that no segment stands for yet. -/
def calls (l : Label) : List Event := l.todo.toList.map .call

/-- Where the segments have shown `made` and the task has seen `seen`, the label
says what is between them: a call that no segment stands for, or what the code
has not returned yet. -/
structure Sees (l : Label) (made seen : List Event) : Prop where
  log : made ++ l.calls = seen ++ l.owed
  silent : ∀ call, .call call ∉ l.owed

variable {l : Label} {made seen : List Event}

theorem not_mem_shown (s : Segment) (call : Call) : .call call ∉ shown s := by
  simp [shown]

/-- A task in its own code makes a call ... -/
theorem Sees.call (h : Sees ⟨none, .user, []⟩ made seen) (call : Call) :
    Sees ⟨some call, .user, []⟩ made (seen ++ [.call call]) where
  log := by
    have hlog : made = seen := by simpa [calls] using h.log
    simp [calls, hlog]
  silent := h.silent

/-- ... whose first segment is taken, ... -/
theorem Sees.enter {call : Call} (h : Sees ⟨some call, .user, []⟩ made seen) (s : Segment) :
    Sees ⟨none, s.pc, shown s⟩ (made ++ .call call :: shown s) seen where
  log := by
    have hlog : made ++ [.call call] = seen := by simpa [calls] using h.log
    simp [calls, ← hlog]
  silent := not_mem_shown s

/-- ... and the others ... -/
theorem Sees.proceed (h : l.Sees made seen) (htodo : l.todo = none) (s : Segment) :
    Sees ⟨none, s.pc, l.owed ++ shown s⟩ (made ++ shown s) seen where
  log := by
    have hlog : made = seen ++ l.owed := by simpa [calls, htodo] using h.log
    simp [calls, hlog]
  silent call hmem := by
    rcases List.mem_append.mp hmem with howed | hshown
    · exact h.silent call howed
    · exact not_mem_shown s call hshown

/-- ... until it returns. -/
theorem Sees.returns {events : List Event} (h : Sees ⟨none, .user, events⟩ made seen) :
    Sees ⟨none, .user, []⟩ made (seen ++ events) where
  log := by simpa [calls] using h.log
  silent call hmem := by cases hmem

/-- The call is ahead of its segments, or the segments are ahead of what the
task has seen. -/
theorem Sees.cases (h : l.Sees made seen) : (∃ call, seen = made ++ [.call call])
    ∨ ∃ owed, made = seen ++ owed ∧ ∀ call, .call call ∉ owed := by
  obtain ⟨hlog, hsilent⟩ := h
  unfold calls at hlog
  cases htodo : l.todo with
  | none =>
      rw [htodo, Option.toList_none, List.map_nil, List.append_nil] at hlog
      exact .inr ⟨l.owed, hlog, hsilent⟩
  | some call =>
      rw [htodo] at hlog
      -- Nothing is owed: it would end with the call.
      rcases List.eq_nil_or_concat l.owed with howed | ⟨owed, e, howed⟩
      · rw [howed, List.append_nil] at hlog
        exact .inl ⟨call, hlog.symm⟩
      · rw [howed, List.concat_eq_append, ← List.append_assoc] at hlog
        have hlast : Event.call call = e := by
          simpa using (List.append_inj' hlog rfl).2
        refine absurd ?_ (hsilent call)
        rw [howed, hlast]
        simp

end Critical.Label

def Departure.kernel (k : Kernel) : Departure → Kernel
  | .jrtTaskDelay ticks => sleepCurrent k ticks
  | _ => k

/-! ## Segments as steps -/

section Steps

variable {c c' : Cfg} {a : Action} {o : Observation} {s : Segment}

theorem ThreadSegment.step (h : ThreadSegment c a s) (hstarted : c.kernel.kernelStarted = true)
    (hpending : c.pending = false) :
    JustRT.step c a = some (c.after s, { result := s.result, output := s.output }) := by
  have hruns : c.threadRuns = true := threadRuns_iff.mpr ⟨hstarted, hpending⟩
  cases h with
  | call hpc hservice henter =>
      rw [JustRT.step, hruns, mayCall_iff.mpr ⟨hpc, hservice⟩, henter]
      rfl
  | entered hpc hproceed =>
      rw [JustRT.step, if_pos hruns, hpc, proceed, hproceed]
      rfl
  | yielding hpc =>
      rw [JustRT.step, if_pos hruns, hpc]
      rfl
  | resumed hpc =>
      rw [JustRT.step, if_pos hruns, hpc]
      rfl
  | requestSwitch hpc =>
      rw [JustRT.step, if_pos hruns, hpc]
      rfl
  | inTime hpc hdue =>
      rw [JustRT.step, if_pos hruns, hpc, proceed, if_pos hdue]
      rfl
  | delayed hpc hdue =>
      rw [JustRT.step, if_pos hruns, hpc, proceed, if_neg (by simp [hdue])]
      rfl

theorem ThreadSegment.events (h : ThreadSegment c a s) (i : Nat) :
    Transition.events i ⟨c, a, { result := s.result, output := s.output }, c'⟩
      = if c.current = i then a.calls ++ shown s else [] := by
  cases h with
  | call | entered | yielding | resumed | requestSwitch | inTime | delayed => rfl

/-- Once started, the kernel stays so, and the timer service keeps its index. -/
theorem StepCases.lasting (h : StepCases c a c' o) (hstarted : c.kernel.kernelStarted = true) :
    c'.kernel.kernelStarted = true
      ∧ c'.kernel.timerServiceTaskIndex = c.kernel.timerServiceTaskIndex := by
  cases h with
  | start hnot => rw [hstarted] at hnot; cases hnot
  | thread _ _ hseg =>
      obtain ⟨-, -, -, -, -, hs, hservice, -⟩ := hseg.frame
      exact ⟨hs.trans hstarted, hservice⟩
  | tick _ hk =>
      obtain ⟨-, -, -, -, -, hs, hservice, -⟩ := tickTasks_frame hk
      exact ⟨hs.trans hstarted, hservice⟩
  | isr =>
      obtain ⟨-, -, -, -, -, hs, hservice, -⟩ := isrCall_frame c.kernel _
      exact ⟨hs.trans hstarted, hservice⟩
  | pendsv _ _ hk =>
      obtain ⟨-, -, ⟨-, -, -, hs, hservice, -⟩, -⟩ := pendsvSwitch_cases hk
      exact ⟨hs.trans hstarted, hservice⟩
  | store => exact ⟨hstarted, rfl⟩
  | cycles => exact ⟨hstarted, rfl⟩

theorem Run.lasting {tr : List Transition} (h : Run c tr c')
    (hstarted : c.kernel.kernelStarted = true) :
    c'.kernel.kernelStarted = true
      ∧ c'.kernel.timerServiceTaskIndex = c.kernel.timerServiceTaskIndex :=
  h.induction
    (fun c' => c'.kernel.kernelStarted = true
      ∧ c'.kernel.timerServiceTaskIndex = c.kernel.timerServiceTaskIndex)
    (fun hk hstep =>
      have hnext := hstep.lasting hk.1
      ⟨hnext.1, hnext.2.trans hk.2⟩) ⟨hstarted, rfl⟩

theorem setTask_same (k : Kernel) (i : Nat) : k.setTask i (k.tasks i) = k := by
  unfold Kernel.setTask
  congr 1
  funext j
  split
  · next hj => rw [hj]
  · rfl

/-- A notification with value 0 to the idle task, which never waits, requests a
switch and does nothing else. -/
theorem step_request (hs : Sched c) (hstarted : c.kernel.kernelStarted = true) :
    JustRT.step c (.isr (.taskNotifyFromIsr c.kernel.idle 0))
      = some ({ c with pending := true }, { result := some 1 }) := by
  have hidle : ¬c.kernel.idle ≥ c.kernel.taskCount := by
    have hcurrent := hs.current_lt
    unfold Kernel.idle
    omega
  have hsame : c.kernel.setTask c.kernel.idle ((c.kernel.tasks c.kernel.idle).withNotification
      ((c.kernel.tasks c.kernel.idle).notificationValue + 0)) = c.kernel := by
    have hnotified : (c.kernel.tasks c.kernel.idle).withNotification
        ((c.kernel.tasks c.kernel.idle).notificationValue + 0) = c.kernel.tasks c.kernel.idle := by
      simp [Task.withNotification]
    rw [hnotified]
    exact setTask_same _ _
  have hrunnable : (c.kernel.tasks c.kernel.idle).state ≠ .blocked := by
    rcases hs.idle with hidle | hidle
    · rw [← view_state, hidle]
      simp
    · rw [← view_state, hidle]
      simp
  have hcommon : taskNotifyCommon c.kernel c.kernel.idle 0 true true = some c.kernel := by
    rw [notifySection_eq c.kernel c.kernel.idle 0 rfl hidle, hsame]
    simp [hrunnable]
  rw [JustRT.step, if_pos hstarted, isrCall, hcommon]
  simp

end Steps

/-! ## A task in the running system -/

/-- The running system stands where `l` says for the running task `i`, which has
seen `seen`; `pcs` and `logs` are what there is of the others. -/
structure Standing (c₁ : Cfg) (pcs : Nat → Pc) (logs : Nat → List Event) (i : Nat)
    (seen : List Event) (pending : Bool) (l : Label) (tr : List Transition) (c : Cfg) : Prop where
  run : Run c₁ tr c
  current : c.current = i
  pending_eq : c.pending = pending
  pc_self : c.pc i = l.pc
  pc_other : ∀ j, j ≠ i → c.pc j = pcs j
  log_self : l.Sees (taskLog tr i) seen
  log_other : ∀ j, j ≠ i → taskLog tr j = logs j
  service : l.todo = some .callbackReturn → i = c.kernel.timerServiceTaskIndex

namespace Standing

variable {c₁ c : Cfg} {pcs : Nat → Pc} {logs : Nat → List Event} {i : Nat}
  {seen seen' : List Event} {l l' : Label} {tr : List Transition} {a : Action} {s : Segment}

theorem pc_current (h : Standing c₁ pcs logs i seen false l tr c) : c.pc c.current = l.pc := by
  rw [h.current, h.pc_self]

theorem moves (h : Standing c₁ pcs logs i seen false l tr c)
    (hstarted : c₁.kernel.kernelStarted = true) (hseg : ThreadSegment c a s)
    (hpc : s.pc = l'.pc) (htodo : l'.todo = none)
    (hlog : ∀ log, l.Sees log seen → l'.Sees (log ++ (a.calls ++ shown s)) seen') :
    ∃ tr' c', Standing c₁ pcs logs i seen' s.switch l' tr' c' ∧ c'.kernel = s.kernel := by
  have hstep := hseg.step (h.run.lasting hstarted).1 h.pending_eq
  refine ⟨_, _, ⟨h.run.snoc hstep, ?_, ?_, ?_, fun j hj => ?_, ?_, fun j hj => ?_, ?_⟩, rfl⟩
  · exact (Sched.after_current s hseg.frame).trans h.current
  · rw [Cfg.after, h.pending_eq, Bool.false_or]
  · rw [← hpc, ← h.current]
    exact Sched.after_pc_current s
  · rw [Sched.after_pc_of_ne s (by rw [h.current]; exact hj), h.pc_other j hj]
  · rw [taskLog_snoc, hseg.events, if_pos h.current]
    exact hlog _ h.log_self
  · rw [taskLog_snoc, hseg.events, if_neg (by rw [h.current]; exact hj.symm), List.append_nil]
    exact h.log_other j hj
  · rw [htodo]
    intro hcall
    cases hcall

theorem proceeds (h : Standing c₁ pcs logs i seen false l tr c)
    (hstarted : c₁.kernel.kernelStarted = true) {source : Nat → UInt8}
    (hseg : ThreadSegment c (.proceed source) s) (htodo : l.todo = none) :
    ∃ tr' c', Standing c₁ pcs logs i seen s.switch ⟨none, s.pc, l.owed ++ shown s⟩ tr' c'
      ∧ c'.kernel = s.kernel := by
  exact h.moves hstarted hseg rfl rfl fun log hlog => hlog.proceed htodo s

/-- A segment taken where a section of the code ends. -/
theorem step (h : Standing c₁ pcs logs i seen false l tr c)
    (hstarted : c₁.kernel.kernelStarted = true) {k : Kernel}
    (hstep : Label.Step l c.kernel l' k) :
    ∃ tr' c', Standing c₁ pcs logs i seen false l' tr' c' ∧ c'.kernel = k := by
  have hpc := h.pc_current
  generalize hkernel : c.kernel = kernel at hstep
  cases hstep with
  | @enter call _ s henter hswitch =>
      rw [← hkernel] at henter
      have hseg : ThreadSegment c (.call call) s := by
        refine .call hpc (fun hcall => ?_) henter
        rw [h.current]
        exact h.service (congrArg some hcall)
      rw [← hswitch]
      exact h.moves hstarted hseg rfl rfl fun log hlog => hlog.enter s
  | @proceed pc owed _ s source hproceed hswitch =>
      rw [← hkernel] at hproceed
      have hseg : ThreadSegment c (.proceed source) s := by
        refine proceed_segment ?_
        rw [hpc]
        exact hproceed
      rw [← hswitch]
      exact h.proceeds hstarted hseg rfl

theorem steps {n : Nat} (h : Standing c₁ pcs logs i seen false l tr c)
    (hstarted : c₁.kernel.kernelStarted = true) {k : Kernel}
    (hsteps : (threadSegments i n).Steps l c.kernel l' k) :
    ∃ tr' c', Standing c₁ pcs logs i seen false l' tr' c' ∧ c'.kernel = k := by
  refine Segments.Steps.induction
    (P := fun l k => ∃ tr c, Standing c₁ pcs logs i seen false l tr c ∧ c.kernel = k) hsteps
    ⟨tr, c, h, rfl⟩ fun hstanding hstep => ?_
  obtain ⟨tr, c, h, rfl⟩ := hstanding
  exact h.step hstarted hstep

/-- The segment that is taken where the code leaves the core. -/
theorem leaves (h : Standing c₁ pcs logs i seen false l tr c)
    (hstarted : c₁.kernel.kernelStarted = true) {point : Departure}
    (hleave : Label.Leave point l l') :
    ∃ tr' c', Standing c₁ pcs logs i seen true l' tr' c' ∧ c'.kernel = point.kernel c.kernel := by
  have hpc := h.pc_current
  cases hleave with
  | archYield =>
      have hyield := h.proceeds hstarted
        (.yielding hpc : ThreadSegment c (.proceed fun _ => 0) _) rfl
      simpa [shown, Departure.kernel] using hyield
  | archRequestSwitch =>
      exact h.proceeds hstarted (.requestSwitch hpc : ThreadSegment c (.proceed fun _ => 0) _) rfl
  | jrtTaskDelay hdue =>
      exact h.proceeds hstarted (.delayed hpc hdue : ThreadSegment c (.proceed fun _ => 0) _) rfl

theorem traps (h : Standing c₁ pcs logs i seen false ⟨none, .user, []⟩ tr c)
    (hstarted : c₁.kernel.kernelStarted = true) {call : Call} (hcall : call ≠ .callbackReturn)
    (henter : enter c.kernel call = .ok s) (hswitch : s.switch = true) (hpc : s.pc = .user) :
    ∃ tr' c', Standing c₁ pcs logs i (seen ++ .call call :: shown s) true ⟨none, .user, []⟩ tr' c'
      ∧ c'.kernel = s.kernel := by
  rw [← hswitch]
  refine h.moves hstarted (.call h.pc_current (fun hreturn => absurd hreturn hcall) henter) hpc rfl
    fun log hlog => ?_
  have hreturned := (hlog.call call).enter s
  rw [hpc] at hreturned
  have hseen := hreturned.returns
  rw [List.append_assoc] at hseen
  exact hseen

/-- The code returns what the segments have shown. -/
theorem returns {pending : Bool} {events : List Event}
    (h : Standing c₁ pcs logs i seen pending ⟨none, .user, events⟩ tr c) :
    Standing c₁ pcs logs i (seen ++ events) pending ⟨none, .user, []⟩ tr c where
  run := h.run
  current := h.current
  pending_eq := h.pending_eq
  pc_self := h.pc_self
  pc_other := h.pc_other
  log_self := h.log_self.returns
  log_other := h.log_other
  service := by
    intro hcall
    cases hcall

end Standing

/-! ## A handler in the running system -/

/-- A switch is to come that is not pending yet, or no longer: the handler will
request it, or is about to make it. -/
def Critical.HandlerLabel.owes (e : Exception) : HandlerLabel → Bool
  | .before => e.isSwitch
  | .after owes => owes

/-- The handler has made its switch. -/
def Critical.HandlerLabel.switched (e : Exception) : HandlerLabel → Bool
  | .before => false
  | .after _ => e.isSwitch

/-- The running system stands where `l` says for the running handler;
`requested` is whether something else has requested a switch, `settled` that
no other handler has made one. -/
structure Handling (c₁ : Cfg) (pcs : Nat → Pc) (logs : Nat → List Event) (current : Nat)
    (requested settled : Bool) (e : Exception) (l : HandlerLabel) (tr : List Transition)
    (c : Cfg) : Prop where
  run : Run c₁ tr c
  pc : c.pc = pcs
  log : ∀ i, taskLog tr i = logs i
  pending : c.pending = (requested || l.owes e)
  current_eq : l.switched e = false → settled = true → c.current = current

namespace Handling

variable {img : Image} {c₁ c : Cfg} {pcs : Nat → Pc} {logs : Nat → List Event} {current : Nat}
  {requested settled : Bool} {e : Exception} {l l' : HandlerLabel} {tr : List Transition}

/-- A step of the running system that is none of a task. -/
theorem log_snoc (h : ∀ i, taskLog tr i = logs i) {t : Transition} (ht : ∀ i, t.events i = [])
    (i : Nat) : taskLog (tr ++ [t]) i = logs i := by
  rw [taskLog_snoc, ht, List.append_nil]
  exact h i

/-- The segment of a handler. Behind a switch, a request from ahead of it is made
again. -/
theorem step (h : Handling c₁ pcs logs current requested settled e l tr c)
    (hreach : Reachable img c₁) (hstarted : c₁.kernel.kernelStarted = true) {k : Kernel}
    (hstep : HandlerLabel.Step e l c.kernel l' k) :
    ∃ tr' c', Handling c₁ pcs logs current requested settled e l' tr' c' ∧ c'.kernel = k := by
  have hstarted' := (h.run.lasting hstarted).1
  generalize hkernel : c.kernel = kernel at hstep
  cases hstep with
  | sysTick htick =>
      rw [← hkernel] at htick
      have hs : JustRT.step c .tick = some ({ c with kernel := k, pending := true }, {}) := by
        rw [JustRT.step, if_pos hstarted', htick]
      refine ⟨_, _, ⟨h.run.snoc hs, h.pc, log_snoc h.log fun _ => ?_, ?_, fun _ hs => ?_⟩, rfl⟩
      · simp [Transition.events]
      · simp [HandlerLabel.owes]
      · exact (tickTasks_frame htick).2.2.1.trans (h.current_eq rfl hs)
  | @irq call _ _ result switch hcall =>
      rw [← hkernel] at hcall
      have hs : JustRT.step c (.isr call)
          = some ({ c with kernel := k, pending := c.pending || switch },
            { result := some result }) := by
        rw [JustRT.step, if_pos hstarted', hcall]
      refine ⟨_, _, ⟨h.run.snoc hs, h.pc, log_snoc h.log fun _ => ?_, ?_, fun _ hs => ?_⟩, rfl⟩
      · simp [Transition.events]
      · simp [HandlerLabel.owes, h.pending, Exception.isSwitch]
      · have hframe := (isrCall_frame c.kernel call).2.2.1
        rw [hcall] at hframe
        exact hframe.trans (h.current_eq rfl hs)
  | @pendsv sp _ r hswitch =>
      rw [← hkernel] at hswitch
      have hpending : c.pending = true := by
        rw [h.pending, HandlerLabel.owes, Exception.isSwitch, Bool.or_true]
      have hs : JustRT.step c (.pendsv sp)
          = some ({ c with kernel := r.2, pending := false }, {}) := by
        rw [JustRT.step, if_pos (by rw [hstarted', hpending]; rfl), hswitch]
      have hrun := h.run.snoc hs
      have hlog := log_snoc h.log
        (t := ⟨c, .pendsv sp, {}, { c with kernel := r.2, pending := false }⟩)
        fun _ => by simp [Transition.events]
      cases requested with
      | false =>
          refine ⟨_, _, ⟨hrun, h.pc, hlog, rfl, fun hnot => ?_⟩, rfl⟩
          cases hnot
      | true =>
          have hrequest := step_request (hreach.run hrun).sched (hrun.lasting hstarted).1
          refine ⟨_, _, ⟨hrun.snoc hrequest, h.pc, log_snoc hlog fun _ => ?_, rfl,
            fun hnot => ?_⟩, rfl⟩
          · simp [Transition.events]
          · cases hnot

/-- Any number of segments, which is one at most. -/
theorem steps {n : Nat} (h : Handling c₁ pcs logs current requested settled e l tr c)
    (hreach : Reachable img c₁) (hstarted : c₁.kernel.kernelStarted = true) {k : Kernel}
    (hsteps : (handlerSegments e n).Steps l c.kernel l' k) :
    ∃ tr' c', Handling c₁ pcs logs current requested settled e l' tr' c' ∧ c'.kernel = k := by
  refine Segments.Steps.induction
    (P := fun l k =>
      ∃ tr c, Handling c₁ pcs logs current requested settled e l tr c ∧ c.kernel = k)
    hsteps ⟨tr, c, h, rfl⟩ fun hhandling hstep => ?_
  obtain ⟨tr, c, h, rfl⟩ := hhandling
  exact h.step hreach hstarted hstep

end Handling

/-! ## Supervisor calls -/

theorem runHandler_bind {α β : Type} {p : Code α} {g : α → Code β} {m m' : Mask} {s s' : Shared}
    {a : α} (h : p.alone m s = (.done a, m', s')) :
    runHandler (p >>= g) m s = runHandler (g a) m' s' := by
  induction p generalizing m s with
  | done b => cases h; rfl
  | halt e => cases h
  | update f next ih => exact ih _ h
  | setMask f next ih => exact ih _ h
  | leave point next ih => cases h

theorem alone_of_stopped {α : Type} {p : Code α} {a : α} {m m' : Mask} {s : Shared} {k : Kernel}
    {pools : Pools} (h : stopped (p.alone m s) = (.done a, m', k, pools)) :
    ∃ s', p.alone m s = (.done a, m', s') ∧ s'.kernel = k := by
  unfold stopped at h
  generalize p.alone m s = r at h
  obtain ⟨code, mask, shared⟩ := r
  simp only [Prod.mk.injEq] at h
  obtain ⟨rfl, rfl, hk, -⟩ := h
  exact ⟨shared, rfl, hk⟩

/-- The service of a stub does what the first segment of its call does, and
requests a switch. -/
theorem svcDispatch_stub {svcNumber : UInt8} {r0 : UInt32} {stub : Call × (UInt32 → UInt32)}
    {m : Mask} {s : Shared} (hfits : m.Fits 1) (hstub : svcStub svcNumber r0 = some stub)
    (counters : SvcCounters) :
    stub.1 ≠ .callbackReturn ∧ ∃ word shared segment,
      runHandler (svcDispatch svcNumber taskExcReturn r0 counters) m s
          = some ((word, counters), true, m, shared)
        ∧ enter s.kernel stub.1 = .ok segment ∧ segment.switch = true ∧ segment.pc = .user
        ∧ segment.kernel = shared.kernel ∧ shown segment = [.result (stub.2 word)] := by
  have hthread : ¬(taskExcReturn &&& 8 = 0 ∨ taskExcReturn &&& 4 = 0) := by decide
  unfold svcStub at hstub
  unfold svcDispatch
  rw [if_neg hthread]
  split at hstub
  · next h1 =>
      cases hstub
      rw [if_pos h1]
      exact ⟨by simp, r0, s, _, rfl, rfl, rfl, rfl, rfl, rfl⟩
  · next h1 =>
      rw [if_neg h1]
      split at hstub
      · next h2 =>
          cases hstub
          obtain ⟨s', halone, hkernel⟩ := alone_of_stopped (sleepCurrent_alone hfits r0)
          rw [if_pos h2, runHandler_bind halone]
          exact ⟨by simp, r0, s', _, rfl, rfl, rfl, rfl, hkernel.symm, rfl⟩
      · next h2 =>
          rw [if_neg h2]
          split at hstub
          · next h3 =>
              cases hstub
              rw [if_pos h3]
              exact ⟨by simp, r0, s, _, rfl, rfl, rfl, rfl, rfl, rfl⟩
          · next h3 =>
              rw [if_neg h3]
              split at hstub
              · next h4 =>
                  cases hstub
                  obtain ⟨s', halone, hkernel⟩ :=
                    alone_of_stopped (kernelTaskSuspend_alone hfits r0.toNat)
                  rw [if_pos h4, runHandler_bind halone]
                  exact ⟨by simp, _, s', _, rfl, rfl, rfl, rfl, hkernel.symm, rfl⟩
              · next h4 =>
                  rw [if_neg h4]
                  split at hstub
                  · next h5 =>
                      cases hstub
                      obtain ⟨s', halone, hkernel⟩ :=
                        alone_of_stopped (kernelTaskResume_alone hfits r0.toNat)
                      rw [if_pos h5, runHandler_bind halone]
                      exact ⟨by simp, _, s', _, rfl, rfl, rfl, rfl, hkernel.symm, rfl⟩
                  · cases hstub

theorem svcDispatch_invalid {svcNumber : UInt8} {r0 : UInt32} {m : Mask} {s : Shared}
    (hstub : svcStub svcNumber r0 = none) (counters : SvcCounters) :
    runHandler (svcDispatch svcNumber taskExcReturn r0 counters) m s
      = some ((r0, { counters with gSvcInvalidService := counters.gSvcInvalidService + 1 }), false,
          m, s) := by
  have hthread : ¬(taskExcReturn &&& 8 = 0 ∨ taskExcReturn &&& 4 = 0) := by decide
  have hnone : svcNumber ≠ 1 ∧ svcNumber ≠ 2 ∧ svcNumber ≠ 3 ∧ svcNumber ≠ 4 ∧ svcNumber ≠ 5 := by
    simpa [svcStub, ite_eq_iff] using hstub
  obtain ⟨h1, h2, h3, h4, h5⟩ := hnone
  simp only [svcDispatch, if_neg hthread, if_neg h1, if_neg h2, if_neg h3, if_neg h4, if_neg h5]
  rfl

theorem Core.trap_eq {f : Core} {svcNumber : UInt8} {r0 word : UInt32} {switch : Bool}
    {svc : SvcCounters} {shared : Shared}
    (h : runHandler (svcDispatch svcNumber taskExcReturn r0 f.svc) f.mask f.shared
      = some ((word, svc), switch, f.mask, shared)) :
    f.trap svcNumber r0
      = some (word, { f with svc := svc, pending := f.pending || switch, shared := shared }) := by
  rw [Core.trap, h]
  rfl

/-! ## The simulation -/

/-- What is left of a call follows its segments; a task that is in none is in its
own code, or it is the idle task. -/
def ThreadAt (n : Nat) (x : Mask) (i : Nat) (l : Label) (m : Mask) (k : Kernel) (s : Shared) :
    Option (Code Return) → Prop
  | none => l.todo = none ∧ l.owed = [] ∧ (l.pc = .user ∨ l.pc = .idle ∧ i + 1 = n)
  | some code => code.Refines (threadSegments i n) x l m k s

/-- A handler that has begun, and where it stands. -/
structure Active where
  handler : Handler
  label : HandlerLabel

namespace Active

def owes (a : Active) : Bool := a.label.owes a.handler.exception

def switched (a : Active) : Bool := a.label.switched a.handler.exception

/-- What is left of a handler follows its segments. -/
def At (n : Nat) (x : Mask) (a : Active) (m : Mask) (k : Kernel) (s : Shared) : Prop :=
  a.handler.code.Refines (handlerSegments a.handler.exception n) x a.label m k s

/-- The handlers below the running one have been interrupted where interrupts are
on. The context switch is at the bottom. -/
def Nested (n : Nat) (x : Mask) (m : Mask) (k : Kernel) (s : Shared) : List Active → Prop
  | [] => True
  | a :: rest => a.At n x m k s ∧ (a.handler.exception.isSwitch = true → rest = [])
      ∧ Nested n x x k s rest

end Active

section Preempted

variable {n : Nat} {x : Mask} {k : Kernel} {s : Shared}

theorem ThreadAt.of_open {i : Nat} {l : Label} {code : Option (Code Return)}
    (h : ThreadAt n x i l x k s code) (hx : x.primask = false) (k' : Kernel) (s' : Shared) :
    ThreadAt n x i l x k' s' code := by
  cases code with
  | none => exact h
  | some code => exact Prog.Refines.of_open h hx k' s'

theorem Active.Nested.of_open {active : List Active} (h : Active.Nested n x x k s active)
    (hx : x.primask = false) (k' : Kernel) (s' : Shared) :
    Active.Nested n x x k' s' active := by
  induction active with
  | nil => trivial
  | cons a rest ih => exact ⟨Prog.Refines.of_open h.1 hx k' s', h.2.1, ih h.2.2⟩

end Preempted

/-- The core stands where the running system does. The system takes a critical
section as one step, the core takes it instruction by instruction; so the
kernel is compared only where interrupts are on. The labels say at which place
of the system each task stands, the active list which handlers are open. -/
structure Sim (n : Nat) (x : Mask) (c₁ : Cfg) (f : Core) (tr : List Transition) (c : Cfg)
    (labels : Nat → Label) (active : List Active) : Prop where
  run : Run c₁ tr c
  unmasked : f.mask.primask = false → f.mask = x ∧ f.shared.kernel = c.kernel
  handlers : f.handlers = active.map Active.handler
  pending : c.pending = (f.pending || active.any Active.owes)
  quiet : active = [] → f.mask.primask = true → f.pending = false
  running : active.any Active.switched = false → c.current = f.running
  pc : ∀ i, c.pc i = (labels i).pc
  log : ∀ i, (labels i).Sees (taskLog tr i) (f.log i)
  service : ∀ i, (labels i).todo = some .callbackReturn → i = c.kernel.timerServiceTaskIndex
  thread : active = [] →
    ThreadAt n x f.running (labels f.running) f.mask c.kernel f.shared (f.threads f.running)
  preempted : ∀ i, (active = [] → i ≠ f.running) →
    ThreadAt n x i (labels i) x c.kernel f.shared (f.threads i)
  nested : Active.Nested n x f.mask c.kernel f.shared active

namespace Sim

variable {img : Image} {n : Nat} {x : Mask} {c₁ c : Cfg} {f f' : Core} {tr : List Transition}
  {labels : Nat → Label} {active : List Active}

theorem standing (h : Sim n x c₁ f tr c labels []) :
    Standing c₁ c.pc (taskLog tr) f.running (f.log f.running) f.pending (labels f.running) tr
      c where
  run := h.run
  current := h.running rfl
  pending_eq := by simpa using h.pending
  pc_self := h.pc _
  pc_other := fun _ _ => rfl
  log_self := h.log _
  log_other := fun _ _ => rfl
  service := h.service _

theorem moved (h : Sim n x c₁ f tr c labels []) (hx : x.primask = false)
    (hstarted : c₁.kernel.kernelStarted = true) {l : Label}
    {code : Option (Code Return)} {events : List Event} {tr' : List Transition} {c' : Cfg}
    (hstanding : Standing c₁ c.pc (taskLog tr) f.running (f.log f.running ++ events) f'.pending l
      tr' c')
    (hhandlers : f'.handlers = []) (hrunning : f'.running = f.running)
    (hthreads : f'.threads = (f.resume code events).threads)
    (hlog : f'.log = (f.resume code events).log)
    (hunmasked : f'.mask.primask = false → f'.mask = x ∧ f'.shared.kernel = c'.kernel)
    (hquiet : f'.mask.primask = true → f'.pending = false)
    (hthread : ThreadAt n x f.running l f'.mask c'.kernel f'.shared code) :
    ∃ tr' c' labels', Sim n x c₁ f' tr' c' labels' [] := by
  have hservice : c'.kernel.timerServiceTaskIndex = c.kernel.timerServiceTaskIndex :=
    (hstanding.run.lasting hstarted).2.trans (h.run.lasting hstarted).2.symm
  refine ⟨tr', c', fun i => if i = f.running then l else labels i, hstanding.run, hunmasked,
    hhandlers, ?_, fun _ => hquiet, fun _ => ?_, fun i => ?_, fun i => ?_, fun i => ?_, fun _ => ?_,
    fun i hi => ?_, trivial⟩
  · simpa using hstanding.pending_eq
  · rw [hrunning]
    exact hstanding.current
  · by_cases hi : i = f.running
    · rw [if_pos hi, hi]
      exact hstanding.pc_self
    · rw [if_neg hi, hstanding.pc_other i hi, h.pc]
  · rw [hlog, Core.resume_log]
    by_cases hi : i = f.running
    · rw [if_pos hi, if_pos hi, hi]
      exact hstanding.log_self
    · rw [if_neg hi, if_neg hi, hstanding.log_other i hi]
      exact h.log i
  · by_cases hi : i = f.running
    · rw [if_pos hi, hi]
      exact hstanding.service
    · rw [if_neg hi, hservice]
      exact h.service i
  · rw [hrunning, hthreads, Core.resume_threads, if_pos rfl, if_pos rfl]
    exact hthread
  · have hi' : i ≠ f.running := by
      rw [hrunning] at hi
      exact hi rfl
    rw [hthreads, Core.resume_threads, if_neg hi', if_neg hi']
    exact (h.preempted i fun _ => hi').of_open hx _ _

/-- The running task can rely on what its segments say. -/
theorem good (h : Sim n x c₁ f tr c labels []) (hn : c₁.kernel.taskCount = n) :
    c.kernel.gCurrentTaskIndex = f.running ∧ c.kernel.taskCount = n :=
  ⟨h.running rfl, h.run.taskCount.trans hn⟩

theorem done_step (h : Sim n x c₁ f tr c labels []) (hx : x.primask = false)
    (hstarted : c₁.kernel.kernelStarted = true) (hn : c₁.kernel.taskCount = n)
    (hpending : f.pending = false) {r : Return}
    (hcode : f.threads f.running = some (.done r)) :
    ∃ tr' c' labels', Sim n x c₁ (f.resume none r.events) tr' c' labels' [] := by
  have hthread := h.thread rfl
  rw [hcode] at hthread
  obtain ⟨hmask, l', hsteps, hfinal⟩ := Prog.Refines.done hthread (h.good hn)
  have hopen : f.mask.primask = false := by rw [hmask, hx]
  have hstanding := h.standing
  rw [hpending] at hstanding
  obtain ⟨tr', c', hstanding, hkernel⟩ := hstanding.steps hstarted hsteps
  rw [hfinal] at hstanding
  have hreturned := hstanding.returns
  rw [← hpending] at hreturned
  refine h.moved hx hstarted hreturned h.handlers rfl rfl rfl (fun _ => ?_) (fun _ => hpending)
    ⟨rfl, rfl, .inl rfl⟩
  rw [hkernel]
  exact h.unmasked hopen

theorem advance_step (h : Sim n x c₁ f tr c labels []) (hx : x.primask = false)
    (hstarted : c₁.kernel.kernelStarted = true) (hn : c₁.kernel.taskCount = n)
    (hpending : f.pending = false) {code code' : Code Return} {m : Mask} {s : Shared}
    (hcode : f.threads f.running = some code)
    (hadvance : code.advance f.mask f.shared = some (code', m, s)) :
    ∃ tr' c' labels',
      Sim n x c₁ { f.resume (some code') [] with mask := m, shared := s } tr' c' labels' [] := by
  have hthread := h.thread rfl
  rw [hcode] at hthread
  obtain ⟨l', k', hsteps, hrefines, hopen⟩ := Prog.Refines.advance hthread
    (fun hmask => ⟨(h.unmasked hmask).2, h.good hn⟩) hadvance
  have hstanding := h.standing
  rw [hpending] at hstanding
  obtain ⟨tr', c', hstanding, rfl⟩ := hstanding.steps hstarted hsteps
  rw [← hpending, ← List.append_nil (f.log f.running)] at hstanding
  exact h.moved hx hstarted hstanding h.handlers rfl rfl rfl hopen (fun _ => hpending) hrefines

theorem leave_step (h : Sim n x c₁ f tr c labels []) (hx : x.primask = false)
    (hstarted : c₁.kernel.kernelStarted = true) (hpending : f.pending = false) {point : Departure}
    {next : Code Return} {s : Shared} (hcode : f.threads f.running = some (.leave point next))
    (hkernel : f.mask = x → s.kernel = point.kernel f.shared.kernel) :
    f.mask = x ∧ ∃ tr' c' labels',
      Sim n x c₁ { f.resume (some next) [] with pending := true, shared := s } tr' c' labels'
        [] := by
  have hthread := h.thread rfl
  rw [hcode] at hthread
  obtain ⟨hmask, l', hleave, hnext⟩ := Prog.Refines.leave hthread
  have hopen : f.mask.primask = false := by rw [hmask, hx]
  have hstanding := h.standing
  rw [hpending] at hstanding
  obtain ⟨tr', c', hstanding, hkernel'⟩ := hstanding.leaves hstarted hleave
  rw [← List.append_nil (f.log f.running)] at hstanding
  refine ⟨hmask, h.moved hx hstarted hstanding h.handlers rfl rfl rfl (fun _ => ⟨hmask, ?_⟩)
    (fun hmasked => ?_) ?_⟩
  · rw [hkernel', ← (h.unmasked hopen).2]
    exact hkernel hmask
  · change f.mask.primask = true at hmasked
    rw [hopen] at hmasked
    cases hmasked
  · change next.Refines _ x l' f.mask c'.kernel s
    rw [hmask]
    exact hnext _ _

/-- The running task leaves the core by a supervisor call. -/
theorem trap_step (h : Sim n x c₁ f tr c labels []) (hx : x.primask = false) (hfits : x.Fits 1)
    (hstarted : c₁.kernel.kernelStarted = true) (hpending : f.pending = false) {point : Departure}
    {next : Code Return} {svcNumber : UInt8} {r0 : UInt32} {stub : Call × (UInt32 → UInt32)}
    (hcode : f.threads f.running = some (.leave point next))
    (hstub : svcStub svcNumber r0 = some stub)
    (hpoint : ∀ segment, enter f.shared.kernel stub.1 = .ok segment →
      segment.kernel = point.kernel f.shared.kernel)
    (hstep : (f.trap svcNumber r0).map (fun r => r.2.resume (some next) []) = some f') :
    ∃ tr' c' labels', Sim n x c₁ f' tr' c' labels' [] := by
  have hthread := h.thread rfl
  rw [hcode] at hthread
  have hmask := (Prog.Refines.leave hthread).1
  rw [← hmask] at hfits
  obtain ⟨-, word, shared, segment, hrun, henter, -, -, hkernel, -⟩ :=
    svcDispatch_stub (s := f.shared) hfits hstub f.svc
  rw [Core.trap_eq hrun, Bool.or_true] at hstep
  obtain rfl := Option.some.inj hstep
  exact (h.leave_step hx hstarted hpending hcode
    fun _ => hkernel.symm.trans (hpoint segment henter)).2

theorem thread_step (h : Sim n x c₁ f tr c labels []) (hx : x.primask = false) (hfits : x.Fits 1)
    (hstarted : c₁.kernel.kernelStarted = true) (hn : c₁.kernel.taskCount = n)
    (hpending : f.pending = false) (hstep : f.stepThread = some f') :
    ∃ tr' c' labels', Sim n x c₁ f' tr' c' labels' [] := by
  cases hcode : f.threads f.running with
  | none => simp [Core.stepThread, hcode] at hstep
  | some code =>
      cases code with
      | done r =>
          simp only [Core.stepThread, hcode, Option.some.injEq] at hstep
          rw [← hstep]
          exact h.done_step hx hstarted hn hpending hcode
      | halt e => simp [Core.stepThread, hcode, Prog.advance] at hstep
      | update g next =>
          simp only [Core.stepThread, hcode, Prog.advance, Option.map_some,
            Option.some.injEq] at hstep
          rw [← hstep]
          exact h.advance_step hx hstarted hn hpending hcode rfl
      | setMask g next =>
          simp only [Core.stepThread, hcode, Prog.advance, Option.map_some,
            Option.some.injEq] at hstep
          rw [← hstep]
          exact h.advance_step hx hstarted hn hpending hcode rfl
      | leave point next =>
          cases point with
          | archYield =>
              simp only [Core.stepThread, hcode] at hstep
              refine h.trap_step hx hfits hstarted hpending hcode rfl
                (fun segment henter => ?_) hstep
              cases henter
              rfl
          | archRequestSwitch =>
              simp only [Core.stepThread, hcode, Option.some.injEq] at hstep
              rw [← hstep]
              exact (h.leave_step hx hstarted hpending hcode fun _ => rfl).2
          | jrtTaskDelay ticks =>
              simp only [Core.stepThread, hcode] at hstep
              refine h.trap_step hx hfits hstarted hpending hcode rfl
                (fun segment henter => ?_) hstep
              cases henter
              rfl
          | callback callback argument => simp [Core.stepThread, hcode, Prog.advance] at hstep
          | archStartFirstTask => simp [Core.stepThread, hcode, Prog.advance] at hstep

theorem active_eq (h : Sim n x c₁ f tr c labels active) (hempty : f.handlers = []) :
    active = [] :=
  List.map_eq_nil_iff.mp (h.handlers.symm.trans hempty)

theorem label_user (h : Sim n x c₁ f tr c labels []) (hn : c₁.kernel.taskCount = n)
    (huser : f.inUser = true) : labels f.running = ⟨none, .user, []⟩ := by
  obtain ⟨hopen, -, -, hnone, hidle⟩ := Core.inUser_iff.mp huser
  have hthread := h.thread rfl
  rw [hnone] at hthread
  obtain ⟨htodo, howed, hpc | ⟨-, hlast⟩⟩ := hthread
  · rw [← htodo, ← howed, ← hpc]
  · rw [(h.unmasked hopen).2, (h.good hn).2] at hidle
    exact absurd hlast hidle

theorem call_step (h : Sim n x c₁ f tr c labels []) (hx : x.primask = false) (hfits : x.Fits 2)
    (hstarted : c₁.kernel.kernelStarted = true) (hn : c₁.kernel.taskCount = n)
    (huser : f.inUser = true) {call : Call} {source : Nat → UInt8} {fuel : Nat}
    {code : Code Return} (hcode : call.code source fuel = some code)
    (hservice : call = .callbackReturn → f.running = f.shared.kernel.timerServiceTaskIndex) :
    ∃ tr' c' labels', Sim n x c₁ (f.resume (some code) [.call call]) tr' c' labels' [] := by
  obtain ⟨hopen, -, hpending, -, -⟩ := Core.inUser_iff.mp huser
  have hmask := (h.unmasked hopen).1
  have hstanding := h.standing
  rw [h.label_user hn huser] at hstanding
  have hcalled : Standing c₁ c.pc (taskLog tr) f.running (f.log f.running ++ [.call call])
      f.pending ⟨some call, .user, []⟩ tr c :=
    { run := hstanding.run
      current := hstanding.current
      pending_eq := hstanding.pending_eq
      pc_self := hstanding.pc_self
      pc_other := hstanding.pc_other
      log_self := hstanding.log_self.call call
      log_other := hstanding.log_other
      service := fun hcall => by
        rw [← (h.unmasked hopen).2]
        exact hservice (Option.some.inj hcall) }
  refine h.moved hx hstarted hcalled h.handlers rfl rfl rfl h.unmasked (fun _ => hpending) ?_
  change code.Refines _ x _ f.mask c.kernel f.shared
  rw [hmask]
  exact code_refines hx hfits hcode c.kernel f.shared

theorem svc_step (h : Sim n x c₁ f tr c labels []) (hx : x.primask = false) (hfits : x.Fits 1)
    (hstarted : c₁.kernel.kernelStarted = true) (hn : c₁.kernel.taskCount = n)
    {svcNumber : UInt8} {r0 : UInt32} (hstep : f.step (.svc svcNumber r0) = some f') :
    ∃ tr' c' labels', Sim n x c₁ f' tr' c' labels' [] := by
  have huser : f.inUser = true := by
    by_contra hnot
    rw [Core.step, if_neg hnot] at hstep
    cases hstep
  rw [Core.step, if_pos huser] at hstep
  obtain ⟨hopen, -, hpending, hnone, -⟩ := Core.inUser_iff.mp huser
  have hmask := (h.unmasked hopen).1
  have hthread := h.thread rfl
  have hlabel := h.label_user hn huser
  rw [hnone, hlabel] at hthread
  have hstanding := h.standing
  rw [hlabel] at hstanding
  cases hstub : svcStub svcNumber r0 with
  | none =>
      have hinvalid := svcDispatch_invalid (m := f.mask) (s := f.shared) hstub f.svc
      rw [Core.trap_eq hinvalid, hstub, Bool.or_false] at hstep
      obtain rfl := Option.some.inj hstep
      rw [← List.append_nil (f.log f.running)] at hstanding
      exact h.moved hx hstarted hstanding h.handlers rfl rfl rfl h.unmasked (fun _ => hpending)
        hthread
  | some stub =>
      rw [← hmask] at hfits
      obtain ⟨hcall, word, shared, segment, hrun, henter, hswitch, hpc, hkernel, hshown⟩ :=
        svcDispatch_stub (s := f.shared) hfits hstub f.svc
      rw [Core.trap_eq hrun, hstub, Bool.or_true] at hstep
      obtain rfl := Option.some.inj hstep
      rw [hpending] at hstanding
      rw [(h.unmasked hopen).2] at henter
      obtain ⟨tr', c', hstanding, hkernel'⟩ := hstanding.traps hstarted hcall henter hswitch hpc
      rw [hshown] at hstanding
      refine h.moved hx hstarted hstanding h.handlers rfl rfl rfl
        (fun _ => ⟨hmask, hkernel.symm.trans hkernel'.symm⟩) (fun hmasked => ?_) hthread
      change f.mask.primask = true at hmasked
      rw [hopen] at hmasked
      cases hmasked

/-! ### Handlers -/

theorem thread_any (h : Sim n x c₁ f tr c labels active) (i : Nat) :
    ∃ m k s, ThreadAt n x i (labels i) m k s (f.threads i) := by
  by_cases hi : active = [] → i ≠ f.running
  · exact ⟨_, _, _, h.preempted i hi⟩
  · push Not at hi
    obtain ⟨hempty, rfl⟩ := hi
    exact ⟨_, _, _, h.thread hempty⟩

theorem thread_open (h : Sim n x c₁ f tr c labels active) (hmask : f.mask = x) (i : Nat) :
    ThreadAt n x i (labels i) x c.kernel f.shared (f.threads i) := by
  by_cases hi : active = [] → i ≠ f.running
  · exact h.preempted i hi
  · push Not at hi
    obtain ⟨hempty, rfl⟩ := hi
    have hthread := h.thread hempty
    rw [hmask] at hthread
    exact hthread

theorem exception_step (h : Sim n x c₁ f tr c labels active) (hx : x.primask = false)
    (hfits : x.Fits 2) {e : Exception} (haccepts : f.accepts e = true) :
    Sim n x c₁ (f.enter e) tr c labels (⟨⟨e, e.code⟩, .before⟩ :: active) := by
  obtain ⟨hopen, hswitch⟩ := Core.accepts_iff.mp haccepts
  obtain ⟨hmask, hkernel⟩ := h.unmasked hopen
  have hbottom : e.isSwitch = true → active = [] := fun he => h.active_eq (hswitch he).1
  refine ⟨h.run, h.unmasked, ?_, ?_, fun hempty => ?_, fun hnone => ?_, h.pc, h.log, h.service,
    fun hempty => ?_, fun i _ => h.thread_open hmask i, ?_, hbottom, ?_⟩
  · rw [List.map_cons, ← h.handlers]
    rfl
  · rw [Core.enter_pending, List.any_cons, h.pending]
    cases he : e.isSwitch with
    | false => simp [Active.owes, HandlerLabel.owes, he]
    | true => simp [Active.owes, HandlerLabel.owes, he, (hswitch he).2]
  · cases hempty
  · refine h.running ?_
    simpa [Active.switched, HandlerLabel.switched] using hnone
  · cases hempty
  · change e.code.Refines _ x _ f.mask c.kernel f.shared
    rw [hmask]
    exact exception_refines hx hfits e c.kernel f.shared
  · have hnested := h.nested
    rw [hmask] at hnested
    exact hnested

theorem handling {a : Active} (h : Sim n x c₁ f tr c labels (a :: active)) :
    Handling c₁ c.pc (taskLog tr) f.running (f.pending || active.any Active.owes)
      (!active.any Active.switched) a.handler.exception a.label tr c where
  run := h.run
  pc := rfl
  log := fun _ => rfl
  pending := by
    rw [h.pending, List.any_cons, Bool.or_assoc, Bool.or_comm (active.any Active.owes)]
    rfl
  current_eq := fun hself hothers => by
    refine h.running ?_
    rw [List.any_cons, Bool.or_eq_false_iff]
    exact ⟨hself, by simpa using hothers⟩

theorem handled {a : Active} (h : Sim n x c₁ f tr c labels (a :: active)) (hx : x.primask = false)
    (hstarted : c₁.kernel.kernelStarted = true) {l : HandlerLabel} {code : Code Unit}
    {tr' : List Transition} {c' : Cfg}
    (hhandling : Handling c₁ c.pc (taskLog tr) f.running (f'.pending || active.any Active.owes)
      (!active.any Active.switched) a.handler.exception l tr' c')
    (hhandlers : f'.handlers = ⟨a.handler.exception, code⟩ :: active.map Active.handler)
    (hrunning : f'.running = f.running) (hthreads : f'.threads = f.threads)
    (hlog : f'.log = f.log)
    (hunmasked : f'.mask.primask = false → f'.mask = x ∧ f'.shared.kernel = c'.kernel)
    (hcode : code.Refines (handlerSegments a.handler.exception n) x l f'.mask c'.kernel f'.shared) :
    ∃ tr' c' active', Sim n x c₁ f' tr' c' labels active' := by
  have hservice : c'.kernel.timerServiceTaskIndex = c.kernel.timerServiceTaskIndex :=
    (hhandling.run.lasting hstarted).2.trans (h.run.lasting hstarted).2.symm
  refine ⟨tr', c', ⟨⟨a.handler.exception, code⟩, l⟩ :: active, hhandling.run, hunmasked, hhandlers,
    ?_, fun hempty => ?_, fun hnone => ?_, fun i => ?_, fun i => ?_, fun i hi => ?_,
    fun hempty => ?_, fun i hi => ?_, hcode, h.nested.2.1, ?_⟩
  · rw [hhandling.pending, List.any_cons, Bool.or_assoc, Bool.or_comm (active.any Active.owes)]
    rfl
  · cases hempty
  · rw [List.any_cons, Bool.or_eq_false_iff] at hnone
    rw [hrunning]
    exact hhandling.current_eq hnone.1 (by simpa using hnone.2)
  · rw [hhandling.pc]
    exact h.pc i
  · rw [hhandling.log, hlog]
    exact h.log i
  · rw [hservice]
    exact h.service i hi
  · cases hempty
  · rw [hthreads]
    refine (h.preempted i fun hempty => ?_).of_open hx _ _
    cases hempty
  · exact h.nested.2.2.of_open hx _ _

theorem popped {a : Active} (h : Sim n x c₁ f tr c labels (a :: active)) (hx : x.primask = false)
    (hreach : Reachable img c₁) (hstarted : c₁.kernel.kernelStarted = true)
    (hn : c₁.kernel.taskCount = n) (hcode : a.handler.code = .done ())
    (hhandlers : f'.handlers = active.map Active.handler) (hpending : f'.pending = f.pending)
    (hrunning : f'.running
      = if a.handler.exception.isSwitch then f.shared.kernel.gCurrentTaskIndex else f.running)
    (hthreads : f'.threads = f.threads) (hlog : f'.log = f.log) (hmask : f'.mask = f.mask)
    (hshared : f'.shared = f.shared) :
    ∃ tr' c' active', Sim n x c₁ f' tr' c' labels active' := by
  have hrefines := h.nested.1
  rw [Active.At, hcode] at hrefines
  obtain ⟨hhome, l', hsteps, rfl⟩ := Prog.Refines.done hrefines (h.run.taskCount.trans hn)
  have hopen : f.mask.primask = false := by rw [hhome, hx]
  have hkernel := (h.unmasked hopen).2
  obtain ⟨tr', c', hhandling, hkernel'⟩ := h.handling.steps hreach hstarted hsteps
  have hthread : ∀ i, ThreadAt n x i (labels i) x c'.kernel f'.shared (f'.threads i) := fun i => by
    rw [hthreads]
    refine (h.preempted i fun hempty => ?_).of_open hx _ _
    cases hempty
  refine ⟨tr', c', active, hhandling.run, fun _ => ?_, hhandlers, ?_, fun _ hmasked => ?_,
    fun hnone => ?_, fun i => ?_, fun i => ?_, fun i hi => ?_, fun _ => ?_, fun i _ => hthread i,
    ?_⟩
  · rw [hmask, hshared, hkernel']
    exact ⟨hhome, hkernel⟩
  · rw [hhandling.pending, hpending]
    exact Bool.or_false _
  · rw [hmask, hopen] at hmasked
    cases hmasked
  · rw [hrunning]
    by_cases he : a.handler.exception.isSwitch = true
    · rw [if_pos he, hkernel, ← hkernel']
      rfl
    · rw [if_neg he]
      refine hhandling.current_eq ?_ (by simpa using hnone)
      simpa [HandlerLabel.switched] using he
  · rw [hhandling.pc]
    exact h.pc i
  · rw [hhandling.log, hlog]
    exact h.log i
  · rw [hkernel']
    exact h.service i hi
  · rw [hmask, hhome]
    exact hthread _
  · rw [hmask, hhome]
    exact h.nested.2.2.of_open hx _ _

/-- The running handler takes a step of its code. -/
theorem handler_advance {a : Active} (h : Sim n x c₁ f tr c labels (a :: active))
    (hx : x.primask = false) (hreach : Reachable img c₁)
    (hstarted : c₁.kernel.kernelStarted = true) (hn : c₁.kernel.taskCount = n) {code' : Code Unit}
    {m : Mask} {s : Shared}
    (hadvance : a.handler.code.advance f.mask f.shared = some (code', m, s)) :
    ∃ tr' c' active', Sim n x c₁
      { f with
        handlers := ⟨a.handler.exception, code'⟩ :: active.map Active.handler, mask := m,
        shared := s } tr' c' labels active' := by
  obtain ⟨l', k', hsteps, hrefines, hopen⟩ := Prog.Refines.advance h.nested.1
    (fun hmask => ⟨(h.unmasked hmask).2, h.run.taskCount.trans hn⟩) hadvance
  obtain ⟨tr', c', hhandling, rfl⟩ := h.handling.steps hreach hstarted hsteps
  exact h.handled hx hstarted hhandling rfl rfl rfl rfl hopen hrefines

theorem handler_request {a : Active} (h : Sim n x c₁ f tr c labels (a :: active))
    (hx : x.primask = false) (hstarted : c₁.kernel.kernelStarted = true) {next : Code Unit}
    (hcode : a.handler.code = .leave .archRequestSwitch next) :
    ∃ tr' c' active', Sim n x c₁
      { f with
        handlers := ⟨a.handler.exception, next⟩ :: active.map Active.handler, pending := true }
      tr' c' labels active' := by
  have hrefines := h.nested.1
  rw [Active.At, hcode] at hrefines
  obtain ⟨hmask, l', hleave, hnext⟩ := Prog.Refines.leave hrefines
  have hhandling := h.handling
  generalize hlabel : a.label = label at hleave hhandling
  cases hleave
  have hrequested : Handling c₁ c.pc (taskLog tr) f.running (true || active.any Active.owes)
      (!active.any Active.switched) a.handler.exception (.after false) tr c :=
    { run := hhandling.run
      pc := rfl
      log := fun _ => rfl
      pending := by
        have hpending := hhandling.pending
        simpa [HandlerLabel.owes] using hpending
      current_eq := hhandling.current_eq }
  refine h.handled hx hstarted hrequested rfl rfl rfl rfl h.unmasked ?_
  · change next.Refines _ x _ f.mask c.kernel f.shared
    rw [hmask]
    exact hnext _ _

theorem handler_step (h : Sim n x c₁ f tr c labels active) (hx : x.primask = false)
    (hreach : Reachable img c₁) (hstarted : c₁.kernel.kernelStarted = true)
    (hn : c₁.kernel.taskCount = n) (hstep : f.stepHandler = some f') :
    ∃ tr' c' active', Sim n x c₁ f' tr' c' labels active' := by
  cases active with
  | nil => simp [Core.stepHandler, h.handlers] at hstep
  | cons a active =>
      have hhandlers := h.handlers
      obtain ⟨⟨e, code⟩, l⟩ := a
      rw [List.map_cons] at hhandlers
      cases code with
      | done u =>
          simp only [Core.stepHandler, hhandlers, Option.some.injEq] at hstep
          subst hstep
          refine h.popped hx hreach hstarted hn rfl rfl rfl ?_ rfl rfl rfl rfl
          cases e with
          | sysTick => rfl
          | irq call => rfl
          | pendsv currentSp => rfl
      | halt e => simp [Core.stepHandler, hhandlers, Prog.advance] at hstep
      | update g next =>
          simp only [Core.stepHandler, hhandlers, Prog.advance, Option.map_some,
            Option.some.injEq] at hstep
          subst hstep
          exact h.handler_advance hx hreach hstarted hn rfl
      | setMask g next =>
          simp only [Core.stepHandler, hhandlers, Prog.advance, Option.map_some,
            Option.some.injEq] at hstep
          subst hstep
          exact h.handler_advance hx hreach hstarted hn rfl
      | leave point next =>
          cases point with
          | archRequestSwitch =>
              simp only [Core.stepHandler, hhandlers, Option.some.injEq] at hstep
              subst hstep
              exact h.handler_request hx hstarted rfl
          | archYield => simp [Core.stepHandler, hhandlers, Prog.advance] at hstep
          | jrtTaskDelay ticks => simp [Core.stepHandler, hhandlers, Prog.advance] at hstep
          | callback callback argument => simp [Core.stepHandler, hhandlers, Prog.advance] at hstep
          | archStartFirstTask => simp [Core.stepHandler, hhandlers, Prog.advance] at hstep

/-! ### Any step -/

/-- Something else than kernel code has written to the kernel. -/
theorem environment_step (h : Sim n x c₁ f tr c labels active) (hx : x.primask = false)
    (hstarted : c₁.kernel.kernelStarted = true) (hopen : f.mask.primask = false) {a : Action}
    {k : Kernel} (hstep : JustRT.step c a = some ({ c with kernel := k }, {}))
    (hevents : ∀ i, Transition.events i ⟨c, a, {}, { c with kernel := k }⟩ = [])
    (hcurrent : k.gCurrentTaskIndex = c.kernel.gCurrentTaskIndex) :
    Sim n x c₁ (f.withKernel k) (tr ++ [⟨c, a, {}, { c with kernel := k }⟩])
      { c with kernel := k } labels active := by
  have hrun := h.run.snoc hstep
  have hservice : k.timerServiceTaskIndex = c.kernel.timerServiceTaskIndex :=
    (hrun.lasting hstarted).2.trans (h.run.lasting hstarted).2.symm
  have hmask := (h.unmasked hopen).1
  have hnested := h.nested
  rw [hmask] at hnested
  refine ⟨hrun, fun _ => ⟨hmask, rfl⟩, h.handlers, h.pending, h.quiet,
    fun hnone => hcurrent.trans (h.running hnone), h.pc, fun i => ?_, fun i hi => ?_, fun _ => ?_,
    fun i _ => (h.thread_open hmask i).of_open hx _ _, ?_⟩
  · rw [taskLog_snoc, hevents, List.append_nil]
    exact h.log i
  · exact (h.service i hi).trans hservice.symm
  · change ThreadAt n x _ _ f.mask _ _ _
    rw [hmask]
    exact (h.thread_open hmask _).of_open hx _ _
  · change Active.Nested n x f.mask _ _ _
    rw [hmask]
    exact hnested.of_open hx _ _

/-- Whatever step the core takes, the running system comes along. -/
theorem step (h : Sim n x c₁ f tr c labels active) (hx : x.primask = false) (hfits : x.Fits 2)
    (hreach : Reachable img c₁) (hstarted : c₁.kernel.kernelStarted = true)
    (hn : c₁.kernel.taskCount = n) {a : CoreAction} (hstep : f.step a = some f') :
    ∃ tr' c' labels' active', Sim n x c₁ f' tr' c' labels' active' := by
  have hfits₁ : x.Fits 1 := hfits.mono (by omega)
  cases a with
  | call call source fuel =>
      simp only [Core.step] at hstep
      split at hstep
      · next hmay =>
          obtain ⟨huser, hservice⟩ := Core.mayCall_iff.mp hmay
          obtain rfl := h.active_eq (Core.inUser_iff.mp huser).2.1
          obtain ⟨code, hcode, rfl⟩ := Option.map_eq_some_iff.mp hstep
          obtain ⟨tr', c', labels', hsim⟩ := h.call_step hx hfits hstarted hn huser hcode hservice
          exact ⟨tr', c', labels', [], hsim⟩
      · cases hstep
  | svc svcNumber r0 =>
      have huser : f.inUser = true := by
        by_contra hnot
        rw [Core.step, if_neg hnot] at hstep
        cases hstep
      obtain rfl := h.active_eq (Core.inUser_iff.mp huser).2.1
      obtain ⟨tr', c', labels', hsim⟩ := h.svc_step hx hfits₁ hstarted hn hstep
      exact ⟨tr', c', labels', [], hsim⟩
  | thread =>
      simp only [Core.step] at hstep
      split at hstep
      · next hmode =>
          rw [Bool.and_eq_true, Bool.or_eq_true, List.isEmpty_iff, Bool.not_eq_true'] at hmode
          obtain rfl := h.active_eq hmode.1
          have hpending : f.pending = false := by
            rcases hmode.2 with hmasked | hpending
            · exact h.quiet rfl hmasked
            · exact hpending
          obtain ⟨tr', c', labels', hsim⟩ := h.thread_step hx hfits₁ hstarted hn hpending hstep
          exact ⟨tr', c', labels', [], hsim⟩
      · cases hstep
  | exception e =>
      simp only [Core.step] at hstep
      split at hstep
      · next haccepts =>
          obtain rfl := Option.some.inj hstep
          exact ⟨tr, c, labels, _, h.exception_step hx hfits haccepts⟩
      · cases hstep
  | handler =>
      obtain ⟨tr', c', active', hsim⟩ := h.handler_step hx hreach hstarted hn hstep
      exact ⟨tr', c', labels, active', hsim⟩
  | store address word =>
      simp only [Core.step] at hstep
      split at hstep
      · cases hstep
      · next hopen =>
          obtain rfl := Option.some.inj hstep
          have hopen' : f.mask.primask = false := by simpa using hopen
          rw [(h.unmasked hopen').2]
          have hs : JustRT.step c (.store address word) = some ({ c with kernel := { c.kernel with
              memory := fun a => if a = address then word else c.kernel.memory a } }, {}) := rfl
          exact ⟨_, _, labels, active, h.environment_step hx hstarted hopen' hs
            (fun _ => by simp [Transition.events]) rfl⟩
  | cycles now =>
      simp only [Core.step] at hstep
      split at hstep
      · cases hstep
      · next hopen =>
          obtain rfl := Option.some.inj hstep
          have hopen' : f.mask.primask = false := by simpa using hopen
          rw [(h.unmasked hopen').2]
          have hs : JustRT.step c (.cycles now) = some ({ c with kernel := { c.kernel with
              benchmark := { c.kernel.benchmark with dwtCyccnt := now } } }, {}) := rfl
          exact ⟨_, _, labels, active, h.environment_step hx hstarted hopen' hs
            (fun _ => by simp [Transition.events]) rfl⟩

end Sim

/-! ## Runs of the core -/

section Runs

variable {img : Image} {c₀ c₁ : Cfg} {o : Observation} {s : Shared} {x : Mask}
  {counters : SvcCounters} {fuel : Nat} {f : Core}

theorem start_spec (hboot : Boot img c₀) (hstart : step c₀ .start = some (c₁, o)) :
    c₁.kernel.kernelStarted = true ∧ c₁.pending = false
      ∧ (∀ i, c₁.pc i = initialPc c₁.kernel i) := by
  obtain ⟨k₀, config, k, -, rfl⟩ := hboot
  cases step_cases hstart with
  | start _ hk =>
      obtain rfl := jrtKernelStart_spec hk
      exact ⟨rfl, rfl, fun _ => rfl⟩
  | thread _ _ hseg => cases hseg

theorem Sim.started (hboot : Boot img c₀) (hstart : JustRT.step c₀ .start = some (c₁, o))
    (hs : s.kernel = c₁.kernel) (hx : x.primask = false) (hfits : x.Fits 2) :
    Sim c₁.kernel.taskCount x c₁ (.started s x counters fuel) [] c₁
      (fun i => ⟨none, c₁.pc i, []⟩) [] := by
  obtain ⟨-, hpending, hpc⟩ := start_spec hboot hstart
  have hsched : Sched c₁ := (Reachable.step ⟨c₀, [], hboot, .nil⟩ hstart).sched
  have hcount := hsched.count
  have hservice := hsched.service
  have hthread : ∀ i m k s', m = x → ThreadAt c₁.kernel.taskCount x i ⟨none, c₁.pc i, []⟩ m k s'
      ((Core.started s x counters fuel).threads i) := fun i m k s' hm => by
    rw [hm]
    simp only [Core.started, hs, hpc, initialPc]
    by_cases hi : i = c₁.kernel.timerServiceTaskIndex
    · rw [if_pos hi, if_neg (by omega), if_pos hi]
      have hcode : Call.callbackReturn.code (fun _ => 0) fuel = some _ := rfl
      exact timerService_refines hx (hfits.mono (by omega)) hcode k s'
    · simp only [if_neg hi]
      by_cases hidle : i = c₁.kernel.taskCount - 1
      · rw [if_pos hidle]
        exact ⟨rfl, rfl, .inr ⟨rfl, by omega⟩⟩
      · rw [if_neg hidle]
        exact ⟨rfl, rfl, .inl rfl⟩
  refine ⟨.nil, fun _ => ⟨rfl, hs⟩, rfl, ?_, fun _ _ => rfl, fun _ => ?_, fun _ => rfl,
    fun _ => ⟨rfl, fun _ hmem => ?_⟩, fun i htodo => ?_, fun _ => hthread _ _ _ _ rfl,
    fun i _ => hthread i _ _ _ rfl, trivial⟩
  · simpa [Core.started] using hpending
  · exact congrArg Kernel.gCurrentTaskIndex hs.symm
  · cases hmem
  · cases htodo

/-- The running system comes along with every run. -/
theorem Core.Run.sim (hboot : Boot img c₀) (hstart : JustRT.step c₀ .start = some (c₁, o))
    (hs : s.kernel = c₁.kernel) (hx : x.primask = false) (hfits : x.Fits 2)
    (hrun : Core.Run (.started s x counters fuel) f) :
    ∃ tr c labels active, Sim c₁.kernel.taskCount x c₁ f tr c labels active := by
  have hreach : Reachable img c₁ := Reachable.step ⟨c₀, [], hboot, .nil⟩ hstart
  obtain ⟨hstarted, -⟩ := start_spec hboot hstart
  induction hrun with
  | nil => exact ⟨[], c₁, _, [], Sim.started hboot hstart hs hx hfits⟩
  | snoc _ hstep ih =>
      obtain ⟨tr, c, labels, active, hsim⟩ := ih
      exact hsim.step hx hfits hreach hstarted rfl hstep

/-- Every run of the core from where the first task starts is a run of the
running system, with critical sections as single steps. Wherever interrupts are
on, the kernel is the same, and PRIMASK and the nesting count are what they were
at the start; without a handler, so are the running task and the pending switch.
A task that is in no call has seen of its calls what the segments show of them.
A task in a call may have made the call ahead of its first segment, or have yet
to see what the segments have shown of it. -/
theorem code_refines_segments (hboot : Boot img c₀) (hstart : step c₀ .start = some (c₁, o))
    (hs : s.kernel = c₁.kernel) (hx : x.primask = false)
    (hnesting : x.gCriticalNesting.toNat + 2 < 2 ^ 32)
    (hrun : Core.Run (.started s x counters fuel) f) :
    ∃ tr c, Run c₁ tr c
      ∧ (f.mask.primask = false → f.mask = x ∧ f.shared.kernel = c.kernel)
      ∧ (f.handlers = [] → c.current = f.running ∧ c.pending = f.pending)
      ∧ ∀ i, (f.threads i = none → f.log i = taskLog tr i)
          ∧ ((∃ call, f.log i = taskLog tr i ++ [.call call])
            ∨ ∃ owed, taskLog tr i = f.log i ++ owed ∧ ∀ call, .call call ∉ owed) := by
  obtain ⟨tr, c, labels, active, h⟩ := hrun.sim hboot hstart hs hx hnesting
  refine ⟨tr, c, h.run, h.unmasked, fun hempty => ?_, fun i => ⟨fun hnone => ?_, (h.log i).cases⟩⟩
  · obtain rfl := h.active_eq hempty
    exact ⟨h.running rfl, by simpa using h.pending⟩
  · have hlog := (h.log i).log
    obtain ⟨m, k, s', hthread⟩ : ∃ m k s', ThreadAt c₁.kernel.taskCount x i (labels i) m k s'
        (f.threads i) := h.thread_any i
    rw [hnone] at hthread
    rw [Label.calls, hthread.1, hthread.2.1] at hlog
    simpa using hlog.symm

end Runs

def Core.steps (f : Core) : List CoreAction → Option Core
  | [] => some f
  | a :: as =>
      match f.step a with
      | some f' => f'.steps as
      | none => none

theorem Core.Run.steps {f₀ f f' : Core} {as : List CoreAction} (h : Core.Run f₀ f)
    (hsteps : f.steps as = some f') : Core.Run f₀ f' := by
  induction as generalizing f with
  | nil =>
      cases hsteps
      exact h
  | cons a as ih =>
      simp only [Core.steps] at hsteps
      split at hsteps
      · next hstep => exact ih (h.snoc hstep) hsteps
      · cases hsteps

/-- The core on which the sample system starts from `c₁`. -/
def sampleCore (c₁ : Cfg) : Core :=
  .started { Shared.zero with kernel := c₁.kernel } ⟨false, 0⟩ ⟨0, 0⟩ 2

/-- Start the sample system, and take the steps on its core. -/
def sampleCoreRun (priorities : List Nat) (as : List CoreAction) : Option (Cfg × Cfg × Core) :=
  (sampleBoot priorities).bind fun c₀ =>
    (step c₀ .start).bind fun r => ((sampleCore r.1).steps as).map fun f => (c₀, r.1, f)

theorem sampleCoreRun_run {priorities : List Nat} {as : List CoreAction} {c₀ c₁ : Cfg} {f : Core}
    (h : sampleCoreRun priorities as = some (c₀, c₁, f)) :
    Boot .sample c₀ ∧ (∃ o, step c₀ .start = some (c₁, o)) ∧ Core.Run (sampleCore c₁) f := by
  obtain ⟨c₀', hboot, h⟩ := Option.bind_eq_some_iff.mp h
  obtain ⟨⟨c₁', o⟩, hstart, h⟩ := Option.bind_eq_some_iff.mp h
  obtain ⟨f', hsteps, heq⟩ := Option.map_eq_some_iff.mp h
  cases heq
  exact ⟨sampleBoot_boot hboot, ⟨o, hstart⟩, Core.Run.nil.steps hsteps⟩

/-- The first task gives a semaphore. Ahead of its section an interrupt gives it
too, the tick interrupts that in turn, and the switch comes before the task goes
on. -/
def interruptedGive : List CoreAction :=
  [.call (.semaphoreGive 8) (fun _ => 0) 1, .thread,
      .exception (.irq (.semaphoreGiveFromIsr 8)), .handler, .exception .sysTick]
    ++ List.replicate 12 .handler ++ List.replicate 21 .handler
    ++ [.exception (.pendsv (sampleSp 0))] ++ List.replicate 12 .handler
    ++ List.replicate 20 .thread

theorem code_refines_segments_sample : ∃ c₀ c₁ f, sampleCoreRun [2, 1] interruptedGive
      = some (c₀, c₁, f)
    ∧ (f.log 0).length = 2 ∧ f.shared.kernel.gKernelTicks = 1
    ∧ ∃ tr c, Run c₁ tr c ∧ f.shared.kernel = c.kernel ∧ f.log 0 = taskLog tr 0 := by
  have hsome : ((sampleCoreRun [2, 1] interruptedGive).any fun r =>
      (r.2.2.log 0).length == 2 && r.2.2.shared.kernel.gKernelTicks == 1
        && !r.2.2.mask.primask && (r.2.2.threads 0).isNone) = true := by decide +kernel
  obtain ⟨⟨c₀, c₁, f⟩, hsample, htests⟩ := (Option.any_eq_true _ _).mp hsome
  simp only [Bool.and_eq_true, beq_iff_eq, Bool.not_eq_true', Option.isNone_iff_eq_none] at htests
  obtain ⟨⟨⟨hlog, hticks⟩, hopen⟩, hnone⟩ := htests
  obtain ⟨hboot, ⟨o, hstart⟩, hrun⟩ := sampleCoreRun_run hsample
  obtain ⟨tr, c, hrun', hunmasked, -, hlogs⟩ :=
    code_refines_segments hboot hstart rfl rfl (by decide) hrun
  exact ⟨c₀, c₁, f, hsample, hlog, hticks, tr, c, hrun', (hunmasked hopen).2, (hlogs 0).1 hnone⟩

end JustRT
