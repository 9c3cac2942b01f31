import JustRT.Health

/-!
# The checker is silent

What an application promises: it uses objects it has created, creates
none at the null address, and no task locks a mutex `2 ^ 32` times over.
Objects may be created before `JRT_KernelInit` as well as by tasks. Under
these promises `kernel_check_invariants_locked` finds nothing in any tick
of any run.

The promises are about the calls of the run and not about the state, so
that they can be read off an application. The one about nesting is there
because the last of `2 ^ 32` locks wraps the recursion counter to 0 in a
mutex that is locked, which is just what the checker looks for.
-/

namespace JustRT

open Chain

/-! ## Objects and promises -/

structure ObjectRef where
  kind : ObjectKind
  address : Ptr
deriving Repr, DecidableEq

def Call.creates : Call → Option ObjectRef
  | .semaphoreCreateBinaryStatic s _ => some ⟨.semaphore, s⟩
  | .mutexCreateRecursiveStatic m => some ⟨.mutex, m⟩
  | .queueCreateStatic q _ _ _ => some ⟨.queue, q⟩
  | .eventGroupCreateStatic g => some ⟨.eventGroup, g⟩
  | .timerCreateStatic t => some ⟨.timer, t⟩
  | _ => none

/-- The object a call is about and expects to be created. -/
def Call.uses : Call → Option ObjectRef
  | .semaphoreTake s _ | .semaphoreGive s => some ⟨.semaphore, s⟩
  | .mutexLock m _ | .mutexUnlock m => some ⟨.mutex, m⟩
  | .queueSend q _ | .queueReceive q _ => some ⟨.queue, q⟩
  | .eventGroupSetBits g _ | .eventGroupWaitBits g _ _ _ _ => some ⟨.eventGroup, g⟩
  | .timerSetCallback t _ _ | .timerStart t _ | .timerStartPeriodic t _ | .timerRestart t
  | .timerStop t | .timerTakeExpirations t | .timerDispatch t => some ⟨.timer, t⟩
  | _ => none

def WaitCall.uses : WaitCall → Option ObjectRef
  | .semaphoreTake s _ _ => some ⟨.semaphore, s⟩
  | .mutexLock m _ _ => some ⟨.mutex, m⟩
  | .queueSend q _ _ | .queueReceive q _ _ => some ⟨.queue, q⟩
  | .eventGroupWaitBits g _ _ _ _ => some ⟨.eventGroup, g⟩
  | .taskNotifyTake .. | .timerServiceClaim => none

def IsrCall.uses : IsrCall → Option ObjectRef
  | .semaphoreGiveFromIsr s => some ⟨.semaphore, s⟩
  | .queueSendFromIsr q _ => some ⟨.queue, q⟩
  | .taskNotifyFromIsr .. => none
  | .eventGroupSetBitsFromIsr g _ => some ⟨.eventGroup, g⟩

def Action.creates : Action → Option ObjectRef
  | .call made => made.creates
  | _ => none

def Action.uses : Action → Option ObjectRef
  | .call made => made.uses
  | .isr made => made.uses
  | _ => none

def created (tr : List Transition) : List ObjectRef := tr.filterMap fun x => x.action.creates

/-- The critical section of the call locks a mutex once more that its
owner, the running task, has locked `2 ^ 32 - 1` times. -/
def WaitCall.overflows (k : Kernel) : WaitCall → Bool
  | .mutexLock m _ _ => (k.mutexes m).locked != 0 && (k.mutexes m).owner == k.gCurrentTaskIndex
      && (k.mutexes m).recursion == 0xFFFFFFFF
  | _ => false

/-- The action is the critical section of a lock that nests too deep. -/
def Action.overflows (c : Cfg) : Action → Bool
  | .proceed _ =>
      match c.pc c.current with
      | .entered w _ => w.overflows c.kernel
      | _ => false
  | _ => false

/-- What an action has to respect where the objects `objs` exist: it uses these
only, creates none at a null address, and nests no mutex too deep. Of this the
kernel checks next to nothing. -/
structure Action.Allowed (c : Cfg) (objs : List ObjectRef) (a : Action) : Prop where
  uses : ∀ r, a.uses = some r → r ∈ objs
  creates : ∀ r, a.creates = some r → r.address ≠ 0
  nesting : a.overflows c = false

instance (c : Cfg) (objs : List ObjectRef) (a : Action) : Decidable (a.Allowed c objs) :=
  decidable_of_iff ((∀ r ∈ a.uses, r ∈ objs) ∧ (∀ r ∈ a.creates, r.address ≠ 0)
      ∧ a.overflows c = false)
    ⟨fun h => ⟨h.1, h.2.1, h.2.2⟩, fun h => ⟨h.uses, h.creates, h.nesting⟩⟩

/-- The application keeps its promises along the run, which starts where
the objects `objs` exist. -/
def Disciplined : List ObjectRef → List Transition → Prop
  | _, [] => True
  | objs, x :: tr =>
      x.action.Allowed x.pre objs ∧ Disciplined (objs ++ x.action.creates.toList) tr

instance decidableDisciplined :
    (objs : List ObjectRef) → (tr : List Transition) → Decidable (Disciplined objs tr)
  | _, [] => isTrue trivial
  | objs, x :: tr =>
      have := decidableDisciplined (objs ++ x.action.creates.toList) tr
      inferInstanceAs (Decidable (_ ∧ _))

theorem created_cons (x : Transition) (tr : List Transition) :
    created (x :: tr) = x.action.creates.toList ++ created tr := by
  rw [created, List.filterMap_cons]
  cases x.action.creates <;> rfl

theorem disciplined_snoc {objs : List ObjectRef} {tr : List Transition} {x : Transition} :
    Disciplined objs (tr ++ [x])
      ↔ Disciplined objs tr ∧ x.action.Allowed x.pre (objs ++ created tr) := by
  induction tr generalizing objs with
  | nil => simp [Disciplined, created]
  | cons y tr ih =>
      rw [List.cons_append, Disciplined, ih, created_cons, Disciplined, and_assoc,
        List.append_assoc]

/-- What an application may do before `JRT_KernelInit`: create objects, and
make calls that return. -/
inductive Prepared : Kernel → List ObjectRef → Prop where
  | zeroed {k : Kernel} : k.mutexList = 0 → k.timerList = 0 → k.taskCount = 0 →
      k.gCurrentTaskIndex = 0 → Prepared k []
  | call {k : Kernel} {objs : List ObjectRef} {made : Call} {s : Segment} : Prepared k objs →
      enter k made = .ok s → (∀ r, made.uses = some r → r ∈ objs) →
      (∀ r, made.creates = some r → r.address ≠ 0) →
      Prepared s.kernel (objs ++ made.creates.toList)
  | returned {k : Kernel} {objs : List ObjectRef} {w : WaitCall} {source : Nat → UInt8}
      {s : Segment} : Prepared k objs → proceedEntered k source false w = .ok s →
      (∀ r, w.uses = some r → r ∈ objs) → w.overflows k = false → Prepared s.kernel objs

/-! ## Objects stay as the checker wants them -/

/-- The mutexes and timers that exist are listed, and what is listed is
consistent; `n` bounds the owners. -/
structure Objects (n : Nat) (objs : List ObjectRef) (k : Kernel) : Prop where
  nonnull : ∀ r ∈ objs, r.address ≠ 0
  mutexes : ∃ l, Mutexes k l ∧ (∀ m ∈ l, (k.mutexes m).Sound n)
    ∧ ∀ m, ⟨.mutex, m⟩ ∈ objs → m ∈ l
  timers : ∃ l, Timers k l ∧ (∀ t ∈ l, (k.timers t).Consistent)
    ∧ ∀ t, ⟨.timer, t⟩ ∈ objs → t ∈ l

section Objects

variable {c c' : Cfg} {a : Action} {o : Observation} {l : List Ptr} {objs : List ObjectRef}
  {n : Nat}

theorem add_one_ne_zero {w : UInt32} (h : w ≠ 0xFFFFFFFF) : w + 1 ≠ 0 := by
  intro hzero
  have hw : w + 1 - 1 = 0xFFFFFFFF := by
    rw [hzero]
    rfl
  rw [UInt32.add_sub_cancel] at hw
  exact h hw

theorem JrtMutex.Sound.onMutex {m : Ptr} (h : (c.kernel.mutexes m).Sound n)
    (hcur : c.current < n) (hn : c.kernel.taskCount ≤ n) (hnesting : a.overflows c = false) :
    (a.onMutex c m (c.kernel.mutexes m)).Sound n := by
  cases a with
  | call made =>
      cases made with
      | mutexCreateRecursiveStatic b =>
          simp only [Action.onMutex, Call.onMutex]
          split
          · exact sound_unlocked _ n
          · exact h
      | mutexUnlock b =>
          simp only [Action.onMutex, Call.onMutex]
          split
          · refine h.unlockedFor fun s hs => ?_
            exact Nat.lt_of_lt_of_le (wakeSelect_spec hs).1 hn
          · exact h
      | _ => exact h
  | proceed source =>
      simp only [Action.onMutex]
      split
      · next b timeout deadline reserved hpc =>
          split
          · next heq =>
              subst heq
              refine h.lockedFor hcur fun hlocked howner => add_one_ne_zero fun hmax => ?_
              have hover : c.kernel.gCurrentTaskIndex = c.current := rfl
              simp [Action.overflows, hpc, WaitCall.overflows, hlocked, howner, hmax, hover]
                at hnesting
          · exact h
      · exact h
  | _ => exact h

theorem segment_objects {s : Segment} (h : Objects n objs c.kernel) (hallowed : a.Allowed c objs)
    (hcur : c.current < n) (hn : c.kernel.taskCount ≤ n) (hseg : ThreadSegment c a s) :
    ∃ l, Mutexes s.kernel l ∧ (∀ m ∈ l, (s.kernel.mutexes m).Sound n)
      ∧ ∀ m, ⟨.mutex, m⟩ ∈ objs ++ a.creates.toList → m ∈ l := by
  obtain ⟨l, hl, hsound, hlisted⟩ := h.mutexes
  have hrecord := segment_mutex hseg
  have hlist : Mutexes s.kernel (a.mutexesBehind l) := by
    refine segment_mutexList hl hseg fun m hm => hallowed.creates ⟨.mutex, m⟩ ?_
    rw [hm]
    rfl
  have hold : ∀ m ∈ l, (s.kernel.mutexes m).Sound n := by
    intro m hm
    obtain ⟨next, heq⟩ := hrecord m
    have hm' := (hsound m hm).onMutex hcur hn hallowed.nesting
    rw [heq]
    exact ⟨hm'.unlocked, hm'.locked⟩
  by_cases hcreates : ∃ b, a = .call (.mutexCreateRecursiveStatic b)
  · obtain ⟨b, rfl⟩ := hcreates
    refine ⟨linkedList l b, hlist, fun m hm => ?_, fun m hm => ?_⟩
    · rcases mem_linkedList.mp hm with rfl | hm
      · obtain ⟨next, heq⟩ := hrecord m
        have hnew := sound_unlocked (c.kernel.mutexes m) n
        simp only [Action.onMutex, Call.onMutex, if_true] at heq
        rw [heq]
        exact ⟨hnew.unlocked, hnew.locked⟩
      · exact hold m hm
    · rw [mem_linkedList]
      rcases List.mem_append.mp hm with hm | heq
      · exact Or.inr (hlisted m hm)
      · exact Or.inl (ObjectRef.mk.inj (List.mem_singleton.mp heq)).2
  · rw [mutexesBehind_eq fun b ha => hcreates ⟨b, ha⟩] at hlist
    refine ⟨l, hlist, hold, fun m hm => ?_⟩
    rcases List.mem_append.mp hm with hm | hnew
    · exact hlisted m hm
    · refine absurd ?_ hcreates
      rw [Option.mem_toList] at hnew
      cases a with
      | call made =>
          cases made with
          | mutexCreateRecursiveStatic b => exact ⟨b, rfl⟩
          | _ => cases hnew
      | _ => cases hnew

def Action.timersBehind (c : Cfg) (l : List Ptr) : Action → List Ptr
  | .call made => made.timersBehind c.kernel l
  | _ => l

theorem segment_timersBehind (h : Timers c.kernel l) {s : Segment} (hseg : ThreadSegment c a s) :
    Timers s.kernel (a.timersBehind c l) := by
  have hrest : ∀ kind, HeapExcept kind c.kernel s.kernel → kind ≠ .timer → Timers s.kernel l :=
    fun _ hheap hkind => h.of_eq (hheap.timers hkind) (hheap.timerList hkind)
  cases hseg with
  | call _ _ hs => exact enter_timersBehind h hs
  | @entered w _ _ _ _ hs =>
      cases w with
      | timerServiceClaim =>
          simp only [proceedEntered, exec_bind_eq_ok] at hs
          obtain ⟨⟨claimed, k'⟩, hclaim, hs⟩ := hs
          rcases kernelTimerServiceClaim_cases h hclaim with
            ⟨t, -, rfl, -, rfl⟩ | ⟨rfl, -, rfl⟩
          · obtain rfl := Except.ok.inj hs
            exact h.setTimer fun _ => rfl
          · obtain rfl := Except.ok.inj hs
            exact h.of_eq (by simp) (by simp)
      | _ => exact hrest _ (proceedEntered_heap hs) (by simp [WaitCall.objectKind])
  | @resumed w =>
      cases w with
      | timerServiceClaim => exact h
      | _ => exact hrest _ (proceedResumed_heap _ _) (by simp [WaitCall.objectKind])
  | yielding => exact h
  | requestSwitch => exact h
  | inTime => exact h
  | delayed => exact hrest .none (.of_table (sleepCurrent_frame _ _)) (by simp)

/-- What a call leaves on the list was on it, or is a consistent timer the
call linked. -/
theorem linked_consistent {made : Call} {t : Ptr} (ht : t ∈ made.timersBehind c.kernel l)
    (hnot : t ∉ l) (hrestart : ∀ b, made = .timerRestart b → b ∈ l) :
    (made.onTimer t c.kernel.gKernelTicks (c.kernel.timers t)).Consistent := by
  have hlinked : ∀ {p : Prop} [Decidable p] {b : Ptr}, t ∈ (if p then l else linkedList l b) →
      ¬p ∧ t = b := by
    intro p _ b hmem
    split at hmem
    · exact absurd hmem hnot
    · next hp => exact ⟨hp, (mem_linkedList.mp hmem).resolve_right hnot⟩
  cases made with
  | timerCreateStatic b =>
      obtain ⟨-, rfl⟩ := hlinked ht
      simp only [Call.onTimer, if_true]
      exact consistent_created _
  | timerStart b delay =>
      obtain ⟨-, rfl⟩ := hlinked ht
      simp only [Call.onTimer, if_true]
      exact consistent_started _ _ _
  | timerStartPeriodic b period =>
      obtain ⟨hp, rfl⟩ := hlinked ht
      have hperiod : period ≠ 0 := fun hzero => hp (Or.inr hzero)
      simp only [Call.onTimer, true_and, if_pos hperiod]
      exact consistent_startedPeriodic _ _ hperiod
  | timerRestart b =>
      obtain ⟨-, rfl⟩ := hlinked ht
      exact absurd (hrestart t rfl) hnot
  | _ => exact absurd ht hnot

theorem segment_timers (h : Objects n objs c.kernel) (hallowed : a.Allowed c objs) {s : Segment}
    (hseg : ThreadSegment c a s) :
    ∃ l, Timers s.kernel l ∧ (∀ t ∈ l, (s.kernel.timers t).Consistent)
      ∧ ∀ t, ⟨.timer, t⟩ ∈ objs ++ a.creates.toList → t ∈ l := by
  obtain ⟨l, hl, hconsistent, hlisted⟩ := h.timers
  have hbehind := segment_timersBehind hl hseg
  have hrecord : ∀ t ∈ a.timersBehind c l,
      (a.onTimer c t (c.kernel.timers t)).Consistent → (s.kernel.timers t).Consistent := by
    intro t ht hon
    have hne : t ≠ 0 := fun hzero => hbehind.nil_not_mem (hzero ▸ ht)
    obtain ⟨next, heq⟩ := (segment_onTimer hl hne hseg).record
    rw [heq]
    exact hon
  refine ⟨a.timersBehind c l, hbehind, fun t ht => hrecord t ht ?_, fun t ht => ?_⟩
  · cases a with
    | call made =>
        by_cases hmem : t ∈ l
        · exact (hconsistent t hmem).onTimer made t _
        · refine linked_consistent ht hmem fun b hb => hlisted b (hallowed.uses _ ?_)
          rw [hb]
          rfl
    | proceed source =>
        simp only [Action.onTimer]
        split <;> exact hconsistent t ht
    | _ => exact hconsistent t ht
  · rcases (List.mem_append.mp ht).symm with hnew | hold
    · rw [Option.mem_toList] at hnew
      cases a with
      | call made =>
          cases made with
          | timerCreateStatic b =>
              obtain rfl : b = t := (ObjectRef.mk.inj (Option.some.inj hnew)).2
              have hne : b ≠ 0 := hallowed.creates _ rfl
              simp only [Action.timersBehind, Call.timersBehind, if_neg hne]
              exact mem_linkedList.mpr (Or.inl rfl)
          | _ => cases hnew
      | _ => cases hnew
    · have hmem := hlisted t hold
      cases a with
      | call made =>
          have hkept : ∀ {p : Prop} [Decidable p] {b : Ptr},
              t ∈ (if p then l else linkedList l b) := by
            intro p _ b
            split
            · exact hmem
            · exact mem_linkedList.mpr (Or.inr hmem)
          cases made with
          | timerCreateStatic | timerStart | timerStartPeriodic | timerRestart => exact hkept
          | _ => exact hmem
      | _ => exact hmem

/-- A segment keeps the objects as the checker wants them. -/
theorem Objects.segment (h : Objects n objs c.kernel) (hallowed : a.Allowed c objs)
    (hcur : c.current < n) (hn : c.kernel.taskCount ≤ n) {s : Segment}
    (hseg : ThreadSegment c a s) : Objects n (objs ++ a.creates.toList) s.kernel := by
  refine ⟨fun r hr => ?_, segment_objects h hallowed hcur hn hseg, segment_timers h hallowed hseg⟩
  rcases (List.mem_append.mp hr).symm with hnew | hold
  · exact hallowed.creates r (Option.mem_toList.mp hnew)
  · exact h.nonnull r hold

theorem Objects.of_eq {k k' : Kernel} (h : Objects n objs k) (hmutexes : k'.mutexes = k.mutexes)
    (hmutexList : k'.mutexList = k.mutexList) (htimers : k'.timers = k.timers)
    (htimerList : k'.timerList = k.timerList) : Objects n objs k' := by
  obtain ⟨l, hl, hsound, hlisted⟩ := h.mutexes
  obtain ⟨l', hl', hconsistent, hlisted'⟩ := h.timers
  refine ⟨h.nonnull, ⟨l, ?_, ?_, hlisted⟩, ⟨l', hl'.of_eq htimers htimerList, ?_, hlisted'⟩⟩
  · exact hl.of_next_eq (fun m => by rw [hmutexes]) hmutexList
  · rw [hmutexes]
    exact hsound
  · rw [htimers]
    exact hconsistent

theorem Objects.mono {k : Kernel} {objs' : List ObjectRef} {n' : Nat} (h : Objects n objs k)
    (hle : n ≤ n') (hsub : ∀ r ∈ objs', r ∈ objs) : Objects n' objs' k := by
  obtain ⟨l, hl, hsound, hlisted⟩ := h.mutexes
  obtain ⟨l', hl', hconsistent, hlisted'⟩ := h.timers
  exact ⟨fun r hr => h.nonnull r (hsub r hr),
    ⟨l, hl, fun m hm => (hsound m hm).mono hle, fun m hm => hlisted m (hsub _ hm)⟩,
    ⟨l', hl', hconsistent, fun t ht => hlisted' t (hsub _ ht)⟩⟩

/-- A tick counts timers on, and keeps everything else. -/
theorem Objects.tick {k k' : Kernel} (h : Objects n objs k) (htick : tickTasksBody k = .ok k') :
    Objects n objs k' := by
  obtain ⟨l, hl, hconsistent, hlisted⟩ := h.timers
  obtain ⟨hl', htimers⟩ := tickTasksBody_timers hl htick
  have hframe := tickTasksBody_frame htick
  simp only [TickFrame] at hframe
  have hmutexes : Objects n objs { k' with timers := k.timers, timerList := k.timerList } :=
    h.of_eq (by simp [hframe]) (by simp [hframe]) rfl rfl
  refine ⟨h.nonnull, hmutexes.mutexes, ⟨l, hl', fun t ht => ?_, hlisted⟩⟩
  rw [htimers, if_pos ht]
  exact (hconsistent t ht).ticked _

/-- Every step keeps the objects as the checker wants them. -/
theorem Objects.step (h : Objects n objs c.kernel) (hallowed : a.Allowed c objs)
    (hcur : c.current < n) (hn : c.kernel.taskCount ≤ n) (hstep : StepCases c a c' o) :
    Objects n (objs ++ a.creates.toList) c'.kernel := by
  have hkept : a.creates = none → Objects n objs c'.kernel →
      Objects n (objs ++ a.creates.toList) c'.kernel := by
    intro hnone hsame
    rw [hnone, Option.toList_none, List.append_nil]
    exact hsame
  cases hstep with
  | start _ hk =>
      obtain rfl := jrtKernelStart_spec hk
      exact hkept rfl (h.of_eq rfl rfl rfl rfl)
  | thread _ _ hseg => exact h.segment hallowed hcur hn hseg
  | tick _ hk => exact hkept rfl (h.tick (tickTasks_body hk))
  | @isr call _ =>
      have hheap := isrCall_heap c.kernel call
      have hkind : call.objectKind ≠ .mutex ∧ call.objectKind ≠ .timer := by
        cases call <;> simp [IsrCall.objectKind]
      exact hkept rfl (h.of_eq (hheap.mutexes hkind.1) (hheap.mutexList hkind.1)
        (hheap.timers hkind.2) (hheap.timerList hkind.2))
  | pendsv _ _ hk =>
      have hheap := pendsvSwitch_heap hk .none
      exact hkept rfl (h.of_eq (hheap.mutexes (by simp)) (hheap.mutexList (by simp))
        (hheap.timers (by simp)) (hheap.timerList (by simp)))
  | store => exact hkept rfl (h.of_eq rfl rfl rfl rfl)
  | cycles => exact hkept rfl (h.of_eq rfl rfl rfl rfl)

end Objects

/-! ## Waits are for objects -/

/-- The wait object of a call on an existing object is not null. -/
theorem object_ne_null {w : WaitCall} (h : ∀ r, w.uses = some r → r.address ≠ 0) (i : Nat) :
    w.object i ≠ .null := by
  have haddress : ∀ r, w.uses = some r → WaitObject.ptr r.address ≠ .null := by
    intro r hr hnull
    exact h r hr (WaitObject.ptr.inj hnull)
  cases w with
  | taskNotifyTake => exact fun hnull => nomatch hnull
  | timerServiceClaim => exact fun hnull => nomatch hnull
  | _ => exact haddress _ rfl

/-- A call enters the blocking call on the object it uses. -/
theorem enter_waitCall {k : Kernel} {call : Call} {s : Segment} (h : enter k call = .ok s)
    {w : WaitCall} (hw : s.pc.waitCall = some w) : w.uses = call.uses := by
  cases call with
  | taskDelayUntil previousWake =>
      cases previousWake <;> obtain rfl := Except.ok.inj h <;> cases hw
  | mutexCreateRecursiveStatic | timerCreateStatic | timerStart | timerStartPeriodic
  | timerRestart =>
      simp only [enter, exec_bind_eq_ok] at h
      obtain ⟨k', -, h⟩ := h
      obtain rfl := Except.ok.inj h
      cases hw
  | taskNotify | eventGroupSetBits | timerSetCallback =>
      simp only [enter] at h
      split at h <;> obtain rfl := Except.ok.inj h <;> cases hw
  | semaphoreTake | mutexLock | queueSend | queueReceive | taskNotifyTake | eventGroupWaitBits
  | callbackReturn =>
      obtain rfl := Except.ok.inj h
      obtain rfl := Option.some.inj hw
      rfl
  | _ =>
      obtain rfl := Except.ok.inj h
      cases hw

/-- The running task is in the blocking call it was in, or has entered one. -/
theorem ThreadSegment.waitCall {c : Cfg} {a : Action} {s : Segment} (h : ThreadSegment c a s)
    {w : WaitCall} (hw : s.pc.waitCall = some w) :
    (c.pc c.current).waitCall = some w ∨ w.uses = a.uses := by
  cases h with
  | call _ _ hs => exact Or.inr (enter_waitCall hs hw)
  | entered hpc hs =>
      refine Or.inl ?_
      rcases proceedEntered_pc hs with huser | hyielding
      · rw [huser] at hw
        cases hw
      · rw [hyielding] at hw
        rw [hpc]
        exact hw
  | yielding hpc =>
      refine Or.inl ?_
      rw [hpc]
      exact hw
  | @resumed call _ hpc =>
      refine Or.inl ?_
      obtain ⟨-, hyielding, hresumed⟩ := proceedResumed_view c.kernel call
      rw [hpc]
      cases hs : (proceedResumed c.kernel call).pc with
      | entered v reserved =>
          rw [hs] at hw
          obtain rfl := proceedResumed_entered hs
          exact hw
      | yielding v => exact absurd hs (hyielding v)
      | resumed v => exact absurd hs (hresumed v)
      | _ =>
          rw [hs] at hw
          cases hw
  | requestSwitch => cases hw
  | inTime => cases hw
  | delayed => cases hw

theorem WaitView.Consistent.woken {R : WaitView → UInt32 → Prop} {v v' : WaitView}
    (h : v.Consistent) (hw : Woken R v v') : v'.Consistent := by
  refine ⟨fun hb => ?_, h.clean.woken hw⟩
  have heq := hw.eq_of_blocked hb
  rw [heq] at hb ⊢
  exact h.blocked hb

/-! ## The invariant -/

/-- What every step keeps, where the objects `objs` exist. A call in progress
names an object that was not null when it entered, so a blocked task has one to
wait on. -/
structure Kept (objs : List ObjectRef) (c : Cfg) : Prop where
  sched : Sched c
  objects : Objects c.kernel.taskCount objs c.kernel
  clean : ∀ i < c.kernel.taskCount, (c.kernel.view i).Clean
  addressed : ∀ i w, (c.pc i).waitCall = some w → w.object i ≠ .null

namespace Kept

variable {c c' : Cfg} {a : Action} {o : Observation} {objs : List ObjectRef}

theorem step (h : Kept objs c) (hallowed : a.Allowed c objs) (hstep : StepCases c a c' o) :
    Kept (objs ++ a.creates.toList) c' := by
  have hn := hstep.taskCount
  refine ⟨h.sched.step hstep, ?_, ?_, ?_⟩
  · rw [hn]
    exact h.objects.step hallowed h.sched.current_lt (Nat.le_refl _) hstep
  · intro i hi
    exact hstep.clean h.sched (h.clean i (hn ▸ hi))
  · intro i w hw
    cases hstep with
    | thread _ _ hseg =>
        by_cases hi : i = c.current
        · subst hi
          rw [Sched.after_pc_current] at hw
          rcases hseg.waitCall hw with hold | huses
          · exact h.addressed _ w hold
          · refine object_ne_null (fun r hr => ?_) _
            exact h.objects.nonnull r (hallowed.uses r (huses ▸ hr))
        · rw [Sched.after_pc_of_ne _ hi] at hw
          exact h.addressed i w hw
    | _ => exact h.addressed i w hw

/-- A blocked task waits on the object of its call. -/
theorem consistent (h : Kept objs c) {i : Nat} (hi : i < c.kernel.taskCount) :
    (c.kernel.view i).Consistent := by
  refine ⟨fun hb => ?_, h.clean i hi⟩
  obtain ⟨w, hwithin⟩ := h.sched.blocked i hi hb
  obtain ⟨-, hobject, hkind⟩ := (h.sched.waiting i w hwithin).on hb
  rw [hobject, hkind]
  refine ⟨h.addressed i w hwithin.waitCall, ?_⟩
  cases w <;> exact fun hnone => nomatch hnone

end Kept

theorem Objects.healthy {k : Kernel} {objs : List ObjectRef} (h : Objects k.taskCount objs k)
    (htasks : ∀ i < k.taskCount, (k.view i).Consistent) : Healthy k := by
  obtain ⟨l, hl, hsound, -⟩ := h.mutexes
  obtain ⟨l', hl', hconsistent, -⟩ := h.timers
  exact ⟨htasks, ⟨l, hl, Linked.nodup hl, hsound⟩, ⟨l', hl', Linked.nodup hl', hconsistent⟩⟩

/-- The checker finds nothing in the tick of a kept configuration. -/
theorem Kept.tick {c : Cfg} {objs : List ObjectRef} (h : Kept objs c) :
    ∃ k', tickTasksBody c.kernel = .ok k' ∧ Objects k'.taskCount objs k' ∧ Healthy k'
      ∧ kernelCheckInvariantsLocked k' = .ok () ∧ tickTasks c.kernel = .ok k' := by
  obtain ⟨l, hl, -⟩ := h.objects.timers
  obtain ⟨k', htick⟩ := tickTasksBody_ok hl
  have hn : k'.taskCount = c.kernel.taskCount := (tickTasksBody_frame htick).1
  have hobjects : Objects k'.taskCount objs k' := by
    rw [hn]
    exact h.objects.tick htick
  have hhealthy : Healthy k' := by
    refine hobjects.healthy fun i hi => ?_
    exact (h.consistent (hn ▸ hi)).woken (tickTasksBody_wakes htick i)
  have hcheck := (kernelCheckInvariantsLocked_eq_ok_iff k').mpr hhealthy
  exact ⟨k', htick, hobjects, hhealthy, hcheck,
    exec_bind_eq_ok.mpr ⟨k', htick, exec_bind_eq_ok.mpr ⟨(), hcheck, rfl⟩⟩⟩

/-! ## Runs -/

theorem Run.kept {c₀ c : Cfg} {tr : List Transition} {objs : List ObjectRef}
    (hrun : Run c₀ tr c) (hdisciplined : Disciplined objs tr) (h : Kept objs c₀) :
    Kept (objs ++ created tr) c := by
  induction hrun with
  | nil =>
      rw [created, List.filterMap_nil, List.append_nil]
      exact h
  | snoc _ hs ih =>
      obtain ⟨hbefore, hallowed⟩ := disciplined_snoc.mp hdisciplined
      rw [created, filterMap_snoc, ← List.append_assoc]
      exact (ih hbefore).step hallowed (step_cases hs)

/-- Before `JRT_KernelInit` there are no tasks, and objects are kept. -/
theorem Prepared.objects {k : Kernel} {objs : List ObjectRef} (h : Prepared k objs) :
    k.taskCount = 0 ∧ k.gCurrentTaskIndex = 0 ∧ Objects 1 objs k := by
  induction h with
  | @zeroed k hmutexList htimerList hn hcur =>
      refine ⟨hn, hcur, fun r hr => (nomatch hr), ⟨[], ?_, fun m hm => (nomatch hm),
        fun m hm => (nomatch hm)⟩, ⟨[], ?_, fun t ht => (nomatch ht), fun t ht => (nomatch ht)⟩⟩
      · rw [Mutexes, hmutexList]
        exact .nil
      · rw [Timers, htimerList]
        exact .nil
  | @call k objs made s _ hs huses hcreates ih =>
      obtain ⟨hn, hcur, hobjects⟩ := ih
      have hframe := enter_frame hs
      refine ⟨hframe.1.trans hn, hframe.2.2.1.trans hcur, ?_⟩
      by_cases hmade : made = .callbackReturn
      · subst hmade
        obtain rfl := Except.ok.inj hs
        exact hobjects.mono (Nat.le_refl 1) fun r hr => (List.append_nil objs) ▸ hr
      · have hseg : ThreadSegment ⟨k, fun _ => .user, false⟩ (.call made) s :=
          .call rfl (fun heq => absurd heq hmade) hs
        have hallowed : (Action.call made).Allowed ⟨k, fun _ => .user, false⟩ objs :=
          ⟨huses, hcreates, rfl⟩
        refine hobjects.segment hallowed ?_ ?_ hseg
        · exact Nat.lt_of_le_of_lt (Nat.le_of_eq hcur) Nat.zero_lt_one
        · exact Nat.le_trans (Nat.le_of_eq hn) (Nat.zero_le 1)
  | @returned k objs w source s _ hs huses hnesting ih =>
      obtain ⟨hn, hcur, hobjects⟩ := ih
      have hframe := proceedEntered_frame hs
      have hseg : ThreadSegment ⟨k, fun _ => .entered w false, false⟩ (.proceed source) s :=
        .entered rfl hs
      refine ⟨hframe.1.trans hn, hframe.2.2.1.trans hcur, ?_⟩
      have hallowed : (Action.proceed source).Allowed ⟨k, fun _ => .entered w false, false⟩ objs := by
        refine ⟨fun r hr => ?_, fun r hr => ?_, hnesting⟩
        · cases hr
        · cases hr
      have hsame : objs ++ (Action.proceed source).creates.toList = objs := List.append_nil objs
      rw [← hsame]
      refine hobjects.segment hallowed ?_ ?_ hseg
      · exact Nat.lt_of_le_of_lt (Nat.le_of_eq hcur) Nat.zero_lt_one
      · exact Nat.le_trans (Nat.le_of_eq hn) (Nat.zero_le 1)

/-- The configuration behind `JRT_KernelInit` is kept. -/
theorem Kept.boot {k₀ k : Kernel} {objs : List ObjectRef} (hobjects : Objects 1 objs k₀)
    (h : Booted k₀ k) : Kept objs (bootCfg k) := by
  obtain ⟨-, -, hmutexes, hmutexList, -, -, htimers, htimerList⟩ := h.heap
  have hpos : 1 ≤ k.taskCount := by
    have := h.taskCount_eq
    omega
  refine ⟨.boot h, ?_, fun i hi => h.clean hi, fun i w hw => ?_⟩
  · exact (hobjects.of_eq hmutexes hmutexList htimers htimerList).mono hpos fun _ hr => hr
  · change (initialPc k i).waitCall = some w at hw
    unfold initialPc at hw
    split at hw
    · cases hw
    · split at hw
      · obtain rfl := Option.some.inj hw
        exact fun hnull => nomatch hnull
      · cases hw

/-! ## The theorem -/

/-- In every run of an application that keeps its promises the kernel stays
healthy, and so in every tick the invariant checker finds nothing; every
mutex and timer that was created is on its list then, and consistent. -/
theorem invariant_checker_silent (img : Image) (config : JrtKernelConfig) (k₀ k : Kernel)
    (objs : List ObjectRef) (tr : List Transition) (c : Cfg) (hprepared : Prepared k₀ objs)
    (hinit : jrtKernelInit img k₀ (some config) = .ok (.ok, k)) (hrun : Run (bootCfg k) tr c)
    (hdisciplined : Disciplined objs tr) :
    Healthy c.kernel ∧ ∃ k', tickTasksBody c.kernel = .ok k' ∧ Healthy k'
      ∧ (∀ m, ⟨.mutex, m⟩ ∈ objs ++ created tr → (k'.mutexes m).Sound k'.taskCount)
      ∧ (∀ t, ⟨.timer, t⟩ ∈ objs ++ created tr → (k'.timers t).Consistent)
      ∧ kernelCheckInvariantsLocked k' = .ok () ∧ tickTasks c.kernel = .ok k' := by
  have hkept : Kept (objs ++ created tr) c :=
    hrun.kept hdisciplined (.boot hprepared.objects.2.2 (jrtKernelInit_booted hinit))
  obtain ⟨k', hbody, hobjects, hhealthy, hcheck, htick⟩ := hkept.tick
  obtain ⟨l, -, hsound, hlisted⟩ := hobjects.mutexes
  obtain ⟨l', -, hconsistent, hlisted'⟩ := hobjects.timers
  exact ⟨hkept.objects.healthy fun i hi => hkept.consistent hi, k', hbody, hhealthy,
    fun m hm => hsound m (hlisted m hm), fun t ht => hconsistent t (hlisted' t ht), hcheck, htick⟩

/-- Make the calls before `JRT_KernelInit`: the kernel and the objects they
leave, if they keep the promises. -/
def prepare (k : Kernel) (objs : List ObjectRef) : List Call → Option (Kernel × List ObjectRef)
  | [] => some (k, objs)
  | made :: calls =>
      if (∀ r ∈ made.uses, r ∈ objs) ∧ ∀ r ∈ made.creates, r.address ≠ 0 then
        match enter k made with
        | .ok s => prepare s.kernel (objs ++ made.creates.toList) calls
        | .error _ => none
      else none

theorem prepare_prepared {k k' : Kernel} {objs objs' : List ObjectRef} {calls : List Call}
    (h : Prepared k objs) (hcalls : prepare k objs calls = some (k', objs')) :
    Prepared k' objs' := by
  induction calls generalizing k objs with
  | nil =>
      obtain ⟨rfl, rfl⟩ := Prod.mk.inj (Option.some.inj hcalls)
      exact h
  | cons made calls ih =>
      simp only [prepare] at hcalls
      split at hcalls
      · next hpromises =>
          split at hcalls
          · next hs => exact ih (h.call hs hpromises.1 hpromises.2) hcalls
          · cases hcalls
      · cases hcalls

/-- Before the kernel is initialised a mutex and a timer are created. Then
the first task locks the mutex, starts the timer and goes to sleep, and the
second creates a mutex of its own, locks it twice, and waits for the first
one. -/
def promiseActions : List Action :=
  [.start, .call (.mutexLock 16 100), .proceed fun _ => 0, .call (.timerStartPeriodic 32 2),
    .call (.taskDelay 3), .pendsv (sampleSp 0), .tick, .pendsv (sampleSp 1),
    .call (.mutexCreateRecursiveStatic 24), .call (.mutexLock 24 0), .proceed fun _ => 0,
    .call (.mutexLock 24 0), .proceed fun _ => 0, .call (.mutexLock 16 5), .proceed fun _ => 0]

theorem invariant_checker_silent_sample : ∃ k₀ objs k tr c k',
    prepare (.zero 0) [] [.mutexCreateRecursiveStatic 16, .timerCreateStatic 32] = some (k₀, objs)
      ∧ jrtKernelInit .sample k₀ (some (.sample [2, 1])) = .ok (.ok, k)
      ∧ runActions (bootCfg k) promiseActions = some (tr, c)
      ∧ (c.kernel.tasks 1).state = .blocked ∧ (c.kernel.mutexes 24).recursion = 2
      ∧ tickTasks c.kernel = .ok k' ∧ Healthy k' := by
  have hsome : ((prepare (.zero 0) [] [.mutexCreateRecursiveStatic 16, .timerCreateStatic 32]).any
      fun r =>
        passes (jrtKernelInit .sample r.1 (some (.sample [2, 1]))) fun s =>
          s.1 == .ok && (runActions (bootCfg s.2) promiseActions).any fun x =>
            decide ((x.2.kernel.tasks 1).state = .blocked ∧ (x.2.kernel.mutexes 24).recursion = 2
              ∧ Disciplined r.2 x.1)) = true := by decide +kernel
  obtain ⟨⟨k₀, objs⟩, hprepare, hinit⟩ := (Option.any_eq_true _ _).mp hsome
  obtain ⟨⟨status, k⟩, hk, htest⟩ := passes_eq_true.mp hinit
  rw [Bool.and_eq_true, beq_iff_eq] at htest
  obtain ⟨rfl, hruns⟩ := htest
  obtain ⟨⟨tr, c⟩, hrun, hc⟩ := (Option.any_eq_true _ _).mp hruns
  obtain ⟨hblocked, hrecursion, hdisciplined⟩ := of_decide_eq_true hc
  have hprepared := prepare_prepared (.zeroed rfl rfl rfl rfl) hprepare
  obtain ⟨-, k', -, hhealthy, -, -, -, htick⟩ := invariant_checker_silent .sample
    (.sample [2, 1]) k₀ k objs tr c hprepared hk (runActions_run hrun) hdisciplined
  exact ⟨k₀, objs, k, tr, c, k', hprepare, hk, hrun, hblocked, hrecursion, htick, hhealthy⟩

end JustRT
