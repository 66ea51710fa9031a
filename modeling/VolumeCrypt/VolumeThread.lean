import VolumeCrypt.StepRun
import Mathlib.Data.List.Perm.Subperm

/-!
# The per-volume thread

`lib/windrv/src/filter/volume_thread.rs` as a step function: enqueuers, the thread and
the owner that stops and then drops it, in any order. The history of a run records
what was passed to `enqueue`, what was pushed and what was completed.
-/
namespace VolumeThread

variable {ι : Type}

structure IrpEntry (ι : Type) where
  irp : ι
  isWrite : Bool
  deriving DecidableEq, Repr

/-- `MAX_IRP_BURST`. -/
def maxIrpBurst : Nat := 64

/-- Where `thread_main` stands. -/
inductive ThreadPc (ι : Type) where
  | notCreated
  | top
  | burst (n : Nat) (did : Bool)
  | claimed (e : IrpEntry ι) (n : Nat)
  | sweep (did : Bool)
  | idle
  | drain
  | terminated
  deriving DecidableEq, Repr

/-- Where the owner of the box stands: `stop`, then `Drop`. -/
inductive OwnerPc where
  | bound
  | stopping
  | stopped
  | dropped
  deriving DecidableEq, Repr

structure State (ι : Type) where
  queue : List (IrpEntry ι)
  shutdown : Bool
  thread : ThreadPc ι
  owner : OwnerPc
  deriving DecidableEq, Repr

/-- `VolumeThread::start`, with the outcome of `PsCreateSystemThread`. -/
def start (created : Bool) : State ι :=
  { queue := [], shutdown := false, thread := if created then .top else .notCreated, owner := .bound }

inductive EnqueueStatus where
  | pending
  | cancelled
  deriving DecidableEq, Repr

/-- What becomes of a claimed request: `process_irp`, or `STATUS_CANCELLED`. -/
inductive Outcome where
  | processed
  | cancelled
  deriving DecidableEq, Repr

inductive Event (ι : Type) where
  | enqueue (e : IrpEntry ι) (status : EnqueueStatus)
  | loadShutdown
  | pop
  | complete (e : IrpEntry ι) (outcome : Outcome)
  | sweepStep (more : Bool)
  | wake
  | drainNext (e : IrpEntry ι)
  | exit
  | setShutdown
  | join
  | dropNext (e : IrpEntry ι)
  | dropDone
  deriving DecidableEq, Repr

/-- The answer of `enqueue` under the queue lock. -/
def enqueueStatus (shutdown : Bool) : EnqueueStatus := if shutdown then .cancelled else .pending

variable [DecidableEq ι]

/-- One atomic step; `none` where the event is not enabled. -/
def step (s : State ι) : Event ι → Option (State ι)
  | .enqueue e status =>
    if s.owner = .dropped ∨ status ≠ enqueueStatus s.shutdown then none
    else match status with
      | .pending => some { s with queue := s.queue ++ [e] }
      | .cancelled => some s
  | .loadShutdown =>
    match s.thread with
    | .top => some { s with thread := if s.shutdown then .drain else .burst 0 false }
    | _ => none
  | .pop =>
    match s.thread with
    | .burst n did =>
      if n < maxIrpBurst then
        match s.queue with
        | [] => some { s with thread := .sweep did }
        | e :: q => some { s with queue := q, thread := .claimed e n }
      else some { s with thread := .sweep did }
    | _ => none
  | .complete e _ =>
    match s.thread with
    | .claimed e' n => if e' = e then some { s with thread := .burst (n + 1) true } else none
    | _ => none
  | .sweepStep more =>
    match s.thread with
    | .sweep did => some { s with thread := if did || more then .top else .idle }
    | _ => none
  | .wake =>
    match s.thread with
    | .idle => some { s with thread := .top }
    | _ => none
  | .drainNext e =>
    match s.thread, s.queue with
    | .drain, e' :: q => if e' = e then some { s with queue := q } else none
    | _, _ => none
  | .exit =>
    match s.thread, s.queue with
    | .drain, [] => some { s with thread := .terminated }
    | _, _ => none
  | .setShutdown =>
    match s.owner with
    | .bound => some { s with shutdown := true, owner := .stopping }
    | _ => none
  | .join =>
    if s.owner = .stopping ∧ (s.thread = .terminated ∨ s.thread = .notCreated) then
      some { s with owner := .stopped }
    else none
  | .dropNext e =>
    match s.owner, s.queue with
    | .stopped, e' :: q => if e' = e then some { s with queue := q } else none
    | _, _ => none
  | .dropDone =>
    match s.owner, s.queue with
    | .stopped, [] => some { s with owner := .dropped }
    | _, _ => none

/-! ## Histories -/

/-- What a run has done so far, each list in the order of the events. -/
structure History (ι : Type) where
  passed : List (IrpEntry ι)
  pushed : List (IrpEntry ι)
  completed : List (IrpEntry ι)
  processed : List (IrpEntry ι)
  deriving DecidableEq, Repr

def History.empty : History ι := ⟨[], [], [], []⟩

def History.record (h : History ι) : Event ι → History ι
  | .enqueue e .pending => { h with passed := h.passed ++ [e], pushed := h.pushed ++ [e] }
  | .enqueue e .cancelled => { h with passed := h.passed ++ [e], completed := h.completed ++ [e] }
  | .complete e .processed => { h with completed := h.completed ++ [e], processed := h.processed ++ [e] }
  | .complete e .cancelled => { h with completed := h.completed ++ [e] }
  | .drainNext e => { h with completed := h.completed ++ [e] }
  | .dropNext e => { h with completed := h.completed ++ [e] }
  | _ => h

def history (events : List (Event ι)) : History ι := events.foldl History.record .empty

/-- The request the thread has popped and not yet completed. -/
def ThreadPc.inHand : ThreadPc ι → List (IrpEntry ι)
  | .claimed e _ => [e]
  | _ => []

/-- The thread has left its main loop. -/
def ThreadPc.leaving : ThreadPc ι → Bool
  | .drain => true
  | .terminated => true
  | _ => false

/-- What holds between a state and its history after any interleaving. -/
structure Accounted (s : State ι) (h : History ι) : Prop where
  once : (h.completed ++ (s.thread.inHand ++ s.queue)).Perm h.passed
  fifo : ∃ popped, popped ++ s.queue = h.pushed ∧ (h.processed ++ s.thread.inHand).Sublist popped
  leaving : s.thread.leaving → s.shutdown
  terminated : s.thread = .terminated → s.queue = []
  stopped : s.owner ≠ .bound → s.shutdown
  joined : s.owner = .stopped ∨ s.owner = .dropped → s.thread = .terminated ∨ s.thread = .notCreated
  dropped : s.owner = .dropped → s.queue = []

omit [DecidableEq ι] in
theorem start_accounted (created : Bool) : Accounted (start created : State ι) .empty := by
  cases created <;> constructor <;> simp [start, History.empty, ThreadPc.inHand, ThreadPc.leaving]

section Steps

variable {s s' : State ι} {h : History ι}

theorem enqueue_accounted {e : IrpEntry ι} {status : EnqueueStatus} (ha : Accounted s h)
    (hs : step s (.enqueue e status) = some s') : Accounted s' (h.record (.enqueue e status)) := by
  obtain ⟨once, ⟨popped, hpop, hsub⟩, leaving, terminated, stopped, joined, dropped⟩ := ha
  simp only [step] at hs
  split at hs
  · cases hs
  · rename_i hen
    obtain ⟨hlive, hst⟩ := not_or.mp hen
    cases status with
    | pending =>
      cases hs
      have hopen : s.shutdown = false := by
        cases hsd : s.shutdown with
        | false => rfl
        | true => simp [enqueueStatus, hsd] at hst
      refine ⟨?_, ⟨popped, ?_, hsub⟩, leaving, ?_, stopped, joined, fun hd => absurd hd hlive⟩
      · simpa [History.record] using once.append_right [e]
      · simp [History.record, ← hpop]
      · intro ht
        have hsd := leaving (by simp only [show s.thread = .terminated from ht, ThreadPc.leaving])
        rw [hopen] at hsd
        cases hsd
    | cancelled =>
      cases hs
      refine ⟨?_, ⟨popped, hpop, hsub⟩, leaving, terminated, stopped, joined, dropped⟩
      calc (h.completed ++ [e] ++ (s.thread.inHand ++ s.queue)).Perm
            (h.completed ++ (s.thread.inHand ++ s.queue) ++ [e]) := by
              rw [List.append_assoc, List.append_assoc]
              exact List.perm_append_comm.append_left _
        _ |>.Perm (h.passed ++ [e]) := once.append_right [e]

omit [DecidableEq ι] in
/-- A step of the thread that takes nothing from the queue. -/
theorem Accounted.moveThread {p : ThreadPc ι} (ha : Accounted s h) (hold : s.thread.inHand = [])
    (hnew : p.inHand = []) (hleave : p.leaving → s.shutdown) (hterm : p = .terminated → s.queue = [])
    (hrun : s.thread ≠ .terminated ∧ s.thread ≠ .notCreated) : Accounted { s with thread := p } h := by
  obtain ⟨once, ⟨popped, hpop, hsub⟩, leaving, terminated, stopped, joined, dropped⟩ := ha
  rw [hold] at once hsub
  refine ⟨?_, ⟨popped, hpop, ?_⟩, hleave, hterm, stopped, ?_, dropped⟩
  · rw [hnew]
    exact once
  · rw [hnew]
    exact hsub
  · intro ho
    rcases joined ho with ht | ht
    · exact absurd ht hrun.1
    · exact absurd ht hrun.2

theorem pop_accounted (ha : Accounted s h) (hs : step s .pop = some s') : Accounted s' (h.record .pop) := by
  simp only [step] at hs
  split at hs
  · rename_i n did hth
    have hsweep : Accounted { s with thread := .sweep did } h :=
      ha.moveThread (by simp [hth, ThreadPc.inHand]) rfl (by simp [ThreadPc.leaving]) (by simp) (by simp [hth])
    split at hs
    · split at hs
      · cases hs
        exact hsweep
      · rename_i e q hq
        cases hs
        obtain ⟨once, ⟨popped, hpop, hsub⟩, leaving, terminated, stopped, joined, dropped⟩ := ha
        rw [hq] at hpop
        have hold : s.thread.inHand = [] := by simp [hth, ThreadPc.inHand]
        rw [hold, List.append_nil] at hsub
        rw [hold, List.nil_append, hq] at once
        refine ⟨once, ⟨popped ++ [e], ?_, ?_⟩, by simp [ThreadPc.leaving], by simp, stopped, ?_, ?_⟩
        · simpa [History.record] using hpop
        · exact hsub.append (List.Sublist.refl _)
        · intro ho
          simp [hth] at joined
          exact absurd ho (by simp [joined])
        · intro hd
          have := dropped hd
          simp [hq] at this
    · cases hs
      exact hsweep
  · cases hs

theorem complete_accounted {e : IrpEntry ι} {outcome : Outcome} (ha : Accounted s h)
    (hs : step s (.complete e outcome) = some s') : Accounted s' (h.record (.complete e outcome)) := by
  simp only [step] at hs
  split at hs
  · rename_i e' n hth
    split at hs
    · rename_i he
      subst he
      cases hs
      obtain ⟨once, ⟨popped, hpop, hsub⟩, leaving, terminated, stopped, joined, dropped⟩ := ha
      rw [hth, ThreadPc.inHand] at once hsub
      have hjoin : ¬ (s.owner = .stopped ∨ s.owner = .dropped) := by
        intro ho
        simp [hth] at joined
        exact absurd ho (by simp [joined])
      cases outcome with
      | processed =>
        refine ⟨?_, ⟨popped, hpop, ?_⟩, by simp [ThreadPc.leaving], by simp, stopped, fun ho => absurd ho hjoin, dropped⟩
        · simpa [History.record, ThreadPc.inHand] using once
        · simpa [History.record, ThreadPc.inHand] using hsub
      | cancelled =>
        refine ⟨?_, ⟨popped, hpop, ?_⟩, by simp [ThreadPc.leaving], by simp, stopped, fun ho => absurd ho hjoin, dropped⟩
        · simpa [History.record, ThreadPc.inHand] using once
        · simpa [History.record, ThreadPc.inHand] using (List.sublist_append_left _ _).trans hsub
    · cases hs
  · cases hs

omit [DecidableEq ι] in
/-- Cancelling the head of the queue, by the thread on its way out or by `Drop`. -/
theorem Accounted.cancelHead {e : IrpEntry ι} {q : List (IrpEntry ι)} (ha : Accounted s h)
    (hq : s.queue = e :: q) (hold : s.thread.inHand = []) :
    Accounted { s with queue := q } { h with completed := h.completed ++ [e] } := by
  obtain ⟨once, ⟨popped, hpop, hsub⟩, leaving, terminated, stopped, joined, dropped⟩ := ha
  have hne : s.queue ≠ [] := by simp [hq]
  rw [hq] at once hpop
  refine ⟨?_, ⟨popped ++ [e], ?_, hsub.trans (List.sublist_append_left _ _)⟩, leaving, ?_, stopped, joined, ?_⟩
  · simpa [hold] using once
  · simpa using hpop
  · exact fun ht => absurd (terminated ht) hne
  · exact fun hd => absurd (dropped hd) hne

/-- Every step keeps the account. -/
theorem step_accounted {ev : Event ι} (ha : Accounted s h) (hs : step s ev = some s') :
    Accounted s' (h.record ev) := by
  cases ev with
  | enqueue e status => exact enqueue_accounted ha hs
  | pop => exact pop_accounted ha hs
  | complete e outcome => exact complete_accounted ha hs
  | loadShutdown =>
    simp only [step] at hs
    split at hs
    · rename_i hth
      have hold : s.thread.inHand = [] := by simp [hth, ThreadPc.inHand]
      cases hsd : s.shutdown with
      | false =>
        rw [if_neg (by simp [hsd])] at hs
        cases hs
        exact ha.moveThread (p := .burst 0 false) hold rfl (by simp [ThreadPc.leaving]) (by simp) (by simp [hth])
      | true =>
        rw [if_pos hsd] at hs
        cases hs
        exact ha.moveThread (p := .drain) hold rfl (fun _ => hsd) (by simp) (by simp [hth])
    · cases hs
  | sweepStep more =>
    simp only [step] at hs
    split at hs
    · rename_i did hth
      have hold : s.thread.inHand = [] := by simp [hth, ThreadPc.inHand]
      cases hs
      cases did || more with
      | false => exact ha.moveThread (p := .idle) hold rfl (by simp [ThreadPc.leaving]) (by simp) (by simp [hth])
      | true => exact ha.moveThread (p := .top) hold rfl (by simp [ThreadPc.leaving]) (by simp) (by simp [hth])
    · cases hs
  | wake =>
    simp only [step] at hs
    split at hs
    · rename_i hth
      cases hs
      exact ha.moveThread (by simp [hth, ThreadPc.inHand]) rfl (by simp [ThreadPc.leaving]) (by simp) (by simp [hth])
    · cases hs
  | drainNext e =>
    simp only [step] at hs
    split at hs
    · rename_i e' q hth hq
      split at hs
      · rename_i he
        subst he
        cases hs
        exact ha.cancelHead hq (by simp [hth, ThreadPc.inHand])
      · cases hs
    · cases hs
  | exit =>
    simp only [step] at hs
    split at hs
    · rename_i hth hq
      cases hs
      have hsd := ha.leaving (by simp [hth, ThreadPc.leaving])
      exact ha.moveThread (by simp [hth, ThreadPc.inHand]) rfl (fun _ => hsd) (fun _ => hq) (by simp [hth])
    · cases hs
  | setShutdown =>
    simp only [step] at hs
    split at hs
    · cases hs
      exact ⟨ha.once, ha.fifo, fun _ => rfl, ha.terminated, fun _ => rfl, by simp, by simp⟩
    · cases hs
  | join =>
    simp only [step] at hs
    split at hs
    · rename_i hj
      cases hs
      have hsd := ha.stopped (by simp [hj.1])
      exact ⟨ha.once, ha.fifo, ha.leaving, ha.terminated, fun _ => hsd, fun _ => hj.2, by simp⟩
    · cases hs
  | dropNext e =>
    simp only [step] at hs
    split at hs
    · rename_i e' q ho hq
      split at hs
      · rename_i he
        subst he
        cases hs
        refine ha.cancelHead hq ?_
        rcases ha.joined (.inl ho) with ht | ht <;> simp [ht, ThreadPc.inHand]
      · cases hs
    · cases hs
  | dropDone =>
    simp only [step] at hs
    split at hs
    · rename_i ho hq
      cases hs
      have hsd := ha.stopped (by simp [ho])
      exact ⟨ha.once, ha.fifo, ha.leaving, ha.terminated, fun _ => hsd, fun _ => ha.joined (.inl ho), fun _ => hq⟩
    · cases hs

end Steps

theorem run_accounted {created : Bool} {events : List (Event ι)} {s : State ι}
    (hrun : StepRun.run step (start created) events = some s) : Accounted s (history events) :=
  StepRun.run_simulates (R := Accounted) History.record step_accounted (start_accounted created) hrun

/-! ## Every request is completed once, in order -/

/-- How often `irp` occurs among the entries. -/
def occurrences (irp : ι) (entries : List (IrpEntry ι)) : Nat := (entries.map IrpEntry.irp).count irp

theorem occurrences_perm {l₁ l₂ : List (IrpEntry ι)} (hp : l₁.Perm l₂) (irp : ι) :
    occurrences irp l₁ = occurrences irp l₂ :=
  (hp.map _).count_eq _

theorem occurrences_append (irp : ι) (l₁ l₂ : List (IrpEntry ι)) :
    occurrences irp (l₁ ++ l₂) = occurrences irp l₁ + occurrences irp l₂ := by
  simp [occurrences]

/-- With an empty hand and an empty queue the account is settled. -/
theorem Accounted.settled {s : State ι} {h : History ι} (ha : Accounted s h) (hhand : s.thread.inHand = [])
    (hq : s.queue = []) (irp : ι) : occurrences irp h.completed = occurrences irp h.passed := by
  have hp := ha.once
  rw [hhand, hq, List.append_nil, List.append_nil] at hp
  exact occurrences_perm hp irp

/-- In every interleaving a request is completed at most as often as it was passed to `enqueue`,
nothing is queued when the thread has terminated, every request has been completed exactly once
per call after the drop, and requests are processed in the order they were pushed. -/
theorem queued_irps_complete_once (created : Bool) (events : List (Event ι)) (s : State ι)
    (hrun : StepRun.run step (start created) events = some s) :
    (∀ irp, occurrences irp (history events).completed ≤ occurrences irp (history events).passed) ∧
      (s.thread = .terminated → s.shutdown = true ∧ s.queue = [] ∧
        ∀ irp, occurrences irp (history events).completed = occurrences irp (history events).passed) ∧
      (s.owner = .dropped →
        ∀ irp, occurrences irp (history events).completed = occurrences irp (history events).passed) ∧
      (history events).processed.Sublist (history events).pushed := by
  have ha := run_accounted hrun
  refine ⟨?_, ?_, ?_, ?_⟩
  · intro irp
    rw [← occurrences_perm ha.once, occurrences_append]
    exact Nat.le_add_right _ _
  · intro ht
    have hq := ha.terminated ht
    exact ⟨ha.leaving (by simp [ht, ThreadPc.leaving]), hq, ha.settled (by simp [ht, ThreadPc.inHand]) hq⟩
  · intro hd
    apply ha.settled _ (ha.dropped hd)
    rcases ha.joined (.inr hd) with ht | ht <;> simp [ht, ThreadPc.inHand]
  · obtain ⟨popped, hpop, hsub⟩ := ha.fifo
    rw [← hpop]
    exact (List.sublist_append_left _ _).trans (hsub.trans (List.sublist_append_left _ _))

/-- Three requests: one processed, one drained after the flag, one that came too late. -/
def lateEnqueue : List (Event Nat) :=
  [.enqueue ⟨1, false⟩ .pending, .loadShutdown, .enqueue ⟨2, true⟩ .pending, .pop, .complete ⟨1, false⟩ .processed,
    .setShutdown, .enqueue ⟨3, true⟩ .cancelled, .pop, .complete ⟨2, true⟩ .cancelled, .pop, .sweepStep false,
    .loadShutdown, .exit, .join, .dropDone]

theorem queued_irps_complete_once_lateEnqueue :
    StepRun.run step (start true) lateEnqueue = some ⟨[], true, .terminated, .dropped⟩ ∧
      ∀ irp, occurrences irp (history lateEnqueue).completed = occurrences irp (history lateEnqueue).passed := by
  have hrun : StepRun.run step (start true) lateEnqueue = some ⟨[], true, .terminated, .dropped⟩ := by decide
  exact ⟨hrun, (queued_irps_complete_once true lateEnqueue _ hrun).2.2.1 rfl⟩

end VolumeThread
