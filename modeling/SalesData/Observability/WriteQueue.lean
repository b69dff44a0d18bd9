import Mathlib.Data.List.Flatten
import Mathlib.Data.List.Nodup
import Mathlib.Data.List.Range
import SalesData.Base.System

/-!
# The observability write queue

`ObservabilityWriteQueue` (`core/observability/write_queue.py`): requests enqueue records, one
thread drains the queue in batches, and `stop` drains what is left when that thread has ended.
A batch leaves the queue before its transaction (`core/storage/service_db.py:189–218`) is known
to succeed. Every removal from the queue is a step of its own.
-/

namespace SalesData.Observability

open Base

/-- A queued record with its place in the order of `enqueue` calls. -/
structure Item (R : Type) where
  seq : Nat
  record : R
  deriving DecidableEq

/-- How the transaction of a batch ends. When no connection is acquired nothing is passed to
`write_record`; a record that fails there does not end the loop. -/
inductive Ending
  | commits | acquireFails | commitFails
  deriving DecidableEq, Repr

/-- One call of `_flush_batch` with a batch that is not empty. -/
structure Transaction (R : Type) where
  items : List (Item R)
  ending : Ending
  periodic : Bool
  deriving DecidableEq

/-- Where the thread is in `_run`. -/
inductive Worker (R : Type)
  | absent
  | check
  | sleep
  | drain (batch : List (Item R))
  | flush (batch : List (Item R))
  | ended
  deriving DecidableEq

/-- Where the caller of `stop` is. -/
inductive Stopper (R : Type)
  | idle
  | join
  | drain (batch : List (Item R))
  | flush (batch : List (Item R))
  | done
  deriving DecidableEq

/-- The queue, its thread and the call of `stop`. `handle` is whether `_thread` is set; `total`
and `atStop` count the records enqueued so far and before `stop` was called. -/
structure State (R : Type) where
  queue : List (Item R)
  stopEvent : Bool
  handle : Bool
  worker : Worker R
  stopper : Stopper R
  log : List (Transaction R)
  total : Nat
  atStop : Nat
  deriving DecidableEq

/-- Calls on the queue, and steps of the two that drain it; the ending is that of a flush. -/
inductive Act (R : Type)
  | enqueue (record : R)
  | start
  | worker (ending : Ending)
  | stop
  | stopper (ending : Ending)

variable {R : Type} (maxBatch : Nat)

/-- The thread has come to its end. -/
def Worker.isEnded : Worker R → Bool
  | .ended => true
  | _ => false

/-- The loop of `_drain` is over (`write_queue.py:108–113`). -/
def Worker.drained (batch : List (Item R)) : Worker R :=
  if batch = [] then .check else .flush batch

/-- `stop` after its `_drain` (`write_queue.py:85–91`). -/
def Stopper.drained (batch : List (Item R)) : Stopper R :=
  if batch = [] then .done else .flush batch

/-- A step of the thread (`write_queue.py:98–134`). -/
def State.workerStep (s : State R) (ending : Ending) : Option (State R) :=
  match s.worker with
  | .absent | .ended => none
  | .check => some { s with worker := if s.stopEvent then .ended else .sleep }
  | .sleep => some { s with worker := .drain [] }
  | .drain batch =>
    if batch.length < maxBatch then
      match s.queue with
      | [] => some { s with worker := .drained batch }
      | item :: queue => some { s with queue, worker := .drain (batch ++ [item]) }
    else some { s with worker := .drained batch }
  | .flush batch => some { s with worker := .check, log := s.log ++ [⟨batch, ending, true⟩] }

/-- A step of `stop` (`write_queue.py:79–91`); its `join` returns when the thread has ended. -/
def State.stopperStep (s : State R) (ending : Ending) : Option (State R) :=
  match s.stopper with
  | .idle | .done => none
  | .join =>
    if s.handle && !s.worker.isEnded then none
    else some { s with handle := false, stopper := .drain [] }
  | .drain batch =>
    match s.queue with
    | [] => some { s with stopper := .drained batch }
    | item :: queue => some { s with queue, stopper := .drain (batch ++ [item]) }
  | .flush batch => some { s with stopper := .done, log := s.log ++ [⟨batch, ending, false⟩] }

/-- One step; `stop` is called once. -/
def State.step (s : State R) : Act R → Option (State R)
  | .enqueue record => some
      { s with queue := s.queue ++ [⟨s.total, record⟩], total := s.total + 1 }
  | .start => some (if s.handle then s else { s with handle := true, worker := .check })
  | .worker ending => s.workerStep maxBatch ending
  | .stop =>
    match s.stopper with
    | .idle => some { s with stopEvent := true, stopper := .join, atStop := s.total }
    | _ => none
  | .stopper ending => s.stopperStep ending

/-- A queue that has not been started. -/
def writeQueue (R : Type) (maxBatch : Nat) : System (State R) (Act R) where
  init := ⟨[], false, false, .absent, .idle, [], 0, 0⟩
  step := State.step maxBatch

/-- The batch that the thread has taken and not yet handed to a transaction. -/
def Worker.batch : Worker R → List (Item R)
  | .drain batch | .flush batch => batch
  | _ => []

/-- The batch that `stop` has taken and not yet handed to a transaction. -/
def Stopper.batch : Stopper R → List (Item R)
  | .drain batch | .flush batch => batch
  | _ => []

/-- `stop` is past its `join`. -/
def Stopper.joined : Stopper R → Bool
  | .idle | .join => false
  | _ => true

/-- `stop` has found the queue empty. -/
def Stopper.emptied : Stopper R → Bool
  | .flush _ | .done => true
  | _ => false

/-- The thread takes nothing more once the stop event is set. -/
def Worker.leaving : Worker R → Bool
  | .absent | .check | .ended => true
  | _ => false

/-- The places of some items. -/
def seqs (items : List (Item R)) : List Nat := items.map (·.seq)

/-- The records that transactions have been given, in order. -/
def State.handed (s : State R) : List (Item R) := s.log.flatMap Transaction.items

/-- What holds in every state. -/
structure Inv (maxBatch : Nat) (s : State R) : Prop where
  line : seqs (s.handed ++ s.worker.batch ++ s.stopper.batch ++ s.queue) = List.range s.total
  periodic : ∀ t ∈ s.log, t.periodic = true → t.items.length ≤ maxBatch
  batch : s.worker.batch.length ≤ maxBatch
  unjoined : s.stopper.joined = false → s.stopper.batch = []
  stopped : s.stopper.joined = true → s.stopEvent = true ∧ s.worker.leaving = true
  event : s.stopper ≠ .idle → s.stopEvent = true
  unstarted : s.handle = false → s.worker = .absent ∨ s.worker = .ended
  marked : s.stopper ≠ .idle → s.atStop ≤ s.total
  left : s.stopper.emptied = true → ∀ item ∈ s.queue, s.atStop ≤ item.seq

private theorem batch_of_leaving {w : Worker R} (h : w.leaving = true) : w.batch = [] := by
  cases w <;> first | rfl | cases h

private theorem batch_drained (batch : List (Item R)) :
    (Worker.drained batch).batch = batch := by
  unfold Worker.drained
  split
  · next h => exact h.symm
  · rfl

private theorem stopper_batch_drained (batch : List (Item R)) :
    (Stopper.drained batch).batch = batch := by
  unfold Stopper.drained
  split
  · next h => exact h.symm
  · rfl

private theorem handed_append (s : State R) (t : Transaction R) :
    (s.log ++ [t]).flatMap Transaction.items = s.handed ++ t.items := by
  rw [List.flatMap_append, List.flatMap_singleton]
  rfl

variable {maxBatch} {s s' : State R}

private theorem inv_enqueue (h : Inv maxBatch s) (record : R) :
    Inv maxBatch { s with queue := s.queue ++ [⟨s.total, record⟩], total := s.total + 1 } where
  line := by
    have hline := h.line
    show seqs (s.handed ++ s.worker.batch ++ s.stopper.batch ++ (s.queue ++ [⟨s.total, record⟩])) =
      List.range (s.total + 1)
    rw [List.range_succ, ← hline, ← List.append_assoc]
    simp [seqs]
  periodic := h.periodic
  batch := h.batch
  unjoined := h.unjoined
  stopped := h.stopped
  event := h.event
  unstarted := h.unstarted
  marked hs := Nat.le_succ_of_le (h.marked hs)
  left hs := by
    intro item hmem
    rcases List.mem_append.mp hmem with hmem | hmem
    · exact h.left hs item hmem
    · rw [List.mem_singleton] at hmem
      subst hmem
      apply h.marked
      intro hidle
      rw [hidle] at hs
      cases hs

private theorem inv_start (h : Inv maxBatch s) :
    Inv maxBatch (if s.handle then s else { s with handle := true, worker := .check }) := by
  cases hhandle : s.handle with
  | true => exact h
  | false =>
    have hempty : s.worker.batch = [] := by
      rcases h.unstarted hhandle with he | he <;> rw [he] <;> rfl
    refine ⟨?_, h.periodic, Nat.zero_le _, h.unjoined, ?_, h.event, ?_, h.marked, h.left⟩
    · have hline := h.line
      rw [hempty] at hline
      exact hline
    · exact fun hs ↦ ⟨(h.stopped hs).1, rfl⟩
    · exact fun hfalse ↦ absurd hfalse (by simp)

private theorem inv_stop (h : Inv maxBatch s) (hidle : s.stopper = .idle) :
    Inv maxBatch { s with stopEvent := true, stopper := .join, atStop := s.total } := by
  refine ⟨?_, h.periodic, h.batch, fun _ ↦ rfl, ?_, fun _ ↦ rfl, h.unstarted,
    fun _ ↦ le_refl _, ?_⟩
  · have hline := h.line
    rw [hidle] at hline
    exact hline
  · exact fun hs ↦ by cases hs
  · exact fun hs ↦ by cases hs

private theorem handle_of_running (h : Inv maxBatch s) (habsent : s.worker ≠ .absent)
    (hended : s.worker ≠ .ended) : s.handle = true := by
  by_contra hhandle
  rcases h.unstarted (by simpa using hhandle) with he | he
  · exact habsent he
  · exact hended he

private theorem running_of_drain (h : Inv maxBatch s) (hworker : s.worker.leaving = false) :
    s.handle = true ∧ s.stopper.joined = false := by
  constructor
  · apply handle_of_running h <;> intro he <;> rw [he] at hworker <;> cases hworker
  · by_contra hjoined
    have hleaving := (h.stopped (by simpa using hjoined)).2
    rw [hworker] at hleaving
    cases hleaving

private theorem inv_check (h : Inv maxBatch s) (hworker : s.worker = .check) :
    Inv maxBatch { s with worker := if s.stopEvent then .ended else .sleep } := by
  have hhandle : s.handle = true := by
    apply handle_of_running h <;> rw [hworker] <;> simp
  have hbatch : (if s.stopEvent then Worker.ended else Worker.sleep : Worker R).batch = [] := by
    split <;> rfl
  refine ⟨?_, h.periodic, ?_, h.unjoined, ?_, h.event, ?_, h.marked, h.left⟩
  · have hline := h.line
    rw [hworker] at hline
    show seqs (s.handed ++ (if s.stopEvent then Worker.ended else Worker.sleep).batch ++
      s.stopper.batch ++ s.queue) = _
    rw [hbatch]
    exact hline
  · show (if s.stopEvent then Worker.ended else Worker.sleep : Worker R).batch.length ≤ maxBatch
    rw [hbatch]
    exact Nat.zero_le _
  · intro hjoined
    have hevent := (h.stopped hjoined).1
    refine ⟨hevent, ?_⟩
    show (if s.stopEvent then Worker.ended else Worker.sleep : Worker R).leaving = true
    rw [hevent]
    rfl
  · intro hfalse
    rw [hhandle] at hfalse
    cases hfalse

private theorem inv_working (h : Inv maxBatch s) (hworker : s.worker.leaving = false)
    {w : Worker R} {queue : List (Item R)} (hline : s.worker.batch ++ s.queue = w.batch ++ queue)
    (hbatch : w.batch.length ≤ maxBatch) (hqueue : ∀ item ∈ queue, item ∈ s.queue) :
    Inv maxBatch { s with worker := w, queue } := by
  obtain ⟨hhandle, hunjoined⟩ := running_of_drain h hworker
  have hstopper := h.unjoined hunjoined
  refine ⟨?_, h.periodic, hbatch, h.unjoined, ?_, h.event, ?_, h.marked, ?_⟩
  · have hold := h.line
    rw [hstopper, List.append_nil, List.append_assoc, hline] at hold
    show seqs (s.handed ++ w.batch ++ s.stopper.batch ++ queue) = _
    rw [hstopper, List.append_nil, List.append_assoc]
    exact hold
  · intro hjoined
    rw [hunjoined] at hjoined
    cases hjoined
  · intro hfalse
    rw [hhandle] at hfalse
    cases hfalse
  · exact fun hs item hmem ↦ h.left hs item (hqueue item hmem)

private theorem inv_flush (h : Inv maxBatch s) {batch : List (Item R)}
    (hworker : s.worker = .flush batch) (ending : Ending) :
    Inv maxBatch { s with worker := .check, log := s.log ++ [⟨batch, ending, true⟩] } := by
  obtain ⟨hhandle, hunjoined⟩ := running_of_drain h (by rw [hworker]; rfl)
  have hlen := h.batch
  rw [hworker] at hlen
  refine ⟨?_, ?_, Nat.zero_le _, h.unjoined, ?_, h.event, ?_, h.marked, h.left⟩
  · have hline := h.line
    rw [hworker] at hline
    show seqs ((s.log ++ [Transaction.mk batch ending true]).flatMap Transaction.items ++ [] ++
      s.stopper.batch ++ s.queue) = _
    rw [handed_append, List.append_nil]
    exact hline
  · intro t ht hperiodic
    rcases List.mem_append.mp ht with ht | ht
    · exact h.periodic t ht hperiodic
    · rw [List.mem_singleton] at ht
      subst ht
      exact hlen
  · intro hjoined
    rw [hunjoined] at hjoined
    cases hjoined
  · intro hfalse
    rw [hhandle] at hfalse
    cases hfalse

private theorem inv_worker (h : Inv maxBatch s) {ending : Ending}
    (hstep : s.workerStep maxBatch ending = some s') : Inv maxBatch s' := by
  unfold State.workerStep at hstep
  split at hstep
  · cases hstep
  · cases hstep
  · next hworker =>
    cases hstep
    exact inv_check h hworker
  · next hworker =>
    cases hstep
    refine inv_working h (by rw [hworker]; rfl) ?_ (Nat.zero_le _) fun _ hmem ↦ hmem
    rw [hworker]
    rfl
  · next batch hworker =>
    have hleaving : s.worker.leaving = false := by
      rw [hworker]
      rfl
    have hbatch : s.worker.batch = batch := by
      rw [hworker]
      rfl
    have hlen : batch.length ≤ maxBatch := hbatch ▸ h.batch
    have hdrained : Inv maxBatch { s with worker := .drained batch } := by
      apply inv_working h hleaving
      · rw [hbatch, batch_drained]
      · rw [batch_drained]
        exact hlen
      · exact fun _ hmem ↦ hmem
    split at hstep
    · next hroom =>
      split at hstep
      · cases hstep
        exact hdrained
      · next item queue hqueue =>
        cases hstep
        apply inv_working h hleaving
        · rw [hbatch, hqueue]
          exact (List.append_assoc batch [item] queue).symm
        · show (batch ++ [item]).length ≤ maxBatch
          rw [List.length_append, List.length_singleton]
          omega
        · intro other hmem
          rw [hqueue]
          exact List.mem_cons_of_mem item hmem
    · cases hstep
      exact hdrained
  · next batch hworker =>
    cases hstep
    exact inv_flush h hworker ending

private theorem inv_join (h : Inv maxBatch s) (hstopper : s.stopper = .join)
    (hended : (s.handle && !s.worker.isEnded) = false) :
    Inv maxBatch { s with handle := false, stopper := .drain [] } := by
  have hevent : s.stopEvent = true := h.event (by rw [hstopper]; simp)
  have hworker : s.worker = .absent ∨ s.worker = .ended := by
    cases hhandle : s.handle with
    | false => exact h.unstarted hhandle
    | true =>
      rw [hhandle] at hended
      cases hs : s.worker <;> simp [hs, Worker.isEnded] at hended ⊢
  refine ⟨?_, h.periodic, h.batch, fun _ ↦ rfl, ?_, fun _ ↦ hevent, fun _ ↦ hworker, ?_, ?_⟩
  · have hline := h.line
    rw [hstopper] at hline
    exact hline
  · intro _
    refine ⟨hevent, ?_⟩
    rcases hworker with he | he <;> rw [he] <;> rfl
  · exact fun _ ↦ h.marked (by rw [hstopper]; simp)
  · exact fun hs ↦ by cases hs

private theorem inv_stopping (h : Inv maxBatch s) (hjoined : s.stopper.joined = true)
    {p : Stopper R} {queue : List (Item R)} (hp : p.joined = true)
    (hline : s.stopper.batch ++ s.queue = p.batch ++ queue)
    (hleft : p.emptied = true → ∀ item ∈ queue, s.atStop ≤ item.seq) :
    Inv maxBatch { s with stopper := p, queue } := by
  have hidle : s.stopper ≠ .idle := by
    intro he
    rw [he] at hjoined
    cases hjoined
  refine ⟨?_, h.periodic, h.batch, ?_, fun _ ↦ h.stopped hjoined, fun _ ↦ h.event hidle,
    h.unstarted, fun _ ↦ h.marked hidle, hleft⟩
  · have hold := h.line
    rw [List.append_assoc, hline, ← List.append_assoc] at hold
    exact hold
  · intro hfalse
    rw [show p.joined = false from hfalse] at hp
    cases hp

private theorem inv_lastFlush (h : Inv maxBatch s) {batch : List (Item R)}
    (hstopper : s.stopper = .flush batch) (ending : Ending) :
    Inv maxBatch { s with stopper := .done, log := s.log ++ [⟨batch, ending, false⟩] } := by
  have hjoined : s.stopper.joined = true := by
    rw [hstopper]
    rfl
  have hidle : s.stopper ≠ .idle := by
    rw [hstopper]
    simp
  have hempty := batch_of_leaving (h.stopped hjoined).2
  refine ⟨?_, ?_, h.batch, fun _ ↦ rfl, fun _ ↦ h.stopped hjoined, fun _ ↦ h.event hidle,
    h.unstarted, fun _ ↦ h.marked hidle, fun _ ↦ h.left (by rw [hstopper]; rfl)⟩
  · have hline := h.line
    rw [hempty, hstopper, List.append_nil] at hline
    show seqs ((s.log ++ [Transaction.mk batch ending false]).flatMap Transaction.items ++
      s.worker.batch ++ [] ++ s.queue) = _
    rw [handed_append, hempty, List.append_nil, List.append_nil]
    exact hline
  · intro t ht hperiodic
    rcases List.mem_append.mp ht with ht | ht
    · exact h.periodic t ht hperiodic
    · rw [List.mem_singleton] at ht
      subst ht
      cases hperiodic

private theorem inv_stopper (h : Inv maxBatch s) {ending : Ending}
    (hstep : s.stopperStep ending = some s') : Inv maxBatch s' := by
  unfold State.stopperStep at hstep
  split at hstep
  · cases hstep
  · cases hstep
  · next hstopper =>
    split at hstep
    · cases hstep
    · next hended =>
      cases hstep
      exact inv_join h hstopper (by simpa using hended)
  · next batch hstopper =>
    have hjoined : s.stopper.joined = true := by
      rw [hstopper]
      rfl
    have hbatch : s.stopper.batch = batch := by
      rw [hstopper]
      rfl
    split at hstep
    · next hqueue =>
      cases hstep
      apply inv_stopping h hjoined
      · unfold Stopper.drained
        split <;> rfl
      · rw [hbatch, stopper_batch_drained]
      · intro _ item hmem
        rw [hqueue] at hmem
        cases hmem
    · next item queue hqueue =>
      cases hstep
      apply inv_stopping h hjoined rfl
      · rw [hbatch, hqueue]
        exact (List.append_assoc batch [item] queue).symm
      · exact fun hs ↦ by cases hs
  · next batch hstopper =>
    cases hstep
    exact inv_lastFlush h hstopper ending

/-- The invariant holds in every state. -/
theorem inv_of_reachable (h : (writeQueue R maxBatch).Reachable s) : Inv maxBatch s := by
  refine h.invariant ?_ ?_
  · exact ⟨rfl, fun t ht ↦ absurd ht List.not_mem_nil, Nat.zero_le _, fun _ ↦ rfl,
      fun hs ↦ (by cases hs), fun hs ↦ absurd rfl hs, fun _ ↦ .inl rfl, fun hs ↦ absurd rfl hs,
      fun hs ↦ (by cases hs)⟩
  · intro s act s' hinv _ hstep
    cases act with
    | enqueue record =>
      cases hstep
      exact inv_enqueue hinv record
    | start =>
      cases hstep
      exact inv_start hinv
    | worker ending => exact inv_worker hinv hstep
    | stop =>
      simp only [writeQueue, State.step] at hstep
      split at hstep
      · next hidle =>
        cases hstep
        exact inv_stop hinv hidle
      · cases hstep
    | stopper ending => exact inv_stopper hinv hstep

/-- The places of the records passed to `write_record` in transactions that commit, in order. -/
def State.written (s : State R) : List Nat :=
  seqs ((s.log.filter (·.ending == .commits)).flatMap Transaction.items)

/-- Every record enqueued before `stop` is written in one committed transaction, once; records
are written in the order of their enqueueing; and no periodic flush is larger than allowed. -/
structure WrittenOnce (maxBatch : Nat) (s : State R) : Prop where
  once : ∀ n, n < s.atStop → s.written.count n = 1
  inOrder : s.written.Pairwise (· < ·)
  capped : ∀ t ∈ s.log, t.periodic = true → t.items.length ≤ maxBatch

private theorem seqs_flatMap (log : List (Transaction R)) :
    seqs (log.flatMap Transaction.items) = log.flatMap fun t ↦ seqs t.items := by
  rw [seqs, List.map_flatMap]
  rfl

/-- What transactions have been given comes in order. -/
theorem handed_inOrder (h : Inv maxBatch s) : (seqs s.handed).Pairwise (· < ·) := by
  have hsub : (seqs s.handed).Sublist (List.range s.total) := by
    rw [← h.line]
    apply List.Sublist.map
    rw [List.append_assoc, List.append_assoc]
    exact List.sublist_append_left _ _
  exact List.pairwise_lt_range.sublist hsub

private theorem written_sublist (s : State R) : s.written.Sublist (seqs s.handed) := by
  apply List.Sublist.map
  exact List.filter_sublist.flatMap _

/-- A place is handed over in one transaction only. -/
theorem transaction_unique (h : Inv maxBatch s) {t t' : Transaction R} (ht : t ∈ s.log)
    (ht' : t' ∈ s.log) {n : Nat} (hn : n ∈ seqs t.items) (hn' : n ∈ seqs t'.items) : t = t' := by
  by_contra hne
  have hnodup : (s.log.flatMap fun t ↦ seqs t.items).Nodup := by
    rw [← seqs_flatMap]
    exact (handed_inOrder h).imp Nat.ne_of_lt
  have hdisjoint := (List.nodup_flatMap.mp hnodup).2
  have hsymm : Std.Symm (Function.onFun List.Disjoint fun t : Transaction R ↦ seqs t.items) :=
    ⟨fun _ _ hd _ hmem hmem' ↦ hd hmem' hmem⟩
  exact hdisjoint.forall ht ht' hne hn hn'

/-- When `stop` is done, every record enqueued before it has been handed over. -/
theorem handed_of_done (h : Inv maxBatch s) (hdone : s.stopper = .done) {n : Nat}
    (hn : n < s.atStop) : ∃ t ∈ s.log, n ∈ seqs t.items := by
  have hworker : s.worker.batch = [] := by
    apply batch_of_leaving
    exact (h.stopped (by rw [hdone]; rfl)).2
  have hstopper : s.stopper.batch = [] := by
    rw [hdone]
    rfl
  have hline := h.line
  rw [hworker, hstopper, List.append_nil, List.append_nil, seqs, List.map_append] at hline
  have hrange : n ∈ List.range s.total := by
    have := h.marked (by rw [hdone]; simp)
    exact List.mem_range.mpr (by omega)
  rw [← hline] at hrange
  rcases List.mem_append.mp hrange with hmem | hmem
  · have hmem' : n ∈ seqs s.handed := hmem
    rw [State.handed, seqs_flatMap] at hmem'
    exact List.mem_flatMap.mp hmem'
  · obtain ⟨item, hitem, rfl⟩ := List.mem_map.mp hmem
    have := h.left (by rw [hdone]; rfl) item hitem
    omega

private theorem mem_written {n : Nat} :
    n ∈ s.written ↔ ∃ t ∈ s.log, t.ending = .commits ∧ n ∈ seqs t.items := by
  rw [State.written, seqs_flatMap, List.mem_flatMap]
  simp only [List.mem_filter, beq_iff_eq, and_assoc]

/-- Once `stop` has returned: nothing enqueued before it is lost exactly when every transaction
that was given such a record has acquired its connection and committed. -/
theorem records_writtenOnce_iff (maxBatch : Nat) (s : State R)
    (h : (writeQueue R maxBatch).Reachable s) (hdone : s.stopper = .done) :
    WrittenOnce maxBatch s ↔
      ∀ t ∈ s.log, (∃ item ∈ t.items, item.seq < s.atStop) → t.ending = .commits := by
  have hinv := inv_of_reachable h
  have hinOrder : s.written.Pairwise (· < ·) :=
    (handed_inOrder hinv).sublist (written_sublist s)
  constructor
  · rintro ⟨honce, -, -⟩ t ht ⟨item, hitem, hlt⟩
    have hmem : item.seq ∈ s.written := by
      apply List.count_pos_iff.mp
      rw [honce item.seq hlt]
      exact Nat.one_pos
    obtain ⟨t', ht', hcommits, hn⟩ := mem_written.mp hmem
    rw [transaction_unique hinv ht ht' (List.mem_map_of_mem hitem) hn]
    exact hcommits
  · intro hcommits
    refine ⟨?_, hinOrder, hinv.periodic⟩
    intro n hn
    apply List.count_eq_one_of_mem (hinOrder.imp Nat.ne_of_lt)
    obtain ⟨t, ht, hmem⟩ := handed_of_done hinv hdone hn
    obtain ⟨item, hitem, rfl⟩ := List.mem_map.mp hmem
    exact mem_written.mpr ⟨t, ht, hcommits t ht ⟨item, hitem, hn⟩, List.mem_map_of_mem hitem⟩

/-- Two records, each in a transaction that commits. -/
theorem records_writtenOnce_iff_twoBatches :
    ∃ s, (writeQueue Nat 1).Reachable s ∧ s.stopper = .done ∧ s.atStop = 2 ∧ WrittenOnce 1 s := by
  obtain ⟨s, hs, hend⟩ := System.exists_of_exec (writeQueue Nat 1) (fun _ _ ↦ True)
    [.start, .enqueue 7, .enqueue 8, .worker .commits, .worker .commits, .worker .commits,
      .worker .commits, .stop, .worker .commits, .worker .commits, .stopper .commits,
      .stopper .commits, .stopper .commits, .stopper .commits]
    (fun s ↦ decide (s.stopper = .done) && s.atStop == 2 &&
      s.log.all (·.ending == .commits)) (by decide +kernel)
  simp only [Bool.and_eq_true, decide_eq_true_eq, beq_iff_eq, List.all_eq_true] at hend
  obtain ⟨⟨hdone, hatStop⟩, hall⟩ := hend
  exact ⟨s, hs, hdone, hatStop,
    (records_writtenOnce_iff 1 s hs hdone).mpr fun t ht _ ↦ hall t ht⟩

/-- A commit that fails once: the batch is gone, although every later transaction commits. -/
theorem failedCommit_losesBatch :
    ∃ s, (writeQueue Nat 1).Reachable s ∧ s.stopper = .done ∧ ¬ WrittenOnce 1 s := by
  obtain ⟨s, hs, hend⟩ := System.exists_of_exec (writeQueue Nat 1) (fun _ _ ↦ True)
    [.start, .enqueue 7, .enqueue 8, .worker .commits, .worker .commits, .worker .commits,
      .worker .commits, .worker .commitFails, .stop, .worker .commits, .stopper .commits,
      .stopper .commits, .stopper .commits, .stopper .commits]
    (fun s ↦ decide (s.stopper = .done) && s.atStop == 2 && s.written.count 0 == 0)
    (by decide +kernel)
  simp only [Bool.and_eq_true, decide_eq_true_eq, beq_iff_eq] at hend
  obtain ⟨⟨hdone, hatStop⟩, hcount⟩ := hend
  refine ⟨s, hs, hdone, ?_⟩
  intro hwritten
  have honce := hwritten.once 0 (by omega)
  omega

end SalesData.Observability
