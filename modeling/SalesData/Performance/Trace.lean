import SalesData.Performance.Metric

/-!
# Traces

`core/performance/trace.py`. The nodes of a trace are kept in the order of their creation, and
a reference to a node is its place there; a parent is older than its children. `trace_id`,
metadata and the lists of children are left out. What the source reads from the clock is an
argument here.
-/

namespace SalesData.Performance

open Base

/-- `PerformanceStage` (`enums.py`). -/
inductive PerformanceStage
  | request | authentication | authorization | apiKeyLookup | dependency | container
  | cacheLookup | cacheL1Lookup | cacheL2Lookup | cacheStore | singleFlightWait | poolWait
  | poolAcquire | poolRelease | dbExecutorWait | transactionBegin | transactionCommit
  | transactionRollback | sqlPrepare | sqlExecute | sqlFetch | serialize | response
  | background | gc | custom
  deriving DecidableEq, Repr

/-- `_TRACE_NODE_FINISH_BEFORE_START_MESSAGE`. -/
def traceNodeFinishBeforeStart : Error :=
  .invalidTimestampError "trace node finish precedes node start".toList

/-- `_TRACE_ALREADY_FINISHED_MESSAGE`. -/
def traceAlreadyFinished : Error :=
  .traceStateError "cannot start a node on a finished trace".toList

/-- `_TRACE_NO_ACTIVE_NODE_MESSAGE`. -/
def traceNoActiveNode : Error :=
  .traceStateError "cannot finish a trace without an active node".toList

/-- `TraceNode`. -/
structure TraceNode where
  name : MetricName
  stage : PerformanceStage
  startedNs : Int
  tags : Tags
  finishedNs : Option Int
  durationNs : Option Int
  parent : Option Nat

/-- A node that has just been started. -/
def TraceNode.started (name : MetricName) (stage : PerformanceStage) (startedNs : Int)
    (tags : Tags) (parent : Option Nat) : TraceNode :=
  ⟨name, stage, startedNs, tags, none, none, parent⟩

/-- The duration of a finish (`trace.py:36–47`); only the first one reads the clock. -/
def TraceNode.finish (node : TraceNode) (now : Int) : Except Error Int :=
  match node.durationNs with
  | some durationNs => .ok durationNs
  | none =>
    if now < node.startedNs then .error traceNodeFinishBeforeStart
    else .ok (now - node.startedNs)

/-- The node after its finish. -/
def TraceNode.closed (node : TraceNode) (now : Int) : TraceNode :=
  match node.durationNs with
  | some _ => node
  | none => { node with finishedNs := some now, durationNs := some (now - node.startedNs) }

/-- Finishing changes no link. -/
@[simp] theorem TraceNode.parent_closed (node : TraceNode) (now : Int) :
    (node.closed now).parent = node.parent := by
  unfold TraceNode.closed
  split <;> rfl

/-- A finish leaves the node finished. -/
theorem TraceNode.durationNs_closed (node : TraceNode) (now : Int) :
    (node.closed now).durationNs ≠ none := by
  unfold TraceNode.closed
  split
  · next durationNs h =>
    rw [h]
    exact Option.some_ne_none durationNs
  · exact Option.some_ne_none _

/-- `Trace`, with its nodes in creation order; the first one is the root. -/
structure Trace where
  nodes : List TraceNode
  current : Option Nat
  current_lt : ∀ i, current = some i → i < nodes.length
  parent_lt : ∀ i (node : TraceNode), nodes[i]? = some node → ∀ p, node.parent = some p → p < i

namespace Trace

/-- A trace without a root. -/
def empty : Trace := ⟨[], none, by simp, by simp⟩

private theorem parent_lt_append {trace : Trace} {node : TraceNode}
    (h : node.parent = trace.current) (i : Nat) (found : TraceNode)
    (hfound : (trace.nodes ++ [node])[i]? = some found) (p : Nat)
    (hp : found.parent = some p) : p < i := by
  rcases Nat.lt_trichotomy i trace.nodes.length with hi | hi | hi
  · rw [List.getElem?_append_left hi] at hfound
    exact trace.parent_lt i found hfound p hp
  · subst hi
    rw [List.getElem?_concat_length] at hfound
    cases hfound
    exact trace.current_lt p (h ▸ hp)
  · rw [List.getElem?_append_right (Nat.le_of_lt hi)] at hfound
    have hlt := (List.getElem?_eq_some_iff.mp hfound).1
    rw [List.length_singleton] at hlt
    omega

/-- `Trace.start` (`trace.py:85–111`), with the place of the new node. -/
def start (trace : Trace) (stage : PerformanceStage) (name : MetricName) (tags : Tags)
    (now : Int) : Except Error (Trace × Nat) :=
  if trace.nodes ≠ [] ∧ trace.current = none then .error traceAlreadyFinished
  else
    .ok ({ nodes := trace.nodes ++ [.started name stage now tags trace.current]
           current := some trace.nodes.length
           current_lt := by
             intro i h
             cases h
             simp
           parent_lt := parent_lt_append rfl }, trace.nodes.length)

private theorem parent_lt_set {trace : Trace} (i : Nat) (now : Int) (j : Nat) (found : TraceNode)
    (hfound : (trace.nodes.modify i (·.closed now))[j]? = some found) (p : Nat)
    (hp : found.parent = some p) : p < j := by
  rw [List.getElem?_modify] at hfound
  obtain ⟨node, hnode, rfl⟩ := Option.map_eq_some_iff.mp hfound
  apply trace.parent_lt j node hnode p
  split at hp
  · rwa [TraceNode.parent_closed] at hp
  · exact hp

/-- The trace after the finish of a node: its parent is the active one. -/
def closing (trace : Trace) (i : Nat) (hi : i < trace.nodes.length) (now : Int) : Trace where
  nodes := trace.nodes.modify i (·.closed now)
  current := (trace.nodes.get ⟨i, hi⟩).parent
  current_lt := by
    intro p hp
    have := trace.parent_lt i _ (List.getElem?_eq_getElem hi) p hp
    rw [List.length_modify]
    omega
  parent_lt := parent_lt_set i now

/-- The node that a trace's `current` refers to. -/
def activeNode (trace : Trace) : Option TraceNode := trace.current.bind (trace.nodes[·]?)

/-- `Trace.finish` (`trace.py:113–121`), with the duration that it returns. -/
def finish (trace : Trace) (now : Int) : Except Error (Trace × Int) :=
  match hcurrent : trace.current with
  | none => .error traceNoActiveNode
  | some i =>
    match (trace.nodes.get ⟨i, trace.current_lt i hcurrent⟩).finish now with
    | .error e => .error e
    | .ok durationNs => .ok (trace.closing i (trace.current_lt i hcurrent) now, durationNs)

/-- The loop of `finish_all`; every turn leaves an older node active. -/
def finishLoop (now : Nat → Int) : Nat → Trace → Trace × Except Error Unit
  | 0, trace => (trace, .ok ())
  | fuel + 1, trace =>
    match trace.current with
    | none => (trace, .ok ())
    | some i =>
      match trace.finish (now i) with
      | .error e => (trace, .error e)
      | .ok (trace, _) => finishLoop now fuel trace

/-- `Trace.finish_all` (`trace.py:123–126`); `now i` is the clock when node `i` finishes. -/
def finishAll (trace : Trace) (now : Nat → Int) : Trace × Except Error Unit :=
  finishLoop now trace.nodes.length trace

/-- A finish needs an active node. -/
theorem finish_of_none {trace : Trace} {now : Int} (h : trace.current = none) :
    trace.finish now = .error traceNoActiveNode := by
  unfold finish
  split
  · rfl
  · next hi =>
    rw [h] at hi
    cases hi

/-- A finish that succeeds closes the active node. -/
theorem of_finish {trace trace' : Trace} {now durationNs : Int}
    (h : trace.finish now = .ok (trace', durationNs)) :
    ∃ i, ∃ hi : i < trace.nodes.length, trace.current = some i ∧
      (trace.nodes.get ⟨i, hi⟩).finish now = .ok durationNs ∧ trace' = trace.closing i hi now := by
  unfold finish at h
  split at h
  · cases h
  · next i hcurrent =>
    split at h
    · cases h
    · next duration hfinish =>
      cases h
      exact ⟨i, trace.current_lt i hcurrent, hcurrent, hfinish, rfl⟩

/-- Finishing is that of the active node, which is closed. -/
theorem finish_of_node {trace : Trace} {i : Nat} {now durationNs : Int}
    (hcurrent : trace.current = some i)
    (hfinish : (trace.nodes.get ⟨i, trace.current_lt i hcurrent⟩).finish now = .ok durationNs) :
    trace.finish now = .ok (trace.closing i (trace.current_lt i hcurrent) now, durationNs) := by
  unfold finish
  split
  · next h =>
    rw [h] at hcurrent
    cases hcurrent
  · next j h =>
    obtain rfl : j = i := by
      rw [h] at hcurrent
      exact Option.some.inj hcurrent
    rw [hfinish]

/-- The active node finishes when it has before or the clock is not behind its start. -/
theorem finish_ok {trace : Trace} {i : Nat} (now : Int) (hcurrent : trace.current = some i)
    (hnow : (trace.nodes.get ⟨i, trace.current_lt i hcurrent⟩).durationNs = none →
      (trace.nodes.get ⟨i, trace.current_lt i hcurrent⟩).startedNs ≤ now) :
    ∃ r, trace.finish now = .ok r := by
  have hok : ∃ durationNs, (trace.nodes.get ⟨i, trace.current_lt i hcurrent⟩).finish now =
      .ok durationNs := by
    unfold TraceNode.finish
    split
    · exact ⟨_, rfl⟩
    · next hduration =>
      rw [if_neg (Int.not_lt.mpr (hnow hduration))]
      exact ⟨_, rfl⟩
  obtain ⟨durationNs, hfinish⟩ := hok
  exact ⟨_, finish_of_node hcurrent hfinish⟩

/-- An open node finishes when the clock has not gone behind its start. -/
theorem finish_of_open {trace : Trace} {i : Nat} {node : TraceNode} {now : Int}
    (hcurrent : trace.current = some i) (hnode : trace.nodes[i]? = some node)
    (hopen : node.durationNs = none) (hnow : node.startedNs ≤ now) :
    trace.finish now =
      .ok (trace.closing i (trace.current_lt i hcurrent) now, now - node.startedNs) := by
  obtain ⟨hlt, hget⟩ := List.getElem?_eq_some_iff.mp hnode
  apply finish_of_node hcurrent
  rw [List.get_eq_getElem, hget, TraceNode.finish, hopen]
  exact if_neg (Int.not_lt.mpr hnow)

/-- A loop with enough turns ends without an active node, unless a finish raised. -/
theorem current_finishLoop {now : Nat → Int} {fuel : Nat} {trace trace' : Trace}
    (hfuel : ∀ i, trace.current = some i → i < fuel)
    (h : finishLoop now fuel trace = (trace', .ok ())) : trace'.current = none := by
  induction fuel generalizing trace with
  | zero =>
    obtain ⟨rfl, -⟩ := Prod.mk.inj h
    cases hcurrent : trace.current with
    | none => rfl
    | some i => exact absurd (hfuel i hcurrent) (Nat.not_lt_zero i)
  | succ fuel ih =>
    rw [finishLoop] at h
    split at h
    · next hcurrent =>
      obtain ⟨rfl, -⟩ := Prod.mk.inj h
      exact hcurrent
    · next i hcurrent =>
      split at h
      · cases (Prod.mk.inj h).2
      · next closed durationNs hfinish =>
        apply ih _ h
        intro p hp
        obtain ⟨j, hj, hj', -, rfl⟩ := of_finish hfinish
        have hpj := trace.parent_lt j _ (List.getElem?_eq_getElem hj) p hp
        have hjf := hfuel j hj'
        omega

/-- `finish_all` ends the trace. -/
theorem current_finishAll {trace trace' : Trace} {now : Nat → Int}
    (h : trace.finishAll now = (trace', .ok ())) : trace'.current = none :=
  current_finishLoop trace.current_lt h

end Trace
end SalesData.Performance
