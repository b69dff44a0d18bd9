import SalesData.Base.System
import SalesData.Performance.RequestProfiler

/-!
# Stage scopes

A `_StageScope` remembers the node that its `__enter__` created, and its `__exit__` finishes the
profiler's active node (`core/performance/request_profiler.py:138–151`). One profiler with any
scopes on it, entered and left in any order: which of them close their own node.
-/

namespace SalesData.Performance

open Base

variable {F : Type}

/-- A scope between its `__enter__` and its `__exit__`, with its `_node`. -/
structure OpenScope where
  scope : Nat
  node : Nat
  deriving DecidableEq

/-- One `__exit__`: the scope's node, the profiler before it and what came out. -/
structure Exit (F : Type) where
  node : Nat
  before : RequestProfiler F
  outcome : Except Error (RequestProfiler F)

/-- A profiler and the scopes on it, the most recently entered first. -/
structure Scopes (F : Type) where
  profiler : RequestProfiler F
  now : Int
  opened : List OpenScope
  entered : List Nat
  exits : List (Exit F)

/-- The calls on a scope, with the time that passes before each reading of the clock. -/
inductive ScopeCall
  | enter (scope : Nat) (stage : PerformanceStage) (name : MetricName) (tags : Tags)
      (elapsed : Nat)
  | exit (scope : Nat) (elapsed elapsed' : Nat)

/-- Scopes on one profiler. Each is entered once and left once, later. -/
def scopes (profiler : RequestProfiler F) (now : Int) : System (Scopes F) ScopeCall where
  init := ⟨profiler, now, [], [], []⟩
  step s
    | .enter scope stage name tags elapsed =>
      if scope ∈ s.entered then none
      else
        match s.profiler.startStage stage name tags (s.now + elapsed) with
        | .error _ => some { s with now := s.now + elapsed, entered := scope :: s.entered }
        | .ok (profiler, node) => some
          { s with
            profiler
            now := s.now + elapsed
            opened := ⟨scope, node⟩ :: s.opened
            entered := scope :: s.entered }
    | .exit scope elapsed elapsed' =>
      match s.opened.find? (·.scope == scope) with
      | none => none
      | some own =>
        let finishedNs := s.now + elapsed
        let outcome := s.profiler.finishStage finishedNs (finishedNs + elapsed')
        some
          { s with
            profiler := match outcome with
              | .ok profiler => profiler
              | .error _ => s.profiler
            now := finishedNs + elapsed'
            opened := s.opened.eraseP (·.scope == scope)
            exits := s.exits ++ [⟨own.node, s.profiler, outcome⟩] }

/-- An exit that finishes the scope's own node and nothing else, emits that node's name and
duration once, and raises nothing. -/
def Exit.ClosesOwn (e : Exit F) : Prop :=
  ∃ after node finishedNs timestampNs, e.outcome = .ok after ∧
    e.before.trace.nodes[e.node]? = some node ∧ node.durationNs = none ∧
    after.trace.nodes = e.before.trace.nodes.modify e.node (·.closed finishedNs) ∧
    after.metricPoints =
      e.before.metricPoints ++
        [RequestProfiler.timerPoint node (finishedNs - node.startedNs) timestampNs]

/-- Every exit is of the most recently entered scope that is still open. -/
def nested : List Nat → List ScopeCall → Bool
  | _, [] => true
  | opened, .enter scope _ _ _ _ :: calls => nested (scope :: opened) calls
  | opened, .exit scope _ _ :: calls => opened.head? == some scope && nested opened.tail calls

/-- The nodes from an active one to the root: open, started in the past, each the parent of the
one before it. -/
def OpenPath (nodes : List TraceNode) (now : Int) : Option Nat → List Nat → Prop
  | current, [] => current = none
  | current, i :: rest => current = some i ∧ ∃ node, nodes[i]? = some node ∧
      node.durationNs = none ∧ node.startedNs ≤ now ∧ OpenPath nodes now node.parent rest

namespace OpenPath

variable {nodes : List TraceNode} {now now' : Int} {current : Option Nat} {path : List Nat}

/-- Time may pass. -/
theorem later (h : OpenPath nodes now current path) (hnow : now ≤ now') :
    OpenPath nodes now' current path := by
  induction path generalizing current with
  | nil => exact h
  | cons i rest ih =>
    obtain ⟨hcurrent, node, hnode, hopen, hstarted, hrest⟩ := h
    exact ⟨hcurrent, node, hnode, hopen, by omega, ih hrest⟩

/-- Nodes may be added. -/
theorem append (h : OpenPath nodes now current path) (node : TraceNode) :
    OpenPath (nodes ++ [node]) now current path := by
  induction path generalizing current with
  | nil => exact h
  | cons i rest ih =>
    obtain ⟨hcurrent, found, hfound, hopen, hstarted, hrest⟩ := h
    have hlt := (List.getElem?_eq_some_iff.mp hfound).1
    exact ⟨hcurrent, found, by rw [List.getElem?_append_left hlt]; exact hfound, hopen, hstarted,
      ih hrest⟩

/-- A node beside the path may change. -/
theorem modify (h : OpenPath nodes now current path) {j : Nat} (hj : j ∉ path)
    (f : TraceNode → TraceNode) : OpenPath (nodes.modify j f) now current path := by
  induction path generalizing current with
  | nil => exact h
  | cons i rest ih =>
    obtain ⟨hcurrent, node, hnode, hopen, hstarted, hrest⟩ := h
    obtain ⟨hne, hrest'⟩ := not_or.mp (List.mem_cons.not.mp hj)
    refine ⟨hcurrent, node, ?_, hopen, hstarted, ih hrest hrest'⟩
    rw [List.getElem?_modify, hnode]
    simp [hne]

end OpenPath

/-- Ancestors are older. -/
theorem OpenPath.lt_of_mem {trace : Trace} {now : Int} {i : Nat} {node : TraceNode}
    {path : List Nat} (hnode : trace.nodes[i]? = some node)
    (h : OpenPath trace.nodes now node.parent path) : ∀ j ∈ path, j < i := by
  induction path generalizing i node with
  | nil => exact fun j hj ↦ absurd hj List.not_mem_nil
  | cons p rest ih =>
    obtain ⟨hparent, parent, hp, -, -, hrest⟩ := h
    have hlt := trace.parent_lt i node hnode p hparent
    intro j hj
    rcases List.mem_cons.mp hj with rfl | hj
    · exact hlt
    · have := ih hp hrest j hj
      omega

/-- The active nodes of a profiler in use: one for each open scope, and the root. -/
structure Scopes.Inv (s : Scopes F) (path : List Nat) : Prop where
  completed : s.profiler.completed = false
  openPath : OpenPath s.profiler.trace.nodes s.now s.profiler.trace.current path
  length_path : path.length = s.opened.length + 1

/-- A new profiler has its root active. -/
theorem create_current {requestId : Text} {tags : Tags} {startedNs rootNs : Int}
    {profiler : RequestProfiler F}
    (h : RequestProfiler.create requestId tags startedNs rootNs = .ok profiler) :
    profiler.completed = false ∧
      OpenPath profiler.trace.nodes rootNs profiler.trace.current [0] := by
  cases h
  exact ⟨rfl, rfl, _, rfl, rfl, le_refl _, rfl⟩

/-- What entering a scope does: a new active node under the one before. -/
theorem step_enter {profiler : RequestProfiler F} {rootNs : Int} {s s' : Scopes F}
    {path : List Nat} {scope elapsed : Nat} {stage : PerformanceStage} {name : MetricName}
    {tags : Tags} (hinv : s.Inv path)
    (h : (scopes profiler rootNs).step s (.enter scope stage name tags elapsed) = some s') :
    ∃ node, s'.Inv (node :: path) ∧ s'.opened = ⟨scope, node⟩ :: s.opened ∧
      s'.exits = s.exits ∧ s.now ≤ s'.now ∧ node = s.profiler.trace.nodes.length ∧
      s'.profiler.trace.nodes =
        s.profiler.trace.nodes ++ [.started name stage s'.now tags path.head?] := by
  obtain ⟨hcompleted, hpath, hlength⟩ := hinv
  cases path with
  | nil =>
    rw [List.length_nil] at hlength
    omega
  | cons i rest =>
    obtain ⟨after, hstart, hcompleted', hnodes, hcurrent, -⟩ :=
      RequestProfiler.startStage_of_current stage name tags (s.now + elapsed) hcompleted hpath.1
    simp only [scopes, hstart] at h
    split at h
    · cases h
    · cases h
      refine ⟨s.profiler.trace.nodes.length, ⟨hcompleted', ?_, ?_⟩, rfl, rfl,
        Int.le_add_of_nonneg_right (Int.natCast_nonneg _), rfl, hnodes⟩
      · refine ⟨hcurrent, .started name stage (s.now + elapsed) tags (some i), ?_, rfl,
          le_refl _, ?_⟩
        · rw [hnodes]
          exact List.getElem?_concat_length ..
        · have hlater : OpenPath s.profiler.trace.nodes (s.now + elapsed)
              s.profiler.trace.current (i :: rest) := hpath.later (by omega)
          rw [hpath.1] at hlater
          rw [hnodes]
          exact hlater.append _
      · exact congrArg (· + 1) hlength

/-- What leaving a scope does: the active node finishes, whatever the scope is. -/
theorem step_exit {profiler : RequestProfiler F} {rootNs : Int} {s s' : Scopes F}
    {path : List Nat} {scope elapsed elapsed' : Nat} (hinv : s.Inv path)
    (h : (scopes profiler rootNs).step s (.exit scope elapsed elapsed') = some s') :
    ∃ own i rest node after finishedNs timestampNs,
      s.opened.find? (·.scope == scope) = some own ∧ path = i :: rest ∧ s'.Inv rest ∧
      s'.opened = s.opened.eraseP (·.scope == scope) ∧
      s'.exits = s.exits ++ [⟨own.node, s.profiler, .ok after⟩] ∧
      s.profiler.trace.nodes[i]? = some node ∧ node.durationNs = none ∧
      after.trace.nodes = s.profiler.trace.nodes.modify i (·.closed finishedNs) ∧
      after.metricPoints = s.profiler.metricPoints ++
        [RequestProfiler.timerPoint node (finishedNs - node.startedNs) timestampNs] ∧
      s'.profiler = after ∧ s.now ≤ finishedNs ∧ finishedNs ≤ s'.now := by
  obtain ⟨hcompleted, hpath, hlength⟩ := hinv
  cases path with
  | nil =>
    rw [List.length_nil] at hlength
    omega
  | cons i rest =>
    obtain ⟨hcurrent, node, hnode, hopen, hstarted, hrest⟩ := hpath
    have hnow : node.startedNs ≤ s.now + elapsed := by omega
    obtain ⟨after, hfinish, hcompleted', hnodes, hcurrent', hpoints⟩ :=
      RequestProfiler.finishStage_of_open (s.now + elapsed + elapsed') hcurrent hnode hopen hnow
    cases hfind : s.opened.find? (·.scope == scope) with
    | none => simp [scopes, hfind] at h
    | some own =>
      simp only [scopes, hfind, hfinish, Option.some.injEq] at h
      subst h
      refine ⟨own, i, rest, node, after, s.now + elapsed, s.now + elapsed + elapsed', rfl, rfl,
        ⟨hcompleted'.trans hcompleted, ?_, ?_⟩, rfl, rfl, hnode, hopen, hnodes, hpoints, rfl,
        Int.le_add_of_nonneg_right (Int.natCast_nonneg _),
        Int.le_add_of_nonneg_right (Int.natCast_nonneg _)⟩
      · have hbeside : i ∉ rest := by
          intro hmem
          exact Nat.lt_irrefl i (OpenPath.lt_of_mem hnode hrest i hmem)
        have hlater : OpenPath s.profiler.trace.nodes (s.now + elapsed + elapsed') node.parent
            rest := hrest.later (by omega)
        show OpenPath after.trace.nodes _ after.trace.current rest
        rw [hcurrent', hnodes]
        exact hlater.modify hbeside _
      · have hmem := List.mem_of_find?_eq_some hfind
        have hfound := List.find?_some hfind
        have hpos := List.length_pos_of_mem hmem
        show rest.length = (s.opened.eraseP (·.scope == scope)).length + 1
        rw [List.length_eraseP_of_mem hmem hfound]
        rw [List.length_cons] at hlength
        omega

/-- In any order, an exit raises nothing and emits one timer's point. -/
theorem exit_emitsTimer {profiler : RequestProfiler F} {rootNs : Int} {s s' : Scopes F}
    {path : List Nat} {scope elapsed elapsed' : Nat} (hinv : s.Inv path)
    (h : (scopes profiler rootNs).step s (.exit scope elapsed elapsed') = some s') :
    ∃ e after point, s'.exits = s.exits ++ [e] ∧ e.outcome = .ok after ∧
      after.metricPoints = e.before.metricPoints ++ [point] ∧ point.metricType = .timer := by
  obtain ⟨own, i, rest, node, after, finishedNs, timestampNs, -, -, -, -, hexits, -, -, -,
    hpoints, -⟩ := step_exit hinv h
  exact ⟨_, after, _, hexits, rfl, hpoints, rfl⟩

/-- An exit of another node closes that one and leaves the scope's own open. -/
theorem not_closesOwn {e : Exit F} {after : RequestProfiler F} {i : Nat} {node : TraceNode}
    {finishedNs : Int} (hne : e.node ≠ i) (houtcome : e.outcome = .ok after)
    (hnode : e.before.trace.nodes[i]? = some node) (hopen : node.durationNs = none)
    (hnodes : after.trace.nodes = e.before.trace.nodes.modify i (·.closed finishedNs)) :
    ¬ e.ClosesOwn := by
  rintro ⟨after', own, ownFinishedNs, -, houtcome', -, -, hnodes', -⟩
  rw [houtcome] at houtcome'
  cases houtcome'
  have hclosed : after.trace.nodes[i]? = some (node.closed finishedNs) := by
    rw [hnodes, List.getElem?_modify, hnode]
    simp
  have hkept : after.trace.nodes[i]? = some node := by
    rw [hnodes', List.getElem?_modify, hnode]
    simp [hne]
  rw [hclosed] at hkept
  apply TraceNode.durationNs_closed node finishedNs
  rw [Option.some.inj hkept]
  exact hopen

/-- The active nodes are those of the open scopes, in the order of entering, and the root. -/
def Scopes.Nested (s : Scopes F) : Prop :=
  ∃ root, s.Inv (s.opened.map (·.node) ++ [root])

/-- Leaving the scope entered last closes its node and stays nested. -/
theorem exit_innermost {profiler : RequestProfiler F} {rootNs : Int} {s s' : Scopes F}
    {scope elapsed elapsed' : Nat} (hnested : s.Nested)
    (hscope : (s.opened.map (·.scope)).head? = some scope)
    (h : (scopes profiler rootNs).step s (.exit scope elapsed elapsed') = some s') :
    s'.Nested ∧ s'.opened.map (·.scope) = (s.opened.map (·.scope)).tail ∧
      ∃ e, s'.exits = s.exits ++ [e] ∧ e.ClosesOwn := by
  obtain ⟨root, hinv⟩ := hnested
  obtain ⟨own, i, rest, node, after, finishedNs, timestampNs, hfind, hpath, hinv', hopened,
    hexits, hnode, hopen, hnodes, hpoints, -⟩ := step_exit hinv h
  cases hs : s.opened with
  | nil => simp [hs] at hscope
  | cons head tail =>
    obtain rfl : head.scope = scope := by simpa [hs] using hscope
    rw [hs] at hfind hpath hopened
    obtain rfl : head = own := by simpa using hfind
    have htail : s'.opened = tail := by simpa using hopened
    rw [List.map_cons, List.cons_append, List.cons.injEq] at hpath
    obtain ⟨rfl, rfl⟩ := hpath
    refine ⟨⟨root, htail ▸ hinv'⟩, by rw [htail]; rfl, _, hexits, ?_⟩
    exact ⟨after, node, finishedNs, timestampNs, rfl, hnode, hopen, hnodes, hpoints⟩

/-- Leaving any other open scope closes the node of the one entered last instead. -/
theorem exit_other {profiler : RequestProfiler F} {rootNs : Int} {s s' : Scopes F}
    {scope elapsed elapsed' : Nat} (hnested : s.Nested)
    (hscope : (s.opened.map (·.scope)).head? ≠ some scope)
    (h : (scopes profiler rootNs).step s (.exit scope elapsed elapsed') = some s') :
    ∃ e ∈ s'.exits, ¬ e.ClosesOwn := by
  obtain ⟨root, hinv⟩ := hnested
  obtain ⟨own, i, rest, node, after, finishedNs, timestampNs, hfind, hpath, -, -, hexits, hnode,
    hopen, hnodes, -⟩ := step_exit hinv h
  cases hs : s.opened with
  | nil =>
    rw [hs] at hfind
    cases hfind
  | cons head tail =>
    have hother : (head.scope == scope) = false := by simpa [hs] using hscope
    rw [hs, List.find?_cons, hother] at hfind
    have hmem := List.mem_of_find?_eq_some hfind
    rw [hs, List.map_cons, List.cons_append, List.cons.injEq] at hpath
    obtain ⟨hi, rfl⟩ := hpath
    have hrest : OpenPath s.profiler.trace.nodes s.now node.parent
        (tail.map (·.node) ++ [root]) := by
      have hopenPath := hinv.openPath
      rw [hs, List.map_cons, List.cons_append] at hopenPath
      obtain ⟨-, found, hfound, -, -, hrest⟩ := hopenPath
      rw [hi, hnode] at hfound
      cases hfound
      exact hrest
    have hlt := OpenPath.lt_of_mem hnode hrest own.node
      (List.mem_append_left _ (List.mem_map_of_mem hmem))
    refine ⟨_, by rw [hexits]; exact List.mem_append_right _ (List.mem_singleton_self _), ?_⟩
    exact not_closesOwn (Nat.ne_of_lt hlt) rfl hnode hopen hnodes

private theorem exits_subset {profiler : RequestProfiler F} {rootNs : Int} {s s' : Scopes F}
    {calls : List ScopeCall}
    (h : (scopes profiler rootNs).exec (fun _ _ ↦ True) s calls = some s') :
    ∀ e ∈ s.exits, e ∈ s'.exits := by
  induction calls generalizing s with
  | nil =>
    cases h
    exact fun e he ↦ he
  | cons call calls ih =>
    rw [System.exec, if_pos trivial] at h
    obtain ⟨m, hm, hrest⟩ := Option.bind_eq_some_iff.mp h
    intro e he
    apply ih hrest
    unfold scopes at hm
    cases call with
    | enter scope stage name tags elapsed =>
      dsimp only at hm
      split at hm
      · cases hm
      · split at hm <;> cases hm <;> exact he
    | exit scope elapsed elapsed' =>
      dsimp only at hm
      split at hm
      · cases hm
      · cases hm
        exact List.mem_append_left _ he

/-- From a nested state, the exits of a run all close their own nodes exactly when the run
stays nested. -/
theorem exec_closeOwn_iff {profiler : RequestProfiler F} {rootNs : Int} {s s' : Scopes F}
    {calls : List ScopeCall} (hnested : s.Nested) (hexits : ∀ e ∈ s.exits, e.ClosesOwn)
    (h : (scopes profiler rootNs).exec (fun _ _ ↦ True) s calls = some s') :
    (∀ e ∈ s'.exits, e.ClosesOwn) ↔ nested (s.opened.map (·.scope)) calls = true := by
  induction calls generalizing s with
  | nil =>
    cases h
    simpa [nested] using hexits
  | cons call calls ih =>
    rw [System.exec, if_pos trivial] at h
    obtain ⟨m, hm, hrest⟩ := Option.bind_eq_some_iff.mp h
    cases call with
    | enter scope stage name tags elapsed =>
      obtain ⟨root, hinv⟩ := hnested
      obtain ⟨node, hinv', hopened, hsame, -⟩ := step_enter hinv hm
      have hm' : m.Nested := ⟨root, by rw [hopened]; exact hinv'⟩
      rw [nested, ih hm' (hsame ▸ hexits) hrest, hopened]
      rfl
    | exit scope elapsed elapsed' =>
      rw [nested]
      by_cases hscope : (s.opened.map (·.scope)).head? = some scope
      · obtain ⟨hm', hopened, e, hexits', hclose⟩ := exit_innermost hnested hscope hm
        have hall : ∀ e ∈ m.exits, e.ClosesOwn := by
          rw [hexits']
          intro e' he'
          rcases List.mem_append.mp he' with he' | he'
          · exact hexits e' he'
          · rw [List.mem_singleton] at he'
            exact he' ▸ hclose
        rw [ih hm' hall hrest, hopened]
        simp [hscope]
      · obtain ⟨e, he, hnot⟩ := exit_other hnested hscope hm
        have hhead : ((s.opened.map (·.scope)).head? == some scope) = false := by
          simpa using hscope
        rw [hhead, Bool.false_and]
        constructor
        · exact fun hall ↦ absurd (hall e (exits_subset hrest e he)) hnot
        · exact fun hfalse ↦ absurd hfalse Bool.false_ne_true

/-- Every exit of a run closes its scope's own node exactly when every exit is of the scope
entered last among those still open. -/
theorem exits_closeOwn_iff {requestId : Text} {tags : Tags} {startedNs rootNs : Int}
    (profiler : RequestProfiler F)
    (hcreate : RequestProfiler.create requestId tags startedNs rootNs = .ok profiler)
    (calls : List ScopeCall) (s : Scopes F)
    (h : (scopes profiler rootNs).run calls = some s) :
    (∀ e ∈ s.exits, e.ClosesOwn) ↔ nested [] calls = true := by
  obtain ⟨hcompleted, hpath⟩ := create_current hcreate
  have hinit : (scopes profiler rootNs).init.Nested := ⟨0, hcompleted, hpath, rfl⟩
  exact exec_closeOwn_iff hinit (fun e he ↦ absurd he List.not_mem_nil) h

private def query (scope : Nat) : ScopeCall :=
  .enter scope .sqlExecute "sql_execute".toList .empty 1

private def fetch (scope : Nat) : ScopeCall :=
  .enter scope .sqlFetch "sql_fetch_one".toList .empty 1

-- The number of exits of a run on a new profiler.
private def exitTotal (calls : List ScopeCall) : Option Nat :=
  (RequestProfiler.create "a".toList .empty 0 0).toOption.bind fun profiler : RequestProfiler Rat ↦
    ((scopes profiler 0).run calls).map (·.exits.length)

private theorem run_of_exitTotal (calls : List ScopeCall) {n : Nat}
    (h : exitTotal calls = some n) :
    ∃ profiler : RequestProfiler Rat, RequestProfiler.create "a".toList .empty 0 0 = .ok profiler ∧
      ∃ s, (scopes profiler 0).run calls = some s ∧ s.exits.length = n := by
  unfold exitTotal at h
  obtain ⟨profiler, hcreate, hrun⟩ := Option.bind_eq_some_iff.mp h
  obtain ⟨s, hs, hlen⟩ := Option.map_eq_some_iff.mp hrun
  refine ⟨profiler, ?_, s, hs, hlen⟩
  cases he : (RequestProfiler.create "a".toList .empty 0 0 :
      Except Error (RequestProfiler Rat)) with
  | error e =>
    rw [he] at hcreate
    cases hcreate
  | ok created =>
    rw [he] at hcreate
    exact congrArg Except.ok (Option.some.inj hcreate)

/-- Two stages, one inside the other. -/
theorem exits_closeOwn_iff_nested :
    ∃ profiler : RequestProfiler Rat, RequestProfiler.create "a".toList .empty 0 0 = .ok profiler ∧
      ∃ s, (scopes profiler 0).run [query 0, fetch 1, .exit 1 2 0, .exit 0 3 0] = some s ∧
        s.exits.length = 2 ∧ ∀ e ∈ s.exits, e.ClosesOwn := by
  obtain ⟨profiler, hcreate, s, hs, hlen⟩ := run_of_exitTotal
    [query 0, fetch 1, .exit 1 2 0, .exit 0 3 0] (show _ = some 2 by decide +kernel)
  exact ⟨profiler, hcreate, s, hs, hlen,
    (exits_closeOwn_iff profiler hcreate _ s hs).mpr (by decide)⟩

/-- Two stages, the first one left while the second is still open: each closes the other's
node. -/
theorem outOfOrder_closesOther :
    ∃ profiler : RequestProfiler Rat, RequestProfiler.create "a".toList .empty 0 0 = .ok profiler ∧
      ∃ s, (scopes profiler 0).run [query 0, fetch 1, .exit 0 2 0, .exit 1 3 0] = some s ∧
        ¬ ∀ e ∈ s.exits, e.ClosesOwn := by
  obtain ⟨profiler, hcreate, s, hs, -⟩ := run_of_exitTotal
    [query 0, fetch 1, .exit 0 2 0, .exit 1 3 0] (show _ = some 2 by decide +kernel)
  obtain ⟨hcompleted, hpath⟩ := create_current hcreate
  have hinit : (scopes profiler 0).init.Nested := ⟨0, hcompleted, hpath, rfl⟩
  refine ⟨profiler, hcreate, s, hs, ?_⟩
  rw [exec_closeOwn_iff hinit (fun e he ↦ absurd he List.not_mem_nil) hs]
  exact show ¬ nested [] _ = true by decide

end SalesData.Performance
