import Mathlib.Algebra.BigOperators.Group.List.Basic
import SalesData.Performance.StageScopes

/-!
# The time of a trace

What the durations of a completed trace account for (`core/performance/trace.py:49–72`,
`request_profiler.py:277–303`). The children of a node are those that name it as their parent:
`add_child` sets both links.
-/

namespace SalesData.Performance

open Base

namespace Trace

/-- `TraceNode.children`, in the order of `add_child` (`trace.py:49–54`). -/
def children (trace : Trace) (i : Nat) : List TraceNode :=
  trace.nodes.filter (·.parent == some i)

/-- The time spent in the children of a node (`trace.py:71`). -/
def childDuration (trace : Trace) (i : Nat) : Int :=
  ((trace.children i).map (·.durationNs.getD 0)).sum

/-- `exclusive_duration_ns` (`trace.py:66–72`). -/
def exclusiveDurationNs (trace : Trace) (i : Nat) : Option Int :=
  trace.nodes[i]?.bind fun node ↦
    node.durationNs.map fun durationNs ↦ max 0 (durationNs - trace.childDuration i)

end Trace

/-- A node that finished by an instant, with the duration between its two readings. -/
def TraceNode.FinishedBy (node : TraceNode) (t : Int) : Prop :=
  ∃ f, node.finishedNs = some f ∧ node.durationNs = some (f - node.startedNs) ∧
    node.startedNs ≤ f ∧ f ≤ t

namespace Trace

/-- A trace that accounts for all of its time. -/
structure Accounts (trace : Trace) : Prop where
  finished : ∀ node ∈ trace.nodes, ∃ f, node.FinishedBy f
  within : ∀ i parent, trace.nodes[i]? = some parent → ∀ child ∈ trace.children i,
    parent.startedNs ≤ child.startedNs ∧ ∃ g ∈ parent.finishedNs, child.FinishedBy g
  apart : ∀ i, (trace.children i).Pairwise fun older younger ↦
    older.FinishedBy younger.startedNs
  exclusive : ∀ i node, trace.nodes[i]? = some node → ∃ durationNs ∈ node.durationNs,
    trace.childDuration i ≤ durationNs ∧
      trace.exclusiveDurationNs i = some (durationNs - trace.childDuration i)
  total : ∃ root ∈ trace.nodes.head?, root.parent = none ∧ root.durationNs =
    some ((List.range trace.nodes.length).map fun i ↦ (trace.exclusiveDurationNs i).getD 0).sum

end Trace

namespace TraceNode

variable {node : TraceNode} {t t' : Int}

/-- Time may pass. -/
theorem FinishedBy.later (h : node.FinishedBy t) (ht : t ≤ t') : node.FinishedBy t' := by
  obtain ⟨f, hf, hduration, hstarted, hle⟩ := h
  exact ⟨f, hf, hduration, hstarted, by omega⟩

/-- A finished node has a duration. -/
theorem FinishedBy.durationNs_ne_none (h : node.FinishedBy t) : node.durationNs ≠ none := by
  obtain ⟨f, -, hduration, -, -⟩ := h
  simp [hduration]

/-- An open node that finishes now is finished. -/
theorem finishedBy_closed (hopen : node.durationNs = none) (hstarted : node.startedNs ≤ t) :
    (node.closed t).FinishedBy t := by
  rw [closed, hopen]
  exact ⟨t, rfl, rfl, hstarted, le_refl t⟩

/-- Finishing does not move the start. -/
@[simp] theorem startedNs_closed : (node.closed t).startedNs = node.startedNs := by
  unfold closed
  split <;> rfl

end TraceNode

/-- A trace at an instant, with its active nodes: all others are finished, children lie in their
parents, and siblings follow each other. -/
structure Timed (trace : Trace) (now : Int) (path : List Nat) : Prop where
  nonempty : 0 < trace.nodes.length
  root : ∀ i (node : TraceNode), trace.nodes[i]? = some node → (node.parent = none ↔ i = 0)
  closed : ∀ i (node : TraceNode), trace.nodes[i]? = some node → i ∉ path → node.FinishedBy now
  started : ∀ (i p : Nat) (node parent : TraceNode), trace.nodes[i]? = some node →
    node.parent = some p → trace.nodes[p]? = some parent → parent.startedNs ≤ node.startedNs
  within : ∀ (i p : Nat) (node parent : TraceNode), trace.nodes[i]? = some node →
    node.parent = some p → trace.nodes[p]? = some parent → p ∉ path →
    ∃ g ∈ parent.finishedNs, node.FinishedBy g
  apart : ∀ (i j : Nat) (older younger : TraceNode), trace.nodes[i]? = some older →
    trace.nodes[j]? = some younger → i < j → older.parent = younger.parent →
    older.FinishedBy younger.startedNs

/-- The active node of a path is open; its ancestors are older. -/
theorem OpenPath.head {trace : Trace} {now : Int} {current : Option Nat} {i : Nat}
    {rest : List Nat} (h : OpenPath trace.nodes now current (i :: rest)) :
    ∃ node, trace.nodes[i]? = some node ∧ node.durationNs = none ∧ node.startedNs ≤ now ∧
      OpenPath trace.nodes now node.parent rest ∧ ∀ j, i < j → j ∉ i :: rest := by
  obtain ⟨-, node, hnode, hopen, hstarted, hrest⟩ := h
  refine ⟨node, hnode, hopen, hstarted, hrest, ?_⟩
  intro j hj hmem
  rcases List.mem_cons.mp hmem with rfl | hmem
  · exact Nat.lt_irrefl j hj
  · have := hrest.lt_of_mem hnode j hmem
    omega

private theorem getElem?_snoc {α : Type} {l : List α} {a x : α} {i : Nat} :
    (l ++ [a])[i]? = some x ↔ l[i]? = some x ∨ i = l.length ∧ x = a := by
  rcases Nat.lt_trichotomy i l.length with hi | rfl | hi
  · rw [List.getElem?_append_left hi]
    simp [Nat.ne_of_lt hi]
  · simp [eq_comm]
  · rw [List.getElem?_eq_none (by simp; omega), List.getElem?_eq_none (by omega)]
    simp [Nat.ne_of_gt hi]

private theorem getElem?_modify_iff {α : Type} {l : List α} {f : α → α} {x : α} {i j : Nat} :
    (l.modify i f)[j]? = some x ↔ ∃ y, l[j]? = some y ∧ x = if i = j then f y else y := by
  rw [List.getElem?_modify, Option.map_eq_map, Option.map_eq_some_iff]
  simp only [eq_comm (b := x)]

namespace Timed

variable {trace trace' : Trace} {now t : Int} {path rest : List Nat} {current : Option Nat}
  {i : Nat}

/-- Time may pass. -/
theorem later (h : Timed trace now path) (ht : now ≤ t) : Timed trace t path :=
  { h with closed := fun i node hnode hi ↦ (h.closed i node hnode hi).later ht }

/-- A node that starts under the active one lies behind its siblings. -/
theorem start (h : Timed trace now path) {stage : PerformanceStage} {name : MetricName}
    {tags : Tags} (hpath : OpenPath trace.nodes now current (i :: rest))
    (hpathEq : path = i :: rest)
    (hnodes : trace'.nodes = trace.nodes ++ [.started name stage t tags (some i)])
    (ht : now ≤ t) : Timed trace' t (trace.nodes.length :: path) := by
  subst hpathEq
  obtain ⟨parent, hparent, -, hstarted, -, hnot⟩ := hpath.head
  have hlt := (List.getElem?_eq_some_iff.mp hparent).1
  have hget (j : Nat) (x : TraceNode) : trace'.nodes[j]? = some x ↔ trace.nodes[j]? = some x ∨
      j = trace.nodes.length ∧ x = .started name stage t tags (some i) := by
    rw [hnodes]
    exact getElem?_snoc
  -- The parent of an older node is no younger than it.
  have hold {j p : Nat} {x y : TraceNode} (hx : trace.nodes[j]? = some x)
      (hp : x.parent = some p) (hy : trace'.nodes[p]? = some y) : trace.nodes[p]? = some y := by
    have hj := (List.getElem?_eq_some_iff.mp hx).1
    have hpj := trace.parent_lt j x hx p hp
    rcases (hget p y).mp hy with hy | ⟨rfl, -⟩
    · exact hy
    · omega
  constructor
  · rw [hnodes, List.length_append]
    exact Nat.add_pos_left h.nonempty _
  · intro j x hx
    rcases (hget j x).mp hx with hx | ⟨rfl, rfl⟩
    · exact h.root j x hx
    · have := h.nonempty
      simp only [TraceNode.started, reduceCtorEq, false_iff]
      omega
  · intro j x hx hj
    rcases (hget j x).mp hx with hx | ⟨rfl, rfl⟩
    · exact (h.closed j x hx fun hmem ↦ hj (List.mem_cons_of_mem _ hmem)).later ht
    · exact absurd List.mem_cons_self hj
  · intro j p x y hx hp hy
    rcases (hget j x).mp hx with hx | ⟨rfl, rfl⟩
    · exact h.started j p x y hx hp (hold hx hp hy)
    · cases hp
      rcases (hget i y).mp hy with hy | ⟨rfl, -⟩
      · rw [hparent] at hy
        cases hy
        exact hstarted.trans ht
      · omega
  · intro j p x y hx hp hy hnotmem
    rcases (hget j x).mp hx with hx | ⟨rfl, rfl⟩
    · exact h.within j p x y hx hp (hold hx hp hy)
        fun hmem ↦ hnotmem (List.mem_cons_of_mem _ hmem)
    · cases hp
      exact absurd (List.mem_cons_of_mem _ List.mem_cons_self) hnotmem
  · intro j k older younger hj hk hjk hsame
    rcases (hget j older).mp hj with hj | ⟨rfl, rfl⟩
    · rcases (hget k younger).mp hk with hk | ⟨rfl, rfl⟩
      · exact h.apart j k older younger hj hk hjk hsame
      · have hij := trace.parent_lt j older hj i hsame
        exact (h.closed j older hj (hnot j hij)).later ht
    · have hle := (List.getElem?_eq_some_iff.mp hk).1
      rw [hnodes, List.length_append, List.length_singleton] at hle
      omega

/-- The active node finishes behind its children. -/
theorem finish (h : Timed trace now (i :: rest))
    (hpath : OpenPath trace.nodes now current (i :: rest))
    (hnodes : trace'.nodes = trace.nodes.modify i (·.closed t)) (ht : now ≤ t) :
    Timed trace' t rest := by
  obtain ⟨node, hnode, hopen, hstarted, -, hnot⟩ := hpath.head
  have hget (j : Nat) (x : TraceNode) : trace'.nodes[j]? = some x ↔
      ∃ y, trace.nodes[j]? = some y ∧ x = if i = j then y.closed t else y := by
    rw [hnodes]
    exact getElem?_modify_iff
  -- Only the active node changes, and it was not finished.
  have hsame {j : Nat} {y : TraceNode} {g : Int} (hy : trace.nodes[j]? = some y)
      (hfinished : y.FinishedBy g) : i ≠ j := by
    rintro rfl
    rw [hnode] at hy
    cases hy
    exact hfinished.durationNs_ne_none hopen
  have hparent {j : Nat} {x : TraceNode} (y : TraceNode)
      (hx : x = if i = j then y.closed t else y) : x.parent = y.parent := by
    rw [hx]
    split
    · exact y.parent_closed t
    · rfl
  have hstart {j : Nat} {x : TraceNode} (y : TraceNode)
      (hx : x = if i = j then y.closed t else y) : x.startedNs = y.startedNs := by
    rw [hx]
    split
    · exact TraceNode.startedNs_closed
    · rfl
  constructor
  · rw [hnodes, List.length_modify]
    exact h.nonempty
  · intro j x hx
    obtain ⟨y, hy, hxy⟩ := (hget j x).mp hx
    rw [hparent y hxy]
    exact h.root j y hy
  · intro j x hx hj
    obtain ⟨y, hy, rfl⟩ := (hget j x).mp hx
    by_cases hij : i = j
    · subst hij
      rw [hnode] at hy
      cases hy
      rw [if_pos rfl]
      exact TraceNode.finishedBy_closed hopen (hstarted.trans ht)
    · rw [if_neg hij]
      have hnotmem : j ∉ i :: rest := by
        simp only [List.mem_cons, not_or]
        exact ⟨fun hji ↦ hij hji.symm, hj⟩
      exact (h.closed j y hy hnotmem).later ht
  · intro j p x z hx hp hz
    obtain ⟨y, hy, hxy⟩ := (hget j x).mp hx
    obtain ⟨w, hw, hzw⟩ := (hget p z).mp hz
    rw [hstart y hxy, hstart w hzw]
    exact h.started j p y w hy (hparent y hxy ▸ hp) hw
  · intro j p x z hx hp hz hpath
    obtain ⟨y, hy, hxy⟩ := (hget j x).mp hx
    obtain ⟨w, hw, hzw⟩ := (hget p z).mp hz
    rw [hparent y hxy] at hp
    by_cases hip : i = p
    · subst hip
      rw [hnode] at hw
      cases hw
      have hij := trace.parent_lt j y hy i hp
      rw [if_neg (Nat.ne_of_lt hij)] at hxy
      rw [if_pos rfl, TraceNode.closed, hopen] at hzw
      rw [hzw, hxy]
      exact ⟨t, rfl, (h.closed j y hy (hnot j hij)).later ht⟩
    · have hnotmem : p ∉ i :: rest := by
        simp only [List.mem_cons, not_or]
        exact ⟨fun hpi ↦ hip hpi.symm, hpath⟩
      obtain ⟨g, hg, hfinished⟩ := h.within j p y w hy hp hw hnotmem
      rw [if_neg hip] at hzw
      rw [if_neg (hsame hy hfinished)] at hxy
      rw [hzw, hxy]
      exact ⟨g, hg, hfinished⟩
  · intro j k older younger hj hk hjk hparents
    obtain ⟨y, hy, hxy⟩ := (hget j older).mp hj
    obtain ⟨w, hw, hzw⟩ := (hget k younger).mp hk
    rw [hparent y hxy, hparent w hzw] at hparents
    have hfinished := h.apart j k y w hy hw hjk hparents
    rw [if_neg (hsame hy hfinished)] at hxy
    rw [hxy, hstart w hzw]
    exact hfinished

end Timed

/-- `finish_all`, with a clock that does not go back, finishes every node. -/
theorem Timed.finishLoop {trace : Trace} {t : Int} {path : List Nat} {now : Nat → Int}
    {fuel : Nat} (h : Timed trace t path)
    (hpath : OpenPath trace.nodes t trace.current path)
    (hfuel : ∀ i, trace.current = some i → i < fuel)
    (hnow : ∀ i, trace.current = some i → t ≤ now i) (hclock : ∀ i j, i ≤ j → now j ≤ now i) :
    ∃ trace' t', Trace.finishLoop now fuel trace = (trace', .ok ()) ∧ Timed trace' t' [] := by
  induction fuel generalizing trace t path with
  | zero =>
    cases path with
    | nil => exact ⟨trace, t, rfl, h⟩
    | cons i rest => exact absurd (hfuel i hpath.1) (Nat.not_lt_zero i)
  | succ fuel ih =>
    cases path with
    | nil =>
      have hcurrent : trace.current = none := hpath
      exact ⟨trace, t, by rw [Trace.finishLoop, hcurrent], h⟩
    | cons i rest =>
      have hcurrent : trace.current = some i := hpath.1
      have hle := hnow i hcurrent
      obtain ⟨node, hnode, hopen, hstarted, hrest, -⟩ := hpath.head
      obtain ⟨hlt, hget⟩ := List.getElem?_eq_some_iff.mp hnode
      have hfinish := Trace.finish_of_open hcurrent hnode hopen (hstarted.trans hle)
      rw [Trace.finishLoop, hcurrent]
      dsimp only
      rw [hfinish]
      have hparent : (trace.closing i (trace.current_lt i hcurrent) (now i)).current =
          node.parent := congrArg TraceNode.parent hget
      have hbeside : i ∉ rest :=
        fun hmem ↦ Nat.lt_irrefl i (OpenPath.lt_of_mem hnode hrest i hmem)
      refine ih (h.finish hpath rfl hle) ?_ ?_ ?_
      · rw [hparent]
        exact (hrest.later hle).modify hbeside _
      · intro p hp
        have hpi := trace.parent_lt i node hnode p (hparent ▸ hp)
        have hif := hfuel i hcurrent
        omega
      · intro p hp
        have hpi := trace.parent_lt i node hnode p (hparent ▸ hp)
        exact hclock p i (Nat.le_of_lt hpi)

-- What a finished node adds to a sum of durations.
private def span (node : TraceNode) : Int := node.durationNs.getD 0

private theorem sum_pick (p : Nat) (d : Int) (n : Nat) :
    ((List.range n).map fun i ↦ if p = i then d else 0).sum = if p < n then d else 0 := by
  induction n with
  | zero => rfl
  | succ n ih =>
    rw [List.range_succ, List.map_append, List.sum_append, ih]
    by_cases hp : p = n
    · subst hp
      simp
    · have hlt : p < n + 1 ↔ p < n := by omega
      simp [hp, hlt]

private theorem sum_children {l : List TraceNode} {n : Nat}
    (h : ∀ node ∈ l, ∃ p < n, node.parent = some p) :
    ((List.range n).map fun i ↦ ((l.filter (·.parent == some i)).map span).sum).sum =
      (l.map span).sum := by
  induction l with
  | nil =>
    simp only [List.filter_nil, List.map_nil, List.sum_nil]
    exact List.sum_eq_zero fun x hx ↦ (List.mem_map.mp hx).choose_spec.2.symm
  | cons node l ih =>
    obtain ⟨p, hp, hparent⟩ := h node List.mem_cons_self
    have hcons (i : Nat) : (((node :: l).filter (·.parent == some i)).map span).sum =
        (if p = i then span node else 0) +
          ((l.filter (·.parent == some i)).map span).sum := by
      rw [List.filter_cons, hparent]
      by_cases hpi : p = i
      · simp [hpi]
      · simp [hpi]
    simp only [hcons]
    rw [List.sum_map_add, sum_pick, if_pos hp, ih fun x hx ↦ h x (List.mem_cons_of_mem _ hx)]
    rfl

private theorem sum_span_le {l : List TraceNode} {s g : Int} (hsg : s ≤ g)
    (hin : ∀ node ∈ l, s ≤ node.startedNs ∧ node.FinishedBy g)
    (hapart : l.Pairwise fun older younger ↦ older.FinishedBy younger.startedNs) :
    (l.map span).sum ≤ g - s := by
  induction l generalizing s with
  | nil =>
    simp only [List.map_nil, List.sum_nil]
    omega
  | cons node l ih =>
    obtain ⟨hfirst, hrest⟩ := List.pairwise_cons.mp hapart
    obtain ⟨hstarted, f, hf, hduration, hle, hfg⟩ := hin node List.mem_cons_self
    have hspan : span node = f - node.startedNs := by rw [span, hduration, Option.getD_some]
    have hlater : (l.map span).sum ≤ g - f := by
      refine ih hfg ?_ hrest
      intro younger hyounger
      obtain ⟨f', hf', -, -, hfy⟩ := hfirst younger hyounger
      rw [hf] at hf'
      cases hf'
      exact ⟨hfy, (hin younger (List.mem_cons_of_mem _ hyounger)).2⟩
    rw [List.map_cons, List.sum_cons, hspan]
    omega

namespace Timed

variable {trace : Trace} {t : Int}

private theorem mem_children {i : Nat} {child : TraceNode} (h : child ∈ trace.children i) :
    ∃ j : Nat, trace.nodes[j]? = some child ∧ child.parent = some i := by
  obtain ⟨hmem, hparent⟩ := List.mem_filter.mp h
  obtain ⟨j, hj⟩ := List.mem_iff_getElem?.mp hmem
  exact ⟨j, hj, by simpa using hparent⟩

/-- The children of a node lie in it. -/
theorem child_within (h : Timed trace t []) {i : Nat} {parent child : TraceNode}
    (hparent : trace.nodes[i]? = some parent) (hchild : child ∈ trace.children i) :
    parent.startedNs ≤ child.startedNs ∧ ∃ g ∈ parent.finishedNs, child.FinishedBy g := by
  obtain ⟨j, hj, hji⟩ := mem_children hchild
  exact ⟨h.started j i child parent hj hji hparent,
    h.within j i child parent hj hji hparent List.not_mem_nil⟩

/-- The children of a node follow each other. -/
theorem children_apart (h : Timed trace t []) (i : Nat) :
    (trace.children i).Pairwise fun older younger ↦ older.FinishedBy younger.startedNs := by
  have hall : trace.nodes.Pairwise fun older younger ↦ older.parent = younger.parent →
      older.FinishedBy younger.startedNs := by
    rw [List.pairwise_iff_getElem]
    intro j k hj hk hjk
    exact h.apart j k _ _ (List.getElem?_eq_getElem hj) (List.getElem?_eq_getElem hk) hjk
  rw [Trace.children, List.pairwise_filter]
  refine hall.imp ?_
  intro older younger hpair holder hyounger
  apply hpair
  rw [beq_iff_eq.mp holder, beq_iff_eq.mp hyounger]

/-- The children of a node take no more time than it does. -/
theorem childDuration_le (h : Timed trace t []) {i : Nat} {node : TraceNode}
    (hnode : trace.nodes[i]? = some node) :
    ∃ durationNs ∈ node.durationNs, trace.childDuration i ≤ durationNs := by
  obtain ⟨f, hf, hduration, hle, -⟩ := h.closed i node hnode List.not_mem_nil
  refine ⟨f - node.startedNs, hduration, sum_span_le hle ?_ (h.children_apart i)⟩
  intro child hchild
  obtain ⟨hstarted, g, hg, hfinished⟩ := h.child_within hnode hchild
  rw [hf] at hg
  cases hg
  exact ⟨hstarted, hfinished⟩

/-- The time of a node outside its children. -/
theorem exclusiveDurationNs_eq (h : Timed trace t []) {i : Nat} {node : TraceNode}
    (hnode : trace.nodes[i]? = some node) :
    trace.exclusiveDurationNs i = some (span node - trace.childDuration i) := by
  obtain ⟨durationNs, hduration, hle⟩ := h.childDuration_le hnode
  rw [Trace.exclusiveDurationNs, hnode, Option.bind_some, span, hduration, Option.map_some,
    Option.getD_some, max_eq_right (Int.sub_nonneg.mpr hle)]

private theorem parent_of_pos (h : Timed trace t []) {i : Nat} {node : TraceNode}
    (hnode : trace.nodes[i]? = some node) (hi : i ≠ 0) :
    ∃ p < trace.nodes.length, node.parent = some p := by
  obtain ⟨p, hp⟩ := Option.ne_none_iff_exists'.mp (mt (h.root i node hnode).mp hi)
  have hlt := trace.parent_lt i node hnode p hp
  have hi := (List.getElem?_eq_some_iff.mp hnode).1
  exact ⟨p, by omega, hp⟩

/-- The times of all nodes outside their children are the time of the root. -/
theorem sum_exclusive (h : Timed trace t []) {root : TraceNode} {others : List TraceNode}
    (hnodes : trace.nodes = root :: others) :
    ((List.range trace.nodes.length).map fun i ↦ (trace.exclusiveDurationNs i).getD 0).sum =
      span root := by
  have hroot : root.parent = none := (h.root 0 root (by rw [hnodes]; rfl)).mpr rfl
  have hothers : ∀ node ∈ others, ∃ p < trace.nodes.length, node.parent = some p := by
    intro node hnode
    obtain ⟨j, hj⟩ := List.mem_iff_getElem?.mp hnode
    refine h.parent_of_pos (i := j + 1) ?_ (Nat.succ_ne_zero j)
    rw [hnodes]
    exact hj
  have heach : ∀ i ∈ List.range trace.nodes.length,
      (trace.exclusiveDurationNs i).getD 0 + trace.childDuration i =
        (trace.nodes.map span).getD i 0 := by
    intro i hi
    have hlt := List.mem_range.mp hi
    have hnode := List.getElem?_eq_getElem hlt
    rw [h.exclusiveDurationNs_eq hnode, Option.getD_some, sub_add_cancel,
      List.getD_eq_getElem?_getD, List.getElem?_map, hnode]
    rfl
  have hchildren : trace.childDuration =
      fun i ↦ ((others.filter (·.parent == some i)).map span).sum := by
    funext i
    rw [Trace.childDuration, Trace.children, hnodes, List.filter_cons, hroot]
    rfl
  have hspans : ((List.range trace.nodes.length).map fun i ↦
      (trace.nodes.map span).getD i 0).sum = (trace.nodes.map span).sum := by
    congr 1
    apply List.ext_getElem
    · simp
    · intro i hi hi'
      rw [List.getElem_map, List.getElem_range, List.getD_eq_getElem?_getD,
        List.getElem?_eq_getElem hi', Option.getD_some]
  have hboth := List.sum_map_add (l := List.range trace.nodes.length)
    (f := fun i ↦ (trace.exclusiveDurationNs i).getD 0) (g := trace.childDuration)
  rw [List.map_congr_left heach, hspans, hchildren, sum_children hothers] at hboth
  rw [eq_sub_of_add_eq hboth.symm, hnodes, List.map_cons, List.sum_cons, add_sub_cancel_right]

/-- A trace without an active node accounts for all of its time. -/
theorem accounts (h : Timed trace t []) : trace.Accounts where
  finished node hnode := by
    obtain ⟨i, hi⟩ := List.mem_iff_getElem?.mp hnode
    exact ⟨t, h.closed i node hi List.not_mem_nil⟩
  within i parent hparent child hchild := h.child_within hparent hchild
  apart := h.children_apart
  exclusive i node hnode := by
    obtain ⟨durationNs, hduration, hle⟩ := h.childDuration_le hnode
    refine ⟨durationNs, hduration, hle, ?_⟩
    rw [h.exclusiveDurationNs_eq hnode, span, hduration, Option.getD_some]
  total := by
    cases hnodes : trace.nodes with
    | nil =>
      have hpos := h.nonempty
      rw [hnodes] at hpos
      exact absurd hpos (Nat.lt_irrefl 0)
    | cons root others =>
      have hroot : trace.nodes[0]? = some root := by
        rw [hnodes]
        rfl
      obtain ⟨f, -, hduration, -, -⟩ := h.closed 0 root hroot List.not_mem_nil
      have hsum := h.sum_exclusive hnodes
      rw [hnodes, span, hduration, Option.getD_some] at hsum
      exact ⟨root, rfl, (h.root 0 root hroot).mpr rfl, by rw [hduration, hsum]⟩

end Timed

section Runs

variable {F : Type} {profiler : RequestProfiler F} {rootNs : Int}

/-- A new profiler has its root alone. -/
theorem timed_create {requestId : Text} {tags : Tags} {startedNs : Int}
    (h : RequestProfiler.create requestId tags startedNs rootNs = .ok profiler) :
    Timed profiler.trace rootNs [0] := by
  cases h
  have honly {i : Nat} {node : TraceNode}
      (hnode : [TraceNode.started "request".toList .request rootNs .empty none][i]? =
        some node) : i = 0 ∧ node = .started "request".toList .request rootNs .empty none := by
    cases i with
    | zero => exact ⟨rfl, (Option.some.inj hnode).symm⟩
    | succ i => cases hnode
  constructor
  · exact Nat.one_pos
  · intro i node hnode
    obtain ⟨rfl, rfl⟩ := honly hnode
    exact ⟨fun _ ↦ rfl, fun _ ↦ rfl⟩
  · intro i node hnode hi
    obtain ⟨rfl, rfl⟩ := honly hnode
    exact absurd List.mem_cons_self hi
  · intro i p node parent hnode hparent _
    obtain ⟨rfl, rfl⟩ := honly hnode
    cases hparent
  · intro i p node parent hnode hparent _
    obtain ⟨rfl, rfl⟩ := honly hnode
    cases hparent
  · intro i j older younger hi hj hij
    obtain ⟨rfl, -⟩ := honly hi
    obtain ⟨rfl, -⟩ := honly hj
    exact absurd hij (Nat.lt_irrefl 0)

/-- Entering and leaving scopes keep a trace timed. -/
theorem Scopes.Inv.timed_step {s s' : Scopes F} {call : ScopeCall} {path : List Nat}
    (hinv : s.Inv path) (h : Timed s.profiler.trace s.now path)
    (hstep : (scopes profiler rootNs).step s call = some s') :
    ∃ path', s'.Inv path' ∧ Timed s'.profiler.trace s'.now path' := by
  cases call with
  | enter scope stage name tags elapsed =>
    obtain ⟨node, hinv', -, -, hnow, rfl, hnodes⟩ := step_enter hinv hstep
    cases path with
    | nil =>
      have hlength := hinv.length_path
      rw [List.length_nil] at hlength
      omega
    | cons i rest => exact ⟨_, hinv', h.start hinv.openPath rfl hnodes hnow⟩
  | exit scope elapsed elapsed' =>
    obtain ⟨own, i, rest, node, after, finishedNs, timestampNs, -, rfl, hinv', -, -, -, -, hnodes,
      -, rfl, hle, hle'⟩ := step_exit hinv hstep
    exact ⟨rest, hinv', (h.finish hinv.openPath hnodes hle).later hle'⟩

/-- Every run of scopes keeps a trace timed. -/
theorem timed_of_run {requestId : Text} {tags : Tags} {startedNs : Int}
    (hcreate : RequestProfiler.create requestId tags startedNs rootNs = .ok profiler)
    {calls : List ScopeCall} {s : Scopes F} (h : (scopes profiler rootNs).run calls = some s) :
    ∃ path, s.Inv path ∧ Timed s.profiler.trace s.now path := by
  obtain ⟨hcompleted, hpath⟩ := create_current hcreate
  have hreach : (scopes profiler rootNs).Reachable s := System.exec_reach .init h
  apply hreach.invariant (P := fun s ↦ ∃ path, s.Inv path ∧ Timed s.profiler.trace s.now path)
  · exact ⟨[0], ⟨hcompleted, hpath, rfl⟩, timed_create hcreate⟩
  · rintro s call s' ⟨path, hinv, htimed⟩ - hstep
    exact hinv.timed_step htimed hstep

/-- However the stages were entered and left, and whichever are still open: `complete` leaves a
trace that accounts for all of its time. -/
theorem complete_accounts {requestId : Text} {tags : Tags} {startedNs : Int}
    (hcreate : RequestProfiler.create requestId tags startedNs rootNs = .ok profiler)
    (calls : List ScopeCall) (s : Scopes F) (h : (scopes profiler rootNs).run calls = some s)
    (status : Text) (error : Option Text) (now : Nat → Int) (finishedNs : Int)
    (hnow : ∀ i, s.now ≤ now i) (hclock : ∀ i j, i ≤ j → now j ≤ now i) :
    ∃ completed profile,
      s.profiler.complete status error now finishedNs = (completed, .ok profile) ∧
        completed.trace.Accounts := by
  obtain ⟨path, hinv, htimed⟩ := timed_of_run hcreate h
  obtain ⟨trace, t, hloop, hfinal⟩ := htimed.finishLoop hinv.openPath s.profiler.trace.current_lt
    (fun i _ ↦ hnow i) hclock
  rw [RequestProfiler.complete, hinv.completed, Trace.finishAll, hloop]
  exact ⟨_, _, rfl, hfinal.accounts⟩

-- Two stages in a third one, which is left open.
private def leftOpen : List ScopeCall :=
  [.enter 0 .sqlExecute "sql_execute".toList .empty 1,
    .enter 1 .sqlPrepare "prepare".toList .empty 1,
    .exit 1 2 0, .enter 2 .sqlFetch "fetch".toList .empty 1, .exit 2 3 0]

/-- The trace of those stages, completed. -/
theorem complete_accounts_leftOpen :
    ∃ profiler : RequestProfiler Rat, RequestProfiler.create "a".toList .empty 0 0 = .ok profiler ∧
      ∃ s, (scopes profiler 0).run leftOpen = some s ∧ ∃ completed profile,
        s.profiler.complete "ok".toList none (fun _ ↦ 20) 21 = (completed, .ok profile) ∧
          completed.trace.Accounts := by
  obtain ⟨profiler, hcreate, s, hrun, hnow⟩ : ∃ profiler : RequestProfiler Rat,
      RequestProfiler.create "a".toList .empty 0 0 = .ok profiler ∧
        ∃ s, (scopes profiler 0).run leftOpen = some s ∧ s.now = 8 :=
    ⟨_, rfl, _, rfl, rfl⟩
  refine ⟨profiler, hcreate, s, hrun, ?_⟩
  apply complete_accounts hcreate leftOpen s hrun
  · intro i
    omega
  · exact fun _ _ _ ↦ le_refl _

end Runs

end SalesData.Performance
