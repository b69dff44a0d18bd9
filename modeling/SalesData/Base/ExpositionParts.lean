import Mathlib.Data.List.Induction
import SalesData.Base.Exposition

/-!
# Families written in parts

An exporter writes a family part by part, and its type line before the first. Where equal names
stand next to each other the parts make families that one text can hold.
-/

namespace SalesData.Base.Exposition


/-- Equal names stand next to each other. -/
def Grouped (names : List Text) : Prop :=
  ∀ before name after, names = before ++ name :: after → name ∈ before →
    before.getLast? = some name

/-- Nothing is grouped. -/
theorem grouped_nil : Grouped [] := by
  intro before name after h
  cases before <;> cases h

/-- One more name is new or the last. -/
theorem grouped_concat {names : List Text} {name : Text} :
    Grouped (names ++ [name]) ↔ Grouped names ∧ (name ∈ names → names.getLast? = some name) := by
  constructor
  · intro h
    refine ⟨?_, h names name [] rfl⟩
    intro before other after heq
    apply h before other (after ++ [name])
    rw [heq, List.append_assoc]
    rfl
  · rintro ⟨hgrouped, hlast⟩ before other after heq
    rcases List.eq_nil_or_concat after with rfl | ⟨rest, final, rfl⟩
    · obtain ⟨rfl, hname⟩ := List.append_inj' heq rfl
      obtain rfl := (List.cons.inj hname).1
      exact hlast
    · rw [List.concat_eq_append, ← List.cons_append, ← List.append_assoc] at heq
      exact hgrouped before other rest (List.append_inj' heq rfl).1

/-- Lists of names without a common one are grouped together. -/
theorem Grouped.append {names names' : List Text} (h : Grouped names) (h' : Grouped names')
    (hdisjoint : ∀ name ∈ names, name ∉ names') : Grouped (names ++ names') := by
  induction names' using List.reverseRecOn with
  | nil =>
    rw [List.append_nil]
    exact h
  | append_singleton names' name ih =>
    rw [grouped_concat] at h'
    rw [← List.append_assoc, grouped_concat]
    refine ⟨?_, ?_⟩
    · apply ih h'.1
      intro other hother hmem
      exact hdisjoint other hother (List.mem_append_left _ hmem)
    · intro hmem
      rcases List.mem_append.mp hmem with hmem | hmem
      · exact absurd (List.mem_append_right _ (List.mem_singleton_self name)) (hdisjoint name hmem)
      · rw [List.getLast?_append, h'.2 hmem]
        rfl

/-- A part of a family after others: the last of them grows if it has the same name. -/
def join (families : List Family) (part : Family) : List Family :=
  match families.getLast? with
  | some last =>
    if last.name = part.name then
      families.dropLast ++ [{ last with samples := last.samples ++ part.samples }]
    else families ++ [part]
  | none => families ++ [part]

/-- The families that some parts make. -/
def gather (parts : List Family) : List Family := parts.foldl join []

/-- Parts of families that one text can hold. -/
structure Compatible (parts : List Family) : Prop where
  wellFormed : ∀ part ∈ parts, part.WellFormed
  sameType : ∀ part ∈ parts, ∀ other ∈ parts, part.name = other.name → part.type = other.type
  apart : ∀ part ∈ parts, ∀ other ∈ parts, part.name ≠ other.name → part.apart other = true
  grouped : Grouped (parts.map (·.name))

/-- What families are to the parts that they were made of. -/
structure Gathered (parts families : List Family) : Prop where
  wellFormed : ∀ family ∈ families, family.WellFormed
  apart : families.Pairwise fun f g ↦ f.apart g = true
  fromPart : ∀ family ∈ families, ∃ part ∈ parts, part.name = family.name ∧ part.type = family.type
  names : ∀ part ∈ parts, part.name ∈ families.map (·.name)
  last : families.getLast?.map (·.name) = parts.getLast?.map (·.name)

private theorem apart_of_same {f f' g g' : Family} (hname : f.name = f'.name)
    (htype : f.type = f'.type) (hname' : g.name = g'.name) (htype' : g.type = g'.type)
    (h : f.apart g = true) : f'.apart g' = true := by
  unfold Family.apart Family.owns at *
  rw [← hname, ← htype, ← hname', ← htype']
  exact h

variable {parts families : List Family} {part : Family}

/-- The last family goes on. -/
theorem join_continue {init : List Family} {last : Family} (h : last.name = part.name) :
    join (init ++ [last]) part =
      init ++ [{ last with samples := last.samples ++ part.samples }] := by
  simp [join, h]

/-- A name that is not the last one starts a family. -/
theorem join_new (h : part.name ∉ families.map (·.name)) :
    join families part = families ++ [part] := by
  unfold join
  split
  · next last hlast =>
    have hne : last.name ≠ part.name := by
      intro he
      exact h (he ▸ List.mem_map_of_mem (List.mem_of_getLast? hlast))
    exact if_neg hne
  · rfl

/-- One more part continues the last family or starts one. -/
theorem join_cases (h : Gathered parts families) (hcompatible : Compatible (parts ++ [part])) :
    (∃ init last, families = init ++ [last] ∧ last.name = part.name ∧ last.type = part.type ∧
      join families part = init ++ [{ last with samples := last.samples ++ part.samples }]) ∨
    part.name ∉ families.map (·.name) ∧ join families part = families ++ [part] := by
  by_cases hmem : part.name ∈ families.map (·.name)
  · left
    obtain ⟨family, hfamily, hname⟩ := List.mem_map.mp hmem
    obtain ⟨source, hsource, hsourceName, -⟩ := h.fromPart family hfamily
    have hpart : part.name ∈ parts.map (·.name) :=
      List.mem_map.mpr ⟨source, hsource, hsourceName.trans hname⟩
    have hgrouped := hcompatible.grouped
    rw [List.map_append, List.map_singleton, grouped_concat] at hgrouped
    have hlast : families.getLast?.map (·.name) = some part.name := by
      rw [h.last, ← List.getLast?_map]
      exact hgrouped.2 hpart
    obtain ⟨last, hlast, hlastName⟩ := Option.map_eq_some_iff.mp hlast
    obtain ⟨init, rfl⟩ : ∃ init, families = init ++ [last] :=
      ⟨families.dropLast, (List.dropLast_append_getLast? last hlast).symm⟩
    have hlastMem : last ∈ init ++ [last] := List.mem_append_right _ (List.mem_singleton_self last)
    obtain ⟨origin, horigin, horiginName, horiginType⟩ := h.fromPart last hlastMem
    refine ⟨init, last, rfl, hlastName, ?_, join_continue hlastName⟩
    rw [← horiginType]
    apply hcompatible.sameType origin (List.mem_append_left _ horigin) part
    · exact List.mem_append_right _ (List.mem_singleton_self part)
    · exact horiginName.trans hlastName
  · exact .inr ⟨hmem, join_new hmem⟩

private theorem Gathered.continue {init : List Family} {last : Family}
    (h : Gathered parts (init ++ [last])) (hpart : part.WellFormed)
    (hname : last.name = part.name) (htype : last.type = part.type) :
    Gathered (parts ++ [part])
      (init ++ [{ last with samples := last.samples ++ part.samples }]) := by
  have hinit : ∀ family ∈ init, family ∈ init ++ [last] := fun _ hf ↦ List.mem_append_left _ hf
  have hlastMem : last ∈ init ++ [last] := List.mem_append_right _ (List.mem_singleton_self last)
  refine ⟨?_, ?_, ?_, ?_, ?_⟩
  · intro family hfamily
    rcases List.mem_append.mp hfamily with hfamily | hfamily
    · exact h.wellFormed family (hinit family hfamily)
    · rw [List.mem_singleton.mp hfamily]
      have hlast := h.wellFormed last hlastMem
      refine ⟨hlast.name, ?_, ?_⟩
      · intro sample hsample
        rcases List.mem_append.mp hsample with hsample | hsample
        · exact hlast.samples sample hsample
        · exact hpart.samples sample hsample
      · intro sample hsample
        rcases List.mem_append.mp hsample with hsample | hsample
        · exact hlast.owned sample hsample
        · have howned := hpart.owned sample hsample
          rw [Family.owns, ← hname, ← htype] at howned
          exact howned
  · have hpairwise := List.pairwise_append.mp h.apart
    apply List.pairwise_append.mpr
    refine ⟨hpairwise.1, List.pairwise_singleton _ _, ?_⟩
    intro family hfamily grown hgrown
    rw [List.mem_singleton.mp hgrown]
    exact apart_of_same rfl rfl rfl rfl
      (hpairwise.2.2 family hfamily last (List.mem_singleton_self last))
  · intro family hfamily
    rcases List.mem_append.mp hfamily with hfamily | hfamily
    · obtain ⟨origin, horigin, hsame⟩ := h.fromPart family (hinit family hfamily)
      exact ⟨origin, List.mem_append_left _ horigin, hsame⟩
    · rw [List.mem_singleton.mp hfamily]
      obtain ⟨origin, horigin, hsame⟩ := h.fromPart last hlastMem
      exact ⟨origin, List.mem_append_left _ horigin, hsame⟩
  · have hnames : (init ++ [{ last with samples := last.samples ++ part.samples }]).map
        Family.name = (init ++ [last]).map Family.name := by simp
    intro other hother
    rw [hnames]
    rcases List.mem_append.mp hother with hother | hother
    · exact h.names other hother
    · rw [List.mem_singleton.mp hother, ← hname]
      exact List.mem_map_of_mem hlastMem
  · simp [hname]

private theorem Gathered.start (h : Gathered parts families)
    (hcompatible : Compatible (parts ++ [part])) (hnew : part.name ∉ families.map (·.name)) :
    Gathered (parts ++ [part]) (families ++ [part]) := by
  have hpart : part ∈ parts ++ [part] := List.mem_append_right _ (List.mem_singleton_self part)
  refine ⟨?_, ?_, ?_, ?_, ?_⟩
  · intro family hfamily
    rcases List.mem_append.mp hfamily with hfamily | hfamily
    · exact h.wellFormed family hfamily
    · rw [List.mem_singleton.mp hfamily]
      exact hcompatible.wellFormed part hpart
  · apply List.pairwise_append.mpr
    refine ⟨h.apart, List.pairwise_singleton _ _, ?_⟩
    intro family hfamily last hlast
    rw [List.mem_singleton.mp hlast]
    obtain ⟨origin, horigin, hname, htype⟩ := h.fromPart family hfamily
    refine apart_of_same hname htype rfl rfl
      (hcompatible.apart origin (List.mem_append_left _ horigin) part hpart ?_)
    rw [hname]
    intro he
    exact hnew (he ▸ List.mem_map_of_mem hfamily)
  · intro family hfamily
    rcases List.mem_append.mp hfamily with hfamily | hfamily
    · obtain ⟨origin, horigin, hsame⟩ := h.fromPart family hfamily
      exact ⟨origin, List.mem_append_left _ horigin, hsame⟩
    · rw [List.mem_singleton.mp hfamily]
      exact ⟨part, hpart, rfl, rfl⟩
  · intro other hother
    rw [List.map_append]
    rcases List.mem_append.mp hother with hother | hother
    · exact List.mem_append_left _ (h.names other hother)
    · rw [List.mem_singleton.mp hother]
      exact List.mem_append_right _ (List.mem_singleton_self _)
  · simp

/-- The first parts of compatible ones are compatible. -/
theorem Compatible.init (h : Compatible (parts ++ [part])) : Compatible parts where
  wellFormed other hother := h.wellFormed other (List.mem_append_left _ hother)
  sameType p hp q hq :=
    h.sameType p (List.mem_append_left _ hp) q (List.mem_append_left _ hq)
  apart p hp q hq := h.apart p (List.mem_append_left _ hp) q (List.mem_append_left _ hq)
  grouped := by
    have hgrouped := h.grouped
    rw [List.map_append, List.map_singleton, grouped_concat] at hgrouped
    exact hgrouped.1

/-- One part at a time. -/
theorem gather_concat (parts : List Family) (part : Family) :
    gather (parts ++ [part]) = join (gather parts) part := by
  rw [gather, List.foldl_append]
  rfl

/-- Compatible parts make families that one text can hold. -/
theorem gathered_gather (h : Compatible parts) : Gathered parts (gather parts) := by
  induction parts using List.reverseRecOn with
  | nil => exact ⟨by simp [gather], List.Pairwise.nil, by simp [gather], by simp, rfl⟩
  | append_singleton parts part ih =>
    have hparts := ih h.init
    have hpart : part.WellFormed :=
      h.wellFormed part (List.mem_append_right _ (List.mem_singleton_self part))
    rw [gather_concat]
    rcases join_cases hparts h with ⟨init, last, hfamilies, hname, htype, hjoin⟩ | ⟨hnew, hjoin⟩
    · rw [hjoin]
      rw [hfamilies] at hparts
      exact hparts.continue hpart hname htype
    · rw [hjoin]
      exact hparts.start h hnew

/-- The text of the families of compatible parts is read as these families. -/
theorem parse_gather (h : Compatible parts) :
    parse (unlines ((gather parts).flatMap Family.lines)) = some (gather parts) :=
  parse_unlines (gathered_gather h).wellFormed (gathered_gather h).apart

/-- Nothing is added, lost or moved between samples. -/
theorem gather_samples {β : Type} (h : Compatible parts) (g : Text → FamilyType → Sample → β) :
    ((gather parts).flatMap fun family ↦ family.samples.map (g family.name family.type)) =
      parts.flatMap fun part ↦ part.samples.map (g part.name part.type) := by
  induction parts using List.reverseRecOn with
  | nil => rfl
  | append_singleton parts part ih =>
    have hparts := ih h.init
    rw [gather_concat, List.flatMap_append, ← hparts]
    rcases join_cases (gathered_gather h.init) h with
      ⟨init, last, hfamilies, hname, htype, hjoin⟩ | ⟨-, hjoin⟩
    · rw [hjoin, hfamilies]
      simp [hname, htype]
    · rw [hjoin]
      simp

end SalesData.Base.Exposition
