import SalesData.Service.Sequential

/-!
# What an invalidation reaches

With one call at a time and a drained queue, a cached result can be older than a write on one of
its tables only because the write's invalidation misses it: `invalidate_tables` looks for the
names that `extract_tables` has seen in the two statements, and falls back to a full clear only
when nothing at all is listed under them (`core/caching/query_cache_coordinator.py:211–247`,
`core/services/query_service.py:140–147`).
-/

namespace SalesData.Service.WriteBehind

open Base Sql Cache

variable {K P R E : Type} {u : Unicode} {cacheKey : Text → P → K} {reload : List R → List R}
  {s s' : State K P R E} [DecidableEq K]

namespace SeqInv

private theorem entry_missed (hcallInv : CallInv u cacheKey s.service)
    (htag : s.service.core.cache.TagInv) {tables : List Text} {precise : Bool} {key : K}
    {e : CacheEntry (Rows Text (Computed R))} {x : ServiceTask K P R E} {run : Run P}
    (hx : x ∈ s.tasks) (hc : x.call = .lookup key run e.value.tables)
    (he : (s.service.core.cache.invalidateAfterWrite tables precise).l1.entryFor key = some e) :
    ¬s.Reaches u key run.sql tables precise := by
  have hholds := HybridQueryCache.holds_of_entryFor he
  rintro (hclear | hshares | ⟨hnone, -⟩)
  · exact not_holds_invalidateAfterWrite hclear hholds
  · obtain ⟨name, hname, hwrite⟩ := List.any_eq_true.mp hshares
    obtain ⟨hold, hnot⟩ := holds_of_invalidateAfterWrite hholds
    rw [← (lookup_of_mem hcallInv hx hc).2] at hname
    exact hnot name (by simpa using hwrite) (htag key e.value hold name hname)
  · rw [entryFor_of_invalidateAfterWrite he] at hnone
    cases hnone

private theorem row_deleted {key : K} {row : CachedResult (Computed R)} {tables : List Text}
    {precise : Bool} (hrow : s.l2.rows.get? key = some row)
    (h : s.Reaches u key row.querySql tables precise) :
    ∃ p ∈ purges s.service.core.cache tables precise, p.deletes row.querySql = true := by
  unfold purges
  split
  · next hnarrow =>
    have hdeletes : ∃ t ∈ tables, (Purge.table t).deletes row.querySql = true := by
      rcases h with hclear | hshares | ⟨-, hpattern⟩
      · rw [hnarrow] at hclear
        cases hclear
      · obtain ⟨name, hname, hwrite⟩ := List.any_eq_true.mp hshares
        exact ⟨name, by simpa using hwrite, Purge.deletes_of_names (u := u) hname⟩
      · exact hpattern row hrow
    obtain ⟨t, ht, hdel⟩ := hdeletes
    exact ⟨.table t, List.mem_map_of_mem ht, hdel⟩
  · exact ⟨.all, List.mem_singleton_self _, rfl⟩

private theorem invalidated (h : SeqInv cacheKey s) (hcallInv : CallInv u cacheKey s.service)
    (htag : s.service.core.cache.TagInv) {t : Nat} {task : ServiceTask K P R E}
    (ht : s.tasks[t]? = some task) {run : Run P} {tables : List Text} {precise : Bool}
    {src : Fetch} {since finished : Nat} {data : Computed R}
    (hc : task.call = .write run tables precise)
    (hp : task.phase = .answered src since finished (some data))
    (hreach : ∀ x ∈ s.tasks, ∀ key query ts, x.call = .lookup key query ts →
      touches query.sql run.sql = true → s.Reaches u key query.sql tables precise)
    (htasks : s'.tasks = s.tasks.set t { task with phase := .flushing data finished })
    (hclock : s'.service.core.clock = s.service.core.clock + 1) (hl2 : s'.l2 = s.l2)
    (hcache : s'.service.core.cache = s.service.core.cache.invalidateAfterWrite tables precise)
    (htodo : ∀ i, i ≠ t → s'.todo i = s.todo i)
    (hpurges : s'.todo t = purges s.service.core.cache tables precise)
    (hjobs : ∀ job ∈ s'.jobs, job ∈ s.jobs ∨ ∃ x ∈ s.tasks, x.call.key?.isSome ∧
      x.call.sql = job.run ∧ pending? x = some job.data.began) : SeqInv cacheKey s' := by
  have hopen : task.phase.open? = true := by rw [hp]; rfl
  have hwrite : task.call.key? = none := by rw [hc]; rfl
  have hnojobs : s'.jobs = [] := h.jobs_of_write ht hopen hwrite hjobs
  have hlookup {x : ServiceTask K P R E} {key : K} {query : Run P} {ts : List Text}
      (hx : x ∈ s.tasks) (hxc : x.call = .lookup key query ts) : x ∈ s'.tasks := by
    obtain ⟨i, hi⟩ := List.getElem?_of_mem hx
    refine List.mem_of_getElem? (i := i) ?_
    rw [htasks, List.getElem?_set_ne]
    · exact hi
    · rintro rfl
      obtain rfl := Option.some.inj (hi.symm.trans ht)
      rw [hc] at hxc
      cases hxc
  constructor
  · exact h.alone_set ht hopen htasks
  · exact h.calm_set htasks (by simp)
  · exact fun _ _ _ _ ↦ hnojobs
  · apply h.past_set ht htasks hclock
    intro fin hfin
    obtain rfl := Option.some.inj hfin
    exact .inl (by rw [hp]; rfl)
  · intro key e he
    rw [hcache] at he
    obtain ⟨x, hx, query, hxc, hy⟩ := h.entries key e (entryFor_of_invalidateAfterWrite he)
    refine ⟨x, hlookup hx hxc, query, hxc, fun w hw fin hwp htouch ↦ ?_⟩
    obtain ⟨j, hj⟩ := List.getElem?_of_mem hw
    rcases cases_set htasks hj with ⟨-, rfl⟩ | ⟨-, hold⟩
    · rw [hc] at htouch
      exact absurd (hreach x hx key query _ hxc htouch) (entry_missed hcallInv htag hx hxc he)
    · exact hy w (List.mem_of_getElem? hold) fin hwp htouch
  · intro key row hrow
    rw [hl2] at hrow
    obtain ⟨⟨x, hx, query, ts, hxc, hsql⟩, hyoung⟩ := h.rows key row hrow
    refine ⟨⟨x, hlookup hx hxc, query, ts, hxc, hsql⟩, fun j w fin hw hwp htouch ↦ ?_⟩
    rcases cases_set htasks hw with ⟨rfl, rfl⟩ | ⟨hjt, hold⟩
    · rw [hc, ← hsql] at htouch
      have hreached := hreach x hx key query ts hxc htouch
      rw [hsql] at hreached
      rw [hpurges]
      exact .inr (row_deleted hrow hreached)
    · rw [htodo j hjt]
      exact hyoung j w fin hold hwp htouch
  · rw [hnojobs]
    intro job hjob
    cases hjob
  · intro x hx hxlookup n hn
    obtain ⟨i, hi⟩ := List.getElem?_of_mem hx
    rcases cases_set htasks hi with ⟨-, rfl⟩ | ⟨-, hold⟩
    · cases hn
    · obtain rfl := h.eq_of_open ht hopen (List.mem_of_getElem? hold) (open?_of_carried? hn)
      rw [hwrite] at hxlookup
      cases hxlookup
  · have hcall : ({ task with phase := .flushing data finished } : ServiceTask K P R E).call =
        task.call := rfl
    refine h.served_set ht hopen hcall htasks fun r hr ↦ ?_
    cases hr

private theorem task (h : SeqInv cacheKey s) (hcallInv : CallInv u cacheKey s.service)
    (htag : s.service.core.cache.TagInv) {b : Cache.Act K Text (Computed R) E (Run P)} {t : Nat}
    {task task' : ServiceTask K P R E} {c : QueryCacheCoordinator K Text (Computed R) E}
    {v : Service.State K P (Computed R) E} (hok : Reaching u s (.task b))
    (hb : b.task? = some t) (ht : s.tasks[t]? = some task)
    (hturn : Turn s.service.core t task b c task') (hcore : v.core = { s.service.core with
      cache := c, tasks := s.service.core.tasks.set t task', clock := s.service.core.clock + 1 })
    (hfinish : ∀ data src since, b = .finish t (some data) → task.phase = .running src since →
      task.call.key?.isSome → s.Younger task.call.sql.sql data.began) :
    SeqInv cacheKey (s.after v b) := by
  have hmem := List.mem_of_getElem? ht
  have hopen := hturn.open?
  have hcall := hturn.seat.1
  have hl2 := (table_after (s := s) v b).1
  have hjobs (job : Persist P R) (hjob : job ∈ (s.after v b).jobs) := jobs_after hjob
  have htasks : (s.after v b).tasks = s.tasks.set t task' := by
    rw [State.tasks, State.after_service, hcore]
    rfl
  have hcache : (s.after v b).service.core.cache = c := by rw [State.after_service, hcore]
  have hclock : (s.after v b).service.core.clock = s.service.core.clock + 1 := by
    rw [State.after_service, hcore]
  have hfin (finished : Nat) (hp : task'.phase.finished? = some finished) := hturn.finished? hp
  have htodo (i : Nat) (hi : i ≠ t) : (s.after v b).todo i = s.todo i := by
    apply State.todo_after
    · rintro rfl
      exact absurd (Option.some.inj hb) hi
    · rintro rfl
      exact absurd (Option.some.inj hb) hi
  have hstay
      (hphase : ∀ src since finished answer, task.phase ≠ .answered src since finished answer)
      (hne : b ≠ .interrupt t) : (s.after v b).todo t = s.todo t := by
    refine State.todo_after (fun _ x hx ↦ ?_) hne
    obtain rfl := Option.some.inj (ht.symm.trans hx)
    exact hphase
  have hset := h.turned hcallInv ht hopen hcall htasks hclock hl2
  cases hturn with
  | @invalidate sql tables precise src since finished data hc hp =>
    refine h.invalidated hcallInv htag ht hc hp (fun x hx key query ts hxc htouch ↦ ?_) htasks
      hclock hl2 hcache htodo (State.todo_resumed_write ht hc hp) hjobs
    have hreach := hok task ht x hx
    rw [hc, hp, hxc] at hreach
    exact hreach htouch
  | @begin src hp =>
    refine hset (by simp) (fun _ hi ↦ by cases hi) htodo
      hfin (fun key e he ↦ .inl (hcache ▸ he)) (fun _ n hn ↦ ?_) (fun r hr ↦ by cases hr) hjobs
    cases src with
    | l2 => cases hn
    | warehouse =>
      obtain rfl := Option.some.inj hn
      exact h.younger_now _
  | @finish src since answer hp ha =>
    refine hset (by simp) (fun _ hi ↦ by cases hi) htodo hfin
      (fun key e he ↦ .inl (hcache ▸ he)) (fun hlookup n hn ↦ ?_) (fun r hr ↦ by cases hr) hjobs
    cases answer with
    | none => cases hn
    | some data =>
      obtain rfl := Option.some.inj hn
      exact hfinish data src since rfl hp hlookup
  | miss hc hf hp =>
    exact hset (by simp) (fun _ hi ↦ by cases hi) htodo
      hfin (fun key e he ↦ .inl (hcache ▸ he)) (fun _ n hn ↦ by cases hn) (fun r hr ↦ by cases hr)
      hjobs
  | @fill key sql tables f src since finished data hc hf hp =>
    have hcar : carried? task = some data.began := by rw [carried?, hp]
    refine hset (by simp) (fun _ hi ↦ by cases hi) htodo
      hfin (fun k e he ↦ ?_) (fun _ n hn ↦ by cases hn) (fun r hr ↦ ?_) hjobs
    · rw [hcache] at he
      replace he : (s.service.core.cache.fill s.now key _).l1.entryFor k = some e := he
      rw [l1_fill] at he
      rcases HybridQueryCache.entryFor_of_put he with ⟨rfl, rfl⟩ | ⟨-, hold⟩
      · exact .inr ⟨sql, hc, hcar⟩
      · exact .inl hold
    · obtain rfl := Outcome.returned.inj (Phase.ended.inj hr)
      exact ⟨by rw [hc]; rfl, hcar⟩
  | wake hc hf hp ho => exact absurd hp (h.calm task hmem)
  | flushed hc hp =>
    refine hset (by simp) (fun finished hi ↦ ?_) htodo
      hfin (fun key e he ↦ .inl (hcache ▸ he)) (fun _ n hn ↦ by cases hn) (fun r hr ↦ by cases hr)
      hjobs
    refine ⟨by rw [hp]; exact hi, hstay (fun _ _ _ _ hans ↦ ?_) (by simp)⟩
    rw [hp] at hans
    cases hans
  | throwLookup hc hf hp hx =>
    refine hset (by simp) (fun _ hi ↦ by cases hi)
      htodo hfin (fun key e he ↦ ?_) (fun _ n hn ↦ by cases hn) (fun r hr ↦ by cases hr) hjobs
    rw [hcache] at he
    exact .inl he
  | throwWrite hc hp =>
    exact hset (by simp) (fun _ hi ↦ by cases hi) htodo
      hfin (fun key e he ↦ .inl (hcache ▸ he)) (fun _ n hn ↦ by cases hn) (fun r hr ↦ by cases hr)
      hjobs
  | cancelFollower hf hp => exact absurd hp (h.calm task hmem)
  | cancelOther hp hne =>
    refine hset (h.calm task hmem) (fun finished hi ↦ ?_) htodo hfin
      (fun key e he ↦ .inl (hcache ▸ he)) (fun hlookup n hn ↦ h.carried task hmem hlookup n hn)
      (fun r hr ↦ ?_) hjobs
    · exact ⟨hi, State.todo_after (by simp) (by simp)⟩
    · replace hr : task.phase = .ended (.returned r) := hr
      rw [hr] at hp
      cases hp

private theorem found (h : SeqInv cacheKey s) (hcallInv : CallInv u cacheKey s.service)
    (hkey : ∀ sql p sql' p', cacheKey sql p = cacheKey sql' p' → sql = sql') (hdone : DoneInv s)
    {t : Nat} {task : ServiceTask K P R E} {key : K} {run : Run P} {tables : List Text}
    {since : Nat} {data : Computed R} (ht : s.tasks[t]? = some task)
    (hc : task.call = .lookup key run tables) (hp : task.phase = .running .l2 since)
    (hfound : s.l2.getCachedResult s.now key = some data) : s.Younger run.sql data.began := by
  obtain ⟨row, hrow, rfl⟩ := QueryResultCache.get?_of_getCachedResult hfound
  obtain ⟨⟨x, hx, query, ts, hxc, hsql⟩, hyoung⟩ := h.rows key row hrow
  obtain ⟨hk, -⟩ := lookup_of_mem hcallInv (List.mem_of_getElem? ht) hc
  obtain ⟨hk', -⟩ := lookup_of_mem hcallInv hx hxc
  have hsame : run.sql = row.querySql := (hkey _ _ _ _ (hk.symm.trans hk')).trans hsql
  intro w hw finished hfin htouch
  obtain ⟨j, hj⟩ := List.getElem?_of_mem hw
  rw [hsame] at htouch
  rcases hyoung j w finished hj hfin htouch with hlt | ⟨p, hpending, -⟩
  · exact hlt
  · cases hwp : w.phase with
    | written data fin =>
      rw [hdone.done j w hj (by rw [written, hwp])] at hpending
      cases hpending
    | flushing data fin =>
      obtain rfl := h.eq_of_open ht (by rw [hp]; rfl) hw (by rw [hwp]; rfl)
      rw [hp] at hwp
      cases hwp
    | _ =>
      rw [hwp] at hfin
      cases hfin

/-- No step of a sequential run breaks the invariant, if every invalidation reaches what it
ought to. -/
theorem step (h : SeqInv cacheKey s) (hflight : FlightInv s.service.core)
    (hcallInv : CallInv u cacheKey s.service) (htag : s.service.core.cache.TagInv)
    (hdone : DoneInv s) (hkey : ∀ sql p sql' p', cacheKey sql p = cacheKey sql' p' → sql = sql')
    {a : Act K P R E} (hseq : Sequential s a) (hreach : Reaching u s a)
    (hstep : WriteBehind.step u cacheKey reload s a = some s') : SeqInv cacheKey s' := by
  rcases step_cases hstep with ⟨run, v, rfl, hv, rfl⟩ | ⟨b, v, rfl, hadm, hv, rfl⟩ |
    ⟨t, task, key, sql, tables, since, v, rfl, ht, hc, hp, hv, rfl⟩ | ⟨t, e, rfl, hnext, rfl⟩ |
    ⟨j, job, key, rfl, hjob, hk, rfl⟩ | ⟨j, rfl, rfl⟩
  · exact h.run hflight hcallInv hkey hseq hv
  · rcases Service.step_cases hv with ⟨_, hb, -⟩ | ⟨_, _, _, hb, -⟩ |
      ⟨b', core, hb, hne, hcore, rfl⟩
    · cases hb
    · cases hb
    · obtain rfl := Service.Act.task.inj hb
      cases htask : b.task? with
      | some t =>
        obtain ⟨task, c, task', ht, hturn, rfl⟩ := Cache.step_task htask hcore
        refine h.task hcallInv htag hreach htask ht hturn rfl ?_
        rintro data src since rfl hrun hlookup
        have hmem := List.mem_of_getElem? ht
        replace ht : s.tasks[t]? = some task := ht
        cases src with
        | l2 =>
          simp only [State.admits, ht, Option.map_some, hrun] at hadm
          cases hadm
        | warehouse =>
          obtain ⟨data', hdata, rfl⟩ := State.admits_finish hadm ht hrun
          obtain rfl := Option.some.inj hdata
          exact h.carried task hmem hlookup _ (by rw [carried?, hrun])
      | none =>
        cases b with
        | call call => exact absurd rfl (hne call)
        | invalidate key =>
          obtain rfl := Option.some.inj hcore
          refine ⟨h.alone, h.calm, h.quiet,
            fun x hx f hf ↦ Nat.lt_succ_of_lt (h.past x hx f hf), ?_, h.rows, h.jobs, h.carried, h.served⟩
          exact fun k e he ↦ h.entries k e (HybridQueryCache.entryFor_of_invalidate he)
        | tick now =>
          obtain rfl := Option.some.inj hcore
          exact ⟨h.alone, h.calm, h.quiet, fun x hx f hf ↦ Nat.lt_succ_of_lt (h.past x hx f hf),
            h.entries, h.rows, h.jobs, h.carried, h.served⟩
        | _ => cases htask
  · rcases Service.step_cases hv with ⟨_, hb, -⟩ | ⟨_, _, _, hb, -⟩ | ⟨b, core, hb, -, hcore, rfl⟩
    · cases hb
    · cases hb
    · obtain rfl := Service.Act.task.inj hb
      obtain ⟨task', c, new, ht', hturn, rfl⟩ := Cache.step_task rfl hcore
      obtain rfl := Option.some.inj (ht.symm.trans ht')
      have hany : Reaching u s (.task (.finish t (s.l2.getCachedResult s.now key))) := trivial
      refine h.task hcallInv htag hany rfl ht hturn rfl fun data src since' hb hrun hlookup ↦ ?_
      obtain ⟨-, hfound⟩ := Cache.Act.finish.inj hb
      rw [hc]
      exact h.found hcallInv hkey hdone ht hc hp hfound
  · obtain ⟨writer, rest, hwriter, htodo, -⟩ := State.nextPurge?_eq_some hnext
    refine ⟨h.alone, h.calm, h.quiet, h.past, h.entries, fun key row hrow ↦ ?_, h.jobs, h.carried,
      h.served⟩
    obtain ⟨hold, hdel⟩ := QueryResultCache.get?_purge.mp hrow
    obtain ⟨hlookup, hyoung⟩ := h.rows key row hold
    refine ⟨hlookup, fun j w finished hw hfin htouch ↦ ?_⟩
    rcases hyoung j w finished hw hfin htouch with hlt | ⟨p, hp, hdeletes⟩
    · exact .inl hlt
    · refine .inr ⟨p, ?_, hdeletes⟩
      by_cases hjt : j = t
      · subst hjt
        dsimp only
        rw [Function.update_self]
        rw [htodo] at hp ⊢
        rcases List.mem_cons.mp hp with rfl | hp
        · rw [hdeletes] at hdel
          cases hdel
        · exact hp
      · dsimp only
        rw [Function.update_of_ne hjt]
        exact hp
  · have hmem := List.mem_of_getElem? hjob
    obtain ⟨⟨x, hx, tables, hxc⟩, hy⟩ := h.jobs job hmem
    refine ⟨h.alone, h.calm, fun w hw hopen hwrite ↦ ?_, h.past, h.entries, fun k row hrow ↦ ?_,
      fun job' hjob' ↦ h.jobs job' (List.mem_of_mem_eraseIdx hjob'), h.carried, h.served⟩
    · rw [h.quiet w hw hopen hwrite] at hmem
      cases hmem
    · rcases QueryResultCache.get?_cacheResult hrow with ⟨rfl, hsql, hdata⟩ | ⟨-, hold⟩
      · refine ⟨⟨x, hx, job.run, tables, ?_, hsql.symm⟩, fun j w finished hw hfin htouch ↦ ?_⟩
        · rw [hk]
          exact hxc
        · rw [hsql] at htouch
          rw [hdata]
          exact .inl (hy w (List.mem_of_getElem? hw) finished hfin htouch)
      · exact h.rows k row hold
  · refine ⟨h.alone, h.calm, fun w hw hopen hwrite ↦ ?_, h.past, h.entries, h.rows,
      fun job' hjob' ↦ h.jobs job' (List.mem_of_mem_eraseIdx hjob'), h.carried, h.served⟩
    dsimp only
    rw [h.quiet w hw hopen hwrite]
    rfl

end SeqInv

/-- In a sequential run in which every invalidation reaches the queries before it that list the
write's table, no query is answered with rows from before such a write. -/
theorem writes_covered {l1MaxSize : Nat} {l1TtlSeconds : Int} {hpos : 0 < l1MaxSize}
    (hkey : ∀ sql p sql' p', cacheKey sql p = cacheKey sql' p' → sql = sql')
    (h : (system (E := E) u cacheKey reload l1MaxSize l1TtlSeconds hpos).Reach
      (fun s a ↦ Sequential s a ∧ Reaching u s a) s) : s.Covered := by
  have hcore {x : State K P R E}
      (hx : (system u cacheKey reload l1MaxSize l1TtlSeconds hpos).Reachable x) :
      (Cache.system l1MaxSize l1TtlSeconds hpos).Reachable x.service.core :=
    core_reach (service_reach hx) (fun _ _ ↦ trivial) fun _ _ _ ↦ trivial
  have hinv : SeqInv cacheKey s := by
    refine h.invariant_of (Q := fun x ↦
      (system u cacheKey reload l1MaxSize l1TtlSeconds hpos).Reachable x) ?_ ?_ ?_
    · exact fun _ hx ↦ hx.reachable
    · constructor <;> simp [system, State.tasks, Service.system, Cache.system]
      · intro key e he
        cases he
      · intro key row hrow
        cases hrow
    · intro x a x' hs hx _ hok hstep
      exact hs.step (FlightInv.of_reach (hcore hx)) (callInv_of_reach (service_reach hx))
        (tagInv_of_reach (hcore hx)) (doneInv_of_reach hx) hkey hok.1 hok.2 hstep
  intro i j task w r data finished hi hj hji hp hwp htouch
  exact hinv.served i j task w r finished hi hj hji hp (by rw [hwp]; rfl) htouch

instance (s : State K P R E) (a : Act K P R E) : Decidable (Sequential s a) :=
  match a with
  | .run _ => inferInstanceAs (Decidable (_ ∧ _))
  | .task _ | .select _ | .purge _ | .store _ | .drop _ => isTrue trivial

instance (s : State K P R E) (key : K) (sql : Text) (tables : List Text) (precise : Bool) :
    Decidable (s.Reaches u key sql tables precise) := by
  unfold State.Reaches
  infer_instance

instance (s : State K P R E) (a : Act K P R E) : Decidable (Reaching u s a) :=
  match a with
  | .task (.resume t) => by
    refine @Option.decidableForallMem _ _ (fun w ↦ ?_) s.tasks[t]?
    refine @List.decidableBAll _ _ (fun task ↦ ?_) s.tasks
    split <;> infer_instance
  | .task (.call _) | .task (.begin _) | .task (.finish _ _) | .task (.raise _ _)
  | .task (.cancel _) | .task (.interrupt _) | .task (.invalidate _) | .task (.tick _)
  | .run _ | .select _ | .purge _ | .store _ | .drop _ => isTrue trivial

/-- A run of a statement whose caller may write. -/
def statement (sql : String) : Run Unit := ⟨⟨true, true⟩, sql.toList, (), "write".toList⟩

/-- A query misses both levels; its rows are returned and stored. -/
def cachedQuery (t began : Nat) (sql : String) : List (Act Text Unit Nat Nat) :=
  [.run (statement sql), .task (.begin t), .select t, .task (.resume t), .task (.begin t),
    .task (.finish t (some ⟨[7], began⟩)), .task (.resume t), .store 0]

/-- A write is executed and does one purge. -/
def purgingWrite (t began : Nat) (sql : String) : List (Act Text Unit Nat Nat) :=
  [.run (statement sql), .task (.begin t), .task (.finish t (some ⟨[], began⟩)), .task (.resume t),
    .purge t, .task (.resume t)]

/-- A query that the first level has answered. -/
def hitQuery (sql : String) (tables : List Text) (began : Nat) : ServiceTask Text Unit Nat Nat :=
  ⟨.lookup sql.toList (statement sql) tables, none, false, false,
    .ended (.returned ⟨⟨⟨[7], began⟩, began, tables⟩, .l1⟩)⟩

/-- A query that the warehouse has answered. -/
def missedQuery (sql : String) (tables : List Text) (f began : Nat) :
    ServiceTask Text Unit Nat Nat :=
  ⟨.lookup sql.toList (statement sql) tables, some f, true, false,
    .ended (.returned ⟨⟨⟨[7], began⟩, began, tables⟩, .miss⟩)⟩

/-- A write that has returned. -/
def doneWrite (sql : String) (tables : List Text) (began : Nat) : ServiceTask Text Unit Nat Nat :=
  ⟨.write (statement sql) tables true, none, false, false, .written ⟨[], began⟩ (began + 1)⟩

/-- Another query on the second of two tables keeps the invalidation narrow, and it misses the
query on both. -/
theorem secondTable_missed : ¬ ∀ s, demo.Reach Sequential s → s.Covered := by
  intro h
  obtain ⟨s, hs, hend⟩ := System.exists_of_exec demo Sequential
    (cachedQuery 0 4 "SELECT * FROM a, b" ++ cachedQuery 1 11 "SELECT * FROM b" ++
      purgingWrite 2 15 "UPDATE b SET x = 1" ++ [.run (statement "SELECT * FROM a, b")])
    (fun s ↦ s.tasks[3]? == some (hitQuery "SELECT * FROM a, b" ["a".toList] 4) &&
      s.tasks[2]? == some (doneWrite "UPDATE b SET x = 1" ["b".toList] 15)) (by decide +kernel)
  simp only [Bool.and_eq_true, beq_iff_eq] at hend
  have hyoung := h s hs 3 2 _ _ _ _ _ hend.1 hend.2 (by decide) rfl rfl (by decide +kernel)
  exact absurd hyoung (by decide)

/-- Joined tables are seen one by one, so a write on the second one reaches the query. -/
theorem writes_covered_join : ∃ s, demo.Reach (fun s a ↦ Sequential s a ∧ Reaching .basic s a) s ∧
    s.tasks[1]? = some (doneWrite "UPDATE b SET x = 1" ["b".toList] 8) ∧
    s.tasks[2]? = some (missedQuery "SELECT * FROM A JOIN b ON A.i = b.i" ["A".toList, "b".toList]
      1 16) ∧
    s.Covered := by
  obtain ⟨s, hs, hend⟩ := System.exists_of_exec demo
    (fun s a ↦ Sequential s a ∧ Reaching .basic s a)
    (cachedQuery 0 4 "SELECT * FROM A JOIN b ON A.i = b.i" ++
      purgingWrite 1 8 "UPDATE b SET x = 1" ++
      cachedQuery 2 16 "SELECT * FROM A JOIN b ON A.i = b.i")
    (fun s ↦ s.tasks[1]? == some (doneWrite "UPDATE b SET x = 1" ["b".toList] 8) &&
      s.tasks[2]? == some (missedQuery "SELECT * FROM A JOIN b ON A.i = b.i"
        ["A".toList, "b".toList] 1 16)) (by decide +kernel)
  simp only [Bool.and_eq_true, beq_iff_eq] at hend
  exact ⟨s, hs, hend.1, hend.2, writes_covered (fun _ _ _ _ h ↦ h) hs⟩

end SalesData.Service.WriteBehind
