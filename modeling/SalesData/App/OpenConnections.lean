import SalesData.App.Lifespan

/-!
# What a shutdown leaves open

The shutdown is meant to close all driver connections: the steps are ordered so that the main
pool closes last (`core/app/lifespan.py:523–536`). But no step ever calls
`DatabaseSession.close`, and the service database's pool looks for a method `close` that its
adapters do not have. Only sessions can be closed at all, when they are given back as broken.
-/

namespace SalesData.App

open Base Pool

/-- The owners of the driver connections, in the order of their opening. -/
def owners (drivers : List Driver) : List Owner := drivers.map Driver.owner

/-- Closing changes no owner. -/
theorem owners_closeObject (drivers : List Driver) (conn : Conn) :
    owners (closeObject drivers conn) = owners drivers := by
  unfold closeObject
  split
  · apply List.ext_getElem?
    intro i
    rw [owners, owners, List.getElem?_map, List.getElem?_map, List.getElem?_modify]
    cases drivers[i]? with
    | none => rfl
    | some d =>
      by_cases hi : conn.driver = i
      · simp [hi, Driver.close]
      · simp [hi]
  · rfl

private theorem closeObjects_cons (drivers : List Driver) (objects : Dict Addr Conn) (c : Addr)
    (cs : List Addr) :
    closeObjects drivers objects (c :: cs) =
      closeObjects ((objects.get? c).elim drivers (closeObject drivers)) objects cs := by
  unfold closeObjects
  rw [List.foldl_cons]
  cases objects.get? c <;> rfl

/-- A pool's closing changes no owner. -/
theorem owners_closeObjects (drivers : List Driver) (objects : Dict Addr Conn) (cs : List Addr) :
    owners (closeObjects drivers objects cs) = owners drivers := by
  induction cs generalizing drivers with
  | nil => rfl
  | cons c cs ih =>
    rw [closeObjects_cons, ih]
    cases objects.get? c with
    | none => rfl
    | some conn => exact owners_closeObject drivers conn

/-- Opening adds owners. -/
theorem owners_enroll (owner : Owner) (wrap : Nat → Conn) (drivers : List Driver)
    (objects : Dict Addr Conn) (made : List Addr) :
    ∃ more, owners (enroll owner wrap drivers objects made).1 = owners drivers ++ more := by
  induction made generalizing drivers objects with
  | nil => exact ⟨[], (List.append_nil _).symm⟩
  | cons c made ih =>
    obtain ⟨more, hmore⟩ := ih (drivers ++ [⟨owner, false⟩]) (objects.set c (wrap drivers.length))
    refine ⟨owner :: more, ?_⟩
    rw [enroll, List.foldl_cons]
    rw [enroll] at hmore
    rw [hmore, owners, List.map_append, List.append_assoc]
    rfl

/-- Only driver connections of sessions are closed. -/
def OnlySessions (drivers : List Driver) : Prop :=
  ∀ d ∈ drivers, d.closed = true → d.owner = .session

/-- Every object of the warehouse's pool is over a connection opened for a session. -/
def SessionsOwned (drivers : List Driver) (objects : Dict Addr Conn) : Prop :=
  ∀ c conn, objects.get? c = some conn → (owners drivers)[conn.driver]? = some .session

/-- No object of the service database's pool has a method `close`. -/
def Closeless (objects : Dict Addr Conn) : Prop :=
  ∀ c conn, objects.get? c = some conn → conn.hasattr "close" = false

/-- A new connection is open. -/
theorem OnlySessions.open {drivers : List Driver} (h : OnlySessions drivers) (owner : Owner) :
    OnlySessions (drivers ++ [⟨owner, false⟩]) := by
  intro d hd hclosed
  rcases List.mem_append.mp hd with hd | hd
  · exact h d hd hclosed
  · rw [List.mem_singleton.mp hd] at hclosed
    cases hclosed

/-- New connections are open. -/
theorem OnlySessions.enroll {drivers : List Driver} (h : OnlySessions drivers) (owner : Owner)
    (wrap : Nat → Conn) (objects : Dict Addr Conn) (made : List Addr) :
    OnlySessions (enroll owner wrap drivers objects made).1 := by
  induction made generalizing drivers objects with
  | nil => exact h
  | cons c made ih => exact ih (h.open owner) _

/-- Closing a session closes no other connection. -/
theorem OnlySessions.closeObject {drivers : List Driver} (h : OnlySessions drivers) {conn : Conn}
    (howner : (owners drivers)[conn.driver]? = some .session) :
    OnlySessions (closeObject drivers conn) := by
  unfold App.closeObject
  split
  · intro d hd hclosed
    obtain ⟨i, hi⟩ := List.getElem?_of_mem hd
    rw [List.getElem?_modify] at hi
    by_cases hdriver : conn.driver = i
    · subst hdriver
      rw [owners, List.getElem?_map] at howner
      obtain ⟨d₀, hd₀, rfl⟩ := Option.map_eq_some_iff.mp hi
      rw [hd₀] at howner
      simpa [Driver.close] using howner
    · have hsame : drivers[i]? = some d := by simpa [hdriver] using hi
      exact h d (List.mem_of_getElem? hsame) hclosed
  · exact h

/-- What the warehouse's pool closes are sessions. -/
theorem OnlySessions.closeObjects {drivers : List Driver} {objects : Dict Addr Conn}
    (h : OnlySessions drivers) (hs : SessionsOwned drivers objects) (cs : List Addr) :
    OnlySessions (closeObjects drivers objects cs) := by
  induction cs generalizing drivers with
  | nil => exact h
  | cons c cs ih =>
    rw [closeObjects_cons]
    cases hc : objects.get? c with
    | none => exact ih h hs
    | some conn =>
      apply ih (h.closeObject (hs c conn hc))
      intro a conn' ha
      rw [owners_closeObject]
      exact hs a conn' ha

/-- The service database's pool closes nothing. -/
theorem Closeless.closeObjects {objects : Dict Addr Conn} (h : Closeless objects)
    (drivers : List Driver) (cs : List Addr) : closeObjects drivers objects cs = drivers := by
  induction cs with
  | nil => rfl
  | cons c cs ih =>
    rw [closeObjects_cons]
    cases hc : objects.get? c with
    | none => exact ih
    | some conn =>
      have hkeep : closeObject drivers conn = drivers := by
        rw [closeObject, h c conn hc]
        rfl
      rw [Option.elim_some, hkeep]
      exact ih

/-- New sessions are over connections of their own. -/
theorem SessionsOwned.enroll {drivers : List Driver} {objects : Dict Addr Conn}
    (h : SessionsOwned drivers objects) {wrap : Nat → Conn} (hwrap : ∀ i, (wrap i).driver = i)
    (made : List Addr) :
    SessionsOwned (enroll .session wrap drivers objects made).1
      (enroll .session wrap drivers objects made).2 := by
  induction made generalizing drivers objects with
  | nil => exact h
  | cons c made ih =>
    apply ih
    intro a conn ha
    rw [Dict.get?_set] at ha
    rw [owners, List.map_append]
    split at ha
    · obtain rfl := Option.some.inj ha
      rw [hwrap, ← List.length_map (f := Driver.owner)]
      exact List.getElem?_concat_length
    · have hold := h a conn ha
      rw [owners] at hold
      obtain ⟨hlt, -⟩ := List.getElem?_eq_some_iff.mp hold
      rw [List.getElem?_append_left hlt]
      exact hold

/-- The service database's pool only files adapters. -/
theorem Closeless.enroll {objects : Dict Addr Conn} (h : Closeless objects)
    (drivers : List Driver) (made : List Addr) :
    Closeless (enroll .service (.adapter .sqlite) drivers objects made).2 := by
  induction made generalizing drivers objects with
  | nil => exact h
  | cons c made ih =>
    apply ih
    intro a conn ha
    rw [Dict.get?_set] at ha
    split at ha
    · obtain rfl := Option.some.inj ha
      rfl
    · exact h a conn ha

/-- More connections leave the sessions over theirs. -/
theorem SessionsOwned.mono {drivers drivers' : List Driver} {objects : Dict Addr Conn}
    (h : SessionsOwned drivers objects) {more : List Owner}
    (ho : owners drivers' = owners drivers ++ more) : SessionsOwned drivers' objects := by
  intro c conn hc
  have hold := h c conn hc
  obtain ⟨hlt, -⟩ := List.getElem?_eq_some_iff.mp hold
  rw [ho, List.getElem?_append_left hlt]
  exact hold

/-- What a run keeps: only sessions are closed, each pool has objects of its own kind, and the
introspection adapter is connected once the warehouse's step has been started. -/
structure DriverInv (app : Application) : Prop where
  onlySessions : OnlySessions app.drivers
  sessions : ∀ pool ∈ app.sessions, SessionsOwned app.drivers pool.objects
  service : ∀ pool ∈ app.service, Closeless pool.objects
  introspected : (∃ rest, app.stage = .starting rest ∧ .dataWarehouse ∈ rest) ∨
    .introspection ∈ owners app.drivers

/-- The invariant holds before the startup. -/
theorem driverInv_new : DriverInv .new where
  onlySessions := by simp [OnlySessions, Application.new]
  sessions := by simp [Application.new]
  service := by simp [Application.new]
  introspected := .inl ⟨steps, rfl, by simp [steps]⟩

/-- The invariant speaks of the stage only while the warehouse's step has not been started. -/
theorem DriverInv.stage {app : Application} (h : DriverInv app) (stage : Stage)
    (started : List Step) (hserving : ∀ rest, app.stage ≠ .starting rest) :
    DriverInv { app with stage := stage, started := started } := by
  refine ⟨h.onlySessions, h.sessions, h.service, .inr ?_⟩
  rcases h.introspected with ⟨rest, hrest, -⟩ | hmem
  · exact absurd hrest (hserving rest)
  · exact hmem

variable {cfg : Config}

/-- A step in the warehouse's pool keeps the invariant. -/
theorem DriverInv.sessionStep {app app' : Application} {a : Async.Act} (h : DriverInv app)
    (hs : app.sessionStep cfg a = some app') : DriverInv app' ∧ app'.stage = app.stage := by
  unfold Application.sessionStep at hs
  split at hs
  · next pool dbType minConn maxConn hpool hcfg =>
    obtain ⟨s', hstep, rfl⟩ := Option.map_eq_some_iff.mp hs
    have hwrap (i : Nat) : (Application.createSession cfg dbType i).driver = i := by
      unfold Application.createSession
      split <;> rfl
    have howned := (h.sessions pool hpool).enroll hwrap (pool.state.made a)
    obtain ⟨more, hmore⟩ := owners_enroll .session (Application.createSession cfg dbType)
      app.drivers pool.objects (pool.state.made a)
    have hclosed := owners_closeObjects
      (enroll .session (Application.createSession cfg dbType) app.drivers pool.objects
        (pool.state.made a)).1
      (enroll .session (Application.createSession cfg dbType) app.drivers pool.objects
        (pool.state.made a)).2 (pool.state.pool.store.closings s'.pool.store)
    refine ⟨⟨(h.onlySessions.enroll _ _ _ _).closeObjects howned _, ?_, ?_, ?_⟩, rfl⟩
    · intro sessions hsessions
      rw [← Option.some.inj hsessions]
      exact howned.mono (hclosed.trans (List.append_nil _).symm)
    · exact fun service hservice ↦ h.service service hservice
    · rcases h.introspected with hstage | hmem
      · exact .inl hstage
      · right
        rw [hclosed, hmore]
        exact List.mem_append_left _ hmem
  · cases hs

/-- A step in the service database's pool keeps the invariant. -/
theorem DriverInv.serviceStep {app app' : Application} {a : Sync.Act} (h : DriverInv app)
    (hs : app.serviceStep a = some app') : DriverInv app' ∧ app'.stage = app.stage := by
  unfold Application.serviceStep at hs
  split at hs
  · next pool hpool =>
    obtain ⟨s', hstep, rfl⟩ := Option.map_eq_some_iff.mp hs
    have hcloseless := h.service pool hpool
    have henroll := hcloseless.enroll app.drivers (pool.state.made a)
    obtain ⟨more, hmore⟩ := owners_enroll .service (.adapter .sqlite) app.drivers pool.objects
      (pool.state.made a)
    dsimp only
    rw [henroll.closeObjects]
    refine ⟨⟨h.onlySessions.enroll _ _ _ _, ?_, ?_, ?_⟩, rfl⟩
    · intro sessions hsessions
      exact (h.sessions sessions hsessions).mono hmore
    · intro service hservice
      rw [← Option.some.inj hservice]
      exact henroll
    · rcases h.introspected with hstage | hmem
      · exact .inl hstage
      · right
        rw [hmore]
        exact List.mem_append_left _ hmem
  · cases hs

/-- `startup_async` keeps the invariant. -/
theorem DriverInv.start {app : Application} {warehouse : DatabaseType × Nat × Nat} {s : Step}
    {rest : List Step} (h : DriverInv app) (hcfg : cfg.dbConfig = some warehouse)
    (hstage : app.stage = .starting (s :: rest)) :
    DriverInv { app.startupStep cfg s with
      started := app.started ++ [s]
      stage := if rest = [] then .serving else .starting rest } := by
  have hrest : s ≠ .dataWarehouse → (∃ rest', (if rest = [] then Stage.serving
      else .starting rest) = .starting rest' ∧ .dataWarehouse ∈ rest') ∨
      .introspection ∈ owners app.drivers := by
    intro hne
    rcases h.introspected with ⟨rest', hrest', hmem⟩ | hmem
    · obtain rfl := Stage.starting.inj (hrest'.symm.trans hstage)
      have hlater := List.mem_of_ne_of_mem (Ne.symm hne) hmem
      have hnil : rest ≠ [] := List.ne_nil_of_mem hlater
      exact .inl ⟨rest, if_neg hnil, hlater⟩
    · exact .inr hmem
  cases s with
  | dataWarehouse =>
    obtain ⟨dbType, minConn, maxConn⟩ := warehouse
    simp only [Application.startupStep, hcfg]
    refine ⟨h.onlySessions.open _, ?_, h.service, .inr ?_⟩
    · intro pool hpool c conn hc
      rw [← Option.some.inj hpool] at hc
      cases hc
    · simp [Application.initializeSession, owners]
  | serviceDatabase =>
    simp only [Application.startupStep]
    cases cfg.servicePool with
    | none => exact ⟨h.onlySessions, h.sessions, h.service, hrest (by simp)⟩
    | some sizes =>
      refine ⟨h.onlySessions, h.sessions, ?_, hrest (by simp)⟩
      intro pool hpool c conn hc
      rw [← Option.some.inj hpool] at hc
      cases hc
  | performance | executors | persistenceQueue =>
    exact ⟨h.onlySessions, h.sessions, h.service, hrest (by simp)⟩

/-- `shutdown_async` keeps the invariant. -/
theorem DriverInv.shutdown {app app' : Application} {s : Step} {rest : List Step}
    (h : DriverInv app) (hstage : app.stage = .stopping (s :: rest))
    (hs : app.shutdownStep rest s = some app') : DriverInv app' := by
  cases s with
  | serviceDatabase =>
    unfold Application.shutdownStep at hs
    dsimp only at hs
    split at hs
    · obtain ⟨closing, hclosing, rfl⟩ := Option.map_eq_some_iff.mp hs
      obtain ⟨hinv, hsame⟩ := h.serviceStep hclosing
      exact hinv.stage _ _ (by simp [hsame, hstage])
    · obtain rfl := Option.some.inj hs
      exact h.stage _ _ (by simp [hstage])
  | performance | dataWarehouse | executors | persistenceQueue =>
    obtain rfl := Option.some.inj hs
    exact h.stage _ _ (by simp [hstage])

/-- Every action keeps the invariant. -/
theorem DriverInv.step {app app' : Application} {warehouse : DatabaseType × Nat × Nat} {a : Act}
    (h : DriverInv app) (hcfg : cfg.dbConfig = some warehouse)
    (hs : App.step cfg app a = some app') : DriverInv app' := by
  unfold App.step at hs
  split at hs
  · split at hs
    · next s rest hstage =>
      obtain rfl := Option.some.inj hs
      exact h.start hcfg hstage
    · cases hs
  · split at hs
    · cases hs
    · exact (h.sessionStep hs).1
  · split at hs
    · cases hs
    · exact (h.serviceStep hs).1
  · split at hs
    · next hstage =>
      obtain rfl := Option.some.inj hs
      exact h.stage _ _ (by simp [hstage])
    · next s rest hstage =>
      exact h.shutdown hstage hs
    · next rest hstage =>
      split at hs
      · obtain rfl := Option.some.inj hs
        exact h.stage _ _ (by simp [hstage])
      · cases hs
    · next hstage =>
      obtain rfl := Option.some.inj hs
      exact h.stage _ _ (by simp [hstage])
    · cases hs
    · cases hs

/-- The invariant holds in every run with a warehouse. -/
theorem DriverInv.of_reach {warehouse : DatabaseType × Nat × Nat}
    (hcfg : cfg.dbConfig = some warehouse) {app : Application}
    (h : (system cfg).Reachable app) : DriverInv app :=
  h.invariant driverInv_new fun _ _ _ hinv _ hs ↦ hinv.step hcfg hs

/-- Every driver connection opened during the run has been closed. -/
def Application.AllClosed (app : Application) : Prop := ∀ d ∈ app.drivers, d.closed = true

/-- The service database's connections are never closed. -/
theorem service_staysOpen {warehouse : DatabaseType × Nat × Nat}
    (hcfg : cfg.dbConfig = some warehouse) {app : Application} (h : (system cfg).Reachable app) :
    ∀ d ∈ app.drivers, d.owner = .service → d.closed = false := by
  intro d hd howner
  have hsession := (DriverInv.of_reach hcfg h).onlySessions d hd
  rw [howner] at hsession
  simpa using hsession

/-- Whatever the requests did, the shutdown of an application with a warehouse leaves a
connection open: that of the introspection adapter. -/
theorem shutdown_leavesOpen {warehouse : DatabaseType × Nat × Nat}
    (hcfg : cfg.dbConfig = some warehouse) {app : Application} (h : (system cfg).Reachable app)
    (hstage : app.stage = .stopped) : ¬ app.AllClosed := by
  intro hall
  have hinv := DriverInv.of_reach hcfg h
  rcases hinv.introspected with ⟨rest, hrest, -⟩ | hmem
  · rw [hstage] at hrest
    cases hrest
  · obtain ⟨d, hd, howner⟩ := List.mem_map.mp hmem
    have hsession := hinv.onlySessions d hd (hall d hd)
    rw [howner] at hsession
    cases hsession

/-- The shutdown begins while no request is in progress. -/
def Orderly (app : Application) : Act → Prop
  | .stop => app.stage = .serving → app.idle
  | _ => True

instance (app : Application) (a : Act) : Decidable (Orderly app a) :=
  match a with
  | .stop => inferInstanceAs (Decidable (_ → _))
  | .start | .session _ | .service _ => isTrue trivial

/-- A DuckDB warehouse and a service database, with one connection each at most. -/
def smallConfig : Config := ⟨some (.duckdb, 1, 1), some (1, 1, 5), true⟩

/-- The startup uses one service connection, one request uses one session, and the shutdown
goes through all steps. -/
def oneRequest : List Act :=
  [.start, .start, .start, .start] ++
    [.call .acquire, .run 0 { addr := 1 }, .run 0 { addr := 1 }, .run 0 { addr := 2 },
      .run 0 { addr := 3 }, .run 0 { addr := 3 }].map Act.service ++ [.start] ++
    [.call .acquire, .resume 0 { addr := 1 }, .resume 0 { addr := 2 },
      .resume 0 { addr := 3 }].map Act.session ++ [.stop, .stop, .stop] ++
    [.run 1 { addr := 3 }, .run 1 { addr := 3 }, .run 1 { addr := 3 }].map Act.service ++
    [.stop, .stop, .stop, .stop, .stop]

/-- After an orderly shutdown all three connections of that run are open. -/
theorem oneRequest_leavesOpen :
    (∃ app, (system smallConfig).Reach Orderly app ∧ app.stage = .stopped ∧
      app.drivers = [⟨.introspection, false⟩, ⟨.service, false⟩, ⟨.session, false⟩]) ∧
    ¬ ∀ cfg app, cfg.dbConfig.isSome → cfg.servicePool.isSome →
      (system cfg).Reach Orderly app → app.stage = .stopped → app.AllClosed := by
  obtain ⟨app, happ, hend⟩ := System.exists_of_exec (system smallConfig) Orderly oneRequest
    (fun app ↦ app.stage == .stopped &&
      app.drivers == [⟨.introspection, false⟩, ⟨.service, false⟩, ⟨.session, false⟩])
    (by decide +kernel)
  simp only [Bool.and_eq_true, beq_iff_eq] at hend
  refine ⟨⟨app, happ, hend.1, hend.2⟩, fun h ↦ ?_⟩
  have hall := h smallConfig app rfl rfl happ hend.1
  have hopen := hall ⟨.introspection, false⟩ (by simp [hend.2])
  cases hopen

/-- One request, and then the shutdown. -/
theorem shutdown_leavesOpen_oneRequest :
    ∃ app, (system smallConfig).Reachable app ∧ app.stage = .stopped ∧ ¬ app.AllClosed := by
  obtain ⟨app, happ, hend⟩ := System.exists_of_exec (system smallConfig) (fun _ _ ↦ True)
    oneRequest (fun app ↦ app.stage == .stopped) (by decide +kernel)
  have hstage : app.stage = .stopped := by simpa using hend
  exact ⟨app, happ, hstage, shutdown_leavesOpen rfl happ hstage⟩

end SalesData.App
