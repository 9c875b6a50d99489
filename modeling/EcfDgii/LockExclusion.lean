import EcfDgii.CacheCoherence

/-!
Mutual exclusion of `acquireLock` and `releaseLock`.

A `Fleet` is any number of processes over one server and one clock.  A caller
holds a lock from an `acquireLock` that returned `true` until its time is over
or it has called `releaseLock` with its value: the `held` list of a `Site`.
Each process keeps a table of its own for the time in which it does not reach
the server, so the same key can be free in one store and taken in another.
While calls for a held key go to the store that granted it (`KeepsStore`), what
a caller holds is what its store shows (`Guarded`), and no second caller is let
in.
-/

set_option autoImplicit false

namespace EcfDgii.LockExclusion

open EcfDgii.ExpiringTables EcfDgii.Machines EcfDgii.RedisCacheService EcfDgii.Timestamps

/-! ## Callers of several processes -/

/-- The server, the clock and the processes. -/
structure Fleet where
  clock : ℤ
  redis : Table String String := Table.empty
  services : ℕ → Service

/-- Where a lock is kept. -/
inductive Store
  | server
  | memory (process : ℕ)
  deriving DecidableEq

/-- The deployment one process sees. -/
def Fleet.seen (f : Fleet) (process : ℕ) : Deployment := ⟨f.clock, f.redis, f.services process⟩

/-- The fleet after a call of one process. -/
def Fleet.after (f : Fleet) (process : ℕ) (d : Deployment) : Fleet :=
  ⟨d.clock, d.redis, Function.update f.services process d.service⟩

/-- Time passes. -/
def Fleet.pass (f : Fleet) (elapsed : ℕ) : Fleet := { f with clock := f.clock + elapsed }

/-- The locks of a store.  A lock in memory is taken before its last moment, one
on the server up to it. -/
def Fleet.locks (f : Fleet) : Store → Table String String
  | .server => f.redis
  | .memory process => fun key => ((f.services process).locks key).map fun l => ⟨l.1, some (l.2 - 1)⟩

/-- The value that has an unexpired lock in a store. -/
def Fleet.holder (f : Fleet) (store : Store) (key : String) : Option String :=
  (f.locks store).lookup key f.clock

/-- The store a call of a process goes to. -/
def Fleet.target (f : Fleet) (process : ℕ) (weather : Weather) : Store :=
  if (checkRedisAvailability weather.ping (f.seen process)).1 then .server else .memory process

inductive Call
  | acquireLock (lockKey lockValue : String) (expiration : ℤ)
  | releaseLock (lockKey lockValue : String)
  deriving DecidableEq

/-- A call of a process, the time that has passed before it, and what it meets. -/
structure Step where
  call : Call
  process : ℕ := 0
  elapsed : ℕ := 0
  weather : Weather := {}

/-- A lock that a caller was given. -/
structure Grant where
  key : String
  value : String
  expiresAt : ℤ
  store : Store
  deriving DecidableEq

/-- The fleet, and the locks given and not yet released. -/
structure Site where
  fleet : Fleet
  held : List Grant := []

/-- The processes at work. -/
def site : Machine Site Step where
  step s i :=
    let f := s.fleet.pass i.elapsed
    match i.call with
    | .acquireLock key value expiration =>
      let r := acquireLock i.weather key value expiration (f.seen i.process)
      ⟨f.after i.process r.2, if r.1 then
        ⟨key, value, ahead f.clock expiration, f.target i.process i.weather⟩ :: s.held
        else s.held⟩
    | .releaseLock key value =>
      ⟨f.after i.process (releaseLock i.weather key value (f.seen i.process)).2,
        s.held.filter fun g => ¬ (g.key = key ∧ g.value = value)⟩

/-- At most one caller holds an unexpired lock on a key. -/
def Exclusive (s : Site) : Prop :=
  ∀ g ∈ s.held, ∀ g' ∈ s.held, g.key = g'.key → s.fleet.clock < g.expiresAt →
    s.fleet.clock < g'.expiresAt → g.value = g'.value

/-- A `releaseLock` changes no store in which another value has the lock, or
nobody has it. -/
def ReleasesOwn (s : Site) (i : Step) : Prop :=
  ∀ key value, i.call = .releaseLock key value → ∀ store other,
    (other = key → (s.fleet.pass i.elapsed).holder store key ≠ some value) →
    (site.step s i).fleet.holder store other = (s.fleet.pass i.elapsed).holder store other

/-- A call for a key that somebody else holds goes to the store that granted it. -/
def KeepsStore (s : Site) (i : Step) : Prop :=
  let f := s.fleet.pass i.elapsed
  match i.call with
  | .acquireLock key value _ => ∀ g ∈ s.held, g.key = key → f.clock < g.expiresAt →
      g.value = value ∨ g.store = f.target i.process i.weather
  | .releaseLock _ _ => True

instance (s : Site) : (i : Step) → Decidable (KeepsStore s i)
  | ⟨.acquireLock key value _, process, elapsed, weather⟩ =>
    inferInstanceAs (Decidable (∀ g ∈ s.held, g.key = key →
      (s.fleet.pass elapsed).clock < g.expiresAt →
        g.value = value ∨ g.store = (s.fleet.pass elapsed).target process weather))
  | ⟨.releaseLock _ _, _, _, _⟩ => .isTrue trivial

/-! ## What each call does -/

variable {f : Fleet} {s : Site} {process : ℕ} {weather : Weather} {key value : String}
  {store : Store}

/-- `SET NX EX` puts a lock where none is, and says so only then. -/
theorem setNx_command (key value : String) (fate : Fate) (now : ℤ) (redis : Table String String) (ex : ℤ) :
    let r := sendRedisCommand fate now redis (.setNx key value ex)
    (r.2 = redis ∧ r.1 ≠ some .ok) ∨
      (redis.lookup key now = none ∧ r.2 = redis.put key ⟨value, some (ahead now ex)⟩) := by
  have served : let r := serve now redis (.setNx key value ex)
      (r.2 = redis ∧ r.1 ≠ .ok) ∨
        (redis.lookup key now = none ∧ r.2 = redis.put key ⟨value, some (ahead now ex)⟩) := by
    simp only [serve]
    split
    · cases found : redis.lookup key now with
      | some other => exact .inl ⟨rfl, by rintro ⟨⟩⟩
      | none => exact .inr ⟨rfl, rfl⟩
    · exact .inl ⟨rfl, by rintro ⟨⟩⟩
  cases fate with
  | unreached => exact .inl ⟨rfl, by rintro ⟨⟩⟩
  | unanswered =>
    rcases served with ⟨same, -⟩ | put
    · exact .inl ⟨same, by rintro ⟨⟩⟩
    · exact .inr put
  | answered =>
    rcases served with ⟨same, refused⟩ | put
    · exact .inl ⟨same, fun h => refused (Option.some.inj h)⟩
    · exact .inr put

/-- The script of `releaseLock` erases the value's own lock or nothing. -/
theorem delIfEqual_command (key value : String) (fate : Fate) (now : ℤ) (redis : Table String String) :
    let r := sendRedisCommand fate now redis (.delIfEqual key value)
    r.2 = redis ∨ (∃ e, redis key = some e ∧ e.value = value) ∧ r.2 = redis.erase key := by
  have served : let r := serve now redis (.delIfEqual key value)
      r.2 = redis ∨ (∃ e, redis key = some e ∧ e.value = value) ∧ r.2 = redis.erase key := by
    simp only [serve]
    split
    · next found =>
      obtain ⟨e, here, -, same⟩ := lookup_eq_some.mp found
      exact .inr ⟨⟨e, here, same⟩, rfl⟩
    · exact .inl rfl
  cases fate with
  | unreached => exact .inl rfl
  | unanswered => exact served
  | answered => exact served

/-- One store of the fleet has changed, and the others have not. -/
structure Changed (f g : Fleet) (store : Store) : Prop where
  clock : g.clock = f.clock
  others : ∀ other, other ≠ store → g.locks other = f.locks other

/-- A call that leaves the process' own locks changes the server's store. -/
theorem changed_server {d : Deployment} (clock : d.clock = f.clock)
    (locks : d.service.locks = (f.services process).locks) :
    Changed f (f.after process d) .server := by
  refine ⟨clock, fun other differs => ?_⟩
  cases other with
  | server => exact absurd rfl differs
  | memory m =>
    by_cases same : m = process
    · subst same
      simp only [Fleet.locks, Fleet.after, Function.update_self, locks]
    · simp only [Fleet.locks, Fleet.after, Function.update_of_ne same]

/-- A call that leaves the server changes the process' own store. -/
theorem changed_memory {d : Deployment} (clock : d.clock = f.clock) (redis : d.redis = f.redis) :
    Changed f (f.after process d) (.memory process) := by
  refine ⟨clock, fun other differs => ?_⟩
  cases other with
  | server => exact redis
  | memory m =>
    have apart : m ≠ process := fun same => differs (congrArg Store.memory same)
    simp only [Fleet.locks, Fleet.after, Function.update_of_ne apart]

theorem locks_after_memory (d : Deployment) :
    (f.after process d).locks (.memory process) =
      fun key => (d.service.locks key).map fun l => ⟨l.1, some (l.2 - 1)⟩ := by
  simp only [Fleet.locks, Fleet.after, Function.update_self]

/-- **`acquireLock`** returns `true` only when its store shows no lock on the key;
it then puts one there that lasts as long as the caller may rely on it. -/
theorem acquireLock_spec (f : Fleet) (process : ℕ) (weather : Weather) (key value : String)
    (expiration : ℤ) :
    let r := acquireLock weather key value expiration (f.seen process)
    let g := f.after process r.2
    let store := f.target process weather
    Changed f g store ∧
      ((g.locks store = f.locks store ∧ r.1 = false) ∨
        ((f.locks store).lookup key f.clock = none ∧ ∃ last, ahead f.clock expiration ≤ last + 1 ∧
          g.locks store = (f.locks store).put key ⟨value, some last⟩)) := by
  obtain ⟨clock, redis, -, locks⟩ :=
    CacheCoherence.checkRedisAvailability_frame weather.ping (f.seen process)
  unfold acquireLock Fleet.target
  generalize checkRedisAvailability weather.ping (f.seen process) = checked at clock redis locks
  obtain ⟨available, d⟩ := checked
  dsimp only [Fleet.seen] at clock redis locks
  cases available with
  | true =>
    have command := setNx_command key value weather.command d.clock d.redis
      expiration
    simp only [Deployment.send, if_true]
    rw [clock, redis] at command ⊢
    generalize sendRedisCommand weather.command f.clock f.redis (.setNx key value expiration) = reply
      at command
    obtain ⟨answer, next⟩ := reply
    have changed : ∀ next, Changed f (f.after process ⟨f.clock, next, d.service⟩) .server :=
      fun _ => changed_server rfl locks
    rcases command with ⟨same, refused⟩ | ⟨free, put⟩
    · dsimp only at same refused
      subst same
      split
      · next taken => exact absurd (Prod.mk.inj taken).1 refused
      · next lost =>
        obtain ⟨-, rfl⟩ := Prod.mk.inj lost
        exact ⟨changed _, .inl ⟨rfl, rfl⟩⟩
    · dsimp only at put
      subst put
      have entry : ∃ last, ahead f.clock expiration ≤ last + 1 ∧
          f.redis.put key ⟨value, some (ahead f.clock expiration)⟩ =
            f.redis.put key ⟨value, some last⟩ := ⟨_, by omega, rfl⟩
      split
      · next taken =>
        obtain ⟨-, rfl⟩ := Prod.mk.inj taken
        exact ⟨changed _, .inr ⟨free, entry⟩⟩
      · next lost =>
        obtain ⟨-, rfl⟩ := Prod.mk.inj lost
        exact ⟨changed _, .inr ⟨free, entry⟩⟩
  | false =>
    have changed : ∀ locks', Changed f (f.after process
        { d with service := { d.service with locks := locks' } }) (.memory process) :=
      fun _ => changed_memory clock redis
    have kept : (f.after process d).locks (.memory process) = f.locks (.memory process) := by
      rw [locks_after_memory, locks]
      rfl
    have granted : ∃ last, ahead f.clock expiration ≤ last + 1 ∧
        (f.after process { d with service := { d.service with
          locks := Function.update d.service.locks key
            (some (value, ahead d.clock expiration)) } }).locks (.memory process) =
          (f.locks (.memory process)).put key ⟨value, some last⟩ := by
      refine ⟨ahead f.clock expiration - 1, by omega, ?_⟩
      rw [locks_after_memory]
      funext other
      by_cases same : other = key
      · subst same
        simp only [Function.update_self, Option.map_some, put_self, clock]
      · simp only [Function.update_of_ne same, put_other same, locks, Fleet.locks]
    simp only [Bool.false_eq_true, if_false]
    cases found : d.service.locks key with
    | none =>
      refine ⟨changed _, .inr ⟨lookup_eq_none.mpr fun e here => ?_, granted⟩⟩
      simp [Fleet.locks, ← locks, found] at here
    | some l =>
      rw [locks] at found
      dsimp only
      split
      · exact ⟨changed d.service.locks, .inl ⟨kept, rfl⟩⟩
      · next late =>
        refine ⟨changed _, .inr ⟨lookup_eq_none.mpr fun e here live => ?_, granted⟩⟩
        simp only [Fleet.locks, found, Option.map_some, Option.some.injEq] at here
        subst here
        have before : f.clock ≤ l.2 - 1 := live _ rfl
        exact late (decide_eq_true (by omega))

/-- **`releaseLock`** erases the released value's own lock or nothing. -/
theorem releaseLock_spec (f : Fleet) (process : ℕ) (weather : Weather) (key value : String) :
    let g := f.after process (releaseLock weather key value (f.seen process)).2
    let store := f.target process weather
    Changed f g store ∧
      (g.locks store = f.locks store ∨ (∃ e, f.locks store key = some e ∧ e.value = value) ∧
        g.locks store = (f.locks store).erase key) := by
  obtain ⟨clock, redis, -, locks⟩ :=
    CacheCoherence.checkRedisAvailability_frame weather.ping (f.seen process)
  unfold releaseLock Fleet.target
  generalize checkRedisAvailability weather.ping (f.seen process) = checked at clock redis locks
  obtain ⟨available, d⟩ := checked
  dsimp only [Fleet.seen] at clock redis locks
  cases available with
  | true =>
    have command := delIfEqual_command key value weather.command d.clock d.redis
    simp only [Deployment.send, if_true]
    rw [clock, redis] at command ⊢
    generalize sendRedisCommand weather.command f.clock f.redis (.delIfEqual key value) = reply
      at command
    have changed : Changed f (f.after process ⟨f.clock, reply.2, d.service⟩) .server :=
      changed_server rfl locks
    split
    · next sent =>
      obtain ⟨-, rfl⟩ := Prod.mk.inj sent
      exact ⟨changed, command⟩
    · next sent =>
      obtain ⟨-, rfl⟩ := Prod.mk.inj sent
      exact ⟨changed, command⟩
  | false =>
    have changed : ∀ locks', Changed f (f.after process
        { d with service := { d.service with locks := locks' } }) (.memory process) :=
      fun _ => changed_memory clock redis
    have kept : (f.after process d).locks (.memory process) = f.locks (.memory process) := by
      rw [locks_after_memory, locks]
      rfl
    simp only [Bool.false_eq_true, if_false]
    split
    · next holder expiresAt found =>
      split
      · next own =>
        refine ⟨changed _, .inr ⟨⟨⟨holder, some (expiresAt - 1)⟩, ?_, own⟩, ?_⟩⟩
        · rw [locks] at found
          simp only [Fleet.locks, found, Option.map_some]
        · rw [locks_after_memory]
          funext other
          by_cases same : other = key
          · subst same
            simp only [Function.update_self, Option.map_none, erase_self]
          · simp only [Function.update_of_ne same, erase_other same, locks, Fleet.locks]
      · exact ⟨changed d.service.locks, .inl kept⟩
    · exact ⟨changed d.service.locks, .inl kept⟩

/-! ## One caller at a time -/

/-- What a caller holds, its store shows for as long as the caller may rely on it. -/
def Shown (f : Fleet) (g : Grant) : Prop :=
  ∀ now, f.clock ≤ now → now < g.expiresAt → (f.locks g.store).lookup g.key now = some g.value

structure Guarded (s : Site) : Prop where
  shown : ∀ g ∈ s.held, Shown s.fleet g
  exclusive : Exclusive s

theorem Guarded.pass (h : Guarded s) (elapsed : ℕ) : Guarded ⟨s.fleet.pass elapsed, s.held⟩ := by
  have later : s.fleet.clock ≤ (s.fleet.pass elapsed).clock := by simp [Fleet.pass]
  constructor
  · intro g member now order before
    exact h.shown g member now (le_trans later order) before
  · intro g member g' member' same before before'
    exact h.exclusive g member g' member' same (lt_of_le_of_lt later before)
      (lt_of_le_of_lt later before')

/-- A caller whose store shows nothing on its key has lost the lock to time. -/
theorem Shown.expired {g : Grant} (shown : Shown f g)
    (free : (f.locks g.store).lookup g.key f.clock = none) : g.expiresAt ≤ f.clock := by
  by_contra unexpired
  have still := shown f.clock le_rfl (by omega)
  rw [free] at still
  cases still

/-- A change of another store, or of the same one that shows the key as before,
leaves what a caller holds. -/
theorem Shown.changed {g : Grant} {next : Fleet} (shown : Shown f g) (changed : Changed f next store)
    (own : g.store = store → ∀ now, f.clock ≤ now → now < g.expiresAt →
      (next.locks store).lookup g.key now = (f.locks store).lookup g.key now) : Shown next g := by
  intro now order before
  rw [changed.clock] at order
  by_cases here : g.store = store
  · rw [here, own here now order before, ← here]
    exact shown now order before
  · rw [changed.others g.store here]
    exact shown now order before

theorem Guarded.acquire (h : Guarded s) (process : ℕ) (weather : Weather) (key value : String)
    (expiration : ℤ) (keeps : KeepsStore s ⟨.acquireLock key value expiration, process, 0, weather⟩) :
    Guarded (site.step s ⟨.acquireLock key value expiration, process, 0, weather⟩) := by
  have now : s.fleet.pass 0 = s.fleet := by simp [Fleet.pass]
  unfold KeepsStore at keeps
  simp only [site, now] at keeps ⊢
  obtain ⟨changed, outcome⟩ :=
    acquireLock_spec s.fleet process weather key value expiration
  generalize acquireLock weather key value expiration (s.fleet.seen process) = r at changed outcome
  obtain ⟨granted, d⟩ := r
  rcases outcome with ⟨same, rfl⟩ | ⟨free, last, lasts, put⟩
  · refine ⟨fun g member => ?_, ?_⟩
    · refine (h.shown g member).changed changed fun _ now _ _ => ?_
      rw [same]
    · have exclusive := h.exclusive
      unfold Exclusive at exclusive ⊢
      rwa [changed.clock]
  · have lost : ∀ g ∈ s.held, g.key = key → g.store = s.fleet.target process weather →
        g.expiresAt ≤ s.fleet.clock := by
      rintro g member rfl there
      exact (h.shown g member).expired (there ▸ free)
    have kept : ∀ g ∈ s.held, Shown (s.fleet.after process d) g := by
      intro g member
      refine (h.shown g member).changed changed fun there now order before => ?_
      by_cases same : g.key = key
      · have := lost g member same there
        omega
      · rw [put, lookup_put_other same]
    have alone : ∀ g ∈ s.held, g.key = key → s.fleet.clock < g.expiresAt → g.value = value := by
      intro g member same unexpired
      rcases keeps g member same unexpired with own | there
      · exact own
      · have := lost g member same there
        omega
    cases granted with
    | false =>
      refine ⟨kept, ?_⟩
      have exclusive := h.exclusive
      unfold Exclusive at exclusive ⊢
      rwa [changed.clock]
    | true =>
      constructor
      · intro g member
        rcases List.mem_cons.mp member with rfl | member
        · intro now order before
          rw [put]
          refine lookup_put_self fun l here => ?_
          obtain rfl := Option.some.inj here
          dsimp only at before
          omega
        · exact kept g member
      · intro g member g' member' same before before'
        rw [changed.clock] at before before'
        rcases List.mem_cons.mp member with rfl | member <;>
          rcases List.mem_cons.mp member' with rfl | member'
        · rfl
        · exact (alone g' member' same.symm before').symm
        · exact alone g member same before
        · exact h.exclusive g member g' member' same before before'

theorem Guarded.release (h : Guarded s) (process : ℕ) (weather : Weather) (key value : String) :
    Guarded (site.step s ⟨.releaseLock key value, process, 0, weather⟩) := by
  have now : s.fleet.pass 0 = s.fleet := by simp [Fleet.pass]
  simp only [site, now]
  obtain ⟨changed, outcome⟩ := releaseLock_spec s.fleet process weather key value
  generalize releaseLock weather key value (s.fleet.seen process) = r at changed outcome
  constructor
  · intro g member
    obtain ⟨member, other⟩ := List.mem_filter.mp member
    have other : ¬ (g.key = key ∧ g.value = value) := of_decide_eq_true other
    refine (h.shown g member).changed changed fun there now order before => ?_
    rcases outcome with same | ⟨⟨e, found, own⟩, erased⟩
    · rw [same]
    · by_cases same : g.key = key
      · have still := h.shown g member now order before
        rw [there, same] at still
        obtain ⟨e', found', -, value'⟩ := lookup_eq_some.mp still
        rw [found] at found'
        cases found'
        exact absurd ⟨same, value'.symm.trans own⟩ other
      · rw [erased, lookup_erase_other same]
  · intro g member g' member' same before before'
    rw [changed.clock] at before before'
    exact h.exclusive g (List.mem_of_mem_filter member) g' (List.mem_of_mem_filter member') same
      before before'

/-- **Step.** A call that keeps to the store of the holder leaves at most one. -/
theorem Guarded.step (h : Guarded s) (i : Step) (keeps : KeepsStore s i) :
    Guarded (site.step s i) := by
  obtain ⟨call, process, elapsed, weather⟩ := i
  have h := h.pass elapsed
  have now : (s.fleet.pass elapsed).pass 0 = s.fleet.pass elapsed := by simp [Fleet.pass]
  cases call with
  | acquireLock key value expiration =>
    have step := h.acquire process weather key value expiration (by
      unfold KeepsStore at keeps ⊢
      simpa only [now] using keeps)
    simpa only [site, now] using step
  | releaseLock key value =>
    have step := h.release process weather key value
    simpa only [site, now] using step

/-- A release touches nobody else's lock, whatever came before it. -/
theorem releases_own (s : Site) (i : Step) : ReleasesOwn s i := by
  obtain ⟨call, process, elapsed, weather⟩ := i
  rintro key value rfl store other free
  simp only [site]
  obtain ⟨changed, outcome⟩ :=
    releaseLock_spec (s.fleet.pass elapsed) process weather key value
  generalize releaseLock weather key value ((s.fleet.pass elapsed).seen process) = r
    at changed outcome
  unfold Fleet.holder at free ⊢
  rw [changed.clock]
  by_cases there : store = (s.fleet.pass elapsed).target process weather
  · subst there
    rcases outcome with same | ⟨⟨e, found, own⟩, erased⟩
    · rw [same]
    · rw [erased]
      by_cases same : other = key
      · subst same
        rw [lookup_erase_self, eq_comm, lookup_eq_none]
        intro e' found' live
        rw [found] at found'
        cases found'
        exact free rfl (lookup_eq_some.mpr ⟨e, found, live, own⟩)
      · rw [lookup_erase_other same]
  · rw [changed.others store there]

/-- **Exclusion.** In every run of `acquireLock` and `releaseLock` in which the
calls for a held key go to the store that granted it, at most one caller at a
time holds an unexpired lock on a key, and a release takes away nothing but the
released value's own lock. -/
theorem locks_exclude (fleet : Fleet) (steps : List Step)
    (met : site.Meets KeepsStore ⟨fleet, []⟩ steps) :
    ∀ before rest, steps = before ++ rest →
      Exclusive (site.run ⟨fleet, []⟩ before) ∧
        ∀ i ∈ rest.head?, ReleasesOwn (site.run ⟨fleet, []⟩ before) i := by
  rintro before rest rfl
  obtain ⟨kept, -⟩ := Machine.meets_append.mp met
  have start : Guarded ⟨fleet, []⟩ := ⟨nofun, nofun⟩
  have guarded : Guarded (site.run ⟨fleet, []⟩ before) :=
    Machine.invariant (fun s i guarded keeps => guarded.step i keeps) start kept
  exact ⟨guarded.exclusive, fun i _ => releases_own _ i⟩

/-! ## A server that comes back -/

/-- One process that has just failed to reach the server. -/
def sampleFleet : Fleet := { clock := 0, services := fun _ => { host := "redis" } }

/-- A lock is taken in memory, refused to a second caller, released by the first
and taken by the second. -/
theorem locks_exclude_sample : Exclusive (site.run ⟨sampleFleet, []⟩
      [⟨.acquireLock "lock" "a" 60, 0, 0, {}⟩, ⟨.acquireLock "lock" "b" 60, 0, second, {}⟩,
        ⟨.releaseLock "lock" "a", 0, 0, {}⟩, ⟨.acquireLock "lock" "b" 60, 0, 0, {}⟩]) :=
  (locks_exclude sampleFleet _ (by decide +kernel) _ [] (List.append_nil _).symm).1

/-- A lock is taken in memory; the server answers half a minute later, and gives
the same lock to a second caller. -/
theorem two_callers_hold : ¬ Exclusive (site.run ⟨sampleFleet, []⟩
    [⟨.acquireLock "lock" "a" 60, 0, 0, {}⟩,
      ⟨.acquireLock "lock" "b" 60, 0, 30 * second, {}⟩]) := by
  intro exclusive
  have same := exclusive ⟨"lock", "b", 90 * second, .server⟩ (by decide +kernel)
    ⟨"lock", "a", 60 * second, .memory 0⟩ (by decide +kernel) rfl (by decide +kernel)
    (by decide +kernel)
  exact absurd same (by decide)

end EcfDgii.LockExclusion
