import OpenHalo.Lib.Machine
import OpenHalo.Lib.SpinLock

namespace OpenHalo.UuidShort
open Machine Function SpinLock

variable {n : Nat} {boot : Int} {r v value : UInt64} {b b' : Fin n}

/-- The two hash tables: the bucket of the lock with the element linked there and the spin locks of all
elements made, and the counter. -/
structure Shmem where
  bucket : Option Nat
  mutexes : List Bool
  uuidShortVal : Option UInt64

def serverID : UInt64 := 1

def svrStartupTimeSecs (curTime uptime : Int) : UInt64 :=
  if uptime < curTime then UInt64.ofInt (curTime - uptime) else UInt64.ofInt (uptime - curTime)

/-- The entry that `UuidShortShmemInit` makes; the lock has none yet. -/
def uuidShortShmemInit (curTime uptime : Int) : Shmem :=
  ⟨none, [], some (((serverID &&& 255) <<< 56) + (svrStartupTimeSecs curTime uptime <<< 24))⟩

/-- The place of a backend in `getUuidShort`, with what it has in its registers. -/
inductive Place
  | idle
  | enter (currBucket : Option Nat)
  | initialise
  | acquire
  | search
  | load
  | store (uuidShortVal : UInt64)
  | read
  | release (getRet : UInt64)
  | failing
  | leave (getRet : UInt64)
deriving Repr, DecidableEq

/-- A booted host with `n` backends: the server, if it runs, the lock each backend points to, and the
returned values, last one first. -/
structure Host (n : Nat) where
  shmem : Option Shmem
  backends : Fin n → Place
  globalUuidShortMutex : Fin n → Nat
  returned : List UInt64

inductive Event (n : Nat)
  | start (uptime : Option Int)
  | stop
  | turn (backend : Fin n)
deriving Repr, DecidableEq

def Host.booted : Host n := ⟨none, fun _ => .idle, fun _ => 0, []⟩

def Host.goto (h : Host n) (b : Fin n) (place : Place) : Host n := { h with backends := update h.backends b place }

def Host.setMutex (h : Host n) (shmem : Shmem) (b : Fin n) (held : Bool) : Host n :=
  { h with shmem := some { shmem with mutexes := shmem.mutexes.set (h.globalUuidShortMutex b) held } }

def Host.access (h : Host n) (shmem : Shmem) (b : Fin n) : Host n :=
  match h.backends b with
  -- lockUuidShort: `hash_search` with HASH_ENTER, which nothing protects, looks for the entry
  | .idle => h.goto b (.enter shmem.bucket)
  -- and links a new element to the bucket; its memory is zero, which is a free lock
  | .enter none =>
    let element := shmem.mutexes.length
    { h with shmem := some { shmem with bucket := some element, mutexes := shmem.mutexes ++ [false] }
             globalUuidShortMutex := update h.globalUuidShortMutex b element }.goto b .initialise
  | .enter (some element) =>
    { h with globalUuidShortMutex := update h.globalUuidShortMutex b element }.goto b .acquire
  | .initialise => (h.setMutex shmem b false).goto b .acquire
  | .acquire =>
    match shmem.mutexes[h.globalUuidShortMutex b]? with
    | some false => (h.setMutex shmem b true).goto b .search
    | _ => h
  -- the critical section
  | .search =>
    match shmem.uuidShortVal with
    | some _ => h.goto b .load
    | none => h.goto b .failing
  | .load => h.goto b (.store (shmem.uuidShortVal.getD 0))
  | .store uuidShortVal => { h with shmem := some { shmem with uuidShortVal := some (uuidShortVal + 1) } }.goto b .read
  | .read => h.goto b (.release (shmem.uuidShortVal.getD 0))
  -- unlockUuidShort
  | .release getRet => (h.setMutex shmem b false).goto b (.leave getRet)
  | .failing => (h.setMutex shmem b false).goto b .idle
  | .leave getRet => { h with returned := getRet :: h.returned }.goto b .idle

/-- The wall clock shows `boot` plus the uptime; without the uptime a server does not start. -/
def step (boot : Int) (h : Host n) : Event n → Host n × Unit
  | .start uptime =>
    match h.shmem, uptime with
    | none, some uptime => ({ h with shmem := some (uuidShortShmemInit (boot + uptime) uptime) }, ())
    | _, _ => (h, ())
  | .stop => ({ h with shmem := none, backends := fun _ => .idle, globalUuidShortMutex := fun _ => 0 }, ())
  | .turn b =>
    match h.shmem with
    | none => (h, ())
    | some shmem => (h.access shmem b, ())

def Place.holds : Place → Bool
  | .search | .load | .store _ | .read | .release _ | .failing => true
  | .idle | .enter _ | .initialise | .acquire | .leave _ => false

/-- Inside `hash_search` with HASH_ENTER. -/
def Place.enters : Place → Bool
  | .enter _ => true
  | _ => false

def Place.result : Place → Option UInt64
  | .release getRet | .leave getRet => some getRet
  | _ => none

def seed (boot : Int) : UInt64 := ((serverID &&& 255) <<< 56) + (svrStartupTimeSecs boot 0 <<< 24)

/-- No server is started once a value was returned, no two backends are inside HASH_ENTER, the lock is
free when it is initialised, and the counter does not come back to its start. -/
def careful (boot : Int) (h : Host n) : Event n → Bool
  | .start _ => h.shmem.isSome || h.returned.isEmpty
  | .stop => true
  | .turn b =>
    match h.backends b with
    | .idle => decide (∀ b', (h.backends b').enters = false)
    | .initialise => h.shmem.all (·.mutexes[h.globalUuidShortMutex b]? == some false)
    | .store uuidShortVal => uuidShortVal + 1 != seed boot
    | _ => true

theorem uuidShortShmemInit_boot (boot uptime : Int) :
    uuidShortShmemInit (boot + uptime) uptime = ⟨none, [], some (seed boot)⟩ := by
  have difference : boot + uptime - uptime = boot - 0 := by omega
  have opposite : uptime - (boot + uptime) = 0 - boot := by omega
  have later : uptime < boot + uptime ↔ 0 < boot := by omega
  simp only [uuidShortShmemInit, seed, svrStartupTimeSecs, difference, opposite, later]

def rank (boot : Int) (v : UInt64) : Nat := (v - seed boot).toNat

theorem rank_succ (ahead : v + 1 ≠ seed boot) : rank boot (v + 1) = rank boot v + 1 := by
  have moved : v + 1 - seed boot = v - seed boot + 1 := by
    rw [UInt64.sub_eq_add_neg, UInt64.sub_eq_add_neg, UInt64.add_assoc, UInt64.add_assoc, UInt64.add_comm 1]
  have nonzero : (v + 1 - seed boot).toNat ≠ 0 := by
    intro zero
    apply ahead
    have same : v + 1 - seed boot = 0 := UInt64.toNat_inj.mp zero
    rw [← UInt64.sub_add_cancel (v + 1) (seed boot), same, UInt64.zero_add]
  have small := (v - seed boot).toNat_lt
  rw [moved, UInt64.toNat_add] at nonzero
  rw [rank, rank, moved, UInt64.toNat_add]
  have one : (1 : UInt64).toNat = 1 := rfl
  omega

/-- At most one backend is inside HASH_ENTER, and the bucket is as it found it. -/
structure Entering (mutex : Option Bool) (backends : Fin n → Place) : Prop where
  alone : ∀ b b', (backends b).enters = true → (backends b').enters = true → b' = b
  found : ∀ b element, backends b = .enter element → element = mutex.map fun _ => 0

/-- At most one lock keeps the backends apart, their values lie behind the counter, and one that has
just counted finds it ahead of them all. -/
structure Running (boot : Int) (mutex : Option Bool) (value : UInt64) (backends : Fin n → Place)
    (returned : List UInt64) : Prop where
  entering : Entering mutex backends
  exclusive : Exclusive mutex (Place.holds ∘ backends)
  tickets : Tickets (Place.result ∘ backends) returned
  behind : ∀ r, Taken (Place.result ∘ backends) returned r → rank boot r ≤ rank boot value
  loaded : ∀ b v, backends b = .store v → v = value
  ahead : ∀ b, backends b = .read → ∀ r, Taken (Place.result ∘ backends) returned r → rank boot r < rank boot value

section Steps

variable {mutex mutex' : Option Bool} {backends : Fin n → Place} {returned : List UInt64} {place : Place}

theorem Entering.of_others (outside : place.enters = false)
    (others : ∀ b', b' ≠ b → (backends b').enters = true → Entering mutex' backends) :
    Entering mutex' (update backends b place) := by
  have other {c : Fin n} (inside : (update backends b place c).enters = true) : c ≠ b ∧ (backends c).enters = true := by
    by_cases same : c = b
    · rw [same, update_self, outside] at inside
      cases inside
    · rw [update_of_ne same] at inside
      exact ⟨same, inside⟩
  constructor
  · intro c c' inside inside'
    obtain ⟨apart, inside⟩ := other inside
    exact (others c apart inside).alone c c' inside (other inside').2
  · intro c element stands
    obtain ⟨apart, inside⟩ := other (by rw [stands]; rfl)
    rw [update_of_ne apart] at stands
    exact (others c apart inside).found c element stands

/-- Outside of HASH_ENTER a backend changes the lock but not the bucket. -/
theorem Entering.goto (entering : Entering mutex backends) (outside : place.enters = false)
    (kept : mutex'.map (fun _ => 0) = mutex.map fun _ => 0) : Entering mutex' (update backends b place) := by
  refine .of_others outside fun _ _ _ => ⟨entering.alone, ?_⟩
  rw [kept]
  exact entering.found

theorem Entering.enter (nobody : ∀ b', (backends b').enters = false) :
    Entering mutex (update backends b (.enter (mutex.map fun _ => 0))) := by
  have only {c : Fin n} (inside : (update backends b (.enter (mutex.map fun _ => 0)) c).enters = true) : c = b := by
    by_contra other
    rw [update_of_ne other, nobody c] at inside
    cases inside
  refine ⟨fun c c' inside inside' => (only inside').trans (only inside).symm, fun c element stands => ?_⟩
  have here := only (by rw [stands]; rfl)
  rw [here, update_self] at stands
  exact (Place.enter.inj stands).symm

theorem Running.only (running : Running boot mutex value backends returned) (inside : (backends b).holds = true)
    (also : (backends b').holds = true) : b' = b :=
  running.exclusive.alone b' b also inside

theorem Running.goto (running : Running boot mutex value backends returned)
    (entering : Entering mutex' (update backends b place))
    (exclusive : Exclusive mutex' (update (Place.holds ∘ backends) b place.holds))
    (same : (backends b).result = place.result) (loaded : ∀ v, place = .store v → v = value) (away : place ≠ .read) :
    Running boot mutex' value (update backends b place) returned := by
  have results : Place.result ∘ update backends b place = Place.result ∘ backends := by
    rw [comp_update, ← same]
    exact update_eq_self b (Place.result ∘ backends)
  refine ⟨entering, ?_, ?_, ?_, fun b' v stored => ?_, fun b' reading r taken => ?_⟩
  · rw [comp_update]
    exact exclusive
  · rw [results]
    exact running.tickets
  · rw [results]
    exact running.behind
  · by_cases here : place = .store v
    · exact loaded v here
    · exact running.loaded b' v (of_update stored here).2
  · rw [results] at taken
    exact running.ahead b' (of_update reading away).2 r taken

/-- `uuidShort->uuidShortVal += 1`, the second half. -/
theorem Running.store (running : Running boot mutex value backends returned) (stored : backends b = .store v)
    (next : v + 1 ≠ seed boot) : Running boot mutex (v + 1) (update backends b .read) returned := by
  have current := running.loaded b v stored
  subst current
  have inside : (backends b).holds = true := by rw [stored]; rfl
  have same : Place.result .read = (Place.result ∘ backends) b := by rw [comp_apply, stored]; rfl
  have results : Place.result ∘ update backends b .read = Place.result ∘ backends := by
    rw [comp_update, same, update_eq_self]
  have larger (r : UInt64) (taken : Taken (Place.result ∘ backends) returned r) : rank boot r < rank boot (v + 1) := by
    have upTo := running.behind r taken
    rw [rank_succ next]
    omega
  refine ⟨running.entering.goto rfl rfl, ?_, ?_, fun r taken => ?_, fun b' v' other => ?_, fun b' _ r taken => ?_⟩
  · rw [comp_update]
    exact running.exclusive.stay inside
  · rw [results]
    exact running.tickets
  · rw [results] at taken
    exact Nat.le_of_lt (larger r taken)
  · obtain ⟨different, also⟩ := of_update other (by simp)
    exact absurd (running.only inside (by rw [also]; rfl)) different
  · rw [results] at taken
    exact larger r taken

/-- `getRet = uuidShort->uuidShortVal`. -/
theorem Running.read (running : Running boot mutex value backends returned) (reading : backends b = .read) :
    Running boot mutex value (update backends b (.release value)) returned := by
  have inside : (backends b).holds = true := by rw [reading]; rfl
  have fresh : ¬ Taken (Place.result ∘ backends) returned value := by
    intro taken
    exact Nat.lt_irrefl _ (running.ahead b reading value taken)
  refine ⟨running.entering.goto rfl rfl, ?_, ?_, fun r taken => ?_, fun b' v stored => ?_, fun b' also r taken => ?_⟩
  · rw [comp_update]
    exact running.exclusive.stay inside
  · rw [comp_update]
    exact running.tickets.issue fresh
  · rw [comp_update] at taken
    rcases taken.of_issue with before | isNew
    · exact running.behind r before
    · exact isNew ▸ Nat.le_refl _
  · exact running.loaded b' v (of_update stored (by simp)).2
  · obtain ⟨different, also⟩ := of_update also (by simp)
    exact absurd (running.only inside (by rw [also]; rfl)) different

theorem Running.leave (running : Running boot mutex value backends returned) (leaving : backends b = .leave r) :
    Running boot mutex value (update backends b .idle) (r :: returned) := by
  have has : (Place.result ∘ backends) b = some r := by rw [comp_apply, leaving]; rfl
  refine ⟨running.entering.goto rfl rfl, ?_, ?_, fun r' taken => ?_, fun b' v stored => ?_,
    fun b' reading r' taken => ?_⟩
  · rw [comp_update]
    refine running.exclusive.stay ?_
    rw [comp_apply, leaving]
    rfl
  · rw [comp_update]
    exact running.tickets.hand has
  · rw [comp_update] at taken
    exact running.behind r' (taken.of_hand has)
  · exact running.loaded b' v (of_update stored (by simp)).2
  · rw [comp_update] at taken
    exact running.ahead b' (of_update reading (by simp)).2 r' (taken.of_hand has)

end Steps

/-- The tables when there is at most one lock. -/
def Shmem.of (mutex : Option Bool) (value : UInt64) : Shmem := ⟨mutex.map fun _ => 0, mutex.toList, some value⟩

inductive Host.Proper (boot : Int) : Host n → Prop
  | stopped {returned : List UInt64} : returned.Nodup → Proper boot ⟨none, fun _ => .idle, fun _ => 0, returned⟩
  | running {mutex : Option Bool} {value : UInt64} {backends : Fin n → Place} {returned : List UInt64} :
      Running boot mutex value backends returned → Proper boot ⟨some (.of mutex value), backends, fun _ => 0, returned⟩

theorem Host.Proper.nodup {h : Host n} (proper : h.Proper boot) : h.returned.Nodup := by
  cases proper with
  | stopped distinct => exact distinct
  | running running => exact running.tickets.distinct

theorem running_new (boot : Int) : Running boot none (seed boot) (fun _ : Fin n => .idle) [] := by
  have nothing (r : UInt64) : ¬ Taken (Place.result ∘ fun _ : Fin n => Place.idle) [] r := by
    rintro (given | ⟨_, has⟩)
    · cases given
    · cases has
  refine ⟨⟨fun _ _ inside => ?_, fun _ _ stands => ?_⟩, .nobody (fun _ => rfl) none,
    ⟨List.nodup_nil, fun _ _ has => ?_, fun _ _ _ has => ?_⟩, fun r taken => ?_, fun _ _ stored => ?_,
      fun _ reading => ?_⟩
  · cases inside
  · cases stands
  · cases has
  · cases has
  · exact absurd taken (nothing r)
  · cases stored
  · cases reading

theorem Running.access {mutex : Option Bool} {backends : Fin n → Place} {returned : List UInt64}
    (running : Running boot mutex value backends returned)
    (good : careful boot ⟨some (.of mutex value), backends, fun _ => 0, returned⟩ (.turn b) = true) :
    (Host.access ⟨some (.of mutex value), backends, fun _ => 0, returned⟩ (.of mutex value) b).Proper boot := by
  have pointer : update (fun _ : Fin n => 0) b 0 = fun _ => 0 := update_eq_self b fun _ : Fin n => 0
  have stays {place : Place} (stands : backends b = place) {inside : Bool} (same : place.holds = inside) :
      (Place.holds ∘ backends) b = inside := by
    rw [comp_apply, stands, same]
  unfold careful at good
  unfold Host.access
  dsimp only at good ⊢
  cases stands : backends b with
  | idle =>
    rw [stands] at good
    exact .running (running.goto (.enter (of_decide_eq_true good)) (running.exclusive.stay (stays stands rfl))
      (by rw [stands]; rfl) (by simp) (by simp))
  | enter element =>
    have inside : (backends b).enters = true := by rw [stands]; rfl
    cases running.entering.found b element stands
    cases mutex with
    | none =>
      have single : Entering (some false) (update backends b .initialise) :=
        .of_others rfl fun c other also => absurd (running.entering.alone b c inside also) other
      simp only [Shmem.of, Option.toList_none, List.length_nil, pointer]
      exact .running (running.goto single (running.exclusive.outside (by decide) _) (by rw [stands]; rfl) (by simp)
        (by decide))
    | some held =>
      simp only [Option.map_some, pointer]
      exact .running (running.goto (running.entering.goto rfl rfl) (running.exclusive.stay (stays stands rfl))
        (by rw [stands]; rfl) (by simp) (by decide))
  | initialise =>
    rw [stands] at good
    rcases mutex with _ | _ | _
    · cases good
    · exact .running (running.goto (running.entering.goto rfl rfl) (running.exclusive.outside (by decide) _)
        (by rw [stands]; rfl) (by simp) (by decide))
    · cases good
  | acquire =>
    rcases mutex with _ | _ | _
    · exact .running running
    · exact @Host.Proper.running n boot (some true) _ _ _ (running.goto (running.entering.goto rfl rfl)
        running.exclusive.acquire (by rw [stands]; rfl) (by simp) (by decide))
    · exact .running running
  | search =>
    exact .running (running.goto (running.entering.goto rfl rfl) (running.exclusive.stay (stays stands rfl))
      (by rw [stands]; rfl) (by simp) (by decide))
  | load =>
    refine .running (running.goto (running.entering.goto rfl rfl) (running.exclusive.stay (stays stands rfl))
      (by rw [stands]; rfl) (fun v stored => ?_) (by simp))
    cases stored
    rfl
  | store v =>
    rw [stands] at good
    exact .running (running.store stands (bne_iff_ne.mp good))
  | read => exact .running (running.read stands)
  | release r =>
    cases running.exclusive.held b (stays stands rfl)
    exact @Host.Proper.running n boot (some false) _ _ _ (running.goto (running.entering.goto rfl rfl)
      (running.exclusive.release (stays stands rfl) _) (by rw [stands]; rfl) (by simp) (by simp))
  | failing =>
    cases running.exclusive.held b (stays stands rfl)
    exact @Host.Proper.running n boot (some false) _ _ _ (running.goto (running.entering.goto rfl rfl)
      (running.exclusive.release (stays stands rfl) _) (by rw [stands]; rfl) (by simp) (by decide))
  | leave r => exact .running (running.leave stands)

theorem Host.Proper.step {h : Host n} (proper : h.Proper boot) {event : Event n}
    (good : careful boot h event = true) : (UuidShort.step boot h event).1.Proper boot := by
  cases event with
  | start uptime =>
    cases proper with
    | running running => exact .running running
    | @stopped returned distinct =>
      have none : returned = [] := by simpa [careful] using good
      subst none
      cases uptime with
      | none => exact .stopped distinct
      | some uptime =>
        have started : (UuidShort.step boot (.booted : Host n) (.start (some uptime))).1 =
            ⟨some (.of none (seed boot)), fun _ => .idle, fun _ => 0, []⟩ := by
          simp only [UuidShort.step, uuidShortShmemInit_boot]
          rfl
        exact started ▸ .running (running_new boot)
  | stop => exact .stopped proper.nodup
  | turn b =>
    cases proper with
    | stopped distinct => exact .stopped distinct
    | running running => exact running.access good

/-- As long as the run is careful, no value is returned twice. -/
theorem uuid_short_unique (n : Nat) (boot : Int) (events : List (Event n))
    (run : Along (step boot) (fun h event => careful boot h event = true) .booted events) :
    (exec (step boot) .booted events).returned.Nodup := by
  have proper : (exec (step boot) .booted events).Proper boot :=
    run.invariant (fun _ _ proper good => Host.Proper.step proper good) (.stopped List.nodup_nil)
  exact proper.nodup

/-- The turns of a backend from the call to the return, when the lock is there. -/
def call (b : Fin 2) : List (Event 2) := List.replicate 9 (.turn b)

/-- The first call by one backend, and a second one that waits for the lock. -/
def contended : List (Event 2) :=
  [.start (some 5), .turn 0, .turn 0, .turn 0, .turn 0, .turn 1, .turn 1, .turn 1, .turn 0, .turn 1] ++
    List.replicate 5 (.turn 0) ++ call 1

theorem uuid_short_unique_contended :
    (exec (step 1700000000) .booted contended).returned = [seed 1700000000 + 2, seed 1700000000 + 1] ∧
      (exec (step 1700000000) .booted contended).returned.Nodup :=
  ⟨by decide +kernel, uuid_short_unique 2 1700000000 contended (by decide +kernel)⟩

def restarted : List (Event 2) :=
  [.start (some 5), .turn 0] ++ call 0 ++ [.stop, .start (some 9), .turn 0] ++ call 0

/-- One backend has made the entry of the lock, another takes it, and then the first initialises it. -/
def raced : List (Event 2) :=
  [.start (some 5), .turn 0, .turn 0, .turn 1, .turn 1, .turn 1, .turn 0, .turn 0, .turn 0, .turn 1, .turn 0,
    .turn 1] ++ List.replicate 4 (.turn 0) ++ List.replicate 4 (.turn 1)

/-- The first call: both backends find no entry, and each makes its own lock. -/
def doubled : List (Event 2) := .start (some 5) :: (List.replicate 10 [.turn 0, .turn 1]).flatten

/-- A second server starts from the same seed, and nothing protects the making of the lock. -/
theorem uuid_short_repeats :
    (exec (step 1700000000) .booted restarted).returned = [seed 1700000000 + 1, seed 1700000000 + 1] ∧
      (exec (step 1700000000) .booted raced).returned = [seed 1700000000 + 1, seed 1700000000 + 1] ∧
      ¬(exec (step 1700000000) .booted doubled).returned.Nodup := by
  decide +kernel

end OpenHalo.UuidShort
