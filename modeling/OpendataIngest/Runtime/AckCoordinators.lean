import OpendataIngest.Lib.Routing
import OpendataIngest.Runtime.AckCoordinatorRuns
import Mathlib.Algebra.BigOperators.Group.Finset.Basic
import Mathlib.Data.Finset.Dedup
import Mathlib.Data.List.AList

/-!
# The registry of ack coordinators

`AckCoordinators` of `ack_coordinator.rs`.  The hash map is an association list without
repeated keys; the order of its entries means nothing.  A coordinator is used through
`get_mut`, so a call is for one source and reaches its coordinator if there is one.

A session of a source begins with `register_source` and ends with `take`.
-/

set_option autoImplicit false

namespace OpendataIngest.Runtime

open MachineInt Routing
open AckCoordinator (Call History)

structure AckCoordinators where
  coordinators : AList fun _ : SourceId => AckCoordinator

namespace AckCoordinators

def new : AckCoordinators := ⟨∅⟩

def get (registry : AckCoordinators) (source : SourceId) : Option AckCoordinator :=
  registry.coordinators.lookup source

def registerSource (registry : AckCoordinators) (source : SourceId) (baseline : Option U64) :
    AckCoordinators × RuntimeResult Unit :=
  if source ∈ registry.coordinators then
    (registry, .error (.ack s!"coordinator already registered for source {source}"))
  else (⟨registry.coordinators.insert source (AckCoordinator.new source (baseline.map Fin.val))⟩,
    .ok ())

def take (registry : AckCoordinators) (source : SourceId) :
    AckCoordinators × Option AckCoordinator :=
  (⟨registry.coordinators.erase source⟩, registry.get source)

def frontiers (registry : AckCoordinators) : List (SourceId × Option Nat) :=
  registry.coordinators.entries.map fun entry => (entry.1, entry.2.frontier)

def pendingTotal (registry : AckCoordinators) : Nat :=
  (registry.coordinators.entries.map fun entry => entry.2.pendingCount).sum

/-! ## Calls -/

end AckCoordinators

/-- A call on a coordinator, with its result. -/
def AckCoordinator.perform (c : AckCoordinator) : Call → AckCoordinator × RuntimeResult Unit
  | .registerPending low high => c.registerPending low.val high.val
  | .markCommitted low high => c.markCommitted low.val high.val
  | .advanceFrontier => (c.advanceFrontier, .ok ())

inductive RegistryCall where
  | registerSource (baseline : Option U64)
  | call (call : Call)
  | take

inductive RegistryAnswer where
  | registered (result : RuntimeResult Unit)
  | called (result : Option (RuntimeResult Unit))
  | taken (coordinator : Option AckCoordinator)

namespace AckCoordinators

def apply (registry : AckCoordinators) (source : SourceId) :
    RegistryCall → AckCoordinators × RegistryAnswer
  | .registerSource baseline =>
      let registered := registry.registerSource source baseline
      (registered.1, .registered registered.2)
  | .call call =>
      match registry.get source with
      | none => (registry, .called none)
      | some c =>
          let performed := c.perform call
          (⟨registry.coordinators.insert source performed.1⟩, .called (some performed.2))
  | .take =>
      let taken := registry.take source
      (taken.1, .taken taken.2)

/-- The same call for a registry of this one source. -/
def applyAt (source : SourceId) (coordinator : Option AckCoordinator) :
    RegistryCall → Option AckCoordinator × RegistryAnswer
  | .registerSource baseline =>
      match coordinator with
      | some c => (some c, .registered (.error (.ack
          s!"coordinator already registered for source {source}")))
      | none => (some (AckCoordinator.new source (baseline.map Fin.val)), .registered (.ok ()))
  | .call call =>
      match coordinator with
      | none => (none, .called none)
      | some c => (some (c.perform call).1, .called (some (c.perform call).2))
  | .take => (none, .taken coordinator)

/-! ## Isolation -/

theorem get_eq_none {registry : AckCoordinators} {source : SourceId} :
    registry.get source = none ↔ source ∉ registry.coordinators := AList.lookup_eq_none

theorem apply_stepped (registry : AckCoordinators) (source : SourceId) (call : RegistryCall) :
    (registry.apply source call).1.get source =
      (applyAt source (registry.get source) call).1 ∧
    (registry.apply source call).2 = (applyAt source (registry.get source) call).2 := by
  cases call with
  | registerSource baseline =>
      simp only [apply, registerSource]
      cases found : registry.get source with
      | none =>
          rw [if_neg (get_eq_none.mp found)]
          exact ⟨AList.lookup_insert _, rfl⟩
      | some c =>
          have member : source ∈ registry.coordinators :=
            AList.lookup_isSome.mp (by simp [get] at found; simp [found])
          rw [if_pos member]
          exact ⟨found, rfl⟩
  | call call =>
      cases found : registry.get source with
      | none =>
          simp only [apply, found]
          exact ⟨rfl, rfl⟩
      | some c =>
          simp only [apply, found]
          exact ⟨AList.lookup_insert _, rfl⟩
  | take => exact ⟨AList.lookup_erase _ _, rfl⟩

theorem apply_untouched (registry : AckCoordinators) (source : SourceId) (call : RegistryCall)
    (other : SourceId) (differs : other ≠ source) :
    (registry.apply source call).1.get other = registry.get other := by
  cases call with
  | registerSource baseline =>
      simp only [apply, registerSource]
      split_ifs
      · rfl
      · exact AList.lookup_insert_ne differs
  | call call =>
      cases found : registry.get source with
      | none => simp only [apply, found]
      | some c =>
          simp only [apply, found]
          exact AList.lookup_insert_ne differs
  | take => exact AList.lookup_erase_ne differs

/-- The registry as a store of one coordinator for each source. -/
def routed :
    Routed AckCoordinators SourceId (Option AckCoordinator) RegistryCall RegistryAnswer where
  look := get
  step := apply
  stepAt := applyAt
  stepped registry source call := (apply_stepped registry source call).1
  answered registry source call := (apply_stepped registry source call).2
  untouched := apply_untouched

end AckCoordinators

/-! ## Sessions -/

/-- The baseline a source was registered with, and the calls on it since. -/
structure Session where
  baseline : Option U64
  calls : List Call

namespace Session

def apply (session : Option Session) : RegistryCall → Option Session
  | .registerSource baseline => session <|> some ⟨baseline, []⟩
  | .call call => session.map fun s => { s with calls := s.calls ++ [call] }
  | .take => none

/-- The session that the calls for a source leave open. -/
def current (calls : List RegistryCall) : Option Session := calls.foldl apply none

def history (source : SourceId) (session : Session) : History :=
  History.run source session.baseline session.calls

def coordinator (source : SourceId) (session : Session) : AckCoordinator :=
  (session.history source).coordinator

end Session

theorem coordinator_apply (h : History) (call : Call) :
    (h.apply call).coordinator = (h.coordinator.perform call).1 := by
  cases call with
  | registerPending low high =>
      simp only [History.apply, AckCoordinator.perform]
      split
      all_goals rename_i registered
      all_goals rw [registered]
  | markCommitted low high =>
      simp only [History.apply, AckCoordinator.perform]
      split
      all_goals rename_i marked
      all_goals rw [marked]
  | advanceFrontier => rfl

namespace AckCoordinators

/-- A call moves the coordinator of a session along with the session. -/
theorem applyAt_session (source : SourceId) (session : Option Session) (call : RegistryCall) :
    (applyAt source (session.map (Session.coordinator source)) call).1 =
      (Session.apply session call).map (Session.coordinator source) := by
  cases call with
  | registerSource baseline =>
      cases session with
      | none => rfl
      | some s => rfl
  | take => rfl
  | call call =>
      cases session with
      | none => rfl
      | some s =>
          have moved : (History.run source s.baseline (s.calls ++ [call])).coordinator =
              ((History.run source s.baseline s.calls).coordinator.perform call).1 := by
            rw [History.run, List.foldl_append]
            exact coordinator_apply _ call
          exact congrArg some moved.symm

theorem runAt_session (source : SourceId) (calls : List RegistryCall) (session : Option Session) :
    (routed.runAt source (session.map (Session.coordinator source)) calls).1 =
      (calls.foldl Session.apply session).map (Session.coordinator source) := by
  induction calls generalizing session with
  | nil => rfl
  | cons call rest ih =>
      have moved := applyAt_session source session call
      have later := ih (Session.apply session call)
      rw [← moved] at later
      exact later

/-- Each source's coordinator is what its own session makes of it. -/
theorem get_run (calls : List (SourceId × RegistryCall)) (source : SourceId) :
    (routed.run new calls).1.get source =
      (Session.current (own source calls)).map (Session.coordinator source) :=
  (routed.run_own source calls new).1.trans (runAt_session source (own source calls) none)

/-! ## What the registry reports -/

/-- The session a run of calls leaves open for the source. -/
def sessionOf (calls : List (SourceId × RegistryCall)) (source : SourceId) : Option Session :=
  Session.current (own source calls)

/-- The ranges of a source that are registered and not behind its frontier yet. -/
def pendingOf (calls : List (SourceId × RegistryCall)) (source : SourceId) : Nat :=
  match sessionOf calls source with
  | none => 0
  | some session => (session.coordinator source).pendingCount

theorem mem_entries {registry : AckCoordinators} {source : SourceId} {c : AckCoordinator} :
    ⟨source, c⟩ ∈ registry.coordinators.entries ↔ registry.get source = some c :=
  AList.mem_lookup_iff.symm

theorem pendingTotal_run (calls : List (SourceId × RegistryCall)) :
    (routed.run new calls).1.pendingTotal =
      ∑ source ∈ (calls.map Prod.fst).toFinset, pendingOf calls source := by
  have keys := (routed.run new calls).1.coordinators.keys_nodup
  have each : ∀ entry ∈ (routed.run new calls).1.coordinators.entries,
      entry.2.pendingCount = pendingOf calls entry.1 := by
    intro entry member
    have found := get_run calls entry.1
    rw [mem_entries.mp member] at found
    obtain ⟨session, current, isCoordinator⟩ := Option.map_eq_some_iff.mp found.symm
    rw [pendingOf, sessionOf, current, ← isCoordinator]
  have total : (routed.run new calls).1.pendingTotal =
      ∑ source ∈ (routed.run new calls).1.coordinators.keys.toFinset, pendingOf calls source := by
    rw [pendingTotal, List.map_congr_left each, List.sum_toFinset _ keys]
    rw [AList.keys, List.keys, List.map_map]
    rfl
  rw [total]
  refine Finset.sum_subset ?_ ?_
  · intro source registered
    rw [List.mem_toFinset] at registered ⊢
    by_contra silent
    have found := get_run calls source
    rw [own_eq_nil silent] at found
    exact get_eq_none.mp found (AList.mem_keys.mpr registered)
  · intro source _ unregistered
    have found := get_run calls source
    rw [List.mem_toFinset] at unregistered
    rw [get_eq_none.mpr fun member => unregistered (AList.mem_keys.mp member)] at found
    rw [pendingOf, sessionOf, Option.map_eq_none_iff.mp found.symm]

theorem mem_frontiers_run {calls : List (SourceId × RegistryCall)} {source : SourceId}
    {frontier : Option Nat} : (source, frontier) ∈ (routed.run new calls).1.frontiers ↔
      ∃ session, sessionOf calls source = some session ∧
        (session.coordinator source).frontier = frontier := by
  have found := get_run calls source
  constructor
  · intro member
    obtain ⟨entry, inRegistry, same⟩ := List.mem_map.mp member
    cases same
    rw [mem_entries.mp inRegistry] at found
    obtain ⟨session, current, isCoordinator⟩ := Option.map_eq_some_iff.mp found.symm
    exact ⟨session, current, by rw [isCoordinator]⟩
  · rintro ⟨session, current, rfl⟩
    rw [sessionOf] at current
    rw [current] at found
    exact List.mem_map.mpr ⟨_, mem_entries.mpr found, rfl⟩

/-- Sources do not see each other: whatever the order of the calls, a source has the
coordinator, the answers, the frontier and the pending ranges of its own session. -/
theorem registry_isolates_sources (calls : List (SourceId × RegistryCall)) :
    (∀ source,
      (routed.run new calls).1.get source =
        (sessionOf calls source).map (Session.coordinator source) ∧
      own source (routed.run new calls).2 = (routed.runAt source none (own source calls)).2) ∧
    ((routed.run new calls).1.frontiers.map Prod.fst).Nodup ∧
    (∀ source frontier, (source, frontier) ∈ (routed.run new calls).1.frontiers ↔
      ∃ session, sessionOf calls source = some session ∧
        (session.coordinator source).frontier = frontier) ∧
    (∀ source f, (source, some f) ∈ (routed.run new calls).1.frontiers →
      ∃ session, sessionOf calls source = some session ∧
        ∀ range ∈ (session.history source).registered, range.1 ≤ f →
          range ∈ (session.history source).committed) ∧
    (routed.run new calls).1.pendingTotal =
      ∑ source ∈ (calls.map Prod.fst).toFinset, pendingOf calls source := by
  refine ⟨fun source => ⟨get_run calls source, (routed.run_own source calls new).2⟩, ?_,
    fun source frontier => mem_frontiers_run, fun source f member => ?_, pendingTotal_run calls⟩
  · have keys := (routed.run new calls).1.coordinators.keys_nodup
    rw [AList.keys, List.keys] at keys
    rw [frontiers, List.map_map]
    exact keys
  · obtain ⟨session, current, isFrontier⟩ := mem_frontiers_run.mp member
    refine ⟨session, current, ?_⟩
    exact (AckCoordinator.History.coherent_run source session.baseline
      session.calls).committed_below_frontier f isFrontier

end AckCoordinators

end OpendataIngest.Runtime
