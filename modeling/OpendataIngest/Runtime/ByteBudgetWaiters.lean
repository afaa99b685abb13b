import OpendataIngest.Runtime.ByteBudgetConservation

/-!
# When a parked `reserve` may stay parked

A `reserve` parks because its bytes do not fit or because its compare-exchange
lost a race.  The first kind is woken by whoever makes room: every operation that
lowers `in_flight` owes a `notify_waiters` until it has called it.  The second kind
is not: a claim or a growth changes `in_flight` and notifies nobody, so a waiter
that was armed before it and loses the exchange sleeps although its bytes fit.

The runs considered here do not wrap `in_flight`.  A race is `harmless` when the
loser's bytes no longer fit, or when somebody still owes a notification.
-/

set_option autoImplicit false

namespace OpendataIngest.Runtime.AtomicBudget

open MachineInt

variable {T : Type} [DecidableEq T]

/-- The agent has lowered `in_flight` and has yet to call `notify_waiters`. -/
def Agent.owesNotify : Agent T → Bool
  | .owned r (.reconcileStage _ actual) => decide (actual < r.held)
  | .owned _ .reconcileNotify => true
  | .owned _ .dropNotify => true
  | _ => false

/-- The operation is over: it has returned, or its reservation is held and at rest. -/
def Agent.Done : Agent T → Prop
  | .owned _ .idle => True
  | .finished => True
  | _ => False

/-- A growing `reconcile` does not take `in_flight` past 64 bits. -/
def growsInWord (s : State T) : Action T → Bool
  | .advance i =>
      match s.agents[i]? with
      | some (.owned r (.reconcileBudget actual)) =>
          decide (s.counters.inFlight + (actual - r.held) < 2 ^ 64)
      | _ => true
  | _ => true

/-- A `reserve` whose waiter has not been notified does not lose its exchange while its
bytes fit and nobody owes a notification. -/
def raceIsHarmless (s : State T) : Action T → Bool
  | .advance i =>
      match s.agents[i]? with
      | some (.reserving bytes (.exchange false current)) =>
          decide (s.counters.inFlight = current) ||
            decide (s.capacity < s.counters.inFlight + bytes) ||
            s.agents.any Agent.owesNotify
      | _ => true
  | _ => true

def unwrappedMachine (T : Type) [DecidableEq T] (capacity : U64) :
    Machine (State T) (Action T) :=
  (machine T capacity).restrict growsInWord

def harmlessMachine (T : Type) [DecidableEq T] (capacity : U64) :
    Machine (State T) (Action T) :=
  (unwrappedMachine T capacity).restrict raceIsHarmless

/-- Whoever is parked without a notification has no room, or is about to be notified. -/
def ParkedForRoom (s : State T) : Prop :=
  ∀ bytes, Agent.reserving bytes (.parked false) ∈ s.agents →
    s.capacity < s.counters.inFlight + bytes ∨ ∃ a ∈ s.agents, a.owesNotify = true

/-- The capacity test of a `reserve` that is about to exchange. -/
def Agent.Tested (capacity : Nat) : Agent T → Prop
  | .reserving bytes (.exchange _ current) => current + bytes ≤ capacity
  | _ => True

structure Watched (capacity : Nat) (s : State T) : Prop where
  capacity_eq : s.capacity = capacity
  tested : ∀ a ∈ s.agents, a.Tested s.capacity
  parked : ParkedForRoom s

/-! ## What one agent's step does -/

/-- A step that lowers `in_flight` incurs a debt, and a debt is paid by notifying. -/
structure PaysDebts (capacity : Nat) (k k' : Counters T) (a a' : Agent T) (notifies : Bool) :
    Prop where
  incurred : k.inFlight ≤ k'.inFlight ∨ a'.owesNotify = true
  paid : a.owesNotify = true → a'.owesNotify = true ∨ notifies = true
  tested : a'.Tested capacity

omit [DecidableEq T] in
/-- An agent that owes nothing has nothing to pay. -/
theorem PaysDebts.quiet {capacity : Nat} {k k' : Counters T} {a a' : Agent T} {notifies : Bool}
    (owes : a.owesNotify = false) (incurred : k.inFlight ≤ k'.inFlight ∨ a'.owesNotify = true)
    (tested : a'.Tested capacity) : PaysDebts capacity k k' a a' notifies := by
  refine ⟨incurred, fun debt => ?_, tested⟩
  rw [owes] at debt
  cases debt

omit [DecidableEq T] in
theorem advanceReserve_paysDebts {capacity : Nat} {k k' : Counters T} {bytes : Nat}
    {point : ReservePoint} {a' : Agent T} (below : capacity < u64Max)
    (tested : (Agent.reserving bytes point : Agent T).Tested capacity)
    (moved : advanceReserve capacity k bytes point = some (a', k')) :
    PaysDebts capacity k k' (.reserving bytes point) a' false := by
  cases reserveStep_of_advanceReserve moved with
  | reads notified fits =>
      exact .quiet rfl (Or.inl (Nat.le_refl _)) ((saturatingAdd_le_iff _ _ _ below).mp fits)
  | exchanges notified =>
      have room : k.inFlight + bytes ≤ capacity := tested
      have sum : wrappingAdd k.inFlight bytes = k.inFlight + bytes :=
        Nat.mod_eq_of_lt (by unfold u64Max at below; omega)
      refine .quiet rfl (Or.inl ?_) trivial
      simp only [sum]
      omega
  | empty | arms | full | loses | wakes =>
      exact .quiet rfl (Or.inl (Nat.le_refl _)) trivial

omit [DecidableEq T] in
theorem advanceTry_paysDebts {capacity : Nat} {k : Counters T} {bytes : Nat} {point : TryPoint}
    (wellFormed : (Agent.trying bytes point : Agent T).WellFormed) :
    PaysDebts capacity k (advanceTry capacity k bytes point).2 (.trying bytes point)
      (advanceTry capacity k bytes point).1 false := by
  generalize outcome : advanceTry capacity k bytes point = moved
  obtain ⟨next, cells⟩ := moved
  cases tryStep_of_advanceTry outcome with
  | exchanges next =>
      obtain ⟨sum, _⟩ := wellFormed
      refine .quiet rfl (Or.inl ?_) trivial
      simp only
      omega
  | empty | refused | reads | loses => exact .quiet rfl (Or.inl (Nat.le_refl _)) trivial

omit [DecidableEq T] in
theorem finishReconcile_tested (capacity : Nat) (r : ByteReservation T) (actual : Nat) :
    (finishReconcile r actual).Tested capacity := by
  simp only [finishReconcile]
  split
  all_goals trivial

omit [DecidableEq T] in
theorem finishReconcile_owesNotify (r : ByteReservation T) (actual : Nat)
    (shrinks : actual < r.held) : (finishReconcile r actual).owesNotify = true := by
  simp [finishReconcile, shrinks, Agent.owesNotify]

theorem advanceOwned_paysDebts {capacity : Nat} {k k' : Counters T} {r : ByteReservation T}
    {operation : Operation T} {a' : Agent T} {notifies : Bool}
    (inWord : ∀ actual, operation = .reconcileBudget actual →
      k.inFlight + (actual - r.held) < 2 ^ 64)
    (moved : advanceOwned k r operation = some (a', k', notifies)) :
    PaysDebts capacity k k' (.owned r operation) a' notifies := by
  cases operation with
  | idle => cases moved
  | detach previous next =>
      cases moved
      exact .quiet rfl (Or.inl (Nat.le_refl _)) trivial
  | attach next =>
      cases moved
      exact .quiet rfl (Or.inl (Nat.le_refl _)) trivial
  | reconcileBudget actual =>
      have fits := inWord actual rfl
      simp only [advanceOwned] at moved
      by_cases shrinks : actual < r.held
      · cases attached : r.stage with
        | none =>
            rw [attached] at moved
            cases moved
            exact .quiet rfl (Or.inr (finishReconcile_owesNotify r actual shrinks))
              (finishReconcile_tested capacity r actual)
        | some stage =>
            rw [attached] at moved
            cases moved
            exact .quiet rfl (Or.inr (by simp [Agent.owesNotify, shrinks])) trivial
      · have grown : k.inFlight ≤ (k.addInFlight (actual - r.held)).inFlight := by
          have sum : (k.addInFlight (actual - r.held)).inFlight =
              k.inFlight + (actual - r.held) := Nat.mod_eq_of_lt fits
          omega
        rw [if_neg shrinks] at moved
        cases attached : r.stage with
        | none =>
            rw [attached] at moved
            cases moved
            exact .quiet rfl (Or.inl grown) (finishReconcile_tested capacity r actual)
        | some stage =>
            rw [attached] at moved
            cases moved
            exact .quiet rfl (Or.inl grown) trivial
  | reconcileStage stage actual =>
      cases moved
      refine ⟨Or.inl ?_, ?_, finishReconcile_tested capacity r actual⟩
      · split
        all_goals exact Nat.le_refl _
      · intro owes
        have shrinks : actual < r.held := of_decide_eq_true owes
        exact Or.inl (finishReconcile_owesNotify r actual shrinks)
  | reconcileNotify =>
      cases moved
      exact ⟨Or.inl (Nat.le_refl _), fun _ => Or.inr rfl, trivial⟩
  | dropStage previous =>
      cases moved
      exact .quiet rfl (Or.inl (Nat.le_refl _)) trivial
  | dropBudget =>
      cases moved
      exact .quiet rfl (Or.inr rfl) trivial
  | dropNotify =>
      cases moved
      exact ⟨Or.inl (Nat.le_refl _), fun _ => Or.inr rfl, trivial⟩

/-- An operation on a reservation never turns into a `reserve` call. -/
theorem advanceOwned_reservation {k k' : Counters T} {r : ByteReservation T}
    {operation : Operation T} {a' : Agent T} {notifies : Bool}
    (moved : advanceOwned k r operation = some (a', k', notifies)) (bytes : Nat)
    (point : ReservePoint) : a' ≠ .reserving bytes point := by
  cases operation with
  | idle => cases moved
  | reconcileBudget actual =>
      simp only [advanceOwned] at moved
      split at moved
      all_goals
        cases moved
        intro same
        cases same
  | _ =>
      cases moved
      intro same
      cases same

/-- A `reserve` parks without a notification for one of two reasons. -/
theorem advanceAgent_parks {capacity : Nat} {k k' : Counters T} {a : Agent T} {bytes : Nat}
    {notifies : Bool}
    (moved : advanceAgent capacity k a = some (.reserving bytes (.parked false), k', notifies)) :
    k' = k ∧ (capacity < k.inFlight + bytes ∨
      ∃ current, a = .reserving bytes (.exchange false current) ∧ k.inFlight ≠ current) := by
  cases a with
  | reserving requested point =>
      obtain ⟨⟨next, cells⟩, reserved, same⟩ := Option.map_eq_some_iff.mp moved
      cases same
      cases reserveStep_of_advanceReserve reserved with
      | full notified noRoom =>
          refine ⟨rfl, Or.inl ?_⟩
          simp only [saturatingAdd] at noRoom
          omega
      | loses notified current lost => exact ⟨rfl, Or.inr ⟨current, rfl, lost⟩⟩
  | trying requested point =>
      obtain ⟨isTry, _⟩ := Prod.mk.inj (Option.some.inj moved)
      cases tryStep_of_advanceTry (Prod.ext isTry rfl)
  | owned r operation =>
      have stays := advanceOwned_reservation moved
      exact absurd rfl (stays bytes (.parked false))
  | finished => cases moved

/-! ## The invariant -/

omit [DecidableEq T] in
theorem mem_set_or_eq {agents : List (Agent T)} {i : Nat} {a b : Agent T} (a' : Agent T)
    (present : agents[i]? = some a) (member : b ∈ agents) : b ∈ agents.set i a' ∨ b = a := by
  obtain ⟨j, at_j⟩ := List.mem_iff_getElem?.mp member
  by_cases same : i = j
  · right
    rw [same, at_j] at present
    exact Option.some.inj present
  · left
    refine List.mem_iff_getElem?.mpr ⟨j, ?_⟩
    rw [List.getElem?_set_ne same]
    exact at_j

omit [DecidableEq T] in
theorem replaced_mem_set {agents : List (Agent T)} {i : Nat} {a a' : Agent T}
    (present : agents[i]? = some a) : a' ∈ agents.set i a' := by
  have bound : i < agents.length := (List.getElem?_eq_some_iff.mp present).1
  refine List.mem_iff_getElem?.mpr ⟨i, ?_⟩
  simp [bound]

omit [DecidableEq T] in
theorem tested_set {capacity : Nat} {agents : List (Agent T)} {i : Nat} {a' : Agent T}
    (tested : ∀ a ∈ agents, a.Tested capacity) (new : a'.Tested capacity) :
    ∀ a ∈ agents.set i a', a.Tested capacity := by
  intro b member
  rcases List.mem_or_eq_of_mem_set member with old | same
  · exact tested b old
  · rw [same]
    exact new

omit [DecidableEq T] in
/-- One agent replaced by a step that notifies nobody. -/
theorem Watched.replace {capacity : Nat} {s : State T} (watched : Watched capacity s) {i : Nat}
    {a a' : Agent T} {k' : Counters T} (present : s.agents[i]? = some a)
    (pays : PaysDebts s.capacity s.counters k' a a' false)
    (parks : ∀ bytes, a' = .reserving bytes (.parked false) →
      s.capacity < k'.inFlight + bytes ∨ ∃ b ∈ s.agents.set i a', b.owesNotify = true) :
    Watched capacity ⟨s.capacity, k', s.agents.set i a'⟩ := by
  refine ⟨watched.capacity_eq, tested_set watched.tested pays.tested, ?_⟩
  intro bytes member
  rcases List.mem_or_eq_of_mem_set member with old | new
  · rcases watched.parked bytes old with full | ⟨debtor, isMember, owes⟩
    · rcases pays.incurred with higher | owes
      · left
        simp only
        omega
      · exact Or.inr ⟨a', replaced_mem_set present, owes⟩
    · rcases mem_set_or_eq a' present isMember with kept | same
      · exact Or.inr ⟨debtor, kept, owes⟩
      · rw [same] at owes
        rcases pays.paid owes with still | notified
        · exact Or.inr ⟨a', replaced_mem_set present, still⟩
        · cases notified
  · exact parks bytes new.symm

omit [DecidableEq T] in
theorem notify_tested {capacity : Nat} {a : Agent T} (tested : a.Tested capacity) :
    a.notify.Tested capacity := by
  cases a with
  | reserving bytes point => cases point <;> exact tested
  | trying bytes point => trivial
  | owned r operation => trivial
  | finished => trivial

omit [DecidableEq T] in
theorem notify_not_parked (a : Agent T) (bytes : Nat) :
    a.notify ≠ .reserving bytes (.parked false) := by
  cases a with
  | reserving requested point => cases point <;> nofun
  | trying requested point => nofun
  | owned r operation => nofun
  | finished => nofun

omit [DecidableEq T] in
/-- After a `notify_waiters` nobody is parked without a notification. -/
theorem watched_notified {capacity : Nat} {s : State T} (same : s.capacity = capacity)
    (tested : ∀ a ∈ s.agents, a.Tested s.capacity) :
    Watched capacity { s with agents := s.agents.map Agent.notify } := by
  refine ⟨same, ?_, ?_⟩
  · intro b member
    obtain ⟨a, old, rfl⟩ := List.mem_map.mp member
    exact notify_tested (tested a old)
  · intro bytes member
    obtain ⟨a, _, isParked⟩ := List.mem_map.mp member
    exact absurd isParked (notify_not_parked a bytes)

omit [DecidableEq T] in
theorem Watched.spawn {capacity : Nat} {s : State T} (watched : Watched capacity s) (a : Agent T)
    (tested : a.Tested s.capacity) (runs : ∀ bytes, a ≠ .reserving bytes (.parked false)) :
    Watched capacity { s with agents := s.agents ++ [a] } := by
  refine ⟨watched.capacity_eq, ?_, ?_⟩
  · intro b member
    rcases List.mem_append.mp member with old | new
    · exact watched.tested b old
    · rw [List.mem_singleton.mp new]
      exact tested
  · intro bytes member
    rcases List.mem_append.mp member with old | new
    · rcases watched.parked bytes old with full | ⟨debtor, isMember, owes⟩
      · exact Or.inl full
      · exact Or.inr ⟨debtor, List.mem_append_left _ isMember, owes⟩
    · exact absurd (List.mem_singleton.mp new).symm (runs bytes)

omit [DecidableEq T] in
/-- An agent that owes nothing is replaced by one that is not a `reserve` call. -/
theorem Watched.replace_quiet {capacity : Nat} {s : State T} (watched : Watched capacity s)
    {i : Nat} {a a' : Agent T} (present : s.agents[i]? = some a) (owes : a.owesNotify = false)
    (other : ∀ bytes point, a' ≠ .reserving bytes point) :
    Watched capacity (s.replace i a') := by
  have tested : a'.Tested s.capacity := by
    cases a' with
    | reserving bytes point => exact absurd rfl (other bytes point)
    | trying bytes point => trivial
    | owned r operation => trivial
    | finished => trivial
  exact watched.replace present (.quiet owes (Or.inl (Nat.le_refl _)) tested)
    fun bytes parked => absurd parked (other bytes _)

theorem advance_watched {capacity : Nat} {s s' : State T} {i : Nat} (below : capacity < u64Max)
    (accounted : Accounted s) (watched : Watched capacity s)
    (inWord : growsInWord s (.advance i) = true) (harmless : raceIsHarmless s (.advance i) = true)
    (taken : step s (.advance i) = some s') : Watched capacity s' := by
  have belowHere : s.capacity < u64Max := by
    rw [watched.capacity_eq]
    exact below
  simp only [step] at taken
  split at taken
  case h_1 a present =>
    have member := List.mem_of_getElem? present
    split at taken
    case h_1 next k notifies moved =>
      have pays : PaysDebts s.capacity s.counters k a next notifies := by
        cases a with
        | reserving bytes point =>
            obtain ⟨⟨_, _⟩, reserved, same⟩ := Option.map_eq_some_iff.mp moved
            cases same
            exact advanceReserve_paysDebts belowHere (watched.tested _ member) reserved
        | trying bytes point =>
            cases moved
            exact advanceTry_paysDebts (accounted.wellFormed _ member)
        | owned r operation =>
            refine advanceOwned_paysDebts ?_ moved
            intro actual isReconcile
            rw [isReconcile] at present
            simpa [growsInWord, present] using inWord
        | finished => cases moved
      cases notifies with
      | true =>
          cases taken
          exact watched_notified (s := ⟨s.capacity, k, s.agents.set i next⟩) watched.capacity_eq
            (tested_set watched.tested pays.tested)
      | false =>
          cases taken
          refine watched.replace present pays ?_
          intro bytes parks
          rw [parks] at moved
          obtain ⟨sameCounters, full | ⟨current, isExchange, lost⟩⟩ := advanceAgent_parks moved
          · rw [sameCounters]
            exact Or.inl full
          · rw [isExchange] at present
            simp only [raceIsHarmless, present, Bool.or_eq_true, decide_eq_true_eq] at harmless
            rcases harmless with (won | full) | debts
            · exact absurd won lost
            · rw [sameCounters]
              exact Or.inl full
            · right
              obtain ⟨debtor, isMember, owes⟩ := List.any_eq_true.mp debts
              rcases mem_set_or_eq next present isMember with kept | same
              · exact ⟨debtor, kept, owes⟩
              · rw [same] at owes
                cases owes
    case h_2 => cases taken
  case h_2 => cases taken

theorem step_watched {capacity : Nat} {s s' : State T} {action : Action T}
    (below : capacity < u64Max) (accounted : Accounted s) (watched : Watched capacity s)
    (inWord : growsInWord s action = true) (harmless : raceIsHarmless s action = true)
    (taken : step s action = some s') : Watched capacity s' := by
  cases transition_of_step taken with
  | startsReserve bytes => exact watched.spawn _ trivial nofun
  | startsTry bytes => exact watched.spawn _ trivial nofun
  | cancels bytes point present => exact watched.replace_quiet present rfl nofun
  | attaches r stage present =>
      refine watched.replace_quiet present rfl ?_
      intro bytes point
      unfold beginAttach
      split
      · split <;> nofun
      · nofun
  | reconciles r actual present =>
      refine watched.replace_quiet present rfl ?_
      intro bytes point
      unfold beginReconcile
      split <;> nofun
  | drops r present =>
      refine watched.replace_quiet present rfl ?_
      intro bytes point
      unfold beginDrop
      split
      · split <;> nofun
      · nofun
  | advances present moved => exact advance_watched below accounted watched inWord harmless taken

theorem watched_start (capacity : U64) :
    Watched capacity.val (harmlessMachine T capacity).start := by
  refine ⟨rfl, ?_, ?_⟩
  · intro a member
    cases member
  · intro bytes member
    cases member

theorem watched_of_reachable {capacity : U64} {s : State T} (below : capacity.val < u64Max)
    (reachable : (harmlessMachine T capacity).Reachable s) : Watched capacity.val s := by
  refine reachable.invariant (watched_start capacity) ?_
  intro before action after reached watched taken
  obtain ⟨harmless, unwrapped⟩ := Machine.restrict_step.mp taken
  obtain ⟨inWord, moved⟩ := Machine.restrict_step.mp unwrapped
  have accounted := accounted_of_reachable reached.unrestricted.unrestricted
  exact step_watched below accounted watched inWord harmless moved

omit [DecidableEq T] in
theorem Agent.Done.owesNotify_eq {a : Agent T} (done : a.Done) : a.owesNotify = false := by
  cases a with
  | owned r operation => cases operation <;> first | rfl | cases done
  | finished => rfl
  | reserving bytes point => rfl
  | trying bytes point => rfl

/-- In every interleaving whose lost races are harmless, a `reserve` that is parked
without a notification while every other operation is over does not fit. -/
theorem parked_reserve_does_not_fit (capacity : U64) (below : capacity.val < u64Max)
    (actions : List (Action T)) (s : State T)
    (ran : (harmlessMachine T capacity).run actions = some s) (i bytes : Nat)
    (parked : s.agents[i]? = some (.reserving bytes (.parked false)))
    (others : ∀ j a, j ≠ i → s.agents[j]? = some a → a.Done) :
    capacity.val < s.counters.inFlight + bytes := by
  have watched := watched_of_reachable below ((harmlessMachine T capacity).run_reachable _ _ ran)
  rw [← watched.capacity_eq]
  rcases watched.parked bytes (List.mem_of_getElem? parked) with full | ⟨debtor, member, owes⟩
  · exact full
  · obtain ⟨j, at_j⟩ := List.mem_iff_getElem?.mp member
    by_cases same : j = i
    · rw [same, parked] at at_j
      cases at_j
      cases owes
    · rw [(others j debtor same at_j).owesNotify_eq] at owes
      cases owes

/-- A `reserve` of 3 bytes parked behind a claim of 8 in a budget of 10. -/
theorem parked_reserve_does_not_fit_behind_a_claim :
    ∃ s, (harmlessMachine Stage 10).run
        [.startReserve 8, .advance 0, .advance 0, .advance 0, .startReserve 3, .advance 1,
          .advance 1] = some s ∧
      s.agents = [.owned ⟨8, none⟩ .idle, .reserving 3 (.parked false)] ∧
      10 < s.counters.inFlight + 3 := by
  have observed : ((harmlessMachine Stage 10).run
      [.startReserve 8, .advance 0, .advance 0, .advance 0, .startReserve 3, .advance 1,
        .advance 1]).map State.agents =
      some [.owned ⟨8, none⟩ .idle, .reserving 3 (.parked false)] := by
    decide
  obtain ⟨s, ran, agents⟩ := Option.map_eq_some_iff.mp observed
  have others : ∀ j a, j ≠ 1 → s.agents[j]? = some a → a.Done := by
    intro j a different present
    rw [agents] at present
    match j with
    | 0 =>
        cases present
        trivial
    | 1 => exact absurd rfl different
    | j + 2 => cases present
  exact ⟨s, ran, agents, parked_reserve_does_not_fit 10 (by decide) _ s ran 1 3
    (by rw [agents]; rfl) others⟩

/-- A `reserve` of 3 bytes loads 0, a `try_reserve` claims 2 of 10, and the exchange that
then fails parks the `reserve` although its bytes fit. -/
theorem parked_reserve_fits_after_a_lost_race :
    ¬ ∀ (capacity : U64), capacity.val < u64Max → ∀ (actions : List (Action Stage))
      (s : State Stage), (unwrappedMachine Stage capacity).run actions = some s →
      ∀ i bytes : Nat, s.agents[i]? = some (.reserving bytes (.parked false)) →
      (∀ (j : Nat) (a : Agent Stage), j ≠ i → s.agents[j]? = some a → a.Done) →
      capacity.val < s.counters.inFlight + bytes := by
  intro neverFits
  have observed : ((unwrappedMachine Stage 10).run
      [.startReserve 3, .advance 0, .advance 0, .startTryReserve 2, .advance 1, .advance 1,
        .advance 0]).map (fun s => (s.agents, s.counters.inFlight)) =
      some ([.reserving 3 (.parked false), .owned ⟨2, none⟩ .idle], 2) := by
    decide
  obtain ⟨s, ran, seen⟩ := Option.map_eq_some_iff.mp observed
  obtain ⟨agents, inFlight⟩ := Prod.mk.inj seen
  have others : ∀ j a, j ≠ 0 → s.agents[j]? = some a → a.Done := by
    intro j a different present
    rw [agents] at present
    match j with
    | 0 => exact absurd rfl different
    | 1 =>
        cases present
        trivial
    | j + 2 => cases present
  have full := neverFits 10 (by decide) _ s ran 0 3 (by rw [agents]; rfl) others
  rw [inFlight] at full
  exact absurd full (by decide)

end OpendataIngest.Runtime.AtomicBudget
