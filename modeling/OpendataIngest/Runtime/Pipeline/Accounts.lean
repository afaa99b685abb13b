import OpendataIngest.Runtime.Pipeline.Flow

/-!
# The accounts of the whole pipeline

In every reachable state the free permits and the permits held add up to the number
the semaphore started with, and `in_flight` is the sum of the bytes held, modulo
`2 ^ 64`.
-/

set_option autoImplicit false

namespace OpendataIngest.Runtime.Pipeline

open MachineInt Pool

variable {R : Type}

/-! ## From one component to the state -/

theorem State.total_holdings (weight : Holding → Nat) (s : State R) :
    total weight s.holdings =
      total weight s.shared.holdings + total weight s.actor.point.holdings +
      total (fun p => total weight p.holdings) s.fetchers +
      total (fun p => total weight p.holdings) s.decoders +
      total (fun p => total weight p.holdings) s.writers := by
  simp only [State.holdings, total_append, total_flatMap]

theorem exchange_actor {s : State R} {a' : Actor} {sh' : Shared R} {old new : List Holding}
    (exchange : Exchange (s.shared.holdings ++ s.actor.point.holdings)
      (sh'.holdings ++ a'.point.holdings) old new) :
    Exchange s.holdings (State.holdings { s with actor := a', shared := sh' }) old new := by
  intro weight
  have moved := exchange weight
  simp only [total_append] at moved
  simp only [State.total_holdings]
  omega

theorem exchange_fetcher {s : State R} {i : Nat} {p p' : FetchPoint} {sh' : Shared R}
    {old new : List Holding} (present : s.fetchers[i]? = some p)
    (exchange : Exchange (s.shared.holdings ++ p.holdings) (sh'.holdings ++ p'.holdings) old new) :
    Exchange s.holdings
      (State.holdings { s with fetchers := s.fetchers.set i p', shared := sh' }) old new := by
  intro weight
  have moved := exchange weight
  have replaced := total_set (fun p : FetchPoint => total weight p.holdings) _ i p p' present
  simp only [total_append] at moved
  simp only [State.total_holdings]
  omega

theorem exchange_decoder {s : State R} {i : Nat} {p p' : DecodePoint R} {sh' : Shared R}
    {old new : List Holding} (present : s.decoders[i]? = some p)
    (exchange : Exchange (s.shared.holdings ++ p.holdings) (sh'.holdings ++ p'.holdings) old new) :
    Exchange s.holdings
      (State.holdings { s with decoders := s.decoders.set i p', shared := sh' }) old new := by
  intro weight
  have moved := exchange weight
  have replaced := total_set (fun p : DecodePoint R => total weight p.holdings) _ i p p' present
  simp only [total_append] at moved
  simp only [State.total_holdings]
  omega

theorem exchange_writer {s : State R} {i : Nat} {p p' : WriterPoint R} {sh' : Shared R}
    {old new : List Holding} (present : s.writers[i]? = some p)
    (exchange : Exchange (s.shared.holdings ++ p.holdings) (sh'.holdings ++ p'.holdings) old new) :
    Exchange s.holdings
      (State.holdings { s with writers := s.writers.set i p', shared := sh' }) old new := by
  intro weight
  have moved := exchange weight
  have replaced := total_set (fun p : WriterPoint R => total weight p.holdings) _ i p p' present
  simp only [total_append] at moved
  simp only [State.total_holdings]
  omega

section Members

variable {s : State R} {P : Holding → Prop} (all : ∀ h ∈ s.holdings, P h)
include all

theorem all_shared : ∀ h ∈ s.shared.holdings, P h :=
  fun h member => all h (by simp [State.holdings, member])

theorem all_actor : ∀ h ∈ s.shared.holdings ++ s.actor.point.holdings, P h := by
  intro h member
  refine all h ?_
  rcases List.mem_append.mp member with shared | own
  all_goals simp [State.holdings, *]

theorem all_fetcher {i : Nat} {p : FetchPoint} (present : s.fetchers[i]? = some p) :
    ∀ h ∈ s.shared.holdings ++ p.holdings, P h := by
  intro h member
  rcases List.mem_append.mp member with shared | own
  · exact all_shared all h shared
  · have inPool : h ∈ s.fetchers.flatMap FetchPoint.holdings :=
      List.mem_flatMap.mpr ⟨p, List.mem_of_getElem? present, own⟩
    exact all h (by simp [State.holdings, inPool])

theorem all_decoder {i : Nat} {p : DecodePoint R} (present : s.decoders[i]? = some p) :
    ∀ h ∈ s.shared.holdings ++ p.holdings, P h := by
  intro h member
  rcases List.mem_append.mp member with shared | own
  · exact all_shared all h shared
  · have inPool : h ∈ s.decoders.flatMap DecodePoint.holdings :=
      List.mem_flatMap.mpr ⟨p, List.mem_of_getElem? present, own⟩
    exact all h (by simp [State.holdings, inPool])

theorem all_writer {i : Nat} {p : WriterPoint R} (present : s.writers[i]? = some p) :
    ∀ h ∈ s.shared.holdings ++ p.holdings, P h := by
  intro h member
  rcases List.mem_append.mp member with shared | own
  · exact all_shared all h shared
  · have inPool : h ∈ s.writers.flatMap WriterPoint.holdings :=
      List.mem_flatMap.mpr ⟨p, List.mem_of_getElem? present, own⟩
    exact all h (by simp [State.holdings, inPool])

end Members

/-! ## Every step settles -/

theorem neutral_of_fromSink {events : List Event}
    (fromSink : ∀ event ∈ events, event.fromSink = true) : Neutral events := by
  intro range
  constructor
  all_goals
    refine total_eq_zero _ _ fun event member => ?_
    exact Event.of_fromSink event (fromSink event member) (fun _ => rfl) (fun _ _ => rfl)
      fun _ _ => rfl

theorem WorkerMove.toStepSettles {cfg : Config} {sh sh' : Shared R}
    {before after old new : List Holding}
    (move : WorkerMove cfg sh sh' before after old new) :
    StepSettles cfg sh sh' before after old new where
  toSettles := move.toSettles
  sound := move.sound
  history := by
    obtain ⟨events, extended, _⟩ := move.frame.history
    exact ⟨events, extended⟩
  claim := Or.inl fun limit _ => move.ceiling_le limit
  custody := by
    obtain ⟨events, extended, fromSink⟩ := move.frame.history
    have books : SameMarks sh.history sh'.history := by
      rw [extended]
      exact (neutral_of_fromSink fromSink).sameMarks _ sh.history
    refine ⟨fun range => ?_, fun intact range => ?_⟩
    · have bound := move.custody_le range
      rw [(books range).1, (books range).2]
      omega
    · have open_ : sh.completionClosed = false :=
        move.frame.completionClosed ▸ intact.completionClosed
      have running : sh.hardAbort = false := move.frame.hardAbort ▸ intact.hardAbort
      rw [(books range).1, (books range).2,
        move.custody_eq intact.workerFailed running open_ range]

theorem StepSettles.lift {cfg : Config} {sh sh' : Shared R}
    {before after old new before' after' : List Holding}
    (settles : StepSettles cfg sh sh' before after old new)
    (exchange : Exchange before' after' old new) :
    StepSettles cfg sh sh' before' after' old new where
  exchange := exchange
  permits := settles.permits
  bytes := settles.bytes
  width := settles.width
  sound := settles.sound
  history := settles.history
  claim := settles.claim
  custody := settles.custody

/-- A unit left behind in a closed channel is dropped. -/
theorem StepSettles.discards {cfg : Config} {sh base : Shared R} {before after : List Holding}
    (h : Holding) (reservation : Reservation) (sound : Sound cfg sh.history h)
    (held : h.held = reservation.held) (permit : h.permits = 1)
    (exchange : Exchange before after [h] [])
    (samePermits : base.freePermits = sh.freePermits) (sameCounters : base.counters = sh.counters)
    (sameHistory : base.history = sh.history)
    (broken : ¬ Intact (base.dropUnit reservation)) :
    StepSettles cfg sh (base.dropUnit reservation) before after [h] [] where
  exchange := exchange
  permits := by simp [Shared.dropUnit, samePermits, permit]
  bytes := by
    have released := reservation.release_inFlight sh.counters (held ▸ sound.held_small)
    simpa [Shared.dropUnit, sameCounters, held] using released
  width := by
    rw [Shared.dropUnit, sameCounters]
    exact reservation.release_width sh.counters
  sound := by simp
  history := ⟨[], sameHistory⟩
  claim := Or.inl fun _ _ => Nat.zero_le _
  custody := by
    refine .lost ?_ broken
    have unchanged : (base.dropUnit reservation).history = sh.history := sameHistory
    rw [unchanged]
    exact .refl _

theorem step_settles [TypedRecords R] {cfg : Config} {s s' : State R} {action : Action R}
    (orderly : Orderly s) (sound : ∀ h ∈ s.holdings, Sound cfg s.shared.history h)
    (taken : step cfg s action = some s') :
    ∃ old new, StepSettles cfg s.shared s'.shared s.holdings s'.holdings old new := by
  cases transition_of_step taken with
  | actor moved =>
      obtain ⟨old, new, settles⟩ := stepActor_settles (all_actor sound) moved
      exact ⟨old, new, settles.lift (exchange_actor settles.exchange)⟩
  | fetch present moved =>
      obtain ⟨old, new, move⟩ := stepFetch_move (all_fetcher sound present) moved
      exact ⟨old, new, move.toStepSettles.lift (exchange_fetcher present move.exchange)⟩
  | decode present moved =>
      obtain ⟨old, new, move⟩ := stepDecode_move (all_decoder sound present) moved
      exact ⟨old, new, move.toStepSettles.lift (exchange_decoder present move.exchange)⟩
  | writer present moved =>
      obtain ⟨old, new, move⟩ := stepWriter_move (all_writer sound present) moved
      exact ⟨old, new, move.toStepSettles.lift (exchange_writer present move.exchange)⟩
  | @discardsDescriptor unit rest queue ended =>
      have own := all_shared sound unit.holding (by simp [Shared.holdings, queue])
      refine ⟨_, _, StepSettles.discards unit.holding unit.reservation own rfl rfl ?_ rfl rfl
        rfl ?_⟩
      · intro weight
        simp only [State.total_holdings, Shared.total_holdings, Shared.dropUnit, queue,
          total_cons, total_nil]
        omega
      · exact not_intact_of_completionClosed (orderly.closed.trans ended.1)
  | @discardsFetched unit rest queue ended =>
      have own := all_shared sound unit.holding (by simp [Shared.holdings, queue])
      refine ⟨_, _, StepSettles.discards unit.holding unit.reservation own rfl rfl ?_ rfl rfl
        rfl ?_⟩
      · intro weight
        simp only [State.total_holdings, Shared.total_holdings, Shared.dropUnit, queue,
          total_cons, total_nil]
        omega
      · intro intact
        have empty := (orderly.fetched_read { intact with } ended.2).2
        rw [queue] at empty
        cases empty
  | @discardsSinkCommit unit rest queue ended =>
      have own := all_shared sound unit.holding (by simp [Shared.holdings, queue])
      refine ⟨_, _, StepSettles.discards unit.holding unit.reservation own rfl rfl ?_ rfl rfl
        rfl ?_⟩
      · intro weight
        simp only [State.total_holdings, Shared.total_holdings, Shared.dropUnit, queue,
          total_cons, total_nil]
        omega
      · intro intact
        have empty := (orderly.sinkCommits_read { intact with } ended.2).2
        rw [queue] at empty
        cases empty
  | _ => exact ⟨[], [], StepSettles.moved (.refl _) rfl rfl ⟨[], rfl⟩ fun _ => ⟨rfl, rfl⟩⟩

/-! ## The invariant -/

structure Accounts (cfg : Config) (s : State R) : Prop where
  permits : s.shared.freePermits + total Holding.permits s.holdings = cfg.depth
  bytes : s.shared.counters.inFlight % 2 ^ 64 = total Holding.held s.holdings % 2 ^ 64
  width : s.shared.counters.inFlight < 2 ^ 64
  sound : ∀ h ∈ s.holdings, Sound cfg s.shared.history h

theorem start_holdings (cfg : Config) : (State.start cfg : State R).holdings = [] := by
  simp [State.holdings, State.start, Shared.start, Shared.holdings, Actor.start,
    ActorPoint.holdings, FetchPoint.holdings, DecodePoint.holdings, WriterPoint.holdings]

theorem accounts_start (cfg : Config) : Accounts cfg (State.start cfg : State R) where
  permits := by
    rw [start_holdings]
    rfl
  bytes := by
    rw [start_holdings]
    rfl
  width := Nat.two_pow_pos 64
  sound := by simp [start_holdings]

theorem Accounts.step [TypedRecords R] {cfg : Config} {s s' : State R} {action : Action R}
    (accounts : Accounts cfg s) (orderly : Orderly s) (taken : step cfg s action = some s') :
    Accounts cfg s' := by
  obtain ⟨old, new, settles⟩ := step_settles orderly accounts.sound taken
  refine ⟨?_, ?_, settles.width accounts.width, ?_⟩
  · have before := accounts.permits
    have moved := settles.permits
    have weights := settles.exchange Holding.permits
    omega
  · have before := accounts.bytes
    have moved := settles.bytes
    have weights := settles.exchange Holding.held
    omega
  · intro h member
    obtain ⟨events, extended⟩ := settles.history
    rcases settles.exchange.mem_or_mem h member with kept | added
    · rw [extended]
      exact (accounts.sound h kept).mono events
    · exact settles.sound h added

theorem accounts_of_reachable [TypedRecords R] {cfg : Config} {s : State R}
    (reachable : (machine R cfg).Reachable s) : Accounts cfg s :=
  reachable.invariant (accounts_start cfg) fun _ _ _ before accounts taken =>
    accounts.step (orderly_of_reachable before) taken

/-- While the held bytes fit in 64 bits, `in_flight` is exactly their sum. -/
theorem Accounts.inFlight_eq {cfg : Config} {s : State R} (accounts : Accounts cfg s)
    (small : total Holding.held s.holdings < 2 ^ 64) :
    s.shared.counters.inFlight = total Holding.held s.holdings := by
  have bytes := accounts.bytes
  have width := accounts.width
  omega

end OpendataIngest.Runtime.Pipeline
