import OpendataIngest.Runtime.AckCoordinatorContract
import OpendataIngest.Runtime.Pipeline.Builder
import OpendataIngest.Runtime.Pipeline.DryRun

/-!
# Where the documented bound holds

A dry run keeps the bound, and so does a configuration whose growth fits.  Everywhere else a
run passes it: the actor admits its units one by one, each at the estimate, and one after
the other they are decoded up to the oversize limit while the sink takes none.  If the byte
capacity and not the batch slots keeps a further unit out, the first unit is decoded to what
the later ones leave free, so that the growth starts from a full budget.
-/

set_option autoImplicit false

namespace OpendataIngest.Runtime

open MachineInt Pool

namespace AckCoordinator

/-- `low` is the start of the next range of the coordinator. -/
def Awaits (baseline : Option Nat) (c : AckCoordinator) (low : Nat) : Prop :=
  ∃ popped rest committed, Tracks baseline c popped rest committed ∧
    StartsNext baseline (popped ++ rest) low

/-- The sequence that follows the baseline. -/
def firstSequence : Option Nat → Nat
  | some baseline => baseline + 1
  | none => 0

theorem awaits_new (source : SourceId) (baseline : Option Nat) :
    Awaits baseline (new source baseline) (firstSequence baseline) := by
  refine ⟨[], [], _, tracks_new source baseline, ?_⟩
  intro b known
  rw [known]
  rfl

theorem Awaits.register {baseline : Option Nat} {c : AckCoordinator} {low : Nat}
    (awaits : Awaits baseline c low) (small : low ≤ u64Max) :
    ∃ c', c.registerPending low low = (c', .ok ()) ∧ Awaits baseline c' (low + 1) := by
  obtain ⟨popped, rest, committed, tracks, next⟩ := awaits
  have accepted := next.accepted tracks low le_rfl small
  refine ⟨(c.absorbBaseline low).insertPending low low, ?_, popped, rest ++ [(low, low)],
    committed, tracks.register low low small accepted, ?_⟩
  · rw [registerPending, accepted]
  · simp [StartsNext, ← List.append_assoc]

end AckCoordinator

namespace Pipeline

variable {R : Type} {cfg : Config}

/-- Between two units: `waiting` units are admitted and not taken by a fetch worker,
`decoded` are with the sink, and each pool has an idle worker. -/
structure Stocked (cfg : Config) (waiting decoded bytes : Nat) (s : State SizedRecords) :
    Prop where
  select : s.actor.point = .select false
  isOpen : s.actor.admissionOpen = true
  awaits : s.actor.coordinator.Awaits cfg.baseline
    (AckCoordinator.firstSequence cfg.baseline + (waiting + decoded))
  permits : s.shared.freePermits + (waiting + decoded) = cfg.depth
  queued : s.shared.descriptors.length = waiting
  reserved : ∀ unit ∈ s.shared.descriptors, unit.reservation.held = cfg.estimate
  fed : s.shared.descriptorClosed = false
  fetched : s.shared.fetched = []
  atSink : s.shared.sinkCommits.length = decoded
  inFlight : s.shared.counters.inFlight = bytes
  fetcher : s.fetchers[0]? = some .recv
  decoder : s.decoders[0]? = some .recv
  writer : s.writers[0]? = some .recv

theorem stocked_start (cfg : Config) : Stocked cfg 0 0 0 (State.start cfg) where
  select := rfl
  isOpen := rfl
  awaits := AckCoordinator.awaits_new cfg.source cfg.baseline
  permits := rfl
  queued := rfl
  reserved := fun _ member => absurd member List.not_mem_nil
  fed := rfl
  fetched := rfl
  atSink := rfl
  inFlight := rfl
  fetcher := by simp [State.start]
  decoder := by simp [State.start]
  writer := by simp [State.start]

section Workers

variable {s : State R}

theorem fetchersGone_eq_false (idle : s.fetchers[0]? = some .recv) : s.fetchersGone = false :=
  List.all_eq_false.mpr ⟨_, List.mem_of_getElem? idle, by simp [FetchPoint.hasExited]⟩

theorem decodersGone_eq_false (idle : s.decoders[0]? = some .recv) : s.decodersGone = false :=
  List.all_eq_false.mpr ⟨_, List.mem_of_getElem? idle, by simp [DecodePoint.hasExited]⟩

theorem writersGone_eq_false (idle : s.writers[0]? = some .recv) : s.writersGone = false :=
  List.all_eq_false.mpr ⟨_, List.mem_of_getElem? idle, by simp [WriterPoint.hasExited]⟩

end Workers

/-! ## Admitting one unit -/

section Admit

variable {s : State SizedRecords}

/-- The extensions that find room add gates, and the actor asks the buffer with them. -/
theorem asks_with_more (extras : Nat) {gates : List Reservation} (nonempty : cfg.estimate ≠ 0)
    (extending : s.actor.point = .extending gates extras)
    (within : s.shared.counters.inFlight ≤ cfg.capacity) :
    (machine SizedRecords cfg).CanReach (fun s' => ∃ more k free,
      k.inFlight = s.shared.counters.inFlight + total ByteReservation.held more ∧
      k.inFlight ≤ cfg.capacity ∧ free + more.length = s.shared.freePermits ∧ s' = { s with
        actor := { s.actor with point := .polling (gates ++ more) }
        shared := { s.shared with counters := k, freePermits := free } }) s := by
  induction extras generalizing s gates with
  | zero =>
      refine .cons (actor_taken (.enough gates extending)) ?_
      exact ⟨[], _, rfl, [], s.shared.counters, s.shared.freePermits, rfl, within, rfl,
        by rw [List.append_nil]⟩
  | succ extras ih =>
      by_cases available : 0 < s.shared.freePermits
      · refine .cons (actor_taken (.takesPermit gates extras extending available)) ?_
        cases reserved : s.shared.counters.tryReserve cfg.capacity cfg.estimate with
        | none =>
            refine .cons (actor_taken (.noBytes false gates extras rfl (Or.inr reserved))) ?_
            refine ⟨[], _, rfl, [], s.shared.counters, s.shared.freePermits, rfl, within, rfl, ?_⟩
            dsimp only
            rw [List.append_nil, Nat.sub_add_cancel available]
        | some claimed =>
            obtain ⟨extra, k⟩ := claimed
            obtain ⟨held, added, room⟩ := Counters.tryReserve_some _ _ _ _ _ reserved
            have attached := extra.attachStage_inFlight .source k
            refine .cons (actor_taken (.takesBytes false gates extras extra k rfl (by simp)
              reserved)) ?_
            refine (ih rfl (attached.trans_le (room nonempty))).trans ?_
            rintro _ ⟨more, k', free, sum, below, permits, rfl⟩
            refine ⟨[], _, rfl, (extra.attachStage .source k).1 :: more, k', free, ?_, below,
              ?_, ?_⟩
            · dsimp only at sum
              rw [sum, attached, added, total_cons, Nat.add_assoc, ← held]
              rfl
            · rw [List.length_cons]
              dsimp only at permits
              omega
            · dsimp only
              rw [List.append_assoc]
              rfl
      · refine .cons (actor_taken (.noPermit gates extras extending available)) ?_
        exact ⟨[], _, rfl, [], s.shared.counters, s.shared.freePermits, rfl, within, rfl,
          by rw [List.append_nil]⟩

/-- The answer with one descriptor: its unit is sent, and the other gates are dropped. -/
theorem admits_one (descriptor : BatchDescriptor) (gate : Reservation) (more : List Reservation)
    {c : AckCoordinator} (polling : s.actor.point = .polling (gate :: more))
    (registers : s.actor.coordinator.registerPending descriptor.sequence.val
      descriptor.sequence.val = (c, .ok ()))
    (fed : s.shared.descriptorClosed = false) (fetcher : s.fetchers[0]? = some .recv)
    (room : s.shared.descriptors.length < cfg.depth) :
    (machine SizedRecords cfg).CanReach (fun s' => ∃ unit inFlight history,
      unit.reservation = gate ∧ s' = { s with
        actor := { s.actor with
          point := .select false, coordinator := c, inFlight := inFlight }
        shared := { s.shared with
          counters := releaseAll more s.shared.counters
          freePermits := s.shared.freePermits + more.length
          descriptors := s.shared.descriptors ++ [unit]
          history := history } }) s := by
  let sent : SourceBatchDescriptor :=
    ⟨s.actor.source.id, descriptor.sequence, descriptor.location, descriptor.metadata⟩
  have admitted : admission s.actor s.shared (gate :: more) [sent] =
      ({ s.actor with
          point := .sending [⟨sent, gate⟩], coordinator := c, inFlight := s.actor.inFlight + 1 },
        { s.shared with
          counters := releaseAll more s.shared.counters
          freePermits := s.shared.freePermits + more.length
          history := .registered descriptor.sequence.val ::
            .handedOut [descriptor.sequence.val] :: s.shared.history }) := by
    simp [admission, registerAll, sent, registers, dropGates_eq, recordRegistered_eq,
      Shared.record]
  have fits : [sent].length ≤ (gate :: more).length := Nat.succ_le_succ (Nat.zero_le _)
  refine .cons (actor_taken (.admits (.ok [descriptor]) (gate :: more) [sent] polling rfl fits)) ?_
  rw [admitted]
  have notClosed : ¬ (s.shared.descriptorClosed = true ∨ s.fetchersGone = true) := by
    simp [fed, fetchersGone_eq_false fetcher]
  refine .cons (actor_taken (.sends ⟨sent, gate⟩ [] rfl notClosed room)) ?_
  refine .cons (actor_taken (.sentAll rfl)) ?_
  exact ⟨[], _, rfl, ⟨sent, gate⟩, _, _, rfl, rfl⟩

theorem releaseAll_exactly {more : List Reservation} {k : Counters Stage} {bytes : Nat}
    (inFlight : k.inFlight = bytes + total ByteReservation.held more)
    (small : k.inFlight < 2 ^ 64) : (releaseAll more k).inFlight = bytes := by
  have width := releaseAll_width more k small
  have released := releaseAll_inFlight more k fun gate member => by
    have under := weight_le_total ByteReservation.held more gate member
    unfold u64Max
    omega
  omega

theorem claims_exactly {k : Counters Stage} {bytes : Nat} (small : k.inFlight + bytes < 2 ^ 64) :
    ∃ gate k', (gate, k') = (k.reserve bytes).1.attachStage .source (k.reserve bytes).2 ∧
      gate.held = bytes ∧ k'.inFlight = k.inFlight + bytes := by
  have added := k.reserve_inFlight bytes
  have width := k.reserve_width bytes (by omega)
  refine ⟨_, _, rfl, k.reserve_held bytes, ?_⟩
  refine (ByteReservation.attachStage_inFlight _ _ _).trans ?_
  omega

/-- From `select!` to the first gate. -/
theorem gates_one (at_select : s.actor.point = .select false)
    (isOpen : s.actor.admissionOpen = true) (available : 0 < s.shared.freePermits)
    (room : s.shared.counters.inFlight + cfg.estimate ≤ cfg.capacity) :
    (machine SizedRecords cfg).CanReach (fun s' => ∃ gate k extras, gate.held = cfg.estimate ∧
      k.inFlight = s.shared.counters.inFlight + cfg.estimate ∧ s' = { s with
        actor := { s.actor with point := .extending [gate] extras }
        shared := { s.shared with
          counters := k, freePermits := s.shared.freePermits - 1 } }) s := by
  have capacity : cfg.capacity ≤ u64Max := val_le_u64Max _
  have top : u64Max = 2 ^ 64 - 1 := rfl
  have fits : s.shared.counters.fitsSaturating cfg.capacity cfg.estimate = true :=
    decide_eq_true (le_trans (Nat.min_le_left _ _) room)
  obtain ⟨gate, k, claimed, held, inFlight⟩ := claims_exactly (by omega :
    s.shared.counters.inFlight + cfg.estimate < 2 ^ 64)
  refine .cons (actor_taken (.acquires at_select isOpen available)) ?_
  refine .cons (actor_taken (.claims gate k rfl isOpen (Or.inr fits) claimed)) ?_
  refine .cons (actor_taken (.measures _ _ rfl rfl)) ?_
  refine .cons (actor_taken (.counts _ _ rfl)) ?_
  exact ⟨[], _, rfl, gate, k, _, held, inFlight, rfl⟩

/-- One more unit at the estimate. -/
theorem Stocked.admits {waiting decoded bytes : Nat} (stocked : Stocked cfg waiting decoded bytes s)
    (nonempty : cfg.estimate ≠ 0) (slot : waiting + decoded < cfg.depth)
    (sequence : AckCoordinator.firstSequence cfg.baseline + (waiting + decoded) ≤ u64Max)
    (room : bytes + cfg.estimate ≤ cfg.capacity) :
    (machine SizedRecords cfg).CanReach (Stocked cfg (waiting + 1) decoded (bytes + cfg.estimate))
      s := by
  have capacity : cfg.capacity ≤ u64Max := val_le_u64Max _
  have top : u64Max = 2 ^ 64 - 1 := rfl
  have permits := stocked.permits
  have queued := stocked.queued
  have before := stocked.inFlight
  refine (gates_one stocked.select stocked.isOpen (by omega) (by omega)).trans ?_
  rintro _ ⟨gate, k, extras, held, inFlight, rfl⟩
  refine (asks_with_more extras nonempty rfl (by dsimp only; omega)).trans ?_
  rintro _ ⟨more, k', free, sum, below, spare, rfl⟩
  dsimp only at sum spare
  obtain ⟨c, registers, awaits⟩ := stocked.awaits.register sequence
  have next : AckCoordinator.firstSequence cfg.baseline + (waiting + decoded) + 1 =
      AckCoordinator.firstSequence cfg.baseline + (waiting + 1 + decoded) := by omega
  rw [next] at awaits
  refine Machine.CanReach.trans (admits_one ⟨⟨_, Nat.lt_succ_of_le sequence⟩, "", []⟩
    gate more rfl registers stocked.fed stocked.fetcher (by dsimp only; omega)) ?_
  rintro _ ⟨unit, units, history, reserved, rfl⟩
  refine ⟨[], _, rfl, ?_⟩
  exact {
    select := rfl
    isOpen := stocked.isOpen
    awaits := awaits
    permits := by
      dsimp only
      omega
    queued := by simp [stocked.queued]
    reserved := by
      intro other member
      rcases List.mem_append.mp member with old | new
      · exact stocked.reserved other old
      · rw [List.mem_singleton.mp new, reserved]
        exact held
    fed := stocked.fed
    fetched := stocked.fetched
    atSink := stocked.atSink
    inFlight := by
      rw [← before, ← inFlight]
      exact releaseAll_exactly sum (lt_of_le_of_lt below (by omega))
    fetcher := stocked.fetcher
    decoder := stocked.decoder
    writer := stocked.writer }

end Admit

/-! ## Decoding one unit -/

section Decode

variable {s : State SizedRecords}

/-- The batch the buffer answers with. -/
def plainBatch (sequence : U64) : ConsumedBatch := ⟨[], sequence, "", []⟩

def fetchedUnit (cfg : Config) (unit : AdmittedDescriptor) (reservation : Reservation) :
    FetchedBatch :=
  ⟨splitIntoRawEntries (plainBatch unit.descriptor.sequence) cfg.source cfg.manifestPath,
    reservation, unit.descriptor.sequence⟩

theorem decodes_to (live : cfg.dryRun = false) (unit : AdmittedDescriptor)
    (reservation : Reservation) (k : Counters Stage) {size : Nat} (small : size < 2 ^ 64)
    (limit : size ≤ cfg.bp.faultLimit) : ∃ commit range,
    decodeOne cfg (sizedDecoder size) (fetchedUnit cfg unit reservation) k =
      (.ok (.live commit range), reservation.reconcile size k) := by
  have weight : wrappingAdd (wrap64 size) (sourceCoordsBytes ⟨"", "", [], [], [], []⟩) = size :=
    (Nat.mod_eq_of_lt (Nat.mod_lt _ (Nat.two_pow_pos 64))).trans (Nat.mod_eq_of_lt small)
  have within : ¬ size > cfg.bp.faultLimit := Nat.not_lt.mpr limit
  simp [decodeOne, checkDecoded, sizedDecoder, fetchedUnit, plainBatch, splitIntoRawEntries,
    splitEntries, actualBytes, TypedRecords.estimatedBytes, weight, within, live]

theorem fetch_taken {i : Nat} {action : FetchAction} {p p' : FetchPoint}
    {sh' : Shared SizedRecords} (present : s.fetchers[i]? = some p)
    (moved : FetchStep cfg s.killed s.decodersGone s.shared p action p' sh') :
    (machine SizedRecords cfg).step s (.fetch i action) =
      some { s with fetchers := s.fetchers.set i p', shared := sh' } :=
  Transition.taken (.fetch present moved.taken)

theorem decode_taken {i : Nat} {action : DecodeAction SizedRecords}
    {p p' : DecodePoint SizedRecords} {sh' : Shared SizedRecords}
    (present : s.decoders[i]? = some p)
    (moved : DecodeStep cfg s.fetchersGone s.writersGone s.shared p action p' sh') :
    (machine SizedRecords cfg).step s (.decode i action) =
      some { s with decoders := s.decoders.set i p', shared := sh' } :=
  Transition.taken (.decode present moved.taken)

theorem fetches_first {unit : AdmittedDescriptor} {rest : List AdmittedDescriptor}
    (queue : s.shared.descriptors = unit :: rest) (room : s.shared.fetched.length < cfg.depth)
    (fetcher : s.fetchers[0]? = some .recv) (decoder : s.decoders[0]? = some .recv) :
    (machine SizedRecords cfg).CanReach (fun s' => ∃ reservation k fetchers,
      reservation.held = unit.reservation.held ∧ k.inFlight = s.shared.counters.inFlight ∧
      fetchers[0]? = some .recv ∧ s' = { s with
        fetchers := fetchers
        shared := { s.shared with
          descriptors := rest
          fetched := s.shared.fetched ++ [fetchedUnit cfg unit reservation]
          counters := k } }) s := by
  refine .cons (fetch_taken fetcher (.takes unit rest queue)) ?_
  dsimp only
  refine .cons (fetch_taken (present_set fetcher _)
    (.fetches _ (.ok (plainBatch unit.descriptor.sequence)) _ rfl)) ?_
  dsimp only
  refine .cons (fetch_taken (present_set (present_set fetcher _) _) (.sends _ ?_ room)) ?_
  · exact Bool.eq_false_iff.mp (decodersGone_eq_false decoder)
  · dsimp only
    exact ⟨[], _, rfl, (unit.reservation.attachStage .fetch s.shared.counters).1, _, _, rfl,
      ByteReservation.attachStage_inFlight _ _ _,
      present_set (present_set (present_set fetcher _) _) _, rfl⟩

theorem reconciles_exactly {r : Reservation} {k : Counters Stage} {bytes size : Nat}
    (inFlight : k.inFlight = bytes + r.held) (wide : bytes + r.held < 2 ^ 64)
    (small : bytes + size < 2 ^ 64) : (r.reconcile size k).2.inFlight = bytes + size := by
  have width := r.reconcile_width size k (by omega)
  have moved := r.reconcile_inFlight size k (by unfold u64Max; omega)
  omega

theorem decodes_first (unit : AdmittedDescriptor) (reservation : Reservation) (bytes : Nat)
    {size : Nat} (live : cfg.dryRun = false) (limit : size ≤ cfg.bp.faultLimit)
    (small : bytes + size < 2 ^ 64) (wide : bytes + reservation.held < 2 ^ 64)
    (inFlight : s.shared.counters.inFlight = bytes + reservation.held)
    (fetched : s.shared.fetched = [fetchedUnit cfg unit reservation])
    (room : s.shared.sinkCommits.length < cfg.depth) (decoder : s.decoders[0]? = some .recv)
    (writer : s.writers[0]? = some .recv) :
    (machine SizedRecords cfg).CanReach (fun s' => ∃ envelope k decoders,
      k.inFlight = bytes + size ∧ decoders[0]? = some .recv ∧ s' = { s with
        decoders := decoders
        shared := { s.shared with
          fetched := []
          sinkCommits := s.shared.sinkCommits ++ [envelope]
          counters := k } }) s := by
  have attached := ByteReservation.attachStage_inFlight reservation .decode s.shared.counters
  obtain ⟨commit, range, decoded⟩ := decodes_to live unit
    (reservation.attachStage .decode s.shared.counters).1
    (reservation.attachStage .decode s.shared.counters).2 (by omega) limit
  refine .cons (decode_taken decoder (.takes _ [] fetched)) ?_
  dsimp only
  refine .cons (decode_taken (present_set decoder _) (.decodes _ _ _ _ _ _ decoded)) ?_
  dsimp only
  refine .cons (decode_taken (present_set (present_set decoder _) _) (.sends _ ?_ room)) ?_
  · exact Bool.eq_false_iff.mp (writersGone_eq_false writer)
  · dsimp only
    refine ⟨[], _, rfl, _, _, _, ?_, present_set (present_set (present_set decoder _) _) _, rfl⟩
    exact reconciles_exactly (attached.trans inFlight) wide small

/-- The first queued unit goes through the idle workers to the sink channel, at `size`. -/
theorem Stocked.decodes {waiting decoded bytes size : Nat}
    (stocked : Stocked cfg (waiting + 1) decoded (bytes + cfg.estimate) s)
    (live : cfg.dryRun = false) (limit : size ≤ cfg.bp.faultLimit)
    (small : bytes + size < 2 ^ 64) (wide : bytes + cfg.estimate < 2 ^ 64) :
    (machine SizedRecords cfg).CanReach (Stocked cfg waiting (decoded + 1) (bytes + size)) s := by
  obtain ⟨unit, rest, queue⟩ := List.exists_cons_of_length_eq_add_one stocked.queued
  have held : unit.reservation.held = cfg.estimate :=
    stocked.reserved unit (queue ▸ List.mem_cons_self)
  have queued := stocked.queued
  have permits := stocked.permits
  have atSink := stocked.atSink
  have fetchRoom : s.shared.fetched.length < cfg.depth := by
    rw [stocked.fetched, List.length_nil]
    omega
  refine (fetches_first queue fetchRoom stocked.fetcher stocked.decoder).trans ?_
  rintro _ ⟨reservation, k, fetchers, same, inFlight, fetcher, rfl⟩
  rw [held] at same
  refine Machine.CanReach.trans (decodes_first unit reservation bytes live limit small
    ?_ ?_ ?_ ?_ stocked.decoder stocked.writer) ?_
  · rw [same]
    exact wide
  · dsimp only
    rw [inFlight, stocked.inFlight, same]
  · dsimp only
    rw [stocked.fetched]
    rfl
  · dsimp only
    omega
  · rintro _ ⟨envelope, k', decoders, grown, decoder, rfl⟩
    refine ⟨[], _, rfl, ?_⟩
    have next : waiting + (decoded + 1) = waiting + 1 + decoded := by omega
    exact {
      select := stocked.select
      isOpen := stocked.isOpen
      awaits := next ▸ stocked.awaits
      permits := next ▸ stocked.permits
      queued := by
        rw [queue, List.length_cons] at queued
        exact Nat.succ.inj queued
      reserved := fun other member =>
        stocked.reserved other (queue ▸ List.mem_cons_of_mem unit member)
      fed := stocked.fed
      fetched := rfl
      atSink := by simp [atSink]
      inFlight := grown
      fetcher := fetcher
      decoder := decoder
      writer := stocked.writer }

end Decode

/-! ## Filling the budget and growing past the bound -/

section Grow

variable {s : State SizedRecords} {decoded : Nat}

theorem Stocked.admits_all (n : Nat) {waiting bytes : Nat}
    (stocked : Stocked cfg waiting decoded bytes s) (nonempty : cfg.estimate ≠ 0)
    (sequences : AckCoordinator.firstSequence cfg.baseline + cfg.depth ≤ 2 ^ 64)
    (slots : waiting + decoded + n ≤ cfg.depth)
    (room : bytes + n * cfg.estimate ≤ cfg.capacity) :
    (machine SizedRecords cfg).CanReach
      (Stocked cfg (waiting + n) decoded (bytes + n * cfg.estimate)) s := by
  induction n generalizing waiting bytes s with
  | zero =>
      rw [Nat.zero_mul]
      exact ⟨[], s, rfl, stocked⟩
  | succ n ih =>
      rw [Nat.succ_mul] at room
      have top : u64Max = 2 ^ 64 - 1 := rfl
      refine (stocked.admits nonempty (by omega) (by omega) (by omega)).trans
        fun s' admitted => ?_
      have units : waiting + (n + 1) = waiting + 1 + n := by omega
      have sum : bytes + (n + 1) * cfg.estimate = bytes + cfg.estimate + n * cfg.estimate := by
        rw [Nat.succ_mul]
        omega
      rw [units, sum]
      exact ih admitted (by omega) (by omega)

/-- Growing the waiting units after each other, the last one just past the bound. -/
theorem Stocked.grows {waiting base bound : Nat} (live : cfg.dryRun = false)
    (stocked : Stocked cfg waiting decoded (base + waiting * cfg.estimate) s)
    (small : bound < u64Max) (below : base + waiting * cfg.estimate ≤ bound)
    (passes : bound < base + waiting * cfg.bp.faultLimit) :
    (machine SizedRecords cfg).CanReach (fun s => bound < s.shared.counters.inFlight) s := by
  have top : u64Max = 2 ^ 64 - 1 := rfl
  induction waiting generalizing decoded base s with
  | zero => omega
  | succ waiting ih =>
      rw [Nat.succ_mul, ← Nat.add_assoc] at stocked below
      rw [Nat.succ_mul] at passes
      obtain ⟨size, isSize⟩ : ∃ size, size =
        min cfg.bp.faultLimit (bound + 1 - (base + waiting * cfg.estimate)) := ⟨_, rfl⟩
      refine (stocked.decodes live (by omega : size ≤ _) (by omega) (by omega)).trans
        fun s' grown => ?_
      by_cases passed : bound < base + waiting * cfg.estimate + size
      · exact ⟨[], s', rfl, passed.trans_eq grown.inFlight.symm⟩
      · have full : size = cfg.bp.faultLimit := by omega
        rw [full, Nat.add_right_comm] at grown passed
        exact ih grown (Nat.le_of_not_lt passed) (by omega)

end Grow

section Runs

variable {bound : Nat} (live : cfg.dryRun = false) (nonempty : cfg.estimate ≠ 0)
  (sequences : AckCoordinator.firstSequence cfg.baseline + cfg.depth ≤ 2 ^ 64)
  (above : cfg.capacity ≤ bound) (small : bound < u64Max)

include live nonempty sequences above small

/-- Every batch slot is filled at the estimate, and every unit grown. -/
theorem passed_from_full_slots (filled : cfg.depth * cfg.estimate ≤ cfg.capacity)
    (passes : bound < cfg.depth * cfg.bp.faultLimit) : (machine SizedRecords cfg).CanReach
      (fun s => bound < s.shared.counters.inFlight) (State.start cfg) := by
  refine ((stocked_start cfg).admits_all cfg.depth nonempty sequences (by omega)
    (by omega)).trans fun s full => ?_
  rw [Nat.zero_add] at full
  exact full.grows live small (by omega) (by omega)

/-- One unit is decoded to the `spare` bytes that the `units` after it leave free, and they
are grown. -/
theorem passed_from_full_budget {units spare : Nat}
    (filled : spare + units * cfg.estimate = cfg.capacity) (slots : units < cfg.depth)
    (fits : cfg.estimate ≤ cfg.capacity) (limit : spare ≤ cfg.bp.faultLimit)
    (passes : bound < spare + units * cfg.bp.faultLimit) : (machine SizedRecords cfg).CanReach
      (fun s => bound < s.shared.counters.inFlight) (State.start cfg) := by
  have top : u64Max = 2 ^ 64 - 1 := rfl
  refine ((stocked_start cfg).admits nonempty (by omega) (by omega) (by omega)).trans
    fun s one => ?_
  refine (one.decodes live limit (by omega) (by omega)).trans fun s decoded => ?_
  rw [Nat.zero_add] at decoded
  refine (decoded.admits_all units nonempty sequences (by omega) (by omega)).trans
    fun s full => ?_
  rw [Nat.zero_add] at full
  exact full.grows live small (by omega) (by omega)

end Runs

/-! ## The configurations that meet the bound -/

theorem faultLimit_eq {bp : SourceBackpressureOptions} (sized : Sized bp)
    (multiplier : 1 ≤ bp.oversizeFaultMultiplier.val) (noOverflow : memoryBound bp < 2 ^ 64) :
    bp.faultLimit = bp.oversizeFaultMultiplier.val * bp.estimatedMaxBatchBytes.val := by
  have fits := sized.estimate_fits
  have workers := Nat.mul_le_mul_right
    ((bp.oversizeFaultMultiplier.val - 1) * bp.estimatedMaxBatchBytes.val) sized.decode_pos
  have growth := Nat.sub_mul bp.oversizeFaultMultiplier.val 1 bp.estimatedMaxBatchBytes.val
  have least := Nat.mul_le_mul_right bp.estimatedMaxBatchBytes.val multiplier
  rw [memoryBound, Nat.mul_assoc] at noOverflow
  rw [SourceBackpressureOptions.faultLimit, saturatingMul, Nat.mul_comm]
  unfold u64Max
  omega

/-- Where growth does not fit, a live run passes the documented bound. -/
theorem bound_passed (sized : Sized cfg.bp) (multiplier : 1 ≤ cfg.bp.oversizeFaultMultiplier.val)
    (noOverflow : memoryBound cfg.bp < 2 ^ 64) (live : cfg.dryRun = false)
    (sequences : AckCoordinator.firstSequence cfg.baseline + cfg.depth ≤ 2 ^ 64)
    (misfit : ¬ GrowthFits cfg.bp) : (machine SizedRecords cfg).CanReach
      (fun s => memoryBound cfg.bp < s.shared.counters.inFlight) (State.start cfg) := by
  have limit : cfg.bp.faultLimit = cfg.bp.oversizeFaultMultiplier.val * cfg.estimate :=
    faultLimit_eq sized multiplier noOverflow
  have least := Nat.mul_le_mul_right cfg.estimate multiplier
  have growth := Nat.sub_mul cfg.bp.oversizeFaultMultiplier.val 1 cfg.estimate
  have capacity : cfg.capacity ≤ memoryBound cfg.bp := Nat.le_add_right _ _
  obtain ⟨notTop, notAdmissible, notSlots⟩ : memoryBound cfg.bp ≠ u64Max ∧
      memoryBound cfg.bp < cfg.capacity + admissibleUnits cfg.bp *
        ((cfg.bp.oversizeFaultMultiplier.val - 1) * cfg.estimate) ∧
      memoryBound cfg.bp < cfg.depth * cfg.bp.faultLimit := by
    rw [limit, depth_of_sized sized, ← Nat.mul_assoc, ← Nat.mul_assoc]
    simpa [GrowthFits, not_or, Config.capacity, Config.estimate] using misfit
  have small : memoryBound cfg.bp < u64Max := by
    unfold u64Max at notTop ⊢
    omega
  have nonempty : cfg.estimate ≠ 0 := by
    intro empty
    rw [empty, Nat.mul_zero, Nat.mul_zero, Nat.add_zero] at notAdmissible
    omega
  have positive : 0 < cfg.estimate := Nat.pos_of_ne_zero nonempty
  by_cases narrow : cfg.depth ≤ cfg.capacity / cfg.estimate
  · exact passed_from_full_slots live nonempty sequences capacity small
      ((Nat.le_div_iff_mul_le positive).mp narrow) notSlots
  · have spare := Nat.div_add_mod' cfg.capacity cfg.estimate
    have under : cfg.capacity % cfg.estimate < cfg.estimate := Nat.mod_lt _ positive
    have units : admissibleUnits cfg.bp = cfg.capacity / cfg.estimate := by
      refine Nat.min_eq_right ?_
      rw [← depth_of_sized sized]
      exact Nat.le_of_not_le narrow
    refine passed_from_full_budget live nonempty sequences capacity small
      (by omega : cfg.capacity % cfg.estimate + _ = _) (Nat.lt_of_not_le narrow)
      sized.estimate_fits (by omega) ?_
    rw [units, growth, Nat.mul_sub, Nat.one_mul, ← limit] at notAdmissible
    omega

/-- `in_flight` stays within the documented bound in every dry run, and in every run of a
configuration whose growth fits.  With a sequence left for each batch slot, every other
configuration has a run that passes it. -/
theorem bounded_memory_when_growth_fits [TypedRecords R] (cfg : Config)
    (accepted : validateBackpressure cfg.source cfg.bp = .ok ())
    (multiplier : 1 ≤ cfg.bp.oversizeFaultMultiplier.val)
    (noOverflow : memoryBound cfg.bp < 2 ^ 64) :
    (cfg.dryRun = true ∨ GrowthFits cfg.bp → ∀ s : State R, (machine R cfg).Reachable s →
      s.shared.counters.inFlight ≤ memoryBound cfg.bp) ∧
    (AckCoordinator.firstSequence cfg.baseline + cfg.bp.maxInflightBatches.val ≤ 2 ^ 64 →
      (∀ s : State SizedRecords, (machine SizedRecords cfg).Reachable s →
        s.shared.counters.inFlight ≤ memoryBound cfg.bp) →
      cfg.dryRun = true ∨ GrowthFits cfg.bp) := by
  have sized := (validateBackpressure_ok _ _).mp accepted
  constructor
  · intro condition s reachable
    by_cases maximal : memoryBound cfg.bp = u64Max
    · have width := (accounts_of_reachable reachable).width
      rw [maximal]
      unfold u64Max
      omega
    · rcases condition with isDry | growthFits
      · exact bounded_of_dry sized multiplier noOverflow maximal isDry reachable
      · exact bounded_of_growthFits sized multiplier noOverflow maximal growthFits reachable
  · intro sequences bounded
    by_contra neither
    obtain ⟨notDry, misfit⟩ := not_or.mp neither
    rw [← depth_of_sized sized] at sequences
    obtain ⟨actions, s, ran, passed⟩ := bound_passed sized multiplier noOverflow
      (Bool.eq_false_iff.mpr notDry) sequences misfit
    have within := bounded s ((machine SizedRecords cfg).run_reachable actions s ran)
    exact absurd within (Nat.not_le.mpr passed)

/-- As `narrowConfig`, with a decode worker for each batch slot. -/
def pairedConfig : Config :=
  { narrowConfig with
    options := { narrowConfig.options with sourceDefaults := ⟨2, 2, 1, 1, 2, 4⟩ } }

/-- The bound is attained. -/
theorem bounded_memory_when_growth_fits_paired :
    ∃ s : State SizedRecords, (machine SizedRecords pairedConfig).Reachable s ∧
      s.shared.counters.inFlight = 8 ∧
      s.shared.counters.inFlight ≤ memoryBound pairedConfig.bp := by
  have grown : ((machine SizedRecords pairedConfig).run oversizeRun).map
      (fun s => s.shared.counters.inFlight) = some 8 := by
    decide
  obtain ⟨s, ran, inFlight⟩ := Option.map_eq_some_iff.mp grown
  have reachable := (machine SizedRecords pairedConfig).run_reachable _ s ran
  have bounded := bounded_memory_when_growth_fits (R := SizedRecords) pairedConfig rfl (by decide)
    (by decide)
  exact ⟨s, reachable, inFlight, bounded.1 (Or.inr (Or.inr (Or.inl (by decide)))) s reachable⟩

/-- The growth of the default options does not fit. -/
example : ¬ GrowthFits SourceBackpressureOptions.default := by
  unfold GrowthFits
  decide

end Pipeline

end OpendataIngest.Runtime
