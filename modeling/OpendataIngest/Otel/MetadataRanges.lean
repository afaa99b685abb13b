import OpendataIngest.Otel.Flattening
import OpendataIngest.Runtime.BufferSource

/-!
# Metadata ranges and the entries they cover

A metadata item covers the entries from its start index up to the next item's.  Of
several items with one start index only the last covers anything, and an item that starts
past the last entry covers nothing.  `split_into_raw_entries` finds the covering item of
each entry with one cursor that only moves forwards.
-/

set_option autoImplicit false

namespace OpendataIngest.Otel

open MachineInt OpendataIngest.Runtime

/-- The last item that starts at or before the entry. -/
def coveringItem (metadata : List Metadata) (entryIndex : Nat) : Option Metadata :=
  (metadata.filter fun item => item.startIndex.val ≤ entryIndex).getLast?

/-- The entry at a position, with what the item that covers it says. -/
def coveredEntry (metadata : List Metadata) (payload : Bytes) (i : Nat) : SourceEntry where
  entryIndex := Fin.ofNat (2 ^ 32) i
  rawBytes := payload
  rawMetadata := ((coveringItem metadata i).map Metadata.payload).getD []
  ingestionTimeMs := ((coveringItem metadata i).map Metadata.ingestionTimeMs).getD 0

/-- The cursor is on an item that starts at or before the entry, if there is any item. -/
def Cursor (metadata : List Metadata) (entryIndex rangeIdx : Nat) : Prop :=
  metadata = [] ∨ ∃ item, metadata[rangeIdx]? = some item ∧ item.startIndex.val ≤ entryIndex

section Ranges

variable {metadata : List Metadata}

theorem Cursor.mono {entryIndex later rangeIdx : Nat}
    (cursor : Cursor metadata entryIndex rangeIdx) (forwards : entryIndex ≤ later) :
    Cursor metadata later rangeIdx := by
  rcases cursor with empty | ⟨item, on_item, started⟩
  · exact Or.inl empty
  · exact Or.inr ⟨item, on_item, Nat.le_trans started forwards⟩

theorem cursor_start (first : ∀ item, metadata.head? = some item → item.startIndex = 0) :
    Cursor metadata 0 0 := by
  cases shape : metadata with
  | nil => exact Or.inl rfl
  | cons item rest =>
      have atZero := first item (by rw [shape]; rfl)
      exact Or.inr ⟨item, rfl, by rw [atZero]; exact Nat.le_refl 0⟩

/-- The item at a position covers the entry if it starts in time and the next does not. -/
theorem coveringItem_of_getElem? (sorted : metadata.Pairwise fun a b => a.startIndex ≤ b.startIndex)
    (entryIndex r : Nat) (item : Metadata) (on_item : metadata[r]? = some item)
    (started : item.startIndex.val ≤ entryIndex)
    (next : ∀ later, metadata[r + 1]? = some later → entryIndex < later.startIndex.val) :
    coveringItem metadata entryIndex = some item := by
  have inBound : r < metadata.length := (List.getElem?_eq_some_iff.mp on_item).1
  have cut : metadata.take r ++ item :: metadata.drop (r + 1) = metadata := by
    have atR : metadata[r] = item := (List.getElem?_eq_some_iff.mp on_item).2
    rw [← atR, List.getElem_cons_drop, List.take_append_drop]
  have notYet : (metadata.drop (r + 1)).filter (fun m => m.startIndex.val ≤ entryIndex) = [] := by
    refine List.filter_eq_nil_iff.mpr fun later member => ?_
    cases tail : metadata.drop (r + 1) with
    | nil =>
        rw [tail] at member
        cases member
    | cons head rest =>
        have isHead : metadata[r + 1]? = some head := by
          rw [← List.head?_drop, tail]
          rfl
        have headLate := next head isHead
        have tailSorted : (head :: rest).Pairwise fun a b => a.startIndex ≤ b.startIndex := by
          rw [← tail]
          exact sorted.sublist (List.drop_sublist _ _)
        rw [tail] at member
        have order : head.startIndex ≤ later.startIndex := by
          rcases List.mem_cons.mp member with same | inRest
          · exact Nat.le_of_eq (congrArg (fun item => item.startIndex.val) same).symm
          · exact (List.pairwise_cons.mp tailSorted).1 later inRest
        have orderVal : head.startIndex.val ≤ later.startIndex.val := order
        simp only [decide_eq_true_eq]
        omega
  rw [coveringItem, ← cut, List.filter_append, List.filter_cons_of_pos (by simpa using started),
    notYet, List.getLast?_append]
  rfl

theorem advanceRange_spec (entryIndex fuel r : Nat) (enough : metadata.length ≤ r + fuel)
    (item : Metadata) (on_item : metadata[r]? = some item)
    (started : item.startIndex.val ≤ entryIndex) :
    (∃ last, metadata[advanceRange metadata entryIndex fuel r]? = some last ∧
        last.startIndex.val ≤ entryIndex) ∧
      ∀ later, metadata[advanceRange metadata entryIndex fuel r + 1]? = some later →
        entryIndex < later.startIndex.val := by
  induction fuel generalizing r item with
  | zero =>
      have inBound : r < metadata.length := (List.getElem?_eq_some_iff.mp on_item).1
      omega
  | succ fuel ih =>
      simp only [advanceRange]
      cases next : metadata[r + 1]? with
      | none =>
          refine ⟨⟨item, on_item, started⟩, fun later isLater => ?_⟩
          rw [next] at isLater
          cases isLater
      | some following =>
          simp only
          by_cases moves : following.startIndex.val ≤ entryIndex
          · rw [if_pos moves]
            exact ih (r + 1) (by omega) following next moves
          · rw [if_neg moves]
            refine ⟨⟨item, on_item, started⟩, fun later isLater => ?_⟩
            rw [next] at isLater
            cases isLater
            exact Nat.lt_of_not_le moves

theorem advanceRange_covers (sorted : metadata.Pairwise fun a b => a.startIndex ≤ b.startIndex)
    (entryIndex r : Nat) (cursor : Cursor metadata entryIndex r) :
    metadata[advanceRange metadata entryIndex metadata.length r]? =
        coveringItem metadata entryIndex ∧
      Cursor metadata entryIndex (advanceRange metadata entryIndex metadata.length r) := by
  rcases cursor with empty | ⟨item, on_item, started⟩
  · rw [empty]
    exact ⟨rfl, Or.inl rfl⟩
  · obtain ⟨⟨last, on_last, lastStarted⟩, next⟩ := advanceRange_spec entryIndex metadata.length r
      (Nat.le_add_left _ _) item on_item started
    refine ⟨?_, Or.inr ⟨last, on_last, lastStarted⟩⟩
    rw [on_last, coveringItem_of_getElem? sorted entryIndex _ last on_last lastStarted next]

theorem splitEntries_eq (sorted : metadata.Pairwise fun a b => a.startIndex ≤ b.startIndex)
    (payloads : List Bytes) (i r : Nat) (addressed : i + payloads.length ≤ 2 ^ 32)
    (cursor : Cursor metadata i r) :
    splitEntries metadata payloads i r =
      (payloads.zipIdx i).map fun entry => coveredEntry metadata entry.1 entry.2 := by
  induction payloads generalizing i r with
  | nil => rfl
  | cons payload rest ih =>
      rw [List.length_cons] at addressed
      have index : (Fin.ofNat (2 ^ 32) i).val = i := Nat.mod_eq_of_lt (by omega)
      obtain ⟨covers, moved⟩ := advanceRange_covers sorted i r cursor
      have tail := ih (i + 1) _ (by omega) (moved.mono (Nat.le_succ i))
      simp only [splitEntries, index, covers, tail, List.zipIdx_cons, List.map_cons,
        List.cons.injEq, and_true]
      cases covering : coveringItem metadata i <;> simp [coveredEntry, covering]

end Ranges

theorem accepted_of_decode {prost : Prost} {σ : Nat} {batch : SourceBatch}
    {batches : List (DecodedBatch (TypedDecodedLogs σ))}
    (decodes : decode prost σ batch = some (.ok batches)) :
    ∀ entry ∈ batch.entries, accepts entry.rawMetadata = true := by
  unfold decode at decodes
  split at decodes
  · cases decodes
  · rename_i envelopes decoded
    split at decodes
    · cases decodes
    · rename_i valid
      exact (envelopes_valid_iff batch.entries).mp ⟨envelopes, decoded, valid⟩

/-- Every entry carries the payload and the time of the item that covers it, and a batch
decodes only if each item that covers an entry carries the expected envelope. -/
theorem split_applies_metadata_ranges (batch : ConsumedBatch) (source : SourceId)
    (manifestPath : String)
    (sorted : batch.metadata.Pairwise fun a b => a.startIndex ≤ b.startIndex)
    (first : ∀ item, batch.metadata.head? = some item → item.startIndex = 0)
    (few : batch.entries.length < 2 ^ 32) :
    (splitIntoRawEntries batch source manifestPath).entries.length = batch.entries.length ∧
      (∀ (i : Nat) (payload : Bytes), batch.entries[i]? = some payload →
        ∃ entry, (splitIntoRawEntries batch source manifestPath).entries[i]? = some entry ∧
          entry.entryIndex.val = i ∧ entry.rawBytes = payload ∧
          (batch.metadata = [] → entry.rawMetadata = [] ∧ entry.ingestionTimeMs = 0) ∧
          (batch.metadata ≠ [] → ∃ item, coveringItem batch.metadata i = some item ∧
            entry.rawMetadata = item.payload ∧
            entry.ingestionTimeMs = item.ingestionTimeMs)) ∧
      ∀ (prost : Prost) (σ : Nat) (batches : List (DecodedBatch (TypedDecodedLogs σ))),
        decode prost σ (splitIntoRawEntries batch source manifestPath) = some (.ok batches) →
        ∀ i < batch.entries.length, ∀ item, coveringItem batch.metadata i = some item →
          accepts item.payload = true := by
  have entries : (splitIntoRawEntries batch source manifestPath).entries =
      (batch.entries.zipIdx 0).map fun entry => coveredEntry batch.metadata entry.1 entry.2 :=
    splitEntries_eq sorted batch.entries 0 0 (by omega) (cursor_start first)
  refine ⟨?_, ?_, ?_⟩
  · rw [entries, List.length_map, List.length_zipIdx]
  · intro i payload at_i
    have inBound : i < batch.entries.length := (List.getElem?_eq_some_iff.mp at_i).1
    refine ⟨coveredEntry batch.metadata payload i, ?_, ?_, rfl, ?_, ?_⟩
    · rw [entries]
      simp [List.getElem?_zipIdx, at_i]
    · exact Nat.mod_eq_of_lt (by omega)
    · intro empty
      rw [empty]
      exact ⟨rfl, rfl⟩
    · intro nonempty
      obtain ⟨head, rest, shape⟩ := List.exists_cons_of_ne_nil nonempty
      have headStarts : head.startIndex.val ≤ i := by
        rw [first head (by rw [shape]; rfl)]
        exact Nat.zero_le i
      have covered : coveringItem batch.metadata i ≠ none := by
        rw [coveringItem, shape, ne_eq, List.getLast?_eq_none_iff,
          List.filter_cons_of_pos (by simpa using headStarts)]
        exact List.cons_ne_nil _ _
      obtain ⟨item, isItem⟩ := Option.ne_none_iff_exists'.mp covered
      exact ⟨item, isItem, by simp [coveredEntry, isItem], by simp [coveredEntry, isItem]⟩
  · intro prost σ batches decodes i inBound item isItem
    have accepted := accepted_of_decode decodes
    rw [entries] at accepted
    have member : coveredEntry batch.metadata batch.entries[i] i ∈
        (batch.entries.zipIdx 0).map fun entry => coveredEntry batch.metadata entry.1 entry.2 := by
      refine List.mem_map.mpr ⟨(batch.entries[i], i), ?_, rfl⟩
      refine List.mem_iff_getElem?.mpr ⟨i, ?_⟩
      simp [inBound]
    simpa [coveredEntry, isItem] using accepted _ member

/-- Two items at index 0, one at 2 and one past the end: the second covers two entries,
the third covers one, the others none. -/
theorem split_applies_metadata_ranges_with_duplicates :
    let metadata : List Metadata :=
      [⟨0, 1, [9]⟩, ⟨0, 2, [1, 2, 1, 0]⟩, ⟨2, 3, [1, 2, 1, 7]⟩, ⟨5, 4, [8]⟩]
    let batch : ConsumedBatch := ⟨[[10], [11], [12]], 6, "data/6", metadata⟩
    (splitIntoRawEntries batch ⟨"logs"⟩ "manifest").entries.length = 3 ∧
      ∃ entry, (splitIntoRawEntries batch ⟨"logs"⟩ "manifest").entries[1]? = some entry ∧
        entry.entryIndex.val = 1 ∧ entry.rawBytes = [11] ∧ entry.rawMetadata = [1, 2, 1, 0] ∧
        entry.ingestionTimeMs = 2 := by
  intro metadata batch
  obtain ⟨length, applied, _⟩ := split_applies_metadata_ranges batch ⟨"logs"⟩ "manifest"
    (by decide) (by intro item isFirst; cases isFirst; rfl) (by decide)
  obtain ⟨entry, at_one, index, bytes, _, covered⟩ := applied 1 [11] rfl
  obtain ⟨item, covering, payload, time⟩ := covered (List.cons_ne_nil _ _)
  have isSecond : item = ⟨0, 2, [1, 2, 1, 0]⟩ := by
    have computed : coveringItem metadata 1 = some ⟨0, 2, [1, 2, 1, 0]⟩ := by decide
    exact Option.some.inj (covering.symm.trans computed)
  refine ⟨length, entry, at_one, index, bytes, ?_, ?_⟩
  · rw [payload, isSecond]
  · rw [time, isSecond]

end OpendataIngest.Otel
