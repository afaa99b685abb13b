import Mathlib.Data.List.Induction
import Mathlib.Data.List.Nodup
import Mathlib.Order.Defs.LinearOrder
import Mathlib.Order.Lattice

/-!
# Tables that keep one row for each key

The merged view of such a table keeps, for every key, one row of highest version.  Whether
that loses rows depends on what the key tells apart.
-/

set_option autoImplicit false

namespace OpendataIngest.ReplacingMerge

variable {X K V I : Type} [LinearOrder V] (key : X → K) (version : X → V) (name : X → I)

/-- Which row is kept among those of one key and version is left open. -/
structure MergedView (rows view : List X) : Prop where
  kept : ∀ row ∈ view, row ∈ rows
  single : (view.map key).Nodup
  highest : ∀ row ∈ rows, ∃ survivor ∈ view, key survivor = key row ∧
    version row ≤ version survivor

/-- One row for each name, of the highest version under that name. -/
structure OneRowEach [DecidableEq I] (rows view : List X) : Prop where
  kept : ∀ row ∈ view, row ∈ rows
  once : ∀ row ∈ rows, view.countP (fun other => name other = name row) = 1
  highest : ∀ row ∈ rows, ∃ survivor ∈ view, name survivor = name row ∧
    ∀ other ∈ rows, name other = name row → version other ≤ version survivor

variable {key version name} {rows view : List X}

theorem MergedView.unique (merged : MergedView key version rows view) {left right : X}
    (isLeft : left ∈ view) (isRight : right ∈ view) (same : key left = key right) : left = right :=
  List.inj_on_of_nodup_map merged.single isLeft isRight same

/-- A survivor has the highest version of its key. -/
theorem MergedView.survivor_highest (merged : MergedView key version rows view) {survivor row : X}
    (survives : survivor ∈ view) (isRow : row ∈ rows) (same : key row = key survivor) :
    version row ≤ version survivor := by
  obtain ⟨other, isOther, sameKey, higher⟩ := merged.highest row isRow
  rwa [merged.unique isOther survives (sameKey.trans same)] at higher

variable [DecidableEq I]

/-- If rows of one name have one key, a name has at most one survivor. -/
theorem MergedView.countP_le_one (merged : MergedView key version rows view)
    (determined : ∀ left ∈ rows, ∀ right ∈ rows, name left = name right → key left = key right)
    (n : I) : view.countP (fun other => name other = n) ≤ 1 := by
  by_contra many
  rw [List.countP_eq_length_filter, Nat.not_le] at many
  have distinct : ((view.filter fun other => name other = n).map key).Nodup :=
    merged.single.sublist (List.filter_sublist.map key)
  obtain ⟨first, second, rest, shape⟩ : ∃ first second rest,
      (view.filter fun other => name other = n) = first :: second :: rest := by
    match filtered : view.filter fun other => name other = n, many with
    | first :: second :: rest, _ => exact ⟨first, second, rest, rfl⟩
  have isNamed : ∀ row ∈ first :: second :: rest, row ∈ rows ∧ name row = n := by
    intro row member
    rw [← shape] at member
    obtain ⟨inView, named⟩ := List.mem_filter.mp member
    exact ⟨merged.kept row inView, of_decide_eq_true named⟩
  obtain ⟨isFirst, firstName⟩ := isNamed first (by simp)
  obtain ⟨isSecond, secondName⟩ := isNamed second (by simp)
  have sameKey := determined first isFirst second isSecond (firstName.trans secondName.symm)
  rw [shape] at distinct
  simp [sameKey] at distinct

/-- The view holds one row for each name exactly when the key tells the names apart. -/
theorem MergedView.oneRowEach_iff (merged : MergedView key version rows view)
    (determined : ∀ left ∈ rows, ∀ right ∈ rows, name left = name right → key left = key right) :
    OneRowEach version name rows view ↔
      ∀ left ∈ rows, ∀ right ∈ rows, key left = key right → name left = name right := by
  constructor
  · intro each left isLeft right isRight sameKey
    obtain ⟨survivor, survives, sameName, _⟩ := each.highest left isLeft
    obtain ⟨survivor', survives', sameName', _⟩ := each.highest right isRight
    have keyLeft := determined survivor (merged.kept survivor survives) left isLeft sameName
    have keyRight := determined survivor' (merged.kept survivor' survives') right isRight sameName'
    have same := merged.unique survives survives' (keyLeft.trans (sameKey.trans keyRight.symm))
    rw [← sameName, ← sameName', same]
  · intro apart
    have survivorOf : ∀ row ∈ rows, ∃ survivor ∈ view, name survivor = name row ∧
        ∀ other ∈ rows, name other = name row → version other ≤ version survivor := by
      intro row isRow
      obtain ⟨survivor, survives, sameKey, _⟩ := merged.highest row isRow
      have sameName := apart survivor (merged.kept survivor survives) row isRow sameKey
      refine ⟨survivor, survives, sameName, fun other isOther named => ?_⟩
      refine merged.survivor_highest survives isOther ?_
      exact (determined other isOther row isRow named).trans sameKey.symm
    refine ⟨merged.kept, fun row isRow => ?_, survivorOf⟩
    obtain ⟨survivor, survives, sameName, _⟩ := survivorOf row isRow
    have some_ : 0 < view.countP (fun other => name other = name row) :=
      List.countP_pos_iff.mpr ⟨survivor, survives, decide_eq_true sameName⟩
    have most := merged.countP_le_one determined (name row)
    omega

/-! ## Merging -/

variable [DecidableEq K] (key version)

/-- A row replaces the one with its key unless that one has a higher version. -/
def mergeRow (view : List X) (row : X) : List X :=
  if view.any fun kept => key kept = key row ∧ version row < version kept then view
  else (view.filter fun kept => key kept ≠ key row) ++ [row]

def merge (rows : List X) : List X := rows.foldl (mergeRow key version) []

variable {key version}

omit [DecidableEq I] in
theorem MergedView.mergeRow (merged : MergedView key version rows view) (row : X) :
    MergedView key version (rows ++ [row]) (mergeRow key version view row) := by
  unfold ReplacingMerge.mergeRow
  split_ifs with older
  · obtain ⟨newer, isNewer, facts⟩ := List.any_eq_true.mp older
    obtain ⟨sameKey, less⟩ := of_decide_eq_true facts
    refine ⟨fun kept member => List.mem_append_left _ (merged.kept kept member), merged.single, ?_⟩
    intro other isOther
    rcases List.mem_append.mp isOther with old | new
    · exact merged.highest other old
    · rw [List.mem_singleton.mp new]
      exact ⟨newer, isNewer, sameKey, le_of_lt less⟩
  · have newest : ∀ kept ∈ view, key kept = key row → version kept ≤ version row := by
      intro kept member sameKey
      by_contra less
      exact older (List.any_eq_true.mpr ⟨kept, member,
        decide_eq_true ⟨sameKey, not_le.mp less⟩⟩)
    refine ⟨?_, ?_, ?_⟩
    · intro kept member
      rcases List.mem_append.mp member with old | new
      · exact List.mem_append_left _ (merged.kept kept (List.mem_of_mem_filter old))
      · exact List.mem_append_right _ new
    · rw [List.map_append]
      refine List.nodup_append.mpr ⟨merged.single.sublist (List.filter_sublist.map key),
        List.nodup_singleton _, ?_⟩
      rintro _ old _ new rfl
      obtain ⟨kept, member, sameKey⟩ := List.mem_map.mp old
      have differs := of_decide_eq_true (List.mem_filter.mp member).2
      exact differs (sameKey.trans (by simpa using new))
    · intro other isOther
      rcases List.mem_append.mp isOther with old | new
      · obtain ⟨survivor, survives, sameKey, higher⟩ := merged.highest other old
        by_cases replaced : key survivor = key row
        · exact ⟨row, by simp, replaced.symm.trans sameKey,
            le_trans higher (newest survivor survives replaced)⟩
        · refine ⟨survivor, List.mem_append_left _ ?_, sameKey, higher⟩
          exact List.mem_filter.mpr ⟨survives, decide_eq_true replaced⟩
      · rw [List.mem_singleton.mp new]
        exact ⟨row, by simp, rfl, le_refl _⟩

omit [DecidableEq I] in
theorem mergedView_merge (rows : List X) :
    MergedView key version rows (merge key version rows) := by
  induction rows using List.reverseRecOn with
  | nil => exact ⟨nofun, List.nodup_nil, nofun⟩
  | append_singleton rows row ih =>
      unfold merge
      rw [List.foldl_append]
      exact ih.mergeRow row

end OpendataIngest.ReplacingMerge
