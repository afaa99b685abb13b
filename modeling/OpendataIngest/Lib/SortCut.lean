import Mathlib.Data.List.Chain
import Mathlib.Data.List.Sort

/-!
# Sorting and cutting a list

A stable sort keeps tied items in their order.  A greedy cut fills one slice after the
other: an item goes into the current slice unless the slice is non-empty and the item
would overflow it.  What makes a cut greedy determines it.
-/

set_option autoImplicit false

namespace OpendataIngest.SortCut

variable {A : Type}

/-! ## Stable sorts -/

/-- `output` is `input` in the order `before`, with tied items as they were. -/
structure StableSort (before : A → A → Prop) [DecidableRel before] (input output : List A) :
    Prop where
  perm : output.Perm input
  ordered : output.Pairwise before
  stable : ∀ a, (output.filter fun b => decide (before a b ∧ before b a)) =
    input.filter fun b => decide (before a b ∧ before b a)

theorem stableSort_insertionSort (before : A → A → Prop) [DecidableRel before]
    [Std.Total before] [IsTrans A before] (items : List A) :
    StableSort before items (items.insertionSort before) where
  perm := List.perm_insertionSort before items
  ordered := List.pairwise_insertionSort before items
  stable a := by
    -- the tied items are ordered among themselves, so the sort keeps them as a sublist
    have tied : (items.filter fun b => decide (before a b ∧ before b a)).Pairwise before := by
      refine List.pairwise_of_forall_mem_list fun b isB c isC => ?_
      have left := (List.mem_filter.mp isB).2
      have right := (List.mem_filter.mp isC).2
      simp only [decide_eq_true_eq] at left right
      exact IsTrans.trans b a c left.2 right.1
    have kept := (List.sublist_insertionSort tied List.filter_sublist).filter
      fun b => decide (before a b ∧ before b a)
    rw [List.filter_filter] at kept
    simp only [Bool.and_self] at kept
    refine (kept.eq_of_length ?_).symm
    exact ((List.perm_insertionSort before items).filter _).length_eq.symm

/-- Items that are never tied are sorted alike from every order. -/
theorem insertionSort_eq_of_perm (before : A → A → Prop) [DecidableRel before]
    [Std.Total before] [IsTrans A before] {left right : List A} (perm : left.Perm right)
    (untied : ∀ a ∈ left, ∀ b ∈ left, before a b → before b a → a = b) :
    left.insertionSort before = right.insertionSort before := by
  refine List.Perm.eq_of_pairwise ?_ (List.pairwise_insertionSort before left)
    (List.pairwise_insertionSort before right) ?_
  · intro a b isA isB forth back
    rw [List.mem_insertionSort] at isA isB
    exact untied a isA b (perm.mem_iff.mpr isB) forth back
  · exact (List.perm_insertionSort before left).trans
      (perm.trans (List.perm_insertionSort before right).symm)

/-! ## Greedy cuts -/

section Cut

variable (overflows : List A → A → Prop)

/-- A slice that can be filled item by item. -/
def Fills (slice : List A) : Prop :=
  ∀ before item after, slice = before ++ item :: after → before ≠ [] → ¬ overflows before item

structure GreedyCut (items : List A) (slices : List (List A)) : Prop where
  covers : slices.flatten = items
  nonempty : ∀ slice ∈ slices, slice ≠ []
  fills : ∀ slice ∈ slices, Fills overflows slice
  full : slices.IsChain fun slice next => ∀ item ∈ next.head?, overflows slice item

variable {overflows}

theorem fills_nil : Fills overflows [] := by
  intro before item after split
  cases before with
  | nil => cases split
  | cons first rest => cases split

theorem fills_singleton (item : A) : Fills overflows [item] := by
  intro before other after split nonempty
  cases before with
  | nil => exact absurd rfl nonempty
  | cons first rest => simp at split

theorem Fills.snoc {current : List A} {item : A} (fills : Fills overflows current)
    (room : current ≠ [] → ¬ overflows current item) : Fills overflows (current ++ [item]) := by
  intro before other after split nonempty
  rcases List.eq_nil_or_concat after with rfl | ⟨front, last, rfl⟩
  · obtain ⟨rfl, sameItem⟩ := List.append_inj' split rfl
    cases sameItem
    exact room nonempty
  · have shorter : current ++ [item] = (before ++ other :: front) ++ [last] := by
      rw [split, List.concat_eq_append, List.append_assoc, List.cons_append]
    exact fills before other front (List.append_inj' shorter rfl).1 nonempty

theorem GreedyCut.tail {slice : List A} {items : List A} {slices : List (List A)}
    (cut : GreedyCut overflows items (slice :: slices)) :
    GreedyCut overflows slices.flatten slices where
  covers := rfl
  nonempty s member := cut.nonempty s (List.mem_cons_of_mem _ member)
  fills s member := cut.fills s (List.mem_cons_of_mem _ member)
  full := (List.isChain_cons.mp cut.full).2

/-- The first slice of one cut is no longer than that of another one. -/
theorem GreedyCut.first_not_longer {items : List A} {slice slice' rest : List A}
    {slices slices' : List (List A)} {item : A}
    (cut : GreedyCut overflows items (slice :: slices))
    (cut' : GreedyCut overflows items (slice' :: slices'))
    (longer : slice' = slice ++ item :: rest) : False := by
  have same := cut.covers.trans cut'.covers.symm
  rw [List.flatten_cons, List.flatten_cons, longer, List.append_assoc, List.append_cancel_left_eq]
    at same
  cases slices with
  | nil => simp at same
  | cons next later =>
      have filled := cut.nonempty next (by simp)
      obtain ⟨head, others, rfl⟩ := List.exists_cons_of_ne_nil filled
      rw [List.flatten_cons, List.cons_append, List.cons_append, List.cons.injEq] at same
      have full := (List.isChain_cons.mp cut.full).1 (head :: others) rfl head rfl
      rw [same.1] at full
      exact cut'.fills slice' (by simp) slice item rest longer (cut.nonempty slice (by simp)) full

/-- Cuts of one list whose slices are pairwise of one length are the same cut. -/
theorem eq_of_flatten_eq {slices slices' : List (List A)} (nonempty : ∀ slice ∈ slices, slice ≠ [])
    (nonempty' : ∀ slice ∈ slices', slice ≠ []) (same : slices.flatten = slices'.flatten)
    (lengths : ∀ (position : Nat) (slice slice' : List A), slices[position]? = some slice →
      slices'[position]? = some slice' → slice.length = slice'.length) : slices = slices' := by
  induction slices generalizing slices' with
  | nil =>
      cases slices' with
      | nil => rfl
      | cons slice' later' =>
          have empty := nonempty' slice' (by simp)
          simp [empty] at same
  | cons slice later ih =>
      cases slices' with
      | nil =>
          have empty := nonempty slice (by simp)
          simp [empty] at same
      | cons slice' later' =>
          rw [List.flatten_cons, List.flatten_cons] at same
          obtain ⟨rfl, sameLater⟩ := List.append_inj same (lengths 0 slice slice' rfl rfl)
          rw [ih (fun s member => nonempty s (List.mem_cons_of_mem _ member))
            (fun s member => nonempty' s (List.mem_cons_of_mem _ member)) sameLater
            fun position s s' => lengths (position + 1) s s']

theorem GreedyCut.unique {items : List A} {slices slices' : List (List A)}
    (cut : GreedyCut overflows items slices) (cut' : GreedyCut overflows items slices') :
    slices = slices' := by
  induction slices generalizing items slices' with
  | nil =>
      cases slices' with
      | nil => rfl
      | cons slice' later' =>
          have same := cut.covers.trans cut'.covers.symm
          have empty := cut'.nonempty slice' (by simp)
          simp [empty] at same
  | cons slice later ih =>
      cases slices' with
      | nil =>
          have same := cut.covers.trans cut'.covers.symm
          have empty := cut.nonempty slice (by simp)
          simp [empty] at same
      | cons slice' later' =>
          have same := cut.covers.trans cut'.covers.symm
          rw [List.flatten_cons, List.flatten_cons] at same
          have sameFirst : slice = slice' := by
            rcases List.append_eq_append_iff.mp same with ⟨extra, longer, _⟩ | ⟨extra, longer, _⟩
            · cases extra with
              | nil => rw [longer, List.append_nil]
              | cons item rest => exact (cut.first_not_longer cut' longer).elim
            · cases extra with
              | nil => rw [longer, List.append_nil]
              | cons item rest => exact (cut'.first_not_longer cut longer).elim
          subst sameFirst
          rw [List.append_cancel_left_eq] at same
          have rest := cut'.tail
          rw [← same] at rest
          rw [ih cut.tail rest]

end Cut

/-! ## Cutting -/

variable (overflows : List A → A → Prop) [∀ slice item, Decidable (overflows slice item)]

def cutFrom : List A → List A → List (List A)
  | current, [] => if current.isEmpty then [] else [current]
  | current, item :: rest =>
      if !current.isEmpty ∧ overflows current item then current :: cutFrom [item] rest
      else cutFrom (current ++ [item]) rest

def cut (items : List A) : List (List A) := cutFrom overflows [] items

variable {overflows}

theorem cutFrom_head (current items : List A) (nonempty : current ≠ []) :
    ∃ rest later, cutFrom overflows current items = (current ++ rest) :: later := by
  induction items generalizing current with
  | nil => exact ⟨[], [], by simp [cutFrom, nonempty]⟩
  | cons item rest ih =>
      unfold cutFrom
      split_ifs with flush
      · exact ⟨[], cutFrom overflows [item] rest, by rw [List.append_nil]⟩
      · obtain ⟨more, later, result⟩ := ih (current ++ [item]) (by simp)
        exact ⟨item :: more, later, by rw [result, List.append_assoc]; rfl⟩

/-- The slices cut from a filled slice on. -/
theorem greedyCut_cutFrom {current : List A} (fills : Fills overflows current)
    (items : List A) :
    GreedyCut overflows (current ++ items) (cutFrom overflows current items) := by
  induction items generalizing current with
  | nil =>
      unfold cutFrom
      split_ifs with empty
      · rw [List.isEmpty_iff.mp empty]
        exact ⟨rfl, nofun, nofun, .nil⟩
      · refine ⟨by simp, ?_, ?_, .singleton _⟩
        · intro slice member
          rw [List.mem_singleton.mp member]
          simpa using empty
        · intro slice member
          rw [List.mem_singleton.mp member]
          exact fills
  | cons item rest ih =>
      unfold cutFrom
      split_ifs with flush
      · have later : GreedyCut overflows ([item] ++ rest) (cutFrom overflows [item] rest) :=
          ih (fills_singleton item)
        have nonempty : current ≠ [] := by simpa using flush.1
        obtain ⟨more, after, shape⟩ : ∃ more after,
            cutFrom overflows [item] rest = ([item] ++ more) :: after :=
          cutFrom_head [item] rest (by simp)
        refine ⟨?_, ?_, ?_, ?_⟩
        · rw [List.flatten_cons, later.covers]
          rfl
        · intro slice member
          rcases List.mem_cons.mp member with rfl | member
          · exact nonempty
          · exact later.nonempty slice member
        · intro slice member
          rcases List.mem_cons.mp member with rfl | member
          · exact fills
          · exact later.fills slice member
        · refine List.isChain_cons.mpr ⟨?_, later.full⟩
          intro next isNext head isHead
          rw [shape] at isNext
          cases isNext
          cases isHead
          exact flush.2
      · have room : current ≠ [] → ¬ overflows current item := by
          intro nonempty full
          exact flush ⟨by simpa using nonempty, full⟩
        have later := ih (fills.snoc room)
        rw [List.append_assoc] at later
        exact later

theorem greedyCut_cut (items : List A) : GreedyCut overflows items (cut overflows items) :=
  greedyCut_cutFrom fills_nil items

theorem GreedyCut.eq_cut {items : List A} {slices : List (List A)}
    (greedy : GreedyCut overflows items slices) : slices = cut overflows items :=
  greedy.unique (greedyCut_cut items)

/-! ## Two tests on one walk -/

section Walk

variable (overflows) (holds : List A → A → Prop)

/-- What holds at every item, with the slice that the cut has in hand there. -/
def AlongCut : List A → List A → Prop
  | _, [] => True
  | current, item :: rest => holds current item ∧
      AlongCut
        (if !current.isEmpty ∧ overflows current item then [item] else current ++ [item]) rest

instance AlongCut.decidable [∀ slice item, Decidable (holds slice item)] :
    ∀ current items : List A, Decidable (AlongCut overflows holds current items)
  | _, [] => isTrue trivial
  | current, item :: rest =>
      have := AlongCut.decidable
        (if !current.isEmpty ∧ overflows current item then [item] else current ++ [item]) rest
      inferInstanceAs (Decidable (_ ∧ _))

variable {overflows holds}

theorem alongCut_congr {holds' : List A → A → Prop}
    (same : ∀ slice item, holds slice item ↔ holds' slice item) (current items : List A) :
    AlongCut overflows holds current items ↔ AlongCut overflows holds' current items := by
  induction items generalizing current with
  | nil => exact Iff.rfl
  | cons item rest ih => rw [AlongCut, AlongCut, same, ih]

variable {overflows' : List A → A → Prop} [∀ slice item, Decidable (overflows' slice item)]

/-- A cut that goes on with its slice is not one that ends the slice here. -/
theorem cutFrom_apart {current rest : List A} {item : A} (slices : List (List A)) :
    current :: slices ≠ cutFrom overflows (current ++ [item]) rest := by
  intro same
  obtain ⟨more, later, longer⟩ : ∃ more later,
      cutFrom overflows (current ++ [item]) rest = (current ++ [item] ++ more) :: later :=
    cutFrom_head _ _ (by simp)
  rw [longer] at same
  have lengths := congrArg List.length (List.cons.inj same).1
  simp only [List.length_append, List.length_singleton] at lengths
  omega

/-- Two tests cut alike exactly when they agree wherever the cut has a slice in hand. -/
theorem cutFrom_eq_iff (current items : List A) :
    cutFrom overflows current items = cutFrom overflows' current items ↔
      AlongCut overflows (fun slice item => slice ≠ [] → (overflows slice item ↔
        overflows' slice item)) current items := by
  induction items generalizing current with
  | nil => exact iff_of_true rfl trivial
  | cons item rest ih =>
      by_cases agree : current ≠ [] → (overflows current item ↔ overflows' current item)
      · have sameTest : (!current.isEmpty ∧ overflows current item) ↔
            (!current.isEmpty ∧ overflows' current item) := by
          refine and_congr_right fun filled => agree ?_
          simpa using filled
        rw [AlongCut, and_iff_right agree, cutFrom, cutFrom]
        by_cases flush : !current.isEmpty ∧ overflows current item
        · rw [if_pos flush, if_pos (sameTest.mp flush), if_pos flush, ← ih [item]]
          simp
        · rw [if_neg flush, if_neg fun test => flush (sameTest.mpr test), if_neg flush, ih]
      · refine iff_of_false (fun same => ?_) fun along => agree along.1
        rw [Classical.not_imp] at agree
        obtain ⟨nonempty, differ⟩ := agree
        have filled : !current.isEmpty := by simpa using nonempty
        rw [cutFrom, cutFrom] at same
        by_cases full : overflows current item
        · have room : ¬ overflows' current item := fun full' => differ (iff_of_true full full')
          rw [if_pos ⟨filled, full⟩, if_neg fun test => room test.2] at same
          exact cutFrom_apart _ same
        · have full' : overflows' current item := by
            by_contra room
            exact differ (iff_of_false full room)
          rw [if_neg fun test => full test.2, if_pos ⟨filled, full'⟩] at same
          exact cutFrom_apart _ same.symm

end Walk

end OpendataIngest.SortCut
