import Mathlib.Data.List.Dedup
import Mathlib.Data.List.SplitBy
import Mathlib.Data.List.Perm.Lattice
import Mathlib.Data.String.Basic
import FaultDesk.Proofs.Selection.Gathering

/-!
How the blocks of a selection divide its samples. The streamed samples stay in order, a block ends
where the unit changes, and all extra samples of a unit join its first block.
-/

namespace FaultDesk

/-! ## Texts in order -/

theorem eraseReps_loop {a : String} {rest acc : List String}
    (hsorted : (a :: rest).Pairwise (· ≤ ·)) (hacc : (a :: acc).Pairwise (· > ·)) :
    (List.eraseRepsBy.loop (· == ·) a rest acc).Pairwise (· < ·) ∧
      ∀ x, x ∈ List.eraseRepsBy.loop (· == ·) a rest acc ↔ x ∈ acc ∨ x = a ∨ x ∈ rest := by
  -- the accumulator holds what has been left so far, the greatest first
  induction rest generalizing a acc with
  | nil =>
    refine ⟨List.pairwise_reverse.mpr hacc, ?_⟩
    intro x
    simp [List.eraseRepsBy.loop, or_comm]
  | cons b rest ih =>
    obtain ⟨hle, hrest⟩ := List.pairwise_cons.mp hsorted
    by_cases hab : a = b
    · subst b
      obtain ⟨hpairs, hmem⟩ := @ih a acc hrest hacc
      simp only [List.eraseRepsBy.loop, beq_self_eq_true]
      refine ⟨hpairs, ?_⟩
      intro x
      rw [hmem x]
      simp
    · have hlt : a < b := lt_of_le_of_ne (hle b List.mem_cons_self) hab
      have hacc' : (b :: a :: acc).Pairwise (· > ·) := by
        refine List.pairwise_cons.mpr ⟨?_, hacc⟩
        intro x hx
        rcases List.mem_cons.mp hx with rfl | hx
        · exact hlt
        · exact lt_trans ((List.pairwise_cons.mp hacc).1 x hx) hlt
      obtain ⟨hpairs, hmem⟩ := @ih b (a :: acc) hrest hacc'
      simp only [List.eraseRepsBy.loop, beq_eq_false_iff_ne.mpr hab]
      refine ⟨hpairs, ?_⟩
      intro x
      rw [hmem x]
      simp only [List.mem_cons]
      tauto

theorem ascending_spec (texts : List String) :
    (ascending texts).Pairwise (· < ·) ∧ ∀ x, x ∈ ascending texts ↔ x ∈ texts := by
  have hsorted : (texts.mergeSort fun a b => decide (a ≤ b)).Pairwise (· ≤ ·) := by
    have h : (texts.mergeSort fun a b => decide (a ≤ b)).Pairwise fun a b => decide (a ≤ b) :=
      List.pairwise_mergeSort (by simpa using fun a b c => le_trans) (by simpa using le_total) texts
    simpa using h
  have hmem (x : String) : x ∈ texts.mergeSort (fun a b => decide (a ≤ b)) ↔ x ∈ texts :=
    List.mem_mergeSort
  unfold ascending List.eraseReps List.eraseRepsBy
  generalize texts.mergeSort (fun a b => decide (a ≤ b)) = sorted at hsorted hmem
  cases sorted with
  | nil => exact ⟨List.Pairwise.nil, hmem⟩
  | cons a rest =>
    obtain ⟨hpairs, hleft⟩ := eraseReps_loop hsorted (List.pairwise_singleton (· > ·) a)
    refine ⟨hpairs, ?_⟩
    intro x
    rw [← hmem x]
    simpa using hleft x

theorem nodup_ascending (texts : List String) : (ascending texts).Nodup :=
  (ascending_spec texts).1.imp fun h => ne_of_lt h

/-! ## What the loop keeps -/

namespace Gathering

/-- The blocks that have been handed over. -/
def judged (g : Gathering) : List Block := g.steps.filterMap SelectionStep.judged?

/-- The samples of the block that is being gathered. -/
def buffer (g : Gathering) : List Sample := (g.current.map (·.2)).getD []

/-- The samples that have been taken. -/
def taken (g : Gathering) : List Sample := g.steps.filterMap SelectionStep.taken?

/-- The streamed samples of all blocks, the unfinished one included. -/
def held (g : Gathering) : List Sample := g.judged.flatMap (·.streamed) ++ g.buffer

/-- The units of all blocks, the unfinished one included. -/
def units (g : Gathering) : List String := g.judged.map (·.unit) ++ (g.current.map (·.1)).toList

/-- The samples of a block are those of its unit, in the unfinished block too; neighbouring blocks
have different units; the extra samples of a unit have joined its first block, and the others
wait. -/
structure Sound (extra : List Sample) (g : Gathering) : Prop where
  own : ∀ b ∈ g.judged, b.streamed ≠ [] ∧ ∀ s ∈ b.streamed, s.unit = b.unit
  gathered : ∀ unit ss, g.current = some (unit, ss) → ss ≠ [] ∧ ∀ s ∈ ss, s.unit = unit
  turns : g.units.IsChain (· ≠ ·)
  pending : g.pending = extra.filter fun s => decide (s.unit ∉ g.judged.map (·.unit))
  joins : ∀ i b, g.judged[i]? = some b →
    b.extra = if b.unit ∈ (g.judged.take i).map (·.unit) then []
      else extra.filter (·.unit = b.unit)
  shared : (g.judged.flatMap (·.extra) ++ g.pending).Perm extra

variable {extra : List Sample} {g : Gathering}

theorem sound_start (extra : List Sample) : (start extra).Sound extra := by
  refine ⟨?_, ?_, ?_, ?_, ?_, ?_⟩ <;> simp [start, judged, units]

theorem judged_steps_take (s : Sample) :
    ({ g with steps := g.steps ++ [.take s] } : Gathering).judged = g.judged := by
  simp [judged, SelectionStep.judged?]

theorem Sound.of_steps {s : Sample} (h : g.Sound extra) :
    ({ g with steps := g.steps ++ [.take s] } : Gathering).Sound extra := by
  have hjudged := @judged_steps_take g s
  have hunits : ({ g with steps := g.steps ++ [.take s] } : Gathering).units = g.units := by
    simp [units, hjudged]
  refine ⟨?_, h.gathered, ?_, ?_, ?_, ?_⟩
  · rw [hjudged]
    exact h.own
  · rw [hunits]
    exact h.turns
  · rw [hjudged]
    exact h.pending
  · rw [hjudged]
    exact h.joins
  · rw [hjudged]
    exact h.shared

theorem judged_close {unit : String} {ss : List Sample} (hc : g.current = some (unit, ss)) :
    g.close.judged = g.judged ++ [⟨unit, ss, g.pending.filter (·.unit = unit)⟩] ∧
      g.close.pending = g.pending.filter (·.unit ≠ unit) ∧ g.close.current = none := by
  simp [close, hc, judged, SelectionStep.judged?]

theorem close_of_none (hc : g.current = none) : g.close = g := by
  simp [close, hc]

theorem current_close : g.close.current = none := by
  cases hc : g.current with
  | none => rw [close_of_none hc, hc]
  | some c => exact (judged_close hc).2.2

theorem taken_close : g.close.taken = g.taken := by
  cases hc : g.current with
  | none => rw [close_of_none hc]
  | some c => simp [close, hc, taken, SelectionStep.taken?]

theorem held_close : g.close.held = g.held := by
  cases hc : g.current with
  | none => rw [close_of_none hc]
  | some c =>
    obtain ⟨unit, ss⟩ := c
    obtain ⟨hjudged, -, hcurrent⟩ := judged_close hc
    simp [held, buffer, hjudged, hcurrent, hc]

theorem units_close : g.close.units = g.units := by
  cases hc : g.current with
  | none => rw [close_of_none hc]
  | some c =>
    obtain ⟨unit, ss⟩ := c
    obtain ⟨hjudged, -, hcurrent⟩ := judged_close hc
    simp [units, hjudged, hcurrent, hc]

/-- Extra samples of a unit wait if and only if no block of the unit has been handed over. -/
theorem Sound.pending_of_unit (h : g.Sound extra) (unit : String) :
    g.pending.filter (·.unit = unit) =
      if unit ∈ g.judged.map (·.unit) then [] else extra.filter (·.unit = unit) := by
  rw [h.pending, List.filter_filter]
  split
  next hmem =>
    refine List.filter_eq_nil_iff.mpr ?_
    intro s _ hs
    simp only [Bool.and_eq_true, decide_eq_true_eq] at hs
    exact hs.2 (hs.1 ▸ hmem)
  next hmem =>
    refine List.filter_congr ?_
    intro s _
    by_cases hs : s.unit = unit
    · simp [hs, hmem]
    · simp [hs]

theorem Sound.close (h : g.Sound extra) : g.close.Sound extra := by
  cases hc : g.current with
  | none =>
    rw [close_of_none hc]
    exact h
  | some c =>
    obtain ⟨unit, ss⟩ := c
    obtain ⟨hjudged, hpending, hcurrent⟩ := judged_close hc
    obtain ⟨hne, hunit⟩ := h.gathered unit ss hc
    refine ⟨?_, ?_, ?_, ?_, ?_, ?_⟩
    · intro b hb
      rw [hjudged] at hb
      rcases List.mem_append.mp hb with hb | hb
      · exact h.own b hb
      · rw [List.mem_singleton.mp hb]
        exact ⟨hne, hunit⟩
    · intro u us hcur
      rw [hcurrent] at hcur
      cases hcur
    · rw [units_close]
      exact h.turns
    · rw [hpending, hjudged, h.pending, List.filter_filter]
      refine List.filter_congr ?_
      intro s _
      simp only [List.map_append, List.map_cons, List.map_nil, List.mem_append, List.mem_singleton]
      by_cases hs : s.unit = unit <;> simp [hs]
    · intro i b hb
      rw [hjudged] at hb ⊢
      rw [List.getElem?_append] at hb
      split at hb
      next hlt =>
        rw [List.take_append_of_le_length hlt.le]
        exact h.joins i b hb
      next hge =>
        -- the block that is handed over now takes what still waits of its unit
        have hi : i - g.judged.length = 0 := by
          have hlt := (List.getElem?_eq_some_iff.mp hb).1
          simpa using hlt
        simp only [hi, List.getElem?_cons_zero, Option.some.injEq] at hb
        subst hb
        have htake : (g.judged ++ [(⟨unit, ss, g.pending.filter (·.unit = unit)⟩ : Block)]).take i =
            g.judged := List.take_left' (by omega)
        rw [htake]
        exact h.pending_of_unit unit
    · rw [hjudged, hpending, List.flatMap_append]
      have hpart := List.filter_append_perm (fun s : Sample => decide (s.unit = unit)) g.pending
      have hall := (hpart.append_left (g.judged.flatMap (·.extra))).trans h.shared
      simpa using hall

theorem taken_take (s : Sample) : (g.take s).taken = g.taken ++ [s] := by
  cases hc : g.current with
  | none => simp [take, hc, taken, SelectionStep.taken?]
  | some c =>
    obtain ⟨unit, ss⟩ := c
    by_cases hs : s.unit = unit
    · simp [take, hc, hs, taken, SelectionStep.taken?]
    · simp [take, close, hc, hs, taken, List.filterMap_cons, SelectionStep.taken?]

theorem held_take (s : Sample) : (g.take s).held = g.held ++ [s] := by
  cases hc : g.current with
  | none => simp [take, hc, held, buffer, judged, SelectionStep.judged?]
  | some c =>
    obtain ⟨unit, ss⟩ := c
    by_cases hs : s.unit = unit
    · simp [take, hc, hs, held, buffer, judged, SelectionStep.judged?]
    · simp [take, close, hc, hs, held, buffer, judged, List.filterMap_cons, SelectionStep.judged?]

theorem current_take (s : Sample) : (g.take s).current ≠ none := by
  cases hc : g.current with
  | none => simp [take, hc]
  | some c =>
    obtain ⟨unit, ss⟩ := c
    by_cases hs : s.unit = unit <;> simp [take, hc, hs]

theorem Sound.begin {s : Sample} (h : g.Sound extra) (hc : g.current = none)
    (hlast : (g.units ++ [s.unit]).IsChain (· ≠ ·)) :
    ({ g with current := some (s.unit, [s]) } : Gathering).Sound extra := by
  refine ⟨h.own, ?_, ?_, h.pending, h.joins, h.shared⟩
  · intro unit ss hcur
    cases hcur
    simp
  · simpa [units, judged, hc] using hlast

theorem Sound.extend {s : Sample} {ss : List Sample} (h : g.Sound extra)
    (hc : g.current = some (s.unit, ss)) :
    ({ g with current := some (s.unit, ss ++ [s]) } : Gathering).Sound extra := by
  refine ⟨h.own, ?_, ?_, h.pending, h.joins, h.shared⟩
  · intro unit us hcur
    cases hcur
    refine ⟨by simp, ?_⟩
    intro x hx
    rcases List.mem_append.mp hx with hx | hx
    · exact (h.gathered _ ss hc).2 x hx
    · rw [List.mem_singleton.mp hx]
  · simpa [units, judged, hc] using h.turns

theorem Sound.take {s : Sample} (h : g.Sound extra) (hfirst : g.current = none → g.judged = []) :
    (g.take s).Sound extra := by
  have h' := @Sound.of_steps extra g s h
  cases hc : g.current with
  | none =>
    have htake : g.take s =
        { g with steps := g.steps ++ [.take s], current := some (s.unit, [s]) } := by
      simp [Gathering.take, hc]
    rw [htake]
    refine h'.begin hc ?_
    rw [units, judged_steps_take, hfirst hc, hc]
    exact List.isChain_singleton _
  | some c =>
    obtain ⟨unit, ss⟩ := c
    by_cases hs : s.unit = unit
    · have htake : g.take s =
          { g with steps := g.steps ++ [.take s], current := some (unit, ss ++ [s]) } := by
        simp [Gathering.take, hc, hs]
      rw [htake]
      subst hs
      exact h'.extend hc
    · have htake : g.take s =
          { ({ g with steps := g.steps ++ [.take s] } : Gathering).close with
            current := some (s.unit, [s]) } := by
        simp [Gathering.take, hc, hs]
      rw [htake]
      refine h'.close.begin current_close ?_
      rw [units_close]
      refine h'.turns.append (List.isChain_singleton _) ?_
      simp [units, hc, Ne.symm hs]

theorem taken_foldl (g : Gathering) (stream : List Sample) :
    (stream.foldl Gathering.take g).taken = g.taken ++ stream := by
  induction stream generalizing g with
  | nil => simp
  | cons s rest ih => rw [List.foldl_cons, ih, taken_take, List.append_assoc, List.singleton_append]

theorem sound_foldl {g : Gathering} (h : g.Sound extra)
    (hfirst : g.current = none → g.judged = []) (stream : List Sample) :
    (stream.foldl Gathering.take g).Sound extra ∧
      (stream.foldl Gathering.take g).held = g.held ++ stream := by
  induction stream generalizing g with
  | nil => exact ⟨h, by simp⟩
  | cons s rest ih =>
    obtain ⟨hsound, hheld⟩ := ih (h.take hfirst) fun hc => absurd hc (current_take s)
    refine ⟨hsound, ?_⟩
    rw [List.foldl_cons, hheld, held_take, List.append_assoc, List.singleton_append]

theorem sound_ofStream (stream extra : List Sample) :
    (ofStream stream extra).Sound extra ∧
      (ofStream stream extra).judged.flatMap (·.streamed) = stream ∧
      (ofStream stream extra).current = none := by
  obtain ⟨hsound, hheld⟩ := sound_foldl (sound_start extra) (fun _ => rfl) stream
  refine ⟨hsound.close, ?_, current_close⟩
  have h : (ofStream stream extra).held = stream :=
    held_close.trans hheld
  have hcur : (ofStream stream extra).current = none := current_close
  rw [held, buffer, hcur] at h
  simpa using h

/-- The streamed parts of the blocks are the longest parts of the stream that are of one unit. -/
theorem Sound.splitBy (h : g.Sound extra) (hc : g.current = none) :
    g.judged.map (·.streamed) =
      (g.judged.flatMap (·.streamed)).splitBy fun a b => a.unit == b.unit := by
  refine (List.splitBy_eq_iff.mpr ⟨List.flatMap_def, ?_, ?_, ?_⟩).symm
  · intro hmem
    obtain ⟨b, hb, hnil⟩ := List.mem_map.mp hmem
    exact (h.own b hb).1 hnil
  · intro part hpart
    obtain ⟨b, hb, rfl⟩ := List.mem_map.mp hpart
    refine (List.pairwise_of_forall_mem_list ?_).isChain
    intro x hx y hy
    rw [(h.own b hb).2 x hx, (h.own b hb).2 y hy, beq_self_eq_true]
  · rw [List.isChain_map]
    have hturns : (g.judged.map (·.unit)).IsChain (· ≠ ·) := by
      simpa [units, hc] using h.turns
    rw [List.isChain_map] at hturns
    refine hturns.imp_of_mem_imp ?_
    intro a b ha hb hne
    refine ⟨(h.own a ha).1, (h.own b hb).1, ?_⟩
    rw [(h.own a ha).2 _ (List.getLast_mem _), (h.own b hb).2 _ (List.head_mem _)]
    exact beq_eq_false_iff_ne.mpr hne

end Gathering

/-! ## The blocks of a selection -/

theorem judged_stepsFrom (n : Nat) (bs : List Block) :
    (stepsFrom n bs).filterMap SelectionStep.judged? = bs := by
  induction bs generalizing n with
  | nil => rfl
  | cons b rest ih =>
    have htakes (ss : List Sample) :
        (ss.map SelectionStep.take).filterMap SelectionStep.judged? = [] := by
      simp [SelectionStep.judged?]
    rw [stepsFrom, List.filterMap_append, htakes]
    simp [SelectionStep.judged?, ih]

variable (stream extra : List Sample)

theorem judged_selectionSteps :
    (selectionSteps stream extra).filterMap SelectionStep.judged? = blocks stream extra := by
  rw [selectionSteps_eq, judged_stepsFrom]

theorem taken_selectionSteps :
    (selectionSteps stream extra).filterMap SelectionStep.taken? = stream := by
  have htaken : (Gathering.ofStream stream extra).taken = stream :=
    Gathering.taken_close.trans (Gathering.taken_foldl (Gathering.start extra) stream)
  rw [selectionSteps, List.filterMap_append, List.filterMap_map]
  simpa [Gathering.taken, Function.comp_def, SelectionStep.taken?] using htaken

theorem blocks_eq :
    blocks stream extra = (Gathering.ofStream stream extra).judged ++
      extraBlocks (Gathering.ofStream stream extra).pending := by
  rw [← judged_selectionSteps, selectionSteps, List.filterMap_append, List.filterMap_map]
  simp [Gathering.judged, Function.comp_def, SelectionStep.judged?]

/-- Samples parted by their units are still the same samples. -/
theorem perm_flatMap_unit {units : List String} (hnodup : units.Nodup) (samples : List Sample)
    (hall : ∀ s ∈ samples, s.unit ∈ units) :
    (units.flatMap fun u => samples.filter (·.unit = u)).Perm samples := by
  -- one unit is taken out at a time; the filters for the others do not see its samples
  induction units generalizing samples with
  | nil =>
    cases samples with
    | nil => exact List.Perm.refl _
    | cons s rest => exact absurd (hall s List.mem_cons_self) List.not_mem_nil
  | cons u rest ih =>
    obtain ⟨hu, hrest⟩ := List.nodup_cons.mp hnodup
    have hothers : ∀ s ∈ samples.filter (fun s => !decide (s.unit = u)), s.unit ∈ rest := by
      intro s hs
      obtain ⟨hmem, hne⟩ := List.mem_filter.mp hs
      rcases List.mem_cons.mp (hall s hmem) with heq | h
      · simp [heq] at hne
      · exact h
    have hsame : (rest.flatMap fun v =>
        (samples.filter fun s => !decide (s.unit = u)).filter (·.unit = v)) =
        rest.flatMap fun v => samples.filter (·.unit = v) := by
      refine List.flatMap_congr ?_
      intro v hv
      rw [List.filter_filter]
      refine List.filter_congr ?_
      intro s _
      have hne : v ≠ u := ne_of_mem_of_not_mem hv hu
      by_cases hs : s.unit = v <;> simp [hs, hne]
    have hperm := ih hrest _ hothers
    rw [hsame] at hperm
    rw [List.flatMap_cons]
    exact (hperm.append_left _).trans (List.filter_append_perm _ samples)

theorem extraBlocks_extra (left : List Sample) :
    ((extraBlocks left).flatMap (·.extra)).Perm left := by
  unfold extraBlocks
  rw [List.flatMap_map]
  refine perm_flatMap_unit (nodup_ascending _) left ?_
  intro s hs
  exact ((ascending_spec _).2 _).mpr (List.mem_map_of_mem hs)

theorem extraBlocks_units (left : List Sample) :
    (extraBlocks left).map (·.unit) = ascending (left.map (·.unit)) := by
  simp [extraBlocks, Function.comp_def]

theorem streamed_blocks : (blocks stream extra).flatMap (·.streamed) = stream := by
  obtain ⟨-, hheld, -⟩ := Gathering.sound_ofStream stream extra
  have hnone : (extraBlocks (Gathering.ofStream stream extra).pending).flatMap (·.streamed) = [] :=
    List.flatMap_eq_nil_iff.mpr fun b hb => extraBlocks_streamed hb
  rw [blocks_eq, List.flatMap_append, hheld, hnone, List.append_nil]

/-- The blocks hold the extra samples, each as often as it is given. -/
theorem extra_blocks_perm : ((blocks stream extra).flatMap (·.extra)).Perm extra := by
  obtain ⟨hsound, -, -⟩ := Gathering.sound_ofStream stream extra
  rw [blocks_eq, List.flatMap_append]
  exact ((extraBlocks_extra _).append_left _).trans hsound.shared

/-- A block behind the stream is the only one of its unit. -/
theorem extra_of_extraBlock {g : Gathering} (h : g.Sound extra) {k : Nat} {b : Block}
    (hb : (extraBlocks g.pending)[k]? = some b) :
    b.unit ∉ g.judged.map (·.unit) ++ ((extraBlocks g.pending).take k).map (·.unit) ∧
      b.extra = extra.filter (·.unit = b.unit) := by
  have hk : (ascending (g.pending.map (·.unit)))[k]? = some b.unit := by
    rw [← extraBlocks_units, List.getElem?_map, hb]
    rfl
  have hnew : b.unit ∉ g.judged.map (·.unit) := by
    have hmem := ((ascending_spec _).2 _).mp (List.mem_of_getElem? hk)
    obtain ⟨s, hs, hunit⟩ := List.mem_map.mp hmem
    rw [h.pending] at hs
    rw [← hunit]
    exact of_decide_eq_true (List.mem_filter.mp hs).2
  have hfirst : b.unit ∉ ((extraBlocks g.pending).take k).map (·.unit) := by
    rw [List.map_take, extraBlocks_units]
    obtain ⟨hlt, heq⟩ := List.getElem?_eq_some_iff.mp hk
    intro hmem
    refine List.disjoint_take_drop (nodup_ascending _) le_rfl hmem ?_
    rw [List.drop_eq_getElem_cons hlt, heq]
    exact List.mem_cons_self
  refine ⟨?_, ?_⟩
  · rw [List.mem_append]
    rintro (hmem | hmem)
    · exact hnew hmem
    · exact hfirst hmem
  · obtain ⟨u, -, rfl⟩ := List.mem_map.mp (List.mem_of_getElem? hb)
    have hpending := h.pending_of_unit u
    rw [if_neg hnew] at hpending
    exact hpending

/-- A block holds extra samples only if it is the first of its unit; then it holds all of the
unit. -/
theorem extra_of_block {i : Nat} {b : Block} (hb : (blocks stream extra)[i]? = some b) :
    b.extra = if b.unit ∈ ((blocks stream extra).take i).map (·.unit) then []
      else extra.filter (·.unit = b.unit) := by
  obtain ⟨hsound, -, -⟩ := Gathering.sound_ofStream stream extra
  rw [blocks_eq] at hb ⊢
  generalize Gathering.ofStream stream extra = g at hb hsound ⊢
  rw [List.getElem?_append] at hb
  split at hb
  next hlt =>
    rw [List.take_append_of_le_length hlt.le]
    exact hsound.joins i b hb
  next hge =>
    obtain ⟨hnew, hextra⟩ := extra_of_extraBlock extra hsound hb
    have htake : (g.judged ++ extraBlocks g.pending).take i =
        g.judged ++ (extraBlocks g.pending).take (i - g.judged.length) := by
      rw [List.take_append, List.take_of_length_le (not_lt.mp hge)]
    rw [htake, List.map_append, if_neg hnew]
    exact hextra

theorem unit_of_mem_samples {b : Block} (hb : b ∈ blocks stream extra) {s : Sample}
    (hs : s ∈ b.samples) : s.unit = b.unit := by
  obtain ⟨i, hi⟩ := List.getElem?_of_mem hb
  rcases List.mem_append.mp hs with hs | hs
  · rw [blocks_eq] at hb
    rcases List.mem_append.mp hb with hb | hb
    · exact ((Gathering.sound_ofStream stream extra).1.own b hb).2 s hs
    · rw [extraBlocks_streamed hb] at hs
      exact absurd hs List.not_mem_nil
  · rw [extra_of_block stream extra hi] at hs
    split at hs
    next => exact absurd hs List.not_mem_nil
    next => exact of_decide_eq_true (List.mem_filter.mp hs).2

theorem mem_of_mem_samples {b : Block} (hb : b ∈ blocks stream extra) {s : Sample}
    (hs : s ∈ b.samples) : s ∈ stream ∨ s ∈ extra := by
  rcases List.mem_append.mp hs with hs | hs
  · left
    rw [← streamed_blocks stream extra]
    exact List.mem_flatMap.mpr ⟨b, hb, hs⟩
  · right
    exact (extra_blocks_perm stream extra).mem_iff.mp (List.mem_flatMap.mpr ⟨b, hb, hs⟩)

/-- The longest parts of the stream that are of one unit. -/
def unitRuns (stream : List Sample) : List (List Sample) :=
  stream.splitBy fun a b => a.unit == b.unit

/-- The units of extra samples that are not in the stream, each once. -/
def unitsBeyond (stream extra : List Sample) : List String :=
  ((extra.map (·.unit)).dedup).filter fun u => decide (u ∉ stream.map (·.unit))

theorem mem_judged_units (unit : String) :
    unit ∈ (Gathering.ofStream stream extra).judged.map (·.unit) ↔ unit ∈ stream.map (·.unit) := by
  obtain ⟨hsound, hheld, -⟩ := Gathering.sound_ofStream stream extra
  generalize Gathering.ofStream stream extra = g at hsound hheld ⊢
  rw [← hheld]
  simp only [List.mem_map, List.mem_flatMap]
  constructor
  · rintro ⟨b, hb, rfl⟩
    obtain ⟨hne, hown⟩ := hsound.own b hb
    obtain ⟨s, hs⟩ := List.exists_mem_of_ne_nil _ hne
    exact ⟨s, ⟨b, hb, hs⟩, hown s hs⟩
  · rintro ⟨s, ⟨b, hb, hs⟩, rfl⟩
    exact ⟨b, hb, ((hsound.own b hb).2 s hs).symm⟩

theorem extraBlocks_units_perm :
    ((extraBlocks (Gathering.ofStream stream extra).pending).map (·.unit)).Perm
      (unitsBeyond stream extra) := by
  obtain ⟨hsound, -, -⟩ := Gathering.sound_ofStream stream extra
  have hpending := hsound.pending
  rw [extraBlocks_units]
  refine (List.perm_ext_iff_of_nodup (nodup_ascending _)
    ((List.nodup_dedup _).filter _)).mpr ?_
  intro unit
  rw [(ascending_spec _).2, hpending]
  simp only [mem_judged_units, List.mem_filter, List.mem_dedup, decide_eq_true_eq]
  constructor
  · intro hmem
    obtain ⟨s, hs, rfl⟩ := List.mem_map.mp hmem
    obtain ⟨hs, hnew⟩ := List.mem_filter.mp hs
    exact ⟨List.mem_map_of_mem hs, of_decide_eq_true hnew⟩
  · rintro ⟨hmem, hnew⟩
    obtain ⟨s, hs, rfl⟩ := List.mem_map.mp hmem
    exact List.mem_map_of_mem (List.mem_filter.mpr ⟨hs, decide_eq_true hnew⟩)

/-- There is a block for each run of the stream and for each unit beyond it. -/
theorem length_blocks : (blocks stream extra).length =
    (unitRuns stream).length + (unitsBeyond stream extra).length := by
  obtain ⟨hsound, hheld, hcurrent⟩ := Gathering.sound_ofStream stream extra
  have hruns := congrArg List.length (hsound.splitBy hcurrent)
  rw [hheld, List.length_map] at hruns
  have hbeyond := (extraBlocks_units_perm stream extra).length_eq
  rw [List.length_map] at hbeyond
  rw [blocks_eq, List.length_append, hruns, hbeyond, unitRuns]

theorem nodup_blocks_units
    (hruns : (unitRuns stream).Pairwise fun a b => ∀ x ∈ a, ∀ y ∈ b, x.unit ≠ y.unit) :
    ((blocks stream extra).map (·.unit)).Nodup := by
  obtain ⟨hsound, hheld, hcurrent⟩ := Gathering.sound_ofStream stream extra
  have hsplit := hsound.splitBy hcurrent
  rw [hheld, ← unitRuns] at hsplit
  rw [← hsplit, List.pairwise_map] at hruns
  have hjudged : ((Gathering.ofStream stream extra).judged.map (·.unit)).Nodup := by
    refine List.pairwise_map.mpr (hruns.imp_of_mem ?_)
    intro a b ha hb hne
    obtain ⟨x, hx⟩ := List.exists_mem_of_ne_nil _ (hsound.own a ha).1
    obtain ⟨y, hy⟩ := List.exists_mem_of_ne_nil _ (hsound.own b hb).1
    rw [← (hsound.own a ha).2 x hx, ← (hsound.own b hb).2 y hy]
    exact hne x hx y hy
  have hbeyond := extraBlocks_units_perm stream extra
  rw [blocks_eq, List.map_append]
  refine hjudged.append (hbeyond.nodup_iff.mpr ((List.nodup_dedup _).filter _)) ?_
  intro unit hstream hextra
  have hnew := of_decide_eq_true (List.mem_filter.mp (hbeyond.mem_iff.mp hextra)).2
  exact hnew ((mem_judged_units stream extra unit).mp hstream)

end FaultDesk
