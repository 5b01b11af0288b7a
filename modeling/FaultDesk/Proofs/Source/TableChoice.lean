import FaultDesk.Proofs.Selection.OfInterest
import FaultDesk.Proofs.Sync.Streams

/-!
Which table a tag is read from where both have it. The choice is made once for each tag, when a joined
row is merged: all rules and prerequisites on the tag read the same value, whatever tables they are
bound to.
-/

namespace FaultDesk

/-! ## Merged rows -/

namespace Row

variable {analogTags tags columns : List String} {row merged d a : Row} {tag : String} {v w : Datum}
  {entry : String × Datum} {ss : List Sample} {s : Sample}

theorem value?_eq_some_iff : row.value? tag = some v ↔ row.lookup tag = some v ∧ v.isNull = false := by
  unfold value?
  cases row.lookup tag with
  | none => simp
  | some u =>
    constructor
    · intro h
      cases u <;> cases h <;> exact ⟨rfl, rfl⟩
    · rintro ⟨h, hnull⟩
      obtain rfl := Option.some.inj h
      cases u <;> first | rfl | cases hnull

theorem value?_append (h : d.value? tag = some v) (e : Row) : (d ++ e).value? tag = some v := by
  obtain ⟨hlookup, hnull⟩ := value?_eq_some_iff.mp h
  refine value?_eq_some_iff.mpr ⟨?_, hnull⟩
  rw [List.lookup_append, hlookup]
  rfl

theorem cell_of_value? (h : row.value? tag = some v) : row.cell tag = v := by
  unfold cell
  rw [(value?_eq_some_iff.mp h).1]
  rfl

theorem analogTag?_mark (column : String) : analogTag? (analogMark ++ column) = some column := by
  have hlength : analogMark.length = analogMark.toList.length := rfl
  simp [analogTag?, String.toList_append, hlength]

theorem value?_takeOver_of_ne (h : analogTag? entry.1 ≠ some tag) :
    (takeOver analogTags merged entry).value? tag = merged.value? tag := by
  unfold takeOver
  split
  next => rfl
  next other hother =>
    have hne : tag ≠ other := by
      rintro rfl
      exact h hother
    have hput : (merged.put other entry.2).value? tag = merged.value? tag := by
      unfold value?
      rw [lookup_put, if_neg hne]
    split
    next => rfl
    next =>
      split
      next => exact hput
      next => rfl

/-- A value that is there gives way to no analog reading unless the tag is an analog tag. -/
theorem value?_takeOver_of_not_mem (h : tag ∉ analogTags) (hv : merged.value? tag = some v) :
    (takeOver analogTags merged entry).value? tag = some v := by
  by_cases htag : analogTag? entry.1 = some tag
  · unfold takeOver
    simp only [htag]
    split
    next => exact hv
    next =>
      have hstays : ¬ ((merged.value? tag).isNone || analogTags.contains tag) = true := by
        simp [hv, h]
      rw [if_neg hstays]
      exact hv
  · rw [value?_takeOver_of_ne htag]
    exact hv

theorem value?_takeOver_of_mem {column : String} (h : tag ∈ analogTags)
    (htag : analogTag? column = some tag) (hnull : v.isNull = false) :
    (takeOver analogTags merged (column, v)).value? tag = some v := by
  unfold takeOver
  simp only [htag, hnull, Bool.false_eq_true, ↓reduceIte]
  have hgives : ((merged.value? tag).isNone || analogTags.contains tag) = true := by simp [h]
  rw [if_pos hgives]
  exact value?_eq_some_iff.mpr ⟨by rw [lookup_put, if_pos rfl], hnull⟩

theorem value?_merge_of_not_mem (h : tag ∉ analogTags) (hv : row.value? tag = some v) :
    (row.merge analogTags).value? tag = some v := by
  unfold merge
  refine List.foldlRecOn (motive := fun m : Row => m.value? tag = some v) row _ hv ?_
  intro merged hmerged e _
  exact value?_takeOver_of_not_mem h hmerged

/-- Of the columns of an analog part only that of the tag bears on its value. -/
theorem value?_foldl_analogPart (h : tag ∈ analogTags) (ha : a.value? tag = some w)
    (hcolumn : tag ∈ columns ∨ merged.value? tag = some w) :
    ((ReadingTable.analogPart columns a).foldl (takeOver analogTags) merged).value? tag = some w := by
  induction columns generalizing merged with
  | nil => exact hcolumn.resolve_left List.not_mem_nil
  | cons column rest ih =>
    apply ih
    by_cases heq : column = tag
    · subst heq
      have hnull := (value?_eq_some_iff.mp ha).2
      refine Or.inr ?_
      dsimp only
      rw [cell_of_value? ha]
      exact value?_takeOver_of_mem h (analogTag?_mark column) hnull
    · rcases hcolumn with hmem | hmerged
      · exact Or.inl ((List.mem_cons.mp hmem).resolve_left fun he => heq he.symm)
      · refine Or.inr ?_
        rw [value?_takeOver_of_ne (by rw [analogTag?_mark]; simpa using heq)]
        exact hmerged

theorem value?_merge_joined (hcolumn : tag ∈ columns) (hd : d.value? tag = some v)
    (ha : a.value? tag = some w) :
    ((d ++ ReadingTable.analogPart columns a).merge analogTags).value? tag =
      some (if tag ∈ analogTags then w else v) := by
  split
  next h =>
    -- whatever the digital part has made of the tag, its analog column comes later
    unfold merge
    rw [List.foldl_append]
    exact value?_foldl_analogPart h ha (Or.inl hcolumn)
  next h => exact value?_merge_of_not_mem h (value?_append hd _)

/-! ## Exploded rows -/

theorem of_mem_explode {kind : SourceKind} (h : row.explode tags analogTags kind = .ok ss)
    (hs : s ∈ ss) : s.row = some (row.merge analogTags) ∧
      (row.merge analogTags).value? s.tag = some s.value := by
  obtain ⟨unit, -, h⟩ := bind_eq_ok_iff.mp h
  obtain ⟨time, -, h⟩ := bind_eq_ok_iff.mp h
  obtain ⟨⟨tag, value⟩, hentry, hsample⟩ := exists_of_mem_mapM h hs
  obtain ⟨t, -, ht⟩ := List.mem_filterMap.mp hentry
  obtain ⟨v, hv, hpair⟩ := Option.map_eq_some_iff.mp ht
  obtain ⟨rfl, rfl⟩ := Prod.mk.inj hpair
  obtain ⟨-, -, -, hs⟩ := of_sample_ok hsample
  rw [hs]
  exact ⟨rfl, hv⟩

theorem tags_of_samples {entries : List (String × Datum)} {unit : String} {time : Datum}
    {kind : SourceKind} {r : Option Row}
    (h : entries.mapM (fun (tag, value) => sample unit tag value time kind r) = .ok ss) :
    ss.map (·.tag) = entries.map (·.1) := by
  have hall := mapM_eq_ok_iff.mp h
  clear h
  induction hall with
  | nil => rfl
  | cons hs _ ih =>
    obtain ⟨-, -, -, hfields⟩ := of_sample_ok hs
    rw [List.map_cons, List.map_cons, ih, hfields]

/-- Each tag that has a value in the merged row has one sample, in order of tag. -/
theorem tags_of_explode {kind : SourceKind} (h : row.explode tags analogTags kind = .ok ss) :
    ss.map (·.tag) = (ascending tags).filter fun t => ((row.merge analogTags).value? t).isSome := by
  obtain ⟨unit, -, h⟩ := bind_eq_ok_iff.mp h
  obtain ⟨time, -, h⟩ := bind_eq_ok_iff.mp h
  rw [tags_of_samples h, List.map_filterMap, ← List.filterMap_eq_filter]
  congr 1
  funext t
  cases hv : (row.merge analogTags).value? t <;> simp [hv, Option.guard]

end Row

/-! ## The tags of a configuration -/

/-- Whether a prerequisite is bound to another table than the digital one. -/
def Prerequisite.BoundToAnalog (p : Prerequisite) : Prop :=
  ∃ t, p.table = some t ∧ t.isEmpty = false ∧ SourceKind.ofTable t ≠ .digital

namespace Config

variable {c : Config} {tag : String}

theorem analogPrerequisite?_eq_some_iff {r : Rule} :
    analogPrerequisite? r = some tag ↔
      ∃ p, r.prerequisite = some p ∧ p.tag = tag ∧ p.BoundToAnalog := by
  unfold analogPrerequisite? Prerequisite.BoundToAnalog
  cases r.prerequisite with
  | none => simp
  | some p =>
    cases ht : p.table with
    | none => simp [ht]
    | some t =>
      by_cases hkind : SourceKind.ofTable t = .digital
      · simp [ht, hkind]
      · by_cases hempty : t = "" <;> simp [ht, hkind, hempty]

/-- The analog reading of a tag is asked for: by a rule of the analog group that is on the tag, or by
a prerequisite on it that is bound to the analog table. -/
def AsksAnalog (c : Config) (tag : String) : Prop :=
  (∃ r ∈ c.ruleSets.analog.activeRules, r.base.tag = tag) ∨
    ∃ r ∈ c.ruleSets.activeRules, ∃ p, r.base.prerequisite = some p ∧ p.tag = tag ∧ p.BoundToAnalog

theorem mem_analogTags :
    tag ∈ c.analogTags ↔ c.AsksAnalog tag ∧ ∀ r ∈ c.activeMasters, r.tag ≠ tag := by
  simp only [analogTags, AsksAnalog, List.mem_filter, (ascending_spec _).2, List.mem_append,
    List.mem_map, List.mem_filterMap, analogPrerequisite?_eq_some_iff]
  simp

/-! ## The value that is read -/

/-- The value that a table of some kind has of a tag, if the two tables have these. -/
def valueIn (kind : SourceKind) (digital analog : Datum) : Datum :=
  if kind = .digital then digital else analog

/-- In a joined row in which both tables have a value of a tag, all that looks at the tag reads the
analog value if the tag is an analog tag, and the digital one if not: on the one sample of the tag each
rule, whatever table it is bound to, and on each sample of the row each prerequisite. A tag is an analog
one if the analog reading of it is asked for and no master rule is on it. So what is bound to a table
reads that table if it is the digital one and the tag is no analog tag, or if it is another one and
the tag is an analog tag. -/
theorem joined_reading {columns : List String} {d a : Row} {digital analog : Datum}
    {ss : List Sample} (hcolumn : tag ∈ columns) (hd : d.value? tag = some digital)
    (ha : a.value? tag = some analog)
    (h : (SourceReader.ofConfig c).exploded (d ++ ReadingTable.analogPart columns a) = .ok ss) :
    let read := if tag ∈ c.analogTags then analog else digital
    (tag ∈ c.tagsOfInterest → (ss.map (·.tag)).count tag = 1) ∧
      (∀ s ∈ ss, s.tag = tag → s.value = read ∧
        ∀ r : Rule, r.enabled = true → r.tag = tag → r.watches s = true) ∧
      (∀ s ∈ ss, ∀ p : Prerequisite, p.tag = tag → ∀ related, p.reading? s related = some read) ∧
      (tag ∈ c.analogTags ↔ c.AsksAnalog tag ∧ ∀ r ∈ c.activeMasters, r.tag ≠ tag) ∧
      ∀ table, read = valueIn (.ofTable table) digital analog ↔
        digital = analog ∨ (SourceKind.ofTable table = .digital ↔ tag ∉ c.analogTags) := by
  intro read
  have hmerged : ((d ++ ReadingTable.analogPart columns a).merge c.analogTags).value? tag = some read :=
    Row.value?_merge_joined hcolumn hd ha
  refine ⟨?_, ?_, ?_, mem_analogTags, ?_⟩
  · intro hinterest
    have htags := Row.tags_of_explode h
    rw [htags]
    refine List.count_eq_one_of_mem ((nodup_ascending _).filter _) (List.mem_filter.mpr ⟨?_, ?_⟩)
    · exact (ascending_spec _).2 tag |>.mpr hinterest
    · exact Option.isSome_iff_exists.mpr ⟨read, hmerged⟩
  · rintro s hs rfl
    obtain ⟨-, hvalue⟩ := Row.of_mem_explode h hs
    refine ⟨Option.some.inj (hvalue.symm.trans hmerged), ?_⟩
    intro r hr htag
    have hfits : s.kind.fits r.table = true := by
      rw [Row.kind_of_mem_explode h hs]
      unfold SourceKind.fits
      cases r.table <;> simp
    simp [Rule.watches, hr, htag, hfits]
  · rintro s hs p rfl related
    obtain ⟨hrow, -⟩ := Row.of_mem_explode h hs
    unfold Prerequisite.reading?
    have hsibling : (s.row.getD []).value? p.tag = some read := by
      rw [hrow]
      exact hmerged
    rw [hsibling]
  · intro table
    unfold read valueIn
    by_cases hkind : SourceKind.ofTable table = .digital <;> by_cases htag : tag ∈ c.analogTags <;>
      simp [hkind, htag, eq_comm]

/-! ## Rules bound to tables they do not read -/

/-- A prerequisite that a tag reads 1 in a table. -/
def oneIn (table tag : String) : Prerequisite := ⟨tag, .whole 1, .equals, some table⟩

/-- A rule of the digital group that is bound to the analog table. -/
def levelRule : Rule := { Rule.reads "Tag3" 1 0 with table := some "ANALOGDATA" }

/-- A rule of the digital group that depends on the digital reading of another tag. -/
def doorRule : Rule :=
  { Rule.reads "Tag5" 1 0 with prerequisite := some (oneIn "DIGITALDATA" "Tag6") }

/-- A rule of the analog group that is bound to the digital table, and depends on the analog reading
of a tag that a master rule is on. -/
def switchRule : Rule :=
  { Rule.reads "Tag6" 1 0 with
    table := some "DIGITALDATA", prerequisite := some (oneIn "ANALOGDATA" "Tag8") }

def crossed : Config :=
  { standard with
    ruleSets := ⟨⟨true, none, [.simple levelRule, .simple doorRule]⟩,
      ⟨true, none, [.simple switchRule]⟩⟩,
    masterRules := [silence] }

def crossedTags : List String := ["Tag3", "Tag5", "Tag6", "Tag8"]

def ones : Row :=
  (Row.unitColumn, .text "101") :: (Row.timeColumn, .stamp (.naive 0)) :: crossedTags.map (·, .int 1)

def zeros : Row := crossedTags.map (·, .int 0)

/-- A joined row in which all digital values are 1 and all analog ones are 0. -/
def onesAndZeros : Row := ones ++ ReadingTable.analogPart crossedTags zeros

def crossedReading (tag : String) (n : Int) : Sample :=
  ⟨"101", tag, .int n, 0, .unified, some (onesAndZeros.merge ["Tag6"])⟩

theorem ascending_of_ordered {texts : List String} (h : texts.Pairwise (· ≤ ·)) :
    ascending texts = texts.eraseReps := by
  unfold ascending
  rw [List.mergeSort_of_pairwise (h.imp fun hle => decide_eq_true hle)]

theorem crossed_exploded :
    (SourceReader.ofConfig crossed).exploded onesAndZeros =
      .ok [crossedReading "Tag3" 1, crossedReading "Tag5" 1, crossedReading "Tag6" 0,
        crossedReading "Tag8" 1] := by
  have htags : crossed.tagsOfInterest = crossedTags := by
    unfold tagsOfInterest
    rw [ascending_of_ordered (by decide +kernel)]
    decide +kernel
  have hanalog : crossed.analogTags = ["Tag6"] := by
    unfold analogTags
    dsimp only
    rw [ascending_of_ordered (by decide +kernel)]
    decide +kernel
  unfold SourceReader.exploded SourceReader.ofConfig Row.explode
  simp only [htags, hanalog]
  rw [ascending_of_ordered (by decide +kernel)]
  rfl

/-- The rule bound to the analog table reads a digital 1 and the rule bound to the digital table an
analog 0; so do the prerequisites. -/
theorem tables_crossed :
    (∀ r ∈ [levelRule, doorRule, switchRule], .simple r ∈ crossed.ruleSets.activeRules) ∧
      ∃ level door switch rest,
        (SourceReader.ofConfig crossed).exploded onesAndZeros = .ok (level :: door :: switch :: rest) ∧
          (levelRule.watches level = true ∧ levelRule.table = some "ANALOGDATA" ∧
            level.value = .int 1) ∧
          (switchRule.watches switch = true ∧ switchRule.table = some "DIGITALDATA" ∧
            switch.value = .int 0) ∧
          (doorRule.watches door = true ∧ doorRule.prerequisite = some (oneIn "DIGITALDATA" "Tag6") ∧
            (oneIn "DIGITALDATA" "Tag6").reading? door [] = some (.int 0)) ∧
          switchRule.prerequisite = some (oneIn "ANALOGDATA" "Tag8") ∧
            (oneIn "ANALOGDATA" "Tag8").reading? switch [] = some (.int 1) := by
  refine ⟨by decide +kernel, _, _, _, _, crossed_exploded, ?_, ?_, ?_, rfl, rfl⟩
  · exact ⟨by decide +kernel, rfl, rfl⟩
  · exact ⟨by decide +kernel, rfl, rfl⟩
  · exact ⟨by decide +kernel, rfl, rfl⟩

/-- The tag of the switch is read from the analog table, by whatever looks at it. -/
theorem switch_read_as_analog :
    (∃ r ∈ crossed.ruleSets.analog.activeRules, r.base.tag = "Tag6") ∧
      (∀ r ∈ crossed.activeMasters, r.tag ≠ "Tag6") ∧
        ∀ related, (oneIn "DIGITALDATA" "Tag6").reading? (crossedReading "Tag5" 1) related =
          some (.int 0) := by
  have hrule : ∃ r ∈ crossed.ruleSets.analog.activeRules, r.base.tag = "Tag6" := by decide +kernel
  have hmasters : ∀ r ∈ crossed.activeMasters, r.tag ≠ "Tag6" := by decide +kernel
  have hcolumn : "Tag6" ∈ crossedTags := by decide
  have hone : ones.value? "Tag6" = some (.int 1) := rfl
  have hzero : zeros.value? "Tag6" = some (.int 0) := rfl
  obtain ⟨-, -, hprerequisite, hmem, -⟩ := joined_reading hcolumn hone hzero crossed_exploded
  have hanalog := hmem.mpr ⟨Or.inl hrule, hmasters⟩
  refine ⟨hrule, hmasters, fun related => ?_⟩
  have hread := hprerequisite (crossedReading "Tag5" 1) (by simp) (oneIn "DIGITALDATA" "Tag6") rfl
    related
  rwa [if_pos hanalog] at hread

end Config

end FaultDesk
