import FaultDesk.Register.Entry

/-!
Open complaints in the register. Only the latest fault of a unit and tag may have one, and a fault
is entered where the look-up finds none, so no older open complaint can hide behind the one that a
look-up sees.
-/

namespace FaultDesk

/-! ## What an entry adds -/

namespace Register

theorem lt_nextId {ids : List Nat} {n : Nat} (h : n ∈ ids) : n < nextId ids := by
  have hne : ids ≠ [] := List.ne_nil_of_mem h
  have hle : n ≤ ids.max hne := List.le_max_of_mem h
  unfold nextId
  rw [List.foldl_max_eq_max hne]
  omega

theorem lt_nextFaultId {r : Register} {f : FaultRow} (h : f ∈ r.faults) : f.id < r.nextFaultId :=
  lt_nextId (List.mem_map_of_mem h)

variable {r : Register} {k : Clerk} {now : Instant} {c : Candidate}

theorem entryOf_ok {d : Draft} {e : Entry} (h : r.entryOf k now c d = .ok e) :
    e.fault = r.faultRow c ∧ e.complaint.faultId = some (r.nextFaultId : Int) := by
  unfold entryOf at h
  simp only [bind, Except.bind, pure, Except.pure] at h
  repeat' split at h
  all_goals simp at h
  subst e
  exact ⟨rfl, rfl⟩

/-- An entry fails and changes nothing, or adds its rows. -/
theorem enter_cases (r : Register) (k : Clerk) (now : Instant) (c : Candidate) :
    (∃ f, r.enter k now c = (.error f, r)) ∨
      ∃ d e, r.entryOf k now c d = .ok e ∧ r.enter k now c = (.ok e.complaint.number, r.add e) := by
  unfold enter
  split
  next f _ => exact Or.inl ⟨_, rfl⟩
  next d _ =>
    split
    next => exact Or.inl ⟨_, rfl⟩
    next =>
      split
      next => exact Or.inl ⟨_, rfl⟩
      next e he => exact Or.inr ⟨d, e, he, rfl⟩

theorem latestFault?_add (r : Register) (e : Entry) (unit tag : String) :
    (r.add e).latestFault? unit tag =
      if e.fault.unit = unit ∧ e.fault.tag = tag then some e.fault
      else r.latestFault? unit tag := by
  by_cases h : e.fault.unit = unit ∧ e.fault.tag = tag
  · simp [latestFault?, add, h]
  · simp only [latestFault?, add, List.reverse_append, List.reverse_singleton,
      List.singleton_append, List.find?_cons, if_neg h]
    split
    next hp => exact absurd (by simpa using hp) h
    next => rfl

/-- The latest fault of a unit and tag has the highest number among them. -/
theorem latestFault?_eq_some {unit tag : String} {f : FaultRow}
    (ha : r.faults.Pairwise (·.id < ·.id)) (h : r.latestFault? unit tag = some f) :
    f ∈ r.faults ∧ f.unit = unit ∧ f.tag = tag ∧
      ∀ g ∈ r.faults, g.unit = unit → g.tag = tag → g.id ≤ f.id := by
  obtain ⟨hf, before, after, hsplit, hbefore⟩ := List.find?_eq_some_iff_append.mp h
  have hmem : f ∈ r.faults := List.mem_reverse.mp (List.mem_of_find?_eq_some h)
  obtain ⟨hfunit, hftag⟩ : f.unit = unit ∧ f.tag = tag := by simpa using hf
  have hdown : (before ++ f :: after).Pairwise fun g g' => g'.id < g.id := by
    rw [← hsplit]
    exact List.pairwise_reverse.mpr ha
  have hbelow := (List.pairwise_cons.mp (List.pairwise_append.mp hdown).2.1).1
  refine ⟨hmem, hfunit, hftag, ?_⟩
  intro g hg hunit htag
  have hg' : g ∈ before ++ f :: after := by
    rw [← hsplit]
    exact List.mem_reverse.mpr hg
  rcases List.mem_append.mp hg' with hfront | hback
  · exact absurd (hbefore g hfront) (by simp [hunit, htag])
  · rcases List.mem_cons.mp hback with rfl | hback
    · exact Nat.le_refl _
    · exact Nat.le_of_lt (hbelow g hback)

end Register

/-! ## Open complaints -/

/-- Whether the status of a complaint is none that counts as closed. -/
def ComplaintRow.isOpen (closed : List String) (c : ComplaintRow) : Bool :=
  !closed.contains (Text.upper c.status)

namespace Register

/-- Whether a complaint is about a fault of a unit and tag. -/
def isAbout (r : Register) (unit tag : String) (c : ComplaintRow) : Bool :=
  r.faults.any fun f => c.faultId == some (f.id : Int) && f.unit == unit && f.tag == tag

/-- The open complaints about a unit and tag. -/
def openFor (r : Register) (closed : List String) (unit tag : String) : List ComplaintRow :=
  r.complaints.filter fun c => c.isOpen closed && r.isAbout unit tag c

/-- The order of a register that only faults let through have gone into. -/
structure Orderly (closed : List String) (r : Register) : Prop where
  ascending : r.faults.Pairwise (·.id < ·.id)
  known : ∀ c ∈ r.complaints, ∃ f ∈ r.faults, c.faultId = some (f.id : Int)
  distinct : r.complaints.Pairwise (·.faultId ≠ ·.faultId)
  latest : ∀ c ∈ r.complaints, c.isOpen closed = true → ∀ f ∈ r.faults,
    c.faultId = some (f.id : Int) → r.latestFault? f.unit f.tag = some f

variable {r r' : Register} {closed : List String} {unit tag : String}

theorem mem_openFor {c : ComplaintRow} : c ∈ r.openFor closed unit tag ↔
    c ∈ r.complaints ∧ c.isOpen closed = true ∧
      ∃ f ∈ r.faults, c.faultId = some (f.id : Int) ∧ f.unit = unit ∧ f.tag = tag := by
  simp [openFor, isAbout, and_assoc]

theorem orderly_empty (hf : r.faults = []) (hc : r.complaints = []) : r.Orderly closed := by
  refine ⟨?_, ?_, ?_, ?_⟩ <;> simp [hf, hc]

theorem Orderly.congr (h : r.Orderly closed) (hf : r'.faults = r.faults)
    (hc : r'.complaints = r.complaints) : r'.Orderly closed := by
  obtain ⟨hascending, hknown, hdistinct, hlatest⟩ := h
  refine ⟨?_, ?_, ?_, ?_⟩
  · rw [hf]; exact hascending
  · rw [hf, hc]; exact hknown
  · rw [hc]; exact hdistinct
  · unfold latestFault?; rw [hf, hc]; exact hlatest

theorem openFor_congr (hf : r'.faults = r.faults) (hc : r'.complaints = r.complaints) :
    r'.openFor closed unit tag = r.openFor closed unit tag := by
  unfold openFor isAbout
  rw [hf, hc]

/-- A complaint is found through the fault that it is about. -/
theorem Orderly.complaintOf? (h : r.Orderly closed) {c : ComplaintRow} (hc : c ∈ r.complaints)
    {id : Nat} (hid : c.faultId = some (id : Int)) : r.complaintOf? id = some c := by
  obtain ⟨before, after, hsplit⟩ := List.append_of_mem hc
  have hdistinct := h.distinct
  rw [hsplit] at hdistinct
  have hbefore := (List.pairwise_append.mp hdistinct).2.2
  refine List.find?_eq_some_iff_append.mpr ⟨by simpa using hid, before, after, hsplit, ?_⟩
  intro b hb
  have hne := hbefore b hb c List.mem_cons_self
  rw [hid] at hne
  simpa using hne

/-- Where a look-up finds no open incident there is no open complaint. -/
theorem Orderly.openFor_eq_nil (h : r.Orderly closed)
    (hnone : openIncident? closed (.ok (r.latestIncident? unit tag)) = none) :
    r.openFor closed unit tag = [] := by
  refine List.eq_nil_iff_forall_not_mem.mpr ?_
  intro c hc
  obtain ⟨hmem, hopen, f, hf, hid, rfl, rfl⟩ := mem_openFor.mp hc
  have hlatest := h.latest c hmem hopen f hf hid
  have hfound : r.latestIncident? f.unit f.tag = some ⟨f.id, some c.number, some c.status⟩ := by
    unfold latestIncident?
    rw [hlatest, Option.map_some, h.complaintOf? hmem hid]
  rw [hfound] at hnone
  have hopen' : (⟨f.id, some c.number, some c.status⟩ : Incident).isOpen closed = true := by
    simpa [Incident.isOpen, ComplaintRow.isOpen] using hopen
  simp [openIncident?, hopen'] at hnone

/-- An entry where no complaint is open keeps the order. -/
theorem Orderly.add (h : r.Orderly closed) {e : Entry}
    (hno : r.openFor closed e.fault.unit e.fault.tag = []) (hfault : e.fault.id = r.nextFaultId)
    (hcomplaint : e.complaint.faultId = some (r.nextFaultId : Int)) :
    (r.add e).Orderly closed := by
  have hbelow : ∀ f ∈ r.faults, f.id < e.fault.id := by
    intro f hf
    rw [hfault]
    exact lt_nextFaultId hf
  refine ⟨?_, ?_, ?_, ?_⟩
  · exact List.pairwise_append.mpr ⟨h.ascending, List.pairwise_singleton _ _, by simpa using hbelow⟩
  · intro c hc
    rcases List.mem_append.mp hc with hold | hnew
    · obtain ⟨f, hf, hid⟩ := h.known c hold
      exact ⟨f, List.mem_append_left _ hf, hid⟩
    · obtain rfl := List.mem_singleton.mp hnew
      exact ⟨e.fault, by simp [Register.add], by rw [hcomplaint, hfault]⟩
  · refine List.pairwise_append.mpr ⟨h.distinct, List.pairwise_singleton _ _, ?_⟩
    intro c hc b hb
    obtain rfl := List.mem_singleton.mp hb
    obtain ⟨f, hf, hid⟩ := h.known c hc
    have hlt := hbelow f hf
    rw [hid, hcomplaint]
    simp
    omega
  · intro c hc hopen f hf hid
    rw [latestFault?_add]
    rcases List.mem_append.mp hf with hfold | hfnew
    · -- The fault is an old one, and so is its complaint.
      have hlt := hbelow f hfold
      rcases List.mem_append.mp hc with hold | hnew
      · have hother : ¬ (e.fault.unit = f.unit ∧ e.fault.tag = f.tag) := by
          rintro ⟨hunit, htag⟩
          have hmem : c ∈ r.openFor closed e.fault.unit e.fault.tag :=
            mem_openFor.mpr ⟨hold, hopen, f, hfold, hid, hunit.symm, htag.symm⟩
          rw [hno] at hmem
          simp at hmem
        rw [if_neg hother]
        exact h.latest c hold hopen f hfold hid
      · obtain rfl := List.mem_singleton.mp hnew
        rw [hcomplaint, ← hfault] at hid
        simp at hid
        omega
    · obtain rfl := List.mem_singleton.mp hfnew
      rw [if_pos ⟨rfl, rfl⟩]

theorem Orderly.enter (h : r.Orderly closed) (k : Clerk) (now : Instant) {c : Candidate}
    (hno : r.openFor closed c.unit c.tag = []) : (r.enter k now c).2.Orderly closed := by
  rcases r.enter_cases k now c with ⟨f, hsame⟩ | ⟨d, e, he, hadded⟩
  · rw [hsame]
    exact h
  · obtain ⟨hfault, hcomplaint⟩ := entryOf_ok he
    rw [hadded]
    exact h.add (by rw [hfault]; exact hno) (by rw [hfault]; rfl) hcomplaint

/-- Closing a complaint opens none. -/
theorem mem_of_open_withStatus {number status : String} (hs : Text.upper status ∈ closed)
    {c : ComplaintRow} (hc : c ∈ (r.withStatus number status).complaints)
    (hopen : c.isOpen closed = true) : c ∈ r.complaints := by
  obtain ⟨old, hold, rfl⟩ := List.mem_map.mp hc
  by_cases hn : old.number = number
  · rw [if_pos hn] at hopen
    simp [ComplaintRow.isOpen, hs] at hopen
  · rw [if_neg hn]
    exact hold

theorem mem_openFor_of_withStatus {number status : String} (hs : Text.upper status ∈ closed)
    {c : ComplaintRow} (hc : c ∈ (r.withStatus number status).openFor closed unit tag) :
    c ∈ r.openFor closed unit tag := by
  obtain ⟨hmem, hopen, hf⟩ := mem_openFor.mp hc
  exact mem_openFor.mpr ⟨mem_of_open_withStatus hs hmem hopen, hopen, hf⟩

theorem Orderly.withStatus (h : r.Orderly closed) {number status : String}
    (hs : Text.upper status ∈ closed) : (r.withStatus number status).Orderly closed := by
  have hid (c : ComplaintRow) :
      (if c.number = number then { c with status } else c).faultId = c.faultId := by
    split <;> rfl
  refine ⟨h.ascending, ?_, ?_, ?_⟩
  · intro c hc
    obtain ⟨old, hold, rfl⟩ := List.mem_map.mp hc
    rw [hid]
    exact h.known old hold
  · refine List.pairwise_map.mpr (h.distinct.imp ?_)
    intro a b hne
    rw [hid, hid]
    exact hne
  · intro c hc hopen f hf hid
    exact h.latest c (mem_of_open_withStatus hs hc hopen) hopen f hf hid

/-- At most one complaint of a unit and tag is open, and it is about their latest fault. -/
theorem Orderly.openFor_unique (h : r.Orderly closed) (unit tag : String) :
    (r.openFor closed unit tag).length ≤ 1 ∧
      ∀ c ∈ r.openFor closed unit tag, ∃ f ∈ r.faults,
        c.faultId = some (f.id : Int) ∧ f.unit = unit ∧ f.tag = tag ∧
          ∀ g ∈ r.faults, g.unit = unit → g.tag = tag → g.id ≤ f.id := by
  have hlatest : ∀ c ∈ r.openFor closed unit tag, ∃ f, r.latestFault? unit tag = some f ∧
      c.faultId = some (f.id : Int) := by
    intro c hc
    obtain ⟨hmem, hopen, f, hf, hid, rfl, rfl⟩ := mem_openFor.mp hc
    exact ⟨f, h.latest c hmem hopen f hf hid, hid⟩
  have hdistinct : (r.openFor closed unit tag).Pairwise (·.faultId ≠ ·.faultId) :=
    h.distinct.sublist List.filter_sublist
  refine ⟨?_, ?_⟩
  · cases hopen : r.openFor closed unit tag with
    | nil => simp
    | cons a rest =>
      cases rest with
      | nil => simp
      | cons b rest =>
        rw [hopen] at hlatest hdistinct
        obtain ⟨f, hf, hfa⟩ := hlatest a (by simp)
        obtain ⟨g, hg, hgb⟩ := hlatest b (by simp)
        have hne := (List.pairwise_cons.mp hdistinct).1 b (by simp)
        rw [hfa, hgb, Option.some.inj (hf.symm.trans hg)] at hne
        exact absurd rfl hne
  · intro c hc
    obtain ⟨f, hf, hid⟩ := hlatest c hc
    obtain ⟨hmem, hunit, htag, hmax⟩ := latestFault?_eq_some h.ascending hf
    exact ⟨f, hmem, hid, hunit, htag, hmax⟩

end Register

end FaultDesk
