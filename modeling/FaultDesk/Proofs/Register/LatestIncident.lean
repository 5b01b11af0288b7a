import FaultDesk.Proofs.Outcome
import FaultDesk.Proofs.Register.AllOrNothing
import FaultDesk.Proofs.Register.NextNumber

/-!
The latest incident after an entry. The fault that has been entered is found under its unit and tag,
and what is found under any other is as before. A complaint that refers to a fault which is not there
can come in between: it stands in front of the new complaint once a fault gets the number it refers to.
-/

namespace FaultDesk

theorem Draft.status_of_ok {c : Candidate} {m : ComplaintMapping} {clientId : String}
    {submittedBy : Option String} {submittedOn : Stamp} {d : Draft}
    (h : ofCandidate c m clientId submittedBy submittedOn = .ok d) : d.status = m.status := by
  unfold ofCandidate at h
  obtain ⟨title, -, h⟩ := bind_eq_ok_iff.mp h
  obtain ⟨description, -, h⟩ := bind_eq_ok_iff.mp h
  obtain ⟨tags, -, h⟩ := bind_eq_ok_iff.mp h
  obtain rfl := Except.ok.inj h
  rfl

namespace Register

variable {r r' : Register} {k : Clerk} {now : Instant} {c : Candidate} {number unit tag : String}
  {e : Entry}

/-! ## What an entry adds to the look-up -/

theorem complaintOf?_add {id : Nat} (hcomplaint : e.complaint.faultId = some (r.nextFaultId : Int))
    (hid : id < r.nextFaultId) : (r.add e).complaintOf? id = r.complaintOf? id := by
  have hother : (e.complaint.faultId == some (id : Int)) = false := by
    rw [hcomplaint]
    have hne : (r.nextFaultId : Int) ≠ id := by omega
    simpa using hne
  have hlast : [e.complaint].find? (·.faultId == some (id : Int)) = none := by simp [hother]
  unfold complaintOf? add
  rw [List.find?_append, hlast, Option.or_none]

/-- The complaint about the new fault is the new one, unless an old one refers to the new number. -/
theorem complaintOf?_add_self (hcomplaint : e.complaint.faultId = some (r.nextFaultId : Int)) :
    (r.add e).complaintOf? r.nextFaultId = (r.complaintOf? r.nextFaultId).or (some e.complaint) := by
  have hlast : [e.complaint].find? (·.faultId == some (r.nextFaultId : Int)) = some e.complaint := by
    simp [hcomplaint]
  unfold complaintOf? add
  rw [List.find?_append, hlast]

theorem complaintOf?_eq_none_iff {id : Nat} :
    r.complaintOf? id = none ↔ ∀ b ∈ r.complaints, b.faultId ≠ some (id : Int) := by
  simp [complaintOf?]

/-- What a look-up finds does not change when a fault of another unit or tag is entered. -/
theorem find_enter (h : (unit, tag) ≠ c.key) :
    (r.enter k now c).2.find unit tag = r.find unit tag := by
  rcases r.enter_cases k now c with ⟨f, hsame⟩ | ⟨d, e, he, hadded⟩
  · rw [hsame]
  · obtain ⟨hfault, hcomplaint⟩ := entryOf_ok he
    have hother : ¬ (e.fault.unit = unit ∧ e.fault.tag = tag) := by
      rintro ⟨hunit, htag⟩
      rw [hfault] at hunit htag
      exact h (by rw [← hunit, ← htag]; rfl)
    have hlatest : (r.add e).latestIncident? unit tag = r.latestIncident? unit tag := by
      unfold latestIncident?
      rw [latestFault?_add, if_neg hother]
      cases hf : r.latestFault? unit tag with
      | none => rfl
      | some f =>
        have hmem : f ∈ r.faults := List.mem_reverse.mp (List.mem_of_find?_eq_some hf)
        rw [Option.map_some, Option.map_some, complaintOf?_add hcomplaint (lt_nextFaultId hmem)]
    have haccess : (r.add e).access = r.access := rfl
    rw [hadded]
    unfold find
    rw [hlatest, haccess]

theorem entryOf_status {d : Draft} (h : r.entryOf k now c d = .ok e) :
    e.complaint.status = d.status := by
  unfold entryOf at h
  simp only [bind, Except.bind, pure, Except.pure] at h
  repeat' split at h
  all_goals simp at h
  subst e
  rfl

/-- What has been added where an entry gives a number. -/
theorem enter_ok (h : r.enter k now c = (.ok number, r')) :
    r.access = .ok () ∧ ∃ e : Entry, r' = r.add e ∧ e.fault = r.faultRow c ∧
      e.complaint.faultId = some (r.nextFaultId : Int) ∧ e.complaint.number = number ∧
      e.complaint.status = k.mapping.status := by
  unfold enter at h
  split at h
  next => cases h
  next d hd =>
    split at h
    next => cases h
    next haccess =>
      split at h
      next => cases h
      next e he =>
        obtain ⟨hnumber, rfl⟩ := Prod.mk.inj h
        obtain ⟨hfault, habout⟩ := entryOf_ok he
        refine ⟨haccess, e, rfl, hfault, habout, Except.ok.inj hnumber, ?_⟩
        rw [← Draft.status_of_ok hd]
        exact entryOf_status he

/-- The incident that is found where a fault has been entered. -/
theorem find_enter_self (h : r.enter k now c = (.ok number, r')) :
    r'.find c.unit c.tag = .ok (some (match r.complaintOf? r.nextFaultId with
      | some b => ⟨r.nextFaultId, some b.number, some b.status⟩
      | none => ⟨r.nextFaultId, some number, some k.mapping.status⟩)) := by
  obtain ⟨haccess, e, rfl, hfault, habout, rfl, hstatus⟩ := enter_ok h
  have hlatest : (r.add e).latestFault? c.unit c.tag = some (r.faultRow c) := by
    rw [latestFault?_add, hfault]
    exact if_pos ⟨rfl, rfl⟩
  have hself : (r.add e).complaintOf? (r.faultRow c).id = _ := complaintOf?_add_self habout
  have haccess' : (r.add e).access = .ok () := haccess
  unfold find latestIncident?
  rw [haccess', hlatest, Option.map_some, hself]
  cases r.complaintOf? r.nextFaultId with
  | none => simp only [Option.none_or, hstatus]; rfl
  | some b => rfl

/-! ## References to faults -/

/-- Every fault that a complaint refers to is there. -/
def Referential (r : Register) : Prop :=
  ∀ b ∈ r.complaints, ∀ id, b.faultId = some id → ∃ f ∈ r.faults, id = f.id

/-- No complaint refers to the number of the next fault where all references hold. -/
theorem Referential.unreferred (h : r.Referential) :
    ∀ b ∈ r.complaints, b.faultId ≠ some (r.nextFaultId : Int) := by
  intro b hb hid
  obtain ⟨f, hf, hfid⟩ := h b hb _ hid
  have hlt := lt_nextFaultId hf
  omega

/-- Entries keep the references. -/
theorem Referential.enter (h : r.Referential) (k : Clerk) (now : Instant) (c : Candidate) :
    (r.enter k now c).2.Referential := by
  rcases r.enter_cases k now c with ⟨f, hsame⟩ | ⟨d, e, he, hadded⟩
  · rw [hsame]
    exact h
  · obtain ⟨hfault, habout⟩ := entryOf_ok he
    rw [hadded]
    intro b hb id hid
    rcases List.mem_append.mp hb with hold | hnew
    · obtain ⟨f, hf, hfid⟩ := h b hold id hid
      exact ⟨f, List.mem_append_left _ hf, hfid⟩
    · obtain rfl := List.mem_singleton.mp hnew
      refine ⟨e.fault, List.mem_append_right _ (List.mem_singleton_self _), ?_⟩
      rw [hfault]
      exact Option.some.inj (hid.symm.trans habout)

/-- A fault that has been entered is the latest incident of its unit and tag, with its complaint and
the status of the mapping, exactly if no complaint refers to its number already; with all references
in order none does, and they stay in order. What is found under any other unit or tag is as before. -/
theorem entered_is_latest_iff (h : r.enter k now c = (.ok number, r')) :
    ∃ f : FaultRow, r'.faults = r.faults ++ [f] ∧ f.unit = c.unit ∧ f.tag = c.tag ∧
      (∀ g ∈ r.faults, g.id < f.id) ∧
      (r'.find c.unit c.tag = .ok (some ⟨f.id, some number, some k.mapping.status⟩) ↔
        ∀ b ∈ r.complaints, b.faultId ≠ some (f.id : Int)) ∧
      (∀ unit tag, (unit, tag) ≠ c.key → r'.find unit tag = r.find unit tag) ∧
      (r.Referential → r'.Referential ∧
        r'.find c.unit c.tag = .ok (some ⟨f.id, some number, some k.mapping.status⟩)) := by
  have hself := find_enter_self h
  obtain ⟨-, e, hadded, hfault, -, -, -⟩ := enter_ok h
  have hfound : r'.find c.unit c.tag =
      .ok (some ⟨r.nextFaultId, some number, some k.mapping.status⟩) ↔
        ∀ b ∈ r.complaints, b.faultId ≠ some (r.nextFaultId : Int) := by
    rw [hself, ← complaintOf?_eq_none_iff]
    cases hcomplaint : r.complaintOf? r.nextFaultId with
    | none => simp
    | some b =>
      -- an old complaint has another number than the new one
      have hnew : number ∉ r.numbers :=
        not_mem_of_nextNumber (enter_number (congrArg Prod.fst h)).1
      have hne : b.number ≠ number := by
        rintro rfl
        exact hnew (List.mem_map_of_mem (List.mem_of_find?_eq_some hcomplaint))
      simp [hne]
  refine ⟨r.faultRow c, ?_, rfl, rfl, fun g hg => lt_nextFaultId hg, hfound, ?_, ?_⟩
  · rw [hadded, ← hfault]
    rfl
  · intro unit tag hother
    have hsame := @find_enter r k now c unit tag hother
    rwa [h] at hsame
  · intro hrefs
    have hkept := hrefs.enter k now c
    rw [h] at hkept
    exact ⟨hkept, hfound.mpr hrefs.unreferred⟩

/-- Two faults of a lamp and one of another, whose complaints have numbers of an older kind; the first
of them is closed. -/
def lampRegister : Register :=
  { empty with
    faults := [⟨1, "101", "Tag1", none, 0, none⟩, ⟨2, "101", "Tag1", none, 0, none⟩,
      ⟨5, "102", "Tag1", none, 0, none⟩],
    complaints := [⟨1, "SL1", "CLOSED", some 1, []⟩, ⟨2, "SL2", "OPEN", some 2, []⟩,
      ⟨3, "SL4", "OPEN", some 5, []⟩] }

def lampFault : Candidate := ⟨"101", "Tag1", .int 1, 0, .simple default, none, .digital⟩

theorem lampRegister_entered :
    ∃ (r' : Register) (id : Nat), lampRegister.enter lateClerk 0 lampFault = (.ok "KSC0001", r') ∧
      lampRegister.Referential ∧ 5 < id ∧
      r'.find "101" "Tag1" = .ok (some ⟨id, some "KSC0001", some "REGISTERED"⟩) ∧
      r'.find "102" "Tag1" = .ok (some ⟨5, some "SL4", some "OPEN"⟩) := by
  have hnumber : (lampRegister.enter lateClerk 0 lampFault).1 = .ok "KSC0001" := by decide +kernel
  have hentered : lampRegister.enter lateClerk 0 lampFault = (.ok "KSC0001", _) :=
    Prod.ext hnumber rfl
  have hrefs : lampRegister.Referential := by
    intro b hb id hid
    simp only [lampRegister, List.mem_cons, List.not_mem_nil, or_false] at hb
    rcases hb with rfl | rfl | rfl <;> cases hid <;> simp [lampRegister]
  obtain ⟨f, -, -, -, hnew, -, hothers, hkept⟩ := entered_is_latest_iff hentered
  have hother := hothers "102" "Tag1" (by decide)
  exact ⟨_, f.id, hentered, hrefs, hnew ⟨5, "102", "Tag1", none, 0, none⟩ (by simp [lampRegister]),
    (hkept hrefs).2, hother.trans rfl⟩

/-- A complaint that refers to a fault which is not there is found in place of the new one. -/
theorem stray_complaint_found :
    ∃ r r' : Register, r.faults = [] ∧ r.complaints = [⟨1, "OLD1", "CLOSED", some 1, []⟩] ∧
      r.enter lateClerk 0 lampFault = (.ok "KSC0001", r') ∧
      r'.find "101" "Tag1" = .ok (some ⟨1, some "OLD1", some "CLOSED"⟩) ∧
      ¬ r'.find "101" "Tag1" = .ok (some ⟨1, some "KSC0001", some lateClerk.mapping.status⟩) := by
  let r : Register := { empty with complaints := [⟨1, "OLD1", "CLOSED", some 1, []⟩] }
  have hnumber : (r.enter lateClerk 0 lampFault).1 = .ok "KSC0001" := by decide +kernel
  have hfound : (r.enter lateClerk 0 lampFault).2.find "101" "Tag1" =
      .ok (some ⟨1, some "OLD1", some "CLOSED"⟩) := by decide +kernel
  refine ⟨r, _, rfl, rfl, Prod.ext hnumber rfl, hfound, ?_⟩
  rw [hfound]
  simp

end Register

end FaultDesk
