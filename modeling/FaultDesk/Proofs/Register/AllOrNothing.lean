import FaultDesk.Proofs.Register.OpenComplaints
import FaultDesk.Register.Transaction

/-!
An entry is whole or leaves nothing. Every step before the commit writes into the session only, so
whatever is raised there is raised on a register that has not changed; and when the commit has gone
through, a fault, its complaint and the first status of the complaint have been added together.
-/

namespace FaultDesk

namespace Entering

variable {α β : Type} {work : Entering α} {f : α → Entering β} {us : Upsets} {s s' : Session}

theorem within_bind (work : Entering α) (f : α → Entering β) (s : Session) :
    (work >>= f).within s =
      match work.within s with
      | (.ok a, s) => (f a).within s
      | (.error x, s) => (.error x, s) := by
  change ExceptT.bindCont f (work s).1 (work s).2 = _
  unfold within
  rcases work s with ⟨result, s'⟩
  cases result <;> rfl

theorem within_bind_ok {b : β} (h : (work >>= f).within s = (.ok b, s')) :
    ∃ a t, work.within s = (.ok a, t) ∧ (f a).within t = (.ok b, s') := by
  rw [within_bind] at h
  split at h
  next a t hw => exact ⟨a, t, hw, h⟩
  next => cases h

/-- Work that others do not see. -/
def Unseen (work : Entering α) : Prop := ∀ s, (work.within s).2.settled = s.settled

theorem unseen_pure (a : α) : (pure a : Entering α).Unseen := fun _ => rfl

theorem unseen_ask (f : Register → Except Raised α) : (ask f).Unseen := fun _ => rfl

theorem unseen_write (f : Register → Register) : (write f).Unseen := fun _ => rfl

theorem unseen_upset (us : Upsets) (step : EntryStep) : (upset us step).Unseen := by
  intro s
  simp only [within, upset]
  split <;> rfl

theorem Unseen.bind (hw : work.Unseen) (hf : ∀ a, (f a).Unseen) : (work >>= f).Unseen := by
  intro s
  have hs := hw s
  rw [within_bind]
  generalize work.within s = done at hs ⊢
  obtain ⟨result, t⟩ := done
  cases result with
  | ok a => exact (hf a t).trans hs
  | error x => exact hs

/-- Nothing before the commit is seen by others. -/
theorem unseen_insertRows (us : Upsets) (k : Clerk) (now : Instant) (c : Candidate) (d : Draft) :
    (insertRows us k now c d).Unseen := by
  refine .bind ?_ fun fault => .bind ?_ fun type => .bind ?_ fun number => .bind ?_ fun due =>
    .bind ?_ fun complaint => .bind ?_ fun _ => unseen_pure number
  · exact (unseen_upset us _).bind fun _ => (unseen_ask _).bind fun row =>
      (unseen_write _).bind fun _ => unseen_pure row
  · exact (unseen_upset us _).bind fun _ => unseen_ask _
  · exact (unseen_upset us _).bind fun _ => unseen_ask _
  · exact (unseen_upset us _).bind fun _ => unseen_ask _
  · exact (unseen_upset us _).bind fun _ => (unseen_ask _).bind fun _ => (unseen_ask _).bind
      fun row => (unseen_write _).bind fun _ => unseen_pure row
  · exact (unseen_upset us _).bind fun _ => (unseen_ask _).bind fun _ => unseen_write _

/-! ## What has been written when nothing is raised -/

theorem within_upset_bind (us : Upsets) (step : EntryStep) (work : Unit → Entering β)
    (s : Session) :
    (upset us step >>= work).within s =
      match us step with
      | none => (work ()).within s
      | some x => (.error x, s) := by
  rw [within_bind]
  simp only [within, upset]
  cases us step <;> rfl

theorem within_ask_bind (g : Register → Except Raised α) (f : α → Entering β) (s : Session) :
    (ask g >>= f).within s =
      match g s.pending with
      | .ok a => (f a).within s
      | .error x => (.error x, s) := by
  rw [within_bind]
  simp only [within, ask]
  cases g s.pending <;> rfl

theorem within_write_bind (g : Register → Register) (work : Unit → Entering β) (s : Session) :
    (write g >>= work).within s = (work ()).within (s.write g) := within_bind ..

/-- A step that goes through does its work. -/
theorem upset_bind_ok {step : EntryStep} {b : β} {work : Unit → Entering β}
    (h : (upset us step >>= work).within s = (.ok b, s')) : (work ()).within s = (.ok b, s') := by
  rw [within_upset_bind] at h
  split at h
  next => exact h
  next => cases h

theorem ask_bind_ok {g : Register → Except Raised α} {b : β}
    (h : (ask g >>= f).within s = (.ok b, s')) :
    ∃ a, g s.pending = .ok a ∧ (f a).within s = (.ok b, s') := by
  rw [within_ask_bind] at h
  split at h
  next a ha => exact ⟨a, ha, h⟩
  next => cases h

/-- A step that only asks writes nothing. -/
theorem asked_ok {step : EntryStep} {g : Register → Except Raised α} {a : α}
    (h : (do upset us step; ask g : Entering α).within s = (.ok a, s')) :
    g s.pending = .ok a ∧ s = s' := Prod.mk.inj (upset_bind_ok h)

theorem insertFault_ok {c : Candidate} {row : FaultRow}
    (h : (insertFault us c).within s = (.ok row, s')) :
    row = s.pending.faultRow c ∧
      s'.pending = { s.pending with faults := s.pending.faults ++ [row] } := by
  obtain ⟨row', hrow, h⟩ := ask_bind_ok (upset_bind_ok h)
  obtain rfl := Except.ok.inj hrow
  obtain ⟨hrow', rfl⟩ := Prod.mk.inj ((within_write_bind ..).symm.trans h)
  obtain rfl := Except.ok.inj hrow'
  exact ⟨rfl, rfl⟩

theorem takeNumber_ok {number : String} (h : (takeNumber us).within s = (.ok number, s')) :
    s.pending.nextNumber = .ok number ∧ s = s' := by
  obtain ⟨hnext, hs⟩ := asked_ok h
  refine ⟨?_, hs⟩
  change s.pending.nextNumber.mapError _ = _ at hnext
  cases hfound : s.pending.nextNumber with
  | error x =>
    rw [hfound] at hnext
    cases hnext
  | ok m =>
    rw [hfound] at hnext
    exact congrArg _ (Except.ok.inj hnext)

theorem insertComplaint_ok {d : Draft} {fault : FaultRow} {type : Option ComplaintType}
    {number : String} {due : Instant} {row : ComplaintRow}
    (h : (insertComplaint us d fault type number due).within s = (.ok row, s')) :
    row.id = s.pending.nextComplaintId ∧ row.number = number ∧ row.faultId = some (fault.id : Int) ∧
      s'.pending = { s.pending with complaints := s.pending.complaints ++ [row] } := by
  obtain ⟨kept, -, h⟩ := ask_bind_ok (upset_bind_ok h)
  obtain ⟨row', hrow, h⟩ := ask_bind_ok h
  obtain rfl := Except.ok.inj hrow
  obtain ⟨hrow', rfl⟩ := Prod.mk.inj ((within_write_bind ..).symm.trans h)
  obtain rfl := Except.ok.inj hrow'
  exact ⟨rfl, rfl, rfl, rfl⟩

theorem insertLog_ok {k : Clerk} {complaint : ComplaintRow} {u : Unit}
    (h : (insertLog us k complaint).within s = (.ok u, s')) :
    ∃ row : LogRow, row.id = s.pending.nextLogId ∧ row.complaintId = complaint.id ∧
      row.toStatus = complaint.status ∧
        s'.pending = { s.pending with logs := s.pending.logs ++ [row] } := by
  obtain ⟨row, hrow, h⟩ := ask_bind_ok (upset_bind_ok h)
  obtain rfl := Except.ok.inj hrow
  obtain ⟨-, rfl⟩ := Prod.mk.inj h
  exact ⟨_, rfl, rfl, rfl, rfl⟩

end Entering

/-! ## Whole entries -/

theorem Numbering.not_mem_of_freeFrom {n : Numbering} {numbers : List String} {tries : Nat}
    {value : Int} {number : String} (h : n.freeFrom numbers tries value = .ok number) :
    number ∉ numbers := by
  induction tries generalizing value with
  | zero => cases h
  | succ tries ih =>
    simp only [freeFrom, bind, Except.bind] at h
    split at h
    next => cases h
    next s _ =>
      split at h
      next => exact ih h
      next hfree =>
        obtain rfl := Except.ok.inj h
        simpa using hfree

theorem Register.not_mem_of_nextNumber {r : Register} {number : String}
    (h : r.nextNumber = .ok number) : number ∉ r.numbers := by
  unfold nextNumber at h
  split at h
  next => cases h
  next =>
    split at h
    next => cases h
    next => exact Numbering.not_mem_of_freeFrom h

/-- The rows of an entry are new to a register and refer to each other. -/
structure Register.Entry.Links (e : Register.Entry) (r : Register) (c : Candidate)
    (number : String) : Prop where
  unit : e.fault.unit = c.unit
  tag : e.fault.tag = c.tag
  numbered : e.complaint.number = number
  free : number ∉ r.numbers
  about : e.complaint.faultId = some (e.fault.id : Int)
  logged : e.log.complaintId = e.complaint.id
  status : e.log.toStatus = e.complaint.status
  newFault : ∀ f ∈ r.faults, f.id < e.fault.id
  newComplaint : ∀ b ∈ r.complaints, b.id < e.complaint.id
  newLog : ∀ l ∈ r.logs, l.id < e.log.id

namespace Entering

variable {us : Upsets} {k : Clerk} {now : Instant} {c : Candidate} {d : Draft} {s s' : Session}
  {number : String}

theorem insertRows_ok (h : (insertRows us k now c d).within s = (.ok number, s')) :
    ∃ e : Register.Entry, s'.pending = s.pending.add e ∧ e.Links s.pending c number := by
  obtain ⟨fault, t, hfault, h⟩ := within_bind_ok h
  obtain ⟨type, t₂, htype, h⟩ := within_bind_ok h
  obtain ⟨-, rfl⟩ := asked_ok htype
  obtain ⟨number', t₃, hnumber, h⟩ := within_bind_ok h
  obtain ⟨hnext, rfl⟩ := takeNumber_ok hnumber
  obtain ⟨due, t₄, hdue, h⟩ := within_bind_ok h
  obtain ⟨-, rfl⟩ := asked_ok hdue
  obtain ⟨complaint, t₅, hcomplaint, h⟩ := within_bind_ok h
  obtain ⟨_, t₆, hlog, h⟩ := within_bind_ok h
  obtain ⟨hreturned, rfl⟩ := Prod.mk.inj h
  obtain rfl := Except.ok.inj hreturned
  obtain ⟨rfl, hp⟩ := insertFault_ok hfault
  obtain ⟨hid, hno, habout, hp₅⟩ := insertComplaint_ok hcomplaint
  obtain ⟨log, hlid, hlogged, hstatus, hp₆⟩ := insertLog_ok hlog
  rw [hp] at hnext hid hp₅
  change s.pending.nextNumber = _ at hnext
  rw [hp₅] at hlid hp₆
  refine ⟨⟨s.pending.faultRow c, complaint, log⟩, hp₆, ?_⟩
  refine ⟨rfl, rfl, hno, Register.not_mem_of_nextNumber hnext, habout, hlogged, hstatus, ?_, ?_, ?_⟩
  · exact fun f hf => Register.lt_nextFaultId hf
  · intro b hb
    rw [hid]
    exact Register.lt_nextId (List.mem_map_of_mem hb)
  · intro l hl
    rw [hlid]
    exact Register.lt_nextId (List.mem_map_of_mem hl)

/-- A transaction that fails is seen by nobody; one that goes through has added the rows of an
entry. -/
theorem transaction_cases (us : Upsets) (k : Clerk) (now : Instant) (c : Candidate) (d : Draft)
    (r : Register) :
    (∃ x s', (transaction us k now c d).within (.start r) = (.error x, s') ∧ s'.settled = r) ∨
      ∃ (e : Register.Entry) (number : String) (s' : Session),
        (transaction us k now c d).within (.start r) = (.ok number, s') ∧ s'.settled = r.add e ∧
          e.Links r c number := by
  have hunseen := unseen_insertRows us k now c d (.start r)
  unfold transaction
  rw [within_bind]
  generalize hrows : (insertRows us k now c d).within (.start r) = done at hunseen ⊢
  obtain ⟨result, s'⟩ := done
  cases result with
  | error x => exact Or.inl ⟨x, s', rfl, hunseen⟩
  | ok number =>
    obtain ⟨e, hpending, hlinks⟩ := insertRows_ok hrows
    simp only [settle, bind_assoc, within_upset_bind]
    cases us .commit with
    | some x => exact Or.inl ⟨x, s', rfl, hunseen⟩
    | none => exact Or.inr ⟨e, number, s'.commit, rfl, hpending, hlinks⟩

/-- Where nothing is raised from outside, a transaction does what an entry does at once. -/
theorem transaction_undisturbed (k : Clerk) (now : Instant) (c : Candidate) (d : Draft)
    (r : Register) :
    (∃ x s', (transaction .none k now c d).within (.start r) = (.error x, s') ∧ s'.settled = r ∧
        r.entryOf k now c d = .error (x.guarded c)) ∨
      ∃ (e : Register.Entry) (s' : Session),
        (transaction .none k now c d).within (.start r) = (.ok e.complaint.number, s') ∧
          s'.settled = r.add e ∧ r.entryOf k now c d = .ok e := by
  have htype (fs : List FaultRow) (named : Datum) :
      ({ r with faults := fs } : Register).findType named = r.findType named := rfl
  have hnumber (fs : List FaultRow) :
      ({ r with faults := fs } : Register).nextNumber = r.nextNumber := rfl
  have hok {ε ε' α : Type} (f : ε → ε') (a : α) : (Except.ok a).mapError f = .ok a := rfl
  simp only [transaction, insertRows, insertFault, resolveType, takeNumber, setDeadline,
    insertComplaint, insertLog, settle, bind_assoc, within_upset_bind, within_ask_bind,
    within_write_bind, Upsets.none, pure_bind, Session.start, Session.write, htype, hnumber]
  simp only [Register.entryOf, bind, Except.bind]
  cases r.findType (.text d.type) with
  | error f => exact Or.inl ⟨_, _, rfl, rfl, rfl⟩
  | ok type =>
    cases r.nextNumber with
    | error x =>
      cases x with
      | failed f => exact Or.inl ⟨_, _, rfl, rfl, rfl⟩
      | noneFree => exact Or.inl ⟨_, _, rfl, rfl, rfl⟩
    | ok number =>
      simp only [hok]
      cases Register.deadline now type with
      | error f => exact Or.inl ⟨_, _, rfl, rfl, rfl⟩
      | ok due =>
        simp only [hok]
        cases Register.keepColumns (Register.columns d type due) with
        | error f => exact Or.inl ⟨_, _, rfl, rfl, rfl⟩
        | ok kept => exact Or.inr ⟨_, _, rfl, rfl, rfl⟩

end Entering

namespace Register

/-- Whether it is rolled back or not, a session that is not committed leaves what was settled. -/
theorem close_failed (x : Raised) (s : Session) :
    (if x.isCaught then s.rollback else s).close = s.settled := by
  split <;> rfl

/-- The steps of an entry one after another come to the entry at once. -/
theorem enterStepwise_undisturbed (r : Register) (k : Clerk) (now : Instant) (c : Candidate) :
    r.enterStepwise .none k now c = r.enter k now c := by
  unfold enterStepwise enter
  cases Draft.ofCandidate c k.mapping k.clientId k.user (.utc now) with
  | error f => rfl
  | ok d =>
    cases r.access with
    | error f => rfl
    | ok _ =>
      rcases Entering.transaction_undisturbed k now c d r with
        ⟨x, s', hrun, hsame, hentry⟩ | ⟨e, s', hrun, hadded, hentry⟩
      · simp only [Upsets.none, hrun, hentry, close_failed, hsame]
      · simp only [Upsets.none, hrun, hentry, Session.close, hadded]

/-- Whatever is raised at whatever step, an entry that fails leaves the register as it was. One that
gives a number has added one fault, one complaint of that number about it and one status of that
complaint, and nothing else has changed. -/
theorem entered_whole_or_not_at_all (us : Upsets) (r : Register) (k : Clerk) (now : Instant)
    (c : Candidate) :
    r.enterStepwise .none k now c = r.enter k now c ∧
      ((∃ f, r.enterStepwise us k now c = (.error f, r)) ∨
        ∃ (e : Entry) (number : String),
          r.enterStepwise us k now c = (.ok number, r.add e) ∧ e.Links r c number) := by
  refine ⟨r.enterStepwise_undisturbed k now c, ?_⟩
  unfold enterStepwise
  split
  next => exact Or.inl ⟨_, rfl⟩
  next =>
    split
    next => exact Or.inl ⟨_, rfl⟩
    next d _ =>
      split
      next => exact Or.inl ⟨_, rfl⟩
      next =>
        split
        next => exact Or.inl ⟨_, rfl⟩
        next =>
          rcases Entering.transaction_cases us k now c d r with
            ⟨x, s', hrun, hsame⟩ | ⟨e, number, s', hrun, hadded, hlinks⟩
          · rw [hrun]
            exact Or.inl ⟨x.guarded c, by simp only [close_failed, hsame]⟩
          · rw [hrun]
            exact Or.inr ⟨e, number, by simp only [Session.close, hadded], hlinks⟩

end Register

end FaultDesk
