import FaultDesk.Proofs.Lease.Renewal

/-!
A holder's own state. Its lock is taken exactly while it remembers an owner, as long as nobody gives
back a lease under a name that is not the owner's and no failure but one of the database stops a call
that takes the lease. Whatever is asked, the owner that is remembered and its record outlast a release
under another name, and a refused lease changes nothing.
-/

namespace FaultDesk

/-- A call of one holder. The table is as the call finds it: what others have done to it since the last
call is left open, and so is whether it can be reached. -/
structure OwnCall where
  request : LeaseRequest
  /-- What the clock shows. -/
  now : Instant
  /-- What the clock shows when the holder notes the end of a lease it has taken. -/
  noted : Instant
  table : LeaseTable

namespace Lease

/-- The holder's side and the table after a call. -/
def turn (l : Lease) (c : OwnCall) : Lease × LeaseTable :=
  match c.request with
  | .acquire o => (l.acquireNoting o c.now c.noted c.table).2
  | .renew => (l.renew c.now c.table).2
  | .release o => (l.release o c.table).2

/-- The holder's side when so many calls have been made. -/
def afterTurns (l : Lease) (calls : List OwnCall) (n : Nat) : Lease :=
  (calls.take n).foldl (fun l c => (l.turn c).1) l

/-- The lock is taken exactly if there is an owner. -/
def Paired (l : Lease) : Prop := l.locked = true ↔ ∃ o, l.owner = some o

/-- A call that sets the lock and the owner apart. -/
inductive Parts (l : Lease) (c : OwnCall) : Prop where
  /-- The lock is opened under another name than the owner's. -/
  | opened {o : String} (asked : c.request = .release o) (taken : l.locked = true)
      (other : l.owner ≠ some o)
  /-- The lock is left taken though the lease is not. -/
  | stuck {o : String} {e : Failure} (asked : c.request = .acquire o) (free : l.locked = false)
      (failed : (l.claim o c.now c.table).1 = .error e) (foreign : e.isDatabase = false)

variable {l : Lease} {c : OwnCall} {o : String} {now noted : Instant} {t : LeaseTable}

theorem paired_fresh (name : String) (ttl : Span) : (fresh name ttl).Paired := by
  simp [Paired, fresh]

theorem afterTurns_succ {calls : List OwnCall} {n : Nat} (hc : calls[n]? = some c) :
    l.afterTurns calls (n + 1) = ((l.afterTurns calls n).turn c).1 := by
  obtain ⟨hn, rfl⟩ := List.getElem?_eq_some_iff.mp hc
  rw [afterTurns, List.take_succ_eq_append_getElem hn, List.foldl_append]
  rfl

/-! ## One call -/

/-- A free lock is taken with the owner, or left free, or left taken by a failure. -/
theorem acquireNoting_cases (hfree : l.locked = false) (o : String) (now noted : Instant)
    (t : LeaseTable) :
    ((l.claim o now t).1 = .ok true ∧ (l.acquireNoting o now noted t).2.1.locked = true ∧
        (l.acquireNoting o now noted t).2.1.owner = some o) ∨
      (((l.claim o now t).1 = .ok false ∨ ∃ e, (l.claim o now t).1 = .error e ∧ e.isDatabase = true) ∧
        l.acquireNoting o now noted t = (.ok false, l, t)) ∨
      ∃ e, (l.claim o now t).1 = .error e ∧ e.isDatabase = false ∧
        l.acquireNoting o now noted t = (.error e, { l with locked := true }, t) := by
  have hkept : (l.claim o now t).1 ≠ .ok true → (l.claim o now t).2 = t := claim_refused
  unfold acquireNoting acquire
  rw [if_neg (by rw [hfree]; exact Bool.false_ne_true)]
  generalize l.claim o now t = claimed at hkept ⊢
  obtain ⟨answer, u⟩ := claimed
  match answer with
  | .ok true =>
    left
    refine ⟨rfl, ?_⟩
    dsimp only
    split <;> exact ⟨rfl, rfl⟩
  | .ok false =>
    obtain rfl : u = t := hkept (by simp)
    exact Or.inr (Or.inl ⟨Or.inl rfl, rfl⟩)
  | .error e =>
    obtain rfl : u = t := hkept (by simp)
    cases hdatabase : e.isDatabase with
    | true => exact Or.inr (Or.inl ⟨Or.inr ⟨e, rfl, hdatabase⟩, by simp [hdatabase]⟩)
    | false => exact Or.inr (Or.inr ⟨e, rfl, hdatabase, by simp [hdatabase]⟩)

theorem acquireNoting_locked (h : l.locked = true) (o : String) (now noted : Instant)
    (t : LeaseTable) : l.acquireNoting o now noted t = (.ok false, l, t) := by
  rw [acquireNoting, acquire_locked h]

/-- A lease that is refused stays as it was. -/
theorem acquireNoting_ok_false (h : (l.acquireNoting o now noted t).1 = .ok false) :
    l.acquireNoting o now noted t = (.ok false, l, t) := by
  unfold acquireNoting at h ⊢
  split
  next held u hgranted =>
    rw [hgranted] at h
    dsimp only at h
    split at h <;> cases h
  next hrefused =>
    refine acquire_ok_false ?_
    split at h
    next => split at h <;> cases h
    next => exact h

theorem renew_keeps (l : Lease) (now : Instant) (t : LeaseTable) :
    (l.renew now t).2.1.locked = l.locked ∧ (l.renew now t).2.1.owner = l.owner := by
  unfold renew
  split
  next => exact ⟨rfl, rfl⟩
  next =>
    split
    next => exact ⟨rfl, rfl⟩
    next =>
      split
      next => exact ⟨rfl, rfl⟩
      next =>
        split
        next => split <;> exact ⟨rfl, rfl⟩
        next => exact ⟨rfl, rfl⟩

theorem release_side (l : Lease) (o : String) (t : LeaseTable) :
    (l.release o t).2.1 = if l.owner = some o then
      { l with owner := none, expires := none, locked := false } else { l with locked := false } := by
  unfold release
  dsimp only
  split <;> rfl

/-- A release takes no record away but that of the name it is asked under. -/
theorem release_record {r : LeaseRecord} (hr : t.find? l.name = some r) (hother : r.owner ≠ o) :
    (l.release o t).2.2.find? l.name = some r := by
  unfold release
  dsimp only
  split
  next => exact hr
  next =>
    dsimp only
    rw [find?_relinquish, hr]
    simpa using hother

/-- Under another name than the owner's a release opens the lock and does no more to the holder. -/
theorem release_other (h : l.owner ≠ some o) (t : LeaseTable) :
    (l.release o t).2.1 = { l with locked := false } := by
  rw [release_side, if_neg h]

/-! ## The lock and the owner -/

theorem Paired.acquireNoting_iff (h : l.Paired) (o : String) (now noted : Instant) (t : LeaseTable) :
    (l.acquireNoting o now noted t).2.1.Paired ↔
      ¬ (l.locked = false ∧ ∃ e, (l.claim o now t).1 = .error e ∧ e.isDatabase = false) := by
  cases hlocked : l.locked with
  | true =>
    rw [acquireNoting_locked hlocked]
    exact iff_of_true h (by simp)
  | false =>
    have hnone : ∀ o, l.owner ≠ some o := by
      intro o ho
      rw [h.mpr ⟨o, ho⟩] at hlocked
      cases hlocked
    rcases acquireNoting_cases hlocked o now noted t with
      ⟨hgranted, htaken, howner⟩ | ⟨hrefused, hsame⟩ | ⟨e, hfailed, hforeign, hstuck⟩
    · refine iff_of_true (by simp [Paired, htaken, howner]) ?_
      simp [hgranted]
    · rw [hsame]
      refine iff_of_true h ?_
      rintro ⟨-, e, hfailed, hforeign⟩
      rcases hrefused with hno | ⟨e', hfailed', hdatabase⟩
      · rw [hno] at hfailed
        cases hfailed
      · rw [hfailed'] at hfailed
        cases hfailed
        rw [hdatabase] at hforeign
        cases hforeign
    · rw [hstuck]
      refine iff_of_false ?_ fun hnot => hnot ⟨rfl, e, hfailed, hforeign⟩
      intro hpaired
      obtain ⟨o', ho'⟩ := hpaired.mp rfl
      exact hnone o' ho'

theorem Paired.release_iff (h : l.Paired) (o : String) (t : LeaseTable) :
    (l.release o t).2.1.Paired ↔ ¬ (l.locked = true ∧ l.owner ≠ some o) := by
  rw [release_side]
  split
  next howner => exact iff_of_true (by simp [Paired]) fun hnot => hnot.2 howner
  next howner =>
    cases hlocked : l.locked with
    | true =>
      -- the lock is open now, but there still is an owner
      refine iff_of_false ?_ fun hnot => hnot ⟨rfl, howner⟩
      intro hpaired
      cases hpaired.mpr (h.mp hlocked)
    | false =>
      refine iff_of_true ?_ (by simp)
      rw [Paired, hlocked] at h
      exact h

/-- The lock and the owner stay together exactly if the call is none that sets them apart. -/
theorem Paired.turn_iff (h : l.Paired) : (l.turn c).1.Paired ↔ ¬ l.Parts c := by
  unfold turn
  cases hasked : c.request with
  | acquire o =>
    refine (h.acquireNoting_iff o c.now c.noted c.table).trans (not_congr ⟨?_, ?_⟩)
    · rintro ⟨free, e, failed, foreign⟩
      exact .stuck hasked free failed foreign
    · rintro (⟨asked, -, -⟩ | ⟨asked, free, failed, foreign⟩)
      · rw [hasked] at asked
        cases asked
      · rw [hasked] at asked
        cases asked
        exact ⟨free, _, failed, foreign⟩
  | renew =>
    obtain ⟨hlock, howner⟩ := l.renew_keeps c.now c.table
    refine iff_of_true ?_ ?_
    · rw [Paired, hlock, howner]
      exact h
    · rintro (⟨asked, -, -⟩ | ⟨asked, -, -, -⟩) <;> rw [hasked] at asked <;> cases asked
  | release o =>
    refine (h.release_iff o c.table).trans (not_congr ⟨?_, ?_⟩)
    · rintro ⟨taken, other⟩
      exact .opened hasked taken other
    · rintro (⟨asked, taken, other⟩ | ⟨asked, -, -, -⟩)
      · rw [hasked] at asked
        cases asked
        exact ⟨taken, other⟩
      · rw [hasked] at asked
        cases asked

/-! ## One call after another -/

theorem paired_after {calls : List OwnCall} (hl : l.Paired)
    (hcalls : ∀ n c, calls[n]? = some c → ¬ (l.afterTurns calls n).Parts c) :
    ∀ n ≤ calls.length, (l.afterTurns calls n).Paired := by
  intro n hn
  induction n with
  | zero => exact hl
  | succ n ih =>
    have hc := List.getElem?_eq_getElem (Nat.lt_of_succ_le hn)
    rw [afterTurns_succ hc]
    exact (ih (Nat.le_of_succ_le hn)).turn_iff.mpr (hcalls n _ hc)

/-- The lock of a holder is taken exactly while it has an owner, after every call, if and only if no
call opens the taken lock under another name than the owner's and none that takes the lease is stopped
by a failure other than the database's. Whatever the calls, a release under another name keeps the
owner, the end that is noted and the owner's record, and a lease that is refused leaves all as it was. -/
theorem paired_throughout_iff (name : String) (ttl : Span) (calls : List OwnCall) :
    let s := (fresh name ttl).afterTurns calls
    ((∀ n ≤ calls.length, (s n).Paired) ↔ ∀ n c, calls[n]? = some c → ¬ (s n).Parts c) ∧
      ∀ n c, calls[n]? = some c →
        (∀ o, c.request = .release o → (s n).owner ≠ some o →
          s (n + 1) = { s n with locked := false } ∧
            ∀ r, c.table.find? (s n).name = some r → (s n).owner = some r.owner →
              ((s n).turn c).2.find? (s n).name = some r) ∧
        ∀ o, c.request = .acquire o →
          ((s n).acquireNoting o c.now c.noted c.table).1 = .ok false →
          s (n + 1) = s n ∧ ((s n).turn c).2 = c.table := by
  intro s
  refine ⟨⟨?_, paired_after (paired_fresh name ttl)⟩, ?_⟩
  · intro hpaired n c hc
    have hn := (List.getElem?_eq_some_iff.mp hc).1
    have hnext : s (n + 1) = ((s n).turn c).1 := afterTurns_succ hc
    have hafter := hpaired (n + 1) hn
    rw [hnext] at hafter
    exact (hpaired n (Nat.le_of_lt hn)).turn_iff.mp hafter
  · intro n c hc
    have hnext : s (n + 1) = ((s n).turn c).1 := afterTurns_succ hc
    refine ⟨?_, ?_⟩
    · intro o hasked hother
      have hturn : (s n).turn c = ((s n).release o c.table).2 := by simp only [turn, hasked]
      rw [hnext, hturn]
      refine ⟨release_other hother c.table, ?_⟩
      intro r hr howner
      refine release_record hr ?_
      rintro rfl
      exact hother howner
    · intro o hasked hrefused
      have hturn : (s n).turn c = ((s n).acquireNoting o c.now c.noted c.table).2 := by
        simp only [turn, hasked]
      rw [hnext, hturn, acquireNoting_ok_false hrefused]
      exact ⟨rfl, rfl⟩

/-- A release under another worker's name opens the lock while the owner is kept, and the lease is
granted twice; a failure that is not the database's leaves the lock taken without an owner, and the
lease is refused although its record is free. -/
theorem foreign_release_opens_lock :
    (let s := (fresh "sync" 600000000).acquireNoting "worker-a" 0 0 .empty
      let s' := s.2.1.release "worker-b" s.2.2
      s.1 = .ok true ∧ s'.1 = .ok () ∧ s'.2.1.locked = false ∧ s'.2.1.owner = some "worker-a" ∧
        (s'.2.1.acquireNoting "worker-a" 0 0 s'.2.2).1 = .ok true) ∧
    let s := (fresh "sync" 600000000).acquireNoting "worker-a" 0 0
      { LeaseTable.empty with down := some .databaseUnreachable }
    s.1 = .error .databaseUnreachable ∧ s.2.1.locked = true ∧ s.2.1.owner = none ∧
      (s.2.1.acquireNoting "worker-a" 0 0 .empty).1 = .ok false :=
  ⟨⟨rfl, rfl, rfl, rfl, rfl⟩, rfl, rfl, rfl, rfl⟩

end Lease

end FaultDesk
