import Mathlib.Logic.Function.Basic
import FaultDesk.Lease

/-!
Several holders of one lease. Each has a side of its own, all share the table, and their calls come
one after the other in any order.
-/

namespace FaultDesk

namespace LeaseTable

theorem find?_erase (t : LeaseTable) (name : String) : (t.erase name).find? name = none := by
  refine List.lookup_eq_none_iff.mpr ?_
  rintro ⟨n, r⟩ hmem
  have hne : n ≠ name := of_decide_eq_true (List.mem_filter.mp hmem).2
  exact bne_iff_ne.mpr (Ne.symm hne)

theorem find?_put_self (t : LeaseTable) (name : String) (r : LeaseRecord) :
    (t.put name r).find? name = some r := by
  rw [find?_put, if_pos rfl]

theorem access_ok {t : LeaseTable} (hdown : t.down = none) (hpresent : t.present = true) :
    t.access = .ok () := by
  unfold access
  rw [hdown, hpresent]
  rfl

end LeaseTable

/-- What is asked of a lease. -/
inductive LeaseRequest where
  | acquire (owner : String)
  | renew
  | release (owner : String)
deriving DecidableEq, Repr

namespace LeaseRequest

/-- The name that is used. -/
def owner? : LeaseRequest → Option String
  | acquire o => some o
  | renew => none
  | release o => some o

end LeaseRequest

namespace Lease

/-- The holder's side and the table when a request has been made. -/
def perform (l : Lease) (request : LeaseRequest) (now : Instant) (t : LeaseTable) :
    Lease × LeaseTable :=
  match request with
  | .acquire o => (l.acquire o now t).2
  | .renew => (l.renew now t).2
  | .release o => (l.release o t).2

/-- What a request does to the holder's side and to the table. -/
inductive Does (l : Lease) (request : LeaseRequest) (now : Instant) (t : LeaseTable) :
    Lease → LeaseTable → Prop where
  /-- Nothing, but perhaps to the holder's own lock. -/
  | kept (locked : Bool) : Does l request now t { l with locked := locked } t
  | taken {o : String} {e : Instant} (asked : request = .acquire o)
      (granted : (l.acquire o now t).1 = .ok true)
      (free : ∀ r, t.find? l.name = some r → r.owner = o ∨ r.expires ≤ now)
      (due : Instant.shift? now l.ttl = some e) :
      Does l request now t { l with locked := true, owner := some o, expires := some e }
        (t.put l.name ⟨o, e⟩)
  | renewed {o : String} {r : LeaseRecord} {e : Instant} (asked : request = .renew)
      (owned : l.owner = some o) (found : t.find? l.name = some r) (same : r.owner = o)
      (due : Instant.shift? now l.ttl = some e) :
      Does l request now t { l with expires := some e } (t.put l.name ⟨o, e⟩)
  | released {o : String} (asked : request = .release o) (owned : l.owner = some o) :
      Does l request now t { l with owner := none, expires := none, locked := false }
        (l.relinquish o t)
  | opened {o : String} (asked : request = .release o) (owned : l.owner ≠ some o) :
      Does l request now t { l with locked := false } (l.relinquish o t)

variable {l : Lease} {o : String} {now : Instant} {t : LeaseTable}

theorem free_of_blocks (h : ¬ (t.find? l.name).any (blocks · o now) = true) :
    ∀ r, t.find? l.name = some r → r.owner = o ∨ r.expires ≤ now := by
  intro r hr
  rw [hr] at h
  by_cases ho : r.owner = o
  · exact Or.inl ho
  · right
    simpa [blocks, ho] using h

theorem claim_granted {u : LeaseTable} (h : l.claim o now t = (.ok true, u)) :
    (∀ r, t.find? l.name = some r → r.owner = o ∨ r.expires ≤ now) ∧
      ∃ e, Instant.shift? now l.ttl = some e ∧ u = t.put l.name ⟨o, e⟩ := by
  simp only [claim] at h
  split at h
  next => cases h
  next =>
    split at h
    next => cases h
    next hfree =>
      split at h
      next => cases h
      next e he =>
        cases h
        exact ⟨free_of_blocks hfree, e, he, rfl⟩

theorem claim_refused (h : (l.claim o now t).1 ≠ .ok true) : (l.claim o now t).2 = t := by
  simp only [claim] at h ⊢
  split
  next => rfl
  next ha =>
    rw [ha] at h
    split
    next => rfl
    next hfree =>
      simp only [hfree] at h
      split
      next => rfl
      next e he => simp [he] at h

/-- A lease that is granted goes to the owner, until the time that is recorded. -/
theorem acquire_granted (h : (l.acquire o now t).1 = .ok true) :
    (∀ r, t.find? l.name = some r → r.owner = o ∨ r.expires ≤ now) ∧
      ∃ e, Instant.shift? now l.ttl = some e ∧ (l.acquire o now t).2 =
        ({ l with locked := true, owner := some o, expires := some e },
          t.put l.name ⟨o, e⟩) := by
  simp only [acquire] at h ⊢
  split at h
  next => cases h
  next hopen =>
    split at h
    next u hclaim =>
      obtain ⟨hfree, e, he, rfl⟩ := claim_granted hclaim
      exact ⟨hfree, e, he, by simp [hopen, he]⟩
    next => cases h
    next => split at h <;> cases h

/-- A lease that is not granted leaves all but the holder's own lock alone. -/
theorem acquire_refused (h : (l.acquire o now t).1 ≠ .ok true) :
    ∃ locked, (l.acquire o now t).2 = ({ l with locked := locked }, t) := by
  have hkeeps := @claim_refused l o now t
  simp only [acquire] at h ⊢
  split
  next => exact ⟨l.locked, rfl⟩
  next hopen =>
    simp only [hopen] at h
    generalize l.claim o now t = claimed at h hkeeps ⊢
    obtain ⟨answer, u⟩ := claimed
    cases answer with
    | error e =>
      obtain rfl : u = t := hkeeps (by simp)
      cases hdatabase : e.isDatabase with
      | true => exact ⟨l.locked, by simp [hdatabase]⟩
      | false => exact ⟨true, by simp [hdatabase]⟩
    | ok b =>
      cases b with
      | true => exact absurd rfl h
      | false =>
        obtain rfl : u = t := hkeeps (by simp)
        exact ⟨l.locked, rfl⟩

/-- A lease that is refused stays as it was. -/
theorem acquire_ok_false (h : (l.acquire o now t).1 = .ok false) :
    l.acquire o now t = (.ok false, l, t) := by
  have hkept : (l.claim o now t).1 ≠ .ok true → (l.claim o now t).2 = t := claim_refused
  unfold acquire at *
  split
  next => rfl
  next hopen =>
    rw [if_neg hopen] at h
    generalize l.claim o now t = claimed at h hkept ⊢
    obtain ⟨held, leases⟩ := claimed
    match held with
    | .ok true => cases h
    | .ok false =>
      obtain rfl : leases = t := hkept (by simp)
      rfl
    | .error e =>
      obtain rfl : leases = t := hkept (by simp)
      dsimp only at h ⊢
      split at h
      next hdatabase => rw [if_pos hdatabase]
      next => cases h

theorem renew_does (now : Instant) (t : LeaseTable) :
    l.Does .renew now t (l.renew now t).2.1 (l.renew now t).2.2 := by
  simp only [renew]
  split
  next => exact .kept l.locked
  next o howner =>
    split
    next => exact .kept l.locked
    next =>
      split
      next => exact .kept l.locked
      next =>
        split
        next hsame =>
          split
          next => exact .kept l.locked
          next e he =>
            obtain ⟨r, hr, hro⟩ := (Option.any_eq_true ..).mp hsame
            exact .renewed rfl howner hr (beq_iff_eq.mp hro) he
        next => exact .kept l.locked

theorem release_does (now : Instant) (ha : t.access = .ok ()) :
    l.Does (.release o) now t (l.release o t).2.1 (l.release o t).2.2 := by
  simp only [release, ha]
  by_cases howner : l.owner = some o
  · rw [if_pos howner]
    exact .released rfl howner
  · rw [if_neg howner]
    exact .opened rfl howner

/-- Where the table can be reached a release opens the lock. -/
theorem release_frees (l : Lease) (o : String) (h : t.access = .ok ()) :
    ∃ l', l'.locked = false ∧ l.release o t = (.ok (), l', l.relinquish o t) := by
  unfold release
  rw [h]
  refine ⟨_, ?_, rfl⟩
  split <;> rfl

theorem does_perform (request : LeaseRequest) (ha : t.access = .ok ()) :
    l.Does request now t (l.perform request now t).1 (l.perform request now t).2 := by
  cases request with
  | acquire o =>
    by_cases h : (l.acquire o now t).1 = .ok true
    · obtain ⟨hfree, e, he, hdone⟩ := acquire_granted h
      rw [perform, hdone]
      exact .taken rfl h hfree he
    · obtain ⟨locked, hdone⟩ := acquire_refused h
      rw [perform, hdone]
      exact .kept locked
  | renew => exact renew_does now t
  | release o => exact release_does now ha

theorem find?_relinquish (o : String) (t : LeaseTable) :
    (l.relinquish o t).find? l.name = (t.find? l.name).filter (·.owner != o) := by
  unfold relinquish
  cases hr : t.find? l.name with
  | none => simp [hr]
  | some r =>
    by_cases ho : r.owner = o
    · simp [ho, LeaseTable.find?_erase, Option.filter]
    · simp [ho, hr, Option.filter]

theorem access_relinquish (o : String) (t : LeaseTable) :
    (l.relinquish o t).access = t.access := by
  unfold relinquish
  split <;> rfl

namespace Does

variable {request : LeaseRequest} {l' : Lease} {t' : LeaseTable}

theorem name_eq (h : l.Does request now t l' t') : l'.name = l.name := by
  cases h <;> rfl

theorem ttl_eq (h : l.Does request now t l' t') : l'.ttl = l.ttl := by
  cases h <;> rfl

theorem access_eq (h : l.Does request now t l' t') : t'.access = t.access := by
  cases h with
  | kept | taken | renewed => rfl
  | released | opened => exact access_relinquish ..

end Does

end Lease

/-! ## Holders and their calls -/

/-- The sides of all holders and the table that they share. -/
structure Holders (ι : Type) where
  leases : ι → Lease
  table : LeaseTable

structure LeaseCall (ι : Type) where
  holder : ι
  request : LeaseRequest
  /-- What the clock shows. -/
  now : Instant

namespace Holders

variable {ι : Type}

/-- Holders that have not called yet. -/
def start (name : String) (ttl : ι → Span) (table : LeaseTable) : Holders ι :=
  ⟨fun j => .fresh name (ttl j), table⟩

/-- The record of a name. -/
def record (s : Holders ι) (name : String) : Option LeaseRecord := s.table.find? name

/-- Whether a call is granted the lease for an owner. -/
def Granted (s : Holders ι) (c : LeaseCall ι) (o : String) : Prop :=
  c.request = .acquire o ∧ ((s.leases c.holder).acquire o c.now s.table).1 = .ok true

variable [DecidableEq ι]

def call (s : Holders ι) (c : LeaseCall ι) : Holders ι :=
  let (l, t) := (s.leases c.holder).perform c.request c.now s.table
  ⟨Function.update s.leases c.holder l, t⟩

/-- The holders when so many calls have been made. -/
def after (s : Holders ι) (calls : List (LeaseCall ι)) (n : Nat) : Holders ι :=
  (calls.take n).foldl call s

theorem after_succ {s : Holders ι} {calls : List (LeaseCall ι)} {n : Nat} {c : LeaseCall ι}
    (hc : calls[n]? = some c) : s.after calls (n + 1) = (s.after calls n).call c := by
  obtain ⟨hn, rfl⟩ := List.getElem?_eq_some_iff.mp hc
  rw [after, List.take_succ_eq_append_getElem hn, List.foldl_append]
  rfl

/-- A call is a request of its holder, and leaves the sides of all others alone. -/
theorem does_call (s : Holders ι) (c : LeaseCall ι) (ha : s.table.access = .ok ()) :
    (s.leases c.holder).Does c.request c.now s.table ((s.call c).leases c.holder)
      (s.call c).table := by
  simpa [call] using Lease.does_perform c.request ha

theorem leases_call {s : Holders ι} {c : LeaseCall ι} {j : ι} (hj : j ≠ c.holder) :
    (s.call c).leases j = s.leases j := by
  simp [call, hj]

end Holders

end FaultDesk
