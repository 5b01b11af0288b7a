import FaultDesk.Proofs.Lease.Safety

/-!
A lease that is renewed in time. A holder that asks again no later than half of its time after it
asked last is never refused, and nobody else is granted the lease meanwhile, though the record is
written only when half of the time has gone.
-/

namespace FaultDesk

/-! ## Half of a time -/

/-- A distance of at most half of a time, whether the half is exact or rounded. -/
def Span.WithinHalf (d ttl : Int) : Prop := 2 * d ≤ ttl ∨ d ≤ roundedQuotientInt ttl 2

theorem roundedQuotientInt_two_bounds {n : Int} (h : 0 ≤ n) :
    n - 1 ≤ 2 * roundedQuotientInt n 2 ∧ 2 * roundedQuotientInt n 2 ≤ n + 1 := by
  obtain ⟨m, rfl⟩ := Int.eq_ofNat_of_zero_le h
  change (m : Int) - 1 ≤ 2 * (roundedQuotient m 2 : Int) ∧
    2 * (roundedQuotient m 2 : Int) ≤ (m : Int) + 1
  have hparts := Nat.div_add_mod m 2
  have hrest := Nat.mod_lt m (by decide : 0 < 2)
  have heven := Nat.mod_lt (m / 2) (by decide : 0 < 2)
  unfold roundedQuotient
  dsimp only
  split
  next => omega
  next => split <;> omega

/-- What is left of a time that has just begun is more than half of it. -/
theorem roundedQuotientInt_two_lt {ttl now : Int} (h : 0 < ttl) :
    roundedQuotientInt ttl 2 < now + ttl - now := by
  obtain ⟨-, habove⟩ := roundedQuotientInt_two_bounds (Int.le_of_lt h)
  by_cases hone : ttl = 1
  · subst ttl
    have hnone : roundedQuotientInt 1 2 = 0 := by decide
    omega
  · omega

theorem Span.WithinHalf.lt {now asked e ttl : Int} (h : Span.WithinHalf (now - asked) ttl)
    (httl : 0 < ttl) (hleft : roundedQuotientInt ttl 2 < e - asked) : now < e := by
  obtain ⟨hbelow, -⟩ := roundedQuotientInt_two_bounds (Int.le_of_lt httl)
  rcases h with hexact | hrounded <;> omega

/-! ## One call -/

namespace Lease

variable {l : Lease} {o o' : String} {e now : Instant} {t : LeaseTable}

/-- A record with time left keeps other owners out. -/
theorem acquire_blocked (ha : t.access = .ok ()) (hrecord : t.find? l.name = some ⟨o, e⟩)
    (hne : o' ≠ o) (hleft : now < e) : (l.acquire o' now t).1 = .ok false := by
  have hblocks : (t.find? l.name).any (blocks · o' now) = true := by
    rw [hrecord]
    simp [blocks, Ne.symm hne, hleft]
  have hclaim : l.claim o' now t = (.ok false, t) := by
    unfold claim
    rw [ha]
    simp only [hblocks, ↓reduceIte]
  unfold acquire
  split
  next => rfl
  next => rw [hclaim]

theorem acquire_locked (h : l.locked = true) (o' : String) (now : Instant) (t : LeaseTable) :
    l.acquire o' now t = (.ok false, l, t) := by
  simp [acquire, h]

/-- A holder whose lease is recorded is not refused; it writes only if at most half of its time is
left. -/
theorem renew_recorded (ha : t.access = .ok ()) (howner : l.owner = some o)
    (hcopy : l.expires = some e) (hrecord : t.find? l.name = some ⟨o, e⟩) {due : Instant}
    (hdue : Instant.shift? now l.ttl = some due) :
    l.renew now t = if roundedQuotientInt l.ttl 2 < e - now then (.ok true, l, t)
      else (.ok true, { l with expires := some due }, t.put l.name ⟨o, due⟩) := by
  simp only [renew, howner, isAmple, hcopy, decide_eq_true_eq]
  split
  next => rfl
  next => simp [ha, hrecord, hdue]

/-- A request under another name leaves a record with time left as it is. -/
theorem Does.record_kept {request : LeaseRequest} {l' : Lease} {t' : LeaseTable}
    (h : l.Does request now t l' t') (hasked : request.owner? ≠ some o) (howner : l.owner ≠ some o)
    (hrecord : t.find? l.name = some ⟨o, e⟩) (hleft : now < e) :
    t'.find? l.name = some ⟨o, e⟩ ∧ l'.owner ≠ some o := by
  have hrelinquished {o' : String} (hne : o' ≠ o) :
      (l.relinquish o' t).find? l.name = some ⟨o, e⟩ := by
    rw [find?_relinquish, hrecord]
    simp [Ne.symm hne]
  cases h with
  | kept => exact ⟨hrecord, howner⟩
  | @taken o' e' asked granted free due =>
    -- the record is not free for another owner
    rcases free _ hrecord with rfl | hover
    · exact absurd (by rw [asked]; rfl) hasked
    · exact absurd hover (Int.not_le.mpr hleft)
  | @renewed o' r e' asked owned found same due =>
    rw [hrecord] at found
    cases found
    subst same
    exact absurd owned howner
  | @released o' asked owned =>
    have hne : o' ≠ o := by
      rintro rfl
      exact howner owned
    exact ⟨hrelinquished hne, by simp⟩
  | @opened o' asked owned =>
    have hne : o' ≠ o := by
      rintro rfl
      exact hasked (by rw [asked]; rfl)
    exact ⟨hrelinquished hne, howner⟩

end Lease

/-! ## The holder and the others -/

namespace Holders

variable {ι : Type} {s : Holders ι} {j : ι} {name o : String} {ttl : Span} {start asked : Instant}

/-- A holder has the lease, and what is left of it when it has asked last is more than half of its
time. No other holder uses its name. -/
structure Holds (s : Holders ι) (j : ι) (name o : String) (ttl : Span) (asked : Instant) : Prop where
  names : ∀ i, (s.leases i).name = name
  access : s.table.access = .ok ()
  ttl_eq : (s.leases j).ttl = ttl
  locked : (s.leases j).locked = true
  owner : (s.leases j).owner = some o
  others : ∀ i, i ≠ j → (s.leases i).owner ≠ some o
  copied : ∃ e, (s.leases j).expires = some e ∧ s.record name = some ⟨o, e⟩ ∧
    roundedQuotientInt ttl 2 < e - asked

variable [DecidableEq ι]

/-- When a holder that was granted the lease at `start` has asked last to renew it. -/
def lastAsked (j : ι) (start : Instant) (calls : List (LeaseCall ι)) : Instant :=
  calls.foldl (fun t c => if c.holder = j ∧ c.request = .renew then c.now else t) start

theorem lastAsked_succ {calls : List (LeaseCall ι)} {n : Nat} {c : LeaseCall ι}
    (hc : calls[n]? = some c) :
    lastAsked j start (calls.take (n + 1)) =
      if c.holder = j ∧ c.request = .renew then c.now else lastAsked j start (calls.take n) := by
  obtain ⟨hn, rfl⟩ := List.getElem?_eq_some_iff.mp hc
  rw [lastAsked, List.take_succ_eq_append_getElem hn, List.foldl_append]
  rfl

/-- What a call may be while a holder keeps the lease. The others use other names, and the holder
does not give the lease back; no call comes later than half of the time after the holder has asked
last, and a new end of the lease is a time that the calendar has. -/
structure Keeping (j : ι) (o : String) (ttl : Span) (asked : Instant) (c : LeaseCall ι) : Prop where
  others : c.holder ≠ j → c.request.owner? ≠ some o
  keeps : c.holder = j → ∀ o', c.request ≠ .release o'
  timely : Span.WithinHalf (c.now - asked) ttl
  dated : c.holder = j → c.request = .renew → ∃ due, Instant.shift? c.now ttl = some due

variable {c : LeaseCall ι}

omit [DecidableEq ι] in
/-- The lease is not over at a call that comes in time. -/
theorem Holds.left (hs : s.Holds j name o ttl asked) (httl : 0 < ttl)
    (hc : Keeping j o ttl asked c) : ∃ e, (s.leases j).expires = some e ∧
      s.record name = some ⟨o, e⟩ ∧ c.now < e := by
  obtain ⟨e, he, hrecord, hleft⟩ := hs.copied
  exact ⟨e, he, hrecord, hc.timely.lt httl hleft⟩

/-- A call of another holder leaves the lease alone. -/
theorem Holds.call_other (hs : s.Holds j name o ttl asked) (httl : 0 < ttl)
    (hc : Keeping j o ttl asked c) (hj : c.holder ≠ j) : (s.call c).Holds j name o ttl asked := by
  obtain ⟨e, he, hrecord, hnow⟩ := hs.left httl hc
  have hhalf : roundedQuotientInt ttl 2 < e - asked := by
    obtain ⟨e', he', -, hleft⟩ := hs.copied
    obtain rfl := Option.some.inj (he.symm.trans he')
    exact hleft
  have hdoes := s.does_call c hs.access
  have hname := hs.names c.holder
  have hfound : s.table.find? (s.leases c.holder).name = some ⟨o, e⟩ := by rw [hname]; exact hrecord
  obtain ⟨hkept, howner⟩ := hdoes.record_kept (hc.others hj) (hs.others _ hj) hfound hnow
  have hsame : (s.call c).leases j = s.leases j := leases_call (Ne.symm hj)
  refine ⟨?_, hdoes.access_eq.trans hs.access, ?_, ?_, ?_, ?_, e, ?_, ?_, hhalf⟩
  · intro i
    by_cases hi : i = c.holder
    · subst i
      rw [hdoes.name_eq, hname]
    · rw [leases_call hi, hs.names i]
  · rw [hsame, hs.ttl_eq]
  · rw [hsame, hs.locked]
  · rw [hsame, hs.owner]
  · intro i hi
    by_cases hholder : i = c.holder
    · subst i
      exact howner
    · rw [leases_call hholder]
      exact hs.others i hi
  · rw [hsame, he]
  · rw [hname] at hkept
    exact hkept

omit [DecidableEq ι] in
/-- A lease that has a new end is held from then on. -/
theorem Holds.moved (hs : s.Holds j name o ttl asked) {s' : Holders ι} {e now : Instant}
    (hlease : s'.leases j = { s.leases j with expires := some e })
    (hothers : ∀ i, i ≠ j → s'.leases i = s.leases i) (haccess : s'.table.access = .ok ())
    (hrecord : s'.record name = some ⟨o, e⟩) (hleft : roundedQuotientInt ttl 2 < e - now) :
    s'.Holds j name o ttl now := by
  refine ⟨?_, haccess, ?_, ?_, ?_, ?_, e, by rw [hlease], hrecord, hleft⟩
  · intro i
    by_cases hi : i = j
    · subst i
      rw [hlease]
      exact hs.names j
    · rw [hothers i hi, hs.names i]
  · rw [hlease]
    exact hs.ttl_eq
  · rw [hlease]
    exact hs.locked
  · rw [hlease]
    exact hs.owner
  · intro i hi
    rw [hothers i hi]
    exact hs.others i hi

omit [DecidableEq ι] in
/-- What a holder that keeps the lease is answered when it asks to renew it, and what it writes. -/
theorem Holds.renew_eq (hs : s.Holds j name o ttl asked) {now due : Instant}
    (hdue : Instant.shift? now ttl = some due) {e : Instant} (hrecord : s.record name = some ⟨o, e⟩) :
    (s.leases j).renew now s.table =
      if roundedQuotientInt ttl 2 < e - now then (.ok true, s.leases j, s.table)
      else (.ok true, { s.leases j with expires := some due }, s.table.put name ⟨o, due⟩) := by
  obtain ⟨e', he', hrecord', -⟩ := hs.copied
  obtain rfl : e' = e := congrArg LeaseRecord.expires (Option.some.inj (hrecord'.symm.trans hrecord))
  have hfound : s.table.find? (s.leases j).name = some ⟨o, e'⟩ := by
    rw [hs.names j]
    exact hrecord
  have hdue' : Instant.shift? now (s.leases j).ttl = some due := by rw [hs.ttl_eq, hdue]
  simpa only [hs.ttl_eq, hs.names j] using
    Lease.renew_recorded hs.access hs.owner he' hfound hdue'

/-- A renewal in time makes the lease last from now on. -/
theorem Holds.call_renew (hs : s.Holds j name o ttl asked) (httl : 0 < ttl)
    (hc : Keeping j o ttl asked c) (hj : c.holder = j) (hrenew : c.request = .renew) :
    (s.call c).Holds j name o ttl c.now := by
  obtain ⟨due, hdue⟩ := hc.dated hj hrenew
  obtain ⟨e, he, hrecord, -⟩ := hs.left httl hc
  have hdone := hs.renew_eq hdue hrecord
  subst hj
  have hlease : (s.call c).leases c.holder = ((s.leases c.holder).renew c.now s.table).2.1 := by
    simp [call, Lease.perform, hrenew]
  have htable : (s.call c).table = ((s.leases c.holder).renew c.now s.table).2.2 := by
    simp [call, Lease.perform, hrenew]
  have hothers (i : ι) (hi : i ≠ c.holder) : (s.call c).leases i = s.leases i := leases_call hi
  split at hdone
  next hample =>
    rw [hdone] at hlease htable
    refine hs.moved (e := e) ?_ hothers (by rw [htable, hs.access]) ?_ hample
    · rw [hlease, ← he]
    · rw [record, htable]
      exact hrecord
  next =>
    obtain rfl : c.now + ttl = due := (Instant.check?_eq_some hdue).1
    rw [hdone] at hlease htable
    refine hs.moved hlease hothers ?_ ?_ (roundedQuotientInt_two_lt httl)
    · rw [htable]
      exact hs.access
    · rw [record, htable, LeaseTable.find?_put_self]

/-- A holder that has the lease keeps it as long as calls come in time. -/
theorem Holds.call (hs : s.Holds j name o ttl asked) (httl : 0 < ttl)
    (hc : Keeping j o ttl asked c) :
    (s.call c).Holds j name o ttl (if c.holder = j ∧ c.request = .renew then c.now else asked) := by
  by_cases hj : c.holder = j
  · cases hrequest : c.request with
    | acquire o' =>
      -- the holder's own lock is taken
      have hlocked : (s.leases c.holder).locked = true := by rw [hj, hs.locked]
      have hsame : s.call c = s := by
        simp [Holders.call, hrequest, Lease.perform, Lease.acquire_locked hlocked]
      rw [hsame, if_neg (by simp)]
      exact hs
    | renew =>
      rw [if_pos ⟨hj, rfl⟩]
      exact hs.call_renew httl hc hj hrequest
    | release o' => exact absurd hrequest (hc.keeps hj o')
  · rw [if_neg fun h => hj h.1]
    exact hs.call_other httl hc hj

/-- The lease that a holder has been granted just now. -/
theorem holds_granted (hnames : ∀ i, (s.leases i).name = name) (haccess : s.table.access = .ok ())
    (httl : 0 < (s.leases j).ttl) (hothers : ∀ i, i ≠ j → (s.leases i).owner ≠ some o)
    (hgranted : s.Granted ⟨j, .acquire o, start⟩ o) :
    (s.call ⟨j, .acquire o, start⟩).Holds j name o (s.leases j).ttl start := by
  obtain ⟨-, e, hdue, hdone⟩ := Lease.acquire_granted hgranted.2
  obtain rfl : start + (s.leases j).ttl = e := (Instant.check?_eq_some hdue).1
  have hlease : (s.call ⟨j, .acquire o, start⟩).leases j = { s.leases j with
      locked := true, owner := some o, expires := some (start + (s.leases j).ttl) } := by
    simp [Holders.call, Lease.perform, hdone]
  have htable : (s.call ⟨j, .acquire o, start⟩).table =
      s.table.put name ⟨o, start + (s.leases j).ttl⟩ := by
    simp [Holders.call, Lease.perform, hdone, hnames j]
  refine ⟨?_, ?_, ?_, ?_, ?_, ?_, _, by rw [hlease], ?_, roundedQuotientInt_two_lt httl⟩
  · intro i
    by_cases hi : i = j
    · subst i
      rw [hlease]
      exact hnames j
    · rw [leases_call hi, hnames i]
  · rw [htable]
    exact haccess
  · rw [hlease]
  · rw [hlease]
  · rw [hlease]
  · intro i hi
    rw [leases_call hi]
    exact hothers i hi
  · rw [record, htable, LeaseTable.find?_put_self]

/-! ## One call after another -/

/-- After its lease has been granted, a holder asks to renew it in time, again and again. -/
def Renewing (j : ι) (o : String) (ttl : Span) (start : Instant) (calls : List (LeaseCall ι)) :
    Prop :=
  ∀ n c, calls[n]? = some c → Keeping j o ttl (lastAsked j start (calls.take n)) c

theorem holds_after {calls : List (LeaseCall ι)} (hs : s.Holds j name o ttl start) (httl : 0 < ttl)
    (hcalls : Renewing j o ttl start calls) (n : Nat) :
    (s.after calls n).Holds j name o ttl (lastAsked j start (calls.take n)) := by
  induction n with
  | zero => exact hs
  | succ n ih =>
    cases hc : calls[n]? with
    | none =>
      have hlen := List.getElem?_eq_none_iff.mp hc
      rw [after, List.take_of_length_le hlen] at ih
      rw [after, List.take_of_length_le (Nat.le_succ_of_le hlen)]
      exact ih
    | some c =>
      rw [after_succ hc, lastAsked_succ hc]
      exact ih.call httl (hcalls n c hc)

/-- As long as a holder asks to renew its lease in time it is never refused, nobody else is granted the
lease, and it is recorded with time left. The record is written exactly if at most half of the time is
left. -/
theorem renewed_lease_lasts {calls : List (LeaseCall ι)} (hnames : ∀ i, (s.leases i).name = name)
    (haccess : s.table.access = .ok ()) (httl : 0 < (s.leases j).ttl)
    (hothers : ∀ i, i ≠ j → (s.leases i).owner ≠ some o)
    (hgranted : s.Granted ⟨j, .acquire o, start⟩ o)
    (hcalls : Renewing j o (s.leases j).ttl start calls) :
    let s' := (s.call ⟨j, .acquire o, start⟩).after calls
    ∀ n c, calls[n]? = some c →
      (c.holder = j → c.request = .renew →
        (((s' n).leases j).renew c.now (s' n).table).1 = .ok true) ∧
      (∀ o', c.request = .acquire o' →
        (((s' n).leases c.holder).acquire o' c.now (s' n).table).1 = .ok false) ∧
      ∃ e, (s' n).record name = some ⟨o, e⟩ ∧ c.now < e ∧
        (c.holder = j → c.request = .renew → (s' (n + 1)).table =
          if roundedQuotientInt (s.leases j).ttl 2 < e - c.now then (s' n).table
          else (s' n).table.put name ⟨o, c.now + (s.leases j).ttl⟩) := by
  intro s' n c hc
  have hstart := holds_granted hnames haccess httl hothers hgranted
  have hs := holds_after hstart httl hcalls n
  have hkeeping := hcalls n c hc
  obtain ⟨e, he, hrecord, hnow⟩ := hs.left httl hkeeping
  refine ⟨?_, ?_, e, hrecord, hnow, ?_⟩
  · intro hj hrenew
    obtain ⟨due, hdue⟩ := hkeeping.dated hj hrenew
    rw [hs.renew_eq hdue hrecord]
    split <;> rfl
  · intro o' hasked
    by_cases hj : c.holder = j
    · rw [hj, Lease.acquire_locked hs.locked]
    · have hne : o' ≠ o := by
        rintro rfl
        exact hkeeping.others hj (by rw [hasked]; rfl)
      refine Lease.acquire_blocked hs.access ?_ hne hnow
      rw [hs.names c.holder]
      exact hrecord
  · intro hj hrenew
    obtain ⟨due, hdue⟩ := hkeeping.dated hj hrenew
    obtain rfl : c.now + (s.leases j).ttl = due := (Instant.check?_eq_some hdue).1
    have hdone := hs.renew_eq hdue hrecord
    have htable : (s' (n + 1)).table = (((s' n).leases j).renew c.now (s' n).table).2.2 := by
      change ((s.call ⟨j, .acquire o, start⟩).after calls (n + 1)).table = _
      rw [after_succ hc]
      simp [Holders.call, Lease.perform, hrenew, hj, s']
    rw [htable, hdone]
    split <;> rfl

/-! ## A worker that stays -/

/-- The first worker asks to renew every five minutes or sooner, the second tries to get the lease. -/
def watch : List (LeaseCall Bool) :=
  [⟨true, .acquire "worker-b", 300000000⟩, ⟨false, .renew, 300000000⟩,
    ⟨true, .acquire "worker-b", 480000000⟩, ⟨false, .renew, 480000000⟩,
    ⟨true, .release "worker-b", 780000000⟩, ⟨true, .acquire "worker-b", 780000000⟩]

theorem watch_renewing : Renewing false "worker-a" 600000000 0 watch := by
  intro n c hc
  match n with
  | 0 | 2 | 4 | 5 =>
    cases hc
    exact ⟨by decide, by simp, Or.inl (by decide), by simp⟩
  | 1 | 3 =>
    cases hc
    exact ⟨by simp, by simp, Or.inl (by decide), fun _ _ => ⟨_, rfl⟩⟩
  | n + 6 => cases hc

/-- The first worker's renewals go through, and five minutes after the last of them the second worker
is still refused. -/
theorem worker_a_stays :
    workers.Granted ⟨false, .acquire "worker-a", 0⟩ "worker-a" ∧
      Renewing false "worker-a" 600000000 0 watch ∧
      let s := (workers.call ⟨false, .acquire "worker-a", 0⟩).after watch
      (((s 3).leases false).renew 480000000 (s 3).table).1 = .ok true ∧
        (((s 5).leases true).acquire "worker-b" 780000000 (s 5).table).1 = .ok false ∧
        ∃ e, (s 5).record "sync-ACME" = some ⟨"worker-a", e⟩ ∧ 780000000 < e := by
  have hgranted : workers.Granted ⟨false, .acquire "worker-a", 0⟩ "worker-a" := ⟨rfl, rfl⟩
  have hlasts := renewed_lease_lasts (fun _ => rfl) rfl (by decide)
    (fun _ _ h => by cases h) hgranted watch_renewing
  obtain ⟨-, hrefused, e, hrecord, hleft, -⟩ := hlasts 5 _ rfl
  exact ⟨hgranted, watch_renewing, (hlasts 3 _ rfl).1 rfl rfl, hrefused "worker-b" rfl, e, hrecord,
    hleft⟩

/-! ## Where a lease ends all the same -/

end Holders

/-- Takes the lease by a clock that has gone on to `noted` when the holder notes the end of it. -/
def Lease.acquireNoting (l : Lease) (owner : String) (now noted : Instant) (t : LeaseTable) :
    Except Failure Bool × Lease × LeaseTable :=
  match l.acquire owner now t with
  | (.ok true, held, t) =>
    match Instant.shift? noted l.ttl with
    | some e => (.ok true, { held with expires := some e }, t)
    | none => (.error .timeOutOfRange, { held with expires := l.expires }, t)
  | refused => refused

/-- With a clock that stands still meanwhile the holder notes the end that is recorded. -/
theorem Lease.acquireNoting_self (l : Lease) (owner : String) (now : Instant) (t : LeaseTable) :
    l.acquireNoting owner now now t = l.acquire owner now t := by
  unfold acquireNoting
  split
  next held t' h =>
    obtain ⟨-, e, hdue, hdone⟩ := acquire_granted (congrArg Prod.fst h)
    rw [h] at hdone
    obtain ⟨rfl, -⟩ := Prod.mk.inj hdone
    rw [h, hdue]
  next => rfl

namespace Holders

/-- A holder that asks to renew every five minutes a lease of ten fails when the calendar has no time
for a new end of the lease. And where the clock goes on by a second between the record and what the
holder notes of it, the renewal after five minutes writes nothing, and after five more the lease is
another's. -/
theorem renewed_lease_ends :
    (let last := Instant.limit - 600000000
      let s := (workers.call ⟨false, .acquire "worker-a", last - 600000000⟩).after
        [⟨false, .renew, last - 300000000⟩] 1
      workers.Granted ⟨false, .acquire "worker-a", last - 600000000⟩ "worker-a" ∧
        s.record "sync-ACME" = some ⟨"worker-a", last + 300000000⟩ ∧
        ((s.leases false).renew last s.table).1 = .error .timeOutOfRange) ∧
    let noted := (Lease.fresh "sync-ACME" 600000000).acquireNoting "worker-a" 0 1000000 .empty
    let renewed := noted.2.1.renew 300000000 noted.2.2
    let taken := (Lease.fresh "sync-ACME" 600000000).acquire "worker-b" 600000000 renewed.2.2
    noted.1 = .ok true ∧ renewed.1 = .ok true ∧ taken.1 = .ok true ∧
      (renewed.2.1.renew 600000000 taken.2.2).1 = .ok false :=
  ⟨⟨⟨rfl, rfl⟩, rfl, rfl⟩, rfl, rfl, rfl, rfl⟩

end Holders

end FaultDesk
