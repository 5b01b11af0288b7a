import FaultDesk.Proofs.Lease.Calls

/-!
What a lease promises, however many holders there are and in whatever order they call. It is granted
only when the time of every other owner is over or its lease has been given back, and a holder that
has lost it is told so whenever it asks to renew.
-/

namespace FaultDesk

namespace Holders

variable {ι : Type} {home : String → ι} {name : String} {s : Holders ι} {c : LeaseCall ι}
  {now : Instant}

/-- What holds between calls, until the clock shows more than `now`. Each name has a home, the only
holder that uses it. -/
structure Sound (home : String → ι) (name : String) (now : Instant) (s : Holders ι) : Prop where
  name_eq : ∀ j, (s.leases j).name = name
  ttl_pos : ∀ j, 0 < (s.leases j).ttl
  access : s.table.access = .ok ()
  at_home : ∀ j o, (s.leases j).owner = some o → home o = j
  /-- The holder's copy of its time is that of the record, or the time is over. -/
  copied : ∀ j o, (s.leases j).owner = some o →
    ∃ e, (s.leases j).expires = some e ∧ (s.record name = some ⟨o, e⟩ ∨ e ≤ now)

theorem Sound.mono {later : Instant} (hs : s.Sound home name now) (h : now ≤ later) :
    s.Sound home name later := by
  refine ⟨hs.name_eq, hs.ttl_pos, hs.access, hs.at_home, ?_⟩
  intro j o howner
  obtain ⟨e, he, hcopy⟩ := hs.copied j o howner
  exact ⟨e, he, hcopy.imp_right fun hover => Int.le_trans hover h⟩

theorem sound_start {ttl : ι → Span} {table : LeaseTable} (httl : ∀ j, 0 < ttl j)
    (ha : table.access = .ok ()) : (start name ttl table).Sound home name now := by
  refine ⟨fun _ => rfl, httl, ha, ?_, ?_⟩
  · intro j o howner
    cases howner
  · intro j o howner
    cases howner

/-- What a call may do to the record. -/
inductive Moves (s : Holders ι) (c : LeaseCall ι) (name : String) : Option LeaseRecord → Prop where
  | kept : Moves s c name (s.record name)
  | taken {o : String} {e : Instant} (granted : s.Granted c o)
      (free : ∀ r, s.record name = some r → r.owner = o ∨ r.expires ≤ c.now) :
      Moves s c name (some ⟨o, e⟩)
  | renewed {o : String} {e e' : Instant} (owned : (s.leases c.holder).owner = some o)
      (found : s.record name = some ⟨o, e⟩) : Moves s c name (some ⟨o, e'⟩)
  | released {o : String} (asked : c.request = .release o) :
      Moves s c name ((s.record name).filter (·.owner != o))

variable [DecidableEq ι]

theorem Sound.moves (hs : s.Sound home name now) (c : LeaseCall ι) :
    s.Moves c name ((s.call c).record name) := by
  have hdoes := s.does_call c hs.access
  have hname := hs.name_eq c.holder
  unfold record
  generalize (s.call c).leases c.holder = l' at hdoes
  generalize (s.call c).table = t' at hdoes ⊢
  cases hdoes with
  | kept => exact .kept
  | taken asked granted free due =>
    rw [hname] at free
    rw [hname, LeaseTable.find?_put_self]
    exact .taken ⟨asked, granted⟩ free
  | @renewed o r e asked owned found same due =>
    subst same
    rw [hname] at found
    rw [hname, LeaseTable.find?_put_self]
    exact .renewed owned found
  | @released o asked owned =>
    rw [← hname, Lease.find?_relinquish, hname]
    exact .released asked
  | @opened o asked owned =>
    rw [← hname, Lease.find?_relinquish, hname]
    exact .released asked

theorem Sound.record_granted {o : String} (hs : s.Sound home name now) (hg : s.Granted c o) :
    ∃ e, (s.call c).record name = some ⟨o, e⟩ := by
  obtain ⟨hasked, hok⟩ := hg
  obtain ⟨-, e, -, hdone⟩ := Lease.acquire_granted hok
  refine ⟨e, ?_⟩
  have htable : (s.call c).table = s.table.put (s.leases c.holder).name ⟨o, e⟩ := by
    simp [call, Lease.perform, hasked, hdone]
  rw [record, htable, hs.name_eq, LeaseTable.find?_put_self]

/-- Unless its owner gives it back, a record stays, or its time is over, or its owner prolongs it. -/
theorem Sound.record_call {o : String} {e : Instant} (hs : s.Sound home name now)
    (hkeeps : c.request ≠ .release o) (hrecord : s.record name = some ⟨o, e⟩) :
    (s.call c).record name = some ⟨o, e⟩ ∨ e ≤ c.now ∨
      ((s.leases c.holder).owner = some o ∨ c.request = .acquire o) ∧
        ∃ e', (s.call c).record name = some ⟨o, e'⟩ := by
  have hmoves := hs.moves c
  generalize (s.call c).record name = r' at hmoves ⊢
  cases hmoves with
  | kept => exact Or.inl hrecord
  | @taken o' e' granted free =>
    rcases free _ hrecord with rfl | hover
    · exact Or.inr (Or.inr ⟨Or.inr granted.1, e', rfl⟩)
    · exact Or.inr (Or.inl hover)
  | @renewed o' e₀ e' owned found =>
    rw [hrecord] at found
    cases found
    exact Or.inr (Or.inr ⟨Or.inl owned, e', rfl⟩)
  | @released o' asked =>
    have hne : o ≠ o' := by
      rintro rfl
      exact hkeeps asked
    left
    simp [hrecord, hne]

/-- A call of another holder leaves a record alone as long as its time is not over. -/
theorem Sound.record_other {o : String} {e : Instant} (hs : s.Sound home name now)
    (hown : ∀ o, c.request.owner? = some o → home o = c.holder) (ho : home o ≠ c.holder)
    (hrecord : s.record name = some ⟨o, e⟩) :
    (s.call c).record name = some ⟨o, e⟩ ∨ e ≤ c.now := by
  have hkeeps : c.request ≠ .release o := by
    intro hasked
    exact ho (hown o (by rw [hasked]; rfl))
  rcases hs.record_call hkeeps hrecord with hsame | hover | ⟨howner | hasked, -⟩
  · exact Or.inl hsame
  · exact Or.inr hover
  · exact absurd (hs.at_home _ _ howner) ho
  · exact absurd (hown o (by rw [hasked]; rfl)) ho

theorem Sound.copied_holder {o : String} (hs : s.Sound home name c.now)
    (hown : ∀ o, c.request.owner? = some o → home o = c.holder)
    (howner : ((s.call c).leases c.holder).owner = some o) :
    home o = c.holder ∧ ∃ e, ((s.call c).leases c.holder).expires = some e ∧
      ((s.call c).record name = some ⟨o, e⟩ ∨ e ≤ c.now) := by
  have hdoes := s.does_call c hs.access
  have hname := hs.name_eq c.holder
  unfold record
  generalize (s.call c).leases c.holder = l' at hdoes howner ⊢
  generalize (s.call c).table = t' at hdoes ⊢
  cases hdoes with
  | kept => exact ⟨hs.at_home _ _ howner, hs.copied _ _ howner⟩
  | @taken o' e asked granted free due =>
    obtain rfl : o' = o := Option.some.inj howner
    refine ⟨hown o' (by rw [asked]; rfl), e, rfl, Or.inl ?_⟩
    rw [hname, LeaseTable.find?_put_self]
  | @renewed o' r e asked owned found same due =>
    obtain rfl : o' = o := Option.some.inj (owned.symm.trans howner)
    refine ⟨hs.at_home _ _ owned, e, rfl, Or.inl ?_⟩
    rw [hname, LeaseTable.find?_put_self]
  | released asked owned => cases howner
  | @opened o' asked owned =>
    have hne : o ≠ o' := by
      rintro rfl
      exact owned howner
    obtain ⟨e, he, hcopy⟩ := hs.copied _ _ howner
    refine ⟨hs.at_home _ _ howner, e, he, hcopy.imp_left ?_⟩
    intro hrecord
    have hfound : s.table.find? name = some ⟨o, e⟩ := hrecord
    rw [← hname, Lease.find?_relinquish, hname, hfound]
    simp [hne]

theorem Sound.call (hs : s.Sound home name c.now)
    (hown : ∀ o, c.request.owner? = some o → home o = c.holder) :
    (s.call c).Sound home name c.now := by
  have hdoes := s.does_call c hs.access
  refine ⟨?_, ?_, hdoes.access_eq.trans hs.access, ?_, ?_⟩
  · intro j
    by_cases hj : j = c.holder
    · subst j
      exact hdoes.name_eq.trans (hs.name_eq _)
    · rw [leases_call hj]
      exact hs.name_eq j
  · intro j
    by_cases hj : j = c.holder
    · subst j
      rw [hdoes.ttl_eq]
      exact hs.ttl_pos _
    · rw [leases_call hj]
      exact hs.ttl_pos j
  · intro j o howner
    by_cases hj : j = c.holder
    · subst j
      exact (hs.copied_holder hown howner).1
    · rw [leases_call hj] at howner
      exact hs.at_home j o howner
  · intro j o howner
    by_cases hj : j = c.holder
    · subst j
      exact (hs.copied_holder hown howner).2
    · rw [leases_call hj] at howner ⊢
      obtain ⟨e, he, hcopy⟩ := hs.copied j o howner
      have haway : home o ≠ c.holder := by
        rw [hs.at_home j o howner]
        exact hj
      refine ⟨e, he, ?_⟩
      rcases hcopy with hrecord | hover
      · exact hs.record_other hown haway hrecord
      · exact Or.inr hover

/-! ## When a lease is granted -/

omit [DecidableEq ι] in
/-- A lease is not granted while the record of another owner has time left. -/
theorem Sound.record_over {o o' : String} {e : Instant} (hs : s.Sound home name now)
    (hg : s.Granted c o) (hne : o' ≠ o) (hrecord : s.record name = some ⟨o', e⟩) : e ≤ c.now := by
  have hfree := (Lease.acquire_granted hg.2).1
  rw [hs.name_eq] at hfree
  exact (hfree _ hrecord).resolve_left hne

omit [DecidableEq ι] in
/-- Nor while another owner counts on time that is left. -/
theorem Sound.copy_over {j : ι} {o o' : String} {e : Instant} (hs : s.Sound home name c.now)
    (hg : s.Granted c o) (hne : o' ≠ o) (howner : (s.leases j).owner = some o')
    (he : (s.leases j).expires = some e) : e ≤ c.now := by
  obtain ⟨e', he', hcopy⟩ := hs.copied j o' howner
  obtain rfl : e' = e := Option.some.inj (he'.symm.trans he)
  rcases hcopy with hrecord | hover
  · exact hs.record_over hg hne hrecord
  · exact hover

theorem Sound.away_granted {j : ι} {o : String} (hs : s.Sound home name now)
    (hown : ∀ o, c.request.owner? = some o → home o = c.holder) (hg : s.Granted c o)
    (hj : c.holder ≠ j) : ∀ r, (s.call c).record name = some r → home r.owner ≠ j := by
  intro r hr
  obtain ⟨e, he⟩ := hs.record_granted hg
  obtain rfl := Option.some.inj (he.symm.trans hr)
  rw [hown o (by rw [hg.1]; rfl)]
  exact hj

/-! ## After a takeover -/

theorem roundedQuotientInt_nonneg {n : Int} (h : 0 ≤ n) (d : Nat) : 0 ≤ roundedQuotientInt n d := by
  cases n with
  | ofNat n => exact Int.natCast_nonneg _
  | negSucc n => exact absurd h (by omega)

theorem isAmple_over {l : Lease} {e : Instant} (httl : 0 < l.ttl) (he : l.expires = some e)
    (hover : e ≤ now) : l.isAmple now = false := by
  have hhalf := roundedQuotientInt_nonneg (Int.le_of_lt httl) 2
  have hleft : e - now ≤ 0 := Int.sub_nonpos_of_le hover
  simp only [Lease.isAmple, he, decide_eq_false_iff_not]
  exact Int.not_lt.mpr (Int.le_trans hleft hhalf)

omit [DecidableEq ι] in
/-- A holder is told so when it asks to renew a lease that is not in the record any more. -/
theorem Sound.renew_refused {j : ι} (hs : s.Sound home name now)
    (haway : ∀ r, s.record name = some r → home r.owner ≠ j) :
    ((s.leases j).renew now s.table).1 = .ok false := by
  cases howner : (s.leases j).owner with
  | none => simp [Lease.renew, howner]
  | some o =>
    obtain ⟨e, he, hcopy⟩ := hs.copied j o howner
    have hhome := hs.at_home j o howner
    have hover : e ≤ now := by
      rcases hcopy with hrecord | hover
      · exact absurd hhome (haway _ hrecord)
      · exact hover
    have hample : (s.leases j).isAmple now = false := isAmple_over (hs.ttl_pos j) he hover
    have hgone : (s.table.find? (s.leases j).name).any (·.owner == o) = false := by
      rw [hs.name_eq j]
      change (s.record name).any (·.owner == o) = false
      cases hr : s.record name with
      | none => rfl
      | some r =>
        have hne : r.owner ≠ o := by
          rintro rfl
          exact haway r hr hhome
        simpa using hne
    simp [Lease.renew, howner, hample, hs.access, hgone]

/-- A holder that has lost the record gets it back only by a lease that is granted. -/
theorem Sound.away_call {j : ι} (hs : s.Sound home name now)
    (hown : ∀ o, c.request.owner? = some o → home o = c.holder)
    (hnot : c.holder = j → ∀ o, ¬ s.Granted c o)
    (haway : ∀ r, s.record name = some r → home r.owner ≠ j) :
    ∀ r, (s.call c).record name = some r → home r.owner ≠ j := by
  have hmoves := hs.moves c
  generalize (s.call c).record name = r' at hmoves ⊢
  intro r hr
  cases hmoves with
  | kept => exact haway r hr
  | @taken o e granted free =>
    obtain rfl := Option.some.inj hr
    have hhome := hown o (by rw [granted.1]; rfl)
    intro hj
    exact hnot (hhome.symm.trans hj) o granted
  | @renewed o e e' owned found =>
    obtain rfl := Option.some.inj hr
    exact haway ⟨o, e⟩ found
  | released asked => exact haway r (Option.filter_eq_some_iff.mp hr).1

/-! ## One call after another -/

/-- Each holder uses its own names only, and the clock never goes back. -/
structure Orderly (home : String → ι) (calls : List (LeaseCall ι)) : Prop where
  own : ∀ c ∈ calls, ∀ o, c.request.owner? = some o → home o = c.holder
  clock : calls.Pairwise fun a b => a.now ≤ b.now

/-- What is recorded last for an owner, when so many calls have been made. -/
def LastRecorded (s : Holders ι) (calls : List (LeaseCall ι)) (name o : String) (n : Nat)
    (e : Instant) : Prop :=
  ∃ k ≤ n, (s.after calls k).record name = some ⟨o, e⟩ ∧
    ∀ i, k < i → i ≤ n → ∀ r, (s.after calls i).record name = some r → r.owner ≠ o

section Run

variable {calls : List (LeaseCall ι)} {n : Nat}

omit [DecidableEq ι] in
theorem Orderly.now_le {i : Nat} {b : LeaseCall ι} (h : Orderly home calls) (hin : i ≤ n)
    (hb : calls[i]? = some b) (hc : calls[n]? = some c) : b.now ≤ c.now := by
  obtain ⟨hi, rfl⟩ := List.getElem?_eq_some_iff.mp hb
  obtain ⟨hn, rfl⟩ := List.getElem?_eq_some_iff.mp hc
  rcases Nat.lt_or_eq_of_le hin with hlt | rfl
  · exact List.pairwise_iff_getElem.mp h.clock i n hi hn hlt
  · exact Int.le_refl _

theorem sound_after (hs : ∀ now, s.Sound home name now) (hcalls : Orderly home calls)
    (hnow : ∀ i b, i < n → calls[i]? = some b → b.now ≤ now) :
    (s.after calls n).Sound home name now := by
  induction n generalizing now with
  | zero => exact hs now
  | succ n ih =>
    cases hc : calls[n]? with
    | none =>
      have hlen := List.getElem?_eq_none_iff.mp hc
      have hsame : s.after calls (n + 1) = s.after calls n := by
        rw [after, after, List.take_of_length_le hlen, List.take_of_length_le (Nat.le_succ_of_le hlen)]
      rw [hsame]
      exact ih fun i b hi => hnow i b (Nat.lt_succ_of_lt hi)
    | some c =>
      -- the state is sound at the time of the call, since no earlier call has a later time
      rw [after_succ hc]
      have hbefore : (s.after calls n).Sound home name c.now :=
        ih fun i b hi hb => hcalls.now_le (Nat.le_of_lt hi) hb hc
      refine Sound.mono ?_ (hnow n c (Nat.lt_succ_self n) hc)
      exact hbefore.call (hcalls.own c (List.mem_of_getElem? hc))

theorem sound_at (hs : ∀ now, s.Sound home name now) (hcalls : Orderly home calls)
    (hc : calls[n]? = some c) : (s.after calls n).Sound home name c.now :=
  sound_after hs hcalls fun _ _ hi hb => hcalls.now_le (Nat.le_of_lt hi) hb hc

/-- What is recorded last for an owner that has not given its lease back is still recorded, or its
time is over at all calls that come. -/
def Lasts (s : Holders ι) (calls : List (LeaseCall ι)) (name o : String) (n : Nat) : Prop :=
  ∃ e, s.LastRecorded calls name o n e ∧ ((s.after calls n).record name = some ⟨o, e⟩ ∨
    ∀ i b, n ≤ i → calls[i]? = some b → e ≤ b.now)

theorem lasts_of_record {o : String} {e : Instant}
    (h : (s.after calls n).record name = some ⟨o, e⟩) : s.Lasts calls name o n :=
  ⟨e, ⟨n, Nat.le_refl n, h, fun _ hi hle => absurd hi (Nat.not_lt.mpr hle)⟩, Or.inl h⟩

theorem Lasts.succ {o : String} (hs : ∀ now, s.Sound home name now) (hcalls : Orderly home calls)
    (hc : calls[n]? = some c) (hkeeps : c.request ≠ .release o) (h : s.Lasts calls name o n) :
    s.Lasts calls name o (n + 1) := by
  have hnext := after_succ (s := s) hc
  -- either the owner is recorded anew, or what was recorded last for it stays so and is over
  by_cases hrow : ∃ e, (s.after calls (n + 1)).record name = some ⟨o, e⟩
  · obtain ⟨e, he⟩ := hrow
    exact lasts_of_record he
  · obtain ⟨e, ⟨k, hk, hrecord, hsince⟩, hstill⟩ := h
    have hgone : ∀ r, (s.after calls (n + 1)).record name = some r → r.owner ≠ o := by
      rintro ⟨o', e'⟩ hr rfl
      exact hrow ⟨e', hr⟩
    refine ⟨e, ⟨k, Nat.le_succ_of_le hk, hrecord, ?_⟩, Or.inr ?_⟩
    · intro i hki hi
      rcases Nat.lt_or_eq_of_le hi with hlt | rfl
      · exact hsince i hki (Nat.le_of_lt_succ hlt)
      · exact hgone
    · have hover : e ≤ c.now := by
        rcases hstill with hheld | hover
        · rcases (sound_at hs hcalls hc).record_call hkeeps hheld with hsame | hover | ⟨-, e', he'⟩
          · rw [← hnext] at hsame
            exact absurd rfl (hgone _ hsame)
          · exact hover
          · rw [← hnext] at he'
            exact absurd rfl (hgone _ he')
        · exact hover n c (Nat.le_refl n) hc
      intro i b hi hb
      exact Int.le_trans hover (hcalls.now_le (Nat.le_of_succ_le hi) hc hb)

/-- What is recorded when a lease is granted lasts until it is given back. -/
theorem lasts_of_granted {m : Nat} {b : LeaseCall ι} {o : String}
    (hs : ∀ now, s.Sound home name now) (hcalls : Orderly home calls) (hb : calls[m]? = some b)
    (hgranted : (s.after calls m).Granted b o) (hmn : m + 1 ≤ n) (hn : n < calls.length)
    (hkeeps : ∀ k b', m < k → k < n → calls[k]? = some b' → b'.request ≠ .release o) :
    s.Lasts calls name o n := by
  induction hmn with
  | refl =>
    obtain ⟨e, he⟩ := (sound_at hs hcalls hb).record_granted hgranted
    rw [← after_succ hb] at he
    exact lasts_of_record he
  | @step n hmn ih =>
    have hlt : n < calls.length := Nat.lt_of_succ_lt hn
    have hbefore := ih hlt fun k b' hk hkn => hkeeps k b' hk (Nat.lt_succ_of_lt hkn)
    have hc := List.getElem?_eq_getElem hlt
    exact hbefore.succ hs hcalls hc (hkeeps n _ hmn (Nat.lt_succ_self n) hc)

/-- A holder that is not in the record when some calls have been made is not in it later, unless it
is granted the lease meanwhile. -/
theorem away_after {j : ι} {p : Nat} (hs : ∀ now, s.Sound home name now)
    (hcalls : Orderly home calls) (hnp : n ≤ p) (hp : p < calls.length)
    (haway : ∀ r, (s.after calls n).record name = some r → home r.owner ≠ j)
    (hnot : ∀ k b o, n ≤ k → k < p → calls[k]? = some b → b.holder = j →
      ¬ (s.after calls k).Granted b o) :
    ∀ r, (s.after calls p).record name = some r → home r.owner ≠ j := by
  induction hnp with
  | refl => exact haway
  | @step p hnp ih =>
    have hlt : p < calls.length := Nat.lt_of_succ_lt hp
    have hbefore := ih hlt fun k b o hk hkp => hnot k b o hk (Nat.lt_succ_of_lt hkp)
    have hc := List.getElem?_eq_getElem hlt
    rw [after_succ hc]
    refine (sound_at hs hcalls hc).away_call (hcalls.own _ (List.getElem_mem hlt)) ?_ hbefore
    intro hholder o
    exact hnot p _ o hnp (Nat.lt_succ_self p) hc hholder

end Run

/-- A lease is granted for an owner only when every other owner that it was granted for before has
given it back or its time, as it is recorded last, is over; and then no holder counts on a time that
is left under another name. From then on every holder that asks to renew is refused, until it is
granted the lease itself. -/
theorem lease_granted_after_others {ttl : ι → Span} {table : LeaseTable}
    {calls : List (LeaseCall ι)} {n : Nat} {o : String} (httl : ∀ j, 0 < ttl j)
    (haccess : table.access = .ok ()) (hcalls : Orderly home calls) (hc : calls[n]? = some c)
    (hgranted : ((start name ttl table).after calls n).Granted c o) :
    let s := (start name ttl table).after calls
    (∀ m b o', m < n → calls[m]? = some b → (s m).Granted b o' → o' ≠ o →
      (∃ k b', m < k ∧ k < n ∧ calls[k]? = some b' ∧ b'.request = .release o') ∨
        ∃ e, (start name ttl table).LastRecorded calls name o' n e ∧ e ≤ c.now) ∧
    (∀ j o' e, ((s n).leases j).owner = some o' → o' ≠ o → ((s n).leases j).expires = some e →
      e ≤ c.now) ∧
    ∀ p b, n < p → calls[p]? = some b → b.request = .renew →
      (∀ k b' o', n ≤ k → k < p → calls[k]? = some b' → b'.holder = b.holder →
        ¬ (s k).Granted b' o') →
      (((s p).leases b.holder).renew b.now (s p).table).1 = .ok false := by
  intro s
  have hs : ∀ now, (start name ttl table).Sound home name now := fun _ => sound_start httl haccess
  have hn := (List.getElem?_eq_some_iff.mp hc).1
  have hsound := sound_at hs hcalls hc
  refine ⟨?_, fun j o' e howner hne he => hsound.copy_over hgranted hne howner he, ?_⟩
  · intro m b o' hm hb hbefore hne
    by_cases hreleased : ∃ k b', m < k ∧ k < n ∧ calls[k]? = some b' ∧ b'.request = .release o'
    · exact Or.inl hreleased
    · right
      obtain ⟨e, hlast, hstill⟩ := lasts_of_granted hs hcalls hb hbefore hm hn
        fun k b' hk hkn hb' hasked => hreleased ⟨k, b', hk, hkn, hb', hasked⟩
      refine ⟨e, hlast, ?_⟩
      rcases hstill with hheld | hover
      · exact hsound.record_over hgranted hne hheld
      · exact hover n c (Nat.le_refl n) hc
  · intro p b hp hb _ hnot
    have hothers : c.holder ≠ b.holder :=
      fun hholder => hnot n c o (Nat.le_refl n) hp hc hholder hgranted
    have haway := hsound.away_granted (hcalls.own c (List.mem_of_getElem? hc)) hgranted hothers
    rw [← after_succ hc] at haway
    refine (sound_at hs hcalls hb).renew_refused ?_
    exact away_after hs hcalls hp (List.getElem?_eq_some_iff.mp hb).1 haway
      fun k b' o' hk => hnot k b' o' (Nat.le_of_succ_le hk)

/-! ## Two workers -/

/-- The first worker is late, the second takes over, and the first asks to renew at that moment. -/
def handover : List (LeaseCall Bool) :=
  [⟨false, .acquire "worker-a", 0⟩, ⟨true, .acquire "worker-b", 660000000⟩,
    ⟨false, .renew, 660000000⟩]

/-- Two workers whose leases last ten minutes. -/
def workers : Holders Bool := start "sync-ACME" (fun _ => 600000000) .empty

theorem handover_orderly : Orderly (fun o => o == "worker-b") handover := by
  refine ⟨?_, by decide⟩
  intro c hc o ho
  simp only [handover, List.mem_cons, List.not_mem_nil, or_false] at hc
  rcases hc with rfl | rfl | rfl
  · cases ho
    decide
  · cases ho
    decide
  · cases ho

/-- The second worker is granted the lease because the time of the first is over, and the first is
refused. -/
theorem worker_b_takes_over :
    (workers.after handover 1).Granted ⟨true, .acquire "worker-b", 660000000⟩ "worker-b" ∧
      (∃ e, workers.LastRecorded handover "sync-ACME" "worker-a" 1 e ∧ e ≤ 660000000) ∧
      (((workers.after handover 2).leases false).renew 660000000
        (workers.after handover 2).table).1 = .ok false := by
  have hfirst : (workers.after handover 0).Granted ⟨false, .acquire "worker-a", 0⟩ "worker-a" :=
    ⟨rfl, rfl⟩
  have hsecond : (workers.after handover 1).Granted ⟨true, .acquire "worker-b", 660000000⟩
      "worker-b" := ⟨rfl, rfl⟩
  have httl : ∀ _ : Bool, (0 : Span) < 600000000 := fun _ => by decide
  have hcall : handover[1]? = some ⟨true, .acquire "worker-b", 660000000⟩ := rfl
  obtain ⟨hothers, -, hrenew⟩ := lease_granted_after_others httl rfl handover_orderly hcall hsecond
  refine ⟨hsecond, ?_, ?_⟩
  · rcases hothers 0 _ "worker-a" (by decide) rfl hfirst (by decide) with ⟨k, b, hk, hk', -⟩ | h
    · omega
    · exact h
  · refine hrenew 2 ⟨false, .renew, 660000000⟩ (by decide) rfl rfl ?_
    intro k b o hk hk' hb hholder
    obtain rfl : k = 1 := by omega
    cases hb
    cases hholder

end Holders

end FaultDesk
