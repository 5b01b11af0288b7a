import Mathlib.Data.List.DropRight
import FaultDesk.Proofs.Timer.Alike

/-!
What is done to the timers in the course of a decision, apart from the timers that it is done to. A
dialogue drops timers and asks them, and what it does next depends on the answers. Held a second time,
with the timers that it has left, it need not run the same: a timer that was dropped after it had been
asked has another start by then.
-/

namespace FaultDesk

/-! ## Uses -/

/-- One use of the timers. A timer is dropped; or it is asked whether a state first seen at `since` has
lasted by an instant, and has given an answer. -/
inductive TimerUse where
  | dropped (key : TimerKey)
  | asked (key : TimerKey) (duration : Option Duration) (since at_ : Instant)
      (answer : Except Failure Bool)
deriving DecidableEq

namespace TimerUse

def key : TimerUse → TimerKey
  | dropped key => key
  | asked key _ _ _ _ => key

def applied : TimerUse → Timers → Timers
  | dropped key, t => t.clear key
  | asked key d since at_ _, t => (t.sustained key d (.utc at_) (some (.utc since))).2

/-- Whether the answer of the use is the one that timers give. -/
def Given : TimerUse → Timers → Prop
  | dropped _, _ => True
  | asked key d since at_ answer, t =>
    (t.sustained key d (.utc at_) (some (.utc since))).1 = answer

/-- The time from which a question counts is one that the calendar has. -/
def Dated : TimerUse → Prop
  | dropped _ => True
  | asked _ _ since _ _ => 0 ≤ since ∧ since < Instant.limit

theorem applied_moves (use : TimerUse) (t : Timers) :
    Timers.Moves (· = use.key) t (use.applied t) := by
  cases use with
  | dropped key => exact t.clear_moves key
  | asked key d since at_ answer => exact t.sustained_moves ..

end TimerUse

namespace Timers

variable {t u : Timers} {uses front back : List TimerUse} {use : TimerUse} {key : TimerKey}

/-- The timers after some uses. -/
def after (t : Timers) (uses : List TimerUse) : Timers := uses.foldl (fun t use => use.applied t) t

/-- The timers give the answers of the uses, one use after another. -/
def Gives (t : Timers) : List TimerUse → Prop
  | [] => True
  | use :: rest => use.Given t ∧ (use.applied t).Gives rest

@[simp] theorem after_cons (t : Timers) (use : TimerUse) (uses : List TimerUse) :
    t.after (use :: uses) = (use.applied t).after uses := rfl

theorem after_append (t : Timers) (uses more : List TimerUse) :
    t.after (uses ++ more) = (t.after uses).after more := List.foldl_append

theorem after_moves (t : Timers) (uses : List TimerUse) :
    Moves (fun _ => True) t (t.after uses) := by
  induction uses generalizing t with
  | nil => exact .refl t
  | cons use rest ih =>
    have hstep := (use.applied_moves t).mono fun _ _ => trivial
    exact hstep.trans (ih (use.applied t))

theorem Reliable.after (hr : t.Reliable) (uses : List TimerUse) : (t.after uses).Reliable :=
  (t.after_moves uses).reliable hr

theorem after_durable (t : Timers) (uses : List TimerUse) : (t.after uses).durable = t.durable :=
  (t.after_moves uses).durable_eq

theorem gives_iff : t.Gives uses ↔
    ∀ front use back, uses = front ++ use :: back → use.Given (t.after front) := by
  induction uses generalizing t with
  | nil => simp [Gives]
  | cons first rest ih =>
    constructor
    · rintro ⟨hfirst, hrest⟩ front use back hsplit
      cases front with
      | nil =>
        obtain ⟨rfl, -⟩ := List.cons.inj hsplit
        exact hfirst
      | cons _ front =>
        obtain ⟨rfl, htail⟩ := List.cons.inj hsplit
        exact ih.mp hrest front use back htail
    · intro h
      refine ⟨h [] first rest rfl, ih.mpr ?_⟩
      intro front use back hsplit
      exact h (first :: front) use back (by rw [hsplit]; rfl)

/-! ## One timer among the uses -/

theorem Alike.applied (h : Alike (· = key) t u) (use : TimerUse) :
    Alike (· = key) (use.applied t) (use.applied u) := by
  by_cases hk : use.key = key
  · cases use with
    | dropped => exact h.clear _
    | asked => exact (h.sustained hk _ _ _).timers
  · have hother : ∀ k, k = use.key → ¬ k = key := fun k he hkey => hk (he.symm.trans hkey)
    have hleft := (h.symm.moved (use.applied_moves t) hother).symm
    exact hleft.moved (use.applied_moves u) hother

theorem Alike.after (h : Alike (· = key) t u) (uses : List TimerUse) :
    Alike (· = key) (t.after uses) (u.after uses) := by
  induction uses generalizing t u with
  | nil => exact h
  | cons use rest ih => exact ih (h.applied use)

theorem Alike.given (h : Alike (· = use.key) t u) (hgiven : use.Given t) : use.Given u := by
  cases use with
  | dropped => trivial
  | asked key d since at_ answer => exact ((h.sustained rfl d _ _).result).trans hgiven

theorem Reliable.alike_of_find? (hr : t.Reliable) (hu : u.Reliable) (hd : u.durable = t.durable)
    (hfind : u.find? key = t.find? key) : Alike (· = key) t u :=
  .of_reliable hr hu hd fun _ he => by rw [he]; exact hfind

/-- Once a timer has been dropped, it does not matter what it was before. -/
theorem Reliable.alike_of_dropped (hr : t.Reliable) (hu : u.Reliable) (hd : u.durable = t.durable)
    (hdrop : .dropped key ∈ uses) : Alike (· = key) (t.after uses) (u.after uses) := by
  obtain ⟨front, back, rfl⟩ := List.append_of_mem hdrop
  have hnone {v : Timers} (hv : v.Reliable) : ((v.after front).clear key).find? key = none := by
    rw [(hv.after front).find?_clear, if_pos rfl]
  have hcleared : Alike (· = key) ((t.after front).clear key) ((u.after front).clear key) := by
    apply Reliable.alike_of_find?
    · exact (clear_moves _ key).reliable (hr.after front)
    · exact (clear_moves _ key).reliable (hu.after front)
    · rw [(clear_moves _ key).durable_eq, (clear_moves _ key).durable_eq, after_durable,
        after_durable, hd]
    · rw [hnone hr, hnone hu]
  rw [after_append, after_append]
  exact hcleared.after back

/-- A record stays as it is until its timer is dropped. -/
theorem Reliable.find?_after (hr : t.Reliable) {s : Stamp} (hs : t.find? key = some s)
    (hkeep : .dropped key ∉ uses) : (t.after uses).find? key = some s := by
  induction uses generalizing t with
  | nil => exact hs
  | cons use rest ih =>
    obtain ⟨hne, hrest⟩ := List.ne_and_not_mem_of_not_mem_cons hkeep
    have hmoves := use.applied_moves t
    apply ih (hmoves.reliable hr) _ hrest
    by_cases hk : key = use.key
    · cases use with
      | dropped k => exact absurd (congrArg TimerUse.dropped hk) hne
      | asked k d since at_ answer =>
        obtain rfl : key = k := hk
        change (t.sustained key d (.utc at_) (some (.utc since))).2.find? key = some s
        cases d with
        | none => exact hs
        | some d =>
          cases hd : d.isInstant with
          | true => simpa [sustained, hd] using hs
          | false =>
            rw [hr.sustained_running hs hd]
            exact hs
    · rw [hmoves.find?_other hk]
      exact hs

/-- The same uses a second time change no record. -/
theorem Reliable.find?_after_again (hr : t.Reliable) (uses : List TimerUse) (key : TimerKey) :
    ((t.after uses).after uses).find? key = (t.after uses).find? key := by
  have hleft := hr.after uses
  have hd := t.after_durable uses
  by_cases hdrop : .dropped key ∈ uses
  · exact (hr.alike_of_dropped hleft hd hdrop).find? key rfl
  · cases hs : (t.after uses).find? key with
    | some s => exact hleft.find?_after hs hdrop
    | none =>
      have hbefore : t.find? key = none := by
        cases ht : t.find? key with
        | none => rfl
        | some s =>
          have hkept := hr.find?_after ht hdrop
          rw [hs] at hkept
          cases hkept
      have halike := hr.alike_of_find? hleft hd (hs.trans hbefore.symm)
      exact ((halike.after uses).find? key rfl).trans hs

/-- A question is answered as before from the record that it has left. -/
theorem Reliable.given_of_applied (hr : t.Reliable) (hu : u.Reliable) (hd : u.durable = t.durable)
    (hgiven : use.Given t) (hdate : use.Dated)
    (hfind : ∀ s, (use.applied t).find? use.key = some s → u.find? use.key = some s) :
    use.Given u := by
  cases use with
  | dropped => trivial
  | asked key d since at_ answer =>
    change (t.sustained key d (.utc at_) (some (.utc since))).1 = answer at hgiven
    change ∀ s, (t.sustained key d (.utc at_) (some (.utc since))).2.find? key = some s →
      u.find? key = some s at hfind
    change (u.sustained key d (.utc at_) (some (.utc since))).1 = answer
    cases d with
    | none => exact hgiven
    | some d =>
      cases hinstant : d.isInstant with
      | true => simpa [sustained, hinstant] using hgiven
      | false =>
        cases hs : t.find? key with
        | some s =>
          rw [hr.sustained_running hs hinstant] at hgiven hfind
          rw [hu.sustained_running (hfind s hs) hinstant, recalled_congr hd]
          exact hgiven
        | none =>
          have hsince : ((some (Stamp.utc since)).getD (.utc at_)).instant? = some since :=
            Stamp.instant?_utc hdate
          rw [hr.sustained_fresh hs hinstant hsince] at hgiven hfind
          have hstart := hfind (t.kept (.utc since)) (by rw [find?_written, if_pos rfl]; rfl)
          rw [hu.sustained_running hstart hinstant, recalled_congr hd, recalled_kept_utc]
          exact hgiven

/-- A question to a timer that is not dropped is answered as before: the timer runs from the start
that it had or was given then. -/
theorem Reliable.given_of_kept (hr : t.Reliable) (hsplit : uses = front ++ use :: back)
    (hgiven : use.Given (t.after front)) (hdate : use.Dated) (hkeep : .dropped use.key ∉ uses) :
    use.Given ((t.after uses).after front) := by
  have hleft := hr.after uses
  have hthen := hr.after front
  have hend : t.after uses = (use.applied (t.after front)).after back := by
    rw [hsplit, after_append, after_cons]
  have hd : ((t.after uses).after front).durable = (t.after front).durable := by
    rw [after_durable, after_durable, after_durable]
  rw [hsplit] at hkeep
  have hfront : .dropped use.key ∉ front := fun h => hkeep (List.mem_append_left _ h)
  have hback : .dropped use.key ∉ back :=
    fun h => hkeep (List.mem_append_right _ (List.mem_cons_of_mem _ h))
  apply hthen.given_of_applied (hleft.after front) hd hgiven hdate
  intro s hs
  have happlied := (use.applied_moves (t.after front)).reliable hthen
  have hlast : (t.after uses).find? use.key = some s := by
    rw [hend]
    exact happlied.find?_after hs hback
  exact hleft.find?_after hlast hfront

/-! ## The same uses again -/

/-- The questions put to a timer before it is dropped for the first time are answered as they were,
also by the timers that are left in the end. -/
def Steadfast (uses : List TimerUse) (left : Timers) : Prop :=
  ∀ front use back, uses = front ++ use :: back →
    .dropped use.key ∉ front → .dropped use.key ∈ back → use.Given (left.after front)

theorem steadfast_of_kept {left : Timers}
    (h : ∀ front key d since at_ answer back,
      uses = front ++ .asked key d since at_ answer :: back → .dropped key ∉ back) :
    Steadfast uses left := by
  intro front use back hsplit _ hback
  cases use with
  | dropped => trivial
  | asked key d since at_ answer => exact absurd hback (h _ _ _ _ _ _ _ hsplit)

theorem Reliable.steadfast_iff (hr : t.Reliable) (hgives : t.Gives uses)
    (hdated : ∀ use ∈ uses, use.Dated) :
    Steadfast uses (t.after uses) ↔ (t.after uses).Gives uses := by
  constructor
  · intro hsteady
    refine gives_iff.mpr ?_
    intro front use back hsplit
    have hgiven := gives_iff.mp hgives front use back hsplit
    by_cases hfront : .dropped use.key ∈ front
    · exact (hr.alike_of_dropped (hr.after uses) (t.after_durable uses) hfront).given hgiven
    · by_cases hback : .dropped use.key ∈ back
      · exact hsteady front use back hsplit hfront hback
      · by_cases hself : .dropped use.key = use
        · rw [← hself]
          trivial
        · have hdate := hdated use (by rw [hsplit]; exact List.mem_append_right _ List.mem_cons_self)
          have hkeep : .dropped use.key ∉ uses := by
            rw [hsplit]
            simp [hfront, hback, hself]
          exact hr.given_of_kept hsplit hgiven hdate hkeep
  · intro hagain front use back hsplit _ _
    exact gives_iff.mp hagain front use back hsplit

end Timers

/-! ## Dialogues -/

/-- What is done to the timers on the way to a result. -/
inductive Dialogue (α : Type) where
  | ended (result : α)
  | drop (key : TimerKey) (rest : Dialogue α)
  | ask (key : TimerKey) (duration : Option Duration) (since at_ : Instant)
      (rest : Except Failure Bool → Dialogue α)

namespace Dialogue

variable {α β : Type}

/-- The result of a dialogue held with timers, and the timers that it leaves. -/
def hold : Dialogue α → Timers → α × Timers
  | ended a, t => (a, t)
  | drop key rest, t => rest.hold (t.clear key)
  | ask key d since at_ rest, t =>
    let (answer, t) := t.sustained key d (.utc at_) (some (.utc since))
    (rest answer).hold t

/-- The uses that a dialogue makes of timers. -/
def uses : Dialogue α → Timers → List TimerUse
  | ended _, _ => []
  | drop key rest, t => .dropped key :: rest.uses (t.clear key)
  | ask key d since at_ rest, t =>
    let (answer, t) := t.sustained key d (.utc at_) (some (.utc since))
    .asked key d since at_ answer :: (rest answer).uses t

def bind : Dialogue α → (α → Dialogue β) → Dialogue β
  | ended a, f => f a
  | drop key rest, f => .drop key (rest.bind f)
  | ask key d since at_ rest, f => .ask key d since at_ fun answer => (rest answer).bind f

/-- Every question counts from a time that the calendar has. -/
def Dated : Dialogue α → Prop
  | ended _ => True
  | drop _ rest => rest.Dated
  | ask _ _ since _ rest => (0 ≤ since ∧ since < Instant.limit) ∧ ∀ answer, (rest answer).Dated

@[simp] theorem hold_ended (a : α) (t : Timers) : (ended a).hold t = (a, t) := rfl

@[simp] theorem hold_drop (key : TimerKey) (rest : Dialogue α) (t : Timers) :
    (drop key rest).hold t = rest.hold (t.clear key) := rfl

@[simp] theorem hold_ask (key : TimerKey) (d : Option Duration) (since at_ : Instant)
    (rest : Except Failure Bool → Dialogue α) (t : Timers) :
    (ask key d since at_ rest).hold t =
      (rest (t.sustained key d (.utc at_) (some (.utc since))).1).hold
        (t.sustained key d (.utc at_) (some (.utc since))).2 := rfl

@[simp] theorem hold_bind (d : Dialogue α) (f : α → Dialogue β) (t : Timers) :
    (d.bind f).hold t = (f (d.hold t).1).hold (d.hold t).2 := by
  induction d generalizing t with
  | ended => rfl
  | drop key rest ih => exact ih _
  | ask key d since at_ rest ih => exact ih _ _

theorem Dated.bind {d : Dialogue α} {f : α → Dialogue β} (hd : d.Dated) (hf : ∀ a, (f a).Dated) :
    (d.bind f).Dated := by
  induction d with
  | ended a => exact hf a
  | drop key rest ih => exact ih hd
  | ask key d since at_ rest ih => exact ⟨hd.1, fun answer => ih answer (hd.2 answer)⟩

theorem hold_snd (d : Dialogue α) (t : Timers) : (d.hold t).2 = t.after (d.uses t) := by
  induction d generalizing t with
  | ended => rfl
  | drop key rest ih => exact ih _
  | ask key d since at_ rest ih => exact ih _ _

theorem gives_uses (d : Dialogue α) (t : Timers) : t.Gives (d.uses t) := by
  induction d generalizing t with
  | ended => trivial
  | drop key rest ih => exact ⟨trivial, ih _⟩
  | ask key d since at_ rest ih => exact ⟨rfl, ih _ _⟩

theorem dated_of_mem_uses {d : Dialogue α} (hd : d.Dated) (t : Timers) :
    ∀ use ∈ d.uses t, use.Dated := by
  induction d generalizing t with
  | ended => exact fun _ h => absurd h List.not_mem_nil
  | drop key rest ih =>
    intro use h
    rcases List.mem_cons.mp h with rfl | h
    · trivial
    · exact ih hd _ use h
  | ask key d since at_ rest ih =>
    intro use h
    rcases List.mem_cons.mp h with rfl | h
    · exact hd.1
    · exact ih _ (hd.2 _) _ use h

/-- Timers that give the same answers are used in the same way, to the same result. -/
theorem same_of_gives {d : Dialogue α} {t u : Timers} (h : u.Gives (d.uses t)) :
    d.uses u = d.uses t ∧ (d.hold u).1 = (d.hold t).1 := by
  induction d generalizing t u with
  | ended => exact ⟨rfl, rfl⟩
  | drop key rest ih =>
    obtain ⟨huses, hresult⟩ := ih h.2
    exact ⟨congrArg (TimerUse.dropped key :: ·) huses, hresult⟩
  | ask key d since at_ rest ih =>
    have hanswer : (u.sustained key d (.utc at_) (some (.utc since))).1 =
      (t.sustained key d (.utc at_) (some (.utc since))).1 := h.1
    obtain ⟨huses, hresult⟩ := ih _ h.2
    simp only [uses, hold, hanswer]
    exact ⟨congrArg _ huses, hresult⟩

/-- A dialogue held a second time makes the same uses of the timers exactly when the timers that it
has left are steadfast. Its result is the same then, and it changes no record. -/
theorem hold_again {d : Dialogue α} {t : Timers} (hr : t.Reliable) (hd : d.Dated) :
    (Timers.Steadfast (d.uses t) (d.hold t).2 ↔ d.uses (d.hold t).2 = d.uses t) ∧
      (Timers.Steadfast (d.uses t) (d.hold t).2 →
        (d.hold (d.hold t).2).1 = (d.hold t).1 ∧
          ∀ key, (d.hold (d.hold t).2).2.find? key = (d.hold t).2.find? key) := by
  have hiff := hr.steadfast_iff (d.gives_uses t) (dated_of_mem_uses hd t)
  rw [← d.hold_snd t] at hiff
  refine ⟨⟨fun hsteady => (same_of_gives (hiff.mp hsteady)).1, ?_⟩, ?_⟩
  · intro huses
    apply hiff.mpr
    rw [← huses]
    exact d.gives_uses _
  · intro hsteady
    obtain ⟨huses, hresult⟩ := same_of_gives (hiff.mp hsteady)
    refine ⟨hresult, fun key => ?_⟩
    rw [d.hold_snd (d.hold t).2, huses, d.hold_snd t]
    exact hr.find?_after_again _ key

end Dialogue

end FaultDesk
