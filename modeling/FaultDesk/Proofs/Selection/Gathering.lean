import FaultDesk.Selection

/-!
A selection as a loop over its stream: samples are taken one at a time and gathered, and a block is
judged when the first sample of another unit has been taken. The blocks of the stream are those that
the loop gathers, and the loop goes through the same events as the selection that knows its blocks
beforehand.
-/

namespace FaultDesk

/-- What a selection does next. -/
inductive SelectionStep where
  /-- A sample is taken from the stream. -/
  | take (s : Sample)
  /-- A block is handed over to be judged. -/
  | judge (b : Block)

namespace SelectionStep

def taken? : SelectionStep → Option Sample
  | take s => some s
  | judge _ => none

def judged? : SelectionStep → Option Block
  | take _ => none
  | judge b => some b

end SelectionStep

/-- Samples on their way into blocks. -/
structure Gathering where
  /-- The steps made so far. -/
  steps : List SelectionStep
  /-- The extra samples that have not joined a block yet. -/
  pending : List Sample
  /-- The unit whose samples are being gathered, and those gathered so far. -/
  current : Option (String × List Sample)

namespace Gathering

def start (extra : List Sample) : Gathering := ⟨[], extra, none⟩

/-- Hands over what has been gathered, with the extra samples of the unit. -/
def close (g : Gathering) : Gathering :=
  match g.current with
  | none => g
  | some (unit, ss) =>
    ⟨g.steps ++ [.judge ⟨unit, ss, g.pending.filter (·.unit = unit)⟩],
      g.pending.filter (·.unit ≠ unit), none⟩

/-- Takes one sample from the stream. -/
def take (g : Gathering) (s : Sample) : Gathering :=
  let g := { g with steps := g.steps ++ [SelectionStep.take s] }
  match g.current with
  | none => { g with current := some (s.unit, [s]) }
  | some (unit, ss) =>
    if s.unit = unit then { g with current := some (unit, ss ++ [s]) }
    else { g.close with current := some (s.unit, [s]) }

/-- What has been gathered when the stream has come to its end. -/
def ofStream (stream extra : List Sample) : Gathering := (stream.foldl take (start extra)).close

end Gathering

/-- The steps of a selection: those of the stream, and then the units known from extra samples
only. -/
def selectionSteps (stream extra : List Sample) : List SelectionStep :=
  (Gathering.ofStream stream extra).steps ++
    (extraBlocks (Gathering.ofStream stream extra).pending).map .judge

namespace Selector

/-- Goes through the steps of a selection, with the keys given out so far, until one fails. -/
def follow (sel : Selector) (given : List (String × String)) :
    List SelectionStep → Timers → List SelectionEvent × Timers
  | [], t => ([], t)
  | .take s :: rest, t =>
    let (more, t) := follow sel given rest t
    (.read s :: more, t)
  | .judge b :: rest, t =>
    let f := sel.flush b.unit b.samples t
    let start := SelectionEvent.flush b.unit :: (if f.asked then [.history b.unit] else [])
    match f.winners with
    | .error e => (start ++ [.failed e], f.timers)
    | .ok cs =>
      let (cs, given, _) := giveOut given none cs
      let (more, t) := follow sel given rest f.timers
      (start ++ cs.map .winner ++ more, t)

end Selector

/-! ## The blocks that the loop gathers -/

/-- Samples gathered for a unit in front of blocks that follow. -/
def joined (unit : String) (ss : List Sample) :
    List (String × List Sample) → List (String × List Sample)
  | [] => [(unit, ss)]
  | (v, vs) :: more => if v = unit then (unit, ss ++ vs) :: more else (unit, ss) :: (v, vs) :: more

theorem byUnit_cons (s : Sample) (rest : List Sample) :
    byUnit (s :: rest) = joined s.unit [s] (byUnit rest) := by
  simp only [byUnit]
  cases byUnit rest with
  | nil => rfl
  | cons b more =>
    obtain ⟨v, vs⟩ := b
    simp only [joined]
    split
    next h => simp [h]
    next => rfl

theorem joined_byUnit_cons (unit : String) (ss : List Sample) (s : Sample) (rest : List Sample) :
    joined unit ss (byUnit (s :: rest)) =
      if s.unit = unit then joined unit (ss ++ [s]) (byUnit rest)
      else (unit, ss) :: joined s.unit [s] (byUnit rest) := by
  rw [byUnit_cons]
  cases byUnit rest with
  | nil => simp [joined]
  | cons b more =>
    obtain ⟨v, vs⟩ := b
    by_cases hs : s.unit = unit
    · by_cases hv : v = unit <;> simp [joined, hs, hv]
    · by_cases hv : v = s.unit <;> simp [joined, hs, hv]

theorem joined_eq_cons (unit : String) (ss : List Sample) (bs : List (String × List Sample)) :
    ∃ vs more, joined unit ss bs = (unit, ss ++ vs) :: more := by
  cases bs with
  | nil => exact ⟨[], [], by simp [joined]⟩
  | cons b more =>
    obtain ⟨v, vs⟩ := b
    by_cases hv : v = unit
    · exact ⟨vs, more, by simp [joined, hv]⟩
    · exact ⟨[], (v, vs) :: more, by simp [joined, hv]⟩

/-- The steps that go through blocks, when so many samples of the first have been taken. -/
def stepsFrom : Nat → List Block → List SelectionStep
  | _, [] => []
  | n, b :: rest =>
    (b.streamed.drop n ++ (rest.head?.bind (·.streamed.head?)).toList).map .take ++
      .judge b :: stepsFrom (if b.streamed.isEmpty then 0 else 1) rest

theorem stepsFrom_take {n : Nat} {b : Block} {rest : List Block} {s : Sample} {more : List Sample}
    (h : b.streamed.drop n = s :: more) :
    stepsFrom n (b :: rest) = .take s :: stepsFrom (n + 1) (b :: rest) := by
  have hmore : b.streamed.drop (n + 1) = more := by
    rw [← List.drop_drop, h]
    rfl
  simp [stepsFrom, h, hmore]

/-- The loop, from where it has gathered a part of a block to the end of the stream. -/
theorem close_foldl_take (rest : List Sample) {g : Gathering} {unit : String} {ss : List Sample}
    (hg : g.current = some (unit, ss)) (hss : ss ≠ []) :
    ((rest.foldl Gathering.take g).close.steps =
        g.steps ++
          stepsFrom ss.length (streamBlocks (joined unit ss (byUnit rest)) g.pending).1) ∧
      (rest.foldl Gathering.take g).close.pending =
        (streamBlocks (joined unit ss (byUnit rest)) g.pending).2 := by
  -- the part that is gathered grows with each sample of its unit, and is handed over before another
  induction rest generalizing g unit ss with
  | nil => simp [Gathering.close, hg, byUnit, joined, streamBlocks, stepsFrom]
  | cons s rest ih =>
    rw [joined_byUnit_cons, List.foldl_cons]
    by_cases hs : s.unit = unit
    · have htake : g.take s =
          ⟨g.steps ++ [.take s], g.pending, some (unit, ss ++ [s])⟩ := by
        simp [Gathering.take, hg, hs]
      obtain ⟨hsteps, hpending⟩ := @ih (g.take s) unit (ss ++ [s]) (by rw [htake]) (by simp)
      rw [htake] at hsteps hpending ⊢
      rw [if_pos hs]
      refine ⟨?_, hpending⟩
      obtain ⟨vs, more, hjoined⟩ := joined_eq_cons unit (ss ++ [s]) (byUnit rest)
      rw [hsteps, hjoined]
      simp only [streamBlocks]
      rw [@stepsFrom_take ss.length _ _ s vs (by simp)]
      simp
    · have htake : g.take s =
          ⟨g.steps ++ [.take s] ++ [.judge ⟨unit, ss, g.pending.filter (·.unit = unit)⟩],
            g.pending.filter (·.unit ≠ unit), some (s.unit, [s])⟩ := by
        simp [Gathering.take, Gathering.close, hg, hs]
      obtain ⟨hsteps, hpending⟩ := @ih (g.take s) s.unit [s] (by rw [htake]) (by simp)
      rw [htake] at hsteps hpending ⊢
      rw [if_neg hs]
      refine ⟨?_, hpending⟩
      obtain ⟨vs, more, hjoined⟩ := joined_eq_cons s.unit [s] (byUnit rest)
      rw [hsteps, hjoined]
      simp [streamBlocks, stepsFrom, hss]

theorem stepsFrom_extra (n : Nat) {es : List Block} (hes : ∀ b ∈ es, b.streamed = []) :
    stepsFrom n es = es.map .judge := by
  induction es generalizing n with
  | nil => rfl
  | cons b rest ih =>
    have hrest : ∀ c ∈ rest, c.streamed = [] := fun c hc => hes c (List.mem_cons_of_mem b hc)
    have hnext : rest.head?.bind (·.streamed.head?) = none := by
      cases rest with
      | nil => rfl
      | cons c more => simp [hrest c List.mem_cons_self]
    simp [stepsFrom, hes b List.mem_cons_self, hnext, ih _ hrest]

theorem stepsFrom_append_extra (n : Nat) (bs : List Block) {es : List Block}
    (hes : ∀ b ∈ es, b.streamed = []) :
    stepsFrom n (bs ++ es) = stepsFrom n bs ++ es.map .judge := by
  induction bs generalizing n with
  | nil => exact stepsFrom_extra n hes
  | cons b rest ih =>
    have hnext : (rest ++ es).head?.bind (·.streamed.head?) =
        rest.head?.bind (·.streamed.head?) := by
      cases rest with
      | cons c more => rfl
      | nil =>
        cases es with
        | nil => rfl
        | cons c more => simp [hes c List.mem_cons_self]
    simp only [List.cons_append, stepsFrom, hnext, ih, List.append_assoc]

theorem extraBlocks_streamed {extra : List Sample} {b : Block} (h : b ∈ extraBlocks extra) :
    b.streamed = [] := by
  obtain ⟨u, -, rfl⟩ := List.mem_map.mp h
  rfl

/-- The loop makes the steps that go through the blocks. -/
theorem selectionSteps_eq (stream extra : List Sample) :
    selectionSteps stream extra = stepsFrom 0 (blocks stream extra) := by
  have hextra (bs : List Block) (left : List Sample) :
      stepsFrom 0 (bs ++ extraBlocks left) = stepsFrom 0 bs ++ (extraBlocks left).map .judge :=
    stepsFrom_append_extra 0 bs fun b hb => extraBlocks_streamed hb
  unfold selectionSteps blocks
  dsimp only
  rw [hextra]
  cases stream with
  | nil => rfl
  | cons s rest =>
    obtain ⟨hsteps, hpending⟩ :=
      @close_foldl_take rest ((Gathering.start extra).take s) s.unit [s] rfl (by simp)
    have hof : Gathering.ofStream (s :: rest) extra =
        (rest.foldl Gathering.take ((Gathering.start extra).take s)).close := rfl
    rw [hof, hsteps, hpending, ← byUnit_cons]
    have hpend : ((Gathering.start extra).take s).pending = extra := rfl
    rw [hpend]
    congr 1
    obtain ⟨vs, more, hjoined⟩ := joined_eq_cons s.unit [s] (byUnit rest)
    rw [byUnit_cons, hjoined]
    simp only [streamBlocks]
    rw [@stepsFrom_take 0 _ _ s vs (by simp)]
    rfl

namespace Selector

variable {sel : Selector}

theorem giveOut_all (given : List (String × String)) (cs : List Candidate) :
    (giveOut given none cs).2.2 = none := by
  induction cs generalizing given with
  | nil => rfl
  | cons c rest ih =>
    simp only [giveOut, reduceCtorEq, ↓reduceIte, Option.map_none]
    split
    next => exact ih given
    next => exact ih _

theorem follow_takes (given : List (String × String)) (ss : List Sample)
    (rest : List SelectionStep) (t : Timers) :
    sel.follow given (ss.map .take ++ rest) t =
      (ss.map .read ++ (sel.follow given rest t).1, (sel.follow given rest t).2) := by
  induction ss with
  | nil => rfl
  | cons s more ih => simp [follow, ih]

theorem selectFrom_eq_follow (begun : Bool) (given : List (String × String)) (bs : List Block)
    (t : Timers) :
    sel.selectFrom begun given none bs t =
      sel.follow given (stepsFrom (if begun then 1 else 0) bs) t := by
  induction bs generalizing begun given t with
  | nil => rfl
  | cons b rest ih =>
    rw [stepsFrom, follow_takes]
    simp only [selectFrom, follow, readsFor]
    cases (sel.flush b.unit b.samples t).winners with
    | error e => simp
    | ok cs =>
      have hall := giveOut_all given cs
      dsimp only
      generalize giveOut given none cs = out at hall ⊢
      obtain ⟨cs', given', wanted⟩ := out
      obtain rfl : wanted = none := hall
      simp [ih]

/-- A selection that is followed to its end goes through the steps of the loop. -/
theorem select_eq_follow (stream extra : List Sample) (t : Timers) :
    sel.select none stream extra t = sel.follow [] (selectionSteps stream extra) t := by
  rw [selectionSteps_eq]
  exact selectFrom_eq_follow false [] (blocks stream extra) t

end Selector

end FaultDesk
