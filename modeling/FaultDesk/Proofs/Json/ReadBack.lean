import FaultDesk.Datum.JsonText
import FaultDesk.Proofs.Datum.Entries
import FaultDesk.Proofs.Json.Numbers
import FaultDesk.Proofs.Json.Texts
import FaultDesk.Proofs.Number.Rounding

/-!
Values in JSON. A tree of lists and mappings with text keys is written in printable ASCII, and is read
back with every entry where it was; times come back as their texts, decimals as the numbers nearest to
them.
-/

namespace FaultDesk

namespace Datum

/-! ## Values of a log -/

mutual

/-- What comes back of a value that is written and read. -/
def logged : Datum → Datum
  | .decimal d => (d.toDouble?).elim (.decimal d) .float
  | .date d => .text d.text
  | .stamp s => .text s.text
  | .list xs => .list (loggedItems xs)
  | .mapping es => .mapping (loggedEntries es)
  | d => d

def loggedItems : List Datum → List Datum
  | [] => []
  | x :: xs => logged x :: loggedItems xs

def loggedEntries : List (Datum × Datum) → List (Datum × Datum)
  | [] => []
  | (k, v) :: es => (k, logged v) :: loggedEntries es

end

theorem loggedItems_eq (xs : List Datum) : loggedItems xs = xs.map logged := by
  induction xs with
  | nil => rfl
  | cons x xs ih => exact congrArg (logged x :: ·) ih

theorem loggedEntries_entriesOf (fields : List (String × Datum)) :
    loggedEntries (entriesOf fields) = entriesOf (fields.map fun (k, v) => (k, v.logged)) := by
  induction fields with
  | nil => rfl
  | cons e rest ih => exact congrArg ((.text e.1, logged e.2) :: ·) ih

theorem lookup_loggedEntries (key : String) (es : List (Datum × Datum)) :
    lookup key (loggedEntries es) = (lookup key es).map logged := by
  induction es with
  | nil => rfl
  | cons e rest ih =>
    obtain ⟨name, v⟩ := e
    cases name with
    | text k =>
      show (if k = key then some v.logged else lookup key (loggedEntries rest)) =
        Option.map logged (if k = key then some v else lookup key rest)
      split
      next => rfl
      next => exact ih
    | _ => exact ih

/-- A decimal comes back as the number nearest to it. -/
theorem logged_decimal (negative : Bool) (digits : Nat) (e : Int) :
    ∃ x : Double, (Datum.decimal (.finite negative digits e)).logged = .float x ∧
      x.IsNearest negative (digits * 10 ^ e.toNat) (10 ^ (-e).toNat) :=
  ⟨_, rfl, Double.isNearest_ofDecimal negative digits e⟩

/-- The values that can be written in a log and read back from it. -/
inductive Loggable : Datum → Prop where
  | null : Loggable .null
  | truth (b : Bool) : Loggable (.truth b)
  | int {n : Int} (hdigits : n.natAbs < Nat.pow 10 Whole.digitLimit) : Loggable (.int n)
  | float {d : Double} (hfinite : d.isFinite = true) : Loggable (.float d)
  | decimal {d : Decimal} {x : Double} (hx : d.toDouble? = some x) (hfinite : x.isFinite = true) :
    Loggable (.decimal d)
  | text (s : String) : Loggable (.text s)
  | date (d : Date) : Loggable (.date d)
  | stamp (s : Stamp) : Loggable (.stamp s)
  | list {xs : List Datum} (hitems : ∀ x ∈ xs, Loggable x) : Loggable (.list xs)
  | object {fields : List (String × Datum)} (hkeys : (fields.map (·.1)).Nodup)
    (hfields : ∀ e ∈ fields, Loggable e.2) : Loggable (.object fields)

theorem Loggable.of_object {fields : List (String × Datum)} (h : Loggable (.object fields)) :
    (fields.map (·.1)).Nodup ∧ ∀ e ∈ fields, Loggable e.2 := by
  obtain ⟨d, hd⟩ : ∃ d, d = Datum.object fields := ⟨_, rfl⟩
  rw [← hd] at h
  cases h with
  | object hkeys hfields =>
    obtain rfl := entriesOf_injective (mapping.inj hd)
    exact ⟨hkeys, hfields⟩
  | _ => cases hd

end Datum

namespace JsonRead

/-- Printable characters that are read as a value, whatever stands behind them but what would go on
with a number. Two steps of fuel for each character are enough: a member of a list or a mapping takes one
for itself and one for its value. -/
structure Spelled (cs : List Char) (d : Datum) : Prop where
  printable : ∀ c ∈ cs, isPrintable c = true
  head : ∃ c more, cs = c :: more ∧ isSpace c = false ∧ c ≠ ']'
  read : ∀ fuel rest, 2 * cs.length ≤ fuel → Stops rest → value fuel (cs ++ rest) = some (d, rest)

variable {cs first more next rest : List Char} {d x v : Datum} {xs : List Datum} {key : String}
  {es : List (String × Datum)} {fuel : Nat}

theorem skip_blank (cs : List Char) : skip (' ' :: cs) = skip cs := rfl

/-- A value does not start with a blank. -/
theorem Spelled.skip (h : Spelled cs d) (rest : List Char) : skip (cs ++ rest) = cs ++ rest := by
  obtain ⟨c, more, rfl, hspace, -⟩ := h.head
  exact List.dropWhile_cons_of_neg (by simp [hspace])

/-! ## Words, numbers and texts -/

theorem spelled_of_read (hprintable : ∀ c ∈ cs, isPrintable c = true)
    (hhead : ∃ c more, cs = c :: more ∧ isSpace c = false ∧ c ≠ ']')
    (hread : ∀ fuel rest, Stops rest → value (fuel + 1) (cs ++ rest) = some (d, rest)) : Spelled cs d := by
  refine ⟨hprintable, hhead, fun fuel rest hfuel hrest => ?_⟩
  obtain ⟨c, more, rfl, -⟩ := hhead
  obtain ⟨f, rfl⟩ : ∃ f, fuel = f + 1 := ⟨fuel - 1, by rw [List.length_cons] at hfuel; omega⟩
  exact hread f rest hrest

/-- Characters that are read as they stand, whatever follows them. -/
theorem spelled_word {c : Char} (hprintable : (c :: cs).all isPrintable = true)
    (hhead : isSpace c = false ∧ c ≠ ']')
    (hread : ∀ fuel rest, value (fuel + 1) (c :: (cs ++ rest)) = some (d, rest)) : Spelled (c :: cs) d :=
  spelled_of_read (List.all_eq_true.mp hprintable) ⟨c, cs, rfl, hhead⟩ fun fuel rest _ => hread fuel rest

theorem spelled_null : Spelled "null".toList .null :=
  spelled_word (by decide) (by decide) fun _ _ => rfl

theorem spelled_truth (b : Bool) : Spelled (if b then "true" else "false").toList (.truth b) := by
  cases b with
  | true => exact spelled_word (by decide) (by decide) fun _ _ => rfl
  | false => exact spelled_word (by decide) (by decide) fun _ _ => rfl

/-- The characters of numbers are printable, and no blanks or brackets. -/
theorem of_mem_marks {c : Char} (h : c ∈ Numeral.marks) :
    isPrintable c = true ∧ isSpace c = false ∧ c ≠ ']' := by
  simpa using @Numeral.forall_mark (fun c => isPrintable c && (!isSpace c && c != ']')) (by decide) c h

theorem spelled_of_marks (hmarks : ∀ c ∈ cs, c ∈ Numeral.marks) (hcs : cs ≠ [])
    (hread : ∀ fuel rest, Stops rest → value (fuel + 1) (cs ++ rest) = some (d, rest)) : Spelled cs d := by
  refine spelled_of_read (fun c hc => (of_mem_marks (hmarks c hc)).1) ?_ hread
  obtain ⟨c, more, rfl⟩ := List.exists_cons_of_ne_nil hcs
  exact ⟨c, more, rfl, (of_mem_marks (hmarks c List.mem_cons_self)).2⟩

theorem spelled_int {n : Int} (hn : n.natAbs < Nat.pow 10 Whole.digitLimit) :
    Spelled (toString n).toList (.int n) := by
  have htext : (toString n).toList = (if decide (n < 0) then ['-'] else []) ++ Nat.toDigits 10 n.natAbs := by
    rw [Double.toString_eq, String.toList_ofList]
    simp only [decide_eq_true_eq]
  have hspells := @Numeral.spells_whole (Nat.toDigits 10 n.natAbs) [] 0 (areDigits_toDigits _) rfl
  rw [List.append_nil] at hspells
  refine spelled_of_marks ?_ ?_ fun fuel rest hrest => value_int hn fuel hrest
  · rw [htext]
    exact Numeral.marked_minus hspells _
  · rw [htext]
    simp

theorem spelled_double {d : Double} (h : d.isFinite = true) : Spelled d.text.toList (.float d) := by
  obtain ⟨cs, m, k, htext, hreal, -⟩ := Double.exists_isReal h
  refine spelled_of_marks ?_ ?_ fun fuel rest hrest => value_double h fuel hrest
  · rw [htext]
    exact Numeral.marked_minus hreal.spells _
  · obtain ⟨c, more, rfl, -⟩ := hreal.spells.head
    rw [htext]
    simp

theorem toList_json (s : String) : (Text.json s).toList = '"' :: (s.toList.flatMap Text.jsonChar ++ ['"']) :=
  String.toList_ofList

theorem text_toList_json (s : String) (rest : List Char) :
    text (s.toList.flatMap Text.jsonChar ++ ['"'] ++ rest) = some (s, rest) := by
  rw [List.append_assoc]
  exact text_json s rest

theorem spelled_text (s : String) : Spelled (Text.json s).toList (.text s) := by
  refine spelled_of_read (Text.isPrintable_json s) ⟨_, _, toList_json s, by decide, by decide⟩ ?_
  intro fuel rest _
  rw [toList_json, List.cons_append, value, text_toList_json]
  rfl

/-! ## Lists -/

/-- The items of a list behind its first one, up to its end. -/
inductive SpelledItems : List Char → List Datum → Prop where
  | nil : SpelledItems [']'] []
  | cons {next more : List Char} {x : Datum} {xs : List Datum} (hnext : Spelled next x)
    (hmore : SpelledItems more xs) : SpelledItems (',' :: ' ' :: (next ++ more)) (x :: xs)

theorem SpelledItems.printable (h : SpelledItems more xs) : ∀ c ∈ more, isPrintable c = true := by
  induction h with
  | nil => exact List.all_eq_true.mp (by decide)
  | cons hnext _ ih =>
    simp only [List.forall_mem_cons, List.forall_mem_append]
    exact ⟨by decide, by decide, hnext.printable, ih⟩

theorem stops_of_head {c : Char} (h : c = ',' ∨ c = ']' ∨ c = '\x7d') (cs : List Char) : Stops (c :: cs) := by
  intro d hd
  obtain rfl := Option.some.inj hd
  rcases h with rfl | rfl | rfl <;> decide

theorem SpelledItems.stops (h : SpelledItems more xs) (rest : List Char) : Stops (more ++ rest) := by
  cases h with
  | nil => exact stops_of_head (by decide) _
  | cons => exact stops_of_head (by decide) _

theorem items_last (hread : value fuel cs = some (x, ']' :: rest)) :
    items (fuel + 1) cs = some ([x], rest) := by
  rw [items, hread]
  rfl

theorem items_next (hread : value fuel cs = some (x, ',' :: rest)) :
    items (fuel + 1) cs = (items fuel (skip rest)).map fun p => (x :: p.1, p.2) := by
  have hskip : skip (',' :: rest) = ',' :: rest := rfl
  rw [items, hread]
  simp only [Option.bind_eq_bind, Option.bind_some, hskip]
  cases items fuel (skip rest) <;> rfl

/-- A first item and those behind it are read. -/
theorem SpelledItems.items (h : SpelledItems more xs) (hfirst : Spelled first x)
    (hfuel : 2 * (first.length + more.length) ≤ fuel) (rest : List Char) :
    items fuel (first ++ (more ++ rest)) = some (x :: xs, rest) := by
  -- the next item is the first of those that are left, so the first one is any item
  induction h generalizing first x fuel with
  | nil =>
    simp only [List.length_cons, List.length_nil] at hfuel
    obtain ⟨f, rfl⟩ : ∃ f, fuel = f + 1 := ⟨fuel - 1, by omega⟩
    exact items_last (hfirst.read f (']' :: rest) (by omega) (SpelledItems.nil.stops rest))
  | @cons next more y ys hnext hmore ih =>
    simp only [List.length_cons, List.length_append] at hfuel
    obtain ⟨f, rfl⟩ : ∃ f, fuel = f + 1 := ⟨fuel - 1, by omega⟩
    have hread := hfirst.read f _ (by omega) ((SpelledItems.cons hnext hmore).stops rest)
    have hskip : skip (' ' :: (next ++ more ++ rest)) = next ++ (more ++ rest) := by
      rw [List.append_assoc, skip_blank]
      exact hnext.skip (more ++ rest)
    refine (items_next hread).trans ?_
    rw [List.append_eq, List.cons_append, hskip, ih hnext (by omega)]
    rfl

theorem spelled_nil : Spelled ['[', ']'] (.list []) :=
  spelled_word (by decide) (by decide) fun _ _ => rfl

theorem spelled_list (hfirst : Spelled first x) (hmore : SpelledItems more xs) :
    Spelled ('[' :: (first ++ more)) (.list (x :: xs)) := by
  refine ⟨?_, ⟨_, _, rfl, by decide, by decide⟩, fun fuel rest hfuel hrest => ?_⟩
  · simp only [List.forall_mem_cons, List.forall_mem_append]
    exact ⟨by decide, hfirst.printable, hmore.printable⟩
  · simp only [List.length_cons, List.length_append] at hfuel
    obtain ⟨f, rfl⟩ : ∃ f, fuel = f + 1 := ⟨fuel - 1, by omega⟩
    have hitems := hmore.items hfirst (show 2 * (first.length + more.length) ≤ f by omega) rest
    have hskip := hfirst.skip (more ++ rest)
    rw [List.cons_append, List.append_assoc, value, hskip]
    obtain ⟨c, others, rfl, -, hc⟩ := hfirst.head
    split
    next heq => exact absurd (List.cons.inj heq).1 hc
    next => rw [hitems]; rfl

/-! ## Mappings -/

/-- The entries of a mapping behind its first one, up to its end. -/
inductive SpelledEntries : List Char → List (String × Datum) → Prop where
  | nil : SpelledEntries ['\x7d'] []
  | cons {key : String} {next more : List Char} {v : Datum} {es : List (String × Datum)}
    (hnext : Spelled next v) (hmore : SpelledEntries more es) :
    SpelledEntries (',' :: ' ' :: ((Text.json key).toList ++ ':' :: ' ' :: (next ++ more))) ((key, v) :: es)

theorem SpelledEntries.printable (h : SpelledEntries more es) : ∀ c ∈ more, isPrintable c = true := by
  induction h with
  | nil => exact List.all_eq_true.mp (by decide)
  | cons hnext _ ih =>
    simp only [List.forall_mem_cons, List.forall_mem_append]
    exact ⟨by decide, by decide, Text.isPrintable_json _, by decide, by decide, hnext.printable, ih⟩

theorem SpelledEntries.stops (h : SpelledEntries more es) (rest : List Char) : Stops (more ++ rest) := by
  cases h with
  | nil => exact stops_of_head (by decide) _
  | cons => exact stops_of_head (by decide) _

/-- The last entry: its key, a colon, a blank and its value. -/
theorem entries_last (key : String) (hread : value fuel cs = some (v, '\x7d' :: rest))
    (hskip : skip (' ' :: cs) = cs) :
    entries (fuel + 1) ((Text.json key).toList ++ ':' :: ' ' :: cs) = some ([(key, v)], rest) := by
  have hcolon : skip (':' :: ' ' :: cs) = ':' :: ' ' :: cs := rfl
  rw [toList_json, List.cons_append, entries, text_toList_json]
  simp only [Option.bind_eq_bind, Option.bind_some, hcolon, hskip, hread]
  rfl

theorem entries_next (key : String) (hread : value fuel cs = some (v, ',' :: rest))
    (hskip : skip (' ' :: cs) = cs) :
    entries (fuel + 1) ((Text.json key).toList ++ ':' :: ' ' :: cs) =
      (entries fuel (skip rest)).map fun p => ((key, v) :: p.1, p.2) := by
  have hcolon : skip (':' :: ' ' :: cs) = ':' :: ' ' :: cs := rfl
  have hcomma : skip (',' :: rest) = ',' :: rest := rfl
  rw [toList_json, List.cons_append, entries, text_toList_json]
  simp only [Option.bind_eq_bind, Option.bind_some, hcolon, hskip, hread, hcomma]
  cases entries fuel (skip rest) <;> rfl

/-- A first entry and those behind it are read. -/
theorem SpelledEntries.entries (h : SpelledEntries more es) (key : String) (hfirst : Spelled first v)
    (hfuel : 2 * (first.length + more.length) ≤ fuel) (rest : List Char) :
    entries fuel ((Text.json key).toList ++ ':' :: ' ' :: (first ++ (more ++ rest))) =
      some ((key, v) :: es, rest) := by
  induction h generalizing key first v fuel with
  | nil =>
    simp only [List.length_cons, List.length_nil] at hfuel
    obtain ⟨f, rfl⟩ : ∃ f, fuel = f + 1 := ⟨fuel - 1, by omega⟩
    have hread := hfirst.read f _ (by omega) (SpelledEntries.nil.stops rest)
    exact entries_last key hread (hfirst.skip _)
  | @cons name next more w es hnext hmore ih =>
    simp only [List.length_cons, List.length_append] at hfuel
    obtain ⟨f, rfl⟩ : ∃ f, fuel = f + 1 := ⟨fuel - 1, by omega⟩
    have hread := hfirst.read f _ (by omega) ((@SpelledEntries.cons name _ _ _ _ hnext hmore).stops rest)
    have hskip : skip (' ' :: ((Text.json name).toList ++ ':' :: ' ' :: (next ++ more) ++ rest)) =
        (Text.json name).toList ++ ':' :: ' ' :: (next ++ (more ++ rest)) := by
      rw [List.append_assoc, List.cons_append, List.cons_append, List.append_assoc, skip_blank]
      exact (spelled_text name).skip _
    refine (entries_next key hread (hfirst.skip _)).trans ?_
    rw [List.append_eq, List.cons_append, hskip,
      ih name hnext (show 2 * (next.length + more.length) ≤ f by omega)]
    rfl

theorem spelled_empty : Spelled ['\x7b', '\x7d'] (.object []) :=
  spelled_word (by decide) (by decide) fun _ _ => rfl

theorem spelled_object (hkeys : (((key, v) :: es).map (·.1)).Nodup) (hfirst : Spelled first v)
    (hmore : SpelledEntries more es) :
    Spelled ('\x7b' :: ((Text.json key).toList ++ ':' :: ' ' :: (first ++ more)))
      (.object ((key, v) :: es)) := by
  refine ⟨?_, ⟨_, _, rfl, by decide, by decide⟩, fun fuel rest hfuel hrest => ?_⟩
  · simp only [List.forall_mem_cons, List.forall_mem_append]
    exact ⟨by decide, Text.isPrintable_json key, by decide, by decide, hfirst.printable, hmore.printable⟩
  · simp only [List.length_cons, List.length_append] at hfuel
    obtain ⟨f, rfl⟩ : ∃ f, fuel = f + 1 := ⟨fuel - 1, by omega⟩
    have hentries := hmore.entries key hfirst (show 2 * (first.length + more.length) ≤ f by omega) rest
    have hskip := (spelled_text key).skip (':' :: ' ' :: (first ++ (more ++ rest)))
    have hassoc : (Text.json key).toList ++ ':' :: ' ' :: (first ++ more) ++ rest =
        (Text.json key).toList ++ ':' :: ' ' :: (first ++ (more ++ rest)) := by simp
    rw [List.cons_append, hassoc, value, hskip]
    split
    next heq =>
      rw [toList_json] at heq
      exact absurd (List.cons.inj heq).1 (by decide)
    next =>
      rw [hentries, Option.map_some]
      dsimp only
      rw [Datum.foldl_withEntry hkeys fun _ _ => rfl]
      rfl

end JsonRead

theorem Double.jsonChars_finite {d : Double} (h : d.isFinite = true) : d.jsonChars = d.text.toList := by
  cases d with
  | nan => cases h
  | infinite negative => cases h
  | finite => rfl

namespace Datum

open JsonRead

/-! ## Values -/

variable {xs : List Datum} {fields : List (String × Datum)} {d : Datum}

theorem jsonItems_spelled (h : ∀ x ∈ xs, ∃ cs, x.jsonChars .iso = .ok cs ∧ Spelled cs x.logged) :
    ∃ more, jsonItems .iso xs = .ok more ∧ SpelledItems more (xs.map logged) := by
  induction xs with
  | nil => exact ⟨_, rfl, .nil⟩
  | cons x xs ih =>
    obtain ⟨next, hx, hnext⟩ := h x List.mem_cons_self
    obtain ⟨more, hxs, hmore⟩ := ih fun y hy => h y (List.mem_cons_of_mem x hy)
    exact ⟨_, by rw [jsonItems, hx, hxs]; rfl, .cons hnext hmore⟩

theorem jsonEntries_spelled
    (h : ∀ e ∈ fields, ∃ cs, e.2.jsonChars .iso = .ok cs ∧ Spelled cs e.2.logged) :
    ∃ more, jsonEntries .iso (entriesOf fields) = .ok more ∧
      SpelledEntries more (fields.map fun (k, v) => (k, v.logged)) := by
  induction fields with
  | nil => exact ⟨_, rfl, .nil⟩
  | cons e rest ih =>
    obtain ⟨key, v⟩ := e
    obtain ⟨next, hv, hnext⟩ := h (key, v) List.mem_cons_self
    obtain ⟨more, hrest, hmore⟩ := ih fun e he => h e (List.mem_cons_of_mem (key, v) he)
    refine ⟨_, ?_, .cons hnext hmore⟩
    show jsonEntries .iso ((.text key, v) :: entriesOf rest) = _
    rw [jsonEntries, hv, hrest]
    rfl

/-- A value of a log is written, and its characters are read as what comes back of it. -/
theorem Loggable.spelled (h : Loggable d) : ∃ cs, d.jsonChars .iso = .ok cs ∧ Spelled cs d.logged := by
  induction h with
  | null => exact ⟨_, rfl, spelled_null⟩
  | truth b => exact ⟨_, rfl, spelled_truth b⟩
  | @int n hdigits =>
    refine ⟨_, ?_, spelled_int hdigits⟩
    rw [jsonChars, Whole.write, if_neg (Nat.not_le.mpr hdigits)]
    rfl
  | @float d hfinite =>
    refine ⟨_, ?_, spelled_double hfinite⟩
    rw [jsonChars, Double.jsonChars_finite hfinite]
  | @decimal d x hx hfinite =>
    have hlogged : (Datum.decimal d).logged = .float x := by rw [logged, hx]; rfl
    refine ⟨_, ?_, hlogged ▸ spelled_double hfinite⟩
    have hforeign : (Datum.decimal d).jsonChars .iso = Foreign.iso (.decimal d) := rfl
    rw [hforeign, Foreign.iso, hx, ← Double.jsonChars_finite hfinite]
  | text s => exact ⟨_, rfl, spelled_text s⟩
  | date d => exact ⟨_, rfl, spelled_text d.text⟩
  | stamp s => exact ⟨_, rfl, spelled_text s.text⟩
  | @list xs _ ih =>
    cases xs with
    | nil => exact ⟨_, rfl, spelled_nil⟩
    | cons x xs =>
      obtain ⟨first, hx, hfirst⟩ := ih x List.mem_cons_self
      obtain ⟨more, hxs, hmore⟩ := jsonItems_spelled fun y hy => ih y (List.mem_cons_of_mem x hy)
      refine ⟨'[' :: (first ++ more), ?_, ?_⟩
      · rw [jsonChars, hx, hxs]
        rfl
      · rw [logged, loggedItems_eq]
        exact spelled_list hfirst hmore
  | @object fields hkeys _ ih =>
    cases fields with
    | nil => exact ⟨_, rfl, spelled_empty⟩
    | cons e rest =>
      obtain ⟨key, v⟩ := e
      obtain ⟨first, hv, hfirst⟩ := ih (key, v) List.mem_cons_self
      obtain ⟨more, hrest, hmore⟩ := jsonEntries_spelled fun e he => ih e (List.mem_cons_of_mem (key, v) he)
      refine ⟨'\x7b' :: ((Text.json key).toList ++ ':' :: ' ' :: (first ++ more)), ?_, ?_⟩
      · show jsonChars .iso (.mapping ((.text key, v) :: entriesOf rest)) = _
        rw [jsonChars, hv, hrest]
        rfl
      · -- the keys stay as they are, so they are different in what comes back too
        show Spelled _ (.mapping (loggedEntries (entriesOf ((key, v) :: rest))))
        rw [loggedEntries_entriesOf]
        exact spelled_object (by simpa [Function.comp_def] using hkeys) hfirst hmore

/-- What is read as a value is the value as a text of its own. -/
theorem ofJson?_spelled {cs : List Char} (h : Spelled cs d) : ofJson? (String.ofList cs) = some d := by
  have hskip := h.skip []
  have hread := h.read (2 * cs.length + 1) [] (by omega) fun _ hc => nomatch hc
  rw [List.append_nil] at hskip hread
  unfold ofJson?
  rw [String.toList_ofList, hskip]
  dsimp only
  rw [hread]
  rfl

end Datum

end FaultDesk
