import FaultDesk.Config.File
import FaultDesk.Proofs.Number.Figures

/-!
A document is written in printable ASCII characters and line feeds only. The octets of such a text
read back as the text, and there is no line end in it to be replaced.
-/

namespace FaultDesk

namespace Yaml

/-- Characters none of which has to be written as an escape. -/
def Clean (cs : List Char) : Prop := ∀ c ∈ cs, isSpecial c = false

instance (cs : List Char) : Decidable (Clean cs) :=
  decidable_of_iff (cs.all (!isSpecial ·) = true) (by simp [Clean])

@[simp]
theorem clean_nil : Clean [] := fun _ hc => absurd hc List.not_mem_nil

@[simp]
theorem clean_cons {c : Char} {cs : List Char} :
    Clean (c :: cs) ↔ isSpecial c = false ∧ Clean cs := List.forall_mem_cons

@[simp]
theorem clean_append {cs ds : List Char} : Clean (cs ++ ds) ↔ Clean cs ∧ Clean ds :=
  List.forall_mem_append

@[simp]
theorem clean_reverse {cs : List Char} : Clean cs.reverse ↔ Clean cs := by
  simp only [Clean, List.mem_reverse]

theorem isSpecial_space : isSpecial ' ' = false := by decide

theorem clean_replicate (n : Nat) {c : Char} (h : isSpecial c = false) :
    Clean (List.replicate n c) := by
  intro d hd
  rw [List.eq_of_mem_replicate hd]
  exact h

theorem Clean.of_sublist {cs ds : List Char} (h : Clean ds) (hs : cs.Sublist ds) : Clean cs :=
  fun c hc => h c (hs.subset hc)

theorem Clean.flatMap {cs : List Char} {f : Char → List Char} (h : ∀ c ∈ cs, Clean (f c)) :
    Clean (cs.flatMap f) := by
  intro d hd
  obtain ⟨c, hc, hdc⟩ := List.mem_flatMap.mp hd
  exact h c hc d hdc

theorem clean_toDigits (n : Nat) : Clean (Nat.toDigits 10 n) := by
  intro c hc
  simpa using @forall_digit (fun c => !isSpecial c) (by decide) c (isDigit_of_mem_toDigits hc)

/-! ## Numbers -/

theorem clean_whole (n : Int) : Clean (toString n).toList := by
  cases n with
  | ofNat m =>
    change Clean (Nat.repr m).toList
    rw [Nat.toList_repr]
    exact clean_toDigits m
  | negSucc m =>
    change Clean ("-" ++ Nat.repr (m + 1)).toList
    rw [String.toList_append, Nat.toList_repr]
    exact clean_append.mpr ⟨by decide, clean_toDigits (m + 1)⟩

theorem clean_exponentText (l : Layout) (e : Int) : Clean (l.exponentText e) := by
  refine clean_cons.mpr ⟨?_, clean_append.mpr ⟨clean_replicate _ (by decide), clean_toDigits _⟩⟩
  split <;> decide

theorem clean_write {l : Layout} (hmark : isSpecial l.mark = false) (htail : Clean l.wholeTail)
    (s : Scaled) : Clean (l.write s) := by
  have hfigures : Clean s.figures := clean_toDigits s.digits
  unfold Layout.write
  dsimp only
  split
  next =>
    split
    next => exact clean_append.mpr ⟨clean_append.mpr ⟨hfigures, clean_replicate _ (by decide)⟩, htail⟩
    next =>
      split
      next =>
        exact clean_append.mpr ⟨hfigures.of_sublist (List.take_sublist _ _),
          clean_cons.mpr ⟨by decide, hfigures.of_sublist (List.drop_sublist _ _)⟩⟩
      next => 
        exact clean_cons.mpr ⟨by decide, clean_cons.mpr ⟨by decide,
          clean_append.mpr ⟨clean_replicate _ (by decide), hfigures⟩⟩⟩
  next =>
    refine clean_append.mpr ⟨?_, clean_cons.mpr ⟨hmark, clean_exponentText l _⟩⟩
    split
    next => exact clean_nil
    next d hd =>
      rw [hd] at hfigures
      have hpoint : Clean ['.', '0'] := by decide
      split
      next => exact clean_append.mpr ⟨hfigures, hpoint⟩
      next => exact hfigures
    next d rest hd =>
      rw [hd] at hfigures
      obtain ⟨hfirst, hrest⟩ := clean_cons.mp hfigures
      exact clean_cons.mpr ⟨hfirst, clean_cons.mpr ⟨by decide, hrest⟩⟩

theorem clean_text (d : Double) : Clean d.text.toList := by
  cases d with
  | nan => decide
  | infinite n => cases n <;> decide
  | finite n s held =>
    unfold Double.text Double.textIn
    rw [String.toList_ofList]
    refine clean_append.mpr ⟨by split <;> decide, ?_⟩
    split
    next => decide
    next => exact clean_write (by decide) (by decide) _

theorem clean_realText (d : Double) : Clean (realText d).toList := by
  unfold realText
  split
  next => decide
  next => split <;> decide
  next =>
    dsimp only
    split
    next => exact clean_text d
    next =>
      rw [String.toList_ofList]
      refine Clean.flatMap fun c hc => ?_
      split
      next => decide
      next => exact clean_cons.mpr ⟨clean_text d c hc, clean_nil⟩

/-! ## Escapes -/

theorem isSpecial_digitChar {n : Nat} (h : n < 16) : isSpecial n.digitChar.toUpper = false := by
  interval_cases n <;> decide

theorem clean_upperHex (width n : Nat) : Clean (upperHex width n) := by
  have hdigits (m : Nat) : Clean ((Nat.toDigits 16 m).map Char.toUpper) := by
    induction m using Nat.strongRecOn with
    | _ m ih =>
      rw [Nat.toDigits_eq_if (by decide)]
      split
      next hm => exact clean_cons.mpr ⟨isSpecial_digitChar hm, clean_nil⟩
      next hm =>
        rw [List.map_append]
        exact clean_append.mpr ⟨ih (m / 16) (by omega),
          clean_cons.mpr ⟨isSpecial_digitChar (by omega), clean_nil⟩⟩
  unfold upperHex Text.hex
  rw [List.map_append, List.map_replicate]
  exact clean_append.mpr ⟨clean_replicate _ (by decide), hdigits n⟩

theorem clean_escapeOf (c : Char) : Clean (escapeOf c) := by
  unfold escapeOf
  split
  next l hl =>
    obtain ⟨front, back, htable, -⟩ := List.lookup_eq_some_iff.mp hl
    have hletters : ∀ e ∈ shortEscapes, isSpecial e.2 = false := by decide
    have hentry : (c, l) ∈ shortEscapes := by
      rw [htable]
      exact List.mem_append_right _ List.mem_cons_self
    exact clean_cons.mpr ⟨by decide, clean_cons.mpr ⟨hletters _ hentry, clean_nil⟩⟩
  next =>
    have hbackslash : isSpecial '\\' = false := by decide
    have hletter : isSpecial 'x' = false ∧ isSpecial 'u' = false ∧ isSpecial 'U' = false := by decide
    simp only [apply_ite Clean, clean_cons, clean_upperHex, hbackslash, hletter]
    simp

/-! ## The pen -/

namespace Pen

/-- What has been written is clean. -/
def Clean (p : Pen) : Prop := Yaml.Clean p.done

variable {p : Pen} {cs : List Char}

theorem Clean.put (hp : p.Clean) (hcs : Yaml.Clean cs) : (p.put cs).Clean :=
  clean_append.mpr ⟨clean_reverse.mpr hcs, hp⟩

theorem Clean.newLine (hp : p.Clean) : p.newLine.Clean := clean_cons.mpr ⟨by decide, hp⟩

theorem Clean.toColumn (hp : p.Clean) (indent : Nat) : (p.toColumn indent).Clean := by
  unfold Pen.toColumn
  extract_lets q
  have hq : q.Clean := by
    unfold q
    split
    next => exact hp.newLine
    next => exact hp
  split
  next => exact hq.put (clean_replicate _ isSpecial_space)
  next => exact hq

theorem Clean.mark (hp : p.Clean) (hcs : Yaml.Clean cs) (apart leading : Bool) :
    (p.mark cs apart leading).Clean := by
  apply hp.put
  split
  next => exact hcs
  next => exact clean_cons.mpr ⟨by decide, hcs⟩

end Pen

/-! ## Texts -/

theorem runs_flatten (cs : List Char) : (runs cs).flatten = cs := by
  induction cs with
  | nil => rfl
  | cons c rest ih =>
    unfold runs
    dsimp only
    split
    next d ds more hmore =>
      rw [hmore, List.flatten_cons] at ih
      rw [← ih, apply_ite List.flatten, List.flatten_cons, List.flatten_cons, List.flatten_cons]
      exact ite_self _
    next =>
      rw [List.flatten_cons, ih, List.singleton_append]

theorem clean_of_mem_runs {cs r : List Char} (h : Clean cs) (hr : r ∈ runs cs) : Clean r := by
  rw [← runs_flatten cs] at h
  exact h.of_sublist (List.sublist_flatten_of_mem hr)

variable {p : Pen} {cs : List Char}

theorem clean_bareRuns (split : Bool) (indent : Nat) {rs : List (List Char)}
    (hrs : ∀ r ∈ rs, Clean r) (hp : p.Clean) : (bareRuns split indent rs p).Clean := by
  induction rs generalizing p with
  | nil => exact hp
  | cons r rest ih =>
    obtain ⟨hr, hrest⟩ := List.forall_mem_cons.mp hrs
    apply ih hrest
    split
    next => exact hp.toColumn indent
    next => exact hp.put hr

theorem clean_writeBare (split : Bool) (indent : Nat) (hcs : Clean cs) (hp : p.Clean) :
    (writeBare split indent cs p).Clean := by
  apply clean_bareRuns split indent fun r hr => clean_of_mem_runs hcs hr
  split
  next => exact hp
  next => exact hp.put (clean_cons.mpr ⟨isSpecial_space, clean_nil⟩)

theorem clean_singleRuns (split : Bool) (indent : Nat) (first : Bool) {rs : List (List Char)}
    (hrs : ∀ r ∈ rs, Clean r) (hp : p.Clean) : (singleRuns split indent first rs p).Clean := by
  induction rs generalizing p first with
  | nil => exact hp
  | cons r rest ih =>
    obtain ⟨hr, hrest⟩ := List.forall_mem_cons.mp hrs
    apply ih _ hrest
    split
    next =>
      have hlines {done : List Char} {q : Pen} (hq : q.Clean) :
          (done.foldl (fun p _ => p.newLine) q).Clean := by
        induction done generalizing q with
        | nil => exact hq
        | cons _ _ ih => exact ih hq.newLine
      exact (hlines hp.newLine).toColumn indent
    next =>
      split
      next => exact hp.toColumn indent
      next =>
        refine hp.put (Clean.flatMap fun c hc => ?_)
        split
        next hquote =>
          rw [hquote]
          decide
        next => exact clean_cons.mpr ⟨hr c hc, clean_nil⟩

theorem clean_writeSingle (split : Bool) (indent : Nat) (hcs : Clean cs) (hp : p.Clean) :
    (writeSingle split indent cs p).Clean := by
  refine Pen.Clean.mark (clean_singleRuns split indent true ?_ (hp.mark (by decide) true false))
    (by decide) false false
  exact fun r hr => clean_of_mem_runs hcs hr

theorem clean_breakDouble (indent : Nat) (next : Option Char) (hp : p.Clean) :
    (breakDouble indent next p).Clean := by
  have hbroken : ((p.put ['\\']).toColumn indent).Clean := (hp.put (by decide)).toColumn indent
  unfold breakDouble
  extract_lets q
  have hq : q.Clean := hbroken
  split
  next => exact hq.put (by decide)
  next => exact hq

/-- `waiting` is written as it stands, so that it has to be clean; the other characters need not. -/
theorem clean_doubleChars (split : Bool) (indent n : Nat) {waiting : List Char}
    (hwaiting : Clean waiting) (hp : p.Clean) :
    (doubleChars split indent n waiting cs p).Clean := by
  induction cs generalizing p n waiting with
  | nil => exact hp.put hwaiting
  | cons c rest ih =>
    have hescape : ((p.put waiting).put (escapeOf c)).Clean :=
      (hp.put hwaiting).put (clean_escapeOf c)
    unfold doubleChars
    extract_lets inside q q'
    split
    next =>
      apply ih (n + 1) clean_nil
      unfold q'
      split
      next => exact clean_breakDouble indent _ hescape
      next => exact hescape
    next hplain =>
      -- Only what needs no escape gets here.
      have hc : Clean [c] := clean_cons.mpr ⟨eq_false_of_ne_true fun h => hplain (Or.inl h), clean_nil⟩
      split
      next => exact ih (n + 1) hc (clean_breakDouble indent _ (hp.put hwaiting))
      next => exact ih (n + 1) (clean_append.mpr ⟨hwaiting, hc⟩) hp

theorem clean_writeDouble (split : Bool) (indent : Nat) (cs : List Char) (hp : p.Clean) :
    (writeDouble split indent cs p).Clean :=
  Pen.Clean.mark (clean_doubleChars split indent 0 clean_nil (hp.mark (by decide) true false))
    (by decide) false false

theorem clean_of_bare (h : (look cs).bare = true) : Clean cs := by
  simp only [look, Bool.not_eq_true', Bool.or_eq_false_iff] at h
  simpa [Clean] using h.1.1.2

theorem clean_of_single (h : (look cs).single = true) : Clean cs := by
  simp only [look, Bool.not_eq_true', Bool.or_eq_false_iff] at h
  simpa [Clean] using h.2

/-- A text that needs escapes stands between double quotes. -/
theorem clean_writeText (asKey : Bool) (indent : Nat) (s : String) (hp : p.Clean) :
    (writeText asKey indent s p).Clean := by
  unfold writeText
  extract_lets cs l
  split
  next h => exact clean_writeBare _ indent (clean_of_bare h.2) hp
  next =>
    split
    next h => exact clean_writeSingle _ indent (clean_of_single h.1) hp
    next => exact clean_writeDouble _ indent cs hp

/-! ## The whole document -/

theorem clean_brackets {opening closing : List Char} (hopening : Clean opening)
    (hclosing : Clean closing) (hp : p.Clean) :
    ((p.mark opening true false).mark closing false false).Clean :=
  (hp.mark hopening true false).mark hclosing false false

/-- In front of the value of an entry. -/
theorem clean_writeKey (column : Nat) (key : String) (hp : p.Clean) :
    (if isShortKey key then (writeText true (column + 2) key p).mark [':'] false false
      else ((writeText false (column + 2) key (p.mark ['?'] true true)).toColumn column).mark
        [':'] true true).Clean := by
  split
  next => exact (clean_writeText true _ key hp).mark (by decide) false false
  next =>
    have hquestion : (p.mark ['?'] true true).Clean := hp.mark (by decide) true true
    exact ((clean_writeText false _ key hquestion).toColumn column).mark (by decide) true true

theorem clean_writeDatum (inMapping : Bool) (indent : Option Nat) (d : Datum) (hp : p.Clean) :
    (write inMapping indent d p).Clean := by
  revert hp
  apply @write.induct
    (fun inMapping indent d p => p.Clean → (write inMapping indent d p).Clean)
    (fun column es p => p.Clean → (writeEntries column es p).Clean)
    (fun column xs p => p.Clean → (writeItems column xs p).Clean)
  case case1 =>
    intro _ _ p hp
    exact clean_writeBare true 0 (by decide) hp
  case case2 =>
    intro _ _ b p hp
    exact clean_writeBare true 0 (by cases b <;> decide) hp
  case case3 =>
    intro _ _ n p hp
    exact clean_writeBare true 0 (clean_whole n) hp
  case case4 =>
    intro _ _ d p hp
    exact clean_writeBare true 0 (clean_realText d) hp
  case case5 =>
    intro _ _ p hp
    exact clean_brackets (by decide) (by decide) hp
  case case6 =>
    intro _ _ x xs p column ih hp
    exact ih hp
  case case7 =>
    intro _ _ p hp
    exact clean_brackets (by decide) (by decide) hp
  case case8 =>
    intro _ _ e es p ih hp
    exact ih hp
  case case9 =>
    intro _ indent s p hp
    exact clean_writeText false _ s hp
  case case10 =>
    intro _ indent d p _ _ _ _ _ _ _ _ _ hp
    rw [write]
    next => exact clean_writeText false _ d.shown hp
    all_goals assumption
  case case11 =>
    intro _ p hp
    exact hp
  case case12 =>
    intro column x xs p ihx ihxs hp
    exact ihxs (ihx ((hp.toColumn column).mark (by decide) true true))
  case case13 =>
    intro _ p hp
    exact hp
  case case14 =>
    intro column k v es p key q r ihv ihes hp
    exact ihes (ihv (clean_writeKey column key (hp.toColumn column)))

/-- What is written of a document is clean. -/
theorem clean_print {d : Datum} {s : String} (h : print d = .ok s) : Clean s.toList := by
  unfold print at h
  split at h
  next => cases h
  next =>
    have hstart : Pen.start.Clean := clean_nil
    have hdone := (clean_writeDatum false none d hstart).toColumn 0
    cases h
    rw [Pen.text, String.toList_ofList]
    exact clean_reverse.mpr hdone

end Yaml

/-! ## Octets -/

theorem toNat_of_not_special {c : Char} (h : Yaml.isSpecial c = false) : c.toNat < 128 := by
  simp only [Yaml.isSpecial, Bool.not_eq_false', Bool.or_eq_true, beq_iff_eq, Bool.and_eq_true,
    decide_eq_true_eq] at h
  rcases h with rfl | ⟨-, hlast⟩
  · decide
  · have hle : c.toNat ≤ '~'.toNat := hlast
    exact Nat.lt_of_le_of_lt hle (by decide)

theorem unixLines_of_clean {cs : List Char} (h : Yaml.Clean cs) : unixLines cs = cs := by
  induction cs with
  | nil => rfl
  | cons c rest ih =>
    obtain ⟨hc, hrest⟩ := Yaml.clean_cons.mp h
    have hreturn : c ≠ '\r' := by
      rintro rfl
      revert hc
      decide
    rw [unixLines, ih hrest]
    next => exact fun _ he _ => hreturn he
    next => exact hreturn

namespace Utf8

theorem toList_loop (bs : ByteArray) (i : Nat) (done : List UInt8) :
    ByteArray.toList.loop bs i done = done.reverse ++ bs.data.toList.drop i := by
  fun_induction ByteArray.toList.loop bs i done with
  | case1 i done hi ih =>
    have hlength : i < bs.data.toList.length := hi
    have hget : bs.get! i = bs.data.toList[i] := by
      rw [Array.getElem_toList]
      exact getElem!_pos bs.data i hi
    rw [ih, List.drop_eq_getElem_cons hlength, hget, List.reverse_cons, List.append_assoc,
      List.singleton_append]
  | case2 i done hend =>
    rw [List.drop_eq_nil_of_le (Nat.le_of_not_lt hend), List.append_nil]

theorem toList_toUTF8 (s : String) :
    s.toUTF8.toList = s.toList.flatMap String.utf8EncodeChar := by
  rw [ByteArray.toList, toList_loop, String.toUTF8_eq_toByteArray, ← String.utf8Encode_toList,
    List.utf8Encode, List.toList_data_toByteArray]
  rfl

theorem decodeFrom_of_clean {cs : List Char} (h : Yaml.Clean cs) (position : Nat) (done : List Char) :
    decodeFrom position done (cs.flatMap String.utf8EncodeChar) = .ok (done.reverse ++ cs) := by
  induction cs generalizing position done with
  | nil =>
    rw [List.flatMap_nil, decodeFrom, List.append_nil]
  | cons c rest ih =>
    obtain ⟨hc, hrest⟩ := Yaml.clean_cons.mp h
    have hlt : c.toNat < 128 := toNat_of_not_special hc
    have hencode : String.utf8EncodeChar c = [UInt8.ofNat c.toNat] := by
      unfold String.utf8EncodeChar
      exact if_pos (Nat.le_of_lt_succ hlt)
    have hnat : (UInt8.ofNat c.toNat).toNat = c.toNat := by
      simp [Nat.mod_eq_of_lt (Nat.lt_trans hlt (by decide : 128 < 256))]
    have hfirst : UInt8.ofNat c.toNat < 0x80 := by
      rw [UInt8.lt_iff_toNat_lt, hnat]
      exact hlt
    rw [List.flatMap_cons, hencode, List.singleton_append, decodeFrom, if_pos hfirst, hnat,
      Char.ofNat_toNat, ih hrest, List.reverse_cons, List.append_assoc, List.singleton_append]

/-- The octets of a text without characters that need an escape stand for the text. -/
theorem decodePieces_of_clean {s : String} (h : Yaml.Clean s.toList) :
    decodePieces s.toUTF8.toList = .ok s := by
  have hdecode : decode s.toUTF8.toList = .ok s := by
    rw [decode, toList_toUTF8, decodeFrom_of_clean h]
    exact congrArg Except.ok (String.ofList_toList)
  rw [decodePieces, hdecode]

end Utf8

end FaultDesk
