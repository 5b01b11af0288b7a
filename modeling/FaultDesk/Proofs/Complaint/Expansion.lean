import Mathlib.Data.List.TakeWhile
import FaultDesk.Complaint.Draft
import FaultDesk.Proofs.Outcome

/-!
What a template becomes. Its placeholders are found from left to right in the template alone, each
gives way to the text of its value, and all that stands between them stays as it is.
-/

namespace FaultDesk

namespace Template

/-! ## Placeholders -/

/-- What can stand between the braces of a placeholder. -/
structure IsName (name : String) : Prop where
  nonempty : name.toList ≠ []
  word : ∀ c ∈ name.toList, isWord c = true

/-- A name between double braces. -/
def mark (name : String) : List Char := '\x7b' :: '\x7b' :: (name.toList ++ ['\x7d', '\x7d'])

/-- A text that starts with a placeholder. -/
def Marked (cs : List Char) : Prop := ∃ name after, IsName name ∧ cs = mark name ++ after

/-- The text between two placeholders, or the name of one. -/
inductive Segment where
  | text (cs : List Char)
  | name (name : String)

/-- A text cut at its placeholders: each is the first one behind the end of the one before it. -/
inductive Cut : List Char → List Segment → Prop
  | tail {cs : List Char} (unmarked : ∀ i, ¬ Marked (cs.drop i)) : Cut cs [.text cs]
  | next {front after : List Char} {name : String} {segments : List Segment} (isName : IsName name)
      (first : ∀ i < front.length, ¬ Marked ((front ++ (mark name ++ after)).drop i))
      (rest : Cut after segments) : Cut (front ++ (mark name ++ after)) (.text front :: .name name :: segments)

theorem IsName.takeWhile {name : String} (h : IsName name) (after : List Char) :
    (name.toList ++ '\x7d' :: after).takeWhile isWord = name.toList := by
  rw [List.takeWhile_append_of_pos h.word, List.takeWhile_cons_of_neg (by decide), List.append_nil]

theorem IsName.dropWhile {name : String} (h : IsName name) (after : List Char) :
    (name.toList ++ '\x7d' :: after).dropWhile isWord = '\x7d' :: after := by
  rw [List.dropWhile_append_of_pos h.word, List.dropWhile_cons_of_neg (by decide)]

theorem placeholder?_mark {name : String} (h : IsName name) (after : List Char) :
    placeholder? (mark name ++ after) = some (name, after) := by
  have htext : mark name ++ after = '\x7b' :: '\x7b' :: (name.toList ++ '\x7d' :: '\x7d' :: after) := by
    simp [mark]
  have hfull : name.toList.isEmpty = false := by
    simpa using h.nonempty
  rw [htext]
  unfold placeholder?
  simp only [h.takeWhile, h.dropWhile, hfull, Bool.false_eq_true, if_false, String.ofList_toList]

/-- A placeholder is found exactly where there is one. -/
theorem placeholder?_eq_some_iff {cs after : List Char} {name : String} :
    placeholder? cs = some (name, after) ↔ IsName name ∧ cs = mark name ++ after := by
  constructor
  · intro h
    unfold placeholder? at h
    split at h
    next body =>
      dsimp only at h
      split at h
      next hbody =>
        split at h
        next => cases h
        next hfull =>
          obtain ⟨rfl, rfl⟩ := Prod.mk.inj (Option.some.inj h)
          have hsplit := List.takeWhile_append_dropWhile (p := isWord) (l := body)
          rw [hbody] at hsplit
          refine ⟨⟨?_, ?_⟩, ?_⟩
          · simpa using hfull
          · intro c hc
            rw [String.toList_ofList] at hc
            exact List.mem_takeWhile_imp hc
          · rw [mark, String.toList_ofList]
            nth_rewrite 1 [← hsplit]
            simp
      next => cases h
    next => cases h
  · rintro ⟨hname, rfl⟩
    exact placeholder?_mark hname after

theorem placeholder?_eq_none_iff {cs : List Char} : placeholder? cs = none ↔ ¬ Marked cs := by
  rw [Option.eq_none_iff_forall_ne_some, Marked]
  constructor
  · rintro h ⟨name, after, hmark⟩
    exact h (name, after) (placeholder?_eq_some_iff.mpr hmark)
  · rintro h ⟨name, after⟩ hfound
    exact h ⟨name, after, placeholder?_eq_some_iff.mp hfound⟩

/-! ## The parts of a text -/

theorem not_marked_nil : ¬ Marked [] := by
  rintro ⟨name, after, -, h⟩
  simp [mark] at h

@[simp]
theorem pieces_nil : pieces [] = [] := by
  rw [pieces]

theorem pieces_mark {name : String} (h : IsName name) (after : List Char) :
    pieces (mark name ++ after) = .named name :: pieces after := by
  have hfound := placeholder?_mark h after
  rw [mark, List.cons_append] at hfound ⊢
  rw [pieces]
  split
  next name' after' hfound' =>
    rw [hfound] at hfound'
    obtain ⟨rfl, rfl⟩ := Prod.mk.inj (Option.some.inj hfound')
    rfl
  next hnone =>
    rw [hfound] at hnone
    cases hnone

theorem pieces_cons {c : Char} {cs : List Char} (h : ¬ Marked (c :: cs)) :
    pieces (c :: cs) = .kept c :: pieces cs := by
  have hnone := placeholder?_eq_none_iff.mpr h
  rw [pieces]
  split
  next hfound =>
    rw [hnone] at hfound
    cases hfound
  next => rfl

/-- In front of the first placeholder every character stays. -/
theorem pieces_append {front back : List Char}
    (h : ∀ i < front.length, ¬ Marked ((front ++ back).drop i)) :
    pieces (front ++ back) = front.map .kept ++ pieces back := by
  induction front with
  | nil => rfl
  | cons c front ih =>
    have hhead : ¬ Marked (c :: (front ++ back)) := h 0 (by simp)
    have htail : ∀ i < front.length, ¬ Marked ((front ++ back).drop i) := by
      intro i hi
      exact h (i + 1) (by simpa using hi)
    rw [List.cons_append, pieces_cons hhead, ih htail]
    rfl

/-- Every text can be cut at its placeholders. -/
theorem exists_cut (cs : List Char) : ∃ segments, Cut cs segments := by
  induction cs using pieces.induct with
  | case1 =>
    refine ⟨_, .tail fun i => ?_⟩
    rw [List.drop_nil]
    exact not_marked_nil
  | case2 c rest name after hfound _ ih =>
    obtain ⟨hname, hcs⟩ := placeholder?_eq_some_iff.mp hfound
    obtain ⟨segments, hcut⟩ := ih
    rw [hcs]
    exact ⟨_, @Cut.next [] after name segments hname (by simp) hcut⟩
  | case3 c rest hnone ih =>
    have hhead : ¬ Marked (c :: rest) := placeholder?_eq_none_iff.mp hnone
    obtain ⟨segments, hcut⟩ := ih
    cases hcut with
    | tail hunmarked =>
      refine ⟨_, .tail fun i => ?_⟩
      cases i with
      | zero => exact hhead
      | succ i => exact hunmarked i
    | @next front after name segments hname hfirst hrest =>
      refine ⟨_, @Cut.next (c :: front) after name segments hname (fun i hi => ?_) hrest⟩
      cases i with
      | zero => exact hhead
      | succ i => exact hfirst i (by simpa using hi)

namespace Segment

/-- The parts of a segment. -/
def pieces : Segment → List Piece
  | text cs => cs.map .kept
  | name n => [.named n]

/-- The name of a segment that is one. -/
def name? : Segment → Option String
  | text _ => none
  | name n => some n

/-- What a segment becomes. -/
def chars (value : String → String) : Segment → List Char
  | text cs => cs
  | name n => (value n).toList

theorem filterMap_pieces (s : Segment) : s.pieces.filterMap Piece.name? = s.name?.toList := by
  cases s with
  | text cs =>
    induction cs with
    | nil => rfl
    | cons c cs ih => exact ih
  | name n => rfl

theorem flatMap_pieces (value : String → String) (s : Segment) :
    s.pieces.flatMap (Piece.chars value) = s.chars value := by
  cases s with
  | text cs =>
    induction cs with
    | nil => rfl
    | cons c cs ih => simpa [pieces, Piece.chars, chars] using ih
  | name n => exact List.flatMap_singleton (Piece.chars value) (.named n)

end Segment

/-- The scan cuts a text as it can be cut, which is in one way only. -/
theorem Cut.pieces_eq {cs : List Char} {segments : List Segment} (h : Cut cs segments) :
    pieces cs = segments.flatMap Segment.pieces := by
  induction h with
  | @tail cs hunmarked =>
    have hkept := @pieces_append cs [] fun i _ => by simpa using hunmarked i
    simpa [Segment.pieces] using hkept
  | @next front after name segments hname hfirst _ ih =>
    rw [pieces_append hfirst, pieces_mark hname, ih]
    simp [Segment.pieces]

theorem Cut.names_eq {cs : List Char} {segments : List Segment} (h : Cut cs segments) :
    names cs = segments.filterMap Segment.name? := by
  rw [names, h.pieces_eq, List.filterMap_flatMap]
  simp only [Segment.filterMap_pieces]
  exact (List.filterMap_eq_flatMap_toList Segment.name? segments).symm

theorem Cut.expand_eq {cs : List Char} {segments : List Segment} (h : Cut cs segments)
    (value : String → String) : expand value cs = segments.flatMap (Segment.chars value) := by
  rw [expand, h.pieces_eq, List.flatMap_assoc]
  simp only [Segment.flatMap_pieces]

end Template

namespace Draft

open Template

/-! ## Values in the place of names -/

/-- What a placeholder gives way to: the text of its value, and nothing when the name is unknown or the
value null. -/
def replacement (values : List (String × Datum)) (name : String) : Except Failure String :=
  match values.lookup name with
  | none => .ok ""
  | some .null => .ok ""
  | some v => v.written

/-- What a segment gives way to. -/
def part (values : List (String × Datum)) : Segment → Except Failure String
  | .text cs => .ok (String.ofList cs)
  | .name n => replacement values n

/-- Whether the value of a name cannot be written. -/
def isLong (values : List (String × Datum)) (name : String) : Bool :=
  ((values.lookup name).getD .null).hasLongWhole

variable {values : List (String × Datum)}

theorem replacement_eq (name : String) : replacement values name =
    if isLong values name then .error .tooManyDigits else .ok (textOf values name) := by
  unfold replacement isLong textOf
  cases values.lookup name with
  | none => rfl
  | some v => cases v <;> rfl

theorem part_eq (s : Segment) : part values s =
    if s.name?.any (isLong values) then .error .tooManyDigits
    else .ok (String.ofList (s.chars (textOf values))) := by
  cases s with
  | text cs => rfl
  | name n =>
    have htext : String.ofList (Segment.chars (textOf values) (.name n)) = textOf values n :=
      String.ofList_toList
    rw [htext]
    exact replacement_eq n

/-- One value that cannot be written is enough for the whole text to fail. -/
theorem mapM_part (segments : List Segment) : segments.mapM (part values) =
    if (segments.filterMap Segment.name?).any (isLong values) then .error .tooManyDigits
    else .ok (segments.map fun s => String.ofList (s.chars (textOf values))) := by
  induction segments with
  | nil => rfl
  | cons s segments ih =>
    rw [List.mapM_cons, ih, part_eq]
    cases hs : s.name? with
    | none =>
      rw [List.filterMap_cons_none hs, Option.any_none, if_neg Bool.false_ne_true]
      split <;> rfl
    | some n =>
      rw [List.filterMap_cons_some hs, Option.any_some, List.any_cons]
      cases isLong values n with
      | true => rfl
      | false =>
        rw [Bool.false_or, if_neg Bool.false_ne_true]
        split <;> rfl

theorem join_ofList (f : Segment → List Char) (segments : List Segment) :
    String.join (segments.map fun s => String.ofList (f s)) = String.ofList (segments.flatMap f) := by
  apply String.toList_inj.mp
  rw [String.toList_join, String.toList_ofList, List.flatMap_map]
  simp only [String.toList_ofList]

theorem filled_eq {template : String} {segments : List Segment} (h : Cut template.toList segments) :
    filled template values = (segments.mapM (part values)).map String.join := by
  have hlong : ((names template.toList).any fun name => ((values.lookup name).getD .null).hasLongWhole) =
      (segments.filterMap Segment.name?).any (isLong values) := by
    rw [h.names_eq]
    rfl
  have hfill : fill template (textOf values) =
      String.join (segments.map fun s => String.ofList (s.chars (textOf values))) := by
    rw [fill, h.expand_eq, join_ofList]
  rw [filled, hlong, hfill, mapM_part]
  split <;> rfl

/-- A text is what a template becomes: its segments one behind the other, with what stands for a name
in it as it is. -/
structure Becomes (template : String) (values : List (String × Datum)) (text : String) : Prop where
  joined : ∀ segments, Cut template.toList segments →
    (segments.mapM (part values)).map String.join = .ok text
  shown : ∀ segments, Cut template.toList segments → ∀ name, Segment.name name ∈ segments →
    ∃ s front back, replacement values name = .ok s ∧ text = front ++ s ++ back

theorem exists_join_of_mem {parts : List String} {s : String} (h : s ∈ parts) :
    ∃ front back, String.join parts = front ++ s ++ back := by
  obtain ⟨before, behind, rfl⟩ := List.append_of_mem h
  refine ⟨String.join before, String.join behind, ?_⟩
  apply String.toList_inj.mp
  simp [String.toList_join]

theorem Becomes.of_filled {template text : String} (h : filled template values = .ok text) :
    Becomes template values text where
  joined segments hcut := (filled_eq hcut).symm.trans h
  shown segments hcut name hname := by
    rw [filled_eq hcut] at h
    cases hparts : segments.mapM (part values) with
    | error e =>
      rw [hparts] at h
      cases h
    | ok parts =>
      rw [hparts] at h
      obtain rfl := Except.ok.inj h
      obtain ⟨s, hs, hpart⟩ := exists_mem_of_mapM hparts hname
      obtain ⟨front, back, hjoin⟩ := exists_join_of_mem hs
      exact ⟨s, front, back, hpart, hjoin⟩

theorem ofCandidate_ok {c : Candidate} {m : ComplaintMapping} {clientId : String}
    {submittedBy : Option String} {submittedOn : Stamp} {d : Draft}
    (h : ofCandidate c m clientId submittedBy submittedOn = .ok d) :
    filled m.titleTemplate (Draft.values c) = .ok d.title ∧
      filled m.descriptionTemplate (Draft.values c) = .ok d.description := by
  unfold ofCandidate at h
  obtain ⟨title, htitle, h⟩ := bind_eq_ok_iff.mp h
  obtain ⟨description, hdescription, h⟩ := bind_eq_ok_iff.mp h
  obtain ⟨tags, -, h⟩ := bind_eq_ok_iff.mp h
  obtain rfl := Except.ok.inj h
  exact ⟨htitle, hdescription⟩

theorem ofCandidate_ok_iff {c : Candidate} {m : ComplaintMapping} {clientId : String}
    {submittedBy : Option String} {submittedOn : Stamp} :
    (∃ d, ofCandidate c m clientId submittedBy submittedOn = .ok d) ↔
      (∃ title, filled m.titleTemplate (Draft.values c) = .ok title) ∧
        (∃ description, filled m.descriptionTemplate (Draft.values c) = .ok description) ∧
        ∃ tags, (finding c).json .shown = .ok tags := by
  unfold ofCandidate
  constructor
  · rintro ⟨d, h⟩
    obtain ⟨title, htitle, h⟩ := bind_eq_ok_iff.mp h
    obtain ⟨description, hdescription, h⟩ := bind_eq_ok_iff.mp h
    obtain ⟨tags, htags, -⟩ := bind_eq_ok_iff.mp h
    exact ⟨⟨title, htitle⟩, ⟨description, hdescription⟩, tags, htags⟩
  · rintro ⟨⟨title, htitle⟩, ⟨description, hdescription⟩, tags, htags⟩
    rw [htitle, hdescription, htags]
    exact ⟨_, rfl⟩

/-- Templates are expanded once. The placeholders are those of the template alone, each gives way to
the text of its value, and everything else stays; so it is with the title and the description of a
complaint, in which the description of a rule stands as it is even where it looks like a placeholder. -/
theorem filled_once (template : String) (values : List (String × Datum)) :
    (∃ segments, Cut template.toList segments) ∧
    (∀ segments, Cut template.toList segments →
      filled template values = (segments.mapM (part values)).map String.join) ∧
    ∀ (c : Candidate) (m : ComplaintMapping) (clientId : String) (submittedBy : Option String)
      (submittedOn : Stamp),
      ((∃ d, ofCandidate c m clientId submittedBy submittedOn = .ok d) ↔
        (∃ title, filled m.titleTemplate (Draft.values c) = .ok title) ∧
          (∃ description, filled m.descriptionTemplate (Draft.values c) = .ok description) ∧
          ∃ tags, (finding c).json .shown = .ok tags) ∧
      replacement (Draft.values c) "Description" =
        .ok (Text.orElse c.rule.base.description "Fault Detected") ∧
      ∀ d, ofCandidate c m clientId submittedBy submittedOn = .ok d →
        Becomes m.titleTemplate (Draft.values c) d.title ∧
          Becomes m.descriptionTemplate (Draft.values c) d.description := by
  refine ⟨exists_cut _, fun segments hcut => filled_eq hcut, ?_⟩
  intro c m clientId submittedBy submittedOn
  refine ⟨ofCandidate_ok_iff, rfl, fun d h => ?_⟩
  obtain ⟨htitle, hdescription⟩ := ofCandidate_ok h
  exact ⟨.of_filled htitle, .of_filled hdescription⟩

end Draft

end FaultDesk
