import FaultDesk.Proofs.Config.Reread
import FaultDesk.Proofs.Yaml.PrintedText

/-!
Saving a configuration and loading it again. What comes back is the checked configuration, with the
fixed fields of complaints in the form of a plain document; those that have that form already come
back unchanged.
-/

namespace FaultDesk

/-! ## Plain documents -/

namespace Datum

mutual

/-- Whether a value is a tree of mappings with text keys, lists, texts, numbers, truths and null. -/
def isDocument : Datum → Bool
  | .null => true
  | .truth _ => true
  | .int _ => true
  | .float _ => true
  | .text _ => true
  | .list xs => areDocuments xs
  | .mapping es => areFields [] es
  | _ => false

def areDocuments : List Datum → Bool
  | [] => true
  | x :: xs => isDocument x && areDocuments xs

/-- Whether entries have text keys, each once and none of those before. -/
def areFields (before : List String) : List (Datum × Datum) → Bool
  | [] => true
  | (.text k, v) :: es => !before.contains k && isDocument v && areFields (k :: before) es
  | _ => false

end

theorem plainEntries_cons {done es : List (Datum × Datum)} {key : String} {v : Datum}
    (hv : plain v = .ok v) (hnew : lookup key done = none) :
    plainEntries done ((.text key, v) :: es) = plainEntries (done ++ [(.text key, v)]) es := by
  rw [plainEntries, plainKey, hv]
  change plainEntries (withEntry done key v) es = _
  rw [withEntry_eq_append hnew]

/-- A plain document is its own plain form. -/
theorem plain_of_isDocument {d : Datum} (h : d.isDocument = true) : d.plain = .ok d := by
  revert h
  -- Entries are written behind those that are done, whose keys are all among the ones before.
  apply @isDocument.induct
    (fun d => d.isDocument = true → d.plain = .ok d)
    (fun before es => areFields before es = true → ∀ done : List (Datum × Datum),
      (∀ k, k ∉ before → lookup k done = none) → plainEntries done es = .ok (done ++ es))
    (fun xs => areDocuments xs = true → plainItems xs = .ok xs)
  case case1 => exact fun _ => rfl
  case case2 => exact fun _ _ => rfl
  case case3 => exact fun _ _ => rfl
  case case4 => exact fun _ _ => rfl
  case case5 => exact fun _ _ => rfl
  case case6 =>
    intro xs ih h
    exact congrArg (Except.map list) (ih h)
  case case7 =>
    intro es ih h
    exact congrArg (Except.map mapping) (ih h [] fun _ _ => rfl)
  case case8 =>
    intro d _ _ _ _ _ _ _ h
    rw [isDocument] at h
    next => cases h
    all_goals assumption
  case case9 => exact fun _ => rfl
  case case10 =>
    intro x xs ihx ihxs h
    obtain ⟨hx, hxs⟩ := Bool.and_eq_true_iff.mp h
    rw [plainItems, ihx hx, ihxs hxs]
    rfl
  case case11 =>
    intro before _ done _
    exact congrArg Except.ok (List.append_nil done).symm
  case case12 =>
    intro before k v es ihv ihes h done hdone
    obtain ⟨hkv, hes⟩ := Bool.and_eq_true_iff.mp h
    obtain ⟨hnew, hv⟩ := Bool.and_eq_true_iff.mp hkv
    have hk : k ∉ before := by simpa using hnew
    have hmore := ihes hes (done ++ [(text k, v)]) fun k' hk' => by
      obtain ⟨hne, hk'⟩ : k' ≠ k ∧ k' ∉ before := by simpa using hk'
      exact lookup_concat_eq_none (hdone k' hk') hne
    rw [plainEntries_cons (ihv hv) (hdone k hk), hmore, List.append_assoc]
    rfl
  case case13 =>
    intro es before _ _ h
    rw [areFields] at h
    next => cases h
    all_goals assumption

end Datum

/-! ## Files -/

theorem Yaml.print_of_digits {d : Datum} (h : hasTooManyDigits d = false) : ∃ s, print d = .ok s :=
  ⟨_, if_neg (by rw [h]; exact Bool.false_ne_true)⟩

namespace Config

/-- The configuration in a file, for a given way of reading the document in a text. -/
def loadWith (read : String → Yaml.Outcome (Option Datum)) (file : Option (List UInt8)) :
    Except FileFault Config :=
  match file with
  | none => .error .missing
  | some bs =>
    match Utf8.decodePieces bs with
    | .error f => .error (.failed (.notUtf8 f))
    | .ok s =>
      match read (String.ofList (unixLines s.toList)) with
      | .error .malformed => .error .malformed
      | .error (.failed f) => .error (.failed f)
      | .ok d => ofDocument d

theorem load_eq : load = loadWith Yaml.read := rfl

/-- The configuration that comes back, with given fixed fields of complaints. -/
def reloaded (c : Config) (ds : List (String × Datum)) : Config :=
  { c.filled with complaints := { c.complaints with defaults := ds } }

variable {read : String → Yaml.Outcome (Option Datum)} {c : Config} {ds : List (String × Datum)}
  {s : String}

theorem layout_of_plain (hplain : (Datum.object c.complaints.defaults).plain = .ok (.object ds)) :
    c.layout false = .ok (c.layoutWith false (.object ds)) := by
  rw [layout, hplain]
  rfl

/-- The text of a document that is read as the document is loaded as what the document holds. -/
theorem Sound.load_text (hc : c.Sound)
    (hprint : Yaml.print (c.layoutWith false (.object ds)) = .ok s)
    (hread : read s = .ok (some (c.layoutWith false (.object ds)))) :
    loadWith read (some s.toUTF8.toList) = .ok (c.reloaded ds) := by
  have hclean := Yaml.clean_print hprint
  have hdocument : ofDocument (some (c.layoutWith false (.object ds))) = .ok (c.reloaded ds) := by
    have hholds : (c.layoutWith false (.object ds)).holds = true := rfl
    rw [ofDocument, Option.getD_some, if_pos hholds, hc.check_layoutWith]
    rfl
  rw [loadWith, Utf8.decodePieces_of_clean hclean]
  dsimp only
  rw [unixLines_of_clean hclean, String.ofList_toList, hread]
  exact hdocument

theorem save_of_print {raw : Datum} (file : Option String) (hcheck : check raw = .ok c)
    (hplain : (Datum.object c.complaints.defaults).plain = .ok (.object ds))
    (hprint : Yaml.print (c.layoutWith false (.object ds)) = .ok s) :
    save raw file = (.ok c, some s) := by
  have hprinted : c.print = .ok s := by
    rw [print, layout_of_plain hplain]
    exact hprint
  rw [save, hcheck]
  dsimp only
  rw [hprinted]

/-- A checked configuration is saved, and is loaded as it was but for its fixed fields of complaints,
which come back in the form of a plain document. -/
theorem load_save {raw : Datum} (file : Option String) (hcheck : check raw = .ok c)
    (hread : ∀ d s, c.layout false = .ok d → Yaml.print d = .ok s → read s = .ok (some d)) :
    (∀ ds, (Datum.object c.complaints.defaults).plain = .ok (.object ds) →
      Yaml.hasTooManyDigits (c.layoutWith false (.object ds)) = false →
      ∃ s, save raw file = (.ok c, some s) ∧
        loadWith read (some s.toUTF8.toList) = .ok (c.reloaded ds)) ∧
    ((Datum.object c.complaints.defaults).isDocument = true →
      Yaml.hasTooManyDigits (c.layoutWith false (.object c.complaints.defaults)) = false →
      ∃ s, save raw file = (.ok c, some s) ∧
        loadWith read (some s.toUTF8.toList) = .ok c.filled) := by
  have hsaved {ds : List (String × Datum)}
      (hplain : (Datum.object c.complaints.defaults).plain = .ok (.object ds))
      (hdigits : Yaml.hasTooManyDigits (c.layoutWith false (.object ds)) = false) :
      ∃ s, save raw file = (.ok c, some s) ∧
        loadWith read (some s.toUTF8.toList) = .ok (c.reloaded ds) := by
    obtain ⟨s, hprint⟩ := Yaml.print_of_digits hdigits
    exact ⟨s, save_of_print file hcheck hplain hprint,
      (check_sound hcheck).load_text hprint (hread _ s (layout_of_plain hplain) hprint)⟩
  exact ⟨fun _ hplain hdigits => hsaved hplain hdigits,
    fun hdocument hdigits => hsaved (Datum.plain_of_isDocument hdocument) hdigits⟩

/-- A way of reading that knows the text of one document. -/
def readKnown (d : Datum) (s : String) : Yaml.Outcome (Option Datum) :=
  if Yaml.print d = .ok s then .ok (some d) else Yaml.read s

theorem readKnown_of_layout {d : Datum} (hlayout : c.layout false = .ok d) :
    ∀ d' s, c.layout false = .ok d' → Yaml.print d' = .ok s → readKnown d s = .ok (some d') := by
  intro d' s hlayout' hprint
  rw [hlayout] at hlayout'
  obtain rfl := Except.ok.inj hlayout'
  exact if_pos hprint

/-- A rule of each kind, and two fixed fields of complaints. -/
def zonedRules : Datum :=
  .mapping [
    (.text "ruleSets", .mapping [
      (.text "diRules", .mapping [(.text "rules", .list [.mapping [(.text "tag", .int 8),
        (.text "condition", .text "equals"), (.text "value", .int 0), (.text "duration", .text "5m")]])]),
      (.text "aiRules", .mapping [(.text "rules", .list [.mapping [(.text "kind", .text "rate"),
        (.text "tag", .text "Tag3"), (.text "condition", .text "gt"), (.text "value", .int 10)]])])]),
    (.text "masterRules", .list [.mapping [(.text "tag", .text "Tag16"), (.text "value", .text "0")]]),
    (.text "closedStatuses", .list [.text "done"]),
    (.text "cmsMapping", .mapping [(.text "defaults", .mapping [(.text "zone", .text "North"),
      (.text "crews", .list [.int 4, .null])])])]

theorem zoned_load_save :
    ∃ (c : Config) (read : String → Yaml.Outcome (Option Datum)) (s : String),
      check zonedRules = .ok c ∧
      (∀ d s, c.layout false = .ok d → Yaml.print d = .ok s → read s = .ok (some d)) ∧
      (Datum.object c.complaints.defaults).isDocument = true ∧
      Yaml.hasTooManyDigits (c.layoutWith false (.object c.complaints.defaults)) = false ∧
      save zonedRules none = (.ok c, some s) ∧
      loadWith read (some s.toUTF8.toList) = .ok c.filled := by
  have hform : (check zonedRules).toOption.map (fun c =>
      ((Datum.object c.complaints.defaults).isDocument,
        Yaml.hasTooManyDigits (c.layoutWith false (.object c.complaints.defaults)))) =
        some (true, false) := by decide +kernel
  obtain ⟨c, hcheck, hform⟩ := ok_of_toOption hform
  obtain ⟨hdocument, hdigits⟩ := Prod.mk.inj hform
  have hread := readKnown_of_layout (layout_of_plain (Datum.plain_of_isDocument hdocument))
  obtain ⟨s, hsave, hload⟩ := (load_save none hcheck hread).2 hdocument hdigits
  exact ⟨c, _, s, hcheck, hread, hdocument, hdigits, hsave, hload⟩

/-- The standard configuration with one fixed field of complaints. -/
def installedAt (v : Datum) : Config :=
  { standard with complaints := { ComplaintMapping.standard with defaults := [("installed", v)] } }

def installedRules (v : Datum) : Datum :=
  .mapping [(.text "cmsMapping", .mapping [(.text "defaults", .mapping [(.text "installed", v)])])]

/-- Eight in the morning of the first of March 2025. -/
def installTime : Datum := .stamp ⟨63876412800000000, none⟩

/-- A time comes back as a text, so that the two configurations differ. -/
theorem dated_load_save :
    ∃ (read : String → Yaml.Outcome (Option Datum)) (s : String),
      check (installedRules installTime) = .ok (installedAt installTime) ∧
      (∀ d s, (installedAt installTime).layout false = .ok d → Yaml.print d = .ok s →
        read s = .ok (some d)) ∧
      save (installedRules installTime) none = (.ok (installedAt installTime), some s) ∧
      loadWith read (some s.toUTF8.toList) = .ok (installedAt (.text "2025-03-01T08:00:00")) ∧
      (installedAt installTime).same (installedAt (.text "2025-03-01T08:00:00")) = false := by
  have hcheck : check (installedRules installTime) = .ok (installedAt installTime) := rfl
  have htext : (Stamp.mk 63876412800000000 none).textZ = "2025-03-01T08:00:00" := by decide +kernel
  have hplain : (Datum.object (installedAt installTime).complaints.defaults).plain =
      .ok (.object [("installed", .text "2025-03-01T08:00:00")]) := by
    rw [← htext]
    rfl
  have hread := readKnown_of_layout (layout_of_plain hplain)
  have hdigits : Yaml.hasTooManyDigits ((installedAt installTime).layoutWith false
      (.object [("installed", .text "2025-03-01T08:00:00")])) = false := by
    decide +kernel
  obtain ⟨s, hprint⟩ := Yaml.print_of_digits hdigits
  exact ⟨_, s, hcheck, hread, save_of_print none hcheck hplain hprint,
    (check_sound hcheck).load_text hprint (hread _ s (layout_of_plain hplain) hprint),
    by decide +kernel⟩

end Config

end FaultDesk
