import CaretReport.ConfigReading
import CaretReport.Host.OptionReading
import CaretReport.Proofs.Traversal

/-!
# The width that follows another

The width of child messages follows the width of messages when it is left out.
It is derived from the value as it is given, before that value is read as an
integer.  So it follows an integer and the default, but not a text, a
floating-point number or a truth value that only stands for an integer: then
child messages keep their own default.  This holds of every validation that
reads an integer as itself and gives a missing width its default, and the
validation of the host is one of them.
-/

namespace CaretReport

section Lookups

variable {Item : Type} {name other : List Char}

theorem lookup_cons_eq (key : List Char) (item : Item)
    (rest : List (List Char × Item)) :
    ((key, item) :: rest).lookup name =
      if name = key then some item else rest.lookup name := by
  by_cases same : name = key
  · simp [same]
  · rw [List.lookup_cons, beq_eq_false_iff_ne.mpr same, if_neg same]

/-- Taking entries with another name away leaves a lookup as it is. -/
theorem lookup_filter_of_ne (different : name ≠ other)
    (entries : List (List Char × Item)) :
    (entries.filter fun entry => decide (entry.1 ≠ other)).lookup name =
      entries.lookup name := by
  induction entries with
  | nil => rfl
  | cons entry rest ih =>
      obtain ⟨key, item⟩ := entry
      by_cases removed : key = other
      · have passed : name ≠ key := removed ▸ different
        rw [List.filter_cons_of_neg (by simpa using removed), ih,
          lookup_cons_eq, if_neg passed]
      · rw [List.filter_cons_of_pos (by simpa using removed), lookup_cons_eq,
          lookup_cons_eq, ih]

/-- Replacing entries with another name leaves a lookup as it is. -/
theorem lookup_map_of_ne (different : name ≠ other) (item : Item)
    (entries : List (List Char × Item)) :
    (entries.map fun entry =>
      if entry.1 = other then (entry.1, item) else entry).lookup name =
        entries.lookup name := by
  induction entries with
  | nil => rfl
  | cons entry rest ih =>
      obtain ⟨key, value⟩ := entry
      rw [List.map_cons, lookup_cons_eq]
      by_cases replaced : key = other
      · have passed : name ≠ key := replaced ▸ different
        rw [if_pos replaced, lookup_cons_eq, if_neg passed, if_neg passed, ih]
      · rw [if_neg replaced, lookup_cons_eq, ih]

theorem lookup_filter_self (entries : List (List Char × Item)) :
    (entries.filter fun entry => decide (entry.1 ≠ name)).lookup name = none := by
  rw [List.lookup_eq_none_iff]
  intro entry member
  have kept := of_decide_eq_true (List.mem_filter.mp member).2
  exact bne_iff_ne.mpr (Ne.symm kept)

end Lookups

/-- What is relied on when a validation reads a width: an integer is read as
itself, and a width that is missing has its default.  Which other values are
accepted, and what is read from them, is left open. -/
structure ReadsWidth {Fault : Type} (validate : Validation Fault) (name : String)
    (default : Nat) (width : Config → Nat) : Prop where
  whole : ∀ {fields config} {number : Int}, validate fields = .ok config →
    fields.lookup name.toList = some (.int number) → number = width config
  missing : ∀ {fields config}, validate fields = .ok config →
    fields.lookup name.toList = none → width config = default

/-- The validation reads both widths as is relied on. -/
structure ReadsWidths {Fault : Type} (validate : Validation Fault) : Prop where
  label : ReadsWidth validate "max_label_width" defaultLabelWidth
    Config.maxLabelWidth
  child : ReadsWidth validate "max_child_label_width"
    (defaultLabelWidth - childWidthReduction) Config.maxChildLabelWidth

/-- The fields leave the width of child messages out, or give nothing for it. -/
def OmitsChildWidth (fields : Fields) : Prop :=
  fields.lookup "max_child_label_width".toList = none ∨
    fields.lookup "max_child_label_width".toList = some .null

/-- The fields leave the width of messages out or give an integer for it, and
not another value that stands for one. -/
def GivesWholeWidth (fields : Fields) : Prop :=
  ∀ value, fields.lookup "max_label_width".toList = some value →
    ∃ number, value = .int number

/-- The width of child messages follows an integer width and the default width,
and is its own default beside another value. -/
def Config.DerivesChildWidth (config : Config) (fields : Fields) : Prop :=
  GivesWholeWidth fields ∧
      config.maxChildLabelWidth =
        max (config.maxLabelWidth - childWidthReduction) 1 ∨
    ¬ GivesWholeWidth fields ∧
      config.maxChildLabelWidth = defaultLabelWidth - childWidthReduction

/-- The width of messages as it is given, or the default. -/
def givenWidth (fields : Fields) : Value :=
  (fields.lookup "max_label_width".toList).getD (.int defaultLabelWidth)

def dropChildWidth (fields : Fields) : Fields :=
  fields.filter fun entry =>
    decide (entry.1 ≠ "max_child_label_width".toList)

section Filling

variable {fields : Fields}

theorem givesWholeWidth_iff :
    GivesWholeWidth fields ↔ ∃ number, givenWidth fields = .int number := by
  unfold GivesWholeWidth givenWidth
  cases fields.lookup "max_label_width".toList with
  | none => simp
  | some value => simp

/-- A missing width of child messages is derived from an integer, and nothing is
filled in beside another value. -/
theorem fillChildWidth_cases (omits : OmitsChildWidth fields) :
    (∃ number, givenWidth fields = .int number ∧ fillChildWidth fields =
      ("max_child_label_width".toList, .int (derivedChildWidth number)) ::
        dropChildWidth fields) ∨
      (∀ number, givenWidth fields ≠ .int number) ∧
        fillChildWidth fields = dropChildWidth fields := by
  unfold fillChildWidth
  -- A width that is missing and one that is nothing are filled in alike.
  rcases omits with omitted | omitted
  all_goals
    rw [omitted]
    dsimp only
    rw [← givenWidth, ← dropChildWidth]
    cases givenWidth fields with
    | int number => exact .inl ⟨number, rfl, rfl⟩
    | null | bool | float | text | list | table =>
        refine .inr ⟨?_, rfl⟩
        intro number same
        cases same

theorem lookup_fillChildWidth (omits : OmitsChildWidth fields)
    {name : List Char} (different : name ≠ "max_child_label_width".toList) :
    (fillChildWidth fields).lookup name = fields.lookup name := by
  rcases fillChildWidth_cases omits with ⟨number, _, filled⟩ | ⟨_, filled⟩
  · rw [filled, lookup_cons_eq, if_neg different]
    exact lookup_filter_of_ne different fields
  · rw [filled]
    exact lookup_filter_of_ne different fields

/-- A pair of paddings put into a table leaves other fields as they are. -/
theorem lookup_of_expandPadding? {expanded : Fields}
    (expands : expandPadding? fields = some expanded) (name : List Char)
    (different : name ≠ "trim_padding".toList) :
    expanded.lookup name = fields.lookup name := by
  unfold expandPadding? at expands
  split at expands
  · rw [← Option.some.inj expands]
    exact lookup_map_of_ne different _ fields
  · cases expands
  · rw [← Option.some.inj expands]

/-- An integer width is read as itself, and so is the default. -/
theorem ReadsWidths.eq_of_givenWidth {Fault : Type} {validate : Validation Fault}
    (reads : ReadsWidths validate) {config : Config} {number : Int}
    (accepted : validate fields = .ok config)
    (given : givenWidth fields = .int number) :
    number = config.maxLabelWidth := by
  unfold givenWidth at given
  cases found : fields.lookup "max_label_width".toList with
  | none =>
      rw [found] at given
      cases given
      exact congrArg Int.ofNat (reads.label.missing accepted found).symm
  | some value =>
      rw [found] at given
      obtain rfl : value = .int number := given
      exact reads.label.whole accepted found

end Filling

section Host

theorem readField_eq_ok_iff {Item : Type} {fields : Fields} {name : String}
    {default result : Item} {read : Value → Reading Item} :
    readField fields name default read = .ok result ↔
      fields.lookup name.toList = none ∧ default = result ∨
        ∃ value, fields.lookup name.toList = some value ∧
          read value = .ok result := by
  unfold readField
  cases found : fields.lookup name.toList with
  | none => simp
  | some value => simp

theorem readAtLeast_int_eq_ok_iff {bound : Nat} {number : Int}
    {result : AtLeast bound} : readAtLeast bound (.int number) = .ok result ↔
      number = result.val := by
  rw [readAtLeast, readInteger, bind_eq_ok_iff]
  constructor
  · rintro ⟨_, ⟨⟩, read⟩
    split at read
    · rw [← Except.ok.inj read]
      simp only
      omega
    · cases read
  · rintro rfl
    exact ⟨_, rfl, dif_pos (Int.ofNat_le.mpr result.property)⟩

/-- The validation of the host reads the two widths field by field. -/
theorem Config.widths_of_ofExactFields {fields : Fields} {config : Config}
    (read : ofExactFields fields = .ok config) :
    readField fields "max_label_width" ⟨defaultLabelWidth, by decide⟩
        (readAtLeast 1) =
          .ok ⟨config.maxLabelWidth, config.maxLabelWidth_pos⟩ ∧
      readField fields "max_child_label_width"
        ⟨defaultLabelWidth - childWidthReduction, by decide⟩ (readAtLeast 1) =
          .ok ⟨config.maxChildLabelWidth, config.maxChildLabelWidth_pos⟩ := by
  simp only [ofExactFields, Reading.apply_eq_ok_iff, Except.ok.injEq] at read
  obtain ⟨_, layout, ⟨_, split, ⟨_, policy, ⟨_, caret, ⟨_, echoed, ⟨_, padding,
    ⟨_, mode, ⟨_, trims, ⟨_, suffix, ⟨_, child, ⟨_, width, ⟨_, none, rfl, _,
    rfl⟩, reads_width, rfl⟩, reads_child, rfl⟩, _, rfl⟩, _, rfl⟩, _, rfl⟩, _,
    rfl⟩, _, rfl⟩, _, rfl⟩, _, rfl⟩, _, rfl⟩, _, rfl⟩ := read
  exact ⟨reads_width, reads_child⟩

theorem readsWidth_of_readField {Fault : Type} {validate : Validation Fault}
    {name : String} {default : AtLeast 1} {width : Config → Nat}
    (reads : ∀ {fields config}, validate fields = .ok config →
      ∃ positive, readField fields name default (readAtLeast 1) =
        .ok ⟨width config, positive⟩) :
    ReadsWidth validate name default.val width where
  whole accepted found := by
    obtain ⟨_, read⟩ := reads accepted
    rcases readField_eq_ok_iff.mp read with ⟨missing, _⟩ | ⟨value, given, read⟩
    · rw [missing] at found
      cases found
    · obtain rfl := Option.some.inj (given.symm.trans found)
      exact readAtLeast_int_eq_ok_iff.mp read
  missing accepted found := by
    obtain ⟨_, read⟩ := reads accepted
    rcases readField_eq_ok_iff.mp read with ⟨_, same⟩ | ⟨value, given, _⟩
    · exact (congrArg Subtype.val same).symm
    · rw [given] at found
      cases found

/-- The validation of the host can be relied on. -/
theorem Config.readsWidths_ofExactFields : ReadsWidths ofExactFields where
  label := readsWidth_of_readField fun read =>
    ⟨_, (widths_of_ofExactFields read).1⟩
  child := readsWidth_of_readField fun read =>
    ⟨_, (widths_of_ofExactFields read).2⟩

end Host

namespace Config

section Deriving

variable {Fault : Type} {validate : Validation Fault} {fields : Fields}
variable {config : Config} (reads : ReadsWidths validate)

include reads

theorem derivesChildWidth_of_ofFields (omits : OmitsChildWidth fields)
    (accepted : ofFields validate fields = .ok config) :
    config.DerivesChildWidth fields := by
  have same : givenWidth (fillChildWidth fields) = givenWidth fields := by
    rw [givenWidth, lookup_fillChildWidth omits (by decide), givenWidth]
  rw [DerivesChildWidth, givesWholeWidth_iff]
  rcases fillChildWidth_cases omits with ⟨number, given, filled⟩ |
    ⟨other, filled⟩
  · refine .inl ⟨⟨number, given⟩, ?_⟩
    have width := reads.eq_of_givenWidth accepted (same.trans given)
    have child : derivedChildWidth number = config.maxChildLabelWidth :=
      reads.child.whole accepted (by rw [filled, lookup_cons_eq, if_pos rfl])
    rw [derivedChildWidth] at child
    omega
  · refine .inr ⟨fun ⟨number, given⟩ => other number given, ?_⟩
    apply reads.child.missing accepted
    rw [filled]
    exact lookup_filter_self fields

theorem derivesChildWidth_of_ofMapping (omits : OmitsChildWidth fields)
    (accepted : ofMapping validate fields = .ok config) :
    config.DerivesChildWidth fields := by
  obtain ⟨expanded, expands, validated⟩ : ∃ expanded,
      expandPadding? fields = some expanded ∧
        ofFields validate expanded = .ok config := by
    unfold ofMapping at accepted
    split at accepted
    · rename_i expanded expands
      exact ⟨expanded, expands, mapError_eq_ok_iff.mp accepted⟩
    · cases accepted
  have child := lookup_of_expandPadding? expands "max_child_label_width".toList
    (by decide)
  have width := lookup_of_expandPadding? expands "max_label_width".toList
    (by decide)
  have still_omits : OmitsChildWidth expanded := by
    rwa [OmitsChildWidth, child]
  have same : GivesWholeWidth expanded ↔ GivesWholeWidth fields := by
    rw [GivesWholeWidth, width, GivesWholeWidth]
  rw [DerivesChildWidth, ← same]
  exact derivesChildWidth_of_ofFields reads still_omits validated

/-- If the width of child messages is missing from accepted fields, it follows
the width of messages exactly when that is missing or an integer itself, or
stands for the default.  Beside another value it is its own default. -/
theorem childWidth_follows_iff (omits : OmitsChildWidth fields)
    (accepted : ofFields validate fields = .ok config ∨
      ofMapping validate fields = .ok config) :
    (config.maxChildLabelWidth =
        max (config.maxLabelWidth - childWidthReduction) 1 ↔
      GivesWholeWidth fields ∨ config.maxLabelWidth = defaultLabelWidth) ∧
      (¬ GivesWholeWidth fields → config.maxChildLabelWidth =
        defaultLabelWidth - childWidthReduction) := by
  have derives : config.DerivesChildWidth fields :=
    accepted.elim (derivesChildWidth_of_ofFields reads omits)
      (derivesChildWidth_of_ofMapping reads omits)
  rcases derives with ⟨whole, follows⟩ | ⟨other, own⟩
  · exact ⟨iff_of_true follows (.inl whole), fun other => absurd whole other⟩
  · refine ⟨?_, fun _ => own⟩
    rw [own, or_iff_right other]
    simp only [defaultLabelWidth, childWidthReduction]
    omega

end Deriving

/-- Messages of width one, given as a truth value, leave child messages at their
default width. -/
theorem childWidth_follows_iff_truth :
    let fields : Fields := [("max_label_width".toList, .bool true)]
    let config : Config := { maxLabelWidth := 1, maxLabelWidth_pos := by decide }
    ReadsWidths ofExactFields ∧ OmitsChildWidth fields ∧
      ofFields ofExactFields fields = .ok config ∧
      ¬ GivesWholeWidth fields ∧ config.maxChildLabelWidth = 26 := by
  intro fields config
  have omits : OmitsChildWidth fields := .inl (by decide)
  have read : ofFields ofExactFields fields = .ok config := by rfl
  have other : ¬ GivesWholeWidth fields := by
    intro whole
    obtain ⟨number, same⟩ := whole (.bool true) rfl
    cases same
  exact ⟨readsWidths_ofExactFields, omits, read, other,
    (childWidth_follows_iff readsWidths_ofExactFields omits (.inl read)).2 other⟩

/-- A width given as text is accepted, and child messages are wider than the
messages they belong to. -/
theorem childWidth_keeps_default_text :
    let fields : Fields := [("max_label_width".toList, .text "10".toList)]
    let config : Config := { maxLabelWidth := 10, maxLabelWidth_pos := by decide }
    ofMapping ofExactFields fields = .ok config ∧ OmitsChildWidth fields ∧
      config.maxChildLabelWidth ≠
        max (config.maxLabelWidth - childWidthReduction) 1 := by
  intro fields config
  exact ⟨by rfl, .inl (by decide), by decide⟩

end Config

end CaretReport
