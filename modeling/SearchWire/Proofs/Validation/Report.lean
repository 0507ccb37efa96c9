import Mathlib.Data.List.Basic
import SearchWire.Validation.Failure

/-!
# What a report holds

A report keeps every finding it is offered, so it has a fatal finding exactly
when a fatal one was offered: leaving out repetitions never hides a refusal.
Findings are only ever added at the end (`Report.prefix_addAll`), and to gather
them in a report of their own and to add that report comes to the same
(`Report.addAll_eq_extend`).
Findings about the parts of a list show a position, and `position_eq_of_digits`
says that it can be read off them.
-/

namespace SearchWire

/-- A position reads the same only as itself, whatever follows its bracket. -/
theorem position_eq_of_digits {first second : Nat} {rest other : List Char}
    (h : Nat.toDigits 10 first ++ ']' :: rest = Nat.toDigits 10 second ++ ']' :: other) :
    first = second := by
  have hdigits (position : Nat) (after : List Char) :
      (Nat.toDigits 10 position ++ ']' :: after).takeWhile Char.isDigit =
        Nat.toDigits 10 position := by
    rw [List.takeWhile_append_of_pos fun c hc =>
        Nat.isDigit_of_mem_toDigits (by decide) (by decide) hc,
      List.takeWhile_cons_of_neg (by decide), List.append_nil]
  have hsame : Nat.toDigits 10 first = Nat.toDigits 10 second := by
    rw [← hdigits first rest, h, hdigits]
  rw [← Nat.ofDigitChars_ten_toDigits (n := first), hsame, Nat.ofDigitChars_ten_toDigits]

/-- Some finding of a list is fatal. -/
def HasFatal (findings : List Finding) : Prop :=
  ∃ finding ∈ findings, finding.fatal = true

@[simp] theorem hasFatal_nil : ¬ HasFatal [] := by
  simp [HasFatal]

@[simp] theorem hasFatal_append {first second : List Finding} :
    HasFatal (first ++ second) ↔ HasFatal first ∨ HasFatal second := by
  simp only [HasFatal, List.mem_append, or_and_right, exists_or]

namespace Report

/-- Adding findings adds exactly these. -/
theorem mem_findings_addAll {report : Report} {findings : List Finding} {finding : Finding} :
    finding ∈ (report.addAll findings).findings ↔
      finding ∈ report.findings ∨ finding ∈ findings := by
  induction findings generalizing report with
  | nil => simp [addAll]
  | cons first rest ih =>
      have hstep : report.addAll (first :: rest) = (report.add first).addAll rest := rfl
      rw [hstep, ih, mem_findings_add, List.mem_cons, or_assoc]

/-- A report holds exactly the findings it is made of. -/
theorem mem_findings_ofList {findings : List Finding} {finding : Finding} :
    finding ∈ (ofList findings).findings ↔ finding ∈ findings := by
  simp [ofList, mem_findings_addAll, empty]

/-- A report is fatal exactly when a finding it is made of is. -/
theorem isFatal_ofList_iff {findings : List Finding} :
    (ofList findings).isFatal = true ↔ HasFatal findings := by
  simp only [isFatal, List.any_eq_true, mem_findings_ofList, HasFatal]

/-- Findings that a test leaves out might as well not have been added. -/
theorem filter_findings_addAll {keeps : Finding → Bool} {report kept : Report}
    {findings : List Finding} (h : report.findings.filter keeps = kept.findings) :
    (report.addAll findings).findings.filter keeps =
      (kept.addAll (findings.filter keeps)).findings := by
  induction findings generalizing report kept with
  | nil => exact h
  | cons first rest ih =>
      have hmem : keeps first = true → (first ∈ kept.findings ↔ first ∈ report.findings) := by
        intro hkeeps
        rw [← h, List.mem_filter, and_iff_left hkeeps]
      by_cases hkeeps : keeps first = true
      · rw [List.filter_cons_of_pos hkeeps]
        refine @ih (report.add first) (kept.add first) ?_
        rw [findings_add, findings_add]
        by_cases hpresent : first ∈ report.findings
        · rw [if_pos hpresent, if_pos ((hmem hkeeps).2 hpresent), h]
        · rw [if_neg hpresent, if_neg (mt (hmem hkeeps).1 hpresent), List.filter_append, h,
            List.filter_cons_of_pos hkeeps, List.filter_nil]
      · rw [List.filter_cons_of_neg hkeeps]
        refine @ih (report.add first) kept ?_
        rw [findings_add]
        split
        · exact h
        · rw [List.filter_append, List.filter_cons_of_neg hkeeps, List.filter_nil, List.append_nil,
            h]

/-- The findings of a report that pass a test are those of the report of the findings that do. -/
theorem filter_findings_ofList (keeps : Finding → Bool) (findings : List Finding) :
    (ofList findings).findings.filter keeps = (ofList (findings.filter keeps)).findings :=
  filter_findings_addAll rfl

/-- Adding findings that are all different and new puts them at the end. -/
theorem findings_addAll_of_nodup {report : Report} {findings : List Finding}
    (h : (report.findings ++ findings).Nodup) :
    (report.addAll findings).findings = report.findings ++ findings := by
  induction findings generalizing report with
  | nil => exact (List.append_nil _).symm
  | cons first rest ih =>
      have hnew : first ∉ report.findings := fun hmem =>
        (List.nodup_append.1 h).2.2 first hmem first List.mem_cons_self rfl
      have hadd : (report.add first).findings = report.findings ++ [first] := by
        rw [findings_add, if_neg hnew]
      have hall : report.findings ++ first :: rest = (report.add first).findings ++ rest := by
        rw [hadd, List.append_assoc, List.singleton_append]
      rw [hall] at h ⊢
      exact ih h

/-- A report of different findings has them all, in order. -/
theorem findings_ofList_of_nodup {findings : List Finding} (h : findings.Nodup) :
    (ofList findings).findings = findings :=
  findings_addAll_of_nodup h

/-! ## Reports one after another -/

theorem addAll_append (report : Report) (first second : List Finding) :
    report.addAll (first ++ second) = (report.addAll first).addAll second :=
  List.foldl_append

theorem addAll_cons (report : Report) (first : Finding) (rest : List Finding) :
    report.addAll (first :: rest) = (report.add first).addAll rest := rfl

/-- Adding a finding that is present changes nothing. -/
theorem add_of_mem {report : Report} {finding : Finding} (h : finding ∈ report.findings) :
    report.add finding = report :=
  dif_pos h

theorem prefix_add (report : Report) (finding : Finding) :
    report.findings <+: (report.add finding).findings := by
  rw [findings_add]
  split
  · exact List.prefix_refl _
  · exact List.prefix_append _ _

/-- Adding findings leaves those that are there in front. -/
theorem prefix_addAll (report : Report) (findings : List Finding) :
    report.findings <+: (report.addAll findings).findings := by
  induction findings generalizing report with
  | nil => exact List.prefix_refl _
  | cons first rest ih => exact (report.prefix_add first).trans (ih (report.add first))

/-- To gather further findings and then add all that has been gathered is to add what was gathered
before and then the further ones. -/
theorem extend_addAll (report gathered : Report) (findings : List Finding) :
    report.extend (gathered.addAll findings) = (report.extend gathered).addAll findings := by
  induction findings generalizing gathered with
  | nil => rfl
  | cons first rest ih =>
      rw [addAll_cons, addAll_cons, ih]
      by_cases hpresent : first ∈ gathered.findings
      · have hadded : first ∈ (report.extend gathered).findings :=
          mem_findings_addAll.2 (.inr hpresent)
        rw [add_of_mem hpresent, add_of_mem hadded]
      · have hgathered : (gathered.add first).findings = gathered.findings ++ [first] := by
          rw [findings_add, if_neg hpresent]
        rw [extend, hgathered, addAll_append]
        rfl

/-- To add findings is to add a report of them. -/
theorem addAll_eq_extend (report : Report) (findings : List Finding) :
    report.addAll findings = report.extend (ofList findings) :=
  (extend_addAll report empty findings).symm

/-- A change that keeps different findings different changes a report finding by finding. -/
theorem findings_addAll_map {change : Finding → Finding} (hchange : Function.Injective change)
    {report changed : Report} (h : changed.findings = report.findings.map change)
    (findings : List Finding) :
    (changed.addAll (findings.map change)).findings =
      (report.addAll findings).findings.map change := by
  induction findings generalizing report changed with
  | nil => exact h
  | cons first rest ih =>
      rw [List.map_cons, addAll_cons, addAll_cons]
      refine ih ?_
      have hmem : change first ∈ changed.findings ↔ first ∈ report.findings := by
        rw [h, List.mem_map_of_injective hchange]
      rw [findings_add, findings_add]
      by_cases hpresent : first ∈ report.findings
      · rw [if_pos hpresent, if_pos (hmem.2 hpresent), h]
      · rw [if_neg hpresent, if_neg (mt hmem.1 hpresent), h, List.map_append, List.map_singleton]

theorem findings_ofList_map {change : Finding → Finding} (hchange : Function.Injective change)
    (findings : List Finding) :
    (ofList (findings.map change)).findings = (ofList findings).findings.map change :=
  findings_addAll_map hchange rfl findings

/-! ## Refusals -/

/-- A fatal report refuses a text as a whole. -/
theorem whenSound_of_fatal {α : Type} {report : Report} (h : report.isFatal = true) (text : α) :
    report.whenSound text = .error (.invalid report) := by
  simp [whenSound, verdict, h]

/-- A report without fatal findings passes a text. -/
theorem whenSound_of_not_fatal {α : Type} {report : Report} (h : ¬ report.isFatal = true)
    (text : α) : report.whenSound text = .ok text := by
  simp [whenSound, verdict, h]

/-- A text that is passed is the one that was given. -/
theorem eq_of_whenSound_eq_ok {α : Type} {report : Report} {text passed : α}
    (h : report.whenSound text = .ok passed) : passed = text := by
  by_cases hfatal : report.isFatal = true
  · rw [whenSound_of_fatal hfatal] at h
    cases h
  · rw [whenSound_of_not_fatal hfatal] at h
    exact (Except.ok.inj h).symm

/-- A text that is refused is refused with the report. -/
theorem eq_of_whenSound_eq_error {α : Type} {report : Report} {text : α} {failure : Failure}
    (h : report.whenSound text = .error failure) : failure = .invalid report := by
  by_cases hfatal : report.isFatal = true
  · rw [whenSound_of_fatal hfatal] at h
    exact (Except.error.inj h).symm
  · rw [whenSound_of_not_fatal hfatal] at h
    cases h

end Report

end SearchWire
