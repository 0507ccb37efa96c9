import Mathlib.Data.Finset.Card
import SearchWire.Proofs.Validation.Report

/-!
# Reports under every history

A report is built by adding findings one at a time and by merging in reports
that are built in the same way. `Report.findings_add_eq` is what one addition
does to the first occurrences of what has been offered, and `History.report_eq`
carries it through every history: the report is the one made of all findings
that were offered, however deep the merged reports nest.
`History.report_orderedSet` says what follows for the findings, the fatal ones
among them and the verdict, and which laws merging obeys.
-/

namespace SearchWire

/-- The messages of the fatal findings of a list, in order. -/
def fatalMessages (findings : List Finding) : List String :=
  (findings.filter (·.fatal)).map (·.message)

namespace Report

/-! ## First occurrences -/

/-- An addition to the first occurrences of what was offered leaves the first occurrences of what
has been offered then. -/
theorem findings_add_eq {report : Report} {offered : List Finding}
    (h : report.findings = offered.eraseDups) (finding : Finding) :
    (report.add finding).findings = (offered ++ [finding]).eraseDups := by
  have hmem : finding ∈ report.findings ↔ finding ∈ offered := by
    rw [h, List.mem_eraseDups]
  rw [findings_add, List.eraseDups_append, ← h]
  by_cases hpresent : finding ∈ offered
  · have hnothing : [finding].removeAll offered = [] := by simp [List.removeAll, hpresent]
    rw [if_pos (hmem.2 hpresent), hnothing, List.eraseDups_nil, List.append_nil]
  · have hsingle : [finding].removeAll offered = [finding] := by
      simp [List.removeAll, hpresent]
    rw [if_neg (mt hmem.1 hpresent), hsingle]
    rfl

/-- The last of the findings of which a report is made is added to the report of the others. -/
theorem ofList_concat (findings : List Finding) (finding : Finding) :
    ofList (findings ++ [finding]) = (ofList findings).add finding :=
  addAll_append empty findings [finding]

/-- A report has the first occurrences of the findings that it is made of. -/
theorem findings_ofList_eq (findings : List Finding) :
    (ofList findings).findings = findings.eraseDups := by
  induction findings using List.reverseRecOn with
  | nil => rfl
  | append_singleton offered finding ih =>
      rw [ofList_concat]
      exact findings_add_eq ih finding

/-! ## Fatal findings -/

/-- A fatal message is that of a fatal finding. -/
theorem mem_fatalMessages {findings : List Finding} {message : String} :
    message ∈ fatalMessages findings ↔ ⟨message, true⟩ ∈ findings := by
  constructor
  · intro h
    obtain ⟨⟨_, fatal⟩, hmem, rfl⟩ := List.mem_map.1 h
    obtain ⟨hfinding, rfl⟩ := List.mem_filter.1 hmem
    exact hfinding
  · intro h
    exact List.mem_map.2 ⟨_, List.mem_filter.2 ⟨h, rfl⟩, rfl⟩

/-- Different fatal findings have different messages. -/
theorem nodup_fatalMessages (report : Report) : (fatalMessages report.findings).Nodup := by
  refine (report.nodup.filter _).map_on ?_
  rintro ⟨message, fatal⟩ hfirst ⟨_, other⟩ hsecond rfl
  obtain rfl : fatal = true := (List.mem_filter.1 hfirst).2
  obtain rfl : other = true := (List.mem_filter.1 hsecond).2
  rfl

/-- The fatal findings of a report are as many as the different fatal messages that it is made
of. -/
theorem fatalCount_ofList (findings : List Finding) :
    (ofList findings).fatalCount = (fatalMessages findings).toFinset.card := by
  have hsame : (fatalMessages findings).toFinset =
      (fatalMessages (ofList findings).findings).toFinset := by
    ext message
    rw [List.mem_toFinset, List.mem_toFinset, mem_fatalMessages, mem_fatalMessages,
      mem_findings_ofList]
  rw [hsame, List.toFinset_card_of_nodup (nodup_fatalMessages _), fatalMessages, List.length_map,
    ← List.countP_eq_length_filter]
  rfl

/-- A verdict refuses the report itself, and only when it is fatal. -/
theorem verdict_eq_error_iff {report whole : Report} :
    report.verdict = .error whole ↔ report.isFatal = true ∧ whole = report := by
  unfold verdict
  split
  · next hfatal => simp [hfatal, eq_comm]
  · next hfatal => simp [hfatal]

/-! ## Merging -/

/-- Adding findings that are present changes nothing. -/
theorem addAll_of_forall_mem {report : Report} {findings : List Finding}
    (h : ∀ finding ∈ findings, finding ∈ report.findings) : report.addAll findings = report := by
  induction findings with
  | nil => rfl
  | cons first rest ih =>
      rw [addAll_cons, add_of_mem (h first List.mem_cons_self)]
      exact ih fun finding hmem => h finding (List.mem_cons_of_mem _ hmem)

theorem extend_assoc (first second third : Report) :
    (first.extend second).extend third = first.extend (second.extend third) :=
  (extend_addAll first second third.findings).symm

theorem extend_self (report : Report) : report.extend report = report :=
  addAll_of_forall_mem fun _ hmem => hmem

/-- A report is merged in once. -/
theorem extend_extend_self (first second : Report) :
    (first.extend second).extend second = first.extend second := by
  rw [extend_assoc, extend_self]

theorem isFatal_extend (first second : Report) :
    (first.extend second).isFatal = (first.isFatal || second.isFatal) := by
  rw [Bool.eq_iff_iff]
  simp only [isFatal, extend, Bool.or_eq_true, List.any_eq_true, mem_findings_addAll, or_and_right,
    exists_or]

/-! ## Histories -/

/-- The calls that build a report. A report that is merged in has a history of its own. -/
inductive History where
  | new
  | add (earlier : History) (finding : Finding)
  | addFatal (earlier : History) (message : String)
  | addAdvisory (earlier : History) (message : String)
  | extend (earlier merged : History)

namespace History

/-- The report that the calls leave. -/
def report : History → Report
  | new => .empty
  | add earlier finding => earlier.report.add finding
  | addFatal earlier message => earlier.report.addFatal message
  | addAdvisory earlier message => earlier.report.addAdvisory message
  | extend earlier merged => earlier.report.extend merged.report

/-- All findings that are offered, in order and as often as they are. To merge a report in is to
offer what was offered to it. -/
def offered : History → List Finding
  | new => []
  | add earlier finding => earlier.offered ++ [finding]
  | addFatal earlier message => earlier.offered ++ [⟨message, true⟩]
  | addAdvisory earlier message => earlier.offered ++ [⟨message, false⟩]
  | extend earlier merged => earlier.offered ++ merged.offered

/-- A history leaves the report of all findings that were offered. -/
theorem report_eq (history : History) : history.report = .ofList history.offered := by
  induction history with
  | new => rfl
  | add earlier finding ih => rw [report, offered, ofList_concat, ih]
  | addFatal earlier message ih => rw [report, offered, ofList_concat, ih, Report.addFatal]
  | addAdvisory earlier message ih => rw [report, offered, ofList_concat, ih, Report.addAdvisory]
  | extend earlier merged ih ihMerged =>
      -- what was offered to the merged report can be added directly
      rw [report, offered, ih, ihMerged, ← addAll_eq_extend]
      exact (addAll_append Report.empty earlier.offered merged.offered).symm

/-- Whatever calls build a report, it has the first occurrences of all findings that were offered,
in order, and so none of them twice. It is fatal when a fatal finding was offered, its fatal
findings are as many as the different fatal messages, and the verdict refuses it as a whole exactly
when it is fatal. Merging is associative, a report that has been merged in changes nothing the next
time, the findings that are present stay in front, and the result is fatal when either report is. -/
theorem report_orderedSet :
    (∀ history : History,
      history.report.findings = history.offered.eraseDups ∧
        history.report.findings.Nodup ∧
        (history.report.isFatal = true ↔ HasFatal history.offered) ∧
        history.report.fatalCount = (fatalMessages history.offered).toFinset.card ∧
        ∀ whole, history.report.verdict = .error whole ↔
          history.report.isFatal = true ∧ whole = history.report) ∧
      (∀ first second third : Report,
        (first.extend second).extend third = first.extend (second.extend third)) ∧
      (∀ report : Report, report.extend report = report) ∧
      ∀ first second : Report,
        (first.extend second).extend second = first.extend second ∧
          first.findings <+: (first.extend second).findings ∧
          (first.extend second).isFatal = (first.isFatal || second.isFatal) := by
  refine ⟨fun history => ?_, extend_assoc, extend_self, fun first second => ?_⟩
  · rw [history.report_eq]
    exact ⟨findings_ofList_eq _, (ofList history.offered).nodup, isFatal_ofList_iff,
      fatalCount_ofList _, fun _ => verdict_eq_error_iff⟩
  · exact ⟨extend_extend_self first second, prefix_addAll first second.findings,
      isFatal_extend first second⟩

end History

end Report

end SearchWire
