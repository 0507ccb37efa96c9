/-!
# Validation reports

A report lists the findings about a request in the order in which they were
made, each once: adding a finding that is already present changes nothing. A
fatal finding stops a request from being written, an advisory one does not;
`Report.verdict` refuses a report with a fatal finding.
-/

namespace SearchWire

/-- One finding about a request. -/
structure Finding where
  message : String
  fatal : Bool
deriving DecidableEq

namespace Finding

/-- The wording of a finding; an advisory one says so. -/
def display (finding : Finding) : String :=
  if finding.fatal then finding.message else "(advisory) " ++ finding.message

end Finding

/-- Findings in order, none of them twice. -/
structure Report where
  findings : List Finding
  nodup : findings.Nodup
deriving DecidableEq

namespace Report

/-- The report without findings. -/
def empty : Report :=
  ⟨[], List.nodup_nil⟩

/-- Adds a finding at the end unless it is present. -/
def add (report : Report) (finding : Finding) : Report :=
  if h : finding ∈ report.findings then report
  else
    ⟨report.findings ++ [finding], by
      refine List.nodup_append.2 ⟨report.nodup, by simp, ?_⟩
      intro a ha b hb
      rw [List.mem_singleton.1 hb]
      exact fun equal => h (equal ▸ ha)⟩

theorem findings_add (report : Report) (finding : Finding) :
    (report.add finding).findings =
      if finding ∈ report.findings then report.findings else report.findings ++ [finding] := by
  unfold add
  split <;> rfl

@[simp] theorem mem_findings_add {report : Report} {finding other : Finding} :
    other ∈ (report.add finding).findings ↔ other ∈ report.findings ∨ other = finding := by
  rw [findings_add]
  split
  · next present =>
      constructor
      · exact Or.inl
      · rintro (member | rfl)
        · exact member
        · exact present
  · simp

/-- Adds a fatal finding. -/
def addFatal (report : Report) (message : String) : Report :=
  report.add ⟨message, true⟩

/-- Adds an advisory finding. -/
def addAdvisory (report : Report) (message : String) : Report :=
  report.add ⟨message, false⟩

/-- Adds findings one after another. -/
def addAll (report : Report) (findings : List Finding) : Report :=
  findings.foldl add report

/-- Adds the findings of another report. -/
def extend (report other : Report) : Report :=
  report.addAll other.findings

/-- The report of the given findings. -/
def ofList (findings : List Finding) : Report :=
  empty.addAll findings

/-- The number of findings. -/
def size (report : Report) : Nat :=
  report.findings.length

/-- Whether nothing was found. -/
def isEmpty (report : Report) : Bool :=
  report.findings.isEmpty

/-- Whether some finding is fatal. -/
def isFatal (report : Report) : Bool :=
  report.findings.any (·.fatal)

/-- The number of fatal findings. -/
def fatalCount (report : Report) : Nat :=
  report.findings.countP (·.fatal)

/-- The messages of the findings, in order. -/
def messages (report : Report) : List String :=
  report.findings.map (·.message)

/-- The wording of a report: its findings in order. -/
def display (report : Report) : String :=
  "; ".intercalate (report.findings.map Finding.display)

/-- Passes a report without fatal findings and refuses any other as a whole. -/
def verdict (report : Report) : Except Report Unit :=
  if report.isFatal then .error report else .ok ()

end Report

end SearchWire
