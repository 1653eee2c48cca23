import SyntaxForest.CommandLine.ExitStatus

/-! Failures on their way up.  Every layer that a failure passes may name its own
operation, note a fact, make the failure fatal or, if none is known yet, give its cause.
What was known of the failure stays as it was, and so does the status that the run ends
with.  The operations that were named can all be told from the failure, in the order in
which they were named. -/

namespace SyntaxForest.Failure

/-- What a layer remarks on a failure that passes it. -/
inductive Remark where
  | during (operation : String)
  | noting (key value : String)
  | fatal
  | because (cause : Cause)
deriving DecidableEq, Repr

/-- An operation, unless it is empty and so names nothing. -/
def named (operation : String) : List String :=
  if operation = "" then [] else [operation]

/-- The operation that a remark names. -/
def Remark.operations : Remark → List String
  | .during operation => named operation
  | _ => []

/-- The fact that a remark notes. -/
def Remark.notes : Remark → List (String × String)
  | .noting key value => [(key, value)]
  | _ => []

/-- The cause that a remark gives. -/
def Remark.causes : Remark → List Cause
  | .because cause => [cause]
  | _ => []

/-- The failure after a remark, unless the remark is refused. -/
def pass (failure : Failure) : Remark → Except Fault Failure
  | .during operation => .ok (failure.during operation)
  | .noting key value => .ok (failure.noting key value)
  | .fatal => .ok failure.fatal
  | .because cause => failure.setCause cause

/-- The failure after one remark after the other, unless one is refused. -/
def passAll (failure : Failure) (remarks : List Remark) : Except Fault Failure :=
  remarks.foldlM pass failure

/-- The failure after a remark that is not refused. -/
def passed (failure : Failure) : Remark → Failure
  | .during operation => failure.during operation
  | .noting key value => failure.noting key value
  | .fatal => failure.fatal
  | .because cause => failure.because cause

/-! ## When remarks are refused -/

theorem pass_eq_ok {failure : Failure} {remark : Remark}
    (h : failure.cause = none ∨ remark.causes = []) :
    failure.pass remark = .ok (failure.passed remark) := by
  cases remark with
  | because cause =>
    have hcause : failure.cause = none := h.resolve_right (List.cons_ne_nil cause [])
    simp [pass, setCause, hcause, passed]
  | _ => rfl

/-- Naming an operation moves the one named before into the context. -/
theorem during_eq (failure : Failure) (operation : String) :
    failure.during operation =
      { failure with
        operation
        context := failure.context ++
          (named failure.operation).map fun called => ("called", called) } := by
  rw [during, named]
  split
  · rw [List.map_nil, List.append_nil]
  · rfl

theorem toList_cause_passed {failure : Failure} {remark : Remark}
    (h : failure.cause = none ∨ remark.causes = []) :
    (failure.passed remark).cause.toList = failure.cause.toList ++ remark.causes := by
  cases remark with
  | during operation =>
    rw [passed, during_eq]
    exact (List.append_nil _).symm
  | because cause =>
    rw [h.resolve_right (List.cons_ne_nil cause [])]
    rfl
  | noting key value => exact (List.append_nil _).symm
  | fatal => exact (List.append_nil _).symm

/-- No remark is refused while there is at most one cause. -/
theorem passAll_eq_ok {failure : Failure} {remarks : List Remark}
    (h : (failure.cause.toList ++ remarks.flatMap Remark.causes).length ≤ 1) :
    failure.passAll remarks = .ok (remarks.foldl passed failure) := by
  induction remarks generalizing failure with
  | nil => rfl
  | cons remark remarks ih =>
    have hfirst : failure.cause = none ∨ remark.causes = [] := by
      cases hcause : failure.cause with
      | none => exact .inl rfl
      | some cause =>
        have hone : (some cause).toList.length = 1 := rfl
        rw [hcause, List.flatMap_cons, List.length_append, List.length_append, hone] at h
        exact .inr (List.eq_nil_of_length_eq_zero (by omega))
    rw [List.flatMap_cons, ← List.append_assoc, ← toList_cause_passed hfirst] at h
    rw [passAll, List.foldlM_cons, pass_eq_ok hfirst]
    exact ih h

/-! ## What remarks leave as it was -/

/-- What is known of a failure stays known. -/
structure Kept (failure later : Failure) : Prop where
  kind_eq : later.kind = failure.kind
  message_eq : later.message = failure.message
  context_isPrefix : failure.context <+: later.context
  isFatal : failure.isFatal = true → later.isFatal = true

namespace Kept

variable {failure later last : Failure}

theorem refl (failure : Failure) : Kept failure failure :=
  ⟨rfl, rfl, List.prefix_refl _, id⟩

theorem trans (h : Kept failure later) (h' : Kept later last) : Kept failure last where
  kind_eq := h'.kind_eq.trans h.kind_eq
  message_eq := h'.message_eq.trans h.message_eq
  context_isPrefix := h.context_isPrefix.trans h'.context_isPrefix
  isFatal := h'.isFatal ∘ h.isFatal

theorem during (failure : Failure) (operation : String) :
    Kept failure (failure.during operation) := by
  rw [during_eq]
  exact ⟨rfl, rfl, List.prefix_append _ _, id⟩

theorem noting (failure : Failure) (key value : String) : Kept failure (failure.noting key value) :=
  ⟨rfl, rfl, List.prefix_append _ _, id⟩

theorem fatal (failure : Failure) : Kept failure failure.fatal :=
  ⟨rfl, rfl, List.prefix_refl _, fun _ => rfl⟩

theorem because (failure : Failure) (cause : Cause) : Kept failure (failure.because cause) :=
  ⟨rfl, rfl, List.prefix_refl _, id⟩

theorem passed (failure : Failure) (remark : Remark) : Kept failure (failure.passed remark) := by
  cases remark with
  | during operation => exact Kept.during failure operation
  | noting key value => exact Kept.noting failure key value
  | fatal => exact Kept.fatal failure
  | because cause => exact Kept.because failure cause

theorem foldl (failure : Failure) (remarks : List Remark) :
    Kept failure (remarks.foldl Failure.passed failure) := by
  induction remarks generalizing failure with
  | nil => exact Kept.refl failure
  | cons remark remarks ih => exact (Kept.passed failure remark).trans (ih (failure.passed remark))

/-- A fact is found as before: later facts under its key come after it. -/
theorem contextValue?_eq (h : Kept failure later) {key : String}
    (hkey : key ∈ failure.context.map Prod.fst) :
    later.contextValue? key = failure.contextValue? key := by
  obtain ⟨added, hadded⟩ := h.context_isPrefix
  obtain ⟨note, hnote, rfl⟩ := List.mem_map.mp hkey
  have hsome : (failure.context.lookup note.1).isSome = true :=
    List.lookup_isSome_iff.mpr ⟨note, hnote, beq_self_eq_true _⟩
  rw [contextValue?, contextValue?, ← hadded, List.lookup_append, Option.or_of_isSome hsome]

end Kept

/-! ## The status that a run ends with -/

/-- A remark that does not note a fact under a key leaves what is found there; operations
are kept under a key of their own. -/
theorem contextValue?_passed (failure : Failure) {remark : Remark} {key : String}
    (hcalled : key ≠ "called") (hremark : ∀ value, remark ≠ .noting key value) :
    (failure.passed remark).contextValue? key = failure.contextValue? key := by
  have hother {other value : String} (hne : key ≠ other) :
      (failure.context ++ [(other, value)]).lookup key = failure.context.lookup key := by
    rw [List.lookup_append, List.lookup_cons, beq_false_of_ne hne]
    exact Option.or_none
  cases remark with
  | during operation =>
    rw [passed, during_eq, named]
    split
    · rw [List.map_nil, List.append_nil]
      rfl
    · exact hother hcalled
  | noting other value =>
    refine hother ?_
    rintro rfl
    exact hremark value rfl
  | fatal => rfl
  | because cause => rfl

theorem contextValue?_foldl (failure : Failure) {remarks : List Remark} {key : String}
    (hcalled : key ≠ "called") (hremarks : ∀ value, .noting key value ∉ remarks) :
    (remarks.foldl passed failure).contextValue? key = failure.contextValue? key := by
  induction remarks generalizing failure with
  | nil => rfl
  | cons remark remarks ih =>
    have hrest : ∀ value, .noting key value ∉ remarks := fun value hvalue =>
      hremarks value (List.mem_cons_of_mem remark hvalue)
    have hfirst : ∀ value, remark ≠ .noting key value := by
      rintro value rfl
      exact hremarks value List.mem_cons_self
    rw [List.foldl_cons, ih (failure.passed remark) hrest,
      contextValue?_passed failure hcalled hfirst]

/-- The status is read off the kind and the rule about inputs. -/
theorem status_congr {failure later : Failure} (hkind : later.kind = failure.kind)
    (hinput : later.contextValue? ExitStatus.inputKey = failure.contextValue? ExitStatus.inputKey) :
    ExitStatus.ofFailure later = ExitStatus.ofFailure failure := by
  rw [ExitStatus.ofFailure, ExitStatus.ofFailure, hkind, hinput]

/-- **Remarks do not change how a run ends.**  A failure keeps its kind, its message, the
facts noted on it and the status of the run, as long as no remark is about the inputs or
the failure was about them from the start; and once it is fatal it stays so. -/
theorem passAll_keeps_status (failure : Failure) (remarks : List Remark)
    (hcauses : (failure.cause.toList ++ remarks.flatMap Remark.causes).length ≤ 1)
    (hnotes : ∀ key value, .noting key value ∈ remarks →
      key ≠ ExitStatus.inputKey ∨ ExitStatus.inputKey ∈ failure.context.map Prod.fst) :
    ∃ later, failure.passAll remarks = .ok later ∧
      later.kind = failure.kind ∧
      later.message = failure.message ∧
      ExitStatus.ofFailure later = ExitStatus.ofFailure failure ∧
      (∀ key ∈ failure.context.map Prod.fst,
        later.contextValue? key = failure.contextValue? key) ∧
      failure.context <+: later.context ∧
      ∀ front, front <+: remarks → ∃ between, failure.passAll front = .ok between ∧
        (between.isFatal = true → later.isFatal = true) := by
  have hkept := Kept.foldl failure remarks
  have hinput : (remarks.foldl passed failure).contextValue? ExitStatus.inputKey =
      failure.contextValue? ExitStatus.inputKey := by
    -- a rule that is there is found first, and if none is there no remark notes one
    by_cases hpresent : ExitStatus.inputKey ∈ failure.context.map Prod.fst
    · exact hkept.contextValue?_eq hpresent
    · apply contextValue?_foldl failure (by decide)
      intro value hvalue
      exact (hnotes _ value hvalue).elim (fun hne => hne rfl) hpresent
  refine ⟨_, passAll_eq_ok hcauses, hkept.kind_eq, hkept.message_eq,
    status_congr hkept.kind_eq hinput, fun key hkey => hkept.contextValue?_eq hkey,
    hkept.context_isPrefix, ?_⟩
  rintro front ⟨back, rfl⟩
  rw [List.flatMap_append, ← List.append_assoc] at hcauses
  refine ⟨_, passAll_eq_ok (Nat.le_trans (List.prefix_append _ _).length_le hcauses), ?_⟩
  rw [List.foldl_append]
  exact (Kept.foldl _ back).isFatal

/-- A second rule about inputs is noted, and the first one still decides. -/
theorem passAll_keeps_status_missingInput :
    ∃ later, ((invalidArgument "no input").noting ExitStatus.inputKey "missing").passAll
        [.during "options::input", .noting ExitStatus.inputKey "conflicting",
          .because ⟨"io", "io"⟩, .during "", .during "run"] = .ok later ∧
      ExitStatus.ofFailure later = .missingInput ∧
      later.contextValue? ExitStatus.inputKey = some "missing" ∧
      later.isFatal = true := by
  obtain ⟨later, hlater, -, -, hstatus, hvalue, -, hfatal⟩ :=
    passAll_keeps_status ((invalidArgument "no input").noting ExitStatus.inputKey "missing")
      [.during "options::input", .noting ExitStatus.inputKey "conflicting",
        .because ⟨"io", "io"⟩, .during "", .during "run"]
      (by decide) (fun _ _ _ => .inr (by decide))
  obtain ⟨first, hfirst, hstays⟩ := hfatal [] List.nil_prefix
  obtain rfl := Except.ok.inj hfirst
  exact ⟨later, hlater, hstatus, hvalue _ (by decide), hstays rfl⟩

/-! ## The operations that were named -/

/-- The operations that are kept in the context. -/
def calls (failure : Failure) : List String :=
  (failure.context.filter fun note => note.1 = "called").map Prod.snd

/-- The facts in the context that are no operations. -/
def notes (failure : Failure) : List (String × String) :=
  failure.context.filter fun note => note.1 ≠ "called"

/-- All operations, the one that was named last at the end. -/
def chain (failure : Failure) : List String :=
  failure.calls ++ named failure.operation

theorem calls_during (failure : Failure) (operation : String) :
    (failure.during operation).calls = failure.chain := by
  rw [during_eq, calls, List.filter_append, List.map_append, List.filter_map, List.map_map, chain,
    calls]
  simp [Function.comp_def]

theorem notes_during (failure : Failure) (operation : String) :
    (failure.during operation).notes = failure.notes := by
  rw [during_eq, notes, List.filter_append, List.filter_map, notes]
  simp [Function.comp_def]

/-- A remark adds the operation that it names, wherever that is kept. -/
theorem chain_passed (failure : Failure) {remark : Remark}
    (h : ∀ value, remark ≠ .noting "called" value) :
    (failure.passed remark).chain = failure.chain ++ remark.operations := by
  cases remark with
  | during operation =>
    rw [passed, chain, calls_during]
    rfl
  | noting key value =>
    have hkey : key ≠ "called" := by
      rintro rfl
      exact h value rfl
    simp [passed, chain, calls, noting, hkey, Remark.operations]
  | fatal => exact (List.append_nil _).symm
  | because cause => exact (List.append_nil _).symm

theorem notes_passed (failure : Failure) {remark : Remark}
    (h : ∀ value, remark ≠ .noting "called" value) :
    (failure.passed remark).notes = failure.notes ++ remark.notes := by
  cases remark with
  | during operation =>
    rw [passed, notes_during]
    exact (List.append_nil _).symm
  | noting key value =>
    have hkey : key ≠ "called" := by
      rintro rfl
      exact h value rfl
    simp [passed, notes, noting, hkey, Remark.notes]
  | fatal => exact (List.append_nil _).symm
  | because cause => exact (List.append_nil _).symm

/-- What every remark adds to, remarks add to one after the other. -/
theorem foldl_passed_eq_append {α : Type} (view : Failure → List α) {part : Remark → List α}
    {remarks : List Remark} (failure : Failure)
    (hstep : ∀ remark ∈ remarks, ∀ each : Failure,
      view (each.passed remark) = view each ++ part remark) :
    view (remarks.foldl passed failure) = view failure ++ remarks.flatMap part := by
  induction remarks generalizing failure with
  | nil => exact (List.append_nil _).symm
  | cons remark remarks ih =>
    rw [List.foldl_cons, ih _ fun later hlater => hstep later (List.mem_cons_of_mem remark hlater),
      hstep remark List.mem_cons_self, List.append_assoc, List.flatMap_cons]

/-- **No operation is lost and none is told twice.**  The operations that were named on a
fresh failure are those kept in its context, in order, and the one it has now; all else
in its context was noted there, in this order. -/
theorem passAll_keeps_calls (kind : Kind) (message : String) (remarks : List Remark)
    (hcauses : (remarks.flatMap Remark.causes).length ≤ 1)
    (hnotes : ∀ key value, .noting key value ∈ remarks → key ≠ "called") :
    ∃ later, (of kind message).passAll remarks = .ok later ∧
      remarks.flatMap Remark.operations = later.calls ++ named later.operation ∧
      later.notes = remarks.flatMap Remark.notes := by
  have hremark : ∀ remark ∈ remarks, ∀ value, remark ≠ .noting "called" value := by
    rintro _ hmem value rfl
    exact hnotes "called" value hmem rfl
  refine ⟨_, passAll_eq_ok hcauses, ?_, ?_⟩
  · have hchain := foldl_passed_eq_append chain (of kind message) fun remark hmem each =>
      chain_passed each (hremark remark hmem)
    exact hchain.symm
  · exact foldl_passed_eq_append notes (of kind message) fun remark hmem each =>
      notes_passed each (hremark remark hmem)

/-- Empty operations name nothing, and push the one before them into the context. -/
theorem passAll_keeps_calls_twoLayers :
    ∃ later, (of .parseFailed "no tree").passAll
        [.during "java::parse", .noting "file" "A.java", .during "", .fatal, .during "",
          .because ⟨"io", "io"⟩, .noting "file" "B.java", .during "file::read",
          .during "pipeline::process"] = .ok later ∧
      ["java::parse", "file::read", "pipeline::process"] =
        later.calls ++ named later.operation ∧
      later.notes = [("file", "A.java"), ("file", "B.java")] := by
  refine passAll_keeps_calls .parseFailed "no tree" _ (by decide) ?_
  intro key value hmem
  simp only [List.mem_cons, List.not_mem_nil, reduceCtorEq, Remark.noting.injEq, false_or,
    or_false] at hmem
  rcases hmem with ⟨rfl, -⟩ | ⟨rfl, -⟩ <;> decide

end SyntaxForest.Failure
